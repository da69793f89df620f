set_option autoImplicit false

/-! # Blank characters, words and lines

Which characters part words, which end lines, and the operations that rest on them: trimming,
splitting into words, and cutting into lines. -/

namespace Folio.Text

/-! ## Blank characters -/

/-- The white space of the Unicode standard, with the four separators `U+001C` to `U+001F`. -/
def isBlank (c : Char) : Bool :=
  let n := c.toNat
  (0x09 ≤ n && n ≤ 0x0D) || (0x1C ≤ n && n ≤ 0x20) || n == 0x85 || n == 0xA0 || n == 0x1680 ||
  (0x2000 ≤ n && n ≤ 0x200A) || n == 0x2028 || n == 0x2029 || n == 0x202F || n == 0x205F ||
  n == 0x3000

/-! ## Trimming -/

/-- Drop the blanks at both ends of a list of characters. -/
def trimBlanks (cs : List Char) : List Char :=
  ((cs.dropWhile isBlank).reverse.dropWhile isBlank).reverse

/-- What stands around a text and is trimmed does not matter. -/
theorem trim_surround {p : Char → Bool} {before after : List Char} (hbefore : ∀ c ∈ before, p c = true)
    (hafter : ∀ c ∈ after, p c = true) (cs : List Char) :
    (((before ++ cs ++ after).dropWhile p).reverse.dropWhile p).reverse =
      ((cs.dropWhile p).reverse.dropWhile p).reverse := by
  rw [List.append_assoc, List.dropWhile_append_of_pos hbefore, List.dropWhile_append]
  split
  next hempty =>
    have hall : (after ++ []).dropWhile p = [] := List.dropWhile_append_of_pos hafter
    rw [List.append_nil] at hall
    rw [List.isEmpty_iff.1 hempty, hall]
  next => rw [List.reverse_append, List.dropWhile_append_of_pos fun c hc => hafter c (List.mem_reverse.1 hc)]

theorem trimBlanks_surround {before after : List Char} (hbefore : ∀ c ∈ before, isBlank c = true)
    (hafter : ∀ c ∈ after, isBlank c = true) (cs : List Char) : trimBlanks (before ++ cs ++ after) = trimBlanks cs :=
  trim_surround hbefore hafter cs

/-- A text that starts and ends with what is not trimmed stays whole. What follows it is trimmed at its end only. -/
theorem trim_append {p : Char → Bool} {c d : Char} {cs : List Char} (hfirst : cs.head? = some c) (hc : p c = false)
    (hlast : cs.getLast? = some d) (hd : p d = false) (rest : List Char) :
    (((cs ++ rest).dropWhile p).reverse.dropWhile p).reverse = cs ++ (rest.reverse.dropWhile p).reverse := by
  obtain ⟨more, rfl⟩ := List.head?_eq_some_iff.1 hfirst
  obtain ⟨init, hinit⟩ := List.getLast?_eq_some_iff.1 hlast
  have hfront : (c :: more ++ rest).dropWhile p = c :: more ++ rest := List.dropWhile_cons_of_neg (by simp [hc])
  have hback : (c :: more).reverse.dropWhile p = (c :: more).reverse := by
    rw [hinit, List.reverse_append, List.reverse_singleton, List.singleton_append,
      List.dropWhile_cons_of_neg (by simp [hd])]
  rw [hfront, List.reverse_append, List.dropWhile_append]
  split
  next hempty => rw [hback, List.isEmpty_iff.1 hempty, List.reverse_reverse, List.reverse_nil, List.append_nil]
  next => rw [List.reverse_append, List.reverse_reverse]

/-- What stands at the front and is not trimmed stays there. -/
theorem trim_cons {p : Char → Bool} {c : Char} (h : p c = false) (cs : List Char) :
    ∃ cs', (((c :: cs).dropWhile p).reverse.dropWhile p).reverse = c :: cs' := by
  have hc : [c].head? = some c ∧ [c].getLast? = some c := ⟨rfl, rfl⟩
  exact ⟨_, trim_append hc.1 h hc.2 h cs⟩

/-- Trimming the end of a text leaves a text with which it starts. -/
theorem starts_with_trimEnd (p : Char → Bool) (cs : List Char) : (cs.reverse.dropWhile p).reverse <+: cs := by
  rw [← List.reverse_suffix, List.reverse_reverse]
  exact List.dropWhile_suffix p

/-- No blank is left at the front. -/
theorem isBlank_head?_trimBlanks {c : Char} {cs : List Char} (h : (trimBlanks cs).head? = some c) : isBlank c = false := by
  have hhead : (cs.dropWhile isBlank).head? = some c := by
    obtain ⟨rest, hrest⟩ := starts_with_trimEnd isBlank (cs.dropWhile isBlank)
    rw [← hrest, List.head?_append]
    exact congrArg (Option.or · rest.head?) h
  have hstop := List.head?_dropWhile_not isBlank cs
  rw [hhead] at hstop
  exact hstop

/-- The text without the blanks at its two ends. -/
def strip (s : String) : String :=
  String.ofList (trimBlanks s.toList)

/-! ## Words -/

/-- The number of maximal runs of characters that are not blank. The flag says whether the
    character before the list belongs to a run. -/
def countRuns : Bool → List Char → Nat
  | _, [] => 0
  | inRun, c :: cs =>
    if isBlank c then countRuns false cs
    else if inRun then countRuns true cs
    else countRuns true cs + 1

/-! ## Lines -/

/-- The characters that end a line. A carriage return with the line feed after it ends one line. -/
def endsLine (c : Char) : Bool :=
  let n := c.toNat
  (0x0A ≤ n && n ≤ 0x0D) || (0x1C ≤ n && n ≤ 0x1E) || n == 0x85 || n == 0x2028 || n == 0x2029

/-- The lines of a text, each with the characters that end it, so that joining them gives the text
    back. The last line may lack an end; there is no empty line after a final end. -/
def lines : List Char → List (List Char)
  | [] => []
  | '\r' :: '\n' :: cs => ['\r', '\n'] :: lines cs
  | c :: cs =>
    if endsLine c then [c] :: lines cs
    else match lines cs with
      | [] => [[c]]
      | line :: rest => (c :: line) :: rest

/-- Nothing is lost or added by cutting a text into lines. -/
theorem lines_flatten (cs : List Char) : (lines cs).flatten = cs := by
  fun_induction lines cs <;> simp_all

end Folio.Text

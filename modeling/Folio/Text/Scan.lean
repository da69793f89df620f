import Folio.Text.Blank

set_option autoImplicit false

/-! # Searching lists of characters

Small functions that readers of text share: prefixes, first occurrences and the text before them.
Each is a recursion over the list and says what it leaves. -/

namespace Folio.Text

/-- The rest of `cs` after the prefix `p`, if `cs` starts with it. -/
def dropPrefix? : List Char → List Char → Option (List Char)
  | [], cs => some cs
  | _ :: _, [] => none
  | p :: ps, c :: cs => if p = c then dropPrefix? ps cs else none

/-- Whether `cs` starts with the characters of `p`. -/
def startsWith (p : String) (cs : List Char) : Bool :=
  (dropPrefix? p.toList cs).isSome

theorem dropPrefix?_eq_some {p cs rest : List Char} (h : dropPrefix? p cs = some rest) :
    cs = p ++ rest := by
  induction p generalizing cs with
  | nil => simpa [dropPrefix?] using h
  | cons x xs ih =>
    cases cs with
    | nil => simp [dropPrefix?] at h
    | cons c cs =>
      simp only [dropPrefix?] at h
      split at h
      next hx => simp [hx, ih h]
      next => simp at h

@[simp] theorem dropPrefix?_append (p rest : List Char) : dropPrefix? p (p ++ rest) = some rest := by
  induction p with
  | nil => rfl
  | cons x xs ih => simp [dropPrefix?, ih]

/-- Cut before the first character that satisfies `p`: the text before it, and the rest that starts
    with it. Nothing if there is no such character. -/
def cutBefore? (p : Char → Bool) : List Char → Option (List Char × List Char)
  | [] => none
  | c :: cs =>
    if p c then some ([], c :: cs)
    else (cutBefore? p cs).map fun (before, rest) => (c :: before, rest)

/-- Cut around the first place where `m` matches: the text before it, and the rest after the match.
    `m` gives the rest after a match at the start of the list. -/
def cutAround? (m : List Char → Option (List Char)) : List Char → Option (List Char × List Char)
  | [] => (m []).map ([], ·)
  | c :: cs =>
    match m (c :: cs) with
    | some rest => some ([], rest)
    | none => (cutAround? m cs).map fun (before, rest) => (c :: before, rest)

/-- The first place where `m` matches: the text before it, and the rest that starts with it. -/
def cutBeforeMatch? (m : List Char → Bool) : List Char → Option (List Char × List Char)
  | [] => if m [] then some ([], []) else none
  | c :: cs =>
    if m (c :: cs) then some ([], c :: cs)
    else (cutBeforeMatch? m cs).map fun (before, rest) => (c :: before, rest)

theorem cutBefore?_append {p : Char → Bool} {cs before rest : List Char}
    (h : cutBefore? p cs = some (before, rest)) : cs = before ++ rest := by
  induction cs generalizing before with
  | nil => simp [cutBefore?] at h
  | cons c cs ih =>
    simp only [cutBefore?] at h
    split at h
    · simp_all
    · simp only [Option.map_eq_some_iff, Prod.exists, Prod.mk.injEq] at h
      obtain ⟨b, r, hb, rfl, rfl⟩ := h
      simp [ih hb]

/-- A text is cut before a character of the kind. -/
theorem exists_of_cutBefore?_eq_some {p : Char → Bool} {cs before rest : List Char}
    (h : cutBefore? p cs = some (before, rest)) : ∃ c after, rest = c :: after ∧ p c = true := by
  induction cs generalizing before with
  | nil => cases h
  | cons d cs ih =>
    rw [cutBefore?] at h
    split at h
    next hd =>
      obtain ⟨rfl, rfl⟩ := Prod.mk.inj (Option.some.inj h)
      exact ⟨d, cs, rfl, hd⟩
    next =>
      obtain ⟨cut, hcut, heq⟩ := Option.map_eq_some_iff.1 h
      exact ih (hcut.trans (congrArg some (Prod.ext rfl (Prod.mk.inj heq).2)))

theorem cutBefore?_eq_none_iff {p : Char → Bool} {cs : List Char} : cutBefore? p cs = none ↔ ∀ c ∈ cs, p c = false := by
  induction cs with
  | nil => simp [cutBefore?]
  | cons c cs ih => cases hc : p c <;> simp [cutBefore?, hc, ih]

theorem bne_of_not_mem {mark : Char} {cs : List Char} (h : mark ∉ cs) : ∀ c ∈ cs, (c != mark) = true := by
  intro c hc
  rw [bne_iff_ne]
  rintro rfl
  exact h hc

theorem cutBefore?_append_of_not_mem {mark : Char} {cs : List Char} (h : mark ∉ cs) (rest : List Char) :
    cutBefore? (· == mark) (cs ++ mark :: rest) = some (cs, mark :: rest) := by
  induction cs with
  | nil => simp [cutBefore?]
  | cons c cs ih =>
    obtain ⟨hc, hcs⟩ := not_or.1 (mt List.mem_cons.2 h)
    rw [List.cons_append, cutBefore?, if_neg (by simpa using Ne.symm hc), ih hcs]
    rfl

/-- Characters are taken as long as they are of a kind. -/
theorem takeWhile_append_of_all {p : Char → Bool} {cs rest : List Char} (h : ∀ c ∈ cs, p c = true)
    (hrest : ∀ c ∈ rest.head?, p c = false) : (cs ++ rest).takeWhile p = cs := by
  rw [List.takeWhile_append_of_pos h]
  cases rest with
  | nil => simp
  | cons c rest => rw [List.takeWhile_cons_of_neg (by simp [hrest c rfl]), List.append_nil]

/-- Drop the blanks at the front. -/
def skipBlanks (cs : List Char) : List Char :=
  cs.dropWhile isBlank

/-- ASCII letters. -/
def isAsciiLetter (c : Char) : Bool :=
  ('a' ≤ c && c ≤ 'z') || ('A' ≤ c && c ≤ 'Z')

/-- ASCII digits. -/
def isAsciiDigit (c : Char) : Bool :=
  '0' ≤ c && c ≤ '9'

/-- ASCII letters and digits. -/
def isAsciiAlphanumeric (c : Char) : Bool :=
  isAsciiLetter c || isAsciiDigit c

/-- Digits of base sixteen. -/
def isHexDigit (c : Char) : Bool :=
  isAsciiDigit c || ('a' ≤ c && c ≤ 'f') || ('A' ≤ c && c ≤ 'F')

/-- The number that a list of decimal digits denotes. -/
def decimalValue (cs : List Char) : Nat :=
  cs.foldl (fun n c => 10 * n + (c.toNat - '0'.toNat)) 0

/-- Lower-case the ASCII letters of a text and keep everything else. -/
def asciiLower (cs : List Char) : List Char :=
  cs.map Char.toLower

/-- Whether `cs` starts with `p` when ASCII letter case is disregarded; `p` is in lower case. -/
def startsWithNoCase (p : String) (cs : List Char) : Bool :=
  asciiLower (cs.take p.length) == p.toList

end Folio.Text

import Folio.Json.Printer
import Folio.Json.Reader
import Folio.Proofs.Number.Numeral

set_option autoImplicit false

/-! # Numbers read back

Integers and numerals are read from the front of a text if what follows cannot belong to a number
(`Stops`). A numeral is read part by part: its sign, its digits, the fraction and the exponent
(`readNumber_parts`). An integer is read back if it has no more digits than are handled, and a finite
number is read back whatever its digits are. -/

namespace Folio.Json

open Binary64 (Numeral)
open Text (AllDigits decimalValue)

/-- What can follow a number without belonging to it. -/
def Stops (rest : List Char) : Prop :=
  ∀ c ∈ rest.head?, Text.isAsciiDigit c = false ∧ c ≠ '.' ∧ c ≠ 'e' ∧ c ≠ 'E'

theorem stops_nil : Stops [] := by simp [Stops]

theorem stops_cons {c : Char} (rest : List Char) (hdigit : Text.isAsciiDigit c = false)
    (hpoint : c ≠ '.') (hsmall : c ≠ 'e') (hbig : c ≠ 'E') : Stops (c :: rest) := by
  intro d hd
  obtain rfl : c = d := by simpa using hd
  exact ⟨hdigit, hpoint, hsmall, hbig⟩

theorem Stops.noDigit {rest : List Char} (h : Stops rest) :
    ∀ c ∈ rest.head?, Text.isAsciiDigit c = false := fun c hc => (h c hc).1

/-! ## The parts of a number -/

/-- The first character of an integer's digits. -/
theorem exists_head_whole {whole : List Char} (h : Numeral.IsWhole whole) :
    ∃ c cs, whole = c :: cs ∧ Text.isAsciiDigit c = true := by
  obtain ⟨c, cs, rfl⟩ := List.exists_cons_of_ne_nil h.ne_nil
  exact ⟨c, cs, rfl, h.allDigits c (by simp)⟩

theorem sign_take (negative : Bool) {whole : List Char} (h : Numeral.IsWhole whole)
    (rest : List Char) :
    (((if negative then ['-'] else []) ++ (whole ++ rest)).takeWhile (· == '-')).take 1
      = if negative then ['-'] else [] := by
  obtain ⟨c, cs, rfl, hc⟩ := exists_head_whole h
  have hminus : (c == '-') = false := by
    rw [beq_eq_false_iff_ne]
    rintro rfl
    cases hc
  cases negative <;> simp [hminus]

theorem integerDigits_append {whole rest : List Char} (h : Numeral.IsWhole whole)
    (hrest : ∀ c ∈ rest.head?, Text.isAsciiDigit c = false) :
    integerDigits (whole ++ rest) = whole := by
  rcases h with rfl | ⟨hne, hall, hhead⟩
  · rfl
  · have hzero : ∀ cs, whole ++ rest = '0' :: cs → False := by
      intro cs hcs
      cases whole with
      | nil => exact hne rfl
      | cons c ds =>
        rw [List.cons_append] at hcs
        exact hhead (congrArg some (List.cons.inj hcs).1)
    rw [integerDigits, Text.takeWhile_append_of_all hall hrest]
    exact hzero

/-- The fraction with its point. -/
def pointed (fraction : List Char) : List Char :=
  if fraction = [] then [] else '.' :: fraction

theorem fractionAt_pointed {fraction rest : List Char} (h : AllDigits fraction)
    (hdigit : ∀ c ∈ rest.head?, Text.isAsciiDigit c = false) (hpoint : '.' ∉ rest.head?) :
    fractionAt (pointed fraction ++ rest) = fraction := by
  by_cases hnil : fraction = []
  · subst hnil
    rw [pointed, if_pos rfl, List.nil_append]
    unfold fractionAt
    split
    · next heq => exact absurd rfl hpoint
    · rfl
  · rw [pointed, if_neg hnil, List.cons_append, fractionAt, Text.takeWhile_append_of_all h hdigit]

theorem exponentAt_append {exponent rest : List Char} (h : Numeral.IsExponent exponent)
    (hrest : Stops rest) : exponentAt (exponent ++ rest) = exponent := by
  rcases h with rfl | ⟨sign, digits, rfl, hsign, hne, hall⟩
  · rw [List.nil_append]
    cases rest with
    | nil => rfl
    | cons c cs =>
      obtain ⟨-, -, hsmall, hbig⟩ := hrest c (by simp)
      simp [exponentAt, hsmall, hbig]
  · have htake := Text.takeWhile_append_of_all hall hrest.noDigit
    rcases hsign with rfl | rfl <;> simp [exponentAt, htake, hne]

theorem noDigit_exponent {exponent rest : List Char} (h : Numeral.IsExponent exponent)
    (hrest : Stops rest) :
    (∀ c ∈ (exponent ++ rest).head?, Text.isAsciiDigit c = false) ∧ '.' ∉ (exponent ++ rest).head? := by
  rcases h with rfl | ⟨sign, digits, rfl, -⟩
  · exact ⟨hrest.noDigit, fun h => (hrest _ h).2.1 rfl⟩
  · exact ⟨by simp; rfl, by simp⟩

theorem noDigit_pointed (fraction : List Char) {rest : List Char}
    (hrest : ∀ c ∈ rest.head?, Text.isAsciiDigit c = false) :
    ∀ c ∈ (pointed fraction ++ rest).head?, Text.isAsciiDigit c = false := by
  unfold pointed
  split
  · simpa using hrest
  · simp; rfl

/-- A number is read part by part. It is an integer if it has neither a fraction nor an exponent. -/
theorem readNumber_parts (negative : Bool) {whole fraction exponent rest : List Char}
    (hwhole : Numeral.IsWhole whole) (hfraction : AllDigits fraction)
    (hexponent : Numeral.IsExponent exponent) (hrest : Stops rest) :
    readNumber ((if negative then ['-'] else []) ++ (whole ++ (pointed fraction ++ (exponent ++ rest))))
      = if fraction.isEmpty && exponent.isEmpty then
          if maxDigits < whole.length then
            fail (.hugeInteger whole.length) ((if negative then ['-'] else []) ++
              (whole ++ (pointed fraction ++ (exponent ++ rest))))
          else .ok (.int (if negative then -(decimalValue whole : Int) else decimalValue whole), rest)
        else .ok (.float (.ofDecimal negative (decimalValue (whole ++ fraction))
          ((readExponent? exponent).getD 0 - fraction.length)), rest) := by
  obtain ⟨hdigit, hpoint⟩ := noDigit_exponent hexponent hrest
  have hsign := sign_take negative hwhole (pointed fraction ++ (exponent ++ rest))
  have hint := integerDigits_append hwhole (noDigit_pointed fraction hdigit)
  have hfrac := fractionAt_pointed hfraction hdigit hpoint
  have hexp := exponentAt_append hexponent hrest
  have hempty : whole.isEmpty = false := by simpa using hwhole.ne_nil
  -- what is left after the fraction
  have hafter : (if fraction.isEmpty = true then pointed fraction ++ (exponent ++ rest)
      else (pointed fraction ++ (exponent ++ rest)).drop (fraction.length + 1)) = exponent ++ rest := by
    unfold pointed
    by_cases hnil : fraction = [] <;> simp [hnil]
  have hdropSign : ((if negative then ['-'] else []) ++
      (whole ++ (pointed fraction ++ (exponent ++ rest)))).drop (if negative then ['-'] else []).length
      = whole ++ (pointed fraction ++ (exponent ++ rest)) := by
    rw [List.drop_left]
  have hdropWhole : ((if negative then ['-'] else []) ++
      (whole ++ (pointed fraction ++ (exponent ++ rest)))).drop
        ((if negative then ['-'] else []).length + whole.length)
      = pointed fraction ++ (exponent ++ rest) := by
    rw [← List.drop_drop, hdropSign, List.drop_left]
  have hnegative : (if negative then ['-'] else []).isEmpty = !negative := by
    cases negative <;> rfl
  unfold readNumber
  simp only [hsign, hdropSign, hint, hempty, hdropWhole, hfrac, hafter, hexp, List.drop_left,
    hnegative, Bool.not_not, Bool.false_eq_true, if_false]
  cases negative <;> rfl

/-! ## Integers -/

theorem length_toDigits_of_not_isHuge {n : Int} (h : isHuge n = false) :
    (Nat.toDigits 10 n.natAbs).length ≤ maxDigits := by
  have hpos : 0 < maxDigits := by decide
  unfold isHuge at h
  generalize maxDigits = limit at h hpos ⊢
  exact (Nat.length_toDigits_le_iff (by decide) hpos).2 (Nat.lt_of_not_le (of_decide_eq_false h))

theorem toList_toString (n : Int) :
    (toString n).toList = (if decide (n < 0) then ['-'] else []) ++ Nat.toDigits 10 n.natAbs := by
  cases n with
  | ofNat n => simp [toString, Int.repr, Nat.repr_eq_ofList_toDigits]
  | negSucc n =>
    simp [toString, Int.repr, Nat.repr_eq_ofList_toDigits, Int.negSucc_lt_zero]

/-- An integer is read back. -/
theorem readNumber_int {n : Int} (h : isHuge n = false) {rest : List Char} (hrest : Stops rest) :
    readNumber ((toString n).toList ++ rest) = .ok (.int n, rest) := by
  have hparts := readNumber_parts (decide (n < 0)) (Numeral.isWhole_toDigits n.natAbs)
    Text.allDigits_nil (.inl rfl) hrest
  have hlength := Nat.not_lt.2 (length_toDigits_of_not_isHuge h)
  have hvalue : (if decide (n < 0) = true then -(n.natAbs : Int) else n.natAbs) = n := by
    by_cases hn : n < 0
    · rw [if_pos (decide_eq_true hn)]
      omega
    · rw [if_neg (by simpa using hn)]
      omega
  simp only [pointed, if_true, List.nil_append, List.isEmpty_nil, Bool.and_self,
    Text.decimalValue_toDigits, if_neg hlength, hvalue] at hparts
  rw [toList_toString, List.append_assoc, hparts]

/-! ## Numerals -/

theorem chars_append (n : Numeral) (rest : List Char) :
    n.chars ++ rest = n.whole ++ (pointed n.fraction ++ (n.exponent ++ rest)) := by
  simp [Numeral.chars, pointed]

/-- A numeral is read as the number that it writes. -/
theorem readNumber_numeral (negative : Bool) {n : Numeral} (h : n.WellFormed) {rest : List Char}
    (hrest : Stops rest) :
    readNumber ((if negative then ['-'] else []) ++ (n.chars ++ rest))
      = .ok (.float (.ofDecimal negative n.decimal.digits n.decimal.exponent), rest) := by
  have hsome : (n.fraction.isEmpty && n.exponent.isEmpty) = false := by
    rw [Bool.and_eq_false_iff, List.isEmpty_eq_false_iff, List.isEmpty_eq_false_iff]
    exact h.notInteger
  rw [chars_append, readNumber_parts negative h.whole h.fraction h.exponent hrest, hsome]
  rfl

/-! ## Where numbers stand -/

/-- A text that starts as a number does: with a digit, or with a minus and a digit. -/
def StartsNumber (cs : List Char) : Prop :=
  ∃ (negative : Bool) (c : Char) (ds : List Char),
    cs = (if negative then ['-'] else []) ++ c :: ds ∧ Text.isAsciiDigit c = true

theorem startsNumber_whole (negative : Bool) {whole : List Char} (h : Numeral.IsWhole whole)
    (rest : List Char) : StartsNumber ((if negative then ['-'] else []) ++ (whole ++ rest)) := by
  obtain ⟨c, cs, rfl, hc⟩ := exists_head_whole h
  exact ⟨negative, c, cs ++ rest, rfl, hc⟩

theorem StartsNumber.append {cs : List Char} (h : StartsNumber cs) (rest : List Char) :
    StartsNumber (cs ++ rest) := by
  obtain ⟨negative, c, ds, rfl, hc⟩ := h
  exact ⟨negative, c, ds ++ rest, by rw [List.append_assoc, List.cons_append], hc⟩

/-- No digit is a letter or a sign. -/
theorem ne_of_isAsciiDigit {c d : Char} (hc : Text.isAsciiDigit c = true)
    (hd : Text.isAsciiDigit d = false) : c ≠ d := by
  rintro rfl
  rw [hc] at hd
  cases hd

/-- A number is no word. -/
theorem readWord?_number {cs : List Char} (h : StartsNumber cs) : readWord? cs = none := by
  obtain ⟨negative, c, ds, rfl, hc⟩ := h
  have hn := (ne_of_isAsciiDigit (d := 'n') hc (by decide)).symm
  have ht := (ne_of_isAsciiDigit (d := 't') hc (by decide)).symm
  have hf := (ne_of_isAsciiDigit (d := 'f') hc (by decide)).symm
  have hN := (ne_of_isAsciiDigit (d := 'N') hc (by decide)).symm
  have hI := (ne_of_isAsciiDigit (d := 'I') hc (by decide)).symm
  have hminus := (ne_of_isAsciiDigit (d := '-') hc (by decide)).symm
  cases negative <;>
    simp [readWord?, dataWords, Text.dropPrefix?, hn, ht, hf, hN, hI, hminus]

/-- Where a number stands, it is read. -/
theorem readValue_number {cs : List Char} (h : StartsNumber cs) (joins : Bool) (fuel : Nat) :
    readValue joins (fuel + 1) cs = readNumber cs := by
  have hword := readWord?_number h
  obtain ⟨negative, c, ds, rfl, hc⟩ := h
  have hquote := ne_of_isAsciiDigit (d := '"') hc (by decide)
  have hbrace := ne_of_isAsciiDigit (d := '\x7b') hc (by decide)
  have hbracket := ne_of_isAsciiDigit (d := '[') hc (by decide)
  cases negative with
  | true =>
    simp only [if_true] at hword ⊢
    rw [readValue]
    · rw [hword]
    all_goals simp
  | false =>
    simp only [Bool.false_eq_true, if_false, List.nil_append] at hword ⊢
    rw [readValue]
    · rw [hword]
    all_goals simp [hquote, hbrace, hbracket]

end Folio.Json

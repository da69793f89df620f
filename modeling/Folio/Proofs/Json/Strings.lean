import Folio.Json.Printer
import Folio.Json.Reader
import Folio.Proofs.Text.Quoted

set_option autoImplicit false

/-! # Strings read back

A string is read point by point: the reader of plain data takes the characters that a text is written as, in either
alphabet, and goes on with those after them (`IsSpelling`). A character beyond the units is written as the two halves of
its pair in the smaller alphabet, which are joined again (`joinPairs_flatMap_units`); so a reader that joins halves reads
texts without halves only, and one that does not reads the larger alphabet only (`readQuoted_flatMap`). A string that
keeps its characters is also a quoted text (`readQuoted?_stringChars`). -/

namespace Folio

theorem digitValue_hexDigit {n : Nat} (h : n < 16) : digitValue (Text.hexDigit n) = n := by
  interval_cases n <;> rfl

theorem digitsValue_concat (base : Nat) (cs : List Char) (c : Char) :
    digitsValue base (cs ++ [c]) = digitsValue base cs * base + digitValue c := by
  simp [digitsValue]

theorem digitsValue_hexDigits (width n : Nat) :
    digitsValue 16 (Text.hexDigits width n) = n % 16 ^ width := by
  induction width generalizing n with
  | zero => rw [Nat.pow_zero, Nat.mod_one]; rfl
  | succ width ih =>
    rw [Text.hexDigits, digitsValue_concat, ih, digitValue_hexDigit (Nat.mod_lt _ (by decide)),
      Nat.pow_succ', Nat.mod_mul, Nat.add_comm, Nat.mul_comm]

theorem all_isHexDigit_hexDigits (width n : Nat) :
    (Text.hexDigits width n).all Text.isHexDigit = true := by
  induction width generalizing n with
  | zero => rfl
  | succ width ih =>
    have hdigit : ∀ d < 16, Text.isHexDigit (Text.hexDigit d) = true := by decide
    rw [Text.hexDigits, List.all_append, ih, List.all_cons, List.all_nil,
      hdigit _ (Nat.mod_lt _ (by decide))]
    rfl

namespace Json

/-! ## Units -/

theorem unitEscape?_hexDigits {n : Nat} (h : n < 0x10000) (rest : List Char) :
    unitEscape? ('u' :: (Text.hexDigits 4 n ++ rest)) = some (n, rest) := by
  have htake : (Text.hexDigits 4 n ++ rest).take 4 = Text.hexDigits 4 n := by simp
  have hdrop : (Text.hexDigits 4 n ++ rest).drop 4 = rest := by simp
  have hvalue : digitsValue 16 (Text.hexDigits 4 n) = n := by
    rw [digitsValue_hexDigits, Nat.mod_eq_of_lt (show n < 16 ^ 4 from h)]
  simp only [unitEscape?, htake, hdrop, unitOf?, Text.length_hexDigits, all_isHexDigit_hexDigits,
    and_self, if_true, hvalue, Option.map_some]

@[simp] theorem unitPoint_halfNumber (h : Text.Half) : unitPoint (Text.halfNumber h) = .half h := by
  rw [unitPoint, Text.Point.half?_halfNumber]

theorem unitPoint_add {k : Nat} (h : k < 0x800) : unitPoint (0xD800 + k) = .half ⟨k, h⟩ := by
  have hhalf : Text.Point.half? (0xD800 + k) = some ⟨k, h⟩ := Text.Point.half?_eq_some_iff.2 rfl
  rw [unitPoint, hhalf]

@[simp] theorem unitPoint_toNat (c : Char) : unitPoint c.toNat = .char c := by
  rw [unitPoint, Text.Point.half?_toNat, Char.ofNat_toNat]

/-- The units of a character: itself, or the halves of its pair. -/
def unitsOf (c : Char) : List Text.Point :=
  if c.toNat < 0x10000 then [.char c]
  else [unitPoint (0xD800 + (c.toNat - 0x10000) / 0x400), unitPoint (0xDC00 + (c.toNat - 0x10000) % 0x400)]

/-- What is read of a point that is written in an alphabet. -/
def unitsIn (asciiOnly : Bool) : Text.Point → List Text.Point
  | .char c => if asciiOnly then unitsOf c else [.char c]
  | .half h => [.half h]

theorem unitsIn_true (c : Char) : unitsIn true (.char c) = unitsOf c := by
  rw [unitsIn, if_pos rfl]

theorem unitsIn_of_lt {c : Char} (h : c.toNat < 0x10000) (asciiOnly : Bool) : unitsIn asciiOnly (.char c) = [.char c] := by
  rw [unitsIn, unitsOf, if_pos h, ite_self]

theorem joinPairs_char (c : Char) (ps : List Text.Point) : Text.joinPairs (.char c :: ps) = .char c :: Text.joinPairs ps :=
  rfl

/-- The halves of a pair are joined, whatever follows them. -/
theorem joinPairs_pair {a b : Text.Half} (ha : a.val < 0x400) (hb : 0x400 ≤ b.val) (ps : List Text.Point) :
    Text.joinPairs (.half a :: .half b :: ps)
      = .char (Char.ofNat (0x10000 + a.val * 0x400 + (b.val - 0x400))) :: Text.joinPairs ps := by
  have hsecond : Text.joinPoint (.half b) (Text.joinPairs ps) = .half b :: Text.joinPairs ps := by
    unfold Text.joinPoint
    split
    · next heq _ =>
      obtain rfl := Text.Point.half.inj heq
      rw [if_neg (by omega)]
    · rfl
  show Text.joinPoint (.half a) (Text.joinPoint (.half b) (Text.joinPairs ps)) = _
  rw [hsecond]
  exact if_pos ⟨ha, hb⟩

/-- The units of a character are joined to it. -/
theorem joinPairs_unitsOf (c : Char) (ps : List Text.Point) :
    Text.joinPairs (unitsOf c ++ ps) = .char c :: Text.joinPairs ps := by
  have hlimit := Text.codePoint_lt c
  unfold unitsOf
  split
  · exact joinPairs_char c ps
  · next hhigh =>
    generalize hn : c.toNat = n at hlimit hhigh
    have hfirst : (n - 0x10000) / 0x400 < 0x400 := by omega
    have hsecond : 0x400 + (n - 0x10000) % 0x400 < 0x800 := by omega
    have hsum : 0xDC00 + (n - 0x10000) % 0x400 = 0xD800 + (0x400 + (n - 0x10000) % 0x400) := by omega
    have hvalue : 0x10000 + (n - 0x10000) / 0x400 * 0x400 + (0x400 + (n - 0x10000) % 0x400 - 0x400) = n := by omega
    rw [hsum, unitPoint_add (Nat.lt_trans hfirst (by decide)), unitPoint_add hsecond, List.cons_append, List.singleton_append,
      joinPairs_pair hfirst (Nat.le_add_right _ _), hvalue, ← hn, Char.ofNat_toNat]

/-- A text without halves is joined again from its units. -/
theorem joinPairs_flatMap_units (asciiOnly : Bool) (cs : List Char) :
    Text.joinPairs ((Text.points cs).flatMap (unitsIn asciiOnly)) = Text.points cs := by
  induction cs with
  | nil => rfl
  | cons c cs ih =>
    have hcons : Text.joinPairs (unitsIn asciiOnly (.char c) ++ (Text.points cs).flatMap (unitsIn asciiOnly))
        = .char c :: Text.joinPairs ((Text.points cs).flatMap (unitsIn asciiOnly)) := by
      cases asciiOnly with
      | true => rw [unitsIn_true, joinPairs_unitsOf]
      | false => exact joinPairs_char c _
    exact hcons.trans (congrArg _ ih)

theorem flatMap_unitsIn_false (ps : List Text.Point) : ps.flatMap (unitsIn false) = ps := by
  have hsame : unitsIn false = fun p => [p] := by
    funext p
    cases p <;> rfl
  rw [hsame, List.flatMap_singleton']

/-! ## Points -/

/-- In a string, a text is read as some points; something must follow it. -/
structure IsSpelling (piece : List Char) (ps : List Text.Point) : Prop where
  length_le : ps.length ≤ piece.length
  read : ∀ (start fuel : Nat) (rest : List Char), rest ≠ [] →
    readString start (fuel + ps.length) (piece ++ rest)
      = (readString start fuel rest).map fun (qs, rest) => (ps ++ qs, rest)

theorem isSpelling_nil : IsSpelling [] [] := by
  refine ⟨Nat.le_refl _, fun start fuel rest _ => ?_⟩
  show readString start fuel rest = _
  cases readString start fuel rest <;> rfl

theorem IsSpelling.append {piece piece' : List Char} {ps ps' : List Text.Point} (h : IsSpelling piece ps)
    (h' : IsSpelling piece' ps') : IsSpelling (piece ++ piece') (ps ++ ps') := by
  refine ⟨?_, fun start fuel rest hrest => ?_⟩
  · have hlength := h.length_le
    have hlength' := h'.length_le
    simp only [List.length_append]
    omega
  · have hmore : piece' ++ rest ≠ [] := by simp [hrest]
    rw [List.length_append, Nat.add_comm ps.length, ← Nat.add_assoc, List.append_assoc, h.read start _ _ hmore,
      h'.read start fuel rest hrest]
    cases readString start fuel rest with
    | error f => rfl
    | ok read => exact congrArg Except.ok (by simp)

theorem isSpelling_self {c : Char} (hquote : c ≠ '"') (hback : c ≠ '\\') (hcontrol : ¬ c.toNat < 0x20) :
    IsSpelling [c] [.char c] := by
  refine ⟨Nat.le_refl _, fun start fuel rest _ => ?_⟩
  simp only [List.singleton_append, List.length_singleton, readString, if_neg hquote, if_neg hback, if_neg hcontrol]

theorem isSpelling_letter {e c : Char} (he : letterEscape? e = some c) : IsSpelling ['\\', e] [.char c] := by
  refine ⟨by simp, fun start fuel rest _ => ?_⟩
  have hu : e ≠ 'u' := by
    rintro rfl
    simp [letterEscape?] at he
  rw [List.cons_append, List.singleton_append, List.length_singleton, readString.eq_5 _ _ _ _ _ hu, if_neg (by decide),
    if_pos rfl]
  simp only [he, List.singleton_append]

theorem isSpelling_escapeUnit {n : Nat} (h : n < 0x10000) : IsSpelling (escapeUnit n) [unitPoint n] := by
  refine ⟨by simp [escapeUnit], fun start fuel rest hrest => ?_⟩
  rw [escapeUnit, List.cons_append, List.cons_append, List.length_singleton, readString.eq_4, if_neg (by decide), if_pos rfl]
  simp only [unitEscape?_hexDigits h, List.isEmpty_iff, if_neg hrest, List.singleton_append]

theorem isSpelling_escapeChar (c : Char) : IsSpelling (escapeChar c) (unitsOf c) := by
  have hlimit := Text.codePoint_lt c
  unfold escapeChar unitsOf
  dsimp only
  split
  · next h => exact unitPoint_toNat c ▸ isSpelling_escapeUnit h
  · exact (isSpelling_escapeUnit (by omega)).append (isSpelling_escapeUnit (by omega))

theorem toNat_of_letterEscape? {e c : Char} (h : letterEscape? e = some c) : c.toNat < 0x10000 := by
  unfold letterEscape? at h
  split at h <;> first | (obtain rfl := Option.some.inj h; decide) | cases h

/-- The letters that stand for characters after a backslash. -/
theorem stringChar_cases (asciiOnly : Bool) (c : Char) :
    (∃ e, stringChar asciiOnly c = ['\\', e] ∧ letterEscape? e = some c ∧
      Text.letterEscape? e = some c) ∨
    (stringChar asciiOnly c = escapeChar c ∧ (c.toNat < 0x20 ∨ asciiOnly = true ∧ 0x7E < c.toNat)) ∨
    (stringChar asciiOnly c = [c] ∧ c ≠ '"' ∧ c ≠ '\\' ∧ 0x20 ≤ c.toNat ∧
      (asciiOnly = true → c.toNat ≤ 0x7E)) := by
  unfold stringChar
  split
  next h => rcases h with rfl | rfl <;> exact .inl ⟨_, rfl, rfl, rfl⟩
  next h =>
    rw [not_or] at h
    split
    next hc => exact .inl ⟨'n', rfl, hc ▸ rfl, hc ▸ rfl⟩
    split
    next hc => exact .inl ⟨'r', rfl, hc ▸ rfl, hc ▸ rfl⟩
    split
    next hc => exact .inl ⟨'t', rfl, hc ▸ rfl, hc ▸ rfl⟩
    split
    next hc => exact .inl ⟨'b', rfl, hc ▸ rfl, hc ▸ rfl⟩
    split
    next hc => exact .inl ⟨'f', rfl, hc ▸ rfl, hc ▸ rfl⟩
    split
    next hc => exact .inr (.inl ⟨rfl, .inl hc⟩)
    next hlow =>
      split
      next hc => exact .inr (.inl ⟨rfl, .inr hc⟩)
      next hhigh =>
        exact .inr (.inr ⟨rfl, h.1, h.2, Nat.le_of_not_lt hlow,
          fun hascii => Nat.le_of_not_lt fun hc => hhigh ⟨hascii, hc⟩⟩)

theorem isSpelling_stringPoint (asciiOnly : Bool) (p : Text.Point) :
    IsSpelling (stringPoint asciiOnly p) (unitsIn asciiOnly p) := by
  cases p with
  | half h =>
    have hsmall : Text.halfNumber h < 0x10000 := by
      have hh := h.isLt
      unfold Text.halfNumber
      omega
    have hspelling := isSpelling_escapeUnit hsmall
    rwa [unitPoint_halfNumber] at hspelling
  | char c =>
    rw [stringPoint]
    rcases stringChar_cases asciiOnly c with ⟨e, heq, he, -⟩ | ⟨heq, hc⟩ | ⟨heq, hquote, hback, hlow, hascii⟩
    · rw [heq, unitsIn_of_lt (toNat_of_letterEscape? he)]
      exact isSpelling_letter he
    · have hunits : unitsIn asciiOnly (.char c) = unitsOf c := by
        rcases hc with hc | ⟨rfl, -⟩
        · have hc : c.toNat < 0x10000 := Nat.lt_trans hc (by decide)
          rw [unitsIn_of_lt hc, unitsOf, if_pos hc]
        · exact unitsIn_true c
      rw [heq, hunits]
      exact isSpelling_escapeChar c
    · have hself : unitsIn asciiOnly (.char c) = [.char c] := by
        cases asciiOnly with
        | true => exact unitsIn_of_lt (Nat.lt_of_le_of_lt (hascii rfl) (by decide)) true
        | false => rfl
      rw [heq, hself]
      exact isSpelling_self hquote hback (Nat.not_lt.2 hlow)

/-! ## Strings -/

theorem isSpelling_flatMap (asciiOnly : Bool) (ps : List Text.Point) :
    IsSpelling (ps.flatMap (stringPoint asciiOnly)) (ps.flatMap (unitsIn asciiOnly)) := by
  induction ps with
  | nil => exact isSpelling_nil
  | cons p ps ih => exact (isSpelling_stringPoint asciiOnly p).append ih

theorem readString_flatMap (asciiOnly : Bool) (ps : List Text.Point) (rest : List Char) (start fuel : Nat)
    (hfuel : (ps.flatMap (stringPoint asciiOnly)).length < fuel) :
    readString start fuel (ps.flatMap (stringPoint asciiOnly) ++ '"' :: rest)
      = .ok (ps.flatMap (unitsIn asciiOnly), rest) := by
  have hspelling := isSpelling_flatMap asciiOnly ps
  obtain ⟨more, rfl⟩ : ∃ more, fuel = more + 1 + (ps.flatMap (unitsIn asciiOnly)).length :=
    ⟨fuel - 1 - (ps.flatMap (unitsIn asciiOnly)).length, by have := hspelling.length_le; omega⟩
  rw [hspelling.read start (more + 1) _ (by simp)]
  simp [readString, Except.map]

/-- A string is read after its opening quote: one with halves by a reader that does not join them, and one in the smaller
    alphabet by a reader that does. -/
theorem readQuoted_flatMap {joins asciiOnly : Bool} {ps : List Text.Point} (hascii : asciiOnly = true → joins = true)
    (hwhole : joins = true → ps.any Text.Point.isHalf = false) (rest : List Char) :
    readQuoted joins (ps.flatMap (stringPoint asciiOnly) ++ '"' :: rest) = .ok (ps, rest) := by
  have hread := readString_flatMap asciiOnly ps rest
    ((ps.flatMap (stringPoint asciiOnly) ++ '"' :: rest).length + 1)
    ((ps.flatMap (stringPoint asciiOnly) ++ '"' :: rest).length + 1)
    (by simp only [List.length_append]; omega)
  rw [readQuoted, hread]
  refine congrArg (fun qs => Except.ok (qs, rest)) ?_
  cases joins with
  | true =>
    obtain ⟨cs, rfl⟩ := Text.exists_points (hwhole rfl)
    exact joinPairs_flatMap_units asciiOnly cs
  | false =>
    have hfalse : asciiOnly = false := by simpa using hascii
    rw [hfalse]
    exact flatMap_unitsIn_false ps

theorem stringChars_eq (asciiOnly : Bool) (cs : List Char) :
    stringChars asciiOnly cs = brokenChars asciiOnly (Text.points cs) := by
  rw [stringChars, brokenChars, Text.points, List.flatMap_map]
  rfl

/-- A string that keeps its characters is a quoted text. -/
theorem readQuoted?_stringChars (cs rest : List Char) :
    Text.readQuoted? (stringChars false cs ++ rest) = some (cs, rest) := by
  refine Text.readQuoted?_of_spells (.inr rfl) (fun c => ?_) cs rest
  rcases stringChar_cases false c with ⟨e, heq, -, he⟩ | ⟨heq, h⟩ | ⟨heq, hquote, hback, -⟩
  · exact heq ▸ Text.spells_letter (by decide) he
  · have hlow : c.toNat < 0x10000 := by
      rcases h with h | ⟨h, -⟩
      · exact Nat.lt_trans h (by decide)
      · cases h
    rw [heq, escapeChar, if_pos hlow]
    exact Text.spells_number (p := c) (by decide) rfl rfl hlow
  · exact heq ▸ Text.spells_self hquote hback

end Json

end Folio

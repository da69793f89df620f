import Folio.Text.Quoted
import Mathlib.Data.List.Induction
import Mathlib.Tactic.IntervalCases

set_option autoImplicit false

/-! # Quoted texts read back

Each point of a text stands for itself inside quotes: the reader takes the characters that it is printed as and
goes on with those after them (`Spells`). So a whole text in quotes reads back, whatever follows it, with its halves
(`readPoints?_quotePoints`) or without (`readQuoted?_of_spells`). -/

namespace Folio.Text

/-! ## Points -/

theorem codePoint_lt (c : Char) : c.toNat < 0x110000 := by
  rcases c.valid with h | ⟨-, h⟩
  · exact Nat.lt_trans h (by decide)
  · exact h

/-- A character is no half. -/
theorem not_surrogate (c : Char) : c.toNat < 0xD800 ∨ 0xDFFF < c.toNat :=
  c.valid.imp id And.left

namespace Point

/-- A number that stands for a half is the number of the half. -/
theorem half?_eq_some_iff {n : Nat} {h : Half} : half? n = some h ↔ n = halfNumber h := by
  rw [half?, halfNumber]
  split
  · rw [Option.some_inj, Fin.ext_iff]
    dsimp only
    omega
  · exact iff_of_false (by simp) (by omega)

@[simp] theorem half?_halfNumber (h : Half) : half? (halfNumber h) = some h :=
  half?_eq_some_iff.2 rfl

@[simp] theorem half?_toNat (c : Char) : half? c.toNat = none := by
  have hc := not_surrogate c
  rw [half?, dif_neg]
  omega

/-- The number of a point. -/
def number : Point → Nat
  | char c => c.toNat
  | half h => halfNumber h

/-- A point is what its number stands for. -/
@[simp] theorem ofNat?_number (p : Point) : ofNat? p.number = some p := by
  cases p with
  | char c => rw [number, ofNat?, half?_toNat, if_pos (codePoint_lt c), Char.ofNat_toNat]
  | half h => rw [number, ofNat?, half?_halfNumber]

/-- A number that stands for nothing is none of a character. -/
theorem ofNat?_eq_none {n : Nat} (h : ofNat? n = none) : 0x110000 ≤ n := by
  unfold ofNat? at h
  split at h
  · cases h
  · split at h
    · cases h
    · omega

end Point

@[simp] theorem skeleton_points (cs : List Char) : skeleton (points cs) = cs := by
  induction cs with
  | nil => rfl
  | cons c cs ih => exact congrArg _ ih

theorem any_isHalf_points (cs : List Char) : (points cs).any Point.isHalf = false := by
  simp [points, Point.isHalf]

/-- A text without halves has characters only. -/
theorem exists_points {ps : List Point} (h : ps.any Point.isHalf = false) : ∃ cs, ps = points cs := by
  refine ⟨skeleton ps, ?_⟩
  induction ps with
  | nil => rfl
  | cons p ps ih =>
    rw [List.any_cons, Bool.or_eq_false_iff] at h
    cases p with
    | half h' => cases h.1
    | char c => exact congrArg _ (ih h.2)

@[simp] theorem ofPoints_points (cs : List Char) : ofPoints (points cs) = .ok (String.ofList cs) := by
  rw [ofPoints, dif_neg (by simp [any_isHalf_points]), skeleton_points]

@[simp] theorem ofPoints_broken (t : Broken) : ofPoints t.points = .error t := by
  rw [ofPoints, dif_pos t.hasHalf]

/-! ## Hexadecimal digits -/

theorem hexDigitValue_hexDigit {n : Nat} (h : n < 16) : hexDigitValue (hexDigit n) = n := by
  interval_cases n <;> rfl

theorem hexValue_concat (cs : List Char) (c : Char) :
    hexValue (cs ++ [c]) = 16 * hexValue cs + hexDigitValue c := by
  simp [hexValue]

theorem hexDigitValue_lt (c : Char) : hexDigitValue c < 16 := by
  have hle {c last : Char} (h : c ≤ last) : c.toNat ≤ last.toNat := h
  unfold hexDigitValue
  split
  next h => have := hle h.2; simp only [Char.reduceToNat] at *; omega
  next =>
    split
    next h => have := hle h.2; simp only [Char.reduceToNat] at *; omega
    next =>
      split
      next h => have := hle h.2; simp only [Char.reduceToNat] at *; omega
      next => omega

theorem hexValue_lt (cs : List Char) : hexValue cs < 16 ^ cs.length := by
  induction cs using List.reverseRecOn with
  | nil => decide
  | append_singleton cs c ih =>
    have hdigit := hexDigitValue_lt c
    rw [hexValue_concat, List.length_append, List.length_singleton, Nat.pow_succ]
    omega

@[simp] theorem length_hexDigits (width n : Nat) : (hexDigits width n).length = width := by
  induction width generalizing n with
  | zero => rfl
  | succ width ih => simp [hexDigits, ih]

/-- So many digits hold a number up to their power of sixteen. -/
theorem hexValue_hexDigits (width n : Nat) : hexValue (hexDigits width n) = n % 16 ^ width := by
  induction width generalizing n with
  | zero => rw [Nat.pow_zero, Nat.mod_one]; rfl
  | succ width ih =>
    rw [hexDigits, hexValue_concat, ih, hexDigitValue_hexDigit (Nat.mod_lt _ (by decide)),
      Nat.pow_succ', Nat.mod_mul, Nat.add_comm]

/-! ## Pieces of a quoted text -/

/-- Between quotation marks, the text of a point is read as that point. -/
structure Spells (mark : Char) (piece : List Char) (p : Point) : Prop where
  ne_nil : piece ≠ []
  read : ∀ (fuel : Nat) (rest : List Char), readUntil mark (fuel + 1) (piece ++ rest)
    = (readUntil mark fuel rest).map fun (ps, rest) => (p :: ps, rest)

/-- A character that is neither the mark nor a backslash spells itself. -/
theorem spells_self {mark c : Char} (hmark : c ≠ mark) (hback : c ≠ '\\') : Spells mark [c] c := by
  refine ⟨by simp, fun fuel rest => ?_⟩
  simp only [List.singleton_append, readUntil, if_neg hmark, if_neg hback]

/-- A letter after a backslash spells the character of its escape. -/
theorem spells_letter {mark e c : Char} (hmark : mark ≠ '\\') (he : letterEscape? e = some c) :
    Spells mark ['\\', e] c := by
  refine ⟨by simp, fun fuel rest => ?_⟩
  rw [List.cons_append, List.singleton_append, readUntil, if_neg hmark.symm, if_pos rfl]
  simp only [he]

/-- An escape by number spells the point that has the number, if the number has digits enough. -/
theorem spells_number {mark e : Char} {p : Point} {width : Nat} (hmark : mark ≠ '\\')
    (hletter : letterEscape? e = none) (hwidth : escapeWidth? e = some width)
    (hp : p.number < 16 ^ width) : Spells mark ('\\' :: e :: hexDigits width p.number) p := by
  refine ⟨by simp, fun fuel rest => ?_⟩
  have htake : (hexDigits width p.number ++ rest).take width = hexDigits width p.number := by
    simp
  have hdrop : (hexDigits width p.number ++ rest).drop width = rest := by
    simp
  have hpoint : Point.ofNat? (hexValue (hexDigits width p.number)) = some p := by
    rw [hexValue_hexDigits, Nat.mod_eq_of_lt hp, Point.ofNat?_number]
  rw [List.cons_append, List.cons_append, readUntil, if_neg hmark.symm, if_pos rfl]
  simp only [hletter, hwidth, htake, hdrop, hpoint]

theorem spells_escapeByNumber {mark : Char} (hmark : mark ≠ '\\') (p : Point) :
    Spells mark p.escapeByNumber p := by
  cases p with
  | half h =>
    have hsmall : (Point.half h).number < 16 ^ 4 := by
      rw [Point.number, halfNumber]
      omega
    exact spells_number hmark rfl rfl hsmall
  | char c =>
    rw [Point.escapeByNumber, escapeByNumber]
    split
    · next h => exact spells_number (p := c) hmark rfl rfl h
    · split
      · next h => exact spells_number (p := c) hmark rfl rfl h
      · exact spells_number (p := c) hmark rfl rfl (Nat.lt_trans (codePoint_lt c) (by decide))

theorem spells_quoteChar {mark : Char} (hmark : mark = '\'' ∨ mark = '"') (c : Char) :
    Spells mark (quoteChar mark c) c := by
  have hback : mark ≠ '\\' := by rcases hmark with rfl | rfl <;> decide
  unfold quoteChar
  split
  next h =>
    refine spells_letter hback ?_
    rcases h with rfl | rfl
    · rcases hmark with rfl | rfl <;> rfl
    · rfl
  next h =>
    rw [not_or] at h
    split
    next htab => exact spells_letter hback (htab ▸ rfl)
    next =>
      split
      next hline => exact spells_letter hback (hline ▸ rfl)
      next =>
        split
        next hreturn => exact spells_letter hback (hreturn ▸ rfl)
        next =>
          split
          · exact spells_self h.1 h.2
          · exact spells_escapeByNumber hback c

theorem spells_quotePoint {mark : Char} (hmark : mark = '\'' ∨ mark = '"') (p : Point) :
    Spells mark (quotePoint mark p) p := by
  cases p with
  | char c => exact spells_quoteChar hmark c
  | half h =>
    have hback : mark ≠ '\\' := by rcases hmark with rfl | rfl <;> decide
    exact spells_escapeByNumber hback (.half h)

/-! ## Whole texts -/

section

variable {mark : Char} {piece : Point → List Char} {ps : List Point}

theorem length_le_flatMap (h : ∀ p ∈ ps, Spells mark (piece p) p) : ps.length ≤ (ps.flatMap piece).length := by
  induction ps with
  | nil => simp
  | cons p ps ih =>
    obtain ⟨hp, hps⟩ := List.forall_mem_cons.1 h
    have hpiece := List.length_pos_iff.2 hp.ne_nil
    have hrest := ih hps
    simp only [List.flatMap_cons, List.length_append, List.length_cons]
    omega

theorem readUntil_flatMap (h : ∀ p ∈ ps, Spells mark (piece p) p) (rest : List Char) (fuel : Nat)
    (hfuel : ps.length < fuel) : readUntil mark fuel (ps.flatMap piece ++ mark :: rest) = some (ps, rest) := by
  induction ps generalizing fuel with
  | nil =>
    obtain ⟨fuel, rfl⟩ := Nat.exists_eq_add_one_of_ne_zero (Nat.ne_zero_of_lt hfuel)
    simp [readUntil]
  | cons p ps ih =>
    obtain ⟨hp, hps⟩ := List.forall_mem_cons.1 h
    obtain ⟨fuel, rfl⟩ := Nat.exists_eq_add_one_of_ne_zero (Nat.ne_zero_of_lt hfuel)
    rw [List.flatMap_cons, List.append_assoc, hp.read, ih hps fuel (by simpa using hfuel), Option.map_some]

/-- A text in quotes reads back if each of its points does. -/
theorem readPoints?_of_spells (hmark : mark = '\'' ∨ mark = '"') (h : ∀ p ∈ ps, Spells mark (piece p) p)
    (rest : List Char) : readPoints? (mark :: ps.flatMap piece ++ [mark] ++ rest) = some (ps, rest) := by
  have hlength := length_le_flatMap h
  simp only [List.cons_append, List.append_assoc, List.nil_append, readPoints?, if_pos hmark]
  exact readUntil_flatMap h rest _ (by simp only [List.length_cons, List.length_append]; omega)

end

/-- A text without halves in quotes reads back if each of its characters does. -/
theorem readQuoted?_of_spells {mark : Char} (hmark : mark = '\'' ∨ mark = '"') {piece : Char → List Char}
    (h : ∀ c, Spells mark (piece c) c) (cs rest : List Char) :
    readQuoted? (mark :: cs.flatMap piece ++ [mark] ++ rest) = some (cs, rest) := by
  have hpieces : cs.flatMap piece = (points cs).flatMap fun p => piece p.toChar := by
    rw [points, List.flatMap_map]
    rfl
  have hspells : ∀ p ∈ points cs, Spells mark (piece p.toChar) p := by
    intro p hp
    obtain ⟨c, -, rfl⟩ := List.mem_map.1 hp
    exact h c
  rw [readQuoted?, hpieces, readPoints?_of_spells hmark hspells, Option.map_some]
  exact congrArg (some <| Prod.mk · rest) (skeleton_points cs)

theorem quotationMark_eq (cs : List Char) : quotationMark cs = '\'' ∨ quotationMark cs = '"' := by
  unfold quotationMark
  split
  · exact .inr rfl
  · exact .inl rfl

/-- A quoted text reads back with its halves. -/
theorem readPoints?_quotePoints (ps : List Point) (rest : List Char) :
    readPoints? (quotePoints ps ++ rest) = some (ps, rest) :=
  readPoints?_of_spells (quotationMark_eq _) (fun p _ => spells_quotePoint (quotationMark_eq _) p) rest

end Folio.Text

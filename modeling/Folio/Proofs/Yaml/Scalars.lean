import Folio.Proofs.Except
import Folio.Proofs.Number.Bounds
import Folio.Proofs.Path.Names
import Folio.Yaml.Scalar

set_option autoImplicit false

/-! # Scalars that are not what their tags say

A text that has no value under its tag is reported either with what is wrong with it, or not: a word that is
no truth value, a timestamp in no known form, a number without a digit, and a number in base 60 with so many
parts that the first counts more than the numbers of the format (`truthOf_meets`, `integerOf_meets`,
`floatOf_meets`, `timestampOf_meets`). -/

namespace Folio.Yaml

/-! ## Words -/

/-- The words for truth values, in lower case. -/
def truths : List String := ["yes", "true", "on", "no", "false", "off"]

theorem truthOf_meets (text : List Text.Point) : (truthOf text).Meets (fun _ => True) fun e =>
    e = .notATruthValue (Text.lowerPoints text) ∧ String.ofList (Text.skeleton (Text.lowerPoints text)) ∉ truths := by
  unfold truthOf
  dsimp only
  split
  iterate 6 exact trivial
  next => exact ⟨rfl, by simp_all [truths]⟩

/-- A text without a line feed at its end. -/
def unbroken (cs : List Char) : List Char :=
  if cs.getLast? = some '\n' then cs.dropLast else cs

theorem timestampOf_meets (text : List Text.Point) : (timestampOf text).Meets (fun _ => True) fun e =>
    (∃ cause, e = .calendar cause) ∨ (∃ minutes, e = .offset minutes) ∨ e = .notATimestamp ∧
      Timestamp.ofText? (unbroken (Text.skeleton text)) = none := by
  have hcalendar {α : Type} (x : Except CalendarError α) : (x.mapError ScalarError.calendar).Meets
      (fun _ => True) fun e => ∃ cause, e = .calendar cause := by
    cases x with
    | ok a => exact trivial
    | error cause => exact ⟨cause, rfl⟩
  unfold timestampOf
  dsimp only
  split
  next h => exact .inr (.inr ⟨rfl, h⟩)
  next t h =>
    split
    next =>
      simp only [Except.meets_bind, Except.meets_pure]
      exact (hcalendar _).mono (fun _ _ => trivial) fun _ he => .inl he
    next c _ =>
      split
      next => exact .inr (.inl ⟨_, rfl⟩)
      next =>
        simp only [Except.meets_bind, Except.meets_pure]
        exact (hcalendar _).mono
          (fun _ _ => (hcalendar _).mono (fun _ _ => trivial) fun _ he => .inl he) fun _ he => .inl he

/-! ## Numbers -/

/-- What is left of a number without low lines has no digit: it is empty, or a sign. -/
def LacksDigits (text : List Text.Point) : Prop :=
  text.filter (· != .char '_') ∈ [[], [.char '+'], [.char '-']]

theorem unsigned_meets (text : List Text.Point) : (unsigned text).Meets (fun r => r.2 = [] → LacksDigits text)
    fun e => e = .noNumber ∧ text.filter (· != .char '_') = [] := by
  unfold unsigned LacksDigits
  split
  next h => exact ⟨rfl, h⟩
  next rest h => rintro rfl; simp [h]
  next rest h => rintro rfl; simp [h]
  next hne _ _ => exact fun hnil => absurd hnil hne

theorem integerOf_meets (text : List Text.Point) : (integerOf text).Meets (fun _ => True) fun e =>
    (∃ cause, e = .integer cause) ∨ e = .noNumber ∧ LacksDigits text := by
  have hread (base : Nat) (ps : List Text.Point) : (readDigits base ps).Meets (fun _ => True) fun e =>
      (∃ cause, e = .integer cause) ∨ e = .noNumber ∧ LacksDigits text := by
    unfold readDigits
    cases readInteger base (Text.skeleton ps) with
    | ok a => exact trivial
    | error cause => cases cause <;> exact .inl ⟨_, rfl⟩
  unfold integerOf
  rw [Except.meets_bind]
  refine (unsigned_meets text).mono (fun (negative, digits) hdigits => ?_) fun e he =>
    .inr ⟨he.1, by simp [LacksDigits, he.2]⟩
  dsimp only at hdigits ⊢
  split
  next => exact .inr ⟨rfl, hdigits rfl⟩
  next => exact trivial
  iterate 3 next => exact Except.meets_bind.2 ((hread _ _).mono (fun _ _ => trivial) fun _ => id)
  next =>
    split
    next =>
      simp only [Except.meets_bind, Except.meets_pure]
      exact (Except.meets_mapM fun ps _ => hread 10 ps).mono (fun _ _ => trivial) fun _ => id
    next => exact Except.meets_bind.2 ((hread _ _).mono (fun _ _ => trivial) fun _ => id)

/-! ### Base 60 -/

theorem length_cutAt {α : Type} [DecidableEq α] (sep : α) (cs : List α) : (Text.cutAt sep cs).length = cs.count sep + 1 := by
  induction cs with
  | nil => rfl
  | cons c cs ih =>
    rw [Text.cutAt]
    split
    next h => simp [h, ih]
    next h =>
      have hne : Text.cutAt sep cs ≠ [] := List.ne_nil_of_length_pos (by omega)
      obtain ⟨first, rest, hcut⟩ := List.exists_cons_of_ne_nil hne
      rw [hcut] at ih ⊢
      simpa [List.count_cons, h] using ih

/-- The part of a number in base 60 that 173 parts follow does not count more than the numbers of the
    format. -/
theorem ofInt_unit_ne_infinite {i : Nat} (hi : i < 174) (negative : Bool) :
    Binary64.ofInt ((60 ^ i : Nat) : Int) ≠ .infinite negative := by
  have hle : ((60 ^ i : Nat) : ℚ) / (1 : Nat) ≤ (2 ^ 52 : Nat) * 2 ^ (970 : Int) := by
    -- over a variable, since powers this large are not computed
    have hpow (b : Nat) (hb : b = 2) : 60 ^ i ≤ b ^ 52 * b ^ 970 := by
      have hpart : 60 ^ 43 ≤ b ^ 254 := by rw [hb]; norm_num
      calc 60 ^ i ≤ 60 ^ (43 * 4 + 1) := Nat.pow_le_pow_right (by decide) (by omega)
        _ = (60 ^ 43) ^ 4 * 60 := by rw [Nat.pow_succ, Nat.pow_mul]
        _ ≤ (b ^ 254) ^ 4 * b ^ 6 := Nat.mul_le_mul (Nat.pow_le_pow_left hpart 4) (by rw [hb]; decide)
        _ = b ^ 52 * b ^ 970 := by ring
    rw [Nat.cast_one, div_one]
    exact_mod_cast hpow 2 rfl
  have hwithin := Binary64.isWithin_ofQuotient (decide (((60 ^ i : Nat) : Int) < 0)) one_ne_zero
    (by decide) (by decide) (by decide) hle
  obtain ⟨_, _, _, _, h, -⟩ := hwithin
  unfold Binary64.ofInt
  rw [Int.natAbs_natCast, h]
  simp

theorem sexagesimalSum_meets {i : Nat} (sum : Binary64) (parts : List Binary64) :
    (sexagesimalSum (60 ^ i) sum parts).Meets (fun _ => True) fun e =>
      e = .unitTooLarge ∧ 174 < i + parts.length := by
  induction parts generalizing i sum with
  | nil => exact trivial
  | cons part parts ih =>
    rw [sexagesimalSum]
    split
    next negative h =>
      have hi : 174 ≤ i := by
        by_contra hi
        exact ofInt_unit_ne_infinite (by omega) negative h
      exact ⟨rfl, by simp; omega⟩
    next =>
      rw [← Nat.pow_succ]
      exact (ih _).mono (fun _ => id) fun e he => ⟨he.1, by simpa [Nat.add_assoc, Nat.add_comm 1] using he.2⟩

theorem count_unsigned (text : List Text.Point) : (unsigned text).Meets
    (fun r => r.2.count (.char ':') ≤ text.count (.char ':')) fun _ => True := by
  have hfilter : (text.filter (· != .char '_')).count (.char ':') = text.count (.char ':') := by
    rw [List.count_filter (by decide)]
  unfold unsigned
  split
  next => exact trivial
  next rest h => rw [h, List.count_cons_of_ne (by decide)] at hfilter; exact hfilter.le
  next rest h => rw [h, List.count_cons_of_ne (by decide)] at hfilter; exact hfilter.le
  next => exact hfilter.le

theorem numberOf_meets (ps : List Text.Point) : (numberOf ps).Meets (fun _ => True) fun e =>
    ∃ ps, e = .notANumber ps := by
  unfold numberOf
  split
  next => exact trivial
  next => exact ⟨ps, rfl⟩

theorem floatOf_meets (text : List Text.Point) : (floatOf text).Meets (fun _ => True) fun e =>
    (∃ ps, e = .notANumber ps) ∨ (e = .noNumber ∧ (Text.lowerPoints text).filter (· != .char '_') = []) ∨
      (e = .unitTooLarge ∧ 174 ≤ (Text.lowerPoints text).count (.char ':')) := by
  unfold floatOf
  generalize Text.lowerPoints text = lowered
  rw [Except.meets_bind]
  refine ((unsigned_meets lowered).and (count_unsigned lowered)).mono (fun (negative, digits) h => ?_)
    fun e he => .inr (.inl he.1)
  have hcolons : digits.count (.char ':') ≤ lowered.count (.char ':') := h.2
  dsimp only
  split
  next => exact trivial
  next => exact trivial
  next =>
    split
    next =>
      simp only [Except.meets_bind, Except.meets_pure]
      refine (Except.meets_mapM fun ps _ => numberOf_meets ps).mono (fun parts hparts => ?_) fun e he => .inl he
      refine (sexagesimalSum_meets (i := 0) _ parts.reverse).mono (fun _ _ => trivial) fun e he => ?_
      rw [List.length_reverse, hparts.1, length_cutAt] at he
      exact .inr (.inr ⟨he.1, by omega⟩)
    next => exact Except.meets_bind.2 ((numberOf_meets digits).mono (fun _ _ => trivial) fun e he => .inl he)

end Folio.Yaml

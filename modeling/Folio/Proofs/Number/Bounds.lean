import Folio.Proofs.Number.Rounding

set_option autoImplicit false

/-! # Bounds of floating-point arithmetic

A quotient that is not above a number of the format is not rounded to a number above it
(`isWithin_ofQuotient`). So what is known of the exact result of an operation is known of the rounded
result, as long as the bound is a number of the format itself. -/

namespace Folio.Binary64

/-! ## Rounding up to a bound -/

/-- A finite number that is not farther from zero than a bound. -/
def IsWithin (x : Binary64) (bound : ℚ) : Prop :=
  ∃ negative mantissa exponent spelling,
    x = finite negative mantissa exponent spelling ∧ (mantissa : ℚ) * 2 ^ exponent ≤ bound

theorem isWithin_signedZero (negative : Bool) {bound : ℚ} (h : 0 ≤ bound) :
    (signedZero negative).IsWithin bound :=
  ⟨negative, 0, minExponent, isSpelling_zero, rfl, by simpa using h⟩

/-- Rounding to a natural number does not pass one. -/
theorem roundHalfEven_le {num den k : Nat} (hden : 0 < den) (h : num ≤ k * den) :
    roundHalfEven num den ≤ k := by
  have hdiv : den * (num / den) + num % den = num := Nat.div_add_mod num den
  have hquot : num / den ≤ k := Nat.div_le_of_le_mul (by rwa [Nat.mul_comm])
  rcases Nat.lt_or_eq_of_le hquot with hlt | heq
  · exact ((roundHalfEven_bounds num den).2).trans hlt
  · -- the quotient is exact
    have hmod : num % den = 0 := by
      rw [heq, Nat.mul_comm] at hdiv
      omega
    rw [roundHalfEven, hmod, if_pos (by omega)]
    exact hquot

/-- A quotient that is not above a number of the format has no greater unit. -/
theorem unitOf_le {num den k : Nat} {unit : Int} (hnum : num ≠ 0) (hden : den ≠ 0) (hk : k < 2 ^ 53)
    (hmin : minExponent ≤ unit) (h : (num : ℚ) / den ≤ k * 2 ^ unit) : unitOf num den ≤ unit := by
  by_contra hgt
  rcases (unitOf_value hnum hden).2 with hlow | hleast
  · have hdouble := two_zpow_succ_le (not_le.1 hgt)
    rw [two_zpow_succ] at hdouble
    have hkQ : (k : ℚ) < 2 ^ 53 := by exact_mod_cast hk
    have hbelow : (k : ℚ) * 2 ^ unit < 2 ^ 53 * 2 ^ unit := mul_lt_mul_of_pos_right hkQ (two_zpow_pos unit)
    linarith
  · omega

/-- The mantissa in the unit of a quotient does not pass the bound either. -/
theorem value_rounded_le {num den k : Nat} {unit : Int} (hnum : num ≠ 0) (hden : den ≠ 0)
    (hk : k < 2 ^ 53) (hmin : minExponent ≤ unit) (h : (num : ℚ) / den ≤ k * 2 ^ unit) :
    ((rounded num den).1 : ℚ) * 2 ^ (rounded num den).2 ≤ k * 2 ^ unit ∧
      (rounded num den).2 ≤ unit + 1 := by
  have hunit := unitOf_le hnum hden hk hmin h
  obtain ⟨j, hj⟩ := Int.eq_ofNat_of_zero_le (sub_nonneg.2 hunit)
  have hpos := inUnits_pos num (Nat.pos_of_ne_zero hden) (unitOf num den)
  have hsplit : (2 : ℚ) ^ unit = 2 ^ j * 2 ^ unitOf num den := by
    rw [← zpow_natCast, ← zpow_add₀ two_ne_zero]
    congr 1
    omega
  have hmantissa : roundHalfEven (inUnits num den (unitOf num den)).1
      (inUnits num den (unitOf num den)).2 ≤ k * 2 ^ j := by
    refine roundHalfEven_le hpos ?_
    have hvalue := value_inUnits num den (unitOf num den)
    rw [div_eq_iff (Nat.cast_ne_zero.2 hpos.ne'), div_div] at hvalue
    have hle : (num : ℚ) / (den * 2 ^ unitOf num den) ≤ k * 2 ^ j := by
      rw [← div_div, div_le_iff₀ (two_zpow_pos _), mul_assoc, ← hsplit]
      exact h
    have hmul := mul_le_mul_of_nonneg_right hle
      (Nat.cast_nonneg (α := ℚ) (inUnits num den (unitOf num den)).2)
    rw [← hvalue] at hmul
    exact_mod_cast hmul
  have hscaled : (roundHalfEven (inUnits num den (unitOf num den)).1
      (inUnits num den (unitOf num den)).2 : ℚ) * 2 ^ unitOf num den ≤ k * 2 ^ unit := by
    rw [hsplit, ← mul_assoc]
    refine mul_le_mul_of_nonneg_right ?_ (two_zpow_pos _).le
    exact_mod_cast hmantissa
  refine ⟨value_rounded num den ▸ hscaled, ?_⟩
  unfold rounded
  dsimp only
  split <;> dsimp only <;> omega

/-- A quotient that is not above a number of the format is read as a finite number, and that is not above it either. -/
theorem exists_ofQuotient (negative : Bool) {num den k : Nat} {unit : Int} (hden : den ≠ 0)
    (hk : k < 2 ^ 53) (hmin : minExponent ≤ unit) (hmax : unit < maxExponent)
    (h : (num : ℚ) / den ≤ k * 2 ^ unit) : ∃ mantissa exponent spelling,
      ofQuotient negative num den = finite negative mantissa exponent spelling ∧
        (mantissa : ℚ) * 2 ^ exponent ≤ k * 2 ^ unit := by
  by_cases hnum : num = 0
  · rw [ofQuotient, dif_pos (.inl hnum)]
    refine ⟨0, minExponent, isSpelling_zero, rfl, ?_⟩
    rw [Nat.cast_zero, zero_mul]
    positivity
  · obtain ⟨hvalue, hexponent⟩ := value_rounded_le hnum hden hk hmin h
    rw [ofQuotient, dif_neg (not_or.2 ⟨hnum, hden⟩), dif_neg (by omega)]
    exact ⟨_, _, _, rfl, hvalue⟩

/-- Rounding a quotient does not pass a number of the format. -/
theorem isWithin_ofQuotient (negative : Bool) {num den k : Nat} {unit : Int} (hden : den ≠ 0)
    (hk : k < 2 ^ 53) (hmin : minExponent ≤ unit) (hmax : unit < maxExponent)
    (h : (num : ℚ) / den ≤ k * 2 ^ unit) : (ofQuotient negative num den).IsWithin (k * 2 ^ unit) :=
  ⟨negative, exists_ofQuotient negative hden hk hmin hmax h⟩

/-! ## Operations -/

section

variable {x y : Binary64} {a b : ℚ} {k : Nat} {unit : Int}

theorem isWithin_ofInt {i : Int} (hi : i.natAbs ≤ k) (hk : k < 2 ^ 53) : (ofInt i).IsWithin k := by
  have hle : (i.natAbs : ℚ) / (1 : Nat) ≤ k * 2 ^ (0 : Int) := by
    rw [Nat.cast_one, div_one, zpow_zero, mul_one]
    exact_mod_cast hi
  have h := isWithin_ofQuotient (decide (i < 0)) one_ne_zero hk (by decide) (by decide) hle
  rwa [zpow_zero, mul_one] at h

/-- A product that is not above a number of the format is not rounded to one above it. -/
theorem IsWithin.mul (hx : x.IsWithin a) (hy : y.IsWithin b) (hk : k < 2 ^ 53)
    (hmin : minExponent ≤ unit) (hmax : unit < maxExponent) (hle : a * b ≤ k * 2 ^ unit) :
    (x.mul y).IsWithin (k * 2 ^ unit) := by
  obtain ⟨n₁, m₁, e₁, h₁, rfl, hm₁⟩ := hx
  obtain ⟨n₂, m₂, e₂, h₂, rfl, hm₂⟩ := hy
  have hproduct : (m₁ * m₂ : ℚ) * 2 ^ (e₁ + e₂) ≤ k * 2 ^ unit := by
    refine le_trans ?_ hle
    calc (m₁ * m₂ : ℚ) * 2 ^ (e₁ + e₂) = m₁ * 2 ^ e₁ * (m₂ * 2 ^ e₂) := by
          rw [zpow_add₀ two_ne_zero]
          ring
      _ ≤ a * b := mul_le_mul hm₁ hm₂ (by positivity) ((by positivity : (0 : ℚ) ≤ m₁ * 2 ^ e₁).trans hm₁)
  unfold Binary64.mul
  dsimp only
  split
  next hexponent =>
    refine isWithin_ofQuotient _ one_ne_zero hk hmin hmax (le_trans (le_of_eq ?_) hproduct)
    obtain ⟨j, hj⟩ := Int.eq_ofNat_of_zero_le hexponent
    have hpow : Nat.pow 2 j = 2 ^ j := rfl
    rw [hj, Int.toNat_natCast, hpow, zpow_natCast]
    push_cast
    rw [div_one]
  next hexponent =>
    refine isWithin_ofQuotient _ (Nat.two_pow_pos _).ne' hk hmin hmax (le_trans (le_of_eq ?_) hproduct)
    obtain ⟨j, hj⟩ := Int.eq_ofNat_of_zero_le (show 0 ≤ -(e₁ + e₂) by omega)
    have hpow : Nat.pow 2 j = 2 ^ j := rfl
    rw [hj, Int.toNat_natCast, hpow, show e₁ + e₂ = -(j : Int) by omega, zpow_neg, zpow_natCast]
    push_cast
    rw [div_eq_mul_inv]

/-- The units of a number count its value. -/
theorem natAbs_toUnits {negative : Bool} {mantissa : Nat} {exponent : Int}
    (hmin : minExponent ≤ exponent) : ((toUnits negative mantissa exponent).natAbs : ℚ)
      = mantissa * 2 ^ exponent * 2 ^ (-minExponent).toNat := by
  have habs : (toUnits negative mantissa exponent).natAbs
      = mantissa * 2 ^ (exponent - minExponent).toNat := by
    have hpow : ∀ j, Nat.pow 2 j = 2 ^ j := fun _ => rfl
    unfold toUnits
    dsimp only
    rw [hpow]
    split
    · rw [Int.natAbs_neg, Int.natAbs_natCast]
    · rw [Int.natAbs_natCast]
  have hsplit : (2 : ℚ) ^ (exponent - minExponent).toNat = 2 ^ exponent * 2 ^ (-minExponent).toNat := by
    rw [← zpow_natCast, ← zpow_natCast, ← zpow_add₀ two_ne_zero]
    congr 1
    simp only [minExponent] at hmin ⊢
    omega
  rw [habs, mul_assoc, ← hsplit]
  push_cast
  rfl

/-- A sum that is not above a number of the format is not rounded to one above it. -/
theorem IsWithin.add (hx : x.IsWithin a) (hy : y.IsWithin b) (hk : k < 2 ^ 53)
    (hle : a + b ≤ k) : (x.add y).IsWithin k := by
  obtain ⟨n₁, m₁, e₁, h₁, rfl, hm₁⟩ := hx
  obtain ⟨n₂, m₂, e₂, h₂, rfl, hm₂⟩ := hy
  unfold Binary64.add
  dsimp only
  split
  · exact isWithin_signedZero _ (Nat.cast_nonneg k)
  · have hsum : ((toUnits n₁ m₁ e₁ + toUnits n₂ m₂ e₂).natAbs : ℚ)
        ≤ (m₁ * 2 ^ e₁ + m₂ * 2 ^ e₂) * 2 ^ (-minExponent).toNat := by
      rw [add_mul, ← @natAbs_toUnits n₁ _ _ h₁.2.1, ← @natAbs_toUnits n₂ _ _ h₂.2.1]
      exact_mod_cast Int.natAbs_add_le _ _
    have hbound : ((toUnits n₁ m₁ e₁ + toUnits n₂ m₂ e₂).natAbs : ℚ)
        / (Nat.pow 2 (-minExponent).toNat : Nat) ≤ k * 2 ^ (0 : Int) := by
      have hpow : ∀ j, Nat.pow 2 j = 2 ^ j := fun _ => rfl
      rw [hpow, Nat.cast_pow, Nat.cast_ofNat, div_le_iff₀ (by positivity), zpow_zero, mul_one]
      refine hsum.trans (mul_le_mul_of_nonneg_right ?_ (by positivity))
      linarith
    have hne : ∀ j, Nat.pow 2 j ≠ 0 := fun j => (Nat.two_pow_pos j).ne'
    have h := isWithin_ofQuotient (decide (toUnits n₁ m₁ e₁ + toUnits n₂ m₂ e₂ < 0)) (hne _) hk
      (by decide) (by decide) hbound
    rwa [zpow_zero, mul_one] at h

variable {negative : Bool} {mantissa : Nat} {exponent : Int}

theorem inUnits_le (h : (mantissa : ℚ) * 2 ^ exponent ≤ k) :
    (inUnits mantissa 1 (-exponent)).1 ≤ k * (inUnits mantissa 1 (-exponent)).2 := by
  have hvalue := value_inUnits mantissa 1 (-exponent)
  rw [Nat.cast_one, div_one, zpow_neg, div_inv_eq_mul] at hvalue
  rw [← hvalue, div_le_iff₀ (Nat.cast_pos.2 (inUnits_pos mantissa one_pos (-exponent)))] at h
  exact_mod_cast h

/-- The integer part of a number is not farther from zero than the number. -/
theorem natAbs_truncate_le (h : (mantissa : ℚ) * 2 ^ exponent ≤ k) :
    (truncate negative mantissa exponent).natAbs ≤ k := by
  have hle : (inUnits mantissa 1 (-exponent)).1 / (inUnits mantissa 1 (-exponent)).2 ≤ k :=
    Nat.div_le_of_le_mul (Nat.mul_comm k _ ▸ inUnits_le h)
  unfold truncate
  dsimp only
  split
  · rwa [Int.natAbs_neg, Int.natAbs_natCast]
  · rwa [Int.natAbs_natCast]

/-- Nor is the nearest integer, if the bound is one. -/
theorem natAbs_roundToInt_le (h : (mantissa : ℚ) * 2 ^ exponent ≤ k) :
    (roundToInt negative mantissa exponent).natAbs ≤ k := by
  have hle := roundHalfEven_le (inUnits_pos mantissa one_pos (-exponent)) (inUnits_le h)
  unfold roundToInt
  dsimp only
  split
  · rwa [Int.natAbs_neg, Int.natAbs_natCast]
  · rwa [Int.natAbs_natCast]

end

end Folio.Binary64

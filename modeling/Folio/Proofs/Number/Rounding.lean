import Folio.Number.Shortest
import Mathlib.Algebra.Order.Field.Rat
import Mathlib.Algebra.Order.Field.Power
import Mathlib.Tactic.FieldSimp
import Mathlib.Tactic.Linarith
import Mathlib.Tactic.Positivity
import Mathlib.Tactic.Ring

set_option autoImplicit false

/-! # What a rational number is rounded to

Rounding a quotient is rounding its value: `Around` says which rationals lie in the rounding interval of
`mantissa * 2 ^ exponent`, and every quotient or decimal whose value does is read as that number
(`ofQuotient_of_around`, `ofDecimal_of_around`). What a quotient is read as is the number of the format that is nearest to it
(`isNearest_ofQuotient`). -/

namespace Folio.Binary64

/-! ## Values -/

theorem inUnits_pos (num : Nat) {den : Nat} (hden : 0 < den) (exponent : Int) :
    0 < (inUnits num den exponent).2 := by
  unfold inUnits
  split
  · exact Nat.mul_pos hden (Nat.two_pow_pos _)
  · exact hden

/-- In units of a power of two the value is divided by that power. -/
theorem value_inUnits (num den : Nat) (exponent : Int) :
    ((inUnits num den exponent).1 : ℚ) / (inUnits num den exponent).2
      = num / den / (2 : ℚ) ^ exponent := by
  unfold inUnits
  split
  next h =>
    obtain ⟨n, rfl⟩ := Int.eq_ofNat_of_zero_le h
    have hpow : Nat.pow 2 n = 2 ^ n := rfl
    rw [Int.toNat_natCast, hpow]
    push_cast
    rw [zpow_natCast, div_div]
  next h =>
    obtain ⟨n, hn⟩ := Int.eq_ofNat_of_zero_le (show 0 ≤ -exponent by omega)
    obtain rfl : exponent = -(n : Int) := by omega
    have hpow : Nat.pow 2 n = 2 ^ n := rfl
    rw [neg_neg, Int.toNat_natCast, hpow]
    push_cast
    rw [zpow_neg, zpow_natCast, div_inv_eq_mul, div_mul_eq_mul_div]

/-- A quotient is rounded to a natural number that lies a half away at most; if it lies a half away,
    the number is even. -/
theorem roundHalfEven_eq {num den m : Nat} (hden : 0 < den)
    (hlow : (m : ℚ) - 1 / 2 ≤ num / den) (hhigh : (num : ℚ) / den ≤ m + 1 / 2)
    (htie : (m : ℚ) - 1 / 2 = num / den ∨ (num : ℚ) / den = m + 1 / 2 → m % 2 = 0) :
    roundHalfEven num den = m := by
  have hd : (0 : ℚ) < den := Nat.cast_pos.2 hden
  have hlowN : 2 * (m * den) ≤ 2 * num + den := by
    rw [le_div_iff₀ hd] at hlow
    have : (2 * (m * den) : ℚ) ≤ 2 * num + den := by linarith
    exact_mod_cast this
  have hhighN : 2 * num ≤ 2 * (m * den) + den := by
    rw [div_le_iff₀ hd] at hhigh
    have : (2 * num : ℚ) ≤ 2 * (m * den) + den := by linarith
    exact_mod_cast this
  have htieN : 2 * (m * den) = 2 * num + den ∨ 2 * num = 2 * (m * den) + den → m % 2 = 0 := by
    intro h
    refine htie (h.imp (fun h => ?_) fun h => ?_)
    · rw [eq_div_iff hd.ne']
      have : (2 * (m * den) : ℚ) = 2 * num + den := by exact_mod_cast h
      linarith
    · rw [div_eq_iff hd.ne']
      have : (2 * num : ℚ) = 2 * (m * den) + den := by exact_mod_cast h
      linarith
  have hdiv : den * (num / den) + num % den = num := Nat.div_add_mod num den
  have hmod : num % den < den := Nat.mod_lt _ hden
  generalize hq : num / den = q at hdiv
  generalize hr : num % den = r at hdiv hmod
  -- the rounded number is the quotient or the next number
  have hcases : m = q ∨ m = q + 1 := by
    have hle : m ≤ q + 1 := by
      by_contra hgt
      have hmul : (q + 2) * den ≤ m * den := Nat.mul_le_mul_right _ (by omega)
      have hexpand : (q + 2) * den = den * q + 2 * den := by ring
      omega
    have hge : q ≤ m := by
      by_contra hlt
      have hmul : (m + 1) * den ≤ q * den := Nat.mul_le_mul_right _ (by omega)
      have hexpand : (m + 1) * den = m * den + den := by ring
      have hcomm : q * den = den * q := Nat.mul_comm _ _
      omega
    omega
  unfold roundHalfEven
  dsimp only
  rw [hq, hr]
  rcases hcases with rfl | rfl
  · have hcomm : m * den = den * m := Nat.mul_comm _ _
    split
    · rfl
    · split
      · omega
      · split
        · rfl
        · next hodd => exact absurd (htieN (.inr (by omega))) hodd
  · have hexpand : (q + 1) * den = den * q + den := by ring
    split
    · omega
    · split
      · rfl
      · split
        · have := htieN (.inl (by omega))
          omega
        · rfl

/-- A quotient is rounded to a number that lies a half away at most. -/
theorem roundHalfEven_half (num : Nat) {den : Nat} (hden : 0 < den) :
    (num : ℚ) / den ≤ roundHalfEven num den + 1 / 2 ∧
      (roundHalfEven num den : ℚ) - 1 / 2 ≤ num / den := by
  have hd : (0 : ℚ) < den := Nat.cast_pos.2 hden
  have hdiv : den * (num / den) + num % den = num := Nat.div_add_mod num den
  have hmod : num % den < den := Nat.mod_lt _ hden
  have hnat : 2 * num ≤ 2 * (roundHalfEven num den * den) + den ∧
      2 * (roundHalfEven num den * den) ≤ 2 * num + den := by
    have hsucc : (num / den + 1) * den = den * (num / den) + den := by ring
    have hcomm : num / den * den = den * (num / den) := Nat.mul_comm _ _
    unfold roundHalfEven
    dsimp only
    split
    · omega
    · split
      · omega
      · split <;> omega
  have hQ : (2 * num : ℚ) ≤ 2 * (roundHalfEven num den * den) + den ∧
      (2 * (roundHalfEven num den * den) : ℚ) ≤ 2 * num + den := by exact_mod_cast hnat
  rw [div_le_iff₀ hd, le_div_iff₀ hd]
  constructor <;> linarith

/-- A quotient that lies a half away from the number that it is rounded to is rounded to an even number. -/
theorem roundHalfEven_tie {num den : Nat} (hden : 0 < den)
    (h : (num : ℚ) / den = roundHalfEven num den + 1 / 2 ∨ (roundHalfEven num den : ℚ) - 1 / 2 = num / den) :
    roundHalfEven num den % 2 = 0 := by
  by_contra hodd
  -- the even number on the other side would be as near
  rcases h with h | h
  · have heq : roundHalfEven num den = roundHalfEven num den + 1 := by
      refine roundHalfEven_eq hden ?_ ?_ fun _ => by omega
      · push_cast
        linarith
      · push_cast
        linarith
    omega
  · obtain ⟨k, hk⟩ : ∃ k, roundHalfEven num den = k + 1 := Nat.exists_eq_succ_of_ne_zero (by omega)
    have hbelow : (roundHalfEven num den : ℚ) = k + 1 := by exact_mod_cast hk
    rw [hbelow] at h
    have heq : roundHalfEven num den = k := by
      refine roundHalfEven_eq hden ?_ ?_ fun _ => by omega
      · linarith
      · linarith
    omega

/-- No integer is nearer to a quotient than the number that it is rounded to; if another is as near, the number is even. -/
theorem roundHalfEven_nearest (num : Nat) {den : Nat} (hden : 0 < den) (j : Int) :
    |(roundHalfEven num den : ℚ) - num / den| ≤ |(j : ℚ) - num / den| ∧
      (j ≠ roundHalfEven num den → |(roundHalfEven num den : ℚ) - num / den| = |(j : ℚ) - num / den| →
        roundHalfEven num den % 2 = 0) := by
  obtain ⟨hhigh, hlow⟩ := roundHalfEven_half num hden
  have hnear : |(roundHalfEven num den : ℚ) - num / den| ≤ 1 / 2 := abs_le.2 ⟨by linarith, by linarith⟩
  by_cases hj : j = roundHalfEven num den
  · subst hj
    exact ⟨by rw [Int.cast_natCast], fun hne => absurd rfl hne⟩
  · have hapart : (1 : ℚ) ≤ |(j : ℚ) - roundHalfEven num den| := by
      have := Int.one_le_abs (sub_ne_zero.2 hj)
      exact_mod_cast this
    have htriangle := abs_sub_le (j : ℚ) (num / den) (roundHalfEven num den)
    rw [abs_sub_comm ((num : ℚ) / den)] at htriangle
    refine ⟨by linarith, fun _ heq => roundHalfEven_tie hden ?_⟩
    -- both lie a half away
    have hhalf : |(roundHalfEven num den : ℚ) - num / den| = 1 / 2 := le_antisymm hnear (by linarith)
    rcases (abs_eq (by norm_num)).1 hhalf with h | h
    · exact .inr (by linarith)
    · exact .inl (by linarith)

/-! ## The unit of a quotient -/

theorem two_zpow_pos (exponent : Int) : (0 : ℚ) < 2 ^ exponent := zpow_pos two_pos exponent

theorem two_zpow_succ_le {a b : Int} (h : a < b) : (2 : ℚ) ^ (a + 1) ≤ 2 ^ b :=
  zpow_le_zpow_right₀ one_le_two (by omega)

theorem two_zpow_succ (a : Int) : (2 : ℚ) ^ (a + 1) = 2 * 2 ^ a := by
  rw [zpow_add_one₀ two_ne_zero, mul_comm]

/-- The value of a quotient in its unit. -/
theorem unitOf_value {num den : Nat} (hnum : num ≠ 0) (hden : den ≠ 0) :
    (num : ℚ) / den < 2 ^ 53 * 2 ^ unitOf num den ∧
      (2 ^ 52 * 2 ^ unitOf num den ≤ (num : ℚ) / den ∨ unitOf num den = minExponent) := by
  obtain ⟨hlt, hge⟩ := unitOf_bounds hnum hden
  have hpow : Nat.pow 2 53 = 2 ^ 53 ∧ Nat.pow 2 52 = 2 ^ 52 := ⟨rfl, rfl⟩
  rw [hpow.1] at hlt
  rw [hpow.2] at hge
  have hpos := inUnits_pos num (Nat.pos_of_ne_zero hden) (unitOf num den)
  have hposQ : (0 : ℚ) < (inUnits num den (unitOf num den)).2 := Nat.cast_pos.2 hpos
  have hvalue := value_inUnits num den (unitOf num den)
  have hunit := two_zpow_pos (unitOf num den)
  refine ⟨?_, hge.imp (fun h => ?_) fun h => h⟩
  · rw [Nat.div_lt_iff_lt_mul hpos] at hlt
    rw [← div_lt_iff₀ hunit, ← hvalue, div_lt_iff₀ hposQ]
    exact_mod_cast hlt
  · rw [Nat.le_div_iff_mul_le hpos] at h
    rw [← le_div_iff₀ hunit, ← hvalue, le_div_iff₀ hposQ]
    exact_mod_cast h

/-- The unit of a quotient is the one in which its value has 53 bits before the point, or fewer if the
    unit is the least one. -/
theorem unitOf_eq {num den : Nat} (hnum : num ≠ 0) (hden : den ≠ 0) {exponent : Int}
    (hmin : minExponent ≤ exponent) (hhigh : (num : ℚ) / den < 2 ^ 53 * 2 ^ exponent)
    (hlow : 2 ^ 52 * 2 ^ exponent ≤ (num : ℚ) / den ∨ exponent = minExponent) :
    unitOf num den = exponent := by
  obtain ⟨hlt, hge⟩ := unitOf_value hnum hden
  have hleast : minExponent ≤ unitOf num den := Int.le_max_left _ _
  -- of two units the one is at most half of the other, so a value cannot have 53 bits in both
  have hne : ∀ a b : Int, a < b → (num : ℚ) / den < 2 ^ 53 * 2 ^ a →
      ¬ 2 ^ 52 * 2 ^ b ≤ (num : ℚ) / den := by
    intro a b hab hbelow habove
    have hhalf := two_zpow_succ_le hab
    rw [two_zpow_succ] at hhalf
    have : (2 : ℚ) ^ 53 * 2 ^ a ≤ 2 ^ 52 * 2 ^ b := by linarith
    linarith
  rcases Int.lt_trichotomy (unitOf num den) exponent with h | h | h
  · rcases hlow with hlow | rfl
    · exact absurd hlow (hne _ _ h hlt)
    · omega
  · exact h
  · rcases hge with hge | hge
    · exact absurd hge (hne _ _ h hhigh)
    · omega

/-! ## Rounding intervals -/

/-- A rational lies in the rounding interval of a positive number. -/
def Around (mantissa : Nat) (exponent : Int) (x : ℚ) : Prop :=
  let i := roundingInterval mantissa exponent
  let low : ℚ := i.low * 2 ^ (exponent - 2)
  let high : ℚ := i.high * 2 ^ (exponent - 2)
  low ≤ x ∧ x ≤ high ∧ (low = x ∨ x = high → i.closed = true)

/-- The ends of the interval lie half a unit away, and below the least mantissa of a binade a quarter. -/
theorem around_bounds {mantissa : Nat} {exponent : Int} {x : ℚ} (hm : mantissa ≠ 0)
    (h : Around mantissa exponent x) :
    ((mantissa : ℚ) - 1 / 2) * 2 ^ exponent ≤ x ∧ x ≤ ((mantissa : ℚ) + 1 / 2) * 2 ^ exponent ∧
      (((mantissa : ℚ) - 1 / 2) * 2 ^ exponent = x ∨ x = ((mantissa : ℚ) + 1 / 2) * 2 ^ exponent →
        mantissa % 2 = 0) ∧
      (mantissa = 2 ^ 52 → exponent ≠ minExponent →
        ((mantissa : ℚ) - 1 / 4) * 2 ^ exponent ≤ x) := by
  obtain ⟨hlow, hhigh, htie⟩ := h
  have hquarter : (2 : ℚ) ^ exponent = 4 * 2 ^ (exponent - 2) := by
    rw [zpow_sub₀ two_ne_zero]
    norm_num
    ring
  have hunit := two_zpow_pos (exponent - 2)
  have hhighEq : ((roundingInterval mantissa exponent).high : ℚ) = 4 * mantissa + 2 := by
    simp [roundingInterval]
  have hclosed : (roundingInterval mantissa exponent).closed = true → mantissa % 2 = 0 := by
    simp [roundingInterval]
  rw [hhighEq] at hhigh htie
  rw [hquarter]
  by_cases hbinade : mantissa = 2 ^ 52 ∧ exponent ≠ minExponent
  · have hlowEq : ((roundingInterval mantissa exponent).low : ℚ) = 4 * mantissa - 1 := by
      have hpow : mantissa = Nat.pow 2 52 ∧ exponent ≠ minExponent := hbinade
      have hone : 1 ≤ 4 * mantissa := by omega
      simp only [roundingInterval, if_pos hpow, Nat.cast_sub hone]
      push_cast
      ring
    rw [hlowEq] at hlow
    refine ⟨?_, ?_, fun _ => ?_, fun _ _ => ?_⟩
    · linarith
    · linarith
    · rw [hbinade.1]
      norm_num
    · linarith
  · have hlowEq : ((roundingInterval mantissa exponent).low : ℚ) = 4 * mantissa - 2 := by
      have hpow : ¬(mantissa = Nat.pow 2 52 ∧ exponent ≠ minExponent) := hbinade
      have htwo : 2 ≤ 4 * mantissa := by omega
      simp only [roundingInterval, if_neg hpow, Nat.cast_sub htwo]
      push_cast
      ring
    rw [hlowEq] at hlow htie
    refine ⟨?_, ?_, fun h => hclosed (htie (h.imp (fun h => ?_) fun h => ?_)), fun h h' => ?_⟩
    · linarith
    · linarith
    · linarith
    · linarith
    · exact absurd ⟨h, h'⟩ hbinade

/-- A quotient in the rounding interval of a number is rounded to that number. -/
theorem rounded_of_around {mantissa : Nat} {exponent : Int} (hspelling : IsSpelling mantissa exponent)
    (hm : mantissa ≠ 0) {num den : Nat} (hnum : num ≠ 0) (hden : den ≠ 0)
    (h : Around mantissa exponent (num / den)) : rounded num den = (mantissa, exponent) := by
  obtain ⟨hlow, hhigh, htie, hquarter⟩ := around_bounds hm h
  obtain ⟨hlt, hmin, -, hfull⟩ := hspelling
  have hlt : mantissa < 2 ^ 53 := hlt
  have hfull : 2 ^ 52 ≤ mantissa ∨ exponent = minExponent := hfull
  have hunit := two_zpow_pos exponent
  have hposDen := Nat.pos_of_ne_zero hden
  have hrounded : ∀ unit, unitOf num den = unit → rounded num den
      = if roundHalfEven (inUnits num den unit).1 (inUnits num den unit).2 = 2 ^ 53
        then (2 ^ 52, unit + 1)
        else (roundHalfEven (inUnits num den unit).1 (inUnits num den unit).2, unit) := by
    rintro unit rfl
    rfl
  by_cases hinside : 2 ^ 52 * 2 ^ exponent ≤ (num : ℚ) / den ∨ exponent = minExponent
  · -- the quotient has the unit of the number
    have hltQ : (mantissa : ℚ) + 1 ≤ 2 ^ 53 := by exact_mod_cast hlt
    have hhigh53 : (num : ℚ) / den < 2 ^ 53 * 2 ^ exponent := by nlinarith
    have hunitOf := unitOf_eq hnum hden hmin hhigh53 hinside
    have hround : roundHalfEven (inUnits num den exponent).1 (inUnits num den exponent).2
        = mantissa := by
      refine roundHalfEven_eq (inUnits_pos _ hposDen _) ?_ ?_ ?_ <;> rw [value_inUnits]
      · rwa [le_div_iff₀ hunit]
      · rwa [div_le_iff₀ hunit]
      · rw [eq_div_iff hunit.ne', div_eq_iff hunit.ne']
        exact htie
    rw [hrounded _ hunitOf, hround, if_neg (Nat.ne_of_lt hlt)]
  · -- the quotient lies below the binade of the number: the unit is half of it, and rounding fills it
    obtain ⟨hbelow, hne⟩ := not_or.1 hinside
    have hge : 2 ^ 52 ≤ mantissa := hfull.resolve_right hne
    have hbelow : (num : ℚ) / den < 2 ^ 52 * 2 ^ exponent := not_le.1 hbelow
    have heq : mantissa = 2 ^ 52 := by
      have : (mantissa : ℚ) - 1 / 2 < 2 ^ 52 := by
        by_contra hcon
        have := not_lt.1 hcon
        nlinarith
      have : (mantissa : ℚ) < 2 ^ 52 + 1 := by linarith
      have : mantissa < 2 ^ 52 + 1 := by exact_mod_cast this
      omega
    have hlow4 := hquarter heq hne
    rw [heq] at hlow4
    push_cast at hlow4
    have hhalf : (2 : ℚ) ^ exponent = 2 * 2 ^ (exponent - 1) := by
      rw [← two_zpow_succ, sub_add_cancel]
    have hunit' := two_zpow_pos (exponent - 1)
    have hunitOf : unitOf num den = exponent - 1 := by
      refine unitOf_eq hnum hden (by omega) ?_ (.inl ?_)
      · rw [hhalf] at hbelow
        linarith
      · rw [hhalf] at hlow4
        nlinarith
    have hround : roundHalfEven (inUnits num den (exponent - 1)).1
        (inUnits num den (exponent - 1)).2 = 2 ^ 53 := by
      refine roundHalfEven_eq (inUnits_pos _ hposDen _) ?_ ?_ (fun _ => by norm_num) <;>
        rw [value_inUnits] <;> push_cast
      · rw [le_div_iff₀ hunit']
        rw [hhalf] at hlow4
        linarith
      · rw [div_le_iff₀ hunit']
        rw [hhalf] at hbelow
        linarith
    rw [hrounded _ hunitOf, if_pos hround, heq, sub_add_cancel]

/-- A quotient in the rounding interval of a number is read as that number. -/
theorem ofQuotient_of_around {mantissa : Nat} {exponent : Int}
    (hspelling : IsSpelling mantissa exponent) (hm : mantissa ≠ 0) (negative : Bool) {num den : Nat}
    (hnum : num ≠ 0) (hden : den ≠ 0) (h : Around mantissa exponent (num / den)) :
    ofQuotient negative num den = finite negative mantissa exponent hspelling := by
  have hrounded := rounded_of_around hspelling hm hnum hden h
  have hmax : ¬ maxExponent < (rounded num den).2 := by
    rw [hrounded]
    exact Int.not_lt.2 hspelling.2.2.1
  rw [ofQuotient, dif_neg (not_or.2 ⟨hnum, hden⟩), dif_neg hmax]
  simp only [hrounded]

/-! ## The nearest number -/

/-- The finite numbers of the format that are not negative: fewer than `2 ^ 53` units of a power of two. -/
def IsMagnitude (y : ℚ) : Prop :=
  ∃ (k : Nat) (unit : Int), k < 2 ^ 53 ∧ minExponent ≤ unit ∧ unit ≤ maxExponent ∧ y = k * 2 ^ unit

theorem isMagnitude_of_le {k : Nat} {unit : Int} (hk : k ≤ 2 ^ 53) (hmin : minExponent ≤ unit) (hmax : unit < maxExponent) :
    IsMagnitude (k * 2 ^ unit) := by
  rcases Nat.lt_or_eq_of_le hk with hlt | rfl
  · exact ⟨k, unit, hlt, hmin, hmax.le, rfl⟩
  · refine ⟨2 ^ 52, unit + 1, by norm_num, by omega, by omega, ?_⟩
    rw [two_zpow_succ]
    push_cast
    ring

/-- No number of the format is nearer to `x` than `mantissa * 2 ^ exponent`; if another is as near, the mantissa is even. -/
structure IsNearest (x : ℚ) (mantissa : Nat) (exponent : Int) : Prop where
  least : ∀ y, IsMagnitude y → |mantissa * 2 ^ exponent - x| ≤ |y - x|
  even : ∀ y, IsMagnitude y → y ≠ mantissa * 2 ^ exponent → |mantissa * 2 ^ exponent - x| = |y - x| →
    mantissa % 2 = 0

section

variable {num den : Nat}

theorem value_rounded (num den : Nat) : ((rounded num den).1 : ℚ) * 2 ^ (rounded num den).2
    = roundHalfEven (inUnits num den (unitOf num den)).1 (inUnits num den (unitOf num den)).2
      * 2 ^ unitOf num den := by
  unfold rounded
  dsimp only
  split
  next hfull =>
    have hpow : Nat.pow 2 53 = 2 ^ 53 ∧ Nat.pow 2 52 = 2 ^ 52 := ⟨rfl, rfl⟩
    rw [hfull, two_zpow_succ, hpow.1, hpow.2]
    push_cast
    ring
  next => rfl

theorem even_rounded (h : roundHalfEven (inUnits num den (unitOf num den)).1
    (inUnits num den (unitOf num den)).2 % 2 = 0) : (rounded num den).1 % 2 = 0 := by
  unfold rounded
  dsimp only
  split
  · exact (by decide : Nat.pow 2 52 % 2 = 0)
  · exact h

/-- A number of the format is not nearer to a quotient than some integer in the unit of the quotient, and as near only if it is
    that integer. -/
theorem exists_units_near (hnum : num ≠ 0) (hden : den ≠ 0) {y : ℚ} (hy : IsMagnitude y) :
    ∃ j : Int, |(j : ℚ) * 2 ^ unitOf num den - num / den| ≤ |y - num / den| ∧
      (|(j : ℚ) * 2 ^ unitOf num den - num / den| = |y - num / den| → y = j * 2 ^ unitOf num den) := by
  obtain ⟨k, unit, hk, hmin, -, rfl⟩ := hy
  rcases le_or_gt (unitOf num den) unit with hle | hlt
  · obtain ⟨d, hd⟩ := Int.eq_ofNat_of_zero_le (sub_nonneg.2 hle)
    have hinteger : (k : ℚ) * 2 ^ unit = (k * 2 ^ d : Int) * 2 ^ unitOf num den := by
      obtain rfl : unit = d + unitOf num den := by omega
      rw [zpow_add₀ two_ne_zero, zpow_natCast]
      push_cast
      ring
    exact ⟨k * 2 ^ d, by rw [hinteger], fun _ => hinteger⟩
  · -- in the unit of the quotient there are `2 ^ 52` units at least, and the number is below that
    have hlow : 2 ^ 52 * 2 ^ unitOf num den ≤ (num : ℚ) / den :=
      (unitOf_value hnum hden).2.resolve_right fun h => absurd hlt (by omega)
    have hbelow : (k : ℚ) * 2 ^ unit < 2 ^ 52 * 2 ^ unitOf num den := by
      have hkQ : (k : ℚ) < 2 ^ 53 := by exact_mod_cast hk
      calc (k : ℚ) * 2 ^ unit < 2 ^ 53 * 2 ^ unit := mul_lt_mul_of_pos_right hkQ (two_zpow_pos unit)
        _ = 2 ^ 52 * 2 ^ (unit + 1) := by rw [two_zpow_succ]; ring
        _ ≤ 2 ^ 52 * 2 ^ unitOf num den := mul_le_mul_of_nonneg_left (two_zpow_succ_le hlt) (by positivity)
    have hstrict : |((2 ^ 52 : Int) : ℚ) * 2 ^ unitOf num den - num / den| < |(k : ℚ) * 2 ^ unit - num / den| := by
      push_cast
      rw [abs_of_nonpos (by linarith), abs_of_nonpos (by linarith)]
      linarith
    exact ⟨2 ^ 52, hstrict.le, fun heq => absurd heq hstrict.ne⟩

/-- A quotient is rounded to the nearest number of the format. -/
theorem isNearest_rounded (hnum : num ≠ 0) (hden : den ≠ 0) :
    IsNearest (num / den) (rounded num den).1 (rounded num den).2 := by
  have hpos := inUnits_pos num (Nat.pos_of_ne_zero hden) (unitOf num den)
  have hunit := two_zpow_pos (unitOf num den)
  have hvalue := value_inUnits num den (unitOf num den)
  -- distances are measured in the unit of the quotient
  have hscale : ∀ a : ℚ, |a * 2 ^ unitOf num den - num / den|
      = |a - (inUnits num den (unitOf num den)).1 / (inUnits num den (unitOf num den)).2| * 2 ^ unitOf num den := by
    intro a
    rw [hvalue, ← abs_of_pos hunit, ← abs_mul, abs_of_pos hunit, sub_mul, div_mul_cancel₀ _ hunit.ne']
  refine ⟨fun y hy => ?_, fun y hy hne heq => even_rounded ?_⟩
  · obtain ⟨j, hj, -⟩ := exists_units_near hnum hden hy
    rw [value_rounded, hscale]
    rw [hscale] at hj
    exact (mul_le_mul_of_nonneg_right (roundHalfEven_nearest _ hpos j).1 hunit.le).trans hj
  · obtain ⟨j, hj, hsame⟩ := exists_units_near hnum hden hy
    obtain ⟨hleast, heven⟩ := roundHalfEven_nearest (inUnits num den (unitOf num den)).1 hpos j
    rw [value_rounded] at hne heq
    have hleast' := mul_le_mul_of_nonneg_right hleast hunit.le
    rw [← hscale, ← hscale, heq] at hleast'
    have hy := hsame (le_antisymm hj hleast')
    refine heven (fun hjr => hne ?_) ?_
    · rw [hy, hjr, Int.cast_natCast]
    · rw [hy, hscale, hscale] at heq
      exact mul_right_cancel₀ hunit.ne' heq

/-- What a quotient is read as, if it is finite, is the number of the format that is nearest to it. -/
theorem isNearest_ofQuotient {negative negative' : Bool} {mantissa : Nat} {exponent : Int}
    {spelling : IsSpelling mantissa exponent} (hden : den ≠ 0)
    (h : ofQuotient negative num den = finite negative' mantissa exponent spelling) :
    IsNearest (num / den) mantissa exponent := by
  unfold ofQuotient at h
  split at h
  next hzero =>
    obtain ⟨-, rfl, rfl⟩ := Binary64.finite.inj h
    rw [hzero.resolve_right hden]
    exact ⟨fun y _ => by simp, fun _ _ _ _ => rfl⟩
  next hnonzero =>
    split at h
    · cases h
    · obtain ⟨-, rfl, rfl⟩ := Binary64.finite.inj h
      exact isNearest_rounded (fun h0 => hnonzero (.inl h0)) hden

end

end Folio.Binary64

set_option autoImplicit false

/-! # Binary floating point, exactly

A number of the format with 53 significant bits is a sign, a mantissa and a power of two, so every
operation is exact arithmetic on naturals followed by one rounding: to the nearest number of the
format, a tie going to the even mantissa. Nothing here rests on the machine's own arithmetic, which
proofs cannot see into. -/

namespace Folio

/-! ## The numbers of the format -/

namespace Binary64

/-- The least exponent of the format. -/
def minExponent : Int := -1074

/-- The greatest exponent of the format. -/
def maxExponent : Int := 971

/-- The one spelling of each finite number: the mantissa has all 53 bits unless the exponent is the
    least one. -/
def IsSpelling (mantissa : Nat) (exponent : Int) : Prop :=
  mantissa < Nat.pow 2 53 ∧ minExponent ≤ exponent ∧ exponent ≤ maxExponent ∧
    (Nat.pow 2 52 ≤ mantissa ∨ exponent = minExponent)

end Binary64

/-- A number of the binary format with 53 significant bits. A finite one is
    `± mantissa * 2 ^ exponent`. -/
inductive Binary64 where
  | nan
  | infinite (negative : Bool)
  | finite (negative : Bool) (mantissa : Nat) (exponent : Int)
      (spelling : Binary64.IsSpelling mantissa exponent)
deriving DecidableEq, Repr, Inhabited

namespace Binary64

theorem isSpelling_zero : IsSpelling 0 minExponent := by
  simp [IsSpelling, minExponent, maxExponent]

/-- Zero with a sign. -/
def signedZero (negative : Bool) : Binary64 := finite negative 0 minExponent isSpelling_zero

/-- Zero without a sign. -/
def zero : Binary64 := signedZero false

/-! ## Rounding -/

/-- Round a quotient to the nearest natural; a half goes to the even neighbour. -/
def roundHalfEven (num den : Nat) : Nat :=
  let q := num / den
  let r := num % den
  if 2 * r < den then q
  else if den < 2 * r then q + 1
  else if q % 2 = 0 then q else q + 1

/-- The quotient `num / den` in units of `2 ^ exponent`, again as a quotient. -/
def inUnits (num den : Nat) (exponent : Int) : Nat × Nat :=
  if 0 ≤ exponent then (num, den * Nat.pow 2 exponent.toNat)
  else (num * Nat.pow 2 (-exponent).toNat, den)

/-- The exponent at which a positive quotient has 53 bits before the point, or one less. -/
def unitGuess (num den : Nat) : Int :=
  (Nat.log2 num : Int) - (Nat.log2 den : Int) - 53

/-- The exponent at which a positive quotient has 53 bits before the point, or the least exponent
    of the format if that is greater. -/
def unitOf (num den : Nat) : Int :=
  let guess := unitGuess num den
  let (n, d) := inUnits num den guess
  max minExponent (if n / d < Nat.pow 2 53 then guess else guess + 1)

/-- The mantissa and the exponent nearest to a positive quotient. Rounding can fill the last unit. -/
def rounded (num den : Nat) : Nat × Int :=
  let unit := unitOf num den
  let (n, d) := inUnits num den unit
  let mantissa := roundHalfEven n d
  if mantissa = Nat.pow 2 53 then (Nat.pow 2 52, unit + 1) else (mantissa, unit)

theorem roundHalfEven_bounds (num den : Nat) :
    num / den ≤ roundHalfEven num den ∧ roundHalfEven num den ≤ num / den + 1 := by
  unfold roundHalfEven
  dsimp only
  split
  · omega
  · split
    · omega
    · split <;> omega

/-- A quotient in units against a natural number, without the division: both sides are scaled by
    `2 ^ scale`, which makes the unit a natural number. -/
theorem le_inUnits_iff {num den : Nat} (hden : 0 < den) {exponent : Int} {scale : Nat}
    (hscale : 0 ≤ exponent + scale) (k : Nat) :
    k ≤ (inUnits num den exponent).1 / (inUnits num den exponent).2 ↔
      k * (den * Nat.pow 2 (exponent + scale).toNat) ≤ num * Nat.pow 2 scale := by
  change _ ↔ k * (den * 2 ^ (exponent + scale).toNat) ≤ num * 2 ^ scale
  unfold inUnits
  split
  next h =>
    have hadd : (exponent + scale).toNat = exponent.toNat + scale := by omega
    have hpos : 0 < den * Nat.pow 2 exponent.toNat := Nat.mul_pos hden (Nat.two_pow_pos _)
    have hassoc : k * (den * 2 ^ (exponent.toNat + scale))
        = k * (den * 2 ^ exponent.toNat) * 2 ^ scale := by
      rw [Nat.pow_add]
      simp only [Nat.mul_assoc]
    rw [Nat.le_div_iff_mul_le hpos, hadd, hassoc]
    exact (Nat.mul_le_mul_right_iff (Nat.two_pow_pos scale)).symm
  next h =>
    have hadd : scale = (-exponent).toNat + (exponent + scale).toNat := by omega
    have hassoc : num * 2 ^ scale
        = num * 2 ^ (-exponent).toNat * 2 ^ (exponent + scale).toNat := by
      rw [Nat.mul_assoc, ← Nat.pow_add, ← hadd]
    rw [Nat.le_div_iff_mul_le hden, hassoc, ← Nat.mul_assoc]
    exact (Nat.mul_le_mul_right_iff (Nat.two_pow_pos _)).symm

/-- In the unit of a quotient fewer than `2 ^ 53` units fit into it, and `2 ^ 52` at least unless the
    exponent is the least one. -/
theorem unitOf_bounds {num den : Nat} (hnum : num ≠ 0) (hden : den ≠ 0) :
    (inUnits num den (unitOf num den)).1 / (inUnits num den (unitOf num den)).2 < Nat.pow 2 53 ∧
      (Nat.pow 2 52 ≤ (inUnits num den (unitOf num den)).1 / (inUnits num den (unitOf num den)).2 ∨
        unitOf num den = minExponent) := by
  have hpow : Nat.pow 2 53 = 2 ^ 53 ∧ Nat.pow 2 52 = 2 ^ 52 := ⟨rfl, rfl⟩
  rw [hpow.1, hpow.2]
  have hpos : 0 < den := Nat.pos_of_ne_zero hden
  have hnumLow := Nat.log2_self_le hnum
  have hnumHigh := Nat.lt_log2_self (n := num)
  have hdenLow := Nat.log2_self_le hden
  have hdenHigh := Nat.lt_log2_self (n := den)
  generalize hguess : unitGuess num den = guess
  have hlogs : guess = (Nat.log2 num : Int) - (Nat.log2 den : Int) - 53 := by
    rw [← hguess, unitGuess]
  -- one scale makes all the units that are compared natural numbers
  generalize hs : guess.natAbs + 1075 = scale
  have hscale : ∀ unit : Int, guess ≤ unit ∨ minExponent ≤ unit → 0 ≤ unit + scale := by
    intro unit hunit
    simp only [minExponent] at hunit
    omega
  have hlow : 2 ^ 52 * (den * 2 ^ (guess + scale).toNat) ≤ num * 2 ^ scale := by
    have hexp : 52 + (Nat.log2 den + 1 + (guess + scale).toNat) = Nat.log2 num + scale := by omega
    calc 2 ^ 52 * (den * 2 ^ (guess + scale).toNat)
        ≤ 2 ^ 52 * (2 ^ (Nat.log2 den + 1) * 2 ^ (guess + scale).toNat) :=
          Nat.mul_le_mul_left _ (Nat.mul_le_mul_right _ (Nat.le_of_lt hdenHigh))
      _ = 2 ^ Nat.log2 num * 2 ^ scale := by rw [← Nat.pow_add, ← Nat.pow_add, ← Nat.pow_add, hexp]
      _ ≤ num * 2 ^ scale := Nat.mul_le_mul_right _ hnumLow
  have hhigh : ∀ unit : Int, guess + 1 ≤ unit →
      num * 2 ^ scale < 2 ^ 53 * (den * 2 ^ (unit + scale).toNat) := by
    intro unit hunit
    have hexp : Nat.log2 num + 1 + scale ≤ 53 + (Nat.log2 den + (unit + scale).toNat) := by omega
    calc num * 2 ^ scale
        < 2 ^ (Nat.log2 num + 1) * 2 ^ scale :=
          Nat.mul_lt_mul_of_pos_right hnumHigh (Nat.two_pow_pos _)
      _ ≤ 2 ^ 53 * (2 ^ Nat.log2 den * 2 ^ (unit + scale).toNat) := by
          rw [← Nat.pow_add, ← Nat.pow_add, ← Nat.pow_add]
          exact Nat.pow_le_pow_right Nat.two_pos hexp
      _ ≤ 2 ^ 53 * (den * 2 ^ (unit + scale).toNat) :=
          Nat.mul_le_mul_left _ (Nat.mul_le_mul_right _ hdenLow)
  have hbelow : ∀ unit : Int, guess + 1 ≤ unit →
      (inUnits num den unit).1 / (inUnits num den unit).2 < 2 ^ 53 := by
    intro unit hunit
    refine Nat.lt_of_not_le fun hle => ?_
    have hscaled := (le_inUnits_iff hpos (hscale unit (.inl (by omega))) (2 ^ 53)).1 hle
    exact absurd (hhigh unit hunit) (Nat.not_lt.2 hscaled)
  have hunit : unitOf num den = max minExponent
      (if (inUnits num den guess).1 / (inUnits num den guess).2 < 2 ^ 53 then guess
        else guess + 1) := by
    rw [← hguess]
    rfl
  by_cases hfits : (inUnits num den guess).1 / (inUnits num den guess).2 < 2 ^ 53
  · rw [if_pos hfits] at hunit
    by_cases hleast : minExponent ≤ guess
    · rw [hunit, Int.max_eq_right hleast]
      exact ⟨hfits, .inl ((le_inUnits_iff hpos (hscale guess (.inl (Int.le_refl _))) _).2 hlow)⟩
    · rw [hunit, Int.max_eq_left (by omega)]
      exact ⟨hbelow _ (by omega), .inr rfl⟩
  · rw [if_neg hfits] at hunit
    by_cases hleast : minExponent ≤ guess + 1
    · rw [hunit, Int.max_eq_right hleast]
      refine ⟨hbelow _ (Int.le_refl _), .inl ?_⟩
      have hscaled : 2 ^ 53 * (den * 2 ^ (guess + scale).toNat) ≤ num * 2 ^ scale :=
        (le_inUnits_iff hpos (hscale guess (.inl (Int.le_refl _))) (2 ^ 53)).1 (Nat.le_of_not_lt hfits)
      have hexp : (guess + 1 + scale).toNat = (guess + scale).toNat + 1 := by omega
      refine (le_inUnits_iff hpos (hscale (guess + 1) (.inl (by omega))) _).2 ?_
      change 2 ^ 52 * (den * 2 ^ (guess + 1 + scale).toNat) ≤ num * 2 ^ scale
      have hdouble : den * 2 ^ ((guess + scale).toNat + 1) = den * 2 ^ (guess + scale).toNat * 2 := by
        rw [Nat.pow_succ, Nat.mul_assoc]
      rw [hexp, hdouble]
      omega
    · rw [hunit, Int.max_eq_left (by omega)]
      exact ⟨hbelow _ (by omega), .inr rfl⟩

theorem isSpelling_rounded {num den : Nat} (h : ¬(num = 0 ∨ den = 0))
    (hmax : ¬maxExponent < (rounded num den).2) :
    IsSpelling (rounded num den).1 (rounded num den).2 := by
  have hnum : num ≠ 0 := fun h0 => h (.inl h0)
  have hden : den ≠ 0 := fun h0 => h (.inr h0)
  obtain ⟨hlt, hge⟩ := unitOf_bounds hnum hden
  obtain ⟨hfloor, hceil⟩ := roundHalfEven_bounds (inUnits num den (unitOf num den)).1
    (inUnits num den (unitOf num den)).2
  have hmin : minExponent ≤ unitOf num den := Int.le_max_left _ _
  have hpow : Nat.pow 2 53 = 2 ^ 53 ∧ Nat.pow 2 52 = 2 ^ 52 := ⟨rfl, rfl⟩
  rw [hpow.1] at hlt
  rw [hpow.2] at hge
  have hrounded : rounded num den
      = if roundHalfEven (inUnits num den (unitOf num den)).1 (inUnits num den (unitOf num den)).2
          = 2 ^ 53 then (2 ^ 52, unitOf num den + 1)
        else (roundHalfEven (inUnits num den (unitOf num den)).1
          (inUnits num den (unitOf num den)).2, unitOf num den) := rfl
  rw [hrounded] at hmax ⊢
  unfold IsSpelling
  rw [hpow.1, hpow.2]
  split
  next hfull =>
    rw [if_pos hfull] at hmax
    have hsucc : minExponent ≤ unitOf num den + 1 := Int.le_trans hmin (Int.le_add_one (Int.le_refl _))
    exact ⟨(by decide : (2 : Nat) ^ 52 < 2 ^ 53), hsucc, Int.not_lt.1 hmax, .inl (Nat.le_refl _)⟩
  next hfull =>
    rw [if_neg hfull] at hmax
    refine ⟨by dsimp only; omega, hmin, Int.not_lt.1 hmax, ?_⟩
    exact hge.imp (fun h => Nat.le_trans h hfloor) fun h => h

/-- The number of the format nearest to `± num / den`; without a denominator, zero. -/
def ofQuotient (negative : Bool) (num den : Nat) : Binary64 :=
  if h : num = 0 ∨ den = 0 then signedZero negative
  else if hmax : maxExponent < (rounded num den).2 then infinite negative
  else finite negative (rounded num den).1 (rounded num den).2 (isSpelling_rounded h hmax)

/-- The number of the format nearest to an integer. -/
def ofInt (i : Int) : Binary64 :=
  ofQuotient (decide (i < 0)) i.natAbs 1

/-- The number of the format nearest to `± digits * 10 ^ exponent`. Exponents so large or so small
    that the answer is plain are answered without computing the power. -/
def ofDecimal (negative : Bool) (digits : Nat) (exponent : Int) : Binary64 :=
  if digits = 0 then signedZero negative
  else
    let magnitude : Int := exponent + (Nat.toDigits 10 digits).length
    if 310 < magnitude then infinite negative
    else if magnitude < -330 then signedZero negative
    else if 0 ≤ exponent then ofQuotient negative (digits * Nat.pow 10 exponent.toNat) 1
    else ofQuotient negative digits (Nat.pow 10 (-exponent).toNat)

/-! ## Arithmetic -/

/-- The number with its sign changed. -/
def neg : Binary64 → Binary64
  | nan => nan
  | infinite negative => infinite (!negative)
  | finite negative m e h => finite (!negative) m e h

/-- A finite number as a signed count of units `2 ^ minExponent`, which is exact. -/
def toUnits (negative : Bool) (mantissa : Nat) (exponent : Int) : Int :=
  let n : Int := (mantissa * Nat.pow 2 (exponent - minExponent).toNat : Nat)
  if negative then -n else n

/-- The number nearest to a count of units `2 ^ minExponent`. -/
def ofUnits (units : Int) : Binary64 :=
  ofQuotient (decide (units < 0)) units.natAbs (Nat.pow 2 (-minExponent).toNat)

/-- Addition, rounded once. -/
def add : Binary64 → Binary64 → Binary64
  | finite n₁ m₁ e₁ _, finite n₂ m₂ e₂ _ =>
    let sum := toUnits n₁ m₁ e₁ + toUnits n₂ m₂ e₂
    if sum = 0 then signedZero (n₁ && n₂) else ofUnits sum
  | infinite n₁, infinite n₂ => if n₁ = n₂ then infinite n₁ else nan
  | infinite n, finite _ _ _ _ => infinite n
  | finite _ _ _ _, infinite n => infinite n
  | nan, _ => nan
  | _, nan => nan

/-- Multiplication, rounded once. -/
def mul : Binary64 → Binary64 → Binary64
  | finite n₁ m₁ e₁ _, finite n₂ m₂ e₂ _ =>
    let exponent := e₁ + e₂
    if 0 ≤ exponent then ofQuotient (n₁ != n₂) (m₁ * m₂ * Nat.pow 2 exponent.toNat) 1
    else ofQuotient (n₁ != n₂) (m₁ * m₂) (Nat.pow 2 (-exponent).toNat)
  | infinite n₁, infinite n₂ => infinite (n₁ != n₂)
  | infinite n₁, finite n₂ m _ _ => if m = 0 then nan else infinite (n₁ != n₂)
  | finite n₁ m _ _, infinite n₂ => if m = 0 then nan else infinite (n₁ != n₂)
  | nan, _ => nan
  | _, nan => nan

/-- The least integer that is not below a finite number. -/
def ceil (negative : Bool) (mantissa : Nat) (exponent : Int) : Int :=
  let (n, d) := inUnits mantissa 1 (-exponent)
  if negative then -((n / d : Nat) : Int) else (((n + d - 1) / d : Nat) : Int)

/-- A finite number without its part after the point. -/
def truncate (negative : Bool) (mantissa : Nat) (exponent : Int) : Int :=
  let (n, d) := inUnits mantissa 1 (-exponent)
  if negative then -((n / d : Nat) : Int) else ((n / d : Nat) : Int)

/-- The integer nearest to a finite number; a half goes to the even neighbour. -/
def roundToInt (negative : Bool) (mantissa : Nat) (exponent : Int) : Int :=
  let (n, d) := inUnits mantissa 1 (-exponent)
  let r : Int := (roundHalfEven n d : Nat)
  if negative then -r else r

/-- The integer a number is equal to, if there is one. -/
def toInt? : Binary64 → Option Int
  | finite negative mantissa exponent _ =>
    let (n, d) := inUnits mantissa 1 (-exponent)
    if n % d = 0 then some (if negative then -((n / d : Nat) : Int) else ((n / d : Nat) : Int))
    else none
  | _ => none

/-- Equality of values: the two zeros are equal, and nothing equals a NaN. -/
def valueEq : Binary64 → Binary64 → Bool
  | finite n₁ m₁ e₁ _, finite n₂ m₂ e₂ _ => toUnits n₁ m₁ e₁ == toUnits n₂ m₂ e₂
  | infinite n₁, infinite n₂ => n₁ == n₂
  | _, _ => false

end Binary64

end Folio

import Folio.Proofs.Number.Digits
import Folio.Proofs.Number.Rounding
import Mathlib.Tactic.NormNum

set_option autoImplicit false

/-! # The shortest decimal reads back

The search for the shortest decimal of a number ends in its rounding interval, at the latest with
eighteen digits, because the numbers of that grid lie closer than a quarter of a unit
(`around_shortest`). What lies in the interval is read as the number, however large or small its
exponent is (`ofDecimal_of_around`). -/

namespace Folio.Binary64

/-! ## Quotients as rationals -/

/-- The value of a decimal. -/
def Decimal.value (d : Decimal) : ℚ := d.digits * (10 : ℚ) ^ d.exponent

/-- The value of a quotient. -/
def Ratio.value (r : Ratio) : ℚ := r.num / r.den

theorem pow_toNat_pos {b : Nat} (hb : 0 < b) (n : Int) : 0 < Nat.pow b n.toNat := Nat.pow_pos hb

theorem scaled_value {b : Nat} (hb : 0 < b) (n : Nat) (exponent : Int) :
    (if 0 ≤ exponent then (⟨n * Nat.pow b exponent.toNat, 1⟩ : Ratio)
      else ⟨n, Nat.pow b (-exponent).toNat⟩).value = n * (b : ℚ) ^ exponent := by
  have hbQ : (b : ℚ) ≠ 0 := Nat.cast_ne_zero.2 (Nat.ne_of_gt hb)
  split
  next h =>
    obtain ⟨k, rfl⟩ := Int.eq_ofNat_of_zero_le h
    have hpow : Nat.pow b k = b ^ k := rfl
    rw [Ratio.value, Int.toNat_natCast, hpow, zpow_natCast]
    push_cast
    ring
  next h =>
    obtain ⟨k, hk⟩ := Int.eq_ofNat_of_zero_le (show 0 ≤ -exponent by omega)
    obtain rfl : exponent = -(k : Int) := by omega
    have hpow : Nat.pow b k = b ^ k := rfl
    rw [Ratio.value, neg_neg, Int.toNat_natCast, hpow, zpow_neg, zpow_natCast]
    push_cast
    rw [div_eq_mul_inv]

theorem Ratio.value_ofScaled (n : Nat) (exponent : Int) :
    (Ratio.ofScaled n exponent).value = n * (2 : ℚ) ^ exponent :=
  scaled_value two_pos n exponent

theorem Ratio.value_ofDecimal (n : Nat) (exponent : Int) :
    (Ratio.ofDecimal n exponent).value = n * (10 : ℚ) ^ exponent :=
  scaled_value (by decide) n exponent

theorem Ratio.den_ofScaled_pos (n : Nat) (exponent : Int) : 0 < (Ratio.ofScaled n exponent).den := by
  unfold Ratio.ofScaled
  split
  · exact Nat.one_pos
  · exact pow_toNat_pos two_pos _

theorem Ratio.den_ofDecimal_pos (n : Nat) (exponent : Int) :
    0 < (Ratio.ofDecimal n exponent).den := by
  unfold Ratio.ofDecimal
  split
  · exact Nat.one_pos
  · exact pow_toNat_pos (by decide) _

theorem Ratio.le_iff {a b : Ratio} (ha : 0 < a.den) (hb : 0 < b.den) :
    a.le b = true ↔ a.value ≤ b.value := by
  have haQ : (0 : ℚ) < a.den := Nat.cast_pos.2 ha
  have hbQ : (0 : ℚ) < b.den := Nat.cast_pos.2 hb
  rw [Ratio.le, decide_eq_true_eq, Ratio.value, Ratio.value, div_le_div_iff₀ haQ hbQ]
  exact_mod_cast Iff.rfl

theorem Ratio.lt_iff {a b : Ratio} (ha : 0 < a.den) (hb : 0 < b.den) :
    a.lt b = true ↔ a.value < b.value := by
  have haQ : (0 : ℚ) < a.den := Nat.cast_pos.2 ha
  have hbQ : (0 : ℚ) < b.den := Nat.cast_pos.2 hb
  rw [Ratio.lt, decide_eq_true_eq, Ratio.value, Ratio.value, div_lt_div_iff₀ haQ hbQ]
  exact_mod_cast Iff.rfl

/-- What the test of a decimal accepts lies in the rounding interval. -/
theorem around_of_inInterval {mantissa : Nat} {exponent : Int} {d : Decimal}
    (h : inInterval mantissa exponent d = true) : Around mantissa exponent d.value := by
  have hlowPos := Ratio.den_ofScaled_pos (roundingInterval mantissa exponent).low (exponent - 2)
  have hhighPos := Ratio.den_ofScaled_pos (roundingInterval mantissa exponent).high (exponent - 2)
  have hpos := Ratio.den_ofDecimal_pos d.digits d.exponent
  unfold inInterval at h
  dsimp only at h
  split at h
  next hclosed =>
    rw [Bool.and_eq_true, Ratio.le_iff hlowPos hpos, Ratio.le_iff hpos hhighPos,
      Ratio.value_ofScaled, Ratio.value_ofScaled, Ratio.value_ofDecimal] at h
    exact ⟨h.1, h.2, fun _ => hclosed⟩
  next hopen =>
    rw [Bool.and_eq_true, Ratio.lt_iff hlowPos hpos, Ratio.lt_iff hpos hhighPos,
      Ratio.value_ofScaled, Ratio.value_ofScaled, Ratio.value_ofDecimal] at h
    exact ⟨h.1.le, h.2.le, fun hends => hends.elim (fun heq => absurd heq h.1.ne)
      fun heq => absurd heq h.2.ne⟩

/-- What lies less than a quarter of a unit away lies in the rounding interval. -/
theorem around_of_near {mantissa : Nat} {exponent : Int} (hm : mantissa ≠ 0) {x : ℚ}
    (hlow : (mantissa : ℚ) * 2 ^ exponent - 2 ^ (exponent - 2) < x)
    (hhigh : x < (mantissa : ℚ) * 2 ^ exponent + 2 ^ (exponent - 2)) :
    Around mantissa exponent x := by
  have hquarter : (2 : ℚ) ^ exponent = 4 * 2 ^ (exponent - 2) := by
    rw [zpow_sub₀ two_ne_zero]
    norm_num
    ring
  have hunit := two_zpow_pos (exponent - 2)
  have hlowLe : ((roundingInterval mantissa exponent).low : ℚ) ≤ 4 * mantissa - 1 := by
    have hle : (roundingInterval mantissa exponent).low + 1 ≤ 4 * mantissa := by
      simp only [roundingInterval]
      split <;> omega
    have : (((roundingInterval mantissa exponent).low + 1 : Nat) : ℚ) ≤ (4 * mantissa : Nat) :=
      Nat.cast_le.2 hle
    push_cast at this
    linarith
  have hhighEq : ((roundingInterval mantissa exponent).high : ℚ) = 4 * mantissa + 2 := by
    simp [roundingInterval]
  have hbelow : ((roundingInterval mantissa exponent).low : ℚ) * 2 ^ (exponent - 2) < x := by
    rw [hquarter] at hlow
    nlinarith
  have habove : x < ((roundingInterval mantissa exponent).high : ℚ) * 2 ^ (exponent - 2) := by
    rw [hhighEq]
    rw [hquarter] at hhigh
    nlinarith
  exact ⟨hbelow.le, habove.le,
    fun hends => hends.elim (fun heq => absurd heq hbelow.ne) fun heq => absurd heq habove.ne⟩

/-! ## The search -/

/-- The nearest number of a grid lies half its step away at most. -/
theorem onGrid_near (num : Nat) {den : Nat} (hden : 0 < den) (grid : Int) :
    (num : ℚ) / den - (onGrid num den grid).2 * 10 ^ grid ≤ 10 ^ grid / 2 ∧
      (onGrid num den grid).2 * 10 ^ grid - (num : ℚ) / den ≤ 10 ^ grid / 2 := by
  have hten : (0 : ℚ) < 10 ^ grid := zpow_pos (by norm_num) grid
  -- the quotient in steps of the grid, as a quotient
  obtain ⟨n, d, hd, hvalue, hnear⟩ : ∃ n d : Nat, 0 < d ∧ (n : ℚ) / d = num / den / 10 ^ grid ∧
      (onGrid num den grid).2 = roundHalfEven n d := by
    by_cases h : 0 ≤ grid
    · obtain ⟨k, rfl⟩ := Int.eq_ofNat_of_zero_le h
      refine ⟨num, den * 10 ^ k, Nat.mul_pos hden (Nat.pow_pos (by decide)), ?_, ?_⟩
      · push_cast
        rw [zpow_natCast, div_div]
      · simp only [onGrid, if_pos h]
        rfl
    · obtain ⟨k, hk⟩ := Int.eq_ofNat_of_zero_le (show 0 ≤ -grid by omega)
      obtain rfl : grid = -(k : Int) := by omega
      refine ⟨num * 10 ^ k, den, hden, ?_, ?_⟩
      · push_cast
        rw [zpow_neg, zpow_natCast, div_inv_eq_mul, div_mul_eq_mul_div]
      · simp only [onGrid, if_neg h, neg_neg, Int.toNat_natCast]
        rfl
  obtain ⟨hfloor, hceil⟩ := roundHalfEven_half n hd
  rw [hnear]
  rw [hvalue] at hfloor hceil
  have hback : (num : ℚ) / den = num / den / 10 ^ grid * 10 ^ grid := by
    rw [div_mul_cancel₀ _ hten.ne']
  rw [hback]
  constructor <;> nlinarith

/-- If the nearest number of the last grid lies in the rounding interval, so does what the search
    finds. -/
theorem around_searchGrids {mantissa : Nat} {exponent : Int} {num den : Nat} {fuel : Nat} {grid : Int}
    (hlast : Around mantissa exponent
      (Decimal.value ⟨(onGrid num den (grid - fuel)).2, grid - fuel⟩)) :
    Around mantissa exponent (searchGrids mantissa exponent num den fuel grid).value := by
  induction fuel generalizing grid with
  | zero => simpa [searchGrids] using hlast
  | succ fuel ih =>
    obtain ⟨other, hsearch⟩ : ∃ other, searchGrids mantissa exponent num den (fuel + 1) grid
        = if inInterval mantissa exponent ⟨(onGrid num den grid).2, grid⟩
          then ⟨(onGrid num den grid).2, grid⟩
          else if inInterval mantissa exponent ⟨other, grid⟩ then ⟨other, grid⟩
          else searchGrids mantissa exponent num den fuel (grid - 1) := ⟨_, rfl⟩
    rw [hsearch]
    split
    · next hin => exact around_of_inInterval hin
    · split
      · next hin => exact around_of_inInterval hin
      · have hgrid : grid - 1 - (fuel : Int) = grid - ((fuel + 1 : Nat) : Int) := by omega
        exact ih (hgrid ▸ hlast)

theorem le_leadingZeros {num den n fuel : Nat} (hn : n ≤ fuel) (h : den ≤ num * 10 ^ n) :
    den ≤ num * 10 ^ leadingZeros num den fuel := by
  induction fuel generalizing num n with
  | zero =>
    obtain rfl : n = 0 := Nat.le_zero.1 hn
    exact h
  | succ fuel ih =>
    unfold leadingZeros
    split
    next hle => simpa using hle
    next hlt =>
      cases n with
      | zero => exact absurd (by simpa using h) hlt
      | succ n =>
        have hnext : den ≤ 10 * num * 10 ^ n := by
          rw [pow_succ] at h
          linarith
        have := ih (Nat.le_of_succ_le_succ hn) hnext
        rw [pow_succ]
        linarith

/-- The leading digit of a quotient does not stand before its place. -/
theorem leadingExponent_le {num den n : Nat} (hden : 0 < den) (hn : n ≤ 400)
    (h : den ≤ num * 10 ^ n) :
    (10 : ℚ) ^ leadingExponent num den ≤ num / den := by
  have hnum : 0 < num := Nat.pos_of_ne_zero fun h0 => by
    rw [h0, Nat.zero_mul] at h
    omega
  have hnumQ : (0 : ℚ) < num := Nat.cast_pos.2 hnum
  have hdenQ : (0 : ℚ) < den := Nat.cast_pos.2 hden
  unfold leadingExponent
  split
  next hle =>
    have hpos : num / den ≠ 0 := Nat.ne_of_gt (Nat.div_pos hle hden)
    have hlen : 0 < (Nat.toDigits 10 (num / den)).length := Nat.length_toDigits_pos
    have hpow := Text.pow_length_toDigits_le hpos
    have hexp : ((Nat.toDigits 10 (num / den)).length : Int) - 1
        = (((Nat.toDigits 10 (num / den)).length - 1 : Nat) : Int) := by omega
    rw [hexp, zpow_natCast, le_div_iff₀ hdenQ]
    rw [Nat.le_div_iff_mul_le hden] at hpow
    exact_mod_cast hpow
  next =>
    have hzeros := le_leadingZeros hn h
    rw [zpow_neg, zpow_natCast, inv_le_comm₀ (by positivity) (by positivity), inv_div,
      div_le_iff₀ hnumQ]
    have : (den : ℚ) ≤ num * 10 ^ leadingZeros num den 400 := by exact_mod_cast hzeros
    linarith

theorem two_pow_le_ten_pow {k n : Nat} (h : k ≤ 3 * n) : 2 ^ k ≤ 10 ^ n :=
  calc 2 ^ k ≤ 2 ^ (3 * n) := Nat.pow_le_pow_right two_pos h
    _ = (2 ^ 3) ^ n := pow_mul 2 3 n
    _ ≤ 10 ^ n := Nat.pow_le_pow_left (by decide) n

/-- The shortest decimal lies in the rounding interval. -/
theorem around_shortest {mantissa : Nat} {exponent : Int} (hspelling : IsSpelling mantissa exponent)
    (hm : mantissa ≠ 0) : Around mantissa exponent (shortest mantissa exponent).value := by
  have hden := Ratio.den_ofScaled_pos mantissa exponent
  have hvalue := Ratio.value_ofScaled mantissa exponent
  obtain ⟨n, hn, hsmall⟩ : ∃ n, n ≤ 400 ∧ (Ratio.ofScaled mantissa exponent).den
      ≤ (Ratio.ofScaled mantissa exponent).num * 10 ^ n := by
    have hmin : -1074 ≤ exponent := hspelling.2.1
    refine ⟨((-exponent).toNat + 2) / 3, by omega, ?_⟩
    unfold Ratio.ofScaled
    split
    · exact Nat.mul_pos (Nat.mul_pos (Nat.pos_of_ne_zero hm) (Nat.two_pow_pos _))
        (Nat.pow_pos (by decide))
    · have hpow : 2 ^ (-exponent).toNat ≤ 10 ^ (((-exponent).toNat + 2) / 3) :=
        two_pow_le_ten_pow (by omega)
      exact Nat.le_trans hpow (Nat.le_mul_of_pos_left _ (Nat.pos_of_ne_zero hm))
  have hlead := leadingExponent_le hden hn hsmall
  have hnear := onGrid_near (Ratio.ofScaled mantissa exponent).num hden
    (leadingExponent (Ratio.ofScaled mantissa exponent).num (Ratio.ofScaled mantissa exponent).den - 17)
  unfold Ratio.value at hvalue
  rw [hvalue] at hlead hnear
  -- the last grid is finer than a quarter of the unit
  have hgrid : (10 : ℚ) ^ (leadingExponent (Ratio.ofScaled mantissa exponent).num
      (Ratio.ofScaled mantissa exponent).den - 17) / 2 < 2 ^ (exponent - 2) := by
    have hlt : mantissa < 2 ^ 53 := hspelling.1
    have hltQ : (mantissa : ℚ) < 2 ^ 53 := by exact_mod_cast hlt
    have hquarter : (2 : ℚ) ^ exponent = 4 * 2 ^ (exponent - 2) := by
      rw [zpow_sub₀ two_ne_zero]
      norm_num
      ring
    have hunit := two_zpow_pos (exponent - 2)
    rw [zpow_sub₀ (by norm_num : (10 : ℚ) ≠ 0), div_div, div_lt_iff₀ (by norm_num)]
    refine lt_of_le_of_lt hlead ?_
    calc (mantissa : ℚ) * 2 ^ exponent
        < 2 ^ 53 * 2 ^ exponent := mul_lt_mul_of_pos_right hltQ (two_zpow_pos exponent)
      _ ≤ 2 ^ (exponent - 2) * (10 ^ (17 : Int) * 2) := by
          rw [hquarter]
          norm_num
          linarith
  refine around_searchGrids (around_of_near hm ?_ ?_)
  · push_cast [Decimal.value]
    linarith [hnear.1]
  · push_cast [Decimal.value]
    linarith [hnear.2]

/-! ## Reading decimals -/

/-- The greatest powers of two of the format against powers of ten. -/
theorem two_pow_lt : (2 : ℚ) ^ 1024 < 10 ^ 310 := by
  have hquarter : (2 : ℚ) ^ 256 < 12 * 10 ^ 76 := by norm_num
  calc (2 : ℚ) ^ 1024 = (2 ^ 256) ^ 4 := by rw [← pow_mul]
    _ < (12 * 10 ^ 76) ^ 4 := pow_lt_pow_left₀ hquarter (by positivity) (by decide)
    _ = 12 ^ 4 * 10 ^ 304 := by rw [mul_pow, ← pow_mul]
    _ ≤ 10 ^ 6 * 10 ^ 304 := mul_le_mul_of_nonneg_right (by norm_num) (by positivity)
    _ = 10 ^ 310 := by rw [← pow_add]

/-- Numbers of the format lie between `10 ^ (-326)` and `10 ^ 310`. -/
theorem around_range {mantissa : Nat} {exponent : Int} (hspelling : IsSpelling mantissa exponent)
    (hm : mantissa ≠ 0) {x : ℚ} (h : Around mantissa exponent x) :
    (10 : ℚ) ^ (-326 : Int) < x ∧ x < 10 ^ (310 : Int) := by
  obtain ⟨hlow, hhigh, -⟩ := around_bounds hm h
  obtain ⟨hlt, hmin, hmax, -⟩ := hspelling
  have hlt : mantissa < 2 ^ 53 := hlt
  have hltQ : (mantissa : ℚ) + 1 ≤ 2 ^ 53 := by exact_mod_cast hlt
  have honeQ : (1 : ℚ) ≤ mantissa := by exact_mod_cast Nat.one_le_iff_ne_zero.2 hm
  have hunit := two_zpow_pos exponent
  constructor
  · have hleast : (2 : ℚ) ^ (-1074 : Int) ≤ 2 ^ exponent := zpow_le_zpow_right₀ one_le_two hmin
    have hsmall : (10 : ℚ) ^ (-326 : Int) < 2 ^ (-1074 : Int) / 2 := by
      rw [zpow_neg, zpow_neg, ← one_div, ← one_div, div_div, div_lt_div_iff₀ (by positivity)
        (by positivity), one_mul, one_mul]
      have hsplit : (2 : ℚ) ^ (1074 : Int) = 2 ^ 1024 * 2 ^ 50 := by
        rw [← pow_add]
        exact zpow_natCast 2 1074
      have hten : (10 : ℚ) ^ (326 : Int) = 10 ^ 310 * 10 ^ 16 := by
        rw [← pow_add]
        exact zpow_natCast 10 326
      rw [hsplit, hten, mul_assoc]
      exact mul_lt_mul'' two_pow_lt (by norm_num) (by positivity) (by positivity)
    nlinarith
  · have hgreatest : (2 : ℚ) ^ exponent ≤ 2 ^ (971 : Int) := zpow_le_zpow_right₀ one_le_two hmax
    have hlarge : (2 : ℚ) ^ 53 * 2 ^ (971 : Int) < 10 ^ (310 : Int) := by
      have hsum : (2 : ℚ) ^ 53 * 2 ^ (971 : Int) = 2 ^ 1024 := by
        rw [show (2 : ℚ) ^ (971 : Int) = 2 ^ 971 from zpow_natCast 2 971, ← pow_add]
      rw [hsum]
      exact two_pow_lt.trans_le (zpow_natCast (10 : ℚ) 310).ge
    calc x ≤ ((mantissa : ℚ) + 1 / 2) * 2 ^ exponent := hhigh
      _ ≤ 2 ^ 53 * 2 ^ exponent := mul_le_mul_of_nonneg_right (by linarith) hunit.le
      _ ≤ 2 ^ 53 * 2 ^ (971 : Int) := mul_le_mul_of_nonneg_left hgreatest (by positivity)
      _ < 10 ^ (310 : Int) := hlarge

theorem decimal_range {digits : Nat} (hdigits : digits ≠ 0) (exponent : Int) :
    (10 : ℚ) ^ (exponent + (Nat.toDigits 10 digits).length - 1) ≤ digits * 10 ^ exponent ∧
      (digits * 10 ^ exponent : ℚ) < 10 ^ (exponent + (Nat.toDigits 10 digits).length) := by
  have hten : (0 : ℚ) < 10 ^ exponent := zpow_pos (by norm_num) exponent
  have hlen : 0 < (Nat.toDigits 10 digits).length := Nat.length_toDigits_pos
  have hlow := Text.pow_length_toDigits_le hdigits
  have hhigh := Text.lt_pow_length_toDigits digits
  have hlowQ : (10 : ℚ) ^ ((Nat.toDigits 10 digits).length - 1) ≤ digits := by exact_mod_cast hlow
  have hhighQ : (digits : ℚ) < 10 ^ (Nat.toDigits 10 digits).length := by exact_mod_cast hhigh
  have hexp : exponent + ((Nat.toDigits 10 digits).length : Int) - 1
      = exponent + (((Nat.toDigits 10 digits).length - 1 : Nat) : Int) := by omega
  rw [hexp, zpow_add₀ (by norm_num), zpow_add₀ (by norm_num), zpow_natCast, zpow_natCast,
    mul_comm (digits : ℚ)]
  exact ⟨mul_le_mul_of_nonneg_left hlowQ hten.le, mul_lt_mul_of_pos_left hhighQ hten⟩

/-- A decimal whose value lies in the rounding interval of a number is read as that number. -/
theorem ofDecimal_of_around {mantissa : Nat} {exponent : Int}
    (hspelling : IsSpelling mantissa exponent) (hm : mantissa ≠ 0) (negative : Bool) {d : Decimal}
    (h : Around mantissa exponent d.value) :
    ofDecimal negative d.digits d.exponent = finite negative mantissa exponent hspelling := by
  obtain ⟨digits, power⟩ := d
  obtain ⟨hlow, hhigh⟩ := around_range hspelling hm h
  have hdigits : digits ≠ 0 := by
    rintro rfl
    have hpos : (0 : ℚ) < 10 ^ (-326 : Int) := zpow_pos (by norm_num) _
    simp only [Decimal.value, Nat.cast_zero, zero_mul] at hlow
    linarith
  obtain ⟨hleast, hmost⟩ := decimal_range hdigits power
  unfold Decimal.value at hlow hhigh h
  dsimp only at hlow hhigh h ⊢
  have hnotLarge : ¬ 310 < power + ((Nat.toDigits 10 digits).length : Int) := by
    intro hlarge
    have hle : (10 : ℚ) ^ (310 : Int) ≤ 10 ^ (power + (Nat.toDigits 10 digits).length - 1) :=
      zpow_le_zpow_right₀ (by norm_num) (by omega)
    linarith
  have hnotSmall : ¬ power + ((Nat.toDigits 10 digits).length : Int) < -330 := by
    intro hsmall
    have hle : (10 : ℚ) ^ (power + (Nat.toDigits 10 digits).length) ≤ 10 ^ (-326 : Int) :=
      zpow_le_zpow_right₀ (by norm_num) (by omega)
    linarith
  have hvalue := Ratio.value_ofDecimal digits power
  unfold ofDecimal
  rw [if_neg hdigits]
  dsimp only
  rw [if_neg hnotLarge, if_neg hnotSmall]
  unfold Ratio.value Ratio.ofDecimal at hvalue
  split
  next hpower =>
    rw [if_pos hpower] at hvalue
    rw [← hvalue] at h
    exact ofQuotient_of_around hspelling hm negative
      (Nat.mul_ne_zero hdigits (Nat.ne_of_gt (pow_toNat_pos (by decide) _))) Nat.one_ne_zero h
  next hpower =>
    rw [if_neg hpower] at hvalue
    rw [← hvalue] at h
    exact ofQuotient_of_around hspelling hm negative hdigits
      (Nat.ne_of_gt (pow_toNat_pos (by decide) _)) h

/-- A decimal with the value of a number's shortest decimal is read as that number. -/
theorem ofDecimal_of_value_eq {mantissa : Nat} {exponent : Int}
    (hspelling : IsSpelling mantissa exponent) (hm : mantissa ≠ 0) (negative : Bool) {d : Decimal}
    (h : d.value = (shortest mantissa exponent).value) :
    ofDecimal negative d.digits d.exponent = finite negative mantissa exponent hspelling :=
  ofDecimal_of_around hspelling hm negative (h ▸ around_shortest hspelling hm)

end Folio.Binary64

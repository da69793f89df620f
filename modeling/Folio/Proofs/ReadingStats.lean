import Folio.Proofs.Build.Steps
import Folio.Proofs.Number.Bounds
import Mathlib.Data.Rat.Floor

set_option autoImplicit false

/-! # Reading time is exact

The reading time is the ceiling of a rounded quotient. Rounding could lose the remainder of a quotient that is just above an
integer; but up to `2 ^ 53` words and words per minute a remainder is more than half of the step from the integer to the next
number of the format (`exists_magnitude_nearer`), so the rounded quotient has the ceiling of the exact one
(`IsNearest.ceil_eq`). -/

namespace Folio

namespace Binary64

/-! ## Ceilings -/

theorem ceil_eq (mantissa : Nat) (exponent : Int) : ceil false mantissa exponent = ⌈(mantissa : ℚ) * 2 ^ exponent⌉ := by
  have hvalue := value_inUnits mantissa 1 (-exponent)
  rw [Nat.cast_one, div_one, zpow_neg, div_inv_eq_mul] at hvalue
  have hpos := inUnits_pos mantissa one_pos (-exponent)
  unfold ceil
  dsimp only
  rw [← hvalue, if_neg Bool.false_ne_true]
  generalize (inUnits mantissa 1 (-exponent)).1 = n
  generalize (inUnits mantissa 1 (-exponent)).2 = d at hpos
  have hposQ : (0 : ℚ) < d := Nat.cast_pos.2 hpos
  have hdiv : d * ((n + d - 1) / d) + (n + d - 1) % d = n + d - 1 := Nat.div_add_mod _ _
  have hmod := Nat.mod_lt (n + d - 1) hpos
  generalize (n + d - 1) / d = q at hdiv
  have hlow : d * q < n + d := by omega
  have hhigh : n ≤ d * q := by omega
  symm
  rw [Int.ceil_eq_iff, lt_div_iff₀ hposQ, div_le_iff₀ hposQ]
  constructor
  · have : (d * q : ℚ) < n + d := by exact_mod_cast hlow
    push_cast
    linarith
  · have : (n : ℚ) ≤ d * q := by exact_mod_cast hhigh
    push_cast
    linarith

section

variable {num den : Nat}

theorem div_le_of_le (hden : 0 < den) (hnum : num ≤ 2 ^ 53) : (num : ℚ) / den ≤ 2 ^ (53 : Int) := by
  have hnumQ : (num : ℚ) ≤ 2 ^ (53 : Int) := by exact_mod_cast hnum
  exact (div_le_self (Nat.cast_nonneg num) (by exact_mod_cast hden)).trans hnumQ

/-- Above an integer that is below a quotient there is a number of the format that is nearer to the quotient than the integer. -/
theorem exists_magnitude_nearer {j : Nat} (hden : 0 < den) (hden' : den ≤ 2 ^ 53) (hnum : num ≤ 2 ^ 53)
    (hj : j * den < num) : ∃ step : ℚ, 0 < step ∧ step < 2 * (num / den - j) ∧ IsMagnitude (j + step) := by
  have hdenQ : (0 : ℚ) < den := Nat.cast_pos.2 hden
  -- the remainder is one part of the denominator at least
  have hgap : (1 : ℚ) / den ≤ num / den - j := by
    have hle : (j * den : ℚ) + 1 ≤ num := by exact_mod_cast hj
    rwa [le_sub_iff_add_le', le_div_iff₀ hdenQ, add_mul, one_div_mul_cancel hdenQ.ne']
  rcases Nat.eq_zero_or_pos j with rfl | hpos
  · refine ⟨2 ^ (-53 : Int), by positivity, ?_, ?_⟩
    · have hfits : (den : ℚ) ≤ 2 ^ 53 := by exact_mod_cast hden'
      have hleast : (2 : ℚ) ^ (-53 : Int) ≤ 1 / den := by
        rw [zpow_neg, ← one_div]
        exact one_div_le_one_div_of_le hdenQ hfits
      have hpart : (0 : ℚ) < 1 / den := by positivity
      linarith
    · exact ⟨1, -53, by norm_num, by decide, by decide, by norm_num⟩
  · -- the step to the next number from a power of two on
    have hlow := Nat.log2_self_le hpos.ne'
    have hhigh := Nat.lt_log2_self (n := j)
    generalize hlog : Nat.log2 j = a at hlow hhigh
    have hjle : j < 2 ^ 53 := by nlinarith
    have ha : a < 53 := (Nat.pow_lt_pow_iff_right one_lt_two).1 (hlow.trans_lt hjle)
    refine ⟨2 ^ ((a : Int) - 52), two_zpow_pos _, ?_, ?_⟩
    · have hpower : den * 2 ^ a < 2 ^ 53 := by nlinarith
      have hpowerQ : (den : ℚ) * 2 ^ a < 2 ^ 53 := by exact_mod_cast hpower
      have hstep : (2 : ℚ) ^ ((a : Int) - 52) < 2 * (1 / den) := by
        rw [zpow_sub₀ two_ne_zero, zpow_natCast, mul_one_div, div_lt_div_iff₀ (by positivity) hdenQ]
        norm_num
        linarith
      linarith
    · have hfits : j * 2 ^ (52 - a) + 1 ≤ 2 ^ 53 := by
        have hscaled : j * 2 ^ (52 - a) < 2 ^ (a + 1) * 2 ^ (52 - a) := Nat.mul_lt_mul_of_pos_right hhigh (Nat.two_pow_pos _)
        rw [← Nat.pow_add, show a + 1 + (52 - a) = 53 by omega] at hscaled
        exact hscaled
      have hunit : (2 : ℚ) ^ (52 - a) * 2 ^ ((a : Int) - 52) = 1 := by
        rw [← zpow_natCast, ← zpow_add₀ two_ne_zero, show ((52 - a : Nat) : Int) + (a - 52) = 0 by omega, zpow_zero]
      have hnext : (j : ℚ) + 2 ^ ((a : Int) - 52) = (j * 2 ^ (52 - a) + 1 : Nat) * 2 ^ ((a : Int) - 52) := by
        push_cast
        rw [add_mul, mul_assoc, hunit, mul_one, one_mul]
      rw [hnext]
      exact isMagnitude_of_le hfits (by simp only [minExponent]; omega) (by simp only [maxExponent]; omega)

/-- The number of the format that is nearest to a quotient of integers up to `2 ^ 53` has the same ceiling. -/
theorem IsNearest.ceil_eq {mantissa : Nat} {exponent : Int} (h : IsNearest (num / den) mantissa exponent) (hden : 0 < den)
    (hden' : den ≤ 2 ^ 53) (hnum : num ≤ 2 ^ 53) : ⌈(mantissa : ℚ) * 2 ^ exponent⌉ = ⌈(num : ℚ) / den⌉ := by
  have hdenQ : (0 : ℚ) < den := Nat.cast_pos.2 hden
  have hceil := Int.le_ceil ((num : ℚ) / den)
  have hceil' := Int.ceil_lt_add_one ((num : ℚ) / den)
  have hnonneg : (0 : ℚ) ≤ mantissa * 2 ^ exponent := mul_nonneg (Nat.cast_nonneg _) (two_zpow_pos _).le
  obtain ⟨c, hc⟩ := Int.eq_ofNat_of_zero_le (Int.ceil_nonneg (div_nonneg (Nat.cast_nonneg (α := ℚ) num) hdenQ.le))
  rw [hc] at hceil hceil' ⊢
  rw [Int.ceil_eq_iff, Int.cast_natCast]
  rw [Int.cast_natCast] at hceil hceil'
  constructor
  · -- the integer before the ceiling is below the quotient, so the nearest number is not so low
    by_contra hlow
    rw [not_lt] at hlow
    obtain ⟨j, rfl⟩ : ∃ j, c = j + 1 := Nat.exists_eq_succ_of_ne_zero fun hzero => by
      rw [hzero, Nat.cast_zero] at hlow
      linarith
    push_cast at hlow hceil'
    have hj : j * den < num := by
      have hbelow : (j : ℚ) < num / den := by linarith
      rw [lt_div_iff₀ hdenQ] at hbelow
      exact_mod_cast hbelow
    obtain ⟨step, hstep, hnearer, hmagnitude⟩ := exists_magnitude_nearer hden hden' hnum hj
    have hleast := h.least _ hmagnitude
    rw [abs_of_nonpos (a := (mantissa : ℚ) * 2 ^ exponent - num / den) (by linarith)] at hleast
    have hnear : |(j : ℚ) + step - num / den| < num / den - j := abs_lt.2 ⟨by linarith, by linarith⟩
    linarith
  · -- the ceiling is itself a number of the format
    have hc' : c ≤ 2 ^ 53 := by
      have hle : ⌈(num : ℚ) / den⌉ ≤ 2 ^ 53 := Int.ceil_le.2 (by exact_mod_cast div_le_of_le hden hnum)
      omega
    have hmagnitude : IsMagnitude ((c : ℚ) * 2 ^ (0 : Int)) := isMagnitude_of_le hc' (by decide) (by decide)
    rw [zpow_zero, mul_one] at hmagnitude
    have hleast := h.least _ hmagnitude
    rw [abs_of_nonneg (a := (c : ℚ) - num / den) (by linarith)] at hleast
    have := le_abs_self ((mantissa : ℚ) * 2 ^ exponent - num / den)
    linarith

end

end Binary64

/-! ## Reading time -/

section

variable {words fewer speed : Int}

/-- Up to `2 ^ 53` words and words per minute, the quotient is the nearest number of the format, and the reading time is the
    ceiling of the exact quotient. -/
theorem readingTime_eq (hwords : 0 ≤ words) (hwords' : words ≤ 2 ^ 53) (hspeed : 1 ≤ speed) (hspeed' : speed ≤ 2 ^ 53) :
    (∃ mantissa exponent spelling, floatQuotient words speed = .finite false mantissa exponent spelling ∧
      Binary64.IsNearest (words / speed) mantissa exponent) ∧
    readingTime words speed = .ok ⌈(words : ℚ) / speed⌉ := by
  obtain ⟨num, rfl⟩ := Int.eq_ofNat_of_zero_le hwords
  obtain ⟨den, rfl⟩ := Int.eq_ofNat_of_zero_le (show 0 ≤ speed by omega)
  have hnum : num ≤ 2 ^ 53 := by omega
  have hden : 0 < den := by omega
  have hden' : den ≤ 2 ^ 53 := by omega
  have hquotient : floatQuotient num den = .ofQuotient false num den := by
    rw [floatQuotient, decide_eq_false (by omega), decide_eq_false (by omega), Int.natAbs_natCast, Int.natAbs_natCast]
    rfl
  have hbound : (num : ℚ) / den ≤ (1 : Nat) * 2 ^ (53 : Int) := by
    rw [Nat.cast_one, one_mul]
    exact Binary64.div_le_of_le hden hnum
  obtain ⟨mantissa, exponent, spelling, hread, -⟩ :=
    Binary64.exists_ofQuotient false hden.ne' (by decide) (by decide) (by decide) hbound
  have hnearest := Binary64.isNearest_ofQuotient hden.ne' hread
  simp only [Int.cast_natCast]
  refine ⟨⟨mantissa, exponent, spelling, hquotient.trans hread, hnearest⟩, ?_⟩
  unfold readingTime
  split
  · next hzero =>
    obtain rfl : num = 0 := by omega
    simp
  · rw [if_neg (by omega), hquotient, hread]
    dsimp only
    rw [Binary64.ceil_eq, hnearest.ceil_eq hden hden' hnum]

/-- More words do not take less time. -/
theorem ceil_quotient_mono (hspeed : 1 ≤ speed) (h : fewer ≤ words) : ⌈(fewer : ℚ) / speed⌉ ≤ ⌈(words : ℚ) / speed⌉ := by
  have hspeedQ : (0 : ℚ) ≤ speed := by exact_mod_cast (show (0 : Int) ≤ speed by omega)
  exact Int.ceil_le_ceil (div_le_div_of_nonneg_right (by exact_mod_cast h) hspeedQ)

/-- There is no time for no words, and only for none. -/
theorem ceil_quotient_eq_zero_iff (hwords : 0 ≤ words) (hspeed : 1 ≤ speed) : ⌈(words : ℚ) / speed⌉ = 0 ↔ words = 0 := by
  have hspeedQ : (0 : ℚ) < speed := by exact_mod_cast (show (0 : Int) < speed by omega)
  constructor
  · intro h
    by_contra hne
    have hwordsQ : (0 : ℚ) < words := by exact_mod_cast (show (0 : Int) < words by omega)
    exact absurd h (Int.ceil_pos.2 (div_pos hwordsQ hspeedQ)).ne'
  · rintro rfl
    simp

/-- What a page says of its reading time. -/
theorem readingTime_of_compileSource {rules : CompileRules} {slug source : String} {modified : DateTime} {a : Artifact}
    {minutes : Int} (h : compileSource rules slug modified source = .ok a)
    (hminutes : readingTime a.stats.wordCount rules.wordsPerMinute = .ok minutes) : (a.stats.readingTime : Int) = minutes := by
  obtain ⟨_, _, _, stats, -, -, -, hstats, rfl⟩ := compileSource_ok h
  obtain ⟨n, hn, rfl⟩ := statsOf_ok hstats
  exact Except.ok.inj (hn.symm.trans hminutes)

/-- The reading time is exact, although it is computed from a rounded quotient.

    * The quotient is the number of the format that is nearest to the exact one, with an even mantissa if another is as near.
    * Its ceiling is the ceiling of the exact quotient. So there is no time for no words, and only for none, and more words do
      not take less time.
    * Every page that compiles at this speed, with that many words, has this reading time. -/
theorem readingTime_exact (hwords : 0 ≤ words) (hwords' : words ≤ 2 ^ 53) (hspeed : 1 ≤ speed) (hspeed' : speed ≤ 2 ^ 53) :
    (∃ mantissa exponent spelling, floatQuotient words speed = .finite false mantissa exponent spelling ∧
      Binary64.IsNearest (words / speed) mantissa exponent) ∧
    readingTime words speed = .ok ⌈(words : ℚ) / speed⌉ ∧
    (readingTime words speed = .ok 0 ↔ words = 0) ∧
    (∀ fewer, 0 ≤ fewer → fewer ≤ words → ∃ less more,
      readingTime fewer speed = .ok less ∧ readingTime words speed = .ok more ∧ less ≤ more) ∧
    ∀ (rules : CompileRules) slug modified source a, rules.wordsPerMinute = speed →
      compileSource rules slug modified source = .ok a → (a.stats.wordCount : Int) = words →
        (a.stats.readingTime : Int) = ⌈(words : ℚ) / speed⌉ := by
  obtain ⟨hquotient, hexact⟩ := readingTime_eq hwords hwords' hspeed hspeed'
  refine ⟨hquotient, hexact, ?_, fun fewer hfewer hle => ?_, ?_⟩
  · rw [hexact, Except.ok.injEq]
    exact ceil_quotient_eq_zero_iff hwords hspeed
  · obtain ⟨-, hless⟩ := readingTime_eq hfewer (hle.trans hwords') hspeed hspeed'
    exact ⟨_, _, hless, hexact, ceil_quotient_mono hspeed hle⟩
  · rintro rules slug modified source a rfl h rfl
    exact readingTime_of_compileSource h hexact

end

/-- The quotient of `2 ^ 53` by the number before it is above one by little more than half of the step to the next number. It is
    rounded up, and the reading time is two minutes. -/
theorem readingTime_exact_at_bound : (0 : Int) ≤ 2 ^ 53 ∧ (1 : Int) ≤ 2 ^ 53 - 1 ∧ (2 ^ 53 - 1 : Int) ≤ 2 ^ 53 ∧
    readingTime (2 ^ 53) (2 ^ 53 - 1) = .ok 2 := by
  obtain ⟨-, hexact, -, -, -⟩ :=
    @readingTime_exact (2 ^ 53) (2 ^ 53 - 1) (by decide) le_rfl (by decide) (by decide)
  refine ⟨by decide, by decide, by decide, ?_⟩
  have hceil : ⌈((2 ^ 53 : Int) : ℚ) / ((2 ^ 53 - 1 : Int) : ℚ)⌉ = 2 := by
    rw [Int.ceil_eq_iff]
    norm_num
  rw [hexact, hceil]

end Folio

import Folio.FileTree
import Folio.Proofs.Calendar.Written
import Folio.Proofs.Number.Bounds

set_option autoImplicit false

/-! # Moments that are counted

A day number within the years of the calendar is the number of a day (`Date.isValid_ofDayNumber`). The
time of a file's change is kept within bounds, and the arithmetic that makes a moment of it stays within
the years of the calendar (`FileTree.isValid_moment`). -/

namespace Folio

/-! ## Years -/

/-- If the predicate holds up to some number and not from there on, counting finds this number. -/
theorem countP_range_spec {p : Nat → Bool} (hdown : ∀ i, p (i + 1) = true → p i = true) (n : Nat) :
    (∀ i, i < (List.range n).countP p → p i = true) ∧
      ((List.range n).countP p < n → p ((List.range n).countP p) = false) ∧
      (List.range n).countP p ≤ n := by
  induction n with
  | zero => simp
  | succ n ih =>
    obtain ⟨hbefore, hafter, hle⟩ := ih
    rw [List.range_succ, List.countP_append, List.countP_singleton]
    by_cases hn : p n = true
    · -- all numbers up to the last one are counted
      have hall : ∀ k, p k = true → ∀ i, i ≤ k → p i = true := by
        intro k
        induction k with
        | zero => exact fun hk i hi => Nat.le_zero.1 hi ▸ hk
        | succ k ihk =>
          intro hk i hi
          rcases Nat.lt_or_eq_of_le hi with hlt | rfl
          · exact ihk (hdown k hk) i (by omega)
          · exact hk
      have hcount : (List.range n).countP p = n := by
        by_contra hne
        have := hafter (by omega)
        rw [hall n hn _ hle] at this
        cases this
      rw [if_pos hn, hcount]
      exact ⟨fun i hi => hall n hn i (by omega), fun h => absurd h (lt_irrefl _), le_rfl⟩
    · rw [if_neg hn, Nat.add_zero]
      refine ⟨hbefore, fun _ => ?_, by omega⟩
      rcases Nat.lt_or_eq_of_le hle with hlt | heq
      · exact hafter hlt
      · rw [heq]
        simpa using hn

theorem daysBeforeYear_succ {year : Nat} (h : 1 ≤ year) : daysBeforeYear (year + 1)
    = daysBeforeYear year + if isLeapYear year then 366 else 365 := by
  obtain ⟨y, rfl⟩ : ∃ y, year = y + 1 := ⟨year - 1, by omega⟩
  have hleap : isLeapYear (y + 1) = true ↔ 4 ∣ y + 1 ∧ (¬ 100 ∣ y + 1 ∨ 400 ∣ y + 1) := by
    simp [isLeapYear, Nat.dvd_iff_mod_eq_zero]
  have h100 : 100 ∣ y + 1 → 4 ∣ y + 1 := fun h => (by decide : 4 ∣ 100).trans h
  have h400 : 400 ∣ y + 1 → 100 ∣ y + 1 := fun h => (by decide : 100 ∣ 400).trans h
  have hle : y / 100 ≤ y / 4 := Nat.div_le_div_left (by decide) (by decide)
  simp only [daysBeforeYear, Nat.add_sub_cancel, Nat.succ_div, hleap]
  by_cases h4 : 4 ∣ y + 1 <;> by_cases h1 : 100 ∣ y + 1 <;> by_cases h2 : 400 ∣ y + 1 <;>
    simp_all <;> omega

theorem daysBeforeYear_mono (year : Nat) : daysBeforeYear year ≤ daysBeforeYear (year + 1) := by
  simp only [daysBeforeYear]
  omega

/-! ## Months -/

/-- How many days some months have from a month on. -/
def daysOfMonths (year : Nat) : Nat → Nat → Nat
  | 0, _ => 0
  | count + 1, month => daysInMonth year month + daysOfMonths year count (month + 1)

theorem daysOfMonths_year (year : Nat) :
    daysOfMonths year 12 1 = if isLeapYear year then 366 else 365 := by
  cases h : isLeapYear year <;> simp [daysOfMonths, daysInMonth, h]

/-- The month that is found has the day that is found. -/
theorem findMonth_spec (year fuel : Nat) {month days : Nat} (h : days < daysOfMonths year fuel month) :
    month ≤ (findMonth year fuel month days).1 ∧ (findMonth year fuel month days).1 < month + fuel ∧
      1 ≤ (findMonth year fuel month days).2 ∧
      (findMonth year fuel month days).2 ≤ daysInMonth year (findMonth year fuel month days).1 := by
  induction fuel generalizing month days with
  | zero => simp [daysOfMonths] at h
  | succ fuel ih =>
    rw [daysOfMonths] at h
    rw [findMonth]
    split
    · next hday => exact ⟨le_rfl, by omega, by omega, hday⟩
    · obtain ⟨hlow, hhigh, hday⟩ := @ih (month + 1) (days - daysInMonth year month) (by omega)
      exact ⟨by omega, by omega, hday⟩

/-! ## Days and moments -/

/-- The first day of year 1 and the last of year 9999 are the bounds of the calendar. -/
theorem Date.isValid_ofDayNumber {n : Int} (hlow : -719162 ≤ n) (hhigh : n ≤ 2932896) :
    (Date.ofDayNumber n).IsValid := by
  unfold Date.ofDayNumber
  generalize hdays : (n + epochDay).toNat = days
  have hbound : days ≤ 3652058 := by
    simp only [epochDay] at hdays
    omega
  dsimp only
  generalize hguess : days / 366 + 1 = guess
  obtain ⟨hbefore, hafter, hle⟩ := @countP_range_spec
    (fun i => decide (daysBeforeYear (guess + i + 1) ≤ days))
    (fun i hi => decide_eq_true ((daysBeforeYear_mono _).trans (of_decide_eq_true hi))) 30
  generalize (List.range 30).countP (fun i => decide (daysBeforeYear (guess + i + 1) ≤ days)) = count
    at hbefore hafter hle
  have hcount : count < 30 := by
    by_contra hge
    have hlast := of_decide_eq_true (hbefore 29 (by omega))
    simp only [daysBeforeYear] at hlast
    omega
  have hstart : daysBeforeYear (guess + count) ≤ days := by
    rcases Nat.eq_zero_or_pos count with rfl | hpos
    · simp only [daysBeforeYear]
      omega
    · have hlast := of_decide_eq_true (hbefore (count - 1) (by omega))
      rwa [Nat.add_assoc, Nat.sub_add_cancel hpos] at hlast
  have hend : days < daysBeforeYear (guess + count + 1) :=
    Nat.lt_of_not_le (of_decide_eq_false (hafter hcount))
  have hyear : guess + count ≤ 9999 := by
    by_contra hgt
    simp only [daysBeforeYear] at hstart
    omega
  have hinside : days - daysBeforeYear (guess + count) < daysOfMonths (guess + count) 12 1 := by
    rw [daysBeforeYear_succ (by omega)] at hend
    rw [daysOfMonths_year]
    omega
  obtain ⟨hmonth, hmonth', hday⟩ := findMonth_spec (guess + count) 12 hinside
  exact ⟨⟨by simp only; omega, hyear⟩, ⟨hmonth, by simp only; omega⟩, hday⟩

theorem DateTime.isValid_ofMicroseconds {n : Int} (hlow : -62135596800000000 ≤ n)
    (hhigh : n < 253402300800000000) : (DateTime.ofMicroseconds n).IsValid := by
  have hday : (microsecondsOfDay : Int) = 86400000000 := rfl
  have hdiv : n.fdiv microsecondsOfDay = n / 86400000000 := Int.fdiv_eq_ediv_of_nonneg n (by decide)
  refine ⟨?_, ?_, ?_⟩
  · apply Date.isValid_ofDayNumber <;> omega
  · refine TimeOfDay.isValid_ofMicroseconds ?_
    simp only [microsecondsOfDay] at hdiv ⊢
    omega
  · rintro offset heq
    obtain rfl := Option.some.inj heq
    decide

/-! ## Times of changes -/

namespace FileTree

open Binary64

theorem isWithin_billionth : (ofDecimal false 1 (-9)).IsWithin 1 := by
  have hquotient : ofDecimal false 1 (-9) = ofQuotient false 1 (Nat.pow 10 9) := by
    decide
  have h := @isWithin_ofQuotient false 1 (Nat.pow 10 9) 1 0 (by decide) (by decide) (by decide)
    (by decide) (by norm_num)
  rw [hquotient]
  simpa using h

/-- Whatever the time of a file's last change is, it is a moment of the calendar. -/
theorem isValid_moment (modified : Int) : (moment modified).IsValid := by
  unfold moment
  dsimp only
  generalize hseconds : max timeBounds.1 (min timeBounds.2 (modified.fdiv 1000000)) = seconds
  generalize hnanoseconds : (if seconds = timeBounds.1 ∨ seconds = timeBounds.2 then 0
    else modified.fmod 1000000 * 1000) = nanoseconds
  have hs : seconds.natAbs ≤ 15032385535 := by
    simp only [timeBounds] at hseconds
    omega
  have hn : nanoseconds.natAbs ≤ 1000000000 := by
    have hmod := Int.fmod_eq_emod_of_nonneg modified (show (0 : Int) ≤ 1000000 by decide)
    rw [hmod] at hnanoseconds
    split_ifs at hnanoseconds <;> omega
  have hpart : ((ofDecimal false 1 (-9)).mul (.ofInt nanoseconds)).IsWithin
      ((1000000000 : Nat) * 2 ^ (0 : Int)) :=
    isWithin_billionth.mul (isWithin_ofInt hn (by decide)) (by decide) (by decide) (by decide) (by norm_num)
  obtain ⟨negative, mantissa, exponent, spelling, htime, hvalue⟩ :=
    IsWithin.add (k := 16032385535) (isWithin_ofInt hs (by decide)) hpart (by decide) (by norm_num)
  rw [htime]
  dsimp only
  have hwhole := @natAbs_truncate_le _ negative _ _ hvalue
  generalize truncate negative mantissa exponent = whole at hwhole
  have hneg : (ofInt (-whole)).IsWithin (16032385535 : Nat) :=
    isWithin_ofInt (by rwa [Int.natAbs_neg]) (by decide)
  have hrest : ((finite negative mantissa exponent spelling).add (.ofInt (-whole))).IsWithin
      (32064771070 : Nat) :=
    IsWithin.add ⟨_, _, _, _, rfl, hvalue⟩ hneg (by decide) (by norm_num)
  obtain ⟨n, m, e, h, hproduct, hmicro⟩ :=
    @IsWithin.mul _ _ _ _ 1 55 hrest (isWithin_ofInt (i := 1000000) le_rfl (by decide)) (by decide)
      (by decide) (by decide) (by norm_num)
  have hle : (m : ℚ) * 2 ^ e ≤ (2 ^ 55 : Nat) := hmicro.trans (le_of_eq (by norm_num))
  have hround := @natAbs_roundToInt_le _ n _ _ hle
  rw [hproduct]
  dsimp only
  apply DateTime.isValid_ofMicroseconds <;> omega

end FileTree

end Folio

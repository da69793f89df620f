import Folio.Number.Written
import Mathlib.Algebra.Order.Ring.Nat
import Mathlib.Data.List.Induction
import Mathlib.Tactic.IntervalCases
import Mathlib.Tactic.Ring

set_option autoImplicit false

/-! # Decimal digits

The digits of a natural number are digits, do not start with a zero unless they are one, and their value
is the number. Zeros at the front do not count, and zeros at the end multiply by ten. -/

namespace Folio.Text

@[simp] theorem decimalValue_nil : decimalValue [] = 0 := rfl

theorem decimalValue_concat (cs : List Char) (c : Char) :
    decimalValue (cs ++ [c]) = 10 * decimalValue cs + (c.toNat - '0'.toNat) := by
  simp [decimalValue]

theorem decimalValue_append (cs ds : List Char) :
    decimalValue (cs ++ ds) = decimalValue cs * 10 ^ ds.length + decimalValue ds := by
  induction ds using List.reverseRecOn with
  | nil => simp
  | append_singleton ds d ih =>
    rw [← List.append_assoc, decimalValue_concat, ih, decimalValue_concat, List.length_append,
      List.length_singleton, pow_succ]
    ring

@[simp] theorem decimalValue_zeros (n : Nat) : decimalValue (List.replicate n '0') = 0 := by
  induction n with
  | zero => rfl
  | succ n ih => rw [List.replicate_succ', decimalValue_concat, ih]; rfl

/-- Zeros at the front do not count. -/
theorem decimalValue_zeros_append (n : Nat) (cs : List Char) :
    decimalValue (List.replicate n '0' ++ cs) = decimalValue cs := by
  rw [decimalValue_append, decimalValue_zeros, Nat.zero_mul, Nat.zero_add]

/-- Each zero at the end multiplies by ten. -/
theorem decimalValue_append_zeros (cs : List Char) (n : Nat) :
    decimalValue (cs ++ List.replicate n '0') = decimalValue cs * 10 ^ n := by
  rw [decimalValue_append, decimalValue_zeros, List.length_replicate, Nat.add_zero]

/-! ## The digits of a number -/

/-- Digits, and nothing else. -/
def AllDigits (cs : List Char) : Prop :=
  ∀ c ∈ cs, isAsciiDigit c = true

@[simp] theorem allDigits_nil : AllDigits [] := by simp [AllDigits]

theorem allDigits_append {cs ds : List Char} :
    AllDigits (cs ++ ds) ↔ AllDigits cs ∧ AllDigits ds := by
  simp only [AllDigits, List.mem_append]
  exact ⟨fun h => ⟨fun c hc => h c (.inl hc), fun c hc => h c (.inr hc)⟩,
    fun h c hc => hc.elim (h.1 c) (h.2 c)⟩

theorem allDigits_zeros (n : Nat) : AllDigits (List.replicate n '0') := by
  intro c hc
  obtain rfl := List.eq_of_mem_replicate hc
  rfl

theorem allDigits_toDigits (n : Nat) : AllDigits (Nat.toDigits 10 n) := fun _ hc =>
  Nat.isDigit_of_mem_toDigits (by decide) (by decide) hc

theorem AllDigits.sublist {cs ds : List Char} (h : AllDigits ds) (hsub : cs.Sublist ds) :
    AllDigits cs := fun c hc => h c (hsub.subset hc)

@[simp] theorem decimalValue_toDigits (n : Nat) : decimalValue (Nat.toDigits 10 n) = n :=
  Nat.ofDigitChars_ten_toDigits

/-- The first digit of a positive number is no zero. -/
theorem head?_toDigits {n : Nat} (hn : n ≠ 0) : (Nat.toDigits 10 n).head? ≠ some '0' := by
  induction n using Nat.strongRecOn with
  | ind n ih =>
    by_cases hlt : n < 10
    · rw [Nat.toDigits_of_lt_base hlt]
      interval_cases n <;> simp_all [Nat.digitChar]
    · have hle : 10 ≤ n := Nat.le_of_not_lt hlt
      have hrest := ih (n / 10) (by omega) (by omega)
      rw [Nat.toDigits_of_base_le (by decide) hle]
      cases hdigits : Nat.toDigits 10 (n / 10) with
      | nil => exact absurd hdigits Nat.toDigits_ne_nil
      | cons d ds => simpa [hdigits] using hrest

/-- A number with so many digits lies between two powers of ten. -/
theorem pow_length_toDigits_le {n : Nat} (hn : n ≠ 0) : 10 ^ ((Nat.toDigits 10 n).length - 1) ≤ n := by
  by_contra hlt
  have hpos : 0 < (Nat.toDigits 10 n).length := Nat.length_toDigits_pos
  have hone : (Nat.toDigits 10 n).length ≠ 1 := by
    intro hone
    rw [hone] at hlt
    simp only [Nat.sub_self, pow_zero, not_le] at hlt
    omega
  have hle := (Nat.length_toDigits_le_iff (b := 10) (n := n)
    (k := (Nat.toDigits 10 n).length - 1) (by decide) (by omega)).2 (not_le.1 hlt)
  omega

theorem lt_pow_length_toDigits (n : Nat) : n < 10 ^ (Nat.toDigits 10 n).length :=
  (Nat.length_toDigits_le_iff (by decide) Nat.length_toDigits_pos).1 (Nat.le_refl _)

end Folio.Text

namespace Folio

/-- Digits have no lines between them to be dropped. -/
theorem joinDigits?_of_digits {cs : List Char} (hne : cs ≠ []) (h : Text.AllDigits cs) :
    joinDigits? Text.isAsciiDigit cs = some cs := by
  induction cs with
  | nil => exact absurd rfl hne
  | cons c rest ih =>
    have hc : Text.isAsciiDigit c = true := h c (by simp)
    have hrest : Text.AllDigits rest := fun d hd => h d (by simp [hd])
    cases rest with
    | nil => simp [joinDigits?, hc]
    | cons d rest =>
      have hline : d ≠ '_' := by
        rintro rfl
        exact absurd (hrest '_' (by simp)) (by decide)
      have hih := ih (by simp) hrest
      rw [joinDigits?, if_pos hc, hih, Option.map_some]
      · simp
      · rintro cs heq
        exact hline (List.cons.inj heq).1

end Folio

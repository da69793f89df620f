import Folio.Proofs.Number.ReadBack
import Mathlib.Data.List.TakeWhile

set_option autoImplicit false

/-! # Numerals

A numeral is a number as it is written: digits before the point, digits after it, and an exponent. The
layout of a number's shortest digits is a numeral with their value, whichever style lays them out
(`numeral_layout`), so it stands for the number (`numeral_toText`). -/

namespace Folio.Binary64

open Text (AllDigits decimalValue)

/-- A number as it is written. -/
structure Numeral where
  whole : List Char
  fraction : List Char
  /-- The exponent with its letter. -/
  exponent : List Char

namespace Numeral

/-- The text of a numeral. -/
def chars (n : Numeral) : List Char :=
  n.whole ++ (if n.fraction = [] then [] else '.' :: n.fraction) ++ n.exponent

/-- The decimal that a numeral writes. -/
def decimal (n : Numeral) : Decimal :=
  ⟨decimalValue (n.whole ++ n.fraction), (readExponent? n.exponent).getD 0 - n.fraction.length⟩

/-- Digits of an integer: a zero alone, or digits of which the first is none. -/
def IsWhole (cs : List Char) : Prop :=
  cs = ['0'] ∨ cs ≠ [] ∧ AllDigits cs ∧ cs.head? ≠ some '0'

/-- No exponent, or a letter, a sign and digits. -/
def IsExponent (cs : List Char) : Prop :=
  cs = [] ∨ ∃ sign digits, cs = 'e' :: sign :: digits ∧ (sign = '+' ∨ sign = '-') ∧ digits ≠ [] ∧
    AllDigits digits

/-- A numeral has the form of a number that is no integer: a point or an exponent. -/
structure WellFormed (n : Numeral) : Prop where
  whole : IsWhole n.whole
  fraction : AllDigits n.fraction
  exponent : IsExponent n.exponent
  notInteger : n.fraction ≠ [] ∨ n.exponent ≠ []

theorem IsWhole.allDigits {cs : List Char} (h : IsWhole cs) : AllDigits cs := by
  rcases h with rfl | ⟨-, h, -⟩
  · exact Text.allDigits_zeros 1
  · exact h

theorem IsWhole.ne_nil {cs : List Char} (h : IsWhole cs) : cs ≠ [] := by
  rcases h with rfl | ⟨h, -⟩
  · simp
  · exact h

theorem isWhole_toDigits (n : Nat) : IsWhole (Nat.toDigits 10 n) := by
  by_cases hn : n = 0
  · subst hn
    exact .inl rfl
  · exact .inr ⟨Nat.toDigits_ne_nil, Text.allDigits_toDigits n, Text.head?_toDigits hn⟩

end Numeral

/-! ## Exponents -/

theorem padZeros_digits (width n : Nat) :
    padZeros width (Nat.toDigits 10 n) ≠ [] ∧ AllDigits (padZeros width (Nat.toDigits 10 n)) ∧
      decimalValue (padZeros width (Nat.toDigits 10 n)) = n := by
  refine ⟨?_, ?_, ?_⟩
  · exact fun h => Nat.toDigits_ne_nil (List.append_eq_nil_iff.1 h).2
  · exact Text.allDigits_append.2 ⟨Text.allDigits_zeros _, Text.allDigits_toDigits n⟩
  · rw [padZeros, Text.decimalValue_zeros_append, Text.decimalValue_toDigits]

theorem readExponent?_of_digits {digits : List Char} (hne : digits ≠ []) (h : AllDigits digits)
    (negative : Bool) :
    readExponent? ('e' :: (if negative then '-' else '+') :: digits)
      = some (if negative then -(decimalValue digits : Int) else decimalValue digits) := by
  have hjoin := joinDigits?_of_digits hne h
  cases negative <;> simp [readExponent?, cutSign, hjoin]

/-! ## Layouts -/

theorem dropTrailingZeros_spec {digits : List Char} (hne : digits ≠ [])
    (hhead : digits.head? ≠ some '0') :
    ∃ k, digits = dropTrailingZeros digits ++ List.replicate k '0' ∧
      dropTrailingZeros digits ≠ [] := by
  have hsplit := List.takeWhile_append_dropWhile (p := (· == '0')) (l := digits.reverse)
  have hzeros : digits.reverse.takeWhile (· == '0')
      = List.replicate (digits.reverse.takeWhile (· == '0')).length '0' := by
    refine List.eq_replicate_iff.2 ⟨rfl, fun c hc => ?_⟩
    simpa using List.mem_takeWhile_imp hc
  have hdigits : digits = (digits.reverse.dropWhile (· == '0')).reverse
      ++ List.replicate (digits.reverse.takeWhile (· == '0')).length '0' := by
    have hrev := congrArg List.reverse hsplit
    rw [List.reverse_append, List.reverse_reverse, hzeros, List.reverse_replicate] at hrev
    exact hrev.symm
  have hkept : (digits.reverse.dropWhile (· == '0')).reverse ≠ [] := by
    intro hnil
    rw [hnil, List.nil_append] at hdigits
    cases hlen : (digits.reverse.takeWhile (· == '0')).length with
    | zero => exact hne (by rw [hdigits, hlen]; rfl)
    | succ n => exact hhead (by rw [hdigits, hlen]; rfl)
  have heq : dropTrailingZeros digits = (digits.reverse.dropWhile (· == '0')).reverse := by
    unfold dropTrailingZeros
    split
    · next hnil => exact absurd hnil hkept
    · rfl
  rw [heq]
  exact ⟨_, hdigits, hkept⟩

/-- A numeral has the value of digits of which the first is at a place. -/
def Numeral.Puts (n : Numeral) (digits : List Char) (lead : Int) : Prop :=
  n.WellFormed ∧ n.decimal.value = decimalValue digits * 10 ^ (lead + 1 - digits.length)

section

variable {digits : List Char} {lead : Int}

/-- Zeros stand between the point and the digits. -/
theorem puts_small (hne : digits ≠ []) (hall : AllDigits digits) (hneg : lead < 0) :
    Numeral.Puts ⟨['0'], List.replicate (-lead - 1).toNat '0' ++ digits, []⟩ digits lead := by
  refine ⟨⟨.inl rfl, Text.allDigits_append.2 ⟨Text.allDigits_zeros _, hall⟩, .inl rfl,
    .inl fun h => hne (List.append_eq_nil_iff.1 h).2⟩, ?_⟩
  have hvalue : decimalValue (['0'] ++ (List.replicate (-lead - 1).toNat '0' ++ digits)) = decimalValue digits := by
    rw [show ['0'] = List.replicate 1 '0' from rfl, Text.decimalValue_zeros_append, Text.decimalValue_zeros_append]
  have hexp : (readExponent? []).getD 0 - (((List.replicate (-lead - 1).toNat '0' ++ digits).length : Nat) : Int)
      = lead + 1 - digits.length := by
    simp only [readExponent?, Option.getD_some, List.length_append, List.length_replicate]
    push_cast
    omega
  simp only [Numeral.decimal, Decimal.value, hvalue, hexp]

/-- All digits stand before the point, with zeros up to it. -/
theorem puts_whole (hne : digits ≠ []) (hall : AllDigits digits) (hhead : digits.head? ≠ some '0') (hlead : 0 ≤ lead)
    (hle : digits.length ≤ lead.toNat + 1) :
    Numeral.Puts ⟨digits ++ List.replicate (lead.toNat + 1 - digits.length) '0', ['0'], []⟩ digits lead := by
  refine ⟨⟨.inr ⟨fun h => hne (List.append_eq_nil_iff.1 h).1, Text.allDigits_append.2 ⟨hall, Text.allDigits_zeros _⟩, ?_⟩,
    Text.allDigits_zeros 1, .inl rfl, .inl (by simp)⟩, ?_⟩
  · cases digits with
    | nil => exact absurd rfl hne
    | cons d ds => simpa using hhead
  · have hvalue : decimalValue (digits ++ List.replicate (lead.toNat + 1 - digits.length) '0' ++ ['0'])
        = decimalValue digits * 10 ^ (lead.toNat + 1 - digits.length + 1) := by
      rw [show ['0'] = List.replicate 1 '0' from rfl, Text.decimalValue_append_zeros, Text.decimalValue_append_zeros,
        pow_one, pow_succ, mul_assoc]
    have hexp : lead + 1 - (digits.length : Int) = ((lead.toNat + 1 - digits.length + 1 : Nat) : Int) + -1 := by omega
    simp only [Numeral.decimal, Decimal.value, hvalue]
    rw [hexp, zpow_add₀ (by norm_num : (10 : ℚ) ≠ 0), zpow_natCast]
    push_cast [readExponent?]
    simp [mul_assoc]

/-- The point stands among the digits. -/
theorem puts_between (hne : digits ≠ []) (hall : AllDigits digits) (hhead : digits.head? ≠ some '0') (hlead : 0 ≤ lead)
    (hlt : lead.toNat + 1 < digits.length) :
    Numeral.Puts ⟨digits.take (lead.toNat + 1), digits.drop (lead.toNat + 1), []⟩ digits lead := by
  have hafter : digits.drop (lead.toNat + 1) ≠ [] := fun h => absurd (List.drop_eq_nil_iff.1 h) (Nat.not_le.2 hlt)
  refine ⟨⟨.inr ⟨by simpa using hne, hall.sublist (List.take_sublist _ _), ?_⟩, hall.sublist (List.drop_sublist _ _),
    .inl rfl, .inl hafter⟩, ?_⟩
  · cases digits with
    | nil => exact absurd rfl hne
    | cons d ds => simpa using hhead
  · have hexp : (readExponent? []).getD 0 - ((digits.drop (lead.toNat + 1)).length : Int) = lead + 1 - digits.length := by
      simp only [readExponent?, Option.getD_some, List.length_drop]
      omega
    simp only [Numeral.decimal, Decimal.value, List.take_append_drop, hexp]

/-- One digit stands before the point, and the place is an exponent. -/
theorem puts_exponent (width : Nat) {d : Char} {ds : List Char} (hall : AllDigits (d :: ds)) (hd : d ≠ '0') (lead : Int) :
    Numeral.Puts ⟨[d], ds, 'e' :: (if lead < 0 then '-' else '+') :: padZeros width (Nat.toDigits 10 lead.natAbs)⟩
      (d :: ds) lead := by
  obtain ⟨hpadNe, hpadAll, hpadValue⟩ := padZeros_digits width lead.natAbs
  have hexponent := readExponent?_of_digits hpadNe hpadAll (decide (lead < 0))
  have hsign : (if decide (lead < 0) = true then '-' else '+') = (if lead < 0 then '-' else '+') := by
    simp
  have hlead : (if decide (lead < 0) = true then -(lead.natAbs : Int) else lead.natAbs) = lead := by
    by_cases hneg : lead < 0
    · rw [if_pos (decide_eq_true hneg)]
      omega
    · rw [if_neg (by simpa using hneg)]
      omega
  rw [hsign, hpadValue, hlead] at hexponent
  refine ⟨⟨.inr ⟨by simp, hall.sublist (List.cons_sublist_cons.2 (List.nil_sublist ds)), by simpa using hd⟩,
    fun c hc => hall c (List.mem_cons_of_mem _ hc), .inr ⟨_, _, rfl, ?_, hpadNe, hpadAll⟩, .inr (by simp)⟩, ?_⟩
  · split <;> simp
  · have hexp : (readExponent? ('e' :: (if lead < 0 then '-' else '+') ::
        padZeros width (Nat.toDigits 10 lead.natAbs))).getD 0 - (ds.length : Int)
        = lead + 1 - ((d :: ds).length : Int) := by
      rw [hexponent]
      simp only [Option.getD_some, List.length_cons]
      omega
    simp only [Numeral.decimal, Decimal.value, hexp, List.singleton_append]

end

/-- A layout of digits is a numeral. Its value puts the first digit at the place that is given. -/
theorem numeral_layout (style : FloatStyle) {digits : List Char} (hne : digits ≠ [])
    (hall : AllDigits digits) (hhead : digits.head? ≠ some '0') (lead : Int) :
    ∃ n : Numeral, n.WellFormed ∧ layout style digits lead = n.chars ∧
      n.decimal.value = decimalValue digits * 10 ^ (lead + 1 - digits.length) := by
  unfold layout
  split
  next =>
    split
    next hneg =>
      obtain ⟨hform, hvalue⟩ := puts_small hne hall hneg
      exact ⟨_, hform, by simp [Numeral.chars, hne], hvalue⟩
    next hneg =>
      by_cases hafter : digits.drop (lead.toNat + 1) = []
      · have hle := List.drop_eq_nil_iff.1 hafter
        obtain ⟨hform, hvalue⟩ := puts_whole hne hall hhead (Int.not_lt.1 hneg) hle
        exact ⟨_, hform, by simp [Numeral.chars, hafter, List.take_of_length_le hle], hvalue⟩
      · have hlt := Nat.not_le.1 (mt List.drop_eq_nil_iff.2 hafter)
        have hzero : lead.toNat + 1 - digits.length = 0 := by omega
        obtain ⟨hform, hvalue⟩ := puts_between hne hall hhead (Int.not_lt.1 hneg) hlt
        exact ⟨_, hform, by simp [Numeral.chars, hafter, hzero], hvalue⟩
  next =>
    cases digits with
    | nil => exact absurd rfl hne
    | cons d ds =>
      obtain ⟨hform, hvalue⟩ := puts_exponent style.exponentDigits hall (by simpa using hhead) lead
      exact ⟨_, hform, by cases ds <;> simp [Numeral.chars], hvalue⟩

/-- The text of a finite number is a numeral that stands for it, after its sign. -/
theorem numeral_toText (style : FloatStyle) (hzero : style.plainFrom ≤ 0 ∧ 0 < style.plainBelow)
    (negative : Bool) {mantissa : Nat} {exponent : Int} (hspelling : IsSpelling mantissa exponent) :
    ∃ n : Numeral, n.WellFormed ∧
      (toText style (finite negative mantissa exponent hspelling)).toList
        = (if negative then ['-'] else []) ++ n.chars ∧
      ofDecimal negative n.decimal.digits n.decimal.exponent
        = finite negative mantissa exponent hspelling := by
  by_cases hm : mantissa = 0
  · subst hm
    have hexponent : exponent = minExponent := hspelling.2.2.2.resolve_left (by decide)
    subst hexponent
    refine ⟨⟨['0'], ['0'], []⟩, ⟨.inl rfl, Text.allDigits_zeros 1, .inl rfl, .inl (by simp)⟩, ?_, rfl⟩
    have hlayout : layout style ['0'] 0 = ['0', '.', '0'] := by
      simp [layout, hzero]
    cases negative <;> simp [toText, hlayout, Numeral.chars]
  · have hvalue := around_shortest hspelling hm
    have hdigits : (shortest mantissa exponent).digits ≠ 0 := by
      intro h0
      obtain ⟨hlow, -⟩ := around_range hspelling hm hvalue
      have hpos : (0 : ℚ) < 10 ^ (-326 : Int) := zpow_pos (by norm_num) _
      simp only [Decimal.value, h0, Nat.cast_zero, zero_mul] at hlow
      linarith
    generalize hd : shortest mantissa exponent = d at hdigits
    have hhead := Text.head?_toDigits hdigits
    obtain ⟨k, hsplit, hkept⟩ := dropTrailingZeros_spec Nat.toDigits_ne_nil hhead
    have hall := Text.allDigits_toDigits d.digits
    generalize hdrop : dropTrailingZeros (Nat.toDigits 10 d.digits) = kept at hsplit hkept
    have hkeptHead : kept.head? ≠ some '0' := by
      rw [hsplit] at hhead
      cases kept with
      | nil => exact absurd rfl hkept
      | cons c cs => simpa using hhead
    have hkeptAll : AllDigits kept := (Text.allDigits_append.1 (hsplit ▸ hall)).1
    obtain ⟨n, hwell, hchars, hn⟩ := numeral_layout style hkept hkeptAll hkeptHead
      (d.exponent + (Nat.toDigits 10 d.digits).length - 1)
    refine ⟨n, hwell, ?_, ofDecimal_of_value_eq hspelling hm negative ?_⟩
    · unfold toText
      dsimp only
      rw [if_neg hm, hd, hdrop, hchars]
      cases negative <;> simp
    · -- the zeros that were dropped are in the exponent
      have hdvalue : d.digits = decimalValue kept * 10 ^ k := by
        rw [← Text.decimalValue_append_zeros, ← hsplit, Text.decimalValue_toDigits]
      have hlength : (Nat.toDigits 10 d.digits).length = kept.length + k := by
        rw [hsplit, List.length_append, List.length_replicate]
      have hexp : d.exponent + ((Nat.toDigits 10 d.digits).length : Int) - 1 + 1 - kept.length
          = k + d.exponent := by
        rw [hlength]
        push_cast
        ring
      rw [hn, hd, hexp, Decimal.value, hdvalue, zpow_add₀ (by norm_num : (10 : ℚ) ≠ 0), zpow_natCast]
      push_cast
      ring

end Folio.Binary64

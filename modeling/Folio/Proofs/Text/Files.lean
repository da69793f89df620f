import Folio.FileTree
import Folio.Proofs.Json.Strings

set_option autoImplicit false

/-! # Texts in files

The bytes of a character are decoded to that character, with the bytes after them left (`decodeChar_encodeChar`), so the
bytes of a text are decoded to the text (`decodeUtf8_encodeUtf8`). A text without carriage returns keeps its newlines when it
is read from a file, and a program has no nulls. Texts in quotes have neither, whatever they quote (`isKept_quotePoints`). -/

namespace Folio.Text

/-! ## Bytes -/

theorem toNat_toUInt8 {n : Nat} (h : n < 256) : n.toUInt8.toNat = n := by
  simp only [Nat.toUInt8_eq, UInt8.toNat_ofNat']
  exact Nat.mod_eq_of_lt h

/-- How many bytes a character has whose first byte is given. -/
theorem lengthFrom_toUInt8 {n : Nat} (h : n < 256) : lengthFrom n.toUInt8
    = if n < 0x80 then 1 else if n < 0xC2 then 0 else if n < 0xE0 then 2 else if n < 0xF0 then 3
      else if n < 0xF5 then 4 else 0 := by
  simp only [lengthFrom, UInt8.lt_iff_toNat_lt, toNat_toUInt8 h]
  rfl

theorem isContinuation_toUInt8 {n : Nat} (h : n < 64) : isContinuation (0x80 + n).toUInt8 = true := by
  have hn : 0x80 + n < 256 := by omega
  simp only [isContinuation, Bool.and_eq_true, decide_eq_true_eq, UInt8.lt_iff_toNat_lt,
    UInt8.le_iff_toNat_le, toNat_toUInt8 hn]
  exact ⟨by simp, Nat.add_lt_add_left h 0x80⟩

/-- A byte that continues a character may come second, but for four first bytes that leave it less
    room. -/
theorem mayFollow_toUInt8 {first second : Nat} (hfirst : first < 256) (hsecond : second < 64)
    (hE0 : first = 0xE0 → 0x20 ≤ second) (hED : first = 0xED → second < 0x20)
    (hF0 : first = 0xF0 → 0x10 ≤ second) (hF4 : first = 0xF4 → second < 0x10) :
    mayFollow first.toUInt8 (0x80 + second).toUInt8 = true := by
  have hn : 0x80 + second < 256 := by omega
  simp only [mayFollow, isContinuation_toUInt8 hsecond, Bool.true_and, UInt8.ext_iff,
    UInt8.lt_iff_toNat_lt, UInt8.le_iff_toNat_le, toNat_toUInt8 hfirst, toNat_toUInt8 hn]
  simp only [UInt8.reduceToNat]
  repeat' split
  all_goals simp_all
  all_goals omega

theorem continuation_bits {n : Nat} (h : n < 64) : (0x80 + n).toUInt8.toNat % 64 = n := by
  rw [toNat_toUInt8 (by omega)]
  omega

/-! ## Characters -/

theorem encodeChar_ne_nil (c : Char) : encodeChar c ≠ [] := by
  unfold encodeChar
  dsimp only
  split
  · simp
  · split
    · simp
    · split <;> simp

/-- The bytes of a character are decoded to it. -/
theorem decodeChar_encodeChar {c : Char} {b : UInt8} {bs : List UInt8} (h : encodeChar c = b :: bs)
    (rest : List UInt8) : decodeChar b (bs ++ rest) = .ok (c, rest) := by
  have hlimit := codePoint_lt c
  have hsurrogate := not_surrogate c
  have hchar := Char.ofNat_toNat c
  unfold encodeChar at h
  dsimp only at h
  generalize hn : c.toNat = n at h hlimit hsurrogate hchar
  split at h
  next h1 =>
    obtain ⟨rfl, rfl⟩ := List.cons.inj h
    have hlength : lengthFrom n.toUInt8 = 1 := by
      rw [lengthFrom_toUInt8 (by omega), if_pos h1]
    simp [decodeChar, hlength, toNat_toUInt8 (show n < 256 by omega), hchar]
  next h1 =>
    split at h
    next h2 =>
      obtain ⟨rfl, rfl⟩ := List.cons.inj h
      have hlength : lengthFrom (0xC0 + n / 64).toUInt8 = 2 := by
        rw [lengthFrom_toUInt8 (by omega)]
        split_ifs <;> omega
      have hfollow : mayFollow (0xC0 + n / 64).toUInt8 (0x80 + n % 64).toUInt8 = true :=
        mayFollow_toUInt8 (by omega) (by omega) (by omega) (by omega) (by omega) (by omega)
      have hfirst := toNat_toUInt8 (show 0xC0 + n / 64 < 256 by omega)
      have hsecond := continuation_bits (Nat.mod_lt n (show 0 < 64 by decide))
      have hvalue : (0xC0 + n / 64) % 32 * 64 + n % 64 = n := by omega
      simp only [List.cons_append, List.nil_append, decodeChar, hlength, hfollow, hfirst, hsecond,
        hvalue, hchar]
      simp
    next h2 =>
      split at h
      next h3 =>
        obtain ⟨rfl, rfl⟩ := List.cons.inj h
        have hlength : lengthFrom (0xE0 + n / 4096).toUInt8 = 3 := by
          rw [lengthFrom_toUInt8 (by omega)]
          split_ifs <;> omega
        have hfollow : mayFollow (0xE0 + n / 4096).toUInt8 (0x80 + n / 64 % 64).toUInt8 = true :=
          mayFollow_toUInt8 (by omega) (by omega) (by omega) (by omega) (by omega) (by omega)
        have hthird := isContinuation_toUInt8 (Nat.mod_lt n (show 0 < 64 by decide))
        have hfirst := toNat_toUInt8 (show 0xE0 + n / 4096 < 256 by omega)
        have hbits2 := continuation_bits (Nat.mod_lt (n / 64) (show 0 < 64 by decide))
        have hbits3 := continuation_bits (Nat.mod_lt n (show 0 < 64 by decide))
        have hvalue : (0xE0 + n / 4096) % 16 * 4096 + n / 64 % 64 * 64 + n % 64 = n := by omega
        simp only [List.cons_append, List.nil_append, decodeChar, hlength, hfollow, hthird, hfirst,
          hbits2, hbits3, hvalue, hchar]
        simp
      next h3 =>
        obtain ⟨rfl, rfl⟩ := List.cons.inj h
        have hlength : lengthFrom (0xF0 + n / 262144).toUInt8 = 4 := by
          rw [lengthFrom_toUInt8 (by omega)]
          split_ifs <;> omega
        have hfollow : mayFollow (0xF0 + n / 262144).toUInt8 (0x80 + n / 4096 % 64).toUInt8 = true :=
          mayFollow_toUInt8 (by omega) (by omega) (by omega) (by omega) (by omega) (by omega)
        have hthird := isContinuation_toUInt8 (Nat.mod_lt (n / 64) (show 0 < 64 by decide))
        have hfourth := isContinuation_toUInt8 (Nat.mod_lt n (show 0 < 64 by decide))
        have hfirst := toNat_toUInt8 (show 0xF0 + n / 262144 < 256 by omega)
        have hbits2 := continuation_bits (Nat.mod_lt (n / 4096) (show 0 < 64 by decide))
        have hbits3 := continuation_bits (Nat.mod_lt (n / 64) (show 0 < 64 by decide))
        have hbits4 := continuation_bits (Nat.mod_lt n (show 0 < 64 by decide))
        have hvalue : (0xF0 + n / 262144) % 8 * 262144 + n / 4096 % 64 * 4096 + n / 64 % 64 * 64
            + n % 64 = n := by omega
        simp only [List.cons_append, List.nil_append, decodeChar, hlength, hfollow, hthird, hfourth,
          hfirst, hbits2, hbits3, hbits4, hvalue, hchar]
        simp

/-! ## Texts -/

theorem decodeFrom_encodeUtf8 (cs : List Char) (fuel place : Nat)
    (hfuel : (encodeUtf8 cs).length ≤ fuel) : decodeFrom fuel place (encodeUtf8 cs) = .ok cs := by
  induction cs generalizing fuel place with
  | nil => cases fuel <;> rfl
  | cons c cs ih =>
    obtain ⟨b, bs, hbytes⟩ := List.exists_cons_of_ne_nil (encodeChar_ne_nil c)
    have hsplit : encodeUtf8 (c :: cs) = b :: (bs ++ encodeUtf8 cs) := by
      rw [encodeUtf8, List.flatMap_cons, hbytes]
      rfl
    rw [hsplit, List.length_cons, List.length_append] at hfuel
    obtain ⟨fuel, rfl⟩ : ∃ n, fuel = n + 1 := ⟨fuel - 1, by omega⟩
    rw [hsplit]
    simp only [decodeFrom, decodeChar_encodeChar hbytes]
    rw [ih fuel _ (by omega)]
    rfl

/-- A text is what its bytes are decoded to. -/
@[simp] theorem decodeUtf8_encodeUtf8 (cs : List Char) : decodeUtf8 (encodeUtf8 cs) = .ok cs :=
  decodeFrom_encodeUtf8 cs _ 0 (Nat.le_refl _)

theorem encodeUtf8_inj {cs ds : List Char} : encodeUtf8 cs = encodeUtf8 ds ↔ cs = ds := by
  refine ⟨fun h => ?_, congrArg _⟩
  have hdecode := decodeUtf8_encodeUtf8 cs
  rw [h, decodeUtf8_encodeUtf8] at hdecode
  exact (Except.ok.inj hdecode).symm

/-! ## Characters that are kept -/

/-- A text that comes back from a file as it is and is a program: it has no carriage return, which a
    file turns into a line feed, and no null. -/
def IsKept (cs : List Char) : Prop :=
  ∀ c ∈ cs, c ≠ '\r' ∧ c ≠ '\x00'

-- over the text, and not over all characters
instance (cs : List Char) : Decidable (IsKept cs) :=
  List.decidableBAll _ cs

theorem isKept_append {cs ds : List Char} : IsKept (cs ++ ds) ↔ IsKept cs ∧ IsKept ds := by
  simp only [IsKept, List.mem_append]
  exact ⟨fun h => ⟨fun c hc => h c (.inl hc), fun c hc => h c (.inr hc)⟩,
    fun h c hc => hc.elim (h.1 c) (h.2 c)⟩

theorem isKept_cons {c : Char} {cs : List Char} :
    IsKept (c :: cs) ↔ (c ≠ '\r' ∧ c ≠ '\x00') ∧ IsKept cs := by
  simp [IsKept]

theorem isKept_nil : IsKept [] := by simp [IsKept]

theorem isKept_flatMap {α : Type} {f : α → List Char} (h : ∀ a, IsKept (f a)) (as : List α) :
    IsKept (as.flatMap f) := by
  intro c hc
  obtain ⟨a, -, ha⟩ := List.mem_flatMap.1 hc
  exact h a c ha

theorem isKept_hexDigits (width n : Nat) : IsKept (hexDigits width n) := by
  intro c hc
  have hdigit := List.all_eq_true.1 (all_isHexDigit_hexDigits width n) c hc
  constructor <;> rintro rfl <;> cases hdigit

theorem isKept_quoteChar {mark : Char} (hmark : mark = '\'' ∨ mark = '"') (c : Char) :
    IsKept (quoteChar mark c) := by
  have hmarkKept : mark ≠ '\r' ∧ mark ≠ '\x00' := by rcases hmark with rfl | rfl <;> decide
  have hletter : ∀ e : Char, e ≠ '\r' ∧ e ≠ '\x00' → IsKept ['\\', e] := fun e he =>
    isKept_cons.2 ⟨by decide, isKept_cons.2 ⟨he, isKept_nil⟩⟩
  unfold quoteChar
  split
  next h =>
    rcases h with rfl | rfl
    · exact hletter _ hmarkKept
    · exact hletter _ (by decide)
  split
  next => exact hletter _ (by decide)
  split
  next => exact hletter _ (by decide)
  split
  next => exact hletter _ (by decide)
  split
  next hprint =>
    refine isKept_cons.2 ⟨?_, isKept_nil⟩
    constructor <;> rintro rfl <;> revert hprint <;> decide
  next =>
    unfold escapeByNumber
    dsimp only
    split_ifs <;>
      exact isKept_cons.2 ⟨by decide, isKept_cons.2 ⟨by decide, isKept_hexDigits _ _⟩⟩

theorem isKept_quotePoint {mark : Char} (hmark : mark = '\'' ∨ mark = '"') (p : Point) :
    IsKept (quotePoint mark p) := by
  cases p with
  | char c => exact isKept_quoteChar hmark c
  | half h => exact isKept_cons.2 ⟨by decide, isKept_cons.2 ⟨by decide, isKept_hexDigits _ _⟩⟩

theorem isKept_quotePoints (ps : List Point) : IsKept (quotePoints ps) := by
  have hmark := quotationMark_eq (skeleton ps)
  have hmarkKept : quotationMark (skeleton ps) ≠ '\r' ∧ quotationMark (skeleton ps) ≠ '\x00' := by
    rcases hmark with h | h <;> rw [h] <;> decide
  exact isKept_append.2 ⟨isKept_cons.2 ⟨hmarkKept, isKept_flatMap (isKept_quotePoint hmark) ps⟩,
    isKept_cons.2 ⟨hmarkKept, isKept_nil⟩⟩

theorem isKept_stringChar (asciiOnly : Bool) (c : Char) : IsKept (Json.stringChar asciiOnly c) := by
  rcases Json.stringChar_cases asciiOnly c with ⟨e, heq, he, -⟩ | ⟨heq, h⟩ | ⟨heq, -, -, hlow, -⟩
  · rw [heq]
    refine isKept_cons.2 ⟨by decide, isKept_cons.2 ⟨?_, isKept_nil⟩⟩
    constructor <;> rintro rfl <;> simp [Json.letterEscape?] at he
  · have hunit (n : Nat) : IsKept (Json.escapeUnit n) :=
      isKept_cons.2 ⟨by decide, isKept_cons.2 ⟨by decide, isKept_hexDigits 4 n⟩⟩
    rw [heq, Json.escapeChar]
    split
    · exact hunit _
    · exact isKept_append.2 ⟨hunit _, hunit _⟩
  · rw [heq]
    refine isKept_cons.2 ⟨?_, isKept_nil⟩
    constructor <;> rintro rfl <;> revert hlow <;> decide

theorem isKept_stringChars (asciiOnly : Bool) (cs : List Char) :
    IsKept (Json.stringChars asciiOnly cs) :=
  isKept_append.2 ⟨isKept_cons.2 ⟨by decide, isKept_flatMap (isKept_stringChar asciiOnly) _⟩,
    isKept_cons.2 ⟨by decide, isKept_nil⟩⟩

end Folio.Text

namespace Folio.FileTree

/-- A text that has no carriage returns keeps its newlines. -/
theorem unifyNewlines_eq_self {cs : List Char} (h : '\r' ∉ cs) : unifyNewlines cs = cs := by
  induction cs with
  | nil => rfl
  | cons c cs ih =>
    rw [List.mem_cons, not_or] at h
    have hc : c ≠ '\r' := Ne.symm h.1
    rw [unifyNewlines, ih h.2, if_neg hc]
    rintro cs' rfl
    exact absurd rfl hc

/-- Only a carriage return and a line feed that meet where two texts are joined are one line end. -/
theorem unifyNewlines_append {cs ds : List Char}
    (h : cs.getLast? = some '\r' → ds.head? ≠ some '\n') :
    unifyNewlines (cs ++ ds) = unifyNewlines cs ++ unifyNewlines ds := by
  fun_induction unifyNewlines cs with
  | case1 => rfl
  | case2 cs ih =>
    have htail : cs.getLast? = some '\r' → ds.head? ≠ some '\n' := by
      cases cs with
      | nil => simp
      | cons c cs => simpa using h
    rw [List.cons_append, List.cons_append, unifyNewlines, ih htail, List.cons_append]
  | case3 c cs hpair ih =>
    have htail : cs.getLast? = some '\r' → ds.head? ≠ some '\n' := by
      cases cs with
      | nil => simp
      | cons d cs => simpa using h
    rw [List.cons_append, unifyNewlines, ih htail, List.cons_append]
    rintro ds' rfl heq
    cases cs with
    | nil =>
      rw [List.nil_append] at heq
      exact h rfl (by rw [heq, List.head?_cons])
    | cons d cs =>
      obtain ⟨rfl, -⟩ := List.cons.inj heq
      exact hpair cs rfl rfl

/-- Every line end of a text is a line feed once they are made equal. -/
theorem feed_mem_unifyNewlines {cs : List Char} :
    '\n' ∈ unifyNewlines cs ↔ '\n' ∈ cs ∨ '\r' ∈ cs := by
  fun_induction unifyNewlines cs with
  | case1 => simp
  | case2 cs ih => simp
  | case3 c cs hpair ih =>
    by_cases hc : c = '\r'
    · simp [hc]
    · have hne : '\r' ≠ c := Ne.symm hc
      simp only [hc, if_false, List.mem_cons, ih, hne, false_or, or_assoc]

/-- What a text that was written and has no carriage returns is read as. -/
theorem readText_of_read {tree : FileTree} {p : Path} {cs : List Char} {modified : Int}
    (h : tree.read p = .ok (Text.encodeUtf8 cs, modified)) (hcs : '\r' ∉ cs) :
    tree.readText p = .ok (cs, modified) := by
  simp only [readText, h, Except.mapError, bind, Except.bind, Text.decodeUtf8_encodeUtf8,
    unifyNewlines_eq_self hcs]
  rfl

end Folio.FileTree

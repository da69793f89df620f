import Folio.Html.StyleDeclaration
import Mathlib

set_option autoImplicit false

/-! # Styles read as they are written

A declaration that has been cut out of a style is cut in the same place wherever it is written before a semicolon
(`cutsBefore_of_cut`). So declarations that were read, with some of them left out, are read again from the text they are
written in (`ofAttribute_filter`). -/

namespace Folio.Html.StyleDeclaration

/-! ## Cuts that depend on what comes before them only -/

/-- What follows a text is there only if something follows another, and starts as that does. -/
def StartsAs (tail rest : List Char) : Prop :=
  ∀ c ∈ tail.head?, c ∈ rest.head?

section

variable {tail rest : List Char}

theorem StartsAs.append (h : StartsAs tail rest) (text : List Char) : StartsAs (text ++ tail) (text ++ rest) := by
  cases text with
  | nil => exact h
  | cons c text => exact fun _ h => h

theorem StartsAs.eq_nil (h : StartsAs tail rest) (hrest : rest = []) : tail = [] := by
  cases tail with
  | nil => rfl
  | cons c tail => simpa [hrest] using h c rfl

/-- A quotation is cut after its mark, whatever follows. -/
theorem cutString_append {mark : Char} {cs text : List Char} (h : cutString mark cs = (text, rest))
    (htail : rest = [] → tail = []) : cutString mark (text ++ tail) = (text, tail) := by
  fun_induction cutString mark cs generalizing text rest with
  | case1 =>
    obtain ⟨rfl, rfl⟩ := Prod.mk.inj h
    rw [htail rfl]
    rfl
  | case2 c =>
    obtain ⟨rfl, rfl⟩ := Prod.mk.inj h
    rw [htail rfl]
    rfl
  | case3 d cs inner left heq ih =>
    obtain ⟨rfl, rfl⟩ := Prod.mk.inj h
    rw [List.cons_append, List.cons_append, cutString, if_pos rfl, ih heq htail]
  | case4 c d cs hescape hmark =>
    obtain ⟨rfl, rfl⟩ := Prod.mk.inj h
    cases tail with
    | nil => rfl
    | cons e tail => rw [List.singleton_append, cutString, if_neg hescape, if_pos hmark]
  | case5 c d cs hescape hmark inner left heq ih =>
    obtain ⟨rfl, rfl⟩ := Prod.mk.inj h
    have hinner := ih heq htail
    cases hnext : inner ++ tail with
    | nil =>
      obtain ⟨rfl, rfl⟩ := List.append_eq_nil_iff.1 hnext
      rfl
    | cons e more => rw [List.cons_append, hnext, cutString, if_neg hescape, if_neg hmark, ← hnext, hinner]

theorem skipComment_suffix (cs : List Char) : skipComment cs <:+ cs := by
  fun_induction skipComment cs with
  | case1 cs => exact ⟨['*', '/'], rfl⟩
  | case2 c cs _ ih => exact ih.trans (List.suffix_cons c cs)
  | case3 => exact List.suffix_refl []

theorem skipComment_eq_self {cs : List Char} (h : skipComment cs = cs) : cs = [] := by
  fun_induction skipComment cs with
  | case1 cs =>
    have hlength := congrArg List.length h
    rw [List.length_cons, List.length_cons] at hlength
    omega
  | case2 c cs _ ih =>
    have hlength := skipComment_length cs
    rw [h, List.length_cons] at hlength
    omega
  | case3 => rfl

/-- A comment ends in the same place, whatever follows. -/
theorem skipComment_append {cs text : List Char} (h : cs = text ++ skipComment cs)
    (htail : skipComment cs = [] → tail = []) : skipComment (text ++ tail) = tail := by
  fun_induction skipComment cs generalizing text with
  | case1 cs =>
    have hwhole : ['*', '/'] ++ cs = text ++ cs := h
    obtain rfl : ['*', '/'] = text := List.append_cancel_right hwhole
    rfl
  | case2 c cs hopen ih =>
    cases text with
    | nil =>
      have hlength := skipComment_length cs
      rw [show skipComment cs = c :: cs from h.symm, List.length_cons] at hlength
      omega
    | cons d text =>
      obtain ⟨rfl, hcs⟩ := List.cons.inj h
      have hskip := ih hcs htail
      cases text with
      | nil =>
        have hempty : cs = [] := skipComment_eq_self hcs.symm
        rw [htail (by rw [hempty]; rfl)]
        simp [skipComment]
      | cons e text =>
        have hstep : skipComment (c :: (e :: text ++ tail)) = skipComment (e :: text ++ tail) := by
          rw [List.cons_append, skipComment]
          rintro rest rfl hrest
          obtain ⟨rfl, -⟩ := List.cons.inj hrest
          exact hopen _ rfl hcs
        rw [List.cons_append, hstep, hskip]
  | case3 =>
    obtain rfl : text = [] := by simpa using h
    rw [htail rfl]
    rfl

/-- A comment ends inside a text if it ends before what follows it does. -/
theorem skipComment_append_of_le {cs : List Char} (hlength : tail.length ≤ (skipComment (cs ++ tail)).length)
    (htail : tail.head? ≠ some '/') : skipComment (cs ++ tail) = skipComment cs ++ tail := by
  fun_induction skipComment cs with
  | case1 cs => rfl
  | case2 c cs hopen ih =>
    have hstep : skipComment (c :: (cs ++ tail)) = skipComment (cs ++ tail) := by
      rw [skipComment]
      rintro rest rfl hrest
      cases cs with
      | nil => exact htail (by rw [show tail = '/' :: rest from hrest]; rfl)
      | cons d cs =>
        obtain ⟨rfl, -⟩ := List.cons.inj hrest
        exact hopen _ rfl rfl
    rw [List.cons_append, hstep] at hlength ⊢
    exact ih hlength
  | case3 => exact (skipComment_suffix tail).eq_of_length_le hlength

/-! ## Pieces of a declaration -/

/-- The piece of a declaration that a character starts: the rest of the piece, the brackets that are open after it,
    and what follows. No piece is left before a semicolon that ends the declaration. -/
def piece? (brackets : List Char) (c : Char) (cs : List Char) : Option (List Char × List Char × List Char) :=
  if c = ';' ∧ brackets.isEmpty then none
  else if c = '"' ∨ c = '\'' then some ((cutString c cs).1, brackets, (cutString c cs).2)
  else if c = '\\' then some (cs.take 1, brackets, cs.drop 1)
  else if c = '/' ∧ cs.head? = some '*' then
    some (cs.take (cs.length - (skipComment (cs.drop 1)).length), brackets, skipComment (cs.drop 1))
  else match closing? c with
    | some b => some ([], b :: brackets, cs)
    | none => some ([], if brackets.head? = some c then brackets.drop 1 else brackets, cs)

theorem cutDeclaration_succ (fuel : Nat) (brackets : List Char) (c : Char) (cs : List Char) :
    cutDeclaration (fuel + 1) brackets (c :: cs) =
      match piece? brackets c cs with
      | none => ([], c :: cs)
      | some (more, brackets, rest) =>
        (c :: more ++ (cutDeclaration fuel brackets rest).1, (cutDeclaration fuel brackets rest).2) := by
  rw [cutDeclaration, piece?]
  split
  · rfl
  · split
    · rfl
    · split
      · rfl
      · split
        · rfl
        · split <;> simp [*]

theorem cutString_partition (mark : Char) (cs : List Char) : (cutString mark cs).1 ++ (cutString mark cs).2 = cs := by
  fun_induction cutString mark cs <;> simp_all

/-- A piece is the same whatever follows it. -/
theorem piece?_append {brackets cs more brackets' : List Char} {c : Char}
    (h : piece? brackets c cs = some (more, brackets', rest)) :
    cs = more ++ rest ∧ ∀ tail, StartsAs tail rest → piece? brackets c (more ++ tail) = some (more, brackets', tail) := by
  unfold piece? at h ⊢
  split at h
  · cases h
  next hsemicolon =>
  simp only [if_neg hsemicolon]
  split at h
  · next hquote =>
    simp only [Option.some.injEq, Prod.mk.injEq] at h
    obtain ⟨rfl, rfl, rfl⟩ := h
    refine ⟨(cutString_partition c cs).symm, fun tail htail => ?_⟩
    rw [if_pos hquote, cutString_append rfl htail.eq_nil]
  next hquote =>
  simp only [if_neg hquote]
  split at h
  · next hescape =>
    simp only [Option.some.injEq, Prod.mk.injEq] at h
    obtain ⟨rfl, rfl, rfl⟩ := h
    refine ⟨(List.take_append_drop 1 cs).symm, fun tail htail => ?_⟩
    rw [if_pos hescape]
    cases cs with
    | nil => simp [htail.eq_nil rfl]
    | cons d cs => rfl
  next hescape =>
  simp only [if_neg hescape]
  split at h
  · next hcomment =>
    simp only [Option.some.injEq, Prod.mk.injEq] at h
    obtain ⟨rfl, rfl, rfl⟩ := h
    obtain ⟨ds, rfl⟩ : ∃ ds, cs = '*' :: ds := List.head?_eq_some_iff.1 hcomment.2
    obtain ⟨text, htext⟩ := skipComment_suffix ds
    have htake : ∀ rest : List Char, ('*' :: text ++ rest).take (('*' :: text ++ rest).length - rest.length)
        = '*' :: text := fun rest => List.take_left' (by rw [List.length_append, Nat.add_sub_cancel])
    have htaken := htake (skipComment ds)
    rw [List.cons_append, htext] at htaken
    rw [List.drop_one, List.tail_cons, htaken]
    refine ⟨by rw [List.cons_append, htext], fun tail htail => ?_⟩
    have hskip : skipComment (text ++ tail) = tail := skipComment_append htext.symm htail.eq_nil
    rw [if_pos ⟨hcomment.1, rfl⟩, List.cons_append, List.drop_one, List.tail_cons, hskip, ← List.cons_append, htake]
  next hcomment =>
  have hopen : ∀ tail, StartsAs tail cs → ¬(c = '/' ∧ tail.head? = some '*') := fun tail htail hstar =>
    hcomment ⟨hstar.1, htail _ hstar.2⟩
  split at h <;>
  · next hclosing =>
    simp only [Option.some.injEq, Prod.mk.injEq] at h
    obtain ⟨rfl, rfl, rfl⟩ := h
    refine ⟨rfl, fun tail htail => ?_⟩
    simp only [List.nil_append, if_neg (hopen tail htail)]

end

/-! ## Texts that are cut from what follows -/

/-- A text is cut from what follows it. -/
def CutsBefore (brackets text tail : List Char) : Prop :=
  ∀ fuel, (text ++ tail).length ≤ fuel → cutDeclaration fuel brackets (text ++ tail) = (text, tail)

section

variable {brackets brackets' text more tail rest : List Char} {c : Char}

theorem CutsBefore.cons (h : CutsBefore brackets' text tail)
    (hpiece : piece? brackets c (more ++ (text ++ tail)) = some (more, brackets', text ++ tail)) :
    CutsBefore brackets (c :: (more ++ text)) tail := by
  intro fuel hfuel
  obtain ⟨fuel, rfl⟩ := Nat.exists_eq_add_one_of_ne_zero (Nat.ne_zero_of_lt hfuel)
  simp only [List.cons_append, List.length_cons, List.length_append, List.append_assoc] at hfuel ⊢
  rw [cutDeclaration_succ, hpiece]
  simp only
  rw [h fuel (by rw [List.length_append]; omega)]
  rfl

theorem piece?_eq_none {cs : List Char} : piece? brackets c cs = none ↔ c = ';' ∧ brackets.isEmpty = true := by
  unfold piece?
  split
  · simp_all
  · next hsemicolon =>
    refine ⟨fun h => ?_, fun h => absurd h hsemicolon⟩
    repeat' split at h
    all_goals cases h

theorem append_of_cutDeclaration {fuel : Nat} {cs : List Char} (h : cutDeclaration fuel brackets cs = (text, rest)) :
    text ++ rest = cs := by
  induction fuel generalizing brackets cs text with
  | zero =>
    obtain ⟨rfl, rfl⟩ := Prod.mk.inj h
    exact List.append_nil cs
  | succ fuel ih =>
    cases cs with
    | nil =>
      obtain ⟨rfl, rfl⟩ := Prod.mk.inj h
      rfl
    | cons c cs =>
      rw [cutDeclaration_succ] at h
      cases hpiece : piece? brackets c cs with
      | none =>
        rw [hpiece] at h
        obtain ⟨rfl, rfl⟩ := Prod.mk.inj h
        rfl
      | some found =>
        obtain ⟨more, brackets', left⟩ := found
        rw [hpiece] at h
        obtain ⟨rfl, hrest⟩ := Prod.mk.inj h
        rw [List.append_assoc, ih (Prod.ext rfl hrest), List.cons_append, ← (piece?_append hpiece).1]

theorem cutsBefore_nil (brackets : List Char) : CutsBefore brackets [] [] := by
  intro fuel _
  cases fuel <;> rfl

/-- A text that has been cut from what follows it is cut from anything that starts in the same way, and from
    nothing. -/
theorem cutsBefore_of_cut {fuel : Nat} {cs : List Char} (h : cutDeclaration fuel brackets cs = (text, rest))
    (hfuel : cs.length ≤ fuel) (htail : StartsAs tail rest) : CutsBefore brackets text tail := by
  induction fuel generalizing brackets cs text with
  | zero =>
    obtain rfl : cs = [] := List.eq_nil_of_length_eq_zero (Nat.le_zero.1 hfuel)
    obtain ⟨rfl, rfl⟩ := Prod.mk.inj h
    obtain rfl := htail.eq_nil rfl
    exact cutsBefore_nil brackets
  | succ fuel ih =>
    cases cs with
    | nil =>
      obtain ⟨rfl, rfl⟩ := Prod.mk.inj h
      obtain rfl := htail.eq_nil rfl
      exact cutsBefore_nil brackets
    | cons c cs =>
      rw [cutDeclaration_succ] at h
      cases hpiece : piece? brackets c cs with
      | none =>
        rw [hpiece] at h
        obtain ⟨rfl, rfl⟩ := Prod.mk.inj h
        cases tail with
        | nil => exact cutsBefore_nil brackets
        | cons d tail =>
          obtain rfl : c = d := Option.some.inj (htail d rfl)
          intro fuel hfuel
          obtain ⟨fuel, rfl⟩ := Nat.exists_eq_add_one_of_ne_zero (Nat.ne_zero_of_lt hfuel)
          rw [List.nil_append, cutDeclaration_succ, piece?_eq_none.2 (piece?_eq_none.1 hpiece)]
      | some found =>
        obtain ⟨more, brackets', left⟩ := found
        rw [hpiece] at h
        obtain ⟨t, hcut⟩ : ∃ t, cutDeclaration fuel brackets' left = (t, rest) := ⟨_, Prod.ext rfl (Prod.mk.inj h).2⟩
        simp only [hcut, Prod.mk.injEq, and_true] at h
        obtain ⟨hparts, hsame⟩ := piece?_append hpiece
        have hlength := congrArg List.length hparts
        rw [List.length_append] at hlength
        rw [List.length_cons] at hfuel
        have hstarts : StartsAs (t ++ tail) left := append_of_cutDeclaration hcut ▸ htail.append t
        exact h ▸ (ih hcut (by omega)).cons (hsame _ hstarts)

/-- Where a text is cut, what is left of it after a piece is cut. -/
theorem CutsBefore.of_cons {cs : List Char} (h : CutsBefore brackets (c :: cs) tail)
    (hpiece : piece? brackets c (cs ++ tail) = some (more, brackets', rest)) :
    ∃ text, cs = more ++ text ∧ rest = text ++ tail ∧ CutsBefore brackets' text tail := by
  have hparts := (piece?_append hpiece).1
  have hwhole := h ((cs ++ tail).length + 1) (Nat.le_refl _)
  rw [List.cons_append, cutDeclaration_succ, hpiece] at hwhole
  obtain ⟨t, hcut⟩ : ∃ t, cutDeclaration (cs ++ tail).length brackets' rest = (t, tail) :=
    ⟨_, Prod.ext rfl (Prod.mk.inj hwhole).2⟩
  simp only [hcut, Prod.mk.injEq, List.cons_append, List.cons.injEq, true_and, and_true] at hwhole
  refine ⟨t, hwhole.symm, (append_of_cutDeclaration hcut).symm, cutsBefore_of_cut hcut ?_ fun _ h => h⟩
  rw [hparts, List.length_append]
  omega

/-- The characters that start more than themselves, or end a declaration. -/
def specialChars : List Char :=
  [';', '"', '\'', '\\', '/', '(', '[', '\x7b']

theorem piece?_nil_of_not_special {cs : List Char} (h : c ∉ specialChars) : piece? [] c cs = some ([], [], cs) := by
  simp only [specialChars, List.mem_cons, List.not_mem_nil, or_false, not_or] at h
  simp [piece?, closing?, h]

theorem not_special_of_isNameChar (h : isNameChar c = true) : c ∉ specialChars := by
  intro hspecial
  have hall : (specialChars.all fun d => !isNameChar d) = true := rfl
  have hnot := List.all_eq_true.1 hall c hspecial
  rw [h] at hnot
  cases hnot

theorem not_special_of_isSpace (h : isSpace c = true) : c ∉ specialChars := by
  intro hspecial
  have hall : (specialChars.all fun d => !isSpace d) = true := rfl
  have hnot := List.all_eq_true.1 hall c hspecial
  rw [h] at hnot
  cases hnot

theorem cutsBefore_cons_iff (h : c ∉ specialChars) :
    CutsBefore [] (c :: text) tail ↔ CutsBefore [] text tail := by
  refine ⟨fun hcuts => ?_, fun hcuts => hcuts.cons (piece?_nil_of_not_special h)⟩
  obtain ⟨rest, rfl, -, hrest⟩ := hcuts.of_cons (piece?_nil_of_not_special h)
  exact hrest

theorem cutsBefore_append_iff {name : List Char} (h : ∀ c ∈ name, c ∉ specialChars) :
    CutsBefore [] (name ++ text) tail ↔ CutsBefore [] text tail := by
  induction name with
  | nil => exact Iff.rfl
  | cons c name ih =>
    obtain ⟨hc, hname⟩ := List.forall_mem_cons.1 h
    exact (cutsBefore_cons_iff hc).trans (ih hname)

/-- What follows a declaration: nothing, or a semicolon. -/
def IsEnd (tail : List Char) : Prop :=
  ∀ c ∈ tail.head?, c = ';'

/-- A text is still cut without the blanks and comments at its front. -/
theorem CutsBefore.skipSpace (htail : IsEnd tail) (h : CutsBefore [] text tail) :
    CutsBefore [] (skipSpace text) tail := by
  fun_induction StyleDeclaration.skipSpace text with
  | case1 => exact h
  | case2 r ih =>
    refine ih ?_
    have hpiece : piece? [] '/' ('*' :: r ++ tail) = some
        (('*' :: r ++ tail).take (('*' :: r ++ tail).length - (skipComment (r ++ tail)).length), [],
          skipComment (r ++ tail)) := rfl
    obtain ⟨rest, -, hrest, hcuts⟩ := h.of_cons hpiece
    have hinside : skipComment (r ++ tail) = skipComment r ++ tail := by
      refine skipComment_append_of_le ?_ fun hslash => ?_
      · rw [hrest, List.length_append]
        omega
      · exact absurd (htail _ hslash) (by decide)
    rwa [List.append_cancel_right (hinside.symm.trans hrest)]
  | case3 c r hcomment hspace ih => exact ih ((cutsBefore_cons_iff (not_special_of_isSpace hspace)).1 h)
  | case4 c r hcomment hspace => exact h

end

/-! ## Names in lower case -/

theorem toNat_toLower (c : Char) :
    c.toLower.toNat = if 65 ≤ c.toNat ∧ c.toNat ≤ 90 then c.toNat + 32 else c.toNat := by
  unfold Char.toLower
  split
  · next h =>
    have hupper : 65 ≤ c.toNat ∧ c.toNat ≤ 90 := h
    rw [if_pos hupper]
    simp only [Char.toNat, UInt32.toNat_add] at hupper ⊢
    have : ('a'.val - 'A'.val).toNat = 32 := rfl
    omega
  · next h => exact (if_neg h).symm

/-- A character stays, or is a capital letter that becomes a small one. -/
theorem toLower_cases (c : Char) : c.toLower = c ∨
    (('A' ≤ c ∧ c ≤ 'Z') ∧ 'a' ≤ c.toLower ∧ c.toLower ≤ 'z') := by
  have hnat := toNat_toLower c
  split at hnat
  · next h =>
    refine .inr ⟨h, show 97 ≤ c.toLower.toNat ∧ c.toLower.toNat ≤ 122 from ?_⟩
    omega
  · exact .inl (Char.toNat_inj.1 hnat)

theorem isAsciiDigit_of_letter {c : Char} (h : 'A' ≤ c) : Text.isAsciiDigit c = false := by
  have hnot : ¬c ≤ '9' := fun hle => absurd (Nat.le_trans (show 65 ≤ c.toNat from h) (show c.toNat ≤ 57 from hle))
    (by decide)
  simp [Text.isAsciiDigit, hnot]

theorem isAsciiDigit_toLower (c : Char) : Text.isAsciiDigit c.toLower = Text.isAsciiDigit c := by
  rcases toLower_cases c with heq | ⟨⟨hupper, -⟩, hlower, -⟩
  · rw [heq]
  · rw [isAsciiDigit_of_letter hupper, isAsciiDigit_of_letter (Char.le_trans (by decide) hlower)]

theorem isNameChar_toLower {c : Char} (h : isNameChar c = true) : isNameChar c.toLower = true := by
  rcases toLower_cases c with heq | ⟨-, hfirst, hlast⟩
  · rwa [heq]
  · simp [isNameChar, Text.isAsciiAlphanumeric, Text.isAsciiLetter, hfirst, hlast]

theorem toLower_eq_hyphen {c : Char} : c.toLower = '-' ↔ c = '-' := by
  rcases toLower_cases c with heq | ⟨⟨hupper, -⟩, hlower, -⟩
  · rw [heq]
  · refine ⟨fun h => ?_, fun h => ?_⟩
    · exact absurd (h ▸ hlower) (by decide)
    · exact absurd (h ▸ hupper) (by decide)

/-! ## Declarations -/

theorem startsAsName_asciiLower (name : List Char) : startsAsName (Text.asciiLower name) = startsAsName name := by
  unfold Text.asciiLower
  match name with
  | [] => rfl
  | [c] =>
    have hhyphen : (c.toLower != '-') = (c != '-') := by
      rw [Bool.eq_iff_iff, bne_iff_ne, bne_iff_ne, ne_eq, ne_eq, toLower_eq_hyphen]
    simp [startsAsName, isAsciiDigit_toLower, hhyphen]
  | c :: d :: cs =>
    by_cases hhyphen : c = '-'
    · subst hhyphen
      exact congrArg (!·) (isAsciiDigit_toLower d)
    · have hlower := mt toLower_eq_hyphen.1 hhyphen
      simp [startsAsName, isAsciiDigit_toLower, hhyphen, hlower]

theorem asciiLower_asciiLower (name : List Char) : Text.asciiLower (Text.asciiLower name) = Text.asciiLower name := by
  simp [Text.asciiLower]

theorem skipSpace_skipSpace (cs : List Char) : skipSpace (skipSpace cs) = skipSpace cs := by
  fun_induction skipSpace cs with
  | case1 => rw [skipSpace]
  | case2 r ih => exact ih
  | case3 c r _ hspace ih => exact ih
  | case4 c r hcomment hspace =>
    rw [skipSpace, if_neg hspace]
    exact hcomment

section

variable {text tail : List Char} {d : StyleDeclaration}

/-- A declaration is read from the characters of its name, a colon behind blanks, and its value behind blanks. -/
theorem exists_of_ofText? (h : ofText? text = some d) :
    ∃ name after rest, text = name ++ after ∧ (∀ c ∈ name, isNameChar c = true) ∧ startsAsName name = true ∧
      skipSpace after = ':' :: rest ∧ d = ⟨String.ofList (Text.asciiLower name), String.ofList (skipSpace rest)⟩ := by
  simp only [ofText?] at h
  split at h
  · cases h
  next hstarts =>
  split at h
  · next rest hcolon =>
    have hparts := List.prefix_iff_eq_append.1 (List.takeWhile_prefix isNameChar (l := text))
    exact ⟨_, _, rest, hparts.symm, fun c hc => List.mem_takeWhile_imp hc, by simpa using hstarts, hcolon,
      (Option.some.inj h).symm⟩
  · cases h

theorem toList_print (d : StyleDeclaration) : d.print.toList = d.property.toList ++ ':' :: d.value.toList := by
  simp [print, String.toList_append]

/-- What was read is read again from the text it is written in. -/
theorem ofText?_print (h : ofText? text = some d) : ofText? d.print.toList = some d := by
  obtain ⟨name, after, rest, -, hname, hstarts, -, rfl⟩ := exists_of_ofText? h
  have hcolon : skipSpace (':' :: skipSpace rest) = ':' :: skipSpace rest := by
    rw [skipSpace, if_neg (by decide)]
    exact fun r hslash => absurd hslash (by decide)
  have htake : (Text.asciiLower name ++ ':' :: skipSpace rest).takeWhile isNameChar = Text.asciiLower name := by
    refine Text.takeWhile_append_of_all ?_ fun c hc => Option.some.inj hc ▸ rfl
    intro c hc
    obtain ⟨b, hb, rfl⟩ := List.mem_map.1 hc
    exact isNameChar_toLower (hname b hb)
  simp only [toList_print, String.toList_ofList, ofText?, htake, startsAsName_asciiLower, hstarts, List.drop_left, hcolon,
    asciiLower_asciiLower, skipSpace_skipSpace]
  rfl

theorem CutsBefore.print (h : CutsBefore [] text tail) (htail : IsEnd tail) (hread : ofText? text = some d) :
    CutsBefore [] d.print.toList tail := by
  obtain ⟨name, after, rest, rfl, hname, -, hcolon, rfl⟩ := exists_of_ofText? hread
  have hafter := ((cutsBefore_append_iff fun c hc => not_special_of_isNameChar (hname c hc)).1 h).skipSpace htail
  rw [hcolon, cutsBefore_cons_iff (by decide)] at hafter
  rw [toList_print, String.toList_ofList, String.toList_ofList, cutsBefore_append_iff, cutsBefore_cons_iff (by decide)]
  · exact hafter.skipSpace htail
  · intro c hc
    obtain ⟨b, hb, rfl⟩ := List.mem_map.1 hc
    exact not_special_of_isNameChar (isNameChar_toLower (hname b hb))

/-- A declaration that has been read: it is read again from the text it is written in, up to the end. -/
structure IsWritten (d : StyleDeclaration) : Prop where
  reads : ofText? d.print.toList = some d
  ends : CutsBefore [] d.print.toList []

/-- The text of a declaration is cut before a semicolon. -/
def IsClosed (d : StyleDeclaration) : Prop :=
  ∀ rest, CutsBefore [] d.print.toList (';' :: rest)

/-! ## Lists of declarations -/

/-- A declaration at the front of a text is read. -/
theorem readAll_text (hread : ofText? text = some d) (hcuts : CutsBefore [] text tail) (fuel : Nat) :
    readAll (fuel + 1) (text ++ tail) = d :: readAll fuel tail := by
  obtain ⟨name, after, rest, htext, hname, hstarts, -, -⟩ := exists_of_ofText? hread
  cases name with
  | nil => cases hstarts
  | cons c name =>
    have hc := hname c List.mem_cons_self
    have hne : ∀ d : Char, isNameChar d = false → c ≠ d := by
      rintro d hd rfl
      simp [hc] at hd
    have hspace : isSpace c = false := by
      simp [isSpace, hne ' ' (by decide), hne '\t' (by decide), hne '\n' (by decide), hne '\r' (by decide),
        hne '\x0c' (by decide)]
    have hskip : skipSpace (c :: (name ++ after ++ tail)) = c :: (name ++ after ++ tail) := by
      rw [skipSpace, if_neg (by simp [hspace])]
      exact fun r hslash => absurd hslash (hne '/' (by decide))
    have hcut := hcuts _ (Nat.le_refl _)
    rw [htext, List.cons_append] at hcut hread ⊢
    rw [List.cons_append] at hcut ⊢
    rw [readAll, hskip]
    split
    · next heq => cases heq
    · next heq => exact absurd (List.cons.inj heq).1 (hne ';' (by decide))
    · next heq => exact absurd (List.cons.inj heq).1 (hne '\x7d' (by decide))
    · rw [hcut]
      simp [hread]

theorem isEnd_of_cutDeclaration {fuel : Nat} {brackets cs rest : List Char}
    (h : cutDeclaration fuel brackets cs = (text, rest)) : IsEnd rest := by
  induction fuel generalizing brackets cs text with
  | zero =>
    obtain ⟨rfl, rfl⟩ := Prod.mk.inj h
    exact fun _ hc => nomatch hc
  | succ fuel ih =>
    cases cs with
    | nil =>
      obtain ⟨rfl, rfl⟩ := Prod.mk.inj h
      exact fun _ hc => nomatch hc
    | cons c cs =>
      rw [cutDeclaration_succ] at h
      cases hpiece : piece? brackets c cs with
      | none =>
        rw [hpiece] at h
        obtain ⟨rfl, rfl⟩ := Prod.mk.inj h
        rintro d hd
        exact (Option.some.inj hd) ▸ (piece?_eq_none.1 hpiece).1
      | some found =>
        rw [hpiece] at h
        exact ih (Prod.ext rfl (Prod.mk.inj h).2)

theorem readAll_nil (fuel : Nat) : readAll fuel [] = [] := by
  cases fuel with
  | zero => rfl
  | succ fuel => rw [readAll, skipSpace]

theorem readAll_semicolon (fuel : Nat) (cs : List Char) : readAll (fuel + 1) (';' :: cs) = readAll fuel cs := by
  have hskip : skipSpace (';' :: cs) = ';' :: cs := by
    rw [skipSpace, if_neg (by decide)]
    exact fun r hslash => absurd hslash (by decide)
  simp only [readAll, hskip]

/-- What is read is written in a way that reads back, each declaration but the last before a semicolon. -/
theorem written_readAll (fuel : Nat) (cs : List Char) :
    (∀ d ∈ readAll fuel cs, d.IsWritten) ∧ (readAll fuel cs).Pairwise fun d _ => d.IsClosed := by
  induction fuel generalizing cs with
  | zero => exact ⟨fun _ h => (nomatch h), .nil⟩
  | succ fuel ih =>
    rw [readAll]
    split
    · exact ⟨fun _ h => (nomatch h), .nil⟩
    · exact ih _
    · exact ih _
    · obtain ⟨text, rest, hcut⟩ : ∃ text rest, cutDeclaration (skipSpace cs).length [] (skipSpace cs) = (text, rest) :=
        ⟨_, _, rfl⟩
      obtain ⟨hwritten, hclosed⟩ := ih rest
      rw [hcut]
      simp only
      cases hread : ofText? text with
      | none => exact ⟨hwritten, hclosed⟩
      | some d =>
        have hprint : ∀ tail, StartsAs tail rest → CutsBefore [] d.print.toList tail := fun tail htail =>
          (cutsBefore_of_cut hcut (Nat.le_refl _) htail).print (fun c hc => isEnd_of_cutDeclaration hcut c (htail c hc)) hread
        have hd : d.IsWritten := ⟨ofText?_print hread, hprint [] (fun _ hc => nomatch hc)⟩
        refine ⟨List.forall_mem_cons.2 ⟨hd, hwritten⟩, List.pairwise_cons.2 ⟨fun e he => ?_, hclosed⟩⟩
        cases rest with
        | nil =>
          rw [readAll_nil] at he
          cases he
        | cons c rest =>
          obtain rfl := isEnd_of_cutDeclaration hcut c rfl
          exact fun more => hprint (';' :: more) fun _ hc => hc

/-- Declarations are read from the text they are written in. -/
theorem readAll_intercalate {ds : List StyleDeclaration} (hwritten : ∀ d ∈ ds, d.IsWritten)
    (hclosed : ds.Pairwise fun d _ => d.IsClosed) {fuel : Nat}
    (hfuel : ([';'].intercalate (ds.map fun d => d.print.toList)).length < fuel) :
    readAll fuel ([';'].intercalate (ds.map fun d => d.print.toList)) = ds := by
  induction ds generalizing fuel with
  | nil => exact readAll_nil fuel
  | cons d ds ih =>
    obtain ⟨hd, hwritten⟩ := List.forall_mem_cons.1 hwritten
    obtain ⟨hfirst, hclosed⟩ := List.pairwise_cons.1 hclosed
    obtain ⟨fuel, rfl⟩ := Nat.exists_eq_add_one_of_ne_zero (Nat.ne_zero_of_lt hfuel)
    cases ds with
    | nil =>
      have hstep := readAll_text hd.reads hd.ends fuel
      simpa [readAll_nil] using hstep
    | cons e ds =>
      have hcuts := hfirst e List.mem_cons_self
      simp only [List.map_cons, List.intercalate_cons_cons] at hfuel ih ⊢
      rw [List.append_assoc, List.singleton_append] at hfuel ⊢
      have hlength : 0 < d.print.toList.length := by
        rw [toList_print, List.length_append, List.length_cons]
        omega
      rw [List.length_append, List.length_cons] at hfuel
      obtain ⟨fuel, rfl⟩ := Nat.exists_eq_add_one_of_ne_zero (show fuel ≠ 0 by omega)
      rw [readAll_text hd.reads (hcuts _), readAll_semicolon, ih hwritten hclosed (by omega)]

/-- The declarations of a style, with some of them left out, are those of the text they are written in. -/
theorem ofAttribute_filter (value : String) (p : StyleDeclaration → Bool) :
    ofAttribute (";".intercalate (((ofAttribute value).filter p).map print)) = (ofAttribute value).filter p := by
  obtain ⟨hwritten, hclosed⟩ := written_readAll (value.length + 1) value.toList
  rw [← ofAttribute] at hwritten hclosed
  have htext : (";".intercalate (((ofAttribute value).filter p).map print)).toList
      = [';'].intercalate (((ofAttribute value).filter p).map fun d => d.print.toList) := by
    rw [String.toList_intercalate, List.map_map]
    rfl
  have hread : ∀ text : String, ofAttribute text = readAll (text.length + 1) text.toList := fun _ => rfl
  rw [hread, htext]
  refine readAll_intercalate (fun d hd => hwritten d (List.mem_filter.1 hd).1) (hclosed.filter p) ?_
  rw [← htext, String.length_toList]
  exact Nat.lt_succ_self _

end

end Folio.Html.StyleDeclaration

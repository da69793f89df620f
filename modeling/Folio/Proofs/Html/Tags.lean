import Folio.Proofs.Html.Normal

set_option autoImplicit false

/-! # Tags read as they are written

A tag that is written is read as it is: its end is found (`findTagEnd_tag`), and its name and its attributes are
read with the values that they had (`startTagEvent?_tag`). -/

namespace Folio.Html

/-! ## Plain names -/

theorem char_le_iff (a c : Char) : a ≤ c ↔ a.toNat ≤ c.toNat :=
  Iff.rfl

section

variable {c : Char}

theorem toNat_of_isMarkupNameChar (h : isMarkupNameChar c = true) :
    c.toNat = 45 ∨ (48 ≤ c.toNat ∧ c.toNat ≤ 57) ∨ (97 ≤ c.toNat ∧ c.toNat ≤ 122) := by
  simp only [isMarkupNameChar, Text.isAsciiDigit, Bool.or_eq_true, Bool.and_eq_true, decide_eq_true_eq, beq_iff_eq,
    char_le_iff] at h
  rcases h with (h | h) | rfl
  · exact .inr (.inr h)
  · exact .inr (.inl h)
  · exact .inl rfl

theorem isBlank_of_isMarkupNameChar (h : isMarkupNameChar c = true) : Text.isBlank c = false := by
  have hc := toNat_of_isMarkupNameChar h
  simp only [Text.isBlank, Bool.or_eq_false_iff, Bool.and_eq_false_iff, decide_eq_false_iff_not, beq_eq_false_iff_ne]
  omega

theorem ne_of_isMarkupNameChar (h : isMarkupNameChar c = true) {d : Char}
    (hd : isMarkupNameChar d = false) : c ≠ d :=
  fun heq => by simp [heq, hd] at h

theorem isAttributeNameChar_of_isMarkupNameChar (h : isMarkupNameChar c = true) : isAttributeNameChar c = true := by
  have hslash : c ≠ '/' := ne_of_isMarkupNameChar h (by decide)
  have hequals : c ≠ '=' := ne_of_isMarkupNameChar h (by decide)
  have hend : c ≠ '>' := ne_of_isMarkupNameChar h (by decide)
  simp [isAttributeNameChar, isBlank_of_isMarkupNameChar h, hslash, hequals, hend]

theorem not_endsTagName_of_isMarkupNameChar (h : isMarkupNameChar c = true) : endsTagName c = false := by
  have hc := toNat_of_isMarkupNameChar h
  simp only [endsTagName, Bool.or_eq_false_iff, beq_eq_false_iff_ne]
  refine ⟨⟨⟨⟨⟨⟨⟨?_, ?_⟩, ?_⟩, ?_⟩, ?_⟩, ?_⟩, ?_⟩, ?_⟩ <;> exact ne_of_isMarkupNameChar h (by decide)

theorem isEndTagNameChar_of_isMarkupNameChar (h : isMarkupNameChar c = true) : isEndTagNameChar c = true := by
  simp only [isMarkupNameChar, Bool.or_eq_true] at h
  rcases h with (h | h) | h
  · simp [isEndTagNameChar, Text.isAsciiAlphanumeric, Text.isAsciiLetter, h]
  · simp [isEndTagNameChar, Text.isAsciiAlphanumeric, h]
  · simp [isEndTagNameChar, h]

theorem lowerChar_of_isMarkupNameChar (h : isMarkupNameChar c = true) (before after : List Char) :
    Text.lowerChar before c after = [c] := by
  have hc := toNat_of_isMarkupNameChar h
  have hlower : c.toLower = c := by
    unfold Char.toLower
    rw [dif_neg]
    rintro ⟨hfirst, hlast⟩
    have hfirst : 65 ≤ c.toNat := hfirst
    have hlast : c.toNat ≤ 90 := hlast
    omega
  rw [Text.lowerChar, if_pos (by omega), hlower]

end

/-- A plain name is a small letter and more characters of names. -/
theorem toList_of_isMarkupName {name : String} (h : isMarkupName name = true) :
    ∃ c cs, name.toList = c :: cs ∧ Text.isAsciiLetter c = true ∧ ∀ d ∈ c :: cs, isMarkupNameChar d = true := by
  unfold isMarkupName at h
  split at h
  · cases h
  · next c cs heq =>
    rw [Bool.and_eq_true] at h
    refine ⟨c, cs, heq, by simp [Text.isAsciiLetter, h.1], ?_⟩
    exact List.forall_mem_cons.2 ⟨by simp [isMarkupNameChar, h.1], List.all_eq_true.1 h.2⟩

theorem lowerAfter_of_isMarkupNameChar {cs : List Char} (h : ∀ c ∈ cs, isMarkupNameChar c = true) (before : List Char) :
    Text.lowerAfter before cs = cs := by
  induction cs generalizing before with
  | nil => rfl
  | cons c cs ih =>
    obtain ⟨hc, hcs⟩ := List.forall_mem_cons.1 h
    rw [Text.lowerAfter, lowerChar_of_isMarkupNameChar hc, ih hcs, List.singleton_append]

theorem lower_of_isMarkupName {name : String} (h : isMarkupName name = true) : Text.lower name = name := by
  obtain ⟨c, cs, heq, -, hchars⟩ := toList_of_isMarkupName h
  rw [Text.lower, heq, lowerAfter_of_isMarkupNameChar hchars, ← heq, String.ofList_toList]

/-- What was taken from a text, given what is left of it. -/
theorem take_length_sub {α : Type} (taken rest : List α) :
    (taken ++ rest).take ((taken ++ rest).length - rest.length) = taken := by
  simp

/-! ## Values -/

/-- A piece of a value stands for a character. -/
def ResolvesTo (piece : List Char) (c : Char) : Prop :=
  ∀ fuel rest, resolveReferencesAux (fuel + 1) (piece ++ rest) = c :: resolveReferencesAux fuel rest

theorem resolvesTo_self {c : Char} (h : c ≠ '&') : ResolvesTo [c] c := by
  intro fuel rest
  rw [List.singleton_append, resolveReferencesAux, if_neg h]

theorem length_le_flatMap {α : Type} {piece : α → List Char} (h : ∀ c, piece c ≠ []) (cs : List α) :
    cs.length ≤ (cs.flatMap piece).length := by
  induction cs with
  | nil => simp
  | cons c cs ih =>
    have hpiece := List.length_pos_iff.2 (h c)
    rw [List.flatMap_cons, List.length_append, List.length_cons]
    omega

/-- A value whose characters are spelt in pieces is read. -/
theorem resolveReferences_flatMap {piece : Char → List Char} (hpiece : ∀ c, piece c ≠ [])
    (h : ∀ c, ResolvesTo (piece c) c) (cs : List Char) : resolveReferences (cs.flatMap piece) = cs := by
  suffices hfuel : ∀ fuel, cs.length ≤ fuel → resolveReferencesAux fuel (cs.flatMap piece) = cs from
    hfuel _ (length_le_flatMap hpiece cs)
  induction cs with
  | nil => intro fuel _; cases fuel <;> rfl
  | cons c cs ih =>
    intro fuel hfuel
    obtain ⟨fuel, rfl⟩ := Nat.exists_eq_add_one_of_ne_zero (Nat.ne_zero_of_lt hfuel)
    rw [List.flatMap_cons, h c, ih fuel (Nat.le_of_succ_le_succ hfuel)]

/-- How a character is written in text. -/
def escapeChar : Char → List Char
  | '&' => "&amp;".toList
  | '<' => "&lt;".toList
  | '>' => "&gt;".toList
  | c => [c]

theorem toList_escapeText (s : String) : (escapeText s).toList = s.toList.flatMap escapeChar :=
  String.toList_ofList

/-- A character is named, or is none of those that are. -/
theorem escapeChar_cases (c : Char) :
    c = '&' ∧ escapeChar c = "&amp;".toList ∨ c = '<' ∧ escapeChar c = "&lt;".toList ∨
      c = '>' ∧ escapeChar c = "&gt;".toList ∨ c ≠ '&' ∧ c ≠ '<' ∧ c ≠ '>' ∧ escapeChar c = [c] := by
  unfold escapeChar
  split
  · exact .inl ⟨rfl, rfl⟩
  · exact .inr (.inl ⟨rfl, rfl⟩)
  · exact .inr (.inr (.inl ⟨rfl, rfl⟩))
  · next hamp hlt hgt => exact .inr (.inr (.inr ⟨hamp, hlt, hgt, rfl⟩))

/-- How a character is written in a value between double quotes that also holds single ones. -/
def escapeQuoted (c : Char) : List Char :=
  if c = '"' then "&quot;".toList else escapeChar c

theorem resolvesTo_escapeChar (c : Char) : ResolvesTo (escapeChar c) c := by
  rcases escapeChar_cases c with ⟨rfl, heq⟩ | ⟨rfl, heq⟩ | ⟨rfl, heq⟩ | ⟨hamp, -, -, heq⟩
  · exact fun _ _ => rfl
  · exact fun _ _ => rfl
  · exact fun _ _ => rfl
  · exact heq ▸ resolvesTo_self hamp

theorem resolvesTo_escapeQuoted (c : Char) : ResolvesTo (escapeQuoted c) c := by
  unfold escapeQuoted
  split
  · next hquote =>
    subst hquote
    exact fun _ _ => rfl
  · exact resolvesTo_escapeChar c

theorem escapeChar_ne_nil (c : Char) : escapeChar c ≠ [] := by
  rcases escapeChar_cases c with ⟨-, heq⟩ | ⟨-, heq⟩ | ⟨-, heq⟩ | ⟨-, -, -, heq⟩ <;> simp [heq]

theorem escapeQuoted_ne_nil (c : Char) : escapeQuoted c ≠ [] := by
  unfold escapeQuoted
  split
  · decide
  · exact escapeChar_ne_nil c

theorem flatMap_quote_escapeChar (c : Char) :
    (escapeChar c).flatMap (fun d => if d = '"' then "&quot;".toList else [d]) = escapeQuoted c := by
  unfold escapeQuoted
  rcases escapeChar_cases c with ⟨rfl, heq⟩ | ⟨rfl, heq⟩ | ⟨rfl, heq⟩ | ⟨-, -, -, heq⟩
  · rfl
  · rfl
  · rfl
  · rw [heq, List.flatMap_singleton]

theorem not_mem_escapeQuoted (c : Char) : '"' ∉ escapeQuoted c := by
  unfold escapeQuoted
  split
  · decide
  · next hquote =>
    rcases escapeChar_cases c with ⟨-, heq⟩ | ⟨-, heq⟩ | ⟨-, heq⟩ | ⟨-, -, -, heq⟩ <;> rw [heq]
    · decide
    · decide
    · decide
    · simpa using Ne.symm hquote

/-- A way of writing values: between two marks, as a text without them that reads as the value. -/
def Quotes (quote : String → List Char) : Prop :=
  ∀ value, ∃ mark inner, quote value = mark :: (inner ++ [mark]) ∧ (mark = '"' ∨ mark = '\'') ∧ mark ∉ inner ∧
    resolveReferences inner = value.toList

/-- A value in the quotes that a forest is written with. -/
def printedValue (value : String) : List Char :=
  (quoteValue value).toList

theorem quotes_printedValue : Quotes printedValue := by
  intro value
  have hescaped := resolveReferences_flatMap escapeChar_ne_nil resolvesTo_escapeChar value.toList
  simp only [printedValue, quoteValue, toList_escapeText]
  split
  · split
    · refine ⟨'"', value.toList.flatMap escapeQuoted, ?_, .inl rfl, ?_, ?_⟩
      · simp only [String.toList_append, String.toList_ofList, List.flatMap_assoc, flatMap_quote_escapeChar]
        rfl
      · simpa using fun c _ => not_mem_escapeQuoted c
      · exact resolveReferences_flatMap escapeQuoted_ne_nil resolvesTo_escapeQuoted _
    · next hsingle =>
      exact ⟨'\'', _, by simp [String.toList_append], .inr rfl, by simpa using hsingle, hescaped⟩
  · next hdouble =>
    exact ⟨'"', _, by simp [String.toList_append], .inl rfl, by simpa using hdouble, hescaped⟩

/-! ## One attribute -/

/-- An attribute as it is written, with the space before it and its value in some quotes. -/
def attributeText (quote : String → List Char) (a : String × String) : List Char :=
  ' ' :: (a.1.toList ++ '=' :: quote a.2)

theorem toList_printAttributes (attributes : List (String × String)) :
    (printAttributes attributes).toList = (arrangeAttributes attributes).flatMap (attributeText printedValue) := by
  rw [printAttributes, String.toList_join, List.flatMap_map]
  congr 1
  funext a
  simp [attributeText, printedValue, String.toList_append]

theorem readValue?_quoted {mark : Char} (hmark : mark = '"' ∨ mark = '\'') {inner : List Char} (h : mark ∉ inner)
    (rest : List Char) : readValue? (mark :: (inner ++ mark :: rest)) = some (mark :: (inner ++ [mark]), rest) := by
  rcases hmark with rfl | rfl <;> simp [readValue?, Text.cutBefore?_append_of_not_mem h]

theorem readAssignment?_quoted {mark : Char} (hmark : mark = '"' ∨ mark = '\'') {inner : List Char} (h : mark ∉ inner)
    (rest : List Char) :
    readAssignment? ('=' :: mark :: (inner ++ mark :: rest)) = some (mark :: (inner ++ [mark]), rest) := by
  have hblanks : ∀ cs, Text.skipBlanks ('=' :: cs) = '=' :: cs := fun cs =>
    List.dropWhile_cons_of_neg (by decide)
  have hstart : ∀ cs, Text.skipBlanks (mark :: cs) = mark :: cs := fun cs =>
    List.dropWhile_cons_of_neg (by rcases hmark with rfl | rfl <;> decide)
  have hsigns : ∀ cs, ('=' :: mark :: cs).takeWhile (· == '=') = ['='] := fun cs => by
    rcases hmark with rfl | rfl <;> rfl
  simp [readAssignment?, hblanks, hsigns, hstart, readValue?_quoted hmark h]

/-- An attribute is read as it is written. -/
theorem readAttribute?_attribute {name : String} (hname : isMarkupName name = true) {before mark : Char}
    (hbefore : mayPrecedeAttribute before = true) (hmark : mark = '"' ∨ mark = '\'') {inner : List Char}
    (h : mark ∉ inner) (rest : List Char) :
    readAttribute? before (name.toList ++ '=' :: mark :: (inner ++ mark :: rest))
      = some (⟨name.toList, some (mark :: (inner ++ [mark]))⟩, mark, rest) := by
  obtain ⟨c, cs, hcs, -, hchars⟩ := toList_of_isMarkupName hname
  obtain ⟨hc, hrest⟩ := List.forall_mem_cons.1 hchars
  have htake : (cs ++ '=' :: mark :: (inner ++ mark :: rest)).takeWhile isAttributeNameChar = cs :=
    Text.takeWhile_append_of_all (fun d hd => isAttributeNameChar_of_isMarkupNameChar (hrest d hd)) (by simp [isAttributeNameChar])
  have hslash : c ≠ '/' := ne_of_isMarkupNameChar hc (by decide)
  have hend : c ≠ '>' := ne_of_isMarkupNameChar hc (by decide)
  have hdrop : (c :: (cs ++ '=' :: mark :: (inner ++ mark :: rest))).drop (c :: cs).length
      = '=' :: mark :: (inner ++ mark :: rest) := List.drop_left
  have htaken : ('=' :: mark :: (inner ++ mark :: rest)).take
      (('=' :: mark :: (inner ++ mark :: rest)).length - rest.length) = '=' :: mark :: (inner ++ [mark]) := by
    simpa using take_length_sub ('=' :: mark :: (inner ++ [mark])) rest
  rw [hcs, List.cons_append, readAttribute?, if_neg (by simp [hbefore, isBlank_of_isMarkupNameChar hc, hslash, hend])]
  have hlast : lastOr before ('=' :: mark :: (inner ++ [mark])) = mark := by
    rw [lastOr, ← List.cons_append, ← List.cons_append, List.getLast?_concat, Option.getD_some]
  simp only [htake, hdrop, readAssignment?_quoted hmark h, htaken, hlast]

/-! ## All attributes -/

/-- How the text after a tag's attributes starts: with the end of the tag. -/
inductive EndsTag : List Char → Prop where
  | plain {rest : List Char} : EndsTag ('>' :: rest)
  | empty {rest : List Char} : EndsTag ('/' :: '>' :: rest)

section

variable {rest : List Char}

theorem EndsTag.skipBetween (h : EndsTag rest) (before : Char) : skipBetween before rest = (before, rest) := by
  cases h <;> rfl

theorem EndsTag.readAttribute? (h : EndsTag rest) (before : Char) : readAttribute? before rest = none := by
  cases h <;> simp [Html.readAttribute?]

end

/-- Blanks that are skipped before may be skipped with what is skipped between attributes. -/
theorem skipBetween_skipBlanksAfter (before : Char) (cs : List Char) :
    skipBetween (skipBlanksAfter before cs).1 (skipBlanksAfter before cs).2 = skipBetween before cs := by
  induction cs generalizing before with
  | nil => rfl
  | cons c cs ih =>
    rw [skipBlanksAfter]
    split
    · next hblank =>
      rw [ih, skipBetween, if_pos hblank]
    · rfl

theorem skipBetween_name {name : String} (hname : isMarkupName name = true) (before : Char) (rest : List Char) :
    skipBetween before (name.toList ++ rest) = (before, name.toList ++ rest) := by
  obtain ⟨c, cs, hcs, -, hchars⟩ := toList_of_isMarkupName hname
  have hc := hchars c List.mem_cons_self
  have hslash : c ≠ '/' := ne_of_isMarkupNameChar hc (by decide)
  rw [hcs, List.cons_append, skipBetween, if_neg (by simp [isBlank_of_isMarkupNameChar hc]), if_neg (by simp [hslash])]

theorem skipBetween_attributeText {quote : String → List Char} {a : String × String} (hname : isMarkupName a.1 = true)
    (before : Char) (rest : List Char) : skipBetween before (attributeText quote a ++ rest)
      = (' ', a.1.toList ++ '=' :: (quote a.2 ++ rest)) := by
  rw [attributeText, List.cons_append, skipBetween, if_pos (by decide), List.append_assoc, List.cons_append,
    skipBetween_name hname]

theorem unquoteValue_quoted {mark : Char} (hmark : mark = '"' ∨ mark = '\'') (inner : List Char) :
    unquoteValue (mark :: (inner ++ [mark])) = inner := by
  have hlast : (mark :: (inner ++ [mark])).getLast? = some mark := by
    rw [← List.cons_append, List.getLast?_concat]
  rcases hmark with rfl | rfl <;> simp [unquoteValue, hlast]

section

variable {quote : String → List Char} {attributes : List (String × String)} {rest : List Char}

/-- The attributes of a tag are skipped. -/
theorem skipAttributes_attributes (hquotes : Quotes quote)
    (hnames : ∀ a ∈ attributes, isMarkupName a.1 = true) (hrest : EndsTag rest)
    {fuel : Nat} (hfuel : attributes.length ≤ fuel) (before : Char) :
    ∃ last, skipAttributes fuel (skipBetween before (attributes.flatMap (attributeText quote) ++ rest)).1
      (skipBetween before (attributes.flatMap (attributeText quote) ++ rest)).2 = (last, rest) := by
  induction attributes generalizing fuel before with
  | nil =>
    refine ⟨before, ?_⟩
    rw [List.flatMap_nil, List.nil_append, hrest.skipBetween]
    cases fuel with
    | zero => rfl
    | succ fuel => rw [skipAttributes, hrest.readAttribute?]
  | cons a attributes ih =>
    obtain ⟨ha, hnames⟩ := List.forall_mem_cons.1 hnames
    obtain ⟨fuel, rfl⟩ := Nat.exists_eq_add_one_of_ne_zero (Nat.ne_zero_of_lt hfuel)
    obtain ⟨mark, inner, hquote, hmark, hinner, -⟩ := hquotes a.2
    have hspace : mayPrecedeAttribute ' ' = true := by decide
    obtain ⟨last, hlast⟩ := ih hnames (Nat.le_of_succ_le_succ hfuel) mark
    refine ⟨last, ?_⟩
    rw [List.flatMap_cons, List.append_assoc, skipBetween_attributeText ha, hquote, List.cons_append, List.append_assoc,
      List.singleton_append, skipAttributes, readAttribute?_attribute ha hspace hmark hinner]
    simp only [Option.isSome_some, if_true]
    rw [skipBetween_skipBlanksAfter]
    exact hlast

/-- The attributes of a tag are read as they are written. -/
theorem readAttributes_attributes (hquotes : Quotes quote)
    (hnames : ∀ a ∈ attributes, isMarkupName a.1 = true) (hrest : EndsTag rest)
    {fuel : Nat} (hfuel : attributes.length ≤ fuel) (before : Char) :
    readAttributes fuel (skipBetween before (attributes.flatMap (attributeText quote) ++ rest)).1
      (skipBetween before (attributes.flatMap (attributeText quote) ++ rest)).2 = (attributes, rest) := by
  induction attributes generalizing fuel before with
  | nil =>
    rw [List.flatMap_nil, List.nil_append, hrest.skipBetween]
    cases fuel with
    | zero => rfl
    | succ fuel => rw [readAttributes, hrest.readAttribute?]
  | cons a attributes ih =>
    obtain ⟨ha, hnames⟩ := List.forall_mem_cons.1 hnames
    obtain ⟨fuel, rfl⟩ := Nat.exists_eq_add_one_of_ne_zero (Nat.ne_zero_of_lt hfuel)
    obtain ⟨mark, inner, hquote, hmark, hinner, hvalue⟩ := hquotes a.2
    have hspace : mayPrecedeAttribute ' ' = true := by decide
    have hread := ih hnames (Nat.le_of_succ_le_succ hfuel) mark
    rw [List.flatMap_cons, List.append_assoc, skipBetween_attributeText ha, hquote, List.cons_append, List.append_assoc,
      List.singleton_append, readAttributes, readAttribute?_attribute ha hspace hmark hinner]
    simp only [hread, Option.map_some, Option.getD_some, unquoteValue_quoted hmark, hvalue, String.ofList_toList,
      lower_of_isMarkupName ha]

end

/-! ## Start tags -/

section

variable {quote : String → List Char} {name : String} {attributes : List (String × String)}

/-- A start tag as it is written, without the `<`. -/
def startTagText (quote : String → List Char) (name : String) (attributes : List (String × String))
    (ending : List Char) : List Char :=
  name.toList ++ (attributes.flatMap (attributeText quote) ++ ending)

theorem takeWhile_startTagText (hname : isMarkupName name = true) {ending : List Char} (hending : EndsTag ending) :
    (startTagText quote name attributes ending).takeWhile (fun c => !endsTagName c) = name.toList := by
  obtain ⟨c, cs, hcs, -, hchars⟩ := toList_of_isMarkupName hname
  rw [startTagText, hcs]
  refine Text.takeWhile_append_of_all (fun d hd => by rw [not_endsTagName_of_isMarkupNameChar (hchars d hd)]; rfl) ?_
  intro d hd
  cases attributes with
  | nil =>
    cases hending <;>
    · obtain rfl := Option.some.inj hd
      rfl
  | cons a attributes =>
    obtain rfl := Option.some.inj hd
    rfl

theorem drop_startTagText (ending : List Char) :
    (startTagText quote name attributes ending).drop name.toList.length = attributes.flatMap (attributeText quote) ++ ending :=
  List.drop_left

theorem skipBlanksAndSlashes_attributeText {a : String × String} (hname : isMarkupName a.1 = true) (before : Char)
    (rest : List Char) : skipBlanksAndSlashes before (attributeText quote a ++ rest)
      = skipBetween before (attributeText quote a ++ rest) := by
  obtain ⟨c, cs, hcs, -, hchars⟩ := toList_of_isMarkupName hname
  have hc := hchars c List.mem_cons_self
  have hslash : c ≠ '/' := ne_of_isMarkupNameChar hc (by decide)
  rw [skipBetween_attributeText hname, attributeText, List.cons_append, skipBlanksAndSlashes, if_pos (by decide),
    hcs, List.cons_append, List.cons_append, skipBlanksAndSlashes,
    if_neg (by simp [isBlank_of_isMarkupNameChar hc, hslash])]
  simp

theorem length_le_skipBetween (quote : String → List Char) (hnames : ∀ a ∈ attributes, isMarkupName a.1 = true) (before : Char)
    (rest : List Char) :
    attributes.length ≤ (skipBetween before (attributes.flatMap (attributeText quote) ++ rest)).2.length := by
  cases attributes with
  | nil => simp
  | cons a attributes =>
    have hlength := length_le_flatMap (fun a => show attributeText quote a ≠ [] from nofun) attributes
    rw [List.flatMap_cons, List.append_assoc, skipBetween_attributeText (hnames a List.mem_cons_self)]
    simp only [List.length_cons, List.length_append]
    omega

/-- How a start tag ends. -/
def tagEnding (selfClosing : Bool) : List Char :=
  if selfClosing then ['/', '>'] else ['>']

theorem endsTag_tagEnding (selfClosing : Bool) (rest : List Char) : EndsTag (tagEnding selfClosing ++ rest) := by
  cases selfClosing with
  | false => exact .plain
  | true => exact .empty

theorem skipAttributes_of_endsTag {rest : List Char} (h : EndsTag rest) (fuel : Nat) (before : Char) :
    skipAttributes fuel before rest = (before, rest) := by
  cases fuel with
  | zero => rfl
  | succ fuel => rw [skipAttributes, h.readAttribute?]

/-- The end of a tag is found. -/
theorem findTagEnd_tag (hquotes : Quotes quote) (hname : isMarkupName name = true) (hnames : ∀ a ∈ attributes, isMarkupName a.1 = true)
    (selfClosing : Bool) (rest : List Char) :
    findTagEnd (startTagText quote name attributes (tagEnding selfClosing ++ rest)) = .at rest := by
  have hending := endsTag_tagEnding selfClosing rest
  rw [findTagEnd]
  simp only [takeWhile_startTagText hname hending, drop_startTagText]
  cases attributes with
  | nil =>
    -- the slash of an empty element is skipped
    rw [List.flatMap_nil, List.nil_append]
    generalize lastOr '<' name.toList = before
    have hskip : ∃ last, skipBlanksAndSlashes before (tagEnding selfClosing ++ rest) = (last, '>' :: rest) := by
      cases selfClosing with
      | false => exact ⟨before, rfl⟩
      | true => exact ⟨'/', rfl⟩
    obtain ⟨last, hskip⟩ := hskip
    rw [hskip, skipAttributes_of_endsTag .plain]
    rfl
  | cons a attributes =>
    have hlength := length_le_skipBetween quote hnames (lastOr '<' name.toList) (tagEnding selfClosing ++ rest)
    obtain ⟨last, hlast⟩ := skipAttributes_attributes hquotes hnames hending hlength (lastOr '<' name.toList)
    rw [List.flatMap_cons, List.append_assoc] at hlast ⊢
    rw [skipBlanksAndSlashes_attributeText (hnames a List.mem_cons_self), hlast]
    cases selfClosing <;> rfl

/-- A tag says what was written in it. -/
theorem startTagEvent?_tag (hquotes : Quotes quote) (hname : isMarkupName name = true) (hnames : ∀ a ∈ attributes, isMarkupName a.1 = true)
    (selfClosing : Bool) : startTagEvent? (startTagText quote name attributes (tagEnding selfClosing))
      = some (.startTag name attributes selfClosing) := by
  have hending := endsTag_tagEnding selfClosing []
  rw [List.append_nil] at hending
  have hlength := length_le_skipBetween quote hnames (lastOr '<' name.toList) (tagEnding selfClosing)
  rw [startTagEvent?]
  simp only [takeWhile_startTagText hname hending, drop_startTagText,
    readAttributes_attributes hquotes hnames hending hlength, String.ofList_toList, lower_of_isMarkupName hname]
  cases selfClosing <;> rfl

end

end Folio.Html

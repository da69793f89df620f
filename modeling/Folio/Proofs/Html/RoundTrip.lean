import Folio.Proofs.Html.Tags

set_option autoImplicit false

/-! # Normal forests are read as they are written

The text of a normal forest is read in one pass (`reads_printList`). The reader may part text where it likes, and the
tree does not show where (`Alike`), so what is read is the forest that was written (`readForest_print`). -/

namespace Folio.Html

/-! ## Events that build the same -/

/-- Events that go the same way from every tree under construction. -/
def Alike (events events' : List Event) : Prop :=
  ∀ c : Construction, events.foldl Construction.step c = events'.foldl Construction.step c

section

variable {events events' : List Event}

theorem Alike.buildForest (h : Alike events events') : buildForest events = buildForest events' :=
  congrArg Construction.finish (h {})

theorem Alike.trans {events'' : List Event} (h : Alike events events') (h' : Alike events' events'') :
    Alike events events'' :=
  fun c => (h c).trans (h' c)

theorem Alike.append_left (h : Alike events events') (before : List Event) :
    Alike (before ++ events) (before ++ events') := by
  intro c
  rw [List.foldl_append, List.foldl_append, h]

theorem alike_text_nil (events : List Event) : Alike (.text [] :: events) events := by
  intro c
  simp [Construction.step]

theorem alike_text_append (content more : List Char) (events : List Event) :
    Alike (.text content :: .text more :: events) (.text (content ++ more) :: events) := by
  intro c
  simp [Construction.step]

theorem alike_textEvents_cons (c : Char) (content : List Char) (events : List Event) :
    Alike (textEvents (c :: content) ++ events) (.text [c] :: (textEvents content ++ events)) := by
  intro d
  cases content <;> simp [textEvents, Construction.step]

end

/-! ## Reading a text -/

/-- A text is read in one pass, as events that build what the given ones build. -/
def Reads (cs : List Char) (events : List Event) : Prop :=
  ∀ fuel, cs.length ≤ fuel → ∃ found, runPass false fuel none cs = .ok ⟨found, none, []⟩ ∧ Alike found events

section

variable {cs : List Char} {events : List Event}

theorem reads_nil : Reads [] [] := by
  intro fuel _
  refine ⟨[], ?_, fun _ => rfl⟩
  cases fuel <;> rfl

theorem Reads.congr (h : Reads cs events) {events' : List Event} (halike : Alike events events') :
    Reads cs events' := by
  intro fuel hfuel
  obtain ⟨found, hrun, hfound⟩ := h fuel hfuel
  exact ⟨found, hrun, hfound.trans halike⟩

theorem textBeforeMarkup?_of_markup {first : Char} (hfirst : first = '&' ∨ first = '<') (after : List Char) :
    textBeforeMarkup? none (first :: after) = some ([], first :: after) := by
  rcases hfirst with rfl | rfl <;> rfl

theorem textBeforeMarkup?_cons {c : Char} (hamp : c ≠ '&') (hlt : c ≠ '<') {text markup : List Char}
    (h : textBeforeMarkup? none cs = some (text, markup)) :
    textBeforeMarkup? none (c :: cs) = some (c :: text, markup) := by
  simp only [textBeforeMarkup?, Option.some.injEq] at h ⊢
  rw [Text.cutBefore?, if_neg (by simp [hamp, hlt])]
  cases hcut : Text.cutBefore? (fun c => c == '&' || c == '<') cs with
  | none =>
    rw [hcut] at h
    obtain ⟨rfl, rfl⟩ := Prod.mk.inj h
    rfl
  | some found =>
    rw [hcut] at h
    obtain rfl := h
    rfl

/-- A piece of markup is read, and then what comes after it. -/
theorem Reads.found {first : Char} {after rest : List Char} {piece : List Event} (h : Reads rest events)
    (hfirst : first = '&' ∨ first = '<')
    (hstep : (if first = '<' then readMarkup none after else readTextReference false after) = .found piece none rest)
    (hrest : rest <:+ after) : Reads (first :: after) (piece ++ events) := by
  intro fuel hfuel
  obtain ⟨fuel, rfl⟩ := Nat.exists_eq_add_one_of_ne_zero (Nat.ne_zero_of_lt hfuel)
  obtain ⟨found, hrun, hfound⟩ := h fuel (Nat.le_trans hrest.length_le (Nat.le_of_succ_le_succ hfuel))
  refine ⟨piece ++ found, ?_, hfound.append_left piece⟩
  simp only [runPass, textBeforeMarkup?_of_markup hfirst, hstep, hrun]
  rfl

theorem Reads.markup {after rest : List Char} {piece : List Event} (h : Reads rest events)
    (hstep : readMarkup none after = .found piece none rest) (hrest : rest <:+ after) :
    Reads ('<' :: after) (piece ++ events) :=
  h.found (.inr rfl) ((if_pos rfl).trans hstep) hrest

theorem Reads.reference {after rest : List Char} {piece : List Event} (h : Reads rest events)
    (hstep : readTextReference false after = .found piece none rest) (hrest : rest <:+ after) :
    Reads ('&' :: after) (piece ++ events) :=
  h.found (.inl rfl) ((if_neg (by decide)).trans hstep) hrest

/-- A character that is no markup is taken with the text that stands at the front. -/
theorem runPass_cons {c : Char} (hamp : c ≠ '&') (hlt : c ≠ '<') {fuel : Nat} {found : List Event}
    (h : runPass false (fuel + 1) none cs = .ok ⟨found, none, []⟩) :
    ∃ found', runPass false (fuel + 1) none (c :: cs) = .ok ⟨found', none, []⟩ ∧ Alike found' (.text [c] :: found) := by
  cases cs with
  | nil =>
    obtain rfl : [] = found := congrArg Pass.events (Except.ok.inj h)
    refine ⟨[.text [c]], ?_, fun _ => rfl⟩
    simp [runPass, textBeforeMarkup?, Text.cutBefore?, hamp, hlt, textEvents]
  | cons d ds =>
    -- the same markup stops both texts, and what is found after it is the same
    rw [runPass] at h ⊢
    cases htext : textBeforeMarkup? none (d :: ds) with
    | none => simp [textBeforeMarkup?] at htext
    | some cut =>
      obtain ⟨text, markup⟩ := cut
      rw [textBeforeMarkup?_cons hamp hlt htext]
      rw [htext] at h
      cases markup with
      | nil =>
        obtain rfl : textEvents text = found := congrArg Pass.events (Except.ok.inj h)
        refine ⟨_, rfl, ?_⟩
        simpa using alike_textEvents_cons c text []
      | cons first after =>
        simp only at h ⊢
        cases hstep : (if first = '<' then readMarkup none after else readTextReference false after) with
        | found piece rawText rest =>
          simp only [hstep] at h ⊢
          cases hinner : runPass false fuel rawText rest with
          | error cause => simp [hinner, Except.map] at h
          | ok p =>
            simp only [hinner, Except.map, Pass.prepend, Except.ok.injEq, Pass.mk.injEq] at h
            obtain ⟨rfl, hraw, hrest⟩ := h
            refine ⟨textEvents (c :: text) ++ piece ++ p.events, ?_, ?_⟩
            · simp only [Except.map, Pass.prepend, hraw, hrest]
            · simpa using alike_textEvents_cons c text (piece ++ p.events)
        | pause piece rest =>
          simp only [hstep, Except.ok.injEq, Pass.mk.injEq] at h
          obtain ⟨rfl, -, rfl⟩ := h
          exact ⟨_, rfl, alike_textEvents_cons c text piece⟩
        | refused cause => simp [hstep] at h
        | unfinished => simp [hstep] at h

/-- A character that is no markup is read as it stands. -/
theorem Reads.plain {c : Char} (hamp : c ≠ '&') (hlt : c ≠ '<') (h : Reads cs events) :
    Reads (c :: cs) (.text [c] :: events) := by
  intro fuel hfuel
  obtain ⟨fuel, rfl⟩ := Nat.exists_eq_add_one_of_ne_zero (Nat.ne_zero_of_lt hfuel)
  obtain ⟨found, hrun, hfound⟩ := h (fuel + 1) (Nat.le_of_succ_le hfuel)
  obtain ⟨found', hrun', halike⟩ := runPass_cons hamp hlt hrun
  exact ⟨found', hrun', halike.trans (hfound.append_left [.text [c]])⟩

/-- A piece of text is read as a character. -/
def IsReadAs (piece : List Char) (c : Char) : Prop :=
  ∀ {cs : List Char} {events : List Event}, Reads cs events → Reads (piece ++ cs) (.text [c] :: events)

theorem isReadAs_self {c : Char} (hamp : c ≠ '&') (hlt : c ≠ '<') : IsReadAs [c] c :=
  fun h => h.plain hamp hlt

/-- A reference is read as a character if it is one for it, whatever follows. -/
theorem isReadAs_reference (name : List Char) {c : Char}
    (h : ∀ cs, readTextReference false (name ++ cs) = .found [.text [c]] none cs) : IsReadAs ('&' :: name) c :=
  fun hrest => hrest.reference (h _) (List.suffix_append _ _)

theorem isReadAs_amp : IsReadAs "&amp;".toList '&' :=
  isReadAs_reference "amp;".toList fun _ => rfl

theorem isReadAs_lt : IsReadAs "&lt;".toList '<' :=
  isReadAs_reference "lt;".toList fun _ => rfl

theorem isReadAs_gt : IsReadAs "&gt;".toList '>' :=
  isReadAs_reference "gt;".toList fun _ => rfl

/-- A character is read as it is written in text. -/
theorem isReadAs_escapeChar (c : Char) : IsReadAs (escapeChar c) c := by
  rcases escapeChar_cases c with ⟨rfl, heq⟩ | ⟨rfl, heq⟩ | ⟨rfl, heq⟩ | ⟨hamp, hlt, -, heq⟩ <;> rw [heq]
  · exact isReadAs_amp
  · exact isReadAs_lt
  · exact isReadAs_gt
  · exact isReadAs_self hamp hlt

/-- A text whose characters are written in pieces is read. -/
theorem Reads.flatMap {piece : Char → List Char} (hpiece : ∀ c, IsReadAs (piece c) c) (content : List Char)
    (h : Reads cs events) : Reads (content.flatMap piece ++ cs) (.text content :: events) := by
  induction content with
  | nil => exact h.congr fun c => (alike_text_nil events c).symm
  | cons c content ih =>
    rw [List.flatMap_cons, List.append_assoc]
    exact (hpiece c ih).congr (alike_text_append [c] content events)

end

/-! ## Reading a forest -/

section

variable {quote : String → List Char} {name : String} {attributes : List (String × String)} {rest : List Char}
  {events : List Event}

theorem isRawTextElement_of_plain (h : hidesText name = false) : isRawTextElement name = false := by
  simp only [hidesText, List.contains_cons, List.contains_nil, Bool.or_eq_false_iff] at h
  simp [isRawTextElement, h]

/-- A start tag is read as it is written. -/
theorem Reads.startTag (hquotes : Quotes quote) (hname : isMarkupName name = true)
    (hnames : ∀ a ∈ attributes, isMarkupName a.1 = true) (hplain : hidesText name = false) (selfClosing : Bool)
    (h : Reads rest events) : Reads ('<' :: startTagText quote name attributes (tagEnding selfClosing ++ rest))
      (.startTag name attributes selfClosing :: events) := by
  obtain ⟨c, cs, hcs, hletter, -⟩ := toList_of_isMarkupName hname
  have hwhole : startTagText quote name attributes (tagEnding selfClosing ++ rest)
      = startTagText quote name attributes (tagEnding selfClosing) ++ rest := by
    simp [startTagText]
  have hread : readStartTag (startTagText quote name attributes (tagEnding selfClosing ++ rest))
      = .found [.startTag name attributes selfClosing] none rest := by
    rw [readStartTag, findTagEnd_tag hquotes hname hnames]
    simp only
    rw [hwhole, take_length_sub, startTagEvent?_tag hquotes hname hnames]
    simp [isRawTextElement_of_plain hplain]
  have hmarkup : readMarkup none (startTagText quote name attributes (tagEnding selfClosing ++ rest))
      = .found [.startTag name attributes selfClosing] none rest := by
    rw [← hread, startTagText, hcs, List.cons_append, readMarkup, if_pos hletter]
    all_goals
      rintro rfl
      exact absurd hletter (by decide)
  exact h.markup hmarkup ⟨_, hwhole.symm⟩

/-- The start tag of a normal element is read as it is printed. -/
theorem Reads.printedTag (htag : IsTag name attributes) (selfClosing : Bool) (h : Reads rest events) :
    Reads ('<' :: startTagText printedValue name (arrangeAttributes attributes) (tagEnding selfClosing ++ rest))
      (.startTag name (arrangeAttributes attributes) selfClosing :: events) :=
  h.startTag quotes_printedValue htag.named htag.arrange.names htag.plain selfClosing

/-- An end tag is read as it is written. -/
theorem Reads.endTag (hname : isMarkupName name = true) (h : Reads rest events) :
    Reads ('<' :: '/' :: (name.toList ++ '>' :: rest)) (.endTag name :: events) := by
  obtain ⟨c, cs, hcs, hletter, hchars⟩ := toList_of_isMarkupName hname
  obtain ⟨hc, hrest⟩ := List.forall_mem_cons.1 hchars
  have hcut : Text.cutBefore? (· == '>') (c :: cs ++ '>' :: rest) = some (c :: cs, '>' :: rest) :=
    Text.cutBefore?_append_of_not_mem (fun hmem => ne_of_isMarkupNameChar (hchars _ hmem) (by decide) rfl) rest
  have hblanks : Text.skipBlanks (c :: cs ++ '>' :: rest) = c :: (cs ++ '>' :: rest) :=
    List.dropWhile_cons_of_neg (by simp [isBlank_of_isMarkupNameChar hc])
  have htake : (cs ++ '>' :: rest).takeWhile isEndTagNameChar = cs :=
    Text.takeWhile_append_of_all (fun d hd => isEndTagNameChar_of_isMarkupNameChar (hrest d hd)) fun d hd => by
      obtain rfl : '>' = d := Option.some.inj hd
      decide
  have hdrop : (c :: (cs ++ '>' :: rest)).drop (c :: cs).length = '>' :: rest := List.drop_left
  have hend : Text.skipBlanks ('>' :: rest) = '>' :: rest := List.dropWhile_cons_of_neg (by decide)
  have hplain : plainEndTag? (c :: cs ++ '>' :: rest) = some (c :: cs, rest) := by
    simp only [plainEndTag?, hblanks, hletter, htake, hdrop, hend]
    rfl
  have hread : readEndTag none (name.toList ++ '>' :: rest) = .found [.endTag name] none rest := by
    rw [hcs, readEndTag, hcut, hplain, ← hcs]
    simp only [String.ofList_toList, lower_of_isMarkupName hname]
  have hmarkup : readMarkup none ('/' :: (name.toList ++ '>' :: rest)) = .found [.endTag name] none rest := hread
  exact h.markup hmarkup ⟨'/' :: (name.toList ++ ['>']), by simp⟩

theorem toList_print_empty (h : isVoidElement name = true) : (Node.print false (.element name attributes [])).toList
    = '<' :: startTagText printedValue name (arrangeAttributes attributes) (tagEnding true) := by
  simp [Node.print, h, startTagText, tagEnding, String.toList_append, toList_printAttributes]

theorem toList_print_element (hplain : hidesText name = false) (h : isVoidElement name = false) (children : Forest) :
    (Node.print false (.element name attributes children)).toList
      = '<' :: startTagText printedValue name (arrangeAttributes attributes) (tagEnding false ++
        ((printList false children).toList ++ '<' :: '/' :: (name.toList ++ ['>']))) := by
  simp [Node.print, h, startTagText, tagEnding, String.toList_append, toList_printAttributes,
    isRawTextElement_of_plain hplain]

end

mutual

/-- A node is read as it is written. -/
theorem reads_print {kept : Bool} {rest : List Char} {events : List Event} (h : Reads rest events) :
    ∀ {node : Node}, node.IsNormal kept → Reads ((node.print false).toList ++ rest) (node.events ++ events)
  | .element name attributes children, ⟨htag, hempty, hchildren⟩ => by
    rw [Node.events]
    cases hvoid : isVoidElement name with
    | true =>
      obtain rfl := hempty hvoid
      rw [toList_print_empty hvoid]
      simpa [startTagText] using h.printedTag htag true
    | false =>
      rw [toList_print_element htag.plain hvoid]
      have hinner := reads_printList (Reads.endTag htag.named h) hchildren
      simpa [startTagText] using hinner.printedTag htag false
  | .text content plain, _ => by
    rw [Node.print, if_neg (by simp), toList_escapeText]
    exact h.flatMap isReadAs_escapeChar content.toList

/-- A list of nodes is read as it is written. -/
theorem reads_printList {kept : Bool} {rest : List Char} {events : List Event} (h : Reads rest events) :
    ∀ {f : Forest}, IsNormalList kept f → Reads ((printList false f).toList ++ rest) (eventsList f ++ events)
  | [], _ => h
  | node :: nodes, ⟨hnode, _, hnodes⟩ => by
    rw [printList, eventsList, String.toList_append, List.append_assoc, List.append_assoc]
    exact reads_print (reads_printList h hnodes) hnode

end

/-- A text that is read in one pass has the tree of its events. -/
theorem Reads.readForest {text : String} {events : List Event} (h : Reads text.toList events) :
    readForest text = .ok (buildForest events) := by
  obtain ⟨found, hrun, halike⟩ := h _ (Nat.le_refl _)
  have hevents : readEvents text.toList = .ok found := by
    simp [readEvents, hrun, runPass, textEvents, bind, Except.bind, pure, Except.pure]
  rw [Html.readForest, hevents, Except.map, halike.buildForest]

/-- A normal forest is read as it is written, with the attributes of each element in order. -/
theorem readForest_print {f : Forest} (hf : IsNormalList false f) : readForest (print f) = .ok (arrangeList f) := by
  have hreads := reads_printList reads_nil hf
  rw [List.append_nil, List.append_nil] at hreads
  rw [print, hreads.readForest, buildForest_events hf]

end Folio.Html

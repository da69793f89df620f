import Folio.Html.AllowList
import Folio.Proofs.Html.Elements
import Folio.Proofs.Html.RoundTrip
import Folio.Proofs.Html.Styles
import Folio.Proofs.Value

set_option autoImplicit false

/-! # What an allow-list leaves of a document

The events that are kept of a document are well nested, whatever the document is (`builds_cleanNodes`), and the text
that is written of them reads back as these events (`readForest_cleanText`). So the allowed part of a document is a
normal forest of elements and attributes that are allowed (`isKept_clean`). -/

namespace Folio.Html

/-! ## Attributes that are no lists of words -/

theorem not_isWordListAttribute_of_isReferenceAttribute {name : String} (h : AllowList.isReferenceAttribute name = true)
    (element : String) : isWordListAttribute element name = false := by
  simp only [AllowList.isReferenceAttribute, Bool.or_eq_true, beq_iff_eq] at h
  unfold isWordListAttribute
  rcases h with rfl | rfl <;> split <;> rfl

theorem not_isWordListAttribute_style (element : String) : isWordListAttribute element "style" = false := by
  unfold isWordListAttribute
  split <;> rfl

theorem attributeValue_of_not_isWordListAttribute {element name : String} (h : isWordListAttribute element name = false)
    (value : String) : attributeValue element name value = value :=
  if_neg (by simp [h])

namespace AllowList

/-! ## Policies -/

/-- The names of all attributes that a policy permits for some element. -/
def attributeNames (policy : AllowList) : List String :=
  policy.anywhere ++ policy.attributes.flatMap (·.2) ++ policy.values.map (·.2.1)

/-- A policy whose names are plain, and which lets no element in whose text is not. -/
structure IsPlain (policy : AllowList) : Prop where
  elements : ∀ name ∈ policy.elements, isMarkupName name = true ∧ hidesText name = false ∧ name ≠ "meta"
  names : ∀ name ∈ policy.attributeNames, isMarkupName name = true
  values : ∀ v ∈ policy.values, v.2.1 ≠ "style" ∧ isWordListAttribute v.1 v.2.1 = false

theorem isPlain_standard : standard.IsPlain where
  elements := by decide
  names := by decide
  values := by decide

/-- An attribute that a policy allows for an element: with its value, which is checked if it is a reference, and with
    the properties that it sets if it is a style. -/
def Allows (policy : AllowList) (element : String) (a : String × String) : Prop :=
  policy.permits element a.1 a.2 = true ∧
  (a.1 = "style" → ∀ d ∈ StyleDeclaration.ofAttribute a.2, d.property ∈ policy.properties)

section

variable {policy : AllowList} {element : String} {a : String × String}

theorem Allows.permitsReference (h : policy.Allows element a) (href : isReferenceAttribute a.1 = true) :
    policy.permitsReference a.2 = true := by
  have hvalue := (Bool.and_eq_true_iff.1 h.1).2
  rwa [href, Bool.not_true, Bool.false_or] at hvalue

/-- A permitted attribute is permitted by its name, or by its name and value. -/
theorem permits_cases (h : policy.permits element a.1 a.2 = true) : policy.permitsName element a.1 = true ∨
    ∃ v ∈ policy.values, v.1 = element ∧ v.2.1 = a.1 := by
  refine (Bool.or_eq_true _ _ ▸ (Bool.and_eq_true_iff.1 h).1).imp_right fun hvalues => ?_
  obtain ⟨v, hv, hmatch⟩ := List.any_eq_true.1 hvalues
  simp only [Bool.and_eq_true, beq_iff_eq] at hmatch
  exact ⟨v, hv, hmatch.1.1, hmatch.1.2⟩

theorem mem_attributeNames (h : policy.permits element a.1 a.2 = true) : a.1 ∈ policy.attributeNames := by
  simp only [attributeNames, List.mem_append, List.mem_flatMap, List.mem_map]
  rcases permits_cases h with hname | ⟨v, hv, -, hname⟩
  · rcases Bool.or_eq_true_iff.1 hname with hanywhere | hattribute
    · exact .inl (.inl (List.contains_iff_mem.1 hanywhere))
    · cases hlookup : policy.attributes.lookup element with
      | none => simp [hlookup] at hattribute
      | some names =>
        rw [hlookup, Option.getD_some] at hattribute
        exact .inl (.inr ⟨_, mem_of_lookup_eq_some hlookup, List.contains_iff_mem.1 hattribute⟩)
  · exact .inr ⟨v, hv, hname⟩

/-- What is permitted by name alone is permitted with any value, unless it is a reference. -/
theorem permits_of_permitsName (hname : policy.permitsName element a.1 = true)
    (href : isReferenceAttribute a.1 = false) : policy.permits element a.1 a.2 = true := by
  simp [permits, hname, href]

/-- An attribute that a policy allows is still allowed with its value as the element holds it. -/
theorem Allows.attributeValue (hpolicy : policy.IsPlain) (h : policy.Allows element a) :
    policy.Allows element (a.1, Html.attributeValue element a.1 a.2) := by
  cases hwords : isWordListAttribute element a.1 with
  | false => rwa [attributeValue_of_not_isWordListAttribute hwords]
  | true =>
    have href : isReferenceAttribute a.1 = false := Bool.eq_false_iff.2 fun href => by
      simp [not_isWordListAttribute_of_isReferenceAttribute href] at hwords
    refine ⟨?_, fun hstyle => ?_⟩
    · rcases permits_cases h.1 with hname | ⟨v, hv, rfl, hname⟩
      · exact permits_of_permitsName (a := (a.1, _)) hname href
      · simp [← hname, (hpolicy.values v hv).2] at hwords
    · rw [show a.1 = "style" from hstyle, not_isWordListAttribute_style] at hwords
      cases hwords

/-! ## Attributes that are kept -/

/-- A style is kept with the properties that may be set. -/
theorem allows_cleanStyle (hpolicy : policy.IsPlain) {value : String} (h : policy.permits element "style" value = true) :
    policy.Allows element ("style", policy.cleanStyle value) := by
  refine ⟨?_, fun _ d hd => ?_⟩
  · rcases permits_cases (a := ("style", value)) h with hname | ⟨v, hv, -, hname⟩
    · exact permits_of_permitsName (a := ("style", policy.cleanStyle value)) hname rfl
    · exact absurd hname (hpolicy.values v hv).1
  · rw [cleanStyle, StyleDeclaration.ofAttribute_filter] at hd
    exact List.contains_iff_mem.1 (List.mem_filter.1 hd).2

theorem allows_of_mem_cleanAttributes (hpolicy : policy.IsPlain) {attributes : List (String × String)}
    (h : a ∈ policy.cleanAttributes element attributes) : policy.Allows element a := by
  obtain ⟨⟨name, value⟩, hmem, rfl⟩ := List.mem_map.1 h
  have hpermits : policy.permits element name value = true := (List.mem_filter.1 hmem).2
  by_cases hstyle : name = "style"
  · subst hstyle
    exact allows_cleanStyle hpolicy hpermits
  · simp only [if_neg hstyle]
    exact ⟨hpermits, fun h => absurd h hstyle⟩

/-- What is kept of a tag is held as it is written, and allowed. -/
theorem isTag_cleanAttributes (hpolicy : policy.IsPlain) (helement : element ∈ policy.elements)
    (attributes : List (String × String)) :
    IsTag element (elementAttributes element (policy.cleanAttributes element attributes)) :=
  have hplain := hpolicy.elements element helement
  isTag_elementAttributes hplain.1 hplain.2.1 hplain.2.2 fun _ ha =>
    hpolicy.names _ (mem_attributeNames (allows_of_mem_cleanAttributes hpolicy ha).1)

theorem allows_elementAttributes (hpolicy : policy.IsPlain) (helement : element ∈ policy.elements)
    {attributes : List (String × String)}
    (h : a ∈ elementAttributes element (policy.cleanAttributes element attributes)) : policy.Allows element a := by
  rw [elementAttributes_of_ne_meta (hpolicy.elements element helement).2.2] at h
  obtain ⟨b, hb, rfl⟩ := List.mem_map.1 h
  exact (allows_of_mem_cleanAttributes hpolicy (mem_of_mem_mergeAttributes hb)).attributeValue hpolicy

/-! ## Documents -/

/-- An event that is kept: text, or a tag of an element that is allowed, with attributes that are kept. -/
inductive Keeps (policy : AllowList) : Event → Prop where
  | text (content : List Char) : Keeps policy (.text content)
  | startTag {name : String} (attributes : List (String × String)) (allowed : name ∈ policy.elements) :
      Keeps policy (.startTag name (policy.cleanAttributes name attributes) false)
  | endTag {name : String} (allowed : name ∈ policy.elements) : Keeps policy (.endTag name)

mutual

/-- What is kept of a node is well nested. -/
theorem builds_cleanNode (hpolicy : policy.IsPlain) (kept : Bool) (pending : List Char) : ∀ node : FragmentNode,
    (∃ f last, Builds kept pending (policy.cleanNode node) f last) ∧ ∀ e ∈ policy.cleanNode node, policy.Keeps e
  | .text content => by
    refine ⟨⟨[], _, .text .nil⟩, fun e he => ?_⟩
    obtain rfl := List.mem_singleton.1 he
    exact .text _
  | .element .html name attributes children => by
    rw [cleanNode]
    split
    · exact ⟨⟨[], _, .nil⟩, fun _ he => nomatch he⟩
    -- an element that is not allowed leaves its content
    split
    · next hallowed =>
      have helement : name ∈ policy.elements := List.contains_iff_mem.1 hallowed
      have hstart : policy.Keeps (.startTag name (policy.cleanAttributes name attributes) false) :=
        .startTag attributes helement
      cases hvoid : isVoidElement name with
      | true => exact ⟨⟨_, _, .leaf (.inr hvoid) .nil⟩, by simpa using hstart⟩
      | false =>
        obtain ⟨⟨f, last, hbuilds⟩, hkeeps⟩ := builds_cleanNodes hpolicy (keepsBlanks name || kept) [] children
        rw [if_neg (by simp)]
        refine ⟨⟨_, _, .element hvoid (hpolicy.elements name helement).2.1 hbuilds .nil⟩, fun e he => ?_⟩
        rcases List.mem_cons.1 he with rfl | he
        · exact hstart
        · rcases List.mem_append.1 he with he | he
          · exact hkeeps e he
          · obtain rfl := List.mem_singleton.1 he
            exact .endTag helement
    · exact builds_cleanNodes hpolicy kept pending children
  | .element .svg name _ children => by
    rw [cleanNode]
    split
    · exact builds_cleanNodes hpolicy kept pending children
    · exact ⟨⟨[], _, .nil⟩, fun _ he => nomatch he⟩
  | .element .math name _ children => by
    rw [cleanNode]
    split
    · exact builds_cleanNodes hpolicy kept pending children
    · exact ⟨⟨[], _, .nil⟩, fun _ he => nomatch he⟩

/-- What is kept of a list of nodes is well nested. -/
theorem builds_cleanNodes (hpolicy : policy.IsPlain) (kept : Bool) (pending : List Char) : ∀ nodes : List FragmentNode,
    (∃ f last, Builds kept pending (policy.cleanNodes nodes) f last) ∧ ∀ e ∈ policy.cleanNodes nodes, policy.Keeps e
  | [] => ⟨⟨[], pending, .nil⟩, fun _ he => nomatch he⟩
  | node :: nodes => by
    obtain ⟨⟨f, last, hnode⟩, hkeeps⟩ := builds_cleanNode hpolicy kept pending node
    obtain ⟨⟨g, last', hnodes⟩, hkeepsAll⟩ := builds_cleanNodes hpolicy kept last nodes
    rw [cleanNodes]
    exact ⟨⟨_, _, hnode.append hnodes⟩, fun e he => (List.mem_append.1 he).elim (hkeeps e) (hkeepsAll e)⟩

end

/-! ## Their text -/

theorem textChar_cases (c : Char) : c = '\u00a0' ∧ textChar c = "&nbsp;".toList ∨ textChar c = escapeChar c := by
  unfold textChar
  split
  · exact .inr rfl
  · exact .inr rfl
  · exact .inr rfl
  · exact .inl ⟨rfl, rfl⟩
  · next hamp hlt hgt _ =>
    have hself : escapeChar c = [c] := by
      unfold escapeChar
      split <;> first | contradiction | rfl
    exact .inr hself.symm

theorem isReadAs_textChar (c : Char) : IsReadAs (textChar c) c := by
  rcases textChar_cases c with ⟨rfl, heq⟩ | heq <;> rw [heq]
  · exact isReadAs_reference "nbsp;".toList fun _ => rfl
  · exact isReadAs_escapeChar c

/-- The characters of a value that are written in pieces are read, and none of them ends it. -/
theorem valueChar_cases (c : Char) : c = '\u00a0' ∧ valueChar c = "&nbsp;".toList ∨ valueChar c = escapeQuoted c := by
  unfold valueChar escapeQuoted
  split
  · exact .inr rfl
  · exact textChar_cases c

theorem resolvesTo_valueChar (c : Char) : ResolvesTo (valueChar c) c := by
  rcases valueChar_cases c with ⟨rfl, heq⟩ | heq <;> rw [heq]
  · exact fun _ _ => rfl
  · exact resolvesTo_escapeQuoted c

theorem valueChar_ne_nil (c : Char) : valueChar c ≠ [] := by
  rcases valueChar_cases c with ⟨rfl, heq⟩ | heq <;> rw [heq]
  · decide
  · exact escapeQuoted_ne_nil c

theorem not_mem_valueChar (c : Char) : '"' ∉ valueChar c := by
  rcases valueChar_cases c with ⟨rfl, heq⟩ | heq <;> rw [heq]
  · decide
  · exact not_mem_escapeQuoted c

theorem quotes_quotedValue : Quotes quotedValue := by
  intro value
  refine ⟨'"', value.toList.flatMap valueChar, rfl, .inl rfl, ?_, ?_⟩
  · intro hmem
    obtain ⟨c, -, hc⟩ := List.mem_flatMap.1 hmem
    exact not_mem_valueChar c hc
  · exact resolveReferences_flatMap valueChar_ne_nil resolvesTo_valueChar _

theorem eventChars_startTag (name : String) (attributes : List (String × String)) (selfClosing : Bool) :
    eventChars (.startTag name attributes selfClosing) = '<' :: startTagText quotedValue name attributes ['>'] :=
  rfl

/-- What is kept is read as it is written. -/
theorem reads_eventChars (hpolicy : policy.IsPlain) {events : List Event} (h : ∀ e ∈ events, policy.Keeps e) :
    Reads (events.flatMap eventChars) events := by
  induction events with
  | nil => exact reads_nil
  | cons e events ih =>
    obtain ⟨he, hevents⟩ := List.forall_mem_cons.1 h
    have hrest := ih hevents
    rw [List.flatMap_cons]
    cases he with
    | text content => exact hrest.flatMap isReadAs_textChar content
    | @startTag name attributes helement =>
      obtain ⟨hnamed, hplain, -⟩ := hpolicy.elements name helement
      have hnames : ∀ a ∈ policy.cleanAttributes name attributes, isMarkupName a.1 = true := fun a ha =>
        hpolicy.names _ (mem_attributeNames (allows_of_mem_cleanAttributes hpolicy ha).1)
      have hread := hrest.startTag quotes_quotedValue hnamed hnames hplain false
      rw [eventChars_startTag]
      simpa [startTagText, tagEnding] using hread
    | @endTag name helement =>
      simpa [eventChars] using hrest.endTag (hpolicy.elements name helement).1

/-- The text of what is kept is read, and its tree is that of the events. -/
theorem readForest_cleanText (hpolicy : policy.IsPlain) (forest : Forest) :
    readForest (policy.cleanText forest) = .ok (buildForest (policy.cleanNodes (Fragment.parse (print forest)))) := by
  have hkeeps := (builds_cleanNodes hpolicy false [] (Fragment.parse (print forest))).2
  refine Reads.readForest ?_
  rw [cleanText, String.toList_ofList]
  exact reads_eventChars hpolicy hkeeps

/-- The allowed part of a document is the tree of the events that are kept. -/
theorem clean_eq (hpolicy : policy.IsPlain) (forest : Forest) :
    policy.clean forest = buildForest (policy.cleanNodes (Fragment.parse (print forest))) := by
  have htext := readForest_cleanText hpolicy forest
  unfold clean
  split
  · next cleaned hread => exact Except.ok.inj (hread.symm.trans htext)
  · next cause hread => exact absurd (hread.symm.trans htext) nofun

/-! ## The allowed part -/

/-- An element that is allowed, with all its attributes. -/
def AllowsElement (policy : AllowList) (element : String) (attributes : List (String × String)) : Prop :=
  element ∈ policy.elements ∧ ∀ a ∈ attributes, policy.Allows element a

/-- A normal forest whose elements are allowed. -/
structure IsKept (policy : AllowList) (f : Forest) : Prop where
  normal : IsNormalList false f
  allowed : ∀ own, EachList (fun _ name attributes => IsTag name attributes ∧ policy.AllowsElement name attributes) own f

/-- The allowed part of a document is normal, and its elements are allowed. -/
theorem isKept_clean (hpolicy : policy.IsPlain) (forest : Forest) : policy.IsKept (policy.clean forest) := by
  obtain ⟨⟨f, last, hbuilds⟩, hkeeps⟩ := builds_cleanNodes hpolicy false [] (Fragment.parse (print forest))
  have htags : ∀ name attributes selfClosing,
      .startTag name attributes selfClosing ∈ policy.cleanNodes (Fragment.parse (print forest)) →
      IsTag name (elementAttributes name attributes) ∧
        policy.AllowsElement name (elementAttributes name attributes) := by
    intro name attributes selfClosing hmem
    cases hkeeps _ hmem with
    | startTag others helement =>
      exact ⟨isTag_cleanAttributes hpolicy helement others, helement, fun a =>
        allows_elementAttributes hpolicy helement⟩
  rw [clean_eq hpolicy, hbuilds.buildForest_eq]
  exact ⟨hbuilds.isNormal fun n a s hmem => (htags n a s hmem).1, hbuilds.each fun n a s hmem _ => htags n a s hmem⟩

end

end AllowList

/-- What a rendered text may hold of a document is normal, and its elements are allowed. -/
theorem isKept_sanitize (forest : Forest) : AllowList.standard.IsKept (sanitize forest) :=
  AllowList.isKept_clean AllowList.isPlain_standard forest

end Folio.Html

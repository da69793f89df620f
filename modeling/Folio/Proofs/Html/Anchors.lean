import Folio.Proofs.Html.Elements
import Folio.Proofs.Value

set_option autoImplicit false

/-! # Headings and their anchors

Giving ids to headings changes their attributes (`relabels_giveIds`), and writing a forest arranges the attributes of all
elements (`relabels_arrange`). Neither changes what the outline of the page says (`headings_arrangeList`). Linking
headings to themselves adds one anchor in front of each heading that has an id (`anchored_linkHeadings`), and nothing else
(`each_linkHeadings`). -/

namespace Folio.Html

/-! ## Values of attributes -/

section

variable {attributes attributes' : List (String × String)} {name value : String}

theorem AreDistinct.attribute?_eq_some_iff (h : AreDistinct attributes) :
    attribute? attributes name = some value ↔ (name, value) ∈ attributes :=
  lookup_eq_some_iff_mem h

theorem AreDistinct.attribute?_perm (h : AreDistinct attributes) (hperm : attributes'.Perm attributes) (name : String) :
    attribute? attributes' name = attribute? attributes name := by
  have h' : AreDistinct attributes' := (hperm.map Prod.fst).nodup_iff.2 h
  refine Option.ext fun value => ?_
  rw [h'.attribute?_eq_some_iff, h.attribute?_eq_some_iff, hperm.mem_iff]

theorem arrangeAttributes_perm (attributes : List (String × String)) : (arrangeAttributes attributes).Perm attributes :=
  List.mergeSort_perm attributes _

theorem attribute?_setAttribute_self (name value : String) (attributes : List (String × String)) :
    attribute? (setAttribute name value attributes) name = some value := by
  induction attributes with
  | nil => simp [setAttribute, attribute?]
  | cons first rest ih =>
    obtain ⟨n, v⟩ := first
    rw [setAttribute]
    split
    · simp [attribute?]
    · next hne =>
      rw [attribute?, List.lookup_cons, beq_eq_false_iff_ne.2 (Ne.symm hne)]
      exact ih

theorem attribute?_setAttribute_of_ne {other : String} (hne : other ≠ name) (value : String)
    (attributes : List (String × String)) :
    attribute? (setAttribute name value attributes) other = attribute? attributes other := by
  induction attributes with
  | nil => simp [setAttribute, attribute?, beq_eq_false_iff_ne.2 hne]
  | cons first rest ih =>
    obtain ⟨n, v⟩ := first
    rw [setAttribute]
    split
    · next heq => simp [attribute?, List.lookup_cons, heq, beq_eq_false_iff_ne.2 hne]
    · rw [attribute?, attribute?, List.lookup_cons, List.lookup_cons, ← attribute?, ← attribute?, ih]

end

/-! ## Arranging attributes -/

/-- Attributes of a tag that are arranged. -/
def Arranges (name : String) (attributes attributes' : List (String × String)) : Prop :=
  IsTag name attributes ∧ attributes' = arrangeAttributes attributes

mutual

theorem Node.relabels_arrange {kept : Bool} : ∀ {node : Node}, node.IsNormal kept → node.Relabels Arranges node.arrange
  | .element _ _ _, ⟨htag, _, hchildren⟩ => ⟨_, _, rfl, ⟨htag, rfl⟩, relabels_arrange hchildren⟩
  | .text _ _, _ => rfl

/-- A normal forest is written with arranged attributes. -/
theorem relabels_arrange {kept : Bool} : ∀ {f : Forest}, IsNormalList kept f → RelabelsList Arranges f (arrangeList f)
  | [], _ => rfl
  | _ :: _, ⟨hnode, _, hrest⟩ => ⟨_, _, rfl, Node.relabels_arrange hnode, relabels_arrange hrest⟩

end

section

variable {name : String} {attributes attributes' : List (String × String)}

theorem Arranges.perm (h : Arranges name attributes attributes') : attributes'.Perm attributes :=
  h.2 ▸ arrangeAttributes_perm attributes

theorem Arranges.attribute?_eq (h : Arranges name attributes attributes') (n : String) :
    attribute? attributes' n = attribute? attributes n :=
  h.1.distinct.attribute?_perm h.perm n

theorem Arranges.idOf_eq (h : Arranges name attributes attributes') : idOf attributes' = idOf attributes := by
  rw [idOf, h.attribute?_eq, ← idOf]

end

theorem directText_arrangeList (f : Forest) : directText (arrangeList f) = directText f := by
  unfold directText
  congr 1
  induction f with
  | nil => rfl
  | cons node rest ih =>
    rw [arrangeList, List.map_cons, List.map_cons, ih]
    cases node <;> rfl

mutual

theorem Node.headings_arrange {kept : Bool} : ∀ {node : Node}, node.IsNormal kept → node.arrange.headings = node.headings
  | .element name attributes children, ⟨htag, _, hchildren⟩ => by
    have hid : idOf (arrangeAttributes attributes) = idOf attributes := Arranges.idOf_eq ⟨htag, rfl⟩
    rw [Node.arrange, Node.headings, Node.headings, directText_arrangeList, hid, headings_arrangeList hchildren]
  | .text _ _, _ => rfl

/-- The outline of a page does not depend on the order of attributes. -/
theorem headings_arrangeList {kept : Bool} : ∀ {f : Forest}, IsNormalList kept f →
    headingsList (arrangeList f) = headingsList f
  | [], _ => rfl
  | node :: rest, ⟨hnode, _, hrest⟩ => by
    rw [arrangeList, headingsList, headingsList, Node.headings_arrange hnode, headings_arrangeList hrest]

end

/-! ## Giving ids -/

/-- Attributes that get an id, if they are those of a heading, or stay. -/
def GivesId (name : String) (attributes attributes' : List (String × String)) : Prop :=
  attributes' = attributes ∨ (isHeading name = true ∧ ∃ id, attributes' = setAttribute "id" id attributes)

mutual

theorem Node.relabels_giveIds : ∀ (slugger : Slugger) (node : Node), node.Relabels GivesId (node.giveIds slugger).1
  | slugger, .element name attributes children => by
    rw [Node.giveIds]
    by_cases hheading : (isHeading name && decide (idOf attributes = "")) = true
    · rw [if_pos hheading]
      exact ⟨_, _, rfl, .inr ⟨(Bool.and_eq_true_iff.1 hheading).1, _, rfl⟩, relabels_giveIds _ children⟩
    · rw [if_neg hheading]
      exact ⟨_, _, rfl, .inl rfl, relabels_giveIds slugger children⟩
  | _, .text _ _ => rfl
  | _, .comment _ => rfl
  | _, .doctype _ => rfl
  | _, .characterData _ => rfl
  | _, .declaration _ => rfl
  | _, .instruction _ => rfl

theorem relabels_giveIds : ∀ (slugger : Slugger) (f : Forest), RelabelsList GivesId f (giveIdsList slugger f).1
  | _, [] => rfl
  | slugger, node :: rest => ⟨_, _, rfl, node.relabels_giveIds slugger, relabels_giveIds _ rest⟩

end

theorem GivesId.isTag {name : String} {attributes attributes' : List (String × String)} (htag : IsTag name attributes)
    (h : GivesId name attributes attributes') : IsTag name attributes' := by
  rcases h with rfl | ⟨-, id, rfl⟩
  · exact htag
  · refine htag.setAttribute (by decide) (if_neg ?_)
    unfold isWordListAttribute
    split <;> decide

/-! ## Linking headings to themselves -/

/-- The attributes of the anchor of a heading. -/
def anchorAttributes (id : String) : List (String × String) :=
  [("aria-hidden", "true"), ("tabindex", "-1"), ("href", "#" ++ id)]

theorem headingAnchor_eq (id : String) : headingAnchor id
    = .element "a" (anchorAttributes id) [.element "span" [("class", "icon icon-link")] []] :=
  rfl

theorem isTag_anchorAttributes (id : String) : IsTag "a" (anchorAttributes id) := by
  refine ⟨by decide, by decide, by decide, ?_, ?_, ?_⟩
  · simp only [anchorAttributes, List.forall_mem_cons]
    decide
  · simp [AreDistinct, anchorAttributes]
  · simp [anchorAttributes, attributeValue, isWordListAttribute]

theorem isTag_anchorIcon : IsTag "span" [("class", "icon icon-link")] := by
  refine ⟨by decide, by decide, by decide, by decide, by simp [AreDistinct], ?_⟩
  simp only [List.forall_mem_cons]
  decide

theorem isNormal_headingAnchor (kept : Bool) (id : String) : (headingAnchor id).IsNormal kept :=
  ⟨isTag_anchorAttributes id, fun h => absurd h (by decide),
    ⟨isTag_anchorIcon, fun h => absurd h (by decide), trivial⟩, fun h => absurd h nofun, trivial⟩

theorem headingNames_of_isHeading {name : String} (h : isHeading name = true) :
    name ∈ ["h1", "h2", "h3", "h4", "h5", "h6"] := by
  unfold isHeading headingDepth? at h
  split at h <;> simp_all

theorem not_isVoidElement_of_isHeading {name : String} (h : isHeading name = true) : isVoidElement name = false := by
  have hall : ∀ n ∈ ["h1", "h2", "h3", "h4", "h5", "h6"], isVoidElement n = false := by decide
  exact hall name (headingNames_of_isHeading h)

theorem Node.isText_linkHeadings (node : Node) : node.linkHeadings.isText = node.isText := by
  cases node with
  | element name attributes children =>
    rw [Node.linkHeadings]
    split <;> rfl
  | _ => rfl

theorem head?_linkHeadingsList (f : Forest) : (linkHeadingsList f).head? = f.head?.map Node.linkHeadings := by
  cases f <;> rfl

mutual

theorem Node.isNormal_linkHeadings {kept : Bool} : ∀ {node : Node}, node.IsNormal kept → node.linkHeadings.IsNormal kept
  | .element name attributes children, ⟨htag, hempty, hchildren⟩ => by
    have hlinked := isNormal_linkHeadingsList hchildren
    rw [Node.linkHeadings]
    split
    · next hheading =>
      have hopen := not_isVoidElement_of_isHeading (Bool.and_eq_true_iff.1 hheading).1
      exact ⟨htag, fun hvoid => absurd hvoid (by simp [hopen]), isNormal_headingAnchor _ _, fun h => absurd h nofun,
        hlinked⟩
    · refine ⟨htag, fun hvoid => ?_, hlinked⟩
      rw [hempty hvoid]
      rfl
  | .text _ _, h => h

theorem isNormal_linkHeadingsList {kept : Bool} : ∀ {f : Forest}, IsNormalList kept f →
    IsNormalList kept (linkHeadingsList f)
  | [], _ => trivial
  | node :: rest, ⟨hnode, hnext, hrest⟩ => by
    refine ⟨Node.isNormal_linkHeadings hnode, fun htext next hmem => ?_, isNormal_linkHeadingsList hrest⟩
    -- linking makes no text of an element, so no two texts come together
    rw [head?_linkHeadingsList] at hmem
    obtain ⟨old, hold, rfl⟩ := Option.map_eq_some_iff.1 hmem
    rw [node.isText_linkHeadings] at htext
    rw [old.isText_linkHeadings]
    exact hnext htext old hold

end

section

variable {p p' : ElementProperty}

mutual

theorem Node.each_linkHeadings
    (hp : ∀ own own' name attributes, p own name attributes → p' own' name attributes)
    (hanchor : ∀ id, id ≠ "" → p' (some id) "a" (anchorAttributes id))
    (hicon : p' none "span" [("class", "icon icon-link")]) {own own' : Option String} :
    ∀ {node : Node}, node.Each p own → node.linkHeadings.Each p' own'
  | .element name attributes children, ⟨hnode, hchildren⟩ => by
    rw [Node.linkHeadings]
    split
    · next hheading =>
      obtain ⟨hname, hid⟩ := Bool.and_eq_true_iff.1 hheading
      have hown : ownId? name attributes = some (idOf attributes) := if_pos hname
      refine ⟨hp _ _ _ _ hnode, ⟨?_, ⟨hicon, trivial⟩, trivial⟩, each_linkHeadings hp hanchor hicon hchildren⟩
      -- the anchor stands in the heading, whose id is its own
      rw [hown]
      exact hanchor _ (of_decide_eq_true hid)
    · exact ⟨hp _ _ _ _ hnode, each_linkHeadings hp hanchor hicon hchildren⟩
  | .text _ _, _ => trivial

/-- What holds of all elements wherever they stand, and of the anchors of headings, holds of all elements when headings
    are linked. -/
theorem each_linkHeadings
    (hp : ∀ own own' name attributes, p own name attributes → p' own' name attributes)
    (hanchor : ∀ id, id ≠ "" → p' (some id) "a" (anchorAttributes id))
    (hicon : p' none "span" [("class", "icon icon-link")]) {own own' : Option String} :
    ∀ {f : Forest}, EachList p own f → EachList p' own' (linkHeadingsList f)
  | [], _ => trivial
  | _ :: _, ⟨hnode, hrest⟩ =>
    ⟨Node.each_linkHeadings hp hanchor hicon hnode, each_linkHeadings hp hanchor hicon hrest⟩

end

end

/-! ## Headings that are linked -/

/-- The anchor of a heading, with its attributes in any order. -/
def IsAnchor (id : String) (node : Node) : Prop :=
  ∃ attributes, attributes.Perm (anchorAttributes id) ∧
    node = .element "a" attributes [.element "span" [("class", "icon icon-link")] []]

mutual

/-- Each heading of a node that has an id has its anchor as its first child. -/
def Node.Anchored : Node → Prop
  | .element name attributes children =>
    (isHeading name = true → idOf attributes ≠ "" → ∃ anchor ∈ children.head?, IsAnchor (idOf attributes) anchor) ∧
      AnchoredList children
  | _ => True

/-- Each heading of a forest that has an id has its anchor as its first child. -/
def AnchoredList : Forest → Prop
  | [] => True
  | node :: rest => node.Anchored ∧ AnchoredList rest

end

theorem isAnchor_headingAnchor (id : String) : IsAnchor id (headingAnchor id) :=
  ⟨_, .refl _, headingAnchor_eq id⟩

theorem anchored_headingAnchor (id : String) : (headingAnchor id).Anchored :=
  ⟨fun h => absurd h (by decide), ⟨⟨fun h => absurd h (by decide), trivial⟩, trivial⟩⟩

mutual

theorem Node.anchored_linkHeadings : ∀ node : Node, node.linkHeadings.Anchored
  | .element name attributes children => by
    have hchildren := anchored_linkHeadings children
    rw [Node.linkHeadings]
    split
    · exact ⟨fun _ _ => ⟨_, rfl, isAnchor_headingAnchor _⟩, anchored_headingAnchor _, hchildren⟩
    · next hheading =>
      refine ⟨fun hname hid => absurd ?_ hheading, hchildren⟩
      simp [hname, hid]
  | .text _ _ => trivial
  | .comment _ => trivial
  | .doctype _ => trivial
  | .characterData _ => trivial
  | .declaration _ => trivial
  | .instruction _ => trivial

/-- Headings that are linked to themselves have their anchors. -/
theorem anchored_linkHeadings : ∀ f : Forest, AnchoredList (linkHeadingsList f)
  | [] => trivial
  | node :: rest => ⟨node.anchored_linkHeadings, anchored_linkHeadings rest⟩

end

/-- A change of attributes that keeps the ids of headings and spares their anchors. -/
structure SparesAnchors (r : String → List (String × String) → List (String × String) → Prop) : Prop where
  ids : ∀ name attributes attributes', isHeading name = true → r name attributes attributes' →
    idOf attributes' = idOf attributes
  anchors : ∀ id attributes attributes', attributes.Perm (anchorAttributes id) → r "a" attributes attributes' →
    attributes'.Perm (anchorAttributes id)
  icons : ∀ attributes', r "span" [("class", "icon icon-link")] attributes' →
    attributes' = [("class", "icon icon-link")]

section

variable {r : String → List (String × String) → List (String × String) → Prop} {id : String}

theorem SparesAnchors.isAnchor (hr : SparesAnchors r) {node node' : Node} (h : node.Relabels r node')
    (hanchor : IsAnchor id node) : IsAnchor id node' := by
  obtain ⟨attributes, hperm, rfl⟩ := hanchor
  obtain ⟨attributes', _, rfl, hlabel, icon', _, rfl, ⟨iconAttributes, _, rfl, hicon, rfl⟩, rfl⟩ := h
  exact ⟨attributes', hr.anchors _ _ _ hperm hlabel, by rw [hr.icons _ hicon]⟩

mutual

theorem Node.Anchored.relabel (hr : SparesAnchors r) : ∀ {node node' : Node}, node.Relabels r node' → node.Anchored →
    node'.Anchored
  | .element _ _ children, _, ⟨_, _, rfl, hlabel, hchildren⟩, ⟨hhead, hanchored⟩ => by
    refine ⟨fun hname hid => ?_, AnchoredList.relabel hr hchildren hanchored⟩
    rw [hr.ids _ _ _ hname hlabel] at hid ⊢
    obtain ⟨anchor, hmem, hanchor⟩ := hhead hname hid
    -- the anchor stays the first child
    cases children with
    | nil => cases hmem
    | cons first rest =>
      obtain ⟨first', _, rfl, hfirst, -⟩ := hchildren
      obtain rfl := Option.some.inj hmem
      exact ⟨first', rfl, hr.isAnchor hfirst hanchor⟩
  | .text _ _, _, rfl, _ => trivial
  | .comment _, _, rfl, _ => trivial
  | .doctype _, _, rfl, _ => trivial
  | .characterData _, _, rfl, _ => trivial
  | .declaration _, _, rfl, _ => trivial
  | .instruction _, _, rfl, _ => trivial

/-- Headings keep their anchors when attributes change that are not theirs. -/
theorem AnchoredList.relabel (hr : SparesAnchors r) : ∀ {f f' : Forest}, RelabelsList r f f' → AnchoredList f →
    AnchoredList f'
  | [], _, rfl, _ => trivial
  | _ :: _, _, ⟨_, _, rfl, hnode, hrest⟩, ⟨hanchored, hanchoredRest⟩ =>
    ⟨Node.Anchored.relabel hr hnode hanchored, AnchoredList.relabel hr hrest hanchoredRest⟩

end

end

theorem sparesAnchors_arranges : SparesAnchors Arranges where
  ids _ _ _ _ h := h.idOf_eq
  anchors _ _ _ hperm h := h.perm.trans hperm
  icons _ h := List.perm_singleton.1 h.perm

end Folio.Html

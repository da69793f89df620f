import Folio.Proofs.Html.Anchors
import Folio.Proofs.Slug

set_option autoImplicit false

/-! # Ids of headings

Headings without an id get ids in document order, and nothing else of a page changes (`FillsList`). Each gets the least id
for its text that no heading has and that has not been given, so ids that are given are different from each other and from
those that are there, and giving ids once more changes nothing (`heading_ids_are_assigned`). -/

namespace Folio.Html

/-! ## Headings with and without ids -/

/-- The ids that the headings of a forest have, in document order. -/
def headingIds (f : Forest) : List String :=
  ((headingsList f).map Heading.id).filter (· ≠ "")

mutual

/-- The full texts of the headings of a node that have no id, in document order. -/
def Node.bareTexts : Node → List String
  | .element name attributes children =>
    (if isHeading name && idOf attributes = "" then [plainTextList children] else []) ++ bareTextsList children
  | _ => []

/-- The full texts of the headings of a forest that have no id, in document order. -/
def bareTextsList : Forest → List String
  | [] => []
  | node :: rest => node.bareTexts ++ bareTextsList rest

end

/-- Attributes that are filled with an id, if they are those of a heading without one, or stay. -/
def FillsId (given : List String) (name : String) (attributes attributes' : List (String × String)) : Prop :=
  if isHeading name = true ∧ idOf attributes = "" then
    ∃ id, given = [id] ∧ attributes' = setAttribute "id" id attributes
  else given = [] ∧ attributes' = attributes

mutual

/-- A node whose headings without an id are filled with ids, in document order. Nothing else differs. -/
def Node.Fills (given : List String) : Node → Node → Prop
  | .element name attributes children, node' =>
    ∃ first rest attributes' children', given = first ++ rest ∧ node' = .element name attributes' children' ∧
      FillsId first name attributes attributes' ∧ FillsList rest children children'
  | node, node' => given = [] ∧ node' = node

/-- A forest whose headings without an id are filled with ids, in document order. Nothing else differs. -/
def FillsList (given : List String) : Forest → Forest → Prop
  | [], f' => given = [] ∧ f' = []
  | node :: rest, f' =>
    ∃ first later node' rest', given = first ++ later ∧ f' = node' :: rest' ∧ node.Fills first node' ∧
      FillsList later rest rest'

end

theorem headingIds_nil : headingIds [] = [] := rfl

theorem headingIds_cons (node : Node) (f : Forest) : headingIds (node :: f) = headingIds [node] ++ headingIds f := by
  simp [headingIds, headingsList]

theorem headingIds_element (name : String) (attributes : List (String × String)) (children : Forest) :
    headingIds [.element name attributes children]
      = (if isHeading name && idOf attributes ≠ "" then [idOf attributes] else []) ++ headingIds children := by
  rw [headingIds, headingsList, headingsList, List.append_nil, Node.headings, isHeading]
  cases headingDepth? name with
  | none => rfl
  | some depth =>
    by_cases hid : idOf attributes = "" <;> simp [headingIds, hid]

theorem empty_not_mem_headingIds (f : Forest) : "" ∉ headingIds f := by
  simp [headingIds]

/-! ## Reserving the ids that are there -/

mutual

theorem Node.reserveIds_spec {s : Slugger} (hs : s.IsSound) : ∀ node : Node,
    (node.reserveIds s).IsSound ∧
      ∀ id, (node.reserveIds s).isTaken id = true ↔ id ∈ headingIds [node] ∨ s.isTaken id = true
  | .element name attributes children => by
    rw [Node.reserveIds, headingIds_element]
    by_cases hheading : (isHeading name && idOf attributes ≠ "") = true
    · obtain ⟨hreserved, hids⟩ := Slugger.reserve_spec hs (idOf attributes)
      obtain ⟨hsound, htaken⟩ := reserveIdsList_spec hreserved children
      rw [if_pos hheading, if_pos hheading]
      refine ⟨hsound, fun id => ?_⟩
      rw [htaken, hids, List.mem_append, List.mem_singleton, or_left_comm, or_assoc]
    · rw [if_neg hheading, if_neg hheading]
      exact reserveIdsList_spec hs children
  | .text _ _ => ⟨hs, fun id => by simp [Node.reserveIds, headingIds, headingsList, Node.headings]⟩
  | .comment _ => ⟨hs, fun id => by simp [Node.reserveIds, headingIds, headingsList, Node.headings]⟩
  | .doctype _ => ⟨hs, fun id => by simp [Node.reserveIds, headingIds, headingsList, Node.headings]⟩
  | .characterData _ => ⟨hs, fun id => by simp [Node.reserveIds, headingIds, headingsList, Node.headings]⟩
  | .declaration _ => ⟨hs, fun id => by simp [Node.reserveIds, headingIds, headingsList, Node.headings]⟩
  | .instruction _ => ⟨hs, fun id => by simp [Node.reserveIds, headingIds, headingsList, Node.headings]⟩

/-- The ids that headings have are taken. -/
theorem reserveIdsList_spec {s : Slugger} (hs : s.IsSound) : ∀ f : Forest,
    (reserveIdsList s f).IsSound ∧
      ∀ id, (reserveIdsList s f).isTaken id = true ↔ id ∈ headingIds f ∨ s.isTaken id = true
  | [] => ⟨hs, fun id => by simp [reserveIdsList, headingIds_nil]⟩
  | node :: rest => by
    obtain ⟨hnode, hids⟩ := Node.reserveIds_spec hs node
    obtain ⟨hsound, htaken⟩ := reserveIdsList_spec hnode rest
    refine ⟨hsound, fun id => ?_⟩
    rw [reserveIdsList, htaken, hids, headingIds_cons node rest, List.mem_append, or_left_comm, or_assoc]

end

/-! ## Giving ids -/

mutual

theorem Node.giveIds_spec {s : Slugger} (hs : s.IsSound) : ∀ node : Node, ∃ given,
    node.Fills given (node.giveIds s).1 ∧ Allocates (s.isTaken · = true) node.bareTexts given ∧
      (node.giveIds s).2.IsSound ∧ ∀ id, (node.giveIds s).2.isTaken id = true ↔ id ∈ given ∨ s.isTaken id = true
  | .element name attributes children => by
    rw [Node.giveIds, Node.bareTexts]
    by_cases hbare : (isHeading name && decide (idOf attributes = "")) = true
    · obtain ⟨hfree, hslug, hids⟩ := Slugger.slug_spec hs (plainTextList children)
      obtain ⟨given, hfills, hgiven, hsound, htaken⟩ := giveIdsList_spec hslug children
      rw [if_pos hbare, if_pos hbare]
      refine ⟨[(s.slug (plainTextList children)).1] ++ given, ⟨_, given, _, _, rfl, rfl, ?_, hfills⟩,
        .append ⟨hfree, trivial⟩ (hgiven.congr fun id => by simp [hids]), hsound, fun id => ?_⟩
      · exact (if_pos (by simpa using hbare)).mpr ⟨_, rfl, rfl⟩
      · rw [htaken, hids, List.mem_append, List.mem_singleton, or_left_comm, or_assoc]
    · obtain ⟨given, hfills, hgiven, hsound, htaken⟩ := giveIdsList_spec hs children
      rw [if_neg hbare, if_neg hbare]
      exact ⟨given, ⟨[], given, _, _, rfl, rfl, (if_neg (by simpa using hbare)).mpr ⟨rfl, rfl⟩, hfills⟩, hgiven, hsound,
        htaken⟩
  | .text _ _ => ⟨[], ⟨rfl, rfl⟩, trivial, hs, fun id => by simp [Node.giveIds]⟩
  | .comment _ => ⟨[], ⟨rfl, rfl⟩, trivial, hs, fun id => by simp [Node.giveIds]⟩
  | .doctype _ => ⟨[], ⟨rfl, rfl⟩, trivial, hs, fun id => by simp [Node.giveIds]⟩
  | .characterData _ => ⟨[], ⟨rfl, rfl⟩, trivial, hs, fun id => by simp [Node.giveIds]⟩
  | .declaration _ => ⟨[], ⟨rfl, rfl⟩, trivial, hs, fun id => by simp [Node.giveIds]⟩
  | .instruction _ => ⟨[], ⟨rfl, rfl⟩, trivial, hs, fun id => by simp [Node.giveIds]⟩

/-- Headings without an id are given the least free ids for their texts. -/
theorem giveIdsList_spec {s : Slugger} (hs : s.IsSound) : ∀ f : Forest, ∃ given,
    FillsList given f (giveIdsList s f).1 ∧ Allocates (s.isTaken · = true) (bareTextsList f) given ∧
      (giveIdsList s f).2.IsSound ∧ ∀ id, (giveIdsList s f).2.isTaken id = true ↔ id ∈ given ∨ s.isTaken id = true
  | [] => ⟨[], ⟨rfl, rfl⟩, trivial, hs, fun id => by simp [giveIdsList]⟩
  | node :: rest => by
    obtain ⟨first, hnode, hfirst, hsound, hids⟩ := Node.giveIds_spec hs node
    obtain ⟨later, hrest, hlater, hsound', hids'⟩ := giveIdsList_spec hsound rest
    refine ⟨first ++ later, ⟨first, later, _, _, rfl, rfl, hnode, hrest⟩, hfirst.append (hlater.congr fun id => ?_), hsound',
      fun id => ?_⟩
    · exact (hids id).symm
    · rw [giveIdsList, hids', hids, List.mem_append, or_left_comm, or_assoc]

end

/-! ## Filled headings -/

/-- An id is set that is there already. -/
theorem setAttribute_of_attribute?_eq {name value : String} {attributes : List (String × String)}
    (h : attribute? attributes name = some value) : setAttribute name value attributes = attributes := by
  induction attributes with
  | nil => cases h
  | cons first rest ih =>
    obtain ⟨n, v⟩ := first
    rw [attribute?, List.lookup_cons] at h
    rw [setAttribute]
    by_cases heq : n = name
    · subst heq
      rw [beq_self_eq_true] at h
      rw [if_pos rfl, Option.some.inj h]
    · rw [beq_eq_false_iff_ne.2 (Ne.symm heq)] at h
      rw [if_neg heq, ih h]

section

variable {given given' : List String} {name : String} {attributes attributes' attributes'' : List (String × String)}

theorem FillsId.givesId (h : FillsId given name attributes attributes') : GivesId name attributes attributes' := by
  unfold FillsId at h
  split at h
  · next hbare =>
    obtain ⟨id, -, rfl⟩ := h
    exact .inr ⟨hbare.1, id, rfl⟩
  · exact .inl h.2

theorem idOf_setAttribute (id : String) (attributes : List (String × String)) :
    idOf (setAttribute "id" id attributes) = id := by
  rw [idOf, attribute?_setAttribute_self]
  rfl

/-- A heading that is bare when it has been filled was filled with the empty id. It is the same when it is filled so
    again. -/
theorem FillsId.again (h : FillsId given name attributes attributes') (h' : FillsId given' name attributes' attributes'')
    (hempty : ∀ id ∈ given', id = "") : attributes'' = attributes' := by
  unfold FillsId at h'
  split at h'
  · next hbare =>
    obtain ⟨id, rfl, rfl⟩ := h'
    obtain rfl := hempty id (List.mem_singleton.2 rfl)
    unfold FillsId at h
    split at h
    · obtain ⟨id, -, rfl⟩ := h
      obtain rfl : id = "" := idOf_setAttribute id attributes ▸ hbare.2
      exact setAttribute_of_attribute?_eq (attribute?_setAttribute_self _ _ _)
    · next hfull =>
      obtain ⟨-, rfl⟩ := h
      exact absurd hbare hfull
  · exact h'.2

end

mutual

theorem Node.Fills.again : ∀ {node node' node'' : Node} {given given' : List String}, node.Fills given node' →
    node'.Fills given' node'' → (∀ id ∈ given', id = "") → node'' = node'
  | .element _ _ _, _, _, _, _, ⟨_, _, _, _, _, rfl, hid, hchildren⟩, ⟨_, _, _, _, rfl, rfl, hid', hchildren'⟩, hempty => by
    obtain ⟨hfirst, hrest⟩ := List.forall_mem_append.1 hempty
    rw [hid.again hid' hfirst, FillsList.again hchildren hchildren' hrest]
  | .text _ _, _, _, _, _, ⟨_, rfl⟩, ⟨_, rfl⟩, _ => rfl
  | .comment _, _, _, _, _, ⟨_, rfl⟩, ⟨_, rfl⟩, _ => rfl
  | .doctype _, _, _, _, _, ⟨_, rfl⟩, ⟨_, rfl⟩, _ => rfl
  | .characterData _, _, _, _, _, ⟨_, rfl⟩, ⟨_, rfl⟩, _ => rfl
  | .declaration _, _, _, _, _, ⟨_, rfl⟩, ⟨_, rfl⟩, _ => rfl
  | .instruction _, _, _, _, _, ⟨_, rfl⟩, ⟨_, rfl⟩, _ => rfl

/-- A forest that has been filled is not changed by filling it with empty ids. -/
theorem FillsList.again : ∀ {f f' f'' : Forest} {given given' : List String}, FillsList given f f' →
    FillsList given' f' f'' → (∀ id ∈ given', id = "") → f'' = f'
  | [], _, _, _, _, ⟨_, rfl⟩, ⟨_, rfl⟩, _ => rfl
  | _ :: _, _, _, _, _, ⟨_, _, _, _, _, rfl, hnode, hrest⟩, ⟨_, _, _, _, rfl, rfl, hnode', hrest'⟩, hempty => by
    obtain ⟨hfirst, hlater⟩ := List.forall_mem_append.1 hempty
    rw [hnode.again hnode' hfirst, FillsList.again hrest hrest' hlater]

end

/-! ## The texts of headings that stay bare -/

mutual

theorem Node.Fills.relabels : ∀ {node node' : Node} {given : List String}, node.Fills given node' →
    node.Relabels GivesId node'
  | .element _ _ _, _, _, ⟨_, _, _, _, _, rfl, hid, hchildren⟩ => ⟨_, _, rfl, hid.givesId, hchildren.relabels⟩
  | .text _ _, _, _, ⟨_, h⟩ => h
  | .comment _, _, _, ⟨_, h⟩ => h
  | .doctype _, _, _, ⟨_, h⟩ => h
  | .characterData _, _, _, ⟨_, h⟩ => h
  | .declaration _, _, _, ⟨_, h⟩ => h
  | .instruction _, _, _, ⟨_, h⟩ => h

/-- Only the ids of headings differ in a forest that has been filled. -/
theorem FillsList.relabels : ∀ {f f' : Forest} {given : List String}, FillsList given f f' → RelabelsList GivesId f f'
  | [], _, _, ⟨_, h⟩ => h
  | _ :: _, _, _, ⟨_, _, _, _, _, rfl, hnode, hrest⟩ => ⟨_, _, rfl, hnode.relabels, hrest.relabels⟩

end

section

variable {r : String → List (String × String) → List (String × String) → Prop}

mutual

theorem Node.Relabels.plainText_eq : ∀ {node node' : Node}, node.Relabels r node' → node'.plainText = node.plainText
  | .element _ _ _, _, ⟨_, _, rfl, _, hchildren⟩ => hchildren.plainTextList_eq
  | .text _ _, _, rfl => rfl
  | .comment _, _, rfl => rfl
  | .doctype _, _, rfl => rfl
  | .characterData _, _, rfl => rfl
  | .declaration _, _, rfl => rfl
  | .instruction _, _, rfl => rfl

/-- The text of a forest does not depend on attributes. -/
theorem RelabelsList.plainTextList_eq : ∀ {f f' : Forest}, RelabelsList r f f' → plainTextList f' = plainTextList f
  | [], _, rfl => rfl
  | _ :: _, _, ⟨_, _, rfl, hnode, hrest⟩ => by
    rw [plainTextList, plainTextList, hnode.plainText_eq, hrest.plainTextList_eq]

end

end

/-- The texts that are given empty ids. -/
def leftTexts (texts given : List String) : List String :=
  ((texts.zip given).filter (·.2 = "")).map Prod.fst

theorem leftTexts_append {texts texts' given given' : List String} (h : texts.length = given.length) :
    leftTexts (texts ++ texts') (given ++ given') = leftTexts texts given ++ leftTexts texts' given' := by
  rw [leftTexts, List.zip_append h, List.filter_append, List.map_append, ← leftTexts, ← leftTexts]

mutual

theorem Node.Fills.bareTexts_eq : ∀ {node node' : Node} {given : List String}, node.Fills given node' →
    node.bareTexts.length = given.length ∧ node'.bareTexts = leftTexts node.bareTexts given
  | .element name attributes children, _, _, ⟨first, given, attributes', children', rfl, rfl, hid, hchildren⟩ => by
    obtain ⟨hlength, hleft⟩ := hchildren.bareTexts_eq
    have htext := hchildren.relabels.plainTextList_eq
    rw [Node.bareTexts, Node.bareTexts, hleft, htext]
    unfold FillsId at hid
    split at hid
    · next hbare =>
      obtain ⟨id, rfl, rfl⟩ := hid
      have hsplit : leftTexts ([plainTextList children] ++ bareTextsList children) ([id] ++ given)
          = leftTexts [plainTextList children] [id] ++ leftTexts (bareTextsList children) given := leftTexts_append rfl
      rw [if_pos (by simpa using hbare), hsplit, idOf_setAttribute]
      refine ⟨by simp [hlength], ?_⟩
      by_cases hempty : id = "" <;> simp [leftTexts, hbare.1, hempty]
    · next hfull =>
      obtain ⟨rfl, rfl⟩ := hid
      rw [if_neg (by simpa using hfull)]
      exact ⟨hlength, rfl⟩
  | .text _ _, _, _, ⟨rfl, rfl⟩ => ⟨rfl, rfl⟩
  | .comment _, _, _, ⟨rfl, rfl⟩ => ⟨rfl, rfl⟩
  | .doctype _, _, _, ⟨rfl, rfl⟩ => ⟨rfl, rfl⟩
  | .characterData _, _, _, ⟨rfl, rfl⟩ => ⟨rfl, rfl⟩
  | .declaration _, _, _, ⟨rfl, rfl⟩ => ⟨rfl, rfl⟩
  | .instruction _, _, _, ⟨rfl, rfl⟩ => ⟨rfl, rfl⟩

/-- As many ids are given as headings are bare, and those stay bare that are given the empty id. -/
theorem FillsList.bareTexts_eq : ∀ {f f' : Forest} {given : List String}, FillsList given f f' →
    (bareTextsList f).length = given.length ∧ bareTextsList f' = leftTexts (bareTextsList f) given
  | [], _, _, ⟨rfl, rfl⟩ => ⟨rfl, rfl⟩
  | _ :: _, _, _, ⟨_, _, _, _, rfl, rfl, hnode, hrest⟩ => by
    obtain ⟨hlength, hleft⟩ := hnode.bareTexts_eq
    obtain ⟨hlengths, hlefts⟩ := hrest.bareTexts_eq
    rw [bareTextsList, bareTextsList, hleft, hlefts, leftTexts_append hlength, List.length_append, List.length_append,
      hlength, hlengths]
    exact ⟨rfl, rfl⟩

end

/-! ## Assigning ids -/

/-- Headings without an id get the least free ids for their texts, where the ids of all headings are taken. -/
theorem fills_assignHeadingIds (f : Forest) : ∃ given, FillsList given f (assignHeadingIds f) ∧
    Allocates (· ∈ headingIds f) (bareTextsList f) given := by
  obtain ⟨hsound, htaken⟩ := reserveIdsList_spec Slugger.isSound_empty f
  obtain ⟨given, hfills, hgiven, -, -⟩ := giveIdsList_spec hsound f
  refine ⟨given, hfills, hgiven.congr fun id => ?_⟩
  rw [htaken]
  exact (or_iff_left (by simp [Slugger.isTaken, Slugger.counter?])).symm

/-- **Headings without an id get the least free ids for their texts, in document order.** Nothing else changes, the ids are
    different from each other and from the ids of all headings, and assigning ids once more changes nothing. -/
theorem heading_ids_are_assigned (f : Forest) : ∃ given,
    FillsList given f (assignHeadingIds f) ∧ Allocates (· ∈ headingIds f) (bareTextsList f) given ∧ given.Nodup ∧
      (∀ id ∈ given, id ∉ headingIds f) ∧ assignHeadingIds (assignHeadingIds f) = assignHeadingIds f := by
  obtain ⟨given, hfills, hgiven⟩ := fills_assignHeadingIds f
  obtain ⟨given', hfills', hgiven'⟩ := fills_assignHeadingIds (assignHeadingIds f)
  refine ⟨given, hfills, hgiven, hgiven.nodup, hgiven.not_taken, hfills.again hfills' ?_⟩
  -- a heading that is still bare has no text for an id, and gets the empty id again
  rw [hfills.bareTexts_eq.2] at hgiven'
  exact hgiven.again (empty_not_mem_headingIds _) hgiven'

end Folio.Html

import Folio.Proofs.Html.Links

set_option autoImplicit false

/-! # Anchors and marks

Linking headings to themselves and marking external links add to a page and take nothing from it. A linked forest is the one
that has an anchor in front of each heading with an id, and that is the forest again without these anchors
(`eq_linkHeadingsList_iff`). Marking sets two attributes of the links that leave the site (`relabels_marksLeaving`). The
anchors are no such links, so the stages commute (`markLinksList_linkHeadings`), and neither changes the outline of the
page. -/

namespace Folio.Html

/-! ## Taking anchors away -/

mutual

/-- A node without the first child of each heading that has an id. -/
def Node.unlinkHeadings : Node → Node
  | .element name attributes children =>
    if isHeading name && idOf attributes ≠ "" then .element name attributes (unlinkHeadingsList children).tail
    else .element name attributes (unlinkHeadingsList children)
  | node => node

/-- A forest without the first child of each heading that has an id. -/
def unlinkHeadingsList : Forest → Forest
  | [] => []
  | node :: rest => node.unlinkHeadings :: unlinkHeadingsList rest

end

mutual

/-- Each heading of a node that has an id has its own anchor as its first child. -/
def Node.Linked : Node → Prop
  | .element name attributes children =>
    (isHeading name = true → idOf attributes ≠ "" → children.head? = some (headingAnchor (idOf attributes))) ∧
      LinkedList children
  | _ => True

/-- Each heading of a forest that has an id has its own anchor as its first child. -/
def LinkedList : Forest → Prop
  | [] => True
  | node :: rest => node.Linked ∧ LinkedList rest

end

theorem linked_headingAnchor (id : String) : (headingAnchor id).Linked :=
  ⟨fun h => absurd h (by decide), ⟨fun h => absurd h (by decide), trivial⟩, trivial⟩

mutual

theorem Node.linked_linkHeadings : ∀ node : Node, node.linkHeadings.Linked
  | .element name attributes children => by
    have hchildren := linked_linkHeadings children
    rw [Node.linkHeadings]
    split
    · exact ⟨fun _ _ => rfl, linked_headingAnchor _, hchildren⟩
    · next hheading =>
      refine ⟨fun hname hid => absurd ?_ hheading, hchildren⟩
      simp [hname, hid]
  | .text _ _ => trivial
  | .comment _ => trivial
  | .doctype _ => trivial
  | .characterData _ => trivial
  | .declaration _ => trivial
  | .instruction _ => trivial

theorem linked_linkHeadings : ∀ f : Forest, LinkedList (linkHeadingsList f)
  | [] => trivial
  | node :: rest => ⟨node.linked_linkHeadings, linked_linkHeadings rest⟩

end

mutual

theorem Node.unlink_link : ∀ node : Node, node.linkHeadings.unlinkHeadings = node
  | .element name attributes children => by
    have hchildren := unlink_link children
    rw [Node.linkHeadings]
    split
    · next hheading =>
      rw [Node.unlinkHeadings, if_pos hheading, unlinkHeadingsList, List.tail_cons, hchildren]
    · next hheading => rw [Node.unlinkHeadings, if_neg hheading, hchildren]
  | .text _ _ => rfl
  | .comment _ => rfl
  | .doctype _ => rfl
  | .characterData _ => rfl
  | .declaration _ => rfl
  | .instruction _ => rfl

/-- Without its anchors a linked forest is what it was. -/
theorem unlink_link : ∀ f : Forest, unlinkHeadingsList (linkHeadingsList f) = f
  | [] => rfl
  | node :: rest => by rw [linkHeadingsList, unlinkHeadingsList, node.unlink_link, unlink_link rest]

end

mutual

theorem Node.Linked.link_unlink : ∀ {node : Node}, node.Linked → node.unlinkHeadings.linkHeadings = node
  | .element name attributes children, ⟨hanchor, hlinked⟩ => by
    have hchildren := hlinked.link_unlink
    rw [Node.unlinkHeadings]
    split
    · next hheading =>
      obtain ⟨hname, hid⟩ := Bool.and_eq_true_iff.1 hheading
      have hhead := hanchor hname (of_decide_eq_true hid)
      rw [Node.linkHeadings, if_pos hheading]
      cases children with
      | nil => cases hhead
      | cons first rest =>
        obtain rfl := Option.some.inj hhead
        rw [unlinkHeadingsList, linkHeadingsList] at hchildren
        rw [unlinkHeadingsList, List.tail_cons, (List.cons.inj hchildren).2]
    · next hheading => rw [Node.linkHeadings, if_neg hheading, hchildren]
  | .text _ _, _ => rfl
  | .comment _, _ => rfl
  | .doctype _, _ => rfl
  | .characterData _, _ => rfl
  | .declaration _, _ => rfl
  | .instruction _, _ => rfl

/-- A forest whose headings have their anchors is what becomes of it without them when it is linked. -/
theorem LinkedList.link_unlink : ∀ {f : Forest}, LinkedList f → linkHeadingsList (unlinkHeadingsList f) = f
  | [], _ => rfl
  | _ :: _, ⟨hnode, hrest⟩ => by rw [unlinkHeadingsList, linkHeadingsList, hnode.link_unlink, hrest.link_unlink]

end

/-- The linked forest is the only one whose headings have their anchors, and which is the forest without these. -/
theorem eq_linkHeadingsList_iff {f f' : Forest} :
    f' = linkHeadingsList f ↔ LinkedList f' ∧ unlinkHeadingsList f' = f := by
  constructor
  · rintro rfl
    exact ⟨linked_linkHeadings f, unlink_link f⟩
  · rintro ⟨hlinked, rfl⟩
    exact hlinked.link_unlink.symm

/-! ## The outline of a linked forest -/

theorem directText_cons (node : Node) (f : Forest) : directText (node :: f) = directText [node] ++ directText f := by
  simp [directText]

theorem directText_element (name : String) (attributes : List (String × String)) (children : Forest) :
    directText [.element name attributes children] = "" :=
  rfl

theorem Node.directText_linkHeadings (node : Node) : directText [node.linkHeadings] = directText [node] := by
  cases node with
  | element name attributes children =>
    rw [Node.linkHeadings]
    split <;> rw [directText_element, directText_element]
  | _ => rfl

theorem directText_linkHeadingsList : ∀ f : Forest, directText (linkHeadingsList f) = directText f
  | [] => rfl
  | node :: rest => by
    rw [linkHeadingsList, directText_cons, node.directText_linkHeadings, directText_linkHeadingsList rest,
      ← directText_cons]

theorem directText_headingAnchor_cons (id : String) (f : Forest) : directText (headingAnchor id :: f) = directText f := by
  rw [directText_cons, headingAnchor, directText_element, String.empty_append]

mutual

theorem Node.headings_linkHeadings : ∀ node : Node, node.linkHeadings.headings = node.headings
  | .element name attributes children => by
    have hchildren := headings_linkHeadings children
    have htext := directText_linkHeadingsList children
    rw [Node.linkHeadings]
    split
    · have hanchor : headingsList (headingAnchor (idOf attributes) :: linkHeadingsList children)
          = headingsList (linkHeadingsList children) := rfl
      rw [Node.headings, Node.headings, directText_headingAnchor_cons, htext, hanchor, hchildren]
    · rw [Node.headings, Node.headings, htext, hchildren]
  | .text _ _ => rfl
  | .comment _ => rfl
  | .doctype _ => rfl
  | .characterData _ => rfl
  | .declaration _ => rfl
  | .instruction _ => rfl

/-- Anchors are not part of the outline. -/
theorem headings_linkHeadings : ∀ f : Forest, headingsList (linkHeadingsList f) = headingsList f
  | [] => rfl
  | node :: rest => by
    rw [linkHeadingsList, headingsList, headingsList, node.headings_linkHeadings, headings_linkHeadings rest]

end

/-! ## Relabelling and the outline -/

section

variable {r : String → List (String × String) → List (String × String) → Prop}

theorem Node.Relabels.directText_eq {node node' : Node} (h : node.Relabels r node') :
    directText [node'] = directText [node] := by
  cases node with
  | element name attributes children =>
    obtain ⟨attributes', children', rfl, -⟩ := h
    rw [directText_element, directText_element]
  | _ => exact congrArg (fun node => directText [node]) h

theorem RelabelsList.directText_eq : ∀ {f f' : Forest}, RelabelsList r f f' → directText f' = directText f
  | [], _, rfl => rfl
  | node :: rest, _, ⟨node', rest', rfl, hnode, hrest⟩ => by
    rw [directText_cons, directText_cons node, hnode.directText_eq, hrest.directText_eq]

mutual

theorem Node.Relabels.headings_eq (hr : ∀ name attributes attributes', isHeading name = true →
    r name attributes attributes' → idOf attributes' = idOf attributes) :
    ∀ {node node' : Node}, node.Relabels r node' → node'.headings = node.headings
  | .element name _ _, _, ⟨_, _, rfl, hlabel, hchildren⟩ => by
    have hrest := RelabelsList.headings_eq hr hchildren
    rw [Node.headings, Node.headings, hchildren.directText_eq, hrest]
    cases hdepth : headingDepth? name with
    | none => rfl
    | some depth => simp only [hr _ _ _ (by simp [isHeading, hdepth]) hlabel]
  | .text _ _, _, rfl => rfl
  | .comment _, _, rfl => rfl
  | .doctype _, _, rfl => rfl
  | .characterData _, _, rfl => rfl
  | .declaration _, _, rfl => rfl
  | .instruction _, _, rfl => rfl

/-- The outline does not depend on other attributes than the ids of headings. -/
theorem RelabelsList.headings_eq (hr : ∀ name attributes attributes', isHeading name = true →
    r name attributes attributes' → idOf attributes' = idOf attributes) :
    ∀ {f f' : Forest}, RelabelsList r f f' → headingsList f' = headingsList f
  | [], _, rfl => rfl
  | _ :: _, _, ⟨_, _, rfl, hnode, hrest⟩ => by
    rw [headingsList, headingsList, Node.Relabels.headings_eq hr hnode, RelabelsList.headings_eq hr hrest]

end

end

/-! ## Marks -/

/-- Attributes are marked if they are those of a link that leaves the site, and stay if not. -/
def MarksLeaving (target : String) (internalHosts : List String) (name : String)
    (attributes attributes' : List (String × String)) : Prop :=
  ((name = "a" ∧ LeavesSite internalHosts attributes) ∧
    attributes' = setAttribute "rel" externalRelation (setAttribute "target" target attributes)) ∨
  (¬(name = "a" ∧ LeavesSite internalHosts attributes) ∧ attributes' = attributes)

section

variable {target : String} {internalHosts : List String}

theorem Marks.marksLeaving {name : String} {attributes attributes' : List (String × String)}
    (h : Marks target internalHosts name attributes attributes') :
    MarksLeaving target internalHosts name attributes attributes' := by
  by_cases hname : name = "a"
  · subst hname
    exact h.cases.imp (And.imp_left fun hleaves => ⟨rfl, hleaves⟩) (And.imp_left fun hstays hleaves => hstays hleaves.2)
  · exact .inr ⟨fun hleaves => hname hleaves.1, h.eq_of_ne hname⟩

theorem relabels_marksLeaving {f f' : Forest} (h : markLinksList target internalHosts f = .ok f') :
    RelabelsList (MarksLeaving target internalHosts) f f' :=
  (relabels_markLinks h).imp fun _ _ _ hmark => hmark.marksLeaving

theorem headings_markLinks {f f' : Forest} (h : markLinksList target internalHosts f = .ok f') :
    headingsList f' = headingsList f :=
  (relabels_markLinks h).headings_eq sparesAnchors_marks.ids

/-! ## Both stages -/

theorem markLinks_headingAnchor (id : String) :
    (headingAnchor id).markLinks target internalHosts = .ok (headingAnchor id) := by
  have hmark : markExternal target internalHosts (anchorAttributes id) = .ok (anchorAttributes id) := by
    have hhref : attribute? (anchorAttributes id) "href" = some ("#" ++ id) := rfl
    rw [markExternal_of_some hhref, isExternal_fragment]
    rfl
  rw [headingAnchor_eq, Node.markLinks, if_pos rfl, hmark]
  rfl

theorem Node.markLinks_of_ne {name : String} (hname : name ≠ "a") (attributes : List (String × String))
    (children : Forest) : (Node.element name attributes children).markLinks target internalHosts
      = (markLinksList target internalHosts children).map (.element name attributes) := by
  rw [Node.markLinks, if_neg hname]
  cases markLinksList target internalHosts children <;> rfl

theorem linkHeadings_link (attributes : List (String × String)) (children : Forest) :
    (Node.element "a" attributes children).linkHeadings = .element "a" attributes (linkHeadingsList children) := by
  have hname : isHeading "a" = false := by decide
  rw [Node.linkHeadings, hname]
  rfl

mutual

theorem Node.markLinks_linkHeadings : ∀ node : Node,
    node.linkHeadings.markLinks target internalHosts = (node.markLinks target internalHosts).map Node.linkHeadings
  | .element name attributes children => by
    have hchildren := markLinksList_linkHeadings children
    by_cases hname : name = "a"
    · subst hname
      rw [linkHeadings_link, Node.markLinks, Node.markLinks, if_pos rfl, if_pos rfl, hchildren]
      cases markExternal target internalHosts attributes with
      | error e => rfl
      | ok marked =>
        cases markLinksList target internalHosts children with
        | error e => rfl
        | ok others => exact congrArg Except.ok (linkHeadings_link marked others).symm
    · rw [Node.markLinks_of_ne hname]
      by_cases hheading : (isHeading name && decide (idOf attributes ≠ "")) = true
      · -- the anchor comes in front of the children, and is not marked
        rw [Node.linkHeadings, if_pos hheading, Node.markLinks_of_ne hname, markLinksList, markLinks_headingAnchor, hchildren]
        cases markLinksList target internalHosts children with
        | error e => rfl
        | ok marked => exact congrArg Except.ok (by rw [Node.linkHeadings, if_pos hheading])
      · rw [Node.linkHeadings, if_neg hheading, Node.markLinks_of_ne hname, hchildren]
        cases markLinksList target internalHosts children with
        | error e => rfl
        | ok marked => exact congrArg Except.ok (by rw [Node.linkHeadings, if_neg hheading])
  | .text _ _ => rfl
  | .comment _ => rfl
  | .doctype _ => rfl
  | .characterData _ => rfl
  | .declaration _ => rfl
  | .instruction _ => rfl

/-- Headings can be linked before links are marked, or after. -/
theorem markLinksList_linkHeadings : ∀ f : Forest,
    markLinksList target internalHosts (linkHeadingsList f) = (markLinksList target internalHosts f).map linkHeadingsList
  | [] => rfl
  | node :: rest => by
    rw [linkHeadingsList, markLinksList, markLinksList, node.markLinks_linkHeadings, markLinksList_linkHeadings rest]
    cases node.markLinks target internalHosts with
    | error e => rfl
    | ok marked =>
      cases markLinksList target internalHosts rest with
      | error e => rfl
      | ok others => rfl

end

/-- **Linking headings and marking links only annotate a page, and commute.** Linking puts one anchor in front of each heading
    that has an id, so without these anchors the page is what it was; marking sets the target and the relation of the
    links that leave the site. In either order the stages give the same page, or refuse the same link, and neither changes
    the outline. -/
theorem stages_annotate_and_commute (target : String) (internalHosts : List String) (f : Forest) :
    (∀ f', f' = linkHeadingsList f ↔ LinkedList f' ∧ unlinkHeadingsList f' = f) ∧
      (∀ f', markLinksList target internalHosts f = .ok f' →
        RelabelsList (MarksLeaving target internalHosts) f f' ∧ headingsList f' = headingsList f) ∧
      markLinksList target internalHosts (linkHeadingsList f)
        = (markLinksList target internalHosts f).map linkHeadingsList ∧
      headingsList (linkHeadingsList f) = headingsList f ∧
      ∀ f', markLinksList target internalHosts (linkHeadingsList f) = .ok f' → headingsList f' = headingsList f :=
  ⟨fun _ => eq_linkHeadingsList_iff, fun _ h => ⟨relabels_marksLeaving h, headings_markLinks h⟩,
    markLinksList_linkHeadings f, headings_linkHeadings f,
    fun _ h => (headings_markLinks h).trans (headings_linkHeadings f)⟩

end

end Folio.Html

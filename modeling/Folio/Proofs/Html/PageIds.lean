import Folio.Proofs.Html.Annotations
import Folio.Proofs.Html.HeadingIds
import Folio.Proofs.Html.Rendered

set_option autoImplicit false

/-! # Ids of a page

Working on a page gives ids to headings and leaves those of all other elements as they are (`otherIds_workOn`). So an id that
a heading is given is the id of no other heading. It is the id of another element exactly if the page is not sanitized and
its body has an element with that id, which is not a heading (`given_ids_occur`): ids of such elements are not reserved. -/

namespace Folio

open Html

namespace Html

/-! ## Elements that are not headings -/

/-- The ids of the elements of a forest that are not headings, in document order. -/
def otherIds (f : Forest) : List String :=
  (elementsList f).filterMap fun e => if isHeading e.1 then none else attribute? e.2 "id"

theorem otherIds_cons (node : Node) (f : Forest) : otherIds (node :: f) = otherIds [node] ++ otherIds f := by
  simp [otherIds, elementsList]

theorem otherIds_element (name : String) (attributes : List (String × String)) (children : Forest) :
    otherIds [.element name attributes children]
      = (if isHeading name then [] else (attribute? attributes "id").toList) ++ otherIds children := by
  rw [otherIds, elementsList, elementsList, List.append_nil, Node.elements, List.filterMap_cons, ← otherIds]
  cases isHeading name with
  | true => rfl
  | false => cases attribute? attributes "id" <;> simp

section

variable {r : String → List (String × String) → List (String × String) → Prop}

mutual

theorem Node.Relabels.otherIds_eq (hr : ∀ name attributes attributes', isHeading name = false →
    r name attributes attributes' → attribute? attributes' "id" = attribute? attributes "id") :
    ∀ {node node' : Node}, node.Relabels r node' → otherIds [node'] = otherIds [node]
  | .element name attributes _, _, ⟨attributes', _, rfl, hlabel, hchildren⟩ => by
    rw [otherIds_element, otherIds_element, RelabelsList.otherIds_eq hr hchildren]
    cases hname : isHeading name with
    | true => rfl
    | false => rw [hr _ _ _ hname hlabel]
  | .text _ _, _, rfl => rfl
  | .comment _, _, rfl => rfl
  | .doctype _, _, rfl => rfl
  | .characterData _, _, rfl => rfl
  | .declaration _, _, rfl => rfl
  | .instruction _, _, rfl => rfl

/-- The ids of elements that are not headings stay if their attributes change in other ways. -/
theorem RelabelsList.otherIds_eq (hr : ∀ name attributes attributes', isHeading name = false →
    r name attributes attributes' → attribute? attributes' "id" = attribute? attributes "id") :
    ∀ {f f' : Forest}, RelabelsList r f f' → otherIds f' = otherIds f
  | [], _, rfl => rfl
  | node :: rest, _, ⟨node', rest', rfl, hnode, hrest⟩ => by
    rw [otherIds_cons node', otherIds_cons node rest, hnode.otherIds_eq hr, RelabelsList.otherIds_eq hr hrest]

end

end

theorem otherIds_headingAnchor_cons (id : String) (f : Forest) : otherIds (headingAnchor id :: f) = otherIds f := by
  rw [otherIds_cons]
  rfl

mutual

theorem Node.otherIds_linkHeadings : ∀ node : Node, otherIds [node.linkHeadings] = otherIds [node]
  | .element name attributes children => by
    rw [Node.linkHeadings, otherIds_element]
    split
    · rw [otherIds_element, otherIds_headingAnchor_cons, otherIds_linkHeadings children]
    · rw [otherIds_element, otherIds_linkHeadings children]
  | .text _ _ => rfl
  | .comment _ => rfl
  | .doctype _ => rfl
  | .characterData _ => rfl
  | .declaration _ => rfl
  | .instruction _ => rfl

/-- Anchors have no ids. -/
theorem otherIds_linkHeadings : ∀ f : Forest, otherIds (linkHeadingsList f) = otherIds f
  | [] => rfl
  | node :: rest => by
    rw [linkHeadingsList, otherIds_cons, otherIds_cons node rest, node.otherIds_linkHeadings, otherIds_linkHeadings rest]

end

theorem otherIds_assignHeadingIds (f : Forest) : otherIds (assignHeadingIds f) = otherIds f := by
  refine (relabels_giveIds _ f).otherIds_eq fun name attributes attributes' hname hgives => ?_
  rcases hgives with rfl | ⟨hheading, -⟩
  · rfl
  · rw [hname] at hheading
    cases hheading

theorem otherIds_markLinks {target : String} {internalHosts : List String} {f f' : Forest}
    (h : markLinksList target internalHosts f = .ok f') : otherIds f' = otherIds f := by
  refine (relabels_marksLeaving h).otherIds_eq fun name attributes attributes' _ hmarks => ?_
  rcases hmarks with ⟨-, rfl⟩ | ⟨-, rfl⟩
  · rw [attribute?_setAttribute_of_ne (by decide), attribute?_setAttribute_of_ne (by decide)]
  · rfl

/-- What is allowed in a page has no ids. -/
theorem AllowList.IsKept.otherIds_eq {f : Forest} (h : AllowList.standard.IsKept f) : otherIds f = [] := by
  refine List.filterMap_eq_nil_iff.2 fun e he => ?_
  obtain ⟨-, -, hallowed⟩ := (h.allowed none).of_mem he
  split
  · rfl
  · refine Option.eq_none_iff_forall_ne_some.2 fun id hid => ?_
    have hname : "id" ∉ AllowList.standard.attributeNames := by decide
    exact hname (AllowList.mem_attributeNames (hallowed.2 _ (mem_of_lookup_eq_some hid)).1)

/-! ## Headings -/

theorem map_id_headings (name : String) (attributes : List (String × String)) (children : Forest) :
    (Node.element name attributes children).headings.map Heading.id
      = (if isHeading name then [idOf attributes] else []) ++ (headingsList children).map Heading.id := by
  rw [Node.headings, isHeading]
  cases headingDepth? name <;> rfl

mutual

theorem Node.Fills.ids_perm : ∀ {node node' : Node} {given : List String}, node.Fills given node' →
    (node'.headings.map Heading.id).Perm (headingIds [node] ++ given)
  | .element name attributes children, _, _, ⟨first, given, attributes', children', rfl, rfl, hid, hchildren⟩ => by
    have hperm := hchildren.ids_perm
    rw [map_id_headings, headingIds_element]
    unfold FillsId at hid
    split at hid
    · next hbare =>
      obtain ⟨id, rfl, rfl⟩ := hid
      rw [idOf_setAttribute, if_pos hbare.1, if_neg (by simp [hbare.2]), List.nil_append]
      exact (hperm.cons id).trans List.perm_middle.symm
    · next hfull =>
      obtain ⟨rfl, rfl⟩ := hid
      rw [List.nil_append]
      cases hname : isHeading name with
      | false => simpa using hperm
      | true =>
        have hfound : idOf attributes' ≠ "" := fun hempty => hfull ⟨hname, hempty⟩
        simpa [hfound] using hperm
  | .text _ _, _, _, ⟨rfl, rfl⟩ => .refl _
  | .comment _, _, _, ⟨rfl, rfl⟩ => .refl _
  | .doctype _, _, _, ⟨rfl, rfl⟩ => .refl _
  | .characterData _, _, _, ⟨rfl, rfl⟩ => .refl _
  | .declaration _, _, _, ⟨rfl, rfl⟩ => .refl _
  | .instruction _, _, _, ⟨rfl, rfl⟩ => .refl _

/-- The headings of a forest that has been filled have the ids that were there and those that were given. -/
theorem FillsList.ids_perm : ∀ {f f' : Forest} {given : List String}, FillsList given f f' →
    ((headingsList f').map Heading.id).Perm (headingIds f ++ given)
  | [], _, _, ⟨rfl, rfl⟩ => .refl _
  | node :: rest, _, _, ⟨first, later, node', rest', rfl, rfl, hnode, hrest⟩ => by
    rw [headingsList, List.map_append, headingIds_cons node rest]
    refine (hnode.ids_perm.append hrest.ids_perm).trans ?_
    rw [List.append_assoc, List.append_assoc]
    exact .append_left _ (List.perm_append_comm_assoc first (headingIds rest) later)

end

/-- An id that is given is the id of one heading. -/
theorem FillsList.count_ids {f f' : Forest} {given : List String} (h : FillsList given f f') (hnodup : given.Nodup)
    {id : String} (hgiven : id ∈ given) (hnew : id ∉ headingIds f) : ((headingsList f').map Heading.id).count id = 1 := by
  rw [h.ids_perm.count_eq, List.count_append, List.count_eq_zero_of_not_mem hnew, List.count_eq_one_of_mem hnodup hgiven]

end Html

/-! ## Pages -/

/-- The part of a body that a page is made of. -/
def RenderOptions.cleaned (options : RenderOptions) (tree : Forest) : Forest :=
  if options.sanitize then Html.sanitize tree else tree

section

variable {options : RenderOptions} {tree page : Forest}

/-- A page with heading ids is linked, and its links are marked if they are to be. -/
theorem workOn_of_headingIds (hids : options.generateHeadingIds = true) (h : workOn options tree = .ok page) :
    page = linkHeadingsList (assignHeadingIds (options.cleaned tree)) ∨
      ∃ target : LinkTarget, markLinksList target.name options.internalHosts
        (linkHeadingsList (assignHeadingIds (options.cleaned tree))) = .ok page := by
  unfold workOn at h
  cases htarget : options.externalLinkTarget with
  | none =>
    simp only [hids, if_true, htarget] at h
    exact .inl (Except.ok.inj h).symm
  | some target =>
    simp only [hids, if_true, htarget] at h
    exact .inr ⟨target, Except.mapError_eq_ok_iff.1 h⟩

/-- The outline of a page is that of the page with its ids assigned. -/
theorem headings_workOn (hids : options.generateHeadingIds = true) (h : workOn options tree = .ok page) :
    headingsList page = headingsList (assignHeadingIds (options.cleaned tree)) := by
  rcases workOn_of_headingIds hids h with rfl | ⟨target, hmarks⟩
  · exact headings_linkHeadings _
  · exact (headings_markLinks hmarks).trans (headings_linkHeadings _)

/-- Elements that are not headings have ids only in pages that are not sanitized: those that they have in the body. -/
theorem otherIds_workOn (hids : options.generateHeadingIds = true) (h : workOn options tree = .ok page) :
    otherIds page = if options.sanitize then [] else otherIds tree := by
  have hpage : otherIds page = otherIds (options.cleaned tree) := by
    rcases workOn_of_headingIds hids h with rfl | ⟨target, hmarks⟩
    · rw [otherIds_linkHeadings, otherIds_assignHeadingIds]
    · rw [otherIds_markLinks hmarks, otherIds_linkHeadings, otherIds_assignHeadingIds]
  rw [hpage, RenderOptions.cleaned]
  split
  · exact (isKept_sanitize tree).otherIds_eq
  · rfl

end

/-- **An id that a heading is given is the id of no other heading, and of another element exactly if the page is not
    sanitized and its body has an element with that id, which is not a heading.** -/
theorem given_ids_occur {options : RenderOptions} {body : String} {result : RenderResult}
    (hids : options.generateHeadingIds = true) (h : render options body = .ok result) :
    ∃ tree page given, readBody options.allowHtml body = .ok tree ∧ workOn options tree = .ok page ∧
      result = ⟨print page, headingsList page⟩ ∧
      FillsList given (options.cleaned tree) (assignHeadingIds (options.cleaned tree)) ∧
      Allocates (· ∈ headingIds (options.cleaned tree)) (bareTextsList (options.cleaned tree)) given ∧
      headingsList page = headingsList (assignHeadingIds (options.cleaned tree)) ∧
      (∀ id ∈ given, ((headingsList page).map Heading.id).count id = 1) ∧
      ∀ id ∈ given, id ∈ otherIds page ↔ options.sanitize = false ∧ id ∈ otherIds tree := by
  obtain ⟨tree, hread, h⟩ := Except.bind_eq_ok_iff.1 h
  obtain ⟨page, hwork, h⟩ := Except.bind_eq_ok_iff.1 h
  obtain ⟨given, hfills, hgiven⟩ := fills_assignHeadingIds (options.cleaned tree)
  have hheadings := headings_workOn hids hwork
  refine ⟨tree, page, given, hread, hwork, (Except.pure_eq_ok_iff.1 h).symm, hfills, hgiven, hheadings, fun id hid => ?_,
    fun id hid => ?_⟩
  · rw [hheadings]
    exact hfills.count_ids hgiven.nodup hid (hgiven.not_taken id hid)
  · rw [otherIds_workOn hids hwork]
    cases options.sanitize <;> simp

/-- A page that is not sanitized, with an element in front of a heading that has the id for the heading's text. -/
def shadowedBody : String := "<div id=\"intro\"></div>\n\n# Intro"

theorem shadowedBody_repeats_id : ∃ result page, render { sanitize := false } shadowedBody = .ok result ∧
    result = ⟨print page, headingsList page⟩ ∧ result.headings = [⟨1, "Intro", "intro"⟩] ∧ "intro" ∈ otherIds page := by
  have hrenders : (render { sanitize := false } shadowedBody).toOption.map (·.headings)
      = some [⟨1, "Intro", "intro"⟩] := by decide +kernel
  have hreads : (readBody true shadowedBody).toOption.map (fun tree => (otherIds tree, headingIds tree))
      = some (["intro"], []) := by decide +kernel
  obtain ⟨result, hresult, hheadings⟩ := Option.map_eq_some_iff.1 hrenders
  obtain ⟨tree', htree, hids⟩ := Option.map_eq_some_iff.1 hreads
  obtain ⟨hothers, hnone⟩ := Prod.mk.inj hids
  have hrender := Except.toOption_eq_some_iff.1 hresult
  obtain ⟨tree, page, given, hread, -, rfl, hfills, -, hsame, -, hclash⟩ := given_ids_occur rfl hrender
  obtain rfl := Except.ok.inj (hread.symm.trans (Except.toOption_eq_some_iff.1 htree))
  refine ⟨_, page, hrender, rfl, hheadings, ?_⟩
  -- no heading of the body has an id, so the id of the heading was given to it
  have hperm : ((headingsList page).map Heading.id).Perm (headingIds tree ++ given) := hsame ▸ hfills.ids_perm
  rw [show headingsList page = _ from hheadings, hnone, List.nil_append] at hperm
  have hgiven : "intro" ∈ given := hperm.mem_iff.1 List.mem_cons_self
  exact (hclash "intro" hgiven).2 ⟨rfl, by rw [hothers]; simp⟩

end Folio

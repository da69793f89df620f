import Folio.Html.ExternalLinks
import Folio.Proofs.Except
import Folio.Proofs.Html.Anchors
import Folio.Proofs.Url.External
import Folio.Url.Reference

set_option autoImplicit false

/-! # Links that leave the site

Marking external links changes attributes of links only (`relabels_markLinks`), and spares the anchors of headings
whatever their ids are (`sparesAnchors_marks`). A link that had neither a target nor a relation has both afterwards if it
leaves the site, and neither if it does not (`Marks.isMarked`). -/

namespace Folio.Html

/-! ## References to a place in the page -/

/-- A reference to a place in the page does not leave the site, whatever the place is called. -/
theorem isExternal_fragment (id : String) (internalHosts : List String) :
    Url.isExternal ("#" ++ id) internalHosts = .ok false := by
  obtain ⟨cs, hcs⟩ := Text.trim_cons (show Text.isBlank '#' = false by decide) id.toList
  have htrim : Text.trimBlanks ("#" ++ id).toList = '#' :: cs := by
    rw [String.toList_append]
    exact hcs
  have hsplit : ∃ parts, Url.split ('#' :: cs) = .ok parts ∧ parts.authority = [] := by
    rw [Url.split, List.dropWhile_cons_of_neg (by decide), List.filter_cons_of_pos (by decide),
      Url.splitScheme_cons (by decide)]
    exact ⟨_, rfl, rfl⟩
  obtain ⟨parts, hparts, hauthority⟩ := hsplit
  exact Url.isExternal_of_no_authority (htrim ▸ hparts) hauthority internalHosts

/-- A reference to a place in the page is relative, whatever the place is called. -/
theorem ofText_fragment (id : String) : Url.Reference.ofText ("#" ++ id).toList = .relative := by
  have htext : ("#" ++ id).toList = '#' :: id.toList := by simp [String.toList_append]
  obtain ⟨cs, hcs⟩ := Text.trim_cons (p := fun c => decide (c.toNat ≤ 0x20)) (c := '#') (by decide) id.toList
  have hsignificant : ∃ rest, Url.Reference.significant ('#' :: id.toList) = '#' :: rest := by
    simp only [Url.Reference.significant, hcs]
    exact ⟨_, List.filter_cons_of_pos (by decide)⟩
  obtain ⟨rest, hrest⟩ := hsignificant
  rw [htext, Url.Reference.ofText, hrest]
  rfl

section

variable {target : String} {internalHosts : List String} {attributes attributes' : List (String × String)}

theorem markExternal_of_none (h : attribute? attributes "href" = none) :
    markExternal target internalHosts attributes = .ok attributes := by
  rw [markExternal, h]

theorem markExternal_of_some {href : String} (h : attribute? attributes "href" = some href) :
    markExternal target internalHosts attributes = (Url.isExternal href internalHosts).map fun external =>
      if external then setAttribute "rel" externalRelation (setAttribute "target" target attributes) else attributes := by
  rw [markExternal, h]
  cases hexternal : Url.isExternal href internalHosts with
  | error e => simp [hexternal, bind, Except.bind, Except.map]
  | ok external => cases external <;> simp [hexternal, bind, Except.bind, Except.map, pure, Except.pure]

end

/-- Attributes of a link are marked if it leaves the site; others stay. -/
def Marks (target : String) (internalHosts : List String) (name : String) (attributes attributes' : List (String × String)) :
    Prop :=
  if name = "a" then markExternal target internalHosts attributes = .ok attributes' else attributes' = attributes

section

variable {target : String} {internalHosts : List String}

mutual

theorem Node.relabels_markLinks : ∀ {node node' : Node}, node.markLinks target internalHosts = .ok node' →
    node.Relabels (Marks target internalHosts) node'
  | .element name attributes children, node', h => by
    rw [Node.markLinks] at h
    by_cases hname : name = "a"
    · rw [if_pos hname] at h
      obtain ⟨attributes', hmark, h⟩ := Except.bind_eq_ok_iff.1 h
      obtain ⟨children', hchildren, h⟩ := Except.bind_eq_ok_iff.1 h
      obtain rfl := Except.pure_eq_ok_iff.1 h
      exact ⟨attributes', children', rfl, (if_pos hname).mpr hmark, relabels_markLinks hchildren⟩
    · rw [if_neg hname] at h
      obtain ⟨_, hsame, h⟩ := Except.bind_eq_ok_iff.1 h
      obtain rfl := Except.pure_eq_ok_iff.1 hsame
      obtain ⟨children', hchildren, h⟩ := Except.bind_eq_ok_iff.1 h
      obtain rfl := Except.pure_eq_ok_iff.1 h
      exact ⟨attributes, children', rfl, (if_neg hname).mpr rfl, relabels_markLinks hchildren⟩
  | .text _ _, _, h => (Except.ok.inj h).symm
  | .comment _, _, h => (Except.ok.inj h).symm
  | .doctype _, _, h => (Except.ok.inj h).symm
  | .characterData _, _, h => (Except.ok.inj h).symm
  | .declaration _, _, h => (Except.ok.inj h).symm
  | .instruction _, _, h => (Except.ok.inj h).symm

theorem relabels_markLinks : ∀ {f f' : Forest}, markLinksList target internalHosts f = .ok f' →
    RelabelsList (Marks target internalHosts) f f'
  | [], _, h => (Except.ok.inj h).symm
  | node :: rest, f', h => by
    rw [markLinksList] at h
    obtain ⟨node', hnode, h⟩ := Except.bind_eq_ok_iff.1 h
    obtain ⟨rest', hrest, h⟩ := Except.bind_eq_ok_iff.1 h
    obtain rfl := Except.pure_eq_ok_iff.1 h
    exact ⟨node', rest', rfl, Node.relabels_markLinks hnode, relabels_markLinks hrest⟩

end

/-! ## What marking does to one element -/

variable {name : String} {attributes attributes' : List (String × String)}

theorem Marks.eq_of_ne (h : Marks target internalHosts name attributes attributes') (hname : name ≠ "a") :
    attributes' = attributes :=
  (if_neg hname).mp h

/-- A link leaves the site: it leads to another host than the internal ones. -/
def LeavesSite (internalHosts : List String) (attributes : List (String × String)) : Prop :=
  ∃ href, attribute? attributes "href" = some href ∧ Url.isExternal href internalHosts = .ok true

/-- The attributes of a link are marked exactly if it leaves the site. -/
theorem Marks.cases (h : Marks target internalHosts "a" attributes attributes') :
    (LeavesSite internalHosts attributes ∧
      attributes' = setAttribute "rel" externalRelation (setAttribute "target" target attributes)) ∨
    (¬LeavesSite internalHosts attributes ∧ attributes' = attributes) := by
  have hmark : markExternal target internalHosts attributes = .ok attributes' := (if_pos rfl).mp h
  cases hhref : attribute? attributes "href" with
  | none =>
    -- without a reference a link leads nowhere
    rw [markExternal_of_none hhref] at hmark
    refine .inr ⟨?_, (Except.ok.inj hmark).symm⟩
    rintro ⟨href, hsome, -⟩
    simp [hhref] at hsome
  | some href =>
    rw [markExternal_of_some hhref] at hmark
    obtain ⟨external, hexternal, rfl⟩ := Except.map_eq_ok_iff.1 hmark
    cases external with
    | true => exact .inl ⟨⟨href, hhref, hexternal⟩, rfl⟩
    | false =>
      refine .inr ⟨?_, rfl⟩
      rintro ⟨other, hother, hleaves⟩
      obtain rfl := Option.some.inj (hhref.symm.trans hother)
      simp [hexternal] at hleaves

theorem Marks.isTag (htag : IsTag name attributes) (h : Marks target internalHosts name attributes attributes') :
    IsTag name attributes' := by
  by_cases hname : name = "a"
  · subst hname
    rcases h.cases with ⟨-, rfl⟩ | ⟨-, rfl⟩
    · have htarget : attributeValue "a" "target" target = target := if_neg (by decide)
      exact (htag.setAttribute (by decide) htarget).setAttribute (by decide) (by decide)
    · exact htag
  · rwa [h.eq_of_ne hname]

theorem not_leavesSite_of_perm {id : String} (hperm : attributes.Perm (anchorAttributes id)) :
    ¬LeavesSite internalHosts attributes := by
  rintro ⟨href, hhref, hleaves⟩
  have hid : attribute? (anchorAttributes id) "href" = some ("#" ++ id) := rfl
  rw [(isTag_anchorAttributes id).distinct.attribute?_perm hperm, hid] at hhref
  obtain rfl := Option.some.inj hhref
  rw [isExternal_fragment] at hleaves
  cases hleaves

/-- Marking links spares the anchors of headings. -/
theorem sparesAnchors_marks : SparesAnchors (Marks target internalHosts) where
  ids name attributes attributes' hheading h := by
    have hname : name ≠ "a" := by
      rintro rfl
      exact absurd hheading (by decide)
    rw [h.eq_of_ne hname]
  anchors id attributes attributes' hperm h := by
    rcases h.cases with ⟨hleaves, -⟩ | ⟨-, rfl⟩
    · exact absurd hleaves (not_leavesSite_of_perm hperm)
    · exact hperm
  icons attributes' h := h.eq_of_ne (by decide)

/-- A link has a target and a relation exactly if a target is given and it leaves the site. -/
def IsMarked (target : Option String) (internalHosts : List String) (attributes : List (String × String)) : Prop :=
  (∀ value, attribute? attributes "target" = some value ↔ target = some value ∧ LeavesSite internalHosts attributes) ∧
  (∀ value, attribute? attributes "rel" = some value ↔
    value = externalRelation ∧ target.isSome = true ∧ LeavesSite internalHosts attributes)

theorem isMarked_congr {given : Option String} (h : ∀ n, attribute? attributes' n = attribute? attributes n) :
    IsMarked given internalHosts attributes' ↔ IsMarked given internalHosts attributes := by
  simp only [IsMarked, LeavesSite, h]

/-- A link without target and relation is not marked if no target is given. -/
theorem isMarked_none (htarget : attribute? attributes "target" = none) (hrel : attribute? attributes "rel" = none) :
    IsMarked none internalHosts attributes := by
  simp [IsMarked, htarget, hrel]

/-- A link without target and relation is marked as it should be. -/
theorem Marks.isMarked (h : Marks target internalHosts "a" attributes attributes')
    (htarget : attribute? attributes "target" = none) (hrel : attribute? attributes "rel" = none) :
    IsMarked (some target) internalHosts attributes' := by
  rcases h.cases with ⟨hleaves, rfl⟩ | ⟨hstays, rfl⟩
  · have hhref : attribute? (setAttribute "rel" externalRelation (setAttribute "target" target attributes)) "href"
        = attribute? attributes "href" := by
      rw [attribute?_setAttribute_of_ne (by decide), attribute?_setAttribute_of_ne (by decide)]
    have hmarked : attribute? (setAttribute "rel" externalRelation (setAttribute "target" target attributes)) "target"
        = some target := by
      rw [attribute?_setAttribute_of_ne (by decide), attribute?_setAttribute_self]
    obtain ⟨href, hfound, hexternal⟩ := hleaves
    simp [IsMarked, LeavesSite, hhref, hmarked, attribute?_setAttribute_self, hfound, hexternal, eq_comm]
  · simp [IsMarked, htarget, hrel, hstays]

end

end Folio.Html

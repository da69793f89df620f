import Folio.Render
import Folio.Proofs.Html.Links
import Folio.Proofs.Html.RoundTrip
import Folio.Proofs.Html.Sanitized
import Folio.Proofs.PageModule.Compiled

set_option autoImplicit false

/-! # Rendered pages

A page that is sanitized when it is rendered is a normal forest, with all that has been done to it (`workOn_spec`). So its
text reads back as the page itself (`readForest_render`), and what is known of the page is known of its text: it holds
what the allow-list permits and what has been added (`rendered_page_is_allowed`), its outline is the one that is listed
(`headings_read_back`), and the links that leave the site are marked (`external_links_are_marked`). -/

namespace Folio

open Html

/-! ## What elements of a page may be -/

/-- An element of a rendered page: it is allowed, and so are its attributes, but for the id of a heading and the marks of
    a link; or it is the anchor of the heading whose first child it is. -/
def Html.AllowList.AllowsRendered (policy : AllowList) : ElementProperty := fun own name attributes =>
  name ∈ policy.elements ∧
  ((∀ a ∈ attributes, policy.Allows name a ∨ (isHeading name = true ∧ a.1 = "id") ∨
      (name = "a" ∧ (a.1 = "target" ∨ a.1 = "rel"))) ∨
    ∃ id, own = some id ∧ id ≠ "" ∧ name = "a" ∧ attributes.Perm (anchorAttributes id))

/-- An element of a page whose links are not marked yet. -/
def Html.AllowList.AllowsUnmarked (policy : AllowList) : ElementProperty := fun own name attributes =>
  IsTag name attributes ∧ name ∈ policy.elements ∧
  ((∀ a ∈ attributes, policy.Allows name a ∨ (isHeading name = true ∧ a.1 = "id")) ∨
    ∃ id, own = some id ∧ id ≠ "" ∧ name = "a" ∧ attributes.Perm (anchorAttributes id))

/-- An element of a page with all that the options ask for: its links are marked if they leave the site. -/
def RenderOptions.Finishes (options : RenderOptions) : ElementProperty := fun own name attributes =>
  AllowList.standard.AllowsRendered own name attributes ∧
  (name = "a" → IsMarked (options.externalLinkTarget.map LinkTarget.name) options.internalHosts attributes)

section

variable {policy : AllowList} {own : Option String} {name : String} {attributes attributes' : List (String × String)}

theorem Html.AllowList.AllowsUnmarked.rendered (h : policy.AllowsUnmarked own name attributes) :
    policy.AllowsRendered own name attributes :=
  ⟨h.2.1, h.2.2.imp_left fun hattributes a ha => (hattributes a ha).imp_right .inl⟩

/-- Before links are marked, none has a target or a relation. -/
theorem not_marked_of_allowsUnmarked (h : AllowList.standard.AllowsUnmarked own "a" attributes) :
    attribute? attributes "target" = none ∧ attribute? attributes "rel" = none := by
  have hnone : ∀ n ∈ ["target", "rel"], attribute? attributes n = none := by
    intro n hn
    refine Option.eq_none_iff_forall_ne_some.2 fun value hvalue => ?_
    -- such an attribute would be allowed by the policy, or one of an anchor
    have hmem := h.1.distinct.attribute?_eq_some_iff.1 hvalue
    rcases h.2.2 with hattributes | ⟨id, -, -, -, hperm⟩
    · rcases hattributes _ hmem with hallows | ⟨hheading, -⟩
      · have hnames : ∀ n ∈ ["target", "rel"], n ∉ AllowList.standard.attributeNames := by decide
        exact hnames n hn (AllowList.mem_attributeNames hallows.1)
      · exact absurd hheading (by decide)
    · have hnames : ∀ n ∈ ["target", "rel"], n ∉ (anchorAttributes id).map Prod.fst := by
        rw [show (anchorAttributes id).map Prod.fst = ["aria-hidden", "tabindex", "href"] from rfl]
        decide
      exact hnames n hn (List.mem_map_of_mem (f := Prod.fst) (hperm.mem_iff.1 hmem))
  exact ⟨hnone _ (by simp), hnone _ (by simp)⟩

/-! ## Working on a page -/

theorem allowsUnmarked_givesId {own' : Option String} (hpolicy : AllowList.standard.AllowsElement name attributes)
    (htag : IsTag name attributes) (h : GivesId name attributes attributes') :
    AllowList.standard.AllowsUnmarked own' name attributes' := by
  refine ⟨h.isTag htag, hpolicy.1, .inl fun a ha => ?_⟩
  rcases h with rfl | ⟨hheading, id, rfl⟩
  · exact .inl (hpolicy.2 a ha)
  · rcases mem_of_mem_setAttribute ha with rfl | hmem
    · exact .inr ⟨hheading, rfl⟩
    · exact .inl (hpolicy.2 a hmem)

theorem ownId?_congr (h : isHeading name = true → idOf attributes' = idOf attributes) :
    ownId? name attributes' = ownId? name attributes := by
  unfold ownId?
  split
  · next hheading => rw [h hheading]
  · rfl

/-- Marking links finishes the elements of a page. -/
theorem finishes_marks {options : RenderOptions} {target : LinkTarget} (htarget : options.externalLinkTarget = some target)
    (hp : AllowList.standard.AllowsUnmarked own name attributes)
    (h : Marks target.name options.internalHosts name attributes attributes') :
    options.Finishes own name attributes' := by
  by_cases hname : name = "a"
  · subst hname
    obtain ⟨hnoTarget, hnoRelation⟩ := not_marked_of_allowsUnmarked hp
    refine ⟨⟨hp.2.1, ?_⟩, fun _ => by rw [htarget]; exact h.isMarked hnoTarget hnoRelation⟩
    rcases hp.2.2 with hattributes | ⟨id, hown, hid, -, hperm⟩
    · refine .inl fun a ha => ?_
      rcases h.cases with ⟨-, rfl⟩ | ⟨-, rfl⟩
      -- what is new in a marked link are its marks
      · rcases mem_of_mem_setAttribute ha with rfl | ha
        · exact .inr (.inr ⟨rfl, .inr rfl⟩)
        · rcases mem_of_mem_setAttribute ha with rfl | ha
          · exact .inr (.inr ⟨rfl, .inl rfl⟩)
          · exact (hattributes a ha).imp_right .inl
      · exact (hattributes a ha).imp_right .inl
    · exact .inr ⟨id, hown, hid, rfl, sparesAnchors_marks.anchors _ _ _ hperm h⟩
  · rw [h.eq_of_ne hname]
    exact ⟨hp.rendered, fun heq => absurd heq hname⟩

/-- Arranging attributes leaves the elements of a page finished. -/
theorem finishes_arranges {options : RenderOptions} (hp : options.Finishes own name attributes)
    (h : Arranges name attributes attributes') : options.Finishes own name attributes' := by
  refine ⟨⟨hp.1.1, hp.1.2.imp (fun hattributes a ha => hattributes a (h.perm.mem_iff.1 ha)) ?_⟩, fun hname => ?_⟩
  · rintro ⟨id, hown, hid, hname, hperm⟩
    exact ⟨id, hown, hid, hname, h.perm.trans hperm⟩
  · exact (isMarked_congr h.attribute?_eq).2 (hp.2 hname)

end

section

variable {f page : Forest} {options : RenderOptions}

/-- The headings of a page get ids and anchors. -/
theorem linked_of_isKept (h : AllowList.standard.IsKept f) : IsNormalList false (linkHeadingsList (assignHeadingIds f)) ∧
    EachList AllowList.standard.AllowsUnmarked none (linkHeadingsList (assignHeadingIds f)) := by
  have hids : RelabelsList GivesId f (assignHeadingIds f) := relabels_giveIds _ _
  -- elements that are kept are allowed wherever they stand, so in a heading, too
  have hgiven : EachList (fun _ name attributes => ∀ own, AllowList.standard.AllowsUnmarked own name attributes) none
      (assignHeadingIds f) := by
    refine hids.each (s := fun _ _ => True) trivial (fun _ _ name attributes attributes' _ hp h => ?_) trivial
      (h.allowed none)
    exact ⟨fun own => allowsUnmarked_givesId hp.2 hp.1 h, trivial⟩
  refine ⟨isNormal_linkHeadingsList (hids.isNormal (fun _ _ _ htag h => h.isTag htag) h.normal), ?_⟩
  refine each_linkHeadings (fun _ own' _ _ h => h own') (fun id hid => ?_) ?_ hgiven
  · exact ⟨isTag_anchorAttributes id, by decide, .inr ⟨id, rfl, hid, rfl, .refl _⟩⟩
  · refine ⟨isTag_anchorIcon, by decide, .inl fun a ha => .inl ?_⟩
    obtain rfl := List.mem_singleton.1 ha
    exact ⟨by decide, fun h => absurd h (by decide)⟩

/-- The headings of a page get ids and anchors if they are to have any. -/
theorem prepared_of_isKept (h : AllowList.standard.IsKept f) (headingIds : Bool)
    (hpage : (if headingIds then linkHeadingsList (assignHeadingIds f) else f) = page) :
    IsNormalList false page ∧ EachList AllowList.standard.AllowsUnmarked none page ∧
      (headingIds = true → AnchoredList page) := by
  cases headingIds with
  | false =>
    obtain rfl : f = page := hpage
    exact ⟨h.normal, (h.allowed none).imp fun _ _ _ h => ⟨h.1, h.2.1, .inl fun a ha => .inl (h.2.2 a ha)⟩, nofun⟩
  | true =>
    obtain rfl : linkHeadingsList (assignHeadingIds f) = page := hpage
    exact ⟨(linked_of_isKept h).1, (linked_of_isKept h).2, fun _ => anchored_linkHeadings _⟩

/-- The links of a page are marked if they are to be. -/
theorem finished_of_marks {forest : Forest} (hnormal : IsNormalList false forest)
    (heach : EachList AllowList.standard.AllowsUnmarked none forest)
    (hpage : (match options.externalLinkTarget with
      | some target => (markLinksList target.name options.internalHosts forest).mapError RenderError.url
      | none => .ok forest) = .ok page) :
    IsNormalList false page ∧ EachList options.Finishes none page ∧ (AnchoredList forest → AnchoredList page) := by
  cases htarget : options.externalLinkTarget with
  | none =>
    rw [htarget] at hpage
    obtain rfl := Except.ok.inj hpage
    refine ⟨hnormal, heach.imp fun own name attributes hp => ⟨hp.rendered, fun hname => ?_⟩, id⟩
    subst hname
    obtain ⟨hnoTarget, hnoRelation⟩ := not_marked_of_allowsUnmarked hp
    rw [htarget]
    exact isMarked_none hnoTarget hnoRelation
  | some target =>
    rw [htarget] at hpage
    have hmarks := relabels_markLinks (Except.mapError_eq_ok_iff.1 hpage)
    refine ⟨hmarks.isNormal (fun _ _ _ htag hmark => hmark.isTag htag) hnormal, ?_,
      fun hanchored => hanchored.relabel sparesAnchors_marks hmarks⟩
    refine hmarks.each (s := Eq) rfl ?_ rfl heach
    rintro own _ name attributes attributes' rfl hp hmark
    exact ⟨finishes_marks htarget hp hmark, (ownId?_congr fun hname => sparesAnchors_marks.ids _ _ _ hname hmark).symm⟩

/-- A page that has been worked on is normal, its elements are finished, and its headings have their anchors if they are to
    have any. -/
theorem workOn_spec (hsanitize : options.sanitize = true) {forest : Forest} (h : workOn options forest = .ok page) :
    IsNormalList false page ∧ EachList options.Finishes none page ∧
      (options.generateHeadingIds = true → AnchoredList page) := by
  have hkept := isKept_sanitize forest
  unfold workOn at h
  simp only [hsanitize, if_true] at h
  generalize sanitize forest = f at h hkept
  obtain ⟨hnormal, heach, hanchored⟩ := prepared_of_isKept hkept options.generateHeadingIds rfl
  obtain ⟨hfinished, heachFinished, hspares⟩ := finished_of_marks hnormal heach h
  exact ⟨hfinished, heachFinished, fun hids => hspares (hanchored hids)⟩

end

/-- The text of a page reads back as the page, with attributes arranged: its elements are finished, its headings have
    their anchors if they are to have any, and its outline is the one that is listed. -/
theorem readForest_render {options : RenderOptions} {body : String} {result : RenderResult}
    (hsanitize : options.sanitize = true) (h : render options body = .ok result) :
    ∃ page, readForest result.html = .ok page ∧ EachList options.Finishes none page ∧
      (options.generateHeadingIds = true → AnchoredList page) ∧ headingsList page = result.headings := by
  unfold render at h
  obtain ⟨forest, -, h⟩ := Except.bind_eq_ok_iff.1 h
  obtain ⟨page, hpage, h⟩ := Except.bind_eq_ok_iff.1 h
  obtain rfl := Except.pure_eq_ok_iff.1 h
  obtain ⟨hnormal, heach, hanchored⟩ := workOn_spec hsanitize hpage
  have harrange := relabels_arrange hnormal
  refine ⟨arrangeList page, readForest_print hnormal, ?_, fun hids => (hanchored hids).relabel sparesAnchors_arranges
    harrange, headings_arrangeList hnormal⟩
  refine harrange.each (s := Eq) rfl ?_ rfl heach
  rintro own _ name attributes attributes' rfl hp harranged
  exact ⟨finishes_arranges hp harranged, (ownId?_congr fun _ => harranged.idOf_eq).symm⟩

/-! ## Nothing but what is allowed -/

section

variable {own : Option String} {name : String} {attributes : List (String × String)} {a : String × String}

/-- A rendered page has attributes of few names. -/
theorem name_of_allowsRendered (h : AllowList.standard.AllowsRendered own name attributes) (ha : a ∈ attributes) :
    a.1 ∈ AllowList.standard.attributeNames ++ ["id", "target", "rel", "aria-hidden", "tabindex"] := by
  rcases h.2 with hattributes | ⟨id, -, -, -, hperm⟩
  · rcases hattributes a ha with hallows | ⟨-, hid⟩ | ⟨-, hmark⟩
    · exact List.mem_append_left _ (AllowList.mem_attributeNames hallows.1)
    · simp [hid]
    · rcases hmark with hmark | hmark <;> simp [hmark]
  · have hnames : ∀ n ∈ (anchorAttributes id).map Prod.fst,
        n ∈ AllowList.standard.attributeNames ++ ["id", "target", "rel", "aria-hidden", "tabindex"] := by
      rw [show (anchorAttributes id).map Prod.fst = ["aria-hidden", "tabindex", "href"] from rfl]
      decide
    exact hnames _ (List.mem_map_of_mem (hperm.mem_iff.1 ha))

theorem reference_of_allowsRendered (h : AllowList.standard.AllowsRendered own name attributes) (ha : a ∈ attributes)
    (href : AllowList.isReferenceAttribute a.1 = true) : AllowList.standard.permitsReference a.2 = true := by
  have hother : ∀ n ∈ ["id", "target", "rel"], AllowList.isReferenceAttribute n ≠ true := by decide
  rcases h.2 with hattributes | ⟨id, -, -, -, hperm⟩
  · rcases hattributes a ha with hallows | ⟨-, hid⟩ | ⟨-, hmark⟩
    · exact hallows.permitsReference href
    · exact absurd (hid ▸ href) (hother "id" (by simp))
    · rcases hmark with hmark | hmark <;> exact absurd (hmark ▸ href) (hother _ (by simp))
  · have hmem := hperm.mem_iff.1 ha
    simp only [anchorAttributes, List.mem_cons, List.not_mem_nil, or_false] at hmem
    rcases hmem with rfl | rfl | rfl
    · exact absurd href (by decide)
    · exact absurd href (by decide)
    · rw [AllowList.permitsReference, ofText_fragment]

end

/-- **A rendered page holds nothing but what is allowed.** The text of a page that is sanitized when it is rendered reads
    back as a page of text and allowed elements; their attributes are allowed, or are the ids of headings, the marks of
    links or those of a heading's own anchor. So no script, style or event handler is left, and what is referred to is
    relative or has an allowed scheme. -/
theorem rendered_page_is_allowed {options : RenderOptions} {body : String} {result : RenderResult}
    (hsanitize : options.sanitize = true) (h : render options body = .ok result) :
    ∃ page, readForest result.html = .ok page ∧ EachList AllowList.standard.AllowsRendered none page ∧
      ∀ name attributes, (name, attributes) ∈ elementsList page →
        name ∉ ["script", "style"] ∧ ∀ a ∈ attributes, Text.startsWith "on" a.1.toList = false ∧
          (AllowList.isReferenceAttribute a.1 = true → Url.Reference.ofText a.2.toList = .relative ∨
            ∃ scheme ∈ AllowList.standard.schemes, Url.Reference.ofText a.2.toList = .absolute scheme) := by
  obtain ⟨page, hread, heach, -, -⟩ := readForest_render hsanitize h
  have hallowed : EachList AllowList.standard.AllowsRendered none page := heach.imp fun _ _ _ h => h.1
  refine ⟨page, hread, hallowed, fun name attributes hmem => ?_⟩
  obtain ⟨own, helement⟩ := hallowed.of_mem hmem
  have hnames : ∀ n ∈ ["script", "style"], n ∉ AllowList.standard.elements := by decide
  have hhandlers : ∀ n ∈ AllowList.standard.attributeNames ++ ["id", "target", "rel", "aria-hidden", "tabindex"],
      Text.startsWith "on" n.toList = false := by decide
  refine ⟨fun hname => hnames name hname helement.1, fun a ha =>
    ⟨hhandlers _ (name_of_allowsRendered helement ha), fun href => ?_⟩⟩
  have hpermits := reference_of_allowsRendered helement ha href
  unfold AllowList.permitsReference at hpermits
  split at hpermits
  · next hrelative => exact .inl hrelative
  · next scheme habsolute => exact .inr ⟨scheme, List.contains_iff_mem.1 hpermits, habsolute⟩
  · cases hpermits

/-- A page with a link that leaves the site and an event handler. -/
def hostileBody : String := "# <a href='//e'>x</a><i onclick='f()'>y</i>"

theorem exists_render_hostileBody : ∃ result, render {} hostileBody = .ok result := by
  have hrenders : (render {} hostileBody).toOption.isSome = true := by decide +kernel
  obtain ⟨result, hresult⟩ := Option.isSome_iff_exists.1 hrenders
  exact ⟨result, Except.toOption_eq_some_iff.1 hresult⟩

theorem hostileBody_is_cleaned : ∃ result page, render {} hostileBody = .ok result ∧ readForest result.html = .ok page ∧
    EachList AllowList.standard.AllowsRendered none page := by
  obtain ⟨result, hrender⟩ := exists_render_hostileBody
  obtain ⟨page, hread, hallowed, -⟩ := rendered_page_is_allowed rfl hrender
  exact ⟨result, page, hrender, hread, hallowed⟩

/-! ## The outline of a page -/

mutual

theorem Html.Node.length_headings : ∀ node : Node,
    node.headings.length = (node.elements.filter fun e => isHeading e.1).length
  | .element name attributes children => by
    rw [Node.headings, Node.elements, List.filter_cons]
    have hchildren := length_headingsList children
    cases hdepth : headingDepth? name with
    | none =>
      rw [if_neg (by simp [isHeading, hdepth])]
      exact hchildren
    | some depth =>
      rw [if_pos (by simp [isHeading, hdepth]), List.length_cons, List.length_cons, hchildren]
  | .text _ _ => rfl
  | .comment _ => rfl
  | .doctype _ => rfl
  | .characterData _ => rfl
  | .declaration _ => rfl
  | .instruction _ => rfl

/-- An outline has as many headings as the page. -/
theorem Html.length_headingsList : ∀ f : Forest,
    (headingsList f).length = ((elementsList f).filter fun e => isHeading e.1).length
  | [] => rfl
  | node :: rest => by
    rw [headingsList, elementsList, List.length_append, List.filter_append, List.length_append,
      node.length_headings, length_headingsList rest]

end

/-- **The outline that is listed is the outline of the page.** -/
theorem headings_read_back {options : RenderOptions} {body : String} {result : RenderResult}
    (hsanitize : options.sanitize = true) (h : render options body = .ok result) :
    ∃ page, readForest result.html = .ok page ∧ headingsList page = result.headings ∧
      result.headings.length = ((elementsList page).filter fun e => isHeading e.1).length ∧
      ∀ heading ∈ result.headings, 1 ≤ heading.depth ∧ heading.depth ≤ 6 := by
  obtain ⟨page, hread, -, -, hheadings⟩ := readForest_render hsanitize h
  exact ⟨page, hread, hheadings, hheadings ▸ length_headingsList page, depth_render h⟩

/-- A page with a heading in a heading, and one whose text another heading has, too. -/
def nestedBody : String := "<h1>a<h2>b</h2></h1>\n\n# a"

theorem nestedBody_is_listed : ∃ result page, render {} nestedBody = .ok result ∧ readForest result.html = .ok page ∧
    headingsList page = result.headings ∧ result.headings = [⟨1, "a", "a"⟩, ⟨2, "b", "b"⟩, ⟨1, "a", "a-1"⟩] := by
  have hrenders : (render {} nestedBody).toOption.map (·.headings)
      = some [⟨1, "a", "a"⟩, ⟨2, "b", "b"⟩, ⟨1, "a", "a-1"⟩] := by decide +kernel
  obtain ⟨result, hresult, hheadings⟩ := Option.map_eq_some_iff.1 hrenders
  have hrender := Except.toOption_eq_some_iff.1 hresult
  obtain ⟨page, hread, hsame, -⟩ := headings_read_back rfl hrender
  exact ⟨result, page, hrender, hread, hsame, hheadings⟩

/-! ## Links that leave the site -/

/-- **A link has a target and a relation exactly if it leaves the site and a target is given.** The headings of a page with
    heading ids have their anchors in front, and no anchor has either. -/
theorem external_links_are_marked {options : RenderOptions} {body : String} {result : RenderResult}
    (hsanitize : options.sanitize = true) (h : render options body = .ok result) :
    ∃ page, readForest result.html = .ok page ∧
      (∀ attributes, ("a", attributes) ∈ elementsList page →
        IsMarked (options.externalLinkTarget.map LinkTarget.name) options.internalHosts attributes) ∧
      (options.generateHeadingIds = true → AnchoredList page) ∧
      ∀ id anchor, IsAnchor id anchor → ∀ e ∈ anchor.elements,
        attribute? e.2 "target" = none ∧ attribute? e.2 "rel" = none := by
  obtain ⟨page, hread, heach, hanchored, -⟩ := readForest_render hsanitize h
  refine ⟨page, hread, fun attributes hmem => ?_, hanchored, ?_⟩
  · obtain ⟨own, helement⟩ := heach.of_mem hmem
    exact helement.2 rfl
  · rintro id _ ⟨attributes, hperm, rfl⟩ e he
    simp only [Node.elements, elementsList, List.append_nil, List.mem_cons, List.not_mem_nil, or_false] at he
    rcases he with rfl | rfl
    · have hsame := (isTag_anchorAttributes id).distinct.attribute?_perm hperm
      rw [hsame, hsame]
      exact ⟨rfl, rfl⟩
    · exact ⟨rfl, rfl⟩

theorem hostileBody_is_marked : ∃ result page, render {} hostileBody = .ok result ∧ readForest result.html = .ok page ∧
    ∀ attributes, ("a", attributes) ∈ elementsList page → IsMarked (some "_blank") [] attributes := by
  obtain ⟨result, hrender⟩ := exists_render_hostileBody
  obtain ⟨page, hread, hmarked, -⟩ := external_links_are_marked rfl hrender
  exact ⟨result, page, hrender, hread, hmarked⟩

end Folio

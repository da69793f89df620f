import Folio.Path
import Mathlib.Data.List.Basic

set_option autoImplicit false

/-! # Names and the texts that spell them

The spelling of a path reads back as the path (`Path.ofText_text`), since no name holds a slash. The
names of a source give its slug, and with another ending the names of its module (`PageName`); both tell
pages apart. -/

namespace Folio

/-! ## Cutting -/

namespace Text

theorem cutAt_of_not_mem {sep : Char} {cs : List Char} (h : sep ∉ cs) : cutAt sep cs = [cs] := by
  induction cs with
  | nil => rfl
  | cons c cs ih =>
    have hc : c ≠ sep := fun hc => h (hc ▸ List.mem_cons_self)
    rw [cutAt, if_neg hc, ih fun hmem => h (List.mem_cons_of_mem _ hmem)]

theorem cutAt_append {sep : Char} {cs : List Char} (h : sep ∉ cs) (rest : List Char) :
    cutAt sep (cs ++ sep :: rest) = cs :: cutAt sep rest := by
  induction cs with
  | nil => simp [cutAt]
  | cons c cs ih =>
    have hc : c ≠ sep := fun hc => h (hc ▸ List.mem_cons_self)
    rw [List.cons_append, cutAt, if_neg hc, ih fun hmem => h (List.mem_cons_of_mem _ hmem)]

theorem not_mem_of_mem_cutAt {sep : Char} {cs piece : List Char} (h : piece ∈ cutAt sep cs) :
    sep ∉ piece := by
  induction cs generalizing piece with
  | nil =>
    obtain rfl := List.mem_singleton.1 h
    exact List.not_mem_nil
  | cons c cs ih =>
    rw [cutAt] at h
    split at h
    · rcases List.mem_cons.1 h with rfl | h
      · exact List.not_mem_nil
      · exact ih h
    · next hc =>
      split at h
      · obtain rfl := List.mem_singleton.1 h
        simpa using fun heq => hc heq.symm
      · next first rest heq =>
        rcases List.mem_cons.1 h with rfl | h
        · have hfirst := ih (heq ▸ List.mem_cons_self)
          simpa [hfirst] using fun heq => hc heq.symm
        · exact ih (heq ▸ List.mem_cons_of_mem _ h)

/-- Pieces between separators are cut out again. -/
theorem cutAt_intercalate {sep : Char} {pieces : List (List Char)} (hne : pieces ≠ []) (h : ∀ piece ∈ pieces, sep ∉ piece) :
    cutAt sep ([sep].intercalate pieces) = pieces := by
  induction pieces with
  | nil => exact absurd rfl hne
  | cons piece rest ih =>
    obtain ⟨hpiece, hrest⟩ := List.forall_mem_cons.1 h
    cases rest with
    | nil => rw [List.intercalate_singleton, cutAt_of_not_mem hpiece]
    | cons next rest =>
      rw [List.intercalate_cons_cons, List.append_assoc, List.singleton_append, cutAt_append hpiece,
        ih (List.cons_ne_nil _ _) hrest]

/-- A text is its pieces with separators between them. -/
theorem intercalate_cutAt (sep : Char) (cs : List Char) : [sep].intercalate (cutAt sep cs) = cs ∧ cutAt sep cs ≠ [] := by
  induction cs with
  | nil => exact ⟨rfl, List.cons_ne_nil _ _⟩
  | cons c cs ih =>
    obtain ⟨hjoined, hne⟩ := ih
    rw [cutAt]
    split
    · next hc =>
      rw [List.intercalate_cons_of_ne_nil hne, hjoined, hc]
      exact ⟨rfl, List.cons_ne_nil _ _⟩
    · split
      · next hnil => exact absurd hnil hne
      · next piece pieces hpieces =>
        rw [hpieces] at hjoined
        refine ⟨?_, List.cons_ne_nil _ _⟩
        rw [← hjoined]
        cases pieces <;> simp

/-- What does not hold the separator stays at the end of the last piece. -/
theorem exists_cutAt_append {sep : Char} {rest : List Char} (h : sep ∉ rest) (cs : List Char) :
    ∃ pieces last, cutAt sep (cs ++ rest) = pieces ++ [last ++ rest] := by
  induction cs with
  | nil => exact ⟨[], [], cutAt_of_not_mem h⟩
  | cons c cs ih =>
    obtain ⟨pieces, last, ih⟩ := ih
    rw [List.cons_append, cutAt, ih]
    split
    · exact ⟨[] :: pieces, last, rfl⟩
    · cases pieces with
      | nil => exact ⟨[], c :: last, rfl⟩
      | cons piece pieces => exact ⟨(c :: piece) :: pieces, last, rfl⟩

end Text

/-! ## Names -/

/-- What can stand between the slashes of a path. -/
structure IsPart (s : String) : Prop where
  nonempty : s ≠ ""
  notSelf : s ≠ "."
  noSlash : '/' ∉ s.toList

/-- What a file or a directory can be called. -/
structure IsName (s : String) : Prop extends IsPart s where
  notParent : s ≠ ".."
  noNul : '\x00' ∉ s.toList

/-- The parts of a path are those of a text. -/
def Path.IsSpelled (p : Path) : Prop :=
  ∀ s ∈ p.parts, IsPart s

theorem Path.isSpelled_join {p q : Path} (hp : p.IsSpelled) (hq : q.IsSpelled) :
    (p.join q).IsSpelled := by
  unfold Path.join
  split
  · exact hq
  · intro s hs
    exact (List.mem_append.1 hs).elim (hp s) (hq s)

theorem Path.isSpelled_parent {p : Path} (hp : p.IsSpelled) : p.parent.IsSpelled :=
  fun s hs => hp s (List.dropLast_subset _ hs)

/-- Where a file is written before it is moved to its path. -/
def Path.draft (p : Path) : Path :=
  p.withName ("." ++ p.name ++ ".tmp")

namespace Path

theorem toList_ne_nil {s : String} (h : s ≠ "") : s.toList ≠ [] :=
  fun hnil => h (String.toList_inj.1 (hnil.trans rfl))

theorem toList_ne_dot {s : String} (h : s ≠ ".") : s.toList ≠ ['.'] :=
  fun hdot => h (String.toList_inj.1 (hdot.trans rfl))

/-- A text of names between slashes is cut into the names. -/
theorem cutAt_intercalate {names : List String} (hne : names ≠ []) (h : ∀ s ∈ names, '/' ∉ s.toList) :
    Text.cutAt '/' ("/".intercalate names).toList = names.map String.toList := by
  rw [String.toList_intercalate]
  exact Text.cutAt_intercalate (mt List.map_eq_nil_iff.1 hne) (List.forall_mem_map.2 h)

theorem map_ofList_toList (names : List String) : (names.map String.toList).map String.ofList = names := by
  rw [List.map_map]
  exact (List.map_congr_left fun s _ => String.ofList_toList).trans (List.map_id names)

/-- Parts are found again in the text that spells them. -/
theorem namesIn_intercalate {names : List String} (h : ∀ s ∈ names, IsPart s) :
    namesIn ("/".intercalate names) = names := by
  cases names with
  | nil => rfl
  | cons s rest =>
    have hkept : ∀ cs ∈ (s :: rest).map String.toList, (cs != [] && cs != ['.']) = true := by
      intro cs hcs
      obtain ⟨t, ht, rfl⟩ := List.mem_map.1 hcs
      simp [toList_ne_dot (h t ht).notSelf, (h t ht).nonempty]
    rw [namesIn, cutAt_intercalate (List.cons_ne_nil _ _) fun t ht => (h t ht).noSlash,
      List.filter_eq_self.2 hkept, map_ofList_toList]

/-- The parts of a text are parts. -/
theorem isSpelled_ofText (text : String) : (ofText text).IsSpelled := by
  intro s hs
  obtain ⟨cs, hcs, rfl⟩ := List.mem_map.1 hs
  obtain ⟨hmem, hkept⟩ := List.mem_filter.1 hcs
  obtain ⟨hnil, hdot⟩ : cs ≠ [] ∧ cs ≠ ['.'] := by simpa using hkept
  refine ⟨fun h => hnil ?_, fun h => hdot ?_, ?_⟩
  · simpa using congrArg String.toList h
  · simpa using congrArg String.toList h
  · simpa using Text.not_mem_of_mem_cutAt hmem

theorem head?_intercalate {names : List String} (h : ∀ s ∈ names, IsPart s) :
    ("/".intercalate names).toList.head? ≠ some '/' := by
  cases names with
  | nil => simp
  | cons s rest =>
    have hs := h s List.mem_cons_self
    obtain ⟨c, cs, hcs⟩ := List.exists_cons_of_ne_nil (toList_ne_nil hs.nonempty)
    have hc : c ≠ '/' := fun hc => hs.noSlash (by simp [hcs, hc])
    cases rest with
    | nil => simpa [hcs] using hc
    | cons t rest =>
      rw [String.intercalate_cons_cons]
      simpa [hcs] using hc

/-- The spelling of a path reads back. -/
theorem ofText_text {p : Path} (h : p.IsSpelled) : ofText p.text = p := by
  obtain ⟨isAbsolute, parts⟩ := p
  unfold text
  cases isAbsolute with
  | true =>
    have hnames : namesIn ("/" ++ "/".intercalate parts) = namesIn ("/".intercalate parts) := by
      simp [namesIn, Text.cutAt]
    simp only [if_true, ofText, hnames, namesIn_intercalate h]
    simp
  | false =>
    simp only [Bool.false_eq_true, if_false]
    cases parts with
    | nil => rfl
    | cons s rest =>
      have hhead := head?_intercalate h
      simp only [List.isEmpty_cons, Bool.false_eq_true, if_false, ofText, namesIn_intercalate h]
      simpa using hhead

/-- A text of names between slashes is a path that leads on. -/
theorem ofText_intercalate {names : List String} (h : ∀ s ∈ names, IsPart s) :
    ofText ("/".intercalate names) = ⟨false, names⟩ := by
  have hhead := head?_intercalate h
  simp only [ofText, namesIn_intercalate h]
  simpa using hhead

end Path

/-! ## Places -/

namespace Path

theorem follow_append (place : Place) (parts rest : List String) :
    follow place (parts ++ rest) = follow (follow place parts) rest := by
  induction parts generalizing place with
  | nil => rfl
  | cons part parts ih =>
    rw [List.cons_append, follow, follow]
    split <;> exact ih _

theorem follow_names {place : Place} {names : List String} (h : ∀ s ∈ names, IsName s) :
    follow place names = place ++ names := by
  induction names generalizing place with
  | nil => simp [follow]
  | cons s rest ih =>
    rw [follow, if_neg (h s List.mem_cons_self).notParent,
      ih fun t ht => h t (List.mem_cons_of_mem _ ht), List.append_assoc]
    rfl

theorem place_join {home : Place} {p : Path} {names : List String} (h : ∀ s ∈ names, IsName s) :
    (p.join ⟨false, names⟩).place home = p.place home ++ names := by
  unfold place join
  simp only [Bool.false_eq_true, if_false]
  rw [follow_append, follow_names h]

/-- The last name of a path is the last name of the place to which it leads. -/
theorem place_concat {home : Place} {p : Path} {dirs : List String} {s : String}
    (hp : p.parts = dirs ++ [s]) (hs : s ≠ "..") : ∃ q, p.place home = q ++ [s] := by
  rw [place, hp, follow_append, follow, if_neg hs]
  exact ⟨_, rfl⟩

theorem below?_append (place rest : Place) : below? place (place ++ rest) = some rest := by
  induction place with
  | nil => rfl
  | cons s place ih => rw [List.cons_append, below?, if_pos rfl, ih]

theorem below?_eq_some {place q rest : Place} : below? place q = some rest ↔ q = place ++ rest := by
  refine ⟨fun h => ?_, fun h => h ▸ below?_append place rest⟩
  induction place generalizing q with
  | nil => simpa [below?] using h
  | cons s place ih =>
    cases q with
    | nil => simp [below?] at h
    | cons t q =>
      rw [below?] at h
      split at h
      · next hst => rw [hst, ih h, List.cons_append]
      · simp at h

end Path

/-! ## Endings -/

namespace Path

theorem endsAsSource_append (stem : String) : endsAsSource (stem ++ ".md") = true := by
  simp [endsAsSource, sourceEnding, Text.dropPrefix?]

theorem dropEnding_append (stem : String) : dropEnding (stem ++ ".md") = stem := by
  simp [dropEnding, sourceEnding, Text.dropPrefix?]

theorem exists_of_endsAsSource {s : String} (h : endsAsSource s = true) :
    ∃ stem, s = stem ++ ".md" := by
  obtain ⟨rest, hrest⟩ := Option.isSome_iff_exists.1 h
  have hsplit := Text.dropPrefix?_eq_some hrest
  refine ⟨String.ofList rest.reverse, String.toList_inj.1 ?_⟩
  have := congrArg List.reverse hsplit
  simpa [sourceEnding] using this

/-- The last name in a text that ends as a source ends so too. -/
theorem exists_parts_of_endsAsSource {text : String} (h : endsAsSource text = true) :
    ∃ dirs stem, (ofText text).parts = dirs ++ [stem ++ ".md"] := by
  obtain ⟨stem, rfl⟩ := exists_of_endsAsSource h
  obtain ⟨pieces, last, hcut⟩ := @Text.exists_cutAt_append '/' ['.', 'm', 'd'] (by decide) stem.toList
  refine ⟨(pieces.filter fun cs => cs != [] && cs != ['.']).map String.ofList, String.ofList last, ?_⟩
  have htext : (stem ++ ".md").toList = stem.toList ++ ['.', 'm', 'd'] := String.toList_append
  have hkept : (last ++ ['.', 'm', 'd'] != [] && last ++ ['.', 'm', 'd'] != ['.']) = true := by
    cases last <;> simp
  change namesIn (stem ++ ".md") = _
  rw [namesIn, htext, hcut, List.filter_append, List.filter_singleton, hkept, cond_true, List.map_append,
    List.map_singleton, String.ofList_append]

/-- The last of some names can be made longer before or after they are spelled. -/
theorem intercalate_concat_append (dirs : List String) (s ending : String) :
    "/".intercalate (dirs ++ [s ++ ending]) = "/".intercalate (dirs ++ [s]) ++ ending := by
  cases dirs with
  | nil => simp
  | cons dir dirs =>
    have hne : dir :: dirs ≠ [] := List.cons_ne_nil _ _
    rw [String.intercalate_append_of_ne_nil hne (by simp),
      String.intercalate_append_of_ne_nil hne (by simp), String.intercalate_singleton,
      String.intercalate_singleton, String.append_assoc, String.append_assoc, String.append_assoc]

end Path

/-! ## Pages -/

/-- The names of a page: the directories in which its source stands, and what its source and its module
    are called but for their endings. -/
@[ext]
structure PageName where
  dirs : List String
  stem : String
  dirs_names : ∀ s ∈ dirs, IsName s
  noSlash : '/' ∉ stem.toList
  noNul : '\x00' ∉ stem.toList

namespace PageName

variable (n : PageName)

/-- The names of the source. -/
def source : List String := n.dirs ++ [n.stem ++ ".md"]

/-- The names of the module. -/
def module : List String := n.dirs ++ [n.stem ++ ".py"]

/-- The names of the draft of the module. -/
def draft : List String := n.dirs ++ ["." ++ (n.stem ++ ".py") ++ ".tmp"]

/-- The slug of the page. -/
def slug : String := "/".intercalate (n.dirs ++ [n.stem])

/-- A stem with an ending of two or more characters after a dot is a name. -/
theorem isName_append {stem ending : String} (hslash : '/' ∉ stem.toList) (hnul : '\x00' ∉ stem.toList)
    (hending : '/' ∉ ending.toList ∧ '\x00' ∉ ending.toList ∧ 2 < ending.toList.length) :
    IsName (stem ++ ending) := by
  obtain ⟨hslash', hnul', hlength⟩ := hending
  have hlong : 2 < (stem ++ ending).toList.length := by
    rw [String.toList_append, List.length_append]
    omega
  refine ⟨⟨?_, ?_, ?_⟩, ?_, ?_⟩
  · rintro heq
    rw [heq] at hlong
    exact absurd hlong (by decide)
  · rintro heq
    rw [heq] at hlong
    exact absurd hlong (by decide)
  · simp [hslash, hslash']
  · rintro heq
    rw [heq] at hlong
    exact absurd hlong (by decide)
  · simp [hnul, hnul']

theorem names_of_ending {ending : String}
    (hending : '/' ∉ ending.toList ∧ '\x00' ∉ ending.toList ∧ 2 < ending.toList.length) :
    ∀ s ∈ n.dirs ++ [n.stem ++ ending], IsName s := by
  intro s hs
  rcases List.mem_append.1 hs with hs | hs
  · exact n.dirs_names s hs
  · rw [List.mem_singleton.1 hs]
    exact isName_append n.noSlash n.noNul hending

theorem isName_of_mem_source : ∀ s ∈ n.source, IsName s :=
  n.names_of_ending (by decide)

theorem isName_of_mem_module : ∀ s ∈ n.module, IsName s :=
  n.names_of_ending (by decide)

theorem isName_of_mem_draft : ∀ s ∈ n.draft, IsName s := by
  intro s hs
  rcases List.mem_append.1 hs with hs | hs
  · exact n.dirs_names s hs
  · rw [List.mem_singleton.1 hs]
    refine isName_append ?_ ?_ (by decide)
    · simp [n.noSlash]
    · simp [n.noNul]

theorem draft_join (p : Path) : (p.join ⟨false, n.module⟩).draft = p.join ⟨false, n.draft⟩ := by
  simp [Path.draft, Path.withName, Path.join, Path.name, module, draft]

/-- Names of which the last has the ending of sources are those of a page. -/
theorem exists_of_source {names : List String} (hnames : ∀ s ∈ names, IsName s)
    (hends : Path.endsAsSource (names.getLast?.getD "") = true) : ∃ n : PageName, n.source = names := by
  rcases List.eq_nil_or_concat names with rfl | ⟨dirs, last, rfl⟩
  · simp [Path.endsAsSource, Text.dropPrefix?, Path.sourceEnding] at hends
  · rw [List.concat_eq_append] at hnames hends
    obtain ⟨stem, rfl⟩ : ∃ stem, last = stem ++ ".md" :=
      Path.exists_of_endsAsSource (by simpa using hends)
    have hlast := hnames (stem ++ ".md") (by simp)
    refine ⟨⟨dirs, stem, fun s hs => hnames s (List.mem_append_left _ hs), ?_, ?_⟩, ?_⟩
    · exact fun h => hlast.noSlash (by simp [h])
    · exact fun h => hlast.noNul (by simp [h])
    · rw [source, List.concat_eq_append]

/-- The text of a source without its ending is the slug of its page. -/
theorem dropEnding_source : Path.dropEnding ("/".intercalate n.source) = n.slug := by
  rw [source, Path.intercalate_concat_append, Path.dropEnding_append, slug]

theorem sourceLabel_slug : sourceLabel n.slug = "/".intercalate n.source := by
  rw [source, Path.intercalate_concat_append, sourceLabel, slug]
  rfl

theorem ofText_moduleText : Path.ofText (n.slug ++ ".py") = ⟨false, n.module⟩ := by
  rw [slug, ← Path.intercalate_concat_append]
  exact Path.ofText_intercalate fun s hs => (n.isName_of_mem_module s hs).toIsPart

variable {n} {m : PageName}

theorem eq_of_append {ending : String}
    (h : n.dirs ++ [n.stem ++ ending] = m.dirs ++ [m.stem ++ ending]) : n = m := by
  obtain ⟨hdirs, hstem⟩ := List.append_inj' h rfl
  exact PageName.ext hdirs ((String.append_left_inj ending).1 (List.singleton_inj.1 hstem))

theorem source_inj (h : n.source = m.source) : n = m :=
  eq_of_append h

theorem module_inj (h : n.module = m.module) : n = m :=
  eq_of_append h

/-- Pages have different slugs. -/
theorem slug_inj (h : n.slug = m.slug) : n = m := by
  refine source_inj ?_
  have htext : "/".intercalate n.source = "/".intercalate m.source := by
    rw [← sourceLabel_slug, ← sourceLabel_slug, h]
  rw [← Path.namesIn_intercalate fun s hs => (n.isName_of_mem_source s hs).toIsPart, htext,
    Path.namesIn_intercalate fun s hs => (m.isName_of_mem_source s hs).toIsPart]

end PageName

end Folio

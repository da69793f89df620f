import Folio.Proofs.FileTree.Changes

set_option autoImplicit false

/-! # The sources in a tree

A source is a file below the root whose last name has the ending of sources (`HasSource`). Its path leads
on from the root by the names of its page, and the slug of that path is the slug of the page, however the
path is spelled. -/

namespace Folio

namespace FileTree

/-- The source of a page is there, with bytes that were changed at a time. -/
def HasSource (tree : FileTree) (root : Path) (n : PageName) (bytes : List UInt8) (modified : Int) :
    Prop :=
  tree.entry? (root.place tree.home ++ n.source) = some (.file bytes modified)

theorem mem_namesBelow_iff {tree : FileTree} (h : tree.IsProper) {place names : Place} :
    names ∈ tree.namesBelow place ↔
      ∃ bytes modified, tree.entry? (place ++ names) = some (.file bytes modified) := by
  rw [namesBelow, List.mem_mergeSort, List.mem_filterMap]
  constructor
  · rintro ⟨⟨q, entry⟩, hmem, hnames⟩
    cases entry with
    | directory => simp at hnames
    | file bytes modified =>
      obtain rfl := Path.below?_eq_some.1 hnames
      exact ⟨bytes, modified, (h.mem_entries_iff.1 hmem).2⟩
  · rintro ⟨bytes, modified, hentry⟩
    have hne := @ne_nil_of_entry tree (place ++ names) (by simp [hentry])
    exact ⟨(place ++ names, .file bytes modified), h.mem_entries_iff.2 ⟨hne, hentry⟩,
      Path.below?_append place names⟩

theorem isFile_of_isDirectory {tree : FileTree} {p : Path} (h : tree.isDirectory p = true) :
    tree.isFile p = false := by
  obtain ⟨hlocate, hentry⟩ := isDirectory_iff.1 h
  rw [isFile, find?, hlocate]
  simp [hentry]

theorem name_join {root : Path} {names : List String} (h : names ≠ []) :
    (root.join ⟨false, names⟩).name = names.getLast?.getD "" := by
  obtain ⟨init, last, rfl⟩ := (List.eq_nil_or_concat names).resolve_left h
  simp [Path.join, Path.name]

/-- The sources below a directory are those of the pages whose sources are there. -/
theorem mem_sources_iff {tree : FileTree} (h : tree.IsProper) {root : Path}
    (hroot : tree.isDirectory root = true) {p : Path} : p ∈ tree.sources root ↔
      ∃ (n : PageName) (bytes : List UInt8) (modified : Int),
        p = root.join ⟨false, n.source⟩ ∧ tree.HasSource root n bytes modified := by
  obtain ⟨hlocate, hentry⟩ := isDirectory_iff.1 hroot
  rw [sources, isFile_of_isDirectory hroot, if_neg (by simp), filesBelow, hlocate]
  dsimp only
  rw [List.mem_filter, List.mem_map]
  constructor
  · rintro ⟨⟨names, hnames, rfl⟩, hends⟩
    obtain ⟨bytes, modified, hfile⟩ := (mem_namesBelow_iff h).1 hnames
    have hne : names ≠ [] := by
      rintro rfl
      simp [hentry] at hfile
    have hproper : ∀ s ∈ names, IsName s := fun s hs =>
      (h.names_of_entry hfile s (List.mem_append_right _ hs)).toIsName
    rw [name_join hne] at hends
    obtain ⟨n, rfl⟩ := PageName.exists_of_source hproper hends
    exact ⟨n, bytes, modified, rfl, hfile⟩
  · rintro ⟨n, bytes, modified, rfl, hfile⟩
    refine ⟨⟨n.source, (mem_namesBelow_iff h).2 ⟨bytes, modified, hfile⟩, rfl⟩, ?_⟩
    rw [name_join (by simp [PageName.source])]
    simpa [PageName.source] using Path.endsAsSource_append n.stem

end FileTree

namespace PageName

variable (n : PageName)

theorem isSpelled_source {root : Path} (hroot : root.IsSpelled) :
    (root.join ⟨false, n.source⟩).IsSpelled :=
  Path.isSpelled_join hroot fun s hs => (n.isName_of_mem_source s hs).toIsPart

theorem isSpelled_module {out : Path} (hout : out.IsSpelled) :
    (out.join ⟨false, n.module⟩).IsSpelled :=
  Path.isSpelled_join hout fun s hs => (n.isName_of_mem_module s hs).toIsPart

theorem isSpelled_draft {out : Path} (hout : out.IsSpelled) :
    (out.join ⟨false, n.draft⟩).IsSpelled :=
  Path.isSpelled_join hout fun s hs => (n.isName_of_mem_draft s hs).toIsPart

theorem place_source (home : Place) (root : Path) :
    (root.join ⟨false, n.source⟩).place home = root.place home ++ n.source :=
  Path.place_join n.isName_of_mem_source

theorem place_module (home : Place) (out : Path) :
    (out.join ⟨false, n.module⟩).place home = out.place home ++ n.module :=
  Path.place_join n.isName_of_mem_module

theorem place_draft (home : Place) (out : Path) :
    (out.join ⟨false, n.draft⟩).place home = out.place home ++ n.draft :=
  Path.place_join n.isName_of_mem_draft

/-- A path that leads to the source of a page has the slug of the page. -/
theorem pathSlug_eq {home : Place} {p root : Path} (hp : p.hasNul = false) (hroot : root.hasNul = false)
    (h : p.place home = root.place home ++ n.source) : pathSlug home p (some root) = n.slug := by
  have hrelative : p.relative? home root = some n.source := by
    rw [Path.relative?, hp, hroot, h]
    exact Path.below?_append _ _
  have htext : Path.text ⟨false, n.source⟩ = "/".intercalate n.source := by
    simp [Path.text, source]
  rw [pathSlug, Option.bind_some, hrelative]
  exact (congrArg Path.dropEnding htext).trans n.dropEnding_source

theorem hasNul_source {root : Path} (hroot : root.hasNul = false) :
    (root.join ⟨false, n.source⟩).hasNul = false := by
  rw [Path.hasNul, List.any_eq_false] at hroot ⊢
  intro s hs
  rcases List.mem_append.1 hs with hs | hs
  · exact hroot s hs
  · simpa using (n.isName_of_mem_source s hs).noNul

end PageName

end Folio

import Folio.Proofs.Server.Agreement
import Folio.Proofs.Server.Watching

set_option autoImplicit false

/-! # What is built is watched

A build finds sources by the endings of their names, the watch looks at every name on the way to a change,
and a provider drops a page by its slug. They agree on all sources but those of tools
(`sources_are_watched`): a build takes what stands in a directory that tools keep for themselves, and no
change of it is seen (`tools_are_built_unseen`). -/

namespace Folio

/-! ## The names on the way to a change -/

/-- Names that lead to what tools keep: one is a directory of theirs, or the last begins as they call
    files. -/
def IsOfTools (names : List String) : Prop :=
  (∃ s ∈ names, s ∈ toolDirectories) ∨ ∃ b ∈ toolBeginnings, b.toList <+: (names.getLast?.getD "").toList

instance (names : List String) : Decidable (IsOfTools names) :=
  inferInstanceAs (Decidable (_ ∨ _))

theorem Text.startsWith_iff {b : String} {cs : List Char} : startsWith b cs = true ↔ b.toList <+: cs := by
  rw [startsWith, Option.isSome_iff_exists]
  constructor
  · rintro ⟨rest, hrest⟩
    exact ⟨rest, (dropPrefix?_eq_some hrest).symm⟩
  · rintro ⟨rest, rfl⟩
    exact ⟨rest, dropPrefix?_append _ _⟩

namespace Path

/-- A text of names between slashes does not begin with one. -/
theorem dropWhile_intercalate {names : List String} (h : ∀ s ∈ names, IsPart s) :
    ("/".intercalate names).toList.dropWhile (· == '/') = ("/".intercalate names).toList := by
  have hhead := head?_intercalate h
  cases hcs : ("/".intercalate names).toList with
  | nil => rfl
  | cons c cs =>
    have hc : c ≠ '/' := by simpa [hcs] using hhead
    simp [hc]

/-- The names of a path, as the watch reads them in its spelling. -/
theorem cutAt_text {p : Path} (hp : p.IsSpelled) (hne : p.parts ≠ []) :
    (Text.cutAt '/' (p.text.toList.dropWhile (· == '/'))).map String.ofList = p.parts := by
  have htext : p.text.toList.dropWhile (· == '/') = ("/".intercalate p.parts).toList := by
    rw [← dropWhile_intercalate hp, text]
    split
    · simp
    · rw [if_neg (by simpa using hne)]
  rw [htext, cutAt_intercalate hne fun s hs => (hp s hs).noSlash, map_ofList_toList]

/-- A path ends as its last name ends. -/
theorem endsAsSource_text_iff {p : Path} (hp : p.IsSpelled) :
    endsAsSource p.text = true ↔ endsAsSource p.name = true := by
  constructor
  · intro h
    obtain ⟨dirs, stem, hparts⟩ := exists_parts_of_endsAsSource h
    rw [ofText_text hp] at hparts
    rw [name, hparts, List.getLast?_concat, Option.getD_some]
    exact endsAsSource_append stem
  · intro h
    obtain ⟨stem, hname⟩ := exists_of_endsAsSource h
    obtain ⟨dirs, last, hparts⟩ : ∃ dirs last, p.parts = dirs ++ [last] := by
      refine ⟨_, _, (List.dropLast_append_getLast ?_).symm⟩
      intro hnil
      simp [name, hnil, endsAsSource, sourceEnding, Text.dropPrefix?] at h
    obtain rfl : last = stem ++ ".md" := by simpa [name, hparts] using hname
    exact endsAsSource_text hparts

end Path

/-- Which changes count: those of sources that are not the tools'. -/
theorem acceptsChange_text {p : Path} (hp : p.IsSpelled) (hne : p.parts ≠ []) :
    acceptsChange p.text = true ↔ ¬ IsOfTools p.parts ∧ Path.endsAsSource p.name = true := by
  unfold acceptsChange
  dsimp only
  rw [Path.cutAt_text hp hne, Bool.and_eq_true, Path.endsAsSource_text_iff hp, IsOfTools]
  refine and_congr_left fun _ => ?_
  simp only [Bool.and_eq_true, Bool.not_eq_true', List.any_eq_false, List.contains_iff_mem,
    Text.startsWith_iff, not_or, not_exists, not_and]

/-! ## Batches -/

theorem mem_eraseReps {α : Type} [BEq α] [LawfulBEq α] {l : List α} {x : α} (h : x ∈ l) :
    x ∈ l.eraseReps := by
  have hloop : ∀ (as : List α) (a : α) (acc : List α), x ∈ acc ∨ x = a ∨ x ∈ as →
      x ∈ List.eraseRepsBy.loop (· == ·) a as acc := by
    intro as
    induction as with
    | nil =>
      intro a acc h
      simpa [List.eraseRepsBy.loop, or_comm] using h
    | cons b as ih =>
      intro a acc h
      rw [List.eraseRepsBy.loop]
      split
      · next heq =>
        obtain rfl : a = b := eq_of_beq heq
        refine ih a acc (h.imp id fun h => ?_)
        exact h.elim .inl fun h => List.mem_cons.1 h
      · refine ih b (a :: acc) ?_
        rcases h with h | rfl | h
        · exact .inl (List.mem_cons_of_mem _ h)
        · exact .inl List.mem_cons_self
        · exact .inr (List.mem_cons.1 h)
  cases l with
  | nil => exact absurd h List.not_mem_nil
  | cons a as => exact hloop as a [] (.inr (List.mem_cons.1 h))

/-- A change that counts is passed on with its batch. -/
theorem mem_changedPaths {batch : List String} {text : String} (hmem : text ∈ batch)
    (haccepts : acceptsChange text = true) : Path.ofText text ∈ changedPaths batch :=
  mem_eraseReps (List.mem_mergeSort.2 (List.mem_map_of_mem (List.mem_filter.2 ⟨hmem, haccepts⟩)))

/-! ## Sources of a build -/

/-- A page is registered under the slug of its path. -/
theorem slug_of_buildOne {rules : BuildRules} {p : Path} {tree tree' : FileTree} {page : BuiltPage}
    (h : buildOne rules p tree = .ok page tree') :
    page.slug = pathSlug tree.home p (some rules.root) := by
  obtain ⟨artifact, text, -, hslug, -, -, rfl⟩ := exists_of_buildOne h
  exact hslug

/-- A build that succeeds has built the sources that were there, in order. -/
theorem built_eq_map_page {rules : BuildRules} {tree tree' : FileTree} (hproper : tree.IsProper)
    (hout : rules.out.IsSpelled) (hroot : tree.isDirectory rules.root = true) {built : List BuiltPage}
    (h : build rules tree = .ok built tree') :
    ∃ ns : List PageName, built = ns.map rules.page ∧ ∀ n, n ∈ ns ↔ tree.IsPage rules.root n := by
  obtain ⟨made, done, each, hmade, heach, hfailed, rfl, -⟩ := build_ok h
  obtain ⟨hmade, -⟩ := FileTree.makeDirectories_ok hproper hout hmade
  have hrootMade := FileTree.isDirectory_mono hmade.directories hroot
  obtain ⟨ns, hns, hpages⟩ := @exists_pages rules _ hmade.proper hrootMade
  rw [hns] at heach
  have hnul := (FileTree.place_of_locate (FileTree.isDirectory_iff.1 hroot).1).2
  obtain ⟨hbuilt, -⟩ := buildEach_upToDate hout hnul hmade.proper heach hfailed
  exact ⟨ns, hbuilt, fun n => (hpages n).trans (hmade.isPage_iff not_false)⟩

/-- What a path to the source of a page drops: the page. -/
theorem invalidationsFor_source {home : Place} {root p : Path} {n : PageName} (hroot : root.hasNul = false)
    (hp : p.hasNul = false) (hplace : p.place home = root.place home ++ n.source)
    (hsource : p.isSource = true) : invalidationsFor home root [p] = { slugs := [n.slug] } := by
  have hrelative : p.relative? home root = some n.source := by
    rw [Path.relative?, hp, hroot, hplace]
    exact Path.below?_append _ _
  simp [invalidationsFor, hsource, hrelative, n.pathSlug_eq hp hroot hplace]

/-! ## The result -/

/-- Every source that a build finds below its root, but one that is called by its ending alone: the watch
    passes a change of it on unless it is a tool's. It is not skipped then, and the provider drops the one
    slug under which a build registers that source and no other. A batch of changes drops this slug too,
    or everything. -/
theorem sources_are_watched {rules : BuildRules} {tree : FileTree} (hproper : tree.IsProper)
    (hroot : tree.isDirectory rules.root = true) (hout : rules.out.IsSpelled) {p : Path}
    (hp : p ∈ tree.sources rules.root) (hname : p.name ≠ ".md") :
    let changed : Path := ⟨true, p.place tree.home⟩
    ∃ slug : String,
      (acceptsChange changed.text = true ↔ ¬ IsOfTools changed.parts) ∧
      (acceptsChange changed.text = true → changedPaths [changed.text] = [changed] ∧
        ∀ batch, changed.text ∈ batch →
          ∃ scope ∈ (invalidationsFor tree.home rules.root (changedPaths batch)).calls,
            scope = none ∨ scope = some slug) ∧
      invalidationsFor tree.home rules.root [changed] = { slugs := [slug] } ∧
      (∀ (ε : Type) (provider : Provider ε),
        provider.notify tree.home rules.root [changed] = provider.invalidate (some slug)) ∧
      (∀ before page after, before.home = tree.home →
        buildOne rules p before = .ok page after → page.slug = slug) ∧
      ∀ built after, build rules tree = .ok built after →
        (∃ page ∈ built, page.source = p) ∧ ∀ page ∈ built, page.source = p ↔ page.slug = slug := by
  intro changed
  obtain ⟨n, bytes, modified, rfl, hsource⟩ := (FileTree.mem_sources_iff hproper hroot).1 hp
  have hnul := (FileTree.place_of_locate (FileTree.isDirectory_iff.1 hroot).1).2
  have hplace := n.place_source tree.home rules.root
  have hstem : n.stem ≠ "" := by
    rintro hstem
    exact hname (by simp [Path.join, Path.name, PageName.source, hstem])
  -- the names of the path that is reported
  have hparts : changed.parts = rules.root.place tree.home ++ n.source := hplace
  have hne : changed.parts ≠ [] := by simp [hparts, PageName.source]
  have hnames : ∀ s ∈ changed.parts, IsName s := fun s hs =>
    (hproper.names_of_entry hsource s (hparts ▸ hs)).toIsName
  have hspelled : changed.IsSpelled := fun s hs => (hnames s hs).toIsPart
  have hchanged : changed.place tree.home = rules.root.place tree.home ++ n.source := by
    rw [← hparts]
    exact (Path.follow_names hnames).trans (List.nil_append _)
  have hchangedNul : changed.hasNul = false := by
    rw [Path.hasNul, List.any_eq_false]
    exact fun s hs => by simpa using (hnames s hs).noNul
  have hchangedName : changed.name = n.stem ++ ".md" := by
    simp [Path.name, hparts, PageName.source]
  have hends : Path.endsAsSource changed.name = true :=
    hchangedName ▸ Path.endsAsSource_append n.stem
  have hisSource : changed.isSource = true := by
    have hlength : n.stem.length + 3 ≠ 3 := by simpa using hstem
    rw [Path.isSource, hends, hchangedName, String.length_append, Bool.true_and, bne_iff_ne]
    exact hlength
  have hdropped := invalidationsFor_source hnul hchangedNul hchanged hisSource
  refine ⟨n.slug, ?_, fun haccepts => ⟨?_, fun batch hbatch => ?_⟩, hdropped, fun ε provider => ?_,
    fun before page after hhome hone => ?_, fun built after hbuild => ?_⟩
  · rw [acceptsChange_text hspelled hne]
    exact and_iff_left hends
  · rw [changedPaths, List.filter_cons_of_pos haccepts, List.filter_nil, List.map_singleton,
      Path.ofText_text hspelled, List.mergeSort_singleton]
    rfl
  · have hmem := mem_changedPaths hbatch haccepts
    rw [Path.ofText_text hspelled] at hmem
    obtain ⟨scope, hscope, hinvalidates⟩ :=
      exists_call_of_mem hmem hisSource (n.pathSlug_eq hchangedNul hnul hchanged)
    refine ⟨scope, hscope, ?_⟩
    cases scope with
    | none => exact .inl rfl
    | some slug =>
      have hslug : slug = n.slug := by simpa [Provider.Event.invalidates] using hinvalidates
      exact .inr (congrArg some hslug)
  · rw [Provider.notify, Provider.applyInvalidations, hdropped]
    rfl
  · rw [slug_of_buildOne hone, hhome]
    exact n.pathSlug_eq (n.hasNul_source hnul) hnul hplace
  · obtain ⟨ns, rfl, hns⟩ := built_eq_map_page hproper hout hroot hbuild
    refine ⟨⟨rules.page n, List.mem_map_of_mem ((hns n).2 ⟨bytes, modified, hsource⟩), rfl⟩, ?_⟩
    intro page hpage
    obtain ⟨m, -, rfl⟩ := List.mem_map.1 hpage
    constructor
    · intro heq
      rw [PageName.source_inj (Path.join_inj heq)]
      rfl
    · intro heq
      rw [PageName.slug_inj heq]
      rfl

/-- The page of the small site. -/
theorem smallSite_is_watched :
    smallSite.IsProper ∧ smallSite.isDirectory smallRules.root = true ∧ smallRules.out.IsSpelled ∧
    .ofText "c/a.md" ∈ smallSite.sources smallRules.root ∧ (Path.ofText "c/a.md").name ≠ ".md" ∧
    acceptsChange "/c/a.md" = true ∧
    invalidationsFor smallSite.home smallRules.root [⟨true, ["c", "a.md"]⟩] = { slugs := ["a"] } := by
  have hmem : .ofText "c/a.md" ∈ smallSite.sources smallRules.root := by decide +kernel
  have hname : (Path.ofText "c/a.md").name ≠ ".md" := by decide
  have hout := Path.isSpelled_ofText "o"
  obtain ⟨slug, haccepts, -, hdropped, -, -, hbuilt⟩ :=
    sources_are_watched isProper_smallSite isDirectory_smallSite hout hmem hname
  have hplace : (Path.ofText "c/a.md").place smallSite.home = ["c", "a.md"] := by decide
  rw [hplace] at haccepts hdropped
  obtain ⟨-, hslug⟩ := hbuilt _ _ build_smallSite
  obtain rfl : "a" = slug := (hslug _ List.mem_cons_self).1 rfl
  exact ⟨isProper_smallSite, isDirectory_smallSite, hout, hmem, hname, haccepts.2 (by decide), hdropped⟩

/-- A source below a directory that tools keep for themselves is found and built, under a slug of its own;
    a change of it does not count. -/
theorem tools_are_built_unseen :
    let site : FileTree := ⟨[], [(["c"], .directory), (["c", "node_modules"], .directory),
      (["c", "node_modules", "a.md"], .file [0x41] 0), (["o"], .directory)], .plain⟩
    let source := Path.ofText "c/node_modules/a.md"
    site.IsProper ∧ site.isDirectory smallRules.root = true ∧ source ∈ site.sources smallRules.root ∧
    build smallRules site = .ok [⟨source, .ofText "o/node_modules/a.py", "@content/node_modules/a.md",
      "node_modules/a"⟩] (afterBuild smallRules site) ∧
    acceptsChange (Path.mk true (source.place site.home)).text = false := by
  intro site source
  have hbuild : build smallRules site = .ok [⟨source, .ofText "o/node_modules/a.py",
      "@content/node_modules/a.md", "node_modules/a"⟩] (afterBuild smallRules site) :=
    build_eq_ok_afterBuild (by decide +kernel)
  refine ⟨by decide, by decide, by decide +kernel, hbuild, by decide⟩

end Folio

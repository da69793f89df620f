import Folio.Proofs.Build.Steps

set_option autoImplicit false

/-! # What a build leaves

A page is up to date when its module is there with the text that its source makes (`UpToDate`). Building a
page brings it up to date and spares the others (`buildOne_upToDate`), so a build leaves all pages up to
date and a manifest that lists them (`Built`, `built_of_build`). No file is new but the manifest and the
modules of pages. -/

namespace Folio

/-! ## Pages -/

/-- There is a file at a place. -/
def FileTree.IsFileAt (tree : FileTree) (q : Place) : Prop :=
  ∃ bytes modified, tree.entry? q = some (.file bytes modified)

/-- The source of a page is there. -/
def FileTree.IsPage (tree : FileTree) (root : Path) (n : PageName) : Prop :=
  ∃ bytes modified, tree.HasSource root n bytes modified

/-- The module of a page is there, with the text that its source makes; it has been drafted, so files can
    have the names of its draft. -/
structure UpToDate (rules : BuildRules) (tree : FileTree) (n : PageName) : Prop where
  made : ∃ bytes modified text time, tree.HasSource rules.root n bytes modified ∧
    Makes rules.compiling tree.process n.slug bytes modified text ∧
    tree.read (rules.modulePath n) = .ok (Text.encodeUtf8 text.toList, time)
  drafted : ∀ s ∈ n.draft, FileTree.IsFileName s

namespace FileTree.Alters

variable {touched : Place → Prop} {tree tree' : FileTree}

theorem hasSource_iff (h : Alters touched tree tree') {root : Path} {n : PageName}
    (hn : ¬ touched (root.place tree.home ++ n.source)) {bytes : List UInt8} {modified : Int} :
    tree'.HasSource root n bytes modified ↔ tree.HasSource root n bytes modified := by
  unfold HasSource
  rw [h.home]
  exact h.files _ _ _ hn

theorem isPage_iff (h : Alters touched tree tree') {root : Path} {n : PageName}
    (hn : ¬ touched (root.place tree.home ++ n.source)) : tree'.IsPage root n ↔ tree.IsPage root n :=
  exists_congr fun _ => exists_congr fun _ => h.hasSource_iff hn

theorem isFileAt_iff (h : Alters touched tree tree') {q : Place} (hq : ¬ touched q) :
    tree'.IsFileAt q ↔ tree.IsFileAt q :=
  exists_congr fun _ => exists_congr fun _ => h.files _ _ _ hq

/-- A page whose source and module are not touched stays up to date. -/
theorem upToDate (h : Alters touched tree tree') {rules : BuildRules} {n : PageName}
    (hsource : ¬ touched (rules.root.place tree.home ++ n.source))
    (hmodule : ¬ touched (rules.out.place tree.home ++ n.module)) (hn : UpToDate rules tree n) :
    UpToDate rules tree' n := by
  obtain ⟨bytes, modified, text, time, hthere, hmakes, hread⟩ := hn.made
  refine ⟨⟨bytes, modified, text, time, (h.hasSource_iff hsource).2 hthere, h.process ▸ hmakes, ?_⟩, hn.drafted⟩
  exact h.read (fun ht => hmodule (n.place_module tree.home rules.out ▸ ht)) hread

end FileTree.Alters

theorem BuildRules.hasSource_of_read {rules : BuildRules} {tree : FileTree} {n : PageName}
    {bytes : List UInt8} {modified : Int}
    (h : tree.read (rules.sourcePath n) = .ok (bytes, modified)) :
    tree.HasSource rules.root n bytes modified := by
  rw [FileTree.HasSource, ← n.place_source]
  exact (FileTree.read_eq_ok_iff.1 h).2

/-! ## Places -/

/-- Where the module of a page and its draft are. -/
def BuildRules.Touches (rules : BuildRules) (home : Place) (n : PageName) (q : Place) : Prop :=
  q = rules.out.place home ++ n.module ∨ q = rules.out.place home ++ n.draft

namespace BuildRules

variable {rules : BuildRules} {home : Place} {n m : PageName}

theorem Touches.lastChar? {q : Place} (h : rules.Touches home n q) :
    Path.lastChar? q = some 'y' ∨ Path.lastChar? q = some 'p' := by
  rcases h with rfl | rfl
  · exact .inl (Path.lastChar?_module _ n)
  · exact .inr (Path.lastChar?_draft _ n)

theorem not_touches_source (place : Place) : ¬ rules.Touches home n (place ++ m.source) := by
  rintro (heq | heq)
  · exact source_ne_module _ _ n heq
  · exact source_ne_draft _ _ n heq

theorem not_touches_manifest (place : Place) :
    ¬ rules.Touches home n (place ++ [Manifest.fileName]) := by
  rintro (heq | heq)
  · exact module_ne_manifest _ _ heq.symm
  · exact draft_ne_manifest _ _ heq.symm

theorem not_touches_module (hne : m ≠ n) : ¬ rules.Touches home n (rules.out.place home ++ m.module) := by
  rintro (heq | heq)
  · exact hne (PageName.module_inj (List.append_cancel_left heq))
  · exact module_ne_draft _ _ n heq

end BuildRules

/-! ## Building -/

/-- A page that is built is up to date, and no file is new but its module. -/
theorem buildOne_upToDate {rules : BuildRules} {tree tree' : FileTree} (hproper : tree.IsProper)
    (hout : rules.out.IsSpelled) {p : Path} {n : PageName}
    (hslug : pathSlug tree.home p (some rules.root) = n.slug)
    (hp : p.place tree.home = rules.root.place tree.home ++ n.source) {page : BuiltPage}
    (h : buildOne rules p tree = .ok page tree') :
    page = ⟨p, rules.modulePath n, keyFor rules.keyStart n.slug, n.slug⟩ ∧
    FileTree.Alters (rules.Touches tree.home n) tree tree' ∧ UpToDate rules tree' n ∧
      ∀ q, tree'.IsFileAt q → tree.IsFileAt q ∨ q = rules.out.place tree.home ++ n.module := by
  obtain ⟨hpage, bytes, modified, text, hread, hmakes, halters, ⟨time, hthere⟩, hgone, hdrafted⟩ :=
    buildOne_ok hproper hout hslug h
  have hsource : tree.HasSource rules.root n bytes modified := by
    rw [FileTree.HasSource, ← hp]
    exact (FileTree.read_eq_ok_iff.1 hread).2
  refine ⟨hpage, halters, ⟨⟨bytes, modified, text, time, ?_, halters.process ▸ hmakes, hthere⟩, hdrafted⟩,
    fun q hq => ?_⟩
  · exact (FileTree.Alters.hasSource_iff halters (BuildRules.not_touches_source _)).2 hsource
  · by_cases htouched : rules.Touches tree.home n q
    · rcases htouched with hmodule | rfl
      · exact .inr hmodule
      · obtain ⟨b, m, hfile⟩ := hq
        simp [hgone] at hfile
    · exact .inl ((halters.isFileAt_iff htouched).1 hq)

/-- What building some pages one after the other leaves, if none of them fails. -/
theorem buildEach_upToDate {rules : BuildRules} (hout : rules.out.IsSpelled)
    (hroot : rules.root.hasNul = false) {ns : List PageName} {tree tree' : FileTree}
    (hproper : tree.IsProper) {done : BuildProgress}
    (h : buildEach rules (ns.map rules.sourcePath) tree = .ok done tree') (hfailed : done.failed = []) :
    done.built = ns.map rules.page ∧
    FileTree.Alters (fun q => ∃ n ∈ ns, rules.Touches tree.home n q) tree tree' ∧
    (∀ n ∈ ns, UpToDate rules tree' n) ∧
    ∀ q, tree'.IsFileAt q → tree.IsFileAt q ∨ ∃ n ∈ ns, q = rules.out.place tree.home ++ n.module := by
  induction ns generalizing tree done with
  | nil =>
    obtain ⟨rfl, rfl⟩ := Building.pure_eq_ok_iff.1 h
    exact ⟨rfl, .refl hproper, by simp, fun q hq => .inl hq⟩
  | cons n ns ih =>
    rw [List.map_cons, buildEach] at h
    dsimp only at h
    split at h
    · next page mid hone =>
      obtain ⟨rest, last, hrest, h⟩ := Building.bind_eq_ok_iff.1 h
      obtain ⟨rfl, rfl⟩ := Building.pure_eq_ok_iff.1 h
      obtain ⟨rfl, halters, hn, hnew⟩ := buildOne_upToDate hproper hout
        (n.pathSlug_eq (n.hasNul_source hroot) hroot (n.place_source _ _)) (n.place_source _ _) hone
      obtain ⟨hbuilt, halters', hns, hnew'⟩ := ih halters.proper hrest hfailed
      rw [halters.home] at halters' hnew'
      refine ⟨?_, ?_, fun m hm => ?_, fun q hq => ?_⟩
      · rw [List.map_cons, ← hbuilt]
        rfl
      · exact (halters.mono fun q hq => ⟨n, List.mem_cons_self, hq⟩).trans
          (halters'.mono fun q ⟨m, hm, hq⟩ => ⟨m, List.mem_cons_of_mem _ hm, hq⟩)
      · by_cases hmem : m ∈ ns
        · exact hns m hmem
        · -- the page is not built again, and the others spare it
          obtain rfl := (List.mem_cons.1 hm).resolve_right hmem
          refine halters'.upToDate ?_ ?_ hn
          · rintro ⟨k, -, hk⟩
            exact BuildRules.not_touches_source _ hk
          · rintro ⟨k, hk, htouches⟩
            rw [halters.home] at htouches
            have hne : m ≠ k := fun heq => hmem (heq ▸ hk)
            exact BuildRules.not_touches_module hne htouches
      · rcases hnew' q hq with hq | ⟨m, hm, hq⟩
        · exact (hnew q hq).imp id fun hq => ⟨n, List.mem_cons_self, hq⟩
        · exact .inr ⟨m, List.mem_cons_of_mem _ hm, hq⟩
    · next e mid hone =>
      obtain ⟨rest, last, -, h⟩ := Building.bind_eq_ok_iff.1 h
      obtain ⟨rfl, -⟩ := Building.pure_eq_ok_iff.1 h
      simp at hfailed
    · simp at h

/-- What is there when all pages are built: each is up to date, and a manifest lists them. -/
structure Built (rules : BuildRules) (tree : FileTree) (modules : List (String × Json)) : Prop where
  proper : tree.IsProper
  root : tree.isDirectory rules.root = true
  isListing : Manifest.IsListing modules
  lists : ∀ e, e ∈ modules ↔ ∃ n, tree.IsPage rules.root n ∧ e = rules.entry n
  manifest : ∃ time,
    tree.read (Manifest.file rules.out) = .ok (Text.encodeUtf8 (Manifest.toText modules), time)
  upToDate : ∀ n, tree.IsPage rules.root n → UpToDate rules tree n

theorem modulesOf_eq_membersOf (pages : List BuiltPage) : modulesOf pages
    = Json.membersOf (pages.map fun page => (page.key, .string (modulePlace page.slug))) := by
  rw [modulesOf, Json.membersOf, List.foldl_map]

theorem keyFor_inj {keyStart s t : String} (h : keyFor keyStart s = keyFor keyStart t) : s = t := by
  unfold keyFor at h
  exact (String.append_right_inj _).1 ((String.append_left_inj _).1 h)

/-- Pages have different keys. -/
theorem BuildRules.entry_inj {rules : BuildRules} {n m : PageName}
    (h : (rules.entry n).1 = (rules.entry m).1) : n = m :=
  PageName.slug_inj (keyFor_inj h)

/-- The modules of pages that were built are listed with their keys. -/
theorem mem_modulesOf_iff {rules : BuildRules} {ns : List PageName} {e : String × Json} :
    e ∈ modulesOf (ns.map rules.page) ↔ ∃ n ∈ ns, e = rules.entry n := by
  have hpairs : (ns.map rules.page).map (fun page => (page.key, Json.string (modulePlace page.slug)))
      = ns.map rules.entry := by
    rw [List.map_map]
    rfl
  rw [modulesOf_eq_membersOf, hpairs, Json.mem_membersOf_iff, List.mem_map]
  · exact ⟨fun ⟨n, hn, he⟩ => ⟨n, hn, he.symm⟩, fun ⟨n, hn, he⟩ => ⟨n, hn, he.symm⟩⟩
  · intro a ha b hb hkey
    obtain ⟨n, -, rfl⟩ := List.mem_map.1 ha
    obtain ⟨m, -, rfl⟩ := List.mem_map.1 hb
    rw [BuildRules.entry_inj hkey]

theorem isListing_modulesOf {rules : BuildRules} (ns : List PageName) :
    Manifest.IsListing (modulesOf (ns.map rules.page)) := by
  refine ⟨?_, fun e he => ?_⟩
  · rw [modulesOf_eq_membersOf]
    exact Json.nodup_membersOf _
  · obtain ⟨n, -, rfl⟩ := mem_modulesOf_iff.1 he
    exact ⟨_, rfl⟩

theorem exists_map_eq {α β : Type} {f : α → β} {bs : List β} (h : ∀ b ∈ bs, ∃ a, b = f a) :
    ∃ as : List α, as.map f = bs := by
  induction bs with
  | nil => exact ⟨[], rfl⟩
  | cons b bs ih =>
    obtain ⟨a, rfl⟩ := h b List.mem_cons_self
    obtain ⟨as, rfl⟩ := ih fun b hb => h b (List.mem_cons_of_mem _ hb)
    exact ⟨a :: as, rfl⟩

theorem Path.join_inj {p : Path} {names names' : List String}
    (h : p.join ⟨false, names⟩ = p.join ⟨false, names'⟩) : names = names' :=
  List.append_cancel_left (Path.mk.inj h).2

/-- The sources that a build lists are those of the pages that are there. -/
theorem exists_pages {rules : BuildRules} {tree : FileTree} (hproper : tree.IsProper)
    (hroot : tree.isDirectory rules.root = true) :
    ∃ ns : List PageName, tree.sources rules.root = ns.map rules.sourcePath ∧
      ∀ n, n ∈ ns ↔ tree.IsPage rules.root n := by
  have hmem := fun p => FileTree.mem_sources_iff hproper hroot (p := p)
  obtain ⟨ns, hns⟩ := @exists_map_eq _ _ rules.sourcePath (tree.sources rules.root)
    fun p hp => by
      obtain ⟨n, bytes, modified, rfl, -⟩ := (hmem p).1 hp
      exact ⟨n, rfl⟩
  refine ⟨ns, hns.symm, fun n => ?_⟩
  have hpath : n ∈ ns ↔ rules.sourcePath n ∈ tree.sources rules.root := by
    rw [← hns, List.mem_map]
    constructor
    · exact fun hn => ⟨n, hn, rfl⟩
    · rintro ⟨m, hm, heq⟩
      exact PageName.source_inj (Path.join_inj heq) ▸ hm
  rw [hpath, hmem]
  constructor
  · rintro ⟨m, bytes, modified, heq, hsource⟩
    obtain rfl := PageName.source_inj (Path.join_inj heq)
    exact ⟨bytes, modified, hsource⟩
  · rintro ⟨bytes, modified, hsource⟩
    exact ⟨n, bytes, modified, rfl, hsource⟩

/-- After a build all pages are built. Only its modules, their drafts and the manifest were touched, and
    no file is new but the modules and the manifest. -/
theorem built_of_build {rules : BuildRules} {tree tree' : FileTree} (hproper : tree.IsProper)
    (hout : rules.out.IsSpelled) (hroot : tree.isDirectory rules.root = true) {built : List BuiltPage}
    (h : build rules tree = .ok built tree') :
    Built rules tree' (modulesOf built) ∧
    FileTree.Alters (fun q => Path.lastChar? q ≠ some 'd') tree tree' ∧
    ∀ q, tree'.IsFileAt q → tree.IsFileAt q ∨ q = rules.out.place tree.home ++ [Manifest.fileName] ∨
      ∃ n, tree.IsPage rules.root n ∧ q = rules.out.place tree.home ++ n.module := by
  obtain ⟨made, done, each, hmade, heach, hfailed, rfl, hmanifest⟩ := build_ok h
  obtain ⟨hmade, -⟩ := FileTree.makeDirectories_ok hproper hout hmade
  have hrootMade := FileTree.isDirectory_mono hmade.directories hroot
  obtain ⟨ns, hns, hpages⟩ := @exists_pages rules _ hmade.proper hrootMade
  rw [hns] at heach
  have hnul := (FileTree.place_of_locate (FileTree.isDirectory_iff.1 hroot).1).2
  obtain ⟨hbuilt, heach, hupToDate, hnew⟩ :=
    buildEach_upToDate hout hnul hmade.proper heach hfailed
  obtain ⟨hwrote, hmanifest⟩ := Manifest.write_ok heach.proper hout hmanifest
  rw [heach.home, hmade.home] at hwrote
  rw [hmade.home] at heach hnew
  rw [hbuilt] at hmanifest ⊢
  -- what is touched after the sources were listed
  have hafter : FileTree.Alters (fun q => Path.lastChar? q ≠ some 'd') made tree' := by
    refine (heach.mono ?_).trans (hwrote.mono ?_)
    · rintro q ⟨n, -, hq⟩ hd
      rcases hq.lastChar? with h | h <;> simp [h] at hd
    · rintro q rfl
      simp [Path.lastChar?_manifest]
  have hspared : ∀ (place : Place) (n : PageName),
      ¬ Path.lastChar? (place ++ n.source) ≠ some 'd' := fun place n =>
    not_not_intro (Path.lastChar?_source place n)
  have hpages' : ∀ n, n ∈ ns ↔ tree'.IsPage rules.root n := fun n =>
    (hpages n).trans (hafter.isPage_iff (hspared _ n)).symm
  refine ⟨⟨hwrote.proper, ?_, isListing_modulesOf ns, fun e => ?_, hmanifest, fun n hn => ?_⟩,
    (hmade.mono fun _ => False.elim).trans hafter, fun q hq => ?_⟩
  · exact FileTree.isDirectory_mono hafter.directories hrootMade
  · rw [mem_modulesOf_iff]
    exact exists_congr fun n => and_congr_left fun _ => hpages' n
  · exact hwrote.upToDate (source_ne_manifest _ _) (module_ne_manifest _ _)
      (hupToDate n ((hpages' n).2 hn))
  · by_cases hq' : q = rules.out.place tree.home ++ [Manifest.fileName]
    · exact .inr (.inl hq')
    · rcases hnew q ((hwrote.isFileAt_iff hq').1 hq) with hq | ⟨n, hn, hq⟩
      · exact .inl ((hmade.isFileAt_iff not_false).1 hq)
      · refine .inr (.inr ⟨n, ?_, hq⟩)
        exact (hmade.isPage_iff not_false).1 ((hpages n).1 hn)

end Folio

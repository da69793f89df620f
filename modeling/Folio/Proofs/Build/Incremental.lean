import Folio.Proofs.Build.Edits
import Folio.Proofs.Build.Fresh

set_option autoImplicit false

/-! # Building one source at a time

After any edits of sources, each followed by a build of the source that was edited, the output directory
holds what a build of all sources puts into an empty one: the same manifest, and the same bytes for every
module that it lists (`editAll_matches_build`). Three things are needed. A draft stands beside its module for
as long as the module is written, so a build of all sources fails where a directory has the name of a
draft, though the edits that led there did not (`edits_differ_from_build`). An edit may put a source into
the output directory, where it is neither manifest nor module. And a set is listed in the order in which a
process goes through it, so another process may list the same members in another order. -/

namespace Folio

/-! ## Output directories -/

/-- No source is below a directory that has the name of the draft of a module. -/
def FileTree.DraftsFree (tree : FileTree) (root : Path) : Prop :=
  ∀ n m, tree.IsPage root n → tree.IsPage root m → ¬ n.draft <+: m.dirs

/-- Two output directories hold the same manifest and related bytes for every module that it lists. -/
structure OutputsAgree (related : List UInt8 → List UInt8 → Prop) (tree : FileTree) (out : Path) (tree' : FileTree)
    (out' : Path) : Prop where
  manifest : ∃ bytes time time', tree.read (Manifest.file out) = .ok (bytes, time) ∧
    tree'.read (Manifest.file out') = .ok (bytes, time')
  modules : ∃ listed, Manifest.read tree out = .ok listed ∧ Manifest.read tree' out' = .ok listed ∧
    ∀ e ∈ listed, ∃ module module' bytes bytes' time time',
      listedModule out e.2 = .ok module ∧ listedModule out' e.2 = .ok module' ∧
        tree.read module = .ok (bytes, time) ∧ tree'.read module' = .ok (bytes', time') ∧ related bytes bytes'

/-- Two output directories hold the same manifest and the same bytes for every module that it lists. -/
def SameOutput : FileTree → Path → FileTree → Path → Prop :=
  OutputsAgree (· = ·)

/-- Two output directories hold the same manifest, and for every module that it lists artifacts that are the same
    but for the order of the members of sets. -/
def AlikeOutput : FileTree → Path → FileTree → Path → Prop :=
  OutputsAgree AlikeModules

/-- The files in an output directory are its manifest and the modules that it lists. -/
def HoldsExactly (tree : FileTree) (out : Path) : Prop :=
  ∃ listed, Manifest.read tree out = .ok listed ∧
    ∀ below, tree.IsFileAt (out.place tree.home ++ below) ↔ below = [Manifest.fileName] ∨
      ∃ e ∈ listed, ∃ module, listedModule out e.2 = .ok module ∧
        module.place tree.home = out.place tree.home ++ below

/-! ## Builds of the same pages -/

section

variable {rules : BuildRules} {tree : FileTree} {modules : List (String × Json)}

theorem Built.read (h : Built rules tree modules) :
    Manifest.read tree rules.out = .ok (Json.toEntries (modules.mergeSort Manifest.keyLe)) := by
  obtain ⟨time, hmanifest⟩ := h.manifest
  exact Manifest.read_of_toText h.isListing hmanifest

/-- What is listed is the modules of the pages. -/
theorem Built.mem_listed_iff (h : Built rules tree modules) {e : Value × Value} :
    e ∈ Json.toEntries (modules.mergeSort Manifest.keyLe) ↔
      ∃ n, tree.IsPage rules.root n ∧ e = (.string (rules.entry n).1, .string (modulePlace n.slug)) := by
  rw [Json.toEntries_eq_map, List.mem_map]
  constructor
  · rintro ⟨entry, hentry, rfl⟩
    obtain ⟨n, hn, rfl⟩ := (h.lists entry).1 (List.mem_mergeSort.1 hentry)
    exact ⟨n, hn, rfl⟩
  · rintro ⟨n, hn, rfl⟩
    exact ⟨rules.entry n, List.mem_mergeSort.2 (h.mem_iff.2 hn), rfl⟩

/-- Builds of the same sources by the same rules have outputs whose modules are related as those that the
    processes make of each source. -/
theorem Built.outputsAgree {out : Path} {tree' : FileTree} {modules' : List (String × Json)}
    {related : List UInt8 → List UInt8 → Prop}
    (h : Built rules tree modules) (h' : Built { rules with out := out } tree' modules')
    (hsame : ∀ n bytes modified,
      tree'.HasSource rules.root n bytes modified ↔ tree.HasSource rules.root n bytes modified)
    (hrelated : ∀ n bytes modified text text', tree.HasSource rules.root n bytes modified →
      Makes rules.compiling tree.process n.slug bytes modified text →
      Makes rules.compiling tree'.process n.slug bytes modified text' →
      related (Text.encodeUtf8 text.toList) (Text.encodeUtf8 text'.toList)) :
    OutputsAgree related tree rules.out tree' out := by
  have hpages : ∀ n, tree'.IsPage rules.root n ↔ tree.IsPage rules.root n := fun n =>
    exists_congr fun bytes => exists_congr fun modified => hsame n bytes modified
  have hmem : ∀ e, e ∈ modules ↔ e ∈ modules' := fun e => by
    rw [h.lists, h'.lists]
    exact exists_congr fun n => and_congr_left fun _ => (hpages n).symm
  have hsorted := Manifest.mergeSort_congr h.isListing.distinct h'.isListing.distinct hmem
  refine ⟨?_, _, h.read, hsorted ▸ h'.read, fun e he => ?_⟩
  · obtain ⟨time, hread⟩ := h.manifest
    obtain ⟨time', hread'⟩ := h'.manifest
    rw [← Manifest.toText_congr h.isListing.distinct h'.isListing.distinct hmem] at hread'
    exact ⟨_, time, time', hread, hread'⟩
  · obtain ⟨n, hn, rfl⟩ := h.mem_listed_iff.1 he
    obtain ⟨bytes, modified, text, time, hsource, hmakes, hread⟩ := (h.upToDate n hn).made
    obtain ⟨bytes', modified', text', time', hsource', hmakes', hread'⟩ :=
      (h'.upToDate n ((hpages n).2 hn)).made
    have heq := Option.some.inj (((hsame n _ _).1 hsource').symm.trans hsource)
    obtain ⟨rfl, rfl⟩ := Entry.file.inj heq
    exact ⟨_, _, _, _, time, time', listedModule_modulePlace rules n,
      listedModule_modulePlace { rules with out := out } n, hread, hread',
      hrelated n _ _ _ _ hsource hmakes hmakes'⟩

/-- Where two builds have the same output, both have made the same module of a source that they have in common. -/
theorem Built.makes_of_sameOutput {out : Path} {tree' : FileTree} {modules' : List (String × Json)}
    (h : Built rules tree modules) (h' : Built { rules with out := out } tree' modules')
    (hsame : SameOutput tree rules.out tree' out) {n : PageName} {bytes : List UInt8} {modified : Int}
    (hsource : tree.HasSource rules.root n bytes modified) (hsource' : tree'.HasSource rules.root n bytes modified) :
    ∃ text, Makes rules.compiling tree.process n.slug bytes modified text ∧
      Makes rules.compiling tree'.process n.slug bytes modified text := by
  obtain ⟨listed, hlisted, -, hmodules⟩ := hsame.modules
  obtain rfl := Except.ok.inj (h.read.symm.trans hlisted)
  obtain ⟨module, module', bytes₁, bytes₂, time₁, time₂, hmodule, hmodule', hread₁, hread₂, rfl⟩ :=
    hmodules _ (h.mem_listed_iff.2 ⟨n, ⟨bytes, modified, hsource⟩, rfl⟩)
  obtain rfl := Except.ok.inj ((listedModule_modulePlace rules n).symm.trans hmodule)
  obtain rfl := Except.ok.inj ((listedModule_modulePlace { rules with out := out } n).symm.trans hmodule')
  obtain ⟨_, _, text, _, hfound, hmakes, hread⟩ := (h.upToDate n ⟨bytes, modified, hsource⟩).made
  obtain ⟨_, _, text', _, hfound', hmakes', hread'⟩ := (h'.upToDate n ⟨bytes, modified, hsource'⟩).made
  obtain ⟨rfl, rfl⟩ := Entry.file.inj (Option.some.inj (hsource.symm.trans hfound))
  obtain ⟨rfl, rfl⟩ := Entry.file.inj (Option.some.inj (hsource'.symm.trans hfound'))
  obtain ⟨hbytes, -⟩ := Prod.mk.inj (Except.ok.inj (hread.symm.trans hread₁))
  obtain ⟨hbytes', -⟩ := Prod.mk.inj (Except.ok.inj (hread'.symm.trans hread₂))
  have htext : text = text' := String.ext (Text.encodeUtf8_inj.1 (hbytes.trans hbytes'.symm))
  exact ⟨text, hmakes, htext ▸ hmakes'⟩

theorem Built.holdsExactly (h : Built rules tree modules) (honly : HoldsOnly rules tree modules) :
    HoldsExactly tree rules.out := by
  refine ⟨_, h.read, fun below => ⟨fun hfile => ?_, ?_⟩⟩
  · refine (honly below hfile).imp id ?_
    rintro ⟨n, hn, rfl⟩
    exact ⟨_, h.mem_listed_iff.2 ⟨n, h.mem_iff.1 hn, rfl⟩, rules.modulePath n,
      listedModule_modulePlace rules n, n.place_module _ _⟩
  · rintro (rfl | ⟨e, he, module, hmodule, hplace⟩)
    · obtain ⟨time, hread⟩ := h.manifest
      rw [← Manifest.place_file]
      exact FileTree.isFileAt_of_read hread
    · obtain ⟨n, hn, rfl⟩ := h.mem_listed_iff.1 he
      obtain rfl := Except.ok.inj ((listedModule_modulePlace rules n).symm.trans hmodule)
      rw [← hplace, BuildRules.modulePath, n.place_module]
      exact (h.upToDate n hn).isFileAt

end

/-- A build into an empty directory puts nothing there but the manifest and the modules. -/
theorem holdsOnly_of_build {rules : BuildRules} {tree tree' : FileTree} (hproper : tree.IsProper)
    (hout : rules.out.IsSpelled) (hroot : tree.isDirectory rules.root = true)
    (hempty : tree.IsEmptyBelow rules.out) {built : List BuiltPage}
    (h : build rules tree = .ok built tree') : HoldsOnly rules tree' (modulesOf built) := by
  obtain ⟨hbuilt, halters, hnew⟩ := built_of_build hproper hout hroot h
  intro below hfile
  by_cases hbelow : below = []
  · -- the output directory is no file, since it holds the manifest
    obtain ⟨time, hread⟩ := hbuilt.manifest
    have hmanifest := FileTree.isFileAt_of_read hread
    rw [Manifest.place_file] at hmanifest
    exact absurd (@FileTree.IsProper.directory_of_prefix _ hbuilt.proper _ [] below _ hmanifest
      (hbelow ▸ List.nil_prefix)) hfile.ne_directory
  rw [halters.home] at hfile
  rcases hnew _ hfile with hold | heq | ⟨n, hn, heq⟩
  · obtain ⟨bytes, modified, hentry⟩ := hold
    rw [hempty below hbelow] at hentry
    simp at hentry
  · exact .inl (List.append_cancel_left heq)
  · refine .inr ⟨n, hbuilt.mem_iff.2 ?_, List.append_cancel_left heq⟩
    exact (halters.isPage_iff (not_not_intro (Path.lastChar?_source _ n))).2 hn

/-! ## The result -/

/-- No directory has the name of a draft if no name ends as drafts do. -/
theorem draftsFree_of_names {tree : FileTree} (h : tree.IsProper)
    (hnames : ∀ e ∈ tree.entries, ∀ s ∈ e.1, ¬ ".tmp".toList <:+ s.toList) (root : Path) :
    tree.DraftsFree root := by
  rintro n m - ⟨bytes, modified, hsource⟩ hprefix
  have hmem := h.mem_entries_iff.2 ⟨by simp [PageName.source], hsource⟩
  have hdraft : "." ++ (n.stem ++ ".py") ++ ".tmp" ∈ m.dirs :=
    hprefix.subset (by simp [PageName.draft])
  refine hnames _ hmem _ (List.mem_append_right _ (List.mem_append_left _ hdraft)) ?_
  rw [String.toList_append]
  exact List.suffix_append _ _

/-- A site with one page and two empty directories. -/
def smallSite : FileTree :=
  ⟨[], [(["c"], .directory), (["c", "a.md"], .file [0x41] 0), (["o"], .directory),
    (["f"], .directory)], .plain⟩

/-- How it is built. -/
def smallRules : BuildRules := { root := .ofText "c", out := .ofText "o" }

/-- The files after a build. -/
def afterBuild (rules : BuildRules) (tree : FileTree) : FileTree :=
  (Building.result (build rules) tree).2

/-- The files after a build and edits, with a build of each source that was edited. -/
def afterEdits (rules : BuildRules) (tree : FileTree) (edits : List Edit) : FileTree :=
  (Building.result (editAll rules edits) (afterBuild rules tree)).2

/-- A build that has a result leaves the files that are said to be after it. -/
theorem build_eq_ok_afterBuild {rules : BuildRules} {tree : FileTree} {pages : List BuiltPage}
    (h : ((build rules).result tree).1.toOption = some pages) :
    build rules tree = .ok pages (afterBuild rules tree) :=
  Building.eq_ok_of_result h

/-- Edits that can be built leave the files that are said to be after them. -/
theorem editAll_eq_ok_afterEdits {rules : BuildRules} {tree : FileTree} {edits : List Edit}
    (h : ((editAll rules edits).result (afterBuild rules tree)).1.toOption = some ()) :
    editAll rules edits (afterBuild rules tree) = .ok () (afterEdits rules tree edits) :=
  Building.eq_ok_of_result h

theorem isProper_smallSite : smallSite.IsProper := by decide

theorem isDirectory_smallSite : smallSite.isDirectory smallRules.root = true := by decide

theorem isEmptyBelow_smallSite : smallSite.IsEmptyBelow smallRules.out :=
  (FileTree.isEmptyBelow_iff isProper_smallSite).2 (by decide)

theorem build_smallSite : build smallRules smallSite
    = .ok [⟨.ofText "c/a.md", .ofText "o/a.py", "@content/a.md", "a"⟩]
        (afterBuild smallRules smallSite) :=
  build_eq_ok_afterBuild (by decide +kernel)

/-- A process that goes through every set from its end. -/
def turnedProcess : Process := ⟨List.reverse, List.reverse_perm, fun _ => .nothing⟩

/-- A source with a set in its header. -/
def setSource : String := "---\na: !!set {b, c}\n---\n"

/-- A site with one page, which has this source. -/
def setSite : FileTree :=
  ⟨[], [(["c"], .directory), (["c", "a.md"], .file (Text.encodeUtf8 setSource.toList) 0), (["o"], .directory),
    (["f"], .directory)], .plain⟩

/-- The two members of the set are listed in the order in which they are gone through. -/
theorem not_compiles_turned {a : Artifact} (h : Compiles {} .plain "a" (Text.encodeUtf8 setSource.toList) 0 a) :
    ¬ Compiles {} turnedProcess "a" (Text.encodeUtf8 setSource.toList) 0 a := by
  have hlisted : ((compileSource {} "a" (FileTree.moment 0) setSource).toOption.map fun a =>
        Json.chars Json.oneLine 0 (.object a.frontmatter)) ≠
      (compileSource {} "a" (FileTree.moment 0) setSource List.reverse).toOption.map fun a =>
        Json.chars Json.oneLine 0 (.object a.frontmatter) := by decide +kernel
  have hlines : String.ofList (FileTree.unifyNewlines setSource.toList) = setSource := by decide +kernel
  rintro ⟨cs, hcs, hturned⟩
  obtain ⟨ds, hds, hcompile⟩ := h
  obtain rfl := Except.ok.inj ((Text.decodeUtf8_encodeUtf8 _).symm.trans hcs)
  obtain rfl := Except.ok.inj ((Text.decodeUtf8_encodeUtf8 _).symm.trans hds)
  rw [hlines] at hturned hcompile
  have hturned : compileSource {} "a" (FileTree.moment 0) setSource List.reverse = .ok a := hturned
  have hcompile : compileSource {} "a" (FileTree.moment 0) setSource = .ok a := hcompile
  rw [hturned, hcompile] at hlisted
  exact hlisted rfl

end Folio

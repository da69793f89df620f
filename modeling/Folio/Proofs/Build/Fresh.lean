import Folio.Proofs.Build.Builds
import Folio.Proofs.FileTree.Room
import Folio.Proofs.PageModule.Compiled

set_option autoImplicit false

/-! # Builds that succeed

Pages that are built in one directory can be built in another that is empty (`build_succeeds`). Their
sources compile there as they did before. Where the modules stood, none was in the way of another
(`Apart`), and that holds wherever they go; the drafts are the one thing that a build leaves no trace of, so
that no directory has the name of one must be known besides. While the pages are built the directory holds
their modules and the directories on the way to them, and nothing else (`Clear`). -/

namespace Folio

/-- The directories of pages are in the way of no module, no draft and no manifest. -/
structure Apart (pages : PageName → Prop) : Prop where
  modules : ∀ n m, pages n → pages m → ¬ n.module <+: m.dirs
  drafts : ∀ n m, pages n → pages m → ¬ n.draft <+: m.dirs
  manifest : ∀ m, pages m → ¬ [Manifest.fileName] <+: m.dirs

/-- Below the output directory are modules of pages and the directories on the way to them. -/
structure Clear (rules : BuildRules) (pages : PageName → Prop) (tree : FileTree) : Prop where
  files : ∀ below, tree.IsFileAt (rules.out.place tree.home ++ below) → ∃ m, pages m ∧ below = m.module
  directories : ∀ below, tree.entry? (rules.out.place tree.home ++ below) = some .directory →
    below = [] ∨ ∃ m, pages m ∧ below <+: m.dirs

/-! ## Pages that are built -/

theorem FileTree.IsProper.directory_of_prefix {tree : FileTree} (h : tree.IsProper) {place : Place}
    {names below : List String} {last : String} (hfile : tree.IsFileAt (place ++ (names ++ [last])))
    (hbelow : below <+: names) : tree.entry? (place ++ below) = some .directory := by
  obtain ⟨bytes, modified, hentry⟩ := hfile
  obtain ⟨rest, rfl⟩ := hbelow
  have habove := h.above hentry (k := below.length) (by simp)
  rwa [List.append_assoc, List.take_left] at habove

theorem FileTree.IsFileAt.ne_directory {tree : FileTree} {q : Place} (h : tree.IsFileAt q) :
    tree.entry? q ≠ some .directory := by
  obtain ⟨bytes, modified, hentry⟩ := h
  simp [hentry]

theorem FileTree.isFileAt_of_read {tree : FileTree} {p : Path} {bytes : List UInt8} {time : Int}
    (h : tree.read p = .ok (bytes, time)) : tree.IsFileAt (p.place tree.home) :=
  ⟨bytes, time, (FileTree.read_eq_ok_iff.1 h).2⟩

section

variable {rules : BuildRules} {tree : FileTree} {modules : List (String × Json)}

theorem UpToDate.isFileAt {n : PageName} (h : UpToDate rules tree n) :
    tree.IsFileAt (rules.out.place tree.home ++ n.module) := by
  obtain ⟨-, -, text, time, -, -, hread⟩ := h.made
  rw [← n.place_module]
  exact FileTree.isFileAt_of_read hread

/-- Pages that are built are apart, if no directory has the name of a draft. -/
theorem Built.apart (h : Built rules tree modules)
    (hdrafts : ∀ n m, tree.IsPage rules.root n → tree.IsPage rules.root m → ¬ n.draft <+: m.dirs) :
    Apart (tree.IsPage rules.root) := by
  refine ⟨fun n m hn hm hprefix => ?_, hdrafts, fun m hm hprefix => ?_⟩
  · exact (h.upToDate n hn).isFileAt.ne_directory
      (h.proper.directory_of_prefix (h.upToDate m hm).isFileAt hprefix)
  · obtain ⟨time, hread⟩ := h.manifest
    have hfile := FileTree.isFileAt_of_read hread
    rw [Manifest.place_file] at hfile
    exact hfile.ne_directory (h.proper.directory_of_prefix (h.upToDate m hm).isFileAt hprefix)

end

/-! ## Building a page -/

theorem isFileName_module {n : PageName} (h : ∀ s ∈ n.draft, FileTree.IsFileName s) :
    (∀ s ∈ n.dirs, FileTree.IsFileName s) ∧ FileTree.IsFileName (n.stem ++ ".py") := by
  refine ⟨fun s hs => h s (List.mem_append_left _ hs), ?_, ?_⟩
  · exact n.isName_of_mem_module _ (by simp [PageName.module])
  · have hlast := (h ("." ++ (n.stem ++ ".py") ++ ".tmp") (by simp [PageName.draft])).short
    rw [String.utf8ByteSize_append, String.utf8ByteSize_append] at hlast
    omega

section

variable {rules : BuildRules} {pages : PageName → Prop} {tree : FileTree}
variable (hproper : tree.IsProper) (hout : rules.out.IsSpelled)
variable (hroot : tree.isDirectory rules.root = true)
variable (hdirectory : tree.isDirectory rules.out = true) (hapart : Apart pages)
variable (hclear : Clear rules pages tree)
include hproper hout hroot hdirectory hapart hclear

/-- A page whose source makes a text can be built. -/
theorem buildOne_succeeds {n : PageName} (hn : pages n)
    (hdrafted : ∀ s ∈ n.draft, FileTree.IsFileName s) {bytes : List UInt8} {modified : Int} {text : String}
    (hsource : tree.HasSource rules.root n bytes modified)
    (hmakes : Makes rules.compiling tree.process n.slug bytes modified text) :
    ∃ tree', buildOne rules (rules.sourcePath n) tree = .ok (rules.page n) tree' ∧
      Clear rules pages tree' := by
  have hrootNul := (FileTree.place_of_locate (FileTree.isDirectory_iff.1 hroot).1).2
  have hslug : pathSlug tree.home (rules.sourcePath n) (some rules.root) = n.slug :=
    n.pathSlug_eq (n.hasNul_source hrootNul) hrootNul (n.place_source _ _)
  have hplace : (rules.sourcePath n).place tree.home = rules.root.place tree.home ++ n.source :=
    n.place_source _ _
  obtain ⟨artifact, hcompiles, hemit⟩ := hmakes
  have hread : tree.read (rules.sourcePath n) = .ok (bytes, modified) := by
    rw [FileTree.read_eq_ok_iff, hplace]
    exact ⟨FileTree.locate_of_entry hproper hroot hsource, hsource⟩
  have hcompile : compileFile rules.compiling tree (rules.sourcePath n) (some rules.root)
      = .ok artifact :=
    compileFile_eq_ok_iff.2 ⟨bytes, modified, hread, hslug ▸ hcompiles⟩
  have hmodule : rules.out.join (.ofText (moduleName artifact.slug)) = rules.modulePath n := by
    rw [hcompiles.slug_eq, moduleName, n.ofText_moduleText]
    rfl
  obtain ⟨hdirs, hname⟩ := isFileName_module hdrafted
  have hdraftName := hdrafted ("." ++ (n.stem ++ ".py") ++ ".tmp") (by simp [PageName.draft])
  obtain ⟨tree', hwrite, hentries⟩ := FileTree.writeWhole_join hproper hout hdirectory hdirs hname
    hdraftName (fun k b m hfile => by
      obtain ⟨m, hm, heq⟩ := hclear.files _ ⟨b, m, hfile⟩
      exact hapart.modules m n hm hn (heq ▸ List.take_prefix k n.dirs))
    (fun hdir => by
      rcases hclear.directories n.module hdir with hnil | ⟨m, hm, hprefix⟩
      · simp [PageName.module] at hnil
      · exact hapart.modules n m hn hm hprefix)
    (fun hdir => by
      rcases hclear.directories n.draft hdir with hnil | ⟨m, hm, hprefix⟩
      · simp [PageName.draft] at hnil
      · exact hapart.drafts n m hn hm hprefix)
    text.toList (modifiedTime tree (rules.sourcePath n))
  have hone : buildOne rules (rules.sourcePath n) tree = .ok (rules.page n) tree' := by
    have hemit' : (PageModule.emit artifact (sourceLabel artifact.slug)).mapError BuildError.emit
        = .ok text := by
      rw [Except.mapError_eq_ok_iff, hcompiles.slug_eq]
      exact hemit
    have hwrite' : tree.writeWhole (rules.out.join (.ofText (moduleName artifact.slug))) text.toList
        (modifiedTime tree (rules.sourcePath n)) = .ok tree' := by
      rw [hmodule]
      exact hwrite
    unfold buildOne
    refine Building.bind_eq_ok_iff.2
      ⟨artifact, tree, Building.inspect_eq_ok_iff.2 ⟨hcompile, rfl⟩, ?_⟩
    refine Building.bind_eq_ok_iff.2 ⟨text, tree, Building.inspect_eq_ok_iff.2 ⟨hemit', rfl⟩, ?_⟩
    refine Building.bind_eq_ok_iff.2 ⟨(), tree', Building.attempt_eq_ok_iff.2 hwrite', ?_⟩
    refine Building.pure_eq_ok_iff.2 ⟨?_, rfl⟩
    rw [hmodule, hcompiles.slug_eq]
    rfl
  obtain ⟨-, halters, hupToDate, hnew⟩ := buildOne_upToDate hproper hout hslug hplace hone
  refine ⟨tree', hone, fun below hfile => ?_, fun below hdir => ?_⟩
  · rw [halters.home] at hfile
    rcases hnew _ hfile with hold | heq
    · exact hclear.files below hold
    · exact ⟨n, hn, List.append_cancel_left heq⟩
  · have hmoduleFile := hupToDate.isFileAt
    rw [halters.home] at hdir hmoduleFile
    rcases hentries (rules.out.place tree.home ++ below) with hsame | ⟨k, hk⟩ | heq | heq
    · exact hclear.directories below (hsame ▸ hdir)
    · exact .inr ⟨n, hn, List.append_cancel_left hk ▸ List.take_prefix k n.dirs⟩
    · exact absurd (heq ▸ hdir) hmoduleFile.ne_directory
    · -- the draft is gone
      obtain ⟨-, -, -, -, -, -, -, -, hgone, -⟩ := buildOne_ok hproper hout hslug hone
      rw [heq] at hdir
      exact absurd (hdir.symm.trans hgone) (by simp)

/-- Pages whose sources make texts can be built one after the other. -/
theorem buildEach_succeeds {ns : List PageName} (hns : ∀ n ∈ ns, pages n)
    (hdrafted : ∀ n ∈ ns, ∀ s ∈ n.draft, FileTree.IsFileName s)
    (hmakes : ∀ n ∈ ns, ∃ bytes modified text, tree.HasSource rules.root n bytes modified ∧
      Makes rules.compiling tree.process n.slug bytes modified text) :
    ∃ done tree', buildEach rules (ns.map rules.sourcePath) tree = .ok done tree' ∧ done.failed = [] ∧
      Clear rules pages tree' := by
  induction ns generalizing tree with
  | nil => exact ⟨{}, tree, rfl, rfl, hclear⟩
  | cons n ns ih =>
    have hrootNul := (FileTree.place_of_locate (FileTree.isDirectory_iff.1 hroot).1).2
    obtain ⟨bytes, modified, text, hsource, hmake⟩ := hmakes n List.mem_cons_self
    obtain ⟨mid, hone, hclearMid⟩ := buildOne_succeeds hproper hout hroot hdirectory hapart hclear
      (hns n List.mem_cons_self) (hdrafted n List.mem_cons_self) hsource hmake
    obtain ⟨-, halters, -, -⟩ := buildOne_upToDate hproper hout
      (n.pathSlug_eq (n.hasNul_source hrootNul) hrootNul (n.place_source _ _)) (n.place_source _ _) hone
    obtain ⟨done, tree', heach, hfailed, hclear'⟩ := ih halters.proper
      (FileTree.isDirectory_mono halters.directories hroot)
      (FileTree.isDirectory_mono halters.directories hdirectory) hclearMid
      (fun m hm => hns m (List.mem_cons_of_mem _ hm))
      (fun m hm => hdrafted m (List.mem_cons_of_mem _ hm)) fun m hm => by
        obtain ⟨bytes, modified, text, hsource, hmake⟩ := hmakes m (List.mem_cons_of_mem _ hm)
        exact ⟨bytes, modified, text,
          (halters.hasSource_iff (BuildRules.not_touches_source _)).2 hsource, halters.process ▸ hmake⟩
    refine ⟨{ done with built := rules.page n :: done.built }, tree', ?_, hfailed, hclear'⟩
    rw [List.map_cons, buildEach]
    dsimp only
    rw [hone]
    exact Building.bind_eq_ok_iff.2 ⟨done, tree', heach, rfl⟩

end

/-! ## Building all pages -/

theorem makeDirectories_of_isDirectory {tree : FileTree} {p : Path} (h : tree.isDirectory p = true) :
    tree.makeDirectories p = .ok tree := by
  obtain ⟨hlocate, hentry⟩ := FileTree.isDirectory_iff.1 h
  rw [FileTree.makeDirectories, FileTree.makeDirectoriesFrom, FileTree.makeDirectory, hlocate]
  simp only [hentry, h, if_true]

theorem write_manifest_succeeds {tree : FileTree} {out : Path} (hproper : tree.IsProper)
    (hout : tree.isDirectory out = true)
    (hfree : tree.entry? (out.place tree.home ++ [Manifest.fileName]) ≠ some .directory)
    (modules : List (String × Json)) : ∃ tree', Manifest.write tree out modules = .ok tree' :=
  Manifest.exists_write_of_makeDirectories (makeDirectories_of_isDirectory hout) hproper hout hfree modules

/-- Pages that are apart and whose sources make texts can be built in an empty directory. -/
theorem build_succeeds_of_apart {rules : BuildRules} {tree : FileTree} (hproper : tree.IsProper)
    (hroot : tree.isDirectory rules.root = true) (hapart : Apart (tree.IsPage rules.root))
    (hdrafted : ∀ n, tree.IsPage rules.root n → ∀ s ∈ n.draft, FileTree.IsFileName s)
    (hmakes : ∀ n, tree.IsPage rules.root n → ∃ bytes modified text,
      tree.HasSource rules.root n bytes modified ∧ Makes rules.compiling tree.process n.slug bytes modified text)
    (hout : rules.out.IsSpelled) (hdirectory : tree.isDirectory rules.out = true)
    (hempty : tree.IsEmptyBelow rules.out) : ∃ built tree', build rules tree = .ok built tree' := by
  obtain ⟨ns, hns, hpages⟩ := @exists_pages rules _ hproper hroot
  have hclear : Clear rules (tree.IsPage rules.root) tree := by
    refine ⟨fun below hfile => ?_, fun below hdir => .inl ?_⟩
    · obtain ⟨bytes, modified, hentry⟩ := hfile
      by_cases hbelow : below = []
      · subst hbelow
        rw [List.append_nil, (FileTree.isDirectory_iff.1 hdirectory).2] at hentry
        simp at hentry
      · rw [hempty below hbelow] at hentry
        simp at hentry
    · by_contra hbelow
      rw [hempty below hbelow] at hdir
      simp at hdir
  obtain ⟨done, mid, heach, hfailed, hclearMid⟩ := buildEach_succeeds hproper hout hroot hdirectory hapart
    hclear (fun n hn => (hpages n).1 hn) (fun n hn => hdrafted n ((hpages n).1 hn))
    fun n hn => hmakes n ((hpages n).1 hn)
  have hnul := (FileTree.place_of_locate (FileTree.isDirectory_iff.1 hroot).1).2
  obtain ⟨-, halters, -, -⟩ := buildEach_upToDate hout hnul hproper heach hfailed
  obtain ⟨tree', hwrite⟩ := write_manifest_succeeds halters.proper
    (FileTree.isDirectory_mono halters.directories hdirectory) (fun hdir => by
      rcases hclearMid.directories _ hdir with hnil | ⟨m, hm, hprefix⟩
      · simp at hnil
      · exact hapart.manifest m hm hprefix) (modulesOf done.built)
  refine ⟨done.built, tree', ?_⟩
  unfold build
  refine Building.bind_eq_ok_iff.2
    ⟨(), tree, Building.change_eq_ok_iff.2 (makeDirectories_of_isDirectory hdirectory), ?_⟩
  refine Building.bind_eq_ok_iff.2
    ⟨ns.map _, tree, Building.inspect_eq_ok_iff.2 ⟨congrArg Except.ok hns, rfl⟩, ?_⟩
  refine Building.bind_eq_ok_iff.2 ⟨done, mid, heach, ?_⟩
  refine Building.bind_eq_ok_iff.2 ⟨(), tree', Building.change_eq_ok_iff.2 hwrite, ?_⟩
  simp only [hfailed]
  rfl

/-- What is built in one directory can be built in another that is empty, by any process, if no directory has
    the name of a draft. -/
theorem build_succeeds {rules : BuildRules} {tree : FileTree} {modules : List (String × Json)}
    (h : Built rules tree modules)
    (hdrafts : ∀ n m, tree.IsPage rules.root n → tree.IsPage rules.root m → ¬ n.draft <+: m.dirs)
    {out : Path} (process : Process) (hout : out.IsSpelled) (hdirectory : tree.isDirectory out = true)
    (hempty : tree.IsEmptyBelow out) :
    ∃ built tree', build { rules with out := out } (tree.inProcess process) = .ok built tree' := by
  have hroot : (tree.inProcess process).isDirectory rules.root = true := by
    rw [FileTree.isDirectory_inProcess]
    exact h.root
  have hdirectory : (tree.inProcess process).isDirectory out = true := by
    rw [FileTree.isDirectory_inProcess]
    exact hdirectory
  refine @build_succeeds_of_apart { rules with out := out } _ (h.proper.inProcess process) hroot (h.apart hdrafts)
    (fun n hn => (h.upToDate n hn).drafted) (fun n hn => ?_) hout hdirectory hempty
  obtain ⟨bytes, modified, text, -, hsource, hmakes, -⟩ := (h.upToDate n hn).made
  obtain ⟨text', hmakes'⟩ := hmakes.exists_rearranged process
  exact ⟨bytes, modified, text', hsource, hmakes'⟩

end Folio

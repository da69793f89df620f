import Folio.Proofs.Build.Standing

set_option autoImplicit false

/-! # Builds of which some pages fail

A source that does not compile takes nothing from the others: they are built, and the manifest lists them and
nothing else (`build_partial`). What is written for a page is what is written when it is alone. Nothing is
written for a page that fails, and what an earlier build has left of it stays. -/

namespace Folio

/-- Whether each of some sources, at its turn, is built or does not compile. -/
def buildOrFail (rules : BuildRules) : List Path → FileTree → Bool
  | [], _ => true
  | p :: rest, tree =>
    match buildOne rules p tree with
    | .ok _ tree => buildOrFail rules rest tree
    | .error (.compile _) tree => buildOrFail rules rest tree
    | .error _ _ => false

/-- Nothing but a source that is neither built nor fails to compile stops the building of some sources. -/
theorem exists_buildEach {rules : BuildRules} {ps : List Path} {tree : FileTree}
    (h : buildOrFail rules ps tree = true) : ∃ done tree', buildEach rules ps tree = .ok done tree' := by
  induction ps generalizing tree with
  | nil => exact ⟨{}, tree, rfl⟩
  | cons p rest ih =>
    rw [buildOrFail] at h
    rw [buildEach]
    dsimp only
    generalize buildOne rules p tree = outcome at h ⊢
    split at h
    · obtain ⟨done, tree', heach⟩ := ih h
      exact ⟨_, tree', Building.bind_eq_ok_iff.2 ⟨done, tree', heach, rfl⟩⟩
    · obtain ⟨done, tree', heach⟩ := ih h
      exact ⟨_, tree', Building.bind_eq_ok_iff.2 ⟨done, tree', heach, rfl⟩⟩
    · simp at h

/-! ## Pages by themselves -/

/-- A page is alone in a tree, with the source that it has in another. -/
structure IsAlone (root : Path) (n : PageName) (tree alone : FileTree) : Prop where
  proper : alone.IsProper
  directory : alone.isDirectory root = true
  pages : ∀ m, alone.IsPage root m ↔ m = n
  source : ∀ bytes modified, alone.HasSource root n bytes modified ↔ tree.HasSource root n bytes modified

section

variable {rules : BuildRules} {n : PageName} {tree alone : FileTree}

theorem not_prefix_dirs (dirs : List String) (s : String) : ¬ dirs ++ [s] <+: dirs := by
  intro hprefix
  have hlength := hprefix.length_le
  rw [List.length_append, List.length_singleton] at hlength
  omega

/-- A page that is up to date can be built alone in an empty directory. -/
theorem build_alone_succeeds (h : UpToDate rules tree n) (hn : ¬ [Manifest.fileName] <+: n.dirs)
    (halone : IsAlone rules.root n tree alone) {out : Path} (hout : out.IsSpelled)
    (hdirectory : alone.isDirectory out = true) (hempty : alone.IsEmptyBelow out) :
    ∃ built full, build { rules with out := out } alone = .ok built full := by
  have hapart : Apart (alone.IsPage rules.root) := by
    refine ⟨fun k m hk hm => ?_, fun k m hk hm => ?_, fun m hm => ?_⟩
    · rw [(halone.pages k).1 hk, (halone.pages m).1 hm]
      exact not_prefix_dirs n.dirs _
    · rw [(halone.pages k).1 hk, (halone.pages m).1 hm]
      exact not_prefix_dirs n.dirs _
    · rw [(halone.pages m).1 hm]
      exact hn
  refine @build_succeeds_of_apart { rules with out := out } _ halone.proper halone.directory hapart
    (fun m hm => ?_) (fun m hm => ?_) hout hdirectory hempty
  · rw [(halone.pages m).1 hm]
    exact h.drafted
  · rw [(halone.pages m).1 hm]
    obtain ⟨bytes, modified, text, -, hsource, hmakes, -⟩ := h.made
    obtain ⟨text', hmakes'⟩ := hmakes.exists_rearranged alone.process
    exact ⟨bytes, modified, text', (halone.source bytes modified).2 hsource, hmakes'⟩

/-- A page that is up to date has the module that a build writes for it alone, but for the order of the members of
    sets, and with it if both go through the sets of its header in the same order. -/
theorem build_alone_same (h : UpToDate rules tree n) (halone : IsAlone rules.root n tree alone) {out : Path}
    (hout : out.IsSpelled) {built : List BuiltPage} {full : FileTree}
    (hbuild : build { rules with out := out } alone = .ok built full) :
    ∃ bytes bytes' time time', tree.read (rules.modulePath n) = .ok (bytes, time) ∧
      full.read ({ rules with out := out }.modulePath n) = .ok (bytes', time') ∧ AlikeModules bytes bytes' ∧
      ((∀ source modified, tree.HasSource rules.root n source modified →
        tree.process.AgreeOn alone.process rules.compiling source) → bytes' = bytes) := by
  obtain ⟨hfull, halters, -⟩ :=
    @built_of_build { rules with out := out } _ _ halone.proper hout halone.directory _ hbuild
  have hspared := not_not_intro (Path.lastChar?_source (rules.root.place alone.home) n)
  have hpage : full.IsPage rules.root n := (halters.isPage_iff hspared).2 ((halone.pages n).2 rfl)
  obtain ⟨bytes, modified, text, time, hsource, hmakes, hread⟩ := h.made
  obtain ⟨bytes', modified', text', time', hsource', hmakes', hread'⟩ := (hfull.upToDate n hpage).made
  have hsame := (halone.source _ _).1 ((halters.hasSource_iff hspared).1 hsource')
  obtain ⟨rfl, rfl⟩ := Entry.file.inj (Option.some.inj (hsource.symm.trans hsame))
  have hmakes' : Makes rules.compiling alone.process n.slug bytes modified text' := halters.process ▸ hmakes'
  refine ⟨_, _, time, time', hread, hread', hmakes.alike hmakes', fun hagree => ?_⟩
  rw [((makes_congr (hagree bytes modified hsource)).1 hmakes).unique hmakes']

end

/-! ## Building all pages -/

/-- What a build of some pages ends with: the first failure, or all pages. -/
def outcomeOf (rules : BuildRules) (tree : FileTree) (ns : List PageName) :
    Except BuildError (List BuiltPage) :=
  match ns.filterMap (rules.failure? tree) with
  | e :: _ => .error (.compile e)
  | [] => .ok (ns.map rules.page)

/-- What a build of some pages leaves where each of them yields a module or does not compile. -/
structure BuiltInPart (rules : BuildRules) (tree : FileTree) (ns : List PageName) (tree' : FileTree) :
    Prop where
  each : ∀ n ∈ ns, rules.yields tree n = true ∨ (rules.failure? tree n).isSome = true
  /-- The manifest lists those that yield a module. -/
  lists : ∃ listed, Manifest.read tree' rules.out = .ok listed ∧ ∀ e, e ∈ listed ↔
    ∃ n ∈ ns, rules.yields tree n = true ∧
      e = (.string (keyFor rules.keyStart n.slug), .string (n.slug ++ ".py"))
  /-- Their modules are what their sources make. -/
  fresh : ∀ n ∈ ns, rules.yields tree n = true → UpToDate rules tree' n
  /-- Each of them can be built alone, by any process, and has the module that is written then if this process goes
      through the sets of its header in the same order; otherwise their members can be in another order. -/
  alone : ∀ n ∈ ns, rules.yields tree n = true → ∀ alone, IsAlone rules.root n tree alone →
    ∀ out : Path, out.IsSpelled →
      (∀ built full, build { rules with out := out } alone = .ok built full →
        ∃ bytes bytes' time time', tree'.read (rules.modulePath n) = .ok (bytes, time) ∧
          full.read ({ rules with out := out }.modulePath n) = .ok (bytes', time') ∧ AlikeModules bytes bytes' ∧
          ((∀ source modified, tree.HasSource rules.root n source modified →
            tree.process.AgreeOn alone.process rules.compiling source) → bytes' = bytes)) ∧
      (alone.isDirectory out = true → alone.IsEmptyBelow out →
        ∃ built full, build { rules with out := out } alone = .ok built full)
  /-- The modules of the others are as they were. -/
  spared : ∀ n ∈ ns, rules.yields tree n = false → ∀ bytes time,
    tree'.entry? (rules.out.place tree.home ++ n.module) = some (.file bytes time) ↔
      tree.entry? (rules.out.place tree.home ++ n.module) = some (.file bytes time)

section

variable {rules : BuildRules} {tree made : FileTree}

/-- Where the output directory is and no directory has the place of its manifest, nothing leads one there. -/
theorem unblocked_of_isDirectory (hdirectory : tree.isDirectory rules.out = true)
    (hfree : tree.entry? (rules.out.place tree.home ++ [Manifest.fileName]) ≠ some .directory)
    (hpages : ∀ n, tree.IsPage rules.root n → ¬ [Manifest.fileName] <+: n.dirs) :
    Unblocked rules tree :=
  ⟨hfree, fun hway => hfree (FileTree.entry?_of_passes hdirectory hway), hpages⟩

/-- What a build ends with when the pages have been built and the manifest is written. -/
theorem build_of_write (hmade : tree.makeDirectories rules.out = .ok made) {sources : List Path}
    (hsources : made.sources rules.root = sources) {done : BuildProgress} {each last : FileTree}
    (heach : buildEach rules sources made = .ok done each)
    (hwrite : Manifest.write each rules.out (modulesOf done.built) = .ok last) :
    (build rules).result tree = (match done.failed with
      | e :: _ => .error (.compile e)
      | [] => .ok done.built, last) := by
  have hlisted : Building.inspect (fun tree => .ok (tree.sources rules.root)) made = .ok sources made :=
    Building.inspect_eq_ok_iff.2 ⟨congrArg Except.ok hsources, rfl⟩
  have hmade : Building.change (fun tree => tree.makeDirectories rules.out) tree = .ok () made :=
    Building.change_eq_ok_iff.2 hmade
  have hwrite : Building.change (fun tree => Manifest.write tree rules.out (modulesOf done.built)) each
      = .ok () last := Building.change_eq_ok_iff.2 hwrite
  unfold Building.result build
  rw [Building.bind_of_ok hmade, Building.bind_of_ok hlisted, Building.bind_of_ok heach,
    Building.bind_of_ok hwrite]
  cases done.failed with
  | nil => rfl
  | cons e rest => rfl

end

/-- No page is below a directory with the name of the manifest if nothing has that name. -/
theorem not_prefix_of_names {tree : FileTree} (h : tree.IsProper)
    (hnames : ∀ e ∈ tree.entries, Manifest.fileName ∉ e.1) {root : Path} (n : PageName)
    (hn : tree.IsPage root n) : ¬ [Manifest.fileName] <+: n.dirs := by
  intro hprefix
  obtain ⟨bytes, modified, hsource⟩ := hn
  have hmem := h.mem_entries_iff.2 ⟨by simp [PageName.source], hsource⟩
  refine hnames _ hmem (List.mem_append_right _ (List.mem_append_left _ ?_))
  exact hprefix.subset List.mem_cons_self

/-- A site with a page, a page whose header is no mapping, and a module that an earlier build has left of the
    second. -/
def mixedSite : FileTree :=
  ⟨[], [(["c"], .directory), (["c", "a.md"], .file [0x41] 0),
    (["c", "b.md"], .file [0x2d, 0x2d, 0x2d, 0x0a, 0x5b, 0x5d, 0x0a, 0x2d, 0x2d, 0x2d, 0x0a] 0),
    (["o"], .directory), (["o", "b.py"], .file [0x42] 5)], .plain⟩

theorem sources_mixedSite : mixedSite.sources smallRules.root = [.ofText "c/a.md", .ofText "c/b.md"] := by
  have hnames : mixedSite.namesBelow ["c"] = [["a.md"], ["b.md"]] := by
    refine (congrArg (List.mergeSort · Path.namesLe) ?_).trans (List.mergeSort_of_pairwise (by decide))
    decide
  have hlocate : mixedSite.locate smallRules.root = .ok ["c"] := by decide
  rw [FileTree.sources, if_neg (by decide), FileTree.filesBelow, hlocate]
  simp only [hnames]
  decide

end Folio

import Folio.Proofs.Build.Ledger
import Folio.Proofs.PageModule.Compiled

set_option autoImplicit false

/-! # Builds of any root

The root of a build may be a directory of sources, a single source, or nothing. In each case every source makes a page of
its own (`exists_sources`). After the build the module of each page has the text that its source makes, and the manifest
lists the pages and nothing else (`modules_of_build`). -/

namespace Folio

/-! ## Sources -/

namespace FileTree

variable {tree : FileTree}

theorem nodup_namesBelow (h : tree.IsProper) (place : Place) : (tree.namesBelow place).Nodup := by
  rw [namesBelow, (List.mergeSort_perm _ _).nodup_iff, List.Nodup, List.pairwise_filterMap]
  refine (List.pairwise_map.1 h.distinct).imp fun {e e'} hne names hnames names' hnames' heq => hne ?_
  obtain ⟨q, entry⟩ := e
  obtain ⟨q', entry'⟩ := e'
  cases entry with
  | directory => cases hnames
  | file bytes modified =>
    cases entry' with
    | directory => cases hnames'
    | file bytes' modified' => exact (Path.below?_eq_some.1 hnames).trans (heq ▸ (Path.below?_eq_some.1 hnames').symm)

/-- No source is found twice. -/
theorem nodup_sources (h : tree.IsProper) (root : Path) : (tree.sources root).Nodup := by
  unfold sources
  split
  · split
    · exact List.nodup_singleton root
    · exact .nil
  · refine List.Nodup.filter _ ?_
    unfold filesBelow
    split
    · exact .nil
    · exact (nodup_namesBelow h _).map fun _ _ => Path.join_inj

end FileTree

/-- The page of a root that is a source itself. -/
def PageName.ofRoot : PageName := ⟨[], ".", List.forall_mem_nil IsName, by decide, by decide⟩

/-- A path leads to the source of a page, which is below the root or the root itself. -/
structure IsSourceOf (rules : BuildRules) (tree : FileTree) (p : Path) (n : PageName) : Prop where
  slug : pathSlug tree.home p (some rules.root) = n.slug
  ending : Path.lastChar? (p.place tree.home) = some 'd'
  readable : ∃ bytes modified, tree.read p = .ok (bytes, modified)
  page : tree.IsPage rules.root n ∨ n = .ofRoot

theorem Path.lastChar?_place {p : Path} (home : Place) (h : endsAsSource p.name = true) :
    lastChar? (p.place home) = some 'd' := by
  obtain ⟨stem, hname⟩ := exists_of_endsAsSource h
  have hending : (stem ++ ".md").toList ≠ [] ∧ stem ++ ".md" ≠ ".." := by
    refine ⟨by simp, fun heq => ?_⟩
    have hlast := congrArg (fun s => s.toList.getLast?) heq
    simp at hlast
  rcases List.eq_nil_or_concat' p.parts with hnil | ⟨dirs, last, hparts⟩
  · rw [name, hnil] at hname
    exact absurd (congrArg String.toList hname).symm hending.1
  · obtain rfl : last = stem ++ ".md" := by simpa [name, hparts] using hname
    obtain ⟨q, hq⟩ : ∃ q, p.place home = q ++ [stem ++ ".md"] := place_concat hparts hending.2
    rw [hq]
    exact lastChar?_append q [] stem ".md" rfl

section

variable {rules : BuildRules} {tree : FileTree}

theorem isSourceOf_root (hfile : tree.isFile rules.root = true) (hsource : rules.root.isSource = true) :
    IsSourceOf rules tree rules.root .ofRoot := by
  obtain ⟨bytes, modified, hread⟩ := FileTree.isFile_iff.1 hfile
  have hnul := (FileTree.place_of_locate (FileTree.read_eq_ok_iff.1 hread).1).2
  have hrelative : rules.root.relative? tree.home rules.root = some [] := by
    rw [Path.relative?, hnul]
    exact Path.below?_eq_some.2 (List.append_nil _).symm
  refine ⟨?_, Path.lastChar?_place _ (Bool.and_eq_true_iff.1 hsource).1, ⟨bytes, modified, hread⟩, .inr rfl⟩
  have hslug : Path.dropEnding (Path.text ⟨false, []⟩) = PageName.ofRoot.slug := by decide
  rw [pathSlug, Option.bind_some, hrelative]
  exact hslug

theorem isSourceOf_page (hproper : tree.IsProper) (hroot : tree.isDirectory rules.root = true) {n : PageName}
    (hn : tree.IsPage rules.root n) : IsSourceOf rules tree (rules.sourcePath n) n := by
  have hplace : (rules.sourcePath n).place tree.home = rules.root.place tree.home ++ n.source := n.place_source _ _
  refine ⟨pathSlug_sourcePath hroot n, hplace ▸ Path.lastChar?_source _ n, ?_, .inl hn⟩
  obtain ⟨bytes, modified, hsource⟩ := hn
  exact ⟨bytes, modified, BuildRules.read_of_hasSource hproper hroot hsource⟩

/-- There are no files below what is neither a file nor a directory. -/
theorem FileTree.sources_of_none (hproper : tree.IsProper) {p : Path} (hfile : tree.isFile p = false)
    (hdirectory : tree.isDirectory p = false) : tree.sources p = [] := by
  rw [sources, hfile, if_neg (by simp), filesBelow]
  split
  · rfl
  · next place hlocate =>
    have hfind : tree.find? p = tree.entry? place := by rw [find?, hlocate]
    have hnone : tree.namesBelow place = [] := by
      refine List.eq_nil_iff_forall_not_mem.2 fun names hnames => ?_
      obtain ⟨bytes, modified, hentry⟩ := (mem_namesBelow_iff hproper).1 hnames
      rcases List.eq_nil_or_concat' names with rfl | ⟨dirs, last, rfl⟩
      · rw [List.append_nil] at hentry
        simp [isFile, hfind, hentry] at hfile
      · have habove := hproper.directory_of_prefix ⟨bytes, modified, hentry⟩ (List.nil_prefix (l := dirs))
        rw [List.append_nil] at habove
        simp [isDirectory, hfind, habove] at hdirectory
    rw [hnone]
    rfl

/-- The sources that a build finds, each with its page. The pages are different. -/
theorem exists_sources (hproper : tree.IsProper) (rules : BuildRules) : ∃ es : List (Path × PageName),
    tree.sources rules.root = es.map Prod.fst ∧ (∀ e ∈ es, IsSourceOf rules tree e.1 e.2) ∧
      (es.map Prod.snd).Nodup := by
  cases hfile : tree.isFile rules.root with
  | true =>
    cases hsource : rules.root.isSource with
    | true =>
      refine ⟨[(rules.root, .ofRoot)], ?_, ?_, List.nodup_singleton _⟩
      · rw [FileTree.sources, hfile, hsource]
        rfl
      · rintro e he
        obtain rfl := List.mem_singleton.1 he
        exact isSourceOf_root hfile hsource
    | false =>
      refine ⟨[], ?_, by simp, .nil⟩
      rw [FileTree.sources, hfile, hsource]
      rfl
  | false =>
    cases hdirectory : tree.isDirectory rules.root with
    | true =>
      obtain ⟨ns, hns, hpages⟩ := exists_pages hproper hdirectory
      have hmap : (ns.map fun n => (rules.sourcePath n, n)).map Prod.fst = ns.map rules.sourcePath := by
        rw [List.map_map]
        rfl
      refine ⟨ns.map fun n => (rules.sourcePath n, n), hns.trans hmap.symm, ?_, ?_⟩
      · intro e he
        obtain ⟨n, hn, rfl⟩ := List.mem_map.1 he
        exact isSourceOf_page hproper hdirectory ((hpages n).1 hn)
      · rw [List.map_map, show Prod.snd ∘ (fun n => (rules.sourcePath n, n)) = id from rfl, List.map_id]
        exact List.Nodup.of_map _ (hns ▸ FileTree.nodup_sources hproper rules.root)
    | false => exact ⟨[], FileTree.sources_of_none hproper hfile hdirectory, by simp, .nil⟩

/-! ## Modules -/

/-- The module of a page has the text that its source makes. -/
def HasModule (rules : BuildRules) (tree : FileTree) (p : Path) (n : PageName) : Prop :=
  ∃ bytes modified text time, tree.read p = .ok (bytes, modified) ∧ Makes rules.compiling tree.process n.slug bytes modified text ∧
    tree.read (rules.modulePath n) = .ok (Text.encodeUtf8 text.toList, time)

/-- What a build says of a source. -/
def BuildRules.pageOf (rules : BuildRules) (e : Path × PageName) : BuiltPage :=
  ⟨e.1, rules.modulePath e.2, keyFor rules.keyStart e.2.slug, e.2.slug⟩

variable {tree' : FileTree} {touched : Place → Prop} {p : Path} {n : PageName}

theorem IsSourceOf.alters (h : IsSourceOf rules tree p n) (halters : FileTree.Alters touched tree tree')
    (hspared : ∀ q, touched q → Path.lastChar? q ≠ some 'd') : IsSourceOf rules tree' p n := by
  refine ⟨halters.home ▸ h.slug, halters.home ▸ h.ending, ?_, h.page.imp_left fun hpage => ?_⟩
  · obtain ⟨bytes, modified, hread⟩ := h.readable
    exact ⟨bytes, modified, halters.read (fun htouched => hspared _ htouched h.ending) hread⟩
  · exact (halters.isPage_iff fun htouched => hspared _ htouched (Path.lastChar?_source _ n)).2 hpage

theorem HasModule.alters (h : HasModule rules tree p n) (halters : FileTree.Alters touched tree tree')
    (hsource : ¬ touched (p.place tree.home)) (hmodule : ¬ touched (rules.out.place tree.home ++ n.module)) :
    HasModule rules tree' p n := by
  obtain ⟨bytes, modified, text, time, hread, hmakes, hthere⟩ := h
  refine ⟨bytes, modified, text, time, halters.read hsource hread, halters.process ▸ hmakes, halters.read (fun htouched => ?_) hthere⟩
  exact hmodule (n.place_module tree.home rules.out ▸ htouched)

theorem BuildRules.Touches.ne_source {home q : Place} (h : rules.Touches home n q) : Path.lastChar? q ≠ some 'd' := by
  rcases h.lastChar? with heq | heq <;> simp [heq]

/-- A source that is built has its module, and nothing is touched but the module and its draft. -/
theorem buildOne_hasModule (hproper : tree.IsProper) (hout : rules.out.IsSpelled) (hsource : IsSourceOf rules tree p n)
    {page : BuiltPage} (h : buildOne rules p tree = .ok page tree') :
    page = rules.pageOf (p, n) ∧ FileTree.Alters (rules.Touches tree.home n) tree tree' ∧ HasModule rules tree' p n := by
  obtain ⟨rfl, bytes, modified, text, hread, hmakes, halters, ⟨time, hthere⟩, -, -⟩ :=
    buildOne_ok hproper hout hsource.slug h
  have halters : FileTree.Alters (rules.Touches tree.home n) tree tree' := halters
  exact ⟨rfl, halters, bytes, modified, text, time,
    halters.read (fun htouched => htouched.ne_source hsource.ending) hread, halters.process ▸ hmakes, hthere⟩

/-- Sources that are built one after the other all have their modules then. -/
theorem buildEach_hasModule (hout : rules.out.IsSpelled) {es : List (Path × PageName)} {tree : FileTree}
    (hproper : tree.IsProper) (hes : ∀ e ∈ es, IsSourceOf rules tree e.1 e.2) (hnodup : (es.map Prod.snd).Nodup)
    {done : BuildProgress} (h : buildEach rules (es.map Prod.fst) tree = .ok done tree') (hfailed : done.failed = []) :
    done.built = es.map rules.pageOf ∧ FileTree.Alters (fun q => ∃ e ∈ es, rules.Touches tree.home e.2 q) tree tree' ∧
      ∀ e ∈ es, HasModule rules tree' e.1 e.2 := by
  induction es generalizing tree done with
  | nil =>
    obtain ⟨rfl, rfl⟩ := Building.pure_eq_ok_iff.1 h
    exact ⟨rfl, .refl hproper, by simp⟩
  | cons e es ih =>
    obtain ⟨hfirst, hes⟩ := List.forall_mem_cons.1 hes
    obtain ⟨hnew, hnodup⟩ := List.nodup_cons.1 hnodup
    rw [List.map_cons, buildEach] at h
    dsimp only at h
    split at h
    · next page mid hone =>
      obtain ⟨rest, last, hrest, h⟩ := Building.bind_eq_ok_iff.1 h
      obtain ⟨rfl, rfl⟩ := Building.pure_eq_ok_iff.1 h
      obtain ⟨rfl, halters, hmodule⟩ := buildOne_hasModule hproper hout hfirst hone
      have hmid : ∀ e ∈ es, IsSourceOf rules mid e.1 e.2 := fun e he =>
        (hes e he).alters halters fun q htouched => htouched.ne_source
      obtain ⟨hbuilt, halters', hmodules⟩ := ih halters.proper hmid hnodup hrest hfailed
      have hhome := halters.home
      refine ⟨by rw [List.map_cons, ← hbuilt], ?_, List.forall_mem_cons.2 ⟨?_, hmodules⟩⟩
      · refine (halters.mono fun q hq => ⟨e, List.mem_cons_self, hq⟩).trans (halters'.mono ?_)
        rintro q ⟨e', he', hq⟩
        exact ⟨e', List.mem_cons_of_mem _ he', hhome ▸ hq⟩
      · -- the sources behind it are of other pages
        refine hmodule.alters halters' ?_ ?_
        · rintro ⟨e', -, htouched⟩
          exact htouched.ne_source (hhome ▸ hfirst.ending)
        · rintro ⟨e', he', htouched⟩
          refine BuildRules.not_touches_module (fun heq => hnew ?_) htouched
          exact List.mem_map.2 ⟨e', he', heq.symm⟩
    · obtain ⟨rest, last, -, h⟩ := Building.bind_eq_ok_iff.1 h
      obtain ⟨rfl, -⟩ := Building.pure_eq_ok_iff.1 h
      cases hfailed
    · cases h

theorem isListing_entries {ns : List PageName} (hnodup : ns.Nodup) : Manifest.IsListing (ns.map rules.entry) := by
  refine ⟨?_, fun e he => ?_⟩
  · rw [List.map_map]
    exact hnodup.map fun _ _ => BuildRules.entry_inj
  · obtain ⟨n, -, rfl⟩ := List.mem_map.1 he
    exact ⟨_, rfl⟩

/-- The pages of a build are listed as they were built. -/
theorem modulesOf_pageOf {es : List (Path × PageName)} (hnodup : (es.map Prod.snd).Nodup) :
    modulesOf (es.map rules.pageOf) = (es.map Prod.snd).map rules.entry := by
  rw [modulesOf_eq_membersOf, List.map_map, ← Json.membersOf_of_nodup (isListing_entries hnodup).distinct, List.map_map]
  rfl

/-- The last character of a place whose file a build may touch. -/
def IsTouched (q : Place) : Prop :=
  Path.lastChar? q = some 'y' ∨ Path.lastChar? q = some 'p' ∨ Path.lastChar? q = some 'n'

theorem IsTouched.ne_source {q : Place} (h : IsTouched q) : Path.lastChar? q ≠ some 'd' := by
  rcases h with h | h | h <;> simp [h]

/-- **After a build, whatever its root is, each source has the module that it makes, and the manifest lists these
    modules.** -/
theorem modules_of_build (hproper : tree.IsProper) (hout : rules.out.IsSpelled) {built : List BuiltPage}
    (h : build rules tree = .ok built tree') :
    FileTree.Alters IsTouched tree tree' ∧ ∃ es : List (Path × PageName), built = es.map rules.pageOf ∧
      (es.map Prod.snd).Nodup ∧ (∀ e ∈ es, IsSourceOf rules tree' e.1 e.2 ∧ HasModule rules tree' e.1 e.2) ∧
      Ledger rules tree' ((es.map Prod.snd).map rules.entry) ∧
      Manifest.read tree' rules.out
        = .ok (Json.toEntries (((es.map Prod.snd).map rules.entry).mergeSort Manifest.keyLe)) := by
  obtain ⟨made, done, each, hmade, heach, hfailed, rfl, hmanifest⟩ := build_ok h
  obtain ⟨hmade, -⟩ := FileTree.makeDirectories_ok hproper hout hmade
  obtain ⟨es, hes, hsources, hnodup⟩ := exists_sources hmade.proper rules
  rw [hes] at heach
  obtain ⟨hbuilt, heach, hmodules⟩ := buildEach_hasModule hout hmade.proper hsources hnodup heach hfailed
  rw [hbuilt, modulesOf_pageOf hnodup] at hmanifest
  obtain ⟨hwrote, time, hmanifest⟩ := Manifest.write_ok heach.proper hout hmanifest
  -- what is touched after the sources were found
  have hafter : FileTree.Alters IsTouched made tree' := by
    refine (heach.mono ?_).trans (hwrote.mono ?_)
    · rintro q ⟨e, -, htouched⟩
      exact htouched.lastChar?.imp_right .inl
    · rintro q rfl
      exact .inr (.inr (Path.lastChar?_manifest _))
  have hlisting : Manifest.IsListing ((es.map Prod.snd).map rules.entry) := isListing_entries hnodup
  refine ⟨(hmade.mono fun _ => False.elim).trans hafter, es, hbuilt, hnodup, fun e he => ⟨?_, ?_⟩,
    ⟨hlisting, ?_, .inl ⟨time, hmanifest⟩⟩, Manifest.read_of_toText hlisting hmanifest⟩
  · exact (hsources e he).alters hafter fun q htouched => htouched.ne_source
  · refine (hmodules e he).alters hwrote (fun heq => ?_) (module_ne_manifest _ _)
    have hending := (hsources e he).ending
    rw [← heach.home, heq, Path.lastChar?_manifest] at hending
    cases hending
  · intro e he
    obtain ⟨n, -, rfl⟩ := List.mem_map.1 he
    exact ⟨n, rfl⟩

/-- A page that was built is an artifact: its source compiles to it, and its module gives it in every process. -/
structure IsArtifactOf (rules : BuildRules) (tree : FileTree) (page : BuiltPage) (a : Artifact) : Prop where
  slug : a.slug = page.slug
  key : page.key = keyFor rules.keyStart page.slug
  source : compileFile rules.compiling tree page.source (some rules.root) = .ok a
  module (process : Process) : importArtifact (tree.inProcess process) page.module = .ok a

theorem HasModule.exists_artifact (h : HasModule rules tree p n) (hsource : IsSourceOf rules tree p n)
    (hfits : PageModule.FitsLine n.slug) : ∃ a, IsArtifactOf rules tree (rules.pageOf (p, n)) a := by
  obtain ⟨bytes, modified, text, time, hread, hmakes, hthere⟩ := h
  obtain ⟨a, hcompiles, -, -, himports⟩ := hmakes.decodes hfits
  refine ⟨a, hcompiles.slug_eq, rfl, ?_, fun process => ?_⟩
  · exact compileFile_eq_ok_iff.2 ⟨bytes, modified, hread, hsource.slug.symm ▸ hcompiles⟩
  · refine himports (tree.inProcess process) _ time ?_
    rw [FileTree.read_inProcess]
    exact hthere

end

end Folio

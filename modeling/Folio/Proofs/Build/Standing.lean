import Folio.Proofs.Build.Incremental
import Folio.Proofs.Build.Outcomes

set_option autoImplicit false

/-! # What a manifest lists is there

Whatever is edited and built, and wherever a build ends early, every module that the manifest lists is there
and whole (`Intact`). A module is written before it is listed, and it is replaced all at once; a module that is
dropped is gone only if the manifest can be written after it, so no error comes between the two. Directories
do not take the place of the manifest, unless a source is below one of its name. -/

namespace Folio

/-! ## Modules that stand -/

/-- The module of a page is there, and its text is one that a source with the slug of the page made. -/
def Stands (rules : BuildRules) (tree : FileTree) (n : PageName) : Prop :=
  ∃ compiling process bytes modified text time, Makes compiling process n.slug bytes modified text ∧
    tree.read (rules.modulePath n) = .ok (Text.encodeUtf8 text.toList, time)

/-- What the manifest lists are modules that stand. -/
structure Intact (rules : BuildRules) (tree : FileTree) : Prop where
  proper : tree.IsProper
  root : tree.isDirectory rules.root = true
  lists : ∀ bytes time,
    tree.entry? (rules.out.place tree.home ++ [Manifest.fileName]) = some (.file bytes time) →
    ∃ modules, Manifest.IsListing modules ∧ bytes = Text.encodeUtf8 (Manifest.toText modules) ∧
      ∀ e ∈ modules, ∃ n, e = rules.entry n ∧ Stands rules tree n

section

variable {rules : BuildRules} {tree tree' : FileTree}

theorem UpToDate.stands {n : PageName} (h : UpToDate rules tree n) : Stands rules tree n := by
  obtain ⟨bytes, modified, text, time, -, hmakes, hread⟩ := h.made
  exact ⟨rules.compiling, tree.process, bytes, modified, text, time, hmakes, hread⟩

theorem Stands.alters {touched : Place → Prop} {n : PageName} (h : Stands rules tree n)
    (halters : FileTree.Alters touched tree tree')
    (hspared : ¬ touched (rules.out.place tree.home ++ n.module)) : Stands rules tree' n := by
  obtain ⟨compiling, process, bytes, modified, text, time, hmakes, hread⟩ := h
  refine ⟨compiling, process, bytes, modified, text, time, hmakes, halters.read (fun htouched => ?_) hread⟩
  exact hspared (n.place_module tree.home rules.out ▸ htouched)

/-- A change that spares the manifest, and after which all modules stand that stood, leaves what is listed
    intact. -/
theorem Intact.alters {touched : Place → Prop} (h : Intact rules tree)
    (halters : FileTree.Alters touched tree tree')
    (hspared : ¬ touched (rules.out.place tree.home ++ [Manifest.fileName]))
    (hstands : ∀ n, Stands rules tree n → Stands rules tree' n) : Intact rules tree' := by
  refine ⟨halters.proper, FileTree.isDirectory_mono halters.directories h.root, fun bytes time hentry => ?_⟩
  rw [halters.home, halters.files _ _ _ hspared] at hentry
  obtain ⟨modules, hlisting, hbytes, hmodules⟩ := h.lists bytes time hentry
  refine ⟨modules, hlisting, hbytes, fun e he => ?_⟩
  obtain ⟨n, rfl, hn⟩ := hmodules e he
  exact ⟨n, rfl, hstands n hn⟩

/-- A manifest that is written with modules that stand is intact. -/
theorem intact_write (hproper : tree.IsProper) (hroot : tree.isDirectory rules.root = true)
    (hout : rules.out.IsSpelled) {modules : List (String × Json)} (hlisting : Manifest.IsListing modules)
    (hmodules : ∀ e ∈ modules, ∃ n, e = rules.entry n ∧ Stands rules tree n)
    (hwrite : Manifest.write tree rules.out modules = .ok tree') : Intact rules tree' := by
  obtain ⟨halters, time, hread⟩ := Manifest.write_ok hproper hout hwrite
  have hentry := (FileTree.read_eq_ok_iff.1 hread).2
  rw [Manifest.place_file] at hentry
  refine ⟨halters.proper, FileTree.isDirectory_mono halters.directories hroot, fun bytes time' hfile => ?_⟩
  obtain ⟨rfl, rfl⟩ := Entry.file.inj (Option.some.inj (hentry.symm.trans hfile))
  refine ⟨modules, hlisting, rfl, fun e he => ?_⟩
  obtain ⟨n, rfl, hn⟩ := hmodules e he
  exact ⟨n, rfl, hn.alters halters (module_ne_manifest _ _)⟩

/-- What is read from an intact manifest, or from none. -/
theorem Intact.read (h : Intact rules tree) {entries : List (Value × Value)}
    (hread : Manifest.read tree rules.out = .ok entries) :
    ∃ modules, Manifest.IsListing modules ∧ entries = Json.toEntries modules ∧
      ∀ e ∈ modules, tree.isDirectory rules.out = true ∧
        tree.IsFileAt (rules.out.place tree.home ++ [Manifest.fileName]) ∧
        ∃ n, e = rules.entry n ∧ Stands rules tree n := by
  have hread' := hread
  unfold Manifest.read at hread'
  split at hread'
  · obtain rfl := Except.ok.inj hread'
    exact ⟨[], ⟨List.nodup_nil, by simp⟩, rfl, by simp⟩
  · obtain ⟨⟨text, time⟩, htext, -⟩ := Except.bind_eq_ok_iff.1 hread'
    obtain ⟨bytes, cs, hfile, -, -⟩ := readText_eq_ok_iff.1 (Except.mapError_eq_ok_iff.1 htext)
    obtain ⟨hlocate, hentry⟩ := FileTree.read_eq_ok_iff.1 hfile
    rw [Manifest.place_file] at hentry
    obtain ⟨modules, hlisting, rfl, hmodules⟩ := h.lists bytes time hentry
    obtain rfl := Except.ok.inj (hread.symm.trans (Manifest.read_of_toText hlisting hfile))
    refine ⟨_, hlisting.mergeSort, rfl, fun e he => ?_⟩
    exact ⟨FileTree.isDirectory_of_locate hlocate, ⟨_, time, hentry⟩,
      hmodules e (List.mem_mergeSort.1 he)⟩

/-! ## Ways to the manifest -/

/-- Nothing leads a directory to the place of the manifest: it is not on the way to the output directory, and
    no page is below a directory with its name. -/
structure Unblocked (rules : BuildRules) (tree : FileTree) : Prop where
  free : tree.entry? (rules.out.place tree.home ++ [Manifest.fileName]) ≠ some .directory
  way : ¬ rules.out.Passes tree.home (rules.out.place tree.home ++ [Manifest.fileName])
  pages : ∀ n, tree.IsPage rules.root n → ¬ [Manifest.fileName] <+: n.dirs

/-- The manifest is not on the way to the module of a page. -/
theorem Unblocked.not_passes_module (h : Unblocked rules tree) {n : PageName}
    (hn : tree.IsPage rules.root n) : ¬ (rules.modulePath n).Passes tree.home
      (rules.out.place tree.home ++ [Manifest.fileName]) := by
  intro hpasses
  rcases Path.passes_join n.isName_of_mem_module hpasses with hway | ⟨k, hk⟩
  · exact h.way hway
  · have hprefix : [Manifest.fileName] <+: n.dirs ++ [n.stem ++ ".py"] :=
      List.append_cancel_left hk ▸ List.take_prefix k n.module
    rcases List.prefix_concat_iff.1 hprefix with heq | hprefix
    · exact module_ne_manifest [] [] heq.symm
    · exact h.pages n hn hprefix

/-- Work on an intact tree has left another. -/
structure Keeps (rules : BuildRules) (tree tree' : FileTree) : Prop where
  intact : Intact rules tree'
  home : tree'.home = tree.home
  unblocked : Unblocked rules tree → Unblocked rules tree'

theorem Keeps.refl (h : Intact rules tree) : Keeps rules tree tree :=
  ⟨h, rfl, id⟩

theorem Keeps.trans {tree'' : FileTree} (h : Keeps rules tree tree') (h' : Keeps rules tree' tree'') :
    Keeps rules tree tree'' :=
  ⟨h'.intact, h'.home.trans h.home, fun hunblocked => h'.unblocked (h.unblocked hunblocked)⟩

theorem Unblocked.alters {touched opened : Place → Prop} (h : Unblocked rules tree)
    (halters : FileTree.Alters touched tree tree') (hopens : FileTree.Opens opened tree tree')
    (hsources : ∀ n : PageName, ¬ touched (rules.root.place tree.home ++ n.source))
    (hopened : ¬ opened (rules.out.place tree.home ++ [Manifest.fileName])) : Unblocked rules tree' := by
  refine ⟨fun hdirectory => ?_, ?_, fun n hn => h.pages n ((halters.isPage_iff (hsources n)).1 hn)⟩
  · rw [halters.home] at hdirectory
    exact (hopens _ hdirectory).elim h.free hopened
  · rw [halters.home]
    exact h.way

/-- A change that spares sources and the manifest, and after which all modules stand that stood. -/
theorem Intact.keeps {touched opened : Place → Prop} (h : Intact rules tree)
    (halters : FileTree.Alters touched tree tree') (hopens : FileTree.Opens opened tree tree')
    (hsources : ∀ n : PageName, ¬ touched (rules.root.place tree.home ++ n.source))
    (hmanifest : ¬ touched (rules.out.place tree.home ++ [Manifest.fileName]))
    (hstands : ∀ n, Stands rules tree n → Stands rules tree' n)
    (hopened : Unblocked rules tree → ¬ opened (rules.out.place tree.home ++ [Manifest.fileName])) :
    Keeps rules tree tree' :=
  ⟨h.alters halters hmanifest hstands, halters.home,
    fun hunblocked => hunblocked.alters halters hopens hsources (hopened hunblocked)⟩

/-- A manifest that is written with modules that stand. -/
theorem keeps_write (hproper : tree.IsProper) (hroot : tree.isDirectory rules.root = true)
    (hout : rules.out.IsSpelled) {modules : List (String × Json)} (hlisting : Manifest.IsListing modules)
    (hmodules : ∀ e ∈ modules, ∃ n, e = rules.entry n ∧ Stands rules tree n)
    (hwrite : Manifest.write tree rules.out modules = .ok tree') : Keeps rules tree tree' := by
  obtain ⟨halters, -⟩ := Manifest.write_ok hproper hout hwrite
  have hopens : FileTree.Opens (rules.out.Passes tree.home) tree tree' := by
    obtain ⟨made, hmade, hfile⟩ := Except.bind_eq_ok_iff.1 hwrite
    rw [Manifest.parent_file] at hmade
    exact (FileTree.opens_makeDirectories hmade).trans (FileTree.opens_write hfile)
  exact ⟨intact_write hproper hroot hout hlisting hmodules hwrite, halters.home,
    fun hunblocked => hunblocked.alters halters hopens (fun n => source_ne_manifest _ _) hunblocked.way⟩

/-! ## Building -/

/-- To build a page, or not to, leaves what is listed intact. -/
theorem keeps_buildOne (h : Intact rules tree) (hout : rules.out.IsSpelled) {p : Path} {n : PageName}
    (hslug : pathSlug tree.home p (some rules.root) = n.slug)
    (hp : p.place tree.home = rules.root.place tree.home ++ n.source) :
    (buildOne rules p).Leaves tree (Keeps rules tree) := by
  cases htext : moduleText rules tree p with
  | error cause =>
    unfold Building.Leaves Building.result
    rw [buildOne_of_moduleText_error htext]
    exact .refl h
  | ok text =>
    have hpage : tree.IsPage rules.root n := by
      obtain ⟨bytes, modified, hread, -⟩ := moduleText_eq_ok_iff.1 htext
      have hentry := (FileTree.read_eq_ok_iff.1 hread).2
      rw [hp] at hentry
      exact ⟨bytes, modified, hentry⟩
    have hway : Unblocked rules tree → ¬ (rules.modulePath n).Passes tree.home
        (rules.out.place tree.home ++ [Manifest.fileName]) := fun hunblocked =>
      hunblocked.not_passes_module hpage
    refine Building.leaves_iff.2 ⟨fun page tree' hone => ?_, fun e tree' hone => ?_⟩
    · obtain ⟨-, halters, hn, -⟩ := buildOne_upToDate h.proper hout hslug hp hone
      refine h.keeps halters (opens_buildOne hslug (.inl ⟨page, hone⟩))
        (fun m => BuildRules.not_touches_source _) (BuildRules.not_touches_manifest _) (fun m hm => ?_) hway
      by_cases hmn : m = n
      · exact hmn ▸ hn.stands
      · exact hm.alters halters (BuildRules.not_touches_module hmn)
    · have halters := (alters_buildOne_error h.proper hout hslug hone).mono fun q hq =>
        (.inr hq : rules.Touches tree.home n q)
      refine h.keeps halters (opens_buildOne hslug (.inr ⟨e, hone⟩))
        (fun m => BuildRules.not_touches_source _) (BuildRules.not_touches_manifest _) (fun m hm => ?_) hway
      exact hm.alters (alters_buildOne_error h.proper hout hslug hone) (module_ne_draft _ _ n)

theorem keeps_buildEach (h : Intact rules tree) (hout : rules.out.IsSpelled) (ns : List PageName) :
    (buildEach rules (ns.map rules.sourcePath)).Leaves tree (Keeps rules tree) := by
  induction ns generalizing tree with
  | nil => exact Building.leaves_pure (.refl h)
  | cons n ns ih =>
    obtain ⟨hbuilt, hfails⟩ := Building.leaves_iff.1
      (keeps_buildOne h hout (pathSlug_sourcePath h.root n) (n.place_source _ _))
    refine leaves_buildEach_cons (fun mid hone => ?_) hfails
    have hmid : Keeps rules tree mid := by
      rcases hone with ⟨page, hone⟩ | ⟨e, hone⟩
      · exact hbuilt page mid hone
      · exact hfails _ mid hone
    exact (ih hmid.intact).mono fun tree' htree' => hmid.trans htree'

/-- A build leaves what is listed intact, with whatever it ends. -/
theorem keeps_build (h : Intact rules tree) (hout : rules.out.IsSpelled) :
    (build rules).Leaves tree (Keeps rules tree) := by
  unfold build
  refine Building.leaves_bind (fun e mid hmade => (Building.change_eq_error_iff.1 hmade).2 ▸ .refl h)
    fun _ made hmade => ?_
  have hmade := Building.change_eq_ok_iff.1 hmade
  obtain ⟨halters, -⟩ := FileTree.makeDirectories_ok h.proper hout hmade
  have hkeeps : Keeps rules tree made :=
    h.keeps halters (FileTree.opens_makeDirectories hmade) (fun n => not_false) not_false
      (fun n hn => hn.alters halters not_false) Unblocked.way
  have hintact := hkeeps.intact
  refine Building.leaves_inspect_bind hkeeps fun sources hsources => ?_
  obtain rfl := Except.ok.inj hsources
  obtain ⟨ns, hns, hpages⟩ := @exists_pages rules _ hintact.proper hintact.root
  rw [hns]
  obtain ⟨hdone, hfails⟩ := Building.leaves_iff.1 (keeps_buildEach hintact hout ns)
  refine Building.leaves_bind (fun e mid hmid => hkeeps.trans (hfails e mid hmid)) fun done each heach => ?_
  have hkeepsEach := hkeeps.trans (hdone done each heach)
  obtain ⟨hbuilt, -, hupToDate, -⟩ :=
    buildEach_ok hout hintact.proper hintact.root (fun n hn => (hpages n).1 hn) heach
  rw [hbuilt]
  refine Building.leaves_bind (fun e mid hwrite => (Building.change_eq_error_iff.1 hwrite).2 ▸ hkeepsEach)
    fun _ last hwrite => ?_
  have hlast : Keeps rules each last := by
    refine keeps_write hkeepsEach.intact.proper hkeepsEach.intact.root hout (isListing_modulesOf _)
      (fun e he => ?_) (Building.change_eq_ok_iff.1 hwrite)
    obtain ⟨n, hn, rfl⟩ := mem_modulesOf_iff.1 he
    obtain ⟨hmem, hyields⟩ := List.mem_filter.1 hn
    exact ⟨n, rfl, (hupToDate n hmem hyields).stands⟩
  split
  · exact hkeepsEach.trans hlast
  · exact hkeepsEach.trans hlast

theorem removeIfThere_ok {p : Path} (hproper : tree.IsProper) (h : removeIfThere tree p = .ok tree') :
    FileTree.Alters (· = p.place tree.home) tree tree' ∧
      FileTree.Opens (fun _ => False) tree tree' := by
  unfold removeIfThere at h
  split at h
  · split at h
    · obtain rfl := Except.ok.inj h
      exact ⟨.refl hproper, .refl _⟩
    · simp at h
  · next hremove =>
    obtain rfl := Except.ok.inj h
    exact ⟨(FileTree.remove_ok hproper hremove).1, FileTree.opens_remove hremove⟩

/-- Dropping a source leaves what is listed intact: once its module is gone, nothing keeps the manifest from
    being written. -/
theorem keeps_dropSource (h : Intact rules tree) (hout : rules.out.IsSpelled) {p : Path} {n : PageName}
    (hslug : pathSlug tree.home p (some rules.root) = n.slug) {modules : List (String × Json)}
    (hlisting : Manifest.IsListing modules)
    (hmodules : ∀ e ∈ modules, tree.isDirectory rules.out = true ∧
      tree.IsFileAt (rules.out.place tree.home ++ [Manifest.fileName]) ∧
      ∃ n, e = rules.entry n ∧ Stands rules tree n) :
    (dropSource rules (Json.toEntries modules) p).Leaves tree (Keeps rules tree) := by
  unfold dropSource
  refine Building.leaves_inspect_bind (.refl h) fun slug hsame => ?_
  obtain rfl := (Except.ok.inj hsame).symm.trans hslug
  dsimp only
  rw [Json.field?_toEntries]
  cases hlookup : modules.lookup (keyFor rules.keyStart n.slug) with
  | none => exact Building.leaves_pure (.refl h)
  | some value =>
    have hlisted := (lookup_eq_some_iff_mem hlisting.distinct).1 hlookup
    obtain ⟨hdirectory, hfile, m, heq, -⟩ := hmodules _ hlisted
    obtain ⟨hkey, hvalue⟩ := Prod.mk.inj heq
    obtain rfl : n = m := PageName.slug_inj (keyFor_inj hkey)
    subst hvalue
    refine Building.leaves_inspect_bind (.refl h) fun module hmodule => ?_
    obtain rfl := Except.ok.inj ((listedModule_modulePlace rules n).symm.trans hmodule)
    refine Building.leaves_bind (fun e mid hremove => (Building.change_eq_error_iff.1 hremove).2 ▸ .refl h)
      fun _ mid hremove => ?_
    obtain ⟨halters, hopens⟩ := removeIfThere_ok h.proper (Building.change_eq_ok_iff.1 hremove)
    rw [BuildRules.modulePath, n.place_module] at halters
    have hstands : ∀ m, m ≠ n → Stands rules tree m → Stands rules mid m := fun m hmn hm =>
      hm.alters halters fun heq => hmn (PageName.module_inj (List.append_cancel_left heq))
    have hkept : mid.IsFileAt (rules.out.place mid.home ++ [Manifest.fileName]) := by
      rw [halters.home, halters.isFileAt_iff (module_ne_manifest _ _).symm]
      exact hfile
    have hrest := hlisting.filter fun e => e.1 != keyFor rules.keyStart n.slug
    rw [Manifest.erase_toEntries, Manifest.entriesOf_toEntries hrest.texts]
    refine Building.leaves_iff.2 ⟨fun _ last hwrite => ?_, fun e last hwrite => ?_⟩
    · have hlast : Keeps rules mid last := by
        refine keeps_write halters.proper (FileTree.isDirectory_mono halters.directories h.root) hout hrest
          (fun e he => ?_) (Building.change_eq_ok_iff.1 hwrite)
        obtain ⟨hmem, hkey⟩ := List.mem_filter.1 he
        obtain ⟨-, -, m, rfl, hm⟩ := hmodules e hmem
        have hmn : m ≠ n := fun heq => bne_iff_ne.1 hkey (congrArg (fun k => (rules.entry k).1) heq)
        exact ⟨m, rfl, hstands m hmn hm⟩
      exact ⟨hlast.intact, hlast.home.trans halters.home, fun hunblocked => hlast.unblocked
        (hunblocked.alters halters hopens (fun m => source_ne_module _ _ n) not_false)⟩
    · -- the manifest is a file in a directory
      obtain ⟨⟨cause, hwrite, -⟩, -⟩ := Building.change_eq_error_iff.1 hwrite
      obtain ⟨tree', hsucceeds⟩ := write_manifest_succeeds halters.proper
        (FileTree.isDirectory_mono halters.directories hdirectory) hkept.ne_directory
        (modules.filter fun e => e.1 != keyFor rules.keyStart n.slug)
      rw [hsucceeds] at hwrite
      simp at hwrite

/-- Building one source anew leaves what is listed intact, with whatever it ends. -/
theorem keeps_buildFile (h : Intact rules tree) (hout : rules.out.IsSpelled) {p : Path} {n : PageName}
    (hslug : pathSlug tree.home p (some rules.root) = n.slug)
    (hp : p.place tree.home = rules.root.place tree.home ++ n.source) :
    (buildFile rules p).Leaves tree (Keeps rules tree) := by
  unfold buildFile
  refine Building.leaves_inspect_bind (.refl h) fun entries hentries => ?_
  obtain ⟨modules, hlisting, rfl, hmodules⟩ := h.read (Except.mapError_eq_ok_iff.1 hentries)
  refine Building.leaves_inspect_bind (.refl h) fun isThere hthere => ?_
  cases isThere with
  | false => exact Building.leaves_map _ (keeps_dropSource h hout hslug hlisting hmodules)
  | true =>
    obtain ⟨hbuilt, hfails⟩ := Building.leaves_iff.1 (keeps_buildOne h hout hslug hp)
    refine Building.leaves_bind hfails fun page mid hone => ?_
    have hmid := hbuilt page mid hone
    obtain ⟨rfl, halters, hn, -⟩ := buildOne_upToDate h.proper hout hslug hp hone
    have hput := hlisting.put (rules.entry n).1 (modulePlace n.slug)
    refine Building.leaves_bind (fun e last hwrite => (Building.change_eq_error_iff.1 hwrite).2 ▸ hmid)
      fun _ last hwrite => Building.leaves_pure (hmid.trans ?_)
    have hwrite : Manifest.write mid rules.out (Manifest.entriesOf (Manifest.put (rules.entry n).1
        (modulePlace n.slug) (Json.toEntries modules))) = .ok last := Building.change_eq_ok_iff.1 hwrite
    rw [Manifest.put_toEntries, Manifest.entriesOf_toEntries hput.texts] at hwrite
    refine keeps_write hmid.intact.proper hmid.intact.root hout hput (fun e he => ?_) hwrite
    rcases (Json.mem_put_iff hlisting.distinct).1 he with rfl | ⟨hmem, -⟩
    · exact ⟨n, rfl, hn.stands⟩
    · obtain ⟨-, -, m, rfl, hm⟩ := hmodules e hmem
      refine ⟨m, rfl, ?_⟩
      by_cases hmn : m = n
      · exact hmn ▸ hn.stands
      · exact hm.alters halters (BuildRules.not_touches_module hmn)

end

/-! ## Acts -/

/-- What is done to a site: a source is edited, all sources are built, or one is built anew, with any rules
    for compiling. -/
inductive Act where
  | edit (e : Edit)
  | build (compiling : CompileRules)
  | buildFile (p : Path) (compiling : CompileRules)

namespace Act

/-- The work of an act. -/
def work (rules : BuildRules) : Act → Building Unit
  | edit e => Building.change e.apply
  | build compiling => do
    let _ ← Folio.build { rules with compiling := compiling }
    return
  | buildFile p compiling => do
    let _ ← Folio.buildFile { rules with compiling := compiling } p
    return

/-- The files after an act, whether it succeeds or ends early. -/
def after (rules : BuildRules) (tree : FileTree) (act : Act) : FileTree :=
  ((act.work rules).result tree).2

/-- The sources that an act names are below the root. -/
def IsOfSource (rules : BuildRules) (home : Place) : Act → Prop
  | edit e => e.IsOfSource rules home
  | build _ => True
  | buildFile p _ => p.hasNul = false ∧ ∃ n : PageName, p.place home = rules.root.place home ++ n.source

/-- No source is put below a directory that has the name of the manifest, and none in a directory in its
    place. -/
def IsUnblocked (rules : BuildRules) (home : Place) : Act → Prop
  | edit e => ¬ e.path.Passes home (rules.out.place home ++ [Manifest.fileName]) ∧
    ∀ n : PageName, e.path.place home = rules.root.place home ++ n.source →
      ¬ [Manifest.fileName] <+: n.dirs
  | _ => True

end Act

section

variable {rules : BuildRules} {tree : FileTree}

theorem Edit.opens {e : Edit} {tree' : FileTree} (h : e.apply tree = .ok tree') :
    FileTree.Opens (e.path.Passes tree.home) tree tree' := by
  cases e with
  | write p bytes modified =>
    obtain ⟨made, hmade, hwrite⟩ := Except.bind_eq_ok_iff.1 h
    exact ((FileTree.opens_makeDirectories hmade).mono fun q hq => hq.of_parent).trans
      (FileTree.opens_write hwrite)
  | delete p => exact FileTree.opens_remove h

/-- An edit of a source leaves what is listed intact. -/
theorem Intact.edit (h : Intact rules tree) {e : Edit} (he : e.IsOfSource rules tree.home) :
    (Building.change e.apply).Leaves tree fun tree' => Intact rules tree' ∧ tree'.home = tree.home ∧
      (Unblocked rules tree → (Act.edit e).IsUnblocked rules tree.home → Unblocked rules tree') := by
  refine Building.leaves_change ⟨h, rfl, fun hunblocked _ => hunblocked⟩ fun tree' happly => ?_
  obtain ⟨hspelled, n, hplace⟩ := he
  obtain ⟨halters, -, -⟩ := Edit.apply_ok h.proper hspelled happly
  have hintact : Intact rules tree' := by
    refine h.alters halters (fun heq => ?_) fun m hm => hm.alters halters fun heq => ?_
    · exact source_ne_manifest _ _ (hplace.symm.trans heq.symm)
    · exact source_ne_module _ _ m (hplace.symm.trans heq.symm)
  refine ⟨hintact, halters.home, fun hunblocked hfree => ⟨fun hdirectory => ?_, ?_, fun m hm => ?_⟩⟩
  · rw [halters.home] at hdirectory
    exact (Edit.opens happly _ hdirectory).elim hunblocked.free hfree.1
  · rw [halters.home]
    exact hunblocked.way
  · by_cases hmn : m = n
    · exact hmn ▸ hfree.2 n hplace
    · refine hunblocked.pages m ((halters.isPage_iff fun heq => ?_).1 hm)
      exact source_ne_source hmn (heq.trans hplace)

/-- What a manifest lists has nothing to do with the rules for compiling. -/
theorem Keeps.of_compiling {compiling : CompileRules} {tree' : FileTree}
    (h : Keeps { rules with compiling := compiling } tree tree') : Keeps rules tree tree' := by
  refine ⟨⟨h.intact.proper, h.intact.root, h.intact.lists⟩, h.home, fun hunblocked => ?_⟩
  have hafter := h.unblocked ⟨hunblocked.free, hunblocked.way, hunblocked.pages⟩
  exact ⟨hafter.free, hafter.way, hafter.pages⟩

/-- One act leaves what is listed intact. -/
theorem Intact.after (h : Intact rules tree) (hout : rules.out.IsSpelled) {act : Act}
    (hact : act.IsOfSource rules tree.home) :
    Intact rules (act.after rules tree) ∧ (act.after rules tree).home = tree.home ∧
      (Unblocked rules tree → act.IsUnblocked rules tree.home → Unblocked rules (act.after rules tree)) := by
  have hother : ∀ compiling, Intact { rules with compiling := compiling } tree := fun compiling =>
    ⟨h.proper, h.root, h.lists⟩
  cases act with
  | edit e => exact h.edit hact
  | build compiling =>
    have hkeeps : Keeps { rules with compiling := compiling } tree
        (Act.after rules tree (.build compiling)) :=
      Building.leaves_map (fun _ => ()) (keeps_build (hother compiling) hout)
    have hkeeps := hkeeps.of_compiling
    exact ⟨hkeeps.intact, hkeeps.home, fun hunblocked _ => hkeeps.unblocked hunblocked⟩
  | buildFile p compiling =>
    obtain ⟨hnul, n, hplace⟩ := hact
    have hroot := (FileTree.place_of_locate (FileTree.isDirectory_iff.1 h.root).1).2
    have hslug := n.pathSlug_eq hnul hroot hplace
    have hkeeps : Keeps { rules with compiling := compiling } tree
        (Act.after rules tree (.buildFile p compiling)) :=
      Building.leaves_map (fun _ => ()) (keeps_buildFile (hother compiling) hout hslug hplace)
    have hkeeps := hkeeps.of_compiling
    exact ⟨hkeeps.intact, hkeeps.home, fun hunblocked _ => hkeeps.unblocked hunblocked⟩

/-- Acts one after the other leave what is listed intact. -/
theorem Intact.run (h : Intact rules tree) (hout : rules.out.IsSpelled) {acts : List Act}
    (hacts : ∀ act ∈ acts, act.IsOfSource rules tree.home) :
    Intact rules (acts.foldl (Act.after rules) tree) ∧
      (Unblocked rules tree → (∀ act ∈ acts, act.IsUnblocked rules tree.home) →
        Unblocked rules (acts.foldl (Act.after rules) tree)) := by
  induction acts generalizing tree with
  | nil => exact ⟨h, fun hunblocked _ => hunblocked⟩
  | cons act rest ih =>
    obtain ⟨hafter, hhome, hunblocked⟩ := h.after hout (hacts act List.mem_cons_self)
    obtain ⟨hrun, hrunUnblocked⟩ :=
      ih hafter fun a ha => hhome ▸ hacts a (List.mem_cons_of_mem _ ha)
    refine ⟨hrun, fun hfirst hfree => hrunUnblocked ?_ fun a ha => ?_⟩
    · exact hunblocked hfirst (hfree act List.mem_cons_self)
    · exact hhome ▸ hfree a (List.mem_cons_of_mem _ ha)

/-- An output directory that is empty lists nothing. -/
theorem intact_of_empty (hproper : tree.IsProper) (hroot : tree.isDirectory rules.root = true)
    (hempty : tree.IsEmptyBelow rules.out) : Intact rules tree := by
  refine ⟨hproper, hroot, fun bytes time hentry => ?_⟩
  rw [hempty [Manifest.fileName] (by simp)] at hentry
  simp at hentry

/-- An intact manifest can be read, if no directory has its place. -/
theorem Intact.exists_read (h : Intact rules tree)
    (hfree : tree.entry? (rules.out.place tree.home ++ [Manifest.fileName]) ≠ some .directory) :
    ∃ listed, Manifest.read tree rules.out = .ok listed := by
  cases hexists : tree.doesExist (Manifest.file rules.out) with
  | false =>
    refine ⟨[], ?_⟩
    rw [Manifest.read, hexists]
    rfl
  | true =>
    rw [FileTree.doesExist, FileTree.find?] at hexists
    cases hlocate : tree.locate (Manifest.file rules.out) with
    | error fault => simp [hlocate] at hexists
    | ok q =>
      obtain ⟨hplace, -⟩ := FileTree.place_of_locate hlocate
      have hmanifest : q = rules.out.place tree.home ++ [Manifest.fileName] :=
        hplace.trans (Manifest.place_file _ _)
      simp only [hlocate, Option.isSome_iff_exists, hmanifest] at hexists
      obtain ⟨entry, hentry⟩ := hexists
      cases entry with
      | directory => exact absurd hentry hfree
      | file bytes time =>
        obtain ⟨modules, hlisting, rfl, -⟩ := h.lists bytes time hentry
        rw [← Manifest.place_file] at hentry
        have hread := FileTree.read_eq_ok_iff.2 ⟨hplace ▸ hlocate, hentry⟩
        exact ⟨_, Manifest.read_of_toText hlisting hread⟩

/-- From an empty output directory on, whatever sources are edited and built, in any order, with any rules for
    compiling, and wherever a build ends early: all that the manifest lists are places of modules, with the
    keys of their slugs, and each module is there with the whole text of an artifact that has its slug. The
    manifest can be read, unless a source is put below a directory with its name. -/
theorem manifest_never_dangles (hproper : tree.IsProper) (hroot : tree.isDirectory rules.root = true)
    (hout : rules.out.IsSpelled) (hempty : tree.IsEmptyBelow rules.out) {acts : List Act}
    (hacts : ∀ act ∈ acts, act.IsOfSource rules tree.home) :
    (∀ listed, Manifest.read (acts.foldl (Act.after rules) tree) rules.out = .ok listed →
      ∀ e ∈ listed, ∃ (artifact : Artifact) (text : String) (time : Int),
        e = (.string (keyFor rules.keyStart artifact.slug), .string (artifact.slug ++ ".py")) ∧
        PageModule.emit artifact (sourceLabel artifact.slug) = .ok text ∧
        (acts.foldl (Act.after rules) tree).read (rules.out.join (.ofText (artifact.slug ++ ".py")))
          = .ok (Text.encodeUtf8 text.toList, time)) ∧
    (¬ rules.out.Passes tree.home (rules.out.place tree.home ++ [Manifest.fileName]) →
      (∀ n, tree.IsPage rules.root n → ¬ [Manifest.fileName] <+: n.dirs) →
      (∀ act ∈ acts, act.IsUnblocked rules tree.home) →
      ∃ listed, Manifest.read (acts.foldl (Act.after rules) tree) rules.out = .ok listed) := by
  obtain ⟨hrun, hunblocked⟩ := (intact_of_empty hproper hroot hempty).run hout hacts
  refine ⟨fun listed hread e he => ?_, fun hway hpages hfree => ?_⟩
  · obtain ⟨modules, -, rfl, hmodules⟩ := hrun.read hread
    rw [Json.toEntries_eq_map, List.mem_map] at he
    obtain ⟨entry, hentry, rfl⟩ := he
    obtain ⟨-, -, n, rfl, compiling, process, bytes, modified, text, time, ⟨artifact, hcompiles, hemit⟩, hmodule⟩ :=
      hmodules entry hentry
    obtain hslug := hcompiles.slug_eq
    refine ⟨artifact, text, time, ?_, hslug ▸ hemit, ?_⟩
    · rw [hslug, ← modulePlace_slug]
      rfl
    · rw [hslug, n.ofText_moduleText]
      exact hmodule
  · have hfirst : Unblocked rules tree := by
      refine ⟨?_, hway, hpages⟩
      rw [hempty [Manifest.fileName] (by simp)]
      simp
    exact hrun.exists_read (hunblocked hfirst hfree).free

end

/-- A page is built, its source is overwritten with bytes that are no text, and the build after that ends
    early. -/
theorem smallSite_never_dangles :
    let acts := [Act.build {}, .edit (.write (.ofText "c/a.md") [0xff] 1), .build {}]
    let tree := acts.foldl (Act.after smallRules) smallSite
    smallSite.IsProper ∧ smallSite.isDirectory smallRules.root = true ∧ smallRules.out.IsSpelled ∧
    smallSite.IsEmptyBelow smallRules.out ∧ (∀ act ∈ acts, act.IsOfSource smallRules smallSite.home) ∧
    ((build smallRules).result tree).1.isOk = false ∧
    ∃ listed, Manifest.read tree smallRules.out = .ok listed ∧ listed.length = 1 ∧
      ∀ e ∈ listed, ∃ (artifact : Artifact) (text : String) (time : Int),
        e = (.string (keyFor smallRules.keyStart artifact.slug), .string (artifact.slug ++ ".py")) ∧
        PageModule.emit artifact (sourceLabel artifact.slug) = .ok text ∧
        tree.read (smallRules.out.join (.ofText (artifact.slug ++ ".py")))
          = .ok (Text.encodeUtf8 text.toList, time) := by
  intro acts tree
  have hedit : (Edit.write (.ofText "c/a.md") [0xff] 1).IsOfSource smallRules smallSite.home :=
    ⟨Path.isSpelled_ofText _, ⟨[], "a", by simp, by decide, by decide⟩, rfl⟩
  have hacts : ∀ act ∈ acts, act.IsOfSource smallRules smallSite.home := by
    intro act hact
    simp only [acts, List.mem_cons, List.not_mem_nil, or_false] at hact
    rcases hact with rfl | rfl | rfl
    · exact trivial
    · exact hedit
    · exact trivial
  obtain ⟨hlists, hreads⟩ := manifest_never_dangles isProper_smallSite isDirectory_smallSite
    (Path.isSpelled_ofText "o") isEmptyBelow_smallSite hacts
  obtain ⟨hfails, hlength⟩ : ((build smallRules).result tree).1.isOk = false ∧
      (Manifest.read tree smallRules.out).toOption.map List.length = some 1 := by decide +kernel
  cases hread : Manifest.read tree smallRules.out with
  | error e => simp [hread, Except.toOption] at hlength
  | ok listed =>
    have hone : listed.length = 1 := by simpa [hread, Except.toOption] using hlength
    exact ⟨isProper_smallSite, isDirectory_smallSite, Path.isSpelled_ofText "o", isEmptyBelow_smallSite, hacts,
      hfails, listed, rfl, hone, hlists listed hread⟩

end Folio

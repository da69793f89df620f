import Folio.Proofs.Build.Builds

set_option autoImplicit false

/-! # Edits and the rebuilding of one page

An edit writes or deletes the source of one page. It leaves the build as it was but for that page
(`BuiltBut`), and building this page anew makes the build whole again: the page is brought up to date and
listed (`built_of_rebuild`), or it is dropped with its module (`built_of_drop`). -/

namespace Folio

/-! ## Edits -/

/-- A change to one source. -/
inductive Edit where
  /-- Write a file, in directories that are made if they are not there. -/
  | write (p : Path) (bytes : List UInt8) (modified : Int)
  | delete (p : Path)

namespace Edit

/-- The source that is changed. -/
def path : Edit → Path
  | write p _ _ => p
  | delete p => p

/-- The files after a change. -/
def apply : Edit → FileTree → Except FileError FileTree
  | write p bytes modified, tree => do (← tree.makeDirectories p.parent).write p bytes modified
  | delete p, tree => tree.remove p

end Edit

/-- Make changes one after the other, and build the source anew after each. -/
def editAll (rules : BuildRules) : List Edit → Building Unit
  | [] => return
  | e :: rest => do
    Building.change e.apply
    let _ ← buildFile rules e.path
    editAll rules rest

/-! ## Builds but for one page -/

/-- All pages but one are built. What the manifest says of that page may be old. -/
structure BuiltBut (rules : BuildRules) (n : PageName) (tree : FileTree)
    (modules : List (String × Json)) : Prop where
  proper : tree.IsProper
  root : tree.isDirectory rules.root = true
  isListing : Manifest.IsListing modules
  own : ∀ e ∈ modules, e.1 = (rules.entry n).1 → e = rules.entry n
  module : rules.entry n ∈ modules → ∃ bytes time, tree.read (rules.modulePath n) = .ok (bytes, time)
  lists : ∀ e, e.1 ≠ (rules.entry n).1 →
    (e ∈ modules ↔ ∃ m, tree.IsPage rules.root m ∧ e = rules.entry m)
  manifest : ∃ time,
    tree.read (Manifest.file rules.out) = .ok (Text.encodeUtf8 (Manifest.toText modules), time)
  upToDate : ∀ m, m ≠ n → tree.IsPage rules.root m → UpToDate rules tree m

/-- The files of a build are its manifest and the modules that it lists. -/
def HoldsOnly (rules : BuildRules) (tree : FileTree) (modules : List (String × Json)) : Prop :=
  ∀ rest, tree.IsFileAt (rules.out.place tree.home ++ rest) →
    rest = [Manifest.fileName] ∨ ∃ n, rules.entry n ∈ modules ∧ rest = n.module

theorem Built.mem_iff {rules : BuildRules} {tree : FileTree} {modules : List (String × Json)}
    (h : Built rules tree modules) {n : PageName} :
    rules.entry n ∈ modules ↔ tree.IsPage rules.root n := by
  rw [h.lists]
  constructor
  · rintro ⟨m, hm, heq⟩
    exact BuildRules.entry_inj (congrArg Prod.fst heq) ▸ hm
  · exact fun hn => ⟨n, hn, rfl⟩

section

variable {rules : BuildRules} {n : PageName} {modules : List (String × Json)}

theorem source_ne_source {place : Place} {m : PageName} (h : m ≠ n) :
    place ++ m.source ≠ place ++ n.source :=
  fun heq => h (PageName.source_inj (List.append_cancel_left heq))

/-- A change to one source leaves the others built. -/
theorem Built.but {tree tree' : FileTree} (h : Built rules tree modules)
    (halters : FileTree.Alters (· = rules.root.place tree.home ++ n.source) tree tree') :
    BuiltBut rules n tree' modules := by
  have hread : ∀ {m : PageName} {bytes : List UInt8} {time : Int},
      tree.read (rules.modulePath m) = .ok (bytes, time) →
        tree'.read (rules.modulePath m) = .ok (bytes, time) := fun {m} _ _ hread =>
    halters.read (fun heq => source_ne_module _ _ m
      (heq.symm.trans (m.place_module tree.home rules.out))) hread
  have hpage : ∀ {m : PageName}, m ≠ n → (tree'.IsPage rules.root m ↔ tree.IsPage rules.root m) :=
    fun hm => halters.isPage_iff (source_ne_source hm)
  have hupToDate : ∀ m, m ≠ n → UpToDate rules tree m → UpToDate rules tree' m := fun m hm hn =>
    halters.upToDate (source_ne_source hm) (source_ne_module _ _ m).symm hn
  refine ⟨halters.proper, FileTree.isDirectory_mono halters.directories h.root, h.isListing,
    fun e he hkey => ?_, fun hn => ?_, fun e hkey => ?_, ?_, fun m hm hthere => ?_⟩
  · obtain ⟨m, -, rfl⟩ := (h.lists e).1 he
    rw [BuildRules.entry_inj hkey]
  · obtain ⟨-, -, text, time, -, -, hthere⟩ := (h.upToDate n (h.mem_iff.1 hn)).made
    exact ⟨_, time, hread hthere⟩
  · rw [h.lists]
    refine exists_congr fun m => and_congr_left fun he => (hpage fun hm => hkey ?_).symm
    rw [he, hm]
  · obtain ⟨time, hthere⟩ := h.manifest
    refine ⟨time, halters.read (fun heq => ?_) hthere⟩
    rw [Manifest.place_file] at heq
    exact source_ne_manifest _ _ heq.symm
  · exact hupToDate m hm (h.upToDate m ((hpage hm).1 hthere))

/-- A change outside the output directory leaves its files as they were. -/
theorem HoldsOnly.alters {touched : Place → Prop} {tree tree' : FileTree}
    (h : HoldsOnly rules tree modules) (halters : FileTree.Alters touched tree tree')
    (hspared : ∀ rest, ¬ touched (rules.out.place tree.home ++ rest)) :
    HoldsOnly rules tree' modules := by
  intro rest hrest
  rw [halters.home] at hrest
  exact h rest ((halters.isFileAt_iff (hspared rest)).1 hrest)

/-! ## Building one page anew -/

/-- A page that is built and listed makes the build whole again. -/
theorem built_of_rebuild {tree mid tree' : FileTree} (h : BuiltBut rules n tree modules)
    (hout : rules.out.IsSpelled) {p : Path} (hslug : pathSlug tree.home p (some rules.root) = n.slug)
    (hp : p.place tree.home = rules.root.place tree.home ++ n.source) {page : BuiltPage}
    (hone : buildOne rules p tree = .ok page mid) {modules' : List (String × Json)}
    (hmodules : ∀ e, e ∈ modules' ↔ e = rules.entry n ∨ e ∈ modules ∧ e.1 ≠ (rules.entry n).1)
    (hlisting : Manifest.IsListing modules') (hwrite : Manifest.write mid rules.out modules' = .ok tree') :
    Built rules tree' modules' ∧ tree'.home = tree.home ∧
      (HoldsOnly rules tree modules → HoldsOnly rules tree' modules') := by
  obtain ⟨-, halters, hn, hnew⟩ := buildOne_upToDate h.proper hout hslug hp hone
  obtain ⟨hwrote, hmanifest⟩ := Manifest.write_ok halters.proper hout hwrite
  have hhome : tree'.home = tree.home := hwrote.home.trans halters.home
  rw [halters.home] at hwrote
  have hpage : ∀ m, tree'.IsPage rules.root m ↔ tree.IsPage rules.root m := fun m =>
    (hwrote.isPage_iff (source_ne_manifest _ _)).trans
      (halters.isPage_iff (BuildRules.not_touches_source _))
  have hupToDate : ∀ m, UpToDate rules mid m → UpToDate rules tree' m := fun m hm =>
    hwrote.upToDate (source_ne_manifest _ _) (module_ne_manifest _ _) hm
  have hnPage : tree'.IsPage rules.root n := by
    obtain ⟨bytes, modified, -, -, hsource, -⟩ := (hupToDate n hn).made
    exact ⟨bytes, modified, hsource⟩
  refine ⟨⟨hwrote.proper, ?_, hlisting, fun e => ?_, hmanifest, fun m hm => hupToDate m ?_⟩,
    hhome, fun honly rest hrest => ?_⟩
  · exact FileTree.isDirectory_mono (hwrote.directories.trans halters.directories) h.root
  · rw [hmodules]
    by_cases hkey : e.1 = (rules.entry n).1
    · constructor
      · rintro (rfl | ⟨-, hne⟩)
        · exact ⟨n, hnPage, rfl⟩
        · exact absurd hkey hne
      · rintro ⟨m, -, rfl⟩
        exact .inl (congrArg rules.entry (BuildRules.entry_inj hkey))
    · have hne : e ≠ rules.entry n := fun heq => hkey (congrArg Prod.fst heq)
      rw [or_iff_right hne, and_iff_left hkey, h.lists e hkey]
      exact exists_congr fun m => and_congr_left fun _ => (hpage m).symm
  · by_cases hmn : m = n
    · exact hmn ▸ hn
    · exact halters.upToDate (BuildRules.not_touches_source _) (BuildRules.not_touches_module hmn)
        (h.upToDate m hmn ((hpage m).1 hm))
  · rw [hhome] at hrest
    by_cases hrest' : rest = [Manifest.fileName]
    · exact .inl hrest'
    have hspared : rules.out.place tree.home ++ rest ≠ rules.out.place tree.home ++ [Manifest.fileName] :=
      fun heq => hrest' (List.append_cancel_left heq)
    rcases hnew _ ((hwrote.isFileAt_iff hspared).1 hrest) with hold | hmodule
    · rcases honly rest hold with hfile | ⟨m, hm, hrest⟩
      · exact absurd hfile hrest'
      · refine .inr ⟨m, (hmodules _).2 ?_, hrest⟩
        by_cases hmn : m = n
        · exact .inl (hmn ▸ rfl)
        · exact .inr ⟨hm, fun hkey => hmn (BuildRules.entry_inj hkey)⟩
    · exact .inr ⟨n, (hmodules _).2 (.inl rfl), List.append_cancel_left hmodule⟩

theorem remove_of_read {tree : FileTree} {p : Path} {bytes : List UInt8} {time : Int}
    (h : tree.read p = .ok (bytes, time)) : tree.remove p = .ok (tree.erase (p.place tree.home)) := by
  obtain ⟨hlocate, hentry⟩ := FileTree.read_eq_ok_iff.1 h
  rw [FileTree.remove, hlocate]
  simp only [hentry]

/-- A page that is dropped with its module makes the build whole again. -/
theorem built_of_drop {tree mid tree' : FileTree} (h : BuiltBut rules n tree modules)
    (hout : rules.out.IsSpelled) (hgone : ¬ tree.IsPage rules.root n)
    (hlisted : rules.entry n ∈ modules)
    (hremove : removeIfThere tree (rules.modulePath n) = .ok mid) {modules' : List (String × Json)}
    (hmodules : ∀ e, e ∈ modules' ↔ e ∈ modules ∧ e.1 ≠ (rules.entry n).1)
    (hlisting : Manifest.IsListing modules')
    (hwrite : Manifest.write mid rules.out modules' = .ok tree') :
    Built rules tree' modules' ∧ tree'.home = tree.home ∧
      (HoldsOnly rules tree modules → HoldsOnly rules tree' modules') := by
  obtain ⟨bytes, time, hread⟩ := h.module hlisted
  have hmid : tree.remove (rules.modulePath n) = .ok mid := by
    rw [removeIfThere, remove_of_read hread] at hremove
    rw [remove_of_read hread, ← hremove]
  obtain ⟨halters, -, hnone⟩ := FileTree.remove_ok h.proper hmid
  rw [BuildRules.modulePath, n.place_module] at halters hnone
  obtain ⟨hwrote, hmanifest⟩ := Manifest.write_ok halters.proper hout hwrite
  have hhome : tree'.home = tree.home := hwrote.home.trans halters.home
  rw [halters.home] at hwrote
  have hpage : ∀ m, tree'.IsPage rules.root m ↔ tree.IsPage rules.root m := fun m =>
    (hwrote.isPage_iff (source_ne_manifest _ _)).trans (halters.isPage_iff (source_ne_module _ _ _))
  refine ⟨⟨hwrote.proper, ?_, hlisting, fun e => ?_, hmanifest, fun m hm => ?_⟩,
    hhome, fun honly rest hrest => ?_⟩
  · exact FileTree.isDirectory_mono (hwrote.directories.trans halters.directories) h.root
  · rw [hmodules]
    by_cases hkey : e.1 = (rules.entry n).1
    · refine ⟨fun he => absurd hkey he.2, ?_⟩
      rintro ⟨m, hm, rfl⟩
      exact absurd ((hpage m).1 hm) (BuildRules.entry_inj hkey ▸ hgone)
    · rw [and_iff_left hkey, h.lists e hkey]
      exact exists_congr fun m => and_congr_left fun _ => (hpage m).symm
  · have hm' := (hpage m).1 hm
    have hmn : m ≠ n := fun heq => hgone (heq ▸ hm')
    have hmodule : rules.out.place tree.home ++ m.module ≠ rules.out.place tree.home ++ n.module :=
      fun heq => hmn (PageName.module_inj (List.append_cancel_left heq))
    have hmid := halters.upToDate (source_ne_module _ _ _) hmodule (h.upToDate m hmn hm')
    exact hwrote.upToDate (source_ne_manifest _ _) (module_ne_manifest _ _) hmid
  · rw [hhome] at hrest
    by_cases hrest' : rest = [Manifest.fileName]
    · exact .inl hrest'
    have hspared : rules.out.place tree.home ++ rest ≠ rules.out.place tree.home ++ [Manifest.fileName] :=
      fun heq => hrest' (List.append_cancel_left heq)
    have hmidFile := (hwrote.isFileAt_iff hspared).1 hrest
    by_cases hmodule : rules.out.place tree.home ++ rest = rules.out.place tree.home ++ n.module
    · obtain ⟨b, m, hfile⟩ := hmidFile
      rw [hmodule, hnone] at hfile
      simp at hfile
    · rcases honly rest ((halters.isFileAt_iff hmodule).1 hmidFile) with hfile | ⟨m, hm, rfl⟩
      · exact absurd hfile hrest'
      · refine .inr ⟨m, (hmodules _).2 ⟨hm, fun hkey => hmodule ?_⟩, rfl⟩
        rw [BuildRules.entry_inj hkey]

theorem modulePlace_slug (n : PageName) : modulePlace n.slug = n.slug ++ ".py" := by
  have htext : Path.text ⟨false, n.module⟩ = "/".intercalate n.module := by
    simp [Path.text, PageName.module]
  rw [modulePlace, moduleName, n.ofText_moduleText, htext, PageName.module,
    Path.intercalate_concat_append, PageName.slug]

theorem listedModule_modulePlace (rules : BuildRules) (n : PageName) :
    listedModule rules.out (.string (modulePlace n.slug)) = .ok (rules.modulePath n) := by
  have hmodule : (⟨false, n.module⟩ : Path).IsSpelled := fun s hs =>
    (n.isName_of_mem_module s hs).toIsPart
  rw [listedModule, modulePlace, moduleName, n.ofText_moduleText, Path.ofText_text hmodule]
  rfl

/-- What dropping a listed page does. -/
theorem dropSource_ok {tree tree' : FileTree} {p : Path}
    (hslug : pathSlug tree.home p (some rules.root) = n.slug) (hlisting : Manifest.IsListing modules)
    (hlisted : rules.entry n ∈ modules) {u : Unit}
    (h : dropSource rules (Json.toEntries modules) p tree = .ok u tree') :
    ∃ mid, removeIfThere tree (rules.modulePath n) = .ok mid ∧
      Manifest.write mid rules.out (modules.filter fun e => e.1 != (rules.entry n).1) = .ok tree' := by
  have hfield : Value.field? (keyFor rules.keyStart n.slug) (Json.toEntries modules)
      = some (.string (modulePlace n.slug)) := by
    rw [Json.field?_toEntries, (lookup_eq_some_iff_mem hlisting.distinct).2 hlisted]
    rfl
  unfold dropSource at h
  obtain ⟨slug, mid, hinspect, h⟩ := Building.bind_eq_ok_iff.1 h
  obtain ⟨hslug', rfl⟩ := Building.inspect_eq_ok_iff.1 hinspect
  obtain rfl := (Except.ok.inj hslug').symm.trans hslug
  simp only [hfield] at h
  obtain ⟨module, mid, hinspect, h⟩ := Building.bind_eq_ok_iff.1 h
  obtain ⟨hmodule, rfl⟩ := Building.inspect_eq_ok_iff.1 hinspect
  obtain rfl := Except.ok.inj ((listedModule_modulePlace rules n).symm.trans hmodule)
  obtain ⟨_, mid, hremove, h⟩ := Building.bind_eq_ok_iff.1 h
  have hwrite := Building.change_eq_ok_iff.1 h
  rw [Manifest.erase_toEntries, Manifest.entriesOf_toEntries (hlisting.filter _).texts] at hwrite
  exact ⟨mid, Building.change_eq_ok_iff.1 hremove, hwrite⟩

/-- Building one page anew makes the build whole again, whether its source is there or not. -/
theorem built_of_buildFile {tree tree' : FileTree} (h : BuiltBut rules n tree modules)
    (hout : rules.out.IsSpelled) {p : Path} (hlocate : tree.locate p = .ok (p.place tree.home))
    (hroot : rules.root.hasNul = false)
    (hp : p.place tree.home = rules.root.place tree.home ++ n.source)
    (hlisted : tree.doesExist p = false → rules.entry n ∈ modules) {page : Option BuiltPage}
    (hbuild : buildFile rules p tree = .ok page tree') :
    ∃ modules', Built rules tree' modules' ∧ tree'.home = tree.home ∧
      (HoldsOnly rules tree modules → HoldsOnly rules tree' modules') := by
  have hslug := n.pathSlug_eq (FileTree.place_of_locate hlocate).2 hroot hp
  have hsorted := h.isListing.mergeSort
  have hmemSorted : ∀ e, e ∈ modules.mergeSort Manifest.keyLe ↔ e ∈ modules := fun e => List.mem_mergeSort
  obtain ⟨time, hmanifest⟩ := h.manifest
  have hread := Manifest.read_of_toText h.isListing hmanifest
  unfold buildFile at hbuild
  obtain ⟨entries, mid, hinspect, hbuild⟩ := Building.bind_eq_ok_iff.1 hbuild
  obtain ⟨hentries, rfl⟩ := Building.inspect_eq_ok_iff.1 hinspect
  obtain rfl := Except.ok.inj ((Except.mapError_eq_ok_iff.1 hentries).symm.trans hread)
  obtain ⟨isThere, mid, hinspect, hbuild⟩ := Building.bind_eq_ok_iff.1 hbuild
  obtain ⟨hthere, rfl⟩ := Building.inspect_eq_ok_iff.1 hinspect
  obtain rfl := Except.ok.inj hthere
  cases hexists : tree.doesExist p with
  | true =>
    simp only [hexists, Bool.not_true, Bool.false_eq_true, if_false] at hbuild
    obtain ⟨page, mid, hone, hbuild⟩ := Building.bind_eq_ok_iff.1 hbuild
    obtain ⟨_, last, hchange, hbuild⟩ := Building.bind_eq_ok_iff.1 hbuild
    obtain ⟨-, rfl⟩ := Building.pure_eq_ok_iff.1 hbuild
    obtain ⟨rfl, -⟩ := buildOne_upToDate h.proper hout hslug hp hone
    have hwrite : Manifest.write mid rules.out (Manifest.entriesOf (Manifest.put (rules.entry n).1
        (modulePlace n.slug) (Json.toEntries (modules.mergeSort Manifest.keyLe)))) = .ok last :=
      Building.change_eq_ok_iff.1 hchange
    have hput := hsorted.put (rules.entry n).1 (modulePlace n.slug)
    rw [Manifest.put_toEntries, Manifest.entriesOf_toEntries hput.texts] at hwrite
    refine ⟨_, built_of_rebuild h hout hslug hp hone (fun e => ?_) hput hwrite⟩
    rw [Json.mem_put_iff hsorted.distinct, hmemSorted]
    rfl
  | false =>
    simp only [hexists, Bool.not_false, if_true] at hbuild
    obtain ⟨_, mid, hdrop, hbuild⟩ := Building.bind_eq_ok_iff.1 hbuild
    obtain ⟨-, rfl⟩ := Building.pure_eq_ok_iff.1 hbuild
    obtain ⟨mid, hremove, hwrite⟩ :=
      dropSource_ok hslug hsorted ((hmemSorted _).2 (hlisted hexists)) hdrop
    have hgone : ¬ tree.IsPage rules.root n := by
      rintro ⟨bytes, modified, hsource⟩
      rw [FileTree.HasSource, ← hp] at hsource
      rw [FileTree.doesExist, FileTree.find?, hlocate] at hexists
      simp [hsource] at hexists
    refine ⟨_, built_of_drop h hout hgone (hlisted hexists) hremove (fun e => ?_) (hsorted.filter _)
      hwrite⟩
    rw [List.mem_filter, hmemSorted, bne_iff_ne]

/-! ## Edits one after the other -/

theorem Edit.apply_ok {e : Edit} {tree tree' : FileTree} (hproper : tree.IsProper)
    (hp : e.path.IsSpelled) (h : e.apply tree = .ok tree') :
    FileTree.Alters (· = e.path.place tree.home) tree tree' ∧
      tree'.locate e.path = .ok (e.path.place tree.home) ∧
      (tree'.doesExist e.path = false → tree.IsFileAt (e.path.place tree.home)) := by
  cases e with
  | write p bytes modified =>
    obtain ⟨made, hmade, hwrite⟩ := Except.bind_eq_ok_iff.1 h
    obtain ⟨hmade, -⟩ := FileTree.makeDirectories_ok hproper (Path.isSpelled_parent hp) hmade
    obtain ⟨hwrote, hread⟩ := FileTree.write_ok hmade.proper hp hwrite
    have hlocate := (FileTree.read_eq_ok_iff.1 hread).1
    rw [hwrote.home, hmade.home] at hlocate
    rw [hmade.home] at hwrote
    refine ⟨(hmade.mono fun _ => False.elim).trans hwrote, hlocate, fun hgone => ?_⟩
    have hthere : tree'.doesExist p = true := Manifest.doesExist_of_read hread
    simp [Edit.path, hthere] at hgone
  | delete p =>
    obtain ⟨halters, hlocate, -⟩ := FileTree.remove_ok hproper h
    refine ⟨halters, FileTree.locate_mono halters.directories hlocate, fun _ => ?_⟩
    simp only [Edit.apply, FileTree.remove, hlocate] at h
    split at h
    · simp at h
    · simp at h
    · next bytes modified hentry => exact ⟨bytes, modified, hentry⟩

/-- An edit of a source below the root. -/
def Edit.IsOfSource (rules : BuildRules) (home : Place) (e : Edit) : Prop :=
  e.path.IsSpelled ∧ ∃ n : PageName, e.path.place home = rules.root.place home ++ n.source

/-- An edit that is not in the output directory. -/
def Edit.IsOutside (rules : BuildRules) (home : Place) (e : Edit) : Prop :=
  Path.below? (rules.out.place home) (e.path.place home) = none

/-- After edits of sources with a build of each the build is whole. -/
theorem built_of_editAll {edits : List Edit} {tree tree' : FileTree} (h : Built rules tree modules)
    (hout : rules.out.IsSpelled) (hedits : ∀ e ∈ edits, e.IsOfSource rules tree.home) {u : Unit}
    (hrun : editAll rules edits tree = .ok u tree') :
    ∃ modules', Built rules tree' modules' ∧ tree'.home = tree.home ∧
      (HoldsOnly rules tree modules → (∀ e ∈ edits, e.IsOutside rules tree.home) →
        HoldsOnly rules tree' modules') := by
  induction edits generalizing tree modules with
  | nil =>
    obtain ⟨-, rfl⟩ := Building.pure_eq_ok_iff.1 hrun
    exact ⟨modules, h, rfl, fun honly _ => honly⟩
  | cons e rest ih =>
    rw [editAll] at hrun
    obtain ⟨_, edited, hchange, hrun⟩ := Building.bind_eq_ok_iff.1 hrun
    obtain ⟨page, rebuilt, hbuild, hrun⟩ := Building.bind_eq_ok_iff.1 hrun
    obtain ⟨hspelled, n, hplace⟩ := hedits e List.mem_cons_self
    obtain ⟨halters, hlocate, hgone⟩ :=
      Edit.apply_ok h.proper hspelled (Building.change_eq_ok_iff.1 hchange)
    have hnul := (FileTree.place_of_locate (FileTree.isDirectory_iff.1 h.root).1).2
    have hhome := halters.home
    have hwasPage : edited.doesExist e.path = false → tree.IsPage rules.root n := by
      rw [hplace] at hgone
      exact hgone
    have hbut := h.but (n := n) (hplace ▸ halters)
    obtain ⟨modules₁, hbuilt, hhome₁, honly₁⟩ := built_of_buildFile hbut hout (by rwa [hhome]) hnul
      (by rwa [hhome]) (fun hmissing => h.mem_iff.2 (hwasPage hmissing)) hbuild
    rw [hhome] at hhome₁
    obtain ⟨modules', hbuilt', hhome', honly'⟩ :=
      ih hbuilt (fun e he => hhome₁ ▸ hedits e (List.mem_cons_of_mem _ he)) hrun
    refine ⟨modules', hbuilt', hhome'.trans hhome₁, fun honly houtside => ?_⟩
    refine honly' (honly₁ (honly.alters halters fun below hbelow => ?_)) fun e he =>
      hhome₁ ▸ houtside e (List.mem_cons_of_mem _ he)
    have hnone := houtside e List.mem_cons_self
    rw [Edit.IsOutside, ← hbelow, Path.below?_append] at hnone
    simp at hnone

end

end Folio

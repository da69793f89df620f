import Folio.Proofs.Build.Stages

set_option autoImplicit false

/-! # What is listed while pages come and go

A manifest that builds have written lists pages, though perhaps not those that have sources, and perhaps there is
no manifest yet (`Ledger`). To begin to rebuild a source that is gone takes its page off the list, and its module
away; the rebuilding of a source that is there ends with its page on the list (`Rebuild.start_ok`,
`Rebuild.advance_ledger`). Whatever else is listed stays so. -/

namespace Folio

/-- What the manifest of a directory lists are pages. A directory without a manifest lists none. -/
structure Ledger (rules : BuildRules) (tree : FileTree) (modules : List (String × Json)) : Prop where
  isListing : Manifest.IsListing modules
  pages : ∀ e ∈ modules, ∃ n, e = rules.entry n
  manifest : (∃ time,
      tree.read (Manifest.file rules.out) = .ok (Text.encodeUtf8 (Manifest.toText modules), time)) ∨
    modules = [] ∧ ¬ tree.IsFileAt (rules.out.place tree.home ++ [Manifest.fileName])

section

variable {rules : BuildRules} {tree tree' : FileTree} {modules : List (String × Json)} {n : PageName}

theorem Built.ledger (h : Built rules tree modules) : Ledger rules tree modules where
  isListing := h.isListing
  pages e he := by
    obtain ⟨n, -, heq⟩ := (h.lists e).1 he
    exact ⟨n, heq⟩
  manifest := .inl h.manifest

/-- What does not touch the manifest leaves what is listed as it is. -/
theorem Ledger.alters {touched : Place → Prop} (h : Ledger rules tree modules)
    (halters : FileTree.Alters touched tree tree')
    (hspared : ¬ touched (rules.out.place tree.home ++ [Manifest.fileName])) : Ledger rules tree' modules := by
  refine ⟨h.isListing, h.pages, h.manifest.imp ?_ ?_⟩
  · rintro ⟨time, hread⟩
    exact ⟨time, halters.read (Manifest.place_file tree.home _ ▸ hspared) hread⟩
  · rintro ⟨hnone, hfree⟩
    rw [halters.home, halters.isFileAt_iff hspared]
    exact ⟨hnone, hfree⟩

/-- What is read is what is listed. -/
theorem Ledger.entries_eq (h : Ledger rules tree modules) {entries : List (Value × Value)}
    (hread : Manifest.read tree rules.out = .ok entries) :
    entries = Json.toEntries (modules.mergeSort Manifest.keyLe) := by
  rcases h.manifest with ⟨time, hfile⟩ | ⟨rfl, hfree⟩
  · exact Except.ok.inj (hread.symm.trans (Manifest.read_of_toText h.isListing hfile))
  · rw [List.mergeSort_nil]
    unfold Manifest.read at hread
    split at hread
    · exact (Except.ok.inj hread).symm
    · obtain ⟨⟨text, time⟩, htext, -⟩ := Except.bind_eq_ok_iff.1 hread
      obtain ⟨bytes, cs, hfile, -, -⟩ := readText_eq_ok_iff.1 (Except.mapError_eq_ok_iff.1 htext)
      exact absurd (Manifest.place_file tree.home _ ▸ FileTree.isFileAt_of_read hfile) hfree

/-- What is listed can be read, unless a directory has the name of the manifest. -/
theorem Ledger.read (h : Ledger rules tree modules)
    (hfree : tree.entry? (rules.out.place tree.home ++ [Manifest.fileName]) ≠ some .directory) :
    Manifest.read tree rules.out = .ok (Json.toEntries (modules.mergeSort Manifest.keyLe)) := by
  rcases h.manifest with ⟨time, hfile⟩ | ⟨rfl, hnone⟩
  · exact Manifest.read_of_toText h.isListing hfile
  · have hmissing : tree.doesExist (Manifest.file rules.out) = false := by
      unfold FileTree.doesExist FileTree.find?
      cases hlocate : tree.locate (Manifest.file rules.out) with
      | error fault => rfl
      | ok place =>
        obtain rfl := (FileTree.place_of_locate hlocate).1
        dsimp only
        rw [Manifest.place_file]
        cases hentry : tree.entry? (rules.out.place tree.home ++ [Manifest.fileName]) with
        | none => rfl
        | some entry =>
          cases entry with
          | directory => exact absurd hentry hfree
          | file bytes modified => exact absurd ⟨bytes, modified, hentry⟩ hnone
    rw [Manifest.read, hmissing, List.mergeSort_nil]
    rfl

/-- If any page is listed, the directory of the modules is there. -/
theorem Ledger.isDirectory_out (h : Ledger rules tree modules) {e : String × Json} (he : e ∈ modules) :
    tree.isDirectory rules.out = true := by
  rcases h.manifest with ⟨time, hfile⟩ | ⟨rfl, -⟩
  · exact FileTree.isDirectory_of_locate (FileTree.read_eq_ok_iff.1 hfile).1
  · simp at he

/-- A manifest that is written lists what was to be listed. -/
theorem ledger_write (hproper : tree.IsProper) (hout : rules.out.IsSpelled) (hlisting : Manifest.IsListing modules)
    (hpages : ∀ e ∈ modules, ∃ n, e = rules.entry n) (hwrite : Manifest.write tree rules.out modules = .ok tree') :
    FileTree.Alters (· = rules.out.place tree.home ++ [Manifest.fileName]) tree tree' ∧
      Ledger rules tree' modules := by
  obtain ⟨halters, hread⟩ := Manifest.write_ok hproper hout hwrite
  exact ⟨halters, hlisting, hpages, .inl hread⟩

/-- The entry of a page is the one with its key. -/
theorem Ledger.ne_entry_iff (h : Ledger rules tree modules) {e : String × Json} (he : e ∈ modules) :
    e.1 ≠ (rules.entry n).1 ↔ e ≠ rules.entry n := by
  refine not_congr ⟨fun hkey => ?_, congrArg Prod.fst⟩
  obtain ⟨m, rfl⟩ := h.pages e he
  rw [BuildRules.entry_inj hkey]

/-! ## Sources that are gone -/

/-- A file that is removed, if it is there, is not there then. -/
theorem gone_of_removeIfThere (hproper : tree.IsProper) (hout : tree.isDirectory rules.out = true)
    (h : removeIfThere tree (rules.modulePath n) = .ok tree') :
    FileTree.Alters (· = rules.out.place tree.home ++ n.module) tree tree' ∧
      ¬ tree'.IsFileAt (rules.out.place tree.home ++ n.module) := by
  have hplace : (rules.modulePath n).place tree.home = rules.out.place tree.home ++ n.module :=
    n.place_module tree.home rules.out
  unfold removeIfThere at h
  split at h
  · next e hremove =>
    split at h
    · obtain rfl := Except.ok.inj h
      refine ⟨.refl hproper, ?_⟩
      rintro ⟨bytes, modified, hentry⟩
      have hread : tree.read (rules.modulePath n) = .ok (bytes, modified) := by
        rw [FileTree.read_eq_ok_iff, hplace]
        exact ⟨FileTree.locate_of_entry hproper hout hentry, hentry⟩
      rw [remove_of_read hread] at hremove
      cases hremove
    · cases h
  · next removed hremove =>
    obtain rfl := Except.ok.inj h
    obtain ⟨halters, -, hnone⟩ := FileTree.remove_ok hproper hremove
    rw [hplace] at halters hnone
    exact ⟨halters, fun ⟨bytes, modified, hentry⟩ => by simp [hnone] at hentry⟩

/-- A page whose source is gone has been taken off the list, and its module is gone unless it was there without
    being on the list. -/
structure Unlists (rules : BuildRules) (n : PageName) (modules : List (String × Json)) (tree : FileTree)
    (modules' : List (String × Json)) (tree' : FileTree) : Prop where
  alters : FileTree.Alters (fun q => q = rules.out.place tree.home ++ n.module ∨
    q = rules.out.place tree.home ++ [Manifest.fileName]) tree tree'
  removed : (rules.entry n ∉ modules → ¬ tree.IsFileAt (rules.out.place tree.home ++ n.module)) →
    ¬ tree'.IsFileAt (rules.out.place tree.home ++ n.module)
  listed : ∀ e, e ∈ modules' ↔ e ∈ modules ∧ e ≠ rules.entry n

variable (h : Ledger rules tree modules) (hproper : tree.IsProper) (hout : rules.out.IsSpelled)
include h hproper hout

theorem Ledger.dropSource_ok {p : Path} (hslug : pathSlug tree.home p (some rules.root) = n.slug) {u : Unit}
    (hdrop : dropSource rules (Json.toEntries (modules.mergeSort Manifest.keyLe)) p tree = .ok u tree') :
    ∃ modules', Unlists rules n modules tree modules' tree' ∧ Ledger rules tree' modules' := by
  have hsorted := h.isListing.mergeSort
  by_cases hlisted : rules.entry n ∈ modules
  · obtain ⟨mid, hremove, hwrite⟩ := Folio.dropSource_ok hslug hsorted (List.mem_mergeSort.2 hlisted) hdrop
    obtain ⟨hremoved, hgone⟩ := gone_of_removeIfThere hproper (h.isDirectory_out hlisted) hremove
    obtain ⟨hwrote, hledger⟩ := ledger_write hremoved.proper hout (hsorted.filter _) (fun e he =>
      h.pages e (List.mem_mergeSort.1 (List.mem_filter.1 he).1)) hwrite
    rw [hremoved.home] at hwrote
    refine ⟨_, ⟨(hremoved.mono fun _ => .inl).trans (hwrote.mono fun _ => .inr), fun _ => ?_, fun e => ?_⟩,
      hledger⟩
    · exact mt (hwrote.isFileAt_iff (module_ne_manifest _ _)).1 hgone
    · rw [List.mem_filter, List.mem_mergeSort, bne_iff_ne]
      exact and_congr_right fun he => h.ne_entry_iff he
  · have hnone : Value.field? (keyFor rules.keyStart n.slug)
        (Json.toEntries (modules.mergeSort Manifest.keyLe)) = none := by
      rw [Json.field?_toEntries, Option.map_eq_none_iff, List.lookup_eq_none_iff]
      intro e he
      rw [bne_iff_ne]
      have he := List.mem_mergeSort.1 he
      exact ((h.ne_entry_iff he).2 fun heq => hlisted (heq ▸ he)).symm
    unfold dropSource at hdrop
    obtain ⟨slug, mid, hinspect, hdrop⟩ := Building.bind_eq_ok_iff.1 hdrop
    obtain ⟨hslug', rfl⟩ := Building.inspect_eq_ok_iff.1 hinspect
    obtain rfl := (Except.ok.inj hslug').symm.trans hslug
    simp only [hnone] at hdrop
    obtain ⟨-, rfl⟩ := Building.pure_eq_ok_iff.1 hdrop
    refine ⟨modules, ⟨.refl hproper, fun hfree => hfree hlisted, fun e => ?_⟩, h⟩
    exact ⟨fun he => ⟨he, fun heq => hlisted (heq ▸ he)⟩, And.left⟩

/-! ## Beginning -/

/-- What it comes to when a source is begun to be rebuilt. -/
inductive Rebuild.Begins (rules : BuildRules) (n : PageName) (modules : List (String × Json)) (tree : FileTree) :
    Option Rebuild → List (String × Json) → FileTree → Prop where
  | gone {modules' : List (String × Json)} {tree' : FileTree} (gone : ¬ tree.IsPage rules.root n)
      (unlists : Unlists rules n modules tree modules' tree') : Begins rules n modules tree none modules' tree'
  | made {bytes : List UInt8} {modified time : Int} {text : String}
      (source : tree.HasSource rules.root n bytes modified)
      (makes : Makes rules.compiling tree.process n.slug bytes modified text) :
      Begins rules n modules tree
        (some ⟨n.slug, Json.toEntries (modules.mergeSort Manifest.keyLe), .drafting text.toList time⟩) modules tree

theorem Rebuild.start_ok (hroot : tree.isDirectory rules.root = true) {p : Path} (hp : rules.Leads tree p n)
    {next : Option Rebuild} (hstart : Rebuild.start rules p tree = .ok next tree') :
    ∃ modules', Begins rules n modules tree next modules' tree' ∧ Ledger rules tree' modules' := by
  obtain ⟨hplace, hnul⟩ := FileTree.place_of_locate hp
  have hslug : pathSlug tree.home p (some rules.root) = n.slug :=
    n.pathSlug_eq hnul (FileTree.place_of_locate (FileTree.isDirectory_iff.1 hroot).1).2 hplace.symm
  unfold Rebuild.start at hstart
  obtain ⟨entries, mid, hinspect, hstart⟩ := Building.bind_eq_ok_iff.1 hstart
  obtain ⟨hentries, rfl⟩ := Building.inspect_eq_ok_iff.1 hinspect
  obtain rfl := h.entries_eq (Except.mapError_eq_ok_iff.1 hentries)
  obtain ⟨isThere, mid, hinspect, hstart⟩ := Building.bind_eq_ok_iff.1 hstart
  obtain ⟨hthere, rfl⟩ := Building.inspect_eq_ok_iff.1 hinspect
  obtain rfl := Except.ok.inj hthere
  cases hexists : tree.doesExist p with
  | false =>
    simp only [hexists, Bool.not_false, if_true] at hstart
    obtain ⟨_, mid, hdrop, hstart⟩ := Building.bind_eq_ok_iff.1 hstart
    obtain ⟨rfl, rfl⟩ := Building.pure_eq_ok_iff.1 hstart
    obtain ⟨modules', hunlists, hledger⟩ := h.dropSource_ok hproper hout hslug hdrop
    refine ⟨modules', .gone ?_ hunlists, hledger⟩
    rintro ⟨bytes, modified, hsource⟩
    rw [FileTree.doesExist, FileTree.find?, hp] at hexists
    rw [FileTree.HasSource] at hsource
    simp [hsource] at hexists
  | true =>
    simp only [hexists, Bool.not_true, Bool.false_eq_true, if_false] at hstart
    obtain ⟨artifact, mid, hinspect, hstart⟩ := Building.bind_eq_ok_iff.1 hstart
    obtain ⟨hcompile, rfl⟩ := Building.inspect_eq_ok_iff.1 hinspect
    obtain ⟨text, mid, hinspect, hstart⟩ := Building.bind_eq_ok_iff.1 hstart
    obtain ⟨hemit, rfl⟩ := Building.inspect_eq_ok_iff.1 hinspect
    obtain ⟨time, mid, hinspect, hstart⟩ := Building.bind_eq_ok_iff.1 hstart
    obtain ⟨-, rfl⟩ := Building.inspect_eq_ok_iff.1 hinspect
    obtain ⟨rfl, rfl⟩ := Building.pure_eq_ok_iff.1 hstart
    obtain ⟨bytes, modified, hread, hcompiles⟩ := compileFile_eq_ok_iff.1 hcompile
    rw [hslug] at hcompiles
    have hartifact := hcompiles.slug_eq
    have hsource : tree.HasSource rules.root n bytes modified := by
      rw [FileTree.HasSource, hplace]
      exact (FileTree.read_eq_ok_iff.1 hread).2
    refine ⟨modules, ?_, h⟩
    rw [hartifact] at hemit ⊢
    exact .made hsource ⟨artifact, hcompiles, Except.mapError_eq_ok_iff.1 hemit⟩

omit h hproper hout in
/-- To take a source out of the build does not fail as a source that does not compile. -/
theorem dropSource_ne_compile {entries : List (Value × Value)} {p : Path} {cause : CompileError} :
    dropSource rules entries p tree ≠ .error (.compile cause) tree' := by
  intro hdrop
  unfold dropSource at hdrop
  rcases Building.bind_eq_error_iff.1 hdrop with hinspect | ⟨slug, mid, -, hdrop⟩
  · cases (Building.inspect_eq_error_iff.1 hinspect).1
  have hrest : ∀ (place : Value) (left : List (String × Json)), (do
      let module ← Building.inspect fun _ => listedModule rules.out place
      Building.change fun tree => removeIfThere tree module
      Building.change fun tree => Manifest.write tree rules.out left : Building Unit) mid
        ≠ .error (.compile cause) tree' := by
    intro place left hdrop
    rcases Building.bind_eq_error_iff.1 hdrop with hinspect | ⟨module, mid, -, hdrop⟩
    · have hmodule := (Building.inspect_eq_error_iff.1 hinspect).1
      unfold listedModule at hmodule
      split at hmodule <;> cases hmodule
    rcases Building.bind_eq_error_iff.1 hdrop with hchange | ⟨_, mid, -, hchange⟩ <;>
      · obtain ⟨_, -, heq⟩ := (Building.change_eq_error_iff.1 hchange).1
        cases heq
  cases hfield : Value.field? (keyFor rules.keyStart slug) entries with
  | none =>
    simp only [hfield] at hdrop
    exact Building.pure_ne_error hdrop
  | some place =>
    simp only [hfield] at hdrop
    cases place with
    | null => exact Building.pure_ne_error hdrop
    | _ => exact hrest _ _ hdrop

omit h hproper hout in
/-- What fails as a source that does not compile is one. -/
theorem Rebuild.compile_of_start_error {p : Path} {cause : CompileError}
    (hstart : Rebuild.start rules p tree = .error (.compile cause) tree') : tree.doesExist p = true ∧
      compileFile rules.compiling tree p (some rules.root) = .error (.compile cause) := by
  unfold Rebuild.start at hstart
  rcases Building.bind_eq_error_iff.1 hstart with hinspect | ⟨entries, mid, hinspect, hstart⟩
  · obtain ⟨_, -, heq⟩ := Except.mapError_eq_error_iff.1 (Building.inspect_eq_error_iff.1 hinspect).1
    cases heq
  obtain ⟨-, rfl⟩ := Building.inspect_eq_ok_iff.1 hinspect
  rcases Building.bind_eq_error_iff.1 hstart with hinspect | ⟨isThere, mid, hinspect, hstart⟩
  · cases (Building.inspect_eq_error_iff.1 hinspect).1
  obtain ⟨hthere, rfl⟩ := Building.inspect_eq_ok_iff.1 hinspect
  obtain rfl := Except.ok.inj hthere
  cases hexists : tree.doesExist p with
  | false =>
    simp only [hexists, Bool.not_false, if_true] at hstart
    rcases Building.bind_eq_error_iff.1 hstart with hdrop | ⟨_, mid, -, hstart⟩
    · exact absurd hdrop dropSource_ne_compile
    · exact absurd hstart Building.pure_ne_error
  | true =>
    simp only [hexists, Bool.not_true, Bool.false_eq_true, if_false] at hstart
    rcases Building.bind_eq_error_iff.1 hstart with hinspect | ⟨artifact, mid, hinspect, hstart⟩
    · exact ⟨rfl, (Building.inspect_eq_error_iff.1 hinspect).1⟩
    obtain ⟨-, rfl⟩ := Building.inspect_eq_ok_iff.1 hinspect
    rcases Building.bind_eq_error_iff.1 hstart with hinspect | ⟨text, mid, hinspect, hstart⟩
    · obtain ⟨_, -, heq⟩ := Except.mapError_eq_error_iff.1 (Building.inspect_eq_error_iff.1 hinspect).1
      cases heq
    rcases Building.bind_eq_error_iff.1 hstart with hinspect | ⟨time, mid, -, hstart⟩
    · cases (Building.inspect_eq_error_iff.1 hinspect).1
    · exact absurd hstart Building.pure_ne_error

/-! ## Going on -/

omit h hproper hout in
/-- The last stage writes the manifest with the module in it. -/
theorem Rebuild.listing_ok {r : Rebuild} (hs : r.stage = .listing) (hslug : r.slug = n.slug)
    (hmodules : r.modules = Json.toEntries modules) (hlisting : Manifest.IsListing modules) {next : Option Rebuild}
    (hadvance : r.advance rules tree = .ok next tree') :
    next = none ∧ Manifest.write tree rules.out
      (Json.put (rules.entry n).1 (.string (modulePlace n.slug)) modules) = .ok tree' := by
  simp only [Rebuild.advance, hs, hmodules, hslug] at hadvance
  obtain ⟨_, written, hwrite, hadvance⟩ := Building.bind_eq_ok_iff.1 hadvance
  obtain ⟨rfl, rfl⟩ := Building.pure_eq_ok_iff.1 hadvance
  have hwrite := Building.change_eq_ok_iff.1 hwrite
  have hput := hlisting.put (keyFor rules.keyStart n.slug) (modulePlace n.slug)
  rw [Manifest.put_toEntries, Manifest.entriesOf_toEntries hput.texts] at hwrite
  exact ⟨rfl, hwrite⟩

/-- After a stage the manifest lists what it listed, and with the last stage the page. -/
theorem Rebuild.advance_ledger {r : Rebuild} (hslug : r.slug = n.slug)
    (hmodules : r.modules = Json.toEntries (modules.mergeSort Manifest.keyLe)) {next : Option Rebuild}
    (hadvance : r.advance rules tree = .ok next tree') : r.Advances rules n tree next tree' ∧
      ∃ modules', Ledger rules tree' modules' ∧ (∀ r', next = some r' → modules' = modules) ∧
        ∀ e, e ∈ modules' ↔ e ∈ modules ∨ r.stage = .listing ∧ e = rules.entry n := by
  have hsorted := h.isListing.mergeSort
  have hadvances := Rebuild.advance_ok hproper hout hslug hmodules hsorted hadvance
  refine ⟨hadvances, ?_⟩
  cases hadvances with
  | drafted stage alters =>
    exact ⟨modules, h.alters alters (draft_ne_manifest _ _).symm, fun _ _ => rfl, by simp [stage]⟩
  | moved stage draft alters =>
    exact ⟨modules, h.alters alters (BuildRules.not_touches_manifest _), fun _ _ => rfl, by simp [stage]⟩
  | listed stage alters =>
    obtain ⟨-, hwrite⟩ := Rebuild.listing_ok stage hslug hmodules hsorted hadvance
    have hput : ∀ e, e ∈ Json.put (rules.entry n).1 (.string (modulePlace n.slug))
        (modules.mergeSort Manifest.keyLe) ↔ e ∈ modules ∨ r.stage = .listing ∧ e = rules.entry n := by
      intro e
      rw [Json.mem_put_iff hsorted.distinct, List.mem_mergeSort, and_iff_right stage]
      change e = rules.entry n ∨ _ ↔ _
      by_cases heq : e = rules.entry n
      · simp [heq]
      · simp only [heq, false_or, or_false]
        exact and_iff_left_of_imp fun he => (h.ne_entry_iff he).2 heq
    refine ⟨_, (ledger_write hproper hout (hsorted.put _ _) (fun e he => ?_) hwrite).2, by simp, hput⟩
    rcases (hput e).1 he with he | ⟨-, rfl⟩
    · exact h.pages e he
    · exact ⟨n, rfl⟩

end

end Folio

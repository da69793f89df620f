import Folio.Proofs.Build.Incremental
import Folio.Proofs.Build.Outcomes

set_option autoImplicit false

/-! # Building one source anew, stage by stage

While a source is built anew, others can look at the files. They see them between two changes: the text of the
module is made, the module has been drafted, or the draft has been moved to its place (`Rebuild`). All stages
one after the other are the building of the source (`buildFile_eq_stages`). For each stage it is said which
files it touches, and when it succeeds. -/

namespace Folio

/-! ## Stages -/

/-- What is to be done next in the rebuilding of a page. -/
inductive RebuildStage where
  /-- The text of the module is made, and is to be written beside the place of the module. -/
  | drafting (text : List Char) (time : Int)
  /-- The draft is to be moved to the place of the module. -/
  | moving
  /-- The module is to be listed in the manifest. -/
  | listing
deriving Repr

/-- The rebuilding of a page that is under way. -/
structure Rebuild where
  slug : String
  /-- What the manifest listed when the rebuilding began. -/
  modules : List (Value × Value)
  stage : RebuildStage
deriving Repr

namespace Rebuild

/-- The path of the module. -/
def module (rules : BuildRules) (r : Rebuild) : Path :=
  rules.out.join (.ofText (moduleName r.slug))

/-- Begin to build a source anew. If it is gone, it is taken out of the build at once. -/
def start (rules : BuildRules) (p : Path) : Building (Option Rebuild) := do
  let modules ← Building.inspect fun tree => (Manifest.read tree rules.out).mapError .manifest
  let isThere ← Building.inspect fun tree => .ok (tree.doesExist p)
  if !isThere then
    dropSource rules modules p
    return none
  let artifact ← Building.inspect fun tree => compileFile rules.compiling tree p (some rules.root)
  let text ← Building.inspect fun _ =>
    (PageModule.emit artifact (sourceLabel artifact.slug)).mapError .emit
  let time ← Building.inspect fun tree => .ok (modifiedTime tree p)
  return some ⟨artifact.slug, modules, .drafting text.toList time⟩

/-- Do what is next: what is to be done after it, or nothing. -/
def advance (rules : BuildRules) (r : Rebuild) : Building (Option Rebuild) :=
  match r.stage with
  | .drafting text time => do
    Building.change fun tree => tree.makeDirectories (r.module rules).parent
    Building.change fun tree => tree.writeText (r.module rules).draft text time
    return some { r with stage := .moving }
  | .moving => do
    Building.change fun tree => tree.moveFile (r.module rules).draft (r.module rules)
    return some { r with stage := .listing }
  | .listing => do
    Building.change fun tree =>
      Manifest.write tree rules.out
        (Manifest.entriesOf (Manifest.put (keyFor rules.keyStart r.slug) (modulePlace r.slug) r.modules))
    return none

/-- Do what is left of a rebuilding, so many stages at most. -/
def advanceAll (rules : BuildRules) : Nat → Option Rebuild → Building Unit
  | 0, _ | _, none => return
  | fuel + 1, some r => do advanceAll rules fuel (← r.advance rules)

/-- The stages that are left. -/
def stagesLeft (r : Rebuild) : Nat :=
  match r.stage with
  | .drafting _ _ => 3
  | .moving => 2
  | .listing => 1

end Rebuild

/-! ## All stages -/

namespace Building

/-- Work of which only the end counts. -/
def ignore {α : Type} (work : Building α) : Building Unit := do
  let _ ← work
  return

variable {α β : Type} {tree : FileTree}

theorem bind_congr {work : Building α} {next next' : α → Building β}
    (h : ∀ a mid, work tree = .ok a mid → next a mid = next' a mid) :
    (work >>= next) tree = (work >>= next') tree := by
  change EStateM.bind work next tree = EStateM.bind work next' tree
  unfold EStateM.bind
  cases hwork : work tree with
  | error e mid => rfl
  | ok a mid => exact h a mid hwork

end Building

theorem FileTree.exists_read_of_moveFile {tree tree' : FileTree} {p target : Path}
    (h : tree.moveFile p target = .ok tree') : ∃ bytes modified, tree.read p = .ok (bytes, modified) := by
  unfold moveFile at h
  cases hlocate : tree.locate p with
  | error fault => simp [hlocate] at h
  | ok old =>
    have hplace := (place_of_locate hlocate).1
    cases htarget : tree.locate target with
    | error fault => simp [hlocate, htarget] at h
    | ok new =>
      simp only [hlocate, htarget] at h
      cases hentry : tree.entry? old with
      | none => simp [hentry] at h
      | some entry =>
        cases entry with
        | directory => simp [hentry] at h
        | file bytes modified =>
          exact ⟨bytes, modified, read_eq_ok_iff.2 ⟨hplace ▸ hlocate, hplace ▸ hentry⟩⟩

namespace Rebuild

/-- To write a module whole is to make its directory, to draft it, and to move the draft. -/
theorem attempt_writeWhole {α : Type} (p : Path) (text : List Char) (time : FileTree → Int)
    (next : Unit → Building α) (tree : FileTree) :
    (Building.attempt (fun tree => tree.writeWhole p text (time tree)) >>= next) tree = (do
      Building.change fun tree => tree.makeDirectories p.parent
      Building.change fun after => after.writeText p.draft text (time tree)
      Building.change fun after => after.moveFile p.draft p
      next ()) tree := by
  simp only [Building.attempt, Building.change, FileTree.writeWhole, Path.draft, bind, EStateM.bind]
  cases tree.makeDirectories p.parent with
  | error e => rfl
  | ok made =>
    dsimp only
    cases made.writeText (p.withName ("." ++ p.name ++ ".tmp")) text (time tree) with
    | error e => rfl
    | ok drafted =>
      dsimp only
      cases drafted.moveFile (p.withName ("." ++ p.name ++ ".tmp")) p <;> rfl

/-- The stages one after the other are the building of the source. -/
theorem buildFile_eq_stages (rules : BuildRules) (p : Path) :
    Building.ignore (buildFile rules p) = (do advanceAll rules 3 (← start rules p)) := by
  funext tree
  simp only [Building.ignore, buildFile, start, bind_assoc]
  refine Building.bind_congr fun modules mid _ => ?_
  refine Building.bind_congr fun isThere mid _ => ?_
  cases isThere with
  | false =>
    simp only [Bool.not_false, if_true, bind_assoc, pure_bind, advanceAll]
  | true =>
    simp only [Bool.not_true, Bool.false_eq_true, if_false, buildOne, bind_assoc, pure_bind]
    refine Building.bind_congr fun artifact mid _ => ?_
    refine Building.bind_congr fun text mid _ => ?_
    -- nothing changes between the time at which the text is made and the time at which it is written
    have htime : Building.inspect (fun tree => .ok (modifiedTime tree p)) mid
        = .ok (modifiedTime mid p) mid := rfl
    rw [Building.bind_of_ok htime]
    simp only [advanceAll, advance, bind_assoc, pure_bind]
    exact attempt_writeWhole _ _ (fun tree => modifiedTime tree p) _ mid

/-- Each stage leaves fewer. -/
theorem stagesLeft_advance {rules : BuildRules} {r r' : Rebuild} {tree tree' : FileTree}
    (h : r.advance rules tree = .ok (some r') tree') : r'.stagesLeft < r.stagesLeft := by
  obtain ⟨slug, modules, stage⟩ := r
  cases stage with
  | drafting text time =>
    obtain ⟨_, _, -, h⟩ := Building.bind_eq_ok_iff.1 h
    obtain ⟨_, _, -, h⟩ := Building.bind_eq_ok_iff.1 h
    obtain ⟨hnext, -⟩ := Building.pure_eq_ok_iff.1 h
    obtain rfl := Option.some.inj hnext
    exact Nat.lt_succ_self 2
  | moving =>
    obtain ⟨_, _, -, h⟩ := Building.bind_eq_ok_iff.1 h
    obtain ⟨hnext, -⟩ := Building.pure_eq_ok_iff.1 h
    obtain rfl := Option.some.inj hnext
    exact Nat.lt_succ_self 1
  | listing =>
    obtain ⟨_, _, -, h⟩ := Building.bind_eq_ok_iff.1 h
    obtain ⟨hnext, -⟩ := Building.pure_eq_ok_iff.1 h
    simp at hnext

theorem stagesLeft_pos (r : Rebuild) : 0 < r.stagesLeft := by
  unfold stagesLeft
  split <;> decide

theorem stagesLeft_le (r : Rebuild) : r.stagesLeft ≤ 3 := by
  unfold stagesLeft
  split <;> decide

/-! ## What each stage does -/

/-- What a stage of the rebuilding of a page does when it succeeds: what is next, and the files then. -/
inductive Advances (rules : BuildRules) (n : PageName) (r : Rebuild) (tree : FileTree) :
    Option Rebuild → FileTree → Prop where
  | drafted {text : List Char} {time : Int} {tree' : FileTree} (stage : r.stage = .drafting text time)
      (alters : FileTree.Alters (· = rules.out.place tree.home ++ n.draft) tree tree')
      (draft : tree'.entry? (rules.out.place tree.home ++ n.draft)
        = some (.file (Text.encodeUtf8 text) time)) :
      Advances rules n r tree (some { r with stage := .moving }) tree'
  | moved {bytes : List UInt8} {time : Int} {tree' : FileTree} (stage : r.stage = .moving)
      (draft : tree.entry? (rules.out.place tree.home ++ n.draft) = some (.file bytes time))
      (alters : FileTree.Alters (rules.Touches tree.home n) tree tree')
      (module : tree'.read (rules.modulePath n) = .ok (bytes, time)) :
      Advances rules n r tree (some { r with stage := .listing }) tree'
  | listed {tree' : FileTree} (stage : r.stage = .listing)
      (alters : FileTree.Alters (· = rules.out.place tree.home ++ [Manifest.fileName]) tree tree')
      (manifest : ∃ listed, Manifest.IsListing listed ∧ ∃ time,
        tree'.read (Manifest.file rules.out) = .ok (Text.encodeUtf8 (Manifest.toText listed), time)) :
      Advances rules n r tree none tree'

theorem Advances.directories {rules : BuildRules} {n : PageName} {r : Rebuild} {tree tree' : FileTree}
    {next : Option Rebuild} (h : r.Advances rules n tree next tree') : tree'.HasDirectoriesOf tree := by
  cases h with
  | drafted _ alters => exact alters.directories
  | moved _ _ alters => exact alters.directories
  | listed _ alters => exact alters.directories

section

variable {rules : BuildRules} {tree tree' : FileTree} {n : PageName} {r : Rebuild}

theorem module_eq (hr : r.slug = n.slug) : r.module rules = rules.modulePath n := by
  rw [module, hr, moduleName, n.ofText_moduleText]
  rfl

theorem draft_eq (hr : r.slug = n.slug) : (r.module rules).draft = rules.out.join ⟨false, n.draft⟩ := by
  rw [module_eq hr]
  exact n.draft_join rules.out

variable (hproper : tree.IsProper) (hout : rules.out.IsSpelled) (hr : r.slug = n.slug)
include hproper hout hr

/-- A stage that ends early has touched no file. -/
theorem advance_error {e : BuildError} (h : r.advance rules tree = .error e tree') :
    (∃ cause, e = .file cause) ∧ FileTree.Alters (fun _ => False) tree tree' := by
  -- the first change of a stage is made wholly or not at all
  have hfirst : ∀ {f : FileTree → Except FileError FileTree} {next : Unit → Building (Option Rebuild)},
      (∀ made, f tree = .ok made → next () made = .error e tree' →
        (∃ cause, e = .file cause) ∧ FileTree.Alters (fun _ => False) tree tree') →
      (Building.change f >>= next) tree = .error e tree' →
      (∃ cause, e = .file cause) ∧ FileTree.Alters (fun _ => False) tree tree' := by
    intro f next hnext h
    rcases Building.bind_eq_error_iff.1 h with hchange | ⟨_, made, hchange, h⟩
    · obtain ⟨⟨cause, -, rfl⟩, rfl⟩ := Building.change_eq_error_iff.1 hchange
      exact ⟨⟨cause, rfl⟩, .refl hproper⟩
    · exact hnext made (Building.change_eq_ok_iff.1 hchange) h
  cases hs : r.stage with
  | drafting text time =>
    simp only [advance, hs] at h
    refine hfirst (fun made hmade h => ?_) h
    have hspelled : (r.module rules).parent.IsSpelled :=
      Path.isSpelled_parent (module_eq hr ▸ n.isSpelled_module hout)
    obtain ⟨halters, -⟩ := FileTree.makeDirectories_ok hproper hspelled hmade
    rcases Building.bind_eq_error_iff.1 h with hchange | ⟨_, drafted, -, h⟩
    · obtain ⟨⟨cause, -, rfl⟩, rfl⟩ := Building.change_eq_error_iff.1 hchange
      exact ⟨⟨cause, rfl⟩, halters⟩
    · exact absurd h Building.pure_ne_error
  | moving =>
    simp only [advance, hs] at h
    exact hfirst (fun made _ h => absurd h Building.pure_ne_error) h
  | listing =>
    simp only [advance, hs] at h
    exact hfirst (fun made _ h => absurd h Building.pure_ne_error) h

/-- A stage that succeeds. What the manifest listed when the rebuilding began must have been a listing. -/
theorem advance_ok {modules : List (String × Json)} (hmodules : r.modules = Json.toEntries modules)
    (hlisting : Manifest.IsListing modules) {next : Option Rebuild}
    (h : r.advance rules tree = .ok next tree') : r.Advances rules n tree next tree' := by
  have hdraftSpelled : (rules.out.join ⟨false, n.draft⟩).IsSpelled := n.isSpelled_draft hout
  have hmoduleSpelled : (rules.modulePath n).IsSpelled := n.isSpelled_module hout
  cases hs : r.stage with
  | drafting text time =>
    simp only [advance, hs] at h
    obtain ⟨_, made, hmake, h⟩ := Building.bind_eq_ok_iff.1 h
    obtain ⟨_, drafted, hwrite, h⟩ := Building.bind_eq_ok_iff.1 h
    obtain ⟨rfl, rfl⟩ := Building.pure_eq_ok_iff.1 h
    have hmake := Building.change_eq_ok_iff.1 hmake
    have hwrite := Building.change_eq_ok_iff.1 hwrite
    rw [module_eq hr] at hmake
    rw [draft_eq hr] at hwrite
    obtain ⟨hmade, -⟩ :=
      FileTree.makeDirectories_ok hproper (Path.isSpelled_parent hmoduleSpelled) hmake
    obtain ⟨hwrote, hread⟩ := FileTree.write_ok hmade.proper hdraftSpelled hwrite
    have hentry := (FileTree.read_eq_ok_iff.1 hread).2
    rw [n.place_draft, hwrote.home, hmade.home] at hentry
    rw [n.place_draft, hmade.home] at hwrote
    exact .drafted hs ((hmade.mono fun _ => False.elim).trans hwrote) hentry
  | moving =>
    simp only [advance, hs] at h
    obtain ⟨_, moved, hmove, h⟩ := Building.bind_eq_ok_iff.1 h
    obtain ⟨rfl, rfl⟩ := Building.pure_eq_ok_iff.1 h
    have hmove := Building.change_eq_ok_iff.1 hmove
    rw [draft_eq hr, module_eq hr] at hmove
    have hplace : (rules.modulePath n).place tree.home = rules.out.place tree.home ++ n.module :=
      n.place_module tree.home rules.out
    obtain ⟨bytes, time, hdraft⟩ := FileTree.exists_read_of_moveFile hmove
    obtain ⟨halters, hread, -⟩ := FileTree.moveFile_ok hproper hmoduleSpelled
      (by rw [hplace, n.place_draft]; exact module_ne_draft _ _ n) hdraft hmove
    have hentry := (FileTree.read_eq_ok_iff.1 hdraft).2
    rw [n.place_draft] at hentry
    rw [n.place_draft, hplace] at halters
    exact .moved hs hentry halters hread
  | listing =>
    simp only [advance, hs, hmodules] at h
    obtain ⟨_, written, hwrite, h⟩ := Building.bind_eq_ok_iff.1 h
    obtain ⟨rfl, rfl⟩ := Building.pure_eq_ok_iff.1 h
    have hwrite := Building.change_eq_ok_iff.1 hwrite
    have hput := hlisting.put (keyFor rules.keyStart r.slug) (modulePlace r.slug)
    rw [Manifest.put_toEntries, Manifest.entriesOf_toEntries hput.texts] at hwrite
    obtain ⟨halters, hread⟩ := Manifest.write_ok hproper hout hwrite
    exact .listed hs halters ⟨_, hput, hread⟩

end

end Rebuild

/-! ## Pages that can be rebuilt -/

/-- Some pages have been built: each has its source and its module, and the manifest is a listing. -/
structure Rebuildable (rules : BuildRules) (pages : PageName → Prop) (tree : FileTree) : Prop where
  proper : tree.IsProper
  root : tree.isDirectory rules.root = true
  sources : ∀ n, pages n → tree.IsPage rules.root n
  modules : ∀ n, pages n → tree.IsFileAt (rules.out.place tree.home ++ n.module)
  drafted : ∀ n, pages n → ∀ s ∈ n.draft, FileTree.IsFileName s
  manifest : ∃ listed, Manifest.IsListing listed ∧ ∃ time,
    tree.read (Manifest.file rules.out) = .ok (Text.encodeUtf8 (Manifest.toText listed), time)

/-- A path leads to the source of a page. -/
def BuildRules.Leads (rules : BuildRules) (tree : FileTree) (p : Path) (n : PageName) : Prop :=
  tree.locate p = .ok (rules.root.place tree.home ++ n.source)

section

variable {rules : BuildRules} {pages : PageName → Prop} {tree tree' : FileTree} {n : PageName}

theorem Built.rebuildable {modules : List (String × Json)} (h : Built rules tree modules) :
    Rebuildable rules (tree.IsPage rules.root) tree :=
  ⟨h.proper, h.root, fun _ hn => hn, fun n hn => (h.upToDate n hn).isFileAt,
    fun n hn => (h.upToDate n hn).drafted, modules, h.isListing, h.manifest⟩

/-- What touches neither sources nor the manifest, and leaves a file where a module was. -/
theorem Rebuildable.alters {touched : Place → Prop} (h : Rebuildable rules pages tree)
    (halters : FileTree.Alters touched tree tree')
    (hsources : ∀ n, pages n → tree'.IsPage rules.root n)
    (hmodules : ∀ n, pages n → tree'.IsFileAt (rules.out.place tree.home ++ n.module))
    (hmanifest : ¬ touched (rules.out.place tree.home ++ [Manifest.fileName])) :
    Rebuildable rules pages tree' := by
  refine ⟨halters.proper, FileTree.isDirectory_mono halters.directories h.root, hsources,
    fun n hn => halters.home ▸ hmodules n hn, h.drafted, ?_⟩
  obtain ⟨listed, hlisting, time, hread⟩ := h.manifest
  exact ⟨listed, hlisting, time, halters.read (Manifest.place_file tree.home _ ▸ hmanifest) hread⟩

/-- A path to the source of a page has the slug of the page. -/
theorem Rebuildable.pathSlug_eq (h : Rebuildable rules pages tree) {p : Path} (hp : rules.Leads tree p n) :
    pathSlug tree.home p (some rules.root) = n.slug := by
  obtain ⟨hplace, hnul⟩ := FileTree.place_of_locate hp
  have hroot := (FileTree.place_of_locate (FileTree.isDirectory_iff.1 h.root).1).2
  exact n.pathSlug_eq hnul hroot hplace.symm

/-- To begin with a source that is there is to make the text of its module. -/
theorem Rebuild.start_eq (h : Rebuildable rules pages tree) (hn : pages n) {p : Path}
    (hp : rules.Leads tree p n) : ∃ listed, Manifest.IsListing listed ∧
      start rules p tree = match moduleText rules tree p with
        | .ok text => .ok (some ⟨n.slug, Json.toEntries listed,
            .drafting text.toList (modifiedTime tree p)⟩) tree
        | .error e => .error e tree := by
  obtain ⟨listed, hlisting, time, hread⟩ := h.manifest
  refine ⟨_, hlisting.mergeSort, ?_⟩
  have hmodules : Building.inspect (fun tree => (Manifest.read tree rules.out).mapError .manifest) tree
      = .ok (Json.toEntries (listed.mergeSort Manifest.keyLe)) tree :=
    Building.inspect_eq_ok_iff.2
      ⟨Except.mapError_eq_ok_iff.2 (Manifest.read_of_toText hlisting hread), rfl⟩
  obtain ⟨bytes, modified, hsource⟩ := h.sources n hn
  have hexists : tree.doesExist p = true := by
    have hentry : tree.entry? (rules.root.place tree.home ++ n.source) = some (.file bytes modified) :=
      hsource
    rw [FileTree.doesExist, FileTree.find?, hp]
    simp only [hentry, Option.isSome_some]
  have hthere : Building.inspect (fun tree => .ok (tree.doesExist p)) tree = .ok true tree :=
    Building.inspect_eq_ok_iff.2 ⟨congrArg Except.ok hexists, rfl⟩
  have hslug := h.pathSlug_eq hp
  unfold start
  rw [Building.bind_of_ok hmodules, Building.bind_of_ok hthere]
  simp only [Bool.not_true, Bool.false_eq_true, if_false, moduleText]
  cases hcompile : compileFile rules.compiling tree p (some rules.root) with
  | error e =>
    exact Building.bind_eq_error_iff.2 (.inl (Building.inspect_eq_error_iff.2 ⟨hcompile, rfl⟩))
  | ok artifact =>
    obtain ⟨_, _, _, hcompiles⟩ := compileFile_eq_ok_iff.1 hcompile
    have hartifact := hcompiles.slug_eq.trans hslug
    rw [Building.bind_of_ok (Building.inspect_eq_ok_iff.2 ⟨hcompile, rfl⟩)]
    simp only [bind, Except.bind]
    cases (PageModule.emit artifact (sourceLabel artifact.slug)).mapError BuildError.emit with
    | error e => rfl
    | ok text =>
      rw [← hartifact]
      rfl

theorem Rebuildable.isDirectory_out (h : Rebuildable rules pages tree) :
    tree.isDirectory rules.out = true := by
  obtain ⟨_, _, _, hread⟩ := h.manifest
  exact FileTree.isDirectory_of_locate (FileTree.read_eq_ok_iff.1 hread).1

/-- What is under way is the rebuilding of a page, and the manifest was a listing when it began. -/
structure Rebuild.Suits (rules : BuildRules) (pages : PageName → Prop) (tree : FileTree) (r : Rebuild) :
    Prop where
  page : ∃ n, pages n ∧ r.slug = n.slug ∧
    (r.stage = .moving → tree.IsFileAt (rules.out.place tree.home ++ n.draft))
  modules : ∃ listed, Manifest.IsListing listed ∧ r.modules = Json.toEntries listed

theorem Rebuild.Suits.advances (h : Rebuildable rules pages tree) (hout : rules.out.IsSpelled) {r : Rebuild}
    (hr : r.Suits rules pages tree) {next : Option Rebuild} (hnext : r.advance rules tree = .ok next tree') :
    ∃ n, pages n ∧ r.slug = n.slug ∧ r.Advances rules n tree next tree' := by
  obtain ⟨⟨n, hn, hslug, -⟩, listed, hlisting, hmodules⟩ := hr
  exact ⟨n, hn, hslug, advance_ok h.proper hout hslug hmodules hlisting hnext⟩

/-- What does not touch drafts leaves a rebuilding as it is. -/
theorem Rebuild.Suits.alters {touched : Place → Prop} {r : Rebuild} (h : r.Suits rules pages tree)
    (halters : FileTree.Alters touched tree tree')
    (hdraft : ∀ n : PageName, ¬ touched (rules.out.place tree.home ++ n.draft)) : r.Suits rules pages tree' := by
  obtain ⟨⟨n, hn, hslug, hmoving⟩, hmodules⟩ := h
  refine ⟨⟨n, hn, hslug, fun hs => ?_⟩, hmodules⟩
  rw [halters.home]
  exact (halters.isFileAt_iff (hdraft n)).2 (hmoving hs)

/-- After a stage all pages can still be rebuilt, and the rebuilding goes on as it began. -/
theorem Rebuildable.advance (h : Rebuildable rules pages tree) {r : Rebuild} (hr : r.Suits rules pages tree)
    (hn : pages n) (hslug : r.slug = n.slug) {next : Option Rebuild}
    (hnext : r.Advances rules n tree next tree') :
    Rebuildable rules pages tree' ∧ ∀ r', next = some r' → r'.Suits rules pages tree' := by
  have hsources : ∀ {touched : Place → Prop}, FileTree.Alters touched tree tree' →
      (∀ m : PageName, ¬ touched (rules.root.place tree.home ++ m.source)) →
      ∀ m, pages m → tree'.IsPage rules.root m := fun halters hspared m hm =>
    (halters.isPage_iff (hspared m)).2 (h.sources m hm)
  obtain ⟨-, hmodules⟩ := hr
  cases hnext with
  | drafted stage alters draft =>
    refine ⟨h.alters alters (hsources alters fun m => source_ne_draft _ _ n) (fun m hm => ?_)
      (draft_ne_manifest _ _).symm, fun r' hr' => ?_⟩
    · exact (alters.isFileAt_iff (module_ne_draft _ _ n)).2 (h.modules m hm)
    · obtain rfl := Option.some.inj hr'
      exact ⟨⟨n, hn, hslug, fun _ => ⟨_, _, alters.home ▸ draft⟩⟩, hmodules⟩
  | moved stage draft alters module =>
    refine ⟨h.alters alters (hsources alters fun m => BuildRules.not_touches_source _) (fun m hm => ?_)
      (BuildRules.not_touches_manifest _), fun r' hr' => ?_⟩
    · by_cases hmn : m = n
      · have hthere := FileTree.isFileAt_of_read module
        rw [BuildRules.modulePath, n.place_module, alters.home] at hthere
        exact hmn ▸ hthere
      · exact (alters.isFileAt_iff (BuildRules.not_touches_module hmn)).2 (h.modules m hm)
    · obtain rfl := Option.some.inj hr'
      exact ⟨⟨n, hn, hslug, by simp⟩, hmodules⟩
  | listed stage alters manifest =>
    refine ⟨⟨alters.proper, FileTree.isDirectory_mono alters.directories h.root,
      hsources alters fun m => source_ne_manifest _ _, fun m hm => ?_, h.drafted, manifest⟩, by simp⟩
    rw [alters.home]
    exact (alters.isFileAt_iff (module_ne_manifest _ _)).2 (h.modules m hm)

end

/-! ## Stages that succeed -/

section

variable {rules : BuildRules} {pages : PageName → Prop} {tree : FileTree} {n : PageName} {r : Rebuild}
variable (h : Rebuildable rules pages tree) (hn : pages n) (hslug : r.slug = n.slug)
include h hn hslug

omit hslug in
theorem Rebuildable.isDirectory_module : tree.isDirectory (rules.modulePath n).parent = true := by
  have hmodule : (rules.modulePath n).parent = rules.out.join ⟨false, n.dirs⟩ := FileTree.parent_join _ _ _
  have hdirs : tree.entry? (rules.out.place tree.home ++ n.dirs) = some .directory :=
    h.proper.directory_of_prefix (h.modules n hn) (List.prefix_refl n.dirs)
  rw [hmodule, FileTree.isDirectory_iff, Path.place_join n.dirs_names]
  exact ⟨FileTree.locate_of_entry h.proper h.isDirectory_out hdirs, hdirs⟩

/-- No stage makes a directory. -/
theorem Rebuildable.opens_advance {next : Option Rebuild} {tree' : FileTree}
    (hnext : r.advance rules tree = .ok next tree') : FileTree.Opens (fun _ => False) tree tree' := by
  unfold Rebuild.advance at hnext
  cases hs : r.stage with
  | drafting text time =>
    simp only [hs] at hnext
    obtain ⟨_, made, hmake, hnext⟩ := Building.bind_eq_ok_iff.1 hnext
    obtain ⟨_, drafted, hwrite, hnext⟩ := Building.bind_eq_ok_iff.1 hnext
    obtain ⟨-, rfl⟩ := Building.pure_eq_ok_iff.1 hnext
    have hmake := Building.change_eq_ok_iff.1 hmake
    rw [Rebuild.module_eq hslug, makeDirectories_of_isDirectory (h.isDirectory_module hn)] at hmake
    obtain rfl := Except.ok.inj hmake
    exact FileTree.opens_write (Building.change_eq_ok_iff.1 hwrite)
  | moving =>
    simp only [hs] at hnext
    obtain ⟨_, moved, hmove, hnext⟩ := Building.bind_eq_ok_iff.1 hnext
    obtain ⟨-, rfl⟩ := Building.pure_eq_ok_iff.1 hnext
    exact FileTree.opens_moveFile (Building.change_eq_ok_iff.1 hmove)
  | listing =>
    simp only [hs] at hnext
    obtain ⟨_, written, hwrite, hnext⟩ := Building.bind_eq_ok_iff.1 hnext
    obtain ⟨-, rfl⟩ := Building.pure_eq_ok_iff.1 hnext
    obtain ⟨made, hmake, hwrite⟩ := Except.bind_eq_ok_iff.1 (Building.change_eq_ok_iff.1 hwrite)
    rw [Manifest.parent_file, makeDirectories_of_isDirectory h.isDirectory_out] at hmake
    obtain rfl := Except.ok.inj hmake
    exact FileTree.opens_write hwrite

/-- The module of a page can be drafted, if no directory has the name of the draft. -/
theorem Rebuild.drafting_succeeds {text : List Char} {time : Int} (hs : r.stage = .drafting text time)
    (hfree : tree.entry? (rules.out.place tree.home ++ n.draft) ≠ some .directory) :
    ∃ next tree', r.advance rules tree = .ok next tree' := by
  have hout := h.isDirectory_out
  have hdirs : tree.entry? (rules.out.place tree.home ++ n.dirs) = some .directory :=
    h.proper.directory_of_prefix (h.modules n hn) (List.prefix_refl n.dirs)
  have hthere := h.isDirectory_module hn
  have hlocate : tree.locate (rules.out.join ⟨false, n.draft⟩) = .ok (rules.out.place tree.home ++ n.draft) :=
    FileTree.locate_of_parent h.proper hout hdirs (h.drafted n hn _ (by simp [PageName.draft]))
  have hparent : (rules.out.place tree.home ++ n.draft).dropLast = rules.out.place tree.home ++ n.dirs := by
    rw [PageName.draft, ← List.append_assoc, List.dropLast_concat]
  obtain ⟨tree', hwrite⟩ : ∃ tree', tree.writeText (rules.out.join ⟨false, n.draft⟩) text time = .ok tree' :=
    ⟨_, FileTree.write_of_locate hlocate (hparent ▸ hdirs) hfree (Text.encodeUtf8 text) time⟩
  refine ⟨some { r with stage := .moving }, tree', ?_⟩
  simp only [advance, hs]
  rw [draft_eq hslug, module_eq hslug]
  refine Building.bind_eq_ok_iff.2
    ⟨(), tree, Building.change_eq_ok_iff.2 (makeDirectories_of_isDirectory hthere), ?_⟩
  exact Building.bind_eq_ok_iff.2 ⟨(), tree', Building.change_eq_ok_iff.2 hwrite, rfl⟩

/-- A draft that is there can be moved to the place of the module. -/
theorem Rebuild.moving_succeeds (hs : r.stage = .moving)
    (hdraft : tree.IsFileAt (rules.out.place tree.home ++ n.draft)) :
    ∃ next tree', r.advance rules tree = .ok next tree' := by
  have hout := h.isDirectory_out
  obtain ⟨bytes, time, hdraft⟩ := hdraft
  obtain ⟨_, _, hfile⟩ := h.modules n hn
  have hread : tree.read (rules.out.join ⟨false, n.draft⟩) = .ok (bytes, time) := by
    rw [FileTree.read_eq_ok_iff, n.place_draft]
    exact ⟨FileTree.locate_of_entry h.proper hout hdraft, hdraft⟩
  obtain ⟨tree', hmove⟩ : ∃ tree',
      tree.moveFile (rules.out.join ⟨false, n.draft⟩) (rules.modulePath n) = .ok tree' :=
    ⟨_, FileTree.moveFile_of_read hread (FileTree.locate_of_entry h.proper hout hfile) (by simp [hfile])⟩
  refine ⟨some { r with stage := .listing }, tree', ?_⟩
  simp only [advance, hs]
  rw [draft_eq hslug, module_eq hslug]
  exact Building.bind_eq_ok_iff.2 ⟨(), tree', Building.change_eq_ok_iff.2 hmove, rfl⟩

omit hn hslug in
/-- A module can be listed. -/
theorem Rebuild.listing_succeeds (hs : r.stage = .listing) :
    ∃ next tree', r.advance rules tree = .ok next tree' := by
  have hmanifest : tree.entry? (rules.out.place tree.home ++ [Manifest.fileName]) ≠ some .directory := by
    obtain ⟨_, _, _, hread⟩ := h.manifest
    exact Manifest.place_file tree.home _ ▸ (FileTree.isFileAt_of_read hread).ne_directory
  obtain ⟨tree', hwrite⟩ := write_manifest_succeeds h.proper h.isDirectory_out hmanifest
    (Manifest.entriesOf (Manifest.put (keyFor rules.keyStart r.slug) (modulePlace r.slug) r.modules))
  refine ⟨none, tree', ?_⟩
  simp only [advance, hs]
  exact Building.bind_eq_ok_iff.2 ⟨(), tree', Building.change_eq_ok_iff.2 hwrite, rfl⟩

omit hn hslug in
/-- If no directory has the name of a draft, every stage succeeds. -/
theorem Rebuild.Suits.advance_succeeds (hr : r.Suits rules pages tree)
    (hfree : ∀ n, pages n → tree.entry? (rules.out.place tree.home ++ n.draft) ≠ some .directory) :
    ∃ next tree', r.advance rules tree = .ok next tree' := by
  obtain ⟨⟨n, hn, hslug, hdrafted⟩, -⟩ := hr
  cases hs : r.stage with
  | drafting text time => exact drafting_succeeds h hn hslug hs (hfree n hn)
  | moving => exact moving_succeeds h hn hslug hs (hdrafted hs)
  | listing => exact listing_succeeds h hs

end

end Folio

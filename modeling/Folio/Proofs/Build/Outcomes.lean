import Folio.Proofs.Build.Builds
import Folio.Proofs.FileTree.Directories
import Folio.Proofs.FileTree.Room

set_option autoImplicit false

/-! # How builds end

Work ends with a result or with an error, and leaves files either way (`Leaves`). To build a page is to make
the text of its module, which changes nothing and is where a source fails, and to write that text
(`moduleText`). What a source makes depends on the source alone, so it is the same before and after other
pages are built. -/

namespace Folio

/-! ## Errors -/

namespace Building

variable {α β : Type} {tree tree' : FileTree} {e : BuildError}

theorem bind_eq_error_iff {work : Building α} {next : α → Building β} :
    (work >>= next) tree = .error e tree' ↔
      work tree = .error e tree' ∨ ∃ a mid, work tree = .ok a mid ∧ next a mid = .error e tree' := by
  change EStateM.bind work next tree = _ ↔ _
  unfold EStateM.bind
  cases work tree with
  | error cause mid => simp
  | ok a mid =>
    constructor
    · exact fun h => .inr ⟨a, mid, rfl, h⟩
    · rintro (h | ⟨a', mid', heq, h⟩)
      · simp at h
      · obtain ⟨rfl, rfl⟩ := EStateM.Result.ok.inj heq
        exact h

theorem bind_of_ok {work : Building α} {next : α → Building β} {a : α} {mid : FileTree}
    (h : work tree = .ok a mid) : (work >>= next) tree = next a mid := by
  change EStateM.bind work next tree = _
  rw [EStateM.bind, h]

theorem pure_ne_error {a : α} : (pure a : Building α) tree ≠ .error e tree' :=
  fun h => by cases h

theorem inspect_eq_error_iff {f : FileTree → Except BuildError α} :
    inspect f tree = .error e tree' ↔ f tree = .error e ∧ tree = tree' := by
  unfold inspect
  cases f tree <;> simp

theorem change_eq_error_iff {f : FileTree → Except FileError FileTree} :
    change f tree = .error e tree' ↔ (∃ cause, f tree = .error cause ∧ e = .file cause) ∧ tree = tree' := by
  unfold change
  cases f tree <;> simp [eq_comm]

theorem attempt_eq_error_iff {f : FileTree → Except (FileError × FileTree) FileTree} :
    attempt f tree = .error e tree' ↔ ∃ cause, f tree = .error (cause, tree') ∧ e = .file cause := by
  unfold attempt
  cases f tree with
  | ok mid => simp
  | error failure =>
    obtain ⟨cause, mid⟩ := failure
    simp only [EStateM.Result.error.injEq, Except.error.injEq, Prod.mk.injEq]
    constructor
    · rintro ⟨rfl, rfl⟩
      exact ⟨cause, ⟨rfl, rfl⟩, rfl⟩
    · rintro ⟨-, ⟨rfl, rfl⟩, rfl⟩
      exact ⟨rfl, rfl⟩

/-- The files after some work, with whatever it ends, have a property. -/
def Leaves (work : Building α) (tree : FileTree) (P : FileTree → Prop) : Prop :=
  P (work.result tree).2

variable {P : FileTree → Prop}

theorem leaves_iff {work : Building α} : work.Leaves tree P ↔
    (∀ a tree', work tree = .ok a tree' → P tree') ∧ ∀ e tree', work tree = .error e tree' → P tree' := by
  unfold Leaves result
  cases work tree <;> simp

theorem leaves_bind {work : Building α} {next : α → Building β}
    (hfails : ∀ e mid, work tree = .error e mid → P mid)
    (hnext : ∀ a mid, work tree = .ok a mid → (next a).Leaves mid P) :
    (work >>= next).Leaves tree P := by
  refine leaves_iff.2 ⟨fun b tree' h => ?_, fun e tree' h => ?_⟩
  · obtain ⟨a, mid, hwork, h⟩ := bind_eq_ok_iff.1 h
    exact (leaves_iff.1 (hnext a mid hwork)).1 b tree' h
  · rcases bind_eq_error_iff.1 h with hwork | ⟨a, mid, hwork, h⟩
    · exact hfails e tree' hwork
    · exact (leaves_iff.1 (hnext a mid hwork)).2 e tree' h

theorem leaves_pure {a : α} (h : P tree) : (pure a : Building α).Leaves tree P :=
  h

theorem Leaves.mono {work : Building α} {Q : FileTree → Prop} (h : work.Leaves tree P)
    (hmore : ∀ tree', P tree' → Q tree') : work.Leaves tree Q :=
  hmore _ h

theorem leaves_map {work : Building α} (f : α → β) (h : work.Leaves tree P) :
    (work >>= fun a => pure (f a)).Leaves tree P :=
  leaves_bind (leaves_iff.1 h).2 fun a mid hwork => leaves_pure ((leaves_iff.1 h).1 a mid hwork)

theorem leaves_change {f : FileTree → Except FileError FileTree} (hstays : P tree)
    (hchanges : ∀ tree', f tree = .ok tree' → P tree') : (change f).Leaves tree P := by
  refine leaves_iff.2 ⟨fun a tree' hf => hchanges tree' (change_eq_ok_iff.1 hf), fun e tree' hf => ?_⟩
  exact (change_eq_error_iff.1 hf).2 ▸ hstays

/-- Work that only looks does not change what comes after it. -/
theorem leaves_inspect_bind {f : FileTree → Except BuildError α} {next : α → Building β} (h : P tree)
    (hnext : ∀ a, f tree = .ok a → (next a).Leaves tree P) : (inspect f >>= next).Leaves tree P := by
  refine leaves_bind (fun e mid hlooks => (inspect_eq_error_iff.1 hlooks).2 ▸ h) fun a mid hlooks => ?_
  obtain ⟨hf, rfl⟩ := inspect_eq_ok_iff.1 hlooks
  exact hnext a hf

end Building

/-! ## The text of a module -/

/-- The text of the module that the source at a path makes. -/
def moduleText (rules : BuildRules) (tree : FileTree) (p : Path) : Except BuildError String := do
  let artifact ← compileFile rules.compiling tree p (some rules.root)
  (PageModule.emit artifact (sourceLabel artifact.slug)).mapError .emit

theorem moduleText_eq_ok_iff {rules : BuildRules} {tree : FileTree} {p : Path} {text : String} :
    moduleText rules tree p = .ok text ↔ ∃ bytes modified, tree.read p = .ok (bytes, modified) ∧
      Makes rules.compiling tree.process (pathSlug tree.home p (some rules.root)) bytes modified text := by
  unfold moduleText Makes
  simp only [Except.bind_eq_ok_iff, Except.mapError_eq_ok_iff, compileFile_eq_ok_iff]
  constructor
  · rintro ⟨artifact, ⟨bytes, modified, hread, hcompiles⟩, hemit⟩
    exact ⟨bytes, modified, hread, artifact, hcompiles, hcompiles.slug_eq ▸ hemit⟩
  · rintro ⟨bytes, modified, hread, artifact, hcompiles, hemit⟩
    exact ⟨artifact, ⟨bytes, modified, hread, hcompiles⟩, hcompiles.slug_eq.symm ▸ hemit⟩

/-- A source that makes no text is not built, and nothing changes. -/
theorem buildOne_of_moduleText_error {rules : BuildRules} {tree : FileTree} {p : Path} {e : BuildError}
    (h : moduleText rules tree p = .error e) : buildOne rules p tree = .error e tree := by
  unfold moduleText at h
  unfold buildOne
  rw [Building.bind_eq_error_iff]
  cases hcompile : compileFile rules.compiling tree p (some rules.root) with
  | error cause =>
    rw [hcompile] at h
    obtain rfl : cause = e := Except.error.inj h
    exact .inl (Building.inspect_eq_error_iff.2 ⟨hcompile, rfl⟩)
  | ok artifact =>
    rw [hcompile] at h
    refine .inr ⟨artifact, tree, Building.inspect_eq_ok_iff.2 ⟨hcompile, rfl⟩, ?_⟩
    exact Building.bind_eq_error_iff.2 (.inl (Building.inspect_eq_error_iff.2 ⟨h, rfl⟩))

/-- A source that makes a text is built by writing it to the place of its module. -/
theorem buildOne_of_moduleText {rules : BuildRules} {tree : FileTree} {p : Path} {n : PageName}
    (hslug : pathSlug tree.home p (some rules.root) = n.slug) {text : String}
    (h : moduleText rules tree p = .ok text) : buildOne rules p tree =
      match tree.writeWhole (rules.modulePath n) text.toList (modifiedTime tree p) with
      | .ok tree' => .ok ⟨p, rules.modulePath n, keyFor rules.keyStart n.slug, n.slug⟩ tree'
      | .error (e, tree') => .error (.file e) tree' := by
  obtain ⟨bytes, modified, hread, artifact, hcompiles, hemit⟩ := moduleText_eq_ok_iff.1 h
  have hcompile : compileFile rules.compiling tree p (some rules.root) = .ok artifact :=
    compileFile_eq_ok_iff.2 ⟨bytes, modified, hread, hcompiles⟩
  rw [hslug] at hcompiles hemit
  have hartifact := hcompiles.slug_eq
  have hmodule : rules.out.join (.ofText (moduleName artifact.slug)) = rules.modulePath n := by
    rw [hartifact, moduleName, n.ofText_moduleText]
    rfl
  rw [← hartifact] at hemit
  have hemit : (PageModule.emit artifact (sourceLabel artifact.slug)).mapError BuildError.emit = .ok text :=
    Except.mapError_eq_ok_iff.2 hemit
  cases hwrite : tree.writeWhole (rules.modulePath n) text.toList (modifiedTime tree p) with
  | ok tree' =>
    refine Building.bind_eq_ok_iff.2 ⟨artifact, tree, Building.inspect_eq_ok_iff.2 ⟨hcompile, rfl⟩, ?_⟩
    refine Building.bind_eq_ok_iff.2 ⟨text, tree, Building.inspect_eq_ok_iff.2 ⟨hemit, rfl⟩, ?_⟩
    rw [hmodule, hartifact]
    exact Building.bind_eq_ok_iff.2 ⟨(), tree', Building.attempt_eq_ok_iff.2 hwrite, rfl⟩
  | error failure =>
    refine Building.bind_eq_error_iff.2
      (.inr ⟨artifact, tree, Building.inspect_eq_ok_iff.2 ⟨hcompile, rfl⟩, ?_⟩)
    refine Building.bind_eq_error_iff.2
      (.inr ⟨text, tree, Building.inspect_eq_ok_iff.2 ⟨hemit, rfl⟩, ?_⟩)
    rw [hmodule]
    exact Building.bind_eq_error_iff.2
      (.inl (Building.attempt_eq_error_iff.2 ⟨failure.1, hwrite, rfl⟩))

/-- A page that is built makes a text. -/
theorem moduleText_of_buildOne {rules : BuildRules} {tree tree' : FileTree} {p : Path} {page : BuiltPage}
    (h : buildOne rules p tree = .ok page tree') : ∃ text, moduleText rules tree p = .ok text := by
  cases htext : moduleText rules tree p with
  | error e =>
    rw [buildOne_of_moduleText_error htext] at h
    simp at h
  | ok text => exact ⟨text, rfl⟩

/-- A page that is not built makes no text, or its text cannot be written. -/
theorem buildOne_error {rules : BuildRules} {tree tree' : FileTree} {p : Path} {n : PageName}
    (hslug : pathSlug tree.home p (some rules.root) = n.slug) {e : BuildError}
    (h : buildOne rules p tree = .error e tree') :
    moduleText rules tree p = .error e ∧ tree' = tree ∨
    ∃ text cause, moduleText rules tree p = .ok text ∧ e = .file cause ∧
      tree.writeWhole (rules.modulePath n) text.toList (modifiedTime tree p) = .error (cause, tree') := by
  cases htext : moduleText rules tree p with
  | error cause =>
    rw [buildOne_of_moduleText_error htext] at h
    obtain ⟨rfl, rfl⟩ := EStateM.Result.error.inj h
    exact .inl ⟨rfl, rfl⟩
  | ok text =>
    rw [buildOne_of_moduleText hslug htext] at h
    split at h
    · simp at h
    · next cause mid hwrite =>
      obtain ⟨rfl, rfl⟩ := EStateM.Result.error.inj h
      exact .inr ⟨text, cause, rfl, rfl, hwrite⟩

/-- To build a source anew that is there is to build it and to list it. -/
theorem buildFile_of_doesExist {rules : BuildRules} {tree : FileTree} {p : Path}
    {modules : List (Value × Value)} (hread : Manifest.read tree rules.out = .ok modules)
    (hexists : tree.doesExist p = true) : buildFile rules p tree = (do
      let page ← buildOne rules p
      Building.change fun tree =>
        Manifest.write tree rules.out
          (Manifest.entriesOf (Manifest.put page.key (modulePlace page.slug) modules))
      return some page : Building (Option BuiltPage)) tree := by
  have hmodules : Building.inspect (fun tree => (Manifest.read tree rules.out).mapError .manifest) tree
      = .ok modules tree := Building.inspect_eq_ok_iff.2 ⟨Except.mapError_eq_ok_iff.2 hread, rfl⟩
  have hthere : Building.inspect (fun tree => .ok (tree.doesExist p)) tree = .ok true tree :=
    Building.inspect_eq_ok_iff.2 ⟨congrArg Except.ok hexists, rfl⟩
  unfold buildFile
  rw [Building.bind_of_ok hmodules, Building.bind_of_ok hthere]
  rfl

/-! ## Pages at their turn -/

namespace BuildRules

variable (rules : BuildRules) (tree : FileTree) (n : PageName)

/-- Whether the source of a page makes a text. -/
def yields : Bool :=
  (moduleText rules tree (rules.sourcePath n)).isOk

/-- The failure of a page that does not compile. -/
def failure? : Option CompileError :=
  match moduleText rules tree (rules.sourcePath n) with
  | .error (.compile e) => some e
  | _ => none

variable {rules tree n}

theorem yields_iff : rules.yields tree n = true ↔ ∃ text, moduleText rules tree (rules.sourcePath n) = .ok text := by
  unfold yields
  cases moduleText rules tree (rules.sourcePath n) <;> simp [Except.isOk, Except.toBool]

theorem failure?_eq_some_iff {e : CompileError} :
    rules.failure? tree n = some e ↔ moduleText rules tree (rules.sourcePath n) = .error (.compile e) := by
  unfold failure?
  split
  · next cause h => simp [h]
  · next h => simpa using h e

theorem read_of_hasSource (hproper : tree.IsProper) (hroot : tree.isDirectory rules.root = true)
    {bytes : List UInt8} {modified : Int} (h : tree.HasSource rules.root n bytes modified) :
    tree.read (rules.sourcePath n) = .ok (bytes, modified) := by
  have hplace : (rules.sourcePath n).place tree.home = rules.root.place tree.home ++ n.source :=
    n.place_source _ _
  rw [FileTree.read_eq_ok_iff, hplace]
  exact ⟨FileTree.locate_of_entry hproper hroot h, h⟩

end BuildRules

/-- What a source makes does not change with what is not touched of it. -/
theorem moduleText_congr {rules : BuildRules} {touched : Place → Prop} {tree tree' : FileTree}
    (hproper : tree.IsProper) (hroot : tree.isDirectory rules.root = true)
    (h : FileTree.Alters touched tree tree') {n : PageName} (hpage : tree.IsPage rules.root n)
    (hspared : ¬ touched (rules.root.place tree.home ++ n.source)) :
    moduleText rules tree' (rules.sourcePath n) = moduleText rules tree (rules.sourcePath n) := by
  obtain ⟨bytes, modified, hsource⟩ := hpage
  have hread := BuildRules.read_of_hasSource hproper hroot hsource
  have hread' := BuildRules.read_of_hasSource h.proper (FileTree.isDirectory_mono h.directories hroot)
    ((h.hasSource_iff hspared).2 hsource)
  have htext : tree'.readText (rules.sourcePath n) = tree.readText (rules.sourcePath n) := by
    rw [FileTree.readText, FileTree.readText, hread, hread']
  simp only [moduleText, compileFile, htext, compileText_congr h.home h.process]

/-! ## Building one page -/

section

variable {rules : BuildRules} {tree tree' : FileTree} (hproper : tree.IsProper)
variable (hout : rules.out.IsSpelled) {p : Path} {n : PageName}
variable (hslug : pathSlug tree.home p (some rules.root) = n.slug)
include hproper hout hslug

/-- A page that is not built has its module as it was. -/
theorem alters_buildOne_error {e : BuildError} (h : buildOne rules p tree = .error e tree') :
    FileTree.Alters (· = rules.out.place tree.home ++ n.draft) tree tree' := by
  rcases buildOne_error hslug h with ⟨-, rfl⟩ | ⟨text, cause, -, -, hwrite⟩
  · exact .refl hproper
  · have hdraft : (rules.modulePath n).draft = rules.out.join ⟨false, n.draft⟩ := n.draft_join rules.out
    have hspelled : (rules.modulePath n).IsSpelled := n.isSpelled_module hout
    have halters := FileTree.writeWhole_error hproper hspelled (hdraft ▸ n.isSpelled_draft hout) hwrite
    rwa [hdraft, n.place_draft] at halters

omit hproper hout in
/-- Whether a page is built or not, the directories that are made are on the way to its module. -/
theorem opens_buildOne (h : (∃ page, buildOne rules p tree = .ok page tree') ∨
    ∃ e, buildOne rules p tree = .error e tree') :
    FileTree.Opens ((rules.modulePath n).Passes tree.home) tree tree' := by
  cases htext : moduleText rules tree p with
  | error cause =>
    rw [buildOne_of_moduleText_error htext] at h
    obtain ⟨page, h⟩ | ⟨e, h⟩ := h
    · simp at h
    · obtain ⟨-, rfl⟩ := EStateM.Result.error.inj h
      exact .refl _
  | ok text =>
    rw [buildOne_of_moduleText hslug htext] at h
    split at h
    · next mid hwrite =>
      obtain ⟨page, h⟩ | ⟨e, h⟩ := h
      · obtain ⟨-, rfl⟩ := EStateM.Result.ok.inj h
        exact FileTree.opens_writeWhole (.inl hwrite)
      · simp at h
    · next cause mid hwrite =>
      obtain ⟨page, h⟩ | ⟨e, h⟩ := h
      · simp at h
      · obtain ⟨-, rfl⟩ := EStateM.Result.error.inj h
        exact FileTree.opens_writeWhole (.inr ⟨cause, hwrite⟩)

end

/-! ## Building pages one after the other -/

theorem leaves_buildEach_cons {rules : BuildRules} {p : Path} {rest : List Path} {tree : FileTree}
    {P : FileTree → Prop}
    (hgoes : ∀ mid, ((∃ page, buildOne rules p tree = .ok page mid) ∨
      ∃ e, buildOne rules p tree = .error (.compile e) mid) → (buildEach rules rest).Leaves mid P)
    (hstops : ∀ e mid, buildOne rules p tree = .error e mid → P mid) :
    (buildEach rules (p :: rest)).Leaves tree P := by
  cases hone : buildOne rules p tree with
  | ok page mid =>
    have heq : buildEach rules (p :: rest) tree
        = (buildEach rules rest >>= fun done => pure { done with built := page :: done.built }) mid := by
      rw [buildEach]
      simp only [hone]
    unfold Building.Leaves Building.result
    rw [heq]
    exact Building.leaves_map _ (hgoes mid (.inl ⟨page, hone⟩))
  | error e mid =>
    cases e with
    | compile e =>
      have heq : buildEach rules (p :: rest) tree
          = (buildEach rules rest >>= fun done => pure { done with failed := e :: done.failed }) mid := by
        rw [buildEach]
        simp only [hone]
      unfold Building.Leaves Building.result
      rw [heq]
      exact Building.leaves_map _ (hgoes mid (.inr ⟨e, hone⟩))
    | _ =>
      have hstopped := hstops _ mid hone
      unfold Building.Leaves Building.result
      rw [buildEach]
      simpa only [hone] using hstopped

section

variable {rules : BuildRules} (hout : rules.out.IsSpelled) {tree tree' : FileTree}
variable (hproper : tree.IsProper) (hroot : tree.isDirectory rules.root = true)
include hroot

theorem pathSlug_sourcePath (n : PageName) :
    pathSlug tree.home (rules.sourcePath n) (some rules.root) = n.slug := by
  have hnul := (FileTree.place_of_locate (FileTree.isDirectory_iff.1 hroot).1).2
  exact n.pathSlug_eq (n.hasNul_source hnul) hnul (n.place_source _ _)

include hproper hout

/-- A page at its turn: whatever becomes of it, nothing is touched but its module and its draft, and these
    only if its source makes a text. -/
theorem buildOne_spares {n : PageName}
    (h : (∃ page, buildOne rules (rules.sourcePath n) tree = .ok page tree') ∨
      ∃ e, buildOne rules (rules.sourcePath n) tree = .error e tree') :
    FileTree.Alters (fun q => rules.yields tree n = true ∧ rules.Touches tree.home n q) tree tree' ∧
      FileTree.Opens (fun q => rules.yields tree n = true ∧ (rules.modulePath n).Passes tree.home q)
        tree tree' := by
  have hslug := pathSlug_sourcePath hroot n
  cases htext : moduleText rules tree (rules.sourcePath n) with
  | error cause =>
    rw [buildOne_of_moduleText_error htext] at h
    obtain ⟨page, h⟩ | ⟨e, h⟩ := h
    · simp at h
    · obtain ⟨-, rfl⟩ := EStateM.Result.error.inj h
      exact ⟨.refl hproper, .refl _⟩
  | ok text =>
    have hyields := BuildRules.yields_iff.2 ⟨text, htext⟩
    refine ⟨?_, (opens_buildOne hslug h).mono fun q hq => ⟨hyields, hq⟩⟩
    obtain ⟨page, h⟩ | ⟨e, h⟩ := h
    · obtain ⟨-, halters, -, -⟩ := buildOne_upToDate hproper hout hslug (n.place_source _ _) h
      exact halters.mono fun q hq => ⟨hyields, hq⟩
    · exact (alters_buildOne_error hproper hout hslug h).mono fun q hq => ⟨hyields, .inr hq⟩

omit hout in
theorem yields_congr {touched : Place → Prop} (h : FileTree.Alters touched tree tree') {n : PageName}
    (hpage : tree.IsPage rules.root n) (hspared : ¬ touched (rules.root.place tree.home ++ n.source)) :
    rules.yields tree' n = rules.yields tree n := by
  rw [BuildRules.yields, BuildRules.yields, moduleText_congr hproper hroot h hpage hspared]

omit hout in
theorem failure?_congr {touched : Place → Prop} (h : FileTree.Alters touched tree tree') {n : PageName}
    (hpage : tree.IsPage rules.root n) (hspared : ¬ touched (rules.root.place tree.home ++ n.source)) :
    rules.failure? tree' n = rules.failure? tree n := by
  rw [BuildRules.failure?, BuildRules.failure?, moduleText_congr hproper hroot h hpage hspared]

/-- Pages that are built one after the other spare all files but the modules of those whose sources make a
    text, and the drafts of these, whatever the building ends with. -/
theorem buildEach_spares {ns : List PageName} (hns : ∀ n ∈ ns, tree.IsPage rules.root n) :
    (buildEach rules (ns.map rules.sourcePath)).Leaves tree fun tree' =>
      FileTree.Alters (fun q => ∃ n ∈ ns, rules.yields tree n = true ∧ rules.Touches tree.home n q)
        tree tree' ∧
      FileTree.Opens (fun q => ∃ n ∈ ns, rules.yields tree n = true ∧
        (rules.modulePath n).Passes tree.home q) tree tree' := by
  induction ns generalizing tree with
  | nil => exact Building.leaves_pure ⟨.refl hproper, .refl _⟩
  | cons n ns ih =>
    have hfirst : ∀ mid, ((∃ page, buildOne rules (rules.sourcePath n) tree = .ok page mid) ∨
        ∃ e, buildOne rules (rules.sourcePath n) tree = .error e mid) →
        FileTree.Alters (fun q => ∃ m ∈ n :: ns, rules.yields tree m = true ∧
          rules.Touches tree.home m q) tree mid ∧
        FileTree.Opens (fun q => ∃ m ∈ n :: ns, rules.yields tree m = true ∧
          (rules.modulePath m).Passes tree.home q) tree mid := by
      intro mid hone
      obtain ⟨halters, hopens⟩ := buildOne_spares hout hproper hroot hone
      exact ⟨halters.mono fun q hq => ⟨n, List.mem_cons_self, hq⟩,
        hopens.mono fun q hq => ⟨n, List.mem_cons_self, hq⟩⟩
    refine leaves_buildEach_cons (fun mid hone => ?_) fun e mid hone => hfirst mid (.inr ⟨e, hone⟩)
    obtain ⟨halters, hopens⟩ := hfirst mid (hone.imp_right fun hfails => hfails.elim fun _ hone => ⟨_, hone⟩)
    have hspared : ∀ m : PageName, ¬ ∃ k ∈ n :: ns, rules.yields tree k = true ∧
        rules.Touches tree.home k (rules.root.place tree.home ++ m.source) := by
      rintro m ⟨k, -, -, hk⟩
      exact BuildRules.not_touches_source _ hk
    have hpages : ∀ m ∈ ns, tree.IsPage rules.root m := fun m hm => hns m (List.mem_cons_of_mem _ hm)
    have hrest := ih halters.proper (FileTree.isDirectory_mono halters.directories hroot)
      fun m hm => (halters.isPage_iff (hspared m)).2 (hpages m hm)
    -- the others make what they made before
    have hsame : ∀ m ∈ ns, rules.yields mid m = true → rules.yields tree m = true := fun m hm hyields =>
      (yields_congr hproper hroot halters (hpages m hm) (hspared m)).symm.trans hyields
    rw [halters.home] at hrest
    refine Building.Leaves.mono hrest fun last ⟨halters', hopens'⟩ => ⟨?_, ?_⟩
    · exact halters.trans (halters'.mono fun q ⟨m, hm, hyields, hq⟩ =>
        ⟨m, List.mem_cons_of_mem _ hm, hsame m hm hyields, hq⟩)
    · exact hopens.trans (hopens'.mono fun q ⟨m, hm, hyields, hq⟩ =>
        ⟨m, List.mem_cons_of_mem _ hm, hsame m hm hyields, hq⟩)

/-- What is so of pages that have been built one after the other: those whose sources make a text are built and up to
    date, and the others are the failures. -/
structure EachBuilt (rules : BuildRules) (tree : FileTree) (ns : List PageName) (done : BuildProgress) (tree' : FileTree) :
    Prop where
  built : done.built = (ns.filter (rules.yields tree)).map rules.page
  failed : done.failed = ns.filterMap (rules.failure? tree)
  fresh : ∀ n ∈ ns, rules.yields tree n = true → UpToDate rules tree' n
  each : ∀ n ∈ ns, rules.yields tree n = true ∨ (rules.failure? tree n).isSome = true

omit hout in
/-- It is so as well of what was there before something else changed. -/
theorem EachBuilt.of_alters {touched : Place → Prop} {mid : FileTree} {ns : List PageName} {done : BuildProgress}
    (h : EachBuilt rules mid ns done tree') (halters : FileTree.Alters touched tree mid)
    (hpages : ∀ n ∈ ns, tree.IsPage rules.root n) (hspared : ∀ n ∈ ns, ¬ touched (rules.root.place tree.home ++ n.source)) :
    EachBuilt rules tree ns done tree' := by
  have hyields : ∀ n ∈ ns, rules.yields mid n = rules.yields tree n := fun n hn =>
    yields_congr hproper hroot halters (hpages n hn) (hspared n hn)
  have hfailure : ∀ n ∈ ns, rules.failure? mid n = rules.failure? tree n := fun n hn =>
    failure?_congr hproper hroot halters (hpages n hn) (hspared n hn)
  refine ⟨?_, ?_, fun n hn hn' => h.fresh n hn ((hyields n hn).trans hn'), fun n hn => ?_⟩
  · rw [h.built, List.filter_congr hyields]
  · rw [h.failed, List.filterMap_congr hfailure]
  · rw [← hyields n hn, ← hfailure n hn]
    exact h.each n hn

/-- A page that is up to date stays so while others are built, and if it is built again. -/
theorem upToDate_of_buildEach {ns : List PageName} {n : PageName} {done : BuildProgress}
    (hns : ∀ m ∈ ns, tree.IsPage rules.root m) (h : buildEach rules (ns.map rules.sourcePath) tree = .ok done tree')
    (hagain : n ∈ ns → rules.yields tree n = true → UpToDate rules tree' n) (hn : UpToDate rules tree n) :
    UpToDate rules tree' n := by
  obtain ⟨halters, -⟩ := (Building.leaves_iff.1 (buildEach_spares hout hproper hroot hns)).1 _ _ h
  by_cases hbuilt : n ∈ ns ∧ rules.yields tree n = true
  · exact hagain hbuilt.1 hbuilt.2
  · -- the page is not built again, and the others spare it
    refine halters.upToDate ?_ ?_ hn
    · rintro ⟨m, -, -, hm⟩
      exact BuildRules.not_touches_source _ hm
    · rintro ⟨m, hm, hm', htouches⟩
      have hne : n ≠ m := fun heq => hbuilt (heq ▸ ⟨hm, hm'⟩)
      exact BuildRules.not_touches_module hne htouches

theorem buildEach_ok {ns : List PageName} (hns : ∀ n ∈ ns, tree.IsPage rules.root n)
    {done : BuildProgress} (h : buildEach rules (ns.map rules.sourcePath) tree = .ok done tree') :
    EachBuilt rules tree ns done tree' := by
  induction ns generalizing tree done with
  | nil =>
    obtain ⟨rfl, rfl⟩ := Building.pure_eq_ok_iff.1 h
    exact ⟨rfl, rfl, by simp, by simp⟩
  | cons n ns ih =>
    rw [List.map_cons, buildEach] at h
    dsimp only at h
    have hslug := pathSlug_sourcePath hroot n
    have hpages : ∀ m ∈ ns, tree.IsPage rules.root m := fun m hm => hns m (List.mem_cons_of_mem _ hm)
    -- what is known after the first page, whether it was built or is a failure
    have hrest : ∀ {mid : FileTree} {rest : BuildProgress},
        ((∃ page, buildOne rules (rules.sourcePath n) tree = .ok page mid) ∨
          ∃ e, buildOne rules (rules.sourcePath n) tree = .error e mid) →
        buildEach rules (ns.map rules.sourcePath) mid = .ok rest tree' →
        EachBuilt rules tree ns rest tree' ∧ (UpToDate rules mid n → UpToDate rules tree' n) := by
      intro mid rest hone heach
      obtain ⟨halters, -⟩ :=
        buildOne_spares hout hproper hroot (hone.imp_right fun hfails => hfails.elim fun _ hone => ⟨_, hone⟩)
      have hspared : ∀ m ∈ ns, ¬ (rules.yields tree n = true ∧
          rules.Touches tree.home n (rules.root.place tree.home ++ m.source)) :=
        fun m _ hm => BuildRules.not_touches_source _ hm.2
      have hpagesMid : ∀ m ∈ ns, mid.IsPage rules.root m := fun m hm =>
        (halters.isPage_iff (hspared m hm)).2 (hpages m hm)
      have hrootMid := FileTree.isDirectory_mono halters.directories hroot
      have hbuilt := ih halters.proper hrootMid hpagesMid heach
      refine ⟨hbuilt.of_alters hproper hroot halters hpages hspared, ?_⟩
      exact upToDate_of_buildEach hout halters.proper hrootMid hpagesMid heach fun hn => hbuilt.fresh n hn
    split at h
    · next page mid hone =>
      obtain ⟨rest, last, heach, h⟩ := Building.bind_eq_ok_iff.1 h
      obtain ⟨rfl, rfl⟩ := Building.pure_eq_ok_iff.1 h
      obtain ⟨⟨hbuilt, hfailed, hupToDate, hall⟩, hkept⟩ := hrest (.inl ⟨page, hone⟩) heach
      obtain ⟨rfl, -, hn, -⟩ := buildOne_upToDate hproper hout hslug (n.place_source _ _) hone
      obtain ⟨text, htext⟩ := moduleText_of_buildOne hone
      have hyields := BuildRules.yields_iff.2 ⟨text, htext⟩
      have hfailure : rules.failure? tree n = none := by
        rw [BuildRules.failure?, htext]
      refine ⟨?_, ?_, ?_, ?_⟩
      · rw [List.filter_cons_of_pos hyields, List.map_cons, ← hbuilt]
        rfl
      · rw [List.filterMap_cons_none hfailure, ← hfailed]
      · intro m hm hm'
        rcases List.mem_cons.1 hm with rfl | hm
        · exact hkept hn
        · exact hupToDate m hm hm'
      · exact List.forall_mem_cons.2 ⟨.inl hyields, hall⟩
    · next e mid hone =>
      obtain ⟨rest, last, heach, h⟩ := Building.bind_eq_ok_iff.1 h
      obtain ⟨rfl, rfl⟩ := Building.pure_eq_ok_iff.1 h
      obtain ⟨⟨hbuilt, hfailed, hupToDate, hall⟩, -⟩ := hrest (.inr ⟨_, hone⟩) heach
      have htext : moduleText rules tree (rules.sourcePath n) = .error (.compile e) := by
        rcases buildOne_error hslug hone with ⟨htext, -⟩ | ⟨text, cause, -, heq, -⟩
        · exact htext
        · simp at heq
      have hfailure := BuildRules.failure?_eq_some_iff.2 htext
      have hyields : ¬ rules.yields tree n = true := by
        rw [BuildRules.yields, htext]
        simp [Except.isOk, Except.toBool]
      refine ⟨?_, ?_, ?_, ?_⟩
      · rw [List.filter_cons_of_neg hyields, ← hbuilt]
      · rw [List.filterMap_cons_some hfailure, ← hfailed]
      · intro m hm hm'
        rcases List.mem_cons.1 hm with rfl | hm
        · exact absurd hm' hyields
        · exact hupToDate m hm hm'
      · exact List.forall_mem_cons.2 ⟨.inr (by simp [hfailure]), hall⟩
    · simp at h

/-- What stops the building of pages one after the other: a source that makes no text for another reason than
    that it does not compile, or a text that cannot be written. -/
theorem buildEach_error {ns : List PageName} (hns : ∀ n ∈ ns, tree.IsPage rules.root n) {e : BuildError}
    (h : buildEach rules (ns.map rules.sourcePath) tree = .error e tree') :
    (∀ cause, e ≠ .compile cause) ∧
    ((∃ n ∈ ns, moduleText rules tree (rules.sourcePath n) = .error e) ∨ ∃ cause, e = .file cause) := by
  induction ns generalizing tree with
  | nil => exact absurd h Building.pure_ne_error
  | cons n ns ih =>
    have hslug := pathSlug_sourcePath hroot n
    -- an error of a later page is one of the pages as they were at first
    have hlater : ∀ {mid : FileTree}, ((∃ page, buildOne rules (rules.sourcePath n) tree = .ok page mid) ∨
          ∃ e, buildOne rules (rules.sourcePath n) tree = .error (.compile e) mid) →
        buildEach rules (ns.map rules.sourcePath) mid = .error e tree' →
        (∀ cause, e ≠ .compile cause) ∧
          ((∃ m ∈ n :: ns, moduleText rules tree (rules.sourcePath m) = .error e) ∨
            ∃ cause, e = .file cause) := by
      intro mid hone heach
      obtain ⟨halters, -⟩ := buildOne_spares hout hproper hroot (hone.imp_right fun hfails => hfails.elim fun _ hone => ⟨_, hone⟩)
      have hspared : ∀ m : PageName, ¬ (rules.yields tree n = true ∧
          rules.Touches tree.home n (rules.root.place tree.home ++ m.source)) :=
        fun m hm => BuildRules.not_touches_source _ hm.2
      have hpages : ∀ m ∈ ns, tree.IsPage rules.root m := fun m hm => hns m (List.mem_cons_of_mem _ hm)
      obtain ⟨hcompile, hcauses⟩ := ih halters.proper (FileTree.isDirectory_mono halters.directories hroot)
        (fun m hm => (halters.isPage_iff (hspared m)).2 (hpages m hm)) heach
      refine ⟨hcompile, hcauses.imp (fun ⟨m, hm, htext⟩ => ⟨m, List.mem_cons_of_mem _ hm, ?_⟩) id⟩
      rw [← moduleText_congr hproper hroot halters (hpages m hm) (hspared m)]
      exact htext
    rw [List.map_cons, buildEach] at h
    dsimp only at h
    split at h
    · next page mid hone =>
      rcases Building.bind_eq_error_iff.1 h with heach | ⟨done, last, -, h⟩
      · exact hlater (.inl ⟨page, hone⟩) heach
      · exact absurd h Building.pure_ne_error
    · next cause mid hone =>
      rcases Building.bind_eq_error_iff.1 h with heach | ⟨done, last, -, h⟩
      · exact hlater (.inr ⟨cause, hone⟩) heach
      · exact absurd h Building.pure_ne_error
    · next cause mid hcompile hone =>
      obtain ⟨rfl, rfl⟩ := EStateM.Result.error.inj h
      refine ⟨fun failure heq => hcompile failure heq, ?_⟩
      rcases buildOne_error hslug hone with ⟨htext, -⟩ | ⟨text, failure, -, hfile, -⟩
      · exact .inl ⟨n, List.mem_cons_self, htext⟩
      · exact .inr ⟨failure, hfile⟩

end

end Folio

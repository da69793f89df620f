import Folio.Proofs.Build.Stages
import Folio.Server

set_option autoImplicit false

/-! # Sites that change while they are served

A site that is watched is served, edited and rebuilt at once. What goes on is said in acts: a source is
overwritten, a batch of changes is reported, the watcher does one thing, a loader reads a module, its answer
arrives, or something happens to the provider. The watcher works through a batch page by page and stage by
stage, and then tells the provider; nothing keeps other acts from coming in between. A watcher that is left
alone applies a batch as `Site.applyBatch` does (`run_watch_eq_applyBatch`). -/

namespace Folio

/-- What a watcher is doing. -/
inductive Watcher where
  | idle
  /-- A batch is worked through. Some of its paths are left, and a page may be under way. -/
  | rebuilding (batch left : List Path) (page : Option Rebuild)
  | stopped (cause : BuildError)
deriving Repr

/-- A site that is watched. -/
structure Live where
  tree : FileTree
  site : Site
  /-- What loaders have read for loads, and have not answered or have. -/
  reads : List (Nat × Except LoaderError Artifact) := []
  watcher : Watcher := .idle

namespace Live

/-- What can happen to a site that is watched. -/
inductive Act where
  /-- The source of a page is overwritten. -/
  | modify (n : PageName) (bytes : List UInt8) (modified : Int)
  /-- Changes are reported; a watcher that is busy does not hear of them. -/
  | report (paths : List String)
  /-- The watcher does one thing. -/
  | watch
  /-- The loader that a load waits for reads the module. -/
  | read (load : Nat)
  /-- The answer of a loader that has read arrives. -/
  | answer (load : Nat)
  | turn
  | request (slug : String)
  | requestAll (filters : Option ContentFilters)
  | cancelCaller (id : Nat)
  | cancelCollection (id : Nat)
  | invalidate (slug : Option String)

variable (l : Live)

/-- The provider of the site. -/
def provider : Provider LoaderError :=
  l.site.server.provider

/-- The site with another provider. -/
def withProvider (p : Provider LoaderError) : Live :=
  { l with site := { l.site with server := { l.site.server with provider := p } } }

/-- How the site is built. -/
def rules : BuildRules :=
  l.site.settings.buildRules

/-! ## The watcher -/

/-- Do some of the work on a batch. A page that does not compile is no reason to stop. -/
def workOn (batch left : List Path) (work : Building (Option Rebuild)) : Live :=
  match work l.tree with
  | .ok page tree => { l with tree := tree, watcher := .rebuilding batch left page }
  | .error (.compile _) tree => { l with tree := tree, watcher := .rebuilding batch left none }
  | .error e tree => { l with tree := tree, watcher := .stopped e }

/-- Tell the provider of a batch. -/
def notify (batch : List Path) : Live :=
  { l.withProvider (l.provider.notify l.tree.home (.ofText l.site.settings.contentRoot) batch) with
    watcher := .idle }

/-- One thing that the watcher does. -/
def watch : Live :=
  match l.watcher with
  | .rebuilding batch left (some page) => l.workOn batch left (page.advance l.rules)
  | .rebuilding batch (p :: rest) none => l.workOn batch rest (Rebuild.start l.rules p)
  | .rebuilding batch [] none => l.notify batch
  | _ => l

/-- A watcher that is idle takes up a batch. For a server of sources nothing is rebuilt. -/
def takeUp (batch : List Path) : Live :=
  match l.watcher with
  | .idle => { l with watcher := .rebuilding batch (if l.site.rebuilding.isSome then batch else []) none }
  | _ => l

/-! ## Acts -/

/-- The source of a page is overwritten. -/
def modify (n : PageName) (bytes : List UInt8) (modified : Int) : Live :=
  match l.tree.write (l.rules.sourcePath n) bytes modified with
  | .ok tree => { l with tree := tree }
  | .error _ => l

/-- A loader reads for a load that waits for it. What it reads first counts. -/
def read (id : Nat) : Live :=
  match l.provider.loads[id]? with
  | some ⟨_, .waiting key _, _⟩ =>
    { l with reads := l.reads ++ [(id, l.site.server.backend.load l.tree key)] }
  | _ => l

/-- What an act is to the provider, if it is its own. Loaders answer later. -/
def Act.event? : Act → Option (Provider.Event LoaderError)
  | .answer id => (l.reads.lookup id).map (.receive id)
  | .turn => some (.turn fun _ _ => .later)
  | .request slug => some (.request slug)
  | .requestAll filters => some (.requestAll filters)
  | .cancelCaller id => some (.cancelCaller id)
  | .cancelCollection id => some (.cancelCollection id)
  | .invalidate slug => some (.invalidate slug)
  | _ => none

/-- The site after an act. -/
def step (act : Act) : Live :=
  match act with
  | .modify n bytes modified => l.modify n bytes modified
  | .report paths => l.takeUp (changedPaths paths)
  | .watch => l.watch
  | .read id => l.read id
  | act =>
    match act.event? l with
    | some e => l.withProvider (l.provider.step e)
    | none => l

/-- The site after some acts. -/
def run (acts : List Act) : Live :=
  acts.foldl step l

/-- The site after so many of some acts. -/
def runTo (acts : List Act) (k : Nat) : Live :=
  l.run (acts.take k)

/-! ## A watcher that is left alone -/

/-- A watcher that is left alone comes to a state. -/
def Reaches (l l' : Live) : Prop :=
  ∃ k, l.run (List.replicate k .watch) = l'

variable {l}

theorem Reaches.refl : l.Reaches l :=
  ⟨0, rfl⟩

theorem Reaches.of_watch {l' : Live} (h : l.watch.Reaches l') : l.Reaches l' := by
  obtain ⟨k, hk⟩ := h
  exact ⟨k + 1, hk⟩

theorem Reaches.trans {l' l'' : Live} (h : l.Reaches l') (h' : l'.Reaches l'') : l.Reaches l'' := by
  obtain ⟨k, rfl⟩ := h
  obtain ⟨j, rfl⟩ := h'
  refine ⟨k + j, ?_⟩
  rw [List.replicate_add, run, run, run, List.foldl_append]

/-- A page that is under way is rebuilt to its end. -/
theorem reaches_advanceAll (l : Live) (batch left : List Path) {fuel : Nat} {page : Option Rebuild}
    (hfuel : ∀ r, page = some r → r.stagesLeft ≤ fuel) :
    Reaches { l with watcher := .rebuilding batch left page }
      (l.workOn batch left (do Rebuild.advanceAll l.rules fuel page; return none)) := by
  induction fuel generalizing l page with
  | zero =>
    cases page with
    | none => exact .refl
    | some r => exact absurd (hfuel r rfl) (Nat.not_le_of_lt r.stagesLeft_pos)
  | succ fuel ih =>
    cases page with
    | none => exact .refl
    | some r =>
      refine .of_watch ?_
      change Reaches (workOn _ batch left (r.advance l.rules)) _
      unfold workOn
      rw [Rebuild.advanceAll, bind_assoc]
      cases hwork : r.advance l.rules l.tree with
      | error e tree =>
        rw [Building.bind_eq_error_iff.2 (.inl hwork)]
        cases e <;> exact .refl
      | ok next tree =>
        rw [Building.bind_of_ok hwork]
        refine ih { l with tree := tree } fun r' hr' => ?_
        have hleft := Rebuild.stagesLeft_advance (hr' ▸ hwork)
        have hfuel := hfuel r rfl
        omega

/-- A source is built anew to its end. -/
theorem reaches_buildFile (l : Live) (batch rest : List Path) (p : Path) :
    Reaches { l with watcher := .rebuilding batch (p :: rest) none }
      (l.workOn batch rest (do Building.ignore (buildFile l.rules p); return none)) := by
  refine .of_watch ?_
  change Reaches (workOn _ batch rest (Rebuild.start l.rules p)) _
  rw [Rebuild.buildFile_eq_stages, bind_assoc]
  unfold workOn
  dsimp only
  cases hwork : Rebuild.start l.rules p l.tree with
  | error e tree =>
    rw [Building.bind_eq_error_iff.2 (.inl hwork)]
    cases e <;> exact .refl
  | ok next tree =>
    rw [Building.bind_of_ok hwork]
    exact reaches_advanceAll { l with tree := tree } batch rest fun r _ => r.stagesLeft_le

/-- What is noted of a source does not matter to the watcher. -/
theorem reaches_more {l : Live} {batch rest : List Path} {tree : FileTree} (note : Rebuilt → Rebuilt)
    (h : Reaches { l with tree := tree, watcher := .rebuilding batch rest none }
      (match rebuildEach l.rules rest tree with
        | .ok _ tree => { l with tree := tree, watcher := .rebuilding batch [] none }
        | .error e tree => { l with tree := tree, watcher := .stopped e })) :
    Reaches { l with tree := tree, watcher := .rebuilding batch rest none }
      (match (do let more ← rebuildEach l.rules rest; return note more : Building Rebuilt) tree with
        | .ok _ tree => { l with tree := tree, watcher := .rebuilding batch [] none }
        | .error e tree => { l with tree := tree, watcher := .stopped e }) := by
  cases hrest : rebuildEach l.rules rest tree with
  | ok more after =>
    rw [Building.bind_of_ok hrest]
    rwa [hrest] at h
  | error e after =>
    rw [Building.bind_eq_error_iff.2 (.inl hrest)]
    rwa [hrest] at h

/-- The sources of a batch are built anew one after the other. -/
theorem reaches_rebuildEach (l : Live) (batch left : List Path) :
    Reaches { l with watcher := .rebuilding batch left none }
      (match rebuildEach l.rules left l.tree with
        | .ok _ tree => { l with tree := tree, watcher := .rebuilding batch [] none }
        | .error e tree => { l with tree := tree, watcher := .stopped e }) := by
  induction left generalizing l with
  | nil => exact .refl
  | cons p rest ih =>
    refine (reaches_buildFile l batch rest p).trans ?_
    rw [rebuildEach]
    unfold workOn Building.ignore
    rw [bind_assoc]
    dsimp only
    cases hbuild : buildFile l.rules p l.tree with
    | ok page tree =>
      rw [Building.bind_of_ok hbuild]
      exact reaches_more _ (ih { l with tree := tree })
    | error e tree =>
      rw [Building.bind_eq_error_iff.2 (.inl hbuild)]
      cases e with
      | compile cause => exact reaches_more _ (ih { l with tree := tree })
      | _ => exact .refl

/-- To apply a batch is to rebuild its sources, if anything is to be rebuilt, and to tell the provider. -/
theorem applyBatch_eq (site : Site) (batch : List Path) (tree : FileTree) :
    site.applyBatch batch tree =
      match (match site.rebuilding with
        | some rules => rebuildEach rules batch tree
        | none => .ok {} tree) with
      | .ok _ after => .ok { site with server := { site.server with
          provider := site.server.provider.notify after.home (.ofText site.settings.contentRoot) batch } } after
      | .error e after => .error e after := by
  unfold Site.applyBatch processBatch
  cases site.rebuilding with
  | none => rfl
  | some rules =>
    simp only [bind, EStateM.bind]
    cases rebuildEach rules batch tree <;> rfl

/-- A watcher that is left alone applies a batch as a whole. -/
theorem run_watch_eq_applyBatch {l : Live} (hidle : l.watcher = .idle) (paths : List String) :
    ∃ k, (l.step (.report paths)).run (List.replicate k .watch)
      = match l.site.applyBatch (changedPaths paths) l.tree with
        | .ok site tree => { l with tree := tree, site := site }
        | .error e tree => { l with tree := tree, watcher := .stopped e } := by
  change Reaches (l.takeUp (changedPaths paths)) _
  generalize changedPaths paths = batch
  have hnotify : ∀ l : Live, l.watcher = .rebuilding batch [] none → l.Reaches (l.notify batch) := by
    intro l hl
    refine .of_watch ?_
    rw [watch, hl]
    exact .refl
  obtain ⟨tree, ⟨settings, ⟨backend, provider⟩⟩, reads, watcher⟩ := l
  obtain rfl : watcher = .idle := hidle
  rw [applyBatch_eq]
  cases backend with
  | sources pages root rules => exact hnotify _ rfl
  | compiled modules =>
    refine (reaches_rebuildEach ⟨tree, ⟨settings, ⟨.compiled modules, provider⟩⟩, reads, .idle⟩ batch
      batch).trans ?_
    simp only [Site.rebuilding, rules]
    cases rebuildEach settings.buildRules batch tree with
    | error e after => exact .refl
    | ok rebuilt after => exact hnotify _ rfl

end Live

end Folio

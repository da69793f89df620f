import Folio.Proofs.Provider.Freshness
import Folio.Proofs.Server.Live
import Folio.Proofs.Server.Pages

set_option autoImplicit false

/-! # What happens to a site that is watched

After a build a site is opened and watched (`Live.Opened`). Whatever happens then, as long as only sources
that were there at first are overwritten and reported, all pages can still be rebuilt, and the watcher works on
sources of pages (`Live.Watched`). What an act does to such a site is said once, in `Live.Move`; what is known
of the module of a page and of its rebuilding follows by cases. -/

namespace Folio

/-! ## Reports -/

theorem mem_of_mem_eraseReps {α : Type} [BEq α] {l : List α} {x : α} (h : x ∈ l.eraseReps) : x ∈ l := by
  have hloop : ∀ (as : List α) (a : α) (acc : List α),
      x ∈ List.eraseRepsBy.loop (· == ·) a as acc → x ∈ acc ∨ x = a ∨ x ∈ as := by
    intro as
    induction as with
    | nil => simp +contextual [List.eraseRepsBy.loop, or_comm]
    | cons b as ih =>
      intro a acc h
      rw [List.eraseRepsBy.loop] at h
      split at h
      · rcases ih a acc h with h | h | h
        · exact .inl h
        · exact .inr (.inl h)
        · exact .inr (.inr (List.mem_cons_of_mem _ h))
      · rcases ih b (a :: acc) h with h | rfl | h
        · exact (List.mem_cons.1 h).elim (fun h => .inr (.inl h)) .inl
        · exact .inr (.inr List.mem_cons_self)
        · exact .inr (.inr (List.mem_cons_of_mem _ h))
  cases l with
  | nil => exact h
  | cons a as =>
    rcases hloop as a [] h with h | rfl | h
    · exact absurd h List.not_mem_nil
    · exact List.mem_cons_self
    · exact List.mem_cons_of_mem _ h

/-- The last name of a path is that of a source. -/
def Path.IsOfSource (p : Path) : Prop :=
  ∃ dirs stem, p.parts = dirs ++ [stem ++ ".md"]

theorem isOfSource_of_mem_changedPaths {paths : List String} {p : Path} (h : p ∈ changedPaths paths) :
    p.IsOfSource := by
  have hmem := mem_of_mem_eraseReps h
  rw [List.mem_mergeSort, List.mem_map] at hmem
  obtain ⟨text, htext, rfl⟩ := hmem
  have haccepted := (List.mem_filter.1 htext).2
  exact Path.exists_parts_of_endsAsSource (Bool.and_eq_true_iff.1 haccepted).2

/-- A path to the source of a page that has a name before its ending is that of a source. -/
theorem BuildRules.Leads.isSource {rules : BuildRules} {tree : FileTree} {p : Path} {n : PageName}
    (h : rules.Leads tree p n) (hp : p.IsOfSource) (hstem : n.stem ≠ "") : p.isSource = true := by
  obtain ⟨dirs, stem, hparts⟩ := hp
  have hparent : stem ++ ".md" ≠ ".." := by
    intro heq
    have hlast := congrArg (fun s => s.toList.getLast?) heq
    simp at hlast
  obtain ⟨q, hq⟩ : ∃ q, p.place tree.home = q ++ [stem ++ ".md"] := Path.place_concat hparts hparent
  have hplace := (FileTree.place_of_locate h).1
  rw [hq, PageName.source, ← List.append_assoc] at hplace
  have hname : stem ++ ".md" = n.stem ++ ".md" :=
    (List.singleton_inj.1 (List.append_inj_right' hplace rfl)).symm
  have hlength : n.stem.length + 3 ≠ 3 := by simpa using hstem
  rw [Path.isSource, Path.name, hparts, List.getLast?_concat, Option.getD_some, hname,
    Path.endsAsSource_append, String.length_append, Bool.true_and, bne_iff_ne]
  exact hlength

/-! ## What is dropped for a batch -/

/-- If the source of a page is among some changed paths, what is dropped for them covers the page. -/
theorem exists_call_of_mem {home : Place} {root p : Path} {paths : List Path} {n : PageName} (hp : p ∈ paths)
    (hsource : p.isSource = true) (hslug : pathSlug home p (some root) = n.slug) : ∃ scope ∈ (invalidationsFor home root paths).calls,
      (Provider.Event.invalidate scope : Provider.Event LoaderError).invalidates n.slug = true := by
  induction paths with
  | nil => simp at hp
  | cons q rest ih =>
    have hrest : q ≠ p → p ∈ rest := fun hne => (List.mem_cons.1 hp).resolve_left fun heq => hne heq.symm
    rw [invalidationsFor]
    split
    · next hskipped =>
      refine ih (hrest fun heq => ?_)
      rw [heq, hsource] at hskipped
      simp at hskipped
    · split
      · exact ⟨none, by simp [Invalidations.calls], rfl⟩
      · by_cases hqp : q = p
        · refine ⟨some n.slug, by simp [Invalidations.calls, hqp, hslug], ?_⟩
          simp [Provider.Event.invalidates]
        · obtain ⟨scope, hscope, hinvalidates⟩ := ih (hrest hqp)
          exact ⟨scope, List.mem_cons_of_mem _ hscope, hinvalidates⟩

namespace Provider

variable {ε : Type}

/-- To tell a provider of changed paths is to invalidate what is dropped for them. -/
theorem notify_eq_run (p : Provider ε) (home : Place) (root : Path) (paths : List Path) :
    p.notify home root paths = p.run ((invalidationsFor home root paths).calls.map .invalidate) := by
  rw [notify, applyInvalidations, run, List.foldl_map]
  rfl

/-- An invalidation leaves loads and callers as they are. -/
theorem run_invalidations (p : Provider ε) (scopes : List (Option String)) :
    (p.run (scopes.map .invalidate)).loads = p.loads ∧
      (p.run (scopes.map .invalidate)).callers = p.callers := by
  induction scopes generalizing p with
  | nil => exact ⟨rfl, rfl⟩
  | cons scope scopes ih =>
    obtain ⟨hloads, hcallers⟩ := ih (p.invalidate scope)
    cases scope <;> exact ⟨hloads, hcallers⟩

/-- To tell a provider of changed paths leaves its loads and callers as they are. -/
theorem notify_spares {p : Provider ε} (hsound : Sound p) (home : Place) (root : Path) (paths : List Path) :
    Sound (p.notify home root paths) ∧ (p.notify home root paths).catalogue = p.catalogue ∧
      (p.notify home root paths).loads = p.loads ∧ (p.notify home root paths).callers = p.callers := by
  rw [notify_eq_run]
  exact ⟨sound_run hsound _, catalogue_run p _, run_invalidations p _⟩

/-- After invalidations of which one covers a slug, all that there is for the slug comes from later loads. -/
theorem since_invalidations {p : Provider ε} (hsound : Sound p) {scopes : List (Option String)} {slug : String}
    (h : ∃ scope ∈ scopes, (Event.invalidate scope : Event ε).invalidates slug = true) :
    Since p.loads.length slug (Late p) (p.run (scopes.map .invalidate)) := by
  obtain ⟨scope, hscope, hinvalidates⟩ := h
  obtain ⟨before, after, rfl⟩ := List.append_of_mem hscope
  obtain ⟨hloads, hcallers⟩ := run_invalidations p before
  have hbefore := sound_run hsound (before.map .invalidate)
  have hsince := since_invalidation hinvalidates (p.run (before.map .invalidate))
  rw [hloads, show Late (p.run (before.map .invalidate)) = Late p by unfold Late; rw [hcallers]] at hsince
  rw [List.map_append, List.map_cons, run_append]
  exact since_run (sound_step hbefore _) hsince (after.map .invalidate)

end Provider

/-! ## Sites after a build -/

namespace Live

/-- A site of compiled pages that has been opened after a build, and of which nobody has asked anything. -/
structure Opened (o : Live) : Prop where
  rebuildable : Rebuildable o.rules (o.tree.IsPage o.rules.root) o.tree
  compiled : ∃ modules, o.site.server.backend = .compiled modules
  loads : ∀ n, o.tree.IsPage o.rules.root n → ∀ tree,
    o.site.server.backend.load tree (keyFor o.rules.keyStart n.slug)
      = (importArtifact tree (o.rules.modulePath n)).mapError .importing
  resolves : ∀ n, o.tree.IsPage o.rules.root n →
    o.provider.resolve n.slug = .ok (keyFor o.rules.keyStart n.slug)
  provider : o.provider = .initial o.provider.catalogue
  upToDate : ∀ n, o.tree.IsPage o.rules.root n → UpToDate o.rules o.tree n
  reads : o.reads = []
  watcher : o.watcher = .idle

/-- After a build a site can be opened. -/
theorem opened_of_built {s : Settings} {tree : FileTree} {modules : List (String × Json)}
    (h : Built s.buildRules tree modules) (hformats : s.keyFormats = defaultKeyFormats) :
    ∃ site, Site.start tree s false = .ok site ∧ site.settings = s ∧
      Opened { tree := tree, site := site } := by
  obtain ⟨ns, hstart, hns⟩ := Server.start_compiled h
  rw [hformats] at hstart
  refine ⟨⟨s, _⟩, by rw [Site.start, hstart]; rfl, rfl, h.rebuildable, ⟨_, rfl⟩, fun n hn tree => ?_,
    fun n hn => ?_, rfl, h.upToDate, rfl, rfl⟩
  · change Backend.load tree (keyFor s.contentAlias n.slug)
      (.compiled (keyedPages s.contentAlias s.buildRules.modulePath ns)) = _
    rw [Backend.load, lookup_keyedPages ((hns n).2 hn)]
    rfl
  · exact Backend.resolve_serve (Backend.keys_compiled _ _ ns) ((hns n).2 hn)

/-- An act that overwrites or reports sources that were there at first, if it has to do with sources. -/
def Act.IsProper (o : Live) : Act → Prop
  | .modify n _ _ => o.tree.IsPage o.rules.root n
  | .report paths => ∀ p ∈ changedPaths paths, ∃ n, o.tree.IsPage o.rules.root n ∧ o.rules.Leads o.tree p n
  | _ => True

/-- What is always so in a site that is watched. -/
structure Watched (o l : Live) : Prop where
  settings : l.site.settings = o.site.settings
  backend : l.site.server.backend = o.site.server.backend
  catalogue : l.provider.catalogue = o.provider.catalogue
  directories : l.tree.HasDirectoriesOf o.tree
  rebuildable : Rebuildable o.rules (o.tree.IsPage o.rules.root) l.tree
  sound : Provider.Sound l.provider
  called : ∀ (id : Nat) load key number, l.provider.loads[id]? = some load →
    load.stage = .waiting key number → o.provider.resolve load.slug = .ok key
  known : ∀ e ∈ l.reads, e.1 < l.provider.loads.length
  working : ∀ batch left page, l.watcher = .rebuilding batch left page →
    (∀ p ∈ batch, p.IsOfSource ∧ ∃ n, o.tree.IsPage o.rules.root n ∧ o.rules.Leads o.tree p n) ∧
      left ⊆ batch ∧ ∀ r, page = some r → r.Suits o.rules (o.tree.IsPage o.rules.root) l.tree

theorem Opened.watched {o : Live} (h : o.Opened) : Watched o o where
  settings := rfl
  backend := rfl
  catalogue := rfl
  directories := .refl _
  rebuildable := h.rebuildable
  sound := by rw [h.provider]; exact Provider.sound_initial _
  called id load key number hload := by rw [h.provider] at hload; simp [Provider.initial] at hload
  known e he := by simp [h.reads] at he
  working batch left page hw := by simp [h.watcher] at hw

/-! ## What an act does -/

section

variable {o l l' : Live}

theorem Watched.rules_eq (h : Watched o l) : l.rules = o.rules := by
  rw [rules, rules, h.settings]

theorem Watched.leads (h : Watched o l) {p : Path} {n : PageName} (hp : o.rules.Leads o.tree p n) :
    o.rules.Leads l.tree p n := by
  rw [BuildRules.Leads, h.directories.home]
  exact FileTree.locate_mono h.directories hp

/-- What an act can do. -/
inductive Move (o l : Live) : Act → Live → Prop where
  /-- Nothing happens. A watcher that works on a batch always does something. -/
  | still {act : Act} (rests : act = .watch → ∀ batch left page, l.watcher ≠ .rebuilding batch left page) :
      Move o l act l
  | edited {n : PageName} {bytes : List UInt8} {modified : Int} {tree : FileTree}
      (page : o.tree.IsPage o.rules.root n)
      (alters : FileTree.Alters (· = o.rules.root.place l.tree.home ++ n.source) l.tree tree)
      (opens : FileTree.Opens (fun _ => False) l.tree tree) (source : tree.HasSource o.rules.root n bytes modified) :
      Move o l (.modify n bytes modified) { l with tree := tree }
  | reported {paths : List String} (idle : l.watcher = .idle) :
      Move o l (.report paths)
        { l with watcher := .rebuilding (changedPaths paths) (changedPaths paths) none }
  /-- The text of a module is made. -/
  | begun {batch rest : List Path} {p : Path} {n : PageName} {listed : List (String × Json)} {text : String}
      (watcher : l.watcher = .rebuilding batch (p :: rest) none) (page : o.tree.IsPage o.rules.root n)
      (leads : o.rules.Leads o.tree p n) (listing : Manifest.IsListing listed)
      (makes : moduleText o.rules l.tree p = .ok text) :
      Move o l .watch { l with
        watcher := .rebuilding batch rest
          (some ⟨n.slug, Json.toEntries listed, .drafting text.toList (modifiedTime l.tree p)⟩) }
  /-- A source does not compile. -/
  | failed {batch rest : List Path} {p : Path} {e : CompileError}
      (watcher : l.watcher = .rebuilding batch (p :: rest) none)
      (fails : moduleText o.rules l.tree p = .error (.compile e)) :
      Move o l .watch { l with watcher := .rebuilding batch rest none }
  /-- A source makes no text, though it is not said not to compile. -/
  | escaped {batch rest : List Path} {p : Path} {e : BuildError}
      (watcher : l.watcher = .rebuilding batch (p :: rest) none)
      (escapes : moduleText o.rules l.tree p = .error e) (uncaught : ∀ cause, e ≠ .compile cause) :
      Move o l .watch { l with watcher := .stopped e }
  | advanced {batch left : List Path} {r : Rebuild} {n : PageName} {next : Option Rebuild} {tree : FileTree}
      (watcher : l.watcher = .rebuilding batch left (some r)) (page : o.tree.IsPage o.rules.root n)
      (slug : r.slug = n.slug) (advance : r.advance o.rules l.tree = .ok next tree)
      (advances : r.Advances o.rules n l.tree next tree) :
      Move o l .watch { l with tree := tree, watcher := .rebuilding batch left next }
  | broken {batch left : List Path} {r : Rebuild} {e : BuildError} {tree : FileTree}
      (watcher : l.watcher = .rebuilding batch left (some r))
      (breaks : r.advance o.rules l.tree = .error e tree)
      (alters : FileTree.Alters (fun _ => False) l.tree tree) :
      Move o l .watch { l with tree := tree, watcher := .stopped e }
  | applied {batch : List Path} (watcher : l.watcher = .rebuilding batch [] none) :
      Move o l .watch (l.notify batch)
  | read {id : Nat} {load : Load LoaderError} {key : String} {number : Nat}
      (there : l.provider.loads[id]? = some load) (waiting : load.stage = .waiting key number) :
      Move o l (.read id)
        { l with reads := l.reads ++ [(id, o.site.server.backend.load l.tree key)] }
  | served {act : Act} {e : Provider.Event LoaderError} (event : act.event? l = some e) :
      Move o l act (l.withProvider (l.provider.step e))

theorem modify_move (h : Watched o l) {n : PageName} (hn : o.tree.IsPage o.rules.root n)
    (bytes : List UInt8) (modified : Int) : Move o l (.modify n bytes modified) (l.modify n bytes modified) := by
  unfold modify
  split
  · next tree hwrite =>
    rw [h.rules_eq] at hwrite
    obtain ⟨halters, hread⟩ := FileTree.write_ok h.rebuildable.proper
      (n.isSpelled_source (Path.isSpelled_ofText _)) hwrite
    rw [n.place_source] at halters
    exact .edited hn halters (FileTree.opens_write hwrite) (BuildRules.hasSource_of_read hread)
  · exact .still (by simp)

theorem begin_move (h : Watched o l) {batch rest : List Path} {p : Path}
    (hw : l.watcher = .rebuilding batch (p :: rest) none) :
    Move o l .watch (l.workOn batch rest (Rebuild.start l.rules p)) := by
  obtain ⟨hbatch, hleft, -⟩ := h.working _ _ _ hw
  obtain ⟨-, n, hn, hleads⟩ := hbatch p (hleft List.mem_cons_self)
  obtain ⟨listed, hlisting, hstart⟩ := Rebuild.start_eq h.rebuildable hn (h.leads hleads)
  unfold workOn
  rw [h.rules_eq, hstart]
  cases htext : moduleText o.rules l.tree p with
  | ok text => exact .begun hw hn hleads hlisting htext
  | error e =>
    cases e with
    | compile cause => exact .failed hw htext
    | _ => exact .escaped hw htext (by simp)

theorem advance_move (h : Watched o l) {batch left : List Path} {r : Rebuild}
    (hw : l.watcher = .rebuilding batch left (some r)) :
    Move o l .watch (l.workOn batch left (r.advance l.rules)) := by
  obtain ⟨-, -, hsuits⟩ := h.working _ _ _ hw
  have hr := hsuits r rfl
  have ⟨⟨n, hn, hslug, _⟩, _⟩ := hr
  have hout : o.rules.out.IsSpelled := Path.isSpelled_ofText _
  unfold workOn
  rw [h.rules_eq]
  cases hadvance : r.advance o.rules l.tree with
  | ok next tree =>
    obtain ⟨n, hn, hslug, hadvances⟩ := hr.advances h.rebuildable hout hadvance
    exact .advanced hw hn hslug hadvance hadvances
  | error e tree =>
    obtain ⟨⟨cause, rfl⟩, halters⟩ := Rebuild.advance_error h.rebuildable.proper hout hslug hadvance
    exact .broken hw hadvance halters

theorem watch_move (h : Watched o l) : Move o l .watch l.watch := by
  unfold watch
  split
  · next batch left page hw => exact advance_move h hw
  · next batch p rest hw => exact begin_move h hw
  · next batch hw => exact .applied hw
  · next hadvance hbegin happly =>
    refine .still fun _ batch left page hw => ?_
    cases page with
    | some page => exact hadvance batch left page hw
    | none =>
      cases left with
      | nil => exact happly batch hw
      | cons p rest => exact hbegin batch p rest hw

theorem report_move (ho : o.Opened) (h : Watched o l) (paths : List String) :
    Move o l (.report paths) (l.takeUp (changedPaths paths)) := by
  obtain ⟨modules, hcompiled⟩ := ho.compiled
  have hsome : l.site.rebuilding.isSome = true := by
    rw [Site.rebuilding, h.backend, hcompiled]
    rfl
  unfold takeUp
  split
  · next hidle =>
    rw [if_pos hsome]
    exact .reported hidle
  · exact .still (by simp)

theorem read_move (h : Watched o l) (id : Nat) : Move o l (.read id) (l.read id) := by
  unfold read
  split
  · next slug key number callers hload =>
    rw [h.backend]
    exact .read hload rfl
  · exact .still (by simp)

/-- Every act does one of these things. -/
theorem Watched.move (ho : o.Opened) (h : Watched o l) {act : Act} (hact : act.IsProper o) :
    Move o l act (l.step act) := by
  cases act with
  | modify n bytes modified => exact modify_move h hact bytes modified
  | report paths => exact report_move ho h paths
  | watch => exact watch_move h
  | read id => exact read_move h id
  | _ =>
    unfold step
    dsimp only
    split
    · next e he => exact .served he
    · exact .still (by simp)

/-! ## What stays so -/

/-- Other files, and another watcher. -/
theorem Watched.withTree (h : Watched o l) {tree : FileTree} (hdirectories : tree.HasDirectoriesOf l.tree)
    (hrebuildable : Rebuildable o.rules (o.tree.IsPage o.rules.root) tree) {watcher : Watcher}
    (hworking : ∀ batch left page, watcher = .rebuilding batch left page →
      (∃ left' page', l.watcher = .rebuilding batch left' page' ∧ left ⊆ left') ∧
        ∀ r, page = some r → r.Suits o.rules (o.tree.IsPage o.rules.root) tree) :
    Watched o { l with tree := tree, watcher := watcher } where
  settings := h.settings
  backend := h.backend
  catalogue := h.catalogue
  directories := hdirectories.trans h.directories
  rebuildable := hrebuildable
  sound := h.sound
  called := h.called
  known := h.known
  working batch left page hw := by
    obtain ⟨⟨left', page', hbefore, hleft⟩, hsuits⟩ := hworking batch left page hw
    obtain ⟨hbatch, hleft', -⟩ := h.working _ _ _ hbefore
    exact ⟨hbatch, fun p hp => hleft' (hleft hp), hsuits⟩

theorem Watched.withProvider (h : Watched o l) {p : Provider LoaderError} (hsound : Provider.Sound p)
    (hcatalogue : p.catalogue = l.provider.catalogue) (hlength : l.provider.loads.length ≤ p.loads.length)
    (hcalled : ∀ (id : Nat) load key number, p.loads[id]? = some load →
      load.stage = .waiting key number → o.provider.resolve load.slug = .ok key) :
    Watched o (l.withProvider p) where
  settings := h.settings
  backend := h.backend
  catalogue := hcatalogue.trans h.catalogue
  directories := h.directories
  rebuildable := h.rebuildable
  sound := hsound
  called := hcalled
  known e he := Nat.lt_of_lt_of_le (h.known e he) hlength
  working := h.working

/-- A load that waits has called the loader for its key. -/
theorem called_step (h : Watched o l) (e : Provider.Event LoaderError) {id : Nat} {load : Load LoaderError}
    {key : String} {number : Nat} (hload : (l.provider.step e).loads[id]? = some load)
    (hs : load.stage = .waiting key number) : o.provider.resolve load.slug = .ok key := by
  have hstep := Provider.loadStep l.provider e id
  rw [hload] at hstep
  generalize hbefore : l.provider.loads[id]? = before at hstep
  cases hstep with
  | same => exact h.called id load key number hbefore hs
  | registered => simp at hs
  | @joined load => exact h.called id load key number hbefore hs
  | @moved load stage move =>
    obtain rfl : stage = .waiting key number := hs
    generalize hwas : load.stage = was at move
    cases move with
    | called _ _ known => exact (Provider.resolve_eq_of_catalogue h.catalogue _).symm.trans known

theorem Watched.serve (h : Watched o l) (e : Provider.Event LoaderError) :
    Watched o (l.withProvider (l.provider.step e)) :=
  h.withProvider (Provider.sound_step h.sound e) (Provider.catalogue_step _ e)
    (Provider.loads_length_step _ e) fun _ _ _ _ hload hs => called_step h e hload hs

theorem Watched.applied (h : Watched o l) (batch : List Path) : Watched o (l.notify batch) := by
  obtain ⟨hsound, hcatalogue, hloads, -⟩ :=
    Provider.notify_spares h.sound l.tree.home (.ofText l.site.settings.contentRoot) batch
  have hprovider := h.withProvider hsound hcatalogue (Nat.le_of_eq (congrArg List.length hloads).symm)
    (hloads.symm ▸ h.called)
  exact { hprovider with working := fun _ _ _ hw => by simp [notify] at hw }

/-- What is overwritten is the source of a page. -/
theorem rebuildable_edited (h : Watched o l) {n : PageName} {bytes : List UInt8} {modified : Int}
    {tree : FileTree} (halters : FileTree.Alters (· = o.rules.root.place l.tree.home ++ n.source) l.tree tree)
    (hsource : tree.HasSource o.rules.root n bytes modified) :
    Rebuildable o.rules (o.tree.IsPage o.rules.root) tree := by
  refine h.rebuildable.alters halters (fun m hm => ?_) (fun m hm => ?_) (source_ne_manifest _ _).symm
  · by_cases hmn : m = n
    · exact hmn ▸ ⟨bytes, modified, hsource⟩
    · exact (halters.isPage_iff (source_ne_source hmn)).2 (h.rebuildable.sources m hm)
  · exact (halters.isFileAt_iff (source_ne_module _ _ m).symm).2 (h.rebuildable.modules m hm)

/-- Whatever an act does, a site stays as it always is. -/
theorem Watched.next (h : Watched o l) {act : Act} (hact : act.IsProper o) (hmove : Move o l act l') :
    Watched o l' := by
  have hworking := h.working
  cases hmove with
  | still => exact h
  | edited page alters opens source =>
    refine h.withTree alters.directories (rebuildable_edited h alters source) fun batch left page hw => ?_
    refine ⟨⟨left, page, hw, List.Subset.refl _⟩, fun r hr => ?_⟩
    exact ((hworking _ _ _ hw).2.2 r hr).alters alters fun m => (source_ne_draft _ _ m).symm
  | reported idle =>
    refine { h with working := fun batch left page hw => ?_ }
    obtain ⟨rfl, rfl, rfl⟩ := Watcher.rebuilding.inj hw
    exact ⟨fun p hp => ⟨isOfSource_of_mem_changedPaths hp, hact p hp⟩, List.Subset.refl _, by simp⟩
  | @begun batch rest p n listed text watcher page leads listing makes =>
    refine h.withTree (.refl _) h.rebuildable fun batch left page hw => ?_
    obtain ⟨rfl, rfl, rfl⟩ := Watcher.rebuilding.inj hw
    refine ⟨⟨_, _, watcher, List.subset_cons_self _ _⟩, fun r hr => ?_⟩
    obtain rfl := Option.some.inj hr
    exact ⟨⟨n, page, rfl, by simp⟩, listed, listing, rfl⟩
  | failed watcher fails =>
    refine h.withTree (.refl _) h.rebuildable fun batch left page hw => ?_
    obtain ⟨rfl, rfl, rfl⟩ := Watcher.rebuilding.inj hw
    exact ⟨⟨_, _, watcher, List.subset_cons_self _ _⟩, by simp⟩
  | escaped watcher escapes uncaught =>
    exact h.withTree (.refl _) h.rebuildable fun _ _ _ hw => by simp at hw
  | advanced watcher page slug advance advances =>
    obtain ⟨hrebuildable, hsuits⟩ :=
      h.rebuildable.advance ((hworking _ _ _ watcher).2.2 _ rfl) page slug advances
    refine h.withTree advances.directories hrebuildable fun batch left page hw => ?_
    obtain ⟨rfl, rfl, rfl⟩ := Watcher.rebuilding.inj hw
    exact ⟨⟨_, _, watcher, List.Subset.refl _⟩, hsuits⟩
  | broken watcher breaks alters =>
    refine h.withTree alters.directories ?_ fun _ _ _ hw => by simp at hw
    exact h.rebuildable.alters alters
      (fun m hm => (alters.isPage_iff not_false).2 (h.rebuildable.sources m hm))
      (fun m hm => (alters.isFileAt_iff not_false).2 (h.rebuildable.modules m hm)) not_false
  | applied => exact h.applied _
  | read there waiting =>
    refine { h with known := fun e he => ?_ }
    rcases List.mem_append.1 he with he | he
    · exact h.known e he
    · obtain rfl := List.mem_singleton.1 he
      exact (List.getElem?_eq_some_iff.1 there).1
  | served event => exact h.serve _

theorem Watched.step (ho : o.Opened) (h : Watched o l) {act : Act} (hact : act.IsProper o) :
    Watched o (l.step act) :=
  h.next hact (h.move ho hact)

end

end Live

end Folio

import Folio.Proofs.Server.Agreement
import Folio.Proofs.Server.Renewal
import Folio.Proofs.Server.Rounds

set_option autoImplicit false

/-! # Reloading serves the newest version

While a site of compiled pages is watched, its sources are overwritten, changes are reported in batches, the
watcher rebuilds pages, loaders read modules, and callers come and go, in any order. Who asks for a page after a
batch has been applied gets an artifact that is at least as new as the newest version of its source that
compiled by then (`reload_serves_newest`). A module may be loaded just before it is replaced; this does no harm,
since the provider forgets the page only after the module is there. -/

namespace Folio

namespace Live

open Provider

/-! ## Versions -/

/-- A version of the source of a page compiles to an artifact: the one that was there at first, or one that was
    there when the source had its turn. Versions are counted by the acts that came before. -/
inductive CompiledAt (o : Live) (acts : List Act) (n : PageName) : Nat → Artifact → Prop where
  | first {a : Artifact}
      (compiles : compileFile o.rules.compiling o.tree (o.rules.sourcePath n) (some o.rules.root) = .ok a) :
      CompiledAt o acts n 0 a
  | turn {k : Nat} {p : Path} {a : Artifact} (turn : o.Turn acts k p) (leads : o.rules.Leads o.tree p n)
      (compiles : compileFile o.rules.compiling (o.runTo acts k).tree p (some o.rules.root) = .ok a) :
      CompiledAt o acts n (k + 1) a

/-- A version of a page compiles to an artifact, and is not older than the one with a number. -/
def CompiledFrom (o : Live) (acts : List Act) (n : PageName) (m : Nat) (a : Artifact) : Prop :=
  ∃ k, m ≤ k ∧ CompiledAt o acts n k a

/-- An act cancels a caller. -/
def Cancels (l : Live) (act : Act) (id : Nat) : Prop :=
  ∃ e, act.event? l = some e ∧ l.provider.Cancels e id

/-- Whether an act is one of cancelling. -/
def Act.isCancelling : Act → Bool
  | .cancelCaller _ | .cancelCollection _ => true
  | _ => false

theorem not_cancels {l : Live} {act : Act} {id : Nat} (h : act.isCancelling = false) : ¬ l.Cancels act id := by
  rintro ⟨e, hevent, hcancels⟩
  have hcancelling : e = .cancelCaller id ∨ ∃ k, e = .cancelCollection k :=
    hcancels.imp_right fun ⟨k, _, _, _, heq, _⟩ => ⟨k, heq⟩
  cases act with
  | answer load =>
    obtain ⟨result, -, rfl⟩ := Option.map_eq_some_iff.1 hevent
    simp at hcancelling
  | cancelCaller | cancelCollection => cases h
  | _ =>
    obtain rfl | ⟨k, rfl⟩ := hcancelling <;> simp [Act.event?] at hevent

/-- The text of a module is that of the artifact to which its source compiles. -/
theorem exists_of_moduleText {rules : BuildRules} {tree : FileTree} {p : Path} {n : PageName} {text : String}
    (hslug : pathSlug tree.home p (some rules.root) = n.slug) (h : moduleText rules tree p = .ok text) :
    ∃ a, compileFile rules.compiling tree p (some rules.root) = .ok a ∧ a.WellFormed ∧
      PageModule.emit a (sourceLabel n.slug) = .ok text := by
  obtain ⟨bytes, modified, hread, a, hcompiles, hemit⟩ := moduleText_eq_ok_iff.1 h
  exact ⟨a, compileFile_eq_ok_iff.2 ⟨bytes, modified, hread, hcompiles⟩, hcompiles.wellFormed, hslug ▸ hemit⟩

section

variable {o : Live} {acts : List Act} {n : PageName} (ho : o.Opened) (hacts : ∀ act ∈ acts, act.IsProper o)
include ho hacts

/-- What is made of a source in its turn is the module of a version. -/
theorem textOf_of_turn {m k : Nat} (hm : m ≤ k + 1) {p : Path} (hturn : o.Turn acts k p)
    (hleads : o.rules.Leads o.tree p n) {text : String}
    (htext : moduleText o.rules (o.runTo acts k).tree p = .ok text) :
    TextOf n (CompiledFrom o acts n m) text := by
  have h := watched_of_act ho hacts hturn.1
  obtain ⟨a, hcompile, hwell, hemit⟩ := exists_of_moduleText (h.rebuildable.pathSlug_eq (h.leads hleads)) htext
  exact ⟨a, ⟨k + 1, hm, .turn hturn hleads hcompile⟩, hwell, hemit⟩

theorem makesGood_runTo {m k : Nat} (hm : m ≤ k + 1) {act : Act} (hact : acts[k]? = some act) :
    MakesGood o n (TextOf n (CompiledFrom o acts n m)) (o.runTo acts k) act := by
  rintro batch rest p text rfl hw hleads htext
  exact textOf_of_turn ho hacts hm ⟨hact, batch, rest, hw⟩ hleads htext

variable (hn : o.tree.IsPage o.rules.root n) (hservable : n.IsServable)
include hn

omit hacts in
/-- At first the module of a page is that of the first version. -/
theorem serving_first : Serving o n (CompiledFrom o acts n 0) 0 (Late o.provider) o := by
  obtain ⟨bytes, modified, text, time, hsource, ⟨a, hcompiles, hemit⟩, hmodule⟩ := (ho.upToDate n hn).made
  have hread := BuildRules.read_of_hasSource ho.rebuildable.proper ho.rebuildable.root hsource
  have hcompile : compileFile o.rules.compiling o.tree (o.rules.sourcePath n) (some o.rules.root) = .ok a := by
    refine compileFile_eq_ok_iff.2 ⟨bytes, modified, hread, ?_⟩
    rw [pathSlug_sourcePath ho.rebuildable.root n]
    exact hcompiles
  have hloads : o.provider.loads = [] := by rw [ho.provider]; rfl
  refine ⟨prepares_of_watcher (by simp [ho.watcher]),
    ⟨text, time, ⟨a, ⟨0, Nat.le_refl 0, .first hcompile⟩, hcompiles.wellFormed, hemit⟩, hmodule⟩, ?_, ?_, ?_, ?_⟩
  · rw [ho.provider]
    exact ⟨Nat.zero_le _, by simp [initial], by simp [initial], by simp [initial], by simp [initial]⟩
  all_goals simp [hloads]

include hservable

theorem serving_later {first m k : Nat} {late : Nat → Prop} {start : Nat} (hstart : m ≤ start + 1)
    (hs : Serving o n (CompiledFrom o acts n m) first late (o.runTo acts start)) (hk : start ≤ k)
    (hlength : k ≤ acts.length) : Serving o n (CompiledFrom o acts n m) first late (o.runTo acts k) :=
  later_induction (I := fun k => Serving o n (CompiledFrom o acts n m) first late (o.runTo acts k)) hs
    (fun _ _ hj hact h => h.next hn hservable ho (watched_of_act ho hacts hact)
      (makesGood_runTo ho hacts (Nat.le_trans hstart (Nat.succ_le_succ hj)) hact) (move_runTo ho hacts hact))
    hk hlength

omit hservable in
/-- A version that compiles is on its way to callers. -/
theorem renewing_of_compiledAt {m : Nat} {b : Artifact} (h : CompiledAt o acts n m b) :
    m ≤ acts.length ∧ Renewing o n (CompiledFrom o acts n m) (o.runTo acts m) := by
  cases h with
  | first => exact ⟨Nat.zero_le _, .serving (serving_first ho hn)⟩
  | @turn k p b turn leads compiles =>
    have ⟨hact, batch, rest, hw⟩ := turn
    refine ⟨(List.getElem?_eq_some_iff.1 hact).1, ?_⟩
    have hmakes := makesGood_runTo (n := n) ho hacts (Nat.le_refl (k + 1)) hact
    have hmove := move_runTo ho hacts hact
    have hw' := (watched_of_act ho hacts hact).working _ _ _ hw
    generalize o.runTo acts (k + 1) = l' at hmove
    cases hmove with
    | still rests => exact absurd hw (rests rfl _ _ _)
    | @begun batch' rest' p' n' listed text watcher page leads' listing makes =>
      obtain ⟨rfl, hpaths, -⟩ := Watcher.rebuilding.inj (hw.symm.trans watcher)
      obtain ⟨rfl, rfl⟩ := List.cons.inj hpaths
      -- a path leads to one source only
      obtain rfl : n = n' := PageName.source_inj (List.append_cancel_left (Except.ok.inj (leads.symm.trans leads')))
      have hbegun : Move o (o.runTo acts k) .watch _ := .begun watcher page leads listing makes
      refine .due (prepares_next (prepares_of_watcher (by simp [hw])) hmakes hbegun)
        ⟨_, _, _, rfl, p, hw'.2.1 List.mem_cons_self, leads⟩ (.inl ⟨_, _, _, rfl, rfl, by simp⟩)
    | failed watcher fails =>
      obtain ⟨rfl, hpaths, -⟩ := Watcher.rebuilding.inj (hw.symm.trans watcher)
      obtain ⟨rfl, rfl⟩ := List.cons.inj hpaths
      rw [moduleText, compiles] at fails
      obtain ⟨cause, -, hcause⟩ := Except.mapError_eq_error_iff.1 fails
      cases hcause
    | escaped => exact .stopped rfl
    | advanced watcher => simp [hw] at watcher
    | broken watcher => simp [hw] at watcher
    | applied watcher => simp [hw] at watcher
    | served event => simp [Act.event?] at event

/-- Once a batch is applied, a version that has compiled by then is served to all who come later. -/
theorem serving_of_applies {t m : Nat} {batch : List Path} {b : Artifact} (ht : o.Applies acts t batch)
    (hmt : m ≤ t) (h : CompiledAt o acts n m b) : ∃ first,
      Serving o n (CompiledFrom o acts n m) first (Late (o.runTo acts (t + 1)).provider)
        (o.runTo acts (t + 1)) := by
  have hidle : (o.runTo acts (t + 1)).watcher = .idle := by
    rw [runTo_succ ht.1]
    change (watch _).watcher = _
    rw [watch, ht.2]
    rfl
  have hlater : Renewing o n (CompiledFrom o acts n m) (o.runTo acts (t + 1)) :=
    later_induction (I := fun k => Renewing o n (CompiledFrom o acts n m) (o.runTo acts k))
      (renewing_of_compiledAt ho hacts hn h).2
      (fun _ _ hj hact hr => hr.next hn hservable ho (watched_of_act ho hacts hact)
        (makesGood_runTo ho hacts (Nat.le_succ_of_le hj) hact) (move_runTo ho hacts hact))
      (Nat.le_succ_of_le hmt) (List.getElem?_eq_some_iff.1 ht.1).1
  cases hlater with
  | stopped watcher => simp [hidle] at watcher
  | due _ due =>
    obtain ⟨_, _, _, hw, -⟩ := due
    simp [hidle] at hw
  | serving serving => exact ⟨_, serving⟩

/-- No caller fails to get a page. -/
theorem succeeds_runTo {k : Nat} (hk : k ≤ acts.length) : Gives (Succeeds n) (o.runTo acts k).provider := by
  refine later_induction (I := fun k => Gives (Succeeds n) (o.runTo acts k).provider) (m := 0) ?_
    (fun j act _ hact h => ?_) (Nat.zero_le k) hk
  · change Gives (Succeeds n) o.provider
    rw [ho.provider]
    exact gives_initial _ _
  · have hj := Nat.le_of_lt (List.getElem?_eq_some_iff.1 hact).1
    have hs := serving_later ho hacts hn hservable (Nat.zero_le (0 + 1)) (serving_first ho hn)
      (Nat.zero_le j) hj
    exact succeeds_next hn ho (watched_runTo ho hacts hj) hs.renewed h (move_runTo ho hacts hact)

/-! ## Callers -/

omit hn hservable in
/-- A caller whom no act cancels does not end as cancelled. -/
theorem uncancelled_runTo {id : Nat} (hspared : ∀ k act, acts[k]? = some act → ¬ (o.runTo acts k).Cancels act id)
    {k : Nat} (hk : k ≤ acts.length) : Uncancelled (o.runTo acts k).provider id := by
  refine later_induction (I := fun k => Uncancelled (o.runTo acts k).provider id) (m := 0) ?_
    (fun j act _ hact h => ?_) (Nat.zero_le k) hk
  · change Uncancelled o.provider id
    rw [ho.provider]
    intro c hc
    simp [initial] at hc
  have hwatched := watched_of_act ho hacts hact
  have hmove := move_runTo ho hacts hact
  generalize o.runTo acts (j + 1) = l' at hmove
  cases hmove with
  | @applied batch watcher =>
    obtain ⟨-, -, -, hcallers⟩ :=
      notify_spares hwatched.sound (o.runTo acts j).tree.home (.ofText (o.runTo acts j).site.settings.contentRoot) batch
    exact fun c hc => h c ((congrArg (·[id]?) hcallers).symm.trans hc)
  | served event => exact uncancelled_step h fun hcancels => hspared j _ hact ⟨_, event, hcancels⟩
  | _ => exact h

/-- What a caller gets who asks for a page after a batch was applied. -/
theorem newest_of_late {t id : Nat} {batch : List Path} {c : Caller LoaderError} (ht : o.Applies acts t batch)
    (hlate : Late (o.runTo acts (t + 1)).provider id)
    (hspared : ∀ k act, acts[k]? = some act → ¬ (o.runTo acts k).Cancels act id)
    (hc : (o.run acts).provider.callers[id]? = some c) (hslug : c.slug = n.slug)
    {outcome : Outcome LoaderError Artifact} (hs : c.stage = .finished outcome) :
    ∃ a, outcome = .done a ∧ ∀ m b, m ≤ t → CompiledAt o acts n m b → CompiledFrom o acts n m a := by
  rw [← runTo_length] at hc
  have hlength := (List.getElem?_eq_some_iff.1 ht.1).1
  cases outcome with
  | cancelled => exact absurd hs (uncancelled_runTo ho hacts hspared (Nat.le_refl _) c hc).2
  | failed cause =>
    exact absurd rfl
      ((succeeds_runTo ho hacts hn hservable (Nat.le_refl _)).ended id c _ hc (.inr hs) hslug cause)
  | done a =>
    refine ⟨a, rfl, fun m b hm hb => ?_⟩
    obtain ⟨first, hserving⟩ := serving_of_applies ho hacts hn hservable ht hm hb
    have hend := (serving_later ho hacts hn hservable (Nat.le_succ_of_le (Nat.le_succ_of_le hm)) hserving hlength
      (Nat.le_refl _)).renewed
    obtain ⟨loadId, load, hfirst, hload, hown, hfinished⟩ := hend.since.ended id c a hlate hc hslug (.inr hs)
    obtain ⟨a', hfresh, heq⟩ := hend.finished loadId load _ hfirst hload hown hfinished
    exact Except.ok.inj heq ▸ hfresh

end

/-! ## The result -/

/-- What the reloading of a watched site does in a run. -/
structure Reloads (o : Live) (acts : List Act) : Prop where
  /-- Who asks for a page after a batch was applied, and is not cancelled, gets an artifact; it is that of a
      version at least as new as every one that compiled by then. -/
  newest : ∀ t batch n id c outcome, o.Applies acts t batch → o.tree.IsPage o.rules.root n → n.IsServable →
    Late (o.runTo acts (t + 1)).provider id →
    (∀ k act, acts[k]? = some act → ¬ (o.runTo acts k).Cancels act id) →
    (o.run acts).provider.callers[id]? = some c → c.slug = n.slug → c.stage = .finished outcome →
    ∃ a, outcome = .done a ∧ ∀ m b, m ≤ t → CompiledAt o acts n m b → CompiledFrom o acts n m a
  /-- When nothing can move, all who have asked have an outcome. -/
  ended : (o.run acts).provider.ready = [] → Prompt (o.run acts).provider → ∀ (id : Nat) c,
    (o.run acts).provider.callers[id]? = some c → ∃ outcome, c.stage = .finished outcome
  /-- Every source in a batch has its turn between the report of the batch and its application. -/
  turns : ∀ t batch, o.Applies acts t batch → ∃ r, Round o acts r t batch []
  /-- A version that does not compile at its turn changes nothing but what is left of the batch. -/
  spared : ∀ k p e, o.Turn acts k p →
    compileFile o.rules.compiling (o.runTo acts k).tree p (some o.rules.root) = .error (.compile e) →
    ∃ batch rest, (o.runTo acts k).watcher = .rebuilding batch (p :: rest) none ∧
      o.runTo acts (k + 1) = { o.runTo acts k with watcher := .rebuilding batch rest none }
  /-- As long as versions make texts or do not compile, the watcher never stops, and has applied its batch when
      it has done as much as it can do. -/
  goesOn : DraftsFree o o → Caught o acts →
    (∀ cause, (o.run acts).watcher ≠ .stopped cause) ∧
    ∀ k, k ≤ acts.length → (o.runTo acts k).watcher.work ≤ (acts.drop k).countP Act.isWatch →
      ∃ i, k ≤ i ∧ i ≤ acts.length ∧ (o.runTo acts i).watcher = .idle

theorem reloads_of_opened {o : Live} {acts : List Act} (ho : o.Opened) (hacts : ∀ act ∈ acts, act.IsProper o) :
    Reloads o acts where
  newest _ _ _ _ _ _ ht hn hservable hlate hspared hc hslug hs :=
    newest_of_late ho hacts hn hservable ht hlate hspared hc hslug hs
  ended hready hprompt id c hc := by
    have hsound := (watched_runTo ho hacts (Nat.le_refl acts.length)).sound
    rw [runTo_length] at hsound
    exact finished_of_quiet hsound hready hc fun loadId l key number _ hl => hprompt loadId l key number hl
  turns t batch ht := exists_round ho hacts (Nat.le_of_lt (List.getElem?_eq_some_iff.1 ht.1).1) _ _ _ ht.2
  spared _ _ _ hturn hfails := runTo_of_turn_error ho hacts hturn hfails
  goesOn hfree hcaught :=
    ⟨runTo_length o acts ▸ (running_runTo ho hacts hfree hcaught (Nat.le_refl _)).2,
      fun _ hk hwork => exists_idle ho hacts hfree hcaught hk hwork⟩

end Live

/-- After a build a site of compiled pages can be opened and watched. Whatever goes on then, as long as sources
    are only overwritten and reported: a page that is asked for by its slug after a batch has been applied is
    at least as new as the newest version of its source that compiled by then. A version that does not compile
    leaves everything as it was, and does not keep the watcher from later batches. -/
theorem reload_serves_newest {s : Settings} {tree tree' : FileTree} (hproper : tree.IsProper)
    (hroot : tree.isDirectory s.buildRules.root = true) (hformats : s.keyFormats = defaultKeyFormats)
    {built : List BuiltPage} (hbuild : build s.buildRules tree = .ok built tree') :
    ∃ site, Site.start tree' s false = .ok site ∧ site.settings = s ∧
      ∀ acts : List Live.Act, (∀ act ∈ acts, act.IsProper { tree := tree', site := site }) →
        Live.Reloads { tree := tree', site := site } acts := by
  obtain ⟨hbuilt, -, -⟩ := built_of_build hproper (Path.isSpelled_ofText s.outputDir) hroot hbuild
  obtain ⟨site, hstart, hsettings, hopened⟩ := Live.opened_of_built hbuilt hformats
  exact ⟨site, hstart, hsettings, fun acts hacts => Live.reloads_of_opened hopened hacts⟩

/-! ## A small site -/

namespace Live

open Provider

/-- A load that waits for its loader reaches its caller four turns after the answer, whatever the answer is. -/
theorem callers_run_answer (tree : FileTree) (settings : Settings) (backend : Backend) (watcher : Watcher)
    (catalogue : Catalogue) (cache : List (String × Artifact)) (inflight : List (String × Nat))
    (slug key : String) (number : Nat) (collections : List (Collection LoaderError))
    (calls : List (String × Nat)) :
    (run ⟨tree, ⟨settings, ⟨backend, ⟨catalogue, cache, inflight, [⟨slug, .waiting key number, [0]⟩],
        [⟨slug, none, .waiting 0⟩], collections, [], calls⟩⟩⟩, [], watcher⟩
      [.read 0, .answer 0, .turn, .turn, .turn, .turn]).provider.callers
      = [⟨slug, none, .finished (.ofResult ((backend.load tree key).mapError .loader))⟩] := by
  simp only [run, List.foldl_cons, List.foldl_nil, step, read, provider, Act.event?, withProvider,
    List.getElem?_cons_zero]
  generalize backend.load tree key = result
  -- settling is all that depends on the answer and on the loads that can be joined
  by_cases hjoined : inflight.lookup slug = some 0 <;> cases result <;>
    simp [hjoined, Provider.step, receive, setLoad, enqueue, turn, perform, turnLoad, finishLoad, settle, deliver,
      setCaller, turnCaller, finishCaller, Except.mapError]

end Live

/-- The page of the small site. -/
def smallPage : PageName where
  dirs := []
  stem := "a"
  dirs_names := by simp
  noSlash := by decide
  noNul := by decide

/-- The small site that is watched. -/
def smallLive : Live where
  tree := builtSite
  site := ⟨smallSettings, (Backend.compiled [("@pages/a.md", .ofText "o/a.py")]).serve "@pages//" defaultKeyFormats⟩

/-- The source of the page is overwritten and reported, the watcher applies the batch, and someone asks for the
    page. -/
def reloading : List Live.Act :=
  [.modify smallPage (Text.encodeUtf8 ['n', 'e', 'w']) 5, .report ["c/a.md"]] ++ List.replicate 5 .watch ++
    [.request "a", .turn, .turn]

/-- The page is loaded. -/
def loading : List Live.Act :=
  [.read 0, .answer 0, .turn, .turn, .turn, .turn]

theorem start_builtSite : Site.start builtSite smallSettings false = .ok smallLive.site := by
  have hlisted : listedModules builtSite (.ofText smallSettings.outputDir)
      = .ok [("@pages/a.md", .ofText "o/a.py")] := Except.toOption_eq_some_iff.1 (by decide +kernel)
  rw [Site.start, Server.start]
  simp only [Bool.false_eq_true, if_false, hlisted]
  rfl

/-- Where the page is, and what leads to it. -/
theorem places_smallPage : smallLive.rules.root.place builtSite.home ++ smallPage.source = ["c", "a.md"] ∧
    (builtSite.locate (.ofText "c/a.md")).toOption = some ["c", "a.md"] ∧
    builtSite.entry? ["c", "a.md"] = some (.file [0x41] 0) ∧ changedPaths ["c/a.md"] = [.ofText "c/a.md"] := by
  decide +kernel

theorem leads_smallPage : smallLive.rules.Leads builtSite (.ofText "c/a.md") smallPage := by
  rw [BuildRules.Leads, places_smallPage.1]
  exact Except.toOption_eq_some_iff.1 places_smallPage.2.1

theorem isPage_smallPage : builtSite.IsPage smallLive.rules.root smallPage := by
  refine ⟨[0x41], 0, ?_⟩
  rw [FileTree.HasSource, places_smallPage.1]
  exact places_smallPage.2.2.1

theorem isProper_reloading : ∀ act ∈ reloading ++ loading, act.IsProper smallLive := by
  have hpaths : changedPaths ["c/a.md"] = [.ofText "c/a.md"] := places_smallPage.2.2.2
  have hreport : ∀ p ∈ changedPaths ["c/a.md"],
      ∃ n, smallLive.tree.IsPage smallLive.rules.root n ∧ smallLive.rules.Leads smallLive.tree p n := by
    intro p hp
    rw [hpaths, List.mem_singleton] at hp
    exact ⟨smallPage, isPage_smallPage, hp ▸ leads_smallPage⟩
  simpa [reloading, loading, Live.Act.IsProper, or_imp, forall_and] using ⟨isPage_smallPage, hreport⟩

/-- What the watcher and the provider are at when the new version has its turn, at the end of the batch, and before the
    page is loaded. -/
theorem moments_reloading :
    (match (smallLive.runTo (reloading ++ loading) 2).watcher with
      | .rebuilding _ (p :: _) none => p == .ofText "c/a.md"
      | _ => false) = true ∧
    (compileFile smallLive.rules.compiling (smallLive.runTo (reloading ++ loading) 2).tree (.ofText "c/a.md")
      (some smallLive.rules.root)).toOption.isSome = true ∧
    (match (smallLive.runTo (reloading ++ loading) 6).watcher with
      | .rebuilding _ [] none => true
      | _ => false) = true ∧
    (smallLive.runTo (reloading ++ loading) 7).provider.callers.length = 0 ∧
    (match smallLive.run reloading with
      | ⟨_, ⟨_, ⟨_, ⟨_, _, _, [⟨slug, .waiting _ _, [0]⟩], [⟨asked, none, .waiting 0⟩], _, [], _⟩⟩⟩, [], _⟩ =>
        slug == "a" && asked == "a"
      | _ => false) = true := by
  decide +kernel

/-- The new version has its turn. -/
theorem exists_compiledAt_small : ∃ b, Live.CompiledAt smallLive (reloading ++ loading) smallPage 3 b := by
  obtain ⟨hturn, hcompiles, -⟩ := moments_reloading
  obtain ⟨b, hb⟩ := Option.isSome_iff_exists.1 hcompiles
  generalize hw : (smallLive.runTo (reloading ++ loading) 2).watcher = watcher at hturn
  split at hturn
  · next batch p rest =>
    obtain rfl := eq_of_beq hturn
    exact ⟨b, .turn ⟨rfl, batch, rest, hw⟩ leads_smallPage (Except.toOption_eq_some_iff.1 hb)⟩
  · cases hturn

/-- The watcher comes to the end of the batch. -/
theorem exists_applies_small : ∃ batch, smallLive.Applies (reloading ++ loading) 6 batch := by
  obtain ⟨-, -, hdone, -⟩ := moments_reloading
  generalize hw : (smallLive.runTo (reloading ++ loading) 6).watcher = watcher at hdone
  split at hdone
  · next batch => exact ⟨batch, rfl, hw⟩
  · cases hdone

/-- Who asks for the page ends. -/
theorem exists_finished_small : ∃ outcome,
    (smallLive.run (reloading ++ loading)).provider.callers[0]? = some ⟨"a", none, .finished outcome⟩ := by
  obtain ⟨-, -, -, -, hwaits⟩ := moments_reloading
  rw [Live.run, List.foldl_append]
  change ∃ outcome, ((smallLive.run reloading).run loading).provider.callers[0]? = _
  generalize smallLive.run reloading = l at hwaits
  split at hwaits
  · rw [Bool.and_eq_true, beq_iff_eq, beq_iff_eq] at hwaits
    obtain ⟨rfl, rfl⟩ := hwaits
    rw [loading, Live.callers_run_answer]
    exact ⟨_, rfl⟩
  · cases hwaits

theorem late_small : Provider.Late (smallLive.runTo (reloading ++ loading) 7).provider 0 := by
  obtain ⟨-, -, -, hnone, -⟩ := moments_reloading
  intro c hc
  exact absurd (List.getElem?_eq_some_iff.1 hc).1 (by simp [hnone])

/-- Who asks for the page after the batch has been applied gets the new version. -/
theorem smallSite_serves_newest :
    smallSite.IsProper ∧ smallSite.isDirectory smallSettings.buildRules.root = true ∧
    smallSettings.keyFormats = defaultKeyFormats ∧
    (∀ act ∈ reloading ++ loading, act.IsProper smallLive) ∧
    ∃ c a b, (smallLive.run (reloading ++ loading)).provider.callers[0]? = some c ∧
      c.stage = .finished (.done a) ∧ Live.CompiledAt smallLive (reloading ++ loading) smallPage 3 b ∧
      Live.CompiledFrom smallLive (reloading ++ loading) smallPage 3 a := by
  have hroot : smallSite.isDirectory smallSettings.buildRules.root = true := by decide
  obtain ⟨site, hstart, -, hreloads⟩ := reload_serves_newest isProper_smallSite hroot rfl build_smallSettings
  obtain rfl : smallLive.site = site := Except.ok.inj (start_builtSite.symm.trans hstart)
  have hnewest := (hreloads (reloading ++ loading) isProper_reloading).newest
  obtain ⟨b, hcompiled⟩ := exists_compiledAt_small
  obtain ⟨batch, happlies⟩ := exists_applies_small
  obtain ⟨outcome, hcaller⟩ := exists_finished_small
  have hspared : ∀ k act, (reloading ++ loading)[k]? = some act →
      ¬ (smallLive.runTo (reloading ++ loading) k).Cancels act 0 := by
    intro k act hact
    have hnone : (reloading ++ loading).any Live.Act.isCancelling = false := by decide
    exact Live.not_cancels (by simpa using List.any_eq_false.1 hnone act (List.mem_of_getElem? hact))
  obtain ⟨a, rfl, hnew⟩ := hnewest 6 batch smallPage 0 _ outcome happlies isPage_smallPage
    ⟨by decide, by decide⟩ late_small hspared hcaller (show "a" = smallPage.slug by decide) rfl
  exact ⟨isProper_smallSite, hroot, rfl, isProper_reloading, _, a, b, hcaller, rfl, hcompiled,
    hnew 3 b (by decide) hcompiled⟩

end Folio

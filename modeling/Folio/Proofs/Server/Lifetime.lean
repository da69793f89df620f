import Folio.Proofs.Server.Editing
import Folio.Proofs.Server.Reloading

set_option autoImplicit false

/-! # The life of a runtime

A runtime opens a site, has it watched or not, and serves until its body ends. Then the watcher is told to stop
and is waited for, and at last the provider is closed. What is pending when the provider has been closed comes
back into none of its tables. But the wait ends with whatever has stopped the watcher, and then the provider is
left as it is (`exit_clears_unless_stopped`): a change of a source to bytes that are no text is enough
(`exit_leaves_load`). -/

namespace Folio

/-- How far the life of a runtime is. -/
inductive Phase where
  | serving
  /-- The body has ended, whether it returned or raised; the watcher has been told to stop and is waited for. -/
  | leaving
  /-- All has been torn down. -/
  | left
  /-- The wait for the watcher has ended with what had stopped it, or with nothing when it was cancelled. -/
  | broken (cause : Option BuildError)

/-- Whether a life is over. -/
def Phase.isOver : Phase → Bool
  | left | broken _ => true
  | serving | leaving => false

/-- A site from its opening to its end. -/
structure Runtime where
  live : Live
  isWatched : Bool
  phase : Phase := .serving

namespace Runtime

/-- What can happen to a runtime. -/
inductive Act where
  /-- Something happens to the site. Nobody hears a report when no watcher is there. -/
  | site (h : Live.Happening)
  /-- The watch itself fails, as when there is no directory to watch. -/
  | fail (cause : BuildError)
  /-- The body ends. -/
  | leave
  /-- Who waits for the watcher looks whether it has ended. -/
  | wait
  /-- The wait for the watcher is cancelled, and the watcher with it. -/
  | cancel

variable (r : Runtime)

/-- The provider of the site. -/
def provider : Provider LoaderError :=
  r.live.provider

/-- Whether a watcher is there. -/
def hears : Bool :=
  r.isWatched && !r.phase.isOver

/-- The runtime with another watcher. -/
def withWatcher (watcher : Watcher) : Runtime :=
  { r with live := { r.live with watcher := watcher } }

/-- The provider is closed, which is the last thing to be done. -/
def close : Runtime :=
  { r with live := { r.live with site := r.live.site.close }, phase := .left }

/-- The runtime after an act. -/
def step : Act → Runtime
  | .site h => if h.isReport && !r.hears then r else { r with live := r.live.after h }
  | .fail cause =>
    match r.live.watcher with
    | .idle => if r.hears then r.withWatcher (.stopped cause) else r
    | _ => r
  | .leave =>
    match r.phase with
    | .serving => if r.isWatched then { r with phase := .leaving } else r.close
    | _ => r
  | .wait =>
    match r.phase, r.live.watcher with
    | .leaving, .idle => r.close
    | .leaving, .stopped cause => { r with phase := .broken (some cause) }
    | _, _ => r
  | .cancel =>
    match r.phase with
    | .leaving => { r.withWatcher .idle with phase := .broken none }
    | _ => r

/-- The runtime after some acts. -/
def run (acts : List Act) : Runtime :=
  acts.foldl step r

/-- The runtime after so many of some acts. -/
def runTo (acts : List Act) (k : Nat) : Runtime :=
  r.run (acts.take k)

/-- A runtime of a site that has just been opened. -/
def opened (tree : FileTree) (site : Site) (isWatched : Bool) : Runtime :=
  ⟨{ tree := tree, site := site }, isWatched, .serving⟩

/-- The life of a runtime ends with an act. -/
def Ends (o : Runtime) (acts : List Act) (k : Nat) : Prop :=
  k < acts.length ∧ (o.runTo acts k).phase.isOver = false ∧ (o.runTo acts (k + 1)).phase.isOver = true

/-! ## What an act does -/

/-- What an act can do. -/
inductive Move (r : Runtime) : Act → Runtime → Prop where
  | still {act : Act} : Move r act r
  | site {h : Live.Happening} (heard : h.isReport = true → r.hears = true) :
      Move r (.site h) { r with live := r.live.after h }
  | failed {cause : BuildError} (heard : r.hears = true) : Move r (.fail cause) (r.withWatcher (.stopped cause))
  | parted (phase : r.phase = .serving) (watched : r.isWatched = true) :
      Move r .leave { r with phase := .leaving }
  | closed {act : Act} (phase : r.phase.isOver = false) (rests : r.isWatched = true → r.live.watcher = .idle) :
      Move r act r.close
  | broken {cause : BuildError} (phase : r.phase = .leaving) (stopped : r.live.watcher = .stopped cause) :
      Move r .wait { r with phase := .broken (some cause) }
  | cancelled (phase : r.phase = .leaving) : Move r .cancel { r.withWatcher .idle with phase := .broken none }

variable {r}

theorem move (r : Runtime) (act : Act) : Move r act (r.step act) := by
  cases act with
  | site h =>
    rw [step]
    split
    · exact .still
    · next hheard => exact .site (by simpa using hheard)
  | fail cause =>
    rw [step]
    split
    · split
      · next hheard => exact .failed hheard
      · exact .still
    · exact .still
  | leave =>
    rw [step]
    split
    · next hphase =>
      split
      · next hwatched => exact .parted hphase hwatched
      · next hwatched => exact .closed (by rw [hphase]; rfl) fun h => absurd h hwatched
    · exact .still
  | wait =>
    rw [step]
    split
    · next hphase hidle => exact .closed (by rw [hphase]; rfl) fun _ => hidle
    · next hphase hstopped => exact .broken hphase hstopped
    · exact .still
  | cancel =>
    rw [step]
    split
    · next hphase => exact .cancelled hphase
    · exact .still

variable {o r' : Runtime} {act : Act} {acts : List Act}

theorem runTo_succ {k : Nat} (h : acts[k]? = some act) :
    o.runTo acts (k + 1) = (o.runTo acts k).step act := by
  rw [runTo, List.take_add_one, h, run, List.foldl_append]
  rfl

/-- What holds at a moment of a run, and is kept by every act from then on, holds at all later moments. -/
theorem later_induction {I : Nat → Runtime → Prop} {m : Nat} (start : I m (o.runTo acts m))
    (next : ∀ k act r', m ≤ k → acts[k]? = some act → Move (o.runTo acts k) act r' →
      I k (o.runTo acts k) → I (k + 1) r') {k : Nat} (hm : m ≤ k) (hk : k ≤ acts.length) :
    I k (o.runTo acts k) := by
  induction k, hm using Nat.le_induction with
  | base => exact start
  | succ k hm ih =>
    have hact : acts[k]? = some acts[k] := List.getElem?_eq_getElem hk
    rw [runTo_succ hact]
    exact next k _ _ hm hact (move _ _) (ih (Nat.le_of_lt hk))

/-! ## The provider -/

/-- To the provider every act is some events. -/
theorem Move.provider (hm : Move r act r') : ∃ events, r'.provider = r.provider.run events := by
  cases hm with
  | @site h => exact (r.live.effect h).provider
  | closed => exact ⟨[.invalidate none], rfl⟩
  | _ => exact ⟨[], rfl⟩

theorem Move.sound (hm : Move r act r') (hsound : r.provider.Sound) : r'.provider.Sound := by
  obtain ⟨events, hevents⟩ := hm.provider
  exact hevents ▸ Provider.sound_run hsound events

theorem Move.since (hm : Move r act r') (hsound : r.provider.Sound) {first : Nat} {slug : String}
    {late : Nat → Prop} (h : Provider.Since first slug late r.provider) :
    Provider.Since first slug late r'.provider := by
  obtain ⟨events, hevents⟩ := hm.provider
  exact hevents ▸ Provider.since_run hsound h events

/-- Whatever comes into the tables of a provider that has been closed is of loads that are registered later. -/
theorem since_close (r : Runtime) (slug : String) :
    Provider.Since r.provider.loads.length slug (Provider.Late r.provider) r.close.provider :=
  Provider.since_invalidation (e := .invalidate none) rfl r.provider

/-! ## The watcher -/

/-- What is always so in a runtime. -/
structure Kept (site : Site) (isWatched : Bool) (r : Runtime) : Prop where
  sound : r.provider.Sound
  watched : r.isWatched = isWatched
  leaving : r.phase = .leaving → isWatched = true
  rebuilding : r.live.site.rebuilding = site.rebuilding
  idle : isWatched = false → r.live.watcher = .idle
  rests : site.rebuilding = none → ∀ batch left page, r.live.watcher = .rebuilding batch left page →
    left = [] ∧ page = none

variable {site : Site} {isWatched : Bool}

theorem hears_eq_false (h : Kept site isWatched r) (hwatched : isWatched = false) : r.hears = false := by
  rw [hears, h.watched, hwatched]
  rfl

theorem Kept.next (h : Kept site isWatched r) (hm : Move r act r') : Kept site isWatched r' := by
  have hsound := hm.sound h.sound
  cases hm with
  | still => exact h
  | @site happening heard =>
    have heffect := r.live.effect happening
    refine ⟨hsound, h.watched, h.leaving, heffect.rebuilding.trans h.rebuilding, fun hwatched => ?_, fun hnone => ?_⟩
    · refine heffect.idle (h.idle hwatched) (eq_false_of_ne_true fun hreport => ?_)
      rw [hears_eq_false h hwatched] at heard
      exact absurd (heard hreport) (by simp)
    · exact heffect.rests (h.rebuilding.trans hnone) (h.rests hnone)
  | failed heard =>
    refine ⟨hsound, h.watched, h.leaving, h.rebuilding, fun hwatched => ?_, by simp [withWatcher]⟩
    rw [hears_eq_false h hwatched] at heard
    cases heard
  | parted phase watched =>
    exact ⟨hsound, h.watched, fun _ => h.watched.symm.trans watched, h.rebuilding, h.idle, h.rests⟩
  | closed => exact ⟨hsound, h.watched, nofun, h.rebuilding, h.idle, h.rests⟩
  | broken => exact ⟨hsound, h.watched, nofun, h.rebuilding, h.idle, h.rests⟩
  | cancelled => exact ⟨hsound, h.watched, nofun, h.rebuilding, fun _ => rfl, by simp [withWatcher]⟩

theorem kept_opened (tree : FileTree) {site : Site}
    (hprovider : ∃ catalogue, site.server.provider = .initial catalogue) :
    Kept site isWatched (opened tree site isWatched) := by
  obtain ⟨catalogue, hcatalogue⟩ := hprovider
  refine ⟨?_, rfl, nofun, rfl, fun _ => rfl, nofun⟩
  change site.server.provider.Sound
  rw [hcatalogue]
  exact Provider.sound_initial catalogue

/-- What stops a watcher: the watch itself fails, or a page that is rebuilt fails and is not said not to
    compile. -/
inductive Stops (r : Runtime) (e : BuildError) : Act → Prop where
  | watch : Stops r e (.fail e)
  | page (fails : r.live.Fails e) (uncaught : ∀ cause, e ≠ .compile cause) : Stops r e (.site (.act .watch))

theorem Move.stops (hm : Move r act r') {e : BuildError} (hw : r'.live.watcher = .stopped e)
    (hrunning : r.live.watcher ≠ .stopped e) : Stops r e act := by
  cases hm with
  | @site happening heard =>
    obtain ⟨rfl, hfails, huncaught⟩ := (r.live.effect happening).fails hw hrunning
    exact .page hfails huncaught
  | failed heard =>
    obtain rfl := Watcher.stopped.inj hw
    exact .watch
  | cancelled => simp [withWatcher] at hw
  | _ => exact absurd hw hrunning

/-- Nothing is rebuilt, so no page stops the watcher. -/
theorem Kept.not_fails (h : Kept site isWatched r) (hnone : site.rebuilding = none) (e : BuildError) :
    ¬ r.live.Fails e := by
  rintro (⟨watcher, -⟩ | ⟨watcher, -⟩)
  · exact absurd (h.rests hnone _ _ _ watcher).1 (List.cons_ne_nil _ _)
  · exact absurd (h.rests hnone _ _ _ watcher).2 (by simp)

/-! ## The end -/

/-- How a life ends: the provider is closed, or the wait for a watcher ends early and nothing is done. -/
theorem Move.ending (hm : Move r act r') (h : Kept site isWatched r) (hbefore : r.phase.isOver = false)
    (hafter : r'.phase.isOver = true) : r' = r.close ∨
      isWatched = true ∧ r'.provider = r.provider ∧
        (r'.phase = .broken none ∧ act = .cancel ∨
          ∃ e, r'.phase = .broken (some e) ∧ r.live.watcher = .stopped e) := by
  cases hm with
  | closed => exact .inl rfl
  | broken phase stopped => exact .inr ⟨h.leaving phase, rfl, .inr ⟨_, rfl, stopped⟩⟩
  | cancelled phase => exact .inr ⟨h.leaving phase, rfl, .inl ⟨rfl, rfl⟩⟩
  | parted => cases hafter
  | _ => exact absurd (hbefore.symm.trans hafter) (by simp)

theorem Move.over (hm : Move r act r') (h : r.phase.isOver = true) : r'.phase.isOver = true := by
  cases hm with
  | parted phase =>
    rw [phase] at h
    cases h
  | closed => rfl
  | broken => rfl
  | cancelled => rfl
  | _ => exact h

theorem over_run (h : r.phase.isOver = true) (acts : List Act) : (r.run acts).phase.isOver = true := by
  induction acts generalizing r with
  | nil => exact h
  | cons act acts ih => exact ih ((move r act).over h)

/-- A watcher does the same whether anybody waits for it or not. -/
theorem run_watch (r : Runtime) (n : Nat) : r.run (List.replicate n (.site (.act .watch)))
    = { r with live := r.live.run (List.replicate n .watch) } := by
  induction n generalizing r with
  | zero => rfl
  | succ n ih => exact ih _

/-- When the body has ended, a watcher that is left alone ends its work, and then the wait for it ends. -/
theorem exists_end (r : Runtime) : ∃ n,
    ((r.step .leave).run (List.replicate n (.site (.act .watch)) ++ [.wait])).phase.isOver = true := by
  by_cases hover : (r.step .leave).phase.isOver = true
  · exact ⟨0, over_run hover _⟩
  have hleaving : (r.step .leave).phase = .leaving := by
    cases hphase : r.phase with
    | serving =>
      simp only [step, hphase] at hover ⊢
      split at hover
      · next hwatched => rw [if_pos hwatched]
      · exact absurd rfl hover
    | leaving => simp only [step, hphase]
    | left | broken => simp [step, hphase, Phase.isOver] at hover
  generalize r.step .leave = r at hleaving
  obtain ⟨n, hrest⟩ := r.live.exists_rest
  refine ⟨n, ?_⟩
  rw [run, List.foldl_append]
  change ((r.run (List.replicate n (.site (.act .watch)))).step .wait).phase.isOver = true
  rw [run_watch]
  rcases hrest with hidle | ⟨e, hstopped⟩
  · simp only [step, hleaving, hidle]
    rfl
  · simp only [step, hleaving, hstopped]
    rfl

/-- What is opened has loaders, and a provider that has done nothing. -/
theorem serve_of_start {tree : FileTree} {s : Settings} {fromSources : Bool} {server : Server}
    (h : Server.start tree s fromSources = .ok server) : ∃ backend : Backend,
      server = backend.serve s.contentAlias s.keyFormats ∧
        (fromSources = true → ∃ pages root rules, backend = .sources pages root rules) := by
  cases fromSources with
  | true =>
    obtain rfl := Except.ok.inj h
    exact ⟨_, rfl, fun _ => ⟨_, _, _, rfl⟩⟩
  | false =>
    obtain ⟨backend, -, hserver⟩ := Except.bind_eq_ok_iff.1 h
    obtain rfl := Except.pure_eq_ok_iff.1 hserver
    exact ⟨backend, rfl, nofun⟩

/-! ## The result -/

/-- Whatever happens to a runtime, watched or not, of modules or of sources. When its life ends the tables of the
    provider are empty, and whatever comes into them later is of loads that are registered later; or it has been
    waited for a watcher that had been stopped, or the wait was cancelled, and the provider is left as it was. A
    watcher is stopped when the watch itself fails, or a page that is rebuilt fails and is not said not to
    compile; so a runtime that is not watched is always cleared, and so is one of sources whose watch goes on. And
    when the body has ended the life of the runtime comes to its end. -/
theorem exit_clears_unless_stopped {tree : FileTree} {s : Settings} {fromSources : Bool} {site : Site}
    (hstart : Site.start tree s fromSources = .ok site) (isWatched : Bool) (acts : List Act) :
    let o := opened tree site isWatched
    (∀ k, o.Ends acts k →
      let before := o.runTo acts k
      let exit := o.runTo acts (k + 1)
      (exit.phase = .left ∧ exit.provider.cache = [] ∧ exit.provider.inflight = [] ∧
        ∀ j, k < j → j ≤ acts.length → ∀ slug,
          (∀ id, (o.runTo acts j).provider.inflight.lookup slug = some id → before.provider.loads.length ≤ id) ∧
          ∀ a, (o.runTo acts j).provider.cache.lookup slug = some a →
            Provider.Brought (o.runTo acts j).provider before.provider.loads.length slug a) ∨
      isWatched = true ∧ exit.provider = before.provider ∧
        (exit.phase = .broken none ∧ acts[k]? = some .cancel ∨
          ∃ e, exit.phase = .broken (some e) ∧ before.live.watcher = .stopped e)) ∧
    (∀ k e, k ≤ acts.length → (o.runTo acts k).live.watcher = .stopped e → isWatched = true ∧
      ∃ i act, i < k ∧ acts[i]? = some act ∧ Stops (o.runTo acts i) e act ∧
        (fromSources = true → act = .fail e)) ∧
    ∀ k, k ≤ acts.length → ∃ n, (((o.runTo acts k).step .leave).run
      (List.replicate n (.site (.act .watch)) ++ [.wait])).phase.isOver = true := by
  intro o
  obtain ⟨server, hserver, rfl⟩ := Except.map_eq_ok_iff.1 hstart
  obtain ⟨backend, rfl, hsources⟩ := serve_of_start hserver
  have hkept : ∀ k, k ≤ acts.length → Kept ⟨s, _⟩ isWatched (o.runTo acts k) := fun k hk =>
    later_induction (I := fun _ r => Kept ⟨s, _⟩ isWatched r) (m := 0) (kept_opened tree ⟨_, rfl⟩)
      (fun _ _ _ _ _ hm h => h.next hm) (Nat.zero_le k) hk
  refine ⟨?_, ?_, fun k _ => exists_end _⟩
  · intro k ⟨hk, hbefore, hafter⟩ before exit
    have hact : acts[k]? = some acts[k] := List.getElem?_eq_getElem hk
    have hexit : exit = before.step acts[k] := runTo_succ hact
    have hm : Move before acts[k] exit := hexit ▸ move before acts[k]
    refine (hm.ending (hkept k (Nat.le_of_lt hk)) hbefore hafter).imp (fun hclose => ?_) fun hbroken => ?_
    · refine ⟨by rw [hclose]; rfl, by rw [hclose]; rfl, by rw [hclose]; rfl, fun j hkj hj slug => ?_⟩
      have hsince := later_induction (o := o) (m := k + 1)
        (I := fun _ r => Kept ⟨s, _⟩ isWatched r ∧
          Provider.Since before.provider.loads.length slug (Provider.Late before.provider) r.provider)
        ⟨hkept (k + 1) hk, (show o.runTo acts (k + 1) = _ from hclose) ▸ since_close before slug⟩
        (fun _ _ _ _ _ hm h => ⟨h.1.next hm, hm.since h.1.sound h.2⟩) hkj hj
      exact ⟨hsince.2.inflight, hsince.2.cached⟩
    · obtain ⟨hwatched, hprovider, hcause⟩ := hbroken
      exact ⟨hwatched, hprovider, hcause.imp_left fun ⟨hphase, hcancel⟩ => ⟨hphase, hcancel ▸ hact⟩⟩
  · intro k e hk hw
    have hwatched : isWatched = true := by
      by_contra hnot
      have hidle := (hkept k hk).idle (eq_false_of_ne_true hnot)
      simp [hidle] at hw
    refine ⟨hwatched, ?_⟩
    have hstops := later_induction (o := o) (m := 0)
      (I := fun k r => r.live.watcher = .stopped e → ∃ i act, i < k ∧ acts[i]? = some act ∧
        Stops (o.runTo acts i) e act) nofun
      (fun k act r' _ hact hm ih hw => by
        by_cases hbefore : (o.runTo acts k).live.watcher = .stopped e
        · obtain ⟨i, act, hi, hstops⟩ := ih hbefore
          exact ⟨i, act, Nat.lt_succ_of_lt hi, hstops⟩
        · exact ⟨k, act, Nat.lt_succ_self k, hact, hm.stops hw hbefore⟩) (Nat.zero_le k) hk hw
    obtain ⟨i, act, hi, hact, hstops⟩ := hstops
    refine ⟨i, act, hi, hact, hstops, fun hfrom => ?_⟩
    cases hstops with
    | watch => rfl
    | page fails =>
      obtain ⟨pages, root, rules, rfl⟩ := hsources hfrom
      exact absurd fails ((hkept i (by omega)).not_fails rfl e)

end Runtime

/-- The page of the small site is asked for, its source is overwritten with a byte that is no text, and the change
    is reported; then the body ends. -/
def dying : List Runtime.Act :=
  [.site (.act (.request "a")), .site (.act .turn), .site (.act .turn),
    .site (.edit (.write (.ofText "c/a.md") [0xff] 7)), .site (.act (.report ["c/a.md"])), .site (.act .watch),
    .leave, .wait]

/-- The wait for the watcher fails, and the load of the page stays in flight. -/
theorem exit_leaves_load :
    let o := Runtime.opened builtSite smallLive.site true
    Site.start builtSite smallSettings false = .ok smallLive.site ∧ o.Ends dying 7 ∧
    (∃ e, (o.runTo dying 8).phase = .broken (some e) ∧ (o.runTo dying 7).live.watcher = .stopped e ∧
      ∃ i act, i < 7 ∧ dying[i]? = some act ∧ Runtime.Stops (o.runTo dying i) e act) ∧
    (o.runTo dying 8).provider = (o.runTo dying 7).provider ∧
    (o.runTo dying 8).provider.inflight.lookup "a" = some 0 := by
  have hends : (Runtime.opened builtSite smallLive.site true).Ends dying 7 := by
    refine ⟨?_, ?_, ?_⟩ <;> decide +kernel
  have hinflight :
      ((Runtime.opened builtSite smallLive.site true).runTo dying 7).provider.inflight.lookup "a" = some 0 := by
    decide +kernel
  have hleft : (match ((Runtime.opened builtSite smallLive.site true).runTo dying 8).phase with
    | .left => true
    | _ => false) = false := by decide +kernel
  obtain ⟨hend, hstops, -⟩ := Runtime.exit_clears_unless_stopped start_builtSite true dying
  have hend := hend 7 hends
  have hstops := fun e => hstops 7 e (Nat.le_of_lt hends.1)
  generalize Runtime.opened builtSite smallLive.site true = o at hends hinflight hleft hend hstops ⊢
  rcases hend with ⟨hphase, -⟩ | ⟨-, hprovider, ⟨-, hcancel⟩ | ⟨e, hphase, hw⟩⟩
  · rw [hphase] at hleft
    cases hleft
  · simp [dying] at hcancel
  · obtain ⟨-, i, act, hi, hact, hstop, -⟩ := hstops e hw
    exact ⟨start_builtSite, hends, ⟨e, hphase, hw, i, act, hi, hact, hstop⟩, hprovider, hprovider ▸ hinflight⟩

end Folio

import Folio.Proofs.Provider.Progress

set_option autoImplicit false

/-! # What loads give, callers get

Whatever is known of every outcome that loads have for a slug, and of what cancelling does, holds of all that
a provider keeps for the slug and of all that callers get for it (`gives_step`). Callers whose loads are not
waiting for loaders have their outcomes when nothing can move. -/

namespace Folio.Provider

variable {ε : Type}

/-- All that is kept for a slug, or given to callers who ask for it, is good. -/
structure Gives (good : String → Outcome ε Artifact → Prop) (p : Provider ε) : Prop where
  answered : ∀ (id : Nat) l result, p.loads[id]? = some l → l.stage = .answered result →
    good l.slug (.ofResult (result.mapError .loader))
  finished : ∀ (id : Nat) l result, p.loads[id]? = some l → l.stage = .finished result →
    good l.slug (.ofResult result)
  cached : ∀ slug a, p.cache.lookup slug = some a → good slug (.done a)
  ended : ∀ (id : Nat) c outcome, p.callers[id]? = some c →
    c.stage = .ending outcome ∨ c.stage = .finished outcome → good c.slug outcome

/-- What an event brings is good: that of a load that starts, that of a loader that answers, and that of a
    caller who is cancelled. -/
structure Brings (good : String → Outcome ε Artifact → Prop) (p : Provider ε) (e : Event ε) : Prop where
  unresolved : ∀ (id : Nat) l error, p.task? e = some (.load id) → p.loads[id]? = some l → l.stage = .starting →
    p.resolve l.slug = .error error → good l.slug (.failed error)
  returned : ∀ answer (id : Nat) l key result, e = .turn answer → p.task? e = some (.load id) →
    p.loads[id]? = some l → l.stage = .starting → p.resolve l.slug = .ok key →
    answer key (p.callsOf key) = .now result → good l.slug (.ofResult (result.mapError .loader))
  received : ∀ (id : Nat) l result, e = .receive id result → p.loads[id]? = some l →
    good l.slug (.ofResult (result.mapError .loader))
  cancelled : ∀ (id : Nat) c, p.Cancels e id → p.callers[id]? = some c → good c.slug .cancelled

theorem gives_initial (good : String → Outcome ε Artifact → Prop) (c : Catalogue) :
    Gives good (initial c : Provider ε) where
  answered _ _ _ h := by simp [initial] at h
  finished _ _ _ h := by simp [initial] at h
  cached _ _ h := by simp [initial] at h
  ended _ _ _ h := by simp [initial] at h

section

variable {good : String → Outcome ε Artifact → Prop} {p : Provider ε}

theorem gives_answered_step (h : Gives good p) {e : Event ε} (he : Brings good p e) {id : Nat} {l : Load ε}
    {result : Except ε Artifact} (hl : (p.step e).loads[id]? = some l) (hs : l.stage = .answered result) :
    good l.slug (.ofResult (result.mapError .loader)) := by
  have hstep := loadStep p e id
  rw [hl] at hstep
  generalize hbefore : p.loads[id]? = before at hstep
  cases hstep with
  | same => exact h.answered id l result hbefore hs
  | registered => simp at hs
  | @joined l => exact h.answered id l result hbefore hs
  | @moved l stage move =>
    obtain rfl : stage = .answered result := hs
    generalize hwas : l.stage = was at move
    cases move with
    | received event => exact he.received id l result event hbefore

theorem gives_finished_step (h : Gives good p) {e : Event ε} (he : Brings good p e) {id : Nat} {l : Load ε}
    {result : Except (LoadError ε) Artifact} (hl : (p.step e).loads[id]? = some l)
    (hs : l.stage = .finished result) : good l.slug (.ofResult result) := by
  have hstep := loadStep p e id
  rw [hl] at hstep
  generalize hbefore : p.loads[id]? = before at hstep
  cases hstep with
  | same => exact h.finished id l result hbefore hs
  | registered => simp at hs
  | joined _ unfinished => exact absurd hs (unfinished result)
  | @moved l stage move =>
    obtain rfl : stage = .finished result := hs
    generalize hwas : l.stage = was at move
    cases move with
    | unresolved turn unknown => exact he.unresolved id l _ turn hbefore hwas unknown
    | returned event turn known now => exact he.returned _ id l _ _ event turn hbefore hwas known now
    | answered => exact h.answered id l _ hbefore hwas

theorem gives_cached_step (h : Gives good p) {e : Event ε} {slug : String} {a : Artifact}
    (hq : (p.step e).cache.lookup slug = some a) : good slug (.done a) := by
  cases tablesStep p e slug with
  | same cache => exact h.cached slug a (cache.symm.trans hq)
  | dropped _ cache => simp [cache] at hq
  | @kept id l b turn load own finished was cache =>
    obtain rfl : b = a := Option.some.inj (cache.symm.trans hq)
    exact own ▸ h.finished id l (.ok b) load finished
  | failed _ _ _ _ _ cache => exact h.cached slug a (cache.symm.trans hq)
  | registered _ _ _ _ _ _ cache => simp [cache] at hq

theorem gives_ended_step (hsound : Sound p) (h : Gives good p) {e : Event ε} (he : Brings good p e) {id : Nat}
    {c : Caller ε} {outcome : Outcome ε Artifact} (hc : (p.step e).callers[id]? = some c)
    (hend : c.stage = .ending outcome ∨ c.stage = .finished outcome) : good c.slug outcome := by
  have hstep := callerStep p e id
  rw [hc] at hstep
  generalize hbefore : p.callers[id]? = before at hstep
  cases hstep with
  | same => exact h.ended id c outcome hbefore hend
  | asked => simp at hend
  | @moved c stage move =>
    cases move with
    | cached _ _ cached =>
      obtain rfl : Outcome.done _ = outcome := by simpa using hend
      exact h.cached c.slug _ cached
    | @given loadId l result _ _ _ inflight load finished =>
      obtain rfl : Outcome.ofResult result = outcome := by simpa using hend
      obtain ⟨⟨l', hl', hslug⟩, -⟩ := hsound.inflight c.slug loadId inflight
      obtain rfl := Option.some.inj (load.symm.trans hl')
      have hgood := h.finished loadId l result load finished
      rwa [hslug] at hgood
    | joined => simp at hend
    | initiated => simp at hend
    | @delivered loadId l result _ waiting load finished =>
      obtain rfl : Outcome.ofResult result = outcome := by simpa using hend
      obtain ⟨l', hl', hslug⟩ := (hsound.served id c loadId hbefore waiting).load
      obtain rfl := Option.some.inj (load.symm.trans hl')
      have hgood := h.finished loadId l result load finished
      rwa [hslug] at hgood
    | ended turn ending =>
      obtain rfl : _ = outcome := by simpa using hend
      exact h.ended id c _ hbefore (.inl ending)
    | cancelled event =>
      obtain rfl : Outcome.cancelled = outcome := by simpa using hend
      exact he.cancelled id c event hbefore

/-- If what an event brings is good, all stays good. -/
theorem gives_step (hsound : Sound p) (h : Gives good p) {e : Event ε} (he : Brings good p e) :
    Gives good (p.step e) where
  answered _ _ _ := gives_answered_step h he
  finished _ _ _ := gives_finished_step h he
  cached _ _ := gives_cached_step h
  ended _ _ _ := gives_ended_step hsound h he

end

/-! ## Callers who are not cancelled -/

/-- A caller does not end as cancelled. -/
def Uncancelled (p : Provider ε) (id : Nat) : Prop :=
  ∀ c, p.callers[id]? = some c → c.stage ≠ .ending .cancelled ∧ c.stage ≠ .finished .cancelled

theorem Outcome.ofResult_ne_cancelled (result : Except (LoadError ε) Artifact) :
    Outcome.ofResult result ≠ .cancelled := by
  cases result <;> simp [Outcome.ofResult]

/-- A caller whom no event cancels does not end as cancelled. -/
theorem uncancelled_step {p : Provider ε} {id : Nat} (h : Uncancelled p id) {e : Event ε}
    (he : ¬ p.Cancels e id) : Uncancelled (p.step e) id := by
  intro c hc
  have hstep := callerStep p e id
  rw [hc] at hstep
  generalize hbefore : p.callers[id]? = before at hstep
  cases hstep with
  | same => exact h c hbefore
  | asked => simp
  | moved move =>
    cases move with
    | @ended outcome turn ending =>
      refine ⟨by simp, fun hs => (h _ hbefore).1 ?_⟩
      exact ending.trans (congrArg _ (CallerStage.finished.inj hs))
    | cancelled event => exact absurd event he
    | _ => simp [Outcome.ofResult_ne_cancelled]

/-! ## When nothing can move -/

/-- No load waits for its loader. -/
def Prompt (p : Provider ε) : Prop :=
  ∀ (id : Nat) l key n, p.loads[id]? = some l → l.stage ≠ .waiting key n

theorem prompt_initial (c : Catalogue) : Prompt (initial c : Provider ε) := by
  intro id l key n hl
  simp [initial] at hl

/-- Loaders that answer at once keep no load waiting. -/
theorem prompt_step {p : Provider ε} (h : Prompt p) {e : Event ε}
    (he : ∀ answer key n, e = .turn answer → answer key n ≠ .later) : Prompt (p.step e) := by
  intro id l key n hl hs
  have hstep := loadStep p e id
  rw [hl] at hstep
  generalize hbefore : p.loads[id]? = before at hstep
  cases hstep with
  | same => exact h id l key n hbefore hs
  | registered => simp at hs
  | @joined l => exact h id l key n hbefore hs
  | @moved l stage move =>
    obtain rfl : stage = .waiting key n := hs
    generalize hwas : l.stage = was at move
    cases move with
    | called event _ _ later => exact he _ _ _ event later

/-- Who asks for a page goes on to ask for it. -/
theorem slug_stays {p : Provider ε} {id : Nat} {c : Caller ε} (hc : p.callers[id]? = some c) (e : Event ε) :
    ∃ c', (p.step e).callers[id]? = some c' ∧ c'.slug = c.slug := by
  have hstep := callerStep p e id
  rw [hc] at hstep
  generalize hafter : (p.step e).callers[id]? = after at hstep
  cases hstep with
  | same => exact ⟨c, rfl, rfl⟩
  | moved => exact ⟨_, rfl, rfl⟩

theorem slug_stays_run {p : Provider ε} {id : Nat} {c : Caller ε} (hc : p.callers[id]? = some c)
    (events : List (Event ε)) : ∃ c', (p.run events).callers[id]? = some c' ∧ c'.slug = c.slug :=
  run_induction (I := fun _ q => ∃ c', q.callers[id]? = some c' ∧ c'.slug = c.slug) events ⟨c, hc, rfl⟩
    fun _ e _ ⟨_, hq, hslug⟩ => by
      obtain ⟨c', hc', hslug'⟩ := slug_stays hq e
      exact ⟨c', hc', hslug'.trans hslug⟩

/-- When nothing can move, a caller has ended, unless the load for which it waits waits for its loader. -/
theorem finished_of_quiet {p : Provider ε} (hsound : Sound p) (hquiet : p.ready = []) {id : Nat}
    {c : Caller ε} (hc : p.callers[id]? = some c)
    (hloads : ∀ loadId l key n, c.stage = .waiting loadId → p.loads[loadId]? = some l →
      l.stage ≠ .waiting key n) : ∃ outcome, c.stage = .finished outcome := by
  have hactive : ¬ c.stage.Active := fun hs => by simpa [hquiet] using hsound.caller_due id c hc hs
  cases hs : c.stage with
  | starting => exact absurd (.inl hs) hactive
  | ending outcome => exact absurd (.inr ⟨outcome, hs⟩) hactive
  | finished outcome => exact ⟨outcome, rfl⟩
  | waiting loadId =>
    have hserved := hsound.served id c loadId hc hs
    obtain ⟨l, hl, -⟩ := hserved.load
    rcases load_quiet hsound hquiet hl with ⟨key, n, hwaiting⟩ | ⟨result, hfinished⟩
    · exact absurd hwaiting (hloads loadId l key n hs hl)
    · have hdue := hserved.due l result hl hfinished
      simp [hquiet] at hdue

end Folio.Provider

import Folio.Proofs.Provider.History

set_option autoImplicit false

/-! # What is always so in a provider

No slug is both in the cache and in flight; both tables hold the latest load of a slug. Whatever can
move waits in the queue: a load that has not called its loader or has its answer, a finished load in
flight, a caller that starts or ends, and the delivery of a finished load to a caller that waits for
it. `Sound` states this, and `sound_run` proves it of every run. -/

namespace Folio

variable {ε : Type}

/-- A load at a stage from which it moves by itself. -/
def LoadStage.Active (stage : LoadStage ε) : Prop :=
  stage = .starting ∨ ∃ result, stage = .answered result

/-- A caller at a stage from which it moves by itself. -/
def CallerStage.Active (stage : CallerStage ε) : Prop :=
  stage = .starting ∨ ∃ outcome, stage = .ending outcome

namespace Provider

/-- A load is the latest of its slug. -/
def Latest (p : Provider ε) (slug : String) (id : Nat) : Prop :=
  (∃ l, p.loads[id]? = some l ∧ l.slug = slug) ∧
    ∀ i l, p.loads[i]? = some l → l.slug = slug → i ≤ id

/-- A caller will have what it waits for: it is among the callers of the load, or the finished load is
    about to be delivered to it. -/
structure Served (p : Provider ε) (id loadId : Nat) (slug : String) : Prop where
  load : ∃ l, p.loads[loadId]? = some l ∧ l.slug = slug
  listed : ∀ l, p.loads[loadId]? = some l → (∀ result, l.stage ≠ .finished result) → id ∈ l.callers
  due : ∀ l result, p.loads[loadId]? = some l → l.stage = .finished result →
    .deliver loadId id ∈ p.ready

/-- What is always so in a provider. -/
structure Sound (p : Provider ε) : Prop where
  disjoint : ∀ slug, p.cache.lookup slug = none ∨ p.inflight.lookup slug = none
  cached : ∀ slug a, p.cache.lookup slug = some a →
    ∃ id l, Latest p slug id ∧ p.loads[id]? = some l ∧ l.stage = .finished (.ok a)
  inflight : ∀ slug id, p.inflight.lookup slug = some id → Latest p slug id
  settle_due : ∀ slug id l result, p.inflight.lookup slug = some id → p.loads[id]? = some l →
    l.stage = .finished result → .settle id ∈ p.ready
  load_due : ∀ id l, p.loads[id]? = some l → l.stage.Active → .load id ∈ p.ready
  caller_due : ∀ id c, p.callers[id]? = some c → c.stage.Active → .caller id ∈ p.ready
  served : ∀ id c loadId, p.callers[id]? = some c → c.stage = .waiting loadId →
    Served p id loadId c.slug

theorem sound_initial (c : Catalogue) : Sound (initial c : Provider ε) where
  disjoint _ := .inl rfl
  cached _ _ h := by simp [initial] at h
  inflight _ _ h := by simp [initial] at h
  settle_due _ _ _ _ h := by simp [initial] at h
  load_due _ _ h := by simp [initial] at h
  caller_due _ _ h := by simp [initial] at h
  served _ _ _ h := by simp [initial] at h

/-! ## Loads and callers stay -/

/-- A load keeps its slug. -/
theorem load_stays {p : Provider ε} {id : Nat} {l : Load ε} (hl : p.loads[id]? = some l)
    (e : Event ε) : ∃ l', (p.step e).loads[id]? = some l' ∧ l'.slug = l.slug := by
  have hstep := loadStep p e id
  rw [hl] at hstep
  generalize hafter : (p.step e).loads[id]? = after at hstep
  cases hstep with
  | same => exact ⟨_, rfl, rfl⟩
  | joined => exact ⟨_, rfl, rfl⟩
  | moved => exact ⟨_, rfl, rfl⟩

theorem load_stays_run {p : Provider ε} {id : Nat} {l : Load ε} (hl : p.loads[id]? = some l)
    (events : List (Event ε)) : ∃ l', (p.run events).loads[id]? = some l' ∧ l'.slug = l.slug :=
  run_induction (I := fun _ q => ∃ l', q.loads[id]? = some l' ∧ l'.slug = l.slug) events
    ⟨l, hl, rfl⟩ fun _ e _ ⟨_, hq, hslug⟩ => by
      obtain ⟨l', hl', hslug'⟩ := load_stays hq e
      exact ⟨l', hl', hslug'.trans hslug⟩

/-- A load that is finished does not change any more. -/
theorem finished_stays {p : Provider ε} {id : Nat} {l : Load ε} {result : Except (LoadError ε) Artifact}
    (hl : p.loads[id]? = some l) (hs : l.stage = .finished result) (e : Event ε) :
    (p.step e).loads[id]? = some l := by
  have hstep := loadStep p e id
  rw [hl] at hstep
  generalize (p.step e).loads[id]? = after at hstep
  cases hstep with
  | same => rfl
  | joined _ unfinished => exact absurd hs (unfinished result)
  | moved move => exact absurd hs (move.unfinished result)

/-- A caller goes on to ask for the same collection, and does not come back to its start. -/
theorem caller_stays {p : Provider ε} {id : Nat} {c : Caller ε} (hc : p.callers[id]? = some c)
    (e : Event ε) : ∃ c', (p.step e).callers[id]? = some c' ∧ c'.collection = c.collection ∧
      (c.stage ≠ .starting → c'.stage ≠ .starting) := by
  have hstep := callerStep p e id
  rw [hc] at hstep
  generalize hafter : (p.step e).callers[id]? = after at hstep
  cases hstep with
  | same => exact ⟨c, rfl, rfl, fun h => h⟩
  | moved move =>
    refine ⟨_, rfl, rfl, fun _ => ?_⟩
    cases move <;> simp

/-- The latest load of a slug stays the latest while the slug is in the cache or in flight. -/
theorem latest_step {p : Provider ε} {slug : String} {id : Nat} (h : Latest p slug id)
    (hused : p.cache.lookup slug = none → p.inflight.lookup slug ≠ none) (e : Event ε) :
    Latest (p.step e) slug id := by
  obtain ⟨⟨l, hl, hslug⟩, hlatest⟩ := h
  obtain ⟨l', hl', hslug'⟩ := load_stays hl e
  refine ⟨⟨l', hl', hslug'.trans hslug⟩, ?_⟩
  -- a load of the slug after the step is one from before: the slug is taken, so none is registered
  intro i k hk hkslug
  have hstep := loadStep p e i
  rw [hk] at hstep
  generalize hbefore : p.loads[i]? = before at hstep
  cases hstep with
  | same => exact hlatest i _ hbefore hkslug
  | registered new turn caller starting uncached absent =>
    subst hkslug
    exact absurd absent (hused uncached)
  | joined => exact hlatest i _ hbefore hkslug
  | moved => exact hlatest i _ hbefore hkslug

/-! ## The tables -/

theorem disjoint_step {p : Provider ε} (h : Sound p) (e : Event ε) (slug : String) :
    (p.step e).cache.lookup slug = none ∨ (p.step e).inflight.lookup slug = none := by
  cases tablesStep p e slug with
  | same cache inflight =>
    rw [cache, inflight]
    exact h.disjoint slug
  | dropped _ cache => exact .inl cache
  | kept _ _ _ _ _ _ inflight => exact .inr inflight
  | failed _ _ _ _ _ _ inflight => exact .inr inflight
  | registered _ _ _ _ _ _ cache => exact .inl cache

theorem cached_step {p : Provider ε} (h : Sound p) (e : Event ε) {slug : String} {a : Artifact}
    (hq : (p.step e).cache.lookup slug = some a) :
    ∃ id l, Latest (p.step e) slug id ∧ (p.step e).loads[id]? = some l ∧
      l.stage = .finished (.ok a) := by
  have hold : p.cache.lookup slug = some a → ∃ id l, Latest (p.step e) slug id ∧
      (p.step e).loads[id]? = some l ∧ l.stage = .finished (.ok a) := fun hp => by
    obtain ⟨id, l, hlatest, hl, hs⟩ := h.cached slug a hp
    exact ⟨id, l, latest_step hlatest (by simp [hp]) e, finished_stays hl hs e, hs⟩
  cases tablesStep p e slug with
  | same cache => exact hold (cache.symm.trans hq)
  | dropped _ cache => simp [cache] at hq
  | @kept id l b turn load own finished was cache =>
    obtain rfl : b = a := Option.some.inj (cache.symm.trans hq)
    refine ⟨id, l, latest_step (h.inflight slug id was) (by simp [was]) e, ?_, finished⟩
    exact finished_stays load finished e
  | failed _ _ _ _ _ cache => exact hold (cache.symm.trans hq)
  | registered _ _ _ _ _ _ cache => simp [cache] at hq

theorem inflight_step {p : Provider ε} (h : Sound p) (e : Event ε) {slug : String} {id : Nat}
    (hq : (p.step e).inflight.lookup slug = some id) : Latest (p.step e) slug id := by
  cases tablesStep p e slug with
  | same _ inflight =>
    have hp := inflight.symm.trans hq
    exact latest_step (h.inflight slug id hp) (by simp [hp]) e
  | dropped _ _ inflight => simp [inflight] at hq
  | kept _ _ _ _ _ _ inflight => simp [inflight] at hq
  | failed _ _ _ _ _ _ inflight => simp [inflight] at hq
  | registered _ _ _ _ _ _ _ inflight loads =>
    obtain rfl : p.loads.length = id := Option.some.inj (inflight.symm.trans hq)
    refine ⟨⟨_, by rw [loads]; exact List.getElem?_concat_length, rfl⟩, fun i l hl _ => ?_⟩
    have hi := (List.getElem?_eq_some_iff.1 hl).1
    rw [loads, List.length_append] at hi
    exact Nat.le_of_lt_succ hi

/-! ## The queue -/

theorem settle_due_step {p : Provider ε} (h : Sound p) (e : Event ε) {slug : String} {id : Nat}
    {l : Load ε} {result : Except (LoadError ε) Artifact}
    (hq : (p.step e).inflight.lookup slug = some id) (hl : (p.step e).loads[id]? = some l)
    (hs : l.stage = .finished result) : .settle id ∈ (p.step e).ready := by
  cases tablesStep p e slug with
  | same _ inflight idle =>
    have hp := inflight.symm.trans hq
    have hstep := loadStep p e id
    rw [hl] at hstep
    generalize hbefore : p.loads[id]? = before at hstep
    cases hstep with
    | same =>
      refine (mem_ready_step (h.settle_due slug id l result hp hbefore hs) e).resolve_right ?_
      intro ht
      obtain ⟨⟨l', hl', hslug⟩, -⟩ := h.inflight slug id hp
      obtain rfl : l = l' := Option.some.inj (hbefore.symm.trans hl')
      exact idle id l result ht hbefore hslug hs hp
    | registered => simp at hs
    | joined _ unfinished => exact absurd hs (unfinished result)
    | moved move due =>
      obtain rfl : _ = LoadStage.finished result := hs
      exact due _ (by simp [Provider.due])
  | dropped _ _ inflight => simp [inflight] at hq
  | kept _ _ _ _ _ _ inflight => simp [inflight] at hq
  | failed _ _ _ _ _ _ inflight => simp [inflight] at hq
  | registered _ _ _ _ _ _ _ inflight loads =>
    obtain rfl : p.loads.length = id := Option.some.inj (inflight.symm.trans hq)
    rw [loads, List.getElem?_concat_length] at hl
    obtain rfl := Option.some.inj hl
    simp at hs

theorem load_due_step {p : Provider ε} (h : Sound p) (e : Event ε) {id : Nat} {l : Load ε}
    (hl : (p.step e).loads[id]? = some l) (hs : l.stage.Active) : .load id ∈ (p.step e).ready := by
  have hstep := loadStep p e id
  rw [hl] at hstep
  generalize hbefore : p.loads[id]? = before at hstep
  cases hstep with
  | same idle =>
    refine (mem_ready_step (h.load_due id l hbefore hs) e).resolve_right fun ht => ?_
    rcases hs with hs | ⟨result, hs⟩
    · exact (idle ht).1 hs
    · exact (idle ht).2 result hs
  | registered _ _ _ _ _ _ due => exact due
  | joined turn =>
    refine (mem_ready_step (h.load_due id _ hbefore hs) e).resolve_right fun ht => ?_
    exact absurd (turn.symm.trans ht) (by simp)
  | moved move due =>
    refine due _ ?_
    rcases hs with hs | ⟨result, hs⟩ <;> obtain rfl := hs <;> exact List.mem_singleton_self _

theorem caller_due_step {p : Provider ε} (h : Sound p) (e : Event ε) {id : Nat} {c : Caller ε}
    (hc : (p.step e).callers[id]? = some c) (hs : c.stage.Active) :
    .caller id ∈ (p.step e).ready := by
  have hstep := callerStep p e id
  rw [hc] at hstep
  generalize hbefore : p.callers[id]? = before at hstep
  cases hstep with
  | same started =>
    refine (mem_ready_step (h.caller_due id c hbefore hs) e).resolve_right fun ht => ?_
    rcases hs with hs | ⟨outcome, hs⟩
    · exact (started ht).1 hs
    · exact (started ht).2 outcome hs
  | asked due => exact due
  | @moved c stage move =>
    cases move with
    | delivered _ _ _ _ due => exact due
    | cancelled event unfinished due =>
      -- only a caller who waits is put into the queue anew; the others are in it already
      cases hw : c.stage with
      | waiting loadId => exact due loadId hw
      | finished outcome => exact absurd hw (unfinished outcome)
      | starting =>
        refine (mem_ready_step (h.caller_due id c hbefore (.inl hw)) e).resolve_right fun ht => ?_
        rcases event with rfl | ⟨_, _, _, _, rfl, _⟩ <;> simp [task?] at ht
      | ending outcome =>
        refine (mem_ready_step (h.caller_due id c hbefore (.inr ⟨_, hw⟩)) e).resolve_right fun ht => ?_
        rcases event with rfl | ⟨_, _, _, _, rfl, _⟩ <;> simp [task?] at ht
    | _ => simp [CallerStage.Active] at hs

/-! ## Callers who wait -/

/-- A caller who goes on to wait is served on. -/
theorem served_step {p : Provider ε} {e : Event ε} {id loadId : Nat} {slug : String}
    (h : Served p id loadId slug)
    (hidle : ∀ l result, p.task? e = some (.deliver loadId id) → p.loads[loadId]? = some l →
      l.stage ≠ .finished result) : Served (p.step e) id loadId slug := by
  obtain ⟨⟨l, hl, hslug⟩, hlisted, hdue⟩ := h
  have hload := load_stays hl e
  have hstep := loadStep p e loadId
  rw [hl] at hstep
  generalize hafter : (p.step e).loads[loadId]? = after at hstep hload
  obtain ⟨l', rfl, hslug'⟩ := hload
  refine ⟨⟨l', hafter, hslug'.trans hslug⟩, ?_, ?_⟩
  · intro k hk hno
    obtain rfl : l' = k := Option.some.inj (hafter.symm.trans hk)
    cases hstep with
    | same => exact hlisted _ hl hno
    | joined => exact List.mem_append_left _ (hlisted l hl hno)
    | moved move => exact hlisted l hl move.unfinished
  · intro k result hk hs
    obtain rfl : l' = k := Option.some.inj (hafter.symm.trans hk)
    cases hstep with
    | same =>
      refine (mem_ready_step (hdue _ result hl hs) e).resolve_right fun ht => ?_
      exact hidle _ result ht hl hs
    | joined _ unfinished => exact absurd hs (unfinished result)
    | moved move due =>
      -- the load finishes in this step, and is delivered to all who are listed
      obtain rfl : _ = LoadStage.finished result := hs
      refine due _ (List.mem_cons_of_mem _ (List.mem_map_of_mem ?_))
      exact hlisted l hl move.unfinished

theorem served_of_waiting {p : Provider ε} (h : Sound p) (e : Event ε) {id loadId : Nat}
    {c : Caller ε} (hc : (p.step e).callers[id]? = some c) (hw : c.stage = .waiting loadId) :
    Served (p.step e) id loadId c.slug := by
  have hstep := callerStep p e id
  rw [hc] at hstep
  generalize hbefore : p.callers[id]? = before at hstep
  cases hstep with
  | same _ delivered =>
    refine served_step (h.served id c loadId hbefore hw) fun l result ht hl hs => ?_
    exact delivered loadId l result ht hl hs hw
  | asked => simp at hw
  | @moved c stage move =>
    cases move with
    | @joined loadId' _ _ _ inflight unfinished loads =>
      obtain rfl : loadId' = loadId := CallerStage.waiting.inj hw
      obtain ⟨⟨l, hl, hslug⟩, -⟩ := h.inflight c.slug loadId' inflight
      have hafter : (p.step e).loads[loadId']? = some { l with callers := l.callers ++ [id] } := by
        rw [loads, List.getElem?_modify_eq, hl, Option.map_eq_map, Option.map_some]
      refine ⟨⟨_, hafter, hslug⟩, ?_, ?_⟩
      · intro k hk _
        obtain rfl := Option.some.inj (hafter.symm.trans hk)
        exact List.mem_append_right _ (List.mem_singleton_self id)
      · intro k result hk hs
        obtain rfl := Option.some.inj (hafter.symm.trans hk)
        exact absurd hs (unfinished l result hl)
    | initiated _ _ _ _ loads =>
      obtain rfl : p.loads.length = loadId := CallerStage.waiting.inj hw
      have hafter : (p.step e).loads[p.loads.length]? = some ⟨c.slug, .starting, [id]⟩ := by
        rw [loads, List.getElem?_concat_length]
      refine ⟨⟨_, hafter, rfl⟩, ?_, ?_⟩
      · intro k hk _
        obtain rfl := Option.some.inj (hafter.symm.trans hk)
        exact List.mem_singleton_self id
      · intro k result hk hs
        obtain rfl := Option.some.inj (hafter.symm.trans hk)
        simp at hs
    | _ => simp at hw

/-! ## Every step and every run -/

theorem sound_step {p : Provider ε} (h : Sound p) (e : Event ε) : Sound (p.step e) where
  disjoint := disjoint_step h e
  cached _ _ := cached_step h e
  inflight _ _ := inflight_step h e
  settle_due _ _ _ _ := settle_due_step h e
  load_due _ _ := load_due_step h e
  caller_due _ _ := caller_due_step h e
  served _ _ _ := served_of_waiting h e

theorem sound_run {p : Provider ε} (h : Sound p) (events : List (Event ε)) : Sound (p.run events) :=
  run_induction (I := fun _ q => Sound q) events h fun _ e _ hq => sound_step hq e

/-- Every run from a provider that nobody has asked for anything is sound. -/
theorem sound_run_initial (c : Catalogue) (events : List (Event ε)) :
    Sound ((initial c).run events) :=
  sound_run (sound_initial c) events

end Provider

end Folio

import Folio.Proofs.Provider.Invariant

set_option autoImplicit false

/-! # What callers get from the load they have joined

A caller who has joined a load is owed its outcome: it waits for the load, or the load is finished and
the caller ends with its result. Only a cancellation of that caller takes this away (`owed_step`), and
nobody is left to wait for a finished load when there is nothing more to do (`owed_quiet`). -/

namespace Folio.Provider

variable {ε : Type}

/-- A caller waits for a load of its slug, or ends with the result of that load. -/
def Owed (p : Provider ε) (id loadId : Nat) : Prop :=
  ∃ c l, p.callers[id]? = some c ∧ p.loads[loadId]? = some l ∧ l.slug = c.slug ∧
    (c.stage = .waiting loadId ∨ ∃ result, l.stage = .finished result ∧
      (c.stage = .ending (.ofResult result) ∨ c.stage = .finished (.ofResult result)))

/-- No event of a run cancels a caller. -/
def Spared (id : Nat) (p : Provider ε) : List (Event ε) → Prop
  | [] => True
  | e :: es => ¬ p.Cancels e id ∧ Spared id (p.step e) es

/-! ## Joining -/

/-- A caller whose stage is not the first, and who is not cancelled, is still owed what it is owed. -/
theorem owed_step {p : Provider ε} {id loadId : Nat} (h : Owed p id loadId) (e : Event ε)
    (hspared : ¬ p.Cancels e id) : Owed (p.step e) id loadId := by
  obtain ⟨c, l, hc, hl, hslug, hstage⟩ := h
  have hstep := callerStep p e id
  rw [hc] at hstep
  generalize hafter : (p.step e).callers[id]? = after at hstep
  -- a caller past its start moves to what the load has for it
  have hnot : c.stage ≠ .starting := by
    rcases hstage with hw | ⟨result, -, hend | hfin⟩
    · simp [hw]
    · simp [hend]
    · simp [hfin]
  cases hstep with
  | same =>
    rcases hstage with hw | ⟨result, hs, hend⟩
    · obtain ⟨l', hl', hslug'⟩ := load_stays hl e
      exact ⟨c, l', hafter, hl', hslug'.trans hslug, .inl hw⟩
    · exact ⟨c, l, hafter, finished_stays hl hs e, hslug, .inr ⟨result, hs, hend⟩⟩
  | moved move =>
    cases move with
    | cached _ starting => exact absurd starting hnot
    | given _ starting => exact absurd starting hnot
    | joined _ starting => exact absurd starting hnot
    | initiated _ starting => exact absurd starting hnot
    | @delivered loadId' l' result turn waiting load finished =>
      rcases hstage with hw | ⟨_, -, hend | hfin⟩
      · obtain rfl : loadId = loadId' := CallerStage.waiting.inj (hw.symm.trans waiting)
        obtain rfl : l = l' := Option.some.inj (hl.symm.trans load)
        refine ⟨_, l, hafter, finished_stays hl finished e, hslug, .inr ⟨result, finished, ?_⟩⟩
        exact .inl rfl
      · exact absurd (hend.symm.trans waiting) (by simp)
      · exact absurd (hfin.symm.trans waiting) (by simp)
    | @ended outcome turn ending =>
      rcases hstage with hw | ⟨result, hs, hend | hfin⟩
      · exact absurd (hw.symm.trans ending) (by simp)
      · obtain rfl := CallerStage.ending.inj (hend.symm.trans ending)
        refine ⟨_, l, hafter, finished_stays hl hs e, hslug, .inr ⟨result, hs, ?_⟩⟩
        exact .inr rfl
      · exact absurd (hfin.symm.trans ending) (by simp)
    | cancelled event => exact absurd event hspared

theorem owed_run {id loadId : Nat} (events : List (Event ε)) {p : Provider ε}
    (h : Owed p id loadId) (hspared : Spared id p events) : Owed (p.run events) id loadId := by
  induction events generalizing p with
  | nil => exact h
  | cons e es ih => exact ih (owed_step h e hspared.1) hspared.2

/-- Who waits for a load is owed its outcome. -/
theorem owed_of_waiting {p : Provider ε} (h : Sound p) {id loadId : Nat} {c : Caller ε}
    (hc : p.callers[id]? = some c) (hw : c.stage = .waiting loadId) : Owed p id loadId := by
  obtain ⟨l, hl, hslug⟩ := (h.served id c loadId hc hw).load
  exact ⟨c, l, hc, hl, hslug, .inl hw⟩

/-- Who joins a load is owed its outcome from then on. -/
theorem owed_of_joined {p : Provider ε} (h : Sound p) {e : Event ε} {id loadId : Nat}
    (hjoin : .joined id loadId ∈ p.occurrences e) : Owed (p.step e) id loadId := by
  obtain ⟨turn, slug, collection, hc, hnone, hload⟩ := mem_occurrences_joined hjoin
  have hsound := sound_step h e
  have hstep := callerStep p e id
  rw [hc] at hstep
  generalize hafter : (p.step e).callers[id]? = after at hstep
  cases hstep with
  | same started => exact absurd rfl (started turn).1
  | moved move =>
    cases move with
    | cached _ _ cached => exact absurd (hnone.symm.trans cached) (by simp)
    | @given loadId' l result _ _ _ inflight load finished =>
      obtain rfl : loadId = loadId' := by simpa [inflight] using hload
      obtain ⟨⟨l', hl', hslug⟩, -⟩ := h.inflight slug loadId inflight
      obtain rfl : l = l' := Option.some.inj (load.symm.trans hl')
      refine ⟨_, l, hafter, finished_stays load finished e, hslug, .inr ⟨result, finished, ?_⟩⟩
      exact .inr rfl
    | @joined loadId' _ _ _ inflight =>
      obtain rfl : loadId = loadId' := by simpa [inflight] using hload
      exact owed_of_waiting hsound hafter rfl
    | initiated _ _ _ absent =>
      obtain rfl : loadId = p.loads.length := by simpa [absent] using hload
      exact owed_of_waiting hsound hafter rfl
    | delivered turn' => exact absurd (turn.symm.trans turn') (by simp)
    | ended _ ending => simp at ending
    | cancelled event =>
      rcases event with rfl | ⟨_, _, _, _, rfl, _⟩ <;> simp [task?] at turn

/-- Who has joined a load in a run, and is not cancelled in it, is owed the outcome of the load. -/
theorem owed_of_history {id loadId : Nat} (events : List (Event ε)) {p : Provider ε} (h : Sound p)
    (hjoin : .joined id loadId ∈ p.history events) (hspared : Spared id p events) :
    Owed (p.run events) id loadId := by
  induction events generalizing p with
  | nil => simp [history] at hjoin
  | cons e es ih =>
    rcases List.mem_append.1 hjoin with hnow | hlater
    · exact owed_run es (owed_of_joined h hnow) hspared.2
    · exact ih (sound_step h e) hlater hspared.2

/-! ## Joining once -/

/-- Who has taken the first turn joins no load any more. -/
theorem not_joined_of_started {id : Nat} (events : List (Event ε)) {p : Provider ε} {c : Caller ε}
    (hc : p.callers[id]? = some c) (hs : c.stage ≠ .starting) (loadId : Nat) :
    .joined id loadId ∉ p.history events := by
  induction events generalizing p c with
  | nil => simp [history]
  | cons e es ih =>
    intro hmem
    rcases List.mem_append.1 hmem with hnow | hlater
    · obtain ⟨-, slug, collection, hc', -⟩ := mem_occurrences_joined hnow
      obtain rfl := Option.some.inj (hc.symm.trans hc')
      exact hs rfl
    · obtain ⟨c', hc', -, hs'⟩ := caller_stays hc e
      exact ih hc' (hs' hs) hlater

theorem started_of_joined {p : Provider ε} {e : Event ε} {id loadId : Nat}
    (hjoin : .joined id loadId ∈ p.occurrences e) :
    ∃ c, (p.step e).callers[id]? = some c ∧ c.stage ≠ .starting := by
  obtain ⟨turn, slug, collection, hc, -⟩ := mem_occurrences_joined hjoin
  have hstep := callerStep p e id
  rw [hc] at hstep
  generalize hafter : (p.step e).callers[id]? = after at hstep
  cases hstep with
  | same started => exact absurd rfl (started turn).1
  | moved move => exact ⟨_, rfl, by cases move <;> simp⟩

/-- A caller joins one load at most. -/
theorem joined_once {id loadId loadId' : Nat} (events : List (Event ε)) {p : Provider ε}
    (hjoin : .joined id loadId ∈ p.history events) (hjoin' : .joined id loadId' ∈ p.history events) :
    loadId = loadId' := by
  induction events generalizing p with
  | nil => simp [history] at hjoin
  | cons e es ih =>
    have hlater : ∀ {load load'}, .joined id load ∈ p.occurrences e →
        .joined id load' ∉ (p.step e).history es := fun hnow => by
      obtain ⟨c, hc, hs⟩ := started_of_joined hnow
      exact not_joined_of_started es hc hs _
    rcases List.mem_append.1 hjoin with hnow | hmem <;>
      rcases List.mem_append.1 hjoin' with hnow' | hmem'
    · obtain ⟨-, slug, collection, hc, -, rfl⟩ := mem_occurrences_joined hnow
      obtain ⟨-, slug', collection', hc', -, rfl⟩ := mem_occurrences_joined hnow'
      obtain ⟨rfl, -, -⟩ := Caller.mk.inj (Option.some.inj (hc.symm.trans hc'))
      rfl
    · exact absurd hmem' (hlater hnow)
    · exact absurd hmem (hlater hnow')
    · exact ih hmem hmem'

/-! ## When there is nothing to do -/

/-- A load that cannot move waits for its loader or is finished. -/
theorem load_quiet {p : Provider ε} (h : Sound p) (hquiet : p.ready = []) {id : Nat} {l : Load ε}
    (hl : p.loads[id]? = some l) :
    (∃ key n, l.stage = .waiting key n) ∨ ∃ result, l.stage = .finished result := by
  have hactive : ¬ l.stage.Active := fun hs => by simpa [hquiet] using h.load_due id l hl hs
  cases hs : l.stage with
  | starting => exact absurd (.inl hs) hactive
  | waiting key n => exact .inl ⟨key, n, rfl⟩
  | answered result => exact absurd (.inr ⟨result, hs⟩) hactive
  | finished result => exact .inr ⟨result, rfl⟩

/-- A caller has ended with the result of a load, or both wait for the loader. -/
def Rests (p : Provider ε) (id loadId : Nat) : Prop :=
  ∃ c l, p.callers[id]? = some c ∧ p.loads[loadId]? = some l ∧
    ((∃ result, l.stage = .finished result ∧ c.stage = .finished (.ofResult result)) ∨
      c.stage = .waiting loadId ∧ ∃ key n, l.stage = .waiting key n)

/-- When nothing can move, whoever is owed the outcome of a load has it, unless the load still waits for
    its loader. -/
theorem owed_quiet {p : Provider ε} (h : Sound p) {id loadId : Nat} (howed : Owed p id loadId)
    (hquiet : p.ready = []) : Rests p id loadId := by
  obtain ⟨c, l, hc, hl, -, hw | ⟨result, hs, hend | hfin⟩⟩ := howed
  · rcases load_quiet h hquiet hl with hwaiting | ⟨result, hs⟩
    · exact ⟨c, l, hc, hl, .inr ⟨hw, hwaiting⟩⟩
    · have hdue := (h.served id c loadId hc hw).due l result hl hs
      simp [hquiet] at hdue
  · have hdue := h.caller_due id c hc (.inr ⟨_, hend⟩)
    simp [hquiet] at hdue
  · exact ⟨c, l, hc, hl, .inl ⟨result, hs, hfin⟩⟩

end Folio.Provider

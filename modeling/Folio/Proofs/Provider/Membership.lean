import Folio.Proofs.Provider.Invariant

set_option autoImplicit false

/-! # Which callers there are, and for whom they ask

Tasks, loads and collections speak of callers by their numbers. In every reachable state these callers
exist, and those that a collection has gathered, or that report to it, ask for that collection. So a
caller who asks for no collection is known to none of them. -/

namespace Folio.Provider

variable {ε : Type}

/-- A caller asks for a collection. -/
def AsksFor (p : Provider ε) (id k : Nat) : Prop :=
  ∃ c, p.callers[id]? = some c ∧ c.collection = some k

/-- The caller of whom a task speaks exists, and asks for the collection to which it reports. -/
def Known (p : Provider ε) : Task → Prop
  | .deliver _ id => id < p.callers.length
  | .caller id => id < p.callers.length
  | .report k id => AsksFor p id k
  | _ => True

/-- All callers of whom anything speaks exist, and ask for the collections that know them. -/
structure Enrolled (p : Provider ε) : Prop where
  gathered : ∀ (k : Nat) c ids left, p.collections[k]? = some c → c.stage = .gathering ids left →
    ∀ id ∈ ids, AsksFor p id k
  tasks : ∀ t ∈ p.ready, Known p t
  listed : ∀ (loadId : Nat) l, p.loads[loadId]? = some l → ∀ id ∈ l.callers, id < p.callers.length

theorem enrolled_initial (c : Catalogue) : Enrolled (initial c : Provider ε) where
  gathered _ _ _ _ h := by simp [initial] at h
  tasks _ h := by simp [initial] at h
  listed _ _ h := by simp [initial] at h

/-! ## Callers stay -/

theorem lt_callers_stays {p : Provider ε} {id : Nat} (hid : id < p.callers.length) (e : Event ε) :
    id < (p.step e).callers.length := by
  obtain ⟨c', hc', -⟩ := caller_stays (List.getElem?_eq_getElem hid) e
  exact (List.getElem?_eq_some_iff.1 hc').1

theorem asksFor_stays {p : Provider ε} {id k : Nat} (h : AsksFor p id k) (e : Event ε) :
    AsksFor (p.step e) id k := by
  obtain ⟨c, hc, hk⟩ := h
  obtain ⟨c', hc', hk', -⟩ := caller_stays hc e
  exact ⟨c', hc', hk'.trans hk⟩

theorem known_stays {p : Provider ε} {t : Task} (h : Known p t) (e : Event ε) :
    Known (p.step e) t := by
  cases t with
  | deliver loadId id => exact lt_callers_stays h e
  | caller id => exact lt_callers_stays h e
  | report k id => exact asksFor_stays h e
  | _ => trivial

theorem mem_ready_of_task {p : Provider ε} {e : Event ε} {t : Task} (h : p.task? e = some t) :
    t ∈ p.ready := by
  cases e with
  | turn answer => exact List.mem_of_mem_head? h
  | _ => simp [task?] at h

/-! ## New tasks -/

theorem known_finishLoad {p : Provider ε} (h : Enrolled p) {loadId : Nat} {l : Load ε}
    (hl : p.loads[loadId]? = some l) :
    ∀ t ∈ Task.settle loadId :: l.callers.map (.deliver loadId), Known p t := by
  intro t ht
  rcases List.mem_cons.1 ht with rfl | ht
  · trivial
  · obtain ⟨id, hid, rfl⟩ := List.mem_map.1 ht
    exact h.listed loadId l hl id hid

theorem known_finishCaller {p : Provider ε} {id : Nat} {c : Caller ε} (hc : p.callers[id]? = some c) :
    ∀ t ∈ (match c.collection with | some k => [Task.report k id] | none => []), Known p t := by
  intro t ht
  cases hk : c.collection with
  | none => simp [hk] at ht
  | some k =>
    obtain rfl : t = .report k id := by simpa [hk] using ht
    exact ⟨c, hc, hk⟩

/-- What waits in the queue after a turn was there before, or speaks of callers who are known, or of
    new ones. -/
theorem Effect.known {answer : String → Nat → Answer ε} {p q : Provider ε} {t : Task}
    (h : Enrolled p) (heffect : Effect answer p.rest t q) {u : Task} (hu : u ∈ q.ready) :
    u ∈ p.ready ∨ Known p u ∨ ∃ id, u = .caller id ∧ id < q.callers.length := by
  have hold : u ∈ p.rest.ready → u ∈ p.ready := List.mem_of_mem_tail
  -- the queue grows by tasks of which each is known
  have hnew : ∀ {tasks : List Task}, u ∈ p.rest.ready ++ tasks → (∀ t ∈ tasks, Known p t) →
      u ∈ p.ready ∨ Known p u ∨ ∃ id, u = .caller id ∧ id < q.callers.length := by
    intro tasks hmem hknown
    rcases List.mem_append.1 hmem with hmem | hmem
    · exact .inl (hold hmem)
    · exact .inr (.inl (hknown u hmem))
  cases heffect with
  | idle => exact .inl (hold hu)
  | called => exact .inl (hold hu)
  | kept => exact .inl (hold hu)
  | dropped => exact .inl (hold hu)
  | joined => exact .inl (hold hu)
  | concluded => exact .inl (hold hu)
  | unresolved load => exact hnew hu (known_finishLoad h load)
  | returned load => exact hnew hu (known_finishLoad h load)
  | answered load => exact hnew hu (known_finishLoad h load)
  | delivered load finished caller =>
    refine hnew hu fun t ht => ?_
    obtain rfl := List.mem_singleton.1 ht
    exact (List.getElem?_eq_some_iff.1 caller).1
  | cached caller => exact hnew hu (known_finishCaller caller)
  | given caller => exact hnew hu (known_finishCaller caller)
  | ended caller => exact hnew hu (known_finishCaller caller)
  | initiated => exact hnew hu (by simp [Known])
  | @gathered k c slugs =>
    rcases List.mem_append.1 hu with hmem | hmem
    · exact .inl (hold hmem)
    · obtain ⟨id, hid, rfl⟩ := List.mem_map.1 hmem
      obtain ⟨j, hj, rfl⟩ := List.mem_map.1 hid
      refine .inr (.inr ⟨_, rfl, ?_⟩)
      simpa [enqueue, setCollection] using hj
  | reported _ _ _ due => exact hnew hu (by rcases due with rfl | rfl <;> simp [Known])

theorem mem_ready_cancelCaller {p : Provider ε} {id : Nat} {t : Task}
    (ht : t ∈ (p.cancelCaller id).1.ready) :
    t ∈ p.ready ∨ ∃ i, t = .caller i ∧ i < p.callers.length := by
  unfold cancelCaller at ht
  split at ht
  · exact .inl ht
  · next c hc =>
    split at ht
    · exact .inl ht
    · refine (List.mem_append.1 ht).imp (fun h => h) fun h => ?_
      exact ⟨id, List.mem_singleton.1 h, (List.getElem?_eq_some_iff.1 hc).1⟩
    · exact .inl ht

theorem mem_ready_cancelCallers {ids : List Nat} {p : Provider ε} {t : Task}
    (ht : t ∈ (p.cancelCallers ids).1.ready) :
    t ∈ p.ready ∨ ∃ i, t = .caller i ∧ i < p.callers.length := by
  induction ids generalizing p with
  | nil => exact .inl ht
  | cons id rest ih =>
    rcases ih (p := (p.cancelCaller id).1) ht with h | ⟨i, rfl, hi⟩
    · exact mem_ready_cancelCaller h
    · rw [callers_cancelCaller, List.length_modify] at hi
      exact .inr ⟨i, rfl, hi⟩

theorem mem_ready_cancelCollection {p : Provider ε} {k : Nat} {t : Task}
    (ht : t ∈ (p.cancelCollection k).1.ready) :
    t ∈ p.ready ∨ ∃ i, t = .caller i ∧ i < p.callers.length := by
  unfold cancelCollection at ht
  split at ht
  · exact .inl ht
  · split at ht
    · exact .inl ht
    · exact mem_ready_cancelCallers ht
    · exact .inl ht

theorem tasks_step {p : Provider ε} (h : Enrolled p) (e : Event ε) {t : Task}
    (ht : t ∈ (p.step e).ready) : Known (p.step e) t := by
  have hold : t ∈ p.ready → Known (p.step e) t := fun hmem => known_stays (h.tasks t hmem) e
  have hcaller : (t ∈ p.ready ∨ ∃ i, t = .caller i ∧ i < p.callers.length) → Known (p.step e) t := by
    rintro (hmem | ⟨i, rfl, hi⟩)
    · exact hold hmem
    · exact lt_callers_stays hi e
  cases e with
  | request slug =>
    rcases List.mem_append.1 ht with hmem | hmem
    · exact hold hmem
    · obtain rfl := List.mem_singleton.1 hmem
      simp [Known, step, request, enqueue]
  | requestAll filters =>
    rcases List.mem_append.1 ht with hmem | hmem
    · exact hold hmem
    · obtain rfl := List.mem_singleton.1 hmem
      trivial
  | cancelCaller id => exact hcaller (mem_ready_cancelCaller ht)
  | cancelCollection k => exact hcaller (mem_ready_cancelCollection ht)
  | invalidate scope => exact hold (by cases scope <;> exact ht)
  | receive loadId result =>
    have hmem : t ∈ p.ready ∨ t = .load loadId := by
      simp only [step, receive] at ht
      split at ht
      · exact (List.mem_append.1 ht).imp (fun h => h) List.mem_singleton.1
      · exact .inl ht
    rcases hmem with hmem | rfl
    · exact hold hmem
    · trivial
  | turn answer =>
    rcases turn_cases answer p with ⟨-, hturn⟩ | ⟨t', -, heffect⟩
    · exact hold (by simpa only [step, hturn] using ht)
    · rcases heffect.known h ht with hmem | hknown | ⟨id, rfl, hid⟩
      · exact hold hmem
      · exact known_stays hknown _
      · exact hid

/-! ## Loads and collections -/

theorem listed_step {p : Provider ε} (h : Enrolled p) (e : Event ε) {loadId : Nat} {l : Load ε}
    (hl : (p.step e).loads[loadId]? = some l) {id : Nat} (hid : id ∈ l.callers) :
    id < (p.step e).callers.length := by
  refine lt_callers_stays ?_ e
  have hstep := loadStep p e loadId
  rw [hl] at hstep
  generalize hbefore : p.loads[loadId]? = before at hstep
  cases hstep with
  | same => exact h.listed loadId l hbefore id hid
  | registered _ _ caller =>
    obtain rfl := List.mem_singleton.1 hid
    exact (List.getElem?_eq_some_iff.1 caller).1
  | joined turn =>
    rcases List.mem_append.1 hid with hmem | hmem
    · exact h.listed loadId _ hbefore id hmem
    · obtain rfl := List.mem_singleton.1 hmem
      exact h.tasks _ (mem_ready_of_task turn)
  | moved => exact h.listed loadId _ hbefore id hid

theorem getElem?_setCollection (p : Provider ε) (k j : Nat) (stage : CollectionStage ε) :
    (p.setCollection k stage).collections[j]?
      = if k = j then p.collections[j]?.map fun c => { c with stage := stage }
        else p.collections[j]? := by
  simp only [setCollection, List.getElem?_modify]
  split
  · rfl
  · cases p.collections[j]? <;> rfl

/-- A collection that gathers after its stage was set either gathered before, or has been set to. -/
theorem gathering_setCollection {p : Provider ε} {k j : Nat} {stage : CollectionStage ε}
    {c : Collection ε} {ids : List Nat} {left : Nat}
    (hc : (p.setCollection j stage).collections[k]? = some c) (hs : c.stage = .gathering ids left) :
    p.collections[k]? = some c ∨ j = k ∧ stage = .gathering ids left := by
  rw [getElem?_setCollection] at hc
  split at hc
  · next hjk =>
    obtain ⟨c', -, rfl⟩ := Option.map_eq_some_iff.1 hc
    exact .inr ⟨hjk, hs⟩
  · exact .inl hc

theorem gathering_cancelCollection {p : Provider ε} {k j : Nat} {c : Collection ε} {ids : List Nat}
    {left : Nat} (hc : (p.cancelCollection j).1.collections[k]? = some c)
    (hs : c.stage = .gathering ids left) :
    ∃ c₀ left₀, p.collections[k]? = some c₀ ∧ c₀.stage = .gathering ids left₀ := by
  unfold cancelCollection at hc
  split at hc
  · exact ⟨c, left, hc, hs⟩
  · split at hc
    · exact ⟨c, left, hc, hs⟩
    · next ids' _ _ =>
      obtain ⟨callers, ready, hq⟩ := cancelCallers_frame ids' p
      simp only [hq, List.getElem?_modify] at hc
      obtain ⟨c₀, hc₀, rfl⟩ := Option.map_eq_some_iff.1 hc
      refine ⟨c₀, left, hc₀, ?_⟩
      split at hs <;> exact hs
    · rcases gathering_setCollection hc hs with hc' | ⟨-, hstage⟩
      · exact ⟨c, left, hc', hs⟩
      · simp at hstage

/-- The callers whom a collection gathers ask for it. -/
theorem asksFor_new {p : Provider ε} (callers : List (Caller ε)) (k : Nat) {slugs : List String}
    {i : Nat} (hi : i < slugs.length)
    (hp : p.callers = callers ++ slugs.map fun slug => ⟨slug, some k, .starting⟩) :
    AsksFor p (callers.length + i) k := by
  refine ⟨⟨slugs[i], some k, .starting⟩, ?_, rfl⟩
  rw [hp, List.getElem?_append_right (Nat.le_add_right _ _), Nat.add_sub_cancel_left,
    List.getElem?_map, List.getElem?_eq_getElem hi]
  rfl

theorem gathered_step {p : Provider ε} (h : Enrolled p) (e : Event ε) {k : Nat} {c : Collection ε}
    {ids : List Nat} {left : Nat} (hc : (p.step e).collections[k]? = some c)
    (hs : c.stage = .gathering ids left) : ∀ id ∈ ids, AsksFor (p.step e) id k := by
  intro id hid
  have hold : ∀ {c₀ left₀}, p.collections[k]? = some c₀ → c₀.stage = .gathering ids left₀ →
      AsksFor (p.step e) id k := fun hc₀ hs₀ => asksFor_stays (h.gathered k _ ids _ hc₀ hs₀ id hid) e
  cases e with
  | request slug => exact hold hc hs
  | requestAll filters =>
    have hnew : (p.collections ++ [({ filters := filters } : Collection ε)])[k]? = some c := hc
    rw [List.getElem?_append] at hnew
    split at hnew
    · exact hold hnew hs
    · obtain rfl := List.mem_singleton.1 (List.mem_of_getElem? hnew)
      simp at hs
  | cancelCaller i =>
    obtain ⟨callers, ready, hq⟩ := cancelCaller_frame p i
    exact hold (by simpa only [step, hq] using hc) hs
  | cancelCollection j =>
    obtain ⟨c₀, left₀, hc₀, hs₀⟩ := gathering_cancelCollection hc hs
    exact hold hc₀ hs₀
  | invalidate scope => exact hold (by cases scope <;> exact hc) hs
  | receive loadId result =>
    refine hold ?_ hs
    simp only [step, receive] at hc
    split at hc <;> exact hc
  | turn answer =>
    rcases turn_cases answer p with ⟨-, hturn⟩ | ⟨t, -, heffect⟩
    · exact hold (by simpa only [step, hturn] using hc) hs
    · simp only [step] at hc hold ⊢
      generalize p.turn answer = q at hc hold heffect ⊢
      cases heffect with
      | @gathered j c' slugs =>
        rcases gathering_setCollection hc hs with hc' | ⟨rfl, hstage⟩
        · exact hold hc' hs
        · obtain ⟨rfl, -⟩ := CollectionStage.gathering.inj hstage
          obtain ⟨i, hi, rfl⟩ := List.mem_map.1 hid
          exact asksFor_new p.callers j (List.mem_range.1 hi) rfl
      | reported collection gathering decided =>
        -- a report changes how many are left, and not who has been gathered
        rcases gathering_setCollection hc hs with hc' | ⟨rfl, rfl⟩
        · exact hold hc' hs
        · rcases decided with ⟨outcome, hstage⟩ | ⟨left', hstage⟩
          · simp at hstage
          · obtain ⟨rfl, -⟩ := CollectionStage.gathering.inj hstage
            exact hold collection gathering
      | concluded =>
        rcases gathering_setCollection hc hs with hc' | ⟨-, hstage⟩
        · exact hold hc' hs
        · simp at hstage
      | _ => exact hold hc hs

theorem enrolled_step {p : Provider ε} (h : Enrolled p) (e : Event ε) : Enrolled (p.step e) where
  gathered _ _ _ _ := gathered_step h e
  tasks _ := tasks_step h e
  listed _ _ hl _ := listed_step h e hl

theorem enrolled_run {p : Provider ε} (h : Enrolled p) (events : List (Event ε)) :
    Enrolled (p.run events) :=
  run_induction (I := fun _ q => Enrolled q) events h fun _ e _ hq => enrolled_step hq e

end Folio.Provider

import Folio.Proofs.Provider.Effect

set_option autoImplicit false

/-! # What a step can do to each part of a provider

A step is a request, a cancellation, an invalidation, an answer of a loader, or a turn. This module says
once, for each part of a provider, what a step can do to it: to the loads (`loadsStep`, and `loadStep`
for one of them), to what the tables hold for a slug (`tablesStep`) and to a caller (`callerStep`).
Invariants are proved from these descriptions. -/

namespace Folio.Provider

variable {ε : Type}

/-! ## The loads after a step -/

/-- What waits in the queue for a load when it comes to a stage. -/
def due (id : Nat) (callers : List Nat) : LoadStage ε → List Task
  | .starting => [.load id]
  | .waiting _ _ => []
  | .answered _ => [.load id]
  | .finished _ => .settle id :: callers.map (.deliver id)

/-- How a load can come from a stage to the next. -/
inductive LoadMove (p : Provider ε) (e : Event ε) (id : Nat) (slug : String) :
    LoadStage ε → LoadStage ε → Prop where
  | unresolved {error : LoadError ε} (turn : p.task? e = some (.load id))
      (unknown : p.resolve slug = .error error) :
      LoadMove p e id slug .starting (.finished (.error error))
  | called {answer : String → Nat → Answer ε} {key : String} (event : e = .turn answer)
      (turn : p.task? e = some (.load id)) (known : p.resolve slug = .ok key)
      (later : answer key (p.callsOf key) = .later) :
      LoadMove p e id slug .starting (.waiting key (p.callsOf key))
  | returned {answer : String → Nat → Answer ε} {key : String} {result : Except ε Artifact}
      (event : e = .turn answer) (turn : p.task? e = some (.load id))
      (known : p.resolve slug = .ok key) (now : answer key (p.callsOf key) = .now result) :
      LoadMove p e id slug .starting (.finished (result.mapError .loader))
  | received {key : String} {n : Nat} {result : Except ε Artifact} (event : e = .receive id result) :
      LoadMove p e id slug (.waiting key n) (.answered result)
  | answered {result : Except ε Artifact} (turn : p.task? e = some (.load id)) :
      LoadMove p e id slug (.answered result) (.finished (result.mapError .loader))

/-- What a step can do to the loads. -/
inductive LoadsStep (p : Provider ε) (e : Event ε) (q : Provider ε) : Prop where
  | same (loads : q.loads = p.loads)
      (idle : ∀ id l, p.task? e = some (.load id) → p.loads[id]? = some l →
        l.stage ≠ .starting ∧ ∀ result, l.stage ≠ .answered result)
  | registered {id : Nat} {c : Caller ε} (turn : p.task? e = some (.caller id))
      (caller : p.callers[id]? = some c) (starting : c.stage = .starting)
      (uncached : p.cache.lookup c.slug = none) (absent : p.inflight.lookup c.slug = none)
      (inflight : q.inflight.lookup c.slug = some p.loads.length)
      (loads : q.loads = p.loads ++ [⟨c.slug, .starting, [id]⟩])
      (due : .load p.loads.length ∈ q.ready)
  | joined {id loadId : Nat} {l : Load ε} (turn : p.task? e = some (.caller id))
      (load : p.loads[loadId]? = some l) (unfinished : ∀ result, l.stage ≠ .finished result)
      (loads : q.loads = p.loads.set loadId { l with callers := l.callers ++ [id] })
  | moved {id : Nat} {l : Load ε} {stage : LoadStage ε} (load : p.loads[id]? = some l)
      (move : LoadMove p e id l.slug l.stage stage)
      (loads : q.loads = p.loads.set id { l with stage := stage })
      (due : ∀ t ∈ due id l.callers stage, t ∈ q.ready)

theorem modify_eq_set_of_getElem? {α : Type} {l : List α} {i : Nat} {a : α} (f : α → α)
    (h : l[i]? = some a) : l.modify i f = l.set i (f a) := by
  obtain ⟨hi, rfl⟩ := List.getElem?_eq_some_iff.1 h
  exact List.ext_getElem? fun j => by
    rw [List.getElem?_modify, List.getElem?_set]
    by_cases hj : i = j
    · subst hj
      simp [hi]
    · simp [hj]

theorem Effect.loadsStep {answer : String → Nat → Answer ε} {p q : Provider ε} {t : Task}
    (ht : p.task? (.turn answer) = some t) (h : Effect answer p.rest t q) :
    LoadsStep p (.turn answer) q := by
  have hother : (∀ id, t ≠ .load id) → q.loads = p.loads → LoadsStep p (.turn answer) q :=
    fun hne hl => .same hl fun id l ht' _ => absurd (Option.some.inj (ht.symm.trans ht')) (hne id)
  have hmoved : ∀ {id : Nat} {l : Load ε} {stage : LoadStage ε}, p.loads[id]? = some l →
      LoadMove p (.turn answer) id l.slug l.stage stage →
      q.loads = p.loads.modify id (fun l => { l with stage := stage }) →
      (∀ u ∈ due id l.callers stage, u ∈ q.ready) → LoadsStep p (.turn answer) q :=
    fun hl hmove hloads hdue => .moved hl hmove (hloads.trans (modify_eq_set_of_getElem? _ hl)) hdue
  cases h with
  | idle hidle =>
    cases t with
    | load id =>
      refine .same rfl fun id' l ht' hl => ?_
      obtain rfl : id = id' := by simpa using ht.symm.trans ht'
      exact hidle l hl
    | _ => exact hother (by simp) rfl
  | unresolved hl hs hk =>
    exact hmoved hl (hs ▸ .unresolved ht hk) rfl fun u hu => List.mem_append_right _ hu
  | called hl hs hk ha => exact hmoved hl (hs ▸ .called rfl ht hk ha) rfl (by simp [due])
  | returned hl hs hk ha =>
    exact hmoved hl (hs ▸ .returned rfl ht hk ha) rfl fun u hu => List.mem_append_right _ hu
  | answered hl hs => exact hmoved hl (hs ▸ .answered ht) rfl fun u hu => List.mem_append_right _ hu
  | @joined id loadId c hc hs hnone hin hno =>
    cases hl : p.loads[loadId]? with
    | none => exact hother (by simp) (List.modify_eq_self (List.getElem?_eq_none_iff.1 hl))
    | some l => exact .joined ht hl (hno l · hl) (modify_eq_set_of_getElem? _ hl)
  | initiated hc hs hnone habsent =>
    exact .registered ht hc hs hnone habsent (by simp [initiate, setCaller, enqueue, rest])
      rfl (by simp [initiate, enqueue, rest])
  | _ => exact hother (by simp) rfl

theorem loadsStep (p : Provider ε) (e : Event ε) : LoadsStep p e (p.step e) := by
  have hsame : p.task? e = none → (p.step e).loads = p.loads → LoadsStep p e (p.step e) :=
    fun ht hl => .same hl fun id l ht' _ => absurd (ht.symm.trans ht') (by simp)
  rcases step_cases p e with ⟨ht, callers, collections, ready, hq⟩ | ⟨scope, rfl⟩ |
    ⟨id, result, rfl⟩ | ⟨answer, rfl⟩
  · exact hsame ht (by rw [hq])
  · exact hsame rfl (by cases scope <;> rfl)
  · simp only [step, receive]
    split
    · next slug key n callers hl =>
      exact .moved hl (.received rfl) (modify_eq_set_of_getElem? _ hl)
        fun u hu => List.mem_append_right _ hu
    · exact .same rfl fun id l ht _ => absurd ht (by simp [task?])
  · rcases turn_cases answer p with ⟨hnil, hturn⟩ | ⟨t, hhead, heffect⟩
    · exact .same (congrArg Provider.loads hturn) fun id l ht _ => by simp [task?, hnil] at ht
    · exact heffect.loadsStep hhead

/-- What a step can do to one load. -/
inductive LoadStep (p : Provider ε) (e : Event ε) (id : Nat) (q : Provider ε) :
    Option (Load ε) → Option (Load ε) → Prop where
  | absent : LoadStep p e id q none none
  | same {l : Load ε}
      (idle : p.task? e = some (.load id) → l.stage ≠ .starting ∧ ∀ result, l.stage ≠ .answered result) :
      LoadStep p e id q (some l) (some l)
  | registered {callerId : Nat} {c : Caller ε} (new : id = p.loads.length)
      (turn : p.task? e = some (.caller callerId)) (caller : p.callers[callerId]? = some c)
      (starting : c.stage = .starting) (uncached : p.cache.lookup c.slug = none)
      (absent : p.inflight.lookup c.slug = none) (due : .load id ∈ q.ready) :
      LoadStep p e id q none (some ⟨c.slug, .starting, [callerId]⟩)
  | joined {l : Load ε} {callerId : Nat} (turn : p.task? e = some (.caller callerId))
      (unfinished : ∀ result, l.stage ≠ .finished result) :
      LoadStep p e id q (some l) (some { l with callers := l.callers ++ [callerId] })
  | moved {l : Load ε} {stage : LoadStage ε} (move : LoadMove p e id l.slug l.stage stage)
      (due : ∀ t ∈ due id l.callers stage, t ∈ q.ready) :
      LoadStep p e id q (some l) (some { l with stage := stage })

/-- A load that a step does not change is not performed, or its turn is idle. -/
theorem loadStep_of_eq {p q : Provider ε} {e : Event ε} {id : Nat}
    (h : q.loads[id]? = p.loads[id]?)
    (idle : ∀ l, p.task? e = some (.load id) → p.loads[id]? = some l →
      l.stage ≠ .starting ∧ ∀ result, l.stage ≠ .answered result) :
    LoadStep p e id q p.loads[id]? q.loads[id]? := by
  rw [h]
  cases hl : p.loads[id]? with
  | none => exact .absent
  | some l => exact .same fun ht => idle l ht hl

theorem LoadMove.task {p : Provider ε} {e : Event ε} {id : Nat} {slug : String}
    {stage stage' : LoadStage ε} (h : LoadMove p e id slug stage stage') :
    p.task? e = some (.load id) ∨ p.task? e = none := by
  cases h with
  | unresolved turn | called _ turn | returned _ turn | answered turn => exact .inl turn
  | received event => exact .inr (by rw [event]; rfl)

theorem LoadMove.unfinished {p : Provider ε} {e : Event ε} {id : Nat} {slug : String}
    {stage stage' : LoadStage ε} (h : LoadMove p e id slug stage stage')
    (result : Except (LoadError ε) Artifact) : stage ≠ .finished result := by
  cases h <;> simp

theorem LoadMove.started {p : Provider ε} {e : Event ε} {id : Nat} {slug : String}
    {stage stage' : LoadStage ε} (h : LoadMove p e id slug stage stage') : stage' ≠ .starting := by
  cases h <;> simp

theorem loadStep (p : Provider ε) (e : Event ε) (id : Nat) :
    LoadStep p e id (p.step e) p.loads[id]? (p.step e).loads[id]? := by
  rcases loadsStep p e with ⟨loads, idle⟩ | @⟨callerId, c, turn, caller, starting, uncached, absent,
    -, loads, hdue⟩ | ⟨turn, load, unfinished, loads⟩ | ⟨load, move, loads, hdue⟩
  · exact loadStep_of_eq (by rw [loads]) fun l ht hl => idle id l ht hl
  · rw [loads]
    rcases Nat.lt_trichotomy id p.loads.length with hlt | rfl | hgt
    · rw [List.getElem?_append_left hlt, List.getElem?_eq_getElem hlt]
      exact .same fun ht => absurd (turn.symm.trans ht) (by simp)
    · rw [List.getElem?_eq_none (Nat.le_refl _), List.getElem?_concat_length]
      exact .registered rfl turn caller starting uncached absent hdue
    · have hlength : (p.loads ++ [(⟨c.slug, .starting, [callerId]⟩ : Load ε)]).length ≤ id := by
        rw [List.length_append]
        exact hgt
      rw [List.getElem?_eq_none (Nat.le_of_lt hgt), List.getElem?_eq_none hlength]
      exact .absent
  · next callerId loadId l =>
    by_cases hid : loadId = id
    · subst hid
      rw [loads, List.getElem?_set_self (List.getElem?_eq_some_iff.1 load).1, load]
      exact .joined turn unfinished
    · exact loadStep_of_eq (by rw [loads, List.getElem?_set_ne hid])
        fun l ht => absurd (turn.symm.trans ht) (by simp)
  · next id' l stage =>
    by_cases hid : id' = id
    · subst hid
      rw [loads, List.getElem?_set_self (List.getElem?_eq_some_iff.1 load).1, load]
      exact .moved move hdue
    · refine loadStep_of_eq (by rw [loads, List.getElem?_set_ne hid]) fun l ht => ?_
      rcases move.task with ht' | ht'
      · exact absurd (ht'.symm.trans ht) (by simpa using hid)
      · exact absurd (ht'.symm.trans ht) (by simp)

/-! ## The tables after a step -/

/-- An event drops what there is for a slug: it invalidates the slug, or everything. -/
def Event.invalidates (slug : String) : Event ε → Bool
  | .invalidate (some s) => s == slug
  | .invalidate none => true
  | _ => false

/-- What a step can do to the entries for a slug in the cache and among the loads in flight. -/
inductive TablesStep (p : Provider ε) (e : Event ε) (slug : String) (q : Provider ε) : Prop where
  | same (cache : q.cache.lookup slug = p.cache.lookup slug)
      (inflight : q.inflight.lookup slug = p.inflight.lookup slug)
      (idle : ∀ id l result, p.task? e = some (.settle id) → p.loads[id]? = some l →
        l.slug = slug → l.stage = .finished result → p.inflight.lookup slug ≠ some id)
  | dropped (event : e.invalidates slug) (cache : q.cache.lookup slug = none)
      (inflight : q.inflight.lookup slug = none)
  | kept {id : Nat} {l : Load ε} {a : Artifact} (turn : p.task? e = some (.settle id))
      (load : p.loads[id]? = some l) (own : l.slug = slug) (finished : l.stage = .finished (.ok a))
      (was : p.inflight.lookup slug = some id) (cache : q.cache.lookup slug = some a)
      (inflight : q.inflight.lookup slug = none)
  | failed {id : Nat} {l : Load ε} {error : LoadError ε} (turn : p.task? e = some (.settle id))
      (load : p.loads[id]? = some l) (own : l.slug = slug)
      (finished : l.stage = .finished (.error error)) (was : p.inflight.lookup slug = some id)
      (cache : q.cache.lookup slug = p.cache.lookup slug) (inflight : q.inflight.lookup slug = none)
  | registered {id : Nat} {c : Caller ε} (turn : p.task? e = some (.caller id))
      (caller : p.callers[id]? = some c) (own : c.slug = slug) (starting : c.stage = .starting)
      (uncached : p.cache.lookup slug = none) (absent : p.inflight.lookup slug = none)
      (cache : q.cache.lookup slug = none) (inflight : q.inflight.lookup slug = some p.loads.length)
      (loads : q.loads = p.loads ++ [⟨slug, .starting, [id]⟩])

theorem Effect.tablesStep {answer : String → Nat → Answer ε} {p q : Provider ε} {t : Task}
    (ht : p.task? (.turn answer) = some t) (h : Effect answer p.rest t q) (slug : String) :
    TablesStep p (.turn answer) slug q := by
  have hother : (∀ id, t ≠ .settle id) → q.cache.lookup slug = p.cache.lookup slug →
      q.inflight.lookup slug = p.inflight.lookup slug → TablesStep p (.turn answer) slug q :=
    fun hne hc hi => .same hc hi fun id l r ht' _ _ _ =>
      absurd (Option.some.inj (ht.symm.trans ht')) (hne id)
  -- settling a load touches the entries for its own slug only
  have hforeign : ∀ {id : Nat} {l : Load ε}, t = .settle id → p.loads[id]? = some l →
      l.slug ≠ slug → q.cache.lookup slug = p.cache.lookup slug →
      q.inflight.lookup slug = p.inflight.lookup slug → TablesStep p (.turn answer) slug q := by
    intro id l htid hl hne hc hi
    refine .same hc hi fun id' l' r ht' hl' hslug _ => absurd hslug ?_
    obtain rfl : id = id' := by simpa [htid] using ht.symm.trans ht'
    obtain rfl : l = l' := Option.some.inj (hl.symm.trans hl')
    exact hne
  cases h with
  | idle hidle =>
    cases t with
    | settle id =>
      refine .same rfl rfl fun id' l r ht' hl hslug hr => ?_
      obtain rfl : id = id' := by simpa using ht.symm.trans ht'
      exact hslug ▸ hidle l r hl hr
    | _ => exact hother (by simp) rfl rfl
  | @kept id l a hl hs hin =>
    by_cases hslug : l.slug = slug
    · subst hslug
      exact .kept ht hl rfl hs hin (by simp) (by simp)
    · have hne : slug ≠ l.slug := fun h => hslug h.symm
      exact hforeign rfl hl hslug (by simp [hne, rest]) (by simp [hne, rest])
  | @dropped id l error hl hs hin =>
    by_cases hslug : l.slug = slug
    · subst hslug
      exact .failed ht hl rfl hs hin rfl (by simp)
    · have hne : slug ≠ l.slug := fun h => hslug h.symm
      exact hforeign rfl hl hslug rfl (by simp [hne, rest])
  | @initiated id c hc hs hnone habsent =>
    by_cases hslug : c.slug = slug
    · subst hslug
      exact .registered ht hc rfl hs hnone habsent hnone
        (by simp [initiate, setCaller, enqueue, rest]) rfl
    · have hne : slug ≠ c.slug := fun h => hslug h.symm
      exact hother (by simp) rfl (by simp [initiate, setCaller, enqueue, rest, hne])
  | _ => exact hother (by simp) rfl rfl

theorem tablesStep (p : Provider ε) (e : Event ε) (slug : String) :
    TablesStep p e slug (p.step e) := by
  have hsame : p.task? e = none → (p.step e).cache = p.cache → (p.step e).inflight = p.inflight →
      TablesStep p e slug (p.step e) :=
    fun ht hc hi => .same (by rw [hc]) (by rw [hi]) fun id l r ht' _ _ _ =>
      absurd (ht.symm.trans ht') (by simp)
  rcases step_cases p e with ⟨ht, callers, collections, ready, hq⟩ | ⟨scope, rfl⟩ |
    ⟨id, result, rfl⟩ | ⟨answer, rfl⟩
  · exact hsame ht (by rw [hq]) (by rw [hq])
  · cases scope with
    | none => exact .dropped rfl rfl rfl
    | some s =>
      by_cases hs : s = slug
      · subst hs
        exact .dropped (by simp [Event.invalidates]) (by simp [step, invalidate])
          (by simp [step, invalidate])
      · have hne : slug ≠ s := fun h => hs h.symm
        exact .same (by simp [step, invalidate, hne]) (by simp [step, invalidate, hne])
          fun id l r ht _ _ _ => absurd ht (by simp [task?])
  · refine hsame rfl ?_ ?_
    · simp only [step, receive]
      split <;> rfl
    · simp only [step, receive]
      split <;> rfl
  · rcases turn_cases answer p with ⟨hnil, hturn⟩ | ⟨t, hhead, heffect⟩
    · refine .same (by simp only [step, hturn]) (by simp only [step, hturn]) ?_
      intro id l r ht _ _ _
      simp [task?, hnil] at ht
    · exact heffect.tablesStep hhead slug

/-! ## The callers after a step -/

/-- An event cancels a caller, by itself or with the collection that has gathered it. -/
def Cancels (p : Provider ε) (e : Event ε) (id : Nat) : Prop :=
  e = .cancelCaller id ∨ ∃ k c ids left, e = .cancelCollection k ∧ p.collections[k]? = some c ∧
    c.stage = .gathering ids left ∧ id ∈ ids

/-- How a caller can come from a stage to the next. -/
inductive CallerMove (p : Provider ε) (e : Event ε) (id : Nat) (q : Provider ε) (c : Caller ε) :
    CallerStage ε → Prop where
  | cached {a : Artifact} (turn : p.task? e = some (.caller id)) (starting : c.stage = .starting)
      (cached : p.cache.lookup c.slug = some a) : CallerMove p e id q c (.finished (.done a))
  | given {loadId : Nat} {l : Load ε} {result : Except (LoadError ε) Artifact}
      (turn : p.task? e = some (.caller id)) (starting : c.stage = .starting)
      (uncached : p.cache.lookup c.slug = none) (inflight : p.inflight.lookup c.slug = some loadId)
      (load : p.loads[loadId]? = some l) (finished : l.stage = .finished result) :
      CallerMove p e id q c (.finished (.ofResult result))
  | joined {loadId : Nat} (turn : p.task? e = some (.caller id)) (starting : c.stage = .starting)
      (uncached : p.cache.lookup c.slug = none) (inflight : p.inflight.lookup c.slug = some loadId)
      (unfinished : ∀ l result, p.loads[loadId]? = some l → l.stage ≠ .finished result)
      (loads : q.loads = p.loads.modify loadId fun l => { l with callers := l.callers ++ [id] }) :
      CallerMove p e id q c (.waiting loadId)
  | initiated (turn : p.task? e = some (.caller id)) (starting : c.stage = .starting)
      (uncached : p.cache.lookup c.slug = none) (absent : p.inflight.lookup c.slug = none)
      (loads : q.loads = p.loads ++ [⟨c.slug, .starting, [id]⟩]) :
      CallerMove p e id q c (.waiting p.loads.length)
  | delivered {loadId : Nat} {l : Load ε} {result : Except (LoadError ε) Artifact}
      (turn : p.task? e = some (.deliver loadId id)) (waiting : c.stage = .waiting loadId)
      (load : p.loads[loadId]? = some l) (finished : l.stage = .finished result)
      (due : .caller id ∈ q.ready) : CallerMove p e id q c (.ending (.ofResult result))
  | ended {outcome : Outcome ε Artifact} (turn : p.task? e = some (.caller id))
      (ending : c.stage = .ending outcome) : CallerMove p e id q c (.finished outcome)
  | cancelled (event : p.Cancels e id) (unfinished : ∀ outcome, c.stage ≠ .finished outcome)
      (due : ∀ loadId, c.stage = .waiting loadId → .caller id ∈ q.ready) :
      CallerMove p e id q c (.ending .cancelled)

/-- What a step can do to a caller. -/
inductive CallerStep (p : Provider ε) (e : Event ε) (id : Nat) (q : Provider ε) :
    Option (Caller ε) → Option (Caller ε) → Prop where
  | absent : CallerStep p e id q none none
  | same {c : Caller ε}
      (started : p.task? e = some (.caller id) →
        c.stage ≠ .starting ∧ ∀ outcome, c.stage ≠ .ending outcome)
      (delivered : ∀ loadId l result, p.task? e = some (.deliver loadId id) →
        p.loads[loadId]? = some l → l.stage = .finished result → c.stage ≠ .waiting loadId) :
      CallerStep p e id q (some c) (some c)
  | asked {slug : String} {collection : Option Nat} (due : .caller id ∈ q.ready) :
      CallerStep p e id q none (some ⟨slug, collection, .starting⟩)
  | moved {c : Caller ε} {stage : CallerStage ε} (move : CallerMove p e id q c stage) :
      CallerStep p e id q (some c) (some { c with stage := stage })

/-- A step that leaves a caller as it is, and performs no task of it. -/
theorem callerStep_of_eq {p q : Provider ε} {e : Event ε} {id : Nat}
    (h : q.callers[id]? = p.callers[id]?) (hcaller : p.task? e ≠ some (.caller id))
    (hdeliver : ∀ loadId, p.task? e ≠ some (.deliver loadId id)) :
    CallerStep p e id q p.callers[id]? q.callers[id]? := by
  rw [h]
  cases p.callers[id]? with
  | none => exact .absent
  | some c => exact .same (fun ht => absurd ht hcaller) fun loadId _ _ ht => absurd ht (hdeliver loadId)

/-- New callers are starting, and wait in the queue. -/
theorem callerStep_of_append {p q : Provider ε} {e : Event ε} {id : Nat} {new : List (Caller ε)}
    (h : q.callers = p.callers ++ new) (hstarting : ∀ c ∈ new, c.stage = .starting)
    (hdue : ∀ i < new.length, .caller (p.callers.length + i) ∈ q.ready)
    (hcaller : p.task? e ≠ some (.caller id))
    (hdeliver : ∀ loadId, p.task? e ≠ some (.deliver loadId id)) :
    CallerStep p e id q p.callers[id]? q.callers[id]? := by
  by_cases hid : id < p.callers.length
  · exact callerStep_of_eq (by rw [h, List.getElem?_append_left hid]) hcaller hdeliver
  · have hle : p.callers.length ≤ id := Nat.le_of_not_lt hid
    rw [List.getElem?_eq_none hle, h, List.getElem?_append_right hle]
    cases hc : new[id - p.callers.length]? with
    | none => exact .absent
    | some c =>
      obtain ⟨hlt, hget⟩ := List.getElem?_eq_some_iff.1 hc
      obtain ⟨slug, collection, stage⟩ := c
      obtain rfl : stage = .starting := hstarting _ (hget ▸ List.getElem_mem hlt)
      have hmem := hdue _ hlt
      rw [Nat.add_sub_cancel' hle] at hmem
      exact .asked hmem

/-- A step in which one caller comes to another stage. -/
theorem callerStep_of_setCaller {p q : Provider ε} {e : Event ε} {id i : Nat} {c : Caller ε}
    {stage : CallerStage ε} (hc : p.callers[i]? = some c)
    (h : q.callers = p.callers.modify i fun c => { c with stage := stage })
    (hmove : CallerMove p e i q c stage)
    (htask : i ≠ id → p.task? e ≠ some (.caller id) ∧ ∀ loadId, p.task? e ≠ some (.deliver loadId id)) :
    CallerStep p e id q p.callers[id]? q.callers[id]? := by
  by_cases hid : i = id
  · subst hid
    rw [h, List.getElem?_modify_eq, hc]
    exact .moved hmove
  · exact callerStep_of_eq (by rw [h, List.getElem?_modify_ne _ _ hid]) (htask hid).1 (htask hid).2

theorem Effect.callerStep {answer : String → Nat → Answer ε} {p q : Provider ε} {t : Task}
    (ht : p.task? (.turn answer) = some t) (h : Effect answer p.rest t q) (id : Nat) :
    CallerStep p (.turn answer) id q p.callers[id]? q.callers[id]? := by
  have hother : (∀ i, t ≠ .caller i) → (∀ loadId i, t ≠ .deliver loadId i) → q.callers = p.callers →
      CallerStep p (.turn answer) id q p.callers[id]? q.callers[id]? :=
    fun hc hd hq => callerStep_of_eq (by rw [hq])
      (fun ht' => hc id (Option.some.inj (ht.symm.trans ht')))
      fun loadId ht' => hd loadId id (Option.some.inj (ht.symm.trans ht'))
  have hcaller : ∀ {i : Nat} {c : Caller ε} {stage : CallerStage ε}, t = .caller i →
      p.callers[i]? = some c → q.callers = p.callers.modify i (fun c => { c with stage := stage }) →
      CallerMove p (.turn answer) i q c stage →
      CallerStep p (.turn answer) id q p.callers[id]? q.callers[id]? := by
    intro i c stage hti hc hq hmove
    subst hti
    refine callerStep_of_setCaller hc hq hmove fun hne => ⟨?_, ?_⟩
    · simpa [ht] using hne
    · simp [ht]
  -- a turn moves the caller of whom its task speaks, and no other one
  cases h with
  | idle hidle =>
    cases hc : p.callers[id]? with
    | none =>
      simp only [rest, hc]
      exact .absent
    | some c =>
      simp only [rest, hc]
      refine .same (fun ht' => ?_) fun loadId l r ht' hl hr => ?_
      · obtain rfl : t = .caller id := Option.some.inj (ht.symm.trans ht')
        exact hidle c hc
      · obtain rfl : t = .deliver loadId id := Option.some.inj (ht.symm.trans ht')
        exact hidle l c r hl hr hc
  | @delivered loadId i l c result hl hs hc hw =>
    refine callerStep_of_setCaller hc rfl (.delivered ht hw hl hs (by simp [enqueue])) fun hne => ?_
    refine ⟨by simp [ht], fun loadId' => ?_⟩
    simp [ht, hne]
  | cached hc hs ha => exact hcaller rfl hc rfl (.cached ht hs ha)
  | given hc hs hnone hin hl hf => exact hcaller rfl hc rfl (.given ht hs hnone hin hl hf)
  | joined hc hs hnone hin hno => exact hcaller rfl hc rfl (.joined ht hs hnone hin hno rfl)
  | initiated hc hs hnone habsent =>
    exact hcaller rfl hc rfl (.initiated ht hs hnone habsent rfl)
  | ended hc hs => exact hcaller rfl hc rfl (.ended ht hs)
  | @gathered k c slugs hk hs hslugs =>
    refine callerStep_of_append rfl (fun c hc => ?_) (fun i hi => ?_) (by simp [ht]) (by simp [ht])
    · obtain ⟨slug, -, rfl⟩ := List.mem_map.1 hc
      rfl
    · refine List.mem_append_right _ (List.mem_map_of_mem (List.mem_map.2 ⟨i, ?_, rfl⟩))
      simpa using hi
  | _ => exact hother (by simp) (by simp) rfl

/-- A caller after it has been cancelled: it ends, unless it has ended. -/
def afterCancel (c : Caller ε) : Caller ε :=
  match c.stage with
  | .finished _ => c
  | _ => { c with stage := .ending .cancelled }

theorem afterCancel_afterCancel (c : Caller ε) : afterCancel (afterCancel c) = afterCancel c := by
  obtain ⟨slug, collection, stage⟩ := c
  cases stage <;> rfl

theorem callers_cancelCaller (p : Provider ε) (id : Nat) :
    (p.cancelCaller id).1.callers = p.callers.modify id afterCancel := by
  unfold cancelCaller
  split
  · next hc => exact (List.modify_eq_self (List.getElem?_eq_none_iff.1 hc)).symm
  · next c hc =>
    rw [modify_eq_set_of_getElem? _ hc]
    obtain ⟨slug, collection, stage⟩ := c
    cases stage with
    | finished outcome =>
      obtain ⟨hi, hget⟩ := List.getElem?_eq_some_iff.1 hc
      simp only [afterCancel, ← hget, List.set_getElem_self]
    | _ => exact modify_eq_set_of_getElem? _ hc

theorem getElem?_callers_cancelCallers (ids : List Nat) (p : Provider ε) (id : Nat) :
    (p.cancelCallers ids).1.callers[id]?
      = if id ∈ ids then p.callers[id]?.map afterCancel else p.callers[id]? := by
  induction ids generalizing p with
  | nil => rfl
  | cons i rest ih =>
    have h := ih (p.cancelCaller i).1
    rw [callers_cancelCaller, List.getElem?_modify] at h
    refine h.trans ?_
    by_cases hi : i = id
    · subst hi
      cases p.callers[i]? <;> simp [afterCancel_afterCancel]
    · have hne : id ≠ i := fun h => hi h.symm
      by_cases hmem : id ∈ rest <;> simp [hi, hne, hmem]

theorem due_cancelCaller {p : Provider ε} {id loadId : Nat} {c : Caller ε}
    (hc : p.callers[id]? = some c) (hw : c.stage = .waiting loadId) :
    .caller id ∈ (p.cancelCaller id).1.ready := by
  simp [cancelCaller, hc, hw, enqueue]

theorem due_cancelCallers {ids : List Nat} {p : Provider ε} {id loadId : Nat} {c : Caller ε}
    (hmem : id ∈ ids) (hc : p.callers[id]? = some c) (hw : c.stage = .waiting loadId) :
    .caller id ∈ (p.cancelCallers ids).1.ready := by
  induction ids generalizing p with
  | nil => simp at hmem
  | cons i rest ih =>
    by_cases hi : i = id
    · subst hi
      exact ready_subset_cancelCallers rest _ (due_cancelCaller hc hw)
    · refine ih (p := (p.cancelCaller i).1) ?_ ?_
      · exact (List.mem_cons.1 hmem).resolve_left fun h => hi h.symm
      · rw [callers_cancelCaller, List.getElem?_modify_ne _ _ hi, hc]

/-- A step that performs no task and cancels a caller. -/
theorem callerStep_of_cancel {p q : Provider ε} {e : Event ε} {id : Nat} {c : Caller ε}
    (hc : p.callers[id]? = some c) (hq : q.callers[id]? = some (afterCancel c))
    (htask : p.task? e = none) (hcancel : p.Cancels e id)
    (hdue : ∀ loadId, c.stage = .waiting loadId → .caller id ∈ q.ready) :
    CallerStep p e id q p.callers[id]? q.callers[id]? := by
  rw [hc, hq]
  obtain ⟨slug, collection, stage⟩ := c
  cases stage with
  | finished outcome => exact .same (by simp [htask]) (by simp [htask])
  | starting => exact .moved (.cancelled hcancel (by simp) hdue)
  | waiting loadId => exact .moved (.cancelled hcancel (by simp) hdue)
  | ending outcome => exact .moved (.cancelled hcancel (by simp) hdue)

theorem callerStep (p : Provider ε) (e : Event ε) (id : Nat) :
    CallerStep p e id (p.step e) p.callers[id]? (p.step e).callers[id]? := by
  have hsame : p.task? e = none → (p.step e).callers[id]? = p.callers[id]? →
      CallerStep p e id (p.step e) p.callers[id]? (p.step e).callers[id]? :=
    fun ht hq => callerStep_of_eq hq (by simp [ht]) (by simp [ht])
  cases e with
  | request slug =>
    refine callerStep_of_append rfl (by simp) (fun i hi => ?_) (by simp [task?]) (by simp [task?])
    obtain rfl : i = 0 := by simpa using hi
    simp [step, request, enqueue]
  | requestAll filters => exact hsame rfl rfl
  | cancelCaller i =>
    by_cases hi : i = id
    · subst hi
      cases hc : p.callers[i]? with
      | none =>
        rw [show (p.step (.cancelCaller i)).callers[i]? = none by
          simp [step, callers_cancelCaller, hc]]
        exact .absent
      | some c =>
        rw [← hc]
        refine callerStep_of_cancel hc ?_ rfl (.inl rfl) fun loadId hw => due_cancelCaller hc hw
        simp [step, callers_cancelCaller, hc]
    · exact hsame rfl (by simp [step, callers_cancelCaller, hi])
  | cancelCollection k =>
    cases hk : p.collections[k]? with
    | none => exact hsame rfl (by simp [step, cancelCollection, hk])
    | some col =>
      cases hs : col.stage with
      | gathering ids left =>
        have hq : (p.step (.cancelCollection k)).callers = (p.cancelCallers ids).1.callers := by
          simp [step, cancelCollection, hk, hs]
        have hready : (p.step (.cancelCollection k)).ready = (p.cancelCallers ids).1.ready := by
          simp [step, cancelCollection, hk, hs]
        have hget := getElem?_callers_cancelCallers ids p id
        by_cases hmem : id ∈ ids
        · cases hc : p.callers[id]? with
          | none =>
            rw [hq, hget, if_pos hmem, hc]
            exact .absent
          | some c =>
            rw [← hc]
            refine callerStep_of_cancel hc ?_ rfl ?_ fun loadId hw => ?_
            · rw [hq, hget, if_pos hmem, hc, Option.map_some]
            · exact .inr ⟨k, col, ids, left, rfl, hk, hs, hmem⟩
            · rw [hready]
              exact due_cancelCallers hmem hc hw
        · exact hsame rfl (by rw [hq, hget, if_neg hmem])
      | _ => exact hsame rfl (by simp [step, cancelCollection, hk, hs, setCollection])
  | invalidate scope => exact hsame rfl (by cases scope <;> rfl)
  | receive i result =>
    refine hsame rfl ?_
    simp only [step, receive]
    split <;> rfl
  | turn answer =>
    rcases turn_cases answer p with ⟨hnil, hturn⟩ | ⟨t, hhead, heffect⟩
    · exact callerStep_of_eq (by simp only [step, hturn]) (by simp [task?, hnil])
        (by simp [task?, hnil])
    · exact heffect.callerStep hhead id

end Folio.Provider

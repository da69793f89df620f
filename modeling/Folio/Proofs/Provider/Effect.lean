import Folio.Provider

set_option autoImplicit false

/-! # What performing a task can do

In a turn the first task of the queue is performed. `Effect` lists what this can do to a provider, with
the guards that make it do so, and `turn_cases` says that a turn does nothing else. The queue itself only
grows at its end, so what waits in it is performed some time (`mem_ready_step`). -/

namespace Folio.Provider

variable {ε : Type}

/-! ## Tables -/

@[simp] theorem lookup_without {α : Type} (key k : String) (table : List (String × α)) :
    (without key table).lookup k = if k = key then none else table.lookup k := by
  induction table with
  | nil => simp [without]
  | cons e rest ih =>
    obtain ⟨k', v⟩ := e
    have hcons : without key ((k', v) :: rest)
        = if k' = key then without key rest else (k', v) :: without key rest := by
      by_cases hk' : k' = key <;> simp [without, hk']
    rw [hcons]
    by_cases hk' : k' = key
    · rw [if_pos hk', ih]
      subst hk'
      by_cases hk : k = k'
      · rw [if_pos hk, if_pos hk]
      · rw [if_neg hk, if_neg hk, List.lookup_cons, beq_eq_false_iff_ne.2 hk]
    · rw [if_neg hk', List.lookup_cons, List.lookup_cons, ih]
      by_cases hk : k = k'
      · subst hk
        simp [hk']
      · rw [beq_eq_false_iff_ne.2 hk]

@[simp] theorem lookup_withEntry {α : Type} (key k : String) (value : α)
    (table : List (String × α)) :
    (withEntry key value table).lookup k = if k = key then some value else table.lookup k := by
  rw [withEntry, List.lookup_append, lookup_without]
  by_cases hk : k = key
  · simp [hk]
  · simp [hk, List.lookup_cons, beq_eq_false_iff_ne.2 hk]

/-! ## The queue -/

/-- The task that an event performs: in a turn, the first of the queue. -/
def task? (p : Provider ε) : Event ε → Option Task
  | .turn _ => p.ready.head?
  | _ => none

/-- The provider without the first task of its queue. -/
def rest (p : Provider ε) : Provider ε :=
  { p with ready := p.ready.tail }

/-- In the turn of a task there is nothing to do. Tasks of collections are not looked into. -/
def Idle (p : Provider ε) : Task → Prop
  | .load id => ∀ l, p.loads[id]? = some l → l.stage ≠ .starting ∧ ∀ result, l.stage ≠ .answered result
  | .settle id => ∀ l result, p.loads[id]? = some l → l.stage = .finished result →
      p.inflight.lookup l.slug ≠ some id
  | .deliver loadId id => ∀ l c result, p.loads[loadId]? = some l → l.stage = .finished result →
      p.callers[id]? = some c → c.stage ≠ .waiting loadId
  | .caller id => ∀ c, p.callers[id]? = some c →
      c.stage ≠ .starting ∧ ∀ outcome, c.stage ≠ .ending outcome
  | .report _ _ => True
  | .collection _ => True

/-- What performing a task can do, with what made it do so. -/
inductive Effect (answer : String → Nat → Answer ε) (p : Provider ε) : Task → Provider ε → Prop where
  | idle {t : Task} (idle : p.Idle t) : Effect answer p t p
  | unresolved {id : Nat} {l : Load ε} {e : LoadError ε} (load : p.loads[id]? = some l)
      (starting : l.stage = .starting) (unknown : p.resolve l.slug = .error e) :
      Effect answer p (.load id) (p.finishLoad id l (.error e))
  | called {id : Nat} {l : Load ε} {key : String} (load : p.loads[id]? = some l)
      (starting : l.stage = .starting) (known : p.resolve l.slug = .ok key)
      (later : answer key (p.callsOf key) = .later) :
      Effect answer p (.load id)
        (Provider.setLoad { p with calls := withEntry key (p.callsOf key + 1) p.calls } id
          (.waiting key (p.callsOf key)))
  | returned {id : Nat} {l : Load ε} {key : String} {result : Except ε Artifact}
      (load : p.loads[id]? = some l) (starting : l.stage = .starting)
      (known : p.resolve l.slug = .ok key) (now : answer key (p.callsOf key) = .now result) :
      Effect answer p (.load id)
        (Provider.finishLoad { p with calls := withEntry key (p.callsOf key + 1) p.calls } id l
          (result.mapError .loader))
  | answered {id : Nat} {l : Load ε} {result : Except ε Artifact} (load : p.loads[id]? = some l)
      (answered : l.stage = .answered result) :
      Effect answer p (.load id) (p.finishLoad id l (result.mapError .loader))
  | kept {id : Nat} {l : Load ε} {a : Artifact} (load : p.loads[id]? = some l)
      (finished : l.stage = .finished (.ok a)) (inflight : p.inflight.lookup l.slug = some id) :
      Effect answer p (.settle id)
        { p with inflight := without l.slug p.inflight, cache := withEntry l.slug a p.cache }
  | dropped {id : Nat} {l : Load ε} {e : LoadError ε} (load : p.loads[id]? = some l)
      (finished : l.stage = .finished (.error e)) (inflight : p.inflight.lookup l.slug = some id) :
      Effect answer p (.settle id) { p with inflight := without l.slug p.inflight }
  | delivered {loadId id : Nat} {l : Load ε} {c : Caller ε} {result : Except (LoadError ε) Artifact}
      (load : p.loads[loadId]? = some l) (finished : l.stage = .finished result)
      (caller : p.callers[id]? = some c) (waiting : c.stage = .waiting loadId) :
      Effect answer p (.deliver loadId id)
        ((p.setCaller id (.ending (.ofResult result))).enqueue [.caller id])
  | cached {id : Nat} {c : Caller ε} {a : Artifact} (caller : p.callers[id]? = some c)
      (starting : c.stage = .starting) (cached : p.cache.lookup c.slug = some a) :
      Effect answer p (.caller id) (p.finishCaller id c (.done a))
  | given {id loadId : Nat} {c : Caller ε} {l : Load ε} {result : Except (LoadError ε) Artifact}
      (caller : p.callers[id]? = some c) (starting : c.stage = .starting)
      (uncached : p.cache.lookup c.slug = none) (inflight : p.inflight.lookup c.slug = some loadId)
      (load : p.loads[loadId]? = some l) (finished : l.stage = .finished result) :
      Effect answer p (.caller id) (p.finishCaller id c (.ofResult result))
  | joined {id loadId : Nat} {c : Caller ε} (caller : p.callers[id]? = some c)
      (starting : c.stage = .starting) (uncached : p.cache.lookup c.slug = none)
      (inflight : p.inflight.lookup c.slug = some loadId)
      (unfinished : ∀ l result, p.loads[loadId]? = some l → l.stage ≠ .finished result) :
      Effect answer p (.caller id)
        (Provider.setCaller { p with loads := p.loads.modify loadId fun l =>
          { l with callers := l.callers ++ [id] } } id (.waiting loadId))
  | initiated {id : Nat} {c : Caller ε} (caller : p.callers[id]? = some c)
      (starting : c.stage = .starting) (uncached : p.cache.lookup c.slug = none)
      (absent : p.inflight.lookup c.slug = none) :
      Effect answer p (.caller id) (p.initiate id c.slug)
  | ended {id : Nat} {c : Caller ε} {outcome : Outcome ε Artifact} (caller : p.callers[id]? = some c)
      (ending : c.stage = .ending outcome) :
      Effect answer p (.caller id) (p.finishCaller id c outcome)
  | gathered {id : Nat} {c : Collection ε} {slugs : List String}
      (collection : p.collections[id]? = some c) (starting : c.stage = .starting)
      (known : p.catalogue.slugs = .ok slugs) :
      Effect answer p (.collection id)
        ((Provider.setCollection
          { p with callers := p.callers ++ slugs.map fun slug => ⟨slug, some id, .starting⟩ } id
          (.gathering ((List.range slugs.length).map (p.callers.length + ·)) slugs.length)).enqueue
          (((List.range slugs.length).map (p.callers.length + ·)).map .caller))
  | reported {id callerId : Nat} {c : Collection ε} {ids : List Nat} {left : Nat}
      {stage : CollectionStage ε} {tasks : List Task} (collection : p.collections[id]? = some c)
      (gathering : c.stage = .gathering ids left)
      (decided : (∃ outcome, stage = .ending outcome) ∨ ∃ left, stage = .gathering ids left)
      (due : tasks = [.collection id] ∨ tasks = []) :
      Effect answer p (.report id callerId) ((p.setCollection id stage).enqueue tasks)
  | concluded {id : Nat} {c : Collection ε} {outcome : CollectOutcome ε}
      (collection : p.collections[id]? = some c) :
      Effect answer p (.collection id) (p.setCollection id (.finished outcome))

theorem effect_turnLoad (answer : String → Nat → Answer ε) (p : Provider ε) (id : Nat) :
    Effect answer p (.load id) (p.turnLoad answer id) := by
  unfold turnLoad
  split
  · next hl => exact .idle (fun l h => absurd (hl.symm.trans h) (by simp))
  · next l hl =>
    split
    · next hs =>
      unfold startLoad
      split
      · next e hk => exact .unresolved hl hs hk
      · next key hk =>
        dsimp only
        split
        · next result ha => exact .returned hl hs hk ha
        · next ha => exact .called hl hs hk ha
    · next result hs => exact .answered hl hs
    · next h1 h2 =>
      refine .idle (fun l' h => ?_)
      obtain rfl : l = l' := Option.some.inj (hl.symm.trans h)
      exact ⟨h1, h2⟩

theorem effect_settle (answer : String → Nat → Answer ε) (p : Provider ε) (id : Nat) :
    Effect answer p (.settle id) (p.settle id) := by
  unfold settle
  split
  · next slug result callers hl =>
    split
    · next hin =>
      cases result with
      | ok a => exact .kept hl rfl hin
      | error e => exact .dropped hl rfl hin
    · next hin =>
      refine .idle (fun l r h _ => ?_)
      obtain rfl := Option.some.inj (hl.symm.trans h)
      exact hin
  · next hno =>
    refine .idle (fun l r h hr => ?_)
    obtain ⟨slug, stage, callers⟩ := l
    obtain rfl : stage = .finished r := hr
    exact absurd h (hno slug r callers)

theorem effect_deliver (answer : String → Nat → Answer ε) (p : Provider ε) (loadId id : Nat) :
    Effect answer p (.deliver loadId id) (p.deliver loadId id) := by
  unfold deliver
  split
  · next slug result callers cslug collection waited hl hc =>
    split
    · next hw =>
      subst hw
      exact .delivered hl rfl hc rfl
    · next hw =>
      refine .idle (fun l c r _ _ h hs => hw ?_)
      obtain rfl := Option.some.inj (hc.symm.trans h)
      exact CallerStage.waiting.inj hs
  · next hno =>
    refine .idle (fun l c r hl hr hc hs => ?_)
    obtain ⟨slug, stage, callers⟩ := l
    obtain ⟨cslug, collection, cstage⟩ := c
    obtain rfl : stage = .finished r := hr
    obtain rfl : cstage = .waiting loadId := hs
    exact hno slug r callers cslug collection loadId hl hc

theorem effect_turnCaller (answer : String → Nat → Answer ε) (p : Provider ε) (id : Nat) :
    Effect answer p (.caller id) (p.turnCaller id) := by
  unfold turnCaller
  split
  · next hc => exact .idle (fun c h => absurd (hc.symm.trans h) (by simp))
  · next c hc =>
    split
    · next hs =>
      unfold startCaller
      split
      · next a ha => exact .cached hc hs ha
      · next hnone =>
        split
        · next loadId hin =>
          unfold join
          split
          · next slug result callers hl => exact .given hc hs hnone hin hl rfl
          · next hno =>
            refine .joined hc hs hnone hin (fun l r h hr => ?_)
            obtain ⟨slug, stage, callers⟩ := l
            obtain rfl : stage = .finished r := hr
            exact hno slug r callers h
        · next hin => exact .initiated hc hs hnone hin
    · next outcome hs => exact .ended hc hs
    · next h1 h2 =>
      refine .idle (fun c' h => ?_)
      obtain rfl : c = c' := Option.some.inj (hc.symm.trans h)
      exact ⟨h1, h2⟩

theorem effect_report (answer : String → Nat → Answer ε) (p : Provider ε) (id callerId : Nat) :
    Effect answer p (.report id callerId) (p.report id callerId) := by
  unfold report
  split
  · next c cslug collection outcome hk hc =>
    split
    · next ids left hs =>
      split
      · exact .reported hk hs (.inl ⟨_, rfl⟩) (.inl rfl)
      · exact .reported hk hs (.inl ⟨_, rfl⟩) (.inl rfl)
      · split
        · exact .reported hk hs (.inl ⟨_, rfl⟩) (.inl rfl)
        · have h : Effect answer p (.report id callerId)
              ((p.setCollection id (.gathering ids (left - 1))).enqueue []) :=
            .reported hk hs (.inr ⟨left - 1, rfl⟩) (.inr rfl)
          simpa [enqueue] using h
    · exact .idle trivial
  · exact .idle trivial

theorem effect_turnCollection (answer : String → Nat → Answer ε) (p : Provider ε) (id : Nat) :
    Effect answer p (.collection id) (p.turnCollection id) := by
  unfold turnCollection
  split
  · exact .idle trivial
  · next c hk =>
    split
    · next hs =>
      unfold startCollection
      split
      · exact .concluded hk
      · exact .concluded hk
      · next slugs hslugs =>
        have h : Effect answer p (.collection id) _ := .gathered hk hs hslugs
        simpa using h
    · exact .concluded hk
    · exact .concluded hk
    · exact .idle trivial

theorem effect_perform (answer : String → Nat → Answer ε) (p : Provider ε) (t : Task) :
    Effect answer p t (p.perform answer t) := by
  cases t with
  | load id => exact effect_turnLoad answer p id
  | settle id => exact effect_settle answer p id
  | deliver loadId id => exact effect_deliver answer p loadId id
  | caller id => exact effect_turnCaller answer p id
  | report id callerId => exact effect_report answer p id callerId
  | collection id => exact effect_turnCollection answer p id

/-! ## The queue after a step -/

theorem Effect.ready_subset {answer : String → Nat → Answer ε} {p q : Provider ε} {t : Task}
    (h : Effect answer p t q) : p.ready ⊆ q.ready := by
  cases h with
  | idle | called | kept | dropped | joined | concluded => exact List.Subset.refl _
  | unresolved | returned | answered | delivered | cached | given | initiated | ended | gathered
  | reported => exact List.subset_append_left _ _

/-- Cancelling a caller changes callers and the queue only. -/
theorem cancelCaller_frame (p : Provider ε) (id : Nat) :
    ∃ callers ready, (p.cancelCaller id).1 = { p with callers := callers, ready := ready } := by
  unfold cancelCaller
  split
  · exact ⟨_, _, rfl⟩
  · split <;> exact ⟨_, _, rfl⟩

theorem cancelCallers_frame (ids : List Nat) (p : Provider ε) :
    ∃ callers ready, (p.cancelCallers ids).1 = { p with callers := callers, ready := ready } := by
  induction ids generalizing p with
  | nil => exact ⟨_, _, rfl⟩
  | cons id rest ih =>
    obtain ⟨callers, ready, h⟩ := cancelCaller_frame p id
    obtain ⟨callers', ready', h'⟩ := ih (p.cancelCaller id).1
    exact ⟨callers', ready', h'.trans (by rw [h])⟩

/-- Cancelling a collection changes callers, collections and the queue only. -/
theorem cancelCollection_frame (p : Provider ε) (id : Nat) :
    ∃ callers collections ready, (p.cancelCollection id).1
      = { p with callers := callers, collections := collections, ready := ready } := by
  unfold cancelCollection
  split
  · exact ⟨_, _, _, rfl⟩
  · split
    · exact ⟨_, _, _, rfl⟩
    · next ids _ _ =>
      obtain ⟨callers, ready, h⟩ := cancelCallers_frame ids p
      exact ⟨callers, _, ready, by simp only [h]; rfl⟩
    · exact ⟨_, _, _, rfl⟩

/-- An event is a request or a cancellation, which changes callers, collections and the queue only, or
    one of the others. -/
theorem step_cases (p : Provider ε) (e : Event ε) :
    (p.task? e = none ∧ ∃ callers collections ready,
      p.step e = { p with callers := callers, collections := collections, ready := ready }) ∨
    (∃ scope, e = .invalidate scope) ∨ (∃ id result, e = .receive id result) ∨
    ∃ answer, e = .turn answer := by
  cases e with
  | request slug => exact .inl ⟨rfl, _, _, _, rfl⟩
  | requestAll filters => exact .inl ⟨rfl, _, _, _, rfl⟩
  | cancelCaller id =>
    obtain ⟨callers, ready, h⟩ := cancelCaller_frame p id
    exact .inl ⟨rfl, callers, p.collections, ready, h⟩
  | cancelCollection id => exact .inl ⟨rfl, cancelCollection_frame p id⟩
  | invalidate scope => exact .inr (.inl ⟨scope, rfl⟩)
  | receive id result => exact .inr (.inr (.inl ⟨id, result, rfl⟩))
  | turn answer => exact .inr (.inr (.inr ⟨answer, rfl⟩))

theorem ready_subset_cancelCaller (p : Provider ε) (id : Nat) :
    p.ready ⊆ (p.cancelCaller id).1.ready := by
  unfold cancelCaller
  split
  · exact List.Subset.refl _
  · split
    · exact List.Subset.refl _
    · exact List.subset_append_left _ _
    · exact List.Subset.refl _

theorem ready_subset_cancelCallers (ids : List Nat) (p : Provider ε) :
    p.ready ⊆ (p.cancelCallers ids).1.ready := by
  induction ids generalizing p with
  | nil => exact List.Subset.refl _
  | cons id rest ih =>
    exact List.Subset.trans (ready_subset_cancelCaller p id) (ih (p.cancelCaller id).1)

/-- A turn performs the first task of the queue, if there is one. -/
theorem turn_cases (answer : String → Nat → Answer ε) (p : Provider ε) :
    (p.ready = [] ∧ p.turn answer = p) ∨
      ∃ t, p.ready.head? = some t ∧ Effect answer p.rest t (p.turn answer) := by
  unfold turn
  split
  · next h => exact .inl ⟨h, rfl⟩
  · next t ts h =>
    refine .inr ⟨t, by simp [h], ?_⟩
    have hrest : p.rest = { p with ready := ts } := by simp [rest, h]
    rw [hrest]
    exact effect_perform answer _ t

/-- What waits in the queue goes on to wait, unless it is performed. -/
theorem mem_ready_step {p : Provider ε} {t : Task} (h : t ∈ p.ready) (e : Event ε) :
    t ∈ (p.step e).ready ∨ p.task? e = some t := by
  cases e with
  | request slug => exact .inl (List.mem_append_left _ h)
  | requestAll filters => exact .inl (List.mem_append_left _ h)
  | cancelCaller id => exact .inl (ready_subset_cancelCaller p id h)
  | cancelCollection id =>
    refine .inl ?_
    simp only [step, cancelCollection]
    split
    · exact h
    · split
      · exact h
      · exact ready_subset_cancelCallers _ p h
      · exact h
  | invalidate slug => cases slug <;> exact .inl h
  | receive id result =>
    refine .inl ?_
    simp only [step, receive]
    split
    · exact List.mem_append_left _ h
    · exact h
  | turn answer =>
    rcases turn_cases answer p with ⟨hnil, -⟩ | ⟨t', hhead, heffect⟩
    · simp [hnil] at h
    · obtain ⟨ts, hready⟩ := List.head?_eq_some_iff.1 hhead
      rw [hready] at h
      rcases List.mem_cons.1 h with rfl | h
      · exact .inr hhead
      · exact .inl (heffect.ready_subset (by simpa [rest, hready] using h))

end Folio.Provider

import Folio.Proofs.Provider.Step
import Mathlib.Data.List.Induction

set_option autoImplicit false

/-! # What happens in a run of a provider

A run is a list of events, from some provider on. Its history lists the calls of loaders, their answers
and the joining of callers to loads, in order. The history and the provider after the run tell the same
story: how often loaders have been called is what the provider counts (`callsOf_run`), and every load
is at the stage that its calls and answers explain (`explained_run`). -/

namespace Folio.Provider

variable {ε : Type}

/-! ## Runs -/

/-- A provider that nobody has asked for anything. -/
def initial (c : Catalogue) : Provider ε :=
  { catalogue := c }

theorem run_append (p : Provider ε) (before after : List (Event ε)) :
    p.run (before ++ after) = (p.run before).run after :=
  List.foldl_append

theorem run_concat (p : Provider ε) (events : List (Event ε)) (e : Event ε) :
    p.run (events ++ [e]) = (p.run events).step e :=
  run_append p events [e]

/-- What holds at first, and is kept by every event of a run, holds after the run. -/
theorem run_induction {I : List (Event ε) → Provider ε → Prop} {p : Provider ε}
    (events : List (Event ε)) (start : I [] p)
    (next : ∀ done e, e ∈ events → I done (p.run done) → I (done ++ [e]) ((p.run done).step e)) :
    I events (p.run events) := by
  induction events using List.reverseRecOn with
  | nil => exact start
  | append_singleton done e ih =>
    rw [run_concat]
    refine next done e (List.mem_append_right _ (List.mem_singleton_self e)) (ih ?_)
    exact fun done' e' he' => next done' e' (List.mem_append_left _ he')

theorem Effect.catalogue {answer : String → Nat → Answer ε} {p q : Provider ε} {t : Task}
    (h : Effect answer p t q) : q.catalogue = p.catalogue := by
  cases h <;> rfl

theorem catalogue_step (p : Provider ε) (e : Event ε) : (p.step e).catalogue = p.catalogue := by
  rcases step_cases p e with ⟨-, callers, collections, ready, hq⟩ | ⟨scope, rfl⟩ |
    ⟨id, result, rfl⟩ | ⟨answer, rfl⟩
  · rw [hq]
  · cases scope <;> rfl
  · simp only [step, receive]
    split <;> rfl
  · rcases turn_cases answer p with ⟨-, hturn⟩ | ⟨t, -, heffect⟩
    · exact congrArg Provider.catalogue hturn
    · exact heffect.catalogue

theorem catalogue_run (p : Provider ε) (events : List (Event ε)) :
    (p.run events).catalogue = p.catalogue :=
  run_induction (I := fun _ q => q.catalogue = p.catalogue) events rfl
    fun _ e _ h => (catalogue_step _ e).trans h

theorem resolve_eq_of_catalogue {p q : Provider ε} (h : q.catalogue = p.catalogue) (slug : String) :
    q.resolve slug = p.resolve slug := by
  simp only [resolve, h]

/-! ## Histories -/

/-- Something that happens to loads and callers. -/
inductive Occurrence (ε : Type) where
  /-- A load of a slug calls the loader for a key. -/
  | called (load : Nat) (slug key : String)
  /-- The loader that a load has called answers. -/
  | answered (load : Nat) (result : Except ε Artifact)
  /-- A caller joins a load, or starts it. -/
  | joined (caller load : Nat)
deriving Repr

/-- What happens in the turn of a load: one that starts calls the loader for its key. -/
def loadOccurrences (answer : String → Nat → Answer ε) (p : Provider ε) (id : Nat) :
    List (Occurrence ε) :=
  match p.loads[id]? with
  | some ⟨slug, .starting, _⟩ =>
    match p.resolve slug with
    | .error _ => []
    | .ok key =>
      .called id slug key :: (match answer key (p.callsOf key) with
        | .now result => [.answered id result]
        | .later => [])
  | _ => []

/-- What happens in the turn of a caller: one that starts, and does not find its page in the cache,
    joins the load in flight or starts the next one. -/
def callerOccurrences (p : Provider ε) (id : Nat) : List (Occurrence ε) :=
  match p.callers[id]? with
  | some ⟨slug, _, .starting⟩ =>
    match p.cache.lookup slug with
    | some _ => []
    | none => [.joined id ((p.inflight.lookup slug).getD p.loads.length)]
  | _ => []

/-- What happens in a step. -/
def occurrences (p : Provider ε) : Event ε → List (Occurrence ε)
  | .receive id result =>
    match p.loads[id]? with
    | some ⟨_, .waiting _ _, _⟩ => [.answered id result]
    | _ => []
  | .turn answer =>
    match p.ready.head? with
    | some (.load id) => p.loadOccurrences answer id
    | some (.caller id) => p.callerOccurrences id
    | _ => []
  | _ => []

/-- What happens in a run, in order. -/
def history (p : Provider ε) : List (Event ε) → List (Occurrence ε)
  | [] => []
  | e :: es => p.occurrences e ++ history (p.step e) es

theorem history_append (p : Provider ε) (before after : List (Event ε)) :
    p.history (before ++ after) = p.history before ++ (p.run before).history after := by
  induction before generalizing p with
  | nil => rfl
  | cons e es ih => simp only [List.cons_append, history, ih, List.append_assoc, run, List.foldl_cons]

theorem history_concat (p : Provider ε) (events : List (Event ε)) (e : Event ε) :
    p.history (events ++ [e]) = p.history events ++ (p.run events).occurrences e := by
  simp [history_append, history]

/-- A load calls a loader. -/
def Occurrence.isCallBy (id : Nat) : Occurrence ε → Bool
  | .called load _ _ => load == id
  | _ => false

/-- A load of a slug calls a loader. -/
def Occurrence.isCallFor (slug : String) : Occurrence ε → Bool
  | .called _ s _ => s == slug
  | _ => false

/-- The loader for a key is called. -/
def Occurrence.isCallTo (key : String) : Occurrence ε → Bool
  | .called _ _ k => k == key
  | _ => false

/-- The calls of loaders by one load in a history. -/
def callsBy (id : Nat) (h : List (Occurrence ε)) : List (Occurrence ε) :=
  h.filter (Occurrence.isCallBy id)

theorem callsBy_append (id : Nat) (h h' : List (Occurrence ε)) :
    callsBy id (h ++ h') = callsBy id h ++ callsBy id h' :=
  List.filter_append ..

/-! ## How often loaders have been called -/

theorem callsOf_withEntry (p : Provider ε) (key k : String) :
    callsOf { p with calls := withEntry key (p.callsOf key + 1) p.calls } k
      = p.callsOf k + if key == k then 1 else 0 := by
  by_cases hk : k = key
  · subst hk
    simp [callsOf]
  · have hne : (key == k) = false := beq_eq_false_iff_ne.2 fun h => hk h.symm
    simp [callsOf, hk, hne]

theorem loadOccurrences_unresolved {answer : String → Nat → Answer ε} {p : Provider ε} {id : Nat}
    {l : Load ε} {e : LoadError ε} (hl : p.loads[id]? = some l) (hk : p.resolve l.slug = .error e) :
    p.loadOccurrences answer id = [] := by
  obtain ⟨slug, stage, callers⟩ := l
  cases stage <;> simp [loadOccurrences, hl, hk]

theorem loadOccurrences_called {answer : String → Nat → Answer ε} {p : Provider ε} {id : Nat}
    {l : Load ε} {key : String} (hl : p.loads[id]? = some l) (hs : l.stage = .starting)
    (hk : p.resolve l.slug = .ok key) (ha : answer key (p.callsOf key) = .later) :
    p.loadOccurrences answer id = [.called id l.slug key] := by
  obtain ⟨slug, stage, callers⟩ := l
  obtain rfl : stage = .starting := hs
  simp [loadOccurrences, hl, hk, ha]

theorem loadOccurrences_returned {answer : String → Nat → Answer ε} {p : Provider ε} {id : Nat}
    {l : Load ε} {key : String} {result : Except ε Artifact} (hl : p.loads[id]? = some l)
    (hs : l.stage = .starting) (hk : p.resolve l.slug = .ok key)
    (ha : answer key (p.callsOf key) = .now result) :
    p.loadOccurrences answer id = [.called id l.slug key, .answered id result] := by
  obtain ⟨slug, stage, callers⟩ := l
  obtain rfl : stage = .starting := hs
  simp [loadOccurrences, hl, hk, ha]

theorem mem_loadOccurrences_called {answer : String → Nat → Answer ε} {p : Provider ε}
    {id load : Nat} {slug key : String} (h : .called load slug key ∈ p.loadOccurrences answer id) :
    load = id ∧ p.resolve slug = .ok key ∧
      ∃ callers, p.loads[id]? = some ⟨slug, .starting, callers⟩ := by
  unfold loadOccurrences at h
  split at h
  · next s callers hl =>
    split at h
    · simp at h
    · next k hk =>
      rcases List.mem_cons.1 h with heq | hrest
      · obtain ⟨rfl, rfl, rfl⟩ := Occurrence.called.inj heq
        exact ⟨rfl, hk, callers, hl⟩
      · split at hrest <;> simp at hrest
  · simp at h

theorem mem_callerOccurrences {p : Provider ε} {id : Nat} {o : Occurrence ε}
    (h : o ∈ p.callerOccurrences id) :
    ∃ slug collection, p.callers[id]? = some ⟨slug, collection, .starting⟩ ∧
      p.cache.lookup slug = none ∧
      o = .joined id ((p.inflight.lookup slug).getD p.loads.length) := by
  unfold callerOccurrences at h
  split at h
  · next slug collection hc =>
    split at h
    · simp at h
    · next hnone => exact ⟨slug, collection, hc, hnone, List.mem_singleton.1 h⟩
  · simp at h

/-- A loader is called in the turn of a load that starts, for the key of its slug. -/
theorem mem_occurrences_called {p : Provider ε} {e : Event ε} {load : Nat} {slug key : String}
    (h : .called load slug key ∈ p.occurrences e) :
    p.task? e = some (.load load) ∧ p.resolve slug = .ok key ∧
      ∃ callers, p.loads[load]? = some ⟨slug, .starting, callers⟩ := by
  cases e with
  | receive id result =>
    simp only [occurrences] at h
    split at h <;> simp at h
  | turn answer =>
    simp only [occurrences] at h
    split at h
    · next id hhead =>
      obtain ⟨rfl, hk, hl⟩ := mem_loadOccurrences_called h
      exact ⟨hhead, hk, hl⟩
    · obtain ⟨_, _, _, _, heq⟩ := mem_callerOccurrences h
      simp at heq
    · simp at h
  | _ => simp [occurrences] at h

/-- A caller joins a load in its first turn, when its page is not in the cache. -/
theorem mem_occurrences_joined {p : Provider ε} {e : Event ε} {id load : Nat}
    (h : .joined id load ∈ p.occurrences e) :
    p.task? e = some (.caller id) ∧ ∃ slug collection,
      p.callers[id]? = some ⟨slug, collection, .starting⟩ ∧ p.cache.lookup slug = none ∧
      load = (p.inflight.lookup slug).getD p.loads.length := by
  cases e with
  | receive id' result =>
    simp only [occurrences] at h
    split at h <;> simp at h
  | turn answer =>
    simp only [occurrences] at h
    split at h
    · next id' hhead =>
      unfold loadOccurrences at h
      split at h
      · split at h
        · simp at h
        · split at h <;> simp at h
      · simp at h
    · next id' hhead =>
      obtain ⟨slug, collection, hc, hnone, heq⟩ := mem_callerOccurrences h
      obtain ⟨rfl, rfl⟩ := Occurrence.joined.inj heq
      exact ⟨hhead, slug, collection, hc, hnone, rfl⟩
    · simp at h
  | _ => simp [occurrences] at h

theorem callsBy_eq_nil {id : Nat} {h : List (Occurrence ε)} :
    callsBy id h = [] ↔ ∀ slug key, .called id slug key ∉ h := by
  refine ⟨?_, ?_⟩
  · intro hnil slug key hmem
    have hcall := List.mem_filter.2 ⟨hmem, show (Occurrence.called id slug key : Occurrence ε).isCallBy
      id = true by simp [Occurrence.isCallBy]⟩
    rw [show h.filter (Occurrence.isCallBy id) = [] from hnil] at hcall
    simp at hcall
  · intro hno
    refine List.filter_eq_nil_iff.2 fun o ho => ?_
    cases o with
    | called load slug key =>
      intro hid
      obtain rfl : load = id := by simpa [Occurrence.isCallBy] using hid
      exact hno slug key ho
    | _ => simp [Occurrence.isCallBy]

/-- A step without a load that starts holds no call of a loader. -/
theorem countP_isCallTo_eq_zero {p : Provider ε} {e : Event ε}
    (h : ∀ id l, p.task? e = some (.load id) → p.loads[id]? = some l → l.stage ≠ .starting)
    (key : String) : (p.occurrences e).countP (Occurrence.isCallTo key) = 0 := by
  refine List.countP_eq_zero.2 fun o ho => ?_
  cases o with
  | called load slug k =>
    obtain ⟨ht, -, callers, hl⟩ := mem_occurrences_called ho
    exact absurd rfl (h load _ ht hl)
  | _ => simp [Occurrence.isCallTo]

theorem callsOf_step_of_eq {p : Provider ε} {e : Event ε} (hcalls : (p.step e).calls = p.calls)
    (h : ∀ id l, p.task? e = some (.load id) → p.loads[id]? = some l → l.stage ≠ .starting)
    (key : String) : (p.step e).callsOf key
      = p.callsOf key + (p.occurrences e).countP (Occurrence.isCallTo key) := by
  rw [countP_isCallTo_eq_zero h key]
  simp only [callsOf, hcalls, Nat.add_zero]

theorem Effect.callsOf {answer : String → Nat → Answer ε} {p q : Provider ε} {t : Task}
    (ht : p.ready.head? = some t) (heffect : Effect answer p.rest t q)
    (hq : p.step (.turn answer) = q) (key : String) :
    q.callsOf key
      = p.callsOf key + (p.occurrences (.turn answer)).countP (Occurrence.isCallTo key) := by
  have hsame : q.calls = p.calls → (∀ id l, t = .load id → p.loads[id]? = some l →
      l.stage ≠ .starting) → q.callsOf key
        = p.callsOf key + (p.occurrences (.turn answer)).countP (Occurrence.isCallTo key) := by
    intro hcalls hno
    rw [← hq]
    refine callsOf_step_of_eq (by rw [hq, hcalls]) (fun id l ht' hl => ?_) key
    exact hno id l (Option.some.inj (ht.symm.trans ht')) hl
  -- only a load that finds its key and calls the loader for it is counted
  cases heffect with
  | idle hidle =>
    refine hsame rfl fun id l hid hl => ?_
    subst hid
    exact (hidle l hl).1
  | @unresolved id l e hl hs hk =>
    have hocc : p.loadOccurrences answer id = [] := loadOccurrences_unresolved hl hk
    simp only [occurrences, ht, hocc]
    rfl
  | @called id l k hl hs hk ha =>
    have hocc : p.loadOccurrences answer id = [.called id l.slug k] :=
      loadOccurrences_called hl hs hk ha
    simp only [occurrences, ht, hocc]
    exact (callsOf_withEntry p k key).trans (by simp [List.countP_cons, Occurrence.isCallTo])
  | @returned id l k result hl hs hk ha =>
    have hocc : p.loadOccurrences answer id = [.called id l.slug k, .answered id result] :=
      loadOccurrences_returned hl hs hk ha
    simp only [occurrences, ht, hocc]
    exact (callsOf_withEntry p k key).trans (by simp [List.countP_cons, Occurrence.isCallTo])
  | @answered id l result hl hs =>
    refine hsame rfl fun id' l' hid hl' => ?_
    obtain rfl : id = id' := by simpa using hid
    obtain rfl : l = l' := Option.some.inj (hl.symm.trans hl')
    simp [hs]
  | _ => exact hsame rfl fun id l hid => absurd hid (by simp)

/-- In a step the count of the calls of a loader grows by the calls that happen. -/
theorem callsOf_step (p : Provider ε) (e : Event ε) (key : String) :
    (p.step e).callsOf key
      = p.callsOf key + (p.occurrences e).countP (Occurrence.isCallTo key) := by
  have hsame : p.task? e = none → (p.step e).calls = p.calls → (p.step e).callsOf key
      = p.callsOf key + (p.occurrences e).countP (Occurrence.isCallTo key) := fun ht hcalls =>
    callsOf_step_of_eq hcalls (fun id l ht' _ => absurd (ht.symm.trans ht') (by simp)) key
  rcases step_cases p e with ⟨ht, callers, collections, ready, hq⟩ | ⟨scope, rfl⟩ |
    ⟨id, result, rfl⟩ | ⟨answer, rfl⟩
  · exact hsame ht (by rw [hq])
  · exact hsame rfl (by cases scope <;> rfl)
  · refine hsame rfl ?_
    simp only [step, receive]
    split <;> rfl
  · rcases turn_cases answer p with ⟨hnil, hturn⟩ | ⟨t, hhead, heffect⟩
    · simp only [step, hturn]
      simp [occurrences, hnil]
    · exact heffect.callsOf hhead rfl key

/-- After a run the count of the calls of a loader has grown by the calls in the history. -/
theorem callsOf_run (p : Provider ε) (events : List (Event ε)) (key : String) :
    (p.run events).callsOf key
      = p.callsOf key + (p.history events).countP (Occurrence.isCallTo key) :=
  run_induction (I := fun done q => q.callsOf key
      = p.callsOf key + (p.history done).countP (Occurrence.isCallTo key)) events rfl
    fun done e _ h => by
      rw [callsOf_step, h, history_concat, List.countP_append, Nat.add_assoc]

/-! ## What explains the stage of a load -/

/-- What a history says of a load at some stage: whether it has called the loader for the key of its
    slug, and what the loader has answered. A load calls a loader once at most. -/
inductive Explained (p : Provider ε) (h : List (Occurrence ε)) (id : Nat) (slug : String) :
    LoadStage ε → Prop where
  | starting (calls : callsBy id h = []) : Explained p h id slug .starting
  | waiting {key : String} {n : Nat} (known : p.resolve slug = .ok key)
      (calls : callsBy id h = [.called id slug key]) : Explained p h id slug (.waiting key n)
  | answered {key : String} {result : Except ε Artifact} (known : p.resolve slug = .ok key)
      (calls : callsBy id h = [.called id slug key]) (answer : .answered id result ∈ h) :
      Explained p h id slug (.answered result)
  | finished {key : String} {result : Except ε Artifact} (known : p.resolve slug = .ok key)
      (calls : callsBy id h = [.called id slug key]) (answer : .answered id result ∈ h) :
      Explained p h id slug (.finished (result.mapError .loader))
  | unresolved {error : LoadError ε} (unknown : p.resolve slug = .error error)
      (calls : callsBy id h = []) : Explained p h id slug (.finished (.error error))

/-- What happens later, other than calls of a load, explains the load as well. -/
theorem Explained.append {p : Provider ε} {h h' : List (Occurrence ε)} {id : Nat} {slug : String}
    {stage : LoadStage ε} (hex : Explained p h id slug stage) (hcalls : callsBy id h' = []) :
    Explained p (h ++ h') id slug stage := by
  have happend : callsBy id (h ++ h') = callsBy id h := by
    rw [callsBy_append, hcalls, List.append_nil]
  cases hex with
  | starting calls => exact .starting (happend.trans calls)
  | waiting known calls => exact .waiting known (happend.trans calls)
  | answered known calls answer =>
    exact .answered known (happend.trans calls) (List.mem_append_left _ answer)
  | finished known calls answer =>
    exact .finished known (happend.trans calls) (List.mem_append_left _ answer)
  | unresolved unknown calls => exact .unresolved unknown (happend.trans calls)

/-- The next stage of a load is explained by what happens in the step that leads to it. -/
theorem Explained.move {p q : Provider ε} {h : List (Occurrence ε)} {e : Event ε} {id : Nat}
    {l : Load ε} {stage : LoadStage ε} (hex : Explained p h id l.slug l.stage)
    (hcat : q.catalogue = p.catalogue) (hl : q.loads[id]? = some l)
    (hmove : LoadMove q e id l.slug l.stage stage) :
    Explained p (h ++ q.occurrences e) id l.slug stage := by
  have hresolve := resolve_eq_of_catalogue hcat
  obtain ⟨slug, before, callers⟩ := l
  dsimp only at hex hmove ⊢
  cases hmove with
  | unresolved turn unknown =>
    cases hex with
    | starting calls =>
      refine .unresolved ((hresolve slug).symm.trans unknown) ?_
      rw [callsBy_append, calls, List.nil_append, callsBy_eq_nil]
      intro s key hmem
      obtain ⟨-, hk, callers', hl'⟩ := mem_occurrences_called hmem
      obtain ⟨rfl, -, -⟩ := Load.mk.inj (Option.some.inj (hl.symm.trans hl'))
      rw [unknown] at hk
      simp at hk
  | @called answer key event turn known later =>
    subst event
    cases hex with
    | starting calls =>
      have hocc : q.occurrences (.turn answer) = [.called id slug key] := by
        simp only [occurrences, show q.ready.head? = some (.load id) from turn]
        exact loadOccurrences_called hl rfl known later
      refine .waiting ((hresolve slug).symm.trans known) ?_
      rw [callsBy_append, calls, hocc]
      simp [callsBy, Occurrence.isCallBy]
  | @returned answer key result event turn known now =>
    subst event
    cases hex with
    | starting calls =>
      have hocc : q.occurrences (.turn answer) = [.called id slug key, .answered id result] := by
        simp only [occurrences, show q.ready.head? = some (.load id) from turn]
        exact loadOccurrences_returned hl rfl known now
      refine .finished ((hresolve slug).symm.trans known) ?_ (by simp [hocc])
      rw [callsBy_append, calls, hocc]
      simp [callsBy, Occurrence.isCallBy]
  | @received key n result event =>
    subst event
    cases hex with
    | waiting known calls =>
      have hocc : q.occurrences (.receive id result) = [.answered id result] := by
        simp only [occurrences, hl]
      refine .answered known ?_ (by simp [hocc])
      rw [callsBy_append, calls, hocc]
      simp [callsBy, Occurrence.isCallBy]
  | @answered result turn =>
    cases hex with
    | answered known calls answer =>
      refine .finished known ?_ (List.mem_append_left _ answer)
      have hnil : callsBy id (q.occurrences e) = [] := callsBy_eq_nil.2 fun s key hmem => by
        obtain ⟨-, -, callers', hl'⟩ := mem_occurrences_called hmem
        simp [hl] at hl'
      rw [callsBy_append, calls, hnil, List.append_nil]

/-- What a history says of a load, or of a load that there is not yet: that one has called no loader. -/
def Accounted (p : Provider ε) (h : List (Occurrence ε)) (id : Nat) : Option (Load ε) → Prop
  | none => callsBy id h = []
  | some l => Explained p h id l.slug l.stage

theorem accounted_step {p q : Provider ε} {h : List (Occurrence ε)} {id : Nat} (e : Event ε)
    (hcat : q.catalogue = p.catalogue) (hq : Accounted p h id q.loads[id]?) :
    Accounted p (h ++ q.occurrences e) id (q.step e).loads[id]? := by
  -- a load that does not leave its start calls no loader
  have hcalls : (∀ l, q.task? e = some (.load id) → q.loads[id]? = some l → l.stage ≠ .starting) →
      callsBy id (q.occurrences e) = [] := fun hno => callsBy_eq_nil.2 fun s key hmem => by
    obtain ⟨ht, -, callers, hl⟩ := mem_occurrences_called hmem
    exact hno _ ht hl rfl
  have hstep := loadStep q e id
  revert hq hstep
  generalize hbefore : q.loads[id]? = before
  generalize (q.step e).loads[id]? = after
  intro hq hstep
  cases hstep with
  | absent =>
    show callsBy id _ = []
    rw [callsBy_append, show callsBy id h = [] from hq,
      hcalls fun l _ hl => absurd (hbefore.symm.trans hl) (by simp), List.append_nil]
  | same idle =>
    refine Explained.append hq (hcalls fun l ht hl => ?_)
    obtain rfl := Option.some.inj (hbefore.symm.trans hl)
    exact (idle ht).1
  | registered new turn =>
    refine .starting ?_
    rw [callsBy_append, show callsBy id h = [] from hq,
      hcalls fun l _ hl => absurd (hbefore.symm.trans hl) (by simp), List.append_nil]
  | joined turn =>
    exact Explained.append hq (hcalls fun l ht _ => absurd (turn.symm.trans ht) (by simp))
  | @moved l stage move =>
    show Explained p _ id l.slug stage
    exact Explained.move hq hcat hbefore move

/-- In a run the history accounts for all loads that are started in it. -/
theorem accounted_run (p : Provider ε) (events : List (Event ε)) {id : Nat}
    (hid : p.loads.length ≤ id) : Accounted p (p.history events) id (p.run events).loads[id]? := by
  refine run_induction (I := fun done q => Accounted p (p.history done) id q.loads[id]?) events ?_ ?_
  · rw [List.getElem?_eq_none hid]
    rfl
  · intro done e _ ih
    rw [history_concat]
    exact accounted_step e (catalogue_run p done) ih

theorem explained_run (p : Provider ε) (events : List (Event ε)) {id : Nat} {l : Load ε}
    (hid : p.loads.length ≤ id) (hl : (p.run events).loads[id]? = some l) :
    Explained p (p.history events) id l.slug l.stage := by
  have h := accounted_run p events hid
  rwa [hl] at h

/-- A load, from some number on, has called the loader for the key of a slug, and the loader has
    answered with an artifact. -/
def Produced (c : Catalogue) (h : List (Occurrence ε)) (first : Nat) (slug : String) (a : Artifact) :
    Prop :=
  ∃ load key, first ≤ load ∧ c.keyFor slug = .ok (some key) ∧
    callsBy load h = [.called load slug key] ∧ .answered load (.ok a) ∈ h

theorem keyFor_of_resolve {p : Provider ε} {slug key : String} (h : p.resolve slug = .ok key) :
    p.catalogue.keyFor slug = .ok (some key) := by
  unfold resolve at h
  cases hk : p.catalogue.keyFor slug with
  | error e =>
    rw [hk] at h
    simp [Except.mapError, bind, Except.bind] at h
  | ok found =>
    rw [hk] at h
    cases found with
    | none =>
      cases hslugs : p.catalogue.slugs <;>
        simp [hslugs, Except.mapError, bind, Except.bind, throw, throwThe, MonadExceptOf.throw] at h
    | some k =>
      obtain rfl : k = key := by simpa [Except.mapError, bind, Except.bind, pure, Except.pure] using h
      rfl

/-- A load that a run has started and that ends with an artifact has it from the loader for the key of
    its slug. -/
theorem produced_of_finished {p : Provider ε} {events : List (Event ε)} {id : Nat} {l : Load ε}
    {a : Artifact} (hid : p.loads.length ≤ id) (hl : (p.run events).loads[id]? = some l)
    (hs : l.stage = .finished (.ok a)) :
    Produced p.catalogue (p.history events) p.loads.length l.slug a := by
  have hex := explained_run p events hid hl
  rw [hs] at hex
  generalize hresult : (Except.ok a : Except (LoadError ε) Artifact) = result at hex
  cases hex with
  | @finished key answer known calls answered =>
    cases answer with
    | ok b =>
      obtain rfl : a = b := Except.ok.inj hresult
      exact ⟨id, key, hid, keyFor_of_resolve known, calls, answered⟩
    | error e => simp [Except.mapError] at hresult
  | unresolved => simp at hresult

/-! ## A page to run -/

/-- A catalogue of one page, whose slug is a. -/
def onePage : Catalogue :=
  ⟨"@content", ["\x7balias\x7d/\x7bslug\x7d.md"], ["@content/a.md"]⟩

/-- The page with some text, as it was compiled. -/
def compiled (text : String) : Artifact where
  frontmatter := []
  contentHtml := text
  excerpt := none
  slug := "a"
  lastModified := ⟨⟨2024, 1, 1⟩, {}, none⟩
  stats := ⟨1, 1, []⟩

/-- A turn in which loaders that are called answer later. -/
def pause : Event String :=
  .turn fun _ _ => .later

/-- A turn in which loaders that are called answer at once with a text. -/
def reply (text : String) : Event String :=
  .turn fun _ _ => .now (.ok (compiled text))

/-- A turn in which loaders that are called fail at once. -/
def outage : Event String :=
  .turn fun _ _ => .now (.error "down")

end Folio.Provider

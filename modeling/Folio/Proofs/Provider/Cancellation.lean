import Folio.Proofs.Provider.Forgetting
import Folio.Proofs.Provider.Membership

set_option autoImplicit false

/-! # Cancelling a caller makes no difference to others

Two runs are compared by forgetting a caller in both. Events that are only about that caller, its
cancellation and its own turns, change nothing but what is forgotten, once the caller has started or as
long as it does not start; all other events do in the run without the caller what they do in the run
with it (`forget_run`). So two runs with the same other events show the same to all other callers. -/

namespace Folio.Provider

variable {ε : Type}

/-! ## Events of one caller -/

/-- An event is only about a caller: it cancels the caller, or is a turn of the caller. In a turn with an
    empty queue nothing happens, which is only about anyone. -/
def isOnlyOf (id : Nat) (p : Provider ε) : Event ε → Bool
  | .cancelCaller i => i == id
  | .turn _ => p.ready.head?.all fun t => (t.forget id).isNone
  | _ => false

/-- The events of a run that are not only about a caller. -/
def others (id : Nat) (p : Provider ε) : List (Event ε) → List (Event ε)
  | [] => []
  | e :: es =>
    if p.isOnlyOf id e then others id (p.step e) es else e :: others id (p.step e) es

/-- An event when a caller is forgotten. -/
def Event.forget (id : Nat) : Event ε → Event ε
  | .cancelCaller i => .cancelCaller (renumber id i)
  | e => e

/-- A caller asks for itself, and for no collection. -/
def IsAlone (p : Provider ε) (id : Nat) : Prop :=
  ∃ c, p.callers[id]? = some c ∧ c.collection = none

/-- A caller asks for itself, and has taken its first turn or been cancelled before. -/
def HasStarted (p : Provider ε) (id : Nat) : Prop :=
  ∃ c, p.callers[id]? = some c ∧ c.collection = none ∧ c.stage ≠ .starting

/-- In a run a caller does not take its first turn. -/
def NeverStarts (id : Nat) (p : Provider ε) : List (Event ε) → Prop
  | [] => True
  | e :: es => (∀ c, p.task? e = some (.caller id) → p.callers[id]? = some c → c.stage ≠ .starting) ∧
      NeverStarts id (p.step e) es

theorem isAlone_stays {p : Provider ε} {id : Nat} (h : IsAlone p id) (e : Event ε) :
    IsAlone (p.step e) id := by
  obtain ⟨c, hc, hnone⟩ := h
  obtain ⟨c', hc', hk, -⟩ := caller_stays hc e
  exact ⟨c', hc', hk.trans hnone⟩

theorem hasStarted_stays {p : Provider ε} {id : Nat} (h : HasStarted p id) (e : Event ε) :
    HasStarted (p.step e) id := by
  obtain ⟨c, hc, hnone, hs⟩ := h
  obtain ⟨c', hc', hk, hs'⟩ := caller_stays hc e
  exact ⟨c', hc', hk.trans hnone, hs' hs⟩

theorem hasStarted_run {p : Provider ε} {id : Nat} (h : HasStarted p id) (events : List (Event ε)) :
    HasStarted (p.run events) id :=
  run_induction (I := fun _ q => HasStarted q id) events h fun _ e _ hq => hasStarted_stays hq e

theorem neverStarts_of_hasStarted {id : Nat} (events : List (Event ε)) {p : Provider ε}
    (h : HasStarted p id) : NeverStarts id p events := by
  induction events generalizing p with
  | nil => trivial
  | cons e es ih =>
    have hnext := ih (hasStarted_stays h e)
    obtain ⟨c, hc, -, hs⟩ := h
    refine ⟨fun c' _ hc' => ?_, hnext⟩
    obtain rfl := Option.some.inj (hc.symm.trans hc')
    exact hs

theorem neverStarts_append {id : Nat} {p : Provider ε} {before after : List (Event ε)} :
    NeverStarts id p (before ++ after)
      ↔ NeverStarts id p before ∧ NeverStarts id (p.run before) after := by
  induction before generalizing p with
  | nil => simp [NeverStarts, run]
  | cons e es ih =>
    rw [List.cons_append, NeverStarts, NeverStarts, ih, and_assoc]
    rfl

theorem others_append (id : Nat) (p : Provider ε) (before after : List (Event ε)) :
    others id p (before ++ after) = others id p before ++ others id (p.run before) after := by
  induction before generalizing p with
  | nil => rfl
  | cons e es ih =>
    simp only [List.cons_append, others, ih, run, List.foldl_cons]
    split <;> rfl

theorem isAlone_run {p : Provider ε} {id : Nat} (h : IsAlone p id) (events : List (Event ε)) :
    IsAlone (p.run events) id :=
  run_induction (I := fun _ q => IsAlone q id) events h fun _ e _ hq => isAlone_stays hq e

/-- Who has been cancelled does not start any more. -/
theorem hasStarted_of_cancelled {p : Provider ε} {id : Nat} (h : IsAlone p id) :
    HasStarted (p.step (.cancelCaller id)) id := by
  obtain ⟨c, hc, hnone⟩ := h
  refine ⟨afterCancel c, ?_, ?_, ?_⟩
  · simp [step, callers_cancelCaller, hc]
  · unfold afterCancel
    split <;> exact hnone
  · unfold afterCancel
    split
    · next hs => simp [hs]
    · simp

theorem ungathered_of_isAlone {p : Provider ε} (h : Enrolled p) {id : Nat} (halone : IsAlone p id) :
    Ungathered id p := by
  obtain ⟨c, hc, hnone⟩ := halone
  intro k col ids left hk hs hid
  obtain ⟨c', hc', hsome⟩ := h.gathered k col ids left hk hs id hid
  obtain rfl := Option.some.inj (hc.symm.trans hc')
  simp [hnone] at hsome

/-- A caller who asks for no collection reports to none. -/
theorem not_report_of_isAlone {p : Provider ε} (h : Enrolled p) {id : Nat} (halone : IsAlone p id)
    (k : Nat) : .report k id ∉ p.ready := by
  obtain ⟨c, hc, hnone⟩ := halone
  intro hmem
  obtain ⟨c', hc', hsome⟩ := h.tasks _ hmem
  obtain rfl := Option.some.inj (hc.symm.trans hc')
  simp [hnone] at hsome

/-! ## Events of other callers -/

theorem forget_perform {id : Nat} {p : Provider ε} (hid : id < p.callers.length)
    (hun : Ungathered id p) (answer : String → Nat → Answer ε) {t t' : Task}
    (ht : t.forget id = some t') :
    (p.perform answer t).forget id = (p.forget id).perform answer t' := by
  cases t with
  | load loadId =>
    obtain rfl := Option.some.inj ht
    exact forget_turnLoad id p answer loadId
  | settle loadId =>
    obtain rfl := Option.some.inj ht
    exact forget_settle id p loadId
  | deliver loadId i =>
    obtain ⟨hi, rfl⟩ := forgetCaller_map_eq_some ht
    exact forget_deliver p hi loadId
  | caller i =>
    obtain ⟨hi, rfl⟩ := forgetCaller_map_eq_some ht
    exact forget_turnCaller p hi
  | report k i =>
    obtain ⟨hi, rfl⟩ := forgetCaller_map_eq_some ht
    exact forget_report p hun hi k
  | collection k =>
    obtain rfl := Option.some.inj ht
    exact forget_turnCollection p hid k

/-- What is not only about a caller happens in the same way without the caller. -/
theorem forget_step_of_other {id : Nat} {p : Provider ε} (h : Enrolled p) (halone : IsAlone p id)
    {e : Event ε} (hother : p.isOnlyOf id e = false) :
    (p.step e).forget id = (p.forget id).step (e.forget id) := by
  have hun := ungathered_of_isAlone h halone
  obtain ⟨c, hc, -⟩ := halone
  have hid := (List.getElem?_eq_some_iff.1 hc).1
  cases e with
  | request slug => exact forget_request p hid slug
  | requestAll filters => exact forget_requestAll p filters
  | cancelCaller i =>
    have hi : i ≠ id := by simpa [isOnlyOf] using hother
    exact (forget_cancelCaller p hi).1
  | cancelCollection k => exact forget_cancelCollection p hun k
  | invalidate scope => cases scope <;> rfl
  | receive loadId result => exact forget_receive id p loadId result
  | turn answer =>
    cases hready : p.ready with
    | nil => simp [isOnlyOf, hready] at hother
    | cons t rest =>
      obtain ⟨t', ht⟩ : ∃ t', t.forget id = some t' := by
        simpa [isOnlyOf, hready, Option.isSome_iff_exists] using hother
      have hforget : (p.forget id).ready = t' :: rest.filterMap (Task.forget id) := by
        simp only [forget, hready, List.filterMap_cons_some ht]
      simp only [step, turn, hready, hforget, Event.forget]
      exact forget_perform (p := { p with ready := rest }) hid hun answer ht

/-! ## Events of the caller -/

theorem forget_cancelCaller_self (id : Nat) (p : Provider ε) :
    (p.cancelCaller id).1.forget id = p.forget id := by
  unfold cancelCaller
  split
  · rfl
  · split
    · rfl
    · rw [forget_enqueue, forget_setCaller_self]
      simp [Task.forget, forgetCaller_self, enqueue]
    · exact forget_setCaller_self id p _

theorem forget_deliver_self (id : Nat) (p : Provider ε) (loadId : Nat) :
    (p.deliver loadId id).forget id = p.forget id := by
  unfold deliver
  split
  · split
    · rw [forget_enqueue, forget_setCaller_self]
      simp [Task.forget, forgetCaller_self, enqueue]
    · rfl
  · rfl

theorem forget_turnCaller_self {id : Nat} {p : Provider ε} {c : Caller ε} (hc : p.callers[id]? = some c)
    (hnone : c.collection = none) (hs : c.stage ≠ .starting) :
    (p.turnCaller id).forget id = p.forget id := by
  unfold turnCaller
  rw [hc]
  dsimp only
  split
  · next hstarting => exact absurd hstarting hs
  · rw [finishCaller, forget_enqueue, forget_setCaller_self, hnone]
    simp [enqueue]
  · rfl

/-- What is only about a caller makes no difference without the caller, unless the caller starts. -/
theorem forget_step_of_only {id : Nat} {p : Provider ε} (h : Enrolled p) (halone : IsAlone p id)
    {e : Event ε} (honly : p.isOnlyOf id e = true)
    (hstarts : ∀ c, p.task? e = some (.caller id) → p.callers[id]? = some c → c.stage ≠ .starting) :
    (p.step e).forget id = p.forget id := by
  obtain ⟨c, hc, hnone⟩ := halone
  cases e with
  | cancelCaller i =>
    obtain rfl : i = id := by simpa [isOnlyOf] using honly
    exact forget_cancelCaller_self i p
  | turn answer =>
    cases hready : p.ready with
    | nil => simp only [step, turn, hready]
    | cons t rest =>
      have ht : t.forget id = none := by simpa [isOnlyOf, hready] using honly
      have hrest : Provider.forget id { p with ready := rest } = p.forget id := by
        simp only [forget, hready, List.filterMap_cons_none ht]
      simp only [step, turn, hready]
      refine Eq.trans ?_ hrest
      cases t with
      | deliver loadId i =>
        obtain rfl := forgetCaller_map_eq_none ht
        exact forget_deliver_self i _ loadId
      | caller i =>
        obtain rfl := forgetCaller_map_eq_none ht
        refine forget_turnCaller_self (p := { p with ready := rest }) hc hnone (hstarts c ?_ hc)
        simp [task?, hready]
      | report k i =>
        obtain rfl := forgetCaller_map_eq_none ht
        exact absurd (by simp [hready]) (not_report_of_isAlone h ⟨c, hc, hnone⟩ k)
      | _ => simp [Task.forget] at ht
  | _ => simp [isOnlyOf] at honly

/-- A run in which a caller does not start is, without the caller, the run of the other events. -/
theorem forget_run {id : Nat} (events : List (Event ε)) {p : Provider ε} (h : Enrolled p)
    (halone : IsAlone p id) (hstarts : NeverStarts id p events) :
    (p.run events).forget id = (p.forget id).run ((others id p events).map (Event.forget id)) := by
  induction events generalizing p with
  | nil => rfl
  | cons e es ih =>
    have hnext := ih (enrolled_step h e) (isAlone_stays halone e) hstarts.2
    rw [others]
    split
    · next honly =>
      rw [forget_step_of_only h halone honly hstarts.1] at hnext
      exact hnext
    · next hother =>
      rw [forget_step_of_other h halone (eq_false_of_ne_true hother)] at hnext
      exact hnext

/-! ## A run without the cancellation -/

/-- How many turns of a caller a task leads to: who gets a load takes another turn. -/
def Task.turnsOf (id : Nat) : Task → Nat
  | .deliver _ i => if i = id then 2 else 0
  | .caller i => if i = id then 1 else 0
  | _ => 0

/-- How many turns of a caller the tasks in the queue lead to. -/
def ownTurns (id : Nat) : List Task → Nat
  | [] => 0
  | t :: tasks => Task.turnsOf id t + ownTurns id tasks

theorem ownTurns_append (id : Nat) (tasks tasks' : List Task) :
    ownTurns id (tasks ++ tasks') = ownTurns id tasks + ownTurns id tasks' := by
  induction tasks with
  | nil => simp [ownTurns]
  | cons t tasks ih => simp only [List.cons_append, ownTurns, ih, Nat.add_assoc]

theorem ownTurns_deliver {id loadId : Nat} (p : Provider ε) :
    ownTurns id (p.deliver loadId id).ready ≤ ownTurns id p.ready + 1 := by
  unfold deliver
  split
  · split
    · rw [enqueue, ownTurns_append]
      simp [ownTurns, Task.turnsOf, setCaller]
    · exact Nat.le_succ _
  · exact Nat.le_succ _

theorem ready_turnCaller {id : Nat} {p : Provider ε} {c : Caller ε} (hc : p.callers[id]? = some c)
    (hnone : c.collection = none) (hs : c.stage ≠ .starting) : (p.turnCaller id).ready = p.ready := by
  unfold turnCaller
  rw [hc]
  dsimp only
  split
  · next hstarting => exact absurd hstarting hs
  · simp [finishCaller, enqueue, hnone, setCaller]
  · rfl

/-- Every turn of a caller who has started brings its last turn nearer. -/
theorem ownTurns_step {id : Nat} {p : Provider ε} (h : Enrolled p) (hstarted : HasStarted p id)
    {t : Task} {tasks : List Task} (hready : p.ready = t :: tasks) (ht : t.forget id = none)
    (answer : String → Nat → Answer ε) :
    ownTurns id (p.step (.turn answer)).ready < ownTurns id p.ready := by
  obtain ⟨c, hc, hnone, hs⟩ := hstarted
  simp only [step, turn, hready]
  cases t with
  | deliver loadId i =>
    obtain rfl := forgetCaller_map_eq_none ht
    have hle : ownTurns i (Provider.deliver { p with ready := tasks } loadId i).ready
        ≤ ownTurns i tasks + 1 := ownTurns_deliver _
    have hsum : ownTurns i (.deliver loadId i :: tasks) = 2 + ownTurns i tasks := by
      simp [ownTurns, Task.turnsOf]
    rw [hsum]
    exact Nat.lt_of_le_of_lt hle (by simp [Nat.add_comm])
  | caller i =>
    obtain rfl := forgetCaller_map_eq_none ht
    have hrest := ready_turnCaller (p := { p with ready := tasks }) hc hnone hs
    have hsum : ownTurns i (.caller i :: tasks) = 1 + ownTurns i tasks := by
      simp [ownTurns, Task.turnsOf]
    simp only [perform, hrest, hsum]
    exact Nat.lt_add_of_pos_left Nat.one_pos
  | report k i =>
    obtain rfl := forgetCaller_map_eq_none ht
    exact absurd (by simp [hready]) (not_report_of_isAlone h ⟨c, hc, hnone⟩ k)
  | _ => simp [Task.forget] at ht

/-- A caller who has started can take its turns until another task is first in the queue. -/
theorem exists_ownTurns {id : Nat} {p : Provider ε} (h : Enrolled p) (hstarted : HasStarted p id) :
    ∃ events, others id p events = [] ∧ (∀ e ∈ events, e ≠ .cancelCaller id) ∧
      ∀ t, (p.run events).ready.head? = some t → t.forget id ≠ none := by
  generalize hwork : ownTurns id p.ready = work
  induction work using Nat.strongRecOn generalizing p with
  | ind work ih =>
    by_cases hhead : ∀ t, p.ready.head? = some t → t.forget id ≠ none
    · exact ⟨[], rfl, by simp, hhead⟩
    · obtain ⟨t, ht, hown⟩ : ∃ t, p.ready.head? = some t ∧ t.forget id = none := by
        simpa using hhead
      obtain ⟨tasks, hready⟩ := List.head?_eq_some_iff.1 ht
      let pausing : Event ε := .turn fun _ _ => .later
      have hless := ownTurns_step h hstarted hready hown fun _ _ => .later
      obtain ⟨events, hothers, hcancel, hfirst⟩ := ih _ (hwork ▸ hless) (enrolled_step h pausing)
        (hasStarted_stays hstarted pausing) rfl
      refine ⟨pausing :: events, ?_, ?_, hfirst⟩
      · have honly : p.isOnlyOf id pausing = true := by simp [pausing, isOnlyOf, ht, hown]
        rw [others, if_pos honly]
        exact hothers
      · intro e he
        rcases List.mem_cons.1 he with rfl | he
        · simp [pausing]
        · exact hcancel e he

theorem isAlone_of_hasStarted {p : Provider ε} {id : Nat} (h : HasStarted p id) : IsAlone p id := by
  obtain ⟨c, hc, hnone, -⟩ := h
  exact ⟨c, hc, hnone⟩

theorem forget_run_of_hasStarted {id : Nat} (events : List (Event ε)) {p : Provider ε}
    (h : Enrolled p) (hstarted : HasStarted p id) :
    (p.run events).forget id = (p.forget id).run ((others id p events).map (Event.forget id)) :=
  forget_run events h (isAlone_of_hasStarted hstarted) (neverStarts_of_hasStarted events hstarted)

/-- When others have nothing to do, and no turn of the caller is next, nobody has. -/
theorem ready_eq_nil_of_forget {id : Nat} {p : Provider ε} (hforget : (p.forget id).ready = [])
    (hhead : ∀ t, p.ready.head? = some t → t.forget id ≠ none) : p.ready = [] := by
  cases hready : p.ready with
  | nil => rfl
  | cons t tasks =>
    have ht := hhead t (by simp [hready])
    simp only [forget, List.filterMap_eq_nil_iff] at hforget
    exact absurd (hforget t (by simp [hready])) ht

/-- An event that is not only about a caller is not so in a provider that is the same without the
    caller and is not about to give it a turn. -/
theorem isOnlyOf_eq_false {id : Nat} {p q : Provider ε} (hsame : p.forget id = q.forget id)
    (hhead : ∀ t, q.ready.head? = some t → t.forget id ≠ none) {e : Event ε}
    (hother : p.isOnlyOf id e = false) : q.isOnlyOf id e = false := by
  cases e with
  | turn answer =>
    cases hready : q.ready with
    | nil =>
      have hempty : p.ready.filterMap (Task.forget id) = [] := by
        have := congrArg Provider.ready hsame
        simpa [forget, hready] using this
      cases hp : p.ready with
      | nil => simp [isOnlyOf, hp] at hother
      | cons t tasks =>
        rw [List.filterMap_eq_nil_iff] at hempty
        have ht := hempty t (by simp [hp])
        simp [isOnlyOf, hp, ht] at hother
    | cons t tasks =>
      have ht := hhead t (by simp [hready])
      simpa [isOnlyOf, hready, Option.isSome_iff_ne_none] using ht
  | _ => exact hother

/-- For a run there is one with the same other events in which a caller who has started is not
    cancelled: the caller takes its turns as soon as it can. -/
theorem exists_uncancelled {id : Nat} (events : List (Event ε)) {p q : Provider ε} (hp : Enrolled p)
    (hq : Enrolled q) (hps : HasStarted p id) (hqs : HasStarted q id)
    (hsame : p.forget id = q.forget id) :
    ∃ spared, others id q spared = others id p events ∧ (∀ e ∈ spared, e ≠ .cancelCaller id) ∧
      ((p.run events).ready = [] → (q.run spared).ready = []) := by
  -- the run without the cancellation lags behind: before each event of others the caller takes the
  -- turns that are first in its queue, and after the last one all that are left
  induction events generalizing p q with
  | nil =>
    obtain ⟨turns, hothers, hcancel, hhead⟩ := exists_ownTurns hq hqs
    refine ⟨turns, hothers, hcancel, fun hquiet => ready_eq_nil_of_forget ?_ hhead⟩
    have hforget := forget_run_of_hasStarted turns hq hqs
    rw [hothers, ← hsame] at hforget
    rw [hforget]
    show p.ready.filterMap (Task.forget id) = []
    rw [show p.ready = [] from hquiet, List.filterMap_nil]
  | cons e es ih =>
    by_cases honly : p.isOnlyOf id e = true
    · have hstep := forget_step_of_only hp (isAlone_of_hasStarted hps) honly
        (neverStarts_of_hasStarted [e] hps).1
      rw [others, if_pos honly]
      exact ih (enrolled_step hp e) hq (hasStarted_stays hps e) hqs (hstep.trans hsame)
    · have hother := eq_false_of_ne_true honly
      obtain ⟨turns, hothers, hcancel, hhead⟩ := exists_ownTurns hq hqs
      have hr := enrolled_run hq turns
      have hrs := hasStarted_run hqs turns
      have hforget := forget_run_of_hasStarted turns hq hqs
      rw [hothers, ← hsame] at hforget
      have hother' := isOnlyOf_eq_false hforget.symm hhead hother
      have hstep : (p.step e).forget id = ((q.run turns).step e).forget id := by
        rw [forget_step_of_other hp (isAlone_of_hasStarted hps) hother,
          forget_step_of_other hr (isAlone_of_hasStarted hrs) hother', hforget]
        rfl
      obtain ⟨spared, hspared, hcancel', hquiet⟩ := ih (enrolled_step hp e) (enrolled_step hr e)
        (hasStarted_stays hps e) (hasStarted_stays hrs e) hstep
      refine ⟨turns ++ e :: spared, ?_, fun e' he' => ?_, fun h => ?_⟩
      · rw [others_append, hothers, List.nil_append, others, others, if_neg honly,
          if_neg (by simp [hother']), hspared]
      · rcases List.mem_append.1 he' with hmem | hmem
        · exact hcancel e' hmem
        · rcases List.mem_cons.1 hmem with rfl | hmem
          · rintro rfl
            simp [isOnlyOf] at hother
          · exact hcancel' e' hmem
      · rw [run_append]
        exact hquiet h

/-! ## A caller who has just asked -/

theorem forgetCaller_of_lt {id i : Nat} (h : i < id) : forgetCaller id i = some i := by
  rw [forgetCaller_of_ne (Nat.ne_of_lt h), renumber, if_pos h]

theorem filterMap_forgetCaller_of_lt {id : Nat} {ids : List Nat} (h : ∀ i ∈ ids, i < id) :
    ids.filterMap (forgetCaller id) = ids := by
  rw [List.filterMap_congr fun i hi => forgetCaller_of_lt (h i hi), List.filterMap_some]

theorem forget_task_of_known {p : Provider ε} {t : Task} (h : Known p t) :
    t.forget p.callers.length = some t := by
  cases t with
  | deliver loadId i => simp [Task.forget, forgetCaller_of_lt (show i < p.callers.length from h)]
  | caller i => simp [Task.forget, forgetCaller_of_lt (show i < p.callers.length from h)]
  | report k i =>
    obtain ⟨c, hc, -⟩ := h
    simp [Task.forget, forgetCaller_of_lt (List.getElem?_eq_some_iff.1 hc).1]
  | _ => rfl

/-- A provider knows nothing of a caller who has not asked. -/
theorem forget_of_enrolled {p : Provider ε} (h : Enrolled p) : p.forget p.callers.length = p := by
  have hloads : ∀ l ∈ p.loads, l.forget p.callers.length = l := fun l hl => by
    obtain ⟨loadId, hid⟩ := List.getElem?_of_mem hl
    rw [Load.forget, filterMap_forgetCaller_of_lt (h.listed loadId l hid)]
  have hcollections : ∀ c ∈ p.collections, c.forget p.callers.length = c := fun c hc => by
    obtain ⟨k, hk⟩ := List.getElem?_of_mem hc
    obtain ⟨filters, stage, cancelling⟩ := c
    cases stage with
    | gathering ids left =>
      have hids : ∀ i ∈ ids, i < p.callers.length := fun i hi => by
        obtain ⟨caller, hcaller, -⟩ := h.gathered k _ ids left hk rfl i hi
        exact (List.getElem?_eq_some_iff.1 hcaller).1
      simp only [Collection.forget, CollectionStage.forget, filterMap_forgetCaller_of_lt hids]
    | _ => rfl
  have hready : p.ready.filterMap (Task.forget p.callers.length) = p.ready := by
    rw [List.filterMap_congr fun t ht => forget_task_of_known (h.tasks t ht), List.filterMap_some]
  have hcallers : p.callers.eraseIdx p.callers.length = p.callers :=
    List.eraseIdx_of_length_le (Nat.le_refl _)
  simp only [forget, List.map_congr_left hloads, List.map_congr_left hcollections, List.map_id',
    hready, hcallers]

/-- Without a caller who has just asked, a provider is what it was before. -/
theorem forget_asked {p : Provider ε} (h : Enrolled p) (slug : String) :
    (p.step (.request slug)).forget p.callers.length = p := by
  have hself := forget_of_enrolled h
  have herase : (p.callers ++ [({ slug := slug } : Caller ε)]).eraseIdx p.callers.length
      = p.callers := by
    rw [List.eraseIdx_append_of_length_le (Nat.le_refl _)]
    simp
  have hforget : Provider.forget p.callers.length { p with callers := p.callers ++ [{ slug := slug }] }
      = { p.forget p.callers.length with callers := p.callers } := by
    simp only [forget, herase]
  show (p.request slug).forget p.callers.length = p
  rw [request, forget_enqueue, hforget, hself]
  simp [Task.forget, forgetCaller_self, enqueue]

/-! ## What others see -/

/-- What a provider shows: its tables, how often loaders have been called, the callers in order, and how
    collections have ended. -/
structure View (ε : Type) where
  cache : List (String × Artifact)
  inflight : List (String × Nat)
  calls : List (String × Nat)
  callers : List (Caller ε)
  collections : List (Option (CollectOutcome ε))

/-- How a collection has ended, if it has. -/
def endOf (c : Collection ε) : Option (CollectOutcome ε) :=
  match c.stage with
  | .finished outcome => some outcome
  | _ => none

/-- What a provider shows. -/
def view (p : Provider ε) : View ε :=
  ⟨p.cache, p.inflight, p.calls, p.callers, p.collections.map endOf⟩

/-- What a provider shows to all callers but one. -/
def viewWithout (id : Nat) (p : Provider ε) : View ε :=
  { p.view with callers := p.callers.eraseIdx id }

theorem endOf_forget (id : Nat) (c : Collection ε) : endOf (c.forget id) = endOf c := by
  obtain ⟨filters, stage, cancelling⟩ := c
  cases stage <;> rfl

theorem viewWithout_eq (id : Nat) (p : Provider ε) : p.viewWithout id = (p.forget id).view := by
  simp only [viewWithout, view, forget, List.map_map]
  congr 1
  exact List.map_congr_left fun c _ => (endOf_forget id c).symm

/-- Cancelling a caller who asks for itself makes no difference to others.

    * A caller who is cancelled before its first turn: the run shows to others what the run of the other
      events shows in which that caller has never asked.
    * A caller who is cancelled later: the run shows to others what every run shows that has the same
      other events from there on. There is such a run in which the caller is not cancelled, and in
      which nothing can move when nothing can move in the run with the cancellation. -/
theorem cancellation_is_invisible (c : Catalogue) (before : List (Event ε)) :
    let p := (initial c : Provider ε).run before
    (∀ slug early late,
      let id := p.callers.length
      let asked := p.step (.request slug)
      let events := early ++ .cancelCaller id :: late
      let unasked := (others id asked events).map (Event.forget id)
      NeverStarts id asked early →
        (asked.run events).viewWithout id = (p.run unasked).view ∧
        ((asked.run events).ready = [] → (p.run unasked).ready = [])) ∧
    (∀ id, HasStarted p id →
      let q := p.step (.cancelCaller id)
      (∀ cancelled spared, others id q cancelled = others id p spared →
        (q.run cancelled).viewWithout id = (p.run spared).viewWithout id) ∧
      ∀ cancelled, ∃ spared, others id p spared = others id q cancelled ∧
        (∀ e ∈ spared, e ≠ .cancelCaller id) ∧
        ((q.run cancelled).ready = [] → (p.run spared).ready = [])) := by
  intro p
  have henrolled : Enrolled p := enrolled_run (enrolled_initial c) before
  refine ⟨fun slug early late => ?_, fun id hstarted => ?_⟩
  · intro id asked events unasked hearly
    have hasked : Enrolled asked := enrolled_step henrolled _
    have halone : IsAlone asked id :=
      ⟨⟨slug, none, .starting⟩, List.getElem?_concat_length, rfl⟩
    -- after the cancellation the caller counts as started, so it takes no first turn any more
    have hstarts : NeverStarts id asked events := by
      refine neverStarts_append.2 ⟨hearly, fun c hc _ => absurd hc (by simp [task?]), ?_⟩
      exact neverStarts_of_hasStarted late (hasStarted_of_cancelled (isAlone_run halone early))
    have hrun : (asked.run events).forget id = p.run unasked := by
      rw [forget_run events hasked halone hstarts, forget_asked henrolled slug]
    refine ⟨?_, fun hquiet => ?_⟩
    · rw [viewWithout_eq, hrun]
    · rw [← hrun]
      show (asked.run events).ready.filterMap (Task.forget id) = []
      rw [hquiet, List.filterMap_nil]
  · intro q
    have hq : Enrolled q := enrolled_step henrolled _
    have hqs : HasStarted q id := hasStarted_stays hstarted _
    have hsame : q.forget id = p.forget id := forget_cancelCaller_self id p
    refine ⟨fun cancelled spared hothers => ?_, fun cancelled => ?_⟩
    · rw [viewWithout_eq, viewWithout_eq, forget_run_of_hasStarted cancelled hq hqs,
        forget_run_of_hasStarted spared henrolled hstarted, hothers, hsame]
    · exact exists_uncancelled cancelled hq henrolled hqs hstarted hsame

/-- Two callers who ask for the same page, of whom the first has started the load. -/
def shared : List (Event String) :=
  [.request "a", .request "a", pause, pause]

/-- A third caller is cancelled before its first turn, and then the one who has started the load. -/
theorem shared_when_cancelled :
    let p := (initial onePage).run shared
    let asked := p.step (.request "a")
    let waited := p.step (.cancelCaller 0)
    NeverStarts 2 asked [] ∧ HasStarted p 0 ∧
      others 0 waited [reply "new", pause, pause, pause, pause, pause]
        = others 0 p [reply "new", pause, pause, pause, pause, pause] ∧
      (asked.run [.cancelCaller 2, reply "new", pause]).viewWithout 2
        = (p.run [reply "new"]).view ∧
      (waited.run [reply "new", pause, pause, pause, pause, pause]).viewWithout 0
        = (p.run [reply "new", pause, pause, pause, pause, pause]).viewWithout 0 := by
  obtain ⟨hbefore, hlater⟩ := cancellation_is_invisible onePage shared
  have hstarted : HasStarted ((initial onePage).run shared) 0 :=
    ⟨⟨"a", none, .waiting 0⟩, rfl, rfl, by simp⟩
  obtain ⟨hsame, -⟩ := hlater 0 hstarted
  refine ⟨trivial, hstarted, rfl, ?_, hsame _ _ rfl⟩
  exact (hbefore "a" [] [reply "new", pause] trivial).1

end Folio.Provider

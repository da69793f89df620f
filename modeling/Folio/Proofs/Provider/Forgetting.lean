import Folio.Proofs.Provider.Step
import Mathlib.Data.List.Basic

set_option autoImplicit false

/-! # A provider without one of its callers

A caller can be forgotten: it is taken out of the callers, out of the loads it has joined and out of
the queue, and callers with higher numbers move up. For what other callers do this makes no difference:
every operation commutes with forgetting, as long as no collection has gathered the forgotten caller. -/

namespace Folio

variable {ε : Type}

/-- The number of a caller when another one is forgotten. -/
def renumber (id i : Nat) : Nat :=
  if i < id then i else i - 1

/-- The number of a caller when one is forgotten, if it is another one. -/
def forgetCaller (id i : Nat) : Option Nat :=
  if i = id then none else some (renumber id i)

theorem forgetCaller_self (id : Nat) : forgetCaller id id = none := by
  simp [forgetCaller]

theorem forgetCaller_of_ne {id i : Nat} (h : i ≠ id) : forgetCaller id i = some (renumber id i) := by
  simp [forgetCaller, h]

theorem forgetCaller_map_eq_none {α : Type} {id i : Nat} {f : Nat → α}
    (h : (forgetCaller id i).map f = none) : i = id := by
  by_contra hi
  simp [forgetCaller, hi] at h

theorem forgetCaller_map_eq_some {α : Type} {id i : Nat} {f : Nat → α} {a : α}
    (h : (forgetCaller id i).map f = some a) : i ≠ id ∧ a = f (renumber id i) := by
  by_cases hi : i = id
  · simp [forgetCaller, hi] at h
  · rw [forgetCaller_of_ne hi] at h
    exact ⟨hi, (Option.some.inj h).symm⟩

/-- A load without a caller. -/
def Load.forget (id : Nat) (l : Load ε) : Load ε :=
  { l with callers := l.callers.filterMap (forgetCaller id) }

/-- A stage of a collection without a caller. -/
def CollectionStage.forget (id : Nat) : CollectionStage ε → CollectionStage ε
  | .gathering callers left => .gathering (callers.filterMap (forgetCaller id)) left
  | stage => stage

/-- A collection without a caller. -/
def Collection.forget (id : Nat) (c : Collection ε) : Collection ε :=
  { c with stage := c.stage.forget id }

/-- A task when a caller is forgotten. -/
def Task.forget (id : Nat) : Task → Option Task
  | .deliver loadId i => (forgetCaller id i).map (.deliver loadId)
  | .caller i => (forgetCaller id i).map .caller
  | .report k i => (forgetCaller id i).map (.report k)
  | task => some task

namespace Provider

/-- A provider without a caller. -/
def forget (id : Nat) (p : Provider ε) : Provider ε :=
  { p with
    loads := p.loads.map (Load.forget id)
    callers := p.callers.eraseIdx id
    collections := p.collections.map (Collection.forget id)
    ready := p.ready.filterMap (Task.forget id) }

/-! ## Parts of a provider -/

section

variable (id : Nat) (p : Provider ε)

theorem loads_forget (loadId : Nat) :
    (p.forget id).loads[loadId]? = p.loads[loadId]?.map (Load.forget id) := by
  simp [forget]

theorem collections_forget (k : Nat) :
    (p.forget id).collections[k]? = p.collections[k]?.map (Collection.forget id) := by
  simp [forget]

theorem callers_forget {i : Nat} (hi : i ≠ id) :
    (p.forget id).callers[renumber id i]? = p.callers[i]? := by
  simp only [forget, renumber, List.getElem?_eraseIdx]
  by_cases hlt : i < id
  · simp [hlt]
  · have hle : ¬ i - 1 < id := by omega
    have hsucc : i - 1 + 1 = i := by omega
    rw [if_neg hlt, if_neg hle, hsucc]

theorem forget_enqueue (tasks : List Task) :
    (p.enqueue tasks).forget id = (p.forget id).enqueue (tasks.filterMap (Task.forget id)) := by
  simp [forget, enqueue]

theorem map_modify {α β : Type} (f : α → β) (g : α → α) (g' : β → β) (h : ∀ a, f (g a) = g' (f a))
    (l : List α) (i : Nat) : (l.modify i g).map f = (l.map f).modify i g' := by
  refine List.ext_getElem? fun j => ?_
  rw [List.getElem?_map, List.getElem?_modify, List.getElem?_modify, List.getElem?_map]
  by_cases hj : i = j
  · subst hj
    cases l[i]? <;> simp [h]
  · cases l[j]? <;> simp [hj]

theorem forget_setLoad (loadId : Nat) (stage : LoadStage ε) :
    (p.setLoad loadId stage).forget id = (p.forget id).setLoad loadId stage := by
  have hmap := map_modify (Load.forget id) (fun l : Load ε => { l with stage := stage })
    (fun l => { l with stage := stage }) (fun _ => rfl) p.loads loadId
  simp only [forget, setLoad, hmap]

theorem forget_setCollection (k : Nat) (stage : CollectionStage ε) :
    (p.setCollection k stage).forget id = (p.forget id).setCollection k (stage.forget id) := by
  have hmap := map_modify (Collection.forget id) (fun c : Collection ε => { c with stage := stage })
    (fun c => { c with stage := stage.forget id }) (fun _ => rfl) p.collections k
  simp only [forget, setCollection, hmap]

theorem forget_setCancelling (k : Nat) (how : Cancelling) :
    Provider.forget id { p with collections := p.collections.modify k fun c =>
        { c with cancelling := how } }
      = { p.forget id with collections := (p.forget id).collections.modify k fun c =>
        { c with cancelling := how } } := by
  have hmap := map_modify (Collection.forget id) (fun c : Collection ε => { c with cancelling := how })
    (fun c => { c with cancelling := how }) (fun _ => rfl) p.collections k
  simp only [forget, hmap]

theorem forget_setCaller {i : Nat} (hi : i ≠ id) (stage : CallerStage ε) :
    (p.setCaller i stage).forget id = (p.forget id).setCaller (renumber id i) stage := by
  have herase : (p.callers.modify i fun c => { c with stage := stage }).eraseIdx id
      = (p.callers.eraseIdx id).modify (renumber id i) fun c => { c with stage := stage } := by
    -- callers before the forgotten one keep their numbers, those after it move up
    rcases Nat.lt_or_gt_of_ne hi with hlt | hgt
    · rw [List.eraseIdx_modify_of_gt _ _ _ _ hlt, renumber, if_pos hlt]
    · rw [List.eraseIdx_modify_of_lt _ _ _ _ hgt, renumber, if_neg (Nat.lt_asymm hgt)]
  simp only [forget, setCaller, herase]

theorem forget_setCaller_self (stage : CallerStage ε) :
    (p.setCaller id stage).forget id = p.forget id := by
  simp only [forget, setCaller, List.eraseIdx_modify_of_eq]

end

/-! ## What loads do -/

section

variable (id : Nat) (p : Provider ε)

theorem filterMap_deliver (loadId : Nat) (callers : List Nat) :
    (callers.map (Task.deliver loadId)).filterMap (Task.forget id)
      = (callers.filterMap (forgetCaller id)).map (Task.deliver loadId) := by
  rw [List.filterMap_map, List.map_filterMap]
  rfl

theorem filterMap_caller (callers : List Nat) :
    (callers.map Task.caller).filterMap (Task.forget id)
      = (callers.filterMap (forgetCaller id)).map Task.caller := by
  rw [List.filterMap_map, List.map_filterMap]
  rfl

theorem forget_finishLoad (loadId : Nat) (l : Load ε) (result : Except (LoadError ε) Artifact) :
    (p.finishLoad loadId l result).forget id
      = (p.forget id).finishLoad loadId (l.forget id) result := by
  have htasks : (.settle loadId :: l.callers.map (.deliver loadId)).filterMap (Task.forget id)
      = .settle loadId :: (l.callers.filterMap (forgetCaller id)).map (.deliver loadId) :=
    congrArg (Task.settle loadId :: ·) (filterMap_deliver id loadId l.callers)
  rw [finishLoad, forget_enqueue, forget_setLoad, htasks]
  rfl

theorem forget_startLoad (answer : String → Nat → Answer ε) (loadId : Nat) (l : Load ε) :
    (p.startLoad answer loadId l).forget id
      = (p.forget id).startLoad answer loadId (l.forget id) := by
  have hresolve : (p.forget id).resolve (l.forget id).slug = p.resolve l.slug := rfl
  unfold startLoad
  rw [hresolve]
  cases p.resolve l.slug with
  | error e => exact forget_finishLoad id p loadId l (.error e)
  | ok key =>
    have hcalls : (p.forget id).callsOf key = p.callsOf key := rfl
    dsimp only
    rw [hcalls]
    cases answer key (p.callsOf key) with
    | now result => exact forget_finishLoad id _ loadId l _
    | later => exact forget_setLoad id _ loadId _

theorem forget_turnLoad (answer : String → Nat → Answer ε) (loadId : Nat) :
    (p.turnLoad answer loadId).forget id = (p.forget id).turnLoad answer loadId := by
  unfold turnLoad
  rw [loads_forget]
  cases p.loads[loadId]? with
  | none => rfl
  | some l =>
    obtain ⟨slug, stage, callers⟩ := l
    cases stage with
    | starting => exact forget_startLoad id p answer loadId _
    | answered result => exact forget_finishLoad id p loadId _ _
    | waiting key n => rfl
    | finished result => rfl

theorem forget_settle (loadId : Nat) : (p.settle loadId).forget id = (p.forget id).settle loadId := by
  have hinflight : (p.forget id).inflight = p.inflight := rfl
  unfold settle
  rw [loads_forget]
  cases p.loads[loadId]? with
  | none => rfl
  | some l =>
    obtain ⟨slug, stage, callers⟩ := l
    cases stage with
    | finished result =>
      simp only [Option.map_some, Load.forget, hinflight]
      split
      · cases result <;> rfl
      · rfl
    | _ => rfl

theorem forget_receive (loadId : Nat) (result : Except ε Artifact) :
    (p.receive loadId result).forget id = (p.forget id).receive loadId result := by
  unfold receive
  rw [loads_forget]
  cases p.loads[loadId]? with
  | none => rfl
  | some l =>
    obtain ⟨slug, stage, callers⟩ := l
    cases stage with
    | waiting key n =>
      simp only [Option.map_some, Load.forget]
      rw [forget_enqueue, forget_setLoad]
      rfl
    | _ => rfl

end

/-! ## What other callers do -/

section

variable {id i : Nat} (p : Provider ε) (hi : i ≠ id)
include hi

theorem forget_deliver (loadId : Nat) :
    (p.deliver loadId i).forget id = (p.forget id).deliver loadId (renumber id i) := by
  unfold deliver
  rw [loads_forget, callers_forget id p hi]
  cases p.loads[loadId]? with
  | none => rfl
  | some l =>
    obtain ⟨slug, stage, callers⟩ := l
    cases p.callers[i]? with
    | none => cases stage <;> rfl
    | some c =>
      obtain ⟨cslug, collection, cstage⟩ := c
      cases stage with
      | finished result =>
        cases cstage with
        | waiting waited =>
          simp only [Option.map_some, Load.forget]
          split
          · rw [forget_enqueue, forget_setCaller id p hi]
            simp [Task.forget, forgetCaller_of_ne hi]
          · rfl
        | _ => rfl
      | _ => cases cstage <;> rfl

theorem forget_finishCaller (c : Caller ε) (outcome : Outcome ε Artifact) :
    (p.finishCaller i c outcome).forget id = (p.forget id).finishCaller (renumber id i) c outcome := by
  rw [finishCaller, forget_enqueue, forget_setCaller id p hi, finishCaller]
  cases c.collection with
  | none => rfl
  | some k => simp [Task.forget, forgetCaller_of_ne hi]

theorem forget_join (c : Caller ε) (loadId : Nat) :
    (p.join i c loadId).forget id = (p.forget id).join (renumber id i) c loadId := by
  have hadd : Provider.forget id { p with loads := p.loads.modify loadId fun l =>
        { l with callers := l.callers ++ [i] } }
      = { p.forget id with loads := (p.forget id).loads.modify loadId fun l =>
        { l with callers := l.callers ++ [renumber id i] } } := by
    have hmap := map_modify (Load.forget id)
      (fun l : Load ε => { l with callers := l.callers ++ [i] })
      (fun l => { l with callers := l.callers ++ [renumber id i] })
      (fun l => by simp [Load.forget, forgetCaller_of_ne hi]) p.loads loadId
    simp only [forget, hmap]
  have hwait : Provider.forget id (Provider.setCaller { p with loads := p.loads.modify loadId fun l =>
        { l with callers := l.callers ++ [i] } } i (.waiting loadId))
      = Provider.setCaller { p.forget id with loads := (p.forget id).loads.modify loadId fun l =>
        { l with callers := l.callers ++ [renumber id i] } } (renumber id i) (.waiting loadId) := by
    rw [forget_setCaller id _ hi, hadd]
  unfold join
  rw [loads_forget]
  cases p.loads[loadId]? with
  | none => exact hwait
  | some l =>
    obtain ⟨slug, stage, callers⟩ := l
    cases stage with
    | finished result => exact forget_finishCaller p hi c _
    | _ => exact hwait

theorem forget_initiate (slug : String) :
    (p.initiate i slug).forget id = (p.forget id).initiate (renumber id i) slug := by
  have hlength : (p.forget id).loads.length = p.loads.length := by simp [forget]
  rw [initiate, forget_enqueue, forget_setCaller id _ hi, initiate, hlength]
  simp [forget, Load.forget, forgetCaller_of_ne hi, Task.forget]

theorem forget_turnCaller :
    (p.turnCaller i).forget id = (p.forget id).turnCaller (renumber id i) := by
  have hcache : (p.forget id).cache = p.cache := rfl
  have hinflight : (p.forget id).inflight = p.inflight := rfl
  unfold turnCaller
  rw [callers_forget id p hi]
  cases p.callers[i]? with
  | none => rfl
  | some c =>
    dsimp only
    cases c.stage with
    | starting =>
      dsimp only [startCaller]
      rw [hcache, hinflight]
      cases p.cache.lookup c.slug with
      | some a => exact forget_finishCaller p hi c _
      | none =>
        cases p.inflight.lookup c.slug with
        | some loadId => exact forget_join p hi c loadId
        | none => exact forget_initiate p hi c.slug
    | ending outcome => exact forget_finishCaller p hi c outcome
    | waiting loadId => rfl
    | finished outcome => rfl

theorem forget_cancelCaller :
    (p.cancelCaller i).1.forget id = ((p.forget id).cancelCaller (renumber id i)).1 ∧
      (p.cancelCaller i).2 = ((p.forget id).cancelCaller (renumber id i)).2 := by
  unfold cancelCaller
  rw [callers_forget id p hi]
  cases p.callers[i]? with
  | none => exact ⟨rfl, rfl⟩
  | some c =>
    dsimp only
    cases c.stage with
    | finished outcome => exact ⟨rfl, rfl⟩
    | waiting loadId =>
      refine ⟨?_, rfl⟩
      dsimp only
      rw [forget_enqueue, forget_setCaller id p hi]
      simp [Task.forget, forgetCaller_of_ne hi]
    | starting => exact ⟨forget_setCaller id p hi _, rfl⟩
    | ending outcome => exact ⟨forget_setCaller id p hi _, rfl⟩

end

/-! ## What collections do -/

/-- No collection has gathered a caller. -/
def Ungathered (id : Nat) (p : Provider ε) : Prop :=
  ∀ (k : Nat) c ids left, p.collections[k]? = some c → c.stage = .gathering ids left → id ∉ ids

section

variable {id : Nat} (p : Provider ε)

/-- The numbers of new callers, when one who was there before is forgotten. -/
theorem filterMap_new {n : Nat} (hid : id < n) (count : Nat) :
    ((List.range count).map (n + ·)).filterMap (forgetCaller id)
      = (List.range count).map (n - 1 + ·) := by
  rw [List.filterMap_map, ← List.filterMap_eq_map]
  refine List.filterMap_congr fun j _ => ?_
  have hne : n + j ≠ id := by omega
  have hnot : ¬ n + j < id := by omega
  have hsub : n + j - 1 = n - 1 + j := by omega
  simp [forgetCaller_of_ne hne, renumber, hnot, hsub]

theorem forget_append (hid : id < p.callers.length) (new : List (Caller ε)) :
    Provider.forget id { p with callers := p.callers ++ new }
      = { p.forget id with callers := (p.forget id).callers ++ new } := by
  simp only [forget, List.eraseIdx_append_of_lt_length hid]

theorem length_callers_forget (hid : id < p.callers.length) :
    (p.forget id).callers.length = p.callers.length - 1 := by
  simp [forget, List.length_eraseIdx, hid]

theorem forget_request (hid : id < p.callers.length) (slug : String) :
    (p.request slug).forget id = (p.forget id).request slug := by
  have hnew := filterMap_new hid 1
  simp only [List.range_one, List.map_cons, List.map_nil, Nat.add_zero] at hnew
  rw [request, forget_enqueue, forget_append p hid, request, length_callers_forget p hid,
    ← List.map_singleton (f := Task.caller), filterMap_caller, hnew]
  rfl

theorem forget_requestAll (filters : Option ContentFilters) :
    (p.requestAll filters).forget id = (p.forget id).requestAll filters := by
  have hlength : (p.forget id).collections.length = p.collections.length := by simp [forget]
  rw [requestAll, forget_enqueue, requestAll, hlength]
  simp only [forget, List.map_append]
  rfl

theorem forget_startCollection (hid : id < p.callers.length) (k : Nat) (c : Collection ε) :
    (p.startCollection k c).forget id = (p.forget id).startCollection k (c.forget id) := by
  have hslugs : (p.forget id).catalogue.slugs = p.catalogue.slugs := rfl
  unfold startCollection
  rw [hslugs]
  cases p.catalogue.slugs with
  | error e => exact forget_setCollection id p k _
  | ok slugs =>
    cases slugs with
    | nil =>
      refine (forget_setCollection id p k _).trans ?_
      rfl
    | cons slug rest =>
      have hnew := filterMap_new hid (slug :: rest).length
      dsimp only
      rw [forget_enqueue, forget_setCollection, forget_append p hid, filterMap_caller, hnew,
        length_callers_forget p hid]
      simp only [CollectionStage.forget, hnew, List.length_map, List.length_range]

theorem forget_turnCollection (hid : id < p.callers.length) (k : Nat) :
    (p.turnCollection k).forget id = (p.forget id).turnCollection k := by
  unfold turnCollection
  rw [collections_forget]
  cases p.collections[k]? with
  | none => rfl
  | some c =>
    obtain ⟨filters, stage, cancelling⟩ := c
    cases stage with
    | starting => exact forget_startCollection p hid k _
    | gathering ids left => rfl
    | ending outcome => cases outcome <;> exact forget_setCollection id p k _
    | finished outcome => rfl

theorem artifactsOf_forget {ids : List Nat} (hids : id ∉ ids) :
    (p.forget id).artifactsOf (ids.filterMap (forgetCaller id)) = p.artifactsOf ids := by
  unfold artifactsOf
  rw [List.filterMap_filterMap]
  refine List.filterMap_congr fun i hi => ?_
  have hne : i ≠ id := fun h => hids (h ▸ hi)
  simp only [forgetCaller_of_ne hne, Option.bind_some, callers_forget id p hne]

theorem forget_conclude (k : Nat) (c : Collection ε) (outcome : CollectOutcome ε) :
    (p.conclude k c outcome).forget id = (p.forget id).conclude k (c.forget id) outcome := by
  rw [conclude, forget_enqueue, forget_setCollection]
  rfl

theorem forget_report (hun : Ungathered id p) {i : Nat} (hi : i ≠ id) (k : Nat) :
    (p.report k i).forget id = (p.forget id).report k (renumber id i) := by
  unfold report
  rw [collections_forget, callers_forget id p hi]
  cases hk : p.collections[k]? with
  | none => rfl
  | some c =>
    have hids := hun k c
    obtain ⟨filters, stage, cancelling⟩ := c
    cases p.callers[i]? with
    | none => rfl
    | some caller =>
      obtain ⟨slug, collection, cstage⟩ := caller
      cases cstage with
      | finished outcome =>
        cases stage with
        | gathering ids left =>
          have hartifacts := artifactsOf_forget p (hids ids left hk rfl)
          cases outcome with
          | done a =>
            simp only [Option.map_some, Collection.forget, CollectionStage.forget]
            split
            · rw [forget_conclude, hartifacts]
              rfl
            · exact forget_setCollection id p k _
          | failed e => exact forget_conclude p k _ _
          | cancelled => exact forget_conclude p k _ _
        | _ => rfl
      | _ => rfl

theorem forget_cancelCallers {ids : List Nat} (hids : id ∉ ids) :
    (p.cancelCallers ids).1.forget id
        = ((p.forget id).cancelCallers (ids.filterMap (forgetCaller id))).1 ∧
      (p.cancelCallers ids).2
        = ((p.forget id).cancelCallers (ids.filterMap (forgetCaller id))).2 := by
  induction ids generalizing p with
  | nil => exact ⟨rfl, rfl⟩
  | cons i rest ih =>
    have hne : i ≠ id := fun h => hids (h ▸ List.mem_cons_self)
    obtain ⟨hone, hone'⟩ := forget_cancelCaller p hne
    obtain ⟨hmore, hmore'⟩ := ih (p.cancelCaller i).1 fun h => hids (List.mem_cons_of_mem _ h)
    rw [List.filterMap_cons_some (forgetCaller_of_ne hne)]
    simp only [cancelCallers, hmore, hmore', hone, hone', and_self]

theorem forget_cancelCollection (hun : Ungathered id p) (k : Nat) :
    (p.cancelCollection k).1.forget id = ((p.forget id).cancelCollection k).1 := by
  unfold cancelCollection
  rw [collections_forget]
  cases hk : p.collections[k]? with
  | none => rfl
  | some c =>
    have hids := hun k c
    obtain ⟨filters, stage, cancelling⟩ := c
    cases stage with
    | finished outcome => rfl
    | gathering ids left =>
      obtain ⟨hcancel, hsome⟩ := forget_cancelCallers p (hids ids left hk rfl)
      simp only [Option.map_some, Collection.forget, CollectionStage.forget, ← hcancel, ← hsome]
      exact forget_setCancelling id _ k _
    | starting => exact forget_setCollection id p k _
    | ending outcome => exact forget_setCollection id p k _

end

end Provider

end Folio

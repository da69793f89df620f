import Folio.Proofs.Provider.Progress
import Folio.Proofs.Provider.Membership

set_option autoImplicit false

/-! # What a step can do to a collection

A collection starts, gathers the reports of its callers and ends. `CollectionStep` says what a step can
do to it. It counts reports and not callers, so it matters that every caller reports once: a report is
put into the queue when the caller ends, and taken out of it in the step that performs it
(`count_report_step`). -/

namespace Folio

variable {ε : Type}

/-- Whether a caller has ended. -/
def CallerStage.isFinished : CallerStage ε → Bool
  | .finished _ => true
  | _ => false

@[simp] theorem CallerStage.isFinished_finished (outcome : Outcome ε Artifact) :
    (CallerStage.finished outcome).isFinished = true := rfl

namespace Provider

/-! ## Turns -/

theorem turn_eq_perform {p : Provider ε} {t : Task} (h : p.ready.head? = some t)
    (answer : String → Nat → Answer ε) : p.turn answer = p.rest.perform answer t := by
  obtain ⟨tasks, hready⟩ := List.head?_eq_some_iff.1 h
  simp only [turn, hready, rest, List.tail_cons]

/-- Only reports, and turns of collections, change collections. -/
theorem Effect.collections {answer : String → Nat → Answer ε} {p q : Provider ε} {t : Task}
    (h : Effect answer p t q) (hreport : ∀ k id, t ≠ .report k id) (hturn : ∀ k, t ≠ .collection k) :
    q.collections = p.collections := by
  cases h with
  | gathered => exact absurd rfl (hturn _)
  | reported => exact absurd rfl (hreport _ _)
  | concluded => exact absurd rfl (hturn _)
  | _ => rfl

/-! ## The collections after a step -/

/-- How a caller has ended. -/
def HasEnded (p : Provider ε) (id : Nat) (outcome : Outcome ε Artifact) : Prop :=
  ∃ c, p.callers[id]? = some c ∧ c.stage = .finished outcome

/-- How a collection ends, once it is decided: with the artifacts that pass its filters, or with what
    was decided. -/
def sifted (filters : Option ContentFilters) : CollectOutcome ε → CollectOutcome ε
  | .done artifacts => passing filters artifacts
  | outcome => outcome

/-- How a collection can come from a stage to the next. -/
inductive CollectionMove (p : Provider ε) (e : Event ε) (k : Nat) (q : Provider ε)
    (c : Collection ε) : CollectionStage ε → Prop where
  | refused {error : TemplateError} (turn : p.task? e = some (.collection k))
      (starting : c.stage = .starting) (unknown : p.catalogue.slugs = .error error)
      (callers : q.callers = p.callers) :
      CollectionMove p e k q c (.finished (.failed (.template error)))
  | empty (turn : p.task? e = some (.collection k)) (starting : c.stage = .starting)
      (known : p.catalogue.slugs = .ok []) (callers : q.callers = p.callers) :
      CollectionMove p e k q c (.finished (passing c.filters []))
  | gathered {slugs : List String} (turn : p.task? e = some (.collection k))
      (starting : c.stage = .starting) (known : p.catalogue.slugs = .ok slugs) (nonempty : slugs ≠ [])
      (callers : q.callers = p.callers ++ slugs.map fun slug => ⟨slug, some k, .starting⟩) :
      CollectionMove p e k q c
        (.gathering ((List.range slugs.length).map (p.callers.length + ·)) slugs.length)
  | counted {ids : List Nat} {left id : Nat} {a : Artifact} (turn : p.task? e = some (.report k id))
      (gathering : c.stage = .gathering ids left) (done : p.HasEnded id (.done a)) (more : 1 < left) :
      CollectionMove p e k q c (.gathering ids (left - 1))
  | completed {ids : List Nat} {left id : Nat} {a : Artifact} (turn : p.task? e = some (.report k id))
      (gathering : c.stage = .gathering ids left) (done : p.HasEnded id (.done a)) (last : left ≤ 1) :
      CollectionMove p e k q c
        (.ending (if c.cancelling = .no then .done (p.artifactsOf ids) else .cancelled))
  | failed {ids : List Nat} {left id : Nat} {error : LoadError ε}
      (turn : p.task? e = some (.report k id)) (gathering : c.stage = .gathering ids left)
      (failed : p.HasEnded id (.failed error)) :
      CollectionMove p e k q c
        (.ending (if c.cancelling = .always then .cancelled else .failed error))
  | cancelled {ids : List Nat} {left id : Nat} (turn : p.task? e = some (.report k id))
      (gathering : c.stage = .gathering ids left) (cancelled : p.HasEnded id .cancelled) :
      CollectionMove p e k q c (.ending .cancelled)
  | concluded {outcome : CollectOutcome ε} (turn : p.task? e = some (.collection k))
      (ending : c.stage = .ending outcome) :
      CollectionMove p e k q c (.finished (sifted c.filters outcome))

/-- What a step can do to a collection. -/
inductive CollectionStep (p : Provider ε) (e : Event ε) (k : Nat) (q : Provider ε) :
    Option (Collection ε) → Option (Collection ε) → Prop where
  | absent : CollectionStep p e k q none none
  | same {c : Collection ε}
      (idle : p.task? e = some (.collection k) →
        c.stage ≠ .starting ∧ ∀ outcome, c.stage ≠ .ending outcome)
      (unreported : ∀ id outcome ids left, p.task? e = some (.report k id) →
        p.HasEnded id outcome → c.stage ≠ .gathering ids left) :
      CollectionStep p e k q (some c) (some c)
  | asked {filters : Option ContentFilters} (event : e = .requestAll filters)
      (new : k = p.collections.length) (due : .collection k ∈ q.ready) :
      CollectionStep p e k q none (some { filters := filters })
  | moved {c : Collection ε} {stage : CollectionStage ε} (move : CollectionMove p e k q c stage)
      (due : ∀ outcome, stage = .ending outcome → .collection k ∈ q.ready) :
      CollectionStep p e k q (some c) (some { c with stage := stage })
  | cancelled {c c' : Collection ε} (event : e = .cancelCollection k) :
      CollectionStep p e k q (some c) (some c')

/-- A step that leaves a collection as it is, and performs no task of it. -/
theorem collectionStep_of_eq {p q : Provider ε} {e : Event ε} {k : Nat}
    (h : q.collections[k]? = p.collections[k]?) (hturn : p.task? e ≠ some (.collection k))
    (hreport : ∀ id, p.task? e ≠ some (.report k id)) :
    CollectionStep p e k q p.collections[k]? q.collections[k]? := by
  rw [h]
  cases p.collections[k]? with
  | none => exact .absent
  | some c => exact .same (absurd · hturn) fun id _ _ _ ht => absurd ht (hreport id)

/-- A step in which one collection comes to another stage. -/
theorem collectionStep_of_setCollection {p q : Provider ε} {e : Event ε} {k j : Nat}
    {c : Collection ε} {stage : CollectionStage ε} (hc : p.collections[j]? = some c)
    (h : q.collections = (p.setCollection j stage).collections)
    (hmove : CollectionMove p e j q c stage)
    (hdue : ∀ outcome, stage = .ending outcome → .collection j ∈ q.ready)
    (htask : p.task? e = some (.collection j) ∨ ∃ id, p.task? e = some (.report j id)) :
    CollectionStep p e k q p.collections[k]? q.collections[k]? := by
  by_cases hjk : j = k
  · subst hjk
    rw [h, getElem?_setCollection, if_pos rfl, hc]
    exact .moved hmove hdue
  · refine collectionStep_of_eq (by rw [h, getElem?_setCollection, if_neg hjk]) ?_ fun id => ?_
    · rcases htask with ht | ⟨i, ht⟩ <;> simp [ht, hjk]
    · rcases htask with ht | ⟨i, ht⟩ <;> simp [ht, hjk]

theorem collectionStep_report {answer : String → Nat → Answer ε} {p : Provider ε} {j id : Nat}
    (ht : p.task? (.turn answer) = some (.report j id)) (k : Nat) :
    CollectionStep p (.turn answer) k (p.rest.report j id) p.collections[k]?
      (p.rest.report j id).collections[k]? := by
  -- a report without effect: its collection or its caller is not there, or not at that stage
  have hidle : (∀ c ids left outcome, p.collections[j]? = some c → c.stage = .gathering ids left →
      ¬ p.HasEnded id outcome) → CollectionStep p (.turn answer) k p.rest p.collections[k]?
        p.rest.collections[k]? := by
    intro hno
    show CollectionStep p _ k p.rest p.collections[k]? p.collections[k]?
    cases hc : p.collections[k]? with
    | none => exact .absent
    | some c =>
      refine .same (fun ht' => absurd (ht.symm.trans ht') (by simp)) ?_
      intro id' outcome ids left ht' hended hs
      obtain ⟨rfl, rfl⟩ : j = k ∧ id = id' := by simpa using ht.symm.trans ht'
      exact hno c ids left outcome hc hs hended
  unfold report
  split
  · next c slug collection outcome hc hcaller =>
    have hended : p.HasEnded id outcome := ⟨_, hcaller, rfl⟩
    split
    · next ids left hs =>
      split
      · refine collectionStep_of_setCollection hc ?_ (.cancelled ht hs hended)
          (by simp [conclude, enqueue]) (.inr ⟨id, ht⟩)
        simp only [conclude, enqueue, ite_self]
        rfl
      · next error =>
        exact collectionStep_of_setCollection hc rfl (.failed ht hs hended)
          (by simp [conclude, enqueue]) (.inr ⟨id, ht⟩)
      · next a =>
        split
        · next hlast =>
          refine collectionStep_of_setCollection hc ?_ (.completed ht hs hended hlast)
            (by simp [conclude, enqueue]) (.inr ⟨id, ht⟩)
          have hartifacts : p.rest.artifactsOf ids = p.artifactsOf ids := rfl
          cases hcancelling : c.cancelling <;> simp [conclude, enqueue, hcancelling, hartifacts] <;> rfl
        · next hmore =>
          exact collectionStep_of_setCollection hc rfl
            (.counted ht hs hended (Nat.lt_of_not_le hmore)) (by simp) (.inr ⟨id, ht⟩)
    · next hno =>
      refine hidle fun c' ids left outcome' hc' hs _ => ?_
      obtain rfl : c = c' := Option.some.inj (hc.symm.trans hc')
      exact hno ids left hs
  · next hno =>
    refine hidle fun c ids left outcome hc hs hended => ?_
    obtain ⟨⟨slug, collection, stage⟩, hcaller, rfl⟩ := hended
    exact hno c slug collection outcome hc hcaller

theorem collectionStep_collection {answer : String → Nat → Answer ε} {p : Provider ε} {j : Nat}
    (ht : p.task? (.turn answer) = some (.collection j)) (k : Nat) :
    CollectionStep p (.turn answer) k (p.rest.turnCollection j) p.collections[k]?
      (p.rest.turnCollection j).collections[k]? := by
  have hidle : (∀ c, p.collections[j]? = some c →
      c.stage ≠ .starting ∧ ∀ outcome, c.stage ≠ .ending outcome) →
      CollectionStep p (.turn answer) k p.rest p.collections[k]? p.rest.collections[k]? := by
    intro hno
    show CollectionStep p _ k p.rest p.collections[k]? p.collections[k]?
    cases hc : p.collections[k]? with
    | none => exact .absent
    | some c =>
      refine .same (fun ht' => ?_) fun id outcome ids left ht' => absurd (ht.symm.trans ht') (by simp)
      obtain rfl : j = k := by simpa using ht.symm.trans ht'
      exact hno c hc
  unfold turnCollection
  split
  · next hc => exact hidle fun c hc' => absurd (hc.symm.trans hc') (by simp)
  · next c hc =>
    split
    · next hs =>
      unfold startCollection
      split
      · next error hslugs =>
        exact collectionStep_of_setCollection hc rfl (.refused ht hs hslugs rfl) (by simp) (.inl ht)
      · next hslugs =>
        exact collectionStep_of_setCollection hc rfl (.empty ht hs hslugs rfl) (by simp) (.inl ht)
      · next slugs hnil hslugs =>
        refine collectionStep_of_setCollection hc ?_ (.gathered ht hs hslugs hnil rfl) (by simp) (.inl ht)
        simp only [enqueue, setCollection, rest, List.length_map, List.length_range]
    · next artifacts hs =>
      exact collectionStep_of_setCollection hc rfl (.concluded ht hs) (by simp) (.inl ht)
    · next outcome hno hs =>
      have hsifted : sifted c.filters outcome = outcome := by
        cases outcome with
        | done artifacts => exact absurd rfl (hno artifacts)
        | _ => rfl
      refine collectionStep_of_setCollection hc ?_ (.concluded ht hs) (by simp) (.inl ht)
      rw [hsifted]
      rfl
    · next h1 h2 h3 =>
      refine hidle fun c' hc' => ?_
      obtain rfl : c = c' := Option.some.inj (hc.symm.trans hc')
      exact ⟨h1, h3⟩

/-- Cancelling a collection changes that collection only. -/
theorem collections_cancelCollection (p : Provider ε) (j : Nat) :
    ∃ f, (p.cancelCollection j).1.collections = p.collections.modify j f := by
  unfold cancelCollection
  split
  · next hc => exact ⟨id, (List.modify_eq_self (List.getElem?_eq_none_iff.1 hc)).symm⟩
  · split
    · exact ⟨id, (List.modify_id j p.collections).symm⟩
    · next ids _ _ =>
      obtain ⟨callers, ready, hq⟩ := cancelCallers_frame ids p
      exact ⟨_, by simp only [hq]; rfl⟩
    · exact ⟨_, rfl⟩

theorem collectionStep (p : Provider ε) (e : Event ε) (k : Nat) :
    CollectionStep p e k (p.step e) p.collections[k]? (p.step e).collections[k]? := by
  have hsame : p.task? e = none → (p.step e).collections[k]? = p.collections[k]? →
      CollectionStep p e k (p.step e) p.collections[k]? (p.step e).collections[k]? :=
    fun ht hq => collectionStep_of_eq hq (by simp [ht]) (by simp [ht])
  cases e with
  | request slug => exact hsame rfl rfl
  | requestAll filters =>
    have hq : (p.step (.requestAll filters)).collections
        = p.collections ++ [({ filters := filters } : Collection ε)] := rfl
    rcases Nat.lt_trichotomy k p.collections.length with hlt | rfl | hgt
    · exact hsame rfl (by rw [hq, List.getElem?_append_left hlt])
    · rw [hq, List.getElem?_concat_length, List.getElem?_eq_none (Nat.le_refl _)]
      exact .asked rfl rfl (by simp [step, requestAll, enqueue])
    · refine hsame rfl ?_
      rw [hq, List.getElem?_eq_none (Nat.le_of_lt hgt), List.getElem?_eq_none (by simpa using Nat.succ_le_of_lt hgt)]
  | cancelCaller id =>
    obtain ⟨callers, ready, hq⟩ := cancelCaller_frame p id
    exact hsame rfl (by simp only [step, hq])
  | cancelCollection j =>
    by_cases hjk : j = k
    · subst hjk
      cases hc : p.collections[j]? with
      | none =>
        have hq : (p.step (.cancelCollection j)).collections[j]? = none := by
          simp [step, cancelCollection, hc]
        rw [hq]
        exact .absent
      | some c =>
        obtain ⟨f, hq⟩ := collections_cancelCollection p j
        simp only [step, hq, List.getElem?_modify_eq, hc]
        exact .cancelled rfl
    · obtain ⟨f, hq⟩ := collections_cancelCollection p j
      exact hsame rfl (by simp only [step, hq, List.getElem?_modify_ne _ _ hjk])
  | invalidate scope => exact hsame rfl (by cases scope <;> rfl)
  | receive id result =>
    refine hsame rfl ?_
    simp only [step, receive]
    split <;> rfl
  | turn answer =>
    rcases turn_cases answer p with ⟨hnil, hturn⟩ | ⟨t, hhead, heffect⟩
    · exact collectionStep_of_eq (by simp only [step, hturn]) (by simp [task?, hnil])
        (by simp [task?, hnil])
    · have ht : p.task? (.turn answer) = some t := hhead
      have hturn := turn_eq_perform hhead answer
      by_cases hown : (∃ j id, t = .report j id) ∨ ∃ j, t = .collection j
      · rcases hown with ⟨j, id, rfl⟩ | ⟨j, rfl⟩
        · simp only [step, hturn]
          exact collectionStep_report ht k
        · simp only [step, hturn]
          exact collectionStep_collection ht k
      · obtain ⟨hreport, hcollection⟩ := not_or.1 hown
        have hq := heffect.collections (fun j id h => hreport ⟨j, id, h⟩)
          fun j h => hcollection ⟨j, h⟩
        refine collectionStep_of_eq (by simp only [step, hq, rest]) ?_ fun id => ?_
        · exact fun h => hcollection ⟨k, Option.some.inj (ht.symm.trans h)⟩
        · exact fun h => hreport ⟨k, id, Option.some.inj (ht.symm.trans h)⟩

/-! ## New callers -/

/-- A caller who was not there before asks for no collection, or for one that starts in this step, with
    all others who are gathered for it. -/
theorem new_caller {p : Provider ε} {e : Event ε} {id : Nat} {c : Caller ε}
    (hbefore : p.callers[id]? = none) (hafter : (p.step e).callers[id]? = some c) :
    c.stage = .starting ∧ (c.collection = none ∨ ∃ k collection, c.collection = some k ∧
      p.task? e = some (.collection k) ∧ p.collections[k]? = some collection ∧
      collection.stage = .starting) := by
  have hlength : p.callers.length ≤ id := List.getElem?_eq_none_iff.1 hbefore
  have hsame : ∀ {q : Provider ε}, q.callers = p.callers → q.callers[id]? ≠ some c := by
    intro q hq hc
    rw [hq, hbefore] at hc
    simp at hc
  cases e with
  | request slug =>
    have hc : (p.callers ++ [({ slug := slug } : Caller ε)])[id]? = some c := hafter
    rw [List.getElem?_append_right hlength] at hc
    obtain rfl := List.mem_singleton.1 (List.mem_of_getElem? hc)
    exact ⟨rfl, .inl rfl⟩
  | requestAll filters => exact absurd hafter (hsame rfl)
  | cancelCaller i =>
    simp only [step, callers_cancelCaller, List.getElem?_modify, hbefore] at hafter
    simp at hafter
  | cancelCollection j =>
    refine absurd hafter ?_
    simp only [step, cancelCollection]
    split
    · exact hsame rfl
    · split
      · exact hsame rfl
      · next ids _ _ =>
        intro hc
        have hget := getElem?_callers_cancelCallers ids p id
        simp [hbefore] at hget
        simp [hget] at hc
      · exact hsame rfl
  | invalidate scope => exact absurd hafter (hsame (by cases scope <;> rfl))
  | receive loadId result =>
    refine absurd hafter (hsame ?_)
    simp only [step, receive]
    split <;> rfl
  | turn answer =>
    rcases turn_cases answer p with ⟨-, hturn⟩ | ⟨t, hhead, heffect⟩
    · exact absurd hafter (hsame (congrArg Provider.callers hturn))
    · simp only [step] at hafter
      generalize p.turn answer = q at hafter heffect
      have hset : ∀ {i : Nat} {f : Caller ε → Caller ε}, q.callers = p.callers.modify i f → False := by
        intro i f hq
        rw [hq, List.getElem?_modify, hbefore] at hafter
        simp at hafter
      cases heffect with
      | gathered collection starting =>
        have hc := hafter
        simp only [enqueue, setCollection, rest] at hc
        rw [List.getElem?_append_right hlength] at hc
        obtain ⟨slug, -, rfl⟩ := List.mem_map.1 (List.mem_of_getElem? hc)
        exact ⟨rfl, .inr ⟨_, _, rfl, hhead, collection, starting⟩⟩
      | delivered => exact (hset rfl).elim
      | cached => exact (hset rfl).elim
      | given => exact (hset rfl).elim
      | joined => exact (hset rfl).elim
      | initiated => exact (hset rfl).elim
      | ended => exact (hset rfl).elim
      | _ => exact absurd hafter (hsame rfl)

/-! ## Reports -/

/-- Whether a caller who asks for a collection has ended. -/
def hasFinished (p : Provider ε) (k id : Nat) : Bool :=
  (p.callers[id]?).any fun c => c.collection == some k && c.stage.isFinished

theorem hasFinished_congr {p q : Provider ε} {id : Nat} (h : q.callers[id]? = p.callers[id]?)
    (k : Nat) : q.hasFinished k id = p.hasFinished k id := by
  simp only [hasFinished, h]

theorem hasFinished_setCaller {p : Provider ε} {i : Nat} {c : Caller ε} {stage : CallerStage ε}
    (hc : p.callers[i]? = some c) (hbefore : c.stage.isFinished = false)
    (hafter : stage.isFinished = false) (k id : Nat) :
    (p.setCaller i stage).hasFinished k id = p.hasFinished k id := by
  by_cases hi : i = id
  · subst hi
    simp [hasFinished, setCaller, hc, hbefore, hafter]
  · simp [hasFinished, setCaller, hi]

/-- A caller who ends puts its report into the queue. -/
theorem count_finishCaller {p : Provider ε} {i : Nat} {c : Caller ε}
    (hc : p.callers[i]? = some c) (hbefore : c.stage.isFinished = false)
    (outcome : Outcome ε Artifact) (k id : Nat) :
    (p.finishCaller i c outcome).ready.count (.report k id) + (p.hasFinished k id).toNat
      = p.ready.count (.report k id) + ((p.finishCaller i c outcome).hasFinished k id).toNat := by
  by_cases hi : i = id
  · subst hi
    cases hk : c.collection with
    | none => simp [finishCaller, enqueue, hasFinished, setCaller, hc, hbefore, hk]
    | some j =>
      by_cases hj : j = k <;>
        simp [finishCaller, enqueue, hasFinished, setCaller, hc, hbefore, hk, hj]
  · cases hk : c.collection <;> simp [finishCaller, enqueue, hasFinished, setCaller, hi, hk]

theorem Effect.count_report {answer : String → Nat → Answer ε} {p q : Provider ε} {t : Task}
    (h : Effect answer p t q) (k id : Nat) :
    q.ready.count (.report k id) + (p.hasFinished k id).toNat
      = p.ready.count (.report k id) + (q.hasFinished k id).toNat := by
  -- callers and the queue stay as they are, but for tasks that are no reports
  have hother : ∀ {tasks : List Task}, q.ready = p.ready ++ tasks → (∀ u ∈ tasks, u ≠ .report k id) →
      q.hasFinished k id = p.hasFinished k id →
      q.ready.count (.report k id) + (p.hasFinished k id).toNat
        = p.ready.count (.report k id) + (q.hasFinished k id).toNat := by
    intro tasks hready htasks hfinished
    rw [hready, hfinished, List.count_append, List.count_eq_zero.2 fun hmem => htasks _ hmem rfl,
      Nat.add_zero]
  have hload : ∀ {loadId : Nat} {l : Load ε}, ∀ u ∈ Task.settle loadId :: l.callers.map (.deliver loadId),
      u ≠ .report k id := by simp
  cases h with
  | idle | called | kept | dropped | concluded => exact hother (List.append_nil _).symm (by simp) rfl
  | unresolved | returned | answered => exact hother rfl hload rfl
  | delivered _ _ caller waiting =>
    exact hother rfl (by simp) (hasFinished_setCaller caller (by simp [waiting, CallerStage.isFinished])
      rfl k id)
  | cached caller starting =>
    exact count_finishCaller caller (by simp [starting, CallerStage.isFinished]) _ k id
  | given caller starting =>
    exact count_finishCaller caller (by simp [starting, CallerStage.isFinished]) _ k id
  | ended caller ending =>
    exact count_finishCaller caller (by simp [ending, CallerStage.isFinished]) _ k id
  | joined caller starting =>
    exact hother (List.append_nil _).symm (by simp)
      (hasFinished_setCaller caller (by simp [starting, CallerStage.isFinished]) rfl k id)
  | initiated caller starting =>
    exact hother rfl (by simp)
      (hasFinished_setCaller caller (by simp [starting, CallerStage.isFinished]) rfl k id)
  | @gathered j c slugs =>
    refine hother rfl (by simp) ?_
    by_cases hid : id < p.callers.length
    · exact hasFinished_congr (List.getElem?_append_left hid) k
    · have hle : p.callers.length ≤ id := Nat.le_of_not_lt hid
      simp only [hasFinished, enqueue, setCollection, List.getElem?_append_right hle,
        List.getElem?_eq_none hle, List.getElem?_map]
      cases slugs[id - p.callers.length]? <;> simp [CallerStage.isFinished]
  | reported _ _ _ due =>
    refine hother rfl (fun u hu => ?_) rfl
    rcases due with rfl | rfl
    · simp [List.mem_singleton.1 hu]
    · simp at hu

theorem count_report_cancelCaller (p : Provider ε) (i k id : Nat) :
    (p.cancelCaller i).1.ready.count (.report k id) = p.ready.count (.report k id) := by
  unfold cancelCaller
  split
  · rfl
  · split <;> simp [enqueue, setCaller]

theorem count_report_cancelCallers (ids : List Nat) (p : Provider ε) (k id : Nat) :
    (p.cancelCallers ids).1.ready.count (.report k id) = p.ready.count (.report k id) := by
  induction ids generalizing p with
  | nil => rfl
  | cons i rest ih => exact (ih (p.cancelCaller i).1).trans (count_report_cancelCaller p i k id)

theorem hasFinished_of_afterCancel {p q : Provider ε} {id : Nat}
    (h : q.callers[id]? = (p.callers[id]?).map afterCancel) (k : Nat) :
    q.hasFinished k id = p.hasFinished k id := by
  simp only [hasFinished, h]
  cases p.callers[id]? with
  | none => rfl
  | some c =>
    obtain ⟨slug, collection, stage⟩ := c
    cases stage <;> rfl

theorem report_cancelCollection (p : Provider ε) (j k id : Nat) :
    (p.cancelCollection j).1.ready.count (.report k id) = p.ready.count (.report k id) ∧
      (p.cancelCollection j).1.hasFinished k id = p.hasFinished k id := by
  unfold cancelCollection
  split
  · exact ⟨rfl, rfl⟩
  · split
    · exact ⟨rfl, rfl⟩
    · next ids _ _ =>
      refine ⟨count_report_cancelCallers ids p k id, ?_⟩
      have hget := getElem?_callers_cancelCallers ids p id
      by_cases hid : id ∈ ids
      · exact hasFinished_of_afterCancel (hget.trans (if_pos hid)) k
      · exact hasFinished_congr (hget.trans (if_neg hid)) k
    · exact ⟨rfl, rfl⟩

/-- In a step the reports of a caller in the queue, and the one that is performed, grow by one when
    the caller ends, and not otherwise. -/
theorem count_report_step (p : Provider ε) (e : Event ε) (k id : Nat) :
    (p.step e).ready.count (.report k id) + (p.task? e == some (.report k id)).toNat
        + (p.hasFinished k id).toNat
      = p.ready.count (.report k id) + ((p.step e).hasFinished k id).toNat := by
  have hsame : p.task? e = none →
      (p.step e).ready.count (.report k id) = p.ready.count (.report k id) →
      (p.step e).hasFinished k id = p.hasFinished k id →
      (p.step e).ready.count (.report k id) + (p.task? e == some (.report k id)).toNat
        + (p.hasFinished k id).toNat
      = p.ready.count (.report k id) + ((p.step e).hasFinished k id).toNat := by
    intro ht hready hfinished
    rw [ht, hready, hfinished]
    rfl
  cases e with
  | request slug =>
    refine hsame rfl (by simp [step, request, enqueue]) ?_
    by_cases hid : id < p.callers.length
    · exact hasFinished_congr (List.getElem?_append_left hid) k
    · have hle : p.callers.length ≤ id := Nat.le_of_not_lt hid
      have hq : (p.step (.request slug)).callers = p.callers ++ [{ slug := slug }] := rfl
      simp only [hasFinished, hq, List.getElem?_append_right hle, List.getElem?_eq_none hle]
      cases id - p.callers.length <;> simp
  | requestAll filters => exact hsame rfl (by simp [step, requestAll, enqueue]) rfl
  | cancelCaller i =>
    refine hsame rfl (count_report_cancelCaller p i k id) ?_
    by_cases hi : i = id
    · subst hi
      exact hasFinished_of_afterCancel (by simp [step, callers_cancelCaller]) k
    · exact hasFinished_congr (by simp [step, callers_cancelCaller, hi]) k
  | cancelCollection j =>
    obtain ⟨hready, hfinished⟩ := report_cancelCollection p j k id
    exact hsame rfl hready hfinished
  | invalidate scope => cases scope <;> exact hsame rfl rfl rfl
  | receive loadId result =>
    refine hsame rfl ?_ (hasFinished_congr ?_ k)
    · simp only [step, receive]
      split
      · simp [enqueue, setLoad]
      · rfl
    · simp only [step, receive]
      split <;> rfl
  | turn answer =>
    rcases turn_cases answer p with ⟨hnil, hturn⟩ | ⟨t, hhead, heffect⟩
    · simp [step, hturn, task?, hnil]
    · obtain ⟨tasks, hready⟩ := List.head?_eq_some_iff.1 hhead
      have hcount := heffect.count_report k id
      have hrest : p.ready.count (.report k id)
          = p.rest.ready.count (.report k id) + (t == .report k id).toNat := by
        simp only [hready, rest, List.tail_cons, List.count_cons]
        cases t == Task.report k id <;> rfl
      have htask : (p.task? (.turn answer) == some (.report k id)) = (t == .report k id) := by
        simp [task?, hhead]
      have hfinished : p.rest.hasFinished k id = p.hasFinished k id := rfl
      rw [hfinished] at hcount
      rw [htask, hrest]
      simp only [step]
      omega

end Provider

end Folio

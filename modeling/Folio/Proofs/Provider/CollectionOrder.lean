import Folio.Proofs.Provider.Collections
import Folio.Proofs.Provider.Deduplication

set_option autoImplicit false

/-! # Collections end in order

The theorem of this module says what a collection gives, whatever else happens meanwhile: the artifacts
of all slugs that pass its filters, in the order of the catalogue, or the first failure that reaches it.
A failure ends the collection and not the loads that it has started. -/

namespace Folio.Provider

variable {ε : Type}

/-! ## Loads that nobody invalidates -/

/-- A load of a slug is in flight, or finished with what it has brought in the cache. -/
def Persists (p : Provider ε) (slug : String) (id : Nat) : Prop :=
  p.inflight.lookup slug = some id ∨ ∃ l result, p.loads[id]? = some l ∧ l.slug = slug ∧
    l.stage = .finished result ∧ ∀ a, result = .ok a → p.cache.lookup slug = some a

theorem persists_step {p : Provider ε} (hsound : Sound p) {slug : String} {id : Nat}
    (h : Persists p slug id) {e : Event ε} (hvalid : e.invalidates slug = false) :
    Persists (p.step e) slug id := by
  rcases h with hin | ⟨l, result, hl, hslug, hs, hcache⟩
  · cases tablesStep p e slug with
    | same _ inflight => exact .inl (inflight.trans hin)
    | dropped event => simp [hvalid] at event
    | @kept id' l a _ load own finished was cache =>
      obtain rfl : id = id' := Option.some.inj (hin.symm.trans was)
      refine .inr ⟨l, .ok a, finished_stays load finished e, own, finished, fun b hb => ?_⟩
      obtain rfl := Except.ok.inj hb
      exact cache
    | @failed id' l error _ load own finished was =>
      obtain rfl : id = id' := Option.some.inj (hin.symm.trans was)
      exact .inr ⟨l, .error error, finished_stays load finished e, own, finished, by simp⟩
    | registered _ _ _ _ _ absent => simp [hin] at absent
  · refine .inr ⟨l, result, finished_stays hl hs e, hslug, hs, fun a ha => ?_⟩
    have hold := hcache a ha
    have hnone : p.inflight.lookup slug = none := (hsound.disjoint slug).resolve_left (by simp [hold])
    cases tablesStep p e slug with
    | same cache => exact cache.trans hold
    | dropped event => simp [hvalid] at event
    | kept _ _ _ _ was => simp [hnone] at was
    | failed _ _ _ _ was => simp [hnone] at was
    | registered _ _ _ _ uncached => simp [hold] at uncached

theorem persists_run {slug : String} {id : Nat} (events : List (Event ε)) {p : Provider ε}
    (hsound : Sound p) (h : Persists p slug id) (hvalid : ∀ e ∈ events, e.invalidates slug = false) :
    Persists (p.run events) slug id := by
  induction events generalizing p with
  | nil => exact h
  | cons e es ih =>
    refine ih (sound_step hsound e) (persists_step hsound h (hvalid e List.mem_cons_self)) ?_
    exact fun e' he' => hvalid e' (List.mem_cons_of_mem _ he')

/-- Whoever joins a load finds it in flight, or puts it there. -/
theorem inflight_of_joined {p : Provider ε} {e : Event ε} {id loadId : Nat}
    (hjoin : .joined id loadId ∈ p.occurrences e) :
    ∃ c, p.callers[id]? = some c ∧ (p.step e).inflight.lookup c.slug = some loadId := by
  obtain ⟨turn, slug, collection, hc, hnone, hload⟩ := mem_occurrences_joined hjoin
  refine ⟨_, hc, ?_⟩
  cases hin : p.inflight.lookup slug with
  | some loadId' =>
    obtain rfl : loadId = loadId' := by simpa [hin] using hload
    cases tablesStep p e slug with
    | same _ inflight => exact inflight.trans hin
    | dropped event => cases e <;> simp [task?, Event.invalidates] at turn event
    | kept turn' => simp [turn] at turn'
    | failed turn' => simp [turn] at turn'
    | registered _ _ _ _ _ absent => simp [hin] at absent
  | none =>
    obtain rfl : loadId = p.loads.length := by simpa [hin] using hload
    cases e with
    | turn answer =>
      have hstep : p.step (.turn answer) = p.rest.initiate id slug :=
        turn_of_absent turn hc rfl hnone hin
      simp only [hstep, initiate, enqueue, setCaller, lookup_withEntry]
      rfl
    | _ => simp [task?] at turn

/-- A load runs to its end: it waits for its loader, or is finished, and what it has brought for a slug
    that is still valid is in the cache. -/
def Completes (p : Provider ε) (loadId : Nat) (valid : String → Prop) : Prop :=
  ∃ l, p.loads[loadId]? = some l ∧ ((∃ key n, l.stage = .waiting key n) ∨
    ∃ result, l.stage = .finished result ∧
      ∀ a, result = .ok a → valid l.slug → p.cache.lookup l.slug = some a)

theorem completes_quiet {p : Provider ε} (hsound : Sound p) (hquiet : p.ready = []) {loadId : Nat}
    {l : Load ε} (hl : p.loads[loadId]? = some l) {valid : String → Prop}
    (h : valid l.slug → Persists p l.slug loadId) : Completes p loadId valid := by
  refine ⟨l, hl, (load_quiet hsound hquiet hl).imp_right ?_⟩
  rintro ⟨result, hs⟩
  refine ⟨result, hs, fun a ha hvalid => ?_⟩
  rcases h hvalid with hin | ⟨l', result', hl', -, hs', hcache⟩
  · -- a finished load in flight would be about to be settled
    have hdue := hsound.settle_due l.slug loadId l result hin hl hs
    simp [hquiet] at hdue
  · obtain rfl := Option.some.inj (hl.symm.trans hl')
    obtain rfl : result = result' := LoadStage.finished.inj (hs.symm.trans hs')
    exact hcache a ha

/-- Who joins a load makes it complete, in a run in which nothing can move any more. -/
theorem completes_of_joined {p : Provider ε} (hsound : Sound p) {e : Event ε} {id loadId : Nat}
    (hjoin : .joined id loadId ∈ p.occurrences e) (late : List (Event ε))
    (hquiet : ((p.step e).run late).ready = []) :
    Completes ((p.step e).run late) loadId fun slug => ∀ e' ∈ late, e'.invalidates slug = false := by
  have hsound' := sound_step hsound e
  obtain ⟨c, hc, hin⟩ := inflight_of_joined hjoin
  obtain ⟨⟨l, hl, hslug⟩, -⟩ := hsound'.inflight c.slug loadId hin
  obtain ⟨l', hl', hslug'⟩ := load_stays_run hl late
  refine completes_quiet (sound_run hsound' late) hquiet hl' fun hvalid => ?_
  exact persists_run late hsound' (.inl (by rw [hslug', hslug]; exact hin)) hvalid

/-! ## What callers of a collection have -/

theorem exists_step_of_mem_history {o : Occurrence ε} (events : List (Event ε)) {p : Provider ε}
    (h : o ∈ p.history events) :
    ∃ early e late, events = early ++ e :: late ∧ o ∈ (p.run early).occurrences e := by
  induction events generalizing p with
  | nil => simp [history] at h
  | cons e es ih =>
    rcases List.mem_append.1 h with hnow | hlater
    · exact ⟨[], e, es, rfl, hnow⟩
    · obtain ⟨early, e', late, rfl, ho⟩ := ih hlater
      exact ⟨e :: early, e', late, rfl, ho⟩

theorem undisturbed_append {k : Nat} {p : Provider ε} {before after : List (Event ε)} :
    Undisturbed k p (before ++ after)
      ↔ Undisturbed k p before ∧ Undisturbed k (p.run before) after := by
  induction before generalizing p with
  | nil => simp [Undisturbed, run]
  | cons e es ih =>
    rw [List.cons_append, Undisturbed, Undisturbed, ih, and_assoc]
    rfl

theorem caller_keeps_collection {p : Provider ε} {id : Nat} {c : Caller ε}
    (hc : p.callers[id]? = some c) (events : List (Event ε)) :
    ∃ c', (p.run events).callers[id]? = some c' ∧ c'.collection = c.collection :=
  run_induction (I := fun _ q => ∃ c', q.callers[id]? = some c' ∧ c'.collection = c.collection) events
    ⟨c, hc, rfl⟩ fun _ e _ ⟨_, hq, hk⟩ => by
      obtain ⟨c', hc', hk', -⟩ := caller_stays hq e
      exact ⟨c', hc', hk'.trans hk⟩

/-- A caller of a collection has ended with the outcome of a load of its slug: of the one that it has
    joined, if it has joined one. -/
def Obtained (p : Provider ε) (h : List (Occurrence ε)) (k : Nat) (slug : String)
    (outcome : Outcome ε Artifact) : Prop :=
  ∃ id c loadId, p.callers[id]? = some c ∧ c.collection = some k ∧ c.slug = slug ∧
    c.stage = .finished outcome ∧ OutcomeOf p loadId slug outcome ∧
    ∀ other, .joined id other ∈ h → other = loadId

section

variable {p : Provider ε} {k : Nat} {filters : Option ContentFilters}
  {rs : List (Nat × Outcome ε Artifact)}

theorem obtained_of_ended {events : List (Event ε)} (hsound : Sound p) (henrolled : Enrolled p)
    (hquiet : Undisturbed k p events) (hbacked : Backed (p.run events) k) {id : Nat} {c : Caller ε}
    {outcome : Outcome ε Artifact} (hc : (p.run events).callers[id]? = some c)
    (hk : c.collection = some k) (hs : c.stage = .finished outcome) :
    Obtained (p.run events) (p.history events) k c.slug outcome := by
  by_cases hjoin : ∃ loadId, .joined id loadId ∈ p.history events
  · obtain ⟨loadId, hmem⟩ := hjoin
    refine ⟨id, c, loadId, hc, hk, rfl, hs, ?_, fun other hother => joined_once events hother hmem⟩
    obtain ⟨early, e, late, rfl, hnow⟩ := exists_step_of_mem_history events hmem
    obtain ⟨-, slug, collection, hearly, -⟩ := mem_occurrences_joined hnow
    have hsplit : p.run (early ++ e :: late) = ((p.run early).step e).run late :=
      run_append p early (e :: late)
    -- from the moment when it joins, the caller is owed what the load brings
    have hask : AsksFor (p.run early) id k := by
      obtain ⟨c', hc', hk'⟩ := caller_keeps_collection hearly (e :: late)
      obtain rfl : c = c' := Option.some.inj (hc.symm.trans (hsplit ▸ hc'))
      exact ⟨_, hearly, hk'.symm.trans hk⟩
    have hlate := (undisturbed_append.1 hquiet).2
    have hspared := spared_of_undisturbed late (enrolled_step (enrolled_run henrolled early) e)
      (asksFor_stays hask e) hlate.2
    have howed := owed_run late (owed_of_joined (sound_run hsound early) hnow) hspared
    rw [← hsplit] at howed
    obtain ⟨c', l, hc', hl, hslug, hw | ⟨result, hfinished, hend | hfin⟩⟩ := howed
    all_goals obtain rfl := Option.some.inj (hc.symm.trans hc')
    · simp [hs] at hw
    · simp [hs] at hend
    · exact ⟨l, result, hl, hslug, hfinished, CallerStage.finished.inj (hs.symm.trans hfin)⟩
  · obtain ⟨loadId, hload⟩ := hbacked id c outcome hc hk (.inr hs)
    exact ⟨id, c, loadId, hc, hk, rfl, hs, hload, fun other hother => absurd ⟨other, hother⟩ hjoin⟩

/-- The callers of a collection have the artifacts of the slugs for which they ask. -/
theorem forall₂_obtained {first : Nat} {slugs : List String} {artifacts : List Artifact}
    {h : List (Occurrence ε)} (hg : Gathered p k first slugs)
    (hended : List.Forall₂ (fun id a => p.HasEnded id (.done a))
      ((List.range slugs.length).map (first + ·)) artifacts)
    (hobtained : ∀ (id : Nat) c outcome, p.callers[id]? = some c → c.collection = some k →
      c.stage = .finished outcome → Obtained p h k c.slug outcome) :
    List.Forall₂ (fun slug a => Obtained p h k slug (.done a)) slugs artifacts := by
  obtain ⟨hlength, hget⟩ := List.forall₂_iff_get.1 hended
  refine List.forall₂_iff_get.2 ⟨by simpa using hlength, fun i hi hi' => ?_⟩
  obtain ⟨c, hc, hs⟩ := hget i (by simpa using hi) hi'
  obtain ⟨c', hc', hslug, hk⟩ := hg.asked i slugs[i] (List.getElem?_eq_getElem hi)
  obtain rfl : c = c' := Option.some.inj (hc.symm.trans (by simpa using hc'))
  have := hobtained _ c _ hc hk hs
  rwa [hslug] at this

end

/-! ## When there is nothing to do -/

/-- A collection has ended, or one of its callers waits for a load that waits for its loader. If one of
    its callers has failed, the collection has ended with a failure. -/
def Settles (p : Provider ε) (k : Nat) : Prop :=
  ∃ col, p.collections[k]? = some col ∧
    (∀ id error, AsksFor p id k → p.HasEnded id (.failed error) →
      ∃ first, col.stage = .finished (.failed first)) ∧
    ((∃ outcome, col.stage = .finished outcome) ∨
      ∃ (id loadId : Nat) (c : Caller ε) (l : Load ε) (key : String) (n : Nat),
        p.callers[id]? = some c ∧ c.collection = some k ∧ c.stage = .waiting loadId ∧
          p.loads[loadId]? = some l ∧ l.stage = .waiting key n)

section

variable {p : Provider ε} {k : Nat} {filters : Option ContentFilters}
  {rs : List (Nat × Outcome ε Artifact)}

/-- When nothing can move, every caller who has ended has reported. -/
theorem reported_quiet (ht : Tallied p k rs) (hquiet : p.ready = []) {id : Nat}
    {outcome : Outcome ε Artifact} (hask : AsksFor p id k) (hended : p.HasEnded id outcome) :
    (id, outcome) ∈ rs := by
  have hcount := ht.once id
  rw [hquiet, hasFinished_iff.2 ⟨hask, outcome, hended⟩] at hcount
  have hmem : id ∈ rs.map Prod.fst := List.count_pos_iff.1 (by simpa using Nat.le_of_eq hcount.symm)
  obtain ⟨⟨id, outcome'⟩, hr, rfl⟩ := List.mem_map.1 hmem
  obtain ⟨c, hc, hs⟩ := hended
  obtain ⟨c', hc', hs'⟩ := ht.true _ hr
  obtain rfl := Option.some.inj (hc.symm.trans hc')
  obtain rfl := CallerStage.finished.inj (hs.symm.trans hs')
  exact hr

/-- When nothing can move, a caller who has not ended waits for a load that waits for its loader. -/
theorem waits_quiet (hsound : Sound p) (hquiet : p.ready = []) {id : Nat} {c : Caller ε}
    (hc : p.callers[id]? = some c) (hs : ∀ outcome, c.stage ≠ .finished outcome) :
    ∃ (loadId : Nat) (l : Load ε) (key : String) (n : Nat), c.stage = .waiting loadId ∧
      p.loads[loadId]? = some l ∧ l.stage = .waiting key n := by
  have hactive : ¬ c.stage.Active := fun h => by simpa [hquiet] using hsound.caller_due id c hc h
  cases hstage : c.stage with
  | starting => exact absurd (.inl hstage) hactive
  | ending outcome => exact absurd (.inr ⟨outcome, hstage⟩) hactive
  | finished outcome => exact absurd hstage (hs outcome)
  | waiting loadId =>
    have hserved := hsound.served id c loadId hc hstage
    obtain ⟨l, hl, -⟩ := hserved.load
    rcases load_quiet hsound hquiet hl with ⟨key, n, hw⟩ | ⟨result, hfinished⟩
    · exact ⟨loadId, l, key, n, rfl, hl, hw⟩
    · have hdue := hserved.due l result hl hfinished
      simp [hquiet] at hdue

theorem settles_quiet (h : Followed p k filters rs) (hquiet : p.ready = []) : Settles p k := by
  obtain ⟨col, hcol, -, -, hstands⟩ := h.stands
  have hbad : ∀ id error, AsksFor p id k → p.HasEnded id (.failed error) →
      rs.findSome? failure? ≠ none := fun id error hask hended hnone => by
    have hgood := List.findSome?_eq_none_iff.1 hnone _ (reported_quiet h.tallied hquiet hask hended)
    simp [failure?] at hgood
  refine ⟨col, hcol, fun id error hask hended => ?_, ?_⟩
  · generalize col.stage = stage at hstands ⊢
    cases hstands with
    | starting nobody => exact absurd hask (nobody id)
    | refused nobody => exact absurd hask (nobody id)
    | gathering _ _ good => exact absurd good (hbad id error hask hended)
    | @failing _ _ first _ _ _ _ ends => exact ⟨_, ends.resolve_left (by simp [hquiet])⟩
    | returning _ _ good => exact absurd good (hbad id error hask hended)
  · generalize col.stage = stage at hstands ⊢
    cases hstands with
    | starting _ due => simp [hquiet] at due
    | refused => exact .inl ⟨_, rfl⟩
    | failing _ _ _ ends => exact .inl ⟨_, ends.resolve_left (by simp [hquiet])⟩
    | returning _ _ _ _ _ ends => exact .inl ⟨_, ends.resolve_left (by simp [hquiet])⟩
    | @gathering slugs first left known gathered good count more =>
      -- not all callers have reported, so one of them has not ended
      obtain ⟨id, hid, hno⟩ : ∃ id ∈ (List.range slugs.length).map (first + ·),
          id ∉ rs.map Prod.fst := by
        by_contra hall
        have hsub : (List.range slugs.length).map (first + ·) ⊆ rs.map Prod.fst := fun id hid => by
          by_contra hno
          exact hall ⟨id, hid, hno⟩
        have hnodup : ((List.range slugs.length).map (first + ·)).Nodup :=
          List.Nodup.map (fun _ _ => Nat.add_left_cancel) List.nodup_range
        have hle := (List.subperm_of_subset hnodup hsub).length_le
        simp only [List.length_map, List.length_range] at hle
        omega
      obtain ⟨i, hi, rfl⟩ := List.mem_map.1 hid
      obtain ⟨c, hc, -, hk⟩ := gathered.asked i _ (List.getElem?_eq_getElem (List.mem_range.1 hi))
      obtain ⟨loadId, l, key, n, hw, hl, hs⟩ := waits_quiet h.sound hquiet hc fun outcome hs =>
        hno (List.mem_map_of_mem (reported_quiet h.tallied hquiet ⟨c, hc, hk⟩ ⟨c, hc, hs⟩))
      exact .inr ⟨_, loadId, c, l, key, n, hc, hk, hw, hl, hs⟩

end

theorem undisturbed_replicate_turn (k : Nat) (answer : String → Nat → Answer ε) (n : Nat)
    (p : Provider ε) : Undisturbed k p (List.replicate n (.turn answer)) := by
  induction n generalizing p with
  | zero => trivial
  | succ n ih =>
    rw [List.replicate_succ]
    exact ⟨by simp [Disturbs], ih _⟩

theorem settles_drain (answer : String → Nat → Answer ε) {p : Provider ε} {k : Nat}
    {filters : Option ContentFilters} {rs : List (Nat × Outcome ε Artifact)}
    (h : Followed p k filters rs) : Settles (p.drain answer) k := by
  obtain ⟨n, hn⟩ := turns_eq_run answer p.turnBound p
  have hquiet : (turns answer p.turnBound p).ready = [] := drain_ready answer p
  rw [hn] at hquiet
  show Settles (turns answer p.turnBound p) k
  rw [hn]
  exact settles_quiet (followed_run _ h (undisturbed_replicate_turn k answer n p)) hquiet

theorem completes_drain (answer : String → Nat → Answer ε) {p : Provider ε} (hsound : Sound p)
    {e : Event ε} {id loadId : Nat} (hjoin : .joined id loadId ∈ p.occurrences e)
    (late : List (Event ε)) : Completes (((p.step e).run late).drain answer) loadId
      fun slug => ∀ e' ∈ late, e'.invalidates slug = false := by
  obtain ⟨n, hn⟩ := turns_eq_run answer ((p.step e).run late).turnBound ((p.step e).run late)
  have hquiet : (turns answer ((p.step e).run late).turnBound ((p.step e).run late)).ready = [] :=
    drain_ready answer _
  rw [hn, ← run_append] at hquiet
  show Completes (turns answer ((p.step e).run late).turnBound ((p.step e).run late)) loadId _
  rw [hn, ← run_append]
  obtain ⟨l, hl, hends⟩ := completes_of_joined hsound hjoin _ hquiet
  refine ⟨l, hl, hends.imp_right fun ⟨result, hs, hcache⟩ => ⟨result, hs, fun a ha hvalid => ?_⟩⟩
  refine hcache a ha fun e' he' => ?_
  rcases List.mem_append.1 he' with hlate | hturn
  · exact hvalid e' hlate
  · obtain rfl := List.eq_of_mem_replicate hturn
    rfl

/-! ## How collections end -/

/-- What a collection gives of the artifacts of all slugs: all of them without filters, and with
    filters those whose headers pass, in order, if all headers can be matched. -/
def Selects (filters : Option ContentFilters) (artifacts : List Artifact)
    (outcome : CollectOutcome ε) : Prop :=
  (filters = none → outcome = .done artifacts) ∧
    ∀ f (passes : Artifact → Bool), filters = some f →
      (∀ a ∈ artifacts, f.isMatch a.header = .ok (passes a)) →
        outcome = .done (artifacts.filter passes)

theorem filterAuxM_eq_filter {α β : Type} {f : α → Except β Bool} {passes : α → Bool} {l : List α}
    (h : ∀ a ∈ l, f a = .ok (passes a)) (acc : List α) :
    l.filterAuxM f acc = .ok ((l.filter passes).reverse ++ acc) := by
  induction l generalizing acc with
  | nil => rfl
  | cons a rest ih =>
    have hrest := ih fun b hb => h b (List.mem_cons_of_mem _ hb)
    rw [List.filterAuxM, h a List.mem_cons_self]
    cases hp : passes a <;> simp [bind, Except.bind, hrest, hp]

theorem filterM_eq_filter {α β : Type} {f : α → Except β Bool} {passes : α → Bool} {l : List α}
    (h : ∀ a ∈ l, f a = .ok (passes a)) : l.filterM f = .ok (l.filter passes) := by
  simp [List.filterM, filterAuxM_eq_filter h, bind, Except.bind, pure, Except.pure]

theorem selects_passing (filters : Option ContentFilters) (artifacts : List Artifact) :
    Selects filters artifacts (passing filters artifacts : CollectOutcome ε) := by
  refine ⟨fun hnone => by rw [hnone]; rfl, fun f passes hf hpasses => ?_⟩
  simp only [passing, hf, filterM_eq_filter hpasses]

/-- How a collection can end after some reports: when the catalogue has no slugs to ask for, with the
    first failure among the reports, or with what it gives of the artifacts of all slugs. -/
inductive CollectionEnd (c : Catalogue) (filters : Option ContentFilters) (p : Provider ε)
    (h : List (Occurrence ε)) (k : Nat) (rs : List (Nat × Outcome ε Artifact)) :
    CollectOutcome ε → Prop where
  | refused {error : TemplateError} (unknown : c.slugs = .error error) :
      CollectionEnd c filters p h k rs (.failed (.template error))
  | failed {slugs : List String} {slug : String} {error : LoadError ε} (known : c.slugs = .ok slugs)
      (first : rs.findSome? failure? = some error) (own : slug ∈ slugs)
      (obtained : Obtained p h k slug (.failed error)) :
      CollectionEnd c filters p h k rs (.failed error)
  | returned {slugs : List String} {artifacts : List Artifact} {outcome : CollectOutcome ε}
      (known : c.slugs = .ok slugs) (good : rs.findSome? failure? = none)
      (obtained : List.Forall₂ (fun slug a => Obtained p h k slug (.done a)) slugs artifacts)
      (selects : Selects filters artifacts outcome) :
      CollectionEnd c filters p h k rs outcome

theorem collectionEnd_of_standing {p : Provider ε} {k : Nat} {filters : Option ContentFilters}
    {rs : List (Nat × Outcome ε Artifact)} {h : List (Occurrence ε)} {outcome : CollectOutcome ε}
    (hstands : Standing p k filters rs (.finished outcome)) (htallied : Tallied p k rs)
    (hobtained : ∀ (id : Nat) c outcome, p.callers[id]? = some c → c.collection = some k →
      c.stage = .finished outcome → Obtained p h k c.slug outcome) :
    CollectionEnd p.catalogue filters p h k rs outcome := by
  cases hstands with
  | refused _ unknown => exact .refused unknown
  | @failing slugs first error _ known gathered bad ends =>
    obtain rfl : outcome = .failed error := by simpa using ends
    obtain ⟨⟨id, reported⟩, hr, herror⟩ := List.exists_of_findSome?_eq_some bad
    obtain rfl : reported = .failed error := by
      cases reported <;> simp [failure?] at herror
      rw [herror]
    obtain ⟨c, hc, hs⟩ := htallied.true _ hr
    obtain ⟨c', hc', hk⟩ := asksFor_of_reported htallied hr
    obtain rfl := Option.some.inj (hc.symm.trans hc')
    obtain ⟨i, hi, hid⟩ := List.mem_map.1 (gathered.only id ⟨c, hc, hk⟩)
    have hlt := List.mem_range.1 hi
    obtain ⟨c', hc', hslug, -⟩ := gathered.asked i slugs[i] (List.getElem?_eq_getElem hlt)
    obtain rfl := Option.some.inj (hc.symm.trans (hid ▸ hc'))
    exact .failed known bad (hslug ▸ List.getElem_mem hlt) (hobtained id c _ hc hk hs)
  | @returning slugs first artifacts _ known gathered good count ended ends =>
    obtain rfl : outcome = passing filters artifacts := by simpa using ends
    exact .returned known good (forall₂_obtained gathered ended hobtained)
      (selects_passing filters artifacts)

/-- Someone asks for all pages, and whatever happens then, nobody cancels the collection or the callers
    who ask for it.

    * When the collection has ended, it has ended with the first failure among the reports that have
      reached it, or else with the artifacts that loads have brought for the slugs of the catalogue, in
      this order, of which filters keep those that pass.
    * When nothing can move, which some turns bring about, the collection has ended or waits for a
      loader; it does not wait when one of its callers has failed.
    * A load that one of its callers has started or joined runs to its end then, and what it brings is
      in the cache if nothing has invalidated its slug since. -/
theorem collections_keep_order (c : Catalogue) (filters : Option ContentFilters)
    (before after : List (Event ε)) :
    let p := (initial c : Provider ε).run before
    let k := p.collections.length
    let asked := p.step (.requestAll filters)
    let q := asked.run after
    Undisturbed k asked after →
    (∀ col outcome, q.collections[k]? = some col → col.stage = .finished outcome →
      CollectionEnd c filters q (asked.history after) k (asked.reports k after) outcome) ∧
    ((q.ready = [] → Settles q k) ∧ ∀ answer, Settles (q.drain answer) k) ∧
    ∀ early e late id loadId, after = early ++ e :: late →
      .joined id loadId ∈ (asked.run early).occurrences e → AsksFor q id k →
      let valid slug := ∀ e' ∈ late, e'.invalidates slug = false
      (q.ready = [] → Completes q loadId valid) ∧ ∀ answer, Completes (q.drain answer) loadId valid := by
  intro p k asked q hquiet
  have hsound : Sound p := sound_run_initial c before
  have henrolled : Enrolled p := enrolled_run (enrolled_initial c) before
  have hasked : Followed asked k filters [] :=
    followed_asked hsound henrolled (placed_run c before) filters
  have hq : Followed q k filters (asked.reports k after) := followed_run after hasked hquiet
  have hcat : q.catalogue = c :=
    (catalogue_run asked after).trans ((catalogue_step p _).trans (catalogue_run _ before))
  refine ⟨fun col outcome hcol hs => ?_, ⟨settles_quiet hq, fun answer => settles_drain answer hq⟩, ?_⟩
  · obtain ⟨col', hcol', -, -, hstands⟩ := hq.stands
    obtain rfl := Option.some.inj (hcol.symm.trans hcol')
    rw [← hcat]
    refine collectionEnd_of_standing (hs ▸ hstands) hq.tallied fun id c outcome hc hk hs => ?_
    exact obtained_of_ended hasked.sound hasked.enrolled hquiet hq.backed hc hk hs
  · rintro early e late id loadId rfl hjoin - valid
    have hsplit : q = ((asked.run early).step e).run late := run_append asked early (e :: late)
    have hearly : Sound (asked.run early) := sound_run hasked.sound early
    rw [hsplit]
    exact ⟨completes_of_joined hearly hjoin late, fun answer => completes_drain answer hearly hjoin late⟩

/-- A catalogue of two pages, whose slugs are a and b. -/
def twoPages : Catalogue :=
  ⟨"@content", ["\x7balias\x7d/\x7bslug\x7d.md"], ["@content/a.md", "@content/b.md"]⟩

/-- Both pages are loaded, and the second one comes first. -/
def overtaken : List (Event String) :=
  List.replicate 5 pause ++ .receive 1 (.ok (compiled "second")) :: List.replicate 5 pause
    ++ .receive 0 (.ok (compiled "first")) :: List.replicate 7 pause

/-- The second page fails, and the first one comes later. -/
def outlived : List (Event String) :=
  List.replicate 5 pause ++ .receive 1 (.error "down") :: List.replicate 7 pause
    ++ .receive 0 (.ok (compiled "first")) :: List.replicate 6 pause

/-- The collection has both pages in order; and when one fails it has the failure, while the other page
    comes into the cache. -/
theorem collection_when_overtaken :
    let asked := (initial twoPages).step (.requestAll none)
    (Undisturbed 0 asked overtaken ∧ CollectionEnd twoPages none (asked.run overtaken)
      (asked.history overtaken) 0 (asked.reports 0 overtaken)
      (.done [compiled "first", compiled "second"])) ∧
    (Undisturbed 0 asked outlived ∧ CollectionEnd twoPages none (asked.run outlived)
      (asked.history outlived) 0 (asked.reports 0 outlived) (.failed (.loader "down"))) ∧
    (asked.run outlived).cache.lookup "a" = some (compiled "first") := by
  intro asked
  have hovertaken : Undisturbed 0 asked overtaken := by
    simp [overtaken, pause, Undisturbed, Disturbs]
  have houtlived : Undisturbed 0 asked outlived := by
    simp [outlived, pause, Undisturbed, Disturbs]
  obtain ⟨hend, -, -⟩ := collections_keep_order twoPages none [] overtaken hovertaken
  obtain ⟨hend', -, hloads⟩ := collections_keep_order twoPages none [] outlived houtlived
  refine ⟨⟨hovertaken, hend _ _ rfl rfl⟩, ⟨houtlived, hend' _ _ rfl rfl⟩, ?_⟩
  obtain ⟨hquiet, -⟩ := hloads [pause] pause (outlived.drop 2) 0 0 rfl (List.mem_singleton.2 rfl)
    ⟨_, rfl, rfl⟩
  obtain ⟨l, hl, hends⟩ := hquiet rfl
  obtain rfl : l = ⟨"a", .finished (.ok (compiled "first")), [0]⟩ := Option.some.inj (hl.symm.trans rfl)
  rcases hends with ⟨key, n, hwaiting⟩ | ⟨result, hs, hcache⟩
  · simp at hwaiting
  · obtain rfl := LoadStage.finished.inj hs
    exact hcache (compiled "first") rfl (by simp [outlived, pause, Event.invalidates])

end Folio.Provider

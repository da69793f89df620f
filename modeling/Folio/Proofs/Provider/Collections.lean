import Folio.Proofs.Provider.Gathering
import Mathlib.Data.List.Forall2
import Mathlib.Data.List.Nodup
import Mathlib.Data.List.Perm.Subperm

set_option autoImplicit false

/-! # What collections give

A collection asks for the pages of all slugs, in the order of the catalogue, and its callers report to
it. While nobody cancels the collection or its callers, what it has come to is a function of the reports
that have reached it (`Standing`): the first failure among them decides how it ends, and when all callers
have reported without one it ends with their artifacts, in the order in which it has asked for them and
not in the order of the reports. -/

namespace Folio.Provider

variable {ε : Type}

/-! ## Reports that reach a collection -/

/-- The caller who reports to a collection in a step, with how the caller has ended. -/
def reported (p : Provider ε) (k : Nat) (e : Event ε) : List (Nat × Outcome ε Artifact) :=
  match p.task? e with
  | some (.report j id) =>
    match p.callers[id]? with
    | some ⟨_, _, .finished outcome⟩ => if j = k then [(id, outcome)] else []
    | _ => []
  | _ => []

/-- The reports that reach a collection in a run, in order. -/
def reports (p : Provider ε) (k : Nat) : List (Event ε) → List (Nat × Outcome ε Artifact)
  | [] => []
  | e :: es => p.reported k e ++ reports (p.step e) k es

/-- The failure that is reported. -/
def failure? : Nat × Outcome ε Artifact → Option (LoadError ε)
  | (_, .failed error) => some error
  | _ => none

theorem reported_of_task {p : Provider ε} {k id : Nat} {e : Event ε} {outcome : Outcome ε Artifact}
    (ht : p.task? e = some (.report k id)) (hended : p.HasEnded id outcome) :
    p.reported k e = [(id, outcome)] := by
  obtain ⟨⟨slug, collection, stage⟩, hc, rfl⟩ := hended
  simp [reported, ht, hc]

theorem reported_cases (p : Provider ε) (k : Nat) (e : Event ε) :
    p.reported k e = [] ∨ ∃ id outcome, p.task? e = some (.report k id) ∧ p.HasEnded id outcome ∧
      p.reported k e = [(id, outcome)] := by
  unfold reported
  split
  · next j id ht =>
    split
    · next slug collection outcome hc =>
      split
      · next hj =>
        subst hj
        exact .inr ⟨id, outcome, ht, ⟨_, hc, rfl⟩, rfl⟩
      · exact .inl rfl
    · exact .inl rfl
  · exact .inl rfl

theorem hasFinished_iff {p : Provider ε} {k id : Nat} :
    p.hasFinished k id = true ↔ AsksFor p id k ∧ ∃ outcome, p.HasEnded id outcome := by
  unfold hasFinished AsksFor HasEnded
  cases p.callers[id]? with
  | none => simp
  | some c =>
    obtain ⟨slug, collection, stage⟩ := c
    cases stage <;> simp [CallerStage.isFinished]

/-- Who has ended has ended for good. -/
theorem hasEnded_step {p : Provider ε} {id : Nat} {outcome : Outcome ε Artifact}
    (h : p.HasEnded id outcome) (e : Event ε) : (p.step e).HasEnded id outcome := by
  obtain ⟨c, hc, hs⟩ := h
  have hstep := callerStep p e id
  rw [hc] at hstep
  generalize hafter : (p.step e).callers[id]? = after at hstep
  cases hstep with
  | same => exact ⟨c, hafter, hs⟩
  | moved move =>
    cases move with
    | cached _ starting => simp [hs] at starting
    | given _ starting => simp [hs] at starting
    | joined _ starting => simp [hs] at starting
    | initiated _ starting => simp [hs] at starting
    | delivered _ waiting => simp [hs] at waiting
    | ended _ ending => simp [hs] at ending
    | cancelled _ unfinished => exact absurd hs (unfinished outcome)

/-- The reports tell how callers have ended, and every caller who has ended reports once. -/
structure Tallied (p : Provider ε) (k : Nat) (rs : List (Nat × Outcome ε Artifact)) : Prop where
  true : ∀ r ∈ rs, p.HasEnded r.1 r.2
  once : ∀ id, (rs.map Prod.fst).count id + p.ready.count (.report k id)
    = (p.hasFinished k id).toNat

theorem tallied_step {p : Provider ε} {k : Nat} {rs : List (Nat × Outcome ε Artifact)}
    (h : Tallied p k rs) (e : Event ε) : Tallied (p.step e) k (rs ++ p.reported k e) := by
  refine ⟨fun r hr => ?_, fun id => ?_⟩
  · refine hasEnded_step ?_ e
    rcases List.mem_append.1 hr with hold | hnew
    · exact h.true r hold
    · rcases reported_cases p k e with hnil | ⟨id, outcome, -, hended, hone⟩
      · simp [hnil] at hnew
      · rw [hone] at hnew
        obtain rfl := List.mem_singleton.1 hnew
        exact hended
  · have hstep := count_report_step p e k id
    have honce := h.once id
    have hreported : ((p.reported k e).map Prod.fst).count id
        = (p.task? e == some (.report k id)).toNat := by
      by_cases ht : p.task? e = some (.report k id)
      · -- a report in the queue is the one report of a caller who has ended
        have hmem : 0 < p.ready.count (.report k id) :=
          List.count_pos_iff.2 (mem_ready_of_task ht)
        have hfinished : p.hasFinished k id = true := by
          by_contra hno
          rw [eq_false_of_ne_true hno] at honce
          simp only [Bool.toNat_false] at honce
          omega
        obtain ⟨-, outcome, hended⟩ := hasFinished_iff.1 hfinished
        simp [reported_of_task ht hended, ht]
      · have hfalse : (p.task? e == some (.report k id)) = false := beq_eq_false_iff_ne.2 ht
        rw [hfalse, Bool.toNat_false, List.count_eq_zero]
        intro hmem
        rcases reported_cases p k e with hnil | ⟨id', outcome, ht', -, hone⟩
        · simp [hnil] at hmem
        · rw [hone] at hmem
          obtain rfl : id = id' := by simpa using hmem
          exact ht ht'
    rw [List.map_append, List.count_append, hreported]
    omega

/-! ## Callers of a collection -/

/-- An event cancels a collection, or one of the callers who ask for it. -/
def Disturbs (p : Provider ε) (e : Event ε) (k : Nat) : Prop :=
  e = .cancelCollection k ∨ ∃ id, e = .cancelCaller id ∧ AsksFor p id k

/-- No event of a run cancels a collection, or one of the callers who ask for it. -/
def Undisturbed (k : Nat) (p : Provider ε) : List (Event ε) → Prop
  | [] => True
  | e :: es => ¬ p.Disturbs e k ∧ Undisturbed k (p.step e) es

theorem not_cancels {p : Provider ε} (h : Enrolled p) {k id : Nat} (hask : AsksFor p id k)
    {e : Event ε} (hquiet : ¬ p.Disturbs e k) : ¬ p.Cancels e id := by
  rintro (rfl | ⟨j, col, ids, left, rfl, hcol, hs, hid⟩)
  · exact hquiet (.inr ⟨id, rfl, hask⟩)
  · obtain ⟨c, hc, hk⟩ := hask
    obtain ⟨c', hc', hj⟩ := h.gathered j col ids left hcol hs id hid
    obtain rfl := Option.some.inj (hc.symm.trans hc')
    obtain rfl : k = j := Option.some.inj (hk.symm.trans hj)
    exact hquiet (.inl rfl)

/-- Nobody cancels the callers of a collection that is left undisturbed. -/
theorem spared_of_undisturbed {k id : Nat} (events : List (Event ε)) {p : Provider ε}
    (h : Enrolled p) (hask : AsksFor p id k) (hquiet : Undisturbed k p events) :
    Spared id p events := by
  induction events generalizing p with
  | nil => trivial
  | cons e es ih =>
    exact ⟨not_cancels h hask hquiet.1, ih (enrolled_step h e) (asksFor_stays hask e) hquiet.2⟩

/-- Nobody asks for a collection that has not asked for anything yet. -/
theorem asksFor_step {p : Provider ε} {e : Event ε} {id k : Nat} (h : AsksFor (p.step e) id k) :
    AsksFor p id k ∨ p.task? e = some (.collection k) ∧
      ∃ col, p.collections[k]? = some col ∧ col.stage = .starting := by
  obtain ⟨c, hc, hk⟩ := h
  cases hbefore : p.callers[id]? with
  | none =>
    obtain ⟨-, hnone | ⟨j, col, hj, ht, hcol, hs⟩⟩ := new_caller hbefore hc
    · simp [hk] at hnone
    · obtain rfl : j = k := Option.some.inj (hj.symm.trans hk)
      exact .inr ⟨ht, col, hcol, hs⟩
  | some c' =>
    obtain ⟨c'', hc'', hsame, -⟩ := caller_stays hbefore e
    obtain rfl := Option.some.inj (hc.symm.trans hc'')
    exact .inl ⟨c', hbefore, hsame.symm.trans hk⟩

theorem caller_keeps_slug {p : Provider ε} {id : Nat} {c : Caller ε} (hc : p.callers[id]? = some c)
    (e : Event ε) : ∃ c', (p.step e).callers[id]? = some c' ∧ c'.slug = c.slug ∧
      c'.collection = c.collection := by
  have hstep := callerStep p e id
  rw [hc] at hstep
  generalize hafter : (p.step e).callers[id]? = after at hstep
  cases hstep with
  | same => exact ⟨c, rfl, rfl, rfl⟩
  | moved move => exact ⟨_, rfl, rfl, rfl⟩

/-- An outcome is that of a load of a slug. -/
def OutcomeOf (p : Provider ε) (loadId : Nat) (slug : String) (outcome : Outcome ε Artifact) : Prop :=
  ∃ l result, p.loads[loadId]? = some l ∧ l.slug = slug ∧ l.stage = .finished result ∧
    outcome = .ofResult result

theorem outcomeOf_step {p : Provider ε} {loadId : Nat} {slug : String} {outcome : Outcome ε Artifact}
    (h : OutcomeOf p loadId slug outcome) (e : Event ε) : OutcomeOf (p.step e) loadId slug outcome := by
  obtain ⟨l, result, hl, hslug, hs, hresult⟩ := h
  exact ⟨l, result, finished_stays hl hs e, hslug, hs, hresult⟩

/-- Whoever asks for a collection and ends has the outcome of a load of its slug. -/
def Backed (p : Provider ε) (k : Nat) : Prop :=
  ∀ (id : Nat) (c : Caller ε) outcome, p.callers[id]? = some c → c.collection = some k →
    c.stage = .ending outcome ∨ c.stage = .finished outcome → ∃ loadId, OutcomeOf p loadId c.slug outcome

theorem backed_step {p : Provider ε} (hsound : Sound p) (henrolled : Enrolled p) {k : Nat}
    (h : Backed p k) {e : Event ε} (hquiet : ¬ p.Disturbs e k) : Backed (p.step e) k := by
  intro id c outcome hc hk hend
  have hstays : (∃ loadId, OutcomeOf p loadId c.slug outcome) →
      ∃ loadId, OutcomeOf (p.step e) loadId c.slug outcome :=
    fun ⟨loadId, hload⟩ => ⟨loadId, outcomeOf_step hload e⟩
  have hstep := callerStep p e id
  rw [hc] at hstep
  generalize hbefore : p.callers[id]? = before at hstep
  cases hstep with
  | same => exact hstays (h id c outcome hbefore hk hend)
  | asked => simp at hend
  | @moved c₀ stage move =>
    refine hstays ?_
    cases move with
    | @cached a _ _ cached =>
      obtain rfl : .done a = outcome := by simpa using hend
      obtain ⟨loadId, l, ⟨⟨l', hl', hslug⟩, -⟩, hl, hs⟩ := hsound.cached _ _ cached
      obtain rfl : l = l' := Option.some.inj (hl.symm.trans hl')
      exact ⟨loadId, l, .ok a, hl, hslug, hs, rfl⟩
    | @given loadId l result _ _ _ inflight load finished =>
      obtain rfl : .ofResult result = outcome := by simpa using hend
      obtain ⟨⟨l', hl', hslug⟩, -⟩ := hsound.inflight _ _ inflight
      obtain rfl : l = l' := Option.some.inj (load.symm.trans hl')
      exact ⟨loadId, l, result, load, hslug, finished, rfl⟩
    | @delivered loadId l result _ waiting load finished =>
      obtain rfl : .ofResult result = outcome := by simpa using hend
      obtain ⟨l', hl', hslug⟩ := (hsound.served _ _ _ hbefore waiting).load
      obtain rfl : l = l' := Option.some.inj (load.symm.trans hl')
      exact ⟨loadId, l, result, load, hslug, finished, rfl⟩
    | @ended outcome' _ ending =>
      obtain rfl : outcome' = outcome := by simpa using hend
      exact h id c₀ outcome' hbefore hk (.inl ending)
    | cancelled event => exact absurd event (not_cancels henrolled ⟨c₀, hbefore, hk⟩ hquiet)
    | _ => simp at hend

/-- The callers of a collection ask for some slugs, one after the other, from a number on. -/
structure Gathered (p : Provider ε) (k first : Nat) (slugs : List String) : Prop where
  asked : ∀ i slug, slugs[i]? = some slug →
    ∃ c, p.callers[first + i]? = some c ∧ c.slug = slug ∧ c.collection = some k
  only : ∀ id, AsksFor p id k → id ∈ (List.range slugs.length).map (first + ·)

theorem gathered_stays {p : Provider ε} {k first : Nat} {slugs : List String}
    (h : Gathered p k first slugs) {e : Event ε}
    (hstage : ∀ col, p.task? e = some (.collection k) → p.collections[k]? = some col →
      col.stage ≠ .starting) : Gathered (p.step e) k first slugs := by
  refine ⟨fun i slug hi => ?_, fun id hid => ?_⟩
  · obtain ⟨c, hc, hslug, hk⟩ := h.asked i slug hi
    obtain ⟨c', hc', hslug', hk'⟩ := caller_keeps_slug hc e
    exact ⟨c', hc', hslug'.trans hslug, hk'.trans hk⟩
  · rcases asksFor_step hid with hask | ⟨ht, col, hcol, hs⟩
    · exact h.only id hask
    · exact absurd hs (hstage col ht hcol)

/-- The callers who have reported are different callers of the collection. -/
theorem subperm_of_tallied {p : Provider ε} {k first : Nat} {slugs : List String}
    {rs : List (Nat × Outcome ε Artifact)} (ht : Tallied p k rs) (hg : Gathered p k first slugs) :
    (rs.map Prod.fst).Subperm ((List.range slugs.length).map (first + ·)) := by
  have honce : (rs.map Prod.fst).Nodup := List.nodup_iff_count_le_one.2 fun id => by
    have := ht.once id
    have := Bool.toNat_le (p.hasFinished k id)
    omega
  refine List.subperm_of_subset honce fun id hid => hg.only id ?_
  have hpos := List.count_pos_iff.2 hid
  have hcount := ht.once id
  refine (hasFinished_iff.1 ?_).1
  by_contra hno
  rw [eq_false_of_ne_true hno] at hcount
  simp only [Bool.toNat_false] at hcount
  omega

/-! ## What a collection has come to -/

/-- The stage of a collection after some reports. -/
inductive Standing (p : Provider ε) (k : Nat) (filters : Option ContentFilters)
    (rs : List (Nat × Outcome ε Artifact)) : CollectionStage ε → Prop where
  | starting (nobody : ∀ id, ¬ AsksFor p id k) (due : .collection k ∈ p.ready) :
      Standing p k filters rs .starting
  | refused {error : TemplateError} (nobody : ∀ id, ¬ AsksFor p id k)
      (unknown : p.catalogue.slugs = .error error) :
      Standing p k filters rs (.finished (.failed (.template error)))
  | gathering {slugs : List String} {first left : Nat} (known : p.catalogue.slugs = .ok slugs)
      (gathered : Gathered p k first slugs) (good : rs.findSome? failure? = none)
      (count : left + rs.length = slugs.length) (more : 0 < left) :
      Standing p k filters rs (.gathering ((List.range slugs.length).map (first + ·)) left)
  | failing {slugs : List String} {first : Nat} {error : LoadError ε} {stage : CollectionStage ε}
      (known : p.catalogue.slugs = .ok slugs) (gathered : Gathered p k first slugs)
      (bad : rs.findSome? failure? = some error)
      (ends : stage = .ending (.failed error) ∧ .collection k ∈ p.ready ∨
        stage = .finished (.failed error)) : Standing p k filters rs stage
  | returning {slugs : List String} {first : Nat} {artifacts : List Artifact}
      {stage : CollectionStage ε} (known : p.catalogue.slugs = .ok slugs)
      (gathered : Gathered p k first slugs) (good : rs.findSome? failure? = none)
      (count : rs.length = slugs.length)
      (ended : List.Forall₂ (fun id a => p.HasEnded id (.done a))
        ((List.range slugs.length).map (first + ·)) artifacts)
      (ends : stage = .ending (.done artifacts) ∧ .collection k ∈ p.ready ∨
        stage = .finished (passing filters artifacts)) : Standing p k filters rs stage

/-- What is so of a collection that nobody has disturbed. -/
structure Followed (p : Provider ε) (k : Nat) (filters : Option ContentFilters)
    (rs : List (Nat × Outcome ε Artifact)) : Prop where
  sound : Sound p
  enrolled : Enrolled p
  tallied : Tallied p k rs
  backed : Backed p k
  stands : ∃ col, p.collections[k]? = some col ∧ col.filters = filters ∧ col.cancelling = .no ∧
    Standing p k filters rs col.stage

section

variable {p : Provider ε} {k first : Nat} {filters : Option ContentFilters} {slugs : List String}
  {rs : List (Nat × Outcome ε Artifact)}

/-- Whoever asks for an undisturbed collection and ends has an artifact or a failure. -/
theorem not_cancelled (hbacked : Backed p k) {id : Nat} (hask : AsksFor p id k) :
    ¬ p.HasEnded id .cancelled := by
  rintro ⟨c, hc, hs⟩
  obtain ⟨c', hc', hk⟩ := hask
  obtain rfl := Option.some.inj (hc.symm.trans hc')
  obtain ⟨-, -, result, -, -, -, hresult⟩ := hbacked id c .cancelled hc hk (.inr hs)
  cases result <;> simp [Outcome.ofResult] at hresult

/-- Who reports asks for the collection. -/
theorem asksFor_of_reported (ht : Tallied p k rs) {r : Nat × Outcome ε Artifact} (hr : r ∈ rs) :
    AsksFor p r.1 k := by
  have hpos := List.count_pos_iff.2 (List.mem_map_of_mem (f := Prod.fst) hr)
  have hcount := ht.once r.1
  refine (hasFinished_iff.1 ?_).1
  by_contra hno
  rw [eq_false_of_ne_true hno] at hcount
  simp only [Bool.toNat_false] at hcount
  omega

/-- Without a failure among the reports, all who have reported have artifacts. -/
theorem done_of_good (ht : Tallied p k rs) (hbacked : Backed p k)
    (hgood : rs.findSome? failure? = none) {id : Nat} (hid : id ∈ rs.map Prod.fst) :
    ∃ a, p.HasEnded id (.done a) := by
  obtain ⟨⟨id, outcome⟩, hr, rfl⟩ := List.mem_map.1 hid
  have hended := ht.true _ hr
  have hno := List.findSome?_eq_none_iff.1 hgood _ hr
  cases outcome with
  | done a => exact ⟨a, hended⟩
  | failed error => simp [failure?] at hno
  | cancelled => exact absurd hended (not_cancelled hbacked (asksFor_of_reported ht hr))

/-- When as many have reported as there are callers, all of them have. -/
theorem mem_reports_of_count (ht : Tallied p k rs) (hg : Gathered p k first slugs)
    (hcount : rs.length = slugs.length) {id : Nat}
    (hid : id ∈ (List.range slugs.length).map (first + ·)) : id ∈ rs.map Prod.fst := by
  refine ((subperm_of_tallied ht hg).perm_of_length_le ?_).mem_iff.2 hid
  simp [hcount]

/-- The artifacts of callers who all have one. -/
theorem forall₂_artifactsOf {ids : List Nat} (h : ∀ id ∈ ids, ∃ a, p.HasEnded id (.done a)) :
    List.Forall₂ (fun id a => p.HasEnded id (.done a)) ids (p.artifactsOf ids) := by
  induction ids with
  | nil => exact .nil
  | cons id rest ih =>
    obtain ⟨a, c, hc, hs⟩ := h id List.mem_cons_self
    have hhead : p.artifactsOf (id :: rest) = a :: p.artifactsOf rest := by
      simp [artifactsOf, hc, Caller.artifact?, hs]
    rw [hhead]
    exact .cons ⟨c, hc, hs⟩ (ih fun id hid => h id (List.mem_cons_of_mem _ hid))

theorem nobody_stays (h : ∀ id, ¬ AsksFor p id k) {e : Event ε}
    (hstage : ∀ col, p.task? e = some (.collection k) → p.collections[k]? = some col →
      col.stage ≠ .starting) (id : Nat) : ¬ AsksFor (p.step e) id k := by
  intro hask
  rcases asksFor_step hask with hold | ⟨ht, col, hcol, hs⟩
  · exact h id hold
  · exact hstage col ht hcol hs

/-- No more callers report than there are. -/
theorem length_reports_le (ht : Tallied p k rs) (hg : Gathered p k first slugs) :
    rs.length ≤ slugs.length := by
  simpa using (subperm_of_tallied ht hg).length_le

/-- The callers whom a collection gathers in a step. -/
theorem gathered_new (hnobody : ∀ id, ¬ AsksFor p id k) {e : Event ε}
    (hq : (p.step e).callers = p.callers ++ slugs.map fun slug => ⟨slug, some k, .starting⟩) :
    Gathered (p.step e) k p.callers.length slugs := by
  have hget : ∀ i, (p.step e).callers[p.callers.length + i]?
      = slugs[i]?.map fun slug => ⟨slug, some k, .starting⟩ := fun i => by
    rw [hq, List.getElem?_append_right (Nat.le_add_right _ _), Nat.add_sub_cancel_left,
      List.getElem?_map]
  refine ⟨fun i slug hi => ⟨⟨slug, some k, .starting⟩, ?_, rfl, rfl⟩, fun id hid => ?_⟩
  · rw [hget, hi, Option.map_some]
  · obtain ⟨c, hc, hk⟩ := hid
    have hle : p.callers.length ≤ id := by
      by_contra hlt
      rw [hq, List.getElem?_append_left (Nat.lt_of_not_le hlt)] at hc
      exact hnobody id ⟨c, hc, hk⟩
    have hlt := (List.getElem?_eq_some_iff.1 hc).1
    rw [hq, List.length_append, List.length_map] at hlt
    refine List.mem_map.2 ⟨id - p.callers.length, ?_, Nat.add_sub_cancel' hle⟩
    rw [List.mem_range]
    omega

theorem forall₂_hasEnded_step {ids : List Nat} {artifacts : List Artifact}
    (h : List.Forall₂ (fun id a => p.HasEnded id (.done a)) ids artifacts) (e : Event ε) :
    List.Forall₂ (fun id a => (p.step e).HasEnded id (.done a)) ids artifacts :=
  h.imp fun _ _ hended => hasEnded_step hended e

end

/-! ## Every step keeps what is so -/

section

variable {p : Provider ε} {k : Nat} {filters : Option ContentFilters} {col : Collection ε}
  {rs : List (Nat × Outcome ε Artifact)}

/-- A collection that a step leaves as it is stands as before, with the reports of the step. -/
theorem standing_same {e : Event ε} (htallied : Tallied (p.step e) k (rs ++ p.reported k e))
    (hcol : p.collections[k]? = some col) (h : Standing p k filters rs col.stage)
    (hidle : p.task? e = some (.collection k) →
      col.stage ≠ .starting ∧ ∀ outcome, col.stage ≠ .ending outcome)
    (hunreported : ∀ id outcome ids left, p.task? e = some (.report k id) →
      p.HasEnded id outcome → col.stage ≠ .gathering ids left) :
    Standing (p.step e) k filters (rs ++ p.reported k e) col.stage := by
  have hcat := catalogue_step p e
  have hkept : ∀ c, p.task? e = some (.collection k) → p.collections[k]? = some c →
      c.stage ≠ .starting := fun c ht hc => by
    obtain rfl := Option.some.inj (hcol.symm.trans hc)
    exact (hidle ht).1
  -- the collection's turn waits on in the queue, since it is not taken
  have hdue : .collection k ∈ p.ready → (col.stage = .starting ∨ ∃ outcome, col.stage = .ending outcome)
      → .collection k ∈ (p.step e).ready := by
    intro hmem hactive
    refine (mem_ready_step hmem e).resolve_right fun ht => ?_
    rcases hactive with hs | ⟨outcome, hs⟩
    · exact (hidle ht).1 hs
    · exact (hidle ht).2 outcome hs
  generalize hstage : col.stage = stage at h hidle hunreported hdue ⊢
  cases h with
  | starting nobody due =>
    exact .starting (nobody_stays nobody hkept) (hdue due (.inl rfl))
  | refused nobody unknown => exact .refused (nobody_stays nobody hkept) (hcat ▸ unknown)
  | gathering known gathered good count more =>
    have hnil : p.reported k e = [] := by
      rcases reported_cases p k e with hnil | ⟨id, outcome, ht, hended, -⟩
      · exact hnil
      · exact absurd rfl (hunreported id outcome _ _ ht hended)
    rw [hnil, List.append_nil]
    exact .gathering (hcat ▸ known) (gathered_stays gathered hkept) good count more
  | failing known gathered bad ends =>
    refine .failing (hcat ▸ known) (gathered_stays gathered hkept) ?_ (ends.imp_left fun h => ?_)
    · rw [List.findSome?_append, bad, Option.some_or]
    · exact ⟨h.1, hdue h.2 (.inr ⟨_, h.1⟩)⟩
  | returning known gathered good count ended ends =>
    -- all callers have reported already
    have hgathered := gathered_stays gathered hkept
    have hnil : p.reported k e = [] := by
      have hle := length_reports_le htallied hgathered
      rw [List.length_append] at hle
      exact List.length_eq_zero_iff.1 (by omega)
    rw [hnil, List.append_nil]
    refine .returning (hcat ▸ known) hgathered good count (forall₂_hasEnded_step ended e)
      (ends.imp_left fun h => ?_)
    exact ⟨h.1, hdue h.2 (.inr ⟨_, h.1⟩)⟩

theorem Standing.nobody (h : Standing p k filters rs .starting) : ∀ id, ¬ AsksFor p id k := by
  cases h with
  | starting nobody => exact nobody
  | failing _ _ _ ends => simp at ends
  | returning _ _ _ _ _ ends => simp at ends

/-- A collection that gathers asks for all its slugs, and waits for those that have not reported. -/
theorem Standing.of_gathering {ids : List Nat} {left : Nat} (h : Standing p k filters rs (.gathering ids left)) :
    ∃ slugs first, ids = (List.range slugs.length).map (first + ·) ∧ p.catalogue.slugs = .ok slugs ∧
      Gathered p k first slugs ∧ rs.findSome? failure? = none ∧ left + rs.length = slugs.length ∧ 0 < left := by
  cases h with
  | gathering known gathered good count more => exact ⟨_, _, rfl, known, gathered, good, count, more⟩
  | failing _ _ _ ends => simp at ends
  | returning _ _ _ _ _ ends => simp at ends

/-- A collection that moves stands where the reports, with that of the step, have brought it. -/
theorem standing_moved {e : Event ε} {stage : CollectionStage ε} (henrolled : Enrolled p)
    (hbacked : Backed p k) (htallied : Tallied p k rs)
    (htallied' : Tallied (p.step e) k (rs ++ p.reported k e)) (hcol : p.collections[k]? = some col)
    (hcancelling : col.cancelling = .no) (h : Standing p k col.filters rs col.stage)
    (hmove : CollectionMove p e k (p.step e) col stage)
    (hdue : ∀ outcome, stage = .ending outcome → .collection k ∈ (p.step e).ready) :
    Standing (p.step e) k col.filters (rs ++ p.reported k e) stage := by
  have hcat := catalogue_step p e
  have hkept : (∃ id, p.task? e = some (.report k id)) ∨ col.stage ≠ .starting →
      ∀ c, p.task? e = some (.collection k) → p.collections[k]? = some c → c.stage ≠ .starting := by
    rintro (⟨id, ht⟩ | hs) c ht' hc
    · exact absurd (ht.symm.trans ht') (by simp)
    · obtain rfl := Option.some.inj (hcol.symm.trans hc)
      exact hs
  have hturn : p.task? e = some (.collection k) → p.reported k e = [] := fun ht => by
    rcases reported_cases p k e with hnil | ⟨id, outcome, ht', -, -⟩
    · exact hnil
    · exact absurd (ht.symm.trans ht') (by simp)
  have hunasked : col.stage = .starting → ∀ id, ¬ AsksFor p id k := fun hs => (hs ▸ h).nobody
  -- before the first turn nothing has been reported
  have hunreported : col.stage = .starting → rs = [] := fun hs =>
    List.eq_nil_iff_forall_not_mem.2 fun r hr => hunasked hs r.1 (asksFor_of_reported htallied hr)
  cases hmove with
  | refused turn starting unknown callers =>
    refine .refused (fun id hask => hunasked starting id ?_) (hcat ▸ unknown)
    rwa [AsksFor, callers] at hask
  | empty turn starting known callers =>
    have hgathered : Gathered (p.step e) k 0 [] := by
      refine ⟨by simp, fun id hask => ?_⟩
      rw [AsksFor, callers] at hask
      exact absurd hask (hunasked starting id)
    rw [hturn turn, hunreported starting]
    exact .returning (hcat ▸ known) hgathered rfl rfl .nil (.inr rfl)
  | gathered turn starting known nonempty callers =>
    rw [hturn turn, hunreported starting]
    exact .gathering (hcat ▸ known) (gathered_new (hunasked starting) callers) rfl (by simp)
      (List.length_pos_iff.2 nonempty)
  | @counted ids left id a turn gathering done more =>
    rw [reported_of_task turn done]
    obtain ⟨slugs, first, rfl, known, gathered, good, count, -⟩ := (gathering ▸ h).of_gathering
    refine .gathering (hcat ▸ known) (gathered_stays gathered (hkept (.inl ⟨id, turn⟩))) ?_ ?_ ?_
    · simp [good, failure?]
    · rw [List.length_append, List.length_singleton]
      omega
    · omega
  | @completed ids left id a turn gathering done last =>
    rw [reported_of_task turn done] at htallied' ⊢
    rw [if_pos hcancelling] at hdue ⊢
    obtain ⟨slugs, first, rfl, known, gathered, good, count, more⟩ := (gathering ▸ h).of_gathering
    have hgathered := gathered_stays gathered (hkept (.inl ⟨id, turn⟩))
    have hcount : (rs ++ [(id, Outcome.done a)]).length = slugs.length := by
      rw [List.length_append, List.length_singleton]
      omega
    refine .returning (hcat ▸ known) hgathered (by simp [good, failure?]) hcount
      (forall₂_hasEnded_step (forall₂_artifactsOf fun i hi => ?_) e) (.inl ⟨rfl, hdue _ rfl⟩)
    -- this was the last report that was missing
    have hmem := mem_reports_of_count htallied' hgathered hcount hi
    rw [List.map_append, List.mem_append] at hmem
    rcases hmem with hold | hnew
    · exact done_of_good htallied hbacked good hold
    · obtain rfl := List.mem_singleton.1 hnew
      exact ⟨a, done⟩
  | @failed ids left id error turn gathering failed =>
    have halways : col.cancelling ≠ .always := by simp [hcancelling]
    rw [reported_of_task turn failed]
    rw [if_neg halways] at hdue ⊢
    obtain ⟨slugs, first, rfl, known, gathered, good, -, -⟩ := (gathering ▸ h).of_gathering
    exact .failing (hcat ▸ known) (gathered_stays gathered (hkept (.inl ⟨id, turn⟩))) (by simp [good, failure?])
      (.inl ⟨rfl, hdue _ rfl⟩)
  | @cancelled ids left id turn gathering cancelled =>
    exact absurd cancelled (not_cancelled hbacked (henrolled.tasks _ (mem_ready_of_task turn)))
  | @concluded outcome turn ending =>
    rw [hturn turn, List.append_nil]
    have hkeep := hkept (.inr (by simp [ending]))
    rw [ending] at h
    cases h with
    | failing known gathered bad ends =>
      obtain ⟨hended, -⟩ := ends.resolve_right (by simp)
      obtain rfl := CollectionStage.ending.inj hended
      exact .failing (hcat ▸ known) (gathered_stays gathered hkeep) bad (.inr rfl)
    | returning known gathered good count ended ends =>
      obtain ⟨hended, -⟩ := ends.resolve_right (by simp)
      obtain rfl := CollectionStage.ending.inj hended
      exact .returning (hcat ▸ known) (gathered_stays gathered hkeep) good count
        (forall₂_hasEnded_step ended e) (.inr rfl)

theorem followed_step {e : Event ε} (h : Followed p k filters rs) (hquiet : ¬ p.Disturbs e k) :
    Followed (p.step e) k filters (rs ++ p.reported k e) := by
  have htallied := tallied_step h.tallied e
  refine ⟨sound_step h.sound e, enrolled_step h.enrolled e, htallied,
    backed_step h.sound h.enrolled h.backed hquiet, ?_⟩
  obtain ⟨col, hcol, rfl, hcancelling, hstands⟩ := h.stands
  have hstep := collectionStep p e k
  rw [hcol] at hstep
  generalize hafter : (p.step e).collections[k]? = after at hstep
  cases hstep with
  | same idle unreported =>
    exact ⟨col, rfl, rfl, hcancelling, standing_same htallied hcol hstands idle unreported⟩
  | moved move due =>
    exact ⟨_, rfl, rfl, hcancelling, standing_moved h.enrolled h.backed h.tallied htallied hcol
      hcancelling hstands move due⟩
  | cancelled event => exact absurd (.inl event) hquiet

theorem followed_run (events : List (Event ε)) {p : Provider ε} {rs : List (Nat × Outcome ε Artifact)}
    (h : Followed p k filters rs) (hquiet : Undisturbed k p events) :
    Followed (p.run events) k filters (rs ++ p.reports k events) := by
  induction events generalizing p rs with
  | nil => simpa [reports, run] using h
  | cons e es ih =>
    rw [reports, ← List.append_assoc]
    exact ih (followed_step h hquiet.1) hquiet.2

end

/-- Callers ask for collections that there are. -/
def Placed (p : Provider ε) : Prop :=
  ∀ id k, AsksFor p id k → k < p.collections.length

theorem placed_step {p : Provider ε} (h : Placed p) (e : Event ε) : Placed (p.step e) := by
  intro id k hask
  have hlt : k < p.collections.length := by
    rcases asksFor_step hask with hold | ⟨-, col, hcol, -⟩
    · exact h id k hold
    · exact (List.getElem?_eq_some_iff.1 hcol).1
  have hstep := collectionStep p e k
  rw [List.getElem?_eq_getElem hlt] at hstep
  generalize hafter : (p.step e).collections[k]? = after at hstep
  cases hstep <;> exact (List.getElem?_eq_some_iff.1 hafter).1

theorem placed_run (c : Catalogue) (events : List (Event ε)) :
    Placed ((initial c : Provider ε).run events) :=
  run_induction (I := fun _ q => Placed q) events
    (fun id k ⟨caller, hcaller, _⟩ => by simp [initial] at hcaller) fun _ e _ h => placed_step h e

/-- A collection that someone has just asked for is followed from there on. -/
theorem followed_asked {p : Provider ε} (hsound : Sound p) (henrolled : Enrolled p)
    (hplaced : Placed p) (filters : Option ContentFilters) :
    Followed (p.step (.requestAll filters)) p.collections.length filters [] := by
  have hnobody : ∀ id, ¬ AsksFor (p.step (.requestAll filters)) id p.collections.length :=
    fun id hask => absurd (hplaced id _ hask) (Nat.lt_irrefl _)
  have henrolled' := enrolled_step henrolled (.requestAll filters)
  refine ⟨sound_step hsound _, henrolled', ⟨by simp, fun id => ?_⟩, ?_, ?_⟩
  · have hunfinished : (p.step (.requestAll filters)).hasFinished p.collections.length id = false :=
      eq_false_of_ne_true fun hyes => hnobody id (hasFinished_iff.1 hyes).1
    have hnone : (p.step (.requestAll filters)).ready.count (.report p.collections.length id) = 0 :=
      List.count_eq_zero.2 fun hmem => hnobody id (henrolled'.tasks _ hmem)
    rw [hunfinished, hnone]
    rfl
  · exact fun id c outcome hc hk _ => absurd ⟨c, hc, hk⟩ (hnobody id)
  · refine ⟨{ filters := filters }, List.getElem?_concat_length, rfl, rfl, .starting hnobody ?_⟩
    simp [step, requestAll, enqueue]

end Folio.Provider

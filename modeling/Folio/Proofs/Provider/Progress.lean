import Folio.Proofs.Provider.Delivery

set_option autoImplicit false

/-! # Turns come to an end

Every turn lowers the number of turns that are left (`turnBound_turn_lt`), whatever loaders answer in it. So
a provider that takes turns until there is nothing to do (`drain`) comes to a state in which nothing can
move, and in that state callers have the outcomes that they are owed. What the tables hold there is what users
of a provider rely on: what is in the cache has come from the loader of its page, nothing stays in flight
without a reason, and a load that fails leaves nothing behind. -/

namespace Folio.Provider

variable {ε : Type}

/-! ## Sums -/

section

variable {α : Type} (f : α → Nat)

theorem total_append (l l' : List α) : total f (l ++ l') = total f l + total f l' := by
  induction l with
  | nil => simp [total]
  | cons a rest ih => simp only [List.cons_append, total, ih, Nat.add_assoc]

theorem total_modify {l : List α} {i : Nat} {a : α} (g : α → α) (h : l[i]? = some a) :
    total f (l.modify i g) + f a = total f l + f (g a) := by
  induction l generalizing i with
  | nil => simp at h
  | cons b rest ih =>
    cases i with
    | zero =>
      obtain rfl : b = a := by simpa using h
      simp only [List.modify_zero_cons, total]
      omega
    | succ i =>
      have hrest := ih (i := i) (by simpa using h)
      simp only [List.modify_succ_cons, total]
      omega

theorem total_eq_of_forall {n : Nat} {l : List α} (h : ∀ a ∈ l, f a = n) :
    total f l = n * l.length := by
  induction l with
  | nil => rfl
  | cons a rest ih =>
    have hrest := ih fun b hb => h b (List.mem_cons_of_mem _ hb)
    rw [total, h a List.mem_cons_self, hrest, List.length_cons, Nat.mul_succ, Nat.add_comm]

end

theorem total_taskWork_map {α : Type} (task : α → Task) (h : ∀ a, taskWork (task a) = 1)
    (l : List α) : total taskWork (l.map task) = l.length := by
  rw [total_eq_of_forall taskWork (n := 1) (by simpa using fun a _ => h a), List.length_map,
    Nat.one_mul]

/-! ## Every turn lowers the bound -/

theorem total_loadWork_setLoad {p : Provider ε} {id : Nat} {l : Load ε} (hl : p.loads[id]? = some l)
    (stage : LoadStage ε) :
    total loadWork (p.setLoad id stage).loads + loadWork l
      = total loadWork p.loads + loadWork { l with stage := stage } :=
  total_modify loadWork _ hl

theorem total_callerWork_setCaller {p : Provider ε} {id : Nat} {c : Caller ε}
    (hc : p.callers[id]? = some c) (stage : CallerStage ε) :
    total callerWork (p.setCaller id stage).callers + callerWork c
      = total callerWork p.callers + callerWork { c with stage := stage } :=
  total_modify callerWork _ hc

theorem turnBound_finishLoad {p : Provider ε} {id : Nat} {l : Load ε} (hl : p.loads[id]? = some l)
    (hs : ∀ result, l.stage ≠ .finished result) (result : Except (LoadError ε) Artifact) :
    (p.finishLoad id l result).turnBound = p.turnBound := by
  have hload := total_loadWork_setLoad hl (.finished result)
  have hwork : loadWork l = l.callers.length + 1 := by
    unfold loadWork
    split
    · next result' h => exact absurd h (hs result')
    · rfl
  have hzero : loadWork { l with stage := .finished result } = 0 := rfl
  have htasks : total taskWork (.settle id :: l.callers.map (.deliver id)) = l.callers.length + 1 := by
    rw [total, total_taskWork_map _ (fun _ => rfl), Nat.add_comm]
    rfl
  rw [hwork, hzero] at hload
  simp only [turnBound, finishLoad, enqueue, total_append, htasks]
  simp only [setLoad] at hload ⊢
  omega

theorem turnBound_finishCaller {p : Provider ε} {id : Nat} {c : Caller ε}
    (hc : p.callers[id]? = some c) (hwork : 2 ≤ callerWork c) (outcome : Outcome ε Artifact) :
    (p.finishCaller id c outcome).turnBound ≤ p.turnBound := by
  have hcaller := total_callerWork_setCaller hc (.finished outcome)
  have hzero : callerWork { c with stage := .finished outcome } = 0 := rfl
  have hready : total taskWork (p.finishCaller id c outcome).ready ≤ total taskWork p.ready + 2 := by
    unfold finishCaller
    cases c.collection <;> simp [enqueue, total_append, total, taskWork, setCaller]
  have hbound : (p.finishCaller id c outcome).turnBound
      = total taskWork (p.finishCaller id c outcome).ready + total loadWork p.loads
        + total callerWork (p.setCaller id (.finished outcome)).callers
        + total (collectionWork p.catalogue.keys.length) p.collections := rfl
  rw [hzero] at hcaller
  rw [hbound, turnBound]
  omega

theorem total_collectionWork_setCollection {p : Provider ε} {k : Nat} {c : Collection ε}
    (slugs : Nat) (hc : p.collections[k]? = some c) (stage : CollectionStage ε) :
    total (collectionWork slugs) (p.setCollection k stage).collections + collectionWork slugs c
      = total (collectionWork slugs) p.collections + collectionWork slugs { c with stage := stage } :=
  total_modify (collectionWork slugs) _ hc

/-- Who joins a load adds one turn to what it leads to. -/
theorem loadWork_join {l : Load ε} (id : Nat) (hs : ∀ result, l.stage ≠ .finished result) :
    loadWork { l with callers := l.callers ++ [id] } = loadWork l + 1 := by
  obtain ⟨slug, stage, callers⟩ := l
  cases stage with
  | finished result => exact absurd rfl (hs result)
  | _ => simp [loadWork]

theorem length_of_mapM {α β δ : Type} {f : α → Except δ β} {l : List α} {l' : List β}
    (h : l.mapM f = .ok l') : l'.length = l.length := by
  induction l generalizing l' with
  | nil =>
    obtain rfl : [] = l' := by simpa [pure, Except.pure] using h
    rfl
  | cons a rest ih =>
    rw [List.mapM_cons] at h
    cases hfa : f a with
    | error e => simp [hfa, bind, Except.bind] at h
    | ok b =>
      cases hrest : rest.mapM f with
      | error e => simp [hfa, hrest, bind, Except.bind] at h
      | ok bs =>
        obtain rfl : b :: bs = l' := by simpa [hfa, hrest, bind, Except.bind, pure, Except.pure] using h
        rw [List.length_cons, List.length_cons, ih hrest]

/-- Performing a task lowers the bound, if the task is taken out of the queue. -/
theorem Effect.turnBound_lt {answer : String → Nat → Answer ε} {p q : Provider ε} {t : Task}
    (h : Effect answer p t q) : q.turnBound < p.turnBound + taskWork t := by
  have hpos : 0 < taskWork t := by cases t <;> simp [taskWork]
  have hle : q.turnBound ≤ p.turnBound → q.turnBound < p.turnBound + taskWork t :=
    fun hq => Nat.lt_of_le_of_lt hq (Nat.lt_add_of_pos_right hpos)
  -- what a part of the provider still leads to goes down by as much as the queue grows
  cases h with
  | idle => exact hle (Nat.le_refl _)
  | unresolved load starting =>
    exact hle (Nat.le_of_eq (turnBound_finishLoad load (by simp [starting]) _))
  | @called id l key load starting =>
    have hload := total_loadWork_setLoad load (.waiting key (p.callsOf key))
    have hwork : loadWork ({ l with stage := .waiting key (p.callsOf key) } : Load ε) = loadWork l := by
      simp [loadWork, starting]
    refine hle ?_
    simp only [turnBound]
    simp only [setLoad, hwork] at hload ⊢
    omega
  | returned load starting =>
    exact hle (Nat.le_of_eq (turnBound_finishLoad
      (p := { p with calls := withEntry _ _ p.calls }) load (by simp [starting]) _))
  | answered load answered =>
    exact hle (Nat.le_of_eq (turnBound_finishLoad load (by simp [answered]) _))
  | kept => exact hle (Nat.le_refl _)
  | dropped => exact hle (Nat.le_refl _)
  | @delivered loadId id l c result load finished caller waiting =>
    have hcaller := total_callerWork_setCaller caller (.ending (.ofResult result))
    have hbefore : callerWork c = 3 := by simp [callerWork, waiting]
    have hafter : callerWork { c with stage := .ending (.ofResult result) } = 2 := rfl
    refine hle ?_
    simp only [turnBound, enqueue, total_append, total, taskWork]
    simp only [setCaller, hbefore, hafter] at hcaller ⊢
    omega
  | cached caller starting =>
    exact hle (turnBound_finishCaller caller (by simp [callerWork, starting]) _)
  | given caller starting =>
    exact hle (turnBound_finishCaller caller (by simp [callerWork, starting]) _)
  | ended caller ending =>
    exact hle (turnBound_finishCaller caller (by simp [callerWork, ending]) _)
  | @joined id loadId c caller starting uncached inflight unfinished =>
    have hcaller := total_callerWork_setCaller caller (.waiting loadId)
    have hbefore : callerWork c = 6 := by simp [callerWork, starting]
    have hafter : callerWork ({ c with stage := .waiting loadId } : Caller ε) = 3 := rfl
    have hload : total loadWork (p.loads.modify loadId fun l =>
        { l with callers := l.callers ++ [id] }) ≤ total loadWork p.loads + 1 := by
      cases hl : p.loads[loadId]? with
      | none =>
        rw [List.modify_eq_self (List.getElem?_eq_none_iff.1 hl)]
        exact Nat.le_succ _
      | some l =>
        have hmodify := total_modify loadWork (fun l => { l with callers := l.callers ++ [id] }) hl
        have hmore := loadWork_join id (unfinished l · hl)
        omega
    refine hle ?_
    simp only [turnBound]
    simp only [setCaller, hbefore, hafter] at hcaller ⊢
    omega
  | @initiated id c caller starting =>
    have hcaller := total_callerWork_setCaller caller (.waiting p.loads.length)
    have hbefore : callerWork c = 6 := by simp [callerWork, starting]
    have hafter : callerWork ({ c with stage := .waiting p.loads.length } : Caller ε) = 3 := rfl
    have hload : loadWork ({ slug := c.slug, callers := [id] } : Load ε) = 2 := rfl
    refine hle ?_
    simp only [turnBound, initiate, enqueue, total_append, total, taskWork]
    simp only [setCaller, hbefore, hafter] at hcaller ⊢
    simp only [total_append, total, hload]
    omega
  | @gathered k c slugs collection starting known =>
    have hlength : slugs.length = p.catalogue.keys.length := length_of_mapM known
    have hcollection := total_collectionWork_setCollection p.catalogue.keys.length collection
      (.gathering ((List.range slugs.length).map (p.callers.length + ·)) slugs.length)
    have hbefore : collectionWork p.catalogue.keys.length c = 7 * p.catalogue.keys.length := by
      simp [collectionWork, starting]
    have hnew : total callerWork (slugs.map fun slug => (⟨slug, some k, .starting⟩ : Caller ε))
        = 6 * slugs.length := by
      rw [total_eq_of_forall callerWork (n := 6) (by simp [callerWork]), List.length_map]
    have htasks := total_taskWork_map Task.caller (fun _ => rfl)
      ((List.range slugs.length).map (p.callers.length + ·))
    rw [List.length_map, List.length_range] at htasks
    refine hle ?_
    simp only [turnBound, enqueue, setCollection, total_append, hnew, htasks]
    simp only [setCollection, hbefore] at hcollection
    simp only [collectionWork] at hcollection ⊢
    omega
  | @reported k callerId c ids left stage tasks collection gathering decided due =>
    have hcollection := total_collectionWork_setCollection p.catalogue.keys.length collection stage
    have hafter : collectionWork p.catalogue.keys.length { c with stage := stage } = 0 := by
      rcases decided with ⟨outcome, rfl⟩ | ⟨left', rfl⟩ <;> rfl
    have htasks : total taskWork tasks ≤ 1 := by
      rcases due with rfl | rfl <;> simp [total, taskWork]
    simp only [turnBound, enqueue, total_append]
    simp only [setCollection, hafter] at hcollection ⊢
    simp only [taskWork]
    omega
  | @concluded k c outcome collection =>
    have hcollection := total_collectionWork_setCollection p.catalogue.keys.length collection
      (.finished outcome)
    have hafter : collectionWork p.catalogue.keys.length { c with stage := .finished outcome } = 0 :=
      rfl
    refine hle ?_
    simp only [turnBound]
    simp only [setCollection, hafter] at hcollection ⊢
    omega

/-- A turn in which there is something to do lowers the bound. -/
theorem turnBound_turn_lt (answer : String → Nat → Answer ε) {p : Provider ε} (h : p.ready ≠ []) :
    (p.turn answer).turnBound < p.turnBound := by
  rcases turn_cases answer p with ⟨hnil, -⟩ | ⟨t, hhead, heffect⟩
  · exact absurd hnil h
  · obtain ⟨tasks, hready⟩ := List.head?_eq_some_iff.1 hhead
    have hrest : p.rest.turnBound + taskWork t = p.turnBound := by
      simp only [turnBound, rest, hready, List.tail_cons, total]
      omega
    exact hrest ▸ heffect.turnBound_lt

/-! ## Turns come to an end -/

theorem turns_ready (answer : String → Nat → Answer ε) {fuel : Nat} {p : Provider ε}
    (h : p.turnBound ≤ fuel) : (turns answer fuel p).ready = [] := by
  induction fuel generalizing p with
  | zero =>
    by_contra hne
    have hless : (p.turn answer).turnBound < p.turnBound := turnBound_turn_lt answer hne
    omega
  | succ fuel ih =>
    rw [turns]
    split
    · next hempty => exact List.isEmpty_iff.1 hempty
    · next hne =>
      refine ih (Nat.le_of_lt_succ (Nat.lt_of_lt_of_le (turnBound_turn_lt answer ?_) h))
      exact fun hnil => hne (List.isEmpty_iff.2 hnil)

/-- Taking turns until there is nothing to do comes to a state in which nothing can move. -/
theorem drain_ready (answer : String → Nat → Answer ε) (p : Provider ε) :
    (p.drain answer).ready = [] :=
  turns_ready answer (Nat.le_refl _)

theorem turns_eq_run (answer : String → Nat → Answer ε) (fuel : Nat) (p : Provider ε) :
    ∃ n, turns answer fuel p = p.run (List.replicate n (.turn answer)) := by
  induction fuel generalizing p with
  | zero => exact ⟨0, rfl⟩
  | succ fuel ih =>
    rw [turns]
    split
    · exact ⟨0, rfl⟩
    · obtain ⟨n, hn⟩ := ih (p.turn answer)
      exact ⟨n + 1, by rw [hn, List.replicate_succ]; rfl⟩

theorem spared_replicate_turn (id : Nat) (answer : String → Nat → Answer ε) (n : Nat)
    (p : Provider ε) : Spared id p (List.replicate n (.turn answer)) := by
  induction n generalizing p with
  | zero => trivial
  | succ n ih =>
    rw [List.replicate_succ]
    exact ⟨by simp [Cancels], ih _⟩

/-- Who is owed the outcome of a load has it after some turns, unless the load waits for its loader. -/
theorem rests_drain (answer : String → Nat → Answer ε) {p : Provider ε} (h : Sound p)
    {id loadId : Nat} (howed : Owed p id loadId) : Rests (p.drain answer) id loadId := by
  obtain ⟨n, hn⟩ := turns_eq_run answer p.turnBound p
  have hrun : p.drain answer = p.run (List.replicate n (.turn answer)) := hn
  have hquiet := drain_ready answer p
  rw [hrun] at hquiet ⊢
  exact owed_quiet (sound_run h _) (owed_run _ howed (spared_replicate_turn id answer n p)) hquiet

/-- A caller gets the outcome of a load: the caller is owed it, and has it when nothing can move, which
    some turns bring about, unless the load still waits for its loader then. -/
def Gets (p : Provider ε) (id loadId : Nat) : Prop :=
  Owed p id loadId ∧ (p.ready = [] → Rests p id loadId) ∧ ∀ answer, Rests (p.drain answer) id loadId

theorem gets_of_owed {p : Provider ε} (h : Sound p) {id loadId : Nat} (howed : Owed p id loadId) :
    Gets p id loadId :=
  ⟨howed, owed_quiet h howed, fun answer => rests_drain answer h howed⟩

/-! ## What the tables hold -/

theorem lookup_isSome_of_mem_keys {α : Type} {key : String} {table : List (String × α)}
    (h : key ∈ table.map Prod.fst) : (table.lookup key).isSome := by
  induction table with
  | nil => simp at h
  | cons e rest ih =>
    obtain ⟨k, v⟩ := e
    rw [List.lookup_cons]
    by_cases hk : key = k
    · simp [hk]
    · rw [beq_eq_false_iff_ne.2 hk]
      exact ih ((List.mem_cons.1 h).resolve_left hk)

theorem eq_nil_of_lookup {α : Type} {table : List (String × α)}
    (h : ∀ key, table.lookup key = none) : table = [] := by
  cases table with
  | nil => rfl
  | cons e rest =>
    have hsome : ((e :: rest).lookup e.1).isSome := lookup_isSome_of_mem_keys (by simp)
    simp [h e.1] at hsome

/-- When nothing can move, and no load waits for its loader, nothing is in flight. -/
theorem inflight_eq_nil {p : Provider ε} (h : Sound p) (hquiet : p.ready = [])
    (hanswered : ∀ (id : Nat) l key n, p.loads[id]? = some l → l.stage ≠ .waiting key n) :
    p.inflight = [] := by
  refine eq_nil_of_lookup fun slug => ?_
  cases hin : p.inflight.lookup slug with
  | none => rfl
  | some id =>
    obtain ⟨⟨l, hl, -⟩, -⟩ := h.inflight slug id hin
    rcases load_quiet h hquiet hl with ⟨key, n, hw⟩ | ⟨result, hs⟩
    · exact absurd hw (hanswered id l key n hl)
    · have hdue := h.settle_due slug id l result hin hl hs
      simp [hquiet] at hdue

/-- Once a load that has failed is settled, the tables hold for its slug what newer loads have
    brought. -/
theorem newer_of_failed {p : Provider ε} (h : Sound p) {id : Nat} {l : Load ε} {error : LoadError ε}
    (hl : p.loads[id]? = some l) (hs : l.stage = .finished (.error error))
    (hsettled : .settle id ∉ p.ready) :
    (∀ newer, p.inflight.lookup l.slug = some newer → id < newer) ∧
      ∀ a, p.cache.lookup l.slug = some a → ∃ newer k, id < newer ∧ p.loads[newer]? = some k ∧
        k.slug = l.slug ∧ k.stage = .finished (.ok a) := by
  refine ⟨?_, ?_⟩
  · intro newer hin
    have hle := (h.inflight l.slug newer hin).2 id l hl rfl
    refine Nat.lt_of_le_of_ne hle fun heq => hsettled ?_
    subst heq
    exact h.settle_due l.slug id l _ hin hl hs
  · intro a ha
    obtain ⟨newer, k, ⟨⟨k', hk', hslug⟩, hlatest⟩, hk, hstage⟩ := h.cached l.slug a ha
    obtain rfl : k = k' := Option.some.inj (hk.symm.trans hk')
    refine ⟨newer, k, Nat.lt_of_le_of_ne (hlatest id l hl rfl) fun heq => ?_, hk, hslug, hstage⟩
    subst heq
    obtain rfl := Option.some.inj (hl.symm.trans hk)
    simp [hs] at hstage

/-- In every reachable state of a provider:

    * no slug is a key of both tables;
    * what the cache holds for a slug has come from the loader for the key of the slug;
    * a load in flight is one of its slug that is not settled yet, and when nothing can move and all
      loaders have answered, no load is in flight;
    * who has joined a load has joined no other, and gets its outcome unless it is cancelled;
    * a load that has failed, once it is settled, has left its slug in neither table: what they hold for
      it is a newer load, or what a newer load has brought. -/
theorem tables_are_consistent (c : Catalogue) (events : List (Event ε)) :
    let p := (initial c : Provider ε).run events
    let h := (initial c : Provider ε).history events
    (p.cache.map Prod.fst).Disjoint (p.inflight.map Prod.fst) ∧
    (∀ slug a, p.cache.lookup slug = some a → Produced c h 0 slug a) ∧
    (∀ slug id, p.inflight.lookup slug = some id → ∃ l, p.loads[id]? = some l ∧ l.slug = slug ∧
      ∀ result, l.stage = .finished result → .settle id ∈ p.ready) ∧
    (p.ready = [] → (∀ (id : Nat) l key n, p.loads[id]? = some l → l.stage ≠ .waiting key n) →
      p.inflight = []) ∧
    (∀ id loadId, .joined id loadId ∈ h → (∀ other, .joined id other ∈ h → other = loadId) ∧
      (Spared id (initial c) events → Gets p id loadId)) ∧
    (∀ (id : Nat) l error, p.loads[id]? = some l → l.stage = .finished (.error error) →
      .settle id ∉ p.ready →
      (∀ newer, p.inflight.lookup l.slug = some newer → id < newer) ∧
      ∀ a, p.cache.lookup l.slug = some a → ∃ newer k, id < newer ∧ p.loads[newer]? = some k ∧
        k.slug = l.slug ∧ k.stage = .finished (.ok a)) := by
  intro p h
  have hsound : Sound p := sound_run_initial c events
  refine ⟨?_, ?_, ?_, inflight_eq_nil hsound, ?_, fun id l error => newer_of_failed hsound⟩
  · intro slug hcached hinflight
    rcases hsound.disjoint slug with hnone | hnone
    · have := lookup_isSome_of_mem_keys hcached
      simp [hnone] at this
    · have := lookup_isSome_of_mem_keys hinflight
      simp [hnone] at this
  · intro slug a ha
    obtain ⟨id, l, ⟨⟨l', hl', rfl⟩, -⟩, hl, hs⟩ := hsound.cached slug a ha
    obtain rfl : l = l' := Option.some.inj (hl.symm.trans hl')
    exact produced_of_finished (p := initial c) (Nat.zero_le id) hl hs
  · intro slug id hin
    obtain ⟨⟨l, hl, hslug⟩, -⟩ := hsound.inflight slug id hin
    exact ⟨l, hl, hslug, fun result hs => hsound.settle_due slug id l result hin hl hs⟩
  · intro id loadId hjoin
    refine ⟨fun other hother => joined_once events hother hjoin, fun hspared => ?_⟩
    exact gets_of_owed hsound (owed_of_history events (sound_initial c) hjoin hspared)

/-- Two callers share a load that fails; a third one starts another load, which brings the page. -/
def retried : List (Event String) :=
  [.request "a", .request "a", pause, pause, outage, pause, pause, pause, pause, pause,
    .request "a", pause, reply "new", pause, pause, pause]

/-- The callers who shared the load have its failure, and the cache has what the other load brought. -/
theorem tables_after_retry :
    let p := (initial onePage).run retried
    Produced onePage ((initial onePage).history retried) 0 "a" (compiled "new") ∧
      p.inflight = [] ∧ Rests p 0 0 ∧ Rests p 1 0 ∧
      ∃ newer k, 0 < newer ∧ p.loads[newer]? = some k ∧ k.slug = "a" ∧
        k.stage = .finished (.ok (compiled "new")) := by
  intro p
  have hloads : ((initial onePage).run retried).loads
      = [⟨"a", .finished (.error (.loader "down")), [0, 1]⟩,
        ⟨"a", .finished (.ok (compiled "new")), [2]⟩] := rfl
  have hready : ((initial onePage).run retried).ready = [] := rfl
  have hhistory : (initial onePage).history retried = [.joined 0 0, .joined 1 0,
      .called 0 "a" "@content/a.md", .answered 0 (.error "down"), .joined 2 1,
      .called 1 "a" "@content/a.md", .answered 1 (.ok (compiled "new"))] := rfl
  have hspared : ∀ id, Spared id (initial onePage) retried := fun id => by
    simp [retried, pause, reply, outage, Spared, Cancels]
  obtain ⟨-, hcache, -, hquiet, hjoined, hfailed⟩ := tables_are_consistent onePage retried
  refine ⟨hcache "a" (compiled "new") rfl, hquiet hready ?_, ?_, ?_, ?_⟩
  · intro id l key n hl
    rw [hloads] at hl
    have hmem := List.mem_of_getElem? hl
    simp only [List.mem_cons, List.not_mem_nil, or_false] at hmem
    rcases hmem with rfl | rfl <;> simp
  · exact ((hjoined 0 0 (by simp [hhistory])).2 (hspared 0)).2.1 hready
  · exact ((hjoined 1 0 (by simp [hhistory])).2 (hspared 1)).2.1 hready
  · exact (hfailed 0 _ _ (by rw [hloads]; rfl) rfl (by simp [hready])).2 (compiled "new") rfl

end Folio.Provider

import Folio.Proofs.Provider.Invariant

set_option autoImplicit false

/-! # How often loads call loaders

A load calls its loader once at most, and a load is started only when its slug is neither in the cache
nor in flight. So a slug is loaded once, and once more for every invalidation and every failure. The
balance that a step keeps (`balance_step`) counts a slug as held while it is in the cache, or in flight
with a load that has not failed: it then needs no new load until something happens to it. -/

namespace Folio

variable {ε : Type}

/-- A load of a slug. -/
def Load.isOf (slug : String) (l : Load ε) : Bool :=
  l.slug == slug

/-- A load that has ended in failure. -/
def Load.hasFailed (l : Load ε) : Bool :=
  match l.stage with
  | .finished (.error _) => true
  | _ => false

/-- A load that has not called its loader yet. -/
def Load.isStarting (l : Load ε) : Bool :=
  match l.stage with
  | .starting => true
  | _ => false

namespace Provider

/-- How many loads of a slug there have been. -/
def loadCount (p : Provider ε) (slug : String) : Nat :=
  p.loads.countP (Load.isOf slug)

/-- How many loads of a slug have ended in failure. -/
def failureCount (p : Provider ε) (slug : String) : Nat :=
  p.loads.countP fun l => l.isOf slug && l.hasFailed

/-- How many loads of a slug have not called their loader yet. -/
def startingCount (p : Provider ε) (slug : String) : Nat :=
  p.loads.countP fun l => l.isOf slug && l.isStarting

/-- How many calls of loaders a history has by loads of a slug. -/
def callCount (slug : String) (h : List (Occurrence ε)) : Nat :=
  h.countP (Occurrence.isCallFor slug)

/-- Whether a slug is in the cache, or in flight with a load that has not failed. -/
def isHeld (p : Provider ε) (slug : String) : Bool :=
  (p.cache.lookup slug).isSome ||
    (p.inflight.lookup slug).any fun id => !(p.loads[id]?).any Load.hasFailed

theorem ite_eq_toNat (b : Bool) : (if b then 1 else 0) = b.toNat := by
  cases b <;> rfl

/-- The elements of which something holds, when one of them is replaced. -/
theorem countP_set_add {α : Type} {l : List α} {i : Nat} {a b : α} (f : α → Bool)
    (h : l[i]? = some a) : (l.set i b).countP f + (f a).toNat = l.countP f + (f b).toNat := by
  obtain ⟨hi, rfl⟩ := List.getElem?_eq_some_iff.1 h
  have hle : (f l[i]).toNat ≤ l.countP f := by
    by_cases hf : f l[i]
    · rw [hf]
      exact List.countP_pos_iff.2 ⟨l[i], List.getElem_mem hi, hf⟩
    · simp [hf]
  rw [List.countP_set hi, ite_eq_toNat, ite_eq_toNat]
  omega

/-- What holds of the elements of a list holds of as many elements of a list that keeps them. -/
theorem countP_le_of_kept {α : Type} {f : α → Bool} {l l' : List α}
    (h : ∀ (i : Nat) a, l[i]? = some a → f a → ∃ b, l'[i]? = some b ∧ f b) :
    l.countP f ≤ l'.countP f := by
  induction l generalizing l' with
  | nil => simp
  | cons a rest ih =>
    cases l' with
    | nil =>
      refine Nat.le_of_eq (List.countP_eq_zero.2 fun x hx hfx => ?_)
      obtain ⟨i, hi⟩ := List.getElem?_of_mem hx
      obtain ⟨b, hb, -⟩ := h i x hi hfx
      simp at hb
    | cons b rest' =>
      have hrest : rest.countP f ≤ rest'.countP f := ih fun i x hx hfx => h (i + 1) x hx hfx
      rw [List.countP_cons, List.countP_cons]
      by_cases hfa : f a
      · obtain ⟨b', hb', hfb⟩ := h 0 a rfl hfa
        obtain rfl : b = b' := by simpa using hb'
        rw [if_pos hfa, if_pos hfb]
        exact Nat.add_le_add_right hrest 1
      · rw [if_neg hfa, Nat.add_zero]
        exact Nat.le_add_right_of_le hrest

/-! ## Loads -/

/-- A step starts a load of a slug only when the slug is neither in the cache nor in flight. -/
theorem loadCount_step (p : Provider ε) (e : Event ε) (slug : String) :
    (p.step e).loadCount slug = p.loadCount slug ∨
      (p.step e).loadCount slug = p.loadCount slug + 1 ∧ p.cache.lookup slug = none ∧
        p.inflight.lookup slug = none ∧ (p.step e).inflight.lookup slug = some p.loads.length := by
  cases loadsStep p e with
  | same loads => exact .inl (by simp [loadCount, loads])
  | @registered id c _ _ _ uncached absent inflight loads =>
    by_cases hslug : c.slug = slug
    · subst hslug
      exact .inr ⟨by simp [loadCount, loads, Load.isOf], uncached, absent, inflight⟩
    · exact .inl (by simp [loadCount, loads, Load.isOf, hslug])
  | @joined id loadId l _ load _ loads =>
    have hcount := countP_set_add (b := { l with callers := l.callers ++ [id] }) (Load.isOf slug) load
    refine .inl ?_
    rw [loadCount, loads]
    exact Nat.add_right_cancel hcount
  | @moved id l stage load _ loads =>
    have hcount := countP_set_add (b := { l with stage := stage }) (Load.isOf slug) load
    refine .inl ?_
    rw [loadCount, loads]
    exact Nat.add_right_cancel hcount

theorem hasFailed_iff {l : Load ε} : l.hasFailed ↔ ∃ error, l.stage = .finished (.error error) := by
  unfold Load.hasFailed
  split
  · next error hs => simp [hs]
  · next hno => simpa using hno

theorem hasFailed_stays {p : Provider ε} {id : Nat} {l : Load ε} (hl : p.loads[id]? = some l)
    (hf : l.hasFailed) (e : Event ε) : (p.step e).loads[id]? = some l := by
  obtain ⟨error, hs⟩ := hasFailed_iff.1 hf
  exact finished_stays hl hs e

theorem failureCount_step (p : Provider ε) (e : Event ε) (slug : String) :
    p.failureCount slug ≤ (p.step e).failureCount slug := by
  refine countP_le_of_kept fun id l hl hf => ?_
  simp only [Bool.and_eq_true] at hf
  exact ⟨l, hasFailed_stays hl hf.2 e, by simpa using hf⟩

/-- When a load of a slug fails, one more has failed. -/
theorem failureCount_step_of_failed {p : Provider ε} {e : Event ε} {id : Nat} {l l' : Load ε}
    (hl : p.loads[id]? = some l) (hl' : (p.step e).loads[id]? = some l') (hslug : l'.slug = l.slug)
    (hno : ¬ l.hasFailed) (hf : l'.hasFailed) :
    p.failureCount l.slug < (p.step e).failureCount l.slug := by
  have hset := countP_set_add (b := l') (fun k => k.isOf l.slug && k.hasFailed) hl
  have hkept : (p.loads.set id l').countP (fun k => k.isOf l.slug && k.hasFailed)
      ≤ (p.step e).failureCount l.slug := by
    refine countP_le_of_kept fun i k hk hfk => ?_
    simp only [Bool.and_eq_true] at hfk
    rw [List.getElem?_set] at hk
    by_cases hi : id = i
    · subst hi
      rw [if_pos rfl, if_pos (List.getElem?_eq_some_iff.1 hl).1] at hk
      obtain rfl := Option.some.inj hk
      exact ⟨l', hl', by simpa using hfk⟩
    · rw [if_neg hi] at hk
      exact ⟨k, hasFailed_stays hk hfk.2 e, by simpa using hfk⟩
  have hbefore : (l.isOf l.slug && l.hasFailed) = false := by simp [hno]
  have hafter : (l'.isOf l.slug && l'.hasFailed) = true := by simp [Load.isOf, hslug, hf]
  simp only [hbefore, hafter, Bool.toNat_false, Bool.toNat_true, Nat.add_zero] at hset
  rw [hset] at hkept
  exact hkept

/-! ## The balance -/

theorem isHeld_of_inflight {p : Provider ε} {slug : String} {id : Nat} {l : Load ε}
    (hcache : p.cache.lookup slug = none) (hinflight : p.inflight.lookup slug = some id)
    (hl : p.loads[id]? = some l) : p.isHeld slug = !l.hasFailed := by
  simp [isHeld, hcache, hinflight, hl]

/-- A step in which the entries for a slug stay as they are: the slug is held on, unless its load
    fails. -/
theorem held_step {p : Provider ε} (h : Sound p) {e : Event ε} {slug : String}
    (hcache : (p.step e).cache.lookup slug = p.cache.lookup slug)
    (hinflight : (p.step e).inflight.lookup slug = p.inflight.lookup slug) :
    p.failureCount slug + (p.isHeld slug).toNat
      ≤ (p.step e).failureCount slug + ((p.step e).isHeld slug).toNat := by
  have hmono := failureCount_step p e slug
  cases hc : p.cache.lookup slug with
  | some a =>
    have hp : p.isHeld slug = true := by simp [isHeld, hc]
    have hq : (p.step e).isHeld slug = true := by simp [isHeld, hcache, hc]
    rw [hp, hq]
    exact Nat.add_le_add_right hmono _
  | none =>
    cases hin : p.inflight.lookup slug with
    | none =>
      have hp : p.isHeld slug = false := by simp [isHeld, hc, hin]
      rw [hp]
      exact Nat.le_add_right_of_le hmono
    | some id =>
      obtain ⟨⟨l, hl, rfl⟩, -⟩ := h.inflight slug id hin
      obtain ⟨l', hl', hslug⟩ := load_stays hl e
      rw [isHeld_of_inflight hc hin hl, isHeld_of_inflight (hcache.trans hc) (hinflight.trans hin) hl']
      by_cases hf : l.hasFailed
      · obtain rfl := Option.some.inj ((hasFailed_stays hl hf e).symm.trans hl')
        exact Nat.add_le_add_right hmono _
      · by_cases hf' : l'.hasFailed
        · have hlt := failureCount_step_of_failed hl hl' hslug hf hf'
          simpa [hf, hf'] using Nat.succ_le_of_lt hlt
        · simpa [hf, hf'] using hmono

/-- What a step keeps: a slug that is not held has had no more loads than invalidations and failures,
    and one that is held has had one more at most. -/
theorem balance_step {p : Provider ε} (h : Sound p) (e : Event ε) {slug : String} {n : Nat}
    (hp : p.loadCount slug ≤ n + p.failureCount slug + (p.isHeld slug).toNat) :
    (p.step e).loadCount slug ≤ n + (e.invalidates slug).toNat + (p.step e).failureCount slug
      + ((p.step e).isHeld slug).toNat := by
  have hmono := failureCount_step p e slug
  have hload := loadCount_step p e slug
  -- no load is started unless it is in flight then
  have hcount : (p.step e).inflight.lookup slug ≠ some p.loads.length ∨ p.inflight.lookup slug ≠ none →
      (p.step e).loadCount slug = p.loadCount slug := by
    rintro (hno | hno)
    · exact hload.resolve_right fun hr => hno hr.2.2.2
    · exact hload.resolve_right fun hr => hno hr.2.2.1
  cases tablesStep p e slug with
  | same cache inflight =>
    have hheld := held_step h cache inflight
    have hsame : (p.step e).loadCount slug = p.loadCount slug := by
      refine hload.resolve_right fun hr => ?_
      rw [inflight, hr.2.2.1] at hr
      simp at hr
    rw [hsame]
    omega
  | dropped event cache inflight =>
    rw [hcount (.inl (by simp [inflight])), event]
    have hle := Bool.toNat_le (p.isHeld slug)
    simp only [Bool.toNat_true]
    omega
  | kept _ _ _ _ was cache =>
    have hq : (p.step e).isHeld slug = true := by simp [isHeld, cache]
    rw [hcount (.inr (by simp [was])), hq]
    have hle := Bool.toNat_le (p.isHeld slug)
    simp only [Bool.toNat_true]
    omega
  | failed _ load _ finished was =>
    have hnone : p.cache.lookup slug = none := (h.disjoint slug).resolve_right (by simp [was])
    have hheld : p.isHeld slug = false := by
      rw [isHeld_of_inflight hnone was load, hasFailed_iff.2 ⟨_, finished⟩]
      rfl
    rw [hcount (.inr (by simp [was]))]
    simp only [hheld, Bool.toNat_false] at hp
    omega
  | registered _ _ _ _ uncached absent cache inflight loads =>
    have hheld : p.isHeld slug = false := by simp [isHeld, uncached, absent]
    have hq : (p.step e).isHeld slug = true := by
      rw [isHeld_of_inflight cache inflight (by rw [loads, List.getElem?_concat_length])]
      rfl
    simp only [hheld, Bool.toNat_false] at hp
    simp only [hq, Bool.toNat_true]
    omega

theorem loadCount_run (c : Catalogue) (events : List (Event ε)) (slug : String) :
    ((initial c).run events).loadCount slug ≤ events.countP (Event.invalidates slug)
      + ((initial c).run events).failureCount slug + (((initial c).run events).isHeld slug).toNat := by
  refine (run_induction (I := fun done q => Sound q ∧ q.loadCount slug ≤
    done.countP (Event.invalidates slug) + q.failureCount slug + (q.isHeld slug).toNat) events
    ⟨sound_initial c, Nat.zero_le _⟩ ?_).2
  rintro done e - ⟨hsound, hq⟩
  refine ⟨sound_step hsound e, ?_⟩
  have hnext := balance_step hsound e hq
  rw [List.countP_append, List.countP_singleton, ite_eq_toNat]
  exact hnext

/-! ## Calls -/

theorem isStarting_eq_false {l : Load ε} (h : l.stage ≠ .starting) : l.isStarting = false := by
  unfold Load.isStarting
  split
  · next hs => exact absurd hs h
  · rfl

theorem callCount_occurrences_le (p : Provider ε) (e : Event ε) (slug : String) :
    callCount slug (p.occurrences e) ≤ 1 := by
  cases e with
  | receive id result =>
    simp only [occurrences]
    split <;> simp [callCount, Occurrence.isCallFor]
  | turn answer =>
    simp only [occurrences]
    split
    · unfold loadOccurrences
      split
      · split
        · simp [callCount]
        · split <;> simp [callCount, List.countP_cons, Occurrence.isCallFor] <;> split <;> simp
      · simp [callCount]
    · unfold callerOccurrences
      split
      · split <;> simp [callCount, Occurrence.isCallFor]
      · simp [callCount]
    · simp [callCount]
  | _ => simp [occurrences, callCount]

/-- In a step with a call by a load of a slug, the first task is that load, and it starts. -/
theorem callCount_occurrences_pos {p : Provider ε} {e : Event ε} {slug : String}
    (h : callCount slug (p.occurrences e) ≠ 0) : ∃ load callers, p.task? e = some (.load load) ∧
      p.loads[load]? = some ⟨slug, .starting, callers⟩ := by
  obtain ⟨o, ho, hcall⟩ := List.countP_pos_iff.1 (Nat.pos_of_ne_zero h)
  cases o with
  | called load s key =>
    obtain rfl : s = slug := by simpa [Occurrence.isCallFor] using hcall
    obtain ⟨turn, -, callers, hl⟩ := mem_occurrences_called ho
    exact ⟨load, callers, turn, hl⟩
  | _ => simp [Occurrence.isCallFor] at hcall

/-- A load that calls its loader is not starting any more. -/
theorem callCount_step (p : Provider ε) (e : Event ε) (slug : String) :
    callCount slug (p.occurrences e) + (p.step e).startingCount slug + p.loadCount slug
      ≤ p.startingCount slug + (p.step e).loadCount slug := by
  have hcall : (∀ load callers, p.task? e = some (.load load) →
      p.loads[load]? ≠ some ⟨slug, .starting, callers⟩) → callCount slug (p.occurrences e) = 0 := by
    intro hno
    by_contra hne
    obtain ⟨load, callers, turn, hl⟩ := callCount_occurrences_pos hne
    exact hno load callers turn hl
  cases loadsStep p e with
  | same loads idle =>
    rw [hcall fun load callers turn hl => (idle load _ turn hl).1 rfl]
    simp [startingCount, loadCount, loads]
  | @registered id c turn _ _ _ _ _ loads =>
    rw [hcall fun load callers turn' _ => absurd (turn.symm.trans turn') (by simp)]
    simp only [startingCount, loadCount, loads, List.countP_append, List.countP_singleton,
      Load.isStarting, Bool.and_true]
    omega
  | @joined id loadId l turn load _ loads =>
    rw [hcall fun load callers turn' _ => absurd (turn.symm.trans turn') (by simp)]
    have hstarting := countP_set_add (b := { l with callers := l.callers ++ [id] })
      (fun k => k.isOf slug && k.isStarting) load
    have hcount := countP_set_add (b := { l with callers := l.callers ++ [id] }) (Load.isOf slug) load
    simp only [startingCount, loadCount, loads]
    simp only [Load.isOf, Load.isStarting] at hstarting hcount ⊢
    omega
  | @moved id l stage load move loads =>
    have hstarting := countP_set_add (b := { l with stage := stage })
      (fun k => k.isOf slug && k.isStarting) load
    have hcount := countP_set_add (b := { l with stage := stage }) (Load.isOf slug) load
    have hafter : ({ l with stage := stage } : Load ε).isStarting = false :=
      isStarting_eq_false move.started
    simp only [startingCount, loadCount, loads]
    simp only [hafter, Bool.and_false, Bool.toNat_false] at hstarting
    have hsame : (p.loads.set id { l with stage := stage }).countP (Load.isOf slug)
        = p.loads.countP (Load.isOf slug) := Nat.add_right_cancel hcount
    by_cases hnone : callCount slug (p.occurrences e) = 0
    · omega
    · obtain ⟨load', callers, turn, hl⟩ := callCount_occurrences_pos hnone
      have hid : load' = id := by
        rcases move.task with ht | ht
        · simpa using turn.symm.trans ht
        · exact absurd (turn.symm.trans ht) (by simp)
      obtain rfl : l = ⟨slug, .starting, callers⟩ := Option.some.inj (load.symm.trans (hid ▸ hl))
      have hbefore : ((⟨slug, .starting, callers⟩ : Load ε).isOf slug
          && (⟨slug, .starting, callers⟩ : Load ε).isStarting).toNat = 1 := by
        simp [Load.isOf, Load.isStarting]
      have hle := callCount_occurrences_le p e slug
      omega

theorem callCount_run (c : Catalogue) (events : List (Event ε)) (slug : String) :
    callCount slug ((initial c).history events) ≤ ((initial c).run events).loadCount slug := by
  have hrun := run_induction (p := initial c) (I := fun done q =>
      callCount slug ((initial c).history done) + q.startingCount slug ≤ q.loadCount slug) events
    (Nat.zero_le _) fun done e _ hq => by
      have hnext := callCount_step ((initial c).run done) e slug
      have happend : callCount slug ((initial c).history done
            ++ ((initial c).run done).occurrences e)
          = callCount slug ((initial c).history done)
            + callCount slug (((initial c).run done).occurrences e) := List.countP_append
      rw [history_concat, happend]
      omega
  exact Nat.le_trans (Nat.le_add_right _ _) hrun

/-! ## Deduplication -/

theorem resolve_of_keyFor {p : Provider ε} {slug key : String}
    (h : p.catalogue.keyFor slug = .ok (some key)) : p.resolve slug = .ok key := by
  simp [resolve, h, Except.mapError, bind, Except.bind, pure, Except.pure]

/-- A load that is started for a slug with a key calls the loader for this key, once: until then it
    waits in the queue. -/
theorem called_once {p q : Provider ε} {h : List (Occurrence ε)} {id : Nat} {l : Load ε} {key : String}
    (hsound : Sound q) (hl : q.loads[id]? = some l) (hex : Explained p h id l.slug l.stage)
    (hkey : p.resolve l.slug = .ok key) :
    callsBy id h = [.called id l.slug key] ∨ callsBy id h = [] ∧ .load id ∈ q.ready := by
  have hsame : ∀ {k}, p.resolve l.slug = .ok k → k = key := fun hk =>
    Except.ok.inj (hk.symm.trans hkey)
  obtain ⟨slug, stage, callers⟩ := l
  cases hex with
  | starting calls => exact .inr ⟨calls, hsound.load_due id _ hl (.inl rfl)⟩
  | waiting known calls => exact .inl (hsame known ▸ calls)
  | answered known calls => exact .inl (hsame known ▸ calls)
  | finished known calls => exact .inl (hsame known ▸ calls)
  | unresolved unknown => exact absurd (hkey.symm.trans unknown) (by simp)

/-- A caller whose page is neither in the cache nor in flight starts a load in its first turn. -/
theorem turn_of_absent {answer : String → Nat → Answer ε} {p : Provider ε} {id : Nat} {k : Caller ε}
    (hhead : p.ready.head? = some (.caller id)) (hk : p.callers[id]? = some k)
    (hs : k.stage = .starting) (hcache : p.cache.lookup k.slug = none)
    (hinflight : p.inflight.lookup k.slug = none) :
    p.step (.turn answer) = p.rest.initiate id k.slug := by
  obtain ⟨tasks, hready⟩ := List.head?_eq_some_iff.1 hhead
  simp only [step, turn, hready, perform, turnCaller, hk, hs, startCaller, hcache, hinflight, rest,
    List.tail_cons]

/-- In every run the calls of loaders, which the provider counts, are by loads of a slug not more than
    the events that invalidate the slug and the loads of the slug that have failed, and one more. And
    whenever a caller takes its first turn, and its slug has a key and is neither in the cache nor in
    flight, the caller starts one load, and whatever happens later this load calls the loader for the
    key exactly once: it has called it, or is about to. -/
theorem loads_are_shared (c : Catalogue) (events : List (Event ε)) :
    let p := (initial c : Provider ε).run events
    let h := (initial c : Provider ε).history events
    (∀ key, p.callsOf key = h.countP (Occurrence.isCallTo key)) ∧
    (∀ slug, callCount slug h
      ≤ 1 + events.countP (Event.invalidates slug) + p.failureCount slug) ∧
    ∀ answer id k key, p.ready.head? = some (.caller id) → p.callers[id]? = some k →
      k.stage = .starting → p.cache.lookup k.slug = none → p.inflight.lookup k.slug = none →
      c.keyFor k.slug = .ok (some key) →
      let q := p.step (.turn answer)
      q.loads = p.loads ++ [⟨k.slug, .starting, [id]⟩] ∧
      p.occurrences (.turn answer) = [.joined id p.loads.length] ∧
      ∀ after, callsBy p.loads.length (q.history after) = [.called p.loads.length k.slug key] ∨
        callsBy p.loads.length (q.history after) = [] ∧ .load p.loads.length ∈ (q.run after).ready := by
  intro p h
  refine ⟨?_, ?_, ?_⟩
  · intro key
    rw [callsOf_run, show callsOf (initial c : Provider ε) key = 0 from rfl, Nat.zero_add]
  · intro slug
    -- every load calls its loader once at most, and loads are balanced by what ended them
    have hcalls := callCount_run c events slug
    have hloads := loadCount_run c events slug
    have hheld := Bool.toNat_le (((initial c).run events).isHeld slug)
    show callCount slug ((initial c).history events)
      ≤ 1 + _ + ((initial c).run events).failureCount slug
    omega
  · intro answer id k key hhead hk hs hcache hinflight hkey
    have hsound : Sound p := sound_run_initial c events
    have hcat : p.catalogue = c := catalogue_run _ events
    have hstep : p.step (.turn answer) = p.rest.initiate id k.slug :=
      turn_of_absent hhead hk hs hcache hinflight
    intro q
    have hloads : q.loads = p.loads ++ [⟨k.slug, .starting, [id]⟩] := congrArg Provider.loads hstep
    have hocc : p.occurrences (.turn answer) = [.joined id p.loads.length] := by
      obtain ⟨slug, collection, stage⟩ := k
      obtain rfl : stage = .starting := hs
      simp only [occurrences, hhead, callerOccurrences, hk, hcache, hinflight, Option.getD_none]
    refine ⟨hloads, hocc, ?_⟩
    intro after
    have hfirst : q.loads[p.loads.length]? = some ⟨k.slug, .starting, [id]⟩ := by
      rw [hloads, List.getElem?_concat_length]
    obtain ⟨l, hl, hslug⟩ := load_stays_run hfirst after
    have hex := explained_run p (.turn answer :: after) (Nat.le_refl _) hl
    have hresolve : p.resolve l.slug = .ok key := by
      rw [hslug]
      exact resolve_of_keyFor (hcat ▸ hkey)
    have honce := called_once (sound_run (sound_step hsound (.turn answer)) after) hl hex hresolve
    rw [history, hocc, hslug] at honce
    exact honce

/-- A page that is loaded three times: its first load fails, and the second is invalidated. -/
def reloads : List (Event String) :=
  [.request "a", pause, outage, pause, pause, pause,
    .request "a", pause, reply "old", pause, pause, pause, .invalidate none,
    .request "a", pause, reply "new"]

/-- No smaller bound would do for these loads, and the first of them calls its loader once. -/
theorem reloads_reach_bound :
    let p := (initial onePage).run reloads
    callCount "a" ((initial onePage).history reloads) = 3 ∧
      3 ≤ 1 + reloads.countP (Event.invalidates "a") + p.failureCount "a" ∧
      1 + reloads.countP (Event.invalidates "a") + p.failureCount "a" = 3 ∧
      callsBy 0 ((((initial onePage).run [.request "a"]).step pause).history [pause, pause])
        = [.called 0 "a" "@content/a.md"] := by
  intro p
  obtain ⟨-, hbound, -⟩ := loads_are_shared onePage reloads
  obtain ⟨-, -, hstarts⟩ := loads_are_shared onePage [(.request "a" : Event String)]
  obtain ⟨-, -, honce⟩ := hstarts (fun _ _ => .later) 0 ⟨"a", none, .starting⟩ "@content/a.md"
    rfl rfl rfl rfl rfl rfl
  have hquiet : ((((initial onePage).run [.request "a"]).step pause).run [pause, pause]).ready = [] :=
    rfl
  refine ⟨rfl, hbound "a", rfl, (honce [pause, pause]).resolve_right fun h => ?_⟩
  exact absurd (hquiet ▸ h.2) (by simp)

end Provider

end Folio

import Folio.Proofs.Provider.Progress

set_option autoImplicit false

/-! # Freshness after an invalidation

An invalidation of a slug empties both tables for it. All that comes into them afterwards comes from
loads that are started later, and so does all that callers get who take their first turn later: `Since`
says so of a provider, and every step keeps it. A load from before can no longer be settled into the
cache, but those who wait for it are still owed its outcome. -/

namespace Folio.Provider

variable {ε : Type}

/-- A load, from some number on, has brought an artifact of a slug. -/
def Brought (p : Provider ε) (first : Nat) (slug : String) (a : Artifact) : Prop :=
  ∃ id l, first ≤ id ∧ p.loads[id]? = some l ∧ l.slug = slug ∧ l.stage = .finished (.ok a)

/-- A caller has not taken its first turn, or has not asked yet. -/
def Late (p : Provider ε) (id : Nat) : Prop :=
  ∀ k, p.callers[id]? = some k → k.stage = .starting

/-- All that there is for a slug, and all that some callers get for it, comes from loads from some
    number on. -/
structure Since (first : Nat) (slug : String) (late : Nat → Prop) (p : Provider ε) : Prop where
  started : first ≤ p.loads.length
  inflight : ∀ id, p.inflight.lookup slug = some id → first ≤ id
  cached : ∀ a, p.cache.lookup slug = some a → Brought p first slug a
  waiting : ∀ id c loadId, late id → p.callers[id]? = some c → c.slug = slug →
    c.stage = .waiting loadId → first ≤ loadId
  ended : ∀ id c a, late id → p.callers[id]? = some c → c.slug = slug →
    c.stage = .ending (.done a) ∨ c.stage = .finished (.done a) → Brought p first slug a

theorem brought_step {p : Provider ε} {first : Nat} {slug : String} {a : Artifact}
    (h : Brought p first slug a) (e : Event ε) : Brought (p.step e) first slug a := by
  obtain ⟨id, l, hid, hl, hslug, hs⟩ := h
  exact ⟨id, l, hid, finished_stays hl hs e, hslug, hs⟩

theorem loads_length_step (p : Provider ε) (e : Event ε) :
    p.loads.length ≤ (p.step e).loads.length := by
  cases loadsStep p e with
  | same loads => simp [loads]
  | registered _ _ _ _ _ _ loads => simp [loads]
  | joined _ _ _ loads => simp [loads]
  | moved _ _ loads => simp [loads]

theorem Outcome.ofResult_eq_done {α : Type} {result : Except (LoadError ε) α} {a : α} :
    Outcome.ofResult result = .done a ↔ result = .ok a := by
  cases result <;> simp [Outcome.ofResult]

/-! ## Every step keeps what is fresh -/

section

variable {p : Provider ε} {first : Nat} {slug : String} {late : Nat → Prop}

theorem inflight_since_step (h : Since first slug late p) (e : Event ε) {id : Nat}
    (hq : (p.step e).inflight.lookup slug = some id) : first ≤ id := by
  cases tablesStep p e slug with
  | same _ inflight => exact h.inflight id (inflight.symm.trans hq)
  | dropped _ _ inflight => simp [inflight] at hq
  | kept _ _ _ _ _ _ inflight => simp [inflight] at hq
  | failed _ _ _ _ _ _ inflight => simp [inflight] at hq
  | registered _ _ _ _ _ _ _ inflight =>
    obtain rfl : p.loads.length = id := Option.some.inj (inflight.symm.trans hq)
    exact h.started

theorem cached_since_step (h : Since first slug late p) (e : Event ε) {a : Artifact}
    (hq : (p.step e).cache.lookup slug = some a) : Brought (p.step e) first slug a := by
  refine brought_step ?_ e
  cases tablesStep p e slug with
  | same cache => exact h.cached a (cache.symm.trans hq)
  | dropped _ cache => simp [cache] at hq
  | @kept id l b turn load own finished was cache =>
    obtain rfl : b = a := Option.some.inj (cache.symm.trans hq)
    exact ⟨id, l, h.inflight id was, load, own, finished⟩
  | failed _ _ _ _ _ cache => exact h.cached a (cache.symm.trans hq)
  | registered _ _ _ _ _ _ cache => simp [cache] at hq

theorem waiting_since_step (h : Since first slug late p) (e : Event ε) {id loadId : Nat}
    {c : Caller ε} (hlate : late id) (hc : (p.step e).callers[id]? = some c) (hslug : c.slug = slug)
    (hw : c.stage = .waiting loadId) : first ≤ loadId := by
  have hstep := callerStep p e id
  rw [hc] at hstep
  generalize hbefore : p.callers[id]? = before at hstep
  cases hstep with
  | same => exact h.waiting id c loadId hlate hbefore hslug hw
  | asked => simp at hw
  | moved move =>
    cases move with
    | joined _ _ _ inflight =>
      obtain rfl := CallerStage.waiting.inj hw
      exact h.inflight _ (hslug ▸ inflight)
    | initiated =>
      obtain rfl := CallerStage.waiting.inj hw
      exact h.started
    | _ => simp at hw

theorem ended_since_step (hsound : Sound p) (h : Since first slug late p) (e : Event ε) {id : Nat}
    {c : Caller ε} {a : Artifact} (hlate : late id) (hc : (p.step e).callers[id]? = some c)
    (hslug : c.slug = slug) (hend : c.stage = .ending (.done a) ∨ c.stage = .finished (.done a)) :
    Brought (p.step e) first slug a := by
  refine brought_step ?_ e
  have hstep := callerStep p e id
  rw [hc] at hstep
  generalize hbefore : p.callers[id]? = before at hstep
  cases hstep with
  | same => exact h.ended id c a hlate hbefore hslug hend
  | asked => simp at hend
  | moved move =>
    cases move with
    | cached _ _ cached =>
      obtain rfl : _ = a := by simpa using hend
      exact h.cached _ (hslug ▸ cached)
    | @given loadId l result _ _ _ inflight load finished =>
      obtain rfl : result = .ok a := by simpa [Outcome.ofResult_eq_done] using hend
      obtain ⟨⟨l', hl', hown⟩, -⟩ := hsound.inflight _ _ inflight
      obtain rfl : l = l' := Option.some.inj (load.symm.trans hl')
      exact ⟨loadId, l, h.inflight _ (hslug ▸ inflight), load, hown.trans hslug, finished⟩
    | @delivered loadId l result _ waiting load finished =>
      obtain rfl : result = .ok a := by simpa [Outcome.ofResult_eq_done] using hend
      obtain ⟨l', hl', hown⟩ := (hsound.served _ _ _ hbefore waiting).load
      obtain rfl : l = l' := Option.some.inj (load.symm.trans hl')
      have hfirst := h.waiting _ _ _ hlate hbefore hslug waiting
      exact ⟨loadId, l, hfirst, load, hown.trans hslug, finished⟩
    | ended _ ending =>
      obtain rfl : _ = Outcome.done a := by simpa using hend
      exact h.ended _ _ a hlate hbefore hslug (.inl ending)
    | _ => simp at hend

theorem since_step (hsound : Sound p) (h : Since first slug late p) (e : Event ε) :
    Since first slug late (p.step e) where
  started := Nat.le_trans h.started (loads_length_step p e)
  inflight _ := inflight_since_step h e
  cached _ := cached_since_step h e
  waiting _ _ _ := waiting_since_step h e
  ended _ _ _ := ended_since_step hsound h e

theorem since_run (hsound : Sound p) (h : Since first slug late p) (events : List (Event ε)) :
    Since first slug late (p.run events) :=
  (run_induction (I := fun _ q => Sound q ∧ Since first slug late q) events ⟨hsound, h⟩
    fun _ e _ hq => ⟨sound_step hq.1 e, since_step hq.1 hq.2 e⟩).2

end

/-! ## After an invalidation -/

theorem step_of_invalidates {e : Event ε} {slug : String} (h : e.invalidates slug) (p : Provider ε) :
    (p.step e).cache.lookup slug = none ∧ (p.step e).inflight.lookup slug = none ∧
      (p.step e).loads = p.loads ∧ (p.step e).callers = p.callers := by
  cases e with
  | invalidate scope =>
    cases scope with
    | none => exact ⟨rfl, rfl, rfl, rfl⟩
    | some s =>
      obtain rfl : s = slug := by simpa [Event.invalidates] using h
      exact ⟨by simp [step, invalidate], by simp [step, invalidate], rfl, rfl⟩
  | _ => simp [Event.invalidates] at h

/-- An invalidation separates what was there from what comes: callers who have not taken their first
    turn are late. -/
theorem since_invalidation {e : Event ε} {slug : String} (h : e.invalidates slug) (p : Provider ε) :
    Since p.loads.length slug (Late p) (p.step e) := by
  obtain ⟨hcache, hinflight, hloads, hcallers⟩ := step_of_invalidates h p
  refine ⟨Nat.le_of_eq (by rw [hloads]), ?_, ?_, ?_, ?_⟩
  · intro id hin
    simp [hinflight] at hin
  · intro a ha
    simp [hcache] at ha
  -- a late caller is still starting: it neither waits nor ends
  · intro id k loadId hlate hk _ hw
    rw [hcallers] at hk
    exact absurd ((hlate k hk).symm.trans hw) (by simp)
  · intro id k a hlate hk _ hend
    rw [hcallers] at hk
    rw [hlate k hk] at hend
    simp at hend

/-- A load from before is settled without any effect: what is in flight now has been started later. -/
theorem settle_old {p : Provider ε} {first : Nat} {slug : String} {late : Nat → Prop}
    (h : Since first slug late p) {id : Nat} {l : Load ε} (hl : p.loads[id]? = some l)
    (hslug : l.slug = slug) (hid : id < first) : p.settle id = p := by
  have hnot : p.inflight.lookup slug ≠ some id := fun hin =>
    absurd (h.inflight id hin) (Nat.not_le_of_lt hid)
  obtain ⟨slug', stage, callers⟩ := l
  obtain rfl : slug' = slug := hslug
  cases stage <;> simp [settle, hl, hnot]

/-- After an event that invalidates a slug, alone or with all others, whatever happens:

    * a caller of the slug whose first turn comes after it ends with no artifact but those of loads that
      are started, and have called the loader for the key of the slug, after it;
    * the same is so of what the cache holds for the slug;
    * a load of the slug from before it is settled without any effect, and a caller who waits for that
      load, and is not cancelled, still gets its outcome. -/
theorem fresh_after_invalidation (c : Catalogue) (before after : List (Event ε)) (e : Event ε)
    (slug : String) (hcovers : e.invalidates slug) :
    let p := (initial c : Provider ε).run before
    let q := (p.step e).run after
    let h := (p.step e).history after
    (∀ id k a, Late p id → q.callers[id]? = some k → k.slug = slug →
      k.stage = .ending (.done a) ∨ k.stage = .finished (.done a) →
      Produced c h p.loads.length slug a) ∧
    (∀ a, q.cache.lookup slug = some a → Produced c h p.loads.length slug a) ∧
    (∀ loadId l, p.loads[loadId]? = some l → l.slug = slug → q.settle loadId = q ∧
      ∀ id k, p.callers[id]? = some k → k.stage = .waiting loadId → Spared id (p.step e) after →
        Gets q id loadId) := by
  intro p q h
  have hsound : Sound (p.step e) := sound_step (sound_run_initial c before) e
  have hsoundq : Sound q := sound_run hsound after
  obtain ⟨-, -, hloads, hcallers⟩ := step_of_invalidates hcovers p
  have hsince := since_run hsound (since_invalidation hcovers p) after
  have hcat : (p.step e).catalogue = c := (catalogue_step p e).trans (catalogue_run _ before)
  -- a load that is started after the invalidation calls its loader after it
  have hproduced : ∀ a, Brought q p.loads.length slug a → Produced c h p.loads.length slug a := by
    rintro a ⟨id, l, hid, hl, rfl, hs⟩
    have := produced_of_finished (p := p.step e) (by rwa [hloads]) hl hs
    rwa [hcat, hloads] at this
  refine ⟨?_, ?_, ?_⟩
  · intro id k a hlate hk hslug hend
    exact hproduced a (hsince.ended id k a hlate hk hslug hend)
  · intro a ha
    exact hproduced a (hsince.cached a ha)
  intro loadId l hl hslug
  refine ⟨?_, ?_⟩
  · obtain ⟨l', hl', hslug'⟩ := load_stays_run (hloads ▸ hl) after
    exact settle_old hsince hl' (hslug'.trans hslug) (List.getElem?_eq_some_iff.1 hl).1
  · intro id k hk hw hspared
    exact gets_of_owed hsoundq (owed_run after (owed_of_waiting hsound (hcallers ▸ hk) hw) hspared)

/-- What happens after an invalidation that overtakes a load: the page is asked for again, and its new
    text comes before the old one. -/
def overtaking : List (Event String) :=
  [.request "a", pause, reply "new", .receive 0 (.ok (compiled "old"))] ++ List.replicate 9 pause

/-- The cache has the new text, and the caller who has waited all the time has the old one. -/
theorem fresh_when_overtaken :
    let p := (initial onePage).run [.request "a", pause, pause]
    let invalidated := p.step (.invalidate (some "a"))
    let q := invalidated.run overtaking
    (Event.invalidate (some "a") : Event String).invalidates "a" = true ∧
      Produced onePage (invalidated.history overtaking) 1 "a" (compiled "new") ∧
      q.settle 0 = q ∧ Rests q 0 0 := by
  intro p invalidated q
  obtain ⟨-, hcache, hold⟩ := fresh_after_invalidation onePage [.request "a", pause, pause]
    overtaking (.invalidate (some "a")) "a" rfl
  obtain ⟨hsettle, hwaiter⟩ := hold 0 ⟨"a", .waiting "@content/a.md" 0, [0]⟩ rfl rfl
  refine ⟨rfl, hcache (compiled "new") rfl, hsettle, ?_⟩
  refine (hwaiter 0 ⟨"a", none, .waiting 0⟩ rfl rfl ?_).2.1 rfl
  simp [overtaking, pause, reply, Spared, Cancels]

end Folio.Provider

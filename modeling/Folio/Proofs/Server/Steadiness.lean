import Folio.Proofs.Provider.Answers
import Folio.Proofs.Server.Editing
import Folio.Proofs.Server.Renewal

set_option autoImplicit false

/-! # What a provider gives while nothing changes

From an invalidation of a slug on, loaders read for it what there is. As long as all of that is good, for whatever
reason, all that the provider keeps for the slug is good, and so is all that callers get who have not taken their
first turn before (`Live.Steady`). Nothing else is needed of the site or of its files. A slug without a key has no
loader, and whoever asks for it is told so at any time (`denied_next`). -/

namespace Folio.Live

open Provider

/-! ## Sites that are served -/

/-- What is always so in a site that is served, whatever happens to its files. -/
structure Attended (o l : Live) : Prop where
  settings : l.site.settings = o.site.settings
  backend : l.site.server.backend = o.site.server.backend
  catalogue : l.provider.catalogue = o.provider.catalogue
  sound : Sound l.provider
  called : ∀ (id : Nat) load key number, l.provider.loads[id]? = some load →
    load.stage = .waiting key number → o.provider.resolve load.slug = .ok key
  readers : ∀ e ∈ l.reads, ∃ load key, l.provider.loads[e.1]? = some load ∧
    o.provider.resolve load.slug = .ok key

/-- A site that has been opened, and of which nobody has asked anything. -/
structure Untouched (o : Live) : Prop where
  provider : o.provider = .initial o.provider.catalogue
  reads : o.reads = []
  watcher : o.watcher = .idle

section

variable {o l l' : Live} {h : Happening}

theorem Untouched.attended (ho : o.Untouched) : Attended o o where
  settings := rfl
  backend := rfl
  catalogue := rfl
  sound := by rw [ho.provider]; exact sound_initial _
  called id load key number hload := by rw [ho.provider] at hload; simp [initial] at hload
  readers e he := by simp [ho.reads] at he

/-- What is known of the loads goes on to be known when a provider has events. -/
theorem Attended.events (ha : Attended o l) {p : Provider LoaderError} {events : List (Event LoaderError)}
    (hp : p = l.provider.run events) : Sound p ∧ p.catalogue = o.provider.catalogue ∧
      (∀ (id : Nat) load key number, p.loads[id]? = some load → load.stage = .waiting key number →
        o.provider.resolve load.slug = .ok key) ∧
      ∀ e ∈ l.reads, ∃ load key, p.loads[e.1]? = some load ∧ o.provider.resolve load.slug = .ok key := by
  subst hp
  refine ⟨sound_run ha.sound events, (catalogue_run _ events).trans ha.catalogue, ?_, fun e he => ?_⟩
  · refine run_induction (I := fun _ q => ∀ (id : Nat) load key number, q.loads[id]? = some load →
      load.stage = .waiting key number → o.provider.resolve load.slug = .ok key) events ha.called
      fun done e _ ih id load key number hload hs => ?_
    have hstep := loadStep (l.provider.run done) e id
    rw [hload] at hstep
    generalize hbefore : (l.provider.run done).loads[id]? = before at hstep
    cases hstep with
    | same => exact ih id load key number hbefore hs
    | registered => simp at hs
    | @joined load => exact ih id load key number hbefore hs
    | @moved load stage move =>
      obtain rfl : stage = .waiting key number := hs
      generalize hwas : load.stage = was at move
      cases move with
      | called _ _ known =>
        exact (resolve_eq_of_catalogue ((catalogue_run _ done).trans ha.catalogue) _).symm.trans known
  · obtain ⟨load, key, hload, hresolve⟩ := ha.readers e he
    obtain ⟨load', hload', hslug⟩ := load_stays_run hload events
    exact ⟨load', key, hload', hslug ▸ hresolve⟩

theorem Attended.next (ha : Attended o l) (he : Effect l h l') : Attended o l' := by
  obtain ⟨events, hevents⟩ := he.provider
  obtain ⟨hsound, hcatalogue, hcalled, hreaders⟩ := ha.events hevents
  obtain ⟨hsettings, hbackend⟩ := he.site
  refine ⟨hsettings.trans ha.settings, hbackend.trans ha.backend, hcatalogue, hsound, hcalled, ?_⟩
  cases he with
  | begun | advanced =>
    obtain ⟨tree, watcher, heq, -⟩ := workOn_cases l _ _ _
    rw [heq]
    exact ha.readers
  | @read id load key number there waiting =>
    intro e he
    rcases List.mem_append.1 he with he | he
    · exact ha.readers e he
    · obtain rfl := List.mem_singleton.1 he
      exact ⟨load, key, there, ha.called id load key number there waiting⟩
  | _ => exact hreaders

end

/-! ## Slugs that are steady -/

/-- All that there is in the provider for a slug, and all that some callers get for it, comes from loads from some
    number on, and what loaders answer these is good. -/
structure Steady (slug : String) (good : Except LoaderError Artifact → Prop) (first : Nat) (late : Nat → Prop)
    (l : Live) : Prop where
  since : Since first slug late l.provider
  read : ∀ id result load, (id, result) ∈ l.reads → first ≤ id → l.provider.loads[id]? = some load →
    load.slug = slug → good result
  answered : ∀ (id : Nat) load result, first ≤ id → l.provider.loads[id]? = some load → load.slug = slug →
    load.stage = .answered result → good result
  finished : ∀ (id : Nat) load result, first ≤ id → l.provider.loads[id]? = some load → load.slug = slug →
    load.stage = .finished result → ∃ r, good r ∧ result = r.mapError .loader
  ended : ∀ (id : Nat) c outcome, late id → l.provider.callers[id]? = some c → c.slug = slug →
    c.stage = .ending outcome ∨ c.stage = .finished outcome →
      outcome = .cancelled ∨ ∃ r, good r ∧ outcome = .ofResult (r.mapError .loader)

section

variable {o l l' : Live} {h : Happening} {slug key : String} {good good' : Except LoaderError Artifact → Prop}
variable {first : Nat} {late late' : Nat → Prop}

/-- More is good, and fewer callers are late. -/
theorem Steady.mono (hs : Steady slug good first late l) (hgood : ∀ r, good r → good' r)
    (hlate : ∀ id, late' id → late id) : Steady slug good' first late' l where
  since := { hs.since with
    waiting := fun id c loadId hid => hs.since.waiting id c loadId (hlate id hid)
    ended := fun id c a hid => hs.since.ended id c a (hlate id hid) }
  read id result load hmem hfirst hload hslug := hgood _ (hs.read id result load hmem hfirst hload hslug)
  answered id load result hfirst hload hslug hstage := hgood _ (hs.answered id load result hfirst hload hslug hstage)
  finished id load result hfirst hload hslug hstage := by
    obtain ⟨r, hr, heq⟩ := hs.finished id load result hfirst hload hslug hstage
    exact ⟨r, hgood r hr, heq⟩
  ended id c outcome hid hc hslug hend :=
    (hs.ended id c outcome (hlate id hid) hc hslug hend).imp_right fun ⟨r, hr, heq⟩ => ⟨r, hgood r hr, heq⟩

/-- What comes out of a cache is the result of a load. -/
theorem Steady.of_brought (hs : Steady slug good first late l) {a : Artifact}
    (hbrought : Brought l.provider first slug a) :
    ∃ r, good r ∧ (.done a : Outcome LoaderError Artifact) = .ofResult (r.mapError .loader) := by
  obtain ⟨id, load, hfirst, hload, hslug, hstage⟩ := hbrought
  obtain ⟨r, hr, heq⟩ := hs.finished id load _ hfirst hload hslug hstage
  exact ⟨r, hr, by rw [← heq]; rfl⟩

theorem Steady.answered_step (hs : Steady slug good first late l) {act : Act} {e : Event LoaderError}
    (hevent : act.event? l = some e) {id : Nat} {load : Load LoaderError} {result : Except LoaderError Artifact}
    (hfirst : first ≤ id) (hload : (l.provider.step e).loads[id]? = some load) (hslug : load.slug = slug)
    (hstage : load.stage = .answered result) : good result := by
  have hstep := loadStep l.provider e id
  rw [hload] at hstep
  generalize hbefore : l.provider.loads[id]? = before at hstep
  cases hstep with
  | same => exact hs.answered id load result hfirst hbefore hslug hstage
  | registered => simp at hstage
  | @joined load => exact hs.answered id load result hfirst hbefore hslug hstage
  | @moved load stage move =>
    obtain rfl : stage = .answered result := hstage
    generalize hwas : load.stage = was at move
    cases move with
    | received event =>
      exact hs.read id result load (mem_reads_of_event (event ▸ hevent)) hfirst hbefore hslug

theorem Steady.finished_step (hresolve : o.provider.resolve slug = .ok key) (ha : Attended o l)
    (hs : Steady slug good first late l) {act : Act} {e : Event LoaderError} (hevent : act.event? l = some e)
    {id : Nat} {load : Load LoaderError} {result : Except (LoadError LoaderError) Artifact} (hfirst : first ≤ id)
    (hload : (l.provider.step e).loads[id]? = some load) (hslug : load.slug = slug)
    (hstage : load.stage = .finished result) : ∃ r, good r ∧ result = r.mapError .loader := by
  have hstep := loadStep l.provider e id
  rw [hload] at hstep
  generalize hbefore : l.provider.loads[id]? = before at hstep
  cases hstep with
  | same => exact hs.finished id load result hfirst hbefore hslug hstage
  | registered => simp at hstage
  | joined _ unfinished => exact absurd hstage (unfinished result)
  | @moved load stage move =>
    obtain rfl : stage = .finished result := hstage
    generalize hwas : load.stage = was at move
    cases move with
    | unresolved _ unknown =>
      rw [resolve_eq_of_catalogue ha.catalogue, hslug, hresolve] at unknown
      cases unknown
    | returned event _ _ now =>
      obtain rfl := later_of_event (event ▸ hevent)
      cases now
    | @answered r => exact ⟨r, hs.answered id load r hfirst hbefore hslug hwas, rfl⟩

theorem Steady.ended_step (ha : Attended o l) (hs : Steady slug good first late l) (e : Event LoaderError)
    {id : Nat} {c : Caller LoaderError} {outcome : Outcome LoaderError Artifact} (hid : late id)
    (hc : (l.provider.step e).callers[id]? = some c) (hslug : c.slug = slug)
    (hend : c.stage = .ending outcome ∨ c.stage = .finished outcome) :
    outcome = .cancelled ∨ ∃ r, good r ∧ outcome = .ofResult (r.mapError .loader) := by
  have hstep := callerStep l.provider e id
  rw [hc] at hstep
  generalize hbefore : l.provider.callers[id]? = before at hstep
  cases hstep with
  | same => exact hs.ended id c outcome hid hbefore hslug hend
  | asked => simp at hend
  | moved move =>
    cases move with
    | cached _ _ cached =>
      obtain rfl : _ = outcome := by simpa using hend
      exact .inr (hs.of_brought (hs.since.cached _ (hslug ▸ cached)))
    | @given loadId load result _ _ _ inflight there finished =>
      obtain rfl : _ = outcome := by simpa using hend
      obtain ⟨⟨load', hload', hown⟩, -⟩ := ha.sound.inflight _ _ inflight
      obtain rfl := Option.some.inj (there.symm.trans hload')
      obtain ⟨r, hr, rfl⟩ := hs.finished loadId load result (hs.since.inflight _ (hslug ▸ inflight)) there
        (hown.trans hslug) finished
      exact .inr ⟨r, hr, rfl⟩
    | @delivered loadId load result _ waiting there finished =>
      obtain rfl : _ = outcome := by simpa using hend
      obtain ⟨load', hload', hown⟩ := (ha.sound.served _ _ _ hbefore waiting).load
      obtain rfl := Option.some.inj (there.symm.trans hload')
      obtain ⟨r, hr, rfl⟩ := hs.finished loadId load result
        (hs.since.waiting _ _ _ hid hbefore hslug waiting) there (hown.trans hslug) finished
      exact .inr ⟨r, hr, rfl⟩
    | ended _ ending =>
      obtain rfl : _ = outcome := by simpa using hend
      exact hs.ended _ _ _ hid hbefore hslug (.inl ending)
    | cancelled =>
      obtain rfl : _ = outcome := by simpa using hend
      exact .inl rfl
    | _ => simp at hend

/-- Whatever happens, what is steady stays so, as long as what a loader would read is good. -/
theorem Steady.next (hresolve : o.provider.resolve slug = .ok key) (ha : Attended o l)
    (hs : Steady slug good first late l) (hgood : good (o.site.server.backend.load l.tree key))
    (he : Effect l h l') : Steady slug good first late l' := by
  cases he with
  | begun | advanced =>
    obtain ⟨tree, watcher, heq, -⟩ := workOn_cases l _ _ _
    rw [heq]
    exact ⟨hs.since, hs.read, hs.answered, hs.finished, hs.ended⟩
  | @applied batch watcher =>
    obtain ⟨-, -, hloads, hcallers⟩ :=
      notify_spares ha.sound l.tree.home (.ofText l.site.settings.contentRoot) batch
    have hsince : Since first slug late (l.notify batch).provider := by
      rw [show (l.notify batch).provider = l.provider.notify _ _ _ from rfl, notify_eq_run]
      exact since_run ha.sound hs.since _
    refine ⟨hsince, ?_, ?_, ?_, ?_⟩
    · rw [show (l.notify batch).provider.loads = l.provider.loads from hloads]
      exact hs.read
    · rw [show (l.notify batch).provider.loads = l.provider.loads from hloads]
      exact hs.answered
    · rw [show (l.notify batch).provider.loads = l.provider.loads from hloads]
      exact hs.finished
    · rw [show (l.notify batch).provider.callers = l.provider.callers from hcallers]
      exact hs.ended
  | @read id load key' number there waiting =>
    refine { hs with read := fun id' result load' hmem hfirst hload' hslug => ?_ }
    rcases List.mem_append.1 hmem with hmem | hmem
    · exact hs.read id' result load' hmem hfirst hload' hslug
    · obtain ⟨rfl, rfl⟩ := Prod.mk.inj (List.mem_singleton.1 hmem)
      obtain rfl := Option.some.inj (there.symm.trans hload')
      have hcalled := ha.called id' load key' number there waiting
      rw [hslug, hresolve] at hcalled
      obtain rfl := Except.ok.inj hcalled
      rw [ha.backend]
      exact hgood
  | @served act e event =>
    refine ⟨since_step ha.sound hs.since e, fun id result load hmem hfirst hload hslug => ?_,
      fun id load result hfirst => hs.answered_step event hfirst,
      fun id load result hfirst => hs.finished_step hresolve ha event hfirst,
      fun id c outcome hid => hs.ended_step ha e hid⟩
    obtain ⟨old, _, hold, -⟩ := ha.readers _ hmem
    obtain ⟨load', hload', hslug'⟩ := load_stays hold e
    obtain rfl := Option.some.inj (hload.symm.trans hload')
    exact hs.read id result _ hmem hfirst hold (hslug'.symm.trans hslug)
  | _ => exact ⟨hs.since, hs.read, hs.answered, hs.finished, hs.ended⟩

/-- Before anybody has asked, everything is steady. -/
theorem Untouched.steady (ho : o.Untouched) (slug : String) (good : Except LoaderError Artifact → Prop) :
    Steady slug good 0 (Late o.provider) o := by
  have hloads : o.provider.loads = [] := by rw [ho.provider]; rfl
  have hcallers : o.provider.callers = [] := by rw [ho.provider]; rfl
  refine ⟨?_, by simp [hloads], by simp [hloads], by simp [hloads], by simp [hcallers]⟩
  rw [ho.provider]
  exact ⟨Nat.zero_le _, by simp [initial], by simp [initial], by simp [initial], by simp [initial]⟩

/-- A batch that covers a slug is applied: the provider forgets what it has for the slug. -/
theorem steady_notify (ha : Attended o l) {batch : List Path}
    (hcovers : ∃ scope ∈ (invalidationsFor l.tree.home (.ofText l.site.settings.contentRoot) batch).calls,
      (Event.invalidate scope : Event LoaderError).invalidates slug = true) :
    Steady slug good l.provider.loads.length (Late l.provider) (l.notify batch) := by
  obtain ⟨-, -, hloads, hcallers⟩ :=
    notify_spares ha.sound l.tree.home (.ofText l.site.settings.contentRoot) batch
  have hsince : Since l.provider.loads.length slug (Late l.provider) (l.notify batch).provider := by
    rw [show (l.notify batch).provider = l.provider.notify _ _ _ from rfl, notify_eq_run]
    exact since_invalidations ha.sound hcovers
  -- no load is as late as that
  have hnone : ∀ (id : Nat) load, l.provider.loads.length ≤ id →
      (l.notify batch).provider.loads[id]? = some load → False := by
    intro id load hfirst hload
    rw [show (l.notify batch).provider.loads = l.provider.loads from hloads] at hload
    exact absurd (List.getElem?_eq_some_iff.1 hload).1 (Nat.not_lt_of_le hfirst)
  refine ⟨hsince, fun _ _ _ _ hfirst hload _ => (hnone _ _ hfirst hload).elim,
    fun _ _ _ hfirst hload _ => (hnone _ _ hfirst hload).elim,
    fun _ _ _ hfirst hload _ => (hnone _ _ hfirst hload).elim, fun id c outcome hid hc _ hend => ?_⟩
  rw [show (l.notify batch).provider.callers = l.provider.callers from hcallers] at hc
  rw [hid c hc] at hend
  simp at hend

/-- Who has not taken the first turn after something happened had not before. -/
theorem Effect.late_before (he : Effect l h l') {id : Nat} (hid : Late l'.provider id) :
    Late l.provider id := by
  obtain ⟨events, hevents⟩ := he.provider
  rw [hevents] at hid
  clear hevents he
  induction events using List.reverseRecOn with
  | nil => exact hid
  | append_singleton events e ih =>
    rw [run_concat] at hid
    exact ih (late_of_step hid)

end

/-! ## Slugs without a key -/

/-- How whoever asks for a slug without a key ends. -/
def Denied (o : Live) (slug : String) (outcome : Outcome LoaderError Artifact) : Prop :=
  ∀ e, o.provider.resolve slug = .error e → outcome = .failed e ∨ outcome = .cancelled

theorem denied_next {o l l' : Live} {h : Happening} (ha : Attended o l) (hgives : Gives (Denied o) l.provider)
    (he : Effect l h l') : Gives (Denied o) l'.provider := by
  cases he with
  | begun | advanced =>
    obtain ⟨tree, watcher, heq, -⟩ := workOn_cases l _ _ _
    rw [heq]
    exact hgives
  | @applied batch watcher =>
    rw [show (l.notify batch).provider = l.provider.notify _ _ _ from rfl, notify_eq_run]
    refine (run_induction (I := fun _ q => Sound q ∧ Gives (Denied o) q) _ ⟨ha.sound, hgives⟩
      fun _ e he hq => ⟨sound_step hq.1 e, gives_step hq.1 hq.2 ?_⟩).2
    obtain ⟨scope, -, rfl⟩ := List.mem_map.1 he
    exact ⟨by simp [task?], by simp, by simp, by simp [Provider.Cancels]⟩
  | @served act e event =>
    refine gives_step ha.sound hgives ⟨fun id load error _ _ _ unknown e he => ?_,
      fun answer id load key result heq _ _ _ _ now => ?_, fun id load result heq hload e he => ?_,
      fun id c _ _ e he => .inr rfl⟩
    · rw [resolve_eq_of_catalogue ha.catalogue, he] at unknown
      exact .inl (by rw [Except.error.inj unknown])
    · obtain rfl := later_of_event (heq ▸ event)
      cases now
    · obtain ⟨load', key, hload', hresolve⟩ := ha.readers _ (mem_reads_of_event (heq ▸ event))
      obtain rfl := Option.some.inj (hload.symm.trans hload')
      rw [he] at hresolve
      cases hresolve
  | _ => exact hgives

end Folio.Live

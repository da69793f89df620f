import Folio.Proofs.Provider.Answers
import Folio.Proofs.Server.Watching

set_option autoImplicit false

/-! # How a page is renewed

While a site is watched, the module of a page holds a text, and while the page is rebuilt another text is on
its way there. If all texts that are made for the page are good, then the module goes on to hold a good text
once it holds one, and it comes to hold one when a rebuilding has begun (`holds_next`, `coming_next`). The
provider is told of it only then (`due_next`). What loaders read for the page from then on is fresh, and so is
all that callers get who have not taken their first turn before (`Renewed`). -/

namespace Folio.Live

open Provider

/-! ## The module of a page -/

variable {o l l' : Live} {n : PageName} {good : String → Prop} {act : Act}

/-- The module of a page holds a good text. -/
def Holds (o : Live) (n : PageName) (good : String → Prop) (l : Live) : Prop :=
  ∃ text time, good text ∧
    l.tree.read (o.rules.modulePath n) = .ok (Text.encodeUtf8 text.toList, time)

/-- If a page is being rebuilt, then with a good text. -/
structure Prepares (o : Live) (n : PageName) (good : String → Prop) (l : Live) : Prop where
  drafting : ∀ batch left r chars time, l.watcher = .rebuilding batch left (some r) → r.slug = n.slug →
    r.stage = .drafting chars time → ∃ text, good text ∧ chars = text.toList
  moving : ∀ batch left r, l.watcher = .rebuilding batch left (some r) → r.slug = n.slug →
    r.stage = .moving → ∃ text time, good text ∧ l.tree.entry? (o.rules.out.place l.tree.home ++ n.draft)
      = some (.file (Text.encodeUtf8 text.toList) time)

/-- A text is on its way to the module of a page. -/
def Coming (n : PageName) (l : Live) : Prop :=
  ∃ batch left r, l.watcher = .rebuilding batch left (some r) ∧ r.slug = n.slug ∧ r.stage ≠ .listing

/-- The source of a page is in the batch that is worked on. -/
def Due (o : Live) (n : PageName) (l : Live) : Prop :=
  ∃ batch left page, l.watcher = .rebuilding batch left page ∧ ∃ p ∈ batch, o.rules.Leads o.tree p n

/-- The texts that are made for a page now are good. -/
def MakesGood (o : Live) (n : PageName) (good : String → Prop) (l : Live) (act : Act) : Prop :=
  ∀ batch rest p text, act = .watch → l.watcher = .rebuilding batch (p :: rest) none →
    o.rules.Leads o.tree p n → moduleText o.rules l.tree p = .ok text → good text

/-- A watcher that works on no page prepares nothing. -/
theorem prepares_of_watcher (h : ∀ batch left r, l.watcher ≠ .rebuilding batch left (some r)) :
    Prepares o n good l :=
  ⟨fun batch left r _ _ hw => absurd hw (h batch left r), fun batch left r hw => absurd hw (h batch left r)⟩

/-- Other files matter to a rebuilding if the draft of the page is touched. -/
theorem Prepares.withTree (h : Prepares o n good l) {touched : Place → Prop} {tree : FileTree}
    (halters : FileTree.Alters touched l.tree tree)
    (hdraft : ¬ touched (o.rules.out.place l.tree.home ++ n.draft)) :
    Prepares o n good { l with tree := tree } where
  drafting := h.drafting
  moving batch left r hw hslug hs := by
    obtain ⟨text, time, hgood, hthere⟩ := h.moving batch left r hw hslug hs
    refine ⟨text, time, hgood, ?_⟩
    rw [halters.home]
    exact (halters.files _ _ _ hdraft).2 hthere

theorem Holds.withTree (h : Holds o n good l) {touched : Place → Prop} {tree : FileTree}
    (halters : FileTree.Alters touched l.tree tree)
    (hmodule : ¬ touched (o.rules.out.place l.tree.home ++ n.module)) (watcher : Watcher) :
    Holds o n good { l with tree := tree, watcher := watcher } := by
  obtain ⟨text, time, hgood, hread⟩ := h
  refine ⟨text, time, hgood, halters.read ?_ hread⟩
  rwa [BuildRules.modulePath, n.place_module]

/-- What is prepared for a page goes on to be good. -/
theorem prepares_next (h : Prepares o n good l) (hmakes : MakesGood o n good l act) (hmove : Move o l act l') :
    Prepares o n good l' := by
  cases hmove with
  | still => exact h
  | edited page alters opens source => exact h.withTree alters (source_ne_draft _ _ n).symm
  | begun watcher page leads listing makes =>
    refine ⟨fun batch left r chars time hw hslug hs => ?_, fun batch left r hw hslug hs => ?_⟩
    · obtain ⟨rfl, rfl, hr⟩ := Watcher.rebuilding.inj hw
      obtain rfl := Option.some.inj hr
      obtain rfl := PageName.slug_inj hslug
      obtain ⟨rfl, rfl⟩ := RebuildStage.drafting.inj hs
      exact ⟨_, hmakes _ _ _ _ rfl watcher leads makes, rfl⟩
    · obtain ⟨rfl, rfl, hr⟩ := Watcher.rebuilding.inj hw
      obtain rfl := Option.some.inj hr
      simp at hs
  | @advanced batch left r m next tree watcher page slug advance advances =>
    cases advances with
    | drafted stage alters draft =>
      refine ⟨fun _ _ r' _ _ hw _ hs => ?_, fun _ _ r' hw hslug _ => ?_⟩
      · obtain rfl := Option.some.inj (Watcher.rebuilding.inj hw).2.2
        simp at hs
      · obtain rfl := Option.some.inj (Watcher.rebuilding.inj hw).2.2
        obtain rfl : m = n := PageName.slug_inj (slug.symm.trans hslug)
        obtain ⟨text, hgood, rfl⟩ := h.drafting _ _ r _ _ watcher slug stage
        exact ⟨text, _, hgood, alters.home ▸ draft⟩
    | moved stage draft alters module =>
      refine ⟨fun _ _ r' _ _ hw _ hs => ?_, fun _ _ r' hw _ hs => ?_⟩
      · obtain rfl := Option.some.inj (Watcher.rebuilding.inj hw).2.2
        simp at hs
      · obtain rfl := Option.some.inj (Watcher.rebuilding.inj hw).2.2
        simp at hs
    | listed => exact prepares_of_watcher (by simp)
  | read => exact ⟨h.drafting, h.moving⟩
  | served => exact ⟨h.drafting, h.moving⟩
  | _ => exact prepares_of_watcher (by simp [notify])

/-- The module of a page goes on to hold a good text. -/
theorem holds_next (h : Holds o n good l) (hprepares : Prepares o n good l) (hmove : Move o l act l') :
    Holds o n good l' := by
  cases hmove with
  | edited page alters opens source => exact h.withTree alters (source_ne_module _ _ n).symm l.watcher
  | @advanced batch left r m next tree watcher page slug advance advances =>
    cases advances with
    | drafted stage alters draft => exact h.withTree alters (module_ne_draft _ _ m) _
    | moved stage draft alters module =>
      by_cases hmn : n = m
      · subst hmn
        obtain ⟨text, time, hgood, hthere⟩ := hprepares.moving _ _ r watcher slug stage
        obtain ⟨rfl, rfl⟩ := Entry.file.inj (Option.some.inj (draft.symm.trans hthere))
        exact ⟨text, _, hgood, module⟩
      · exact h.withTree alters (BuildRules.not_touches_module hmn) _
    | listed stage alters manifest => exact h.withTree alters (module_ne_manifest _ _) _
  | broken watcher breaks alters => exact h.withTree alters not_false _
  | _ => exact h

/-- A text that is on its way to the module of a page comes there, unless the watcher stops. -/
theorem coming_next (h : Coming n l) (hprepares : Prepares o n good l) (hmove : Move o l act l') :
    Coming n l' ∨ Holds o n good l' ∨ ∃ cause, l'.watcher = .stopped cause := by
  obtain ⟨batch, left, r, hw, hslug, hs⟩ := h
  cases hmove with
  | reported idle => simp [hw] at idle
  | begun watcher => simp [hw] at watcher
  | failed watcher => simp [hw] at watcher
  | escaped watcher => simp [hw] at watcher
  | applied watcher => simp [hw] at watcher
  | broken => exact .inr (.inr ⟨_, rfl⟩)
  | @advanced _ _ r' m next tree watcher page slug advance advances =>
    obtain ⟨rfl, rfl, hr⟩ := Watcher.rebuilding.inj (hw.symm.trans watcher)
    obtain rfl := Option.some.inj hr
    obtain rfl : m = n := PageName.slug_inj (slug.symm.trans hslug)
    cases advances with
    | drafted stage alters draft => exact .inl ⟨_, _, _, rfl, hslug, by simp⟩
    | moved stage draft alters module =>
      obtain ⟨text, time, hgood, hthere⟩ := hprepares.moving _ _ r hw hslug stage
      obtain ⟨rfl, rfl⟩ := Entry.file.inj (Option.some.inj (draft.symm.trans hthere))
      exact .inr (.inl ⟨text, _, hgood, module⟩)
    | listed stage => exact absurd stage hs
  | _ => exact .inl ⟨batch, left, r, hw, hslug, hs⟩

/-- A page whose source is in the batch that is worked on is dropped when the batch is applied. -/
theorem due_next (h : Due o n l) (hmove : Move o l act l') :
    Due o n l' ∨ (∃ cause, l'.watcher = .stopped cause) ∨
      ∃ batch, l.watcher = .rebuilding batch [] none ∧ l' = l.notify batch ∧
        ∃ p ∈ batch, o.rules.Leads o.tree p n := by
  obtain ⟨batch, left, page, hw, hdue⟩ := h
  cases hmove with
  | reported idle => simp [hw] at idle
  | begun watcher | failed watcher | advanced watcher =>
    obtain ⟨rfl, rfl, rfl⟩ := Watcher.rebuilding.inj (hw.symm.trans watcher)
    exact .inl ⟨_, _, _, rfl, hdue⟩
  | escaped | broken => exact .inr (.inl ⟨_, rfl⟩)
  | applied watcher =>
    obtain ⟨rfl, rfl, rfl⟩ := Watcher.rebuilding.inj (hw.symm.trans watcher)
    exact .inr (.inr ⟨batch, watcher, rfl, hdue⟩)
  | _ => exact .inl ⟨batch, left, page, hw, hdue⟩

/-- A watcher that has stopped does nothing more. -/
theorem stopped_next (h : ∃ cause, l.watcher = .stopped cause) (hmove : Move o l act l') :
    ∃ cause, l'.watcher = .stopped cause := by
  obtain ⟨cause, hw⟩ := h
  cases hmove with
  | reported watcher | begun watcher | failed watcher | escaped watcher | advanced watcher | broken watcher
  | applied watcher => simp [hw] at watcher
  | _ => exact ⟨cause, hw⟩

/-! ## What the provider gives for a page -/

/-- All that there is in the provider for a page, and all that some callers get for it, is fresh: it comes from
    loads from some number on, and these get fresh artifacts. -/
structure Renewed (n : PageName) (fresh : Artifact → Prop) (first : Nat) (late : Nat → Prop) (l : Live) :
    Prop where
  since : Since first n.slug late l.provider
  read : ∀ id result load, (id, result) ∈ l.reads → first ≤ id → l.provider.loads[id]? = some load →
    load.slug = n.slug → ∃ a, fresh a ∧ result = .ok a
  answered : ∀ (id : Nat) load result, first ≤ id → l.provider.loads[id]? = some load → load.slug = n.slug →
    load.stage = .answered result → ∃ a, fresh a ∧ result = .ok a
  finished : ∀ (id : Nat) load result, first ≤ id → l.provider.loads[id]? = some load → load.slug = n.slug →
    load.stage = .finished result → ∃ a, fresh a ∧ result = .ok a

variable {fresh : Artifact → Prop} {first : Nat} {late late' : Nat → Prop}

/-- Fewer callers are late. -/
theorem Renewed.mono (h : Renewed n fresh first late l) (hmore : ∀ id, late' id → late id) :
    Renewed n fresh first late' l :=
  { h with since := { h.since with
      waiting := fun id c loadId hlate => h.since.waiting id c loadId (hmore id hlate)
      ended := fun id c a hlate => h.since.ended id c a (hmore id hlate) } }

/-- Callers who have not taken their first turn after something happened had not before. -/
theorem late_of_step {ε : Type} {p : Provider ε} {e : Event ε} {id : Nat} (h : Late (p.step e) id) :
    Late p id := by
  intro c hc
  by_contra hs
  obtain ⟨c', hc', -, hs'⟩ := caller_stays hc e
  exact hs' hs (h c' hc')

/-- What the loader of a load has answered it has read. -/
theorem mem_reads_of_event {id : Nat} {result : Except LoaderError Artifact}
    (h : act.event? l = some (.receive id result)) : (id, result) ∈ l.reads := by
  cases act with
  | answer id' =>
    obtain ⟨result', hlookup, hevent⟩ := Option.map_eq_some_iff.1 h
    obtain ⟨rfl, rfl⟩ := Event.receive.inj hevent
    obtain ⟨before, after, heq, -⟩ := List.lookup_eq_some_iff.1 hlookup
    exact heq ▸ List.mem_append_right _ List.mem_cons_self
  | _ => simp [Act.event?] at h

/-- No loader answers at once. -/
theorem later_of_event {answer : String → Nat → Answer LoaderError} (h : act.event? l = some (.turn answer)) :
    answer = fun _ _ => .later := by
  cases act with
  | answer id =>
    obtain ⟨_, _, hevent⟩ := Option.map_eq_some_iff.1 h
    cases hevent
  | turn => exact (Event.turn.inj (Option.some.inj h)).symm
  | _ => simp [Act.event?] at h

section

variable (hn : o.tree.IsPage o.rules.root n) (ho : o.Opened) (h : Watched o l) (hr : Renewed n fresh first late l)
include hn ho h hr

/-- What a loader reads for a page is fresh if the module of the page is. -/
theorem Renewed.next_read {id : Nat} {load : Load LoaderError} {key : String} {number : Nat}
    (hload : l.provider.loads[id]? = some load) (hs : load.stage = .waiting key number)
    (himport : ∃ a, fresh a ∧ importArtifact l.tree (o.rules.modulePath n) = .ok a) :
    Renewed n fresh first late { l with reads := l.reads ++ [(id, o.site.server.backend.load l.tree key)] } := by
  refine { hr with read := fun id' result load' hmem hfirst hload' hslug => ?_ }
  rcases List.mem_append.1 hmem with hmem | hmem
  · exact hr.read id' result load' hmem hfirst hload' hslug
  · obtain ⟨rfl, rfl⟩ := Prod.mk.inj (List.mem_singleton.1 hmem)
    obtain rfl := Option.some.inj (hload.symm.trans hload')
    have hresolve := h.called id' load key number hload hs
    rw [hslug, ho.resolves n hn] at hresolve
    obtain rfl := Except.ok.inj hresolve
    obtain ⟨a, hfresh, himport⟩ := himport
    refine ⟨a, hfresh, ?_⟩
    rw [ho.loads n hn, himport]
    rfl

/-- What happens to the provider keeps what is fresh. -/
theorem Renewed.next_served {e : Event LoaderError} (hevent : act.event? l = some e) :
    Renewed n fresh first late (l.withProvider (l.provider.step e)) := by
  refine ⟨since_step h.sound hr.since e, fun id result load hmem hfirst hload hslug => ?_,
    fun id load result hfirst hload hslug hs => ?_, fun id load result hfirst hload hslug hs => ?_⟩
  · have hold := List.getElem?_eq_getElem (h.known _ hmem)
    obtain ⟨load', hload', hslug'⟩ := load_stays hold e
    obtain rfl := Option.some.inj (hload.symm.trans hload')
    exact hr.read id result _ hmem hfirst hold (hslug'.symm.trans hslug)
  · have hstep := loadStep l.provider e id
    rw [show (l.provider.step e).loads[id]? = some load from hload] at hstep
    generalize hbefore : l.provider.loads[id]? = before at hstep
    cases hstep with
    | same => exact hr.answered id load result hfirst hbefore hslug hs
    | registered => simp at hs
    | @joined load => exact hr.answered id load result hfirst hbefore hslug hs
    | @moved load stage move =>
      obtain rfl : stage = .answered result := hs
      generalize hwas : load.stage = was at move
      cases move with
      | received event => exact hr.read id result load (mem_reads_of_event (event ▸ hevent)) hfirst hbefore hslug
  · have hstep := loadStep l.provider e id
    rw [show (l.provider.step e).loads[id]? = some load from hload] at hstep
    generalize hbefore : l.provider.loads[id]? = before at hstep
    cases hstep with
    | same => exact hr.finished id load result hfirst hbefore hslug hs
    | registered => simp at hs
    | joined _ unfinished => exact absurd hs (unfinished result)
    | @moved load stage move =>
      obtain rfl : stage = .finished result := hs
      generalize hwas : load.stage = was at move
      cases move with
      | unresolved _ unknown =>
        rw [resolve_eq_of_catalogue h.catalogue, hslug, ho.resolves n hn] at unknown
        cases unknown
      | returned event _ _ now =>
        obtain rfl := later_of_event (event ▸ hevent)
        cases now
      | answered =>
        obtain ⟨a, hfresh, rfl⟩ := hr.answered id load _ hfirst hbefore hslug hwas
        exact ⟨a, hfresh, rfl⟩

/-- Whatever an act does, what is fresh stays so, if the module of the page is fresh. -/
theorem Renewed.next (himport : ∃ a, fresh a ∧ importArtifact l.tree (o.rules.modulePath n) = .ok a)
    (hmove : Move o l act l') : Renewed n fresh first late l' := by
  cases hmove with
  | @applied batch watcher =>
    obtain ⟨-, -, hloads, -⟩ := notify_spares h.sound l.tree.home (.ofText l.site.settings.contentRoot) batch
    have hsince : Since first n.slug late (l.notify batch).provider := by
      rw [show (l.notify batch).provider = l.provider.notify _ _ _ from rfl, notify_eq_run]
      exact since_run h.sound hr.since _
    refine ⟨hsince, ?_, ?_, ?_⟩
    all_goals rw [show (l.notify batch).provider.loads = l.provider.loads from hloads]
    · exact hr.read
    · exact hr.answered
    · exact hr.finished
  | read there waiting => exact hr.next_read hn ho h there waiting himport
  | served event => exact hr.next_served hn ho h event
  | _ => exact ⟨hr.since, hr.read, hr.answered, hr.finished⟩

omit hn ho hr in
/-- A batch with the source of a page is applied: the provider forgets what it has for the page. -/
theorem renewed_notify {batch : List Path} {p : Path} (hp : p ∈ batch) (hleads : o.rules.Leads o.tree p n)
    (hsource : p.IsOfSource) (hstem : n.stem ≠ "") :
    Renewed n fresh l.provider.loads.length (Late l.provider) (l.notify batch) := by
  obtain ⟨-, -, hloads, -⟩ := notify_spares h.sound l.tree.home (.ofText l.site.settings.contentRoot) batch
  have hleads := h.leads hleads
  have hslug : pathSlug l.tree.home p (some (.ofText l.site.settings.contentRoot)) = n.slug := by
    rw [h.settings]
    exact h.rebuildable.pathSlug_eq hleads
  have hsince : Since l.provider.loads.length n.slug (Late l.provider) (l.notify batch).provider := by
    rw [show (l.notify batch).provider = l.provider.notify _ _ _ from rfl, notify_eq_run]
    exact since_invalidations h.sound (exists_call_of_mem hp (hleads.isSource hsource hstem) hslug)
  -- no load is as late as that
  have hnone : ∀ (id : Nat) load, l.provider.loads.length ≤ id →
      (l.notify batch).provider.loads[id]? = some load → False := by
    intro id load hfirst hload
    rw [show (l.notify batch).provider.loads = l.provider.loads from hloads] at hload
    exact absurd (List.getElem?_eq_some_iff.1 hload).1 (Nat.not_lt_of_le hfirst)
  exact ⟨hsince, fun _ _ _ _ hfirst hload _ => (hnone _ _ hfirst hload).elim,
    fun _ _ _ hfirst hload _ => (hnone _ _ hfirst hload).elim,
    fun _ _ _ hfirst hload _ => (hnone _ _ hfirst hload).elim⟩

end

/-- Who has not taken the first turn after an act had not before. -/
theorem late_of_move (h : Watched o l) (hmove : Move o l act l') {id : Nat} (hlate : Late l'.provider id) :
    Late l.provider id := by
  cases hmove with
  | @applied batch watcher =>
    obtain ⟨-, -, -, hcallers⟩ := notify_spares h.sound l.tree.home (.ofText l.site.settings.contentRoot) batch
    intro c hc
    exact hlate c ((congrArg (·[id]?) hcallers).trans hc)
  | served => exact late_of_step hlate
  | _ => exact hlate

/-! ## No page is lost -/

/-- The outcome for a slug is not a failure, if it is that of a page. -/
def Succeeds (n : PageName) (slug : String) (outcome : Outcome LoaderError Artifact) : Prop :=
  slug = n.slug → ∀ cause, outcome ≠ .failed cause

/-- If all that loaders have read for a page are artifacts, callers who ask for it do not fail. -/
theorem succeeds_next (hn : o.tree.IsPage o.rules.root n) (ho : o.Opened) (h : Watched o l)
    (hr : Renewed n fresh 0 late l) (hgives : Gives (Succeeds n) l.provider) (hmove : Move o l act l') :
    Gives (Succeeds n) l'.provider := by
  cases hmove with
  | @applied batch watcher =>
    rw [show (l.notify batch).provider = l.provider.notify _ _ _ from rfl, notify_eq_run]
    refine (run_induction (I := fun _ q => Sound q ∧ Gives (Succeeds n) q) _ ⟨h.sound, hgives⟩
      fun _ e he hq => ⟨sound_step hq.1 e, gives_step hq.1 hq.2 ?_⟩).2
    obtain ⟨scope, -, rfl⟩ := List.mem_map.1 he
    exact ⟨by simp [task?], by simp, by simp, by simp [Cancels]⟩
  | @served act e event =>
    refine gives_step h.sound hgives ⟨fun id load error _ _ _ unknown hslug => ?_,
      fun answer id load key result heq _ _ _ _ now => ?_, fun id load result heq hload hslug => ?_, ?_⟩
    · rw [resolve_eq_of_catalogue h.catalogue, hslug, ho.resolves n hn] at unknown
      cases unknown
    · obtain rfl := later_of_event (heq ▸ event)
      cases now
    · obtain ⟨a, -, rfl⟩ :=
        hr.read id result load (mem_reads_of_event (heq ▸ event)) (Nat.zero_le _) hload hslug
      simp [Outcome.ofResult, Except.mapError]
    · intro id c _ _ _
      simp
  | _ => exact hgives

/-! ## Versions of a page -/

/-- The modules of a page that make good artifacts. -/
def TextOf (n : PageName) (fresh : Artifact → Prop) (text : String) : Prop :=
  ∃ a, fresh a ∧ a.WellFormed ∧ PageModule.emit a (sourceLabel n.slug) = .ok text

theorem Holds.import (h : Holds o n (TextOf n fresh) l) (hn : n.IsServable) :
    ∃ a, fresh a ∧ importArtifact l.tree (o.rules.modulePath n) = .ok a := by
  obtain ⟨text, time, ⟨a, hfresh, hwell, hemit⟩, hread⟩ := h
  exact ⟨a, hfresh, PageModule.importArtifact_of_read hwell (fitsLine_label hn.fitsLine) hemit hread⟩

/-- The module of a page is fresh, and so is all that some callers get for the page. -/
structure Serving (o : Live) (n : PageName) (fresh : Artifact → Prop) (first : Nat) (late : Nat → Prop)
    (l : Live) : Prop where
  prepares : Prepares o n (TextOf n fresh) l
  module : Holds o n (TextOf n fresh) l
  renewed : Renewed n fresh first late l

/-- What is known of a page after a version of it has been compiled. -/
inductive Renewing (o : Live) (n : PageName) (fresh : Artifact → Prop) (l : Live) : Prop where
  | stopped {cause : BuildError} (watcher : l.watcher = .stopped cause)
  /-- The batch with the version has not been applied. -/
  | due (prepares : Prepares o n (TextOf n fresh) l) (due : Due o n l)
      (module : Coming n l ∨ Holds o n (TextOf n fresh) l)
  | serving {first : Nat} (serving : Serving o n fresh first (Late l.provider) l)

section

variable (hn : o.tree.IsPage o.rules.root n) (hservable : n.IsServable) (ho : o.Opened) (h : Watched o l)
variable (hmakes : MakesGood o n (TextOf n fresh) l act) (hmove : Move o l act l')
include hn hservable ho h hmakes hmove

theorem Serving.next (hs : Serving o n fresh first late l) : Serving o n fresh first late l' :=
  ⟨prepares_next hs.prepares hmakes hmove, holds_next hs.module hs.prepares hmove,
    hs.renewed.next hn ho h (hs.module.import hservable) hmove⟩

theorem Renewing.next (hr : Renewing o n fresh l) : Renewing o n fresh l' := by
  have hlate : ∀ id, Late l'.provider id → Late l.provider id := fun _ => late_of_move h hmove
  cases hr with
  | stopped watcher =>
    obtain ⟨cause, hw⟩ := stopped_next ⟨_, watcher⟩ hmove
    exact .stopped hw
  | serving serving =>
    have hnext := serving.next hn hservable ho h hmakes hmove
    exact .serving { hnext with renewed := hnext.renewed.mono hlate }
  | due prepares due module =>
    have hprepares := prepares_next prepares hmakes hmove
    have hmodule : Coming n l' ∨ Holds o n (TextOf n fresh) l' ∨ ∃ cause, l'.watcher = .stopped cause :=
      module.elim (fun hcoming => coming_next hcoming prepares hmove)
        fun hholds => .inr (.inl (holds_next hholds prepares hmove))
    rcases due_next due hmove with hdue | ⟨cause, hw⟩ | ⟨batch, hw, rfl, p, hp, hleads⟩
    · rcases hmodule with hcoming | hholds | ⟨cause, hw⟩
      · exact .due hprepares hdue (.inl hcoming)
      · exact .due hprepares hdue (.inr hholds)
      · exact .stopped hw
    · exact .stopped hw
    · -- when the batch is applied no page is under way, so the module is there
      rcases hmodule with ⟨_, _, _, hw', _⟩ | hholds | ⟨cause, hw'⟩
      · simp [notify] at hw'
      · have hsource := ((h.working _ _ _ hw).1 p hp).1
        exact .serving ⟨hprepares, hholds, (renewed_notify h hp hleads hsource hservable.named).mono hlate⟩
      · simp [notify] at hw'

end

end Folio.Live

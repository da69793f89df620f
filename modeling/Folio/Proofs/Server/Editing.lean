import Folio.Proofs.Server.Watching

set_option autoImplicit false

/-! # Sites that are edited

While a site is served its sources are not only overwritten: files are written and deleted at any place. What can
become of the site is said once (`Live.Effect`), for any site in any state. To the provider it is always some
events, and a watcher that is left alone ends its work. -/

namespace Folio

namespace Live

/-- What can happen to a site whose sources come and go. -/
inductive Happening where
  | act (act : Act)
  /-- A file is written or deleted. -/
  | edit (e : Edit)

/-- The site after a file is written or deleted. -/
def edit (l : Live) (e : Edit) : Live :=
  match e.apply l.tree with
  | .ok tree => { l with tree := tree }
  | .error _ => l

/-- Whether it is a report of changes. -/
def Happening.isReport : Happening → Bool
  | act (.report _) => true
  | _ => false

/-- The site after something happened. -/
def after (l : Live) : Happening → Live
  | .act act => l.step act
  | .edit e => l.edit e

/-- What can become of a site. -/
inductive Effect (l : Live) : Happening → Live → Prop where
  /-- Nothing happens. A watcher that works on a batch always does something. -/
  | still {h : Happening}
      (rests : h = .act .watch → ∀ batch left page, l.watcher ≠ .rebuilding batch left page) : Effect l h l
  | modified {n : PageName} {bytes : List UInt8} {modified : Int} {tree : FileTree}
      (write : l.tree.write (l.rules.sourcePath n) bytes modified = .ok tree) :
      Effect l (.act (.modify n bytes modified)) { l with tree := tree }
  | edited {e : Edit} {tree : FileTree} (apply : e.apply l.tree = .ok tree) :
      Effect l (.edit e) { l with tree := tree }
  | reported {paths : List String} (idle : l.watcher = .idle) :
      Effect l (.act (.report paths)) { l with
        watcher := .rebuilding (changedPaths paths)
          (if l.site.rebuilding.isSome then changedPaths paths else []) none }
  | begun {batch rest : List Path} {p : Path} (watcher : l.watcher = .rebuilding batch (p :: rest) none) :
      Effect l (.act .watch) (l.workOn batch rest (Rebuild.start l.rules p))
  | advanced {batch left : List Path} {page : Rebuild}
      (watcher : l.watcher = .rebuilding batch left (some page)) :
      Effect l (.act .watch) (l.workOn batch left (page.advance l.rules))
  | applied {batch : List Path} (watcher : l.watcher = .rebuilding batch [] none) :
      Effect l (.act .watch) (l.notify batch)
  | read {id : Nat} {load : Load LoaderError} {key : String} {number : Nat}
      (there : l.provider.loads[id]? = some load) (waiting : load.stage = .waiting key number) :
      Effect l (.act (.read id))
        { l with reads := l.reads ++ [(id, l.site.server.backend.load l.tree key)] }
  | served {act : Act} {e : Provider.Event LoaderError} (event : act.event? l = some e) :
      Effect l (.act act) (l.withProvider (l.provider.step e))

theorem watch_effect (l : Live) : Effect l (.act .watch) l.watch := by
  unfold watch
  split
  · next hw => exact .advanced hw
  · next hw => exact .begun hw
  · next hw => exact .applied hw
  · next hadvance hbegin happly =>
    refine .still fun _ batch left page hw => ?_
    cases page with
    | some page => exact hadvance batch left page hw
    | none =>
      cases left with
      | nil => exact happly batch hw
      | cons p rest => exact hbegin batch p rest hw

/-- Whatever happens does one of these things. -/
theorem effect (l : Live) (h : Happening) : Effect l h (l.after h) := by
  cases h with
  | edit e =>
    change Effect l (.edit e) (l.edit e)
    unfold edit
    split
    · next tree happly => exact .edited happly
    · exact .still (by simp)
  | act act =>
    cases act with
    | modify n bytes modified =>
      change Effect l _ (l.modify n bytes modified)
      unfold modify
      split
      · next tree hwrite => exact .modified hwrite
      · exact .still (by simp)
    | report paths =>
      change Effect l _ (l.takeUp (changedPaths paths))
      unfold takeUp
      split
      · next hidle => exact .reported hidle
      · exact .still (by simp)
    | watch => exact watch_effect l
    | read id =>
      change Effect l _ (l.read id)
      unfold read
      split
      · next slug key number callers hload => exact .read hload rfl
      · exact .still (by simp)
    | _ =>
      simp only [after]
      unfold step
      dsimp only
      split
      · next e he => exact .served he
      · exact .still (by simp)

variable {l l' : Live} {h : Happening}

/-- Some work on a batch changes files, and leaves the watcher with the batch unless it fails and is not said
    not to compile. -/
theorem workOn_cases (l : Live) (batch left : List Path) (work : Building (Option Rebuild)) :
    ∃ tree watcher, l.workOn batch left work = { l with tree := tree, watcher := watcher } ∧
      ((∃ page, watcher = .rebuilding batch left page) ∨
        ∃ e, watcher = .stopped e ∧ work l.tree = .error e tree ∧ ∀ cause, e ≠ .compile cause) := by
  unfold workOn
  split
  · exact ⟨_, _, rfl, .inl ⟨_, rfl⟩⟩
  · exact ⟨_, _, rfl, .inl ⟨_, rfl⟩⟩
  · next e tree huncaught hwork => exact ⟨_, _, rfl, .inr ⟨e, rfl, hwork, huncaught⟩⟩

/-- To the provider all that happens is some events. -/
theorem Effect.provider (he : Effect l h l') : ∃ events, l'.provider = l.provider.run events := by
  cases he with
  | begun | advanced =>
    obtain ⟨tree, watcher, heq, -⟩ := workOn_cases l _ _ _
    exact ⟨[], by rw [heq]; rfl⟩
  | applied => exact ⟨_, Provider.notify_eq_run _ _ _ _⟩
  | @served act e => exact ⟨[e], rfl⟩
  | _ => exact ⟨[], rfl⟩

/-- A site keeps its settings and its loaders. -/
theorem Effect.site (he : Effect l h l') :
    l'.site.settings = l.site.settings ∧ l'.site.server.backend = l.site.server.backend := by
  cases he with
  | begun | advanced =>
    obtain ⟨tree, watcher, heq, -⟩ := workOn_cases l _ _ _
    rw [heq]
    exact ⟨rfl, rfl⟩
  | _ => exact ⟨rfl, rfl⟩

theorem Effect.rebuilding (he : Effect l h l') : l'.site.rebuilding = l.site.rebuilding := by
  obtain ⟨hsettings, hbackend⟩ := he.site
  rw [Site.rebuilding, hbackend, hsettings]
  rfl

/-- The next thing that the watcher does to a page fails. -/
inductive Fails (l : Live) (e : BuildError) : Prop where
  | start {batch rest : List Path} {p : Path} {tree : FileTree}
      (watcher : l.watcher = .rebuilding batch (p :: rest) none)
      (fails : Rebuild.start l.rules p l.tree = .error e tree)
  | advance {batch left : List Path} {page : Rebuild} {tree : FileTree}
      (watcher : l.watcher = .rebuilding batch left (some page))
      (fails : page.advance l.rules l.tree = .error e tree)

/-- A watcher is stopped by a page that fails and is not said not to compile. -/
theorem Effect.fails {e : BuildError} (he : Effect l h l') (hw : l'.watcher = .stopped e)
    (hrunning : l.watcher ≠ .stopped e) : h = .act .watch ∧ l.Fails e ∧ ∀ cause, e ≠ .compile cause := by
  have hwork : ∀ batch left work, (l.workOn batch left work).watcher = .stopped e →
      ∃ tree, work l.tree = .error e tree ∧ ∀ cause, e ≠ .compile cause := by
    intro batch left work hw
    obtain ⟨tree, watcher, heq, ⟨page, rfl⟩ | ⟨e', rfl, hwork, huncaught⟩⟩ := workOn_cases l batch left work
    · simp [heq] at hw
    · obtain rfl : e' = e := by simpa [heq] using hw
      exact ⟨tree, hwork, huncaught⟩
  cases he with
  | begun watcher =>
    obtain ⟨tree, hfails, huncaught⟩ := hwork _ _ _ hw
    exact ⟨rfl, .start watcher hfails, huncaught⟩
  | advanced watcher =>
    obtain ⟨tree, hfails, huncaught⟩ := hwork _ _ _ hw
    exact ⟨rfl, .advance watcher hfails, huncaught⟩
  | applied => simp [notify] at hw
  | reported => simp at hw
  | _ => exact absurd hw hrunning

/-- A watcher that has nothing to rebuild only tells the provider. -/
theorem Effect.rests (he : Effect l h l') (hnone : l.site.rebuilding = none)
    (hrests : ∀ batch left page, l.watcher = .rebuilding batch left page → left = [] ∧ page = none) :
    ∀ batch left page, l'.watcher = .rebuilding batch left page → left = [] ∧ page = none := by
  intro batch left page hw
  cases he with
  | reported =>
    obtain ⟨-, hleft, hpage⟩ := Watcher.rebuilding.inj hw
    exact ⟨by simpa [hnone] using hleft.symm, hpage.symm⟩
  | begun watcher => exact absurd (hrests _ _ _ watcher).1 (List.cons_ne_nil _ _)
  | advanced watcher => exact absurd (hrests _ _ _ watcher).2 (by simp)
  | applied => simp [notify] at hw
  | _ => exact hrests batch left page hw

/-- Only a report makes an idle watcher work. -/
theorem Effect.idle (he : Effect l h l') (hidle : l.watcher = .idle) (hreport : h.isReport = false) :
    l'.watcher = .idle := by
  cases he with
  | reported => simp [Happening.isReport] at hreport
  | begun watcher | advanced watcher => simp [hidle] at watcher
  | applied => rfl
  | _ => exact hidle

/-- A watcher that is left alone ends its work. -/
theorem exists_rest (l : Live) : ∃ k, (l.run (List.replicate k .watch)).watcher = .idle ∨
    ∃ e, (l.run (List.replicate k .watch)).watcher = .stopped e := by
  have hall : ∀ (l : Live) batch left, l.watcher = .rebuilding batch left none →
      ∃ l', l.Reaches l' ∧ (l'.watcher = .idle ∨ ∃ e, l'.watcher = .stopped e) := by
    intro l batch left hw
    have heach := reaches_rebuildEach l batch left
    rw [show { l with watcher := .rebuilding batch left none } = l from hw ▸ rfl] at heach
    cases hrebuild : rebuildEach l.rules left l.tree with
    | error e tree => exact ⟨_, heach, .inr ⟨e, by rw [hrebuild]⟩⟩
    | ok rebuilt tree =>
      rw [hrebuild] at heach
      exact ⟨_, heach.trans (.of_watch .refl), .inl rfl⟩
  suffices h : ∃ l', l.Reaches l' ∧ (l'.watcher = .idle ∨ ∃ e, l'.watcher = .stopped e) by
    obtain ⟨l', ⟨k, rfl⟩, h⟩ := h
    exact ⟨k, h⟩
  cases hw : l.watcher with
  | idle => exact ⟨l, .refl, .inl hw⟩
  | stopped e => exact ⟨l, .refl, .inr ⟨e, hw⟩⟩
  | rebuilding batch left page =>
    have hfuel : ∀ r, page = some r → r.stagesLeft ≤ 3 := fun r _ => r.stagesLeft_le
    have hpage := reaches_advanceAll l batch left hfuel
    rw [show { l with watcher := .rebuilding batch left page } = l from hw ▸ rfl] at hpage
    have hdone : ∃ l', l.workOn batch left (do Rebuild.advanceAll l.rules 3 page; return none) = l' ∧
        (l'.watcher = .rebuilding batch left none ∨ ∃ e, l'.watcher = .stopped e) := by
      unfold workOn
      cases hwork : Rebuild.advanceAll l.rules 3 page l.tree with
      | ok _ tree =>
        rw [Building.bind_of_ok hwork]
        exact ⟨_, rfl, .inl rfl⟩
      | error e tree =>
        rw [Building.bind_eq_error_iff.2 (.inl hwork)]
        cases e with
        | compile => exact ⟨_, rfl, .inl rfl⟩
        | _ => exact ⟨_, rfl, .inr ⟨_, rfl⟩⟩
    obtain ⟨l', rfl, hrebuilding | hstopped⟩ := hdone
    · obtain ⟨l', hreaches, hl'⟩ := hall _ _ _ hrebuilding
      exact ⟨l', hpage.trans hreaches, hl'⟩
    · exact ⟨_, hpage, .inr hstopped⟩

/-! ## Moments -/

/-- The site after so much of what happens. -/
def moment (l : Live) (hs : List Happening) (k : Nat) : Live :=
  (hs.take k).foldl after l

variable {o : Live} {hs : List Happening}

theorem moment_succ {k : Nat} (hact : hs[k]? = some h) : o.moment hs (k + 1) = (o.moment hs k).after h := by
  rw [moment, List.take_add_one, hact, List.foldl_append]
  rfl

/-- What holds at a moment, and is kept by all that happens from then on, holds at all later moments. -/
theorem moment_induction {I : Nat → Live → Prop} {m : Nat} (start : I m (o.moment hs m))
    (next : ∀ k h l', m ≤ k → hs[k]? = some h → Effect (o.moment hs k) h l' → l' = o.moment hs (k + 1) →
      I k (o.moment hs k) → I (k + 1) l') {k : Nat} (hm : m ≤ k) (hk : k ≤ hs.length) : I k (o.moment hs k) := by
  induction k, hm using Nat.le_induction with
  | base => exact start
  | succ k hm ih =>
    have hact : hs[k]? = some hs[k] := List.getElem?_eq_getElem hk
    have hsucc := moment_succ (o := o) hact
    exact hsucc ▸ next k _ _ hm hact (effect _ _) hsucc.symm (ih (Nat.le_of_lt hk))

end Live

end Folio

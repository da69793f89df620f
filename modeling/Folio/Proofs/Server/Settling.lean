import Folio.Proofs.Server.Upkeep

set_option autoImplicit false

/-! # Runs that settle

While a site is watched sources of pages are written and deleted, and what is rebuilt compiles, until all that has been
changed has been reported and the watcher has nothing to do (`Live.Settles`). What a batch is to do for a page has been
done when it has been applied, so at that moment all that has been told of a page is in its files and in the manifest
(`Live.Followed`), and nothing that comes later changes that. -/

namespace Folio.Live

open Provider

/-! ## Runs that settle -/

/-- A report that names the source of a page is heard. -/
def Heard (o : Live) (hs : List Happening) (i : Nat) (n : PageName) : Prop :=
  ∃ paths, hs[i]? = some (.act (.report paths)) ∧ (o.moment hs i).watcher = .idle ∧
    ∃ p ∈ changedPaths paths, (o.moment hs i).rules.Leads (o.moment hs i).tree p n

/-- The source of a page has been written or deleted. -/
def Changed (o : Live) (hs : List Happening) (k : Nat) (n : PageName) : Prop :=
  ∃ i h, i < k ∧ hs[i]? = some h ∧ (o.moment hs i).Changes n h

/-- Whenever the source of a page has been written or deleted, a report of it has been heard since. -/
def Told (o : Live) (hs : List Happening) (k : Nat) (n : PageName) : Prop :=
  ∀ i h, i < k → hs[i]? = some h → (o.moment hs i).Changes n h → ∃ r, i < r ∧ r < k ∧ Heard o hs r n

/-- Whether neither sources are changed nor are changes reported. -/
def Happening.isQuiet : Happening → Bool
  | .edit _ | .act (.modify _ _ _) | .act (.report _) => false
  | .act _ => true

/-- Sources of pages come and go, and all that is rebuilt compiles, until all changes have been reported and the
    last batch has been applied. -/
structure Settles (o : Live) (hs : List Happening) (k : Nat) : Prop where
  within : k ≤ hs.length
  proper : ∀ i h, hs[i]? = some h → (o.moment hs i).Proper h
  compiles : ∀ i, i < k → (o.moment hs i).TurnCompiles
  idle : (o.moment hs k).watcher = .idle
  told : ∀ n, Told o hs k n
  quiet : ∀ i h, k ≤ i → hs[i]? = some h → h.isQuiet = true

section

variable {o l l' : Live} {hs : List Happening} {h : Happening} {k : Nat} {n : PageName}

/-- What has been told still has been before the last thing happened, unless that was the report. -/
theorem told_succ (ht : Told o hs (k + 1) n) :
    Heard o hs k n ∨ Told o hs k n ∧ ∀ h, hs[k]? = some h → ¬ (o.moment hs k).Changes n h := by
  by_cases hheard : Heard o hs k n
  · exact .inl hheard
  refine .inr ⟨fun i h hi hact hchanges => ?_, fun h hact hchanges => ?_⟩
  · obtain ⟨r, hir, hr, hheard'⟩ := ht i h (Nat.lt_succ_of_lt hi) hact hchanges
    rcases Nat.lt_succ_iff_lt_or_eq.1 hr with hr | rfl
    · exact ⟨r, hir, hr, hheard'⟩
    · exact absurd hheard' hheard
  · obtain ⟨r, hkr, hr, -⟩ := ht k h (Nat.lt_succ_self k) hact hchanges
    omega

theorem changed_succ (hc : Changed o hs (k + 1) n)
    (hnot : ∀ h, hs[k]? = some h → ¬ (o.moment hs k).Changes n h) : Changed o hs k n := by
  obtain ⟨i, h, hi, hact, hchanges⟩ := hc
  rcases Nat.lt_succ_iff_lt_or_eq.1 hi with hi | rfl
  · exact ⟨i, h, hi, hact, hchanges⟩
  · exact absurd hchanges (hnot h hact)

/-- A report that is heard is taken up. -/
theorem Heard.next (hh : Heard o hs k n) : ∃ batch, (o.moment hs (k + 1)).watcher
      = .rebuilding batch (if (o.moment hs k).site.rebuilding.isSome then batch else []) none ∧
    ∃ p ∈ batch, (o.moment hs k).rules.Leads (o.moment hs (k + 1)).tree p n := by
  obtain ⟨paths, hact, hidle, p, hp, hleads⟩ := hh
  have hsucc : o.moment hs (k + 1) = (o.moment hs k).takeUp (changedPaths paths) := moment_succ hact
  rw [takeUp, hidle] at hsucc
  rw [hsucc]
  exact ⟨changedPaths paths, rfl, p, hp, hleads⟩

/-- A watcher that is stopped stays so. -/
theorem Effect.stopped {e : BuildError} (he : Effect l h l') (hw : l.watcher = .stopped e) :
    l'.watcher = .stopped e := by
  cases he with
  | reported idle => simp [hw] at idle
  | begun watcher | advanced watcher | applied watcher => simp [hw] at watcher
  | _ => exact hw

/-- A watcher that is idle has not been stopped before. -/
theorem running_moment (hk : k ≤ hs.length) (hidle : (o.moment hs k).watcher = .idle) {j : Nat} (hj : j ≤ k)
    (e : BuildError) : (o.moment hs j).watcher ≠ .stopped e := by
  intro hw
  have hstopped : (o.moment hs k).watcher = .stopped e :=
    moment_induction (I := fun _ l => l.watcher = .stopped e) hw (fun _ _ _ _ _ he _ hw => he.stopped hw) hj hk
  cases hidle.symm.trans hstopped

/-- When nothing is changed or reported, files stay as they are, and an idle watcher stays idle. -/
theorem Effect.quiet (he : Effect l h l') (hidle : l.watcher = .idle) (hquiet : h.isQuiet = true) :
    l'.tree = l.tree ∧ l'.watcher = .idle := by
  cases he with
  | modified | edited | reported => simp [Happening.isQuiet] at hquiet
  | begun watcher | advanced watcher | applied watcher => simp [hidle] at watcher
  | _ => exact ⟨rfl, hidle⟩

end

/-! ## Pages on the way -/

section

variable {o : Live} {hs : List Happening} {k : Nat} {modules : List (String × Json)}

/-- What is so of pages at all moments before a run has settled. -/
structure Followed (o : Live) (hs : List Happening) (first : List (String × Json)) (j : Nat)
    (modules : List (String × Json)) (l : Live) : Prop where
  tended : Tended o modules l
  accounted : ∀ n, o.rules.entry n ∈ first → Accounted o n modules l
  upkeep : o.site.rebuilding.isSome → ∀ n, Changed o hs j n → Told o hs j n → Upkeep o n modules l
  supplied : ∀ n, o.provider.resolve n.slug = .ok (keyFor o.rules.keyStart n.slug) → n.stem ≠ "" → Loads o n →
    Told o hs j n → Supplied o n l

section

variable (ho : o.Untouched) (htended : Tended o modules o) (hsettles : Settles o hs k)
include ho htended hsettles

theorem followed_moment {j : Nat} (hj : j ≤ k) :
    ∃ modules', Followed o hs modules j modules' (o.moment hs j) := by
  refine moment_induction (o := o) (m := 0)
    (I := fun j l => j ≤ k → ∃ modules', Followed o hs modules j modules' l)
    (fun _ => ⟨modules, htended, fun _ => .inl, fun _ _ ⟨_, _, hi, _⟩ => absurd hi (Nat.not_lt_zero _),
      fun n _ _ _ _ => .inr ⟨0, (ho.steady n.slug _).mono (fun _ => id) fun _ => id⟩⟩)
    (fun j h l' _ hact he heq ih hj => ?_) (Nat.zero_le j) (hj.trans hsettles.within) hj
  obtain ⟨modules', hf⟩ := ih (Nat.le_of_lt hj)
  obtain ⟨modules'', hm, htended'⟩ := hf.tended.next (hsettles.proper j h hact) (hsettles.compiles j hj) he
    (heq ▸ running_moment hsettles.within hsettles.idle hj)
  -- a report that is heard puts the page in the batch
  have hheard : ∀ n, Heard o hs j n → ∃ batch, l'.watcher
        = .rebuilding batch (if o.site.rebuilding.isSome then batch else []) none ∧
      ∃ p ∈ batch, o.rules.Leads l'.tree p n := fun n hh => by
    rw [heq, ← hf.tended.attended.rebuilding_eq, ← hf.tended.attended.rules_eq]
    exact hh.next
  refine ⟨modules'', htended', fun n hn => accounted_next hf.tended hm (hf.accounted n hn),
    fun hsome n hchanged htold => ?_, fun n hresolve hstem hloads htold => ?_⟩
  · rcases told_succ htold with hh | ⟨htold, hnot⟩
    · obtain ⟨batch, hw, p, hp, hleads⟩ := hheard n hh
      rw [if_pos hsome] at hw
      exact .queued hw hp hleads
    · exact upkeep_next hf.tended hm (hnot h hact) (hf.upkeep hsome n (changed_succ hchanged hnot) htold)
  · rcases told_succ htold with hh | ⟨htold, hnot⟩
    · obtain ⟨batch, hw, p, hp, hleads⟩ := hheard n hh
      exact .inl ⟨batch, _, _, hw, p, hp, htended'.attended.rules_eq ▸ hleads⟩
    · exact supplied_next hresolve hstem hloads hf.tended he hm (hnot h hact)
        (hf.supplied n hresolve hstem hloads htold)

omit htended hsettles in
theorem attended_moment {j : Nat} (hj : j ≤ hs.length) :
    Attended o (o.moment hs j) ∧ Gives (Denied o) (o.moment hs j).provider := by
  refine moment_induction (o := o) (m := 0)
    (I := fun _ l => Attended o l ∧ Gives (Denied o) l.provider) ⟨ho.attended, ?_⟩
    (fun _ _ _ _ _ he _ ih => ⟨ih.1.next he, denied_next ih.1 ih.2 he⟩) (Nat.zero_le j) hj
  change Gives (Denied o) o.provider
  rw [ho.provider]
  exact gives_initial _ _

end

/-- What is steady when a run has settled stays so. -/
theorem steady_last (hsettles : Settles o hs k) {slug key : String} {good : Except LoaderError Artifact → Prop}
    {first : Nat} {late : Nat → Prop} (hresolve : o.provider.resolve slug = .ok key)
    (ha : Attended o (o.moment hs k)) (hsteady : Steady slug good first late (o.moment hs k))
    (hgood : good (o.site.server.backend.load (o.moment hs k).tree key)) :
    Steady slug good first late (o.moment hs hs.length) := by
  have hall := moment_induction (o := o) (m := k)
    (I := fun _ l => Attended o l ∧ l.tree = (o.moment hs k).tree ∧ l.watcher = .idle ∧ Steady slug good first late l)
    ⟨ha, rfl, hsettles.idle, hsteady⟩
    (fun j h l' hj hact he _ ⟨ha, htree, hidle, hsteady⟩ => by
      obtain ⟨htree', hidle'⟩ := he.quiet hidle (hsettles.quiet j h hj hact)
      exact ⟨ha.next he, htree'.trans htree, hidle', hsteady.next hresolve ha (htree ▸ hgood) he⟩)
    hsettles.within (Nat.le_refl _)
  exact hall.2.2.2

end

end Folio.Live

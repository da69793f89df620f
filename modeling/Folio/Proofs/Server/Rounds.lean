import Folio.Proofs.Build.Failures
import Folio.Proofs.Server.Watching

set_option autoImplicit false

/-! # How a batch is worked through

A batch is reported to a watcher that is idle, each of its sources has a turn, and then the batch is applied
(`Live.Round`). A source that does not compile at its turn changes nothing but what is left of the batch. As long
as every source makes a text or does not compile, the watcher does not stop, and each thing that it does lowers
the number of those that are left before it is idle (`Watcher.work`). -/

namespace Folio

/-- How much a watcher can do before it is idle. -/
def Watcher.work : Watcher → Nat
  | .rebuilding _ left page => 1 + 4 * left.length + (page.map Rebuild.stagesLeft).getD 0
  | _ => 0

namespace Live

variable {o : Live} {acts : List Act}

/-! ## Moments of a run -/

theorem runTo_succ {k : Nat} {act : Act} (h : acts[k]? = some act) :
    o.runTo acts (k + 1) = (o.runTo acts k).step act := by
  rw [runTo, List.take_add_one, h, run, List.foldl_append]
  rfl

theorem runTo_length (o : Live) (acts : List Act) : o.runTo acts acts.length = o.run acts := by
  rw [runTo, List.take_length]

/-- What holds at a moment of a run, and is kept by every act from then on, holds at all later moments. -/
theorem later_induction {I : Nat → Prop} {m : Nat} (start : I m)
    (next : ∀ k act, m ≤ k → acts[k]? = some act → I k → I (k + 1)) {k : Nat} (hm : m ≤ k)
    (hk : k ≤ acts.length) : I k := by
  induction k, hm using Nat.le_induction with
  | base => exact start
  | succ k hm ih =>
    have hlt : k < acts.length := hk
    exact next k _ hm (List.getElem?_eq_getElem hlt) (ih (Nat.le_of_lt hlt))

theorem watched_runTo (ho : o.Opened) (hacts : ∀ act ∈ acts, act.IsProper o) {k : Nat} (hk : k ≤ acts.length) :
    Watched o (o.runTo acts k) :=
  later_induction (I := fun k => Watched o (o.runTo acts k)) (m := 0) ho.watched
    (fun _ _ _ hact h => runTo_succ hact ▸ h.step ho (hacts _ (List.mem_of_getElem? hact))) (Nat.zero_le k) hk

theorem watched_of_act (ho : o.Opened) (hacts : ∀ act ∈ acts, act.IsProper o) {k : Nat} {act : Act}
    (hact : acts[k]? = some act) : Watched o (o.runTo acts k) :=
  watched_runTo ho hacts (Nat.le_of_lt (List.getElem?_eq_some_iff.1 hact).1)

theorem move_runTo (ho : o.Opened) (hacts : ∀ act ∈ acts, act.IsProper o) {k : Nat} {act : Act}
    (hact : acts[k]? = some act) : Move o (o.runTo acts k) act (o.runTo acts (k + 1)) := by
  rw [runTo_succ hact]
  exact (watched_of_act ho hacts hact).move ho (hacts _ (List.mem_of_getElem? hact))

/-- The next act is the turn of a source. -/
def Turn (o : Live) (acts : List Act) (k : Nat) (p : Path) : Prop :=
  acts[k]? = some .watch ∧ ∃ batch rest, (o.runTo acts k).watcher = .rebuilding batch (p :: rest) none

/-- The next act applies a batch. -/
def Applies (o : Live) (acts : List Act) (t : Nat) (batch : List Path) : Prop :=
  acts[t]? = some .watch ∧ (o.runTo acts t).watcher = .rebuilding batch [] none

/-! ## Rounds -/

/-- A batch is reported to an idle watcher, who has worked on it since then. Each of its sources has had a turn
    or is left. -/
structure Round (o : Live) (acts : List Act) (r k : Nat) (batch left : List Path) : Prop where
  before : r < k
  reported : ∃ paths, acts[r]? = some (.report paths) ∧ batch = changedPaths paths
  idle : (o.runTo acts r).watcher = .idle
  working : ∀ i, r < i → i ≤ k → ∃ left page, (o.runTo acts i).watcher = .rebuilding batch left page
  turns : ∀ p ∈ batch, p ∈ left ∨ ∃ j, r < j ∧ j < k ∧ o.Turn acts j p

theorem Round.next {r k : Nat} {batch left left' : List Path} {page : Option Rebuild}
    (h : Round o acts r k batch left) (hw : (o.runTo acts (k + 1)).watcher = .rebuilding batch left' page)
    (hleft : ∀ p ∈ left, p ∈ left' ∨ o.Turn acts k p) : Round o acts r (k + 1) batch left' := by
  refine ⟨Nat.lt_succ_of_lt h.before, h.reported, h.idle, fun i hr hi => ?_, fun p hp => ?_⟩
  · rcases Nat.le_succ_iff.1 hi with hi | rfl
    · exact h.working i hr hi
    · exact ⟨_, _, hw⟩
  · rcases h.turns p hp with hmem | ⟨j, hr, hj, hturn⟩
    · exact (hleft p hmem).imp id fun hturn => ⟨k, h.before, Nat.lt_succ_self k, hturn⟩
    · exact .inr ⟨j, hr, Nat.lt_succ_of_lt hj, hturn⟩

/-- What a watcher works on has been reported. -/
theorem exists_round (ho : o.Opened) (hacts : ∀ act ∈ acts, act.IsProper o) {k : Nat} (hk : k ≤ acts.length) :
    ∀ batch left page, (o.runTo acts k).watcher = .rebuilding batch left page →
      ∃ r, Round o acts r k batch left := by
  refine later_induction (I := fun k => ∀ batch left page, (o.runTo acts k).watcher = .rebuilding batch left page →
    ∃ r, Round o acts r k batch left) (fun batch left page hw => ?_)
    (fun k act _ hact ih batch left page hw => ?_) (Nat.zero_le k) hk
  · exact absurd (ho.watcher.symm.trans hw) (by simp)
  have hnext : ∀ {left' page'}, (o.runTo acts k).watcher = .rebuilding batch left' page' →
      (∀ p ∈ left', p ∈ left ∨ o.Turn acts k p) → ∃ r, Round o acts r (k + 1) batch left := by
    intro left' page' hbefore hleft
    obtain ⟨r, hround⟩ := ih _ _ _ hbefore
    exact ⟨r, hround.next hw hleft⟩
  -- a source that is taken up has its turn, and all others that were left are left
  have hturn : ∀ {p rest}, act = .watch → (o.runTo acts k).watcher = .rebuilding batch (p :: rest) none →
      ∀ q ∈ p :: rest, q ∈ rest ∨ o.Turn acts k q := by
    intro p rest heq hbefore q hq
    rcases List.mem_cons.1 hq with rfl | hq
    · exact .inr ⟨heq ▸ hact, batch, rest, hbefore⟩
    · exact .inl hq
  have hmove := move_runTo ho hacts hact
  have hnow := hw
  generalize hlast : o.runTo acts (k + 1) = l' at hmove hnow
  cases hmove with
  | reported idle =>
    obtain ⟨rfl, rfl, rfl⟩ := Watcher.rebuilding.inj hnow
    refine ⟨k, Nat.lt_succ_self k, ⟨_, hact, rfl⟩, idle, fun i hk hi => ?_, fun p hp => .inl hp⟩
    obtain rfl := Nat.le_antisymm hi hk
    exact ⟨_, _, hw⟩
  | begun watcher | failed watcher =>
    obtain ⟨rfl, rfl, rfl⟩ := Watcher.rebuilding.inj hnow
    exact hnext watcher (hturn rfl watcher)
  | advanced watcher =>
    obtain ⟨rfl, rfl, rfl⟩ := Watcher.rebuilding.inj hnow
    exact hnext watcher fun p hp => .inl hp
  | escaped | broken | applied => simp [notify] at hnow
  | _ => exact hnext hnow fun p hp => .inl hp

/-- A source that does not compile at its turn changes nothing but what is left of the batch. -/
theorem runTo_of_turn_error (ho : o.Opened) (hacts : ∀ act ∈ acts, act.IsProper o) {k : Nat} {p : Path}
    (hturn : o.Turn acts k p) {e : CompileError}
    (hfails : compileFile o.rules.compiling (o.runTo acts k).tree p (some o.rules.root) = .error (.compile e)) :
    ∃ batch rest, (o.runTo acts k).watcher = .rebuilding batch (p :: rest) none ∧
      o.runTo acts (k + 1) = { o.runTo acts k with watcher := .rebuilding batch rest none } := by
  obtain ⟨hact, batch, rest, hw⟩ := hturn
  have htext : moduleText o.rules (o.runTo acts k).tree p = .error (.compile e) := by
    rw [moduleText, hfails]
    rfl
  refine ⟨batch, rest, hw, ?_⟩
  have h := watched_of_act ho hacts hact
  obtain ⟨hbatch, hleft, -⟩ := h.working _ _ _ hw
  obtain ⟨-, n, hn, hleads⟩ := hbatch p (hleft List.mem_cons_self)
  obtain ⟨listed, -, hstart⟩ := Rebuild.start_eq h.rebuildable hn (h.leads hleads)
  rw [runTo_succ hact]
  change watch _ = _
  rw [watch, hw]
  simp only [workOn, h.rules_eq, hstart, htext]

/-! ## Work -/

/-- Whether the watcher does something in an act. -/
def Act.isWatch : Act → Bool
  | .watch => true
  | _ => false

/-- No directory has the name of the draft of a page. -/
def DraftsFree (o l : Live) : Prop :=
  ∀ n, o.tree.IsPage o.rules.root n →
    l.tree.entry? (o.rules.out.place l.tree.home ++ n.draft) ≠ some .directory

/-- At its turn every source makes a text or does not compile. -/
def Caught (o : Live) (acts : List Act) : Prop :=
  ∀ k p e, o.Turn acts k p → ¬ Escapes o.rules (o.runTo acts k).tree p e

section

variable {l l' : Live} {act : Act}

theorem draftsFree_of_opens {tree : FileTree} (h : DraftsFree o l) (hhome : tree.home = l.tree.home)
    (hopens : FileTree.Opens (fun _ => False) l.tree tree) (watcher : Watcher) :
    DraftsFree o { l with tree := tree, watcher := watcher } := by
  intro n hn hdirectory
  rw [hhome] at hdirectory
  exact (hopens _ hdirectory).elim (h n hn) id

theorem draftsFree_next (hw : Watched o l) (h : DraftsFree o l) (hmove : Move o l act l')
    (hrunning : ∀ cause, l'.watcher ≠ .stopped cause) : DraftsFree o l' := by
  cases hmove with
  | edited page alters opens source => exact draftsFree_of_opens h alters.home opens l.watcher
  | advanced watcher page slug advance advances =>
    exact draftsFree_of_opens h advances.directories.home
      (hw.rebuildable.opens_advance page slug advance) _
  | broken => exact absurd rfl (hrunning _)
  | _ => exact h

/-- A watcher that is not stopped by a source that escapes is not stopped. -/
theorem running_next (hw : Watched o l) (hfree : DraftsFree o l) (hmove : Move o l act l')
    (hcaught : ∀ batch rest p e, act = .watch → l.watcher = .rebuilding batch (p :: rest) none →
      ¬ Escapes o.rules l.tree p e) (hrunning : ∀ cause, l.watcher ≠ .stopped cause) :
    ∀ cause, l'.watcher ≠ .stopped cause := by
  cases hmove with
  | escaped watcher escapes uncaught =>
    rcases moduleText_error escapes with ⟨cause, heq⟩ | hescapes
    · exact absurd heq (uncaught _)
    · exact absurd hescapes (hcaught _ _ _ _ rfl watcher)
  | broken watcher breaks alters =>
    obtain ⟨next, tree, hnext⟩ :=
      ((hw.working _ _ _ watcher).2.2 _ rfl).advance_succeeds hw.rebuildable hfree
    rw [breaks] at hnext
    cases hnext
  | reported | begun | failed | advanced | applied => simp [notify]
  | _ => exact hrunning

/-- What the watcher does lowers what it can do, and what others do does not matter. -/
theorem work_next (hmove : Move o l act l') (hbusy : l.watcher ≠ .idle)
    (hrunning : ∀ cause, l'.watcher ≠ .stopped cause) :
    l'.watcher.work + (if act.isWatch then 1 else 0) ≤ l.watcher.work := by
  cases hmove with
  | begun watcher =>
    simp only [watcher, Watcher.work, Rebuild.stagesLeft, Act.isWatch, List.length_cons, Option.map_some,
      Option.map_none, Option.getD_some, Option.getD_none, if_true]
    omega
  | failed watcher =>
    simp only [watcher, Watcher.work, Act.isWatch, List.length_cons, Option.map_none, Option.getD_none, if_true]
    omega
  | @advanced batch left r n next tree watcher page slug advance advances =>
    have hleft : (next.map Rebuild.stagesLeft).getD 0 < r.stagesLeft := by
      cases next with
      | none => exact r.stagesLeft_pos
      | some r' => exact Rebuild.stagesLeft_advance advance
    simp only [watcher, Watcher.work, Act.isWatch, Option.map_some, Option.getD_some, if_true]
    omega
  | applied watcher =>
    simp only [watcher, Watcher.work, notify, Act.isWatch, List.length_nil, Option.map_none, Option.getD_none,
      if_true]
    omega
  | reported idle => exact absurd idle hbusy
  | escaped | broken => exact absurd rfl (hrunning _)
  | still rests =>
    have hother : act ≠ .watch := by
      intro heq
      cases hw : l.watcher with
      | idle => exact hbusy hw
      | rebuilding batch left page => exact rests heq batch left page hw
      | stopped cause => exact hrunning cause hw
    cases act with
    | watch => exact absurd rfl hother
    | _ => exact Nat.le_refl _
  | edited => exact Nat.le_refl _
  | read => exact Nat.le_refl _
  | @served act e event =>
    cases act with
    | watch => simp [Act.event?] at event
    | _ => exact Nat.le_refl _

end

section

variable (ho : o.Opened) (hacts : ∀ act ∈ acts, act.IsProper o) (hfree : DraftsFree o o) (hcaught : Caught o acts)
include ho hacts hfree hcaught

theorem running_runTo {k : Nat} (hk : k ≤ acts.length) :
    DraftsFree o (o.runTo acts k) ∧ ∀ cause, (o.runTo acts k).watcher ≠ .stopped cause := by
  refine later_induction (I := fun k => DraftsFree o (o.runTo acts k) ∧
    ∀ cause, (o.runTo acts k).watcher ≠ .stopped cause) (m := 0) ⟨hfree, fun cause hw => ?_⟩
    (fun k act _ hact h => ?_) (Nat.zero_le k) hk
  · exact absurd (ho.watcher.symm.trans hw) (by simp)
  have hmove := move_runTo ho hacts hact
  have hwatched := watched_of_act ho hacts hact
  have hrunning := running_next hwatched h.1 hmove
    (fun batch rest p e heq hw => hcaught k p e ⟨heq ▸ hact, batch, rest, hw⟩) h.2
  exact ⟨draftsFree_next hwatched h.1 hmove hrunning, hrunning⟩

/-- A watcher that does as much as it can do is idle at some moment. -/
theorem exists_idle {k : Nat} (hk : k ≤ acts.length)
    (hwork : (o.runTo acts k).watcher.work ≤ (acts.drop k).countP Act.isWatch) :
    ∃ i, k ≤ i ∧ i ≤ acts.length ∧ (o.runTo acts i).watcher = .idle := by
  induction hd : acts.length - k generalizing k with
  | zero =>
    -- nothing more is done, so nothing is left to do
    refine ⟨k, Nat.le_refl k, hk, ?_⟩
    rw [List.drop_of_length_le (Nat.le_of_sub_eq_zero hd), List.countP_nil] at hwork
    cases hw : (o.runTo acts k).watcher with
    | idle => rfl
    | rebuilding batch left page => simp [hw, Watcher.work] at hwork
    | stopped cause => exact absurd hw ((running_runTo ho hacts hfree hcaught hk).2 cause)
  | succ d ih =>
    by_cases hidle : (o.runTo acts k).watcher = .idle
    · exact ⟨k, Nat.le_refl k, hk, hidle⟩
    have hlt : k < acts.length := by omega
    have hact : acts[k]? = some acts[k] := List.getElem?_eq_getElem hlt
    have hlower := work_next (move_runTo ho hacts hact) hidle (running_runTo ho hacts hfree hcaught hlt).2
    rw [List.drop_eq_getElem_cons hlt, List.countP_cons] at hwork
    obtain ⟨i, hi, hlength, hidle⟩ := ih (k := k + 1) hlt (by omega) (by omega)
    exact ⟨i, Nat.le_of_succ_le hi, hlength, hidle⟩

end

end Live

end Folio

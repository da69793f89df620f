import Folio.Proofs.FileTree.Sources

set_option autoImplicit false

/-! # Which directories changes make

A change that writes files makes no directories but those on the way to them (`Opens`). A path passes
through the places to which its beginnings lead (`Passes`); of a path that leads to a directory all of them
are directories already. So what is written below a directory makes directories below it only, and a place
that is on no way is never taken by a directory. -/

namespace Folio

/-! ## Ways -/

namespace Path

/-- Some beginning of a path leads to a place. -/
def Passes (home : Place) (p : Path) (q : Place) : Prop :=
  ∃ k, q = Path.place home ⟨p.isAbsolute, p.parts.take k⟩

theorem passes_self (home : Place) (p : Path) : p.Passes home (p.place home) :=
  ⟨p.parts.length, by rw [List.take_length]⟩

theorem Passes.of_parent {home : Place} {p : Path} {q : Place} (h : p.parent.Passes home q) :
    p.Passes home q := by
  obtain ⟨k, rfl⟩ := h
  refine ⟨min k (p.parts.length - 1), ?_⟩
  simp only [parent, List.dropLast_eq_take, List.take_take]

/-- The way of names that lead on is the way to where they start, and then theirs. -/
theorem passes_join {home : Place} {p : Path} {names : List String} (hnames : ∀ s ∈ names, IsName s)
    {q : Place} (h : (p.join ⟨false, names⟩).Passes home q) :
    p.Passes home q ∨ ∃ k, q = p.place home ++ names.take k := by
  obtain ⟨k, rfl⟩ := h
  by_cases hk : k ≤ p.parts.length
  · refine .inl ⟨k, ?_⟩
    simp only [join, Bool.false_eq_true, if_false, List.take_append_of_le_length hk]
  · refine .inr ⟨k - p.parts.length, ?_⟩
    rw [← place_join fun s hs => hnames s (List.mem_of_mem_take hs)]
    simp only [join, Bool.false_eq_true, if_false, List.take_append,
      List.take_of_length_le (Nat.le_of_lt (Nat.lt_of_not_le hk))]

end Path

namespace FileTree

/-! ## Following paths -/

theorem directory_of_walk {tree : FileTree} {place q : Place} {parts : List String}
    (hwalk : tree.walk place parts = .ok q) {k : Nat} (hk : k < parts.length) :
    tree.entry? (Path.follow place (parts.take k)) = some .directory := by
  induction parts generalizing place k with
  | nil => exact absurd hk (Nat.not_lt_zero _)
  | cons part parts ih =>
    rw [walk] at hwalk
    split at hwalk
    · simp at hwalk
    · simp at hwalk
    · next hdirectory =>
      cases k with
      | zero => exact hdirectory
      | succ k =>
        have hk := Nat.lt_of_succ_lt_succ hk
        rw [List.take_succ_cons, Path.follow]
        split at hwalk
        · simp at hwalk
        · split at hwalk
          · next hparent =>
            rw [if_pos hparent]
            exact ih hwalk hk
          · next hparent =>
            rw [if_neg hparent]
            exact ih hwalk hk

/-- On the way to a directory there are directories. -/
theorem entry?_of_passes {tree : FileTree} {p : Path} (h : tree.isDirectory p = true) {q : Place}
    (hq : p.Passes tree.home q) : tree.entry? q = some .directory := by
  obtain ⟨k, rfl⟩ := hq
  obtain ⟨hlocate, hentry⟩ := isDirectory_iff.1 h
  by_cases hk : k < p.parts.length
  · have hnul := (place_of_locate hlocate).2
    rw [locate, if_neg (by simp [hnul])] at hlocate
    exact directory_of_walk hlocate hk
  · rwa [List.take_of_length_le (Nat.le_of_not_lt hk)]

/-- A path through which another leads on is that of a directory. -/
theorem isDirectory_of_locate {tree : FileTree} {p : Path} {name : String} {q : Place}
    (h : tree.locate (p.join ⟨false, [name]⟩) = .ok q) : tree.isDirectory p = true := by
  have hnul : p.hasNul = false := by
    have hjoin := (place_of_locate h).2
    rw [Path.hasNul, List.any_eq_false] at hjoin ⊢
    exact fun s hs => hjoin s (List.mem_append_left _ hs)
  rw [locate, if_neg (by simp [(place_of_locate h).2])] at h
  simp only [Path.join, Bool.false_eq_true, if_false, walk_append] at h
  obtain ⟨r, hwalk, hlast⟩ := Except.bind_eq_ok_iff.1 h
  have hlocate : tree.locate p = .ok r := by
    rw [locate, if_neg (by simp [hnul])]
    exact hwalk
  obtain rfl := (place_of_locate hlocate).1
  refine isDirectory_iff.2 ⟨hlocate, ?_⟩
  rw [walk] at hlast
  split at hlast
  · simp at hlast
  · simp at hlast
  · next hdirectory => exact hdirectory

/-! ## Changes -/

/-- A tree has no directories but those of another, and some places. -/
def Opens (opened : Place → Prop) (tree tree' : FileTree) : Prop :=
  ∀ q, tree'.entry? q = some .directory → tree.entry? q = some .directory ∨ opened q

section

variable {opened opened' : Place → Prop} {tree tree' tree'' : FileTree}

theorem Opens.refl (tree : FileTree) : Opens opened tree tree :=
  fun _ hq => .inl hq

theorem Opens.trans (h : Opens opened tree tree') (h' : Opens opened tree' tree'') :
    Opens opened tree tree'' :=
  fun q hq => (h' q hq).elim (h q) .inr

theorem Opens.mono (h : Opens opened tree tree') (hmore : ∀ q, opened q → opened' q) :
    Opens opened' tree tree' :=
  fun q hq => (h q hq).imp id (hmore q)

theorem opens_put_file (tree : FileTree) {place : Place} (hplace : place ≠ []) (bytes : List UInt8)
    (modified : Int) : Opens opened tree (tree.put place (.file bytes modified)) := by
  intro q hq
  rw [entry?_put hplace] at hq
  split at hq
  · simp at hq
  · exact .inl hq

theorem opens_erase (tree : FileTree) {place : Place} (hplace : place ≠ []) :
    Opens opened tree (tree.erase place) := by
  intro q hq
  rw [entry?_erase hplace] at hq
  split at hq
  · simp at hq
  · exact .inl hq

theorem opens_makeDirectory {p : Path} (h : tree.makeDirectory p = .ok tree') :
    Opens (p.Passes tree.home) tree tree' ∧ tree'.home = tree.home := by
  unfold makeDirectory at h
  split at h
  · simp at h
  · next place hlocate =>
    obtain ⟨rfl, -⟩ := place_of_locate hlocate
    split at h
    · simp at h
    · next hfree =>
      obtain rfl := Except.ok.inj h
      refine ⟨fun q hq => ?_, rfl⟩
      rw [entry?_put (@ne_nil_of_entry tree _ (by simp [hfree]))] at hq
      split at hq
      · next heq => exact .inr (heq ▸ Path.passes_self _ p)
      · exact .inl hq

theorem opens_makeDirectoriesFrom {fuel : Nat} {p : Path}
    (h : makeDirectoriesFrom fuel tree p = .ok tree') :
    Opens (p.Passes tree.home) tree tree' ∧ tree'.home = tree.home := by
  induction fuel generalizing p tree' with
  | zero =>
    obtain rfl := Except.ok.inj h
    exact ⟨.refl _, rfl⟩
  | succ fuel ih =>
    rw [makeDirectoriesFrom] at h
    split at h
    · next hmade =>
      obtain rfl := Except.ok.inj h
      exact opens_makeDirectory hmade
    · split at h
      · simp [bind, Except.bind, throw, throwThe, MonadExceptOf.throw] at h
      · -- the parents are made first, and they are on the way
        obtain ⟨above, habove, h⟩ := Except.bind_eq_ok_iff.1 h
        obtain ⟨hopens, hhome⟩ := ih habove
        have hopens := hopens.mono fun q hq => hq.of_parent
        split at h
        · next hmade =>
          obtain rfl := Except.ok.inj h
          obtain ⟨hlast, hhome'⟩ := opens_makeDirectory hmade
          exact ⟨hopens.trans (hhome ▸ hlast), hhome'.trans hhome⟩
        · split at h
          · obtain rfl := Except.ok.inj h
            exact ⟨hopens, hhome⟩
          · simp [throw, throwThe, MonadExceptOf.throw] at h
    · split at h
      · obtain rfl := Except.ok.inj h
        exact ⟨.refl _, rfl⟩
      · simp at h

/-- Directories that are made with their parents are on the way. -/
theorem opens_makeDirectories {p : Path} (h : tree.makeDirectories p = .ok tree') :
    Opens (p.Passes tree.home) tree tree' :=
  (opens_makeDirectoriesFrom h).1

theorem opens_write {p : Path} {bytes : List UInt8} {modified : Int}
    (h : tree.write p bytes modified = .ok tree') : Opens opened tree tree' := by
  unfold write at h
  split at h
  · simp at h
  · next place hlocate =>
    -- a file or nothing gives way, so the place is not the root
    have hput : place ≠ [] ∧ tree.put place (.file bytes modified) = tree' := by
      split at h
      · simp at h
      · next hfile => exact ⟨@ne_nil_of_entry tree _ (by simp [hfile]), Except.ok.inj h⟩
      · next hnone _ => exact ⟨@ne_nil_of_entry tree _ (by simp [hnone]), Except.ok.inj h⟩
      · simp at h
      · simp at h
    obtain ⟨hplace, rfl⟩ := hput
    exact opens_put_file tree hplace bytes modified

theorem opens_remove {p : Path} (h : tree.remove p = .ok tree') : Opens opened tree tree' := by
  unfold remove at h
  split at h
  · simp at h
  · next place hlocate =>
    split at h
    · simp at h
    · simp at h
    · next hfile =>
      obtain rfl := Except.ok.inj h
      exact opens_erase tree (@ne_nil_of_entry tree _ (by simp [hfile]))

theorem opens_moveFile {p target : Path} (h : tree.moveFile p target = .ok tree') :
    Opens opened tree tree' := by
  unfold moveFile at h
  dsimp only at h
  split at h
  · simp at h
  · simp at h
  · next old new _ _ =>
    split at h
    · simp at h
    · simp at h
    · simp at h
    · next bytes modified hfile hfree =>
      obtain rfl := Except.ok.inj h
      have hold : old ≠ [] := @ne_nil_of_entry tree _ (by simp [hfile])
      exact (opens_erase tree hold).trans (opens_put_file _ (ne_nil_of_entry hfree) bytes modified)

/-- However a file is written beside its place and moved there, the directories that are made are on the
    way to it. -/
theorem opens_writeWhole {p : Path} {text : List Char} {modified : Int}
    (h : tree.writeWhole p text modified = .ok tree' ∨
      ∃ e, tree.writeWhole p text modified = .error (e, tree')) :
    Opens (p.Passes tree.home) tree tree' := by
  unfold writeWhole at h
  split at h
  · obtain h | ⟨e, h⟩ := h
    · simp at h
    · obtain ⟨rfl, rfl⟩ := Prod.mk.inj (Except.error.inj h)
      exact .refl _
  · next above habove =>
    have hopens : Opens (p.Passes tree.home) tree above :=
      (opens_makeDirectories habove).mono fun q hq => hq.of_parent
    dsimp only at h
    split at h
    · obtain h | ⟨e, h⟩ := h
      · simp at h
      · obtain ⟨rfl, rfl⟩ := Prod.mk.inj (Except.error.inj h)
        exact hopens
    · next drafted hdrafted =>
      have hopens := hopens.trans (opens_write hdrafted)
      split at h
      · obtain h | ⟨e, h⟩ := h
        · simp at h
        · obtain ⟨rfl, rfl⟩ := Prod.mk.inj (Except.error.inj h)
          exact hopens
      · next moved hmoved =>
        obtain h | ⟨e, h⟩ := h
        · obtain rfl := Except.ok.inj h
          exact hopens.trans (opens_moveFile hmoved)
        · simp at h

end

end FileTree

end Folio

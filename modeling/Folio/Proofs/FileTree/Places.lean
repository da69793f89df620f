import Mathlib.Data.List.Nodup
import Folio.FileTree
import Folio.Proofs.Value
import Folio.Proofs.Path.Names

set_option autoImplicit false

/-! # What is at places

`entry?` says what is at a place of a tree, and the tree with an entry put or erased has there what was
put and everywhere else what it had. In a proper tree everything but the root stands in a directory
(`IsProper`). A path leads where its names lead if it leads anywhere (`place_of_locate`), and it still
does in a tree with more directories (`locate_mono`). -/

namespace Folio

namespace FileTree

/-! ## Entries -/

@[simp] theorem entry?_nil (tree : FileTree) : tree.entry? [] = some .directory := rfl

theorem entry?_of_ne {tree : FileTree} {q : Place} (h : q ≠ []) :
    tree.entry? q = tree.entries.lookup q := by
  unfold entry?
  rw [if_neg (by simpa using h)]

theorem entry?_erase {tree : FileTree} {place : Place} (h : place ≠ []) (q : Place) :
    entry? (tree.erase place) q = if q = place then none else tree.entry? q := by
  by_cases hq : q = []
  · subst hq
    rw [entry?_nil, if_neg (Ne.symm h), entry?_nil]
  · rw [entry?_of_ne hq, entry?_of_ne hq, erase, lookup_filter_ne]
    simp only [beq_iff_eq]

theorem entry?_put {tree : FileTree} {place : Place} (h : place ≠ []) (entry : Entry) (q : Place) :
    entry? (tree.put place entry) q = if q = place then some entry else tree.entry? q := by
  by_cases hq : q = []
  · subst hq
    rw [entry?_nil, if_neg (Ne.symm h), entry?_nil]
  · rw [entry?_of_ne hq, entry?_of_ne hq, put, List.lookup_append, lookup_filter_ne]
    by_cases hplace : q = place
    · simp [hplace]
    · simp [hplace, List.lookup_cons, beq_eq_false_iff_ne.2 hplace]

theorem entry?_put_self {tree : FileTree} {place : Place} (h : place ≠ []) (entry : Entry) :
    entry? (tree.put place entry) place = some entry := by
  rw [entry?_put h, if_pos rfl]

theorem entry?_erase_self {tree : FileTree} {place : Place} (h : place ≠ []) :
    entry? (tree.erase place) place = none := by
  rw [entry?_erase h, if_pos rfl]

/-! ## Following paths -/

theorem walk_append (tree : FileTree) (place : Place) (parts rest : List String) :
    tree.walk place (parts ++ rest) = (tree.walk place parts).bind (tree.walk · rest) := by
  induction parts generalizing place with
  | nil => rfl
  | cons part parts ih =>
    rw [List.cons_append, walk, walk]
    split
    · rfl
    · rfl
    · split
      · rfl
      · split <;> exact ih _

theorem follow_of_walk {tree : FileTree} {place q : Place} {parts : List String}
    (h : tree.walk place parts = .ok q) : q = Path.follow place parts := by
  induction parts generalizing place with
  | nil => exact (Except.ok.inj h).symm
  | cons part parts ih =>
    rw [walk] at h
    split at h
    · simp at h
    · simp at h
    · split at h
      · simp at h
      · rw [Path.follow]
        split at h
        · next hparent =>
          rw [if_pos hparent]
          exact ih h
        · next hparent =>
          rw [if_neg hparent]
          exact ih h

/-- A path that leads somewhere leads where its names lead. -/
theorem place_of_locate {tree : FileTree} {p : Path} {q : Place} (h : tree.locate p = .ok q) :
    q = p.place tree.home ∧ p.hasNul = false := by
  rw [locate] at h
  split at h
  · simp at h
  · next hnul => exact ⟨follow_of_walk h, eq_false_of_ne_true hnul⟩

/-- All directories of a tree are directories of another, with the same process and working directory. -/
structure HasDirectoriesOf (tree' tree : FileTree) : Prop where
  home : tree'.home = tree.home
  process : tree'.process = tree.process
  kept : ∀ q, tree.entry? q = some .directory → tree'.entry? q = some .directory

theorem HasDirectoriesOf.refl (tree : FileTree) : tree.HasDirectoriesOf tree :=
  ⟨rfl, rfl, fun _ h => h⟩

theorem HasDirectoriesOf.trans {tree tree' tree'' : FileTree} (h' : tree''.HasDirectoriesOf tree')
    (h : tree'.HasDirectoriesOf tree) : tree''.HasDirectoriesOf tree :=
  ⟨h'.home.trans h.home, h'.process.trans h.process, fun q hq => h'.kept q (h.kept q hq)⟩

theorem walk_mono {tree tree' : FileTree} (hmore : tree'.HasDirectoriesOf tree) {place q : Place}
    {parts : List String} (h : tree.walk place parts = .ok q) : tree'.walk place parts = .ok q := by
  induction parts generalizing place with
  | nil => exact h
  | cons part parts ih =>
    rw [walk] at h
    split at h
    · simp at h
    · simp at h
    · next hdirectory =>
      rw [walk, hmore.kept place hdirectory]
      dsimp only
      split at h
      · simp at h
      · next hshort =>
        rw [if_neg hshort]
        split at h
        · next hparent =>
          rw [if_pos hparent]
          exact ih h
        · next hparent =>
          rw [if_neg hparent]
          exact ih h

/-- A path still leads where it led when there are more directories. -/
theorem locate_mono {tree tree' : FileTree} (hmore : tree'.HasDirectoriesOf tree) {p : Path}
    {q : Place} (h : tree.locate p = .ok q) : tree'.locate p = .ok q := by
  rw [locate] at h ⊢
  split at h
  · simp at h
  · next hnul =>
    rw [if_neg hnul, hmore.home]
    exact walk_mono hmore h

/-! ## Other processes -/

/-- The same files for another process. -/
def inProcess (tree : FileTree) (process : Process) : FileTree :=
  { tree with process := process }

section

variable (tree : FileTree) (process : Process)

@[simp] theorem home_inProcess : (tree.inProcess process).home = tree.home := rfl

@[simp] theorem process_inProcess : (tree.inProcess process).process = process := rfl

@[simp] theorem entry?_inProcess (q : Place) : entry? (tree.inProcess process) q = tree.entry? q := rfl

theorem inProcess_self : tree.inProcess tree.process = tree := rfl

@[simp] theorem walk_inProcess (place : Place) (parts : List String) :
    (tree.inProcess process).walk place parts = tree.walk place parts := by
  induction parts generalizing place with
  | nil => rfl
  | cons part rest ih =>
    rw [walk, walk, entry?_inProcess]
    simp only [ih]

@[simp] theorem locate_inProcess (p : Path) : (tree.inProcess process).locate p = tree.locate p := by
  simp only [locate, home_inProcess, walk_inProcess]

@[simp] theorem find?_inProcess (p : Path) : (tree.inProcess process).find? p = tree.find? p := by
  simp only [find?, locate_inProcess, entry?_inProcess]

@[simp] theorem doesExist_inProcess (p : Path) : (tree.inProcess process).doesExist p = tree.doesExist p := by
  rw [doesExist, doesExist, find?_inProcess]

@[simp] theorem isDirectory_inProcess (p : Path) : (tree.inProcess process).isDirectory p = tree.isDirectory p := by
  rw [isDirectory, isDirectory, find?_inProcess]

@[simp] theorem read_inProcess (p : Path) : (tree.inProcess process).read p = tree.read p := by
  simp only [read, locate_inProcess, entry?_inProcess]

@[simp] theorem readText_inProcess (p : Path) : (tree.inProcess process).readText p = tree.readText p := by
  rw [readText, readText, read_inProcess]

end

/-! ## Proper trees -/

/-- What a file can be called: a name that is not too long. -/
structure IsFileName (s : String) : Prop extends IsName s where
  short : s.utf8ByteSize ≤ maxNameBytes

/-- A tree as it can be: every place has one entry and proper names, everything is in a directory, and
    so is the work. -/
structure IsProper (tree : FileTree) : Prop where
  distinct : (tree.entries.map Prod.fst).Nodup
  named : ∀ e ∈ tree.entries, e.1 ≠ [] ∧ ∀ s ∈ e.1, IsFileName s
  parents : ∀ q entry, tree.entry? q = some entry → tree.entry? q.dropLast = some .directory
  home : tree.entry? tree.home = some .directory

/-- A tree is as proper for one process as for another. -/
theorem IsProper.inProcess {tree : FileTree} (h : tree.IsProper) (process : Process) :
    (tree.inProcess process).IsProper :=
  ⟨h.distinct, h.named, h.parents, h.home⟩

/-- Following a path of a text leads from proper names to proper names. -/
theorem names_of_walk {tree : FileTree} {place q : Place} {parts : List String}
    (hplace : ∀ s ∈ place, IsFileName s) (hparts : ∀ s ∈ parts, IsPart s ∧ '\x00' ∉ s.toList)
    (h : tree.walk place parts = .ok q) : ∀ s ∈ q, IsFileName s := by
  induction parts generalizing place with
  | nil =>
    obtain rfl := Except.ok.inj h
    exact hplace
  | cons part parts ih =>
    have hrest : ∀ s ∈ parts, IsPart s ∧ '\x00' ∉ s.toList :=
      fun s hs => hparts s (List.mem_cons_of_mem _ hs)
    rw [walk] at h
    split at h
    · simp at h
    · simp at h
    · split at h
      · simp at h
      · next hshort =>
        split at h
        · exact ih (fun s hs => hplace s (List.dropLast_subset _ hs)) hrest h
        · next hparent =>
          refine ih (fun s hs => ?_) hrest h
          rcases List.mem_append.1 hs with hs | hs
          · exact hplace s hs
          · obtain ⟨hpart, hnul⟩ := hparts part List.mem_cons_self
            rw [List.mem_singleton.1 hs]
            exact ⟨⟨hpart, hparent, hnul⟩, Nat.le_of_not_lt hshort⟩

namespace IsProper

variable {tree : FileTree} (h : tree.IsProper)
include h

theorem mem_entries_iff {q : Place} {entry : Entry} :
    (q, entry) ∈ tree.entries ↔ q ≠ [] ∧ tree.entry? q = some entry := by
  refine ⟨fun hmem => ?_, fun ⟨hq, hentry⟩ => mem_of_lookup_eq_some ((entry?_of_ne hq).symm.trans hentry)⟩
  have hq := (h.named _ hmem).1
  exact ⟨hq, (entry?_of_ne hq).trans ((lookup_eq_some_iff_mem h.distinct).2 hmem)⟩

/-- What there is has proper names. -/
theorem names_of_entry {q : Place} {entry : Entry} (hq : tree.entry? q = some entry) :
    ∀ s ∈ q, IsFileName s := by
  by_cases hnil : q = []
  · simp [hnil]
  · exact (h.named _ (h.mem_entries_iff.2 ⟨hnil, hq⟩)).2

/-- A path of a text leads to a place with proper names. -/
theorem names_of_locate {p : Path} {q : Place} (hp : p.IsSpelled) (hq : tree.locate p = .ok q) :
    ∀ s ∈ q, IsFileName s := by
  rw [locate] at hq
  split at hq
  · simp at hq
  · next hnul =>
    refine names_of_walk ?_ (fun s hs => ⟨hp s hs, ?_⟩) hq
    · split
      · simp
      · exact h.names_of_entry h.home
    · simpa [Path.hasNul] using List.any_eq_false.1 (eq_false_of_ne_true hnul) s hs

theorem parent_of_walk {place q : Place} {parts : List String}
    (hplace : tree.entry? place.dropLast = some .directory) (hwalk : tree.walk place parts = .ok q) :
    tree.entry? q.dropLast = some .directory := by
  induction parts generalizing place with
  | nil =>
    obtain rfl := Except.ok.inj hwalk
    exact hplace
  | cons part parts ih =>
    rw [walk] at hwalk
    split at hwalk
    · simp at hwalk
    · simp at hwalk
    · next hdirectory =>
      split at hwalk
      · simp at hwalk
      · split at hwalk
        · exact ih (h.parents _ _ hplace) hwalk
        · exact ih (by rwa [List.dropLast_concat]) hwalk

/-- A path leads into a directory. -/
theorem parent_of_locate {p : Path} {q : Place} (hq : tree.locate p = .ok q) :
    tree.entry? q.dropLast = some .directory := by
  rw [locate] at hq
  split at hq
  · simp at hq
  · refine h.parent_of_walk ?_ hq
    split
    · rfl
    · exact h.parents _ _ h.home

end IsProper

/-- What is put into a directory of a proper tree leaves it proper, if no directory gives way. -/
theorem isProper_put {tree : FileTree} (h : tree.IsProper) {place : Place} {entry : Entry}
    (hplace : place ≠ []) (hnames : ∀ s ∈ place, IsFileName s)
    (hparent : tree.entry? place.dropLast = some .directory)
    (hfree : tree.entry? place ≠ some .directory) : (tree.put place entry).IsProper := by
  have hne : place.dropLast ≠ place := fun heq => hplace (by
    have := congrArg List.length heq
    rw [List.length_dropLast] at this
    exact List.length_eq_zero_iff.1 (by omega))
  refine ⟨?_, ?_, ?_, ?_⟩
  · rw [put, List.map_append, map_fst_filter_ne, List.nodup_append]
    refine ⟨h.distinct.filter _, List.nodup_singleton _, fun q hq q' hq' => ?_⟩
    rw [List.mem_filter] at hq
    rw [List.mem_singleton.1 hq']
    simpa using hq.2
  · intro e he
    rcases List.mem_append.1 he with he | he
    · exact h.named e (List.mem_filter.1 he).1
    · rw [List.mem_singleton.1 he]
      exact ⟨hplace, hnames⟩
  · intro q entry' hq
    rw [entry?_put hplace] at hq ⊢
    have hold : tree.entry? q.dropLast = some .directory := by
      split at hq
      · next heq => rwa [heq]
      · exact h.parents q entry' hq
    have hkept : q.dropLast ≠ place := fun heq => hfree (heq ▸ hold)
    rwa [if_neg hkept]
  · rw [entry?_put hplace]
    have hhome : tree.home ≠ place := fun heq => hfree (heq ▸ h.home)
    exact (if_neg hhome).trans h.home

/-- A proper tree is left proper when a file is erased. -/
theorem isProper_erase {tree : FileTree} (h : tree.IsProper) {place : Place} (hplace : place ≠ [])
    (hfile : tree.entry? place ≠ some .directory) : (tree.erase place).IsProper := by
  refine ⟨?_, fun e he => h.named e (List.mem_filter.1 he).1, ?_, ?_⟩
  · rw [erase, map_fst_filter_ne]
    exact h.distinct.filter _
  · intro q entry hq
    rw [entry?_erase hplace] at hq ⊢
    have hold : tree.entry? q.dropLast = some .directory := by
      split at hq
      · simp at hq
      · exact h.parents q entry hq
    have hkept : q.dropLast ≠ place := fun heq => hfile (heq ▸ hold)
    rwa [if_neg hkept]
  · rw [entry?_erase hplace]
    have hhome : tree.home ≠ place := fun heq => hfile (heq ▸ h.home)
    exact (if_neg hhome).trans h.home

/-! ## Checking trees -/

instance (s : String) : Decidable (IsFileName s) :=
  decidable_of_iff (s ≠ "" ∧ s ≠ "." ∧ '/' ∉ s.toList ∧ s ≠ ".." ∧ '\x00' ∉ s.toList ∧
    s.utf8ByteSize ≤ maxNameBytes)
    ⟨fun ⟨h1, h2, h3, h4, h5, h6⟩ => ⟨⟨⟨h1, h2, h3⟩, h4, h5⟩, h6⟩,
      fun h => ⟨h.nonempty, h.notSelf, h.noSlash, h.notParent, h.noNul, h.short⟩⟩

/-- A tree is proper if its entries are. -/
theorem isProper_iff {tree : FileTree} : tree.IsProper ↔ (tree.entries.map Prod.fst).Nodup ∧
    (∀ e ∈ tree.entries, (e.1 ≠ [] ∧ ∀ s ∈ e.1, IsFileName s) ∧
      tree.entry? e.1.dropLast = some .directory) ∧ tree.entry? tree.home = some .directory := by
  constructor
  · intro h
    refine ⟨h.distinct, fun e he => ⟨h.named e he, ?_⟩, h.home⟩
    exact h.parents e.1 e.2 (h.mem_entries_iff.1 he).2
  · rintro ⟨hdistinct, hentries, hhome⟩
    refine ⟨hdistinct, fun e he => (hentries e he).1, fun q entry hq => ?_, hhome⟩
    by_cases hnil : q = []
    · subst hnil
      rfl
    · exact (hentries _ (mem_of_lookup_eq_some ((entry?_of_ne hnil).symm.trans hq))).2

instance (tree : FileTree) : Decidable tree.IsProper :=
  decidable_of_iff _ isProper_iff.symm

/-- Nothing is below a path. -/
def IsEmptyBelow (tree : FileTree) (p : Path) : Prop :=
  ∀ below, below ≠ [] → tree.entry? (p.place tree.home ++ below) = none

theorem isEmptyBelow_iff {tree : FileTree} (h : tree.IsProper) {p : Path} : tree.IsEmptyBelow p ↔
    ∀ e ∈ tree.entries, (Path.below? (p.place tree.home) e.1).all List.isEmpty = true := by
  constructor
  · intro hempty e he
    cases hbelow : Path.below? (p.place tree.home) e.1 with
    | none => rfl
    | some below =>
      rw [Option.all_some, List.isEmpty_iff]
      by_contra hne
      have hentry := (h.mem_entries_iff.1 he).2
      rw [Path.below?_eq_some.1 hbelow, hempty below hne] at hentry
      simp at hentry
  · intro hall below hne
    cases hentry : tree.entry? (p.place tree.home ++ below) with
    | none => rfl
    | some entry =>
      have hmem := h.mem_entries_iff.2 ⟨by simp [hne], hentry⟩
      have hnil := hall _ hmem
      rw [Path.below?_append, Option.all_some, List.isEmpty_iff] at hnil
      exact absurd hnil hne

end FileTree

end Folio

import Folio.Proofs.Except
import Folio.Proofs.FileTree.Places

set_option autoImplicit false

/-! # What changes leave as it was

Every change to a tree names the places whose files it may touch (`Alters`): all other files are the ones
that were there, no directory goes away, and a proper tree stays proper. Each operation is said once to
do that, together with what it puts at the places that it touches. -/

namespace Folio

namespace FileTree

/-! ## Changes -/

/-- A proper tree has the directories of another, and its files but for some places. -/
structure Alters (touched : Place → Prop) (tree tree' : FileTree) : Prop where
  proper : tree'.IsProper
  directories : tree'.HasDirectoriesOf tree
  files : ∀ q bytes modified, ¬ touched q →
    (tree'.entry? q = some (.file bytes modified) ↔ tree.entry? q = some (.file bytes modified))

namespace Alters

variable {touched touched' : Place → Prop} {tree tree' tree'' : FileTree}

theorem refl (h : tree.IsProper) : Alters touched tree tree :=
  ⟨h, .refl tree, fun _ _ _ _ => Iff.rfl⟩

theorem trans (h : Alters touched tree tree') (h' : Alters touched tree' tree'') :
    Alters touched tree tree'' :=
  ⟨h'.proper, h'.directories.trans h.directories,
    fun q bytes modified hq => (h'.files q bytes modified hq).trans (h.files q bytes modified hq)⟩

theorem mono (h : Alters touched tree tree') (hmore : ∀ q, touched q → touched' q) :
    Alters touched' tree tree' :=
  ⟨h.proper, h.directories, fun q bytes modified hq => h.files q bytes modified fun ht => hq (hmore q ht)⟩

theorem home (h : Alters touched tree tree') : tree'.home = tree.home :=
  h.directories.home

theorem process (h : Alters touched tree tree') : tree'.process = tree.process :=
  h.directories.process

end Alters

/-- A file that is put where no directory is touches nothing else. -/
theorem alters_put_file {tree : FileTree} (h : tree.IsProper) {place : Place} (hplace : place ≠ [])
    (hnames : ∀ s ∈ place, IsFileName s) (hparent : tree.entry? place.dropLast = some .directory)
    (hfree : tree.entry? place ≠ some .directory) (bytes : List UInt8) (modified : Int) :
    Alters (· = place) tree (tree.put place (.file bytes modified)) := by
  refine ⟨isProper_put h hplace hnames hparent hfree, ⟨rfl, rfl, fun q hq => ?_⟩, fun q _ _ hq => ?_⟩
  · have hne : q ≠ place := fun heq => hfree (heq ▸ hq)
    rw [entry?_put hplace, if_neg hne, hq]
  · rw [entry?_put hplace, if_neg hq]

/-- A directory that is put where nothing is touches no file. -/
theorem alters_put_directory {tree : FileTree} (h : tree.IsProper) {place : Place}
    (hnames : ∀ s ∈ place, IsFileName s) (hparent : tree.entry? place.dropLast = some .directory)
    (hfree : tree.entry? place = none) :
    Alters (fun _ => False) tree (tree.put place .directory) := by
  have hplace : place ≠ [] := by
    rintro rfl
    simp at hfree
  refine ⟨isProper_put h hplace hnames hparent (by simp [hfree]), ⟨rfl, rfl, fun q hq => ?_⟩,
    fun q _ _ _ => ?_⟩
  · rw [entry?_put hplace]
    split
    · rfl
    · exact hq
  · rw [entry?_put hplace]
    split
    · next heq => simp [heq, hfree]
    · rfl

/-- A file that is erased touches nothing else. -/
theorem alters_erase {tree : FileTree} (h : tree.IsProper) {place : Place} (hplace : place ≠ [])
    (hfile : tree.entry? place ≠ some .directory) : Alters (· = place) tree (tree.erase place) := by
  refine ⟨isProper_erase h hplace hfile, ⟨rfl, rfl, fun q hq => ?_⟩, fun q _ _ hq => ?_⟩
  · have hne : q ≠ place := fun heq => hfile (heq ▸ hq)
    rw [entry?_erase hplace, if_neg hne, hq]
  · rw [entry?_erase hplace, if_neg hq]

theorem ne_nil_of_entry {tree : FileTree} {place : Place} (h : tree.entry? place ≠ some .directory) :
    place ≠ [] := by
  rintro rfl
  exact h rfl

/-! ## Directories -/

theorem isDirectory_iff {tree : FileTree} {p : Path} : tree.isDirectory p = true ↔
    tree.locate p = .ok (p.place tree.home) ∧ tree.entry? (p.place tree.home) = some .directory := by
  unfold isDirectory find?
  cases h : tree.locate p with
  | error fault => simp
  | ok q =>
    obtain rfl := (place_of_locate h).1
    simp

/-- A directory stays where it is when there are more directories. -/
theorem isDirectory_mono {tree tree' : FileTree} (hmore : tree'.HasDirectoriesOf tree) {p : Path}
    (h : tree.isDirectory p = true) : tree'.isDirectory p = true := by
  obtain ⟨hlocate, hentry⟩ := isDirectory_iff.1 h
  rw [isDirectory_iff, hmore.home]
  exact ⟨locate_mono hmore hlocate, hmore.kept _ hentry⟩

theorem makeDirectory_ok {tree tree' : FileTree} (hproper : tree.IsProper) {p : Path}
    (hp : p.IsSpelled) (h : tree.makeDirectory p = .ok tree') :
    Alters (fun _ => False) tree tree' ∧ tree'.isDirectory p = true := by
  unfold makeDirectory at h
  split at h
  · simp at h
  · next place hlocate =>
    obtain ⟨rfl, hnul⟩ := place_of_locate hlocate
    split at h
    · simp at h
    · next hfree =>
      obtain rfl := Except.ok.inj h
      have halters := alters_put_directory hproper (hproper.names_of_locate hp hlocate)
        (hproper.parent_of_locate hlocate) hfree
      refine ⟨halters, isDirectory_iff.2 ⟨locate_mono halters.directories hlocate, ?_⟩⟩
      have hplace := @ne_nil_of_entry tree (p.place tree.home) (by simp [hfree])
      exact entry?_put_self hplace _

/-- A directory that is made with its parents is there then, and no file is touched. -/
theorem makeDirectoriesFrom_ok {tree tree' : FileTree} (hproper : tree.IsProper) {fuel : Nat}
    {p : Path} (hfuel : p.parts.length < fuel) (hp : p.IsSpelled)
    (h : makeDirectoriesFrom fuel tree p = .ok tree') :
    Alters (fun _ => False) tree tree' ∧ tree'.isDirectory p = true := by
  induction fuel generalizing p tree' with
  | zero => exact absurd hfuel (Nat.not_lt_zero _)
  | succ fuel ih =>
    rw [makeDirectoriesFrom] at h
    split at h
    · next hmade =>
      obtain rfl := Except.ok.inj h
      exact makeDirectory_ok hproper hp hmade
    · split at h
      · simp [bind, Except.bind, throw, throwThe, MonadExceptOf.throw] at h
      · next hparts =>
        obtain ⟨above, habove, h⟩ := Except.bind_eq_ok_iff.1 h
        have hlength : p.parent.parts.length < fuel := by
          have : p.parts ≠ [] := by simpa using hparts
          have := List.length_pos_iff.2 this
          simp only [Path.parent, List.length_dropLast]
          omega
        obtain ⟨halters, -⟩ := ih hlength (Path.isSpelled_parent hp) habove
        split at h
        · next hmade =>
          obtain rfl := Except.ok.inj h
          obtain ⟨halters', hthere⟩ := makeDirectory_ok halters.proper hp hmade
          exact ⟨halters.trans halters', hthere⟩
        · split at h
          · next hthere =>
            obtain rfl := Except.ok.inj h
            exact ⟨halters, hthere⟩
          · simp [throw, throwThe, MonadExceptOf.throw] at h
    · split at h
      · next hthere =>
        obtain rfl := Except.ok.inj h
        exact ⟨.refl hproper, hthere⟩
      · simp at h

theorem makeDirectories_ok {tree tree' : FileTree} (hproper : tree.IsProper) {p : Path}
    (hp : p.IsSpelled) (h : tree.makeDirectories p = .ok tree') :
    Alters (fun _ => False) tree tree' ∧ tree'.isDirectory p = true :=
  makeDirectoriesFrom_ok hproper (Nat.lt_succ_self _) hp h

/-! ## Files -/

theorem read_eq_ok_iff {tree : FileTree} {p : Path} {bytes : List UInt8} {modified : Int} :
    tree.read p = .ok (bytes, modified) ↔ tree.locate p = .ok (p.place tree.home) ∧
      tree.entry? (p.place tree.home) = some (.file bytes modified) := by
  unfold read
  cases h : tree.locate p with
  | error fault => simp
  | ok q =>
    obtain rfl := (place_of_locate h).1
    dsimp only
    split <;> simp [*]

/-- A path leads to a file if it can be read. -/
theorem isFile_iff {tree : FileTree} {p : Path} :
    tree.isFile p = true ↔ ∃ bytes modified, tree.read p = .ok (bytes, modified) := by
  unfold isFile find? read
  cases tree.locate p with
  | error fault => simp
  | ok place =>
    dsimp only
    cases tree.entry? place with
    | none => simp
    | some entry => cases entry <;> simp

/-- A file that is written is there then, and no other is touched. -/
theorem write_ok {tree tree' : FileTree} (hproper : tree.IsProper) {p : Path} (hp : p.IsSpelled)
    {bytes : List UInt8} {modified : Int} (h : tree.write p bytes modified = .ok tree') :
    Alters (· = p.place tree.home) tree tree' ∧ tree'.read p = .ok (bytes, modified) := by
  unfold write at h
  split at h
  · simp at h
  · next place hlocate =>
    obtain ⟨rfl, hnul⟩ := place_of_locate hlocate
    -- a file or nothing gives way
    obtain ⟨hfree, rfl⟩ : tree.entry? (p.place tree.home) ≠ some .directory ∧
        tree.put (p.place tree.home) (.file bytes modified) = tree' := by
      split at h <;> simp_all
    have halters := alters_put_file hproper (ne_nil_of_entry hfree) (hproper.names_of_locate hp hlocate)
      (hproper.parent_of_locate hlocate) hfree bytes modified
    refine ⟨halters, read_eq_ok_iff.2 ⟨locate_mono halters.directories hlocate, ?_⟩⟩
    exact entry?_put_self (ne_nil_of_entry hfree) _

/-- A file that is removed is not there then, and no other is touched. -/
theorem remove_ok {tree tree' : FileTree} (hproper : tree.IsProper) {p : Path}
    (h : tree.remove p = .ok tree') :
    Alters (· = p.place tree.home) tree tree' ∧ tree.locate p = .ok (p.place tree.home) ∧
      tree'.entry? (p.place tree.home) = none := by
  unfold remove at h
  split at h
  · simp at h
  · next place hlocate =>
    obtain ⟨rfl, -⟩ := place_of_locate hlocate
    split at h
    · simp at h
    · simp at h
    · next hfile =>
      obtain rfl := Except.ok.inj h
      have hfree : tree.entry? (p.place tree.home) ≠ some .directory := by simp [hfile]
      refine ⟨alters_erase hproper (ne_nil_of_entry hfree) hfree, hlocate, ?_⟩
      exact entry?_erase_self (ne_nil_of_entry hfree)

/-- A file that is moved to another place is there then, and not where it was. -/
theorem moveFile_ok {tree tree' : FileTree} (hproper : tree.IsProper) {p target : Path}
    (htarget : target.IsSpelled) (hne : target.place tree.home ≠ p.place tree.home)
    {bytes : List UInt8} {modified : Int} (hread : tree.read p = .ok (bytes, modified))
    (h : tree.moveFile p target = .ok tree') :
    Alters (fun q => q = target.place tree.home ∨ q = p.place tree.home) tree tree' ∧
      tree'.read target = .ok (bytes, modified) ∧ tree'.entry? (p.place tree.home) = none := by
  obtain ⟨hlocate, hentry⟩ := read_eq_ok_iff.1 hread
  have hfile : tree.entry? (p.place tree.home) ≠ some .directory := by simp [hentry]
  have herase := alters_erase hproper (ne_nil_of_entry hfile) hfile
  unfold moveFile at h
  simp only [hlocate] at h
  split at h
  · simp at h
  · simp at h
  · next old new hold hlocateNew =>
    obtain rfl := Except.ok.inj hold
    obtain ⟨rfl, hnul⟩ := place_of_locate hlocateNew
    simp only [hentry] at h
    -- no directory gives way
    obtain ⟨hfree, rfl⟩ : tree.entry? (target.place tree.home) ≠ some .directory ∧
        (tree.erase (p.place tree.home)).put (target.place tree.home) (.file bytes modified) = tree' := by
      split at h <;> simp_all
    have hfree' : entry? (tree.erase (p.place tree.home)) (target.place tree.home)
        ≠ some .directory := by
      rwa [entry?_erase (ne_nil_of_entry hfile), if_neg hne]
    have hput := alters_put_file herase.proper (ne_nil_of_entry hfree')
      (hproper.names_of_locate htarget hlocateNew)
      (herase.directories.kept _ (hproper.parent_of_locate hlocateNew)) hfree' bytes modified
    have halters : Alters (fun q => q = target.place tree.home ∨ q = p.place tree.home) tree
        ((tree.erase (p.place tree.home)).put (target.place tree.home) (.file bytes modified)) :=
      (herase.mono fun _ => .inr).trans (hput.mono fun _ => .inl)
    refine ⟨halters, read_eq_ok_iff.2 ⟨locate_mono halters.directories hlocateNew, ?_⟩, ?_⟩
    · exact entry?_put_self (ne_nil_of_entry hfree') _
    · rw [entry?_put (ne_nil_of_entry hfree'), if_neg hne.symm]
      exact entry?_erase_self (ne_nil_of_entry hfile)

/-- A file that is written beside its place and moved there is there then, and its draft is gone. -/
theorem writeWhole_ok {tree tree' : FileTree} (hproper : tree.IsProper) {p : Path}
    (hp : p.IsSpelled) (hdraft : p.draft.IsSpelled) (hne : p.place tree.home ≠ p.draft.place tree.home)
    {text : List Char} {modified : Int} (h : tree.writeWhole p text modified = .ok tree') :
    Alters (fun q => q = p.place tree.home ∨ q = p.draft.place tree.home) tree tree' ∧
      tree'.read p = .ok (Text.encodeUtf8 text, modified) ∧
      tree'.entry? (p.draft.place tree.home) = none ∧
      ∀ s ∈ p.draft.place tree.home, IsFileName s := by
  unfold writeWhole at h
  split at h
  · simp at h
  · next above habove =>
    obtain ⟨hmade, -⟩ := makeDirectories_ok hproper (Path.isSpelled_parent hp) habove
    dsimp only at h
    split at h
    · simp at h
    · next drafted hdrafted =>
      obtain ⟨hwrote, hread⟩ := write_ok hmade.proper hdraft hdrafted
      split at h
      · simp at h
      · next moved hmoved =>
        obtain rfl := Except.ok.inj h
        have hhome : drafted.home = tree.home := hwrote.home.trans hmade.home
        obtain ⟨hmove, hthere, hgone⟩ :=
          moveFile_ok hwrote.proper hp (hhome ▸ hne) hread hmoved
        rw [hhome] at hmove hgone
        rw [hmade.home] at hwrote
        have hnames := hwrote.proper.names_of_locate hdraft (read_eq_ok_iff.1 hread).1
        rw [hhome] at hnames
        exact ⟨((hmade.mono fun _ => False.elim).trans (hwrote.mono fun _ => .inr)).trans hmove,
          hthere, hgone, hnames⟩

/-- A file that cannot be written and moved to its place touches its draft only. -/
theorem writeWhole_error {tree tree' : FileTree} (hproper : tree.IsProper) {p : Path}
    (hp : p.IsSpelled) (hdraft : p.draft.IsSpelled) {text : List Char} {modified : Int} {e : FileError}
    (h : tree.writeWhole p text modified = .error (e, tree')) :
    Alters (· = p.draft.place tree.home) tree tree' := by
  unfold writeWhole at h
  split at h
  · obtain ⟨-, rfl⟩ := Prod.mk.inj (Except.error.inj h)
    exact .refl hproper
  · next above habove =>
    obtain ⟨hmade, -⟩ := makeDirectories_ok hproper (Path.isSpelled_parent hp) habove
    dsimp only at h
    split at h
    · obtain ⟨-, rfl⟩ := Prod.mk.inj (Except.error.inj h)
      exact hmade.mono fun _ => False.elim
    · next drafted hdrafted =>
      split at h
      · obtain ⟨-, rfl⟩ := Prod.mk.inj (Except.error.inj h)
        obtain ⟨hwrote, -⟩ := write_ok hmade.proper hdraft hdrafted
        rw [hmade.home] at hwrote
        exact (hmade.mono fun _ => False.elim).trans hwrote
      · simp at h

end FileTree

end Folio

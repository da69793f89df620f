import Mathlib.Data.List.Induction
import Folio.Proofs.FileTree.Changes

set_option autoImplicit false

/-! # Changes that succeed

Names lead on from a directory to whatever is there (`locate_of_entry`). Below a directory, directories can
be made wherever no file is in the way (`makeDirectories_join`), and a file can be written with its
directories wherever, besides, no directory has its place or that of its draft (`writeWhole_join`). What
such a change makes is on the way to the file, or is the file. -/

namespace Folio.FileTree

/-! ## Following names -/

/-- What is above something is a directory. -/
theorem IsProper.above {tree : FileTree} (h : tree.IsProper) {place names : Place} {entry : Entry}
    (hentry : tree.entry? (place ++ names) = some entry) {k : Nat} (hk : k < names.length) :
    tree.entry? (place ++ names.take k) = some .directory := by
  induction names using List.reverseRecOn generalizing entry with
  | nil => simp at hk
  | append_singleton init last ih =>
    have hparent := h.parents _ _ hentry
    rw [← List.append_assoc, List.dropLast_concat] at hparent
    rw [List.length_append, List.length_singleton] at hk
    by_cases hlast : k = init.length
    · rw [hlast, List.take_left]
      exact hparent
    · have hshort : k < init.length := by omega
      rw [List.take_append_of_le_length (Nat.le_of_lt hshort)]
      exact ih hparent hshort

theorem walk_names {tree : FileTree} {place : Place} {names : List String}
    (hnames : ∀ s ∈ names, IsFileName s)
    (hdirs : ∀ k < names.length, tree.entry? (place ++ names.take k) = some .directory) :
    tree.walk place names = .ok (place ++ names) := by
  induction names generalizing place with
  | nil => rw [List.append_nil]; rfl
  | cons s rest ih =>
    have hs := hnames s List.mem_cons_self
    have hhere := hdirs 0 (Nat.succ_pos _)
    rw [List.take_zero, List.append_nil] at hhere
    rw [walk, hhere]
    simp only [if_neg (Nat.not_lt.2 hs.short), if_neg hs.notParent]
    rw [ih (fun t ht => hnames t (List.mem_cons_of_mem _ ht)) fun k hk => ?_, List.append_assoc]
    · rfl
    · have hmore := hdirs (k + 1) (Nat.succ_lt_succ hk)
      rwa [List.take_succ_cons, List.append_cons] at hmore

/-- Names on the way of which something is missing, but no file, lead nowhere. -/
theorem walk_missing {tree : FileTree} {place : Place} {names : List String} {last : String}
    (hnames : ∀ s ∈ names, IsFileName s)
    (hfree : ∀ k bytes modified, tree.entry? (place ++ names.take k) ≠ some (.file bytes modified))
    (hmissing : tree.entry? (place ++ names) = none) :
    tree.walk place (names ++ [last]) = .error .missing := by
  induction names generalizing place with
  | nil =>
    rw [List.append_nil] at hmissing
    rw [List.nil_append, walk, hmissing]
  | cons s rest ih =>
    have hs := hnames s List.mem_cons_self
    rw [List.cons_append, walk]
    split
    · rfl
    · next hfile => exact absurd hfile (by simpa using hfree 0 _ _)
    · simp only [if_neg (Nat.not_lt.2 hs.short), if_neg hs.notParent]
      refine ih (fun t ht => hnames t (List.mem_cons_of_mem _ ht)) (fun k bytes modified => ?_) ?_
      · have hmore := hfree (k + 1) bytes modified
        rwa [List.take_succ_cons, List.append_cons] at hmore
      · rwa [List.append_cons] at hmissing

theorem locate_join {tree : FileTree} {p : Path} {q : Place} (hp : tree.locate p = .ok q)
    {names : List String} (hnames : ∀ s ∈ names, IsFileName s) :
    tree.locate (p.join ⟨false, names⟩) = tree.walk q names := by
  have hnul : (p.join ⟨false, names⟩).hasNul = false := by
    have hp := (place_of_locate hp).2
    rw [Path.hasNul, List.any_eq_false] at hp ⊢
    intro s hs
    rcases List.mem_append.1 hs with hs | hs
    · exact hp s hs
    · simpa using (hnames s hs).noNul
  have hwalk : tree.walk (if p.isAbsolute then [] else tree.home) p.parts = .ok q := by
    rw [locate, if_neg (by simp [(place_of_locate hp).2])] at hp
    exact hp
  rw [locate, if_neg (by simp [hnul])]
  simp only [Path.join, Bool.false_eq_true, if_false]
  rw [walk_append, hwalk]
  rfl

section

variable {tree : FileTree} {p : Path} (hproper : tree.IsProper) (hp : tree.isDirectory p = true)
include hproper hp

/-- Names lead to what is there. -/
theorem locate_of_entry {names : List String} {entry : Entry}
    (hentry : tree.entry? (p.place tree.home ++ names) = some entry) :
    tree.locate (p.join ⟨false, names⟩) = .ok (p.place tree.home ++ names) := by
  have hnames : ∀ s ∈ names, IsFileName s := fun s hs =>
    hproper.names_of_entry hentry s (List.mem_append_right _ hs)
  rw [locate_join (isDirectory_iff.1 hp).1 hnames]
  exact walk_names hnames fun k hk => hproper.above hentry hk

/-- Names lead to a place in a directory. -/
theorem locate_of_parent {dirs : List String} {name : String}
    (hdirs : tree.entry? (p.place tree.home ++ dirs) = some .directory) (hname : IsFileName name) :
    tree.locate (p.join ⟨false, dirs ++ [name]⟩) = .ok (p.place tree.home ++ (dirs ++ [name])) := by
  have hnames : ∀ s ∈ dirs ++ [name], IsFileName s := by
    intro s hs
    rcases List.mem_append.1 hs with hs | hs
    · exact hproper.names_of_entry hdirs s (List.mem_append_right _ hs)
    · exact List.mem_singleton.1 hs ▸ hname
  rw [locate_join (isDirectory_iff.1 hp).1 hnames]
  refine walk_names hnames fun k hk => ?_
  rw [List.length_append, List.length_singleton] at hk
  by_cases hlast : k = dirs.length
  · rwa [hlast, List.take_left]
  · have hshort : k < dirs.length := by omega
    rw [List.take_append_of_le_length (Nat.le_of_lt hshort)]
    exact hproper.above hdirs hshort

end

/-! ## Making directories -/

theorem parent_join (p : Path) (dirs : List String) (name : String) :
    (p.join ⟨false, dirs ++ [name]⟩).parent = p.join ⟨false, dirs⟩ := by
  simp [Path.join, Path.parent, List.dropLast_append_of_ne_nil]

/-- In a directory of a directory another can be made, or is there, if no file is in the way. -/
theorem makeDirectory_join {tree : FileTree} {p : Path} (hproper : tree.IsProper)
    (hp : tree.isDirectory p = true) {dirs : List String} {name : String}
    (hdirs : tree.entry? (p.place tree.home ++ dirs) = some .directory) (hname : IsFileName name)
    (hfree : ∀ bytes modified,
      tree.entry? (p.place tree.home ++ (dirs ++ [name])) ≠ some (.file bytes modified)) :
    (∃ tree', tree.makeDirectory (p.join ⟨false, dirs ++ [name]⟩) = .ok tree' ∧
      ∀ q, q ≠ p.place tree.home ++ (dirs ++ [name]) → tree'.entry? q = tree.entry? q) ∨
    tree.makeDirectory (p.join ⟨false, dirs ++ [name]⟩) = .error .present ∧
      tree.isDirectory (p.join ⟨false, dirs ++ [name]⟩) = true := by
  have hlocate := locate_of_parent hproper hp hdirs hname
  have hplace := (place_of_locate hlocate).1
  rw [makeDirectory, hlocate]
  dsimp only
  cases hentry : tree.entry? (p.place tree.home ++ (dirs ++ [name])) with
  | none =>
    refine .inl ⟨_, rfl, fun q hq => ?_⟩
    rw [entry?_put (@ne_nil_of_entry tree _ (by simp [hentry])), if_neg hq]
  | some entry =>
    cases entry with
    | file bytes modified => exact absurd hentry (hfree bytes modified)
    | directory =>
      refine .inr ⟨rfl, isDirectory_iff.2 ?_⟩
      rw [← hplace]
      exact ⟨hlocate, hentry⟩

theorem take_min_append {α : Type} (front back : List α) (k : Nat) :
    (front ++ back).take (min k front.length) = front.take k := by
  rw [List.take_append_of_le_length (Nat.min_le_right _ _), ← List.take_take, List.take_length]

/-- Below a directory, directories can be made where no file is in the way. What is made is on the
    way. -/
theorem makeDirectoriesFrom_join {tree : FileTree} {p : Path} (hproper : tree.IsProper)
    (hspelled : p.IsSpelled) (hp : tree.isDirectory p = true) {dirs : List String}
    (hdirs : ∀ s ∈ dirs, IsFileName s)
    (hfree : ∀ k bytes modified,
      tree.entry? (p.place tree.home ++ dirs.take k) ≠ some (.file bytes modified))
    {fuel : Nat} (hfuel : (p.join ⟨false, dirs⟩).parts.length < fuel) :
    ∃ tree', makeDirectoriesFrom fuel tree (p.join ⟨false, dirs⟩) = .ok tree' ∧
      ∀ q, tree'.entry? q = tree.entry? q ∨ ∃ k, q = p.place tree.home ++ dirs.take k := by
  obtain ⟨fuel, rfl⟩ : ∃ n, fuel = n + 1 := ⟨fuel - 1, by omega⟩
  induction dirs using List.reverseRecOn generalizing fuel with
  | nil =>
    obtain ⟨hlocate, hentry⟩ := isDirectory_iff.1 hp
    have hself : p.join ⟨false, []⟩ = p := by simp [Path.join]
    refine ⟨tree, ?_, fun q => .inl rfl⟩
    rw [hself, makeDirectoriesFrom, makeDirectory, hlocate]
    simp only [hentry, hp, if_true]
  | append_singleton init name ih =>
    have hinit : ∀ s ∈ init, IsFileName s := fun s hs => hdirs s (List.mem_append_left _ hs)
    have hname : IsFileName name := hdirs name (by simp)
    have hfreeInit : ∀ k bytes modified,
        tree.entry? (p.place tree.home ++ init.take k) ≠ some (.file bytes modified) := by
      intro k bytes modified
      have hmore := hfree (min k init.length) bytes modified
      rwa [take_min_append] at hmore
    have hfreeLast : ∀ bytes modified,
        tree.entry? (p.place tree.home ++ (init ++ [name])) ≠ some (.file bytes modified) := by
      intro bytes modified
      have hmore := hfree (init ++ [name]).length bytes modified
      rwa [List.take_length] at hmore
    have hway : ∀ q, q = p.place tree.home ++ (init ++ [name]) →
        ∃ k, q = p.place tree.home ++ (init ++ [name]).take k := fun q hq =>
      ⟨(init ++ [name]).length, by rw [List.take_length, hq]⟩
    have hwayInit : ∀ q, (∃ k, q = p.place tree.home ++ init.take k) →
        ∃ k, q = p.place tree.home ++ (init ++ [name]).take k := by
      rintro q ⟨k, rfl⟩
      exact ⟨min k init.length, by rw [take_min_append]⟩
    rw [makeDirectoriesFrom]
    cases hparent : tree.entry? (p.place tree.home ++ init) with
    | none =>
      -- the directories above are made first
      have hmissing : tree.makeDirectory (p.join ⟨false, init ++ [name]⟩) = .error .missing := by
        rw [makeDirectory, locate_join (isDirectory_iff.1 hp).1 hdirs,
          walk_missing hinit hfreeInit hparent]
      have hlength : (p.join ⟨false, init⟩).parts.length < fuel := by
        simp only [Path.join, Bool.false_eq_true, if_false, List.length_append, List.length_singleton]
          at hfuel ⊢
        omega
      obtain ⟨above, habove, hentries⟩ : ∃ above,
          makeDirectoriesFrom fuel tree (p.join ⟨false, init⟩) = .ok above ∧
          ∀ q, above.entry? q = tree.entry? q ∨ ∃ k, q = p.place tree.home ++ init.take k := by
        obtain ⟨fuel, rfl⟩ : ∃ n, fuel = n + 1 := ⟨fuel - 1, by omega⟩
        exact ih hinit hfreeInit fuel hlength
      have hspelledInit : (p.join ⟨false, init⟩).IsSpelled :=
        Path.isSpelled_join hspelled fun s hs => (hinit s hs).toIsPart
      obtain ⟨halters, hthere⟩ := makeDirectoriesFrom_ok hproper hlength hspelledInit habove
      have hpAbove := isDirectory_mono halters.directories hp
      have hinitAbove : above.entry? (p.place above.home ++ init) = some .directory := by
        rw [← Path.place_join (fun s hs => (hinit s hs).toIsName)]
        exact (isDirectory_iff.1 hthere).2
      have hstep := makeDirectory_join halters.proper hpAbove hinitAbove hname (by
        intro bytes modified hfile
        rw [halters.home, halters.files _ _ _ not_false] at hfile
        exact hfreeLast bytes modified hfile)
      have hparts : (p.join ⟨false, init ++ [name]⟩).parts.isEmpty = false := by
        simp [Path.join]
      rw [hmissing, parent_join, habove, hparts]
      simp only [Bool.false_eq_true, if_false, bind, Except.bind, pure, Except.pure]
      rcases hstep with ⟨last, hlast, hsame⟩ | ⟨hpresent, hlast⟩
      · refine ⟨last, by simp only [hlast], fun q => ?_⟩
        rw [halters.home] at hsame
        by_cases hq : q = p.place tree.home ++ (init ++ [name])
        · exact .inr (hway q hq)
        · rw [hsame q hq]
          exact (hentries q).imp id (hwayInit q)
      · refine ⟨above, by simp only [hpresent, hlast, if_true], fun q => ?_⟩
        exact (hentries q).imp id (hwayInit q)
    | some entry =>
      have hdirectory : tree.entry? (p.place tree.home ++ init) = some .directory := by
        cases entry with
        | directory => exact hparent
        | file bytes modified =>
          have hmore := hfreeInit init.length bytes modified
          rw [List.take_length] at hmore
          exact absurd hparent hmore
      rcases makeDirectory_join hproper hp hdirectory hname hfreeLast with
        ⟨last, hlast, hsame⟩ | ⟨hpresent, hlast⟩
      · refine ⟨last, by simp only [hlast], fun q => ?_⟩
        by_cases hq : q = p.place tree.home ++ (init ++ [name])
        · exact .inr (hway q hq)
        · exact .inl (hsame q hq)
      · exact ⟨tree, by simp only [hpresent, hlast, if_true], fun q => .inl rfl⟩

theorem makeDirectories_join {tree : FileTree} {p : Path} (hproper : tree.IsProper)
    (hspelled : p.IsSpelled) (hp : tree.isDirectory p = true) {dirs : List String}
    (hdirs : ∀ s ∈ dirs, IsFileName s)
    (hfree : ∀ k bytes modified,
      tree.entry? (p.place tree.home ++ dirs.take k) ≠ some (.file bytes modified)) :
    ∃ tree', tree.makeDirectories (p.join ⟨false, dirs⟩) = .ok tree' ∧
      ∀ q, tree'.entry? q = tree.entry? q ∨ ∃ k, q = p.place tree.home ++ dirs.take k :=
  makeDirectoriesFrom_join hproper hspelled hp hdirs hfree (Nat.lt_succ_self _)

/-! ## Writing files -/

/-- A file can be written in a directory where no directory is. -/
theorem write_of_locate {tree : FileTree} {p : Path} {place : Place} (hlocate : tree.locate p = .ok place)
    (hparent : tree.entry? place.dropLast = some .directory)
    (hfree : tree.entry? place ≠ some .directory) (bytes : List UInt8) (modified : Int) :
    tree.write p bytes modified = .ok (tree.put place (.file bytes modified)) := by
  rw [write, hlocate]
  dsimp only
  cases hentry : tree.entry? place with
  | none => rw [hparent]
  | some entry =>
    cases entry with
    | directory => exact absurd hentry hfree
    | file _ _ => rfl

/-- A file can be moved to where no directory is. -/
theorem moveFile_of_read {tree : FileTree} {p target : Path} {new : Place} {bytes : List UInt8}
    {modified : Int} (hread : tree.read p = .ok (bytes, modified)) (hlocate : tree.locate target = .ok new)
    (hfree : tree.entry? new ≠ some .directory) : tree.moveFile p target
      = .ok ((tree.erase (p.place tree.home)).put new (.file bytes modified)) := by
  obtain ⟨hold, hentry⟩ := read_eq_ok_iff.1 hread
  -- the last case applies since `hfree` excludes the one before it
  simp only [moveFile, hold, hlocate, hentry]

/-- In a directory a file can be drafted and moved to its place, if no directory has either place. -/
theorem draft_and_move {tree : FileTree} {p : Path} (hproper : tree.IsProper) (hspelled : p.IsSpelled)
    (hp : tree.isDirectory p = true) {dirs : List String} {name draft : String}
    (hdirs : tree.entry? (p.place tree.home ++ dirs) = some .directory) (hname : IsFileName name)
    (hdraft : IsFileName draft) (hne : name ≠ draft)
    (hfree : tree.entry? (p.place tree.home ++ (dirs ++ [name])) ≠ some .directory)
    (hdraftFree : tree.entry? (p.place tree.home ++ (dirs ++ [draft])) ≠ some .directory)
    (bytes : List UInt8) (modified : Int) :
    ∃ drafted moved, tree.write (p.join ⟨false, dirs ++ [draft]⟩) bytes modified = .ok drafted ∧
      drafted.moveFile (p.join ⟨false, dirs ++ [draft]⟩) (p.join ⟨false, dirs ++ [name]⟩) = .ok moved ∧
      ∀ q, q ≠ p.place tree.home ++ (dirs ++ [name]) → q ≠ p.place tree.home ++ (dirs ++ [draft]) →
        moved.entry? q = tree.entry? q := by
  have hlocate := locate_of_parent hproper hp hdirs hdraft
  have hparent : (p.place tree.home ++ (dirs ++ [draft])).dropLast = p.place tree.home ++ dirs := by
    rw [← List.append_assoc, List.dropLast_concat]
  have hwrite := write_of_locate hlocate (hparent ▸ hdirs) hdraftFree bytes modified
  have hdraftSpelled : (p.join ⟨false, dirs ++ [draft]⟩).IsSpelled := by
    refine Path.isSpelled_join hspelled fun s hs => ?_
    rcases List.mem_append.1 hs with hs | hs
    · exact (hproper.names_of_entry hdirs s (List.mem_append_right _ hs)).toIsPart
    · exact List.mem_singleton.1 hs ▸ hdraft.toIsPart
  obtain ⟨hwrote, hread⟩ := write_ok hproper hdraftSpelled hwrite
  have hplaces : p.place tree.home ++ (dirs ++ [name]) ≠ p.place tree.home ++ (dirs ++ [draft]) := by
    intro heq
    exact hne (List.singleton_inj.1 (List.append_cancel_left (List.append_cancel_left heq)))
  have hnil : ∀ s, p.place tree.home ++ (dirs ++ [s]) ≠ [] := by simp
  have htarget := locate_mono hwrote.directories (locate_of_parent hproper hp hdirs hname)
  have hmove := moveFile_of_read hread htarget (by rwa [entry?_put (hnil draft), if_neg hplaces])
  rw [hwrote.home, ← (place_of_locate hlocate).1] at hmove
  refine ⟨_, _, hwrite, hmove, fun q hq hq' => ?_⟩
  rw [entry?_put (hnil name), if_neg hq, entry?_erase (hnil draft), if_neg hq', entry?_put (hnil draft),
    if_neg hq']

/-- Below a directory a file can be written with its directories, if no file is in their way and no
    directory in the way of the file or of its draft. What changes is on the way or one of the two. -/
theorem writeWhole_join {tree : FileTree} {p : Path} (hproper : tree.IsProper) (hspelled : p.IsSpelled)
    (hp : tree.isDirectory p = true) {dirs : List String} {name : String}
    (hdirs : ∀ s ∈ dirs, IsFileName s) (hname : IsFileName name)
    (hdraft : IsFileName ("." ++ name ++ ".tmp"))
    (hway : ∀ k bytes modified,
      tree.entry? (p.place tree.home ++ dirs.take k) ≠ some (.file bytes modified))
    (hfree : tree.entry? (p.place tree.home ++ (dirs ++ [name])) ≠ some .directory)
    (hdraftFree :
      tree.entry? (p.place tree.home ++ (dirs ++ ["." ++ name ++ ".tmp"])) ≠ some .directory)
    (text : List Char) (modified : Int) :
    ∃ tree', tree.writeWhole (p.join ⟨false, dirs ++ [name]⟩) text modified = .ok tree' ∧
      ∀ q, tree'.entry? q = tree.entry? q ∨ (∃ k, q = p.place tree.home ++ dirs.take k) ∨
        q = p.place tree.home ++ (dirs ++ [name]) ∨
        q = p.place tree.home ++ (dirs ++ ["." ++ name ++ ".tmp"]) := by
  obtain ⟨made, hmade, hentries⟩ := makeDirectories_join hproper hspelled hp hdirs hway
  obtain ⟨halters, hthere⟩ := makeDirectories_ok hproper
    (Path.isSpelled_join hspelled fun s hs => (hdirs s hs).toIsPart) hmade
  have hdirsMade : made.entry? (p.place made.home ++ dirs) = some .directory := by
    rw [← Path.place_join (fun s hs => (hdirs s hs).toIsName)]
    exact (isDirectory_iff.1 hthere).2
  -- the directories that were made are shorter than the file and its draft
  have hlong : ∀ s, made.entry? (p.place made.home ++ (dirs ++ [s]))
      = tree.entry? (p.place tree.home ++ (dirs ++ [s])) := by
    intro s
    rw [halters.home]
    refine (hentries _).resolve_right ?_
    rintro ⟨k, hk⟩
    have hlength := congrArg List.length (List.append_cancel_left hk)
    rw [List.length_append, List.length_singleton, List.length_take] at hlength
    omega
  have hne : name ≠ "." ++ name ++ ".tmp" := by
    intro heq
    have hlength := congrArg (fun s => s.toList.length) heq
    simp at hlength
    omega
  obtain ⟨drafted, moved, hwrite, hmove, hsame⟩ := draft_and_move halters.proper hspelled
    (isDirectory_mono halters.directories hp) hdirsMade hname hdraft hne (hlong name ▸ hfree)
    (hlong _ ▸ hdraftFree) (Text.encodeUtf8 text) modified
  have hdraftPath : (p.join ⟨false, dirs ++ [name]⟩).withName
      ("." ++ (p.join ⟨false, dirs ++ [name]⟩).name ++ ".tmp")
        = p.join ⟨false, dirs ++ ["." ++ name ++ ".tmp"]⟩ := by
    simp [Path.withName, Path.name, Path.join]
  refine ⟨moved, ?_, fun q => ?_⟩
  · rw [writeWhole, parent_join, hmade]
    dsimp only
    rw [hdraftPath, writeText, hwrite]
    dsimp only
    rw [hmove]
  · rw [halters.home] at hsame
    by_cases hq : q = p.place tree.home ++ (dirs ++ [name])
    · exact .inr (.inr (.inl hq))
    by_cases hq' : q = p.place tree.home ++ (dirs ++ ["." ++ name ++ ".tmp"])
    · exact .inr (.inr (.inr hq'))
    rw [hsame q hq hq']
    exact (hentries q).imp id .inl

end Folio.FileTree

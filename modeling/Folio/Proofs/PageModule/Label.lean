import Folio.Proofs.PageModule.RoundTrip

set_option autoImplicit false

/-! # Labels of page modules

The name of the source is the one value of a module that is not quoted: it stands in the comment of the
first line as it is. What a label holds after its first line end is not part of the comment but comes
before the program of the artifact (`laterLines?_module`), so two labels leave the same code exactly if
they go on with the same lines (`codeAfter_eq_iff`). Lines end where files and programs end them. -/

namespace Folio.PageModule

/-! ## Lines -/

/-- The first line of a text. -/
def firstLine (text : String) : List Char :=
  (FileTree.unifyNewlines text.toList).takeWhile (· != '\n')

/-- What follows the first line of a text, if it has a second one. -/
def laterLines? (text : String) : Option (List Char) :=
  ((FileTree.unifyNewlines text.toList).dropWhile (· != '\n')).tail?

/-- A text has no second line if no character ends a line. -/
theorem laterLines?_eq_none_iff {text : String} :
    laterLines? text = none ↔ ∀ c ∈ text.toList, c ≠ '\n' ∧ c ≠ '\r' := by
  have htail (cs : List Char) : cs.tail? = none ↔ cs = [] := by cases cs <;> simp
  have hlines : laterLines? text = none ↔ '\n' ∉ FileTree.unifyNewlines text.toList := by
    rw [laterLines?, htail, List.dropWhile_eq_nil_iff]
    simp only [bne_iff_ne]
    exact ⟨fun h hmem => h _ hmem rfl, fun h c hc heq => h (heq ▸ hc)⟩
  rw [hlines, FileTree.feed_mem_unifyNewlines, not_or]
  exact ⟨fun h c hc => ⟨fun heq => h.1 (heq ▸ hc), fun heq => h.2 (heq ▸ hc)⟩,
    fun h => ⟨fun hmem => (h _ hmem).1 rfl, fun hmem => (h _ hmem).2 rfl⟩⟩

/-- A label that fits a line has no second line, and the other way if it has no null. -/
theorem fitsLine_iff {name : String} :
    FitsLine name ↔ laterLines? name = none ∧ '\x00' ∉ name.toList := by
  rw [laterLines?_eq_none_iff]
  exact ⟨fun h => ⟨fun c hc => ⟨(h c hc).1, (h c hc).2.1⟩, fun hmem => (h _ hmem).2.2 rfl⟩,
    fun h c hc => ⟨(h.1 c hc).1, (h.1 c hc).2, fun heq => h.2 (heq ▸ hc)⟩⟩

/-! ## The lines of a module -/

/-- The program of an artifact: its module without the first line. -/
def program (a : Artifact) : List Char :=
  (Spelling.ofArtifact a).body.tail

theorem body_eq (a : Artifact) : (Spelling.ofArtifact a).body = '\n' :: program a := by
  obtain ⟨rest, hrest⟩ := exists_body a
  rw [program, hrest, List.tail_cons]

/-- What follows the first line of the module for an artifact, if it is labelled with a name. -/
def codeAfter (a : Artifact) (name : String) : List Char :=
  match laterLines? name with
  | none => program a
  | some rest => rest ++ (afterSource.toList ++ '\n' :: program a)

/-- Only the label brings line ends of its own into a module. -/
theorem unifyNewlines_module (a : Artifact) (name : String) :
    FileTree.unifyNewlines ((banner name).toList ++ (Spelling.ofArtifact a).body)
      = beforeSource.toList ++ (FileTree.unifyNewlines name.toList ++
          (afterSource.toList ++ '\n' :: program a)) := by
  have hlast : beforeSource.toList.getLast? = some ' ' := by decide
  have hfirst : '\r' ∉ beforeSource.toList := by decide
  have hhead : (afterSource.toList ++ (Spelling.ofArtifact a).body).head? = some '.' := rfl
  have hrest : '\r' ∉ afterSource.toList ++ (Spelling.ofArtifact a).body := by
    rw [List.mem_append, not_or]
    exact ⟨by decide, fun hmem => (isKept_body a _ hmem).1 rfl⟩
  rw [banner, String.toList_append, String.toList_append, List.append_assoc, List.append_assoc,
    FileTree.unifyNewlines_append (by rw [hlast]; simp),
    FileTree.unifyNewlines_append (by rw [hhead]; simp),
    FileTree.unifyNewlines_eq_self hfirst, FileTree.unifyNewlines_eq_self hrest, body_eq]

theorem laterLines?_module (a : Artifact) (name : String) :
    laterLines? (String.ofList ((banner name).toList ++ (Spelling.ofArtifact a).body))
      = some (codeAfter a name) := by
  have hfirst : ∀ c ∈ beforeSource.toList, (c != '\n') = true := List.all_eq_true.1 (by decide)
  have hlast : ∀ c ∈ afterSource.toList, (c != '\n') = true := List.all_eq_true.1 (by decide)
  rw [laterLines?, String.toList_ofList, unifyNewlines_module, List.dropWhile_append_of_pos hfirst,
    List.dropWhile_append, codeAfter, laterLines?]
  cases (FileTree.unifyNewlines name.toList).dropWhile (· != '\n') with
  | nil =>
    rw [List.isEmpty_nil, if_pos rfl, List.dropWhile_append_of_pos hlast]
    rfl
  | cons c rest => rfl

/-- The mark of a comment comes before the label. -/
theorem head?_firstLine_module (a : Artifact) (name : String) :
    (firstLine (String.ofList ((banner name).toList ++ (Spelling.ofArtifact a).body))).head?
      = some '#' := by
  rw [firstLine, String.toList_ofList, unifyNewlines_module]
  rfl

/-- The code tells which lines of the label are part of it. -/
theorem codeAfter_eq_iff {a : Artifact} {name name' : String} :
    codeAfter a name = codeAfter a name' ↔ laterLines? name = laterLines? name' := by
  refine ⟨fun h => ?_, fun h => by rw [codeAfter, codeAfter, h]⟩
  unfold codeAfter at h
  -- code that the label starts is longer than the program
  have hlonger (rest : List Char) : rest ++ (afterSource.toList ++ '\n' :: program a) ≠ program a := by
    intro heq
    have hlength := congrArg List.length heq
    simp only [List.length_append, List.length_cons] at hlength
    omega
  cases hname : laterLines? name with
  | none =>
    cases hname' : laterLines? name' with
    | none => rfl
    | some rest' =>
      rw [hname, hname'] at h
      exact absurd h.symm (hlonger rest')
  | some rest =>
    cases hname' : laterLines? name' with
    | none =>
      rw [hname, hname'] at h
      exact absurd h (hlonger rest)
    | some rest' =>
      rw [hname, hname'] at h
      rw [List.append_cancel_right h]

/-- A program has no nulls, so a label with one makes none. -/
theorem decode?_module {a : Artifact} (ha : a.WellFormed) (hfit : integersFit a = true) {name : String}
    (hname : laterLines? name = none) :
    decode? ((banner name).toList ++ (Spelling.ofArtifact a).body)
      = if '\x00' ∈ name.toList then none else some a := by
  split
  next hnull =>
    have hmem : '\x00' ∈ (banner name).toList ++ (Spelling.ofArtifact a).body := by
      rw [banner, String.toList_append, String.toList_append]
      exact List.mem_append_left _ (List.mem_append_left _ (List.mem_append_right _ hnull))
    unfold decode?
    split
    · rw [List.contains_eq_mem, decide_eq_true hmem, if_pos rfl]
    · rfl
  next hnull =>
    rw [decode?_banner (fitsLine_iff.2 ⟨hname, hnull⟩), decodeBody?_body ha hfit, Option.filter_some, beq_self_eq_true,
      if_pos rfl]

/-! ## Two labels -/

/-- Whatever an artifact and two sources are, both modules are written or neither is, because an integer
    has too many digits. Modules start with a comment. After their first lines they agree exactly if the
    labels do, so a label that ends no line leaves the program of the artifact, and the artifact that it
    makes, as they are. Any other label puts what it holds after its first line end before the program. -/
theorem modules_agree_iff (a : Artifact) (s t : String) :
    (emit a s = .error .hugeInteger ∧ emit a t = .error .hugeInteger) ∨
    ∃ text text', emit a s = .ok text ∧ emit a t = .ok text' ∧
      (firstLine text).head? = some '#' ∧ (firstLine text').head? = some '#' ∧
      (laterLines? text = laterLines? text' ↔ laterLines? (label a s) = laterLines? (label a t)) ∧
      (laterLines? text = some (program a) ↔ ∀ c ∈ (label a s).toList, c ≠ '\n' ∧ c ≠ '\r') ∧
      (∀ rest, laterLines? (label a s) = some rest →
        laterLines? text = some (rest ++ (afterSource.toList ++ '\n' :: program a))) ∧
      (a.WellFormed → laterLines? (label a s) = none →
        decode? text.toList = if '\x00' ∈ (label a s).toList then none else some a) := by
  cases hfit : integersFit a with
  | false => exact .inl ⟨emit_of_not_integersFit hfit s, emit_of_not_integersFit hfit t⟩
  | true =>
    refine .inr ⟨_, _, emit_of_integersFit hfit s, emit_of_integersFit hfit t,
      head?_firstLine_module a _, head?_firstLine_module a _, ?_, ?_, fun rest hrest => ?_,
      fun ha hline => ?_⟩
    · rw [laterLines?_module, laterLines?_module, Option.some.injEq, codeAfter_eq_iff]
    · have hplain : codeAfter a "" = program a := rfl
      rw [laterLines?_module, Option.some.injEq, ← hplain, codeAfter_eq_iff]
      exact laterLines?_eq_none_iff
    · rw [laterLines?_module, codeAfter, hrest]
    · rw [String.toList_ofList, decode?_module ha hfit hline]

/-- A page of two words. -/
def greeting : Artifact where
  frontmatter := []
  contentHtml := "<p>Good day</p>\n"
  excerpt := none
  slug := "greeting"
  lastModified := ⟨⟨2024, 2, 29⟩, ⟨12, 0, 0, 0⟩, some 0⟩
  stats := ⟨2, 1, []⟩

/-- The name of a file is a label that no line ends, or one that puts a statement into the module. -/
theorem modules_agree_iff_of_names :
    sourceLabel (pathSlug [] ⟨false, ["a.md"]⟩ none) = "a.md" ∧
    sourceLabel (pathSlug [] ⟨false, ["a\nimport os #.md"]⟩ none) = "a\nimport os #.md" ∧
    greeting.WellFormed ∧ laterLines? (label greeting "a.md") = none ∧
    ∃ text text', emit greeting "a.md" = .ok text ∧ emit greeting "a\nimport os #.md" = .ok text' ∧
      decode? text.toList = some greeting ∧ laterLines? text = some (program greeting) ∧
      laterLines? text' = some
        ("import os #.md".toList ++ (". Do not edit.".toList ++ '\n' :: program greeting)) := by
  have hwell : greeting.WellFormed :=
    ⟨by decide, ⟨⟨by decide, by decide, by decide⟩, ⟨by decide, by decide, by decide, by decide⟩,
      by decide⟩, by decide⟩
  have hfit : integersFit greeting = true := by decide +kernel
  have hlines : laterLines? (label greeting "a.md") = none := by decide +kernel
  have hplain : ∀ c ∈ (label greeting "a.md").toList, c ≠ '\n' ∧ c ≠ '\r' := laterLines?_eq_none_iff.1 hlines
  have hbroken : laterLines? (label greeting "a\nimport os #.md") = some "import os #.md".toList := by
    decide +kernel
  refine ⟨by decide +kernel, by decide +kernel, hwell, hlines, ?_⟩
  obtain ⟨herror, -⟩ | ⟨text, text', htext, htext', -, -, -, hsame, -, hdecode⟩ :=
    modules_agree_iff greeting "a.md" "a\nimport os #.md"
  · rw [emit_of_integersFit hfit] at herror
    cases herror
  obtain ⟨herror, -⟩ | ⟨broken, _, hwritten, -, -, -, -, -, hrest, -⟩ :=
    modules_agree_iff greeting "a\nimport os #.md" "a.md"
  · rw [emit_of_integersFit hfit] at herror
    cases herror
  obtain rfl := Except.ok.inj (htext'.symm.trans hwritten)
  refine ⟨text, text', htext, htext', ?_, hsame.2 hplain, hrest _ hbroken⟩
  rw [hdecode hwell hlines]
  rfl

end Folio.PageModule

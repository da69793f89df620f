import Folio.Proofs.FrontMatter.Fences
import Folio.Proofs.Yaml.Refusals

set_option autoImplicit false

/-! # Taking a page apart, line by line

What the parts of a page are is said of its lines: those that line feeds end for the header (`HasHeader`), and
those that any line end parts for the excerpt (`HasLines`, `IsExcerpt`). Taking a page apart gives these parts, or the
reason why its header has no data, and nothing else (`split_eq_iff`). The reason says what is wrong with the
header, unless the header has something that lets it be refused without a report. -/

namespace Folio

open Text

/-! ## The excerpt -/

theorem trimBlanks_eq_nil_iff {cs : List Char} : trimBlanks cs = [] ↔ ∀ c ∈ cs, isBlank c = true := by
  simp only [trimBlanks, List.reverse_eq_nil_iff, List.dropWhile_eq_nil_iff, List.mem_reverse]
  constructor
  · intro h c hc
    rw [← List.takeWhile_append_dropWhile (p := isBlank) (l := cs)] at hc
    exact (List.mem_append.1 hc).elim (fun hc => List.mem_takeWhile_imp hc) (h c)
  · intro h c hc
    exact h c ((List.dropWhile_suffix _).subset hc)

theorem trimBlanks_ne_nil_iff {cs : List Char} : trimBlanks cs ≠ [] ↔ ∃ c ∈ cs, isBlank c = false := by
  simp [trimBlanks_eq_nil_iff]

/-- What the excerpt of a body is: the text before the first line that reads as the separator, without blanks
    around it. There is none without such a line, or if that text is blank. -/
inductive IsExcerpt (separator body : String) : Option String → Prop
  | noSeparator {ls : List (List Char)} (hasLines : HasLines body.toList ls)
      (others : ∀ line ∈ ls, trimBlanks line ≠ separator.toList) : IsExcerpt separator body none
  | blank {before after : List (List Char)} {line : List Char}
      (hasLines : HasLines body.toList (before ++ line :: after)) (separates : trimBlanks line = separator.toList)
      (first : ∀ earlier ∈ before, trimBlanks earlier ≠ separator.toList)
      (isBlank : ∀ c ∈ before.flatten, isBlank c = true) : IsExcerpt separator body none
  | text {before after : List (List Char)} {line : List Char}
      (hasLines : HasLines body.toList (before ++ line :: after)) (separates : trimBlanks line = separator.toList)
      (first : ∀ earlier ∈ before, trimBlanks earlier ≠ separator.toList)
      (notBlank : ∃ c ∈ before.flatten, Text.isBlank c = false) :
      IsExcerpt separator body (some (String.ofList (trimBlanks before.flatten)))

theorem linesBefore?_eq_cut (separator : List Char) (ls : List (List Char)) : linesBefore? separator ls
    = (cutAtFirst? (fun line => trimBlanks line = separator) ls).map Prod.fst := by
  induction ls with
  | nil => rfl
  | cons line later ih =>
    rw [linesBefore?, cutAtFirst?]
    split
    next => rfl
    next => rw [ih, Option.map_map, Option.map_map]; rfl

theorem isExcerpt_excerptOf (separator body : String) : IsExcerpt separator body (excerptOf separator body) := by
  unfold excerptOf
  rw [linesBefore?_eq_cut]
  cases hcut : cutAtFirst? (fun line => trimBlanks line = separator.toList) (lines body.toList) with
  | none => exact .noSeparator (lines_eq_iff.1 rfl) (cutAtFirst?_eq_none_iff.1 hcut)
  | some parts =>
    obtain ⟨before, after⟩ := parts
    obtain ⟨line, hlines, hline, hbefore⟩ := cutAtFirst?_eq_some_iff.1 hcut
    simp only [Option.map_some]
    split
    next hempty =>
      exact .blank (lines_eq_iff.1 hlines) hline hbefore (trimBlanks_eq_nil_iff.1 (List.isEmpty_iff.1 hempty))
    next hempty =>
      exact .text (lines_eq_iff.1 hlines) hline hbefore (trimBlanks_ne_nil_iff.1 fun h => hempty (List.isEmpty_iff.2 h))

/-- A body has one excerpt. -/
theorem excerptOf_eq_iff {separator body : String} {excerpt : Option String} :
    excerptOf separator body = excerpt ↔ IsExcerpt separator body excerpt := by
  constructor
  · rintro rfl
    exact isExcerpt_excerptOf separator body
  · intro h
    unfold excerptOf
    rw [linesBefore?_eq_cut]
    cases h with
    | noSeparator hlines hothers =>
      rw [lines_eq_iff.2 hlines, cutAtFirst?_eq_none_iff.2 hothers]
      rfl
    | blank hlines hline hfirst hblank =>
      rw [cutAtFirst?_eq_some_iff.2 ⟨_, lines_eq_iff.2 hlines, hline, hfirst⟩]
      simp [trimBlanks_eq_nil_iff.2 hblank]
    | @text before after line hlines hline hfirst hblank =>
      rw [cutAtFirst?_eq_some_iff.2 ⟨_, lines_eq_iff.2 hlines, hline, hfirst⟩]
      simp [trimBlanks_ne_nil_iff.2 hblank]

/-! ## The data of a header -/

/-- What the data of a header is: the mapping that the text between its fences is, or none if that text has
    no value. A text of another value, or that has a fault, is refused. -/
inductive HeaderReads (header : List Char) : Except FrontMatterError (List (Value × Value)) → Prop
  | mapping {entries : List (Value × Value)} (reads : Yaml.load header = .ok (.map entries)) :
      HeaderReads header (.ok entries)
  | noValue (reads : Yaml.load header = .ok .null) : HeaderReads header (.ok [])
  | other {value : Value} (reads : Yaml.load header = .ok value) (notNull : value ≠ .null)
      (notMapping : ∀ entries, value ≠ .map entries) :
      HeaderReads header (.error (.notAMapping value.kindName))
  | fault {cause : Yaml.LoadError} (fails : Yaml.load header = .error cause) :
      HeaderReads header (.error (.yaml header cause))

theorem headerEntries_eq_iff {header : List Char} {result : Except FrontMatterError (List (Value × Value))} :
    headerEntries header = result ↔ HeaderReads header result := by
  unfold headerEntries
  constructor
  · rintro rfl
    split
    next h => exact .fault h
    next h => exact .noValue h
    next h => exact .mapping h
    next value hnull hmapping h =>
      exact .other h hnull hmapping
  · intro h
    cases h with
    | mapping hreads => rw [hreads]
    | noValue hreads => rw [hreads]
    | fault hfails => rw [hfails]
    | @other value hreads hnull hmapping =>
      rw [hreads]
      cases value with
      | null => exact absurd rfl hnull
      | map entries => exact absurd rfl (hmapping entries)
      | _ => rfl

/-! ## The parts of a page -/

/-- What the parts of a page are, by its lines. -/
inductive Splits (text separator : String) : Except FrontMatterError FrontMatter → Prop
  | noHeader {excerpt : Option String} (none : ∀ block after, ¬ HasHeader text.toList block after)
      (isExcerpt : IsExcerpt separator text excerpt) : Splits text separator (.ok ⟨[], text, excerpt⟩)
  | header {block after : List (List Char)} {entries : List (Value × Value)} {excerpt : Option String}
      (hasHeader : HasHeader text.toList block after) (reads : HeaderReads block.flatten (.ok entries))
      (isExcerpt : IsExcerpt separator (String.ofList after.flatten) excerpt) :
      Splits text separator (.ok ⟨entries, String.ofList after.flatten, excerpt⟩)
  | refused {block after : List (List Char)} {cause : FrontMatterError}
      (hasHeader : HasHeader text.toList block after) (reads : HeaderReads block.flatten (.error cause)) :
      Splits text separator (.error cause)

variable {text separator : String}

theorem split_of_noHeader (h : ∀ block after, ¬ HasHeader text.toList block after) :
    FrontMatter.split text separator = .ok ⟨[], text, excerptOf separator text⟩ := by
  have hnone : header? text.toList = none := by
    refine Option.eq_none_iff_forall_ne_some.2 fun (header, body) hparts => ?_
    obtain ⟨block, after, hheader, -⟩ := header?_eq_some_iff.1 hparts
    exact h block after hheader
  rw [FrontMatter.split, hnone]

theorem HasHeader.split {block after : List (List Char)} (h : HasHeader text.toList block after) :
    FrontMatter.split text separator = (headerEntries block.flatten).map fun entries =>
      ⟨entries, String.ofList after.flatten, excerptOf separator (String.ofList after.flatten)⟩ := by
  rw [FrontMatter.split, header?_eq_some_iff.2 ⟨block, after, h, rfl, rfl⟩]
  dsimp only
  cases headerEntries block.flatten <;> rfl

/-- Taking a page apart gives the parts that its lines say, and fails only where they do. -/
theorem split_eq_iff (text separator : String) (result : Except FrontMatterError FrontMatter) :
    FrontMatter.split text separator = result ↔ Splits text separator result := by
  constructor
  · rintro rfl
    by_cases h : ∃ block after, HasHeader text.toList block after
    · obtain ⟨block, after, h⟩ := h
      rw [h.split]
      cases hentries : headerEntries block.flatten with
      | error cause => exact .refused h (headerEntries_eq_iff.1 hentries)
      | ok entries => exact .header h (headerEntries_eq_iff.1 hentries) (isExcerpt_excerptOf _ _)
    · have hnone : ∀ block after, ¬ HasHeader text.toList block after := by simpa using h
      rw [split_of_noHeader hnone]
      exact .noHeader hnone (isExcerpt_excerptOf separator text)
  · intro h
    cases h with
    | noHeader hnone hexcerpt => rw [split_of_noHeader hnone, excerptOf_eq_iff.2 hexcerpt]
    | header hheader hreads hexcerpt =>
      rw [hheader.split, headerEntries_eq_iff.2 hreads, excerptOf_eq_iff.2 hexcerpt]
      rfl
    | refused hheader hreads =>
      rw [hheader.split, headerEntries_eq_iff.2 hreads]
      rfl

/-- A header may have no value: between fences that follow each other there is no mapping, and yet the page
    can be taken apart. -/
theorem split_empty_header : HasHeader "---\n---\nBody\n".toList [] ["Body\n".toList] ∧
    (∀ entries, Yaml.load [] ≠ .ok (.map entries)) ∧
    FrontMatter.split "---\n---\nBody\n" = .ok ⟨[], "Body\n", none⟩ := by
  have hnull : Yaml.load [] = .ok .null := rfl
  have hheader : HasHeader "---\n---\nBody\n".toList [] ["Body\n".toList] :=
    ⟨⟨_, _, rfl, @IsFence.feed _ [] nofun, @IsFence.feed _ [] nofun⟩, nofun⟩
  refine ⟨hheader, fun entries h => ?_, ?_⟩
  · cases hnull.symm.trans h
  · rw [hheader.split, List.flatten_nil, headerEntries_eq_iff.2 (.noValue hnull)]
    rfl

/-! ## Pages that are refused -/

/-- A page is taken apart, or refused with an explanation, or it has a header that can be refused without. -/
theorem split_refuses_by_name_or_escapes (text separator : String) :
    (∃ page, FrontMatter.split text separator = .ok page) ∨
    (∃ cause, FrontMatter.split text separator = .error cause ∧ cause.isExplained = true) ∨
    ∃ block after cause, HasHeader text.toList block after ∧
      FrontMatter.split text separator = .error (.yaml block.flatten cause) ∧
      cause.isExplained = false ∧ Yaml.Escapes block.flatten cause := by
  by_cases h : ∃ block after, HasHeader text.toList block after
  · obtain ⟨block, after, h⟩ := h
    have hmeets := Yaml.load_meets block.flatten
    rw [h.split]
    unfold headerEntries
    cases hload : Yaml.load block.flatten with
    | error cause =>
      rw [hload] at hmeets
      rcases hmeets with hexplained | hescapes
      · exact .inr (.inl ⟨.yaml block.flatten cause, rfl, hexplained⟩)
      · exact .inr (.inr ⟨block, after, cause, h, rfl, hescapes.isExplained, hescapes⟩)
    | ok value =>
      cases value with
      | null => exact .inl ⟨_, rfl⟩
      | map entries => exact .inl ⟨_, rfl⟩
      | _ => exact .inr (.inl ⟨_, rfl, rfl⟩)
  · have hnone : ∀ block after, ¬ HasHeader text.toList block after := by simpa using h
    exact .inl ⟨_, split_of_noHeader hnone⟩

/-- Why a header has no value, if it has none. -/
def refusal? (header : List Char) : Option Yaml.LoadError :=
  match headerEntries header with
  | .error (.yaml _ cause) => some cause
  | _ => none

/-- Headers that are refused without an explanation: a word that is no truth value, a timestamp in no known form,
    a mapping for a timestamp, an integer and a number without a digit, a number in base 60 with too many parts, a
    mapping that is its own default value, and a number for no character. -/
theorem garbledHeaders_escape :
    refusal? "a: !!bool maybe\n".toList = some (.scalar (.notATruthValue "maybe".toList)) ∧
    refusal? "a: !!timestamp soon\n".toList = some (.scalar .notATimestamp) ∧
    refusal? "a: !!timestamp \x7b=: 2001-01-01\x7d\n".toList = some (.scalar .timestampInCollection) ∧
    refusal? "a: !!int ''\n".toList = some (.scalar .noNumber) ∧
    refusal? "a: !!float _\n".toList = some (.scalar .noNumber) ∧
    refusal? ("a: 1".toList ++ (List.replicate 174 ":0".toList).flatten ++ ".0\n".toList)
      = some (.scalar .unitTooLarge) ∧
    refusal? "a: !!str &x \x7b=: *x\x7d\n".toList = some .endless ∧
    (refusal? "a: \"\\UFFFFFFFF\"\n".toList).any (!·.isExplained) = true ∧
    ∃ block after cause, HasHeader "---\na: !!bool maybe\n---\n".toList block after ∧
      FrontMatter.split "---\na: !!bool maybe\n---\n" = .error (.yaml block.flatten cause) ∧
      cause.isExplained = false ∧ Yaml.Escapes block.flatten cause := by
  have hgarbled : (match FrontMatter.split "---\na: !!bool maybe\n---\n" with
      | .error cause => !cause.isExplained
      | .ok _ => false) = true := by decide +kernel
  refine ⟨?_, ?_, ?_, ?_, ?_, ?_, ?_, ?_, ?_⟩
  iterate 8 decide +kernel
  rcases split_refuses_by_name_or_escapes "---\na: !!bool maybe\n---\n" "---" with
    ⟨page, h⟩ | ⟨cause, h, hexplained⟩ | hescapes
  · simp [h] at hgarbled
  · simp [h, hexplained] at hgarbled
  · exact hescapes

end Folio

import Folio.Build
import Folio.Proofs.Calendar.Written
import Folio.Proofs.Except
import Folio.Proofs.Json.ReadBack
import Folio.Proofs.Text.Files

set_option autoImplicit false

/-! # Page modules read back

Each value of a module is spelled so that it is read back, whatever follows it: texts as strings, data as
JSON in quotes, the time by its numbers. With the fixed text between them off, the values make the
artifact again (`decodeBody?_body`). A module has no character that a file or a program would change, so
the artifact also comes back from a file (`importArtifact_of_read`). The name of the source is all that a
module adds to its artifact; it must fit the comment on the first line. -/

namespace Folio

/-! ## Artifacts -/

/-- What every compiled page is: a header whose names are different, a moment that exists, and headings
    of the six depths. -/
structure Artifact.WellFormed (a : Artifact) : Prop where
  names : (Json.object a.frontmatter).hasDistinctNames = true
  moment : a.lastModified.IsValid
  depths : ∀ h ∈ a.stats.headings, 1 ≤ h.depth ∧ h.depth ≤ 6

namespace PageModule

open Text

/-- Whether the integers of an artifact have no more digits than are written. -/
def integersFit (a : Artifact) : Bool :=
  !Json.anyHugeMember a.frontmatter && !(statsData a.stats).hasHugeInteger

theorem emit_of_integersFit {a : Artifact} (h : integersFit a = true) (source : String) :
    emit a source
      = .ok (String.ofList ((banner (label a source)).toList ++ (Spelling.ofArtifact a).body)) := by
  rw [integersFit, Bool.and_eq_true, Bool.not_eq_true', Bool.not_eq_true'] at h
  rw [emit, h.1, h.2]
  rfl

theorem emit_of_not_integersFit {a : Artifact} (h : integersFit a = false) (source : String) :
    emit a source = .error .hugeInteger := by
  rw [integersFit, Bool.and_eq_false_iff, Bool.not_eq_false', Bool.not_eq_false',
    ← Bool.or_eq_true] at h
  rw [emit, if_pos h]

theorem integersFit_of_emit {a : Artifact} {source text : String} (h : emit a source = .ok text) :
    integersFit a = true := by
  unfold emit at h
  split at h
  · cases h
  · next hfit => simpa [integersFit] using hfit

/-! ## What is known about a page -/

theorem natOf?_natCast (n : Nat) : natOf? (.int n) = some n := by
  simp [natOf?]

theorem headingOf?_headingJson {h : Html.Heading} (hdepth : 1 ≤ h.depth ∧ h.depth ≤ 6) :
    headingOf? (Artifact.headingJson h) = some h := by
  have hlow : h.depth ≠ 0 := by omega
  simp [headingOf?, Artifact.headingJson, List.lookup_cons, natOf?_natCast, textOf?, hlow, hdepth.2]

theorem mapM_headingOf? {headings : List Html.Heading}
    (h : ∀ heading ∈ headings, 1 ≤ heading.depth ∧ heading.depth ≤ 6) :
    (headings.map Artifact.headingJson).mapM headingOf? = some headings := by
  induction headings with
  | nil => rfl
  | cons heading headings ih =>
    rw [List.map_cons, List.mapM_cons, headingOf?_headingJson (h heading (by simp)),
      ih fun h' hmem => h h' (List.mem_cons_of_mem _ hmem)]
    rfl

/-- What is known about a page comes back from its data. -/
theorem statsOf?_statsData {s : PageStats}
    (h : ∀ heading ∈ s.headings, 1 ≤ heading.depth ∧ heading.depth ≤ 6) :
    statsOf? (statsData s) = some s := by
  simp [statsOf?, statsData, Artifact.statsJson, List.lookup_cons, natOf?_natCast, mapM_headingOf? h]

theorem hasDistinctNames_statsData (s : PageStats) : (statsData s).hasDistinctNames = true := by
  have hheadings : ∀ headings : List Html.Heading,
      Json.itemsHaveDistinctNames (headings.map Artifact.headingJson) = true := by
    intro headings
    induction headings with
    | nil => rfl
    | cons heading headings ih =>
      rw [List.map_cons, Json.itemsHaveDistinctNames, ih, Bool.and_true]
      rfl
  rw [statsData, Artifact.statsJson, Json.hasDistinctNames_object]
  refine ⟨by simp, ?_⟩
  simp [Json.membersHaveDistinctNames, Json.hasDistinctNames, hheadings]

/-! ## Values -/

theorem readQuoted?_spell (s : String) (rest : List Char) :
    Text.readQuoted? (spell s ++ rest) = some (s.toList, rest) :=
  Json.readQuoted?_stringChars s.toList rest

/-- The points of data on one line. -/
def dataPoints (j : Json) : List Point :=
  Json.withHalves (Json.chars Json.oneLine 0 j)

theorem dataOf?_dataPoints {j : Json} (hnames : j.hasDistinctNames = true)
    (hhuge : j.hasHugeInteger = false) : dataOf? (dataPoints j) = some j := by
  rw [dataOf?, dataPoints, Json.readPoints_withHalves hnames hhuge]
  rfl

theorem readExcerpt?_spellExcerpt (excerpt : Option String) (rest : List Char) :
    readExcerpt? (spellExcerpt excerpt ++ rest) = some (excerpt, rest) := by
  cases excerpt with
  | none => rw [spellExcerpt, readExcerpt?, Text.dropPrefix?_append]
  | some s =>
    have hnone : Text.dropPrefix? noExcerpt.toList (spell s ++ rest) = none := rfl
    rw [spellExcerpt, readExcerpt?, hnone]
    simp only [readQuoted?_spell, Option.map_some, String.ofList_toList]

theorem readAfter?_append {α : Type} {read : List Char → Option (α × List Char)} (before : String) {piece : List Char}
    {value : α} (h : ∀ rest, read (piece ++ rest) = some (value, rest)) (rest : List Char) :
    readAfter? before read (before.toList ++ (piece ++ rest)) = some (value, rest) := by
  rw [readAfter?, Text.dropPrefix?_append, Option.bind_some, h]

/-- A body is taken apart into its values. -/
theorem partsOf?_body (a : Artifact) : partsOf? (Spelling.ofArtifact a).body
    = some ⟨dataPoints (.object a.frontmatter), a.contentHtml.toList, a.excerpt,
        a.slug.toList, a.lastModified.toText.toList, dataPoints (statsData a.stats)⟩ := by
  have hheader := readAfter?_append beforeFrontmatter (Text.readPoints?_quotePoints (dataPoints (.object a.frontmatter)))
  have hhtml := readAfter?_append beforeHtml (readQuoted?_spell a.contentHtml)
  have hexcerpt := readAfter?_append beforeExcerpt (readExcerpt?_spellExcerpt a.excerpt)
  have hslug := readAfter?_append beforeSlug (readQuoted?_spell a.slug)
  have htime := readAfter?_append beforeTime (readQuoted?_spell a.lastModified.toText)
  have hstats := readAfter?_append beforeStats (Text.readPoints?_quotePoints (dataPoints (statsData a.stats)))
  unfold dataPoints at hheader hstats
  simp only [partsOf?, Spelling.body, Spelling.ofArtifact, spellData, List.append_assoc, hheader, hhtml, hexcerpt,
    hslug, htime, hstats, Option.bind_eq_bind, Option.bind_some, if_true]
  rfl

/-- The text after the first line makes the artifact again. -/
theorem decodeBody?_body {a : Artifact} (ha : a.WellFormed) (hfit : integersFit a = true) :
    decodeBody? (Spelling.ofArtifact a).body = some a := by
  rw [integersFit, Bool.and_eq_true, Bool.not_eq_true', Bool.not_eq_true'] at hfit
  have hheader := dataOf?_dataPoints ha.names hfit.1
  have hstats := dataOf?_dataPoints (hasDistinctNames_statsData a.stats) hfit.2
  have hknown := statsOf?_statsData ha.depths
  have hmoment := DateTime.ofText?_toText ha.moment
  rw [decodeBody?, partsOf?_body, Option.bind_some]
  simp only [Parts.artifact?, hheader, hstats, hknown, hmoment, Option.bind_eq_bind, Option.bind_some,
    String.ofList_toList]

/-! ## Characters -/

theorem isKept_spell (s : String) : IsKept (spell s) :=
  isKept_stringChars false s.toList

theorem isKept_spellExcerpt (excerpt : Option String) : IsKept (spellExcerpt excerpt) := by
  cases excerpt with
  | none => decide
  | some s => exact isKept_spell s

theorem isKept_body (a : Artifact) : IsKept (Spelling.ofArtifact a).body := by
  have hfixed : IsKept beforeFrontmatter.toList ∧ IsKept beforeHtml.toList ∧
      IsKept beforeExcerpt.toList ∧ IsKept beforeSlug.toList ∧ IsKept beforeTime.toList ∧
      IsKept beforeStats.toList ∧ IsKept ending.toList := by
    decide +kernel
  obtain ⟨h1, h2, h3, h4, h5, h6, h7⟩ := hfixed
  simp only [Spelling.body, Spelling.ofArtifact, spellData, isKept_append, h1, h2, h3, h4, h5, h6, h7,
    isKept_quotePoints, isKept_spell, isKept_spellExcerpt, and_self]

/-! ## Modules -/

/-- What can stand in the first line of a module. -/
def FitsLine (name : String) : Prop :=
  ∀ c ∈ name.toList, c ≠ '\n' ∧ c ≠ '\r' ∧ c ≠ '\x00'

instance (name : String) : Decidable (FitsLine name) :=
  List.decidableBAll _ name.toList

/-- The first line is a mark and characters of one line. -/
theorem exists_banner {name : String} (hname : FitsLine name) :
    ∃ line, (banner name).toList = '#' :: line ∧ ∀ c ∈ line, c ≠ '\n' ∧ c ≠ '\r' ∧ c ≠ '\x00' := by
  have hhead : beforeSource.toList.head? = some '#' := by decide
  have hfirst : FitsLine beforeSource := by decide
  have hlast : FitsLine afterSource := by decide
  unfold FitsLine at hfirst hlast
  obtain ⟨first, hsplit⟩ := List.head?_eq_some_iff.1 hhead
  rw [hsplit] at hfirst
  refine ⟨first ++ name.toList ++ afterSource.toList, ?_, fun c hc => ?_⟩
  · rw [banner, String.toList_append, String.toList_append, hsplit, List.cons_append, List.cons_append]
  · rcases List.mem_append.1 hc with hc | hc
    · exact (List.mem_append.1 hc).elim (fun hc => hfirst c (List.mem_cons_of_mem _ hc)) (hname c)
    · exact hlast c hc

theorem exists_body (a : Artifact) : ∃ rest, (Spelling.ofArtifact a).body = '\n' :: rest := by
  have hhead : beforeFrontmatter.toList.head? = some '\n' := by decide +kernel
  obtain ⟨first, hfirst⟩ := List.head?_eq_some_iff.1 hhead
  rw [← List.head?_eq_some_iff]
  simp only [Spelling.body, List.append_assoc, hfirst, List.cons_append, List.head?_cons]

/-- The text of a module has neither carriage returns nor nulls. -/
theorem isKept_module {a : Artifact} {name : String} (hname : FitsLine name) :
    IsKept ((banner name).toList ++ (Spelling.ofArtifact a).body) := by
  obtain ⟨line, hbanner, hline⟩ := exists_banner hname
  rw [hbanner]
  exact isKept_append.2 ⟨isKept_cons.2 ⟨by decide, fun c hc => (hline c hc).2⟩, isKept_body a⟩

/-- The first line is passed over, and what the rest makes has to be written like it. -/
theorem decode?_banner {a : Artifact} {name : String} (hname : FitsLine name) :
    decode? ((banner name).toList ++ (Spelling.ofArtifact a).body)
      = (decodeBody? (Spelling.ofArtifact a).body).filter fun b =>
        (Spelling.ofArtifact b).body == (Spelling.ofArtifact a).body := by
  obtain ⟨line, hbanner, hline⟩ := exists_banner hname
  obtain ⟨rest, hrest⟩ := exists_body a
  have hnull : ('#' :: (line ++ (Spelling.ofArtifact a).body)).contains '\x00' = false := by
    have hkept := isKept_module (a := a) hname
    rw [hbanner, List.cons_append] at hkept
    rw [List.contains_eq_mem, decide_eq_false_iff_not]
    exact fun hmem => (hkept _ hmem).2 rfl
  have hdrop : (line ++ (Spelling.ofArtifact a).body).dropWhile (· != '\n')
      = (Spelling.ofArtifact a).body := by
    rw [List.dropWhile_append_of_pos fun c hc => by simpa using (hline c hc).1, hrest]
    rfl
  rw [hbanner, List.cons_append, decode?]
  simp only [hnull, hdrop, Bool.false_eq_true, if_false]

/-- A module makes the artifact that it was written for. -/
theorem decode?_of_emit {a : Artifact} (ha : a.WellFormed) {source text : String}
    (hsource : FitsLine (label a source)) (h : emit a source = .ok text) :
    decode? text.toList = some a := by
  have hfit := integersFit_of_emit h
  rw [emit_of_integersFit hfit] at h
  obtain rfl := Except.ok.inj h
  rw [String.toList_ofList, decode?_banner hsource, decodeBody?_body ha hfit, Option.filter_some, beq_self_eq_true,
    if_pos rfl]

/-- A file that holds a module makes the artifact that it was written for. -/
theorem importArtifact_of_read {a : Artifact} (ha : a.WellFormed) {source text : String}
    (hsource : FitsLine (label a source)) (h : emit a source = .ok text) {tree : FileTree} {p : Path}
    {modified : Int} (hread : tree.read p = .ok (Text.encodeUtf8 text.toList, modified)) :
    importArtifact tree p = .ok a := by
  have hdecode := decode?_of_emit ha hsource h
  rw [emit_of_integersFit (integersFit_of_emit h)] at h
  obtain rfl := Except.ok.inj h
  rw [String.toList_ofList] at hread hdecode
  have htext := FileTree.readText_of_read hread fun hmem => (isKept_module hsource _ hmem).1 rfl
  simp only [importArtifact, htext, Except.mapError, bind, Except.bind, hdecode]
  rfl

/-! ## Importing -/

/-- Whatever an artifact holds, a module is written for it if its integers can be written, and every file
    that holds the module makes the artifact again. A source without a name is called by the slug. -/
theorem importArtifact_emit {a : Artifact} (ha : a.WellFormed) (hfit : integersFit a = true)
    {source : String} (hsource : FitsLine (label a source)) :
    ∃ text, emit a source = .ok text ∧
      ∀ (tree : FileTree) (p : Path) (modified : Int),
        tree.read p = .ok (Text.encodeUtf8 text.toList, modified) → importArtifact tree p = .ok a := by
  refine ⟨_, emit_of_integersFit hfit source, fun tree p modified hread => ?_⟩
  exact importArtifact_of_read ha hsource (emit_of_integersFit hfit source) hread

/-- A page with quotes of both kinds, line breaks, braces and backslashes in its texts, with numbers that
    are not finite, and with an offset of minutes and microseconds. -/
def intricate : Artifact where
  frontmatter := [("it's \"x\"", .float .nan),
    ("nested", .array [.object [("a\\", .int (-5)), ("\x7b", .float (.infinite true))], .null])]
  contentHtml := "<p>\x00\r\n\u2028\\</p>"
  excerpt := some "None"
  slug := "a/b"
  lastModified := ⟨⟨2024, 2, 29⟩, ⟨23, 59, 59, 7⟩, some (-5400000001)⟩
  stats := ⟨3, 1, [⟨6, "é", "e"⟩]⟩

/-- It comes back from a file. -/
theorem importArtifact_emit_intricate :
    intricate.WellFormed ∧ integersFit intricate = true ∧ FitsLine (label intricate "") ∧
      ∃ text, emit intricate "" = .ok text ∧
        importArtifact ⟨[], [(["m.py"], .file (Text.encodeUtf8 text.toList) 0)], .plain⟩ ⟨false, ["m.py"]⟩
          = .ok intricate := by
  have hwell : intricate.WellFormed :=
    ⟨by decide, ⟨⟨by decide, by decide, by decide⟩, ⟨by decide, by decide, by decide, by decide⟩,
      by decide⟩, by decide⟩
  have hfit : integersFit intricate = true := by decide +kernel
  have hlabel : FitsLine (label intricate "") := by decide
  obtain ⟨text, htext, himport⟩ := importArtifact_emit hwell hfit hlabel
  refine ⟨hwell, hfit, hlabel, text, htext, himport _ _ 0 ?_⟩
  rfl

end PageModule

end Folio

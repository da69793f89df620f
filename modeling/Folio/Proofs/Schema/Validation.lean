import Folio.Compile
import Folio.Filters
import Folio.Proofs.Value
import Folio.Proofs.Schema.Forms
import Folio.Settings
import Mathlib

set_option autoImplicit false

/-! # Validation of headers

The schemas for content are sound (`isSound_of_mem_contentSchemas`), so what is validated once stays as it is when it is
validated again (`validated_stays`). The header of a page is brought in the form of the schema for its kind, or its faults are
reported; but some kinds can neither be looked up nor be reported as unknown (`header_is_checked_or_escapes`). -/

namespace Folio.Schema

/-! ## Sound schemas -/

section

variable {name key : String} {shape : Shape} {fields : List (Field × Shape)}

@[simp] theorem fieldsSound_required :
    FieldsSound (required name shape :: fields) ↔ shape.IsSound ∧ FieldsSound fields := by
  simp [required, fieldsSound_cons]

@[simp] theorem fieldsSound_optional :
    FieldsSound (optional name shape :: fields) ↔ shape.IsSound ∧ FieldsSound fields := by
  simp [optional, fieldsSound_cons, Fits.absent]

@[simp] theorem fieldsSound_withDefault {default : Value} :
    FieldsSound (withDefault name default shape :: fields) ↔ Fits shape default ∧ shape.IsSound ∧ FieldsSound fields := by
  simp [withDefault, fieldsSound_cons]

@[simp] theorem fieldsSound_keyed {f : Field × Shape} :
    FieldsSound (keyed key f :: fields) ↔ FieldsSound (f :: fields) := by
  simp [keyed, fieldsSound_cons]

end

theorem isSound_record {name : String} {fields : List (Field × Shape)} {others : OtherKeys} {byName : Bool}
    (hkeys : (fields.map (·.1.key)).Nodup) (hfields : FieldsSound fields) :
    (Shape.record name fields others byName).IsSound := by
  rw [Shape.IsSound]
  exact ⟨hkeys, hfields⟩

theorem isSound_feature : feature.IsSound :=
  isSound_record (by decide) (by simp [anyText])

theorem isSound_action : action.IsSound :=
  isSound_record (by decide) (by simp [anyText])

theorem isSound_author : author.IsSound :=
  isSound_record (by decide) (by simp [anyText])

theorem fits_nil (shape : Shape) : Fits (.list shape) (.list []) :=
  .list nofun

theorem isSound_of_mem_contentSchemas : ∀ e ∈ contentSchemas, e.2.IsSound := by
  have hproject : project.IsSound := isSound_record (by decide)
    (by simp [anyText, isSound_feature, isSound_action])
  have hquote : quote.IsSound := isSound_record (by decide) (by simp [anyText])
  have hvideo : video.IsSound := isSound_record (by decide) (by simp [anyText])
  have hstatus : Fits (.word ["draft", "published"]) (.string "published") := .word (by decide)
  have harticle : article.IsSound := isSound_record (by decide)
    (by simp [anyText, isSound_author, fits_nil, Fits.flag, hstatus])
  simp [contentSchemas, hproject, hquote, hvideo, harticle]

/-- The forms of filters, options, settings and artifacts are sound. -/
theorem isSound_forms :
    ∀ shape ∈ [ContentFilters.shape, RenderOptions.shape, Settings.shape, Artifact.shape], shape.IsSound := by
  have hfilters : ContentFilters.shape.IsSound := isSound_record (by decide) (by simp [fits_nil])
  have hoptions : RenderOptions.shape.IsSound := isSound_record (by decide) (by
    simp only [fieldsSound_withDefault, fieldsSound_nil, Shape.IsSound, and_true, Fits.flag, true_and]
    exact ⟨.present (.word (by decide)), .tuple (List.forall_mem_nil _)⟩)
  have hsettings : Settings.shape.IsSound := isSound_record (by decide) (by
    have hformats : Fits (.list .shown) (textsValue defaultKeyFormats) := .list fun v hv => by
      obtain ⟨s, -, rfl⟩ := List.mem_map.1 hv
      exact .shown s
    have hpace : IsWithin (some 1) none defaultWordsPerMinute := ⟨by simp [defaultWordsPerMinute], by simp⟩
    simp only [Settings.fields, fieldsSound_withDefault, fieldsSound_nil, Shape.IsSound, and_true, Fits.flag, true_and]
    exact ⟨.shown _, .shown _, .shown _, .shown _, .present (.matching (by decide)),
      .list (List.forall_mem_nil _), hformats, .integer hpace, .text (by decide), .matching (by decide)⟩)
  have hheading : Artifact.headingShape.IsSound := isSound_record (by decide) (by simp [anyText])
  have hstats : Artifact.statsShape.IsSound := isSound_record (by decide) (by
    have hheadings : Fits (.tuple Artifact.headingShape) (.list []) := .tuple (List.forall_mem_nil _)
    simp [hheading, hheadings])
  have hartifact : Artifact.shape.IsSound := isSound_record (by decide) (by
    have hheader : Fits .mapping (.map []) := .mapping (List.forall_mem_nil _)
    simp [anyText, hstats, hheader])
  simp [hfilters, hoptions, hsettings, hartifact]

/-! ## Validation -/

section

variable {name : String} {schema : Shape} {content v : Value} {data : List (Value × Value)}

theorem exists_record_of_mem_contentSchemas (h : (name, schema) ∈ contentSchemas) :
    ∃ title fields, schema = .record title fields .keep false := by
  simp only [contentSchemas, List.mem_cons, List.not_mem_nil, or_false, Prod.mk.injEq] at h
  obtain ⟨-, rfl⟩ | ⟨-, rfl⟩ | ⟨-, rfl⟩ | ⟨-, rfl⟩ := h <;> exact ⟨_, _, rfl⟩

theorem exists_map_of_fits_record {title : String} {fields : List (Field × Shape)} {others : OtherKeys} {byName : Bool}
    (h : Fits (.record title fields others byName) v) : ∃ data, v = .map data := by
  cases h with
  | record => exact ⟨_, rfl⟩

theorem validate_of_check (h : schema.check content = .ok (.map data)) :
    validate schema content = .accepted schema.recordName data := by
  rw [validate, Shape.accept, h]

/-- What is said of content that is checked against a schema. -/
inductive Judges (schema : Shape) (content : Value) : Validation → Prop
  /-- The content has been brought in the form of the schema. -/
  | proper {data : List (Value × Value)} (made : schema.check content = .ok (.map data))
      (fits : Fits schema (.map data)) : Judges schema content (.accepted schema.recordName data)
  /-- All issues are reported, and there are some. -/
  | faulty {issues : List Issue} (found : schema.check content = .error issues) (nonempty : issues ≠ [])
      (improper : ¬Fits schema content) :
      Judges schema content (.rejected (issues.map fun i => ⟨i.path, i.defect.message⟩))

theorem judges_validate (hschema : (name, schema) ∈ contentSchemas) (content : Value) :
    Judges schema content (validate schema content) := by
  have hsound := isSound_of_mem_contentSchemas _ hschema
  have hgives := schema.gives_check hsound content
  cases hcheck : schema.check content with
  | ok v =>
    have hfits := Shape.fits_of_check hsound hcheck
    obtain ⟨title, fields, rfl⟩ := exists_record_of_mem_contentSchemas hschema
    obtain ⟨data, rfl⟩ := exists_map_of_fits_record hfits
    rw [validate_of_check hcheck]
    exact .proper hcheck hfits
  | error issues =>
    have himproper : ¬Fits schema content := fun hfits => by
      rw [schema.check_of_fits hsound content hfits] at hcheck
      cases hcheck
    rw [hcheck] at hgives
    have hvalidate : validate schema content = .rejected (issues.map fun i => ⟨i.path, i.defect.message⟩) := by
      rw [validate, Shape.accept, hcheck]
    rw [hvalidate]
    exact .faulty hcheck hgives himproper

/-- **What is validated once has the form of its schema, and stays as it is when it is validated again.** -/
theorem validated_stays {record : String} (hschema : (name, schema) ∈ contentSchemas)
    (h : validate schema content = .accepted record data) :
    Fits schema (.map data) ∧ validate schema (.map data) = .accepted record data := by
  have hjudges := judges_validate hschema content
  rw [h] at hjudges
  cases hjudges with
  | proper made fits =>
    exact ⟨fits, validate_of_check (Shape.check_check (isSound_of_mem_contentSchemas _ hschema) made)⟩

end

/-- An article whose title is bytes and whose flag is a word, with keys that no field has. -/
def looseArticle : Value :=
  .map [(.string "type", .string "article"), (.string "title", .bytes [72, 105]), (.string "description", .string ""),
    (.string "author", .map [(.string "mail", .string "a@b"), (.string "name", .string "A")]),
    (.string "published_at", .int 1), (.string "tags", .set [.string "a"]), (.string "featured", .string "On")]

/-- The article in its proper form. -/
def properArticle : List (Value × Value) :=
  [(.string "type", .string "article"), (.string "title", .string "Hi"), (.string "description", .string ""),
    (.string "author", .map [(.string "name", .string "A"), (.string "avatar", .null), (.string "role", .null)]),
    (.string "publishedAt", .null), (.string "tags", .list [.string "a"]), (.string "category", .null),
    (.string "image", .null), (.string "featured", .bool true), (.string "status", .string "published"),
    (.string "published_at", .int 1)]

theorem looseArticle_stays :
    ("article", article) ∈ contentSchemas ∧
    validate article looseArticle = .accepted "ArticleContent" properArticle ∧
    validate article (.map properArticle) = .accepted "ArticleContent" properArticle := by
  have hschema : ("article", article) ∈ contentSchemas := by simp [contentSchemas]
  have haccepted : validate article looseArticle = .accepted "ArticleContent" properArticle := by cbv
  exact ⟨hschema, haccepted, (validated_stays hschema haccepted).2⟩

end Folio.Schema

namespace Folio.Artifact

open Schema

/-! ## Kinds of pages -/

/-- What the header of a page says of its kind. -/
def kind (a : Artifact) : Json :=
  (a.frontmatter.lookup "type").getD .null

/-- Why a page of a kind is not checked: the kind can be no key of a table, or is too long to be reported as unknown. -/
inductive Stops : Json → KindError → Prop
  | array {items : List Json} : Stops (.array items) (.unhashable "list")
  | object {members : List (String × Json)} : Stops (.object members) (.unhashable "dict")
  | huge {n : Int} (long : Json.isHuge n = true) : Stops (.int n) .hugeInteger

/-- What is said of a header with a kind that can be looked up. -/
inductive Reports (kind : Json) (header : List (Value × Value)) : Validation → Prop
  /-- There is a schema for the kind, and the header is checked against it. -/
  | known {name : String} {schema : Shape} {v : Validation} (named : kind = .string name)
      (found : contentSchemas.lookup name = some schema) (judged : Judges schema (.map header) v) : Reports kind header v
  /-- There is no schema for the kind; this alone is reported. -/
  | unknown (missing : ∀ name, kind = .string name → contentSchemas.lookup name = none) :
      Reports kind header (.rejected [⟨[.key "type"], (unknownKind kind.toValue).message⟩])

theorem field?_header (a : Artifact) : (Value.field? "type" a.header).getD .null = a.kind.toValue := by
  rw [header, Json.field?_toEntries, kind]
  cases a.frontmatter.lookup "type" <;> rfl

theorem validate_eq (a : Artifact) : a.validate =
    ((schemaFor? a.kind.toValue).bind fun found => match found with
      | some schema => .ok (Schema.validate schema (.map a.header))
      | none => reportUnknown a.kind.toValue) := by
  rw [validate, validateHeader, field?_header]
  rfl

/-- **The header of a page is checked and reported on, unless its kind is a list, a mapping or a huge integer.** -/
theorem header_is_checked_or_escapes (a : Artifact) :
    (∃ e, Stops a.kind e ∧ a.validate = .error e) ∨
      (∀ e, ¬Stops a.kind e) ∧ ∃ v, Reports a.kind a.header v ∧ a.validate = .ok v := by
  rw [validate_eq]
  cases a.kind with
  | array items => exact .inl ⟨_, .array, rfl⟩
  | object members => exact .inl ⟨_, .object, rfl⟩
  | string name =>
    cases hfound : contentSchemas.lookup name with
    | some schema =>
      have hjudged := judges_validate (mem_of_lookup_eq_some hfound) (.map a.header)
      refine .inr ⟨by rintro _ ⟨⟩, _, .known rfl hfound hjudged, ?_⟩
      simp [Json.toValue, schemaFor?, Value.unhashable?, hfound, Except.bind]
    | none =>
      refine .inr ⟨by rintro _ ⟨⟩, _, .unknown fun _ h => Json.string.inj h ▸ hfound, ?_⟩
      simp [Json.toValue, schemaFor?, Value.unhashable?, hfound, Except.bind, reportUnknown, unknownKind]
  | int n =>
    simp only [Json.toValue, schemaFor?, Value.unhashable?, Except.bind, reportUnknown]
    by_cases hlong : Json.isHuge n = true
    · exact .inl ⟨_, .huge hlong, if_pos hlong⟩
    · refine .inr ⟨fun _ h => ?_, _, .unknown (by rintro _ ⟨⟩), if_neg hlong⟩
      cases h with
      | huge long => exact hlong long
  | null | broken t => exact .inr ⟨by rintro _ ⟨⟩, _, .unknown (by rintro _ ⟨⟩), rfl⟩
  | bool b => exact .inr ⟨by rintro _ ⟨⟩, _, .unknown (by rintro _ ⟨⟩), rfl⟩
  | float x => exact .inr ⟨by rintro _ ⟨⟩, _, .unknown (by rintro _ ⟨⟩), rfl⟩

/-- What stops the check of a source's header, if something does. -/
def stop? (source : String) : Option KindError :=
  match compileSource {} "doc" ⟨⟨1970, 1, 1⟩, {}, some 0⟩ source with
  | .ok a =>
    match a.validate with
    | .error e => some e
    | .ok _ => none
  | .error _ => none

/-- A page whose kind is an integer of 4301 digits. -/
def hugeKind : Artifact where
  frontmatter := [("type", .int (10 ^ 4300 : Nat))]
  contentHtml := ""
  excerpt := none
  slug := "doc"
  lastModified := ⟨⟨1970, 1, 1⟩, {}, some 0⟩
  stats := ⟨0, 0, []⟩

theorem oddKinds_escape :
    stop? "---\ntype: [project]\n---\n" = some (.unhashable "list") ∧
    stop? "---\ntype: \x7bproject: 1\x7d\n---\n" = some (.unhashable "dict") ∧
    ∃ e, Stops hugeKind.kind e ∧ hugeKind.validate = .error e := by
  have hstops : Stops hugeKind.kind .hugeInteger := .huge (by decide +kernel)
  exact ⟨by decide +kernel, by decide +kernel,
    (header_is_checked_or_escapes hugeKind).resolve_right fun h => h.1 _ hstops⟩

end Folio.Artifact

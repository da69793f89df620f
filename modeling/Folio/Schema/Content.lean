import Folio.Json
import Folio.Schema.Shape

set_option autoImplicit false

/-! # Kinds of content

The header of a page says what kind of content the page is, and each kind has a schema. Keys that a
schema does not know are kept. -/

namespace Folio.Schema

/-! ## Fields -/

/-- A field that must be there. -/
def required (name : String) (shape : Shape) : Field × Shape :=
  (⟨name, name, none⟩, shape)

/-- A field that may be missing or null. -/
def optional (name : String) (shape : Shape) : Field × Shape :=
  (⟨name, name, some .null⟩, .optional shape)

/-- A field with a default. -/
def withDefault (name : String) (default : Value) (shape : Shape) : Field × Shape :=
  (⟨name, name, some default⟩, shape)

/-- A field under another key. -/
def keyed (key : String) (f : Field × Shape) : Field × Shape :=
  ({ f.1 with key := key }, f.2)

/-- Any text. -/
def anyText : Shape := .text 0

/-! ## Schemas -/

/-- A feature of a project. -/
def feature : Shape :=
  .record "Feature" [required "label" anyText, required "icon" anyText, optional "color" anyText]
    .drop false

/-- Something to do with a project. -/
def action : Shape :=
  .record "Action"
    [required "label" anyText, required "href" anyText,
      optional "variant" (.word ["default", "outline", "secondary"])]
    .drop false

/-- The author of an article. -/
def author : Shape :=
  .record "Author" [required "name" anyText, optional "avatar" anyText, optional "role" anyText]
    .drop false

/-- A project. -/
def project : Shape :=
  .record "ProjectContent"
    [required "type" (.word ["project"]), required "title" anyText, required "description" anyText,
      keyed "techStack" (required "tech_stack" (.list anyText)), required "image" anyText,
      keyed "repoUrl" (required "repo_url" anyText), keyed "liveUrl" (optional "live_url" anyText),
      required "features" (.list feature), required "actions" (.list action)]
    .keep false

/-- A quote. -/
def quote : Shape :=
  .record "QuoteContent"
    [required "type" (.word ["quote"]), required "quote" anyText, required "author" anyText,
      optional "role" anyText, optional "company" anyText, optional "avatar" anyText,
      optional "theme" (.word ["default", "minimal", "emphasis"])]
    .keep false

/-- A video. -/
def video : Shape :=
  .record "VideoContent"
    [required "type" (.word ["video"]), required "title" anyText, required "description" anyText,
      required "thumbnail" anyText, keyed "videoUrl" (required "video_url" anyText),
      keyed "displayMode" (required "display_mode" (.word ["thumbnail", "background", "player"])),
      optional "autoplay" .flag, optional "loop" .flag]
    .keep false

/-- An article. -/
def article : Shape :=
  .record "ArticleContent"
    [required "type" (.word ["article"]), required "title" anyText, required "description" anyText,
      optional "author" author, keyed "publishedAt" (optional "published_at" anyText),
      withDefault "tags" (.list []) (.list anyText), optional "category" anyText,
      optional "image" anyText, withDefault "featured" (.bool false) .flag,
      withDefault "status" (.string "published") (.word ["draft", "published"])]
    .keep false

/-- The schemas by the kinds of content. -/
def contentSchemas : List (String × Shape) :=
  [("project", project), ("quote", quote), ("video", video), ("article", article)]

/-! ## Validation -/

/-- What a reader is told about an issue. -/
structure Complaint where
  path : List Step
  message : String
deriving Repr

/-- The result of a validation. -/
inductive Validation where
  /-- The data in its proper form, and the record that it is. -/
  | accepted (record : String) (data : List (Value × Value))
  | rejected (complaints : List Complaint)
deriving Repr

/-- A line for each complaint. -/
def Validation.messages : Validation → List String
  | accepted _ _ => []
  | rejected complaints => complaints.map fun c =>
    (if c.path.isEmpty then "<root>" else ".".intercalate (c.path.map Step.text)) ++ ": " ++
      c.message

/-- Check data against a schema. -/
def validate (schema : Shape) (content : Value) : Validation :=
  match schema.accept content with
  | .ok data => .accepted schema.recordName data
  | .error refusal => .rejected (refusal.issues.map fun i => ⟨i.path, i.defect.message⟩)

/-- Why a kind of content is neither found nor reported as unknown. -/
inductive KindError where
  /-- A collection, which cannot be looked up. -/
  | unhashable (kind : String)
  /-- An integer that a report does not spell. -/
  | hugeInteger
deriving Repr, DecidableEq

/-- The text that reports the cause. -/
def KindError.message : KindError → String
  | unhashable kind => "unhashable type: '" ++ kind ++ "'"
  | hugeInteger => Json.hugeIntegerMessage

/-- The schema for a kind of content. -/
def schemaFor? (kind : Value) : Except KindError (Option Shape) :=
  match kind.unhashable? with
  | some name => .error (.unhashable name)
  | none =>
    .ok (match kind with
      | .string s => contentSchemas.lookup s
      | _ => none)

/-- The complaint about a kind of content that no schema is for. -/
def unknownKind (kind : Value) : Complaint :=
  let names := ", ".intercalate (contentSchemas.map (·.1))
  ⟨[.key "type"], "Unknown content type " ++ kind.literal ++ "; expected one of " ++ names⟩

/-- Report a kind of content that no schema is for. An integer is spelled only if it is not too long. -/
def reportUnknown (kind : Value) : Except KindError Validation :=
  match kind with
  | .int n => if Json.isHuge n then .error .hugeInteger else .ok (.rejected [unknownKind kind])
  | _ => .ok (.rejected [unknownKind kind])

/-- Check the header of a page against the schema for its kind of content. -/
def validateHeader (header : List (Value × Value)) : Except KindError Validation := do
  let kind := (Value.field? "type" header).getD .null
  match ← schemaFor? kind with
  | some schema => return validate schema (.map header)
  | none => reportUnknown kind

end Folio.Schema

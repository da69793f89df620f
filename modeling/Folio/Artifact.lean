import Folio.Html.Headings
import Folio.Json.Printer
import Folio.Schema.Content

set_option autoImplicit false

/-! # Artifacts

An artifact is a compiled page: its header as plain data, its HTML, its excerpt, and what is known about
it. Programs read artifacts as records whose keys are in mixed case; the forms of these records accept
the names of fields as well. -/

namespace Folio

/-- What is known about a page's body. -/
structure PageStats where
  wordCount : Nat
  /-- Minutes to read the page. -/
  readingTime : Nat
  headings : List Html.Heading
deriving Repr

/-- A compiled page. -/
structure Artifact where
  frontmatter : List (String × Json)
  contentHtml : String
  excerpt : Option String
  slug : String
  lastModified : DateTime
  stats : PageStats
deriving Repr

namespace Artifact

/-! ## Forms -/

open Schema

/-- The form of a heading as data. -/
def headingShape : Shape :=
  .record "Heading"
    [required "depth" (.integer (some 1) (some 6)), required "text" anyText, required "id" anyText]
    .drop true

/-- The form of what is known about a page's body. -/
def statsShape : Shape :=
  .record "ContentMeta"
    [keyed "wordCount" (required "word_count" (.integer (some 0) none)),
      keyed "readingTime" (required "reading_time" (.integer (some 0) none)),
      withDefault "headings" (.list []) (.tuple headingShape)]
    .drop true

/-- The form of an artifact as data. -/
def shape : Shape :=
  .record "ContentArtifact"
    [withDefault "frontmatter" (.map []) .mapping,
      keyed "contentHtml" (required "content_html" anyText), optional "excerpt" anyText,
      required "slug" anyText, keyed "lastModified" (required "last_modified" .moment),
      required "meta" statsShape]
    .drop true

/-! ## Plain data -/

/-- A text or null. -/
def textOrNull (s : Option String) : Json :=
  match s with
  | some s => .string s
  | none => .null

/-- A heading as plain data. -/
def headingJson (h : Html.Heading) : Json :=
  .object [("depth", .int h.depth), ("text", .string h.text), ("id", .string h.id)]

/-- What is known about a page's body, with names for the counts. -/
def statsJson (words minutes : String) (s : PageStats) : Json :=
  .object [(words, .int s.wordCount), (minutes, .int s.readingTime),
    ("headings", .array (s.headings.map headingJson))]

/-- An artifact as plain data, given the text of its time. -/
def toJsonWith (time : DateTime → String) (a : Artifact) : Json :=
  .object [("frontmatter", .object a.frontmatter), ("contentHtml", .string a.contentHtml),
    ("excerpt", textOrNull a.excerpt), ("slug", .string a.slug),
    ("lastModified", .string (time a.lastModified)),
    ("meta", statsJson "wordCount" "readingTime" a.stats)]

/-- An artifact as plain data. -/
def toJson (a : Artifact) : Json :=
  a.toJsonWith DateTime.toText

/-- An artifact as text for other programs. -/
def exchangeText (a : Artifact) : String :=
  (a.toJsonWith Json.momentText).print Json.strictLines

/-- The header of an artifact as a mapping. -/
def header (a : Artifact) : List (Value × Value) :=
  Json.toEntries a.frontmatter

/-- Check the header of an artifact against the schema for its kind of content. -/
def validate (a : Artifact) : Except KindError Validation :=
  validateHeader a.header

end Artifact

end Folio

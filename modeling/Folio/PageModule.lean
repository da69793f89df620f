import Folio.Artifact
import Folio.Calendar.Written
import Folio.Json.Reader

set_option autoImplicit false

/-! # Page modules

A compiled page is kept as a module: a short program that makes the artifact when it is run. Its text is
fixed but for a comment that names the source and six values. The values are quoted texts; header and
facts are JSON inside a quoted text. Reading a module back takes the fixed text off and reads the values
between; a module that spells them in another way is not read, but left to those who run programs. -/

namespace Folio.PageModule

/-! ## The text of a module -/

/-- The values of a module in their order, each as it is spelled. -/
structure Spelling where
  frontmatter : List Char
  contentHtml : List Char
  excerpt : List Char
  slug : List Char
  lastModified : List Char
  stats : List Char

/-- What stands before the name of the source in the first line. -/
def beforeSource : String := "# Generated by mdcontent from "

/-- What stands after the name of the source in the first line. -/
def afterSource : String := ". Do not edit."

/-- The first line, which names the source. -/
def banner (source : String) : String :=
  beforeSource ++ source ++ afterSource

/-- What stands between the first line and the first value. -/
def beforeFrontmatter : String :=
  String.join ["\nimport json\nfrom datetime import datetime\n\n",
    "from mdcontent.core.models import ContentArtifact\n\n",
    "artifact = ContentArtifact(\n    frontmatter=json.loads("]

def beforeHtml : String := "),\n    content_html="

def beforeExcerpt : String := ",\n    excerpt="

def beforeSlug : String := ",\n    slug="

def beforeTime : String := ",\n    last_modified=datetime.fromisoformat("

def beforeStats : String := "),\n    meta=json.loads("

def ending : String := "),\n)\n"

/-- The spelling of no excerpt. -/
def noExcerpt : String := "None"

/-! ## Writing -/

/-- A text in double quotes. -/
def spell (s : String) : List Char :=
  Json.stringChars false s.toList

/-- A text that may be missing. -/
def spellExcerpt : Option String → List Char
  | some s => spell s
  | none => noExcerpt.toList

/-- Plain data on one line, in quotes. -/
def spellData (j : Json) : List Char :=
  Text.quotePoints (Json.withHalves (Json.chars Json.oneLine 0 j))

/-- What is known about a page, as plain data. -/
def statsData (s : PageStats) : Json :=
  Artifact.statsJson "word_count" "reading_time" s

/-- The spelling of an artifact's values. -/
def Spelling.ofArtifact (a : Artifact) : Spelling where
  frontmatter := spellData (.object a.frontmatter)
  contentHtml := spell a.contentHtml
  excerpt := spellExcerpt a.excerpt
  slug := spell a.slug
  lastModified := spell a.lastModified.toText
  stats := spellData (statsData a.stats)

/-- The text of a module after its first line. -/
def Spelling.body (s : Spelling) : List Char :=
  beforeFrontmatter.toList ++ s.frontmatter ++ beforeHtml.toList ++ s.contentHtml ++
    beforeExcerpt.toList ++ s.excerpt ++ beforeSlug.toList ++ s.slug ++ beforeTime.toList ++
    s.lastModified ++ beforeStats.toList ++ s.stats ++ ending.toList

/-- What a module calls its source. A source without a name is called by its slug. -/
def label (a : Artifact) (source : String) : String :=
  if source = "" then a.slug else source

/-- Why an artifact is not written. -/
inductive EmitError where
  /-- An integer that has too many digits. -/
  | hugeInteger
  /-- A line with halves. -/
  | brokenLine (t : Text.Broken)
  /-- A header with a text with halves. -/
  | brokenData (t : Text.Broken)
deriving Repr, DecidableEq

/-- The text that reports the cause. -/
def EmitError.message : EmitError → String
  | hugeInteger => Json.hugeIntegerMessage
  | brokenLine t => t.report
  | brokenData t => "Error serializing to JSON: UnicodeEncodeError: " ++ t.report

/-- The text of the module for an artifact. -/
def emit (a : Artifact) (source : String) : Except EmitError String :=
  if Json.anyHugeMember a.frontmatter || (statsData a.stats).hasHugeInteger then
    .error .hugeInteger
  else
    .ok (String.ofList ((banner (label a source)).toList ++ (Spelling.ofArtifact a).body))

/-! ## Reading -/

/-- A natural number in plain data. -/
def natOf? : Json → Option Nat
  | .int n => if 0 ≤ n then some n.toNat else none
  | _ => none

/-- A text in plain data. -/
def textOf? : Json → Option String
  | .string s => some s
  | _ => none

/-- A heading from plain data. There are six depths. -/
def headingOf? : Json → Option Html.Heading
  | .object members => do
    let depth ← (members.lookup "depth").bind natOf?
    if depth < 1 ∨ 6 < depth then none
    return ⟨depth, ← (members.lookup "text").bind textOf?, ← (members.lookup "id").bind textOf?⟩
  | _ => none

/-- What is known about a page from plain data. -/
def statsOf? : Json → Option PageStats
  | .object members => do
    match members.lookup "headings" with
    | some (.array items) =>
      return ⟨← (members.lookup "word_count").bind natOf?,
        ← (members.lookup "reading_time").bind natOf?, ← items.mapM headingOf?⟩
    | _ => none
  | _ => none

/-- Plain data that is a whole text. -/
def dataOf? (ps : List Text.Point) : Option Json :=
  (Json.readPoints ps).toOption

/-- An excerpt at the front of a list, or none, and what is left. -/
def readExcerpt? (cs : List Char) : Option (Option String × List Char) :=
  match Text.dropPrefix? noExcerpt.toList cs with
  | some rest => some (none, rest)
  | none => (Text.readQuoted? cs).map fun (s, rest) => (some (String.ofList s), rest)

/-- What is read after some other text, and what is left. -/
def readAfter? {α : Type} (before : String) (read : List Char → Option (α × List Char)) (cs : List Char) :
    Option (α × List Char) :=
  (Text.dropPrefix? before.toList cs).bind read

/-- The values of a module as texts. -/
structure Parts where
  frontmatter : List Text.Point
  contentHtml : List Char
  excerpt : Option String
  slug : List Char
  lastModified : List Char
  stats : List Text.Point

/-- The values in the text after the first line of a module. -/
def partsOf? (cs : List Char) : Option Parts := do
  let (frontmatter, cs) ← readAfter? beforeFrontmatter Text.readPoints? cs
  let (html, cs) ← readAfter? beforeHtml Text.readQuoted? cs
  let (excerpt, cs) ← readAfter? beforeExcerpt readExcerpt? cs
  let (slug, cs) ← readAfter? beforeSlug Text.readQuoted? cs
  let (time, cs) ← readAfter? beforeTime Text.readQuoted? cs
  let (stats, cs) ← readAfter? beforeStats Text.readPoints? cs
  if cs = ending.toList then some ⟨frontmatter, html, excerpt, slug, time, stats⟩ else none

/-- The artifact that values make. -/
def Parts.artifact? (p : Parts) : Option Artifact := do
  let moment ← DateTime.ofText? p.lastModified
  let stats ← (dataOf? p.stats).bind statsOf?
  match ← dataOf? p.frontmatter with
  | .object members =>
    some ⟨members, String.ofList p.contentHtml, p.excerpt, String.ofList p.slug, moment, stats⟩
  | _ => none

/-- The artifact that the text after the first line of a module makes. -/
def decodeBody? (cs : List Char) : Option Artifact :=
  (partsOf? cs).bind Parts.artifact?

/-- The artifact that a module makes which is written like those of a build; its first line is a comment. A
    program has no null character. -/
def decode? (cs : List Char) : Option Artifact :=
  match cs with
  | '#' :: rest =>
    let body := rest.dropWhile (· != '\n')
    if cs.contains '\x00' then none
    else (decodeBody? body).filter fun a => (Spelling.ofArtifact a).body == body
  | _ => none

end Folio.PageModule

import Folio.Artifact
import Folio.FrontMatter
import Folio.Path
import Folio.ReadingStats
import Folio.Render

set_option autoImplicit false

/-! # Compiling a page

The source of a page is taken apart, its body is rendered and counted, and its header becomes plain
data. Whatever goes wrong on the way is a failure of this page, reported with its path. -/

namespace Folio

/-- How pages are compiled. -/
structure CompileRules where
  options : RenderOptions := {}
  wordsPerMinute : Int := defaultWordsPerMinute
  separator : String := "---"
deriving Repr, DecidableEq

/-- Why the source of a page cannot be compiled. -/
inductive SourceError where
  | frontMatter (cause : FrontMatterError)
  | render (cause : RenderError)
  /-- The header is no plain data. -/
  | unplain (cause : Json.Unplain)
  | readingTime (cause : ReadingTimeError)
  /-- The numbers of the page are out of range. -/
  | stats (cause : Schema.Refusal)
deriving Repr

/-- The text that reports the cause. -/
def SourceError.message : SourceError → String
  | frontMatter cause => cause.message
  | render cause => cause.message
  | unplain cause => cause.message
  | readingTime cause => cause.message
  | stats cause => cause.message

/-- What is known about a body with so many words and these headings. -/
def statsOf (words : Nat) (wordsPerMinute : Int) (headings : List Html.Heading) :
    Except SourceError PageStats := do
  let minutes ← (readingTime words wordsPerMinute).mapError .readingTime
  match minutes with
  | .ofNat n => return ⟨words, n, headings⟩
  | _ => throw (.stats ⟨"ContentMeta", [⟨[.key "reading_time"], .tooSmall 0, .int minutes⟩]⟩)

/-- Compile the source of a page that has a slug and was changed at a time. The sets of its header are gone
    through in some order. -/
def compileSource (rules : CompileRules) (slug : String) (modified : DateTime) (source : String)
    (order : List Value → List Value := id) : Except SourceError Artifact := do
  let parts ← (FrontMatter.split source rules.separator).mapError .frontMatter
  let page ← (render rules.options parts.body).mapError .render
  let members ← (Json.ofEntries (Value.arrangedEntries order parts.entries)).mapError .unplain
  let stats ← statsOf (wordCount parts.body) rules.wordsPerMinute page.headings
  return ⟨Json.membersOf members, page.html, parts.excerpt, slug, modified, stats⟩

end Folio

import Folio.Html.AllowList
import Folio.Html.ExternalLinks
import Folio.Html.Headings
import Folio.Html.Printer
import Folio.Markdown.Document

set_option autoImplicit false

/-! # Rendering a page

The body of a page is Markdown. It is written as HTML, read back as a tree, and the tree is worked on in
a fixed order: it is sanitized, its headings get ids and links to themselves, its external links are
marked, and its headings are collected. HTML that stands in the body is part of the tree before
anything else is done, so nothing gets past the sanitizer. -/

namespace Folio

/-- Where an external link opens. -/
inductive LinkTarget where
  /-- A window of its own. -/
  | blank
  /-- The window of the page. -/
  | self
deriving Repr, DecidableEq

/-- The name of a target in HTML. -/
def LinkTarget.name : LinkTarget → String
  | blank => "_blank"
  | self => "_self"

/-- What is done when a page is rendered. -/
structure RenderOptions where
  sanitize : Bool := true
  /-- Whether HTML in the body is HTML, and not text. -/
  allowHtml : Bool := true
  generateHeadingIds : Bool := true
  /-- Where external links open; without a target they are left as they are. -/
  externalLinkTarget : Option LinkTarget := some .blank
  /-- The hosts whose pages are not external. -/
  internalHosts : List String := []
deriving Repr, DecidableEq

/-- A rendered page. -/
structure RenderResult where
  html : String
  headings : List Html.Heading
deriving Repr

/-- Why a page cannot be rendered. -/
inductive RenderError where
  /-- Markup that cannot be read. -/
  | markup (cause : Html.MarkupError)
  /-- The URL of a link that is refused. -/
  | url (cause : Url.UrlError)
deriving Repr

/-- The text that reports the cause. -/
def RenderError.message : RenderError → String
  | markup cause => cause.message
  | url cause => cause.message

/-- The tree of a page's body before anything is done with it. -/
def readBody (allowHtml : Bool) (body : String) : Except RenderError Html.Forest :=
  (Html.readForest (Markdown.toHtml allowHtml body)).mapError .markup

/-- The tree of a page with everything done to it that the options ask for. -/
def workOn (options : RenderOptions) (forest : Html.Forest) : Except RenderError Html.Forest :=
  let forest := if options.sanitize then Html.sanitize forest else forest
  let forest :=
    if options.generateHeadingIds then Html.linkHeadingsList (Html.assignHeadingIds forest)
    else forest
  match options.externalLinkTarget with
  | some target =>
    (Html.markLinksList target.name options.internalHosts forest).mapError .url
  | none => .ok forest

/-- Render the body of a page. -/
def render (options : RenderOptions) (body : String) : Except RenderError RenderResult := do
  let forest ← readBody options.allowHtml body
  let forest ← workOn options forest
  return ⟨Html.print forest, Html.headingsList forest⟩

end Folio

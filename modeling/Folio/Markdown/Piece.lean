import Folio.Markdown.BareLink
import Folio.Markdown.Character
import Folio.Markdown.HtmlTag
import Folio.Url.Link

set_option autoImplicit false

/-! # The pieces of a line of text

Running text is a sequence of pieces. Emphasis and links are a piece where they start and a piece
where they end, and the two always match. -/

namespace Folio.Markdown

/-- Ways to set off a part of a text. -/
inductive Style where
  | emphasis
  | strong
  | strike
deriving Repr, DecidableEq

/-- A piece of running text. -/
inductive Piece where
  | text (content : List Char)
  /-- Text that was escaped in the source, so that no address may be found across it. -/
  | escaped (content : List Char)
  | code (content : List Char)
  | html (content : List Char)
  | softBreak
  | hardBreak
  | start (style : Style)
  | stop (style : Style)
  | linkStart (address title : List Char)
  | linkStop
  | image (address title : List Char) (label : List Piece)
deriving Repr, Inhabited

namespace Piece

/-- Put neighbouring texts together. -/
def joinTexts : List Piece → List Piece
  | [] => []
  | .text a :: rest =>
    match joinTexts rest with
    | .text b :: rest => .text (a ++ b) :: rest
    | rest => .text a :: rest
  | p :: rest => p :: joinTexts rest

/-! ## Addresses in the text -/

/-- The address that a found piece of text links to, and the text that is shown for it. -/
def foundLink (found : BareLink.Found) (content : List Char) : List Char × List Char :=
  let dropShown (lead : String) (address : List Char) : List Char :=
    let shown := Url.Link.display address
    (Text.dropPrefix? lead.toList shown).getD shown
  if found.scheme.isEmpty then
    ("http://".toList ++ content, dropShown "http://" ("http://".toList ++ content))
  else if found.scheme = "mailto:" && !Text.startsWithNoCase "mailto:" content then
    ("mailto:".toList ++ content, dropShown "mailto:" ("mailto:".toList ++ content))
  else (content, Url.Link.display content)

/-- Turn the addresses found in a text into links. `place` is where `rest` starts in the text. -/
def linkText (place : Nat) (rest : List Char) : List BareLink.Found → List Piece
  | [] => if rest.isEmpty then [] else [.text rest]
  | found :: more =>
    let content := (rest.drop (found.start - place)).take (found.stop - found.start)
    let (address, shown) := foundLink found content
    let address := Url.Link.normalize address
    if Url.Link.isAllowed address then
      let before := rest.take (found.start - place)
      (if before.isEmpty then [] else [.text before]) ++
        .linkStart address [] :: .text shown :: .linkStop ::
          linkText found.stop (rest.drop (found.stop - place)) more
    else linkText place rest more

/-- Turn the addresses in texts into links. The pieces come last one first, and so does the result.
    What stands in a link already is left alone: in one of the text's own links as far back as the
    nearest start of a link, and between the tags of a link in HTML, of which `open` counts the ends
    whose starts are still to come. -/
def linkTexts (inLink : Bool) (openTags : Nat) : List Piece → List Piece
  | [] => []
  | p :: before =>
    if inLink then
      match p with
      | .linkStart _ _ => p :: linkTexts false openTags before
      | _ => p :: linkTexts true openTags before
    else match p with
      | .linkStop => p :: linkTexts true openTags before
      | .html content =>
        let openTags := if HtmlTag.opensLink content then openTags - 1 else openTags
        let openTags := if HtmlTag.closesLink content then openTags + 1 else openTags
        p :: linkTexts false openTags before
      | .text content =>
        if 0 < openTags then p :: linkTexts false openTags before
        else
          let found := BareLink.inText content
          let afterEscape : Bool := match before with
            | .escaped _ :: _ => true
            | _ => false
          let usable :=
            if afterEscape && found.head?.any (·.start == 0) then found.drop 1 else found
          let pieces := if found.isEmpty then [p] else linkText 0 content usable
          pieces.reverse ++ linkTexts false openTags before
      | _ => p :: linkTexts false openTags before

/-- Turn the addresses in a line of text into links; `source` is the text as it was written. -/
def linkAddresses (source : List Char) (pieces : List Piece) : List Piece :=
  if BareLink.mayHold source then (linkTexts false 0 pieces.reverse).reverse else pieces

/-! ## Writing -/

/-- The name of the element for a style. -/
def styleName : Style → String
  | .emphasis => "em"
  | .strong => "strong"
  | .strike => "s"

/-- An attribute as it is written. -/
def printAttribute (name : String) (value : List Char) : List Char :=
  ' ' :: name.toList ++ "=\"".toList ++ escapeHtml value ++ ['"']

mutual

/-- What is shown of a piece where no markup can be shown. -/
def plain : Piece → List Char
  | .text content => content
  | .html content => content
  | .softBreak | .hardBreak => ['\n']
  | .image _ _ label => plainAll label
  | _ => []

/-- What is shown of a text where no markup can be shown. -/
def plainAll : List Piece → List Char
  | [] => []
  | p :: rest => plain p ++ plainAll rest

end

/-- A piece as it is written into a page. -/
def print : Piece → List Char
  | .text content => escapeHtml content
  | .escaped content => escapeHtml content
  | .code content => "<code>".toList ++ escapeHtml content ++ "</code>".toList
  | .html content => content
  | .softBreak => ['\n']
  | .hardBreak => "<br />\n".toList
  | .start style => ("<" ++ styleName style ++ ">").toList
  | .stop style => ("</" ++ styleName style ++ ">").toList
  | .linkStart address title =>
    "<a".toList ++ printAttribute "href" address ++
      (if title.isEmpty then [] else printAttribute "title" title) ++ ['>']
  | .linkStop => "</a>".toList
  | .image address title label =>
    "<img".toList ++ printAttribute "src" address ++ printAttribute "alt" (plainAll label) ++
      (if title.isEmpty then [] else printAttribute "title" title) ++ " />".toList

/-- A line of text as it is written into a page. -/
def printAll (pieces : List Piece) : List Char :=
  pieces.flatMap print

end Piece

end Folio.Markdown

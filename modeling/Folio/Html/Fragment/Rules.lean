import Folio.Html.Fragment.Builder
import Folio.Html.Node

set_option autoImplicit false

/-! # What each tag does to the tree

The rules of the HTML standard for the content of a page's body, its tables and its foreign parts.
A rule either finishes a token or changes the mode and hands the token on. -/

namespace Folio.Html.Fragment

/-- What a rule leaves. -/
inductive Outcome where
  | done (b : Builder)
  /-- The token is to be looked at again, in another mode. -/
  | again (b : Builder)

namespace Builder

/-! ## Heads and templates -/

/-- Start tags that belong into the head of a page, wherever they stand. -/
def headTags : List String :=
  ["base", "basefont", "bgsound", "link", "meta", "noframes", "script", "style", "template", "title"]

/-- The start tag of an element that belongs into a head. -/
def openHeadElement (name : String) (attributes : List (String × String)) (b : Builder) : Builder :=
  match name with
  | "title" => b.insertRaw name attributes (.referencesOnly name)
  | "noframes" | "style" => b.insertRaw name attributes (.rawText name)
  | "script" => b.insertRaw name attributes .script
  | "template" =>
    { (b.insert name attributes).markFormatting with
      mode := .template, templateModes := .template :: b.templateModes }
  | _ => (b.insert name attributes).pop

/-- The mode that the open elements call for. -/
def modeFor (b : Builder) : List CellId → Mode
  | [] => .body
  | i :: is =>
    if b.cells.vocabulary? i != some .html || is.isEmpty then b.modeFor is
    else match b.cells.name i with
      | "td" | "th" => .cell
      | "tr" => .row
      | "tbody" | "thead" | "tfoot" => .tableBody
      | "caption" => .caption
      | "colgroup" => .columnGroup
      | "table" => .table
      | "template" => b.templateModes.headD .template
      | _ => b.modeFor is

/-- Choose the mode that the open elements call for. -/
def resetMode (b : Builder) : Builder :=
  { b with mode := b.modeFor b.stack }

/-- Close a template that is open. -/
def closeTemplate (b : Builder) : Builder :=
  let b := (b.popThrough ["template"]).clearFormatting
  { b with templateModes := b.templateModes.drop 1 }.resetMode

/-- The end tag of a template. -/
def endTemplate (b : Builder) : Builder :=
  if b.hasOpen ["template"] then b.closeImpliedThoroughly.closeTemplate else b

/-- The end of the text: templates that are still open are closed one by one. -/
def endText (b : Builder) : Outcome :=
  if b.templateModes.isEmpty || !b.hasOpen ["template"] then .done b else .again b.closeTemplate

/-! ## The body -/

/-- Blocks that close a paragraph. -/
def blockTags : List String :=
  ["address", "article", "aside", "blockquote", "center", "details", "dialog", "dir", "div", "dl",
    "fieldset", "figcaption", "figure", "footer", "header", "hgroup", "main", "menu", "nav", "ol",
    "p", "search", "section", "summary", "ul"]

/-- The headings. -/
def headingTags : List String := ["h1", "h2", "h3", "h4", "h5", "h6"]

/-- The elements that are opened again after what cut them off. -/
def formattingTags : List String :=
  ["a", "b", "big", "code", "em", "font", "i", "nobr", "s", "small", "strike", "strong", "tt", "u"]

/-- Close the item that a new item of a list ends. -/
def closeItem (items : List String) (b : Builder) : Builder :=
  let passes (i : CellId) : Bool :=
    !b.cells.isHtml items i &&
      (!b.isSpecial i || b.cells.isHtml ["address", "div", "p"] i)
  match b.stack.dropWhile passes with
  | [] => b
  | i :: _ =>
    if b.cells.isHtml items i then
      let name := b.cells.name i
      (b.closeImplied name).popThrough [name]
    else b

/-- Insert an element without content. -/
def insertVoid (name : String) (attributes : List (String × String)) (b : Builder) : Builder :=
  (b.reconstruct.insert name attributes).pop

/-- Forget an element altogether. -/
def forget (i : CellId) (b : Builder) : Builder :=
  { b with formatting := b.formatting.filter (· != some i), stack := b.stack.filter (· != i) }

/-- The names of the elements of vector graphics that the tree's rules refer to, in their own
    spelling. -/
def graphicName (name : String) : String :=
  if name = "foreignobject" then "foreignObject" else name

/-- Insert an element of another vocabulary. -/
def insertForeign (vocabulary : Vocabulary) (name : String) (attributes : List (String × String))
    (selfClosing : Bool) (b : Builder) : Builder :=
  let name := if vocabulary = .svg then graphicName name else name
  let b := b.insertElement vocabulary name attributes
  if selfClosing then b.pop else b

/-- Open a form, unless one is open. -/
def openForm (attributes : List (String × String)) (b : Builder) : Builder :=
  if b.form.isSome && !b.hasOpen ["template"] then b
  else
    let b := b.closeParagraphInScope.insert "form" attributes
    if b.hasOpen ["template"] then b else { b with form := some b.current }

/-- A start tag in the body. -/
def openInBody (name : String) (attributes : List (String × String)) (selfClosing : Bool)
    (b : Builder) : Builder :=
  if headTags.contains name then b.openHeadElement name attributes
  else if blockTags.contains name then b.closeParagraphInScope.insert name attributes
  else if headingTags.contains name then
    let b := b.closeParagraphInScope
    (if b.currentIs headingTags then b.pop else b).insert name attributes
  else if ["caption", "col", "colgroup", "frame", "head", "tbody", "td", "tfoot", "th", "thead",
      "tr", "html", "body", "frameset"].contains name then b
  else match name with
    | "pre" | "listing" =>
      { b.closeParagraphInScope.insert name attributes with dropsLineFeed := true }
    | "form" => b.openForm attributes
    | "li" => ((b.closeItem ["li"]).closeParagraphInScope).insert name attributes
    | "dd" | "dt" => ((b.closeItem ["dd", "dt"]).closeParagraphInScope).insert name attributes
    | "plaintext" => { b.closeParagraphInScope.insert name attributes with model := .plainText }
    | "button" =>
      let b := if b.inScope ["button"] then (b.closeImplied "").popThrough ["button"] else b
      b.reconstruct.insert name attributes
    | "a" =>
      let b := match b.activeFormatting.find? (b.cells.isHtml ["a"]) with
        | some i => (b.closeFormatting "a").forget i
        | none => b
      (b.reconstruct.insert name attributes).rememberFormatting
    | "b" | "big" | "code" | "em" | "font" | "i" | "s" | "small" | "strike" | "strong" | "tt"
    | "u" => (b.reconstruct.insert name attributes).rememberFormatting
    | "nobr" =>
      let b := b.reconstruct
      let b := if b.inScope ["nobr"] then (b.closeFormatting "nobr").reconstruct else b
      (b.insert name attributes).rememberFormatting
    | "applet" | "marquee" | "object" => (b.reconstruct.insert name attributes).markFormatting
    | "table" => { b.closeParagraphInScope.insert name attributes with mode := .table }
    | "area" | "br" | "embed" | "img" | "keygen" | "wbr" => b.insertVoid name attributes
    | "image" => b.insertVoid "img" attributes
    | "input" =>
      (if b.inScope ["select"] then b.popThrough ["select"] else b).insertVoid name attributes
    | "param" | "source" | "track" => (b.insert name attributes).pop
    | "hr" =>
      let b := b.closeParagraphInScope
      let b := if b.inScope ["select"] then b.closeImplied "" else b
      (b.insert name attributes).pop
    | "textarea" =>
      { b.insertRaw name attributes (.referencesOnly name) with dropsLineFeed := true }
    | "xmp" => b.closeParagraphInScope.reconstruct.insertRaw name attributes (.rawText name)
    | "iframe" | "noembed" | "noscript" => b.insertRaw name attributes (.rawText name)
    | "select" =>
      if b.inScope ["select"] then b.popThrough ["select"] else b.reconstruct.insert name attributes
    | "option" =>
      let b :=
        if b.inScope ["select"] then b.closeImplied "optgroup"
        else if b.currentIs ["option"] then b.pop else b
      b.reconstruct.insert name attributes
    | "optgroup" =>
      let b :=
        if b.inScope ["select"] then b.closeImplied ""
        else if b.currentIs ["option"] then b.pop else b
      b.reconstruct.insert name attributes
    | "rb" | "rtc" =>
      (if b.inScope ["ruby"] then b.closeImplied "" else b).insert name attributes
    | "rp" | "rt" =>
      (if b.inScope ["ruby"] then b.closeImplied "rtc" else b).insert name attributes
    | "math" => b.reconstruct.insertForeign .math name attributes selfClosing
    | "svg" => b.reconstruct.insertForeign .svg name attributes selfClosing
    | _ => b.reconstruct.insert name attributes

/-- Close an element of a name, if one is in scope. -/
def closeInScope (names : List String) (kept : String) (b : Builder) : Builder :=
  if b.inScope names then (b.closeImplied kept).popThrough names else b

/-- The end tag of a form. -/
def closeForm (b : Builder) : Builder :=
  if b.hasOpen ["template"] then b.closeInScope ["form"] ""
  else
    let without := { b with form := none }
    match b.form with
    | none => without
    | some i =>
      if !b.cellInScope i then without
      else
        let b := without.closeImplied ""
        { b with stack := b.stack.filter (· != i) }

/-- An end tag in the body. -/
def closeInBody (name : String) (b : Builder) : Builder :=
  if name = "p" then
    (if b.inButtonScope ["p"] then b else b.insert "p" []).closeParagraph
  else if ["button", "listing", "pre", "select"].contains name || blockTags.contains name then
    b.closeInScope [name] ""
  else if headingTags.contains name then
    if b.inScope headingTags then (b.closeImplied "").popThrough headingTags else b
  else if formattingTags.contains name then b.closeFormatting name
  else match name with
    | "template" => b.endTemplate
    | "body" | "html" => b
    | "form" => b.closeForm
    | "li" =>
      if b.inListScope ["li"] then (b.closeImplied "li").popThrough ["li"] else b
    | "dd" | "dt" => b.closeInScope [name] name
    | "applet" | "marquee" | "object" =>
      if b.inScope [name] then ((b.closeImplied "").popThrough [name]).clearFormatting else b
    | "br" => b.insertVoid "br" []
    | _ => b.closeAny name

/-- A token in the body. -/
def inBody (token : Token) (b : Builder) : Outcome :=
  match token with
  | .char c => .done (b.reconstruct.insertChar c)
  | .startTag name attributes selfClosing => .done (b.openInBody name attributes selfClosing)
  | .endTag name => .done (b.closeInBody name)
  | .endOfText => b.endText
  | .null | .comment | .doctype => .done b

/-! ## Tables -/

/-- The elements inside which the text of a table stands before its place is known. -/
def tableParts : List String := ["table", "tbody", "template", "tfoot", "thead", "tr"]

/-- A token that a table cannot hold: it is read as in the body and put before the table. -/
def misplaced (token : Token) (b : Builder) : Outcome :=
  match { b with fosterParenting := true }.inBody token with
  | .done b => .done { b with fosterParenting := false }
  | .again b => .again { b with fosterParenting := false }

/-- A token between the parts of a table. -/
def inTable (token : Token) (b : Builder) : Outcome :=
  let inContext (b : Builder) : Builder := b.popTo ["table", "template", "html"]
  match token with
  | .char _ | .null =>
    if b.currentIs tableParts then
      .again { b with mode := .tableText, returnMode := b.mode, tableText := [] }
    else b.misplaced token
  | .comment | .doctype => .done b
  | .endOfText => b.inBody token
  | .startTag name attributes _ =>
    match name with
    | "caption" =>
      .done { ((inContext b).markFormatting.insert name attributes) with mode := .caption }
    | "colgroup" => .done { (inContext b).insert name attributes with mode := .columnGroup }
    | "col" => .again { (inContext b).insert "colgroup" [] with mode := .columnGroup }
    | "tbody" | "tfoot" | "thead" =>
      .done { (inContext b).insert name attributes with mode := .tableBody }
    | "td" | "th" | "tr" => .again { (inContext b).insert "tbody" [] with mode := .tableBody }
    | "table" =>
      if b.inTableScope ["table"] then .again (b.popThrough ["table"]).resetMode else .done b
    | "style" | "script" | "template" => .done (b.openHeadElement name attributes)
    | "input" =>
      if (attribute? attributes "type").any fun t => Text.lower t == "hidden" then
        .done (b.insert name attributes).pop
      else b.misplaced token
    | "form" =>
      if b.hasOpen ["template"] || b.form.isSome then .done b
      else
        let b := b.insert name attributes
        .done { b with form := some b.current }.pop
    | _ => b.misplaced token
  | .endTag name =>
    match name with
    | "table" =>
      .done (if b.inTableScope ["table"] then (b.popThrough ["table"]).resetMode else b)
    | "template" => .done b.endTemplate
    | _ =>
      if ["body", "caption", "col", "colgroup", "html", "tbody", "td", "tfoot", "th", "thead",
          "tr"].contains name then .done b
      else b.misplaced token

/-- Put the text found in a table where it belongs: into the table if it is blank, before the table
    otherwise. -/
def placeTableText (b : Builder) : Builder :=
  let text := b.tableText.reverse
  let b := { b with mode := b.returnMode, tableText := [] }
  if text.all Token.isSpace then text.foldl (fun b c => b.insertChar c) b
  else
    text.foldl (fun b c =>
      { { b with fosterParenting := true }.reconstruct.insertChar c with fosterParenting := false }) b

/-- A token after some text of a table. -/
def inTableText (token : Token) (b : Builder) : Outcome :=
  match token with
  | .char c => .done { b with tableText := c :: b.tableText }
  | .null | .doctype => .done b
  | _ => .again b.placeTableText

/-- The tags that end a caption, a group of columns, or a cell. -/
def tablePartTags : List String :=
  ["caption", "col", "colgroup", "tbody", "td", "tfoot", "th", "thead", "tr"]

/-- A token in the caption of a table. -/
def inCaption (token : Token) (b : Builder) : Outcome :=
  let close (b : Builder) : Builder :=
    { ((b.closeImplied "").popThrough ["caption"]).clearFormatting with mode := .table }
  match token with
  | .endTag "caption" => .done (if b.inTableScope ["caption"] then close b else b)
  | .endTag "table" => if b.inTableScope ["caption"] then .again (close b) else .done b
  | .startTag name _ _ =>
    if tablePartTags.contains name then
      if b.inTableScope ["caption"] then .again (close b) else .done b
    else b.inBody token
  | .endTag name =>
    if name = "body" || name = "html" || tablePartTags.contains name then .done b else b.inBody token
  | _ => b.inBody token

/-- A token in a group of columns. -/
def inColumnGroup (token : Token) (b : Builder) : Outcome :=
  let leave : Outcome :=
    if b.currentIs ["colgroup"] then .again { b.pop with mode := .table } else .done b
  match token with
  | .char c => if Token.isSpace c then .done (b.insertChar c) else leave
  | .comment | .doctype => .done b
  | .startTag "html" _ _ => .done b
  | .startTag "col" attributes _ => .done (b.insert "col" attributes).pop
  | .endTag "colgroup" =>
    .done (if b.currentIs ["colgroup"] then { b.pop with mode := .table } else b)
  | .endTag "col" => .done b
  | .startTag "template" attributes _ => .done (b.openHeadElement "template" attributes)
  | .endTag "template" => .done b.endTemplate
  | .endOfText => b.inBody token
  | _ => leave

/-- A token between the rows of a table. -/
def inTableBody (token : Token) (b : Builder) : Outcome :=
  let inContext (b : Builder) : Builder := b.popTo ["tbody", "tfoot", "thead", "template", "html"]
  let leave : Outcome :=
    if b.inTableScope ["tbody", "thead", "tfoot"] then
      .again { (inContext b).pop with mode := .table }
    else .done b
  match token with
  | .startTag name attributes _ =>
    match name with
    | "tr" => .done { (inContext b).insert name attributes with mode := .row }
    | "th" | "td" => .again { (inContext b).insert "tr" [] with mode := .row }
    | "caption" | "col" | "colgroup" | "tbody" | "tfoot" | "thead" => leave
    | _ => b.inTable token
  | .endTag name =>
    match name with
    | "tbody" | "tfoot" | "thead" =>
      .done (if b.inTableScope [name] then { (inContext b).pop with mode := .table } else b)
    | "table" => leave
    | "body" | "caption" | "col" | "colgroup" | "html" | "td" | "th" | "tr" => .done b
    | _ => b.inTable token
  | _ => b.inTable token

/-- A token between the cells of a row. -/
def inRow (token : Token) (b : Builder) : Outcome :=
  let inContext (b : Builder) : Builder := b.popTo ["tr", "template", "html"]
  let leave : Outcome :=
    if b.inTableScope ["tr"] then .again { (inContext b).pop with mode := .tableBody } else .done b
  match token with
  | .startTag name attributes _ =>
    match name with
    | "th" | "td" =>
      .done { ((inContext b).insert name attributes).markFormatting with mode := .cell }
    | "caption" | "col" | "colgroup" | "tbody" | "tfoot" | "thead" | "tr" => leave
    | _ => b.inTable token
  | .endTag name =>
    match name with
    | "tr" =>
      .done (if b.inTableScope ["tr"] then { (inContext b).pop with mode := .tableBody } else b)
    | "table" => leave
    | "tbody" | "tfoot" | "thead" => if b.inTableScope [name] then leave else .done b
    | "body" | "caption" | "col" | "colgroup" | "html" | "td" | "th" => .done b
    | _ => b.inTable token
  | _ => b.inTable token

/-- A token in a cell of a table. -/
def inCell (token : Token) (b : Builder) : Outcome :=
  let close (names : List String) (b : Builder) : Builder :=
    { ((b.closeImplied "").popThrough names).clearFormatting with mode := .row }
  match token with
  | .startTag name _ _ =>
    if tablePartTags.contains name then
      if b.inTableScope ["td", "th"] then .again (close ["td", "th"] b) else .done b
    else b.inBody token
  | .endTag name =>
    match name with
    | "td" | "th" => .done (if b.inTableScope [name] then close [name] b else b)
    | "body" | "caption" | "col" | "colgroup" | "html" => .done b
    | "table" | "tbody" | "tfoot" | "thead" | "tr" =>
      if b.inTableScope [name] then .again (close ["td", "th"] b) else .done b
    | _ => b.inBody token
  | _ => b.inBody token

/-! ## Templates, raw text and foreign content -/

/-- A token in a template, whose content may be anything: the first tag decides what it is. -/
def inTemplate (token : Token) (b : Builder) : Outcome :=
  let become (mode : Mode) : Outcome :=
    .again { b with mode := mode, templateModes := mode :: b.templateModes.drop 1 }
  match token with
  | .startTag name attributes _ =>
    match name with
    | "caption" | "colgroup" | "tbody" | "tfoot" | "thead" => become .table
    | "col" => become .columnGroup
    | "tr" => become .tableBody
    | "td" | "th" => become .row
    | _ =>
      if headTags.contains name then .done (b.openHeadElement name attributes) else become .body
  | .endTag name => .done (if name = "template" then b.endTemplate else b)
  | .endOfText => b.endText
  | _ => b.inBody token

/-- A token in an element of raw text. -/
def inRawText (token : Token) (b : Builder) : Outcome :=
  let leave : Builder := { b.pop with mode := b.returnMode, model := .markup }
  match token with
  | .char c => .done (b.insertChar c)
  | .endOfText => .again leave
  | .endTag _ => .done leave
  | _ => .done b

/-- Whether HTML may stand in a foreign element as its text. -/
def holdsText (b : Builder) (i : CellId) : Bool :=
  b.cells.vocabulary? i == some .math &&
    ["mi", "mo", "mn", "ms", "mtext"].contains (b.cells.name i)

/-- Whether HTML may stand in a foreign element. -/
def holdsHtml (b : Builder) (i : CellId) : Bool :=
  match b.cells.vocabulary? i with
  | some .svg => ["foreignObject", "desc", "title"].contains (b.cells.name i)
  | some .math =>
    b.cells.name i == "annotation-xml" &&
      (attribute? (b.cells.attributes i) "encoding").any fun e =>
        ["text/html", "application/xhtml+xml"].contains (Text.lower e)
  | _ => false

/-- Whether the innermost open element is foreign. -/
def inForeignContent (b : Builder) : Bool :=
  match b.cells.vocabulary? b.current with
  | some .svg | some .math => true
  | _ => false

/-- Whether the rules for foreign content apply to a token. -/
def isForeign (token : Token) (b : Builder) : Bool :=
  let i := b.current
  b.inForeignContent &&
    match token with
    | .endOfText => false
    | .char _ | .null => !(b.holdsText i || b.holdsHtml i)
    | .startTag name _ _ =>
      !((b.holdsText i && name != "mglyph" && name != "malignmark") || b.holdsHtml i ||
        (name == "svg" && b.cells.name i == "annotation-xml"))
    | _ => true

/-- Start tags that end foreign content. -/
def endsForeign (name : String) (attributes : List (String × String)) : Bool :=
  ["b", "big", "blockquote", "body", "br", "center", "code", "dd", "div", "dl", "dt", "em", "embed",
    "h1", "h2", "h3", "h4", "h5", "h6", "head", "hr", "i", "img", "li", "listing", "menu", "meta",
    "nobr", "ol", "p", "pre", "ruby", "s", "small", "span", "strong", "strike", "sub", "sup",
    "table", "tt", "u", "ul", "var"].contains name ||
  (name == "font" && attributes.any fun (n, _) => ["color", "face", "size"].contains n)

/-- Close foreign elements until HTML may follow. -/
def leaveForeign (b : Builder) : Builder :=
  { b with stack := b.stack.dropWhile fun i =>
      !(b.cells.vocabulary? i == some .html || b.holdsText i || b.holdsHtml i) }

/-- A foreign end tag: it closes the nearest foreign element of its name. Nothing if HTML comes
    first. -/
def closeForeign? (name : String) (b : Builder) : Option (List CellId) :=
  let rec go : List CellId → Option (List CellId)
    | [] => none
    | i :: is =>
      if b.cells.vocabulary? i == some .html then none
      else if String.ofList (Text.asciiLower (b.cells.name i).toList) == name then some is
      else go is
  go b.stack

/-! ## One token -/

/-- The rules of the mode. -/
def inMode (token : Token) (b : Builder) : Outcome :=
  match b.mode with
  | .body => b.inBody token
  | .rawText => b.inRawText token
  | .table => b.inTable token
  | .tableText => b.inTableText token
  | .caption => b.inCaption token
  | .columnGroup => b.inColumnGroup token
  | .tableBody => b.inTableBody token
  | .row => b.inRow token
  | .cell => b.inCell token
  | .template => b.inTemplate token

/-- The rules for foreign content. -/
def inForeign (token : Token) (b : Builder) : Outcome :=
  match token with
  | .char c => .done (b.insertChar c)
  | .null => .done (b.insertChar replacementChar)
  | .startTag name attributes selfClosing =>
    if endsForeign name attributes then b.leaveForeign.inMode token
    else
      let vocabulary := (b.cells.vocabulary? b.current).getD .svg
      .done (b.insertForeign vocabulary name attributes selfClosing)
  | .endTag name =>
    if name = "br" || name = "p" then b.leaveForeign.inMode token
    else match b.closeForeign? name with
      | some stack => .done { b with stack := stack }
      | none => b.inMode token
  | _ => .done b

/-- Take a token. A token is handed on at most once for each open element and mode; `fuel` is more
    than that. -/
def take (token : Token) : Nat → Builder → Builder
  | 0, b => b
  | fuel + 1, b =>
    let outcome := if b.isForeign token then b.inForeign token else b.inMode token
    match outcome with
    | .done b => b
    | .again b => b.take token fuel

/-- Take a token, after dropping a line feed that does not count. -/
def step (b : Builder) (token : Token) : Builder :=
  let dropped : Bool := match token with
    | .char c => b.dropsLineFeed && c == '\n'
    | _ => false
  let b := { b with dropsLineFeed := false }
  if dropped then b
  else match token with
    | .doctype => b
    | _ => b.take token (2 * b.stack.length + 2 * b.templateModes.length + 16)

end Builder

/-! ## Reading a fragment -/

/-- Read tokens until the text ends. Each round takes at least one character. -/
def readTokens : Nat → List Char → Builder → Builder
  | 0, _, b => b
  | _ + 1, [], b => b
  | fuel + 1, cs, b =>
    let (tokens, rest) := Token.read b.model b.inForeignContent cs
    readTokens fuel rest (tokens.foldl Builder.step b)

/-- The nodes of a text that stands in the body of a page. -/
def parse (text : String) : List FragmentNode :=
  let cs := Token.normalizeLineEnds text.toList
  let b := (readTokens cs.length cs .start).step .endOfText
  b.cells.finish b.cells.table.size 0

end Folio.Html.Fragment

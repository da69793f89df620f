import Folio.Html.Fragment.Tree

set_option autoImplicit false

/-! # Open elements, scopes and formatting

The state in which the HTML standard builds a tree: the stack of open elements, the list of
formatting elements that are to be opened again wherever they were cut off, and the operations on
them that the rules for the single tags are written in. -/

namespace Folio.Html.Fragment

/-! ## State -/

/-- Which rules apply to the next token. -/
inductive Mode where
  | body
  | rawText
  | table
  | tableText
  | caption
  | columnGroup
  | tableBody
  | row
  | cell
  | template
deriving Repr, DecidableEq

/-- The state of the construction. -/
structure Builder where
  cells : Cells
  /-- The open elements, innermost first. -/
  stack : List CellId
  /-- The formatting elements, latest first; `none` marks where a table cell or the like began. -/
  formatting : List (Option CellId) := []
  mode : Mode := .body
  /-- The mode to return to after raw text or the text of a table. -/
  returnMode : Mode := .body
  /-- The modes of the open templates, innermost first. -/
  templateModes : List Mode := []
  /-- The form that is open, wherever it stands. -/
  form : Option CellId := none
  /-- Whether what a table cannot hold goes before the table. -/
  fosterParenting : Bool := false
  /-- The text found between the rows of a table, last character first. -/
  tableText : List Char := []
  /-- Whether a line feed that comes next is dropped. -/
  dropsLineFeed : Bool := false
  /-- How the text that comes next is read. -/
  model : ContentModel := .markup

/-- Nothing read: a root element alone. -/
def Builder.start : Builder where
  cells := ⟨#[⟨.element .html "html" [], none, []⟩]⟩
  stack := [0]

namespace Builder

/-- The innermost open element. -/
def current (b : Builder) : CellId :=
  b.stack.headD 0

/-- Whether the innermost open element has one of some names. -/
def currentIs (b : Builder) (names : List String) : Bool :=
  b.cells.isHtml names b.current

/-- Close the innermost open element. -/
def pop (b : Builder) : Builder :=
  { b with stack := b.stack.drop 1 }

/-- Close open elements until one with one of some names has been closed. -/
def popThrough (names : List String) (b : Builder) : Builder :=
  { b with stack := (b.stack.dropWhile fun i => !b.cells.isHtml names i).drop 1 }

/-- Close open elements until the innermost one has one of some names. -/
def popTo (names : List String) (b : Builder) : Builder :=
  { b with stack := b.stack.dropWhile fun i => !b.cells.isHtml names i }

/-- Whether an element with one of some names is open. -/
def hasOpen (b : Builder) (names : List String) : Bool :=
  b.stack.any (b.cells.isHtml names)

/-! ## Scopes -/

/-- The elements at which a search through the open elements ends. -/
def bounds (b : Builder) (i : CellId) : Bool :=
  match b.cells.vocabulary? i with
  | some .html =>
    ["applet", "caption", "html", "table", "td", "th", "marquee", "object", "select",
      "template"].contains (b.cells.name i)
  | some .math =>
    ["mi", "mo", "mn", "ms", "mtext", "annotation-xml"].contains (b.cells.name i)
  | some .svg => ["foreignObject", "desc", "title"].contains (b.cells.name i)
  | none => false

/-- Whether the search for an open element succeeds before it meets one that bounds it. -/
def search (isTarget bound : CellId → Bool) : List CellId → Bool
  | [] => false
  | i :: is => isTarget i || (!bound i && search isTarget bound is)

/-- Whether an element with one of some names is open, nothing that bounds it between. -/
def inScope (b : Builder) (names : List String) : Bool :=
  search (b.cells.isHtml names) b.bounds b.stack

/-- The same for an element, not a name. -/
def cellInScope (b : Builder) (i : CellId) : Bool :=
  search (· == i) b.bounds b.stack

/-- The scope in which a list item is looked for. -/
def inListScope (b : Builder) (names : List String) : Bool :=
  search (b.cells.isHtml names) (fun i => b.bounds i || b.cells.isHtml ["ol", "ul"] i) b.stack

/-- The scope in which a paragraph is looked for. -/
def inButtonScope (b : Builder) (names : List String) : Bool :=
  search (b.cells.isHtml names) (fun i => b.bounds i || b.cells.isHtml ["button"] i) b.stack

/-- The scope in which a part of a table is looked for. -/
def inTableScope (b : Builder) (names : List String) : Bool :=
  search (b.cells.isHtml names) (b.cells.isHtml ["html", "table", "template"]) b.stack

/-- The elements that are not mere phrases in a text. -/
def specialElements : List String :=
  ["address", "applet", "area", "article", "aside", "base", "basefont", "bgsound", "blockquote",
    "body", "br", "button", "caption", "center", "col", "colgroup", "dd", "details", "dir", "div",
    "dl", "dt", "embed", "fieldset", "figcaption", "figure", "footer", "form", "frame", "frameset",
    "h1", "h2", "h3", "h4", "h5", "h6", "head", "header", "hgroup", "hr", "html", "iframe", "img",
    "input", "keygen", "li", "link", "listing", "main", "marquee", "menu", "meta", "nav", "noembed",
    "noframes", "noscript", "object", "ol", "p", "param", "plaintext", "pre", "script", "search",
    "section", "select", "source", "style", "summary", "table", "tbody", "td", "template",
    "textarea", "tfoot", "th", "thead", "title", "tr", "track", "ul", "wbr", "xmp"]

/-- Whether an element is not a mere phrase in a text. -/
def isSpecial (b : Builder) (i : CellId) : Bool :=
  match b.cells.vocabulary? i with
  | some .html => specialElements.contains (b.cells.name i)
  | _ => b.bounds i

/-! ## Inserting -/

/-- Where a table stands, or its place if nothing holds it: where misplaced content goes. -/
def fosterPlace (b : Builder) : Place :=
  let inner := b.stack.takeWhile fun i => !b.cells.isHtml ["table", "template"] i
  match b.stack.drop inner.length with
  | [] => .lastIn 0
  | i :: above =>
    if b.cells.isHtml ["template"] i then .lastIn i
    else if (b.cells.parent? i).isSome then .before i
    else .lastIn (above.headD 0)

/-- Where new content goes that belongs into a given element. -/
def placeIn (b : Builder) (target : CellId) : Place :=
  if b.fosterParenting && b.cells.isHtml ["table", "tbody", "tfoot", "thead", "tr"] target then
    b.fosterPlace
  else .lastIn target

/-- Insert a new element and open it. -/
def insertElement (vocabulary : Vocabulary) (name : String) (attributes : List (String × String))
    (b : Builder) : Builder :=
  let (i, cells) := b.cells.add (.element vocabulary name attributes)
  { b with cells := cells.attach (b.placeIn b.current) i, stack := i :: b.stack }

/-- Insert a new element of HTML and open it. -/
def insert (name : String) (attributes : List (String × String)) (b : Builder) : Builder :=
  b.insertElement .html name attributes

/-- Insert a character of text. -/
def insertChar (c : Char) (b : Builder) : Builder :=
  { b with cells := b.cells.attachChar (b.placeIn b.current) c }

/-- Insert an element whose content is raw text. -/
def insertRaw (name : String) (attributes : List (String × String)) (model : ContentModel)
    (b : Builder) : Builder :=
  { b.insert name attributes with model := model, returnMode := b.mode, mode := .rawText }

/-- Close elements whose end tags may be left out, but not those of one name. -/
def closeImplied (kept : String) (b : Builder) : Builder :=
  let implied := ["dd", "dt", "li", "optgroup", "option", "p", "rb", "rp", "rt", "rtc"].filter (· != kept)
  { b with stack := b.stack.dropWhile (b.cells.isHtml implied) }

/-- Close all elements whose end tags may be left out, parts of tables included. -/
def closeImpliedThoroughly (b : Builder) : Builder :=
  { b with stack := b.stack.dropWhile (b.cells.isHtml
      ["caption", "colgroup", "dd", "dt", "li", "optgroup", "option", "p", "rb", "rp", "rt", "rtc",
        "tbody", "td", "tfoot", "th", "thead", "tr"]) }

/-- Close the paragraph that is open. -/
def closeParagraph (b : Builder) : Builder :=
  (b.closeImplied "p").popThrough ["p"]

/-- Close the paragraph that is open, if one is. -/
def closeParagraphInScope (b : Builder) : Builder :=
  if b.inButtonScope ["p"] then b.closeParagraph else b

/-! ## Formatting elements -/

/-- The formatting elements since the last mark, latest first. -/
def activeFormatting (b : Builder) : List CellId :=
  (b.formatting.takeWhile Option.isSome).filterMap id

/-- Forget the formatting elements since the last mark, and the mark. -/
def clearFormatting (b : Builder) : Builder :=
  { b with formatting := (b.formatting.dropWhile Option.isSome).drop 1 }

/-- Mark where a new list of formatting elements begins. -/
def markFormatting (b : Builder) : Builder :=
  { b with formatting := none :: b.formatting }

/-- Whether two elements have one name and the same attributes. -/
def sameElement (b : Builder) (i j : CellId) : Bool :=
  let sorted (k : CellId) := (b.cells.attributes k).mergeSort fun x y => decide (x.1 ≤ y.1)
  b.cells.name i == b.cells.name j && sorted i == sorted j

/-- Remember the innermost open element as a formatting element. Of elements that are the same, at
    most three are remembered. -/
def rememberFormatting (b : Builder) : Builder :=
  let same := b.activeFormatting.filter (b.sameElement b.current)
  let kept := match same.drop 2 with
    | [] => b.formatting
    | _ => match same.getLast? with
      | some oldest => b.formatting.erase (some oldest)
      | none => b.formatting
  { b with formatting := some b.current :: kept }

/-- Replace a formatting element by another. -/
def replaceFormatting (old new : CellId) (b : Builder) : Builder :=
  { b with formatting := b.formatting.map fun e => if e = some old then some new else e }

/-- Open again the formatting elements that were remembered but are not open, oldest first. -/
def reconstruct (b : Builder) : Builder :=
  let closed := b.activeFormatting.takeWhile fun i => !b.stack.contains i
  closed.reverse.foldl (fun b i =>
    let b := b.insert (b.cells.name i) (b.cells.attributes i)
    b.replaceFormatting i b.current) b

/-- The end tag of a phrase: it closes the element of its name unless something special is open
    inside it. -/
def closeAny (name : String) (b : Builder) : Builder :=
  let phrases := b.stack.takeWhile fun i => !(b.cells.isHtml [name] i || b.isSpecial i)
  match b.stack.drop phrases.length with
  | [] => b
  | i :: above => if b.cells.isHtml [name] i then { b with stack := above } else b

/-! ## Misnested formatting

When a formatting element ends while a block is open inside it, the block is taken out, and what it
holds is put into a new copy of the formatting element. -/

/-- The state while the elements between a formatting element and a block are copied. -/
structure Lifting where
  builder : Builder
  /-- What goes into the next copy. -/
  last : CellId
  /-- The copy after which the formatting element is to be remembered, if not in its old place. -/
  bookmark : Option CellId := none

/-- Copy one element between the formatting element and the block, or drop it if it is no formatting
    element or lies too far out. -/
def liftThrough (block : CellId) (l : Lifting) (between : CellId × Nat) : Lifting :=
  let (i, distance) := between
  let b := l.builder
  let b := if 3 < distance then { b with formatting := b.formatting.filter (· != some i) } else b
  if !b.formatting.contains (some i) then
    { l with builder := { b with stack := b.stack.filter (· != i) } }
  else
    let (copy, cells) := b.cells.add (.element .html (b.cells.name i) (b.cells.attributes i))
    let b := { b.replaceFormatting i copy with
      cells := cells.attach (.lastIn copy) l.last
      stack := b.stack.map fun j => if j = i then copy else j }
    ⟨b, copy, if l.last = block then some copy else l.bookmark⟩

/-- Put a new element into a list right before another, which runs from the inside out. -/
def insertInside (outer new : CellId) : List CellId → List CellId
  | [] => [new]
  | i :: is => if i = outer then new :: i :: is else i :: insertInside outer new is

/-- Remember a new formatting element in the place of an old one, or right after a copy. -/
def moveFormatting (old new : CellId) (bookmark : Option CellId) (b : Builder) : Builder :=
  match bookmark with
  | none => b.replaceFormatting old new
  | some copy =>
    let others := b.formatting.filter (· != some old)
    let later := others.takeWhile (· != some copy)
    { b with formatting := later ++ some new :: others.drop later.length }

/-- One round: the result, and whether another round is needed. -/
def lift (name : String) (b : Builder) : Builder × Bool :=
  match b.activeFormatting.find? (b.cells.isHtml [name]) with
  | none => (b.closeAny name, false)
  | some element =>
    let forget := { b with formatting := b.formatting.filter (· != some element) }
    if !b.stack.contains element then (forget, false)
    else if !b.cellInScope element then (b, false)
    else
      let inside := b.stack.takeWhile (· != element)
      match inside.reverse.find? b.isSpecial with
      | none => ({ forget with stack := b.stack.drop (inside.length + 1) }, false)
      | some block =>
        let ancestor := (b.stack.drop (inside.length + 1)).headD 0
        let between := (inside.dropWhile (· != block)).drop 1
        let l := (between.zip (List.range' 1 between.length)).foldl (liftThrough block) ⟨b, block, none⟩
        let b := l.builder
        let b := { b with cells := b.cells.attach (b.placeIn ancestor) l.last }
        let (copy, cells) :=
          b.cells.add (.element .html (b.cells.name element) (b.cells.attributes element))
        let cells := (cells.moveChildren block copy).attach (.lastIn block) copy
        let b := { b with cells := cells }.moveFormatting element copy l.bookmark
        let stack := insertInside block copy (b.stack.filter (· != element))
        ({ b with stack := stack }, true)

/-- As many rounds as are needed, and no more than a number. -/
def liftRepeatedly (name : String) : Nat → Builder → Builder
  | 0, b => b
  | n + 1, b =>
    let (b, more) := b.lift name
    if more then b.liftRepeatedly name n else b

/-- The end tag of a formatting element. -/
def closeFormatting (name : String) (b : Builder) : Builder :=
  if b.currentIs [name] && !b.formatting.contains (some b.current) then b.pop
  else b.liftRepeatedly name 8

end Builder

end Folio.Html.Fragment

import Folio.Html.Event

set_option autoImplicit false

/-! # Trees of HTML

A document is a list of nodes: elements with attributes and children, text, and the pieces of markup
that are neither. The tree of a text follows its events literally: a start tag opens an element, an
end tag closes the innermost open element of its name with everything inside it, and one that
matches no open element is ignored. Empty elements such as `br` are closed at once. -/

namespace Folio.Html

/-- A node of a document. -/
inductive Node where
  /-- An element; no attribute name occurs twice. -/
  | element (name : String) (attributes : List (String × String)) (children : List Node)
  /-- Text. It is *plain* unless it stands inside an element whose text is not read as part of the
      page: a script, a style sheet, a template, or a ruby annotation. -/
  | text (content : String) (plain : Bool)
  | comment (content : String)
  | doctype (content : String)
  /-- Character data in a marked section. -/
  | characterData (content : String)
  /-- Any other marked section. -/
  | declaration (content : String)
  | instruction (content : String)
deriving Repr, Inhabited, BEq

/-- A document or a part of one. -/
abbrev Forest := List Node

/-! ## Kinds of elements -/

/-- The elements that have no content and no end tag. -/
def voidElements : List String :=
  ["area", "base", "br", "col", "embed", "hr", "img", "input", "keygen", "link", "menuitem", "meta",
    "param", "source", "track", "wbr", "basefont", "bgsound", "command", "frame", "image",
    "isindex", "nextid", "spacer"]

/-- Whether an element has no content and no end tag. -/
def isVoidElement (name : String) : Bool :=
  voidElements.contains name

/-- The elements in which blanks are kept as they are. -/
def keepsBlanks (name : String) : Bool :=
  name == "pre" || name == "textarea"

/-- The elements whose text is not plain. -/
def hidesText (name : String) : Bool :=
  ["rt", "rp", "style", "script", "template"].contains name

/-! ## Attributes -/

/-- The value of an attribute. -/
def attribute? (attributes : List (String × String)) (name : String) : Option String :=
  attributes.lookup name

/-- Give an attribute a value: in place if it is there, at the end otherwise. -/
def setAttribute (name value : String) : List (String × String) → List (String × String)
  | [] => [(name, value)]
  | (n, v) :: rest => if n = name then (name, value) :: rest else (n, v) :: setAttribute name value rest

/-- The attributes of a tag as an element holds them: the last of several values of one name. -/
def mergeAttributes (attributes : List (String × String)) : List (String × String) :=
  attributes.foldl (fun merged (name, value) => setAttribute name value merged) []

/-- The attributes that hold a list of words, for an element. -/
def isWordListAttribute (element name : String) : Bool :=
  ["class", "accesskey", "dropzone"].contains name ||
  (match element with
    | "a" | "link" => name == "rel" || name == "rev"
    | "td" | "th" => name == "headers"
    | "form" => name == "accept-charset"
    | "object" => name == "archive"
    | "area" => name == "rel"
    | "icon" => name == "sizes"
    | "iframe" => name == "sandbox"
    | "output" => name == "for"
    | _ => false)

/-- The words of a list of characters. -/
def splitWords : List Char → List (List Char)
  | [] => []
  | c :: cs =>
    if Text.isBlank c then splitWords cs
    else match cs, splitWords cs with
      | d :: _, word :: words => if Text.isBlank d then [c] :: word :: words else (c :: word) :: words
      | _, words => [c] :: words

/-- The value of an attribute as an element holds it: words are parted by single spaces. -/
def attributeValue (element name value : String) : String :=
  if isWordListAttribute element name then
    " ".intercalate ((splitWords value.toList).map String.ofList)
  else value

/-- The encoding in which documents are written. -/
def outputEncoding : String := "utf-8"

/-- Put the output's encoding in place of every encoding that a content type names. The flag says
    whether a name may start here: at the beginning, or after a blank or a semicolon. -/
def declareEncodingAux : Nat → Bool → List Char → List Char
  | 0, _, cs => cs
  | _ + 1, _, [] => []
  | fuel + 1, mayStart, c :: cs =>
    match (if mayStart then Text.dropPrefix? "charset=".toList (c :: cs) else none) with
    | some rest =>
      "charset=".toList ++ outputEncoding.toList ++
        declareEncodingAux fuel false (rest.dropWhile (· != ';'))
    | none => c :: declareEncodingAux fuel (Text.isBlank c || c == ';') cs

/-- Where a `meta` element names the encoding of the document, it names the output's instead. -/
def declareEncoding (element : String) (attributes : List (String × String)) :
    List (String × String) :=
  if element ≠ "meta" then attributes
  else if (attribute? attributes "charset").isSome then
    setAttribute "charset" outputEncoding attributes
  else match attribute? attributes "content", attribute? attributes "http-equiv" with
    | some content, some equivalent =>
      if Text.lower equivalent = "content-type" then
        setAttribute "content"
          (String.ofList (declareEncodingAux content.length true content.toList)) attributes
      else attributes
    | _, _ => attributes

/-- The attributes of an element, from those of its tag. -/
def elementAttributes (element : String) (attributes : List (String × String)) :
    List (String × String) :=
  declareEncoding element
    ((mergeAttributes attributes).map fun (name, value) => (name, attributeValue element name value))

/-! ## Building a tree -/

/-- An element that is open, with the children found so far, last one first. -/
structure OpenElement where
  name : String
  attributes : List (String × String)
  children : Forest

/-- A tree under construction. -/
structure Construction where
  /-- The open elements, innermost first. -/
  stack : List OpenElement := []
  /-- The nodes outside all open elements, last one first. -/
  finished : Forest := []
  /-- Text that has been read and may still grow. -/
  pending : List Char := []
  /-- The empty elements whose start tags closed them, so that one later end tag of each is idle. -/
  closedVoids : List String := []

namespace Construction

/-- Add a node to the innermost open element. -/
def addNode (node : Node) (c : Construction) : Construction :=
  match c.stack with
  | [] => { c with finished := node :: c.finished }
  | top :: rest => { c with stack := { top with children := node :: top.children } :: rest }

/-- Close the innermost open element. -/
def closeInnermost (c : Construction) : Construction :=
  match c.stack with
  | [] => c
  | top :: rest =>
    { c with stack := rest }.addNode (.element top.name top.attributes top.children.reverse)

/-- A run of ASCII blanks becomes one line feed if it holds one, and one space otherwise, except
    inside an element that keeps blanks. -/
def collapse (c : Construction) (content : List Char) : List Char :=
  let isSpace (c : Char) : Bool := c == ' ' || c == '\n' || c == '\t' || c == '\x0c' || c == '\r'
  if c.stack.any (keepsBlanks ·.name) || !content.all isSpace then content
  else if content.contains '\n' then ['\n'] else [' ']

/-- Whether text that is added now is plain. -/
def isPlain (c : Construction) : Bool :=
  !c.stack.any (hidesText ·.name)

/-- Add the text that is pending. -/
def flush (c : Construction) : Construction :=
  if c.pending.isEmpty then c
  else
    { c with pending := [] }.addNode (.text (String.ofList (c.collapse c.pending)) c.isPlain)

/-- Add a node that holds text of its own, whose blanks are collapsed like those of other text. -/
def addMarked (make : String → Node) (content : List Char) (c : Construction) : Construction :=
  let c := c.flush
  c.addNode (make (String.ofList (c.collapse content)))

/-- Close the innermost open element of a name, and everything inside it. -/
def closeNamed (name : String) (c : Construction) : Construction :=
  if c.stack.any (·.name == name) then
    let inner := c.stack.takeWhile (·.name != name)
    (List.range (inner.length + 1)).foldl (fun c _ => c.closeInnermost) c
  else c

/-- Take one event into the tree. -/
def step (c : Construction) : Event → Construction
  | .text content => { c with pending := c.pending ++ content }
  | .startTag name attributes selfClosing =>
    let c := c.flush
    let c := { c with stack := ⟨name, elementAttributes name attributes, []⟩ :: c.stack }
    if selfClosing then c.closeInnermost
    else if isVoidElement name then
      { c with closedVoids := name :: c.closedVoids }.closeInnermost
    else c
  | .endTag name =>
    if c.closedVoids.contains name then { c with closedVoids := c.closedVoids.erase name }
    else c.flush.closeNamed name
  | .comment content => c.addMarked .comment content
  | .doctype content => c.addMarked .doctype content
  | .instruction content => c.addMarked .instruction content
  | .section_ content =>
    if Text.startsWithNoCase "cdata[" content then c.addMarked .characterData (content.drop 6)
    else c.addMarked .declaration content

/-- Close whatever is still open. -/
def finish (c : Construction) : Forest :=
  let c := c.flush
  let c := (List.range c.stack.length).foldl (fun c _ => c.closeInnermost) c
  c.finished.reverse

end Construction

/-- The tree of a list of events. -/
def buildForest (events : List Event) : Forest :=
  (events.foldl Construction.step {}).finish

/-- Read a text as a document. -/
def readForest (text : String) : Except MarkupError Forest :=
  (readEvents text.toList).map buildForest

/-! ## Text of a tree -/

mutual

/-- The plain text in a node, at any depth, with character data. -/
def Node.plainText : Node → String
  | .element _ _ children => plainTextList children
  | .text content true => content
  | .characterData content => content
  | _ => ""

/-- The plain text of a list of nodes. -/
def plainTextList : Forest → String
  | [] => ""
  | node :: rest => node.plainText ++ plainTextList rest

end

/-- The text that stands directly in a list of nodes, not inside an element among them. -/
def directText (children : Forest) : String :=
  String.join (children.map fun
    | .text content _ => content
    | _ => "")

end Folio.Html

import Folio.Html.Fragment.Rules
import Folio.Html.Printer
import Folio.Html.StyleDeclaration
import Folio.Url.Reference

set_option autoImplicit false

/-! # Keeping only what is allowed

A page that comes from elsewhere is read as a browser reads it, and of the tree only what an allow-list
names is kept. An element that is not allowed gives way to its content; scripts, style sheets and the
content of foreign vocabularies go altogether. So nothing of the input's text reaches the output
without having been understood first. What is kept is written as text, in a way of its own, and this text
is read by the lenient reader again. -/

namespace Folio.Html

/-! ## Policy -/

/-- What a page may hold. -/
structure AllowList where
  elements : List String
  /-- Attributes that any element may have. -/
  anywhere : List String
  /-- Attributes by element. -/
  attributes : List (String × List String)
  /-- Attributes that may have only certain values, by element; letter case does not count. -/
  values : List (String × String × List String)
  /-- Properties that a style may set. -/
  properties : List String
  /-- Schemes that a reference may have. -/
  schemes : List String

/-- What a rendered text may hold. -/
def AllowList.standard : AllowList where
  elements :=
    ["a", "abbr", "b", "blockquote", "br", "caption", "code", "dd", "del", "details", "div", "dl",
      "dt", "em", "figcaption", "figure", "h1", "h2", "h3", "h4", "h5", "h6", "hr", "i", "img",
      "input", "ins", "kbd", "li", "mark", "ol", "p", "pre", "q", "s", "samp", "section", "small",
      "span", "strike", "strong", "sub", "summary", "sup", "table", "tbody", "td", "tfoot", "th",
      "thead", "tr", "u", "ul", "var"]
  anywhere := ["title", "lang", "dir"]
  attributes :=
    [("a", ["href"]), ("img", ["src", "alt", "width", "height"]), ("code", ["class"]),
      ("pre", ["class"]), ("div", ["class"]), ("span", ["class"]), ("ul", ["class"]),
      ("ol", ["class", "start"]), ("li", ["class"]), ("input", ["class", "checked", "disabled"]),
      ("td", ["style", "colspan", "rowspan"]), ("th", ["style", "colspan", "rowspan"])]
  values := [("input", "type", ["checkbox"])]
  properties := ["text-align"]
  schemes := ["http", "https", "mailto", "tel"]

namespace AllowList

/-- Whether an attribute holds a reference. -/
def isReferenceAttribute (name : String) : Bool :=
  name == "href" || name == "src"

/-- Whether a reference may be followed: it is relative, or its scheme is allowed. -/
def permitsReference (policy : AllowList) (value : String) : Bool :=
  match Url.Reference.ofText value.toList with
  | .relative => true
  | .absolute scheme => policy.schemes.contains scheme
  | .invalid => false

/-- Whether an element may have an attribute, whatever its value is. -/
def permitsName (policy : AllowList) (element name : String) : Bool :=
  policy.anywhere.contains name || ((policy.attributes.lookup element).getD []).contains name

/-- Whether an element may have an attribute with a value. -/
def permits (policy : AllowList) (element name value : String) : Bool :=
  (policy.permitsName element name ||
    policy.values.any fun (e, n, allowed) =>
      e == element && n == name && allowed.contains (Text.lower value)) &&
  (!isReferenceAttribute name || policy.permitsReference value)

/-- A style with only the properties that may be set. -/
def cleanStyle (policy : AllowList) (value : String) : String :=
  ";".intercalate (((StyleDeclaration.ofAttribute value).filter fun d =>
    policy.properties.contains d.property).map StyleDeclaration.print)

/-- The attributes that an element may have. -/
def cleanAttributes (policy : AllowList) (element : String) (attributes : List (String × String)) :
    List (String × String) :=
  (attributes.filter fun (name, value) => policy.permits element name value).map
    fun (name, value) => (name, if name = "style" then policy.cleanStyle value else value)

/-! ## Trees -/

/-- The elements that go with all they hold. -/
def dropsContent (name : String) : Bool :=
  ["script", "style", "template"].contains name

/-- Names that belong to other vocabularies alone; as elements of HTML they go with all they hold. -/
def foreignNames : List String :=
  ["animate", "circle", "defs", "desc", "discard", "ellipse", "filter", "g", "image", "line",
    "marker", "mask", "metadata", "mpath", "path", "pattern", "polygon", "polyline", "rect", "set",
    "stop", "svg", "switch", "symbol", "text", "tspan", "use", "view", "annotation",
    "annotation-xml", "maction", "math", "menclose", "merror", "mfenced", "mfrac", "mi",
    "mmultiscripts", "mn", "mo", "mover", "mpadded", "mphantom", "mprescripts", "mroot", "mrow", "ms",
    "mspace", "msqrt", "mstyle", "msub", "msubsup", "msup", "mtable", "mtd", "mtext", "mtr",
    "munder", "munderover", "semantics"]

mutual

/-- What is kept of a node, as events in the order of the text. Of foreign vocabularies only what
    stands directly in the outermost element can be HTML or text, and only that is kept. -/
def cleanNode (policy : AllowList) : FragmentNode → List Event
  | .text content => [.text content.toList]
  | .element .html name attributes children =>
    if dropsContent name || foreignNames.contains name then []
    else if policy.elements.contains name then
      .startTag name (policy.cleanAttributes name attributes) false ::
        (if isVoidElement name then [] else cleanNodes policy children ++ [.endTag name])
    else cleanNodes policy children
  | .element .svg name _ children => if name = "svg" then cleanNodes policy children else []
  | .element .math name _ children => if name = "math" then cleanNodes policy children else []

/-- What is kept of a list of nodes. -/
def cleanNodes (policy : AllowList) : List FragmentNode → List Event
  | [] => []
  | node :: nodes => cleanNode policy node ++ cleanNodes policy nodes

end

/-! ## Text -/

/-- How a character of text is written. The space that does not break has a name. -/
def textChar : Char → List Char
  | '&' => "&amp;".toList
  | '<' => "&lt;".toList
  | '>' => "&gt;".toList
  | '\u00a0' => "&nbsp;".toList
  | c => [c]

/-- How a character of a value is written between double quotes. -/
def valueChar (c : Char) : List Char :=
  if c = '"' then "&quot;".toList else textChar c

/-- A value in double quotes. -/
def quotedValue (value : String) : List Char :=
  '"' :: (value.toList.flatMap valueChar ++ ['"'])

/-- An attribute as it is written, with the space before it. -/
def attributeChars (a : String × String) : List Char :=
  ' ' :: (a.1.toList ++ '=' :: quotedValue a.2)

/-- The text of what is kept. An element that is always empty has a start tag like others, without an end
    tag; attributes stand in the order in which they are kept. -/
def eventChars : Event → List Char
  | .text content => content.flatMap textChar
  | .startTag name attributes _ =>
    '<' :: (name.toList ++ (attributes.flatMap attributeChars ++ ['>']))
  | .endTag name => '<' :: '/' :: (name.toList ++ ['>'])
  | _ => []

/-- The text of the allowed part of a document. -/
def cleanText (policy : AllowList) (forest : Forest) : String :=
  String.ofList ((policy.cleanNodes (Fragment.parse (print forest))).flatMap eventChars)

/-- The allowed part of a document, read from its text. The reader refuses none of these texts if the
    names of the policy are plain. -/
def clean (policy : AllowList) (forest : Forest) : Forest :=
  match readForest (policy.cleanText forest) with
  | .ok cleaned => cleaned
  | .error _ => []

end AllowList

/-- The part of a document that a rendered text may hold. -/
def sanitize (forest : Forest) : Forest :=
  AllowList.standard.clean forest

end Folio.Html

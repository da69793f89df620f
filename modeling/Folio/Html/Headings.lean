import Folio.Html.Node
import Folio.Slug

set_option autoImplicit false

/-! # Headings of a document

The three things done with headings: those without an id get one, made from their text and different
from every id a heading has; each heading with an id gets a link to itself as its first child; and
the list of all headings is collected. Each is one walk over the tree in document order. -/

namespace Folio.Html

/-- The depth of a heading element. -/
def headingDepth? : String → Option Nat
  | "h1" => some 1
  | "h2" => some 2
  | "h3" => some 3
  | "h4" => some 4
  | "h5" => some 5
  | "h6" => some 6
  | _ => none

/-- Whether an element is a heading. -/
def isHeading (name : String) : Bool :=
  (headingDepth? name).isSome

/-- The id of an element, empty if it has none. -/
def idOf (attributes : List (String × String)) : String :=
  (attribute? attributes "id").getD ""

/-! ## Giving ids -/

mutual

/-- Reserve the ids that the headings of a node have. -/
def Node.reserveIds (slugger : Slugger) : Node → Slugger
  | .element name attributes children =>
    let id := idOf attributes
    let slugger := if isHeading name && id ≠ "" then slugger.reserve id else slugger
    reserveIdsList slugger children
  | _ => slugger

/-- Reserve the ids that the headings of a document have. -/
def reserveIdsList (slugger : Slugger) : Forest → Slugger
  | [] => slugger
  | node :: rest => reserveIdsList (node.reserveIds slugger) rest

end

mutual

/-- Give an id to each heading of a node that has none. -/
def Node.giveIds (slugger : Slugger) : Node → Node × Slugger
  | .element name attributes children =>
    let (attributes, slugger) :=
      if isHeading name && idOf attributes = "" then
        let (id, slugger) := slugger.slug (plainTextList children)
        (setAttribute "id" id attributes, slugger)
      else (attributes, slugger)
    let (children, slugger) := giveIdsList slugger children
    (.element name attributes children, slugger)
  | node => (node, slugger)

/-- Give an id to each heading of a document that has none. -/
def giveIdsList (slugger : Slugger) : Forest → Forest × Slugger
  | [] => ([], slugger)
  | node :: rest =>
    let (node, slugger) := node.giveIds slugger
    let (rest, slugger) := giveIdsList slugger rest
    (node :: rest, slugger)

end

/-- Give an id to each heading that has none. All ids that headings have are reserved first, so that
    none is given twice. -/
def assignHeadingIds (forest : Forest) : Forest :=
  (giveIdsList (reserveIdsList {} forest) forest).1

/-! ## Linking headings to themselves -/

/-- The link of a heading to itself. -/
def headingAnchor (id : String) : Node :=
  .element "a" [("aria-hidden", "true"), ("tabindex", "-1"), ("href", "#" ++ id)]
    [.element "span" [("class", "icon icon-link")] []]

mutual

/-- Put a link to itself in front of each heading of a node that has an id. -/
def Node.linkHeadings : Node → Node
  | .element name attributes children =>
    let children := linkHeadingsList children
    let id := idOf attributes
    if isHeading name && id ≠ "" then .element name attributes (headingAnchor id :: children)
    else .element name attributes children
  | node => node

/-- Put a link to itself in front of each heading of a document that has an id. -/
def linkHeadingsList : Forest → Forest
  | [] => []
  | node :: rest => node.linkHeadings :: linkHeadingsList rest

end

/-! ## Collecting headings -/

/-- A heading as the outline of a page lists it. -/
structure Heading where
  depth : Nat
  text : String
  id : String
deriving Repr, DecidableEq

mutual

/-- The headings of a node in document order. -/
def Node.headings : Node → List Heading
  | .element name attributes children =>
    match headingDepth? name with
    | some depth => ⟨depth, directText children, idOf attributes⟩ :: headingsList children
    | none => headingsList children
  | _ => []

/-- The headings of a document in document order. -/
def headingsList : Forest → List Heading
  | [] => []
  | node :: rest => node.headings ++ headingsList rest

end

end Folio.Html

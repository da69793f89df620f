import Folio.Html.Token

set_option autoImplicit false

/-! # Trees that are rearranged while they are built

The HTML standard moves elements about while it reads: a misplaced text goes before its table, a
block takes over the children of a formatting element. So the tree under construction is a table of
*cells* that name their parent and their children, and the finished tree is read off at the end. -/

namespace Folio.Html

/-- The vocabularies that a page can mix. -/
inductive Vocabulary where
  | html
  | svg
  | math
deriving Repr, DecidableEq

/-- A node of a finished tree. Comments are not kept. -/
inductive FragmentNode where
  | element (vocabulary : Vocabulary) (name : String) (attributes : List (String × String))
      (children : List FragmentNode)
  | text (content : String)
deriving Repr

namespace Fragment

/-- The number of a cell. -/
abbrev CellId := Nat

/-- What a cell is. -/
inductive CellKind where
  | element (vocabulary : Vocabulary) (name : String) (attributes : List (String × String))
  /-- A text, last character first. -/
  | text (content : List Char)
deriving Repr

/-- A node of the tree under construction. -/
structure Cell where
  kind : CellKind
  parent : Option CellId := none
  /-- The children, last one first. -/
  children : List CellId := []
deriving Repr

/-- The tree under construction. Cell 0 is its root. -/
structure Cells where
  table : Array Cell

/-- Where a new node goes. -/
inductive Place where
  /-- After the last child of a cell. -/
  | lastIn (parent : CellId)
  /-- Right before a sibling. -/
  | before (sibling : CellId)

namespace Cells

/-- The vocabulary of an element, if the cell is one. -/
def vocabulary? (cells : Cells) (i : CellId) : Option Vocabulary :=
  match cells.table[i]? with
  | some ⟨.element v _ _, _, _⟩ => some v
  | _ => none

/-- The name of an element; empty for a text. -/
def name (cells : Cells) (i : CellId) : String :=
  match cells.table[i]? with
  | some ⟨.element _ n _, _, _⟩ => n
  | _ => ""

/-- The attributes of an element. -/
def attributes (cells : Cells) (i : CellId) : List (String × String) :=
  match cells.table[i]? with
  | some ⟨.element _ _ a, _, _⟩ => a
  | _ => []

/-- Whether a cell is an element of HTML with one of some names. -/
def isHtml (cells : Cells) (names : List String) (i : CellId) : Bool :=
  cells.vocabulary? i == some .html && names.contains (cells.name i)

/-- The parent of a cell. -/
def parent? (cells : Cells) (i : CellId) : Option CellId :=
  cells.table[i]?.bind (·.parent)

/-- The children of a cell, last one first. -/
def childrenReversed (cells : Cells) (i : CellId) : List CellId :=
  (cells.table[i]?.map (·.children)).getD []

/-- Change a cell. -/
def modify (cells : Cells) (i : CellId) (f : Cell → Cell) : Cells :=
  ⟨cells.table.modify i f⟩

/-- Add a cell that stands nowhere yet. -/
def add (cells : Cells) (kind : CellKind) : CellId × Cells :=
  (cells.table.size, ⟨cells.table.push ⟨kind, none, []⟩⟩)

/-- Change the children of a cell. -/
def modifyChildren (cells : Cells) (i : CellId) (f : List CellId → List CellId) : Cells :=
  cells.modify i fun cell => { cell with children := f cell.children }

/-- Take a cell out of its parent. -/
def detach (cells : Cells) (i : CellId) : Cells :=
  match cells.parent? i with
  | none => cells
  | some p =>
    (cells.modifyChildren p (·.filter (· != i))).modify i fun cell => { cell with parent := none }

/-- Put `i` after `j` in a list that runs backwards: in document order, right before `j`. -/
def insertAfter (j i : CellId) : List CellId → List CellId
  | [] => [i]
  | k :: ks => if k = j then k :: i :: ks else k :: insertAfter j i ks

/-- Move a cell to a place. -/
def attach (cells : Cells) (place : Place) (i : CellId) : Cells :=
  let cells := cells.detach i
  let under (p : CellId) (f : List CellId → List CellId) : Cells :=
    (cells.modifyChildren p f).modify i fun cell => { cell with parent := some p }
  match place with
  | .lastIn p => under p (i :: ·)
  | .before s =>
    match cells.parent? s with
    | some p => under p (insertAfter s i)
    | none => cells

/-- The cell that stands right before a place. -/
def neighbour? (cells : Cells) : Place → Option CellId
  | .lastIn p => (cells.childrenReversed p).head?
  | .before s =>
    match cells.parent? s with
    | some p => ((cells.childrenReversed p).dropWhile (· != s))[1]?
    | none => none

/-- Put a character at a place: at the end of a text that stands there, or as a new text. -/
def attachChar (cells : Cells) (place : Place) (c : Char) : Cells :=
  let newText : Cells :=
    let (i, cells) := cells.add (.text [c])
    cells.attach place i
  match cells.neighbour? place with
  | none => newText
  | some i =>
    match cells.table[i]? with
    | some ⟨.text content, _, _⟩ =>
      cells.modify i fun cell => { cell with kind := .text (c :: content) }
    | _ => newText

/-- Move all children of one cell to the end of another. -/
def moveChildren (cells : Cells) (source target : CellId) : Cells :=
  (cells.childrenReversed source).reverse.foldl (fun cells i => cells.attach (.lastIn target) i) cells

/-- The finished children of a cell. `fuel` is more than the depth of the tree. -/
def finish (cells : Cells) : Nat → CellId → List FragmentNode
  | 0, _ => []
  | fuel + 1, i =>
    (cells.childrenReversed i).reverse.filterMap fun j : CellId =>
      match cells.table[j]? with
      | some ⟨.text content, _, _⟩ => some (.text (String.ofList content.reverse))
      | some ⟨.element v n a, _, _⟩ => some (.element v n a (cells.finish fuel j))
      | none => none

end Cells

end Fragment

end Folio.Html

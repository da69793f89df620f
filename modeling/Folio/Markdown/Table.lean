import Folio.Markdown.Block
import Folio.Markdown.Line

set_option autoImplicit false

/-! # Tables

A table begins with a row of headers and a line that says how the columns are set. Cells are separated
by bars; a bar after a backslash belongs to the cell. -/

namespace Folio.Markdown.Table

/-- Add a character to the first cell. -/
def addToFirst (c : Char) : List (List Char) → List (List Char)
  | [] => [[c]]
  | cell :: cells => (c :: cell) :: cells

/-- Cut a row at its bars. -/
def cutCells : List Char → List (List Char)
  | [] => [[]]
  | '|' :: cs => [] :: cutCells cs
  | '\\' :: '|' :: cs => addToFirst '|' (cutCells cs)
  | c :: cs => addToFirst c (cutCells cs)

/-- The cells of a row. Nothing stands before a bar that begins the row or after one that ends it. -/
def rowCells (row : List Char) : List (List Char) :=
  let cells := cutCells (Text.trimBlanks row)
  let cells := match cells with
    | [] :: rest => rest
    | cells => cells
  if cells.getLast?.any List.isEmpty then cells.dropLast else cells

/-- How a column is set, from its cell in the second line. -/
def alignment? (cell : List Char) : Option Alignment :=
  let (left, marks) : Bool × List Char := match cell with
    | ':' :: rest => (true, rest)
    | rest => (false, rest)
  let (right, marks) : Bool × List Char :=
    if marks.getLast? = some ':' then (true, marks.dropLast) else (false, marks)
  if marks.isEmpty || marks.any (· != '-') then none
  else some (match left, right with
    | true, true => .center
    | true, false => .left
    | false, true => .right
    | false, false => .none)

/-- How the columns are set, from the cells of the second line. Only the first and the last cell may be
    empty: nothing stands there. -/
def alignments? (cells : List (List Char)) : Option (List Alignment) :=
  let inner : List (List Char) := match cells with
    | first :: rest => if first.isEmpty then rest else cells
    | [] => []
  let inner := if 1 < cells.length ∧ inner.getLast?.any List.isEmpty then inner.dropLast else inner
  inner.mapM alignment?

/-- Whether a line may say how columns are set: by its characters, and so that it is no item of a
    list. -/
def mayAlign (cs : List Char) : Bool :=
  let isMark (c : Char) : Bool := c == '|' || c == '-' || c == ':'
  match cs with
  | first :: second :: rest =>
    isMark first && (isMark second || isSpace second) && !(first == '-' && isSpace second) &&
      rest.all fun c => isMark c || isSpace c
  | _ => false

/-- The columns of a table whose first two lines these are: how each is set, and its header. -/
def columns? (header setting : List Char) : Option (List (Cell (List Char))) :=
  if !mayAlign setting || !header.contains '|' then none
  else
    match alignments? ((Text.cutAt '|' setting).map Text.trimBlanks) with
    | none => none
    | some alignments =>
      let cells := rowCells header
      if cells.isEmpty || cells.length != alignments.length then none
      else some (List.zipWith (fun a cell => ⟨a, Text.trimBlanks cell⟩) alignments cells)

/-- A row below these headers. Missing cells are empty, and what is too much is dropped. -/
def rowUnder : List (Cell (List Char)) → List (List Char) → List (Cell (List Char))
  | [], _ => []
  | column :: columns, cells =>
    ⟨column.alignment, Text.trimBlanks (cells.headD [])⟩ :: rowUnder columns cells.tail

end Folio.Markdown.Table

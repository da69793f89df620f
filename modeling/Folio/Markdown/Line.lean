import Folio.Markdown.Character

set_option autoImplicit false

/-! # Lines and their indentation

A block of a text is a run of lines. What a line is depends on the blocks around it: a quote or an item
of a list takes its marker from the front. So a line knows the text that is left of it, how much of
that is indentation, and in which column the text starts; a tab reaches to the next column that is a
multiple of four. -/

namespace Folio.Markdown

/-- A line, as the blocks around it leave it. -/
structure Line where
  text : List Char
  /-- How many characters of the text are taken for indentation. -/
  shift : Nat
  /-- The column in which the content starts, or −1 if the line only continues a paragraph. -/
  indent : Int
  /-- The column in which the text starts, as far as tabs are concerned. -/
  base : Nat
  /-- Whether a line end follows. -/
  ended : Bool
deriving Repr

namespace Line

/-- The text after the indentation. -/
def content (line : Line) : List Char :=
  line.text.drop line.shift

/-- Whether nothing stands on the line. -/
def isEmpty (line : Line) : Bool :=
  line.text.length ≤ line.shift

/-- The column after some spaces and tabs, given the column before them. -/
def columnAfter (base : Nat) : Nat → List Char → Nat
  | column, [] => column
  | column, c :: cs =>
    columnAfter base (if c = '\t' then column + (4 - (column + base) % 4) else column + 1) cs

/-- A line of a source text. -/
def ofText (ended : Bool) (text : List Char) : Line :=
  let blanks := text.takeWhile isSpace
  ⟨text, blanks.length, columnAfter 0 0 blanks, 0, ended⟩

/-- The lines of a source text. A last line of spaces without an end is none. -/
def ofSource (cs : List Char) : List Line :=
  let pieces := Text.cutAt '\n' cs
  let last := pieces.getLast?.getD []
  (pieces.dropLast.map (ofText true)) ++ (if last.all isSpace then [] else [ofText false last])

/-- Take columns of indentation from the front of a text: the column that is reached, and the rest.
    `place` counts the characters taken. -/
def cutColumns (shift base limit : Nat) : Nat → Nat → List Char → Nat × List Char
  | _, column, [] => (column, [])
  | place, column, c :: cs =>
    if limit ≤ column then (column, c :: cs)
    else if c = '\t' then
      cutColumns shift base limit (place + 1) (column + (4 - (column + base) % 4)) cs
    else if c = ' ' ∨ place < shift then cutColumns shift base limit (place + 1) (column + 1) cs
    else (column, c :: cs)

/-- The text without so many columns of indentation. A tab that is cut leaves spaces. -/
def withoutIndent (limit : Nat) (line : Line) : List Char :=
  let (column, rest) := cutColumns line.shift line.base limit 0 0 line.text
  List.replicate (column - limit) ' ' ++ rest

/-- The text of some lines without so many columns of indentation, with the end of the last one. -/
def joinWithEnd (limit : Nat) (lines : List Line) : List Char :=
  lines.flatMap fun line => line.withoutIndent limit ++ (if line.ended then ['\n'] else [])

/-- The text of some lines without so many columns of indentation. -/
def join (limit : Nat) (lines : List Line) : List Char :=
  ['\n'].intercalate (lines.map (withoutIndent limit))

end Line

end Folio.Markdown

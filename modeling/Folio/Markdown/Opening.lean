import Folio.Markdown.HtmlTag
import Folio.Markdown.LinkSyntax
import Folio.Markdown.Table

set_option autoImplicit false

/-! # How blocks open

What kind of block a line opens can be told from the line itself, and for a table from the line after
it. Some kinds also open in the middle of another block and so end it. -/

namespace Folio.Markdown

/-- Where a line stands among the blocks around it. -/
structure Place where
  /-- The column that a line has to reach to belong here. -/
  indent : Nat := 0
  /-- The column in which the markers of the innermost list stand. -/
  listIndent : Option Nat := none
  /-- How many blocks are open. -/
  depth : Nat := 0
  /-- Whether HTML is HTML, and not text. -/
  allowsHtml : Bool
deriving Repr

namespace Opening

/-- Whether a line is indented so far that it is code. -/
def isCode (p : Place) (line : Line) : Bool :=
  decide ((p.indent : Int) + 4 ≤ line.indent)

/-- How a fence opens. -/
structure Fence where
  mark : Char
  length : Nat
  info : List Char

/-- The fence that a line opens. -/
def fence? (p : Place) (line : Line) : Option Fence :=
  if isCode p line then none
  else match line.content with
    | [] => none
    | c :: cs =>
      if c != '~' && c != '\x60' then none
      else
        let length := ((c :: cs).takeWhile (· == c)).length
        let info := (c :: cs).drop length
        if length < 3 || (c == '\x60' && info.contains c) then none else some ⟨c, length, info⟩

/-- Whether a line closes a fence. -/
def closesFence (p : Place) (fence : Fence) (line : Line) : Bool :=
  let cs := line.content
  let length := (cs.takeWhile (· == fence.mark)).length
  !isCode p line && fence.length ≤ length && (cs.drop length).all isSpace

/-- Whether a line opens a quote. -/
def isQuote (p : Place) (line : Line) : Bool :=
  !isCode p line && line.content.head? == some '>'

/-- Whether a line is a rule: at least three equal marks. -/
def isRule (p : Place) (line : Line) : Bool :=
  match line.content with
  | [] => false
  | c :: cs =>
    !isCode p line && (c == '*' || c == '-' || c == '_') &&
      cs.all (fun d => d == c || isSpace d) && 2 ≤ cs.count c

/-- The marker of an item of a list: its number if it has one, its last character, and how long it
    is. -/
structure Marker where
  number : Option Nat
  mark : Char
  length : Nat

/-- The marker at the start of a line. -/
def marker? (cs : List Char) : Option Marker :=
  let endsMarker (rest : List Char) : Bool := rest.head?.all isSpace
  let digits := cs.takeWhile Text.isAsciiDigit
  match digits, cs.drop digits.length with
  | [], c :: rest =>
    if (c == '*' || c == '-' || c == '+') && endsMarker rest then some ⟨none, c, 1⟩ else none
  | digits, c :: rest =>
    if digits.length ≤ 9 && (c == ')' || c == '.') && endsMarker rest then
      some ⟨some (Text.decimalValue digits), c, digits.length + 1⟩
    else none
  | _, [] => none

/-- The marker of the list that a line opens. In the middle of a paragraph a list opens only with text,
    and a number has to be 1. -/
def list? (p : Place) (inParagraph : Bool) (line : Line) : Option Marker :=
  let isDeeper : Bool := match p.listIndent with
    | some column => decide ((column : Int) + 4 ≤ line.indent ∧ line.indent < p.indent)
    | none => false
  if isCode p line || isDeeper then none
  else match marker? line.content with
    | none => none
    | some m =>
      if inParagraph && decide ((p.indent : Int) ≤ line.indent) then
        if m.number.any (· != 1) || (line.content.drop m.length).all isSpace then none else some m
      else some m

/-- The block of HTML that a line opens. -/
def html? (p : Place) (line : Line) : Option HtmlTag.BlockKind :=
  if isCode p line || !p.allowsHtml then none else HtmlTag.blockKind? line.content

/-- The text of a heading without the number signs that may close it. -/
def cutClosingSigns (cs : List Char) : List Char :=
  let back := cs.reverse.dropWhile isSpace
  let before := back.dropWhile (· == '#')
  match before with
  | c :: _ => if isSpace c then before.reverse else back.reverse
  | [] => back.reverse

/-- The level and the text of the heading that a line is. -/
def heading? (p : Place) (line : Line) : Option (Nat × List Char) :=
  let cs := line.content
  let level := (cs.takeWhile (· == '#')).length
  let rest := cs.drop level
  if isCode p line || level == 0 || 6 < level || !rest.head?.all isSpace then none
  else some (level, trimEdges (cutClosingSigns rest))

/-- The headers of the table that opens with a line and the one after it. -/
def table? (p : Place) (line next : Line) : Option (List (Cell (List Char))) :=
  if decide (next.indent < p.indent) || isCode p next || isCode p line then none
  else Table.columns? line.content next.content

/-- The level of a heading that a line underlines. -/
def underline? (cs : List Char) : Option Nat :=
  match cs with
  | c :: rest =>
    if (c == '-' || c == '=') && (rest.dropWhile (· == c)).all isSpace then
      some (if c = '=' then 1 else 2)
    else none
  | [] => none

/-- What a line may end by opening a block. -/
inductive Interruptible where
  | paragraph
  | definition
  | quote
  | list
deriving DecidableEq

/-- Whether the first of some lines opens a block that ends another one. -/
def interrupts (p : Place) (what : Interruptible) (line : Line) (after : List Line) : Bool :=
  let inText := what = .paragraph ∨ what = .definition
  (inText && after.head?.any fun next => (table? p line next).isSome) || (fence? p line).isSome ||
    isQuote p line || isRule p line ||
    (what != .list && ((list? p (what == .paragraph) line).isSome ||
      (match html? p line with
        | some (.untilEmpty endsParagraph) => endsParagraph
        | some (.untilText _) => true
        | none => false) ||
      (heading? p line).isSome))

end Opening

end Folio.Markdown

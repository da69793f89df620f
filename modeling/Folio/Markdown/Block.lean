import Folio.Markdown.Phrase

set_option autoImplicit false

/-! # Blocks

A Markdown text is a sequence of blocks, some of which hold blocks themselves. The running text in a
block is a parameter: first it is what was written, then the pieces it consists of. -/

namespace Folio.Markdown

/-- How the cells of a column are set. -/
inductive Alignment where
  | none
  | left
  | right
  | center
deriving Repr, DecidableEq

/-- A cell of a table. -/
structure Cell (α : Type) where
  alignment : Alignment
  content : α
deriving Repr

/-- Where a list gets its markers from. -/
inductive ListKind where
  | bullets
  | numbers (first : Nat)
deriving Repr, DecidableEq

/-- A block. -/
inductive Block (α : Type) where
  /-- A paragraph; a tight one has no element of its own. -/
  | paragraph (tight : Bool) (content : α)
  | heading (level : Nat) (content : α)
  | code (content : List Char)
  | fence (info content : List Char)
  | html (content : List Char)
  | rule
  | quote (blocks : List (Block α))
  /-- A list: for each item whether it is a task, and its blocks. -/
  | list (kind : ListKind) (items : List (Bool × List (Block α)))
  | table (header : List (Cell α)) (rows : List (List (Cell α)))
deriving Repr

namespace Block

/-! ## Tasks -/

/-- Whether the text of an item begins with a box. -/
def startsWithBox (cs : List Char) : Bool :=
  match cs with
  | '[' :: c :: ']' :: d :: _ =>
    (c == ' ' || c == 'x' || c == 'X' || c == ']') && (d == ' ' || d.toNat == 0xA0)
  | _ => false

/-- The box for the text of an item. -/
def box (cs : List Char) : List Char :=
  if Text.startsWith "[ ] " cs then
    "<input class=\"task-list-item-checkbox\" disabled=\"disabled\" type=\"checkbox\">".toList
  else if Text.startsWith "[x] " cs || Text.startsWith "[X] " cs then
    String.toList (String.join ["<input class=\"task-list-item-checkbox\" checked=\"checked\" ",
      "disabled=\"disabled\" type=\"checkbox\">"])
  else []

/-- Take the three characters of a box from the first piece of a text. -/
def dropBox (pieces : List Piece) : List Piece :=
  match pieces with
  | .text content :: rest => .text (content.drop 3) :: rest
  | .escaped content :: rest => .escaped (content.drop 3) :: rest
  | _ => pieces

/-! ## Running text -/

/-- The item of a list with these blocks, given what is read in them. An item whose text begins with a
    box is a task. -/
def itemOf (r : Reading) (isTask : Bool) (written : List (Block (List Char)))
    (blocks : List (Block (List Piece))) : Bool × List (Block (List Piece)) :=
  match written, blocks with
  | .paragraph tight content :: _, _ :: more =>
    if startsWithBox content then
      let pieces := .html (box content) :: dropBox (Phrase.read r content)
      (true, .paragraph tight (Piece.linkAddresses (content.drop 3) pieces) :: more)
    else (isTask, blocks)
  | _, _ => (isTask, blocks)

mutual

/-- Read the running text in a block. -/
def readText (r : Reading) : Block (List Char) → Block (List Piece)
  | .paragraph tight content => .paragraph tight (Phrase.readLinked r content)
  | .heading level content => .heading level (Phrase.readLinked r content)
  | .code content => .code content
  | .fence info content => .fence info content
  | .html content => .html content
  | .rule => .rule
  | .quote blocks => .quote (readTextAll r blocks)
  | .list kind items => .list kind (readTextItems r items)
  | .table header rows =>
    let cell (c : Cell (List Char)) : Cell (List Piece) :=
      ⟨c.alignment, Phrase.readLinked r c.content⟩
    .table (header.map cell) (rows.map (·.map cell))

/-- Read the running text in some blocks. -/
def readTextAll (r : Reading) : List (Block (List Char)) → List (Block (List Piece))
  | [] => []
  | b :: rest => readText r b :: readTextAll r rest

/-- Read the running text in some items. -/
def readTextItems (r : Reading) :
    List (Bool × List (Block (List Char))) → List (Bool × List (Block (List Piece)))
  | [] => []
  | (isTask, blocks) :: rest =>
    itemOf r isTask blocks (readTextAll r blocks) :: readTextItems r rest

end

/-! ## Writing -/

/-- The style of a cell, as an attribute. -/
def printAlignment : Alignment → List Char
  | .none => []
  | .left => Piece.printAttribute "style" "text-align:left".toList
  | .right => Piece.printAttribute "style" "text-align:right".toList
  | .center => Piece.printAttribute "style" "text-align:center".toList

/-- A row of a table. -/
def printRow (element : String) (cells : List (Cell (List Piece))) : List Char :=
  "<tr>\n".toList ++ (cells.flatMap fun c =>
    ("<" ++ element).toList ++ printAlignment c.alignment ++ ['>'] ++ Piece.printAll c.content ++
      ("</" ++ element ++ ">\n").toList) ++ "</tr>\n".toList

/-- A block of code between fences. The first word after the fence names its language. -/
def printFence (info content : List Char) : List Char :=
  let info := Text.trimBlanks (unescape info)
  let language := info.takeWhile (!Text.isBlank ·)
  "<pre><code".toList ++
    (if info.isEmpty then [] else Piece.printAttribute "class" ("language-".toList ++ language)) ++
    ['>'] ++ escapeHtml content ++ "</code></pre>\n".toList

/-- The start tag of a list. -/
def printListStart (kind : ListKind) (hasTask : Bool) : List Char :=
  let tasks := if hasTask then Piece.printAttribute "class" "contains-task-list".toList else []
  match kind with
  | .bullets => "<ul".toList ++ tasks ++ ">\n".toList
  | .numbers first =>
    "<ol".toList ++
      (if first = 1 then [] else Piece.printAttribute "start" (toString first).toList) ++ tasks ++
      ">\n".toList

/-- The end tag of a list. -/
def printListEnd : ListKind → List Char
  | .bullets => "</ul>\n".toList
  | .numbers _ => "</ol>\n".toList

/-- Whether a block is written as text, with no element around it. -/
def isBare : Block (List Piece) → Bool
  | .paragraph tight _ => tight
  | _ => false

/-- Whether a block that follows a bare paragraph begins on a line of its own. -/
def breaksLine : Block (List Piece) → Bool
  | .code _ | .fence _ _ | .html _ => false
  | .paragraph tight _ => !tight
  | _ => true

mutual

/-- A block as it is written into a page. -/
def print : Block (List Piece) → List Char
  | .paragraph true content => Piece.printAll content
  | .paragraph false content => "<p>".toList ++ Piece.printAll content ++ "</p>\n".toList
  | .heading level content =>
    ("<h" ++ toString level ++ ">").toList ++ Piece.printAll content ++
      ("</h" ++ toString level ++ ">\n").toList
  | .code content => "<pre><code>".toList ++ escapeHtml content ++ "</code></pre>\n".toList
  | .fence info content => printFence info content
  | .html content => content
  | .rule => "<hr />\n".toList
  | .quote blocks =>
    (if blocks.isEmpty then "<blockquote>".toList else "<blockquote>\n".toList) ++
      printAll false blocks ++ "</blockquote>\n".toList
  | .list kind items =>
    printListStart kind (items.any (·.1)) ++ printItems items ++ printListEnd kind
  | .table header rows =>
    "<table>\n<thead>\n".toList ++ printRow "th" header ++ "</thead>\n".toList ++
      (if rows.isEmpty then []
      else "<tbody>\n".toList ++ rows.flatMap (printRow "td") ++ "</tbody>\n".toList) ++
      "</table>\n".toList

/-- Some blocks as they are written into a page. The flag says whether a bare paragraph stands
    before them. -/
def printAll (afterBare : Bool) : List (Block (List Piece)) → List Char
  | [] => []
  | b :: rest =>
    (if afterBare && breaksLine b then ['\n'] else []) ++ print b ++ printAll (isBare b) rest

/-- The items of a list as they are written into a page. -/
def printItems : List (Bool × List (Block (List Piece))) → List Char
  | [] => []
  | (isTask, blocks) :: rest =>
    "<li".toList ++
      (if isTask then Piece.printAttribute "class" "task-list-item".toList else []) ++
      (match blocks with
        | [] => ['>']
        | b :: _ => if isBare b then ['>'] else ">\n".toList) ++
      printAll false blocks ++ "</li>\n".toList ++ printItems rest

end

end Block

end Folio.Markdown

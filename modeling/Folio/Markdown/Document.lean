import Folio.Markdown.Opening
import Folio.Url.Link

set_option autoImplicit false

/-! # Reading a document

The lines of a document are read into blocks from the first one to the last. The lines in a quote or in
an item of a list are read in the same way, without what marks them. A block is read from the lines
that are left, and says how many of them it takes. -/

namespace Folio.Markdown

namespace Document

open Opening

/-- What is read from some lines. -/
structure Found where
  blocks : List (Block (List Char)) := []
  definitions : List LinkSyntax.Definition := []
  /-- How many lines it takes. -/
  size : Nat
  /-- Whether no empty line stands before the last block. -/
  tight : Bool := true

/-! ## Blocks of lines -/

/-- The lines of a block of code, given those after its first one: empty lines belong to it if code
    follows. -/
def codeLines (p : Place) (lines : List Line) : List Line :=
  let run := lines.takeWhile fun line => line.isEmpty || isCode p line
  (run.reverse.dropWhile Line.isEmpty).reverse

/-- The lines in a fence, given those after its first one, and whether the fence is closed. -/
def fenceLines (p : Place) (fence : Fence) : List Line → List Line × Bool
  | [] => ([], false)
  | line :: lines =>
    if !line.isEmpty && decide (line.indent < p.indent) then ([], false)
    else if closesFence p fence line then ([], true)
    else
      let (inside, closed) := fenceLines p fence lines
      (line :: inside, closed)

/-- The lines of a block of HTML, given those after its first one. -/
def htmlLines (p : Place) (kind : HtmlTag.BlockKind) : List Line → List Line
  | [] => []
  | line :: lines =>
    if line.indent < p.indent then []
    else if kind.endsAt line.content then (if line.content.isEmpty then [] else [line])
    else line :: htmlLines p kind lines

/-- The lines of a paragraph or of a definition, given those after its first one. -/
def textLines (p : Place) (what : Interruptible) : List Line → List Line
  | [] => []
  | line :: lines =>
    if line.isEmpty then []
    else if isCode p line || decide (line.indent < 0) || !interrupts p what line lines then
      line :: textLines p what lines
    else []

/-- The lines of a heading that is underlined, given those after its first one, and its level. -/
def underlined? (p : Place) : List Line → Option (List Line × Nat)
  | [] => none
  | line :: lines =>
    if line.isEmpty then none
    else
      let level :=
        if isCode p line || decide (line.indent < p.indent) then none else underline? line.content
      match level with
      | some level => some ([], level)
      | none =>
        if isCode p line || decide (line.indent < 0) || !interrupts p .paragraph line lines then
          (underlined? p lines).map fun (before, level) => (line :: before, level)
        else none

/-- The rows of a table, given the lines after its second one. -/
def tableLines (p : Place) : List Line → List Line
  | [] => []
  | line :: lines =>
    if decide (line.indent < p.indent) || interrupts p .quote line lines ||
        (Text.trimBlanks line.content).isEmpty || isCode p line then []
    else line :: tableLines p lines

/-- The line after the mark of a quote. One blank after the mark belongs to it; of a tab that is
    wider, the rest remains. -/
def withoutQuoteMark (line : Line) : Line :=
  let start := line.indent.toNat + 1
  let rest := line.content.drop 1
  let (text, initial, widened, spaced) : List Char × Nat × Nat × Nat := match rest with
    | ' ' :: after => (after, start + 1, 0, 1)
    | '\t' :: after => if (line.base + start) % 4 = 3 then (after, start + 1, 0, 1) else (rest, start, 1, 1)
    | _ => (rest, start, 0, 0)
  let blanks := text.takeWhile isSpace
  let column := Line.columnAfter (line.base + widened) initial blanks
  ⟨text, blanks.length, (column : Int) - initial, start + spaced, line.ended⟩

/-- The lines in a quote, given those after its first one. A paragraph in it may go on in lines without
    a mark. -/
def quoteLines (p : Place) : Bool → List Line → List Line
  | _, [] => []
  | afterEmpty, line :: lines =>
    if line.isEmpty then []
    else if decide ((p.indent : Int) ≤ line.indent) && line.content.head? == some '>' then
      let line := withoutQuoteMark line
      line :: quoteLines p line.isEmpty lines
    else if afterEmpty || interrupts p .quote line lines then []
    else { line with indent := -1 } :: quoteLines p afterEmpty lines

/-! ## Definitions -/

/-- Skip blanks and line ends. A line ends the text that is left, and the next one of the lines takes
    its place. -/
def skipGap : List Char → List (List Char) → List Char × List (List Char)
  | cs, [] => (LinkSyntax.skipGap cs, [])
  | cs, next :: lines =>
    match cs.dropWhile isSpace with
    | '\n' :: _ => skipGap next lines
    | rest => (rest, next :: lines)

/-- The text of a line from its content to its end. -/
def contentWithEnd (line : Line) : List Char :=
  line.content ++ (if line.ended then ['\n'] else [])

/-- What stands after the address of a definition. -/
inductive Ending where
  /-- A title, and the lines after it. -/
  | title (text : List Char) (lines : List (List Char))
  /-- No title. -/
  | plain
  /-- A title without text, and more after it. -/
  | spoiled

/-- The end of a definition, given what follows the address. A title stands apart from the address, and
    nothing stands after it. -/
def readEnding (afterAddress : List Char) (lines : List (List Char)) : Ending :=
  let (rest, left) := skipGap afterAddress lines
  let stands := rest.length != afterAddress.length || left.length != lines.length
  let text := rest ++ left.flatten
  match LinkSyntax.title? text with
  | some (title, after) =>
    let taken := text.take (text.length - after.length)
    if !stands then .plain
    else if LinkSyntax.endsLine after then .title title (left.drop (taken.count '\n'))
    else if title.isEmpty then .spoiled
    else .plain
  | none => .plain

/-- The definition that stands at the start of some lines, and how many of them it takes. -/
def definition? (p : Place) (line : Line) (after : List Line) :
    Option (LinkSyntax.Definition × Nat) := do
  let lines := (line :: textLines p .definition after).map contentWithEnd
  if isCode p line || line.content.head? != some '[' then none
  let (label, rest) ← LinkSyntax.cutLabel? (lines.flatten.drop 1)
  let rest ← Text.dropPrefix? [':'] rest
  let lines := lines.drop (label.count '\n')
  let here := rest.take ((rest.takeWhile (· != '\n')).length + 1)
  let (rest, left) := skipGap here (lines.drop 1)
  let (address, rest) ← LinkSyntax.destination? rest
  let address := Url.Link.normalize address
  if !Url.Link.isAllowed address then none
  let (title, left) ←
    match readEnding rest left with
    | .title title lines => some (title, lines)
    | .plain => if LinkSyntax.endsLine rest then some ([], left) else none
    | .spoiled => none
  let label := foldLabel label
  if label.isEmpty then none
  let size := (textLines p .definition after).length + 1 - left.length
  return (⟨label, address, title⟩, size)

/-! ## Blocks -/

/-- A line of a list after its marker, and the column from which lines belong to the item. -/
def withoutMarker (m : Marker) (line : Line) : Line × Nat :=
  let initial := line.indent.toNat + m.length
  let rest := line.content.drop m.length
  let blanks := rest.takeWhile isSpace
  let column := Line.columnAfter line.base initial blanks
  let isWide := blanks.length = rest.length ∨ initial + 4 < column
  ({ line with shift := line.shift + m.length + blanks.length, indent := column },
    if isWide then initial + 1 else column)

/-- Take the elements from around the paragraphs of an item. -/
def tighten (blocks : List (Block (List Char))) : List (Block (List Char)) :=
  blocks.map fun
    | .paragraph _ content => .paragraph true content
    | b => b

/-- A block of plain lines: everything but quotes and lists. -/
def plainBlock (p : Place) (line : Line) (after : List Line) : Found :=
  let one (b : Block (List Char)) (size : Nat) : Found := { blocks := [b], size }
  match definition? p line after with
  | some (definition, size) => { definitions := [definition], size }
  | none =>
    match html? p line with
    | some kind =>
      let lines := line :: (if kind.endsAt line.content then [] else htmlLines p kind after)
      one (.html (Line.joinWithEnd p.indent lines)) lines.length
    | none =>
      match heading? p line with
      | some (level, text) => one (.heading level text) 1
      | none =>
        match underlined? p after with
        | some (lines, level) =>
          let text := trimEdges (Line.join p.indent (line :: lines))
          one (.heading level text) (lines.length + 2)
        | none =>
          let lines := line :: textLines p .paragraph after
          one (.paragraph false (trimEdges (Line.join p.indent lines))) lines.length

mutual

/-- Read lines until one does not belong here. `hasEmpty` tells whether an empty line has been seen
    after a block. -/
def readBlocks (p : Place) : Nat → Bool → Bool → List Line → Found
  | 0, _, tight, lines => { size := lines.length, tight }
  | fuel + 1, hasEmpty, tight, lines =>
    let gap := (lines.takeWhile Line.isEmpty).length
    match lines.drop gap with
    | [] => { size := gap, tight }
    | line :: after =>
      if line.indent < p.indent then { size := gap, tight }
      else if maxNesting ≤ p.depth then { size := lines.length, tight }
      else
        let found := readBlock p fuel line after
        let rest := (line :: after).drop found.size
        let endsEmpty := ((line :: after).drop (found.size - 1)).head?.any Line.isEmpty
        let beforeEmpty := rest.head?.any Line.isEmpty
        let rest := if beforeEmpty then rest.tail else rest
        let more := readBlocks p fuel (hasEmpty || endsEmpty || beforeEmpty) (!hasEmpty) rest
        { blocks := found.blocks ++ more.blocks
          definitions := found.definitions ++ more.definitions
          size := gap + found.size + (if beforeEmpty then 1 else 0) + more.size
          tight := more.tight }
termination_by structural fuel => fuel

/-- Read the block that opens with a line. -/
def readBlock (p : Place) : Nat → Line → List Line → Found
  | 0, _, after => { size := after.length + 1 }
  | fuel + 1, line, after =>
    let one (b : Block (List Char)) (size : Nat) : Found := { blocks := [b], size }
    match after.head?.bind (table? p line) with
    | some header =>
      let rows := tableLines p (after.drop 1)
      let cells := rows.map fun row => Table.rowUnder header (Table.rowCells row.content)
      one (.table header cells) (rows.length + 2)
    | none =>
      if isCode p line then
        let lines := line :: codeLines p after
        one (.code (Line.join (4 + p.indent) lines ++ ['\n'])) lines.length
      else match fence? p line with
        | some fence =>
          let (lines, closed) := fenceLines p fence after
          let content := Line.joinWithEnd line.indent.toNat lines
          one (.fence fence.info content) (lines.length + (if closed then 2 else 1))
        | none =>
          if isQuote p line then
            let first := withoutQuoteMark line
            let lines := first :: quoteLines p first.isEmpty after
            let inner : Place := { p with indent := 0, depth := p.depth + 1 }
            let found := readBlocks inner fuel false true lines
            { blocks := [.quote found.blocks], definitions := found.definitions
              size := found.size }
          else if isRule p line then one .rule 1
          else match list? p false line with
            | some m =>
              let (items, found) := readItems p fuel m false line after
              let kind : ListKind := match m.number with
                | some n => .numbers n
                | none => .bullets
              let items := if found.tight then items.map tighten else items
              { blocks := [.list kind (items.map fun blocks => (false, blocks))]
                definitions := found.definitions, size := found.size }
            | none => plainBlock p line after
termination_by structural fuel => fuel

/-- Read the items of a list from the first one on: the blocks of each, and what is known of all.
    `afterEmpty` tells whether the item before ends with an empty line. -/
def readItems (p : Place) : Nat → Marker → Bool → Line → List Line →
    List (List (Block (List Char))) × Found
  | 0, _, _, _, after => ([], { size := after.length + 1 })
  | fuel + 1, m, afterEmpty, line, after =>
    let (first, indent) := withoutMarker m line
    let inner : Place := { p with indent, listIndent := some p.indent, depth := p.depth + 2 }
    let found : Found :=
      if first.isEmpty && after.head?.all Line.isEmpty then { size := min 2 (after.length + 1) }
      else readBlocks inner fuel false true (first :: after)
    let tight := found.tight && !afterEmpty
    let endsEmpty :=
      1 < found.size && ((line :: after).drop (found.size - 1)).head?.any Line.isEmpty
    let stop : List (List (Block (List Char))) × Found := ([found.blocks], { found with tight })
    match (line :: after).drop found.size with
    | [] => stop
    | next :: rest =>
      if decide (next.indent < p.indent) || isCode p next || interrupts p .list next rest then stop
      else match marker? next.content with
        | none => stop
        | some m' =>
          if m'.mark != m.mark || m'.number.isSome != m.number.isSome then stop
          else
            let (items, more) := readItems p fuel m' endsEmpty next rest
            (found.blocks :: items,
              { definitions := found.definitions ++ more.definitions
                size := found.size + more.size
                tight := tight && more.tight })
termination_by structural fuel => fuel

end

end Document

/-- Line ends are line feeds, and the character with number zero has no place in a text. -/
def normalizeSource : List Char → List Char
  | [] => []
  | '\r' :: '\n' :: cs => '\n' :: normalizeSource cs
  | c :: cs =>
    (if c = '\r' then '\n' else if c.toNat = 0 then Char.ofNat 0xFFFD else c) :: normalizeSource cs

/-- Read a document into blocks. Quotes and lists nest only so deep, which bounds the steps that follow
    from one another. -/
def readDocument (allowsHtml : Bool) (source : List Char) : List (Block (List Piece)) :=
  let lines := Line.ofSource (normalizeSource source)
  let fuel := 2 * (maxNesting + 2) * (lines.length + 2)
  let found := Document.readBlocks { allowsHtml } fuel false true lines
  Block.readTextAll ⟨allowsHtml, found.definitions⟩ found.blocks

/-- A document as it is written into a page. -/
def toHtml (allowsHtml : Bool) (source : String) : String :=
  String.ofList (Block.printAll false (readDocument allowsHtml source.toList))

end Folio.Markdown

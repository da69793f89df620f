import Folio.Text.Utf8
import Folio.Yaml.Fault
import Folio.Yaml.Token

set_option autoImplicit false

/-! # Words of YAML

How directives, anchors, tags and scalars are read, each from where it begins. A reader moves the
cursor to the end of what it reads or reports a fault. -/

namespace Folio.Yaml

/-- Something that is read from the cursor on. -/
abbrev Read := StateT Cursor (Except Fault)

namespace Read

/-- The character at a distance. -/
def peek (distance : Nat := 0) : Read (Option Char) := do
  return (← get).peek distance

/-- The place that has been reached. -/
def mark : Read Mark := do
  return (← get).mark

/-- Go on by so many characters. -/
def skip (n : Nat) : Read Unit :=
  modify (Cursor.skip n)

/-- Take the characters that satisfy a condition. -/
def takeWhile (p : Char → Bool) : Read (List Char) :=
  modifyGet (Cursor.takeWhile p)

/-- Skip spaces. -/
def skipSpaces : Read Unit :=
  modify Cursor.skipSpaces

/-- Take a line end, if one stands here. -/
def lineBreak? : Read (Option Char) := do
  match (← get).lineBreak? with
  | some (c, cursor) =>
    set cursor
    return some c
  | none => return none

/-- Report a fault at the place that has been reached. -/
def fail {α : Type} (context : Context) (start : Mark) (problem : Problem) : Read α := do
  throw ⟨some (context, some start), problem, ← mark⟩

/-- Report a fault if the next character is not as it should be. -/
def expect (context : Context) (start : Mark) (expected : String) (p : Option Char → Bool) :
    Read Unit := do
  let c ← peek
  if !p c then fail context start (.unexpected expected c)

/-- Skip spaces and a comment up to the end of the line, and the end itself. -/
def restOfLine (context : Context) (start : Mark) : Read Unit := do
  skipSpaces
  if (← peek) == some '#' then modify Cursor.skipLine
  expect context start "a comment or a line break" endsLine
  let _ ← lineBreak?

/-- A number of so many digits in base 16. `what` tells what it is part of. -/
def hexNumber (context : Context) (start : Mark) (what : String) (length : Nat) : Read Nat := do
  for distance in List.range length do
    let c ← peek distance
    if !c.any Text.isHexDigit then
      let expected := what ++ " of " ++ toString length ++ " hexadecimal numbers"
      fail context start (.unexpected expected c)
  let digits := (← get).rest.take length
  skip length
  return Text.hexValue digits

/-! ## Names and addresses -/

/-- A name of at least one character. -/
def name (context : Context) (start : Mark) : Read (List Char) := do
  let name ← takeWhile isNameChar
  if name.isEmpty then fail context start (.unexpected "alphabetic or numeric character" (← peek))
  return name

/-- An anchor or an alias, from its mark on. -/
def anchorName (context : Context) : Read (List Char) := do
  let start ← mark
  skip 1
  let name ← name context start
  expect context start "alphabetic or numeric character" fun c =>
    isGap c || c.any ("?:,]\x7d%@\x60".toList.contains ·)
  return name

/-- Characters of an address. -/
def isAddressChar (c : Char) : Bool :=
  Text.isAsciiAlphanumeric c || "-;/?:@&=+$,_.!~*'()[]%".toList.contains c

/-- Some bytes, each written as a percent sign and two digits. -/
def escapedBytes (context : Context) (start : Mark) : Nat → Read (List UInt8)
  | 0 => return []
  | fuel + 1 => do
    if (← peek) != some '%' then return []
    skip 1
    let number ← hexNumber context start "URI escape sequence" 2
    let more ← escapedBytes context start fuel
    return UInt8.ofNat number :: more

/-- The characters of an address from here on. -/
def addressText (context : Context) (start : Mark) : Nat → Read (List Char)
  | 0 => return []
  | fuel + 1 => do
    let plain ← takeWhile fun c => isAddressChar c && c != '%'
    if (← peek) != some '%' then return plain
    let place ← mark
    let bytes ← escapedBytes context start (fuel + 1)
    match Text.decodeUtf8 bytes with
    | .error e => throw ⟨some (context, some start), .illFormedAddress e.message, place⟩
    | .ok cs =>
      let more ← addressText context start fuel
      return plain ++ cs ++ more

/-- An address of at least one character. Faults in its escapes have the context of what it belongs
    to. -/
def address (context missing : Context) (start : Mark) : Read (List Char) := do
  let before := (← get).mark.index
  let text ← addressText context start (← get).rest.length
  if (← get).mark.index = before then fail missing start (.unexpected "URI" (← peek))
  return text

/-- The handle of a tag: a mark alone, twice, or around a name. -/
def tagHandle (context : Context) (start : Mark) : Read (List Char) := do
  expect context start "'!'" (· == some '!')
  if (← peek 1) == some ' ' then
    skip 1
    return ['!']
  skip 1
  let name ← takeWhile isNameChar
  expect context start "'!'" (· == some '!')
  skip 1
  return '!' :: name ++ ['!']

/-- A tag, from its mark on. -/
def tag : Read TokenKind := do
  let start ← mark
  let second ← peek 1
  let kind ←
    if second == some '<' then
      skip 2
      let suffix ← address .tag .tagAddress start
      expect .tagAddress start "'>'" (· == some '>')
      skip 1
      pure (TokenKind.tag none suffix)
    else if isGap second then
      skip 1
      pure (TokenKind.tag none ['!'])
    else do
      let word := ((← get).rest.drop 1).takeWhile fun c => !endsWord (some c)
      let handle ← if word.contains '!' then tagHandle .tag start else do
        skip 1
        pure ['!']
      let suffix ← address .tag .tagAddress start
      pure (TokenKind.tag (some handle) suffix)
  expect .tag start "' '" endsWord
  return kind

/-! ## Directives -/

/-- A number in a directive. -/
def directiveNumber (start : Mark) : Read Nat := do
  expect .directive start "a digit" (·.any Text.isAsciiDigit)
  match readInteger 10 (← takeWhile Text.isAsciiDigit) with
  | .ok n => return n.toNat
  | .error cause => fail .directive start (.integer cause)

/-- A directive, from its mark on. -/
def directive : Read TokenKind := do
  let start ← mark
  skip 1
  let name ← name .directive start
  expect .directive start "alphabetic or numeric character" endsWord
  match String.ofList name with
  | "YAML" =>
    skipSpaces
    let major ← directiveNumber start
    expect .directive start "a digit or '.'" (· == some '.')
    skip 1
    let minor ← directiveNumber start
    expect .directive start "a digit or ' '" endsWord
    return .versionDirective major minor
  | "TAG" =>
    skipSpaces
    let handle ← tagHandle .directive start
    expect .directive start "' '" (· == some ' ')
    skipSpaces
    let address ← address .directive .directiveAddress start
    expect .directive start "' '" endsWord
    return .tagDirective handle address
  | _ =>
    modify Cursor.skipLine
    return .otherDirective

/-! ## Block scalars -/

/-- What becomes of the line ends at the end of a block scalar. -/
inductive Chomping where
  | strip
  | clip
  | keep
deriving Repr, DecidableEq

/-- The chomping that a mark asks for. -/
def chomping? (c : Option Char) : Option Chomping :=
  match c with
  | some '+' => some .keep
  | some '-' => some .strip
  | _ => none

/-- A digit that tells the indentation, if one stands here. -/
def indentation? (start : Mark) : Read (Option Nat) := do
  match ← peek with
  | some c =>
    if Text.isAsciiDigit c then
      if c = '0' then fail .blockScalar start .zeroIndentation
      skip 1
      return some (Text.decimalValue [c])
    else return none
  | none => return none

/-- The marks after the one that opens a block scalar, in either order. -/
def blockScalarMarks (start : Mark) : Read (Chomping × Option Nat) := do
  let marks ← match chomping? (← peek) with
    | some chomping =>
      skip 1
      let indentation ← indentation? start
      pure (chomping, indentation)
    | none =>
      match ← indentation? start with
      | none => pure (Chomping.clip, none)
      | some n =>
        match chomping? (← peek) with
        | some chomping =>
          skip 1
          pure (chomping, some n)
        | none => pure (Chomping.clip, some n)
  expect .blockScalar start "chomping or indentation indicators" endsWord
  return marks

/-- Skip spaces before a column. -/
def skipToColumn (column : Nat) : Read Unit := do
  let cursor ← get
  let spaces := (cursor.rest.takeWhile (· == ' ')).length
  skip (min spaces (column - cursor.mark.column))

/-- The line ends of the empty lines from here on; the cursor stops in the line after them, at the
    column or before. -/
def emptyLines (column : Nat) : Nat → Read (List Char)
  | 0 => return []
  | fuel + 1 => do
    skipToColumn column
    match ← lineBreak? with
    | some c => return c :: (← emptyLines column fuel)
    | none => return []

/-- The line ends of the empty lines from here on, and the largest column that spaces reach. -/
def leadingLines (widest : Nat) : Nat → Read (List Char × Nat)
  | 0 => return ([], widest)
  | fuel + 1 => do
    skipSpaces
    let widest := max widest (← mark).column
    match ← lineBreak? with
    | some c =>
      let (breaks, widest) ← leadingLines widest fuel
      return (c :: breaks, widest)
    | none => return ([], widest)

/-- What stands between two lines of a block scalar. In a folded one a line end counts as a space, unless
    empty lines follow or a line is indented further. -/
def lineJoint (folded : Bool) (lineBreak : Option Char) (breaks : List Char)
    (flush : Bool) : List Char :=
  if folded && lineBreak == some '\n' && flush then (if breaks.isEmpty then [' '] else [])
  else lineBreak.toList

/-- The lines of a block scalar from here on. -/
def blockScalarLines (folded : Bool) (chomping : Chomping) (column : Nat) :
    Nat → List Char → Read (List Char)
  | 0, _ => return []
  | fuel + 1, breaks => do
    let isFlush (c : Option Char) : Bool := !c.any fun c => c == ' ' || c == '\t'
    let first ← peek
    let line ← takeWhile (!isBreak ·)
    let lineBreak ← lineBreak?
    let after ← emptyLines column (← get).rest.length
    if (← mark).column = column ∧ (← peek).isSome then
      let joint := lineJoint folded lineBreak after (isFlush first && isFlush (← peek))
      let more ← blockScalarLines folded chomping column fuel after
      return breaks ++ line ++ joint ++ more
    else
      return breaks ++ line ++
        (match chomping with
          | .strip => []
          | .clip => lineBreak.toList
          | .keep => lineBreak.toList ++ after)

/-- A block scalar, from its mark on. `least` is the column that its lines reach at least. -/
def blockScalar (least : Nat) : Read (List Char) := do
  let start ← mark
  let folded := (← peek) == some '>'
  skip 1
  let (chomping, indentation) ← blockScalarMarks start
  restOfLine .blockScalar start
  let fuel := (← get).rest.length + 1
  let (breaks, column) ← match indentation with
    | none => do
      let (breaks, widest) ← leadingLines 0 fuel
      pure (breaks, max least widest)
    | some n => do
      let column := least + n - 1
      pure (← emptyLines column fuel, column)
  if (← mark).column = column ∧ (← peek).isSome then
    blockScalarLines folded chomping column fuel breaks
  else
    return if chomping = .keep then breaks else []

/-! ## Quoted scalars -/

/-- The character that a letter after a backslash stands for. -/
def escapedChar? (c : Char) : Option Char :=
  match c with
  | '0' => some (Char.ofNat 0)
  | 'a' => some (Char.ofNat 0x07)
  | 'b' => some (Char.ofNat 0x08)
  | 't' | '\t' => some '\t'
  | 'n' => some '\n'
  | 'v' => some (Char.ofNat 0x0B)
  | 'f' => some (Char.ofNat 0x0C)
  | 'r' => some '\r'
  | 'e' => some (Char.ofNat 0x1B)
  | ' ' | '"' | '\\' | '/' => some c
  | 'N' => some (Char.ofNat 0x85)
  | '_' => some (Char.ofNat 0xA0)
  | 'L' => some (Char.ofNat 0x2028)
  | 'P' => some (Char.ofNat 0x2029)
  | _ => none

/-- How many digits of a number follow a letter after a backslash. -/
def escapeLength? (c : Char) : Option Nat :=
  match c with
  | 'x' => some 2
  | 'u' => some 4
  | 'U' => some 8
  | _ => none

/-- The line ends of empty lines inside quotes. No line that separates documents may stand there. -/
def quotedBreaks (start : Mark) : Nat → Read (List Char)
  | 0 => return []
  | fuel + 1 => do
    if (← get).isAnySeparator then fail .quotedScalar start .separatorInScalar
    let _ ← takeWhile fun c => c == ' ' || c == '\t'
    match ← lineBreak? with
    | some c => return c :: (← quotedBreaks start fuel)
    | none => return []

/-- What an escape stands for, from the letter after its backslash on. Two halves do not become a character. -/
def escape (start : Mark) : Read (List Text.Point) := do
  let c ← peek
  match c.bind escapedChar?, c.bind escapeLength? with
  | some e, _ =>
    skip 1
    return [.char e]
  | none, some length =>
    skip 1
    let number ← hexNumber .escapedScalar start "escape sequence" length
    match Text.Point.ofNat? number with
    | some p => return [p]
    | none => fail .escapedScalar start (.noCharacter number)
  | none, none =>
    match ← lineBreak? with
    | some _ => return Text.points (← quotedBreaks start (← get).rest.length.succ)
    | none => fail .escapedScalar start (.unknownEscape c)

/-- Blanks and line ends inside quotes. A single line end counts as a space. -/
def quotedGap (start : Mark) : Read (List Char) := do
  let blanks ← takeWhile fun c => c == ' ' || c == '\t'
  if (← peek).isNone then fail .quotedScalar start .endOfText
  match ← lineBreak? with
  | none => return blanks
  | some c =>
    let breaks ← quotedBreaks start (← get).rest.length.succ
    return (if c != '\n' then [c] else if breaks.isEmpty then [' '] else []) ++ breaks

/-- The text of a quoted scalar up to its end. -/
def quotedText (double : Bool) (start : Mark) : Nat → Read (List Text.Point)
  | 0 => return []
  | fuel + 1 => do
    let plain ← takeWhile fun c =>
      !(c == '\'' || c == '"' || c == '\\' || c == ' ' || c == '\t' || isBreak c)
    let c ← peek
    if !double && c == some '\'' && (← peek 1) == some '\'' then
      skip 2
      return Text.points plain ++ .char '\'' :: (← quotedText double start fuel)
    else if c == some (if double then '"' else '\'') then
      skip 1
      return Text.points plain
    else if double && c == some '\\' then
      skip 1
      let text ← escape start
      return Text.points plain ++ text ++ (← quotedText double start fuel)
    else if c == some '"' || c == some '\'' || c == some '\\' then
      skip 1
      return Text.points (plain ++ c.toList) ++ (← quotedText double start fuel)
    else
      let gap ← quotedGap start
      return Text.points (plain ++ gap) ++ (← quotedText double start fuel)

/-- A quoted scalar, from its mark on. -/
def quotedScalar : Read (List Text.Point) := do
  let start ← mark
  let double := (← peek) == some '"'
  skip 1
  quotedText double start (← get).rest.length.succ

/-! ## Plain scalars -/

/-- How many characters from here on belong to a plain scalar without a gap. -/
def plainLength (inFlow : Bool) : List Char → Nat
  | [] => 0
  | c :: cs =>
    let endsFlow (d : Char) : Bool := inFlow && ",[]\x7b\x7d".toList.contains d
    if isGap (some c) || (c == ':' && (isGap cs.head? || cs.head?.any endsFlow)) || endsFlow c ||
        (inFlow && c == '?') then 0
    else plainLength inFlow cs + 1

/-- The line ends of empty lines inside a plain scalar, or nothing at a line that separates
    documents. -/
def plainBreaks : Nat → Read (Option (List Char))
  | 0 => return some []
  | fuel + 1 => do
    skipSpaces
    match ← lineBreak? with
    | some c =>
      if (← get).isAnySeparator then return none
      return (← plainBreaks fuel).map (c :: ·)
    | none => return some []

/-- Spaces and line ends inside a plain scalar, empty if it ends before them, and whether a line
    ends. -/
def plainGap : Read (List Char × Bool) := do
  let blanks ← takeWhile (· == ' ')
  match ← lineBreak? with
  | none => return (blanks, false)
  | some c =>
    if (← get).isAnySeparator then return ([], true)
    match ← plainBreaks (← get).rest.length.succ with
    | none => return ([], true)
    | some breaks =>
      return ((if c != '\n' then [c] else if breaks.isEmpty then [' '] else []) ++ breaks, true)

/-- The rest of a plain scalar after a gap, and whether it stops at the start of a line. -/
def plainText (inFlow : Bool) (least : Nat) : Nat → List Char → Bool → Read (List Char × Bool × Mark)
  | 0, _, atStart => return ([], atStart, ← mark)
  | fuel + 1, gap, atStart => do
    let place ← mark
    let length := plainLength inFlow (← get).rest
    if (← peek) == some '#' || length = 0 then return ([], atStart, place)
    let text := (← get).rest.take length
    skip length
    let stop ← mark
    let (next, ended) ← plainGap
    if next.isEmpty || (← peek) == some '#' || (!inFlow && decide ((← mark).column < least)) then
      return (gap ++ text, ended, stop)
    let (more, atStart, after) ← plainText inFlow least fuel next ended
    return (gap ++ text ++ more, atStart, if more.isEmpty then stop else after)

/-- A plain scalar: its text, whether the cursor stops at the start of a line, and where the text
    ends. `least` is the column that its lines reach at least. -/
def plainScalar (inFlow : Bool) (least : Nat) : Read (List Char × Bool × Mark) := do
  plainText inFlow least (← get).rest.length.succ [] false

end Read

end Folio.Yaml

import Folio.Text.Scan

set_option autoImplicit false

/-! # Places in a YAML text

A text is read from front to back. The cursor holds what is left of it and the place that has been
reached, which faults refer to. -/

namespace Folio.Yaml

/-- A place in a text; all counts start at zero. A byte order mark takes no column. -/
structure Mark where
  index : Nat := 0
  line : Nat := 0
  column : Nat := 0
deriving Repr, DecidableEq, Inhabited

/-- What is left of a text. -/
structure Cursor where
  rest : List Char
  mark : Mark := {}
deriving Repr

/-! ## Kinds of characters -/

/-- Characters that end a line. -/
def isBreak (c : Char) : Bool :=
  let n := c.toNat
  n == 0x0A || n == 0x0D || n == 0x85 || n == 0x2028 || n == 0x2029

/-- A line end or the end of the text. -/
def endsLine (c : Option Char) : Bool :=
  c.all isBreak

/-- A space, a line end or the end of the text. -/
def endsWord (c : Option Char) : Bool :=
  c.all fun c => c == ' ' || isBreak c

/-- A space, a tab, a line end or the end of the text. -/
def isGap (c : Option Char) : Bool :=
  c.all fun c => c == ' ' || c == '\t' || isBreak c

/-- Characters of names. -/
def isNameChar (c : Char) : Bool :=
  Text.isAsciiAlphanumeric c || c == '-' || c == '_'

/-- Characters of a YAML text. -/
def isCharacter (c : Char) : Bool :=
  let n := c.toNat
  n == 0x09 || n == 0x0A || n == 0x0D || (0x20 ≤ n && n ≤ 0x7E) || n == 0x85 ||
    (0xA0 ≤ n && n ≤ 0xD7FF) || (0xE000 ≤ n && n ≤ 0xFFFD) || (0x10000 ≤ n && n ≤ 0x10FFFF)

namespace Cursor

/-- The character at a distance. -/
def peek (cursor : Cursor) (distance : Nat := 0) : Option Char :=
  cursor.rest[distance]?

/-- The place after a character, given what follows it. A carriage return ends a line unless a line
    feed follows. -/
def markAfter (mark : Mark) (c : Char) (rest : List Char) : Mark :=
  if isBreak c && !(c == '\r' && rest.head? == some '\n') then ⟨mark.index + 1, mark.line + 1, 0⟩
  else ⟨mark.index + 1, mark.line, if c.toNat = 0xFEFF then mark.column else mark.column + 1⟩

/-- Go on by one character. -/
def next (cursor : Cursor) : Cursor :=
  match cursor.rest with
  | [] => cursor
  | c :: rest => ⟨rest, markAfter cursor.mark c rest⟩

/-- Go on by so many characters. -/
def skip : Nat → Cursor → Cursor
  | 0, cursor => cursor
  | n + 1, cursor => skip n cursor.next

/-- The characters from here on that satisfy a condition, and the cursor after them. -/
def takeWhile (p : Char → Bool) (cursor : Cursor) : List Char × Cursor :=
  let run := cursor.rest.takeWhile p
  (run, cursor.skip run.length)

/-- Skip spaces. -/
def skipSpaces (cursor : Cursor) : Cursor :=
  (cursor.takeWhile (· == ' ')).2

/-- Skip everything up to the end of the line. -/
def skipLine (cursor : Cursor) : Cursor :=
  (cursor.takeWhile (!isBreak ·)).2

/-- Take a line end: the character it stands for, and the cursor after it. -/
def lineBreak? (cursor : Cursor) : Option (Char × Cursor) :=
  match cursor.rest with
  | '\r' :: '\n' :: _ => some ('\n', cursor.skip 2)
  | c :: _ =>
    if c == '\r' || c == '\n' || c.toNat == 0x85 then some ('\n', cursor.next)
    else if isBreak c then some (c, cursor.next)
    else none
  | [] => none

/-- Whether a line of three equal marks that separates documents stands here. -/
def isSeparator (mark : Char) (cursor : Cursor) : Bool :=
  Text.startsWith (String.ofList [mark, mark, mark]) cursor.rest && isGap (cursor.peek 3)

/-- Whether a line that separates documents stands here. -/
def isAnySeparator (cursor : Cursor) : Bool :=
  cursor.isSeparator '-' || cursor.isSeparator '.'

end Cursor

end Folio.Yaml

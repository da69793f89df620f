import Folio.Text.CharRanges
import Folio.Text.Point
import Folio.Text.Printable

set_option autoImplicit false

/-! # Quoted text

A text in quotes, with escapes for what does not print. Single quotes are used unless the text holds
a single quote and no double one. Every character is either printed as it is or escaped by a
backslash, so the quoted form reads back. -/

namespace Folio.Text

/-- The digit of a number below sixteen. -/
def hexDigit (n : Nat) : Char :=
  if n < 10 then Char.ofNat ('0'.toNat + n) else Char.ofNat ('a'.toNat + (n - 10))

/-- The last `width` hexadecimal digits of a number. -/
def hexDigits : Nat → Nat → List Char
  | 0, _ => []
  | width + 1, n => hexDigits width (n / 16) ++ [hexDigit (n % 16)]

/-- The escape of a character by its number, with as few of two, four or eight digits as it needs. -/
def escapeByNumber (c : Char) : List Char :=
  let n := c.toNat
  if n < 0x100 then '\\' :: 'x' :: hexDigits 2 n
  else if n < 0x10000 then '\\' :: 'u' :: hexDigits 4 n
  else '\\' :: 'U' :: hexDigits 8 n

/-- The escape of a point by its number. -/
def Point.escapeByNumber : Point → List Char
  | char c => Text.escapeByNumber c
  | half h => '\\' :: 'u' :: hexDigits 4 (halfNumber h)

/-- One character inside quotes. -/
def quoteChar (mark c : Char) : List Char :=
  if c = mark ∨ c = '\\' then ['\\', c]
  else if c = '\t' then ['\\', 't']
  else if c = '\n' then ['\\', 'n']
  else if c = '\r' then ['\\', 'r']
  else if isPrintable c then [c]
  else escapeByNumber c

/-- One point inside quotes. -/
def quotePoint (mark : Char) : Point → List Char
  | .char c => quoteChar mark c
  | .half h => (Point.half h).escapeByNumber

/-- The quotation mark for a text. -/
def quotationMark (cs : List Char) : Char :=
  if cs.contains '\'' && !cs.contains '"' then '"' else '\''

/-- The text in quotes. -/
def quotePoints (ps : List Point) : List Char :=
  let mark := quotationMark (skeleton ps)
  mark :: ps.flatMap (quotePoint mark) ++ [mark]

/-- The text in quotes, if it has no halves. -/
def quoteChars (cs : List Char) : List Char :=
  quotePoints (points cs)

/-- The text in quotes, as a string. -/
def quote (cs : List Char) : String :=
  String.ofList (quoteChars cs)

/-! ## Reading -/

/-- The character that an escape by one letter stands for. -/
def letterEscape? (c : Char) : Option Char :=
  match c with
  | '\\' => some '\\'
  | '\'' => some '\''
  | '"' => some '"'
  | 'b' => some '\x08'
  | 'f' => some '\x0c'
  | 'n' => some '\n'
  | 'r' => some '\r'
  | 't' => some '\t'
  | _ => none

/-- The number of digits of an escape by number, by its letter. -/
def escapeWidth? (c : Char) : Option Nat :=
  match c with
  | 'x' => some 2
  | 'u' => some 4
  | 'U' => some 8
  | _ => none

/-- Read the rest of a text in quotes up to its closing mark: the text, and what is left. `fuel` is
    more than the number of characters. -/
def readUntil (mark : Char) : Nat → List Char → Option (List Point × List Char)
  | 0, _ => none
  | _ + 1, [] => none
  | fuel + 1, c :: cs =>
    if c = mark then some ([], cs)
    else if c = '\\' then
      match cs with
      | [] => none
      | e :: rest =>
        match letterEscape? e, escapeWidth? e with
        | some d, _ => (readUntil mark fuel rest).map fun (ps, rest) => (.char d :: ps, rest)
        | none, some width =>
          match Point.ofNat? (hexValue (rest.take width)) with
          | some p => (readUntil mark fuel (rest.drop width)).map fun (ps, rest) => (p :: ps, rest)
          | none => none
        | none, none => none
    else (readUntil mark fuel cs).map fun (ps, rest) => (.char c :: ps, rest)

/-- Read a text in quotes at the front of a list: the text, and what is left. -/
def readPoints? (cs : List Char) : Option (List Point × List Char) :=
  match cs with
  | mark :: rest => if mark = '\'' ∨ mark = '"' then readUntil mark cs.length rest else none
  | [] => none

/-- Read a text in quotes that has no halves. -/
def readQuoted? (cs : List Char) : Option (List Char × List Char) :=
  (readPoints? cs).map fun (ps, rest) => (skeleton ps, rest)

end Folio.Text

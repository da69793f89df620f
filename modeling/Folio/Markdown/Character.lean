import Folio.Html.NamedCharacter
import Folio.Text.CaseFold
import Folio.Text.Punctuation
import Folio.Text.Scan

set_option autoImplicit false

/-! # Characters of Markdown

Which characters are blank or punctuation for the rules of Markdown, how a character is written by its
name or number, and how a backslash takes the meaning from a mark. -/

namespace Folio.Markdown

/-- A space or a tab. -/
def isSpace (c : Char) : Bool :=
  c == ' ' || c == '\t'

/-- Blanks around marks of emphasis. -/
def isWhite (c : Char) : Bool :=
  let n := c.toNat
  (0x09 ≤ n && n ≤ 0x0D) || n == 0x20 || n == 0xA0 || n == 0x1680 || (0x2000 ≤ n && n ≤ 0x200A) ||
    n == 0x202F || n == 0x205F || n == 0x3000

/-- The text of a heading or a paragraph without the blanks around it. Line separators and byte order
    marks count as blanks here, the control `U+0085` does not. -/
def trimEdges (cs : List Char) : List Char :=
  let isEdge (c : Char) : Bool :=
    isWhite c || c.toNat == 0x2028 || c.toNat == 0x2029 || c.toNat == 0xFEFF
  ((cs.dropWhile isEdge).reverse.dropWhile isEdge).reverse

/-- Punctuation around marks of emphasis: symbols count too. -/
def isMark (c : Char) : Bool :=
  Text.isPunctuation c || Text.isSymbol c

/-- The character for a number; the replacement character if the number is not to be used. -/
def isUsableNumber (n : Nat) : Bool :=
  !((0xD800 ≤ n && n ≤ 0xDFFF) || (0xFDD0 ≤ n && n ≤ 0xFDEF) || n % 0x10000 ≥ 0xFFFE ||
    n ≤ 0x08 || n == 0x0B || (0x0E ≤ n && n ≤ 0x1F) || (0x7F ≤ n && n ≤ 0x9F) || 0x10FFFF < n)

/-- The number that is written after a number sign, with at most so many digits. -/
def writtenNumber? (decimals hexadecimals : Nat) (cs : List Char) : Option Nat :=
  match cs with
  | 'x' :: ds | 'X' :: ds =>
    if !ds.isEmpty && ds.length ≤ hexadecimals && ds.all Text.isHexDigit then some (Text.hexValue ds)
    else none
  | ds =>
    if !ds.isEmpty && ds.length ≤ decimals && ds.all Text.isAsciiDigit then
      some (Text.decimalValue ds)
    else none

/-- Cut after a reference's semicolon: what stands before it, and the rest. -/
def cutReference? (cs : List Char) : Option (List Char × List Char) :=
  let name := cs.takeWhile fun c => Text.isAsciiAlphanumeric c || c == '#'
  match cs.drop name.length with
  | ';' :: rest => some (name, rest)
  | _ => none

/-- The characters a reference in running text stands for, given the text after its `&`, and the
    rest. -/
def textReference? (cs : List Char) : Option (List Char × List Char) := do
  let (name, rest) ← cutReference? cs
  match name with
  | '#' :: digits =>
    let n ← writtenNumber? 7 6 digits
    return ([if isUsableNumber n then Char.ofNat n else Char.ofNat 0xFFFD], rest)
  | name =>
    if name.length < 2 || 32 < name.length then none
    else return (← Html.namedCharacter? name, rest)

/-- The characters a reference in an address, a title or the like stands for; one that stands for
    nothing stays as it is written. -/
def plainReference? (cs : List Char) : Option (List Char × List Char) := do
  let (name, rest) ← cutReference? cs
  match name with
  | '#' :: digits =>
    let n ← writtenNumber? 8 8 digits
    if isUsableNumber n then return ([Char.ofNat n], rest) else none
  | name => return (← Html.namedCharacter? name, rest)

/-- Resolve the references and take the backslashes from marks. `fuel` is at least the length. -/
def unescapeAux : Nat → List Char → List Char
  | 0, cs => cs
  | _ + 1, [] => []
  | fuel + 1, '\\' :: c :: cs =>
    if Text.isAsciiPunctuation c then c :: unescapeAux fuel cs else '\\' :: unescapeAux fuel (c :: cs)
  | fuel + 1, '&' :: cs =>
    match plainReference? cs with
    | some (text, rest) => text ++ unescapeAux fuel rest
    | none => '&' :: unescapeAux fuel cs
  | fuel + 1, c :: cs => c :: unescapeAux fuel cs

/-- Resolve the references and take the backslashes from marks. -/
def unescape (cs : List Char) : List Char :=
  unescapeAux cs.length cs

/-- Escape the characters that would read as markup in a page. -/
def escapeHtml (cs : List Char) : List Char :=
  cs.flatMap fun
    | '&' => "&amp;".toList
    | '<' => "&lt;".toList
    | '>' => "&gt;".toList
    | '"' => "&quot;".toList
    | c => [c]

/-- Write a run of blanks as one space. The flag says whether a blank stands before. -/
def collapseBlanks : Bool → List Char → List Char
  | _, [] => []
  | blankBefore, c :: cs =>
    if Text.isBlank c then (if blankBefore then [] else [' ']) ++ collapseBlanks true cs
    else c :: collapseBlanks false cs

/-- The label of a reference in the form in which labels are compared: blanks are single spaces, and
    letter case does not count. -/
def foldLabel (label : List Char) : List Char :=
  (collapseBlanks false (Text.trimBlanks label)).flatMap Text.foldChar

end Folio.Markdown

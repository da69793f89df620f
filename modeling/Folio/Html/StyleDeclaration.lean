import Folio.Text.Scan

set_option autoImplicit false

/-! # The declarations of a style attribute

A style attribute is a list of declarations `name: value` between semicolons. A semicolon inside
quotes, brackets or a comment ends nothing. What is no declaration is skipped. -/

namespace Folio.Html

/-- A declaration: the property in lower case, and its value as it is written. -/
structure StyleDeclaration where
  property : String
  value : String
deriving Repr, DecidableEq

namespace StyleDeclaration

/-- The blanks of a style. -/
def isSpace (c : Char) : Bool :=
  c == ' ' || c == '\t' || c == '\n' || c == '\r' || c == '\x0c'

/-- The rest after a comment, given what follows its first two characters. -/
def skipComment : List Char → List Char
  | '*' :: '/' :: cs => cs
  | _ :: cs => skipComment cs
  | [] => []

theorem skipComment_length (cs : List Char) : (skipComment cs).length ≤ cs.length := by
  fun_induction skipComment cs <;> grind

/-- Skip blanks and comments. -/
def skipSpace (cs : List Char) : List Char :=
  match cs with
  | [] => []
  | '/' :: '*' :: r => skipSpace (skipComment r)
  | c :: r => if isSpace c then skipSpace r else c :: r
termination_by cs.length
decreasing_by
  · have := skipComment_length r; simp; omega
  · simp

/-- Characters of the name of a property. -/
def isNameChar (c : Char) : Bool :=
  Text.isAsciiAlphanumeric c || c == '-' || c == '_' || 0x80 ≤ c.toNat

/-- The text of a quotation and the rest, given what follows its first mark. -/
def cutString (mark : Char) : List Char → List Char × List Char
  | [] => ([], [])
  | [c] => ([c], [])
  | c :: d :: cs =>
    if c = '\\' then
      let (text, rest) := cutString mark cs
      (c :: d :: text, rest)
    else if c = mark ∨ c = '\n' then ([c], d :: cs)
    else
      let (text, rest) := cutString mark (d :: cs)
      (c :: text, rest)

/-- The bracket that closes another. -/
def closing? (c : Char) : Option Char :=
  if c = '(' then some ')' else if c = '[' then some ']' else if c = '\x7b' then some '\x7d' else none

/-- Cut before the next semicolon that ends a declaration. `brackets` are those still to be closed,
    innermost first; `fuel` is at least the length of the text. -/
def cutDeclaration : Nat → List Char → List Char → List Char × List Char
  | 0, _, cs => (cs, [])
  | _ + 1, _, [] => ([], [])
  | fuel + 1, brackets, c :: cs =>
    let go (taken : List Char) (brackets rest : List Char) : List Char × List Char :=
      let (text, rest) := cutDeclaration fuel brackets rest
      (taken ++ text, rest)
    if c = ';' ∧ brackets.isEmpty then ([], c :: cs)
    else if c = '"' ∨ c = '\'' then
      let (text, rest) := cutString c cs
      go (c :: text) brackets rest
    else if c = '\\' then go (c :: cs.take 1) brackets (cs.drop 1)
    else if c = '/' ∧ cs.head? = some '*' then
      let rest := skipComment (cs.drop 1)
      go (c :: cs.take (cs.length - rest.length)) brackets rest
    else match closing? c with
      | some b => go [c] (b :: brackets) cs
      | none => go [c] (if brackets.head? = some c then brackets.drop 1 else brackets) cs

/-- Whether characters of names start as a name does. -/
def startsAsName : List Char → Bool
  | '-' :: c :: _ => !Text.isAsciiDigit c
  | [c] => c != '-' && !Text.isAsciiDigit c
  | c :: _ => !Text.isAsciiDigit c
  | [] => false

/-- One declaration, given its text. -/
def ofText? (cs : List Char) : Option StyleDeclaration :=
  let name := cs.takeWhile isNameChar
  if !startsAsName name then none
  else match skipSpace (cs.drop name.length) with
    | ':' :: rest =>
      some ⟨String.ofList (Text.asciiLower name), String.ofList (skipSpace rest)⟩
    | _ => none

/-- The declarations of a text. `fuel` is more than its length. -/
def readAll : Nat → List Char → List StyleDeclaration
  | 0, _ => []
  | fuel + 1, cs =>
    match skipSpace cs with
    | [] => []
    | ';' :: rest => readAll fuel rest
    | '\x7d' :: rest => readAll fuel rest
    | cs =>
      let (text, rest) := cutDeclaration cs.length [] cs
      (ofText? text).toList ++ readAll fuel rest

/-- The declarations of a style attribute. -/
def ofAttribute (value : String) : List StyleDeclaration :=
  readAll (value.length + 1) value.toList

/-- A declaration as it is written. -/
def print (d : StyleDeclaration) : String :=
  d.property ++ ":" ++ d.value

end StyleDeclaration

end Folio.Html

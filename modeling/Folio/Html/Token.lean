import Folio.Html.Event

set_option autoImplicit false

/-! # Tokens of HTML, by the standard

Where the lenient reader leaves the text of a broken tag in place, the HTML standard says for every
text what a browser makes of it. This module holds the standard's tokens. How the text goes on
depends on the element it stands in, so one token is read at a time, under a *content model* that the
tree under construction chooses. -/

namespace Folio.Html

/-- How the text of an element is read. -/
inductive ContentModel where
  /-- Markup and references. -/
  | markup
  /-- Text with references, up to the end tag of the element. -/
  | referencesOnly (element : String)
  /-- Text as it stands, up to the end tag of the element. -/
  | rawText (element : String)
  /-- A script: raw text in which a comment may hide an end tag. -/
  | script
  /-- Text as it stands, up to the end. -/
  | plainText
deriving Repr, DecidableEq

/-- A token. -/
inductive Token where
  | startTag (name : String) (attributes : List (String × String)) (selfClosing : Bool)
  | endTag (name : String)
  | char (c : Char)
  | null
  | comment
  | doctype
  | endOfText
deriving Repr

namespace Token

/-! ## References -/

/-- The character for a number. -/
def numberedCharacter (n : Nat) : Char :=
  if n = 0 || (0xD800 ≤ n && n ≤ 0xDFFF) || 0x10FFFF < n then replacementChar
  else if 0x80 ≤ n && n ≤ 0x9F then Char.ofNat ((numberedCharacters.lookup n).getD n)
  else Char.ofNat n

/-- The longest name at the front of the list, of at most `n` characters, that is understood without
    a semicolon: its text and its length. -/
def longestName (cs : List Char) : Nat → Option (List Char × Nat)
  | 0 => none
  | n + 1 =>
    match bareNamedCharacter? (cs.take (n + 1)) with
    | some text => some (text, n + 1)
    | none => longestName cs n

/-- Read a reference after its `&`: its text and the rest. In the value of an attribute, a name
    without a semicolon is no reference if an equals sign, a letter or a digit follows. -/
def readReference? (inAttribute : Bool) (cs : List Char) : Option (List Char × List Char) :=
  let dropSemicolon (rest : List Char) : List Char :=
    match rest with
    | ';' :: r => r
    | r => r
  match cs with
  | '#' :: 'x' :: r | '#' :: 'X' :: r =>
    match r.takeWhile Text.isHexDigit with
    | [] => none
    | ds => some ([numberedCharacter (Text.hexValue ds)], dropSemicolon (r.drop ds.length))
  | '#' :: r =>
    match r.takeWhile Text.isAsciiDigit with
    | [] => none
    | ds => some ([numberedCharacter (Text.decimalValue ds)], dropSemicolon (r.drop ds.length))
  | r =>
    let run := r.takeWhile Text.isAsciiAlphanumeric
    let rest := r.drop run.length
    let closed := match rest with
      | ';' :: rest => (namedCharacter? run).map (·, rest)
      | _ => none
    match closed with
    | some found => some found
    | none =>
      match longestName run run.length with
      | none => none
      | some (text, n) =>
        let rest := r.drop n
        let continues := match rest with
          | c :: _ => c == '=' || Text.isAsciiAlphanumeric c
          | [] => false
        if inAttribute && continues then none else some (text, dropSemicolon rest)

/-- Replace the references of an attribute's value. `fuel` is the length of the value. -/
def resolveValue : Nat → List Char → List Char
  | 0, cs => cs
  | _ + 1, [] => []
  | fuel + 1, '&' :: cs =>
    match readReference? true cs with
    | some (text, rest) => text ++ resolveValue fuel rest
    | none => '&' :: resolveValue fuel cs
  | fuel + 1, c :: cs => (if c = '\x00' then replacementChar else c) :: resolveValue fuel cs

/-! ## Tags -/

/-- The blanks of markup. -/
def isSpace (c : Char) : Bool :=
  c == '\t' || c == '\n' || c == '\x0c' || c == ' ' || c == '\r'

/-- A name as a token holds it. -/
def nameText (cs : List Char) : String :=
  String.ofList ((Text.asciiLower cs).map fun c => if c = '\x00' then replacementChar else c)

/-- Read the value of an attribute, after its equals sign. Nothing if the text ends inside it. -/
def readValue? (cs : List Char) : Option (List Char × List Char) :=
  match cs.dropWhile isSpace with
  | '"' :: r => (Text.cutBefore? (· == '"') r).map fun (v, rest) => (v, rest.drop 1)
  | '\'' :: r => (Text.cutBefore? (· == '\'') r).map fun (v, rest) => (v, rest.drop 1)
  | r => Text.cutBefore? (fun c => isSpace c || c == '>') r

/-- Read the attributes of a tag and its end: the attributes, the first of each name, whether the tag
    closes itself, and the rest. Nothing if the text ends inside the tag. `fuel` is more than the
    length of the text. -/
def readAttributes? : Nat → List Char → Option (List (String × String) × Bool × List Char)
  | 0, _ => none
  | fuel + 1, cs =>
    match cs.dropWhile isSpace with
    | [] => none
    | '>' :: rest => some ([], false, rest)
    | '/' :: '>' :: rest => some ([], true, rest)
    | '/' :: rest => readAttributes? fuel rest
    | c :: rest => do
      let name := c :: rest.takeWhile fun c => !(isSpace c || c == '/' || c == '>' || c == '=')
      let afterName := (c :: rest).drop name.length
      let (value, rest) ←
        match afterName.dropWhile isSpace with
        | '=' :: r => readValue? r
        | r => some ([], r)
      let (others, selfClosing, rest) ← readAttributes? fuel rest
      let name := nameText name
      return ((name, String.ofList (resolveValue value.length value)) ::
        others.filter (·.1 != name), selfClosing, rest)

/-- Characters that end the name of a tag. -/
def endsName (c : Char) : Bool :=
  isSpace c || c == '/' || c == '>'

/-- Read a tag at the first letter of its name: what it says, and the rest. -/
def readTag? (cs : List Char) : Option (String × List (String × String) × Bool × List Char) := do
  let name := cs.takeWhile fun c => !endsName c
  let (attributes, selfClosing, rest) ← readAttributes? (cs.length + 1) (cs.drop name.length)
  return (nameText name, attributes, selfClosing, rest)

/-! ## Comments -/

/-- The rest after a comment, given the text after its first two hyphens. The flags say whether the
    comment has just begun, and how many hyphens stand before. A text that ends inside a comment
    has no rest. -/
def skipComment : Bool → Nat → List Char → List Char
  | _, _, [] => []
  | start, hyphens, c :: cs =>
    if c = '>' ∧ (start ∨ 2 ≤ hyphens) then cs
    else if c = '-' then skipComment (start && hyphens == 0) (hyphens + 1) cs
    else if c = '!' ∧ 2 ≤ hyphens ∧ cs.head? = some '>' then cs.drop 1
    else skipComment false 0 cs

/-- The rest after the next `>`. -/
def skipBogus (cs : List Char) : List Char :=
  (cs.dropWhile (· != '>')).drop 1

/-! ## Scripts -/

/-- Whether an end tag for an element starts after `</`. -/
def isEndTagFor (element : String) (cs : List Char) : Bool :=
  Text.startsWithNoCase element cs &&
    match cs.drop element.length with
    | c :: _ => endsName c
    | [] => false

/-- What the text of a script stands in. -/
inductive ScriptPart where
  | plain
  /-- The last characters of the mark that opens a comment. -/
  | opening (left : Nat)
  /-- A comment, in which an end tag still ends the script. -/
  | comment
  /-- A script inside a comment, in which it does not. -/
  | hidden
deriving DecidableEq

/-- Cut before the end tag of a script: its text, and the rest. `hyphens` counts the hyphens that
    stand before. -/
def cutScript (part : ScriptPart) (hyphens : Nat) : List Char → List Char × List Char
  | [] => ([], [])
  | c :: cs =>
    let go (part : ScriptPart) (hyphens : Nat) : List Char × List Char :=
      let (before, rest) := cutScript part hyphens cs
      (c :: before, rest)
    match part with
    | .plain =>
      if c = '<' ∧ cs.head? = some '/' ∧ isEndTagFor "script" (cs.drop 1) then ([], c :: cs)
      else if c = '<' ∧ cs.take 3 = ['!', '-', '-'] then go (.opening 3) 0
      else go .plain 0
    | .opening left => if left ≤ 1 then go .comment 2 else go (.opening (left - 1)) 0
    | .comment =>
      if c = '<' ∧ cs.head? = some '/' ∧ isEndTagFor "script" (cs.drop 1) then ([], c :: cs)
      else if c = '-' then go .comment (hyphens + 1)
      else if c = '>' ∧ 2 ≤ hyphens then go .plain 0
      else if c = '<' ∧ isEndTagFor "script" cs then go .hidden 0
      else go .comment 0
    | .hidden =>
      if c = '-' then go .hidden (hyphens + 1)
      else if c = '>' ∧ 2 ≤ hyphens then go .plain 0
      else if c = '<' ∧ cs.head? = some '/' ∧ isEndTagFor "script" (cs.drop 1) then go .comment 0
      else go .hidden 0

/-! ## Reading one token -/

/-- The tokens of a text without markup. -/
def ofText (cs : List Char) : List Token :=
  cs.map fun c => if c = '\x00' then .char replacementChar else .char c

/-- Read markup after its `<`. -/
def readMarkup (foreignContent : Bool) (cs : List Char) : List Token × List Char :=
  match cs with
  | '!' :: '-' :: '-' :: r => ([.comment], skipComment true 0 r)
  | '!' :: r =>
    if Text.startsWithNoCase "doctype" r then ([.doctype], skipBogus r)
    else if foreignContent && Text.startsWith "[CDATA[" r then
      let close (cs : List Char) : Option (List Char) := Text.dropPrefix? "]]>".toList cs
      let (content, rest) := (Text.cutAround? close (r.drop 7)).getD (r.drop 7, [])
      (content.map Token.char, rest)
    else ([.comment], skipBogus r)
  | '?' :: r => ([.comment], skipBogus r)
  | '/' :: '>' :: r => ([], r)
  | ['/'] => ([.char '<', .char '/'], [])
  | '/' :: c :: r =>
    if Text.isAsciiLetter c then
      match readTag? (c :: r) with
      | some (name, _, _, rest) => ([.endTag name], rest)
      | none => ([], [])
    else ([.comment], skipBogus (c :: r))
  | c :: r =>
    if Text.isAsciiLetter c then
      match readTag? (c :: r) with
      | some (name, attributes, selfClosing, rest) =>
        ([.startTag name attributes selfClosing], rest)
      | none => ([], [])
    else ([.char '<'], c :: r)
  | [] => ([.char '<'], [])

/-- Read the tokens at the front of a text, if there is any text. What is read is never empty. -/
def read (model : ContentModel) (foreignContent : Bool) (cs : List Char) :
    List Token × List Char :=
  let endTagOr (element : String) (others : List Token × List Char) : List Token × List Char :=
    match cs with
    | '<' :: '/' :: r =>
      if isEndTagFor element r then
        match readTag? r with
        | some (name, _, _, rest) => ([.endTag name], rest)
        | none => ([], [])
      else others
    | _ => others
  match cs with
  | [] => ([], [])
  | c :: r =>
    let reference : List Token × List Char :=
      match readReference? false r with
      | some (text, rest) => (text.map Token.char, rest)
      | none => ([.char '&'], r)
    let one : List Token × List Char :=
      ([.char (if c = '\x00' then replacementChar else c)], r)
    match model with
    | .markup =>
      if c = '&' then reference
      else if c = '<' then readMarkup foreignContent r
      else if c = '\x00' then ([.null], r)
      else ([.char c], r)
    | .referencesOnly element =>
      if c = '&' then reference
      else endTagOr element one
    | .rawText element => endTagOr element one
    | .script =>
      let (content, rest) := cutScript .plain 0 cs
      if content.isEmpty then endTagOr "script" one else (ofText content, rest)
    | .plainText => (ofText cs, [])

/-- A text with every line end written as a single line feed. -/
def normalizeLineEnds : List Char → List Char
  | [] => []
  | '\r' :: '\n' :: cs => '\n' :: normalizeLineEnds cs
  | '\r' :: cs => '\n' :: normalizeLineEnds cs
  | c :: cs => c :: normalizeLineEnds cs

end Token

end Folio.Html

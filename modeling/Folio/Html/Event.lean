import Folio.Html.NamedCharacter
import Folio.Text.Lower
import Folio.Text.Quoted
import Folio.Text.Scan

set_option autoImplicit false

/-! # Lenient reading of HTML into events

The reader never gives up on a tag: what does not look like one is text. It knows two kinds of
content, ordinary markup and the raw text of `script` and `style`, and it does not know how elements
nest; that is for the tree. Only a marked section with a name it has never heard of is refused.

A text is read in two passes. The first stops where more text could change the meaning of what is
left, at an unfinished tag or character reference; the second starts there and takes what it finds
as it stands. -/

namespace Folio.Html

/-! ## Events -/

/-- What the reader finds, in the order of the text. -/
inductive Event where
  /-- A start tag; a name written twice among the attributes is listed twice. -/
  | startTag (name : String) (attributes : List (String × String)) (selfClosing : Bool)
  | endTag (name : String)
  | text (content : List Char)
  | comment (content : List Char)
  | doctype (content : List Char)
  /-- A marked section, without its brackets. -/
  | section_ (content : List Char)
  | instruction (content : List Char)
deriving Repr

/-- Why a text is refused. -/
inductive MarkupError where
  | unknownSection (name : List Char)
  | sectionWithoutName (context : List Char)
deriving Repr, DecidableEq

/-- The text that reports the cause. -/
def MarkupError.message : MarkupError → String
  | unknownSection name => "unknown status keyword " ++ Text.quote name ++ " in marked section"
  | sectionWithoutName context => "expected name token at " ++ Text.quote context

/-! ## Character references in attribute values -/

/-- The characters that numbers from 128 to 159, zero and the carriage return stand for: what an old
    Western code page holds there. -/
def numberedCharacters : List (Nat × Nat) :=
  [(0x00, 0xFFFD), (0x0D, 0x0D), (0x80, 0x20AC), (0x81, 0x81), (0x82, 0x201A), (0x83, 0x0192),
    (0x84, 0x201E), (0x85, 0x2026), (0x86, 0x2020), (0x87, 0x2021), (0x88, 0x02C6), (0x89, 0x2030),
    (0x8A, 0x0160), (0x8B, 0x2039), (0x8C, 0x0152), (0x8D, 0x8D), (0x8E, 0x017D), (0x8F, 0x8F),
    (0x90, 0x90), (0x91, 0x2018), (0x92, 0x2019), (0x93, 0x201C), (0x94, 0x201D), (0x95, 0x2022),
    (0x96, 0x2013), (0x97, 0x2014), (0x98, 0x02DC), (0x99, 0x2122), (0x9A, 0x0161), (0x9B, 0x203A),
    (0x9C, 0x0153), (0x9D, 0x9D), (0x9E, 0x017E), (0x9F, 0x0178)]

/-- The replacement character. -/
def replacementChar : Char := Char.ofNat 0xFFFD

/-- Numbers that name no character of a text: controls and the code points set aside. -/
def isNonCharacterNumber (n : Nat) : Bool :=
  (0x1 ≤ n && n ≤ 0x8) || n == 0xB || (0xE ≤ n && n ≤ 0x1F) || (0x7F ≤ n && n ≤ 0x9F) ||
  (0xFDD0 ≤ n && n ≤ 0xFDEF) || n % 0x10000 ≥ 0xFFFE

/-- The text for a numbered reference in an attribute value. -/
def numberedReference (n : Nat) : List Char :=
  match numberedCharacters.lookup n with
  | some m => [Char.ofNat m]
  | none =>
    if (0xD800 ≤ n && n ≤ 0xDFFF) || 0x10FFFF < n then [replacementChar]
    else if isNonCharacterNumber n then []
    else [Char.ofNat n]

/-- The text for a name in an attribute value: the longest known name at its start is replaced. -/
def longestBareName (name : List Char) : Nat → Option (List Char)
  | 0 => none
  | 1 => none
  | n + 2 =>
    match bareNamedCharacter? (name.take (n + 2)) with
    | some text => some (text ++ name.drop (n + 2))
    | none => longestBareName name (n + 1)

/-- Characters that may stand in the name of a reference in an attribute value. -/
def isReferenceNameChar (c : Char) : Bool :=
  !(c == '\t' || c == '\n' || c == '\x0c' || c == ' ' || c == '<' || c == '&' || c == '#' || c == ';')

/-- Read one reference of an attribute value, after its `&`: its text and the rest. -/
def readReference? (cs : List Char) : Option (List Char × List Char) :=
  let dropSemicolon (rest : List Char) : List Char :=
    match rest with
    | ';' :: r => r
    | r => r
  match cs with
  | '#' :: 'x' :: r | '#' :: 'X' :: r =>
    match r.takeWhile Text.isHexDigit with
    | [] => none
    | ds => some (numberedReference (Text.hexValue ds), dropSemicolon (r.drop ds.length))
  | '#' :: r =>
    match r.takeWhile Text.isAsciiDigit with
    | [] => none
    | ds => some (numberedReference (Text.decimalValue ds), dropSemicolon (r.drop ds.length))
  | r =>
    match (r.takeWhile isReferenceNameChar).take 32 with
    | [] => none
    | name =>
      let rest := r.drop name.length
      match rest with
      | ';' :: rest =>
        match namedCharacter? name with
        | some text => some (text, rest)
        | none => match longestBareName name name.length with
          | some text => some (text ++ [';'], rest)
          | none => some ('&' :: name ++ [';'], rest)
      | rest =>
        match longestBareName name name.length with
        | some text => some (text, rest)
        | none => some ('&' :: name, rest)

/-- Replace the references of an attribute value. `fuel` is the length of the value. -/
def resolveReferencesAux : Nat → List Char → List Char
  | 0, cs => cs
  | _ + 1, [] => []
  | fuel + 1, c :: cs =>
    if c = '&' then
      match readReference? cs with
      | some (text, rest) => text ++ resolveReferencesAux fuel rest
      | none => c :: resolveReferencesAux fuel cs
    else c :: resolveReferencesAux fuel cs

/-- Replace the references of an attribute value. -/
def resolveReferences (cs : List Char) : List Char :=
  resolveReferencesAux cs.length cs

/-! ## Start tags -/

/-- Characters that end the name of a tag. -/
def endsTagName (c : Char) : Bool :=
  c == '\t' || c == '\n' || c == '\r' || c == '\x0c' || c == ' ' || c == '/' || c == '>' || c == '\x00'

/-- Characters after which an attribute may start. -/
def mayPrecedeAttribute (c : Char) : Bool :=
  c == '\'' || c == '"' || Text.isBlank c || c == '/'

/-- Skip blanks and slashes, but not the slash of `/>`. The character before the result is kept. -/
def skipBetween : Char → List Char → Char × List Char
  | before, [] => (before, [])
  | before, c :: cs =>
    if Text.isBlank c then skipBetween c cs
    else if c = '/' ∧ cs.head? ≠ some '>' then skipBetween c cs
    else (before, c :: cs)

/-- Skip blanks and slashes alike. -/
def skipBlanksAndSlashes : Char → List Char → Char × List Char
  | before, [] => (before, [])
  | before, c :: cs =>
    if Text.isBlank c || c == '/' then skipBlanksAndSlashes c cs else (before, c :: cs)

/-- Skip blanks. -/
def skipBlanksAfter : Char → List Char → Char × List Char
  | before, [] => (before, [])
  | before, c :: cs => if Text.isBlank c then skipBlanksAfter c cs else (before, c :: cs)

/-- Characters of an attribute's name after its first one. -/
def isAttributeNameChar (c : Char) : Bool :=
  !(Text.isBlank c || c == '/' || c == '=' || c == '>')

/-- The last of a list of characters, or the one before the list if it is empty. -/
def lastOr (before : Char) (cs : List Char) : Char :=
  cs.getLast?.getD before

/-- Read a value at its first character: one in quotes, or one that reaches to the next blank or
    `>`. A quote that is never closed is no value. The value is as written, quotes included. -/
def readValue? (cs : List Char) : Option (List Char × List Char) :=
  match cs with
  | '\'' :: r => (Text.cutBefore? (· == '\'') r).map fun (v, rest) => ('\'' :: v ++ ['\''], rest.drop 1)
  | '"' :: r => (Text.cutBefore? (· == '"') r).map fun (v, rest) => ('"' :: v ++ ['"'], rest.drop 1)
  | r =>
    let value := r.takeWhile fun c => !(c == '>' || Text.isBlank c)
    some (value, r.drop value.length)

/-- Read the equals signs of an attribute and its value. Where a quote is never closed, what stands
    before it is taken back: blanks make the value empty, and of several equals signs the last
    becomes part of the value. -/
def readAssignment? (cs : List Char) : Option (List Char × List Char) :=
  let afterBlanks := Text.skipBlanks cs
  let signs := afterBlanks.takeWhile (· == '=')
  if signs.isEmpty then none
  else
    let afterSigns := afterBlanks.drop signs.length
    let start := Text.skipBlanks afterSigns
    match readValue? start with
    | some found => some found
    | none =>
      let blanks := afterSigns.take (afterSigns.length - start.length)
      if !blanks.isEmpty then some ([], blanks.drop (blanks.length - 1) ++ start)
      else if 1 < signs.length then readValue? ('=' :: afterSigns)
      else none

/-- One attribute as written: its name, and its value if there is one. -/
structure RawAttribute where
  name : List Char
  value : Option (List Char)

/-- Read one attribute. `before` is the character before it. The result holds the attribute, the
    character before the rest, and the rest. -/
def readAttribute? (before : Char) (cs : List Char) : Option (RawAttribute × Char × List Char) :=
  match cs with
  | [] => none
  | c :: r =>
    if !mayPrecedeAttribute before || Text.isBlank c || c == '/' || c == '>' then none
    else
      let name := c :: r.takeWhile isAttributeNameChar
      let afterName := cs.drop name.length
      match readAssignment? afterName with
      | some (value, rest) =>
        let taken := afterName.take (afterName.length - rest.length)
        some (⟨name, some value⟩, lastOr before taken, rest)
      | none => some (⟨name, none⟩, lastOr before name, afterName)

/-- Skip the attributes of a tag, as far as the tag reaches. `fuel` is the length of the text. -/
def skipAttributes : Nat → Char → List Char → Char × List Char
  | 0, before, cs => (before, cs)
  | fuel + 1, before, cs =>
    match readAttribute? before cs with
    | none => (before, cs)
    | some (found, before, rest) =>
      let (before, rest) :=
        if found.value.isSome then skipBlanksAfter before rest else (before, rest)
      let (before, rest) := skipBetween before rest
      skipAttributes fuel before rest

/-- Where a start tag ends. -/
inductive TagEnd where
  /-- The text ends inside the tag. -/
  | unfinished
  /-- The rest after the tag, or after what was taken for one. -/
  | at (rest : List Char)

/-- Find the end of a start tag, given the text after its `<`. -/
def findTagEnd (cs : List Char) : TagEnd :=
  let name := cs.takeWhile fun c => !endsTagName c
  let (before, rest) := skipBlanksAndSlashes (lastOr '<' name) (cs.drop name.length)
  let (_, rest) := skipAttributes rest.length before rest
  match Text.skipBlanks rest with
  | [] => .unfinished
  | '>' :: rest => .at rest
  | '/' :: '>' :: rest => .at rest
  | c :: rest =>
    if Text.isAsciiLetter c || c == '=' || c == '/' then .unfinished else .at (c :: rest)

/-- Take the quotes off a value as written. -/
def unquoteValue (value : List Char) : List Char :=
  match value with
  | '\'' :: r => if value.getLast? = some '\'' then r.dropLast else value
  | '"' :: r => if value.getLast? = some '"' then r.dropLast else value
  | _ => value

/-- Read the attributes of a tag. The result holds them and the text that is left. -/
def readAttributes : Nat → Char → List Char → List (String × String) × List Char
  | 0, _, cs => ([], cs)
  | fuel + 1, before, cs =>
    match readAttribute? before cs with
    | none => ([], cs)
    | some (found, before, rest) =>
      let (before, rest) := skipBetween before rest
      let (attributes, rest) := readAttributes fuel before rest
      let value := (found.value.map fun v => resolveReferences (unquoteValue v)).getD []
      ((Text.lower (String.ofList found.name), String.ofList value) :: attributes, rest)

/-- What a start tag says, given its whole text without the `<`. Nothing if it is no tag after all
    and stays text. -/
def startTagEvent? (tag : List Char) : Option Event :=
  let name := tag.takeWhile fun c => !endsTagName c
  let (before, rest) := skipBetween (lastOr '<' name) (tag.drop name.length)
  let (attributes, rest) := readAttributes rest.length before rest
  let lowerName := Text.lower (String.ofList name)
  match Text.trimBlanks rest with
  | ['>'] => some (.startTag lowerName attributes false)
  | ['/', '>'] => some (.startTag lowerName attributes true)
  | _ => none

/-! ## Single steps -/

/-- The elements whose content is raw text. -/
def isRawTextElement (name : String) : Bool :=
  name == "script" || name == "style"

/-- The result of reading one piece of markup. -/
inductive Step where
  /-- The events found, the raw-text element that is now open, and the rest. -/
  | found (events : List Event) (rawText : Option String) (rest : List Char)
  /-- More text is needed. -/
  | unfinished
  /-- No more is to be read as markup in this pass; the rest starts here. -/
  | pause (events : List Event) (rest : List Char)
  | refused (cause : MarkupError)

/-- Read a start tag, given the text after its `<`. -/
def readStartTag (cs : List Char) : Step :=
  match findTagEnd cs with
  | .unfinished => .unfinished
  | .at rest =>
    let tag := cs.take (cs.length - rest.length)
    match startTagEvent? tag with
    | none => .found [.text ('<' :: tag)] none rest
    | some (.startTag name attributes selfClosing) =>
      .found [.startTag name attributes selfClosing]
        (if isRawTextElement name && !selfClosing then some name else none) rest
    | some event => .found [event] none rest

/-- Characters of the name in a plain end tag, after its first one. -/
def isEndTagNameChar (c : Char) : Bool :=
  Text.isAsciiAlphanumeric c || c == '-' || c == '.' || c == ':' || c == '_'

/-- A plain end tag, `</name>` with blanks around the name: the name and the rest. -/
def plainEndTag? (afterSlash : List Char) : Option (List Char × List Char) :=
  match Text.skipBlanks afterSlash with
  | [] => none
  | c :: r =>
    if !Text.isAsciiLetter c then none
    else
      let name := c :: r.takeWhile isEndTagNameChar
      match Text.skipBlanks ((c :: r).drop name.length) with
      | '>' :: rest => some (name, rest)
      | _ => none

/-- Read an end tag, given the text after its `</`. -/
def readEndTag (rawText : Option String) (cs : List Char) : Step :=
  match Text.cutBefore? (· == '>') cs with
  | none => .unfinished
  | some (before, afterBefore) =>
    let rest := afterBefore.drop 1
    match plainEndTag? cs with
    | some (name, rest) =>
      let name := Text.lower (String.ofList name)
      match rawText with
      | some element =>
        if name = element then .found [.endTag name] none rest
        else .found [.text ('<' :: '/' :: before ++ ['>'])] rawText rest
      | none => .found [.endTag name] none rest
    | none =>
      if rawText.isSome then .found [.text ('<' :: '/' :: before ++ ['>'])] rawText rest
      else match cs with
        | '>' :: rest => .found [] none rest
        | c :: _ =>
          if Text.isAsciiLetter c then
            let name := cs.takeWhile fun c => !endsTagName c
            .found [.endTag (Text.lower (String.ofList name))] none rest
          else .found [.comment before] none rest
        | [] => .unfinished

/-- The end of a comment: two hyphens, blanks and `>`. -/
def commentEnd? (cs : List Char) : Option (List Char) :=
  match cs with
  | '-' :: '-' :: r => match Text.skipBlanks r with
    | '>' :: rest => some rest
    | _ => none
  | _ => none

/-- The end of a marked section: brackets, two or one, with blanks after each, and `>`. -/
def sectionEnd? (double : Bool) (cs : List Char) : Option (List Char) :=
  let close (r : List Char) : Option (List Char) :=
    match Text.skipBlanks r with
    | '>' :: rest => some rest
    | _ => none
  match cs with
  | ']' :: r =>
    if double then
      match Text.skipBlanks r with
      | ']' :: r => close r
      | _ => none
    else close r
  | _ => none

/-- Characters of the name of a marked section, after its first one. -/
def isSectionNameChar (c : Char) : Bool :=
  Text.isAsciiAlphanumeric c || c == '-' || c == '_' || c == '.'

/-- Read a marked section, given the text after its `<![`. -/
def readSection (cs : List Char) : Step :=
  match cs with
  | [] => .unfinished
  | c :: r =>
    if !Text.isAsciiLetter c then .refused (.sectionWithoutName (('<' :: '!' :: '[' :: cs).take 20))
    else
      let name := c :: r.takeWhile isSectionNameChar
      let afterName := cs.drop name.length
      let blanks := afterName.takeWhile Text.isBlank
      if afterName.length = blanks.length then .unfinished
      else
        let keyword := String.ofList (Text.asciiLower name)
        let finish (double : Bool) : Step :=
          match Text.cutAround? (sectionEnd? double) cs with
          | none => .unfinished
          | some (content, rest) => .found [.section_ content] none rest
        if ["temp", "cdata", "ignore", "include", "rcdata"].contains keyword then finish true
        else if ["if", "else", "endif"].contains keyword then finish false
        else .refused (.unknownSection (name ++ blanks))

/-- Read a declaration, comment or marked section, given the text after its `<!`. -/
def readDeclaration (cs : List Char) : Step :=
  match cs with
  | '-' :: '-' :: r =>
    match Text.cutAround? commentEnd? r with
    | none => .unfinished
    | some (content, rest) => .found [.comment content] none rest
  | '[' :: r => readSection r
  | r =>
    if Text.startsWithNoCase "doctype" r then
      match Text.cutBefore? (· == '>') (r.drop 7) with
      | none => .unfinished
      | some (content, rest) => .found [.doctype ((r.take 7 ++ content).drop 8)] none (rest.drop 1)
    else
      match Text.cutBefore? (· == '>') r with
      | none => .unfinished
      | some (content, rest) => .found [.comment content] none (rest.drop 1)

/-- Read markup at a `<`, given the text after it. -/
def readMarkup (rawText : Option String) (cs : List Char) : Step :=
  match cs with
  | [] => .pause [] ['<']
  | '/' :: r => readEndTag rawText r
  | '!' :: r => readDeclaration r
  | '?' :: r =>
    match Text.cutBefore? (· == '>') r with
    | none => .unfinished
    | some (content, rest) => .found [.instruction content] none (rest.drop 1)
  | c :: r =>
    if Text.isAsciiLetter c then readStartTag (c :: r) else .found [.text ['<']] none (c :: r)

/-- The character for a numbered reference in text. Numbers below 256 are read in an old Western
    code page. -/
def numberedTextCharacter (n : Nat) : Char :=
  if n < 0x80 then Char.ofNat n
  else match numberedCharacters.lookup n with
    | some m => Char.ofNat m
    | none =>
      if (0xD800 ≤ n && n ≤ 0xDFFF) || 0x10FFFF < n then replacementChar else Char.ofNat n

/-- A numbered reference in text, after its `&#`: its number and the rest. Some character must
    follow the digits; a semicolon is taken with them. -/
def numberedInText? (cs : List Char) : Option (Nat × List Char) :=
  let finish (value : List Char → Nat) (isDigit : Char → Bool) (r : List Char) :
      Option (Nat × List Char) :=
    let digits := r.takeWhile isDigit
    if digits.isEmpty then none
    else match r.drop digits.length with
      | [] => none
      | ';' :: rest => some (value digits, rest)
      | c :: rest => if Text.isHexDigit c then none else some (value digits, c :: rest)
  match cs with
  | 'x' :: r | 'X' :: r => finish Text.hexValue Text.isHexDigit r
  | r => finish Text.decimalValue Text.isAsciiDigit r

/-- Characters of a name in text, after its first one. -/
def isTextNameChar (c : Char) : Bool :=
  Text.isAsciiAlphanumeric c || c == '-' || c == '.'

/-- The longest name of at most `n` characters that is not followed by a letter or a digit. Some
    character must follow it. -/
def nameBeforeOther (cs : List Char) : Nat → Option (List Char × List Char)
  | 0 => none
  | n + 1 =>
    match cs.drop (n + 1) with
    | c :: rest =>
      if Text.isAsciiAlphanumeric c then nameBeforeOther cs n
      else some (cs.take (n + 1), c :: rest)
    | [] => nameBeforeOther cs n

/-- A named reference in text, after its `&`: the name and the rest. -/
def namedInText? (cs : List Char) : Option (List Char × List Char) :=
  match cs with
  | [] => none
  | c :: r =>
    if Text.isAsciiLetter c then nameBeforeOther cs ((r.takeWhile isTextNameChar).length + 1)
    else none

/-- Read a reference at a `&`, given the text after it. -/
def readTextReference (final : Bool) (cs : List Char) : Step :=
  match cs with
  | '#' :: r =>
    match numberedInText? r with
    | some (n, rest) => .found [.text [numberedTextCharacter n]] none rest
    | none => if r.contains ';' then .pause [.text ['&', '#']] r else .pause [] ('&' :: cs)
  | _ =>
    match namedInText? cs with
    | some (name, rest) =>
      let text := (namedCharacter? name).getD ('&' :: name)
      let rest := match rest with
        | ';' :: r => r
        | r => r
      .found [.text text] none rest
    | none =>
      match cs with
      | [] => .pause [] ['&']
      | c :: r =>
        if Text.isAsciiLetter c then
          if final && r.isEmpty then .pause [] [c] else .pause [] ('&' :: cs)
        else .found [.text ['&']] none cs

/-! ## Passes -/

/-- The start of an end tag that closes a raw-text element. -/
def closesRawText (element : String) (cs : List Char) : Bool :=
  match cs with
  | '<' :: '/' :: r =>
    let r := Text.skipBlanks r
    Text.startsWithNoCase element r &&
      (Text.skipBlanks (r.drop element.length)).head? == some '>'
  | _ => false

/-- The text up to the next place where markup or a reference may start. Nothing if raw text never
    ends. -/
def textBeforeMarkup? (rawText : Option String) (cs : List Char) : Option (List Char × List Char) :=
  match rawText with
  | some element => Text.cutBeforeMatch? (closesRawText element) cs
  | none => some ((Text.cutBefore? (fun c => c == '&' || c == '<') cs).getD (cs, []))

/-- An unfinished piece of markup taken as text: up to the next `>`, or else up to the next `<`. -/
def takeUnfinished (afterFirst : List Char) : List Char × List Char :=
  match Text.cutBefore? (· == '>') afterFirst with
  | some (before, rest) => (before ++ ['>'], rest.drop 1)
  | none => match Text.cutBefore? (· == '<') afterFirst with
    | some found => found
    | none => ([], afterFirst)

/-- What a pass leaves: the events found, the raw-text element still open, and the text not read. -/
structure Pass where
  events : List Event
  rawText : Option String
  rest : List Char

def Pass.prepend (events : List Event) (p : Pass) : Pass :=
  { p with events := events ++ p.events }

/-- The event for a piece of text, if there is any. -/
def textEvents (cs : List Char) : List Event :=
  if cs.isEmpty then [] else [.text cs]

/-- Read markup until the text ends or the pass has to stop. Every round takes at least one
    character, so as many rounds as there are characters are enough. -/
def runPass (final : Bool) : Nat → Option String → List Char → Except MarkupError Pass
  | 0, rawText, cs => .ok ⟨[], rawText, cs⟩
  | _ + 1, rawText, [] => .ok ⟨[], rawText, []⟩
  | fuel + 1, rawText, cs@(_ :: _) =>
    match textBeforeMarkup? rawText cs with
    | none => .ok ⟨[], rawText, cs⟩
    | some (text, markup) =>
      match markup with
      | [] => .ok ⟨textEvents text, rawText, []⟩
      | first :: after =>
        let step := if first = '<' then readMarkup rawText after else readTextReference final after
        match step with
        | .found events rawText rest =>
          (runPass final fuel rawText rest).map (Pass.prepend (textEvents text ++ events))
        | .pause events rest => .ok ⟨textEvents text ++ events, rawText, rest⟩
        | .refused cause => .error cause
        | .unfinished =>
          if final then
            let (taken, rest) := takeUnfinished after
            (runPass final fuel rawText rest).map
              (Pass.prepend (textEvents text ++ [.text (first :: taken)]))
          else .ok ⟨textEvents text, rawText, markup⟩

/-- The events of a text. What the second pass leaves is text, unless it is the content of an
    element of raw text that is never closed, which is dropped. -/
def readEvents (cs : List Char) : Except MarkupError (List Event) := do
  let first ← runPass false cs.length none cs
  let second ← runPass true first.rest.length first.rawText first.rest
  let last := if second.rawText.isSome then [] else textEvents second.rest
  return first.events ++ second.events ++ last

end Folio.Html

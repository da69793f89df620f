import Folio.Json.Printer
import Folio.Number.Written

set_option autoImplicit false

/-! # Reading plain data

JSON is read from the front of a text, and what is left of the text is the place where reading goes on.
A fault is reported with its line and column, which follow from how much was left when it was met. The escapes
of two halves that make a pair are a character, unless they stand for halves that were there one by one. -/

namespace Folio.Json

/-! ## Faults -/

/-- What is wrong with a text. -/
inductive Defect where
  | byteOrderMark
  | noValue
  | noName
  | noColon
  | noComma
  | moreData
  | openString
  | controlCharacter
  | badEscape
  | badUnitEscape
  /-- A name with halves, which no object has here. -/
  | brokenName
  /-- An integer with too many digits. -/
  | hugeInteger (count : Nat)
deriving Repr, DecidableEq

/-- A defect, and how many characters of the text were left where it was met. -/
structure Fault where
  defect : Defect
  left : Nat
deriving Repr, DecidableEq

/-- The name of a defect. -/
def Defect.text : Defect → String
  | byteOrderMark => "Unexpected UTF-8 BOM (decode using utf-8-sig)"
  | noValue => "Expecting value"
  | noName => "Expecting property name enclosed in double quotes"
  | noColon => "Expecting ':' delimiter"
  | noComma => "Expecting ',' delimiter"
  | moreData => "Extra data"
  | openString => "Unterminated string starting at"
  | controlCharacter => "Invalid control character at"
  | badEscape => "Invalid \\escape"
  | badUnitEscape => "Invalid \\uXXXX escape"
  | brokenName => "Invalid property name at"
  | hugeInteger count => (IntegerError.tooManyDigits count).message

/-- Whether a fault is one of the text's form, rather than of a number. -/
def Fault.isFormal (f : Fault) : Bool :=
  match f.defect with
  | .hugeInteger _ => false
  | _ => true

/-- The text that reports a fault of a text. -/
def Fault.message (f : Fault) (text : List Char) : String :=
  let before := text.take (text.length - f.left)
  if f.isFormal then
    let column := (before.reverse.takeWhile (· != '\n')).length + 1
    f.defect.text ++ ": line " ++ toString (before.count '\n' + 1) ++ " column " ++ toString column ++
      " (char " ++ toString before.length ++ ")"
  else f.defect.text

/-- What is read from the front of a text, and the rest. -/
abbrev Read (α : Type) := Except Fault (α × List Char)

/-- Report a defect where a text is left. -/
def fail {α : Type} (defect : Defect) (rest : List Char) : Read α :=
  .error ⟨defect, rest.length⟩

/-- Drop the blanks that may stand between tokens. -/
def skipSpace (cs : List Char) : List Char :=
  cs.dropWhile fun c => c == ' ' || c == '\t' || c == '\n' || c == '\r'

/-! ## Strings -/

/-- The number of four digits of base sixteen. -/
def unitOf? (cs : List Char) : Option Nat :=
  if cs.length = 4 ∧ cs.all Text.isHexDigit then some (digitsValue 16 cs) else none

/-- The unit that an escape after a backslash stands for, and the rest. -/
def unitEscape? (cs : List Char) : Option (Nat × List Char) :=
  match cs with
  | 'u' :: cs => (unitOf? (cs.take 4)).map fun n => (n, cs.drop 4)
  | _ => none

/-- The character of an escape by one letter. -/
def letterEscape? (c : Char) : Option Char :=
  match c with
  | '"' => some '"'
  | '\\' => some '\\'
  | '/' => some '/'
  | 'b' => some '\x08'
  | 'f' => some '\x0c'
  | 'n' => some '\n'
  | 'r' => some '\r'
  | 't' => some '\t'
  | _ => none

/-- The point that a unit is. -/
def unitPoint (n : Nat) : Text.Point :=
  match Text.Point.half? n with
  | some h => .half h
  | none => .char (Char.ofNat n)

/-- Read the rest of a string after its opening quote. `start` is how much was left at that quote, and
    `fuel` is more than the number of characters. -/
def readString (start : Nat) : Nat → List Char → Read (List Text.Point)
  | 0, _ => .error ⟨.openString, start⟩
  | _ + 1, [] => .error ⟨.openString, start⟩
  | fuel + 1, c :: cs =>
    if c = '"' then .ok ([], cs)
    else if c = '\\' then
      match cs with
      | [] => .error ⟨.openString, start⟩
      | 'u' :: _ =>
        match unitEscape? cs with
        | none => fail .badUnitEscape cs
        | some (n, rest) =>
          if rest.isEmpty then fail .badUnitEscape cs
          else (readString start fuel rest).map fun (ps, rest) => (unitPoint n :: ps, rest)
      | e :: rest =>
        match letterEscape? e with
        | some d => (readString start fuel rest).map fun (ps, rest) => (.char d :: ps, rest)
        | none => fail .badEscape (c :: cs)
    else if c.toNat < 0x20 then fail .controlCharacter (c :: cs)
    else (readString start fuel cs).map fun (ps, rest) => (.char c :: ps, rest)

/-- Read the rest of a string after its opening quote. `joins` tells whether the halves of pairs are joined. -/
def readQuoted (joins : Bool) (cs : List Char) : Read (List Text.Point) :=
  (readString (cs.length + 1) (cs.length + 1) cs).map fun (ps, rest) =>
    (if joins then Text.joinPairs ps else ps, rest)

/-! ## Numbers -/

/-- The digits of an integer at the front of a text: a zero alone, or digits of which the first is
    none. -/
def integerDigits (cs : List Char) : List Char :=
  match cs with
  | '0' :: _ => ['0']
  | _ => cs.takeWhile Text.isAsciiDigit

/-- The digits after the point at the front of a text. -/
def fractionAt (cs : List Char) : List Char :=
  match cs with
  | '.' :: rest => rest.takeWhile Text.isAsciiDigit
  | _ => []

/-- The exponent at the front of a text, with its letter and sign. -/
def exponentAt (cs : List Char) : List Char :=
  match cs with
  | e :: rest =>
    if e = 'e' ∨ e = 'E' then
      let sign := rest.take 1 |>.filter fun c => c == '+' || c == '-'
      let digits := (rest.drop sign.length).takeWhile Text.isAsciiDigit
      if digits.isEmpty then [] else e :: sign ++ digits
    else []
  | [] => []

/-- Read a number. -/
def readNumber (cs : List Char) : Read Json :=
  let sign := cs.takeWhile (· == '-') |>.take 1
  let whole := integerDigits (cs.drop sign.length)
  if whole.isEmpty then fail .noValue cs
  else
    let rest := cs.drop (sign.length + whole.length)
    let fraction := fractionAt rest
    let rest := if fraction.isEmpty then rest else rest.drop (fraction.length + 1)
    let exponent := exponentAt rest
    let rest := rest.drop exponent.length
    if fraction.isEmpty && exponent.isEmpty then
      if maxDigits < whole.length then fail (.hugeInteger whole.length) cs
      else
        let n : Int := (Text.decimalValue whole : Nat)
        .ok (.int (if sign.isEmpty then n else -n), rest)
    else
      let power := (readExponent? exponent).getD 0 - fraction.length
      .ok (.float (.ofDecimal (!sign.isEmpty) (Text.decimalValue (whole ++ fraction)) power), rest)

/-! ## Data -/

/-- Read a name after its opening quote. -/
def readName (joins : Bool) (cs : List Char) : Read String :=
  match readQuoted joins cs with
  | .error f => .error f
  | .ok (ps, rest) =>
    match Text.ofPoints ps with
    | .ok name => .ok (name, rest)
    | .error _ => fail .brokenName cs

/-- The words that are data. -/
def dataWords : List (List Char × Json) :=
  [("null".toList, .null), ("true".toList, .bool true), ("false".toList, .bool false),
    ("NaN".toList, .float .nan), ("Infinity".toList, .float (.infinite false)),
    ("-Infinity".toList, .float (.infinite true))]

/-- The word at the front of a text, and the rest. -/
def readWord? (cs : List Char) : Option (Json × List Char) :=
  dataWords.findSome? fun (word, j) => (Text.dropPrefix? word cs).map fun rest => (j, rest)

mutual

/-- Read data. `fuel` is more than the number of characters. -/
def readValue (joins : Bool) : Nat → List Char → Read Json
  | 0, cs => fail .noValue cs
  | fuel + 1, cs =>
    match cs with
    | '"' :: rest => (readQuoted joins rest).map fun (ps, rest) => (.ofPoints ps, rest)
    | '\x7b' :: rest =>
      let rest := skipSpace rest
      if rest.head? = some '\x7d' then .ok (.object [], rest.tail)
      else (readMembers joins fuel rest).map fun (members, rest) => (.object (membersOf members), rest)
    | '[' :: rest =>
      let rest := skipSpace rest
      if rest.head? = some ']' then .ok (.array [], rest.tail)
      else (readItems joins fuel rest).map fun (items, rest) => (.array items, rest)
    | _ =>
      match readWord? cs with
      | some (j, rest) => .ok (j, rest)
      | none => readNumber cs
termination_by structural fuel => fuel

/-- Read the items of a list up to its closing bracket. -/
def readItems (joins : Bool) : Nat → List Char → Read (List Json)
  | 0, cs => fail .noValue cs
  | fuel + 1, cs =>
    match readValue joins fuel cs with
    | .error f => .error f
    | .ok (j, rest) =>
      match skipSpace rest with
      | ']' :: rest => .ok ([j], rest)
      | ',' :: rest => (readItems joins fuel (skipSpace rest)).map fun (items, rest) => (j :: items, rest)
      | rest => fail .noComma rest
termination_by structural fuel => fuel

/-- Read the members of an object up to its closing brace. -/
def readMembers (joins : Bool) : Nat → List Char → Read (List (String × Json))
  | 0, cs => fail .noName cs
  | fuel + 1, cs =>
    match cs with
    | '"' :: rest =>
      match readName joins rest with
      | .error f => .error f
      | .ok (name, rest) =>
        match skipSpace rest with
        | ':' :: rest =>
          match readValue joins fuel (skipSpace rest) with
          | .error f => .error f
          | .ok (j, rest) =>
            match skipSpace rest with
            | '\x7d' :: rest => .ok ([(name, j)], rest)
            | ',' :: rest =>
              (readMembers joins fuel (skipSpace rest)).map fun (members, rest) => ((name, j) :: members, rest)
            | rest => fail .noComma rest
        | rest => fail .noColon rest
    | _ => fail .noName cs
termination_by structural fuel => fuel

end

/-- Read data that is a whole text. -/
def readData (joins : Bool) (cs : List Char) : Except Fault Json :=
  if cs.head? = some '\uFEFF' then .error ⟨.byteOrderMark, cs.length⟩
  else
    match readValue joins (2 * cs.length + 2) (skipSpace cs) with
    | .error f => .error f
    | .ok (j, rest) =>
      let rest := skipSpace rest
      if rest.isEmpty then .ok j else .error ⟨.moreData, rest.length⟩

/-- Read data that is the text of a file. -/
def readChars (cs : List Char) : Except Fault Json :=
  readData true cs

/-- Read data that is a text in memory, which holds halves as they are. -/
def readPoints (ps : List Text.Point) : Except Fault Json :=
  readData false (withEscapes ps)

end Folio.Json

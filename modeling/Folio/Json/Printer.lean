import Folio.Json
import Folio.Number.Shortest

set_option autoImplicit false

/-! # Writing plain data

Plain data is written as JSON on one line, or on lines that are indented by two blanks a level. What a
style does not say is the same in all of them: strings stand in double quotes, control characters and halves
are escaped, and the order of members is kept. Text in memory need not escape halves (`withHalves`). -/

namespace Folio.Json

/-- How plain data is written. -/
structure Style where
  /-- Whether every member and item has a line of its own. -/
  onLines : Bool
  /-- Whether characters beyond ASCII are escaped. -/
  asciiOnly : Bool
  floats : Binary64.FloatStyle
  /-- Whether numbers that are not finite are written as nulls. -/
  finiteOnly : Bool

/-- Floating-point numbers with words for those that are not finite. -/
def floatStyle : Binary64.FloatStyle := ⟨-4, 16, 2, "NaN", "Infinity"⟩

/-- One line that keeps every character but those of control. -/
def oneLine : Style := ⟨false, false, floatStyle, false⟩

/-- Lines of ASCII characters. -/
def asciiLines : Style := ⟨true, true, floatStyle, false⟩

/-- Lines for readers who know finite numbers only; exponents have the digits they need. -/
def strictLines : Style := ⟨true, false, ⟨-5, 16, 1, "NaN", "Infinity"⟩, true⟩

/-! ## Strings -/

/-- The escape of a number below `10000` in base sixteen. -/
def escapeUnit (n : Nat) : List Char :=
  '\\' :: 'u' :: Text.hexDigits 4 n

/-- The escape of a character: one unit, or two for a character that needs more than four digits. -/
def escapeChar (c : Char) : List Char :=
  let n := c.toNat
  if n < 0x10000 then escapeUnit n
  else escapeUnit (0xD800 + (n - 0x10000) / 0x400) ++ escapeUnit (0xDC00 + (n - 0x10000) % 0x400)

/-- A character inside quotes. -/
def stringChar (asciiOnly : Bool) (c : Char) : List Char :=
  if c = '"' ∨ c = '\\' then ['\\', c]
  else if c = '\n' then ['\\', 'n']
  else if c = '\r' then ['\\', 'r']
  else if c = '\t' then ['\\', 't']
  else if c = '\x08' then ['\\', 'b']
  else if c = '\x0c' then ['\\', 'f']
  else if c.toNat < 0x20 then escapeChar c
  else if asciiOnly ∧ 0x7E < c.toNat then escapeChar c
  else [c]

/-- A point inside quotes. -/
def stringPoint (asciiOnly : Bool) : Text.Point → List Char
  | .char c => stringChar asciiOnly c
  | .half h => escapeUnit (Text.halfNumber h)

/-- A string with halves in quotes. -/
def brokenChars (asciiOnly : Bool) (ps : List Text.Point) : List Char :=
  '"' :: ps.flatMap (stringPoint asciiOnly) ++ ['"']

/-- A string in quotes. -/
def stringChars (asciiOnly : Bool) (cs : List Char) : List Char :=
  '"' :: cs.flatMap (stringChar asciiOnly) ++ ['"']

/-! ## Numbers -/

/-- Whether a number is finite. -/
def isFinite : Binary64 → Bool
  | .finite _ _ _ _ => true
  | _ => false

/-- A floating-point number. -/
def floatChars (style : Style) (x : Binary64) : List Char :=
  if style.finiteOnly && !isFinite x then "null".toList else (x.toText style.floats).toList

mutual

/-- Whether plain data has an integer that is not written. -/
def hasHugeInteger : Json → Bool
  | int n => isHuge n
  | array items => anyHugeInteger items
  | object members => anyHugeMember members
  | _ => false

/-- Whether one of some plain data has an integer that is not written. -/
def anyHugeInteger : List Json → Bool
  | [] => false
  | j :: rest => hasHugeInteger j || anyHugeInteger rest

/-- Whether one of some members has an integer that is not written. -/
def anyHugeMember : List (String × Json) → Bool
  | [] => false
  | (_, j) :: rest => hasHugeInteger j || anyHugeMember rest

end

mutual

/-- The first text with halves in plain data. -/
def firstBroken? : Json → Option Text.Broken
  | broken t => some t
  | array items => firstBrokenItem? items
  | object members => firstBrokenMember? members
  | _ => none

/-- The first text with halves in some plain data. -/
def firstBrokenItem? : List Json → Option Text.Broken
  | [] => none
  | j :: rest => (firstBroken? j).or (firstBrokenItem? rest)

/-- The first text with halves in some members. -/
def firstBrokenMember? : List (String × Json) → Option Text.Broken
  | [] => none
  | (_, j) :: rest => (firstBroken? j).or (firstBrokenMember? rest)

end

/-! ## Data -/

/-- A new line at a level. -/
def newLine (level : Nat) : List Char :=
  '\n' :: List.replicate (2 * level) ' '

/-- Parts between brackets, at a level. -/
def bracket (style : Style) (level : Nat) (first last : Char) (parts : List (List Char)) : List Char :=
  if parts.isEmpty then [first, last]
  else if style.onLines then
    first :: newLine (level + 1) ++ List.intercalate (',' :: newLine (level + 1)) parts ++
      newLine level ++ [last]
  else first :: List.intercalate [',', ' '] parts ++ [last]

mutual

/-- Plain data at a level. -/
def chars (style : Style) (level : Nat) : Json → List Char
  | null => "null".toList
  | bool b => (if b then "true" else "false").toList
  | int n => (toString n).toList
  | float x => floatChars style x
  | string s => stringChars style.asciiOnly s.toList
  | broken t => brokenChars style.asciiOnly t.points
  | array items => bracket style level '[' ']' (itemChars style (level + 1) items)
  | object members => bracket style level '\x7b' '\x7d' (memberChars style (level + 1) members)

/-- The items of a list. -/
def itemChars (style : Style) (level : Nat) : List Json → List (List Char)
  | [] => []
  | j :: rest => chars style level j :: itemChars style level rest

/-- The members of an object. -/
def memberChars (style : Style) (level : Nat) : List (String × Json) → List (List Char)
  | [] => []
  | (name, j) :: rest =>
    (stringChars style.asciiOnly name.toList ++ ':' :: ' ' :: chars style level j) ::
      memberChars style level rest

end

/-! ## Halves -/

/-- The half whose escape stands at the front of a text. -/
def halfEscape? (cs : List Char) : Option Text.Half :=
  match cs with
  | 'u' :: cs => (Text.Point.half? (Text.hexValue (cs.take 4))).filter fun h =>
    Text.hexDigits 4 (Text.halfNumber h) == cs.take 4
  | _ => none

/-- A text with halves in place of their escapes, after so many characters that belong to one. -/
def halvesFrom : Nat → List Char → List Text.Point
  | _, [] => []
  | n + 1, _ :: cs => halvesFrom n cs
  | 0, c :: cs =>
    if c = '\\' then
      match halfEscape? cs with
      | some h => .half h :: halvesFrom 5 cs
      | none =>
        match cs with
        | d :: cs => .char c :: .char d :: halvesFrom 0 cs
        | [] => [.char c]
    else .char c :: halvesFrom 0 cs

/-- A text with halves in place of their escapes. A backslash that is escaped itself begins none. -/
def withHalves (cs : List Char) : List Text.Point :=
  halvesFrom 0 cs

/-- A text with the escapes of halves in their place. -/
def withEscapes (ps : List Text.Point) : List Char :=
  ps.flatMap fun
    | .char c => [c]
    | .half h => escapeUnit (Text.halfNumber h)

/-- Plain data as text. -/
def print (style : Style) (j : Json) : String :=
  String.ofList (chars style 0 j)

end Folio.Json

import Folio.Text.Quoted
import Folio.Text.Scan

set_option autoImplicit false

/-! # Templates

A template is text with fields in braces; a brace that is written twice stands for itself. A field names
a value, may take a character of it, may quote it, and may say how it is laid out: how wide, on which
side, and how much of it at most. Filling in a template puts texts in the place of its fields. -/

namespace Folio

/-- Why a template cannot be filled in. -/
inductive TemplateError where
  | unknownName (name : String)
  /-- A field by number; there are only names. -/
  | number (n : Nat)
  | noAttribute (name : String)
  | indexRange
  | indexNotNumber
  /-- A part of a field's name, a layout or a brace in the wrong place. -/
  | form (message : String)
deriving Repr, DecidableEq

/-- The text that reports the cause. -/
def TemplateError.message : TemplateError → String
  | unknownName name => Text.quote name.toList
  | number n => "Replacement index " ++ toString n ++ " out of range for positional args tuple"
  | noAttribute name => "'str' object has no attribute " ++ Text.quote name.toList
  | indexRange => "string index out of range"
  | indexNotNumber => "string indices must be integers, not 'str'"
  | form message => message

namespace Template

/-! ## The parts of a template -/

/-- A field as it is written between braces. -/
structure FieldText where
  name : List Char
  conversion : Option Char := none
  layout : List Char := []
deriving Repr, DecidableEq

/-- Read a field's layout up to the brace that closes the field, which may hold fields itself: the
    layout and the rest. `depth` is how many braces are open. -/
def readLayout : Nat → List Char → Except TemplateError (List Char × List Char)
  | _, [] => .error (.form "unmatched '\x7b' in format spec")
  | depth, c :: cs =>
    if c = '\x7d' ∧ depth = 1 then .ok ([], cs)
    else
      let depth := if c = '\x7b' then depth + 1 else if c = '\x7d' then depth - 1 else depth
      (readLayout depth cs).map fun (layout, rest) => (c :: layout, rest)

/-- Read a field's name up to the character that ends it: the name, that character and the rest.
    Inside brackets nothing ends it. -/
def readName : Bool → List Char → Except TemplateError (List Char × Char × List Char)
  | _, [] => .error (.form "expected '\x7d' before end of string")
  | inBrackets, c :: cs =>
    let more (inBrackets : Bool) : Except TemplateError (List Char × Char × List Char) :=
      (readName inBrackets cs).map fun (name, stop, rest) => (c :: name, stop, rest)
    if inBrackets then more (c != ']')
    else if c = '\x7b' then .error (.form "unexpected '\x7b' in field name")
    else if c = '[' then more true
    else if c = '\x7d' ∨ c = ':' ∨ c = '!' then .ok ([], c, cs)
    else more false

/-- Read a field after its opening brace: the field and the rest. -/
def readField (cs : List Char) : Except TemplateError (FieldText × List Char) := do
  let (name, stop, rest) ← readName false cs
  if stop = '\x7d' then return (⟨name, none, []⟩, rest)
  if stop = ':' then
    let (layout, rest) ← readLayout 1 rest
    return (⟨name, none, layout⟩, rest)
  match rest with
  | [] => throw (.form "end of string while looking for conversion specifier")
  | [_] => throw (.form "unmatched '\x7b' in format spec")
  | conversion :: '\x7d' :: rest => return (⟨name, some conversion, []⟩, rest)
  | conversion :: ':' :: rest =>
    let (layout, rest) ← readLayout 1 rest
    return (⟨name, some conversion, layout⟩, rest)
  | _ => throw (.form "expected ':' after conversion specifier")

/-! ## Names -/

/-- A step into a value. -/
inductive Access where
  | attribute (name : List Char)
  | index (text : List Char)
deriving Repr, DecidableEq

/-- The steps after the first name of a field. `fuel` is the number of characters. -/
def readAccesses : Nat → List Char → Except TemplateError (List Access)
  | 0, _ => .ok []
  | _ + 1, [] => .ok []
  | fuel + 1, c :: cs =>
    if c = '.' then do
      let name := cs.takeWhile fun c => c != '.' && c != '['
      if name.isEmpty then throw (.form "Empty attribute in format string")
      return .attribute name :: (← readAccesses fuel (cs.drop name.length))
    else if c = '[' then do
      let text := cs.takeWhile (· != ']')
      let rest := cs.drop text.length
      if rest.isEmpty then throw (.form "Missing ']' in format string")
      if text.isEmpty then throw (.form "Empty attribute in format string")
      return .index text :: (← readAccesses fuel (rest.drop 1))
    else throw (.form "Only '.' or '[' may follow ']' in format field specifier")

/-- The number that some digits stand for. -/
def number? (cs : List Char) : Option Nat :=
  if !cs.isEmpty && cs.all Text.isAsciiDigit then some (Text.decimalValue cs) else none

/-- Take a step into a text. -/
def access (value : List Char) : Access → Except TemplateError (List Char)
  | .attribute name => .error (.noAttribute (String.ofList name))
  | .index text =>
    match number? text with
    | some n =>
      match value[n]? with
      | some c => .ok [c]
      | none => .error .indexRange
    | none => .error .indexNotNumber

/-- The value that a field names. Names are looked up; there are no values by number, and a field
    without a name asks for the first one. -/
def valueOf (values : List (String × String)) (name : List Char) :
    Except TemplateError (List Char) := do
  let first := name.takeWhile fun c => c != '.' && c != '['
  if first.isEmpty then throw (.number 0)
  match number? first with
  | some n => throw (.number n)
  | none =>
    match values.lookup (String.ofList first) with
    | none => throw (.unknownName (String.ofList first))
    | some value =>
      let accesses := name.drop first.length
      (← readAccesses accesses.length accesses).foldlM access value.toList

/-! ## Layout -/

/-- The side on which a text stands in its width. -/
inductive Side where
  | left
  | middle
  | right
deriving Repr, DecidableEq

/-- The side that a mark stands for. -/
def side? (c : Char) : Option Side :=
  match c with
  | '<' => some .left
  | '^' => some .middle
  | '>' => some .right
  | _ => none

/-- Whether a character marks a side, or that a sign comes before the fill. -/
def marksSide (c : Char) : Bool :=
  (side? c).isSome || c == '='

/-- Fill a text up to a width. -/
def pad (fill : Char) (side : Side) (width : Nat) (cs : List Char) : List Char :=
  let missing := width - cs.length
  let before := match side with
    | .left => 0
    | .middle => missing / 2
    | .right => missing
  List.replicate before fill ++ cs ++ List.replicate (missing - before) fill

/-- Lay out a text. -/
def layOut (layout value : List Char) : Except TemplateError (List Char) := do
  let invalid : TemplateError :=
    .form ("Invalid format specifier '" ++ String.ofList layout ++ "' for object of type 'str'")
  let (fill, mark, rest) : Option Char × Option Char × List Char := match layout with
    | f :: m :: rest =>
      if marksSide m then (some f, some m, rest)
      else if marksSide f then (none, some f, m :: rest)
      else (none, none, layout)
    | [m] => if marksSide m then (none, some m, []) else (none, none, layout)
    | [] => (none, none, [])
  let sign := rest.head?.any fun c => c == '+' || c == '-' || c == ' '
  let rest := if sign then rest.tail else rest
  let alternate := rest.head? == some '#'
  let rest := if alternate then rest.tail else rest
  let zero := fill.isNone && rest.head? == some '0'
  let fill := if zero then '0' else fill.getD ' '
  let rest := if zero then rest.tail else rest
  let width := rest.takeWhile Text.isAsciiDigit
  let rest := rest.drop width.length
  let grouping := rest.head?.filter fun c => c == ',' || c == '_'
  let rest := if grouping.isSome then rest.tail else rest
  let (most, rest) : Option (List Char) × List Char := match rest with
    | '.' :: more =>
      let digits := more.takeWhile Text.isAsciiDigit
      (some digits, more.drop digits.length)
    | _ => (none, rest)
  if most == some [] then throw (.form "Format specifier missing precision")
  match rest with
  | [] => pure ()
  | [kind] =>
    if kind ≠ 's' then
      throw (.form ("Unknown format code '" ++ String.ofList [kind] ++ "' for object of type 'str'"))
  | _ => throw invalid
  if let some c := grouping then
    throw (.form ("Cannot specify '" ++ String.ofList [c] ++ "' with 's'."))
  if sign then throw (.form "Sign not allowed in string format specifier")
  if alternate then throw (.form "Alternate form (#) not allowed in string format specifier")
  if mark = some '=' then throw (.form "'=' alignment not allowed in string format specifier")
  let shown := match most with
    | some digits => value.take (Text.decimalValue digits)
    | none => value
  return pad fill ((mark.bind side?).getD .left) (Text.decimalValue width) shown

/-- Convert a value as a field asks. -/
def convert (conversion : Option Char) (value : List Char) : Except TemplateError (List Char) :=
  match conversion with
  | none | some 's' => .ok value
  | some 'r' | some 'a' => .ok (Text.quoteChars value)
  | some c => .error (.form ("Unknown conversion specifier " ++ String.ofList [c]))

/-! ## Filling in -/

/-- A piece of a template. -/
inductive Piece where
  | char (c : Char)
  | field (f : FieldText)
deriving Repr, DecidableEq

/-- The first piece of a template, and the rest. -/
def readPiece (c : Char) (cs : List Char) : Except TemplateError (Piece × List Char) :=
  if c = '\x7b' then
    match cs with
    | [] => .error (.form "Single '\x7b' encountered in format string")
    | d :: rest =>
      if d = '\x7b' then .ok (.char c, rest)
      else (readField cs).map fun (f, rest) => (.field f, rest)
  else if c = '\x7d' then
    match cs with
    | d :: rest =>
      if d = '\x7d' then .ok (.char c, rest)
      else .error (.form "Single '\x7d' encountered in format string")
    | [] => .error (.form "Single '\x7d' encountered in format string")
  else .ok (.char c, cs)

/-- Fill in a template. `depth` is how deep fields may stand in layouts, and `fuel` is more than the
    number of characters. -/
def fillFrom (values : List (String × String)) :
    Nat → Nat → List Char → Except TemplateError (List Char)
  | _, 0, _ => .ok []
  | 0, _, _ => .error (.form "Max string recursion exceeded")
  | _ + 1, _ + 1, [] => .ok []
  | depth + 1, fuel + 1, c :: cs => do
    match ← readPiece c cs with
    | (.char d, rest) => return d :: (← fillFrom values (depth + 1) fuel rest)
    | (.field f, rest) =>
      let value ← convert f.conversion (← valueOf values f.name)
      let layout ←
        if f.layout.contains '\x7b' then fillFrom values depth fuel f.layout else pure f.layout
      return (← layOut layout value) ++ (← fillFrom values (depth + 1) fuel rest)

/-- Fill in a template with values by their names. -/
def fill (template : String) (values : List (String × String)) : Except TemplateError String :=
  (fillFrom values 2 (template.length + 1) template.toList).map String.ofList

end Template

end Folio

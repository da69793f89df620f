import Folio.Schema.Issue
import Folio.Schema.Moment
import Folio.Text.Lower

set_option autoImplicit false

/-! # Shapes of data

A shape says what a value must be. Checking a value against a shape either gives the value in its proper
form, with text read as numbers and flags and with missing parts filled in, or all issues in order. -/

namespace Folio.Schema

/-- A field of a record: its name, the name it has in data, and what stands in for a missing one. -/
structure Field where
  name : String
  key : String
  absent : Option Value
deriving Repr

/-- What is done with the keys of a record that name no field. -/
inductive OtherKeys where
  | drop
  | keep
deriving Repr, DecidableEq

/-- What a value must be. -/
inductive Shape where
  | text (least : Nat)
  /-- A text in which a character stands for each half. -/
  | shown
  /-- A text that is one of some words. -/
  | matching (words : List String)
  /-- One of some words. -/
  | word (words : List String)
  | flag
  | integer (least most : Option Int)
  | moment
  /-- A mapping from names to anything. -/
  | mapping
  | optional (shape : Shape)
  | list (shape : Shape)
  /-- A list that is called a tuple. -/
  | tuple (shape : Shape)
  /-- A record. `byName` tells whether data may use the names of fields for their keys. -/
  | record (name : String) (fields : List (Field × Shape)) (others : OtherKeys) (byName : Bool)
deriving Repr

/-- What makes or fails to make a value of a shape. -/
abbrev Check := Except (List Issue)

namespace Check

/-- Report a defect of a value. -/
def fail {α : Type} (defect : Defect) (input : Value) : Check α :=
  .error [⟨[], defect, input⟩]

/-- Collect the results of several checks, or all their issues. -/
def all {α : Type} : List (Check α) → Check (List α)
  | [] => .ok []
  | .ok a :: rest => (all rest).map (a :: ·)
  | .error issues :: rest =>
    match all rest with
    | .ok _ => .error issues
    | .error more => .error (issues ++ more)

/-- A check of a part of a value. -/
def under {α : Type} (step : Step) (c : Check α) : Check α :=
  c.mapError (·.map (Issue.under step))

end Check

/-! ## Simple values -/

/-- The text that a value is or holds as bytes; `noText` is the defect of bytes that hold none. A text with halves
    cannot be looked into. -/
def textOf (input : Value) (noText : Defect) : Option (Check String) :=
  match input with
  | .string s => some (.ok s)
  | .unwritable (.text _) => some (Check.fail .undecodable input)
  | .bytes bs =>
    match Text.decodeUtf8 bs with
    | .ok cs => some (.ok (String.ofList cs))
    | .error _ => some (Check.fail noText input)
  | _ => none

/-- Check a text. -/
def checkText (input : Value) : Check String :=
  (textOf input .undecodable).getD (Check.fail .notText input)

/-- The flag that a word stands for, letter case disregarded. -/
def flagWord? (word : String) : Option Bool :=
  match String.ofList (Text.asciiLower word.toList) with
  | "0" | "f" | "n" | "no" | "off" | "false" => some false
  | "1" | "t" | "y" | "on" | "yes" | "true" => some true
  | _ => none

/-- The flag that an integer stands for. -/
def flagNumber? (n : Int) : Option Bool :=
  if n = 0 then some false else if n = 1 then some true else none

/-- Check a flag. -/
def checkFlag (input : Value) : Check Bool :=
  let clear (b : Option Bool) : Check Bool :=
    match b with
    | some b => .ok b
    | none => Check.fail .unclearFlag input
  match input with
  | .bool b => .ok b
  | .int n => clear (flagNumber? n)
  | .float x =>
    match x.toInt? with
    | some n => clear (flagNumber? n)
    | none => Check.fail .notAFlag input
  | _ =>
    match textOf input .unclearFlag with
    | some r => r.bind fun s => clear (flagWord? s)
    | none => Check.fail .notAFlag input

/-- The integer that a text stands for: digits, with a point and zeros after them at most. -/
def integerText? (s : String) : Option Int :=
  let (negative, rest) := cutSign (Text.trimBlanks s.toList)
  let whole := rest.takeWhile (· != '.')
  let fraction := (rest.drop whole.length).drop 1
  if fraction.all (· == '0') then
    (joinDigits? Text.isAsciiDigit whole).map fun ds =>
      let n : Int := (Text.decimalValue ds : Nat)
      if negative then -n else n
  else none

/-- Check an integer. -/
def checkInteger (input : Value) : Check Int :=
  match input with
  | .bool b => .ok (if b then 1 else 0)
  | .int n => .ok n
  | .float x =>
    match x with
    | .finite _ _ _ _ =>
      match x.toInt? with
      | some n => if n.natAbs < Nat.pow 2 63 then .ok n else Check.fail .hugeInteger input
      | none => Check.fail .fraction input
    | _ => Check.fail .notFinite input
  | _ =>
    match textOf input .unclearInteger with
    | some r => r.bind fun s =>
      if maxDigits < s.utf8ByteSize then Check.fail .hugeInteger input
      else match integerText? s with
        | some n => .ok n
        | none => Check.fail .unclearInteger input
    | none => Check.fail .notAnInteger input

/-- Check that an integer is in a range. -/
def checkRange (least most : Option Int) (input : Value) (n : Int) : Check Int :=
  if let some most := most then
    if most < n then Check.fail (.tooLarge most) input else checkLeast n
  else checkLeast n
where
  /-- Check that an integer is not too small. -/
  checkLeast (n : Int) : Check Int :=
    match least with
    | some least => if n < least then Check.fail (.tooSmall least) input else .ok n
    | none => .ok n

/-- Check a moment. -/
def checkMoment (input : Value) : Check DateTime :=
  let number (n : Int) (fraction : Nat) : Check DateTime :=
    match momentNumber n fraction with
    | .ok m => .ok m
    | .error e => Check.fail (.unclearDate e.message) input
  match input with
  | .dateTime m => .ok m
  | .date d => .ok ⟨d, {}, none⟩
  | .int n => number n 0
  | .float x =>
    match x with
    | .finite _ _ _ _ =>
      match (x.mul (.ofInt 1000000)).toInt? with
      | some micro => number (micro.fdiv 1000000) (micro.fmod 1000000).toNat
      | none => Check.fail .notAMoment input
    | _ => Check.fail (.unclearMoment "NaN values not permitted") input
  | _ =>
    match textOf input .notAMoment with
    | some r => r.bind fun s =>
      match readMoment s.toList with
      | .ok m => .ok m
      | .error e => Check.fail (.unclearDate e.message) input
    | none => Check.fail .notAMoment input

/-- The items of a value that can stand for a list. -/
def itemsOf? : Value → Option (List Value)
  | .list items | .set items => some items
  | .pair a b => some [a, b]
  | _ => none

/-- The step to a key. -/
def stepOf : Value → Step
  | .string s => .key s
  | .int n => .index n
  | .bool b => .index (if b then 1 else 0)
  | v => .key v.literal

/-- Check the keys of a mapping from names. -/
def checkKeys (defect : Defect) (entries : List (Value × Value)) : Check (List (Value × Value)) :=
  Check.all (entries.map fun (k, v) =>
    if k.isText then .ok (k, v)
    else
      let inKey : Check (Value × Value) := Check.fail defect k
      Check.under (stepOf k) (if defect = .notText then Check.under (.key "[key]") inKey else inKey))

/-! ## Shapes -/

/-- The value of a field in data, with the key that it has there. -/
def Field.find? (byName : Bool) (entries : List (Value × Value)) (f : Field) :
    Option (String × Value) :=
  match Value.field? f.key entries with
  | some v => some (f.key, v)
  | none => if byName then (Value.field? f.name entries).map fun v => (f.name, v) else none

/-- Whether a key names a field. -/
def namesField (byName : Bool) (fields : List (Field × Shape)) (key : String) : Bool :=
  fields.any fun (f, _) => f.key == key || (byName && f.name == key)

mutual

/-- Check a value against a shape. -/
def Shape.check : Shape → Value → Check Value
  | .text least, input =>
    if least = 0 ∧ input.isBroken then .ok input
    else do
      let s ← checkText input
      if s.length < least then Check.fail (.tooShort least) input
      return .string s
  | .shown, input =>
    match input with
    | .unwritable (.text t) => .ok (.string (String.ofList (Text.skeleton t.points)))
    | _ => (checkText input).map .string
  | .matching words, input => do
    let s ← checkText input
    if !words.contains s then Check.fail (.noMatch words) input
    return .string s
  | .word words, input =>
    match input with
    | .string s => if words.contains s then .ok input else Check.fail (.notOneOf words) input
    | .unwritable (.text _) => Check.fail .undecodable input
    | _ => Check.fail (.notOneOf words) input
  | .flag, input => (checkFlag input).map .bool
  | .integer least most, input => do
    let n ← checkInteger input
    return .int (← checkRange least most input n)
  | .moment, input => (checkMoment input).map .dateTime
  | .mapping, input =>
    match input with
    | .map entries => (checkKeys .notText entries).map .map
    | _ => Check.fail .notAMapping input
  | .optional shape, input =>
    match input with
    | .null => .ok .null
    | _ => shape.check input
  | .list shape, input =>
    match itemsOf? input with
    | some items => (Check.all (checkItems shape 0 items)).map .list
    | none => Check.fail .notAList input
  | .tuple shape, input =>
    match itemsOf? input with
    | some items => (Check.all (checkItems shape 0 items)).map .list
    | none => Check.fail .notATuple input
  | .record name fields others byName, input =>
    match input with
    | .map entries =>
      let made := Check.all (checkFields byName input entries fields)
      match others with
      | .drop => made.map .map
      | .keep =>
        -- a key with halves is reported alone
        match entries.find? fun (k, _) => k.isBroken with
        | some (k, _) => Check.fail .undecodable k
        | none =>
          let rest := entries.filter fun (k, _) =>
            match k with
            | .string s => !namesField byName fields s
            | _ => true
          (Check.all [made, checkKeys .notAKey rest]).map fun parts => .map parts.flatten
    | _ => Check.fail (.notARecord name) input

/-- Check the items of a list, which are numbered from a number on. -/
def checkItems (shape : Shape) (n : Nat) : List Value → List (Check Value)
  | [] => []
  | v :: rest => Check.under (.index n) (shape.check v) :: checkItems shape (n + 1) rest

/-- Check the fields of a record. The result has the keys of the fields. -/
def checkFields (byName : Bool) (input : Value) (entries : List (Value × Value)) :
    List (Field × Shape) → List (Check (Value × Value))
  | [] => []
  | (f, shape) :: rest =>
    let made : Check Value :=
      match f.find? byName entries with
      | some (key, v) => Check.under (.key key) (shape.check v)
      | none =>
        match f.absent with
        | some v => .ok v
        | none => Check.under (.key f.key) (Check.fail .missing input)
    made.map (fun v => (Value.string f.key, v)) :: checkFields byName input entries rest

end

/-- The name of a record. -/
def Shape.recordName : Shape → String
  | .record name _ _ _ => name
  | _ => ""

/-- The entries of a value that a record accepts, in its proper form. -/
def Shape.accept (shape : Shape) (input : Value) : Except Refusal (List (Value × Value)) :=
  match shape.check input with
  | .ok (.map entries) => .ok entries
  | .ok _ => .ok []
  | .error issues => .error ⟨shape.recordName, issues⟩

end Folio.Schema

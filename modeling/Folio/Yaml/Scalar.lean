import Folio.Number.Written
import Folio.Text.Lower
import Folio.Value
import Folio.Yaml.Node

set_option autoImplicit false

/-! # Scalars as values

What a scalar with a tag of the language is as a value. A plain scalar got its tag by its form, but a
tag may also be written before any text, which is then read as well as it can be. A text with halves is
a value of no other kind. -/

namespace Folio

namespace Text

/-! ## Bytes written in base 64

Four characters stand for three bytes. What is no character of the notation is skipped, and the text is
over when equals signs complete a group. -/

/-- Why a text stands for no bytes. -/
inductive Base64Error where
  /-- A group has a single character, after so many whole bytes. -/
  | lonelyCharacter (bytes : Nat)
  | padding
deriving Repr, DecidableEq

/-- The text that reports the cause. -/
def Base64Error.message : Base64Error → String
  | lonelyCharacter bytes =>
    "Invalid base64-encoded string: number of data characters (" ++ toString (bytes / 3 * 4 + 1) ++
      ") cannot be 1 more than a multiple of 4"
  | padding => "Incorrect padding"

/-- The six bits that a character stands for. -/
def sextet? (c : Char) : Option Nat :=
  if 'A' ≤ c ∧ c ≤ 'Z' then some (c.toNat - 'A'.toNat)
  else if 'a' ≤ c ∧ c ≤ 'z' then some (c.toNat - 'a'.toNat + 26)
  else if isAsciiDigit c then some (c.toNat - '0'.toNat + 52)
  else if c = '+' then some 62
  else if c = '/' then some 63
  else none

/-- The bytes of a text. `group` counts the characters of the group that have been read, `left` holds
    the bits that are left of them, `pads` counts equals signs, and `count` the bytes so far. -/
def decodeBase64From (group left pads count : Nat) : List Char → Except Base64Error (List UInt8)
  | [] =>
    if group = 0 then .ok []
    else if group = 1 then .error (.lonelyCharacter count)
    else .error .padding
  | c :: cs =>
    if c = '=' then
      if 2 ≤ group then
        if 4 ≤ group + pads + 1 then .ok [] else decodeBase64From group left (pads + 1) count cs
      else decodeBase64From group left pads count cs
    else match sextet? c with
      | none => decodeBase64From group left pads count cs
      | some n =>
        let byte (b : Nat) (group left : Nat) : Except Base64Error (List UInt8) :=
          (decodeBase64From group left 0 (count + 1) cs).map (UInt8.ofNat b :: ·)
        match group with
        | 0 => decodeBase64From 1 n 0 count cs
        | 1 => byte (left * 4 + n / 16) 2 (n % 16)
        | 2 => byte (left * 16 + n / 4) 3 (n % 4)
        | _ => byte (left * 64 + n) 0 0

/-- The bytes of a text. -/
def decodeBase64 (cs : List Char) : Except Base64Error (List UInt8) :=
  decodeBase64From 0 0 0 0 cs

end Text

namespace Yaml

/-- Why a text is not the value that its tag says. -/
inductive ScalarError where
  | integer (cause : IntegerError)
  | notANumber (text : List Text.Point)
  | noNumber
  /-- A part of a number in base 60 that counts more than every number of the format. -/
  | unitTooLarge
  | notATruthValue (text : List Text.Point)
  | notATimestamp
  /-- A collection with the tag of timestamps, which has a text only through its default value. -/
  | timestampInCollection
  | calendar (cause : CalendarError)
  /-- An offset of a day or more, in minutes. -/
  | offset (minutes : Int)
deriving Repr, DecidableEq

/-- A span of time in a report: days and seconds. -/
def spanText (minutes : Int) : String :=
  let days := minutes.fdiv 1440
  let seconds := (minutes - days * 1440) * 60
  let parts := (if days = 0 then [] else ["days=" ++ toString days]) ++
    (if seconds = 0 then [] else ["seconds=" ++ toString seconds])
  "datetime.timedelta(" ++ ", ".intercalate parts ++ ")"

/-- The text that reports the cause. -/
def ScalarError.message : ScalarError → String
  | integer cause => cause.message
  | notANumber text => "could not convert string to float: " ++ String.ofList (Text.quotePoints text)
  | noNumber => "string index out of range"
  | unitTooLarge => "int too large to convert to float"
  | notATruthValue text => String.ofList (Text.quotePoints text)
  | notATimestamp => "'NoneType' object has no attribute 'groupdict'"
  | timestampInCollection => "expected string or bytes-like object, got 'list'"
  | calendar cause => cause.message
  | offset minutes =>
    String.join ["offset must be a timedelta strictly between -timedelta(hours=24) and ",
      "timedelta(hours=24), not ", spanText minutes, "."]

/-! ## Numbers -/

/-- The text of a number without low lines and sign, and whether the sign is negative. -/
def unsigned (ps : List Text.Point) : Except ScalarError (Bool × List Text.Point) :=
  match ps.filter (· != .char '_') with
  | [] => .error .noNumber
  | .char '-' :: rest => .ok (true, rest)
  | .char '+' :: rest => .ok (false, rest)
  | rest => .ok (false, rest)

/-- The integer that digits stand for. The character for a half is no digit. -/
def readDigits (base : Nat) (ps : List Text.Point) : Except ScalarError Int :=
  (readInteger base (Text.skeleton ps)).mapError fun
    | .notAnInteger base _ => .integer (.notAnInteger base ps)
    | cause => .integer cause

/-- The integer that a text stands for: in base 2, 8, 10 or 16, or in base 60 with colons. -/
def integerOf (ps : List Text.Point) : Except ScalarError Int := do
  let (negative, digits) ← unsigned ps
  let n : Int ←
    match digits with
    | [] => .error .noNumber
    | [.char '0'] => pure 0
    | .char '0' :: .char 'b' :: rest => readDigits 2 rest
    | .char '0' :: .char 'x' :: rest => readDigits 16 rest
    | .char '0' :: _ => readDigits 8 digits
    | _ =>
      if digits.contains (.char ':') then do
        let parts ← (Text.cutAt (.char ':') digits).mapM (readDigits 10)
        pure (parts.foldl (fun n part => n * 60 + part) 0)
      else readDigits 10 digits
  return if negative then -n else n

/-- The number that digits stand for. -/
def numberOf (ps : List Text.Point) : Except ScalarError Binary64 :=
  match readFloat? (Text.skeleton ps) with
  | some x => .ok x
  | none => .error (.notANumber ps)

/-- The sum of some parts, of which each counts sixty times as much as the one after it; the parts come
    last one first. No part may count more than the numbers of the format. -/
def sexagesimalSum : Nat → Binary64 → List Binary64 → Except ScalarError Binary64
  | _, sum, [] => .ok sum
  | unit, sum, part :: parts =>
    match Binary64.ofInt unit with
    | .infinite _ => .error .unitTooLarge
    | factor => sexagesimalSum (unit * 60) (sum.add (part.mul factor)) parts

/-- The number that a text stands for. -/
def floatOf (ps : List Text.Point) : Except ScalarError Binary64 := do
  let (negative, digits) ← unsigned (Text.lowerPoints ps)
  let x ←
    match String.ofList (Text.skeleton digits) with
    | ".inf" => pure (Binary64.infinite false)
    | ".nan" => return .nan
    | _ =>
      if digits.contains (.char ':') then do
        let parts ← (Text.cutAt (.char ':') digits).mapM numberOf
        sexagesimalSum 1 .zero parts.reverse
      else numberOf digits
  return if negative then x.neg else x

/-! ## Other scalars -/

/-- The truth value that a word stands for. -/
def truthOf (ps : List Text.Point) : Except ScalarError Bool :=
  let word := Text.lowerPoints ps
  match String.ofList (Text.skeleton word) with
  | "yes" | "true" | "on" => .ok true
  | "no" | "false" | "off" => .ok false
  | _ => .error (.notATruthValue word)

/-- The date or the moment that a timestamp stands for. -/
def timestampOf (ps : List Text.Point) : Except ScalarError Value := do
  let cs := Text.skeleton ps
  let text := if cs.getLast? = some '\n' then cs.dropLast else cs
  match Timestamp.ofText? text with
  | none => .error .notATimestamp
  | some t =>
    let date := (Date.ofNumbers t.year t.month t.day).mapError .calendar
    match t.clock with
    | none => return .date (← date)
    | some c =>
      if c.offset.any fun offset => 1440 ≤ offset.natAbs then .error (.offset (c.offset.getD 0))
      let date ← date
      let time ← (TimeOfDay.ofNumbers c.hour c.minute c.second c.microsecond).mapError .calendar
      return .dateTime ⟨date, time, c.offset.map (· * microsecondsOfMinute)⟩

/-- The bytes that a text stands for. -/
def bytesOf (ps : List Text.Point) : Except Problem Value :=
  match Text.unencodable? "ascii" "ordinal not in range(128)" (·.toChar.toNat < 0x80) ps with
  | some report => .error (.notAscii report)
  | none => ((Text.decodeBase64 (Text.skeleton ps)).mapError fun e => .notBase64 e.message).map .bytes

end Yaml

end Folio

import Folio.Number.Written
import Folio.Value

set_option autoImplicit false

/-! # Moments in data

Where data should hold a moment, it may be written as text: a date, one of a few separators, a time of day
and perhaps an offset. A date alone means midnight, and a number counts seconds, or milliseconds if it
is large, from the start of 1970. -/

namespace Folio.Schema

/-- Why a text is no moment. -/
inductive MomentError where
  | tooShort
  | yearCharacter
  | monthCharacter
  | dayCharacter
  | dateSeparator
  | separator
  | monthRange
  | dayRange
  | hourCharacter
  | minuteCharacter
  | secondCharacter
  | fractionCharacter
  | timeSeparator
  | hourRange
  | minuteRange
  | secondRange
  | offsetSign
  | offsetHour
  | offsetMinute
  | offsetMinuteRange
  | offsetRange
  | extra
  | tooEarly
  | tooLate
deriving Repr, DecidableEq

/-- The text that reports the cause. -/
def MomentError.message : MomentError → String
  | tooShort => "input is too short"
  | yearCharacter => "invalid character in year"
  | monthCharacter => "invalid character in month"
  | dayCharacter => "invalid character in day"
  | dateSeparator => "invalid date separator, expected \x60-\x60"
  | separator => "invalid datetime separator, expected \x60T\x60, \x60t\x60, \x60_\x60 or space"
  | monthRange => "month value is outside expected range of 1-12"
  | dayRange => "day value is outside expected range"
  | hourCharacter => "invalid character in hour"
  | minuteCharacter => "invalid character in minute"
  | secondCharacter => "invalid character in second"
  | fractionCharacter => "invalid character in second fraction"
  | timeSeparator => "invalid time separator, expected \x60:\x60"
  | hourRange => "hour value is outside expected range of 0-23"
  | minuteRange => "minute value is outside expected range of 0-59"
  | secondRange => "second value is outside expected range of 0-59"
  | offsetSign => "invalid timezone sign"
  | offsetHour => "invalid timezone hour"
  | offsetMinute => "invalid timezone minute"
  | offsetMinuteRange => "timezone minute value is outside expected range of 0-59"
  | offsetRange => "timezone offset must be less than 24 hours"
  | extra => "unexpected extra characters at the end of the input"
  | tooEarly => "dates before 0000 are not supported as unix timestamps"
  | tooLate => "dates after 9999 are not supported as unix timestamps"

/-- What makes or fails to make a moment. -/
abbrev Make := Except MomentError

/-- A number of so many digits. -/
def digits (error : MomentError) : Nat → Nat → List Char → Make (Nat × List Char)
  | 0, n, cs => .ok (n, cs)
  | count + 1, n, c :: cs =>
    if Text.isAsciiDigit c then digits error count (n * 10 + digitValue c) cs else .error error
  | _ + 1, _, [] => .error error

/-- A character. -/
def expect (error : MomentError) (c : Char) : List Char → Make (List Char)
  | d :: cs => if d = c then .ok cs else .error error
  | [] => .error error

/-- The date at the front of a text. -/
def dateFront (cs : List Char) : Make (Date × List Char) := do
  if cs.length < 10 then .error .tooShort
  let (year, cs) ← digits .yearCharacter 4 0 cs
  let cs ← expect .dateSeparator '-' cs
  let (month, cs) ← digits .monthCharacter 2 0 cs
  let cs ← expect .dateSeparator '-' cs
  let (day, cs) ← digits .dayCharacter 2 0 cs
  if month < 1 ∨ 12 < month then .error .monthRange
  if day < 1 ∨ daysInMonth year month < day then .error .dayRange
  return (⟨year, month, day⟩, cs)

/-- The seconds after a time's minutes, if they are written. -/
def secondsFront (cs : List Char) : Make ((Nat × Nat) × List Char) := do
  match cs with
  | ':' :: cs =>
    let (second, cs) ← digits .secondCharacter 2 0 cs
    if 59 < second then .error .secondRange
    match cs with
    | c :: rest =>
      if c = '.' ∨ c = ',' then
        let fraction := rest.takeWhile Text.isAsciiDigit
        if fraction.isEmpty then .error .fractionCharacter
        let six := fraction.take 6 ++ List.replicate (6 - fraction.length) '0'
        return ((second, Text.decimalValue six), rest.drop fraction.length)
      else return ((second, 0), c :: rest)
    | [] => return ((second, 0), [])
  | cs => return ((0, 0), cs)

/-- The offset at the end of a text, in minutes. -/
def offsetAtEnd (cs : List Char) : Make (Option Int) := do
  match cs with
  | [] => return none
  | sign :: cs =>
    if sign = 'Z' ∨ sign = 'z' then
      if cs.isEmpty then return some 0 else .error .extra
    else if sign = '+' ∨ sign = '-' ∨ sign.toNat = 0x2212 then
      let (hours, cs) ← digits .offsetHour 2 0 cs
      let (minutes, cs) ← digits .offsetMinute 2 0 (match cs with
        | ':' :: cs => cs
        | cs => cs)
      if 60 ≤ minutes then .error .offsetMinuteRange
      let total : Int := (hours * 60 + minutes : Nat)
      if 1440 ≤ total then .error .offsetRange
      if !cs.isEmpty then .error .extra
      return some ((if sign = '+' then total else -total) * microsecondsOfMinute)
    else .error .offsetSign

/-- The moment that a text is written as. -/
def momentText (cs : List Char) : Make DateTime := do
  let (date, cs) ← dateFront cs
  match cs with
  | c :: cs =>
    if !(c = 'T' ∨ c = 't' ∨ c = ' ' ∨ c = '_') then .error .separator
    if cs.length < 5 then .error .tooShort
    let (hour, cs) ← digits .hourCharacter 2 0 cs
    let cs ← expect .timeSeparator ':' cs
    let (minute, cs) ← digits .minuteCharacter 2 0 cs
    if 23 < hour then .error .hourRange
    if 59 < minute then .error .minuteRange
    let ((second, microsecond), cs) ← secondsFront cs
    return ⟨date, ⟨hour, minute, second, microsecond⟩, ← offsetAtEnd cs⟩
  | [] => .error .separator

/-- The moment that is so many seconds and microseconds after the start of 1970. Large numbers count
    milliseconds. -/
def momentNumber (n : Int) (microseconds : Nat) : Make DateTime :=
  let isLarge := 20000000000 < n.natAbs
  let total : Int := (if isLarge then n * 1000 else n * 1000000) + microseconds
  if total < -62135596800000000 then .error .tooEarly
  else if 253402300799999999 < total then .error .tooLate
  else .ok (.ofMicroseconds total)

/-- A text that is a number: its whole part, and its fraction in millionths. -/
def momentDigits? (cs : List Char) : Option (Int × Nat) := do
  let (negative, rest) := cutSign cs
  let whole := rest.takeWhile Text.isAsciiDigit
  if whole.isEmpty then none
  let n : Int := (Text.decimalValue whole : Nat)
  let n := if negative then -n else n
  match rest.drop whole.length with
  | [] => return (n, 0)
  | '.' :: fraction =>
    if fraction.all Text.isAsciiDigit then
      return (n, Text.decimalValue (fraction.take 6 ++ List.replicate (6 - fraction.length) '0'))
    else none
  | _ => none

/-- The moment that a text stands for. If it is neither written as a moment nor a number, it may be a
    date alone; if it is not, that is the cause. -/
def readMoment (cs : List Char) : Make DateTime :=
  match momentText cs with
  | .ok m => .ok m
  | .error _ =>
    match momentDigits? cs with
    | some (n, fraction) => momentNumber n fraction
    | none => do
      let (date, rest) ← dateFront cs
      if rest.isEmpty then return ⟨date, {}, none⟩ else .error .extra

end Folio.Schema

import Folio.Calendar
import Folio.Text.Scan

set_option autoImplicit false

/-! # Timestamps

A date, alone or with a time of day, in the form in which YAML writes them. The parts are read first,
and only then is it decided whether there is such a day. -/

namespace Folio.Yaml

/-- A time of day as it is written. -/
structure ClockText where
  hour : Nat
  minute : Nat
  second : Nat
  microsecond : Nat
  /-- The offset from universal time, in minutes. -/
  offset : Option Int
deriving Repr, DecidableEq

/-- A timestamp as it is written. -/
structure Timestamp where
  year : Nat
  month : Nat
  day : Nat
  /-- Whether month and day have two digits. -/
  full : Bool
  clock : Option ClockText
deriving Repr, DecidableEq

namespace Timestamp

/-- Cut the digits at the front of a text off, if there are as many as there should be. -/
def cutDigits? (least most : Nat) (cs : List Char) : Option (List Char × List Char) :=
  let digits := cs.takeWhile Text.isAsciiDigit
  if least ≤ digits.length ∧ digits.length ≤ most then some (digits, cs.drop digits.length) else none

/-- Skip spaces and tabs. -/
def skipSpaces (cs : List Char) : List Char :=
  cs.dropWhile fun c => c == ' ' || c == '\t'

/-- Read an offset from universal time up to the end of a text. -/
def offset? (cs : List Char) : Option (Option Int) := do
  match skipSpaces cs with
  | [] => if cs.isEmpty then return none else none
  | ['Z'] => return some 0
  | sign :: rest =>
    if sign ≠ '+' ∧ sign ≠ '-' then none
    let (hours, rest) ← cutDigits? 1 2 rest
    let minutes ← match rest with
      | [] => some []
      | ':' :: rest => do
        let (minutes, rest) ← cutDigits? 2 2 rest
        if rest.isEmpty then some minutes else none
      | _ => none
    let total : Int := (Text.decimalValue hours * 60 + Text.decimalValue minutes : Nat)
    return some (if sign = '-' then -total else total)

/-- Read a time of day up to the end of a text. -/
def clock? (cs : List Char) : Option ClockText := do
  let (hour, rest) ← cutDigits? 1 2 cs
  let (minute, rest) ← cutDigits? 2 2 (← Text.dropPrefix? [':'] rest)
  let (second, rest) ← cutDigits? 2 2 (← Text.dropPrefix? [':'] rest)
  let (fraction, rest) : List Char × List Char := match rest with
    | '.' :: rest =>
      let digits := rest.takeWhile Text.isAsciiDigit
      (digits, rest.drop digits.length)
    | rest => ([], rest)
  let offset ← offset? rest
  let micro := fraction.take 6 ++ List.replicate (6 - fraction.length) '0'
  return ⟨Text.decimalValue hour, Text.decimalValue minute, Text.decimalValue second,
    Text.decimalValue micro, offset⟩

/-- Read a timestamp. -/
def ofText? (cs : List Char) : Option Timestamp := do
  let (year, rest) ← cutDigits? 4 4 cs
  let (month, rest) ← cutDigits? 1 2 (← Text.dropPrefix? ['-'] rest)
  let (day, rest) ← cutDigits? 1 2 (← Text.dropPrefix? ['-'] rest)
  let clock ← match rest with
    | [] => some none
    | 'T' :: rest | 't' :: rest => (clock? rest).map some
    | c :: _ =>
      if c = ' ' ∨ c = '\t' then (clock? (skipSpaces rest)).map some else none
  return ⟨Text.decimalValue year, Text.decimalValue month, Text.decimalValue day,
    month.length = 2 ∧ day.length = 2, clock⟩

/-- Whether a plain scalar that reads so is a timestamp: a date that stands alone is written in full. -/
def isPlain (t : Timestamp) : Bool :=
  t.full || t.clock.isSome

end Timestamp

end Folio.Yaml

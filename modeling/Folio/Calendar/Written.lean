import Folio.Calendar
import Folio.Text.Scan

set_option autoImplicit false

/-! # Moments as they are written

Reading a moment back from its text: a date, a time of day, and perhaps an offset. Seconds and their
fraction can be left out, of a fraction six digits count, and an offset is written like a time of day
with a sign. -/

namespace Folio

/-- A number of so many digits at the front of a text, and the rest. -/
def numberFront? (width : Nat) (cs : List Char) : Option (Nat × List Char) :=
  let digits := cs.take width
  if digits.length = width ∧ digits.all Text.isAsciiDigit then
    some (Text.decimalValue digits, cs.drop width)
  else none

/-- The date at the front of a text, and the rest. -/
def dateFront? (cs : List Char) : Option (Date × List Char) := do
  let (year, cs) ← numberFront? 4 cs
  let (month, cs) ← numberFront? 2 (← Text.dropPrefix? ['-'] cs)
  let (day, cs) ← numberFront? 2 (← Text.dropPrefix? ['-'] cs)
  return (← (Date.ofNumbers year month day).toOption, cs)

/-- The millionths after the point at the front of a text, and the rest. -/
def fractionFront? (cs : List Char) : Option (Nat × List Char) :=
  let digits := cs.takeWhile Text.isAsciiDigit
  if digits.isEmpty then none
  else
    let six := digits.take 6 ++ List.replicate (6 - digits.length) '0'
    some (Text.decimalValue six, cs.drop digits.length)

/-- Seconds with their millionths at the front of a text, if they are written, and the rest. -/
def secondsFront? (cs : List Char) : Option ((Nat × Nat) × List Char) :=
  match cs with
  | ':' :: cs => do
    let (second, cs) ← numberFront? 2 cs
    match cs with
    | '.' :: cs =>
      let (microsecond, cs) ← fractionFront? cs
      return ((second, microsecond), cs)
    | _ => return ((second, 0), cs)
  | _ => some ((0, 0), cs)

/-- What a clock shows, at the front of a text, and the rest. -/
def clockFront? (cs : List Char) : Option (TimeOfDay × List Char) := do
  let (hour, cs) ← numberFront? 2 cs
  let (minute, cs) ← numberFront? 2 (← Text.dropPrefix? [':'] cs)
  let ((second, microsecond), cs) ← secondsFront? cs
  return (⟨hour, minute, second, microsecond⟩, cs)

/-- So many microseconds with a sign as an offset, which is less than a day. -/
def offsetFrom? (sign : Char) (total : Nat) : Option Int :=
  if microsecondsOfDay ≤ total then none
  else if sign = '-' then some (-(total : Int))
  else if sign = '+' then some total
  else none

/-- The offset that a whole text is, in microseconds; none for no text. -/
def offsetOf? (cs : List Char) : Option (Option Int) :=
  match cs with
  | [] => some none
  | ['Z'] => some (some 0)
  | sign :: cs =>
    match clockFront? cs with
    | some (clock, []) => (offsetFrom? sign clock.toMicroseconds).map some
    | _ => none

/-- The moment that a text is. A date alone means midnight. -/
def DateTime.ofText? (cs : List Char) : Option DateTime := do
  let (date, cs) ← dateFront? cs
  match cs with
  | [] => return ⟨date, {}, none⟩
  | _ :: cs =>
    let (clock, cs) ← clockFront? cs
    let time ← (TimeOfDay.ofNumbers clock.hour clock.minute clock.second clock.microsecond).toOption
    return ⟨date, time, ← offsetOf? cs⟩

end Folio

import Folio.Number.Shortest
import Folio.Text.Quoted
import Folio.Value

set_option autoImplicit false

/-! # Values in reports

How a value is spelled where a report shows it: text in quotes, lists in brackets, and what has no short
notation by the name of its kind and its parts. -/

namespace Folio.Value

/-- Bytes in quotes. -/
def quoteBytes (bs : List UInt8) : List Char :=
  let cs := bs.map fun b => Char.ofNat b.toNat
  let mark := Text.quotationMark cs
  'b' :: mark :: (cs.flatMap fun c =>
    if c.toNat < 0x7F then Text.quoteChar mark c else Text.escapeByNumber c) ++ [mark]

/-- An offset from universal time, in microseconds. -/
def offsetLiteral (offset : Int) : String :=
  if offset = 0 then "datetime.timezone.utc"
  else
    let part (name : String) (n : Int) : List String :=
      if n = 0 then [] else [name ++ "=" ++ toString n]
    let ofDay := offset.fmod microsecondsOfDay
    let parts := part "days" (offset.fdiv microsecondsOfDay) ++
      part "seconds" (ofDay / 1000000) ++ part "microseconds" (ofDay % 1000000)
    "datetime.timezone(datetime.timedelta(" ++ ", ".intercalate parts ++ "))"

/-- A date by its numbers. -/
def dateNumbers (d : Date) : List String :=
  [toString d.year, toString d.month, toString d.day]

/-- A time by its numbers; seconds are left out if there are none. -/
def timeNumbers (t : TimeOfDay) : List String :=
  [toString t.hour, toString t.minute] ++
    (if t.microsecond ≠ 0 then [toString t.second, toString t.microsecond]
    else if t.second ≠ 0 then [toString t.second]
    else [])

mutual

/-- A value as a report spells it. -/
def literal : Value → String
  | null => "None"
  | bool b => if b then "True" else "False"
  | int n => toString n
  | float x => x.toText Binary64.shortStyle
  | string s => Text.quote s.toList
  | unwritable (.text t) => String.ofList (Text.quotePoints t.points)
  | bytes bs => String.ofList (quoteBytes bs)
  | date d => "datetime.date(" ++ ", ".intercalate (dateNumbers d) ++ ")"
  | dateTime m =>
    let offset := match m.offset with
      | some n => ["tzinfo=" ++ offsetLiteral n]
      | none => []
    "datetime.datetime(" ++ ", ".intercalate (dateNumbers m.date ++ timeNumbers m.time ++ offset) ++
      ")"
  | list items => "[" ++ ", ".intercalate (literals items) ++ "]"
  | pair a b => "(" ++ literal a ++ ", " ++ literal b ++ ")"
  | set items => if items.isEmpty then "set()" else "\x7b" ++ ", ".intercalate (literals items) ++ "\x7d"
  | map entries => "\x7b" ++ ", ".intercalate (entryLiterals entries) ++ "\x7d"
  | unwritable .cycle => "[...]"

/-- Some values as a report spells them. -/
def literals : List Value → List String
  | [] => []
  | v :: rest => literal v :: literals rest

/-- Some entries as a report spells them. -/
def entryLiterals : List (Value × Value) → List String
  | [] => []
  | (k, v) :: rest => (literal k ++ ": " ++ literal v) :: entryLiterals rest

end

end Folio.Value

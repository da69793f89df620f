set_option autoImplicit false

/-! # Dates and times

Days of the Gregorian calendar, carried back and forth to year 1 and year 9999, with times of day and
offsets from universal time. A date is compared by counting days, and a moment by counting
microseconds from the start of 1970. -/

namespace Folio

/-- A day. -/
structure Date where
  year : Nat
  month : Nat
  day : Nat
deriving Repr, DecidableEq, Inhabited

/-- A time of day. -/
structure TimeOfDay where
  hour : Nat := 0
  minute : Nat := 0
  second : Nat := 0
  microsecond : Nat := 0
deriving Repr, DecidableEq, Inhabited

/-- A date with a time of day. Without an offset it is a time on a local clock. -/
structure DateTime where
  date : Date
  time : TimeOfDay
  /-- How many microseconds the clock is ahead of universal time. -/
  offset : Option Int
deriving Repr, DecidableEq, Inhabited

/-! ## The calendar -/

/-- Whether a year has a leap day. -/
def isLeapYear (year : Nat) : Bool :=
  year % 4 == 0 && (year % 100 != 0 || year % 400 == 0)

/-- The number of days of a month. -/
def daysInMonth (year month : Nat) : Nat :=
  if month = 2 then (if isLeapYear year then 29 else 28)
  else if month = 4 ∨ month = 6 ∨ month = 9 ∨ month = 11 then 30
  else 31

/-- What is wrong with a date or a time. -/
inductive CalendarError where
  | year (n : Nat)
  | month
  | day
  | hour
  | minute
  | second
deriving Repr, DecidableEq

/-- The text that reports the cause. -/
def CalendarError.message : CalendarError → String
  | year n => "year " ++ toString n ++ " is out of range"
  | month => "month must be in 1..12"
  | day => "day is out of range for month"
  | hour => "hour must be in 0..23"
  | minute => "minute must be in 0..59"
  | second => "second must be in 0..59"

/-- A date from its numbers. -/
def Date.ofNumbers (year month day : Nat) : Except CalendarError Date :=
  if year < 1 ∨ 9999 < year then .error (.year year)
  else if month < 1 ∨ 12 < month then .error .month
  else if day < 1 ∨ daysInMonth year month < day then .error .day
  else .ok ⟨year, month, day⟩

/-- A time of day from its numbers. -/
def TimeOfDay.ofNumbers (hour minute second microsecond : Nat) : Except CalendarError TimeOfDay :=
  if 23 < hour then .error .hour
  else if 59 < minute then .error .minute
  else if 59 < second then .error .second
  else .ok ⟨hour, minute, second, microsecond⟩

/-! ## Counting -/

/-- How many days the years before a year have. -/
def daysBeforeYear (year : Nat) : Nat :=
  let y := year - 1
  365 * y + y / 4 - y / 100 + y / 400

/-- How many days the months of a year before a month have. -/
def daysBeforeMonth (year month : Nat) : Nat :=
  (List.range (month - 1)).foldl (fun days m => days + daysInMonth year (m + 1)) 0

/-- The days from the first day of year 1 to the first day of 1970. -/
def epochDay : Nat := 719162

/-- The number of days from the start of 1970 to a date. -/
def Date.toDayNumber (d : Date) : Int :=
  (daysBeforeYear d.year + daysBeforeMonth d.year d.month + (d.day - 1) : Nat) - (epochDay : Int)

/-- The month and the day of a year after so many of its days, given a month that is not later and how
    many days are left from its start. -/
def findMonth (year : Nat) : Nat → Nat → Nat → Nat × Nat
  | 0, month, days => (month, days + 1)
  | fuel + 1, month, days =>
    if days < daysInMonth year month then (month, days + 1)
    else findMonth year fuel (month + 1) (days - daysInMonth year month)

/-- The date that is so many days after the start of 1970. -/
def Date.ofDayNumber (n : Int) : Date :=
  let days := (n + epochDay).toNat
  let guess := days / 366 + 1
  let year := guess + ((List.range 30).countP fun i => daysBeforeYear (guess + i + 1) ≤ days)
  let (month, day) := findMonth year 12 1 (days - daysBeforeYear year)
  ⟨year, month, day⟩

/-- The number of microseconds since midnight. -/
def TimeOfDay.toMicroseconds (t : TimeOfDay) : Nat :=
  ((t.hour * 60 + t.minute) * 60 + t.second) * 1000000 + t.microsecond

/-- The time of day so many microseconds after midnight. -/
def TimeOfDay.ofMicroseconds (n : Nat) : TimeOfDay :=
  let seconds := n / 1000000
  ⟨seconds / 3600, seconds / 60 % 60, seconds % 60, n % 1000000⟩

/-- The number of microseconds of a minute. -/
def microsecondsOfMinute : Nat := 60000000

/-- The number of microseconds of a day. -/
def microsecondsOfDay : Nat := 86400000000

/-- The microseconds from the start of 1970 to a moment, on its own clock. -/
def DateTime.toLocalMicroseconds (m : DateTime) : Int :=
  m.date.toDayNumber * microsecondsOfDay + m.time.toMicroseconds

/-- The microseconds from the start of 1970 to a moment. A local clock is taken to show universal
    time. -/
def DateTime.toMicroseconds (m : DateTime) : Int :=
  m.toLocalMicroseconds - m.offset.getD 0

/-- The moment that is so many microseconds after the start of 1970, in universal time. -/
def DateTime.ofMicroseconds (n : Int) : DateTime :=
  let day := n.fdiv microsecondsOfDay
  ⟨.ofDayNumber day, .ofMicroseconds (n - day * microsecondsOfDay).toNat, some 0⟩

/-- Whether two values name the same moment. A local time is no moment, so it is only equal to the same
    local time. -/
def DateTime.sameMoment (a b : DateTime) : Bool :=
  a.offset.isSome == b.offset.isSome && a.toMicroseconds == b.toMicroseconds

/-! ## Text -/

/-- A number with at least so many digits. -/
def padNumber (width n : Nat) : String :=
  let digits := (toString n).toList
  String.ofList (List.replicate (width - digits.length) '0' ++ digits)

/-- A date as year, month and day. -/
def Date.toText (d : Date) : String :=
  padNumber 4 d.year ++ "-" ++ padNumber 2 d.month ++ "-" ++ padNumber 2 d.day

/-- A time of day; microseconds are left out if there are none. -/
def TimeOfDay.toText (t : TimeOfDay) : String :=
  padNumber 2 t.hour ++ ":" ++ padNumber 2 t.minute ++ ":" ++ padNumber 2 t.second ++
    (if t.microsecond = 0 then "" else "." ++ padNumber 6 t.microsecond)

/-- An offset with its sign; seconds are left out if there are none. -/
def offsetText (offset : Int) : String :=
  let t := TimeOfDay.ofMicroseconds offset.natAbs
  (if offset < 0 then "-" else "+") ++
    (if t.second = 0 ∧ t.microsecond = 0 then padNumber 2 t.hour ++ ":" ++ padNumber 2 t.minute
    else t.toText)

/-- A date with a time, and with an offset if there is one. -/
def DateTime.toText (m : DateTime) : String :=
  m.date.toText ++ "T" ++ m.time.toText ++
    (match m.offset with
      | some offset => offsetText offset
      | none => "")

end Folio

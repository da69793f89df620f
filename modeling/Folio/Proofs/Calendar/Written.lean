import Folio.Calendar.Written
import Folio.Proofs.Number.Digits

set_option autoImplicit false

/-! # Moments read back

A moment is written with so many digits for each of its numbers, and what is read from the front of its
text are the same numbers (`numberFront?_padNumber`). So a date, a time of day and an offset are read
back, and with them the moment (`ofText?_toText`). -/

namespace Folio

/-! ## Moments that exist -/

/-- A day of the calendar. -/
structure Date.IsValid (d : Date) : Prop where
  year : 1 ≤ d.year ∧ d.year ≤ 9999
  month : 1 ≤ d.month ∧ d.month ≤ 12
  day : 1 ≤ d.day ∧ d.day ≤ daysInMonth d.year d.month

/-- A time that a clock shows. -/
structure TimeOfDay.IsValid (t : TimeOfDay) : Prop where
  hour : t.hour < 24
  minute : t.minute < 60
  second : t.second < 60
  microsecond : t.microsecond < 1000000

/-- A moment on a clock that is less than a day from universal time. -/
structure DateTime.IsValid (m : DateTime) : Prop where
  date : m.date.IsValid
  time : m.time.IsValid
  offset : ∀ n ∈ m.offset, n.natAbs < microsecondsOfDay

theorem daysInMonth_le (year month : Nat) : daysInMonth year month ≤ 31 := by
  unfold daysInMonth
  split_ifs <;> decide

theorem Date.ofNumbers_of_isValid {d : Date} (h : d.IsValid) :
    Date.ofNumbers d.year d.month d.day = .ok d := by
  obtain ⟨⟨hy1, hy2⟩, ⟨hm1, hm2⟩, ⟨hd1, hd2⟩⟩ := h
  rw [Date.ofNumbers, if_neg (by omega), if_neg (by omega), if_neg (by omega)]

theorem TimeOfDay.ofNumbers_of_isValid {t : TimeOfDay} (h : t.IsValid) :
    TimeOfDay.ofNumbers t.hour t.minute t.second t.microsecond = .ok t := by
  obtain ⟨hh, hm, hs, -⟩ := h
  rw [TimeOfDay.ofNumbers, if_neg (by omega), if_neg (by omega), if_neg (by omega)]

theorem TimeOfDay.isValid_ofMicroseconds {n : Nat} (h : n < microsecondsOfDay) :
    (TimeOfDay.ofMicroseconds n).IsValid := by
  unfold microsecondsOfDay at h
  refine ⟨?_, ?_, ?_, ?_⟩ <;> simp only [TimeOfDay.ofMicroseconds] <;> omega

theorem TimeOfDay.toMicroseconds_ofMicroseconds (n : Nat) :
    (TimeOfDay.ofMicroseconds n).toMicroseconds = n := by
  simp only [TimeOfDay.ofMicroseconds, TimeOfDay.toMicroseconds]
  omega

/-! ## Numbers -/

theorem toList_padNumber (width n : Nat) : (padNumber width n).toList
    = List.replicate (width - (Nat.toDigits 10 n).length) '0' ++ Nat.toDigits 10 n := by
  have hdigits : (toString n).toList = Nat.toDigits 10 n := by
    simp [toString, Nat.repr_eq_ofList_toDigits]
  simp only [padNumber, String.toList_ofList, hdigits]

theorem allDigits_padNumber (width n : Nat) : Text.AllDigits (padNumber width n).toList := by
  rw [toList_padNumber]
  exact Text.allDigits_append.2 ⟨Text.allDigits_zeros _, Text.allDigits_toDigits n⟩

@[simp] theorem decimalValue_padNumber (width n : Nat) :
    Text.decimalValue (padNumber width n).toList = n := by
  rw [toList_padNumber, Text.decimalValue_zeros_append, Text.decimalValue_toDigits]

theorem length_padNumber (width n : Nat) (hwidth : 0 < width) (h : n < 10 ^ width) :
    (padNumber width n).toList.length = width := by
  have hle := (Nat.length_toDigits_le_iff (by decide) hwidth).2 h
  rw [toList_padNumber, List.length_append, List.length_replicate]
  omega

/-- A number is read with the digits that it is written with. -/
theorem numberFront?_padNumber (width n : Nat) (hwidth : 0 < width) (h : n < 10 ^ width)
    (rest : List Char) :
    numberFront? width ((padNumber width n).toList ++ rest) = some (n, rest) := by
  have hlength := length_padNumber width n hwidth h
  have htake : ((padNumber width n).toList ++ rest).take width = (padNumber width n).toList :=
    List.take_left' hlength
  have hdrop : ((padNumber width n).toList ++ rest).drop width = rest := List.drop_left' hlength
  have hall : (padNumber width n).toList.all Text.isAsciiDigit = true :=
    List.all_eq_true.2 (allDigits_padNumber width n)
  simp only [numberFront?, htake, hdrop, hlength, hall, and_self, if_true, decimalValue_padNumber]

/-! ## Dates -/

theorem dateFront?_toText {d : Date} (h : d.IsValid) (rest : List Char) :
    dateFront? (d.toText.toList ++ rest) = some (d, rest) := by
  have hlimit := daysInMonth_le d.year d.month
  obtain ⟨⟨-, hy⟩, ⟨-, hm⟩, ⟨-, hd⟩⟩ := id h
  have hyear := numberFront?_padNumber 4 d.year (by decide) (by omega)
  have hmonth := numberFront?_padNumber 2 d.month (by decide) (by omega)
  have hday := numberFront?_padNumber 2 d.day (by decide) (by omega)
  have hdash (more : List Char) : Text.dropPrefix? ['-'] ("-".toList ++ more) = some more := rfl
  simp only [dateFront?, Date.toText, String.toList_append, List.append_assoc, hyear, hmonth, hday,
    hdash, Date.ofNumbers_of_isValid h, Except.toOption, Option.bind_eq_bind, Option.bind_some,
    Option.pure_def]

/-! ## Times of day -/

/-- The fraction of a second is read with its six digits. -/
theorem fractionFront?_padNumber {n : Nat} (h : n < 1000000) {rest : List Char}
    (hrest : ∀ c ∈ rest.head?, Text.isAsciiDigit c = false) :
    fractionFront? ((padNumber 6 n).toList ++ rest) = some (n, rest) := by
  have hlength := length_padNumber 6 n (by decide) h
  have htake := Text.takeWhile_append_of_all (allDigits_padNumber 6 n) hrest
  have hne : (padNumber 6 n).toList.isEmpty = false := by
    rw [List.isEmpty_eq_false_iff, ← List.length_pos_iff, hlength]
    decide
  have hsix : (padNumber 6 n).toList.take 6 = (padNumber 6 n).toList :=
    List.take_of_length_le (Nat.le_of_eq hlength)
  have hdrop : ((padNumber 6 n).toList ++ rest).drop 6 = rest := List.drop_left' hlength
  simp only [fractionFront?, htake, hne, Bool.false_eq_true, if_false, hlength, Nat.sub_self,
    List.replicate_zero, List.append_nil, hsix, decimalValue_padNumber, hdrop]

/-- What may follow a time of day: no digit, and no point or colon. -/
def EndsTime (rest : List Char) : Prop :=
  ∀ c ∈ rest.head?, Text.isAsciiDigit c = false ∧ c ≠ '.' ∧ c ≠ ':'

theorem endsTime_nil : EndsTime [] := by simp [EndsTime]

theorem secondsFront?_toText {second microsecond : Nat} (hs : second < 60)
    (hm : microsecond < 1000000) {rest : List Char} (hrest : EndsTime rest) :
    secondsFront? (':' :: ((padNumber 2 second).toList ++
        ((if microsecond = 0 then "" else "." ++ padNumber 6 microsecond).toList ++ rest)))
      = some ((second, microsecond), rest) := by
  have hsecond := numberFront?_padNumber 2 second (by decide) (by omega)
  split
  next hzero =>
    subst hzero
    simp only [secondsFront?, hsecond, Option.bind_eq_bind, Option.bind_some, String.toList_empty,
      List.nil_append]
    split
    next heq => exact absurd rfl (hrest '.' (by simp)).2.1
    next => rfl
  next =>
    have hfraction := fractionFront?_padNumber hm fun c hc => (hrest c hc).1
    have hpoint (more : List Char) : ".".toList ++ more = '.' :: more := rfl
    simp only [secondsFront?, hsecond, Option.bind_eq_bind, Option.bind_some, String.toList_append,
      List.cons_append, hpoint, hfraction, Option.pure_def]

/-- Hours and minutes are read, and then the seconds. -/
theorem clockFront?_append {hour minute : Nat} (hh : hour < 24) (hm : minute < 60)
    {more rest : List Char} {second microsecond : Nat}
    (hmore : secondsFront? more = some ((second, microsecond), rest)) :
    clockFront? ((padNumber 2 hour).toList ++ (':' :: ((padNumber 2 minute).toList ++ more)))
      = some (⟨hour, minute, second, microsecond⟩, rest) := by
  have hhour := numberFront?_padNumber 2 hour (by decide) (by omega)
  have hminute := numberFront?_padNumber 2 minute (by decide) (by omega)
  have hcolon (cs : List Char) : Text.dropPrefix? [':'] (':' :: cs) = some cs := rfl
  simp only [clockFront?, hhour, hminute, hcolon, hmore, Option.bind_eq_bind, Option.bind_some,
    Option.pure_def]

theorem clockFront?_toText {t : TimeOfDay} (h : t.IsValid) {rest : List Char}
    (hrest : EndsTime rest) : clockFront? (t.toText.toList ++ rest) = some (t, rest) := by
  have hseconds := secondsFront?_toText h.second h.microsecond hrest
  have hclock := clockFront?_append h.hour h.minute hseconds
  have hcolon (more : List Char) : ":".toList ++ more = ':' :: more := rfl
  simpa only [TimeOfDay.toText, String.toList_append, List.append_assoc, List.cons_append, hcolon]
    using hclock

/-! ## Offsets -/

/-- The clock of an offset is read, with or without its seconds. -/
theorem clockFront?_offset {t : TimeOfDay} (h : t.IsValid) :
    clockFront? (if t.second = 0 ∧ t.microsecond = 0 then padNumber 2 t.hour ++ ":" ++ padNumber 2 t.minute
      else t.toText).toList = some (t, []) := by
  split
  next hzero =>
    have hseconds : secondsFront? [] = some ((t.second, t.microsecond), []) := by
      rw [hzero.1, hzero.2]
      rfl
    have hclock := clockFront?_append h.hour h.minute hseconds
    have hcolon (more : List Char) : ":".toList ++ more = ':' :: more := rfl
    have ht : (⟨t.hour, t.minute, t.second, t.microsecond⟩ : TimeOfDay) = t := rfl
    rw [ht] at hclock
    simpa only [String.toList_append, List.append_assoc, List.cons_append, hcolon,
      List.append_nil] using hclock
  next => simpa using clockFront?_toText h endsTime_nil

theorem offsetFrom?_minus {n : Int} (hn : n < 0) (h : n.natAbs < microsecondsOfDay) :
    offsetFrom? '-' n.natAbs = some n := by
  rw [offsetFrom?, if_neg (Nat.not_le.2 h), if_pos rfl]
  exact congrArg some (by omega)

theorem offsetFrom?_plus {n : Int} (hn : ¬ n < 0) (h : n.natAbs < microsecondsOfDay) :
    offsetFrom? '+' n.natAbs = some n := by
  rw [offsetFrom?, if_neg (Nat.not_le.2 h), if_neg (by decide), if_pos rfl]
  exact congrArg some (by omega)

theorem offsetOf?_offsetText {n : Int} (h : n.natAbs < microsecondsOfDay) :
    offsetOf? (offsetText n).toList = some (some n) := by
  have hclock := clockFront?_offset (TimeOfDay.isValid_ofMicroseconds h)
  have htotal := TimeOfDay.toMicroseconds_ofMicroseconds n.natAbs
  rw [offsetText, String.toList_append]
  generalize TimeOfDay.ofMicroseconds n.natAbs = t at hclock htotal ⊢
  generalize String.toList (if t.second = 0 ∧ t.microsecond = 0 then _ else _) = text at hclock ⊢
  by_cases hn : n < 0
  · have hsign : (if n < 0 then "-" else "+").toList ++ text = '-' :: text := by
      rw [if_pos hn]; rfl
    rw [hsign, offsetOf?, hclock]
    · simp only [htotal, offsetFrom?_minus hn h, Option.map_some]
    · simp
  · have hsign : (if n < 0 then "-" else "+").toList ++ text = '+' :: text := by
      rw [if_neg hn]; rfl
    rw [hsign, offsetOf?, hclock]
    · simp only [htotal, offsetFrom?_plus hn h, Option.map_some]
    · simp

theorem endsTime_offsetText (n : Int) : EndsTime (offsetText n).toList := by
  intro c hc
  simp only [offsetText, String.toList_append] at hc
  split at hc
  · obtain rfl : '-' = c := by simpa using hc
    decide
  · obtain rfl : '+' = c := by simpa using hc
    decide

/-! ## Moments -/

/-- A moment is read back from its text. -/
theorem DateTime.ofText?_toText {m : DateTime} (h : m.IsValid) :
    DateTime.ofText? m.toText.toList = some m := by
  obtain ⟨date, time, offset⟩ := m
  have hdate := dateFront?_toText h.date
  have htime := TimeOfDay.ofNumbers_of_isValid h.time
  have hmark (cs : List Char) : "T".toList ++ cs = 'T' :: cs := rfl
  cases offset with
  | none =>
    have hclock := clockFront?_toText h.time endsTime_nil
    have hoffset : offsetOf? [] = some none := rfl
    simp only [DateTime.ofText?, DateTime.toText, String.toList_append, List.append_assoc, hdate,
      List.cons_append, hmark, String.toList_empty, hclock, htime, hoffset, Except.toOption, Option.bind_eq_bind,
      Option.bind_some, Option.pure_def]
  | some n =>
    have hclock := clockFront?_toText h.time (endsTime_offsetText n)
    have hoffset := offsetOf?_offsetText (h.offset n rfl)
    simp only [DateTime.ofText?, DateTime.toText, String.toList_append, List.append_assoc, hdate,
      List.cons_append, hmark, hclock, htime, hoffset, Except.toOption, Option.bind_eq_bind, Option.bind_some,
      Option.pure_def]

end Folio

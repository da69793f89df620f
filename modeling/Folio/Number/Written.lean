import Folio.Number.Binary64
import Folio.Text.Blank
import Folio.Text.Quoted
import Folio.Text.Scan

set_option autoImplicit false

/-! # Numbers as they are written

Reading an integer in a base, and a number with a point or an exponent. Blanks around a number, a sign,
and a low line between two digits are allowed; an integer in a base that is no power of two may not
have more digits than can be handled in reasonable time. -/

namespace Folio

/-- Why a text is not read as an integer. -/
inductive IntegerError where
  | notAnInteger (base : Nat) (text : List Text.Point)
  | tooManyDigits (count : Nat)
deriving Repr, DecidableEq

/-- The most digits of an integer whose base is no power of two. -/
def maxDigits : Nat := 4300

/-- The text that reports the cause. -/
def IntegerError.message : IntegerError → String
  | notAnInteger base text =>
    "invalid literal for int() with base " ++ toString base ++ ": " ++
      String.ofList (Text.quotePoints text)
  | tooManyDigits count =>
    "Exceeds the limit (" ++ toString maxDigits ++ " digits) for integer string conversion: value has " ++
      toString count ++ " digits; use sys.set_int_max_str_digits() to increase the limit"

/-- The value of a digit in bases up to 36. -/
def digitValue (c : Char) : Nat :=
  if Text.isAsciiDigit c then c.toNat - '0'.toNat
  else if 'a' ≤ c ∧ c ≤ 'z' then c.toNat - 'a'.toNat + 10
  else if 'A' ≤ c ∧ c ≤ 'Z' then c.toNat - 'A'.toNat + 10
  else 36

/-- The value of some digits. -/
def digitsValue (base : Nat) (cs : List Char) : Nat :=
  cs.foldl (fun n c => n * base + digitValue c) 0

/-- Digits with single low lines between them, without the lines. -/
def joinDigits? (isDigit : Char → Bool) : List Char → Option (List Char)
  | [] => none
  | [c] => if isDigit c then some [c] else none
  | c :: '_' :: cs => if isDigit c then (joinDigits? isDigit cs).map (c :: ·) else none
  | c :: cs => if isDigit c then (joinDigits? isDigit cs).map (c :: ·) else none

/-- The sign at the front of a text, and the rest. -/
def cutSign (cs : List Char) : Bool × List Char :=
  match cs with
  | '-' :: rest => (true, rest)
  | '+' :: rest => (false, rest)
  | rest => (false, rest)

/-- The rest after the mark of a base, if one stands before the digits. -/
def dropBaseMark (base : Nat) (cs : List Char) : List Char :=
  let rest := match base, cs with
    | 2, '0' :: 'b' :: rest | 2, '0' :: 'B' :: rest => rest
    | 8, '0' :: 'o' :: rest | 8, '0' :: 'O' :: rest => rest
    | 16, '0' :: 'x' :: rest | 16, '0' :: 'X' :: rest => rest
    | _, cs => cs
  if rest.length = cs.length then cs
  else match rest with
    | '_' :: rest => rest
    | rest => rest

/-- Read an integer in a base. -/
def readInteger (base : Nat) (cs : List Char) : Except IntegerError Int :=
  let (negative, digits) := cutSign (Text.trimBlanks cs)
  let digits := dropBaseMark base digits
  let isDigit (c : Char) : Bool := digitValue c < base
  let count := (digits.takeWhile fun c => isDigit c || c == '_').countP isDigit
  if base = 10 ∧ maxDigits < count then .error (.tooManyDigits count)
  else match joinDigits? isDigit digits with
    | some digits =>
      let n : Int := (digitsValue base digits : Nat)
      .ok (if negative then -n else n)
    | none => .error (.notAnInteger base (Text.points cs))

/-- Digits with low lines, or no digits at all. -/
def fractionDigits? (cs : List Char) : Option (List Char) :=
  if cs.isEmpty then some [] else joinDigits? Text.isAsciiDigit cs

/-- Read an exponent with its letter; nothing counts as zero. -/
def readExponent? (cs : List Char) : Option Int :=
  match cs with
  | [] => some 0
  | e :: rest =>
    if e ≠ 'e' ∧ e ≠ 'E' then none
    else
      let (negative, digits) := cutSign rest
      (joinDigits? Text.isAsciiDigit digits).map fun digits =>
        let n : Int := (Text.decimalValue digits : Nat)
        if negative then -n else n

/-- Read a number that may have a point and an exponent, or a word for what is no finite number. -/
def readFloat? (cs : List Char) : Option Binary64 := do
  let (negative, rest) := cutSign (Text.trimBlanks cs)
  match String.ofList (Text.asciiLower rest) with
  | "inf" | "infinity" => return .infinite negative
  | "nan" => return .nan
  | _ =>
    let whole := rest.takeWhile fun c => Text.isAsciiDigit c || c == '_'
    let afterWhole := rest.drop whole.length
    let fraction : List Char := match afterWhole with
      | '.' :: more => more.takeWhile fun c => Text.isAsciiDigit c || c == '_'
      | _ => []
    let afterFraction : List Char := match afterWhole with
      | '.' :: more => more.drop fraction.length
      | more => more
    let whole ← fractionDigits? whole
    let fraction ← fractionDigits? fraction
    if whole.isEmpty && fraction.isEmpty then none
    let exponent ← readExponent? afterFraction
    return .ofDecimal negative (Text.decimalValue (whole ++ fraction)) (exponent - fraction.length)

end Folio

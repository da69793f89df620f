import Folio.Number.Binary64
import Folio.Text.Blank

set_option autoImplicit false

/-! # Word count and reading time

Words are counted in the source text of a page, markup included. The reading time is the number of
words divided by a reading speed, rounded up; the quotient is a floating-point number, so for words
beyond any page the answer is the ceiling of the rounded quotient. -/

namespace Folio

/-- The number of words of a page's source: maximal runs of characters that are not blank. -/
def wordCount (body : String) : Nat :=
  Text.countRuns false body.toList

/-- The reading speed assumed unless another is given, in words per minute. -/
def defaultWordsPerMinute : Int := 200

/-- Why a reading time cannot be computed. -/
inductive ReadingTimeError where
  | divisionByZero
  | quotientTooLarge
deriving Repr, DecidableEq

/-- The text that reports the cause. -/
def ReadingTimeError.message : ReadingTimeError → String
  | divisionByZero => "division by zero"
  | quotientTooLarge => "integer division result too large for a float"

/-- The quotient of two integers as the nearest floating-point number. -/
def floatQuotient (num den : Int) : Binary64 :=
  Binary64.ofQuotient (decide (num < 0) != decide (den < 0)) num.natAbs den.natAbs

/-- Minutes to read a number of words; no time for no words. -/
def readingTime (words wordsPerMinute : Int) : Except ReadingTimeError Int :=
  if words ≤ 0 then .ok 0
  else if wordsPerMinute = 0 then .error .divisionByZero
  else match floatQuotient words wordsPerMinute with
    | .finite negative mantissa exponent _ => .ok (Binary64.ceil negative mantissa exponent)
    | _ => .error .quotientTooLarge

end Folio

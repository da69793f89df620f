import Folio.Number.Binary64

set_option autoImplicit false

/-! # Decimal text of floating-point numbers

A number is written with the fewest decimal digits that read back as the same number, and of those
with the nearest. The reals that read back as a number form an interval around it; for one digit,
two digits and so on, the two neighbours of the number on that decimal grid are tried until one lies
in the interval. If any point of a grid lies in the interval, so does one of these two. How the
digits are laid out is for a `FloatStyle` to say. -/

namespace Folio.Binary64

/-! ## The shortest digits -/

/-- Decimal digits with a scale: `digits * 10 ^ exponent`. -/
structure Decimal where
  digits : Nat
  exponent : Int
deriving DecidableEq, Repr, Inhabited

/-- The interval of reals that round to a positive number, in quarters of its unit. -/
structure RoundingInterval where
  low : Nat
  high : Nat
  /-- Whether the two ends belong to it: they do for an even mantissa, to which ties go. -/
  closed : Bool

/-- The rounding interval of `mantissa * 2 ^ exponent`. Below the least mantissa of a binade the
    numbers lie twice as close. -/
def roundingInterval (mantissa : Nat) (exponent : Int) : RoundingInterval where
  low := if mantissa = Nat.pow 2 52 ∧ exponent ≠ minExponent then 4 * mantissa - 1 else 4 * mantissa - 2
  high := 4 * mantissa + 2
  closed := mantissa % 2 = 0

/-- A quotient of naturals, used for exact comparisons. -/
structure Ratio where
  num : Nat
  den : Nat

/-- `n * 2 ^ exponent` as a quotient. -/
def Ratio.ofScaled (n : Nat) (exponent : Int) : Ratio :=
  if 0 ≤ exponent then ⟨n * Nat.pow 2 exponent.toNat, 1⟩ else ⟨n, Nat.pow 2 (-exponent).toNat⟩

/-- `n * 10 ^ exponent` as a quotient. -/
def Ratio.ofDecimal (n : Nat) (exponent : Int) : Ratio :=
  if 0 ≤ exponent then ⟨n * Nat.pow 10 exponent.toNat, 1⟩ else ⟨n, Nat.pow 10 (-exponent).toNat⟩

def Ratio.lt (a b : Ratio) : Bool := a.num * b.den < b.num * a.den

def Ratio.le (a b : Ratio) : Bool := a.num * b.den ≤ b.num * a.den

/-- Whether a decimal lies in the rounding interval of `mantissa * 2 ^ exponent`. -/
def inInterval (mantissa : Nat) (exponent : Int) (d : Decimal) : Bool :=
  let i := roundingInterval mantissa exponent
  let low := Ratio.ofScaled i.low (exponent - 2)
  let high := Ratio.ofScaled i.high (exponent - 2)
  let x := Ratio.ofDecimal d.digits d.exponent
  if i.closed then low.le x && x.le high else low.lt x && x.lt high

/-- Count how often a quotient below one must be multiplied by ten to reach one. The bound on the
    steps is never met by a number of the format. -/
def leadingZeros (num den : Nat) : Nat → Nat
  | 0 => 0
  | fuel + 1 => if den ≤ num then 0 else leadingZeros (10 * num) den fuel + 1

/-- The exponent of the leading decimal digit of a positive quotient. -/
def leadingExponent (num den : Nat) : Int :=
  if den ≤ num then ((Nat.toDigits 10 (num / den)).length : Int) - 1
  else -(leadingZeros num den 400 : Int)

/-- The neighbours of `num / den` on the grid of multiples of `10 ^ exponent`: the multiple below
    it, and which of it and the next is nearer (a tie goes to the even one). -/
def onGrid (num den : Nat) (exponent : Int) : Nat × Nat :=
  let (n, d) := if 0 ≤ exponent then (num, den * Nat.pow 10 exponent.toNat)
    else (num * Nat.pow 10 (-exponent).toNat, den)
  (n / d, roundHalfEven n d)

/-- Try grids of ever more digits. `exponent` is the grid's power of ten, and `fuel` bounds the
    number of grids; seventeen digits always read back. -/
def searchGrids (mantissa : Nat) (exponent : Int) (num den : Nat) : Nat → Int → Decimal
  | 0, grid => ⟨(onGrid num den grid).2, grid⟩
  | fuel + 1, grid =>
    let (below, nearest) := onGrid num den grid
    let other := if nearest = below then below + 1 else below
    if inInterval mantissa exponent ⟨nearest, grid⟩ then ⟨nearest, grid⟩
    else if inInterval mantissa exponent ⟨other, grid⟩ then ⟨other, grid⟩
    else searchGrids mantissa exponent num den fuel (grid - 1)

/-- The shortest decimal that reads back as `mantissa * 2 ^ exponent`, which is positive. -/
def shortest (mantissa : Nat) (exponent : Int) : Decimal :=
  let r := Ratio.ofScaled mantissa exponent
  searchGrids mantissa exponent r.num r.den 17 (leadingExponent r.num r.den)

/-! ## Layout -/

/-- How digits are laid out. -/
structure FloatStyle where
  /-- The least exponent of the leading digit that is written without an exponent part. -/
  plainFrom : Int
  /-- The exponent of the leading digit from which an exponent part is written again. -/
  plainBelow : Int
  /-- The least number of digits of the exponent part. -/
  exponentDigits : Nat
  nanText : String
  infinityText : String

/-- Fewest digits, an exponent of two digits at least outside `1e-04` to `1e+16`. -/
def shortStyle : FloatStyle := ⟨-4, 16, 2, "nan", "inf"⟩

/-- Pad a numeral with zeros on its left. -/
def padZeros (width : Nat) (digits : List Char) : List Char :=
  List.replicate (width - digits.length) '0' ++ digits

/-- Drop the zeros at the end of a list of digits, keeping the first digit. -/
def dropTrailingZeros (digits : List Char) : List Char :=
  match (digits.reverse.dropWhile (· == '0')).reverse with
  | [] => digits.take 1
  | kept => kept

/-- The text of a positive decimal whose leading digit has the given exponent. -/
def layout (style : FloatStyle) (digits : List Char) (lead : Int) : List Char :=
  if style.plainFrom ≤ lead ∧ lead < style.plainBelow then
    if lead < 0 then
      ['0', '.'] ++ List.replicate (-lead - 1).toNat '0' ++ digits
    else
      let whole := lead.toNat + 1
      let before := digits.take whole ++ List.replicate (whole - digits.length) '0'
      let after := digits.drop whole
      before ++ ['.'] ++ (if after.isEmpty then ['0'] else after)
  else
    let mark := match digits with
      | [] => []
      | [d] => [d]
      | d :: ds => d :: '.' :: ds
    let sign := if lead < 0 then '-' else '+'
    mark ++ ['e', sign] ++ padZeros style.exponentDigits (Nat.toDigits 10 lead.natAbs)

/-- The text of a number. -/
def toText (style : FloatStyle) : Binary64 → String
  | nan => style.nanText
  | infinite negative => if negative then "-" ++ style.infinityText else style.infinityText
  | finite negative mantissa exponent _ =>
    let body :=
      if mantissa = 0 then layout style ['0'] 0
      else
        let d := shortest mantissa exponent
        let digits := Nat.toDigits 10 d.digits
        layout style (dropTrailingZeros digits) (d.exponent + digits.length - 1)
    String.ofList (if negative then '-' :: body else body)

end Folio.Binary64

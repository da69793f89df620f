import Folio.Text.Scan

set_option autoImplicit false

/-! # Text in the letters of host names

A label of a host name that holds more than ASCII is written as its ASCII characters, a hyphen, and a
number in a mixed base for each of the others, in ascending order of their code points: how far the
insertion point moves, and through how many code points, until that character is put in. -/

namespace Folio.Url.Punycode

/-- The digit of a number below 36: letters first. -/
def digitChar (d : Nat) : Char :=
  if d < 26 then Char.ofNat ('a'.toNat + d) else Char.ofNat ('0'.toNat + (d - 26))

/-- The value of a digit, in either letter case. -/
def digitValue? (c : Char) : Option Nat :=
  if 'a' ≤ c ∧ c ≤ 'z' then some (c.toNat - 'a'.toNat)
  else if 'A' ≤ c ∧ c ≤ 'Z' then some (c.toNat - 'A'.toNat)
  else if '0' ≤ c ∧ c ≤ '9' then some (c.toNat - '0'.toNat + 26)
  else none

/-- From which value on a digit is followed by another; `k` is the place of the digit. -/
def threshold (k bias : Nat) : Nat :=
  let point := 36 * (k + 1)
  if point ≤ bias then 1 else if bias + 26 ≤ point then 26 else point - bias

theorem threshold_pos (k bias : Nat) : 1 ≤ threshold k bias := by
  unfold threshold
  grind

/-- Shrink a distance to what a single digit can weigh, counting the steps in thirty-sixes. -/
def shrink (delta steps : Nat) : Nat × Nat :=
  if h : 455 < delta then shrink (delta / 35) (steps + 36) else (delta, steps)
termination_by delta
decreasing_by exact Nat.div_lt_self (by omega) (by omega)

/-- The bias after a distance: long distances are expected after long ones. -/
def adapt (delta : Nat) (first : Bool) (count : Nat) : Nat :=
  let delta := if first then delta / 700 else delta / 2
  let (delta, steps) := shrink (delta + delta / count) 0
  steps + 36 * delta / (delta + 38)

/-! ## Writing -/

/-- The digits of a distance, from the place `k` on. -/
def encodeNumber (bias k n : Nat) : List Char :=
  let t := threshold k bias
  if h : n < t then [digitChar n]
  else digitChar (t + (n - t) % (36 - t)) :: encodeNumber bias (k + 1) ((n - t) / (36 - t))
termination_by n
decreasing_by
  have h1 := threshold_pos k bias
  exact Nat.lt_of_le_of_lt (Nat.div_le_self _ _) (by omega)

/-- The distances between insertions. -/
structure Insertion where
  /-- The distance from the insertion before. -/
  delta : Nat
  /-- The bias for the next distance. -/
  bias : Nat
  /-- How many characters are in their places. -/
  placed : Nat

/-- Pass through the text once: the characters below `n` move the insertion point, and each `n` is
    put in. -/
def encodeAll (n : Nat) (basic : Nat) : List Nat → Insertion → List Char × Insertion
  | [], s => ([], s)
  | c :: cs, s =>
    if c < n then encodeAll n basic cs { s with delta := s.delta + 1 }
    else if c = n then
      let digits := encodeNumber s.bias 0 s.delta
      let bias := adapt s.delta (s.placed == basic) (s.placed + 1)
      let (more, s) := encodeAll n basic cs ⟨0, bias, s.placed + 1⟩
      (digits ++ more, s)
    else encodeAll n basic cs s

/-- Put in the characters with the code points `points`, which ascend; `n` is the least that may
    come next. -/
def encodePoints (text : List Nat) (basic : Nat) : List Nat → Nat → Insertion → List Char
  | [], _, _ => []
  | m :: points, n, s =>
    let s := { s with delta := s.delta + (m - n) * (s.placed + 1) }
    let (digits, s) := encodeAll m basic text s
    digits ++ encodePoints text basic points (m + 1) { s with delta := s.delta + 1 }

/-- The ASCII form of a label, without its mark. -/
def encode (label : List Char) : List Char :=
  let basic := label.filter (·.toNat < 0x80)
  let text := label.map Char.toNat
  let points := ((text.filter (0x80 ≤ ·)).mergeSort (fun a b => decide (a ≤ b))).eraseDups
  let digits := encodePoints text basic.length points 0x80 ⟨0, 72, basic.length⟩
  if basic.isEmpty then digits else basic ++ '-' :: digits

/-! ## Reading -/

/-- Read one number from the place `k` on, each digit weighing `weight`: the number and the rest. -/
def decodeNumber (bias : Nat) : Nat → Nat → List Char → Option (Nat × List Char)
  | _, _, [] => none
  | k, weight, c :: cs => do
    let d ← digitValue? c
    let t := threshold k bias
    if d < t then return (d * weight, cs)
    else
      let (n, rest) ← decodeNumber bias (k + 1) (weight * (36 - t)) cs
      return (d * weight + n, rest)

/-- Put in characters until the numbers are used up. `point` is the code point put in last, `start`
    the place of insertion, and `first` says that nothing has been put in; `fuel` is at least the
    length of the digits. -/
def decodeAll (first : Bool) :
    Nat → List Char → Nat → Nat → Nat → List Char → Option (List Char)
  | 0, _, _, _, _, out => some out
  | _ + 1, [], _, _, _, out => some out
  | fuel + 1, digits, point, start, bias, out => do
    let (delta, rest) ← decodeNumber bias 0 1 digits
    let size := out.length + 1
    let point := point + (start + delta) / size
    if 0x10FFFF < point || (0xD800 ≤ point && point ≤ 0xDFFF) then none
    else
      let i := (start + delta) % size
      decodeAll false fuel rest point (i + 1) (adapt delta first size)
        (out.take i ++ Char.ofNat point :: out.drop i)

/-- The text of a label, given its ASCII form without its mark. -/
def decode? (label : List Char) : Option (List Char) :=
  let digits := (label.reverse.takeWhile (· != '-')).reverse
  let basic := (label.take (label.length - digits.length)).dropLast
  if !label.all (·.toNat < 0x80) then none
  else decodeAll true digits.length digits 0x80 0 72 basic

end Folio.Url.Punycode

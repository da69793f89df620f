set_option autoImplicit false

/-! # Sets and maps of characters, held as ranges of code points

Properties of characters that a standard lists by the thousand are kept as sorted ranges. A set is a
sorted sequence of disjoint intervals; a map is a sorted sequence of runs, each shifting every
`stride`-th code point of its interval by one distance. Both are read from a short text of
hexadecimal numbers, and both are searched by halving. -/

namespace Folio.Text

/-! ## Reading the short form -/

/-- The value of a hexadecimal digit; anything else counts as zero. -/
def hexDigitValue (c : Char) : Nat :=
  if '0' ≤ c ∧ c ≤ '9' then c.toNat - '0'.toNat
  else if 'a' ≤ c ∧ c ≤ 'f' then c.toNat - 'a'.toNat + 10
  else if 'A' ≤ c ∧ c ≤ 'F' then c.toNat - 'A'.toNat + 10
  else 0

/-- The number a list of hexadecimal digits denotes, most significant digit first. -/
def hexValue (cs : List Char) : Nat :=
  cs.foldl (fun n c => 16 * n + hexDigitValue c) 0

/-- Cut a list at every occurrence of a separator. There is always at least one piece. -/
def cutAt {α : Type} [DecidableEq α] (sep : α) : List α → List (List α)
  | [] => [[]]
  | c :: cs =>
    if c = sep then [] :: cutAt sep cs
    else match cutAt sep cs with
      | [] => [[c]]
      | piece :: pieces => (c :: piece) :: pieces

/-! ## Sets -/

/-- A set of code points: disjoint intervals, both ends included, in ascending order. -/
structure CharRanges where
  intervals : Array (Nat × Nat)

namespace CharRanges

/-- Read a set from its short form: intervals `lo-hi` and single points, parted by commas. -/
def ofText (text : String) : CharRanges where
  intervals := ((cutAt ',' text.toList).map fun piece =>
    match cutAt '-' piece with
    | [point] => (hexValue point, hexValue point)
    | lo :: hi :: _ => (hexValue lo, hexValue hi)
    | [] => (0, 0)).toArray

/-- Search the intervals with index in `[lo, hi)` for one that holds `n`. -/
def searchBetween (r : CharRanges) (n lo hi : Nat) : Bool :=
  if _h : lo < hi then
    let mid := (lo + hi) / 2
    match r.intervals[mid]? with
    | none => false
    | some (first, last) =>
      if n < first then r.searchBetween n lo mid
      else if last < n then r.searchBetween n (mid + 1) hi
      else true
  else false
termination_by hi - lo

/-- Whether the set holds the character. -/
def contains (r : CharRanges) (c : Char) : Bool :=
  r.searchBetween c.toNat 0 r.intervals.size

end CharRanges

/-! ## Maps -/

/-- Every `stride`-th code point from `first` to `last`, each sent the distance from `first` to
    `target` further. -/
structure CharRun where
  first : Nat
  last : Nat
  stride : Nat
  target : Nat

/-- A map on code points that moves those of its runs and keeps all others. -/
structure CharRuns where
  runs : Array CharRun

namespace CharRuns

/-- Read a map from its short form: runs `first-last:stride:target`, parted by commas. -/
def ofText (text : String) : CharRuns where
  runs := ((cutAt ',' text.toList).map fun piece =>
    match cutAt ':' piece with
    | [interval, stride, target] =>
      match cutAt '-' interval with
      | [first, last] => ⟨hexValue first, hexValue last, hexValue stride, hexValue target⟩
      | _ => ⟨0, 0, 1, 0⟩
    | _ => ⟨0, 0, 1, 0⟩).toArray

/-- Search the runs with index in `[lo, hi)` for the image of `n`. -/
def searchBetween (m : CharRuns) (n lo hi : Nat) : Nat :=
  if _h : lo < hi then
    let mid := (lo + hi) / 2
    match m.runs[mid]? with
    | none => n
    | some run =>
      if n < run.first then m.searchBetween n lo mid
      else if run.last < n then m.searchBetween n (mid + 1) hi
      else if (n - run.first) % run.stride = 0 then n - run.first + run.target
      else n
  else n
termination_by hi - lo

/-- The image of a character. -/
def apply (m : CharRuns) (c : Char) : Char :=
  Char.ofNat (m.searchBetween c.toNat 0 m.runs.size)

end CharRuns

end Folio.Text

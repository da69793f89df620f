import Folio.Markdown.Piece

set_option autoImplicit false

/-! # Matching marks of emphasis

A run of marks is first taken for text, one piece for each mark, and remembered as a sequence of
*delimiters*. When the text has been read, each delimiter that can close is matched with the nearest
one before it that can open and suits it, and the pieces of a match become the ends of an emphasis.
Matches never cross: the delimiters inside one are passed over by later searches. -/

namespace Folio.Markdown

/-- A mark that may open or close an emphasis. -/
structure Delimiter where
  mark : Char
  /-- The length of the run it stands in; zero if the length does not matter. -/
  length : Nat
  /-- The index of its piece. -/
  piece : Nat
  opens : Bool
  closes : Bool
  /-- The index of the delimiter that closes it. -/
  partner : Option Nat := none
deriving Repr, Inhabited

namespace Delimiter

/-- Whether the lengths of two runs forbid a match: one of them stands where it could both open and
    close, and only together do the lengths make a multiple of three. -/
def lengthsForbid (opener closer : Delimiter) : Bool :=
  (opener.closes || closer.opens) && (opener.length + closer.length) % 3 == 0 &&
    (opener.length % 3 != 0 || closer.length % 3 != 0)

/-- The state of the matching. -/
structure Matching where
  delimiters : Array Delimiter
  /-- How many delimiters before each one need not be looked at. -/
  jumps : Array Nat := #[]
  /-- For a mark and a kind of closer, how many delimiters at the front are known not to suit. -/
  bottoms : List ((Char × Nat) × Nat) := []
  /-- The first delimiter of the run. -/
  header : Nat := 0
  /-- The piece of the delimiter before, if the run may go on. -/
  lastPiece : Option Nat := none

/-- Find the opener for a closer among the first `count` delimiters, of which the first `bottom` are
    not looked at. -/
def findOpener (m : Matching) (closer : Delimiter) (bottom count : Nat) : Option Nat :=
  if _h : bottom < count then
    let i := count - 1
    let d := m.delimiters[i]!
    if d.mark = closer.mark ∧ d.opens ∧ d.partner.isNone ∧ !lengthsForbid d closer then some i
    else findOpener m closer bottom (i - m.jumps[i]!)
  else none
termination_by count
decreasing_by omega

/-- Look for the partner of one delimiter. -/
def matchOne (m : Matching) (i : Nat) : Matching :=
  let closer := m.delimiters[i]!
  let jumps := m.jumps.push 0
  let continues :=
    m.delimiters[m.header]!.mark == closer.mark && m.lastPiece.any (· + 1 == closer.piece)
  let header := if continues then m.header else i
  let m := { m with jumps := jumps, header := header, lastPiece := some closer.piece }
  if !closer.closes then m
  else
    let key := (closer.mark, (if closer.opens then 3 else 0) + closer.length % 3)
    let bottom := (m.bottoms.lookup key).getD 0
    let count := header - jumps[header]!
    match findOpener m closer bottom count with
    | none => { m with bottoms := (key, count) :: m.bottoms }
    | some j =>
      let jump :=
        if 0 < j ∧ !m.delimiters[j - 1]!.opens then jumps[j - 1]! + 1 else 0
      let jumps := (jumps.set! i (i - j + jump)).set! j jump
      let delimiters := m.delimiters.modify i fun d => { d with opens := false }
      let delimiters := delimiters.modify j fun d => { d with partner := some i, closes := false }
      { m with delimiters := delimiters, jumps := jumps, lastPiece := none }

/-- Match all delimiters. -/
def matchAll (delimiters : Array Delimiter) : Array Delimiter :=
  ((List.range delimiters.size).foldl matchOne { delimiters := delimiters }).delimiters

/-- Turn the pieces of the matched delimiters of struck-out text into its ends. The result holds the
    pieces, and the places of single marks that stand before an end. -/
def markStrikes (delimiters : Array Delimiter) (pieces : Array Piece) : Array Piece × List Nat :=
  delimiters.foldl (fun (pieces, lone) d =>
    match d.mark, d.partner with
    | '~', some j =>
      let stop := delimiters[j]!.piece
      let pieces := (pieces.set! d.piece (.start .strike)).set! stop (.stop .strike)
      let isLone : Bool := 0 < stop && match pieces[stop - 1]! with
        | .text ['~'] => true
        | _ => false
      (pieces, if isLone then (stop - 1) :: lone else lone)
    | _, _ => (pieces, lone)) (pieces, [])

/-- The number of ends of struck-out text from a place on. -/
def countStrikeEnds (pieces : Array Piece) : Nat → Nat → Nat
  | 0, _ => 0
  | fuel + 1, i =>
    match pieces[i]? with
    | some (.stop .strike) => countStrikeEnds pieces fuel (i + 1) + 1
    | _ => 0

/-- Put a single mark behind the ends that follow it. -/
def moveLone (pieces : Array Piece) (i : Nat) : Array Piece :=
  let j := i + countStrikeEnds pieces pieces.size (i + 1)
  if i = j then pieces else pieces.swapIfInBounds i j

/-- Turn the pieces of the first `count` delimiters that open emphasis, and of those that close it,
    into its ends. Two marks side by side at both ends make one strong emphasis. -/
def markEmphasis (delimiters : Array Delimiter) (count : Nat) (pieces : Array Piece) : Array Piece :=
  match count with
  | 0 => pieces
  | i + 1 =>
    let d := delimiters[i]!
    match d.partner with
    | none => markEmphasis delimiters i pieces
    | some j =>
      if d.mark != '*' && d.mark != '_' then markEmphasis delimiters i pieces
      else
        let stop := delimiters[j]!.piece
        let before := delimiters[i - 1]!
        let isStrong :=
          0 < i && before.partner == some (j + 1) && before.mark == d.mark &&
            before.piece + 1 == d.piece && delimiters[j + 1]!.piece == stop + 1
        let style := if isStrong then Style.strong else Style.emphasis
        let pieces := (pieces.set! d.piece (.start style)).set! stop (.stop style)
        if isStrong then
          let pieces := (pieces.set! before.piece (.text [])).set! delimiters[j + 1]!.piece (.text [])
          markEmphasis delimiters (i - 1) pieces
        else markEmphasis delimiters i pieces
termination_by count

/-- Match the delimiters of each group, which are those inside one link and outside the links in it,
    and put the ends of emphasis into the pieces. -/
def apply (groups : List (Array Delimiter)) (pieces : Array Piece) : Array Piece :=
  let groups := groups.map matchAll
  let pieces := groups.foldl (fun pieces group =>
    let (pieces, lone) := markStrikes group pieces
    lone.foldl moveLone pieces) pieces
  groups.foldl (fun pieces group => markEmphasis group group.size pieces) pieces

end Delimiter

end Folio.Markdown

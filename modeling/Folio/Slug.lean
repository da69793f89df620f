import Folio.Text.Blank
import Folio.Text.Lower
import Folio.Text.Word

set_option autoImplicit false

/-! # Heading ids

A heading's id is its text, trimmed and lower-cased, with punctuation dropped and each space turned
into a hyphen. Ids are unique within a document: a text that would repeat an id gets `-1`, `-2` and
so on appended. A `Slugger` remembers the ids given so far, each with the number last appended to it,
so that a text repeated many times finds its next suffix at once. -/

namespace Folio

/-! ## The id of a text by itself -/

/-- Characters that an id keeps; a space is kept too and becomes a hyphen. -/
def keepsInSlug (c : Char) : Bool :=
  Text.isWordChar c || c == '-' || c == ' '

/-- The id of a heading's text before it is made unique. -/
def baseSlug (text : String) : String :=
  let kept := (Text.lower (Text.strip text)).toList.filter keepsInSlug
  String.ofList (kept.map fun c => if c = ' ' then '-' else c)

/-- The id `base` with a number appended. -/
def suffixed (base : String) (n : Nat) : String :=
  base ++ "-" ++ toString n

/-! ## Unique ids -/

/-- The ids taken in one document, each with the last number tried as a suffix of it. -/
structure Slugger where
  taken : List (String × Nat) := []
deriving Repr, DecidableEq

namespace Slugger

/-- The last number tried as a suffix of an id, if the id is taken. -/
def counter? (s : Slugger) (id : String) : Option Nat :=
  s.taken.lookup id

/-- Whether an id is taken. -/
def isTaken (s : Slugger) (id : String) : Bool :=
  (s.counter? id).isSome

/-- Record a counter for an id, which is then taken. -/
def setCounter (s : Slugger) (id : String) (n : Nat) : Slugger :=
  ⟨(id, n) :: s.taken.filter fun entry => entry.1 != id⟩

/-- The least number above `n`, among the next `fuel` ones, whose suffixed id is free; the last one
    tried if none is. -/
def nextFree (s : Slugger) (base : String) (n : Nat) : Nat → Nat
  | 0 => n + 1
  | fuel + 1 =>
    if s.isTaken (suffixed base (n + 1)) then s.nextFree base (n + 1) fuel else n + 1

/-- Give a heading text its id and record it. As many suffixes are tried as ids are taken, which is
    enough: they are distinct, so one more than that cannot all be taken. -/
def slug (s : Slugger) (text : String) : String × Slugger :=
  let base := baseSlug text
  match s.counter? base with
  | none => (base, s.setCounter base 0)
  | some n =>
    let m := s.nextFree base n s.taken.length
    let id := suffixed base m
    (id, (s.setCounter base m).setCounter id 0)

/-- Record an id that is already in the document. One that is taken keeps its counter. -/
def reserve (s : Slugger) (id : String) : Slugger :=
  if s.isTaken id then s else s.setCounter id 0

/-- Forget every id. -/
def reset (_ : Slugger) : Slugger := {}

end Slugger

end Folio

set_option autoImplicit false

/-! # Texts with halves

A character beyond the first 65536 is also written as a pair of units, its two halves. An escape may name one half
alone, and a text may so come to hold halves beside its characters. It is kept and shown like any other, but it has no
form in bytes. -/

namespace Folio.Text

/-- One half of a pair, by its number among the 2048. The first 1024 stand first in a pair, the others second. -/
abbrev Half := Fin 0x800

/-- The number of a half among the numbers of characters. -/
def halfNumber (h : Half) : Nat :=
  0xD800 + h.val

/-- What stands at one place of a text. -/
inductive Point where
  | char (c : Char)
  | half (h : Half)
deriving Repr, DecidableEq

namespace Point

instance : Coe Char Point := ⟨char⟩

/-- The half that a number stands for. -/
def half? (n : Nat) : Option Half :=
  if h : 0xD800 ≤ n ∧ n < 0xE000 then some ⟨n - 0xD800, by omega⟩ else none

/-- The point that a number stands for. -/
def ofNat? (n : Nat) : Option Point :=
  match half? n with
  | some h => some (half h)
  | none => if n < 0x110000 then some (char (Char.ofNat n)) else none

def isHalf : Point → Bool
  | half _ => true
  | char _ => false

/-- The character at a place; the character for what cannot be shown stands for a half. -/
def toChar : Point → Char
  | char c => c
  | half _ => '\uFFFD'

end Point

/-- The points of a text without halves. -/
def points (cs : List Char) : List Point :=
  cs.map .char

/-- The characters of a text, with one that stands for each half. -/
def skeleton (ps : List Point) : List Char :=
  ps.map Point.toChar

/-- A text with a half at least. -/
structure Broken where
  points : List Point
  hasHalf : points.any Point.isHalf = true
deriving Repr, DecidableEq

/-- A text, if it has no halves. -/
def ofPoints (ps : List Point) : Except Broken String :=
  if h : ps.any Point.isHalf = true then .error ⟨ps, h⟩ else .ok (String.ofList (skeleton ps))

/-- A point before others; the two halves of a pair are its character. -/
def joinPoint (p : Point) (ps : List Point) : List Point :=
  match p, ps with
  | .half a, .half b :: rest =>
    if a.val < 0x400 ∧ 0x400 ≤ b.val then
      .char (Char.ofNat (0x10000 + a.val * 0x400 + (b.val - 0x400))) :: rest
    else p :: ps
  | _, _ => p :: ps

/-- A text in which the halves of pairs are their characters. -/
def joinPairs (ps : List Point) : List Point :=
  ps.foldr joinPoint []

end Folio.Text

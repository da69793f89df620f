import Folio.Text.Quoted

set_option autoImplicit false

/-! # Text as bytes

Files hold bytes. Every text has one form in bytes; bytes that are no text are refused with the place
and the kind of the first fault. -/

namespace Folio.Text

/-- What is wrong with a sequence of bytes. -/
inductive ByteFault where
  | badStart
  | badContinuation
  | unexpectedEnd
deriving Repr, DecidableEq

/-- The first fault in a sequence of bytes: the bytes from `first` to `last` are at fault. -/
structure IllFormed where
  fault : ByteFault
  first : Nat
  last : Nat
  /-- The byte at the place `first`. -/
  byte : UInt8
deriving Repr, DecidableEq

/-- The name of a fault. -/
def ByteFault.text : ByteFault → String
  | badStart => "invalid start byte"
  | badContinuation => "invalid continuation byte"
  | unexpectedEnd => "unexpected end of data"

/-- The text that reports a fault. -/
def IllFormed.message (e : IllFormed) : String :=
  let place :=
    if e.first = e.last then
      "byte 0x" ++ String.ofList (hexDigits 2 e.byte.toNat) ++ " in position " ++ toString e.first
    else "bytes in position " ++ toString e.first ++ "-" ++ toString e.last
  "'utf-8' codec can't decode " ++ place ++ ": " ++ e.fault.text

/-- The report of points that an encoding has no form for, if there are any. It names the first of them and those
    beside it. -/
def unencodable? (encoding reason : String) (fits : Point → Bool) (ps : List Point) : Option String :=
  let start := (ps.takeWhile fits).length
  let cannot := "'" ++ encoding ++ "' codec can't encode "
  match (ps.drop start).takeWhile (!fits ·) with
  | [] => none
  | [p] =>
    some (cannot ++ "character '" ++ String.ofList p.escapeByNumber ++ "' in position " ++ toString start ++
      ": " ++ reason)
  | run =>
    some (cannot ++ "characters in position " ++ toString start ++ "-" ++
      toString (start + run.length - 1) ++ ": " ++ reason)

/-- The report of a text with halves, which has no form in bytes. -/
def Broken.report (t : Broken) : String :=
  (unencodable? "utf-8" "surrogates not allowed" (!·.isHalf) t.points).getD ""

/-- The bytes of a character. -/
def encodeChar (c : Char) : List UInt8 :=
  let n := c.toNat
  if n < 0x80 then [n.toUInt8]
  else if n < 0x800 then [(0xC0 + n / 64).toUInt8, (0x80 + n % 64).toUInt8]
  else if n < 0x10000 then
    [(0xE0 + n / 4096).toUInt8, (0x80 + n / 64 % 64).toUInt8, (0x80 + n % 64).toUInt8]
  else
    [(0xF0 + n / 262144).toUInt8, (0x80 + n / 4096 % 64).toUInt8, (0x80 + n / 64 % 64).toUInt8,
      (0x80 + n % 64).toUInt8]

/-- The bytes of a text. -/
def encodeUtf8 (cs : List Char) : List UInt8 :=
  cs.flatMap encodeChar

/-- Bytes that continue a character. -/
def isContinuation (b : UInt8) : Bool :=
  0x80 ≤ b && b < 0xC0

/-- Whether a byte may come second in a character that starts with another: it must continue the
    character, and the character must need as many bytes as it has and be no surrogate. -/
def mayFollow (first second : UInt8) : Bool :=
  isContinuation second &&
    (if first = 0xE0 then 0xA0 ≤ second
    else if first = 0xED then second < 0xA0
    else if first = 0xF0 then 0x90 ≤ second
    else if first = 0xF4 then second < 0x90
    else true)

/-- How many bytes a character has that starts with a given one; none if no character does. -/
def lengthFrom (b : UInt8) : Nat :=
  if b < 0x80 then 1
  else if b < 0xC2 then 0
  else if b < 0xE0 then 2
  else if b < 0xF0 then 3
  else if b < 0xF5 then 4
  else 0

/-- The first character of some bytes that are not empty: the character and the rest, or the fault
    and how many bytes are at fault. -/
def decodeChar (b : UInt8) (bs : List UInt8) : Except (ByteFault × Nat) (Char × List UInt8) :=
  let bits (x : UInt8) : Nat := x.toNat % 64
  match lengthFrom b, bs with
  | 0, _ => .error (.badStart, 1)
  | 1, _ => .ok (Char.ofNat b.toNat, bs)
  | _, [] => .error (.unexpectedEnd, 1)
  | n, b2 :: bs =>
    if !mayFollow b b2 then .error (.badContinuation, 1)
    else if n = 2 then .ok (Char.ofNat (b.toNat % 32 * 64 + bits b2), bs)
    else match bs with
      | [] => .error (.unexpectedEnd, 2)
      | b3 :: bs =>
        if !isContinuation b3 then .error (.badContinuation, 2)
        else if n = 3 then .ok (Char.ofNat (b.toNat % 16 * 4096 + bits b2 * 64 + bits b3), bs)
        else match bs with
          | [] => .error (.unexpectedEnd, 3)
          | b4 :: bs =>
            if !isContinuation b4 then .error (.badContinuation, 3)
            else
              .ok (Char.ofNat (b.toNat % 8 * 262144 + bits b2 * 4096 + bits b3 * 64 + bits b4), bs)

/-- Decode from a place on. `fuel` is at least the number of bytes. -/
def decodeFrom : Nat → Nat → List UInt8 → Except IllFormed (List Char)
  | 0, _, _ => .ok []
  | _ + 1, _, [] => .ok []
  | fuel + 1, at', b :: bs =>
    match decodeChar b bs with
    | .error (fault, count) => .error ⟨fault, at', at' + count - 1, b⟩
    | .ok (c, rest) => (decodeFrom fuel (at' + ((bs.length + 1) - rest.length)) rest).map (c :: ·)

/-- The text of some bytes. -/
def decodeUtf8 (bs : List UInt8) : Except IllFormed (List Char) :=
  decodeFrom bs.length 0 bs

end Folio.Text

import Folio.Text.Printable
import Folio.Text.Utf8
import Folio.Url.Punycode

set_option autoImplicit false

/-! # What a reference in a page points to

A browser reads a reference as the URL standard says. Here only three things about it matter: whether
it is relative to the page, under which scheme it goes if it is not, and whether it is a URL at all,
which for the schemes of this library depends on the host and the port. -/

namespace Folio.Url

/-- How a reference is read. -/
inductive Reference where
  | relative
  | absolute (scheme : String)
  | invalid
deriving Repr, DecidableEq

namespace Reference

/-! ## Numeric hosts -/

/-- The number that a part of a numeric host denotes: decimal, hexadecimal after `0x`, or octal after
    `0`. -/
def hostNumber? (cs : List Char) : Option Nat :=
  let read (isDigit : Char → Bool) (base : Nat) (ds : List Char) : Option Nat :=
    if ds.all isDigit then some (ds.foldl (fun n d => base * n + Text.hexDigitValue d) 0) else none
  match cs with
  | [] => none
  | '0' :: 'x' :: ds | '0' :: 'X' :: ds => read Text.isHexDigit 16 ds
  | '0' :: d :: ds => read (fun c => '0' ≤ c && c ≤ '7') 8 (d :: ds)
  | ds => read Text.isAsciiDigit 10 ds

/-- The parts of a host between its points, without an empty one at the end. -/
def hostParts (host : List Char) : List (List Char) :=
  let parts := Text.cutAt '.' host
  if parts.getLast? = some [] && 1 < parts.length then parts.dropLast else parts

/-- Whether a host has to be read as numbers. -/
def endsInNumber (host : List Char) : Bool :=
  match (hostParts host).getLast? with
  | none => false
  | some last =>
    (!last.isEmpty && last.all Text.isAsciiDigit) || (hostNumber? last).isSome

/-- Whether a numeric host is an address: at most four numbers that fit together into 32 bits, all
    but the last into 8. -/
def isNumericAddress (host : List Char) : Bool :=
  let parts := hostParts host
  let numbers := parts.filterMap hostNumber?
  parts.length ≤ 4 && numbers.length == parts.length &&
    match numbers.reverse with
    | [] => false
    | last :: others => others.all (· ≤ 255) && last < Nat.pow 256 (4 - others.length)

/-- Read the pieces of an address of the sixth version: `pieces` are found so far, and `gap` says
    that two colons have been met. `fuel` is more than the length of the text. -/
def readPieces : Nat → Nat → Bool → List Char → Bool
  | 0, _, _, _ => false
  | _ + 1, pieces, gap, [] => pieces = 8 || (gap && pieces < 8)
  | fuel + 1, pieces, gap, ':' :: cs =>
    pieces < 8 && !gap && readPieces fuel (pieces + 1) true cs
  | fuel + 1, pieces, gap, cs =>
    let digits := (cs.takeWhile Text.isHexDigit).take 4
    match cs.drop digits.length with
    | [] => pieces < 8 && readPieces fuel (pieces + 1) gap []
    | ':' :: rest => pieces < 8 && !rest.isEmpty && readPieces fuel (pieces + 1) gap rest
    | '.' :: _ =>
      let parts := Text.cutAt '.' cs
      pieces ≤ 6 && !digits.isEmpty && parts.length == 4 &&
        (parts.all fun p => !p.isEmpty && p.all Text.isAsciiDigit && Text.decimalValue p ≤ 255 &&
          (p.length == 1 || p.head? != some '0')) &&
        readPieces fuel (pieces + 2) gap []
    | _ => false

/-- Whether what stands in the brackets of a host is an address of the sixth version. -/
def isBracketedAddress (cs : List Char) : Bool :=
  match cs with
  | ':' :: ':' :: rest => readPieces (cs.length + 1) 1 true rest
  | ':' :: _ => false
  | _ => readPieces (cs.length + 1) 0 false cs

/-! ## Named hosts -/

/-- The bytes of a text with its percent escapes resolved. -/
def percentDecode : List Char → List UInt8
  | '%' :: a :: b :: cs =>
    if Text.isHexDigit a && Text.isHexDigit b then (Text.hexValue [a, b]).toUInt8 :: percentDecode cs
    else Text.encodeChar '%' ++ percentDecode (a :: b :: cs)
  | c :: cs => Text.encodeChar c ++ percentDecode cs
  | [] => []

/-- ASCII characters that no host may hold. -/
def isForbiddenInHost (c : Char) : Bool :=
  c == '\x00' || c == '\t' || c == '\n' || c == '\r' || " #/:<>?@[\\]^|".toList.contains c

/-- Characters that a named host drops. -/
def isIgnoredInHost (c : Char) : Bool :=
  [0xAD, 0x200B, 0x2060, 0xFEFF].contains c.toNat || (0xFE00 ≤ c.toNat && c.toNat ≤ 0xFE0F)

/-- Characters that may stand in a named host. -/
def mayStandInHost (c : Char) : Bool :=
  if c.toNat < 0x80 then !(isForbiddenInHost c || c.toNat < 0x20 || c == '%' || c.toNat == 0x7F)
  else Text.isPrintable c && c.toNat != 0xFFFD

/-- Whether a label in ASCII letters stands for a text, if it is marked as one. -/
def isLabel (label : List Char) : Bool :=
  match Text.dropPrefix? "xn--".toList (Text.asciiLower label) with
  | none => true
  | some coded =>
    match Punycode.decode? coded with
    | none => false
    | some text => text.any (0x80 ≤ ·.toNat) && text.all mayStandInHost

/-- The ways to write the point between labels. -/
def isLabelPoint (c : Char) : Bool :=
  [0x2E, 0x3002, 0xFF0E, 0xFF61].contains c.toNat

/-- Whether a host of a scheme that names computers is well-formed. -/
def isHost (host : List Char) : Bool :=
  match host with
  | '[' :: r => r.getLast? == some ']' && isBracketedAddress r.dropLast
  | _ =>
    match Text.decodeUtf8 (percentDecode host) with
    | .error _ => false
    | .ok name =>
      let name := (name.filter (!isIgnoredInHost ·)).map fun c => if isLabelPoint c then '.' else c
      !name.isEmpty && name.all mayStandInHost && (Text.cutAt '.' name).all isLabel &&
        (!endsInNumber name || isNumericAddress name)

/-- Whether a host of any other scheme is well-formed. -/
def isOpaqueHost (host : List Char) : Bool :=
  match host with
  | '[' :: r => r.getLast? == some ']' && isBracketedAddress r.dropLast
  | _ => !host.any isForbiddenInHost

/-! ## Authorities -/

/-- The schemes whose references always name a computer. -/
def isSpecialScheme (scheme : String) : Bool :=
  ["http", "https", "ws", "wss", "ftp"].contains scheme

/-- Characters that end an authority. -/
def endsAuthority (special : Bool) (c : Char) : Bool :=
  c == '/' || c == '?' || c == '#' || (special && c == '\\')

/-- Cut a host off its port: at the first colon outside brackets. -/
def cutPort : Bool → List Char → List Char × Option (List Char)
  | _, [] => ([], none)
  | inBrackets, c :: cs =>
    if c = ':' ∧ !inBrackets then ([], some cs)
    else
      let (host, port) := cutPort (if c = '[' then true else if c = ']' then false else inBrackets) cs
      (c :: host, port)

/-- Whether a port is well-formed: a number of 16 bits, or nothing. -/
def isPort (port : List Char) : Bool :=
  port.all Text.isAsciiDigit && Text.decimalValue port ≤ 65535

/-- Whether the authority at the front of a text is well-formed. -/
def isAuthority (special : Bool) (cs : List Char) : Bool :=
  let authority := cs.takeWhile fun c => !endsAuthority special c
  let hostAndPort := (authority.reverse.takeWhile (· != '@')).reverse
  let hasUser := hostAndPort.length < authority.length
  let (host, port) := cutPort false hostAndPort
  if host.isEmpty then !special && !hasUser && port.isNone
  else (if special then isHost host else isOpaqueHost host) && isPort (port.getD [])

/-! ## References -/

/-- Characters of a scheme after its first one. -/
def isSchemeChar (c : Char) : Bool :=
  Text.isAsciiAlphanumeric c || c == '+' || c == '-' || c == '.'

/-- The scheme of a reference and what follows its colon. -/
def cutScheme? (cs : List Char) : Option (String × List Char) :=
  match cs with
  | [] => none
  | c :: _ =>
    if !Text.isAsciiLetter c then none
    else
      let scheme := cs.takeWhile isSchemeChar
      match cs.drop scheme.length with
      | ':' :: rest => some (String.ofList (Text.asciiLower scheme), rest)
      | _ => none

/-- The characters of a reference that count: none of the controls and spaces around it, and no tabs
    or line ends. -/
def significant (text : List Char) : List Char :=
  let isOuter (c : Char) : Bool := c.toNat ≤ 0x20
  let trimmed := ((text.dropWhile isOuter).reverse.dropWhile isOuter).reverse
  trimmed.filter fun c => !(c == '\t' || c == '\n' || c == '\r')

/-- How a reference is read. -/
def ofText (text : List Char) : Reference :=
  match cutScheme? (significant text) with
  | none => .relative
  | some (scheme, rest) =>
    let ok :=
      if isSpecialScheme scheme then
        isAuthority true (rest.dropWhile fun c => c == '/' || c == '\\')
      else match rest with
        | '/' :: '/' :: rest => isAuthority false rest
        | _ => true
    if ok then .absolute scheme else .invalid

end Reference

end Folio.Url

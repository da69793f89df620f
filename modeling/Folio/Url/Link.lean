import Folio.Text.Blank
import Folio.Text.Lower
import Folio.Text.Scan
import Folio.Text.Utf8
import Folio.Url.Punycode

set_option autoImplicit false

/-! # The addresses of links in a text

An address that a writer puts into a text is taken apart leniently, its host is brought into the
letters of host names, and the whole is escaped; for display the way is gone back. Nothing is refused
here for its form. -/

namespace Folio.Url

/-! ## Percent escapes

Characters that an address cannot hold are written as the bytes of their UTF-8 form, each after a
percent sign. An escape that is already there is kept, so escaping twice changes nothing. -/

/-- A byte after a percent sign, in upper case. -/
def percentByte (b : UInt8) : List Char :=
  '%' :: (Text.hexDigits 2 b.toNat).map Char.toUpper

/-- Characters that an address may hold as they are. -/
def mayStandInAddress (c : Char) : Bool :=
  Text.isAsciiAlphanumeric c || ";/?:@&=+$,-_.!~*'()#".toList.contains c

/-- The start of a text, if it is an escape. -/
def isEscape (cs : List Char) : Bool :=
  match cs with
  | '%' :: a :: b :: _ => Text.isHexDigit a && Text.isHexDigit b
  | _ => false

/-- Escape what an address cannot hold. -/
def percentEncode : List Char → List Char
  | [] => []
  | c :: cs =>
    if isEscape (c :: cs) || mayStandInAddress c then c :: percentEncode cs
    else (Text.encodeChar c).flatMap percentByte ++ percentEncode cs

/-- The character that some escaped bytes begin with and the bytes after it. Bytes that are no
    character stand for replacement characters. -/
def decodeEscaped (keeps : Char → Bool) : Nat → List UInt8 → List Char
  | 0, _ => []
  | _ + 1, [] => []
  | fuel + 1, b :: bs =>
    let replacement (n : Nat) : List Char := List.replicate n (Char.ofNat 0xFFFD)
    let run (n : Nat) : Option (List Char × List UInt8) :=
      let tail := bs.take n
      if tail.length = n ∧ tail.all Text.isContinuation then
        match Text.decodeUtf8 (b :: tail) with
        | .ok cs => some (cs, bs.drop n)
        | .error _ => some (replacement (n + 1), bs.drop n)
      else none
    if b < 0x80 then
      (if keeps (Char.ofNat b.toNat) then percentByte b else [Char.ofNat b.toNat]) ++
        decodeEscaped keeps fuel bs
    else
      let found :=
        if b &&& 0xE0 = 0xC0 then run 1
        else if b &&& 0xF0 = 0xE0 then run 2
        else if b &&& 0xF8 = 0xF0 then run 3
        else none
      match found with
      | some (cs, rest) => cs ++ decodeEscaped keeps fuel rest
      | none => replacement 1 ++ decodeEscaped keeps fuel bs

/-- The bytes of the escapes that a text begins with, and the rest. -/
def takeEscapes : List Char → List UInt8 × List Char
  | '%' :: a :: b :: cs =>
    if Text.isHexDigit a && Text.isHexDigit b then
      let (bytes, rest) := takeEscapes cs
      ((Text.hexValue [a, b]).toUInt8 :: bytes, rest)
    else ([], '%' :: a :: b :: cs)
  | cs => ([], cs)

/-- Resolve the escapes of a text, but not those of some ASCII characters. `fuel` is at least the
    length of the text. -/
def percentDecodeAux (keeps : Char → Bool) : Nat → List Char → List Char
  | 0, cs => cs
  | _ + 1, [] => []
  | fuel + 1, c :: cs =>
    match takeEscapes (c :: cs) with
    | ([], _) => c :: percentDecodeAux keeps fuel cs
    | (bytes, rest) => decodeEscaped keeps bytes.length bytes ++ percentDecodeAux keeps fuel rest

/-- Resolve the escapes of an address for display. Those that would read as something else stay. -/
def percentDisplay (cs : List Char) : List Char :=
  percentDecodeAux (fun c => ";/?:@&=+$,#%".toList.contains c) cs.length cs

/-! ## Links -/

/-- A link's address in its parts, each with its own delimiter unless noted otherwise. -/
structure Link where
  /-- With the colon. -/
  scheme : List Char := []
  slashes : Bool := false
  /-- Without the `@`. -/
  user : List Char := []
  /-- Without brackets; nothing if the address has no host at all. -/
  host : Option (List Char) := none
  /-- Without the colon. -/
  port : List Char := []
  path : List Char := []
  query : List Char := []
  fragment : List Char := []
deriving Repr

namespace Link

/-! ## Taking apart -/

/-- Characters of a label of a host name. -/
def isLabelChar (c : Char) : Bool :=
  Text.isAsciiAlphanumeric c || c == '+' || c == '-' || c == '_'

/-- Characters that end a host. -/
def endsHost (c : Char) : Bool :=
  "%/?;#'\x7b\x7d|\\^\x60<>\" \r\n\t".toList.contains c

/-- Whether a label of a host is in order; what is beyond ASCII counts as a letter. -/
def isLabel (label : List Char) : Bool :=
  label.length ≤ 63 && label.all fun c => isLabelChar c || 0x80 ≤ c.toNat

/-- Cut a host where its first bad label goes wrong: the host, and the text that belongs to the path
    instead. -/
def cutHost : List (List Char) → List (List Char) × List (List Char)
  | [] => ([], [])
  | label :: labels =>
    if isLabel label then
      let (good, bad) := cutHost labels
      (label :: good, bad)
    else
      let start := (label.takeWhile isLabelChar).take 63
      ([start], label.drop start.length :: labels)

/-- Join labels by points. -/
def joinLabels (labels : List (List Char)) : List Char :=
  ['.'].intercalate labels

/-- Cut a port off the end of a host. -/
def cutPort (host : List Char) : List Char × List Char :=
  let digits := (host.reverse.takeWhile Text.isAsciiDigit).reverse
  let before := host.take (host.length - digits.length)
  if before.getLast? = some ':' then (before.dropLast, digits) else (host, [])

/-- Read the user, the host and the port at the front of a text. -/
def readAuthority (rest : List Char) (link : Link) : Link × List Char :=
  let zone := rest.takeWhile fun c => !(c == '/' || c == '?' || c == '#')
  let afterUser := (zone.reverse.takeWhile (· != '@')).reverse
  let hasUser := afterUser.length < zone.length
  let user := if hasUser then zone.take (zone.length - afterUser.length - 1) else []
  let rest := rest.drop (zone.length - afterUser.length)
  let hostText := rest.takeWhile fun c => !endsHost c
  let hostText := if hostText.getLast? = some ':' then hostText.dropLast else hostText
  let rest := rest.drop hostText.length
  let (host, port) := cutPort hostText
  let bracketed := host.head? == some '[' && host.getLast? == some ']'
  let (host, rest) :=
    if bracketed then (host, rest)
    else
      let (good, bad) := cutHost (Text.cutAt '.' host)
      (joinLabels good, joinLabels bad ++ rest)
  let host := if 255 < host.length then [] else host
  let host := if bracketed then (host.drop 1).dropLast else host
  ({ link with user := user, host := some host, port := port }, rest)

/-- Schemes that are always followed by two slashes. -/
def slashedSchemes : List String := ["http:", "https:", "ftp:", "gopher:", "file:"]

/-- Take an address apart. -/
def ofText (text : List Char) : Link :=
  let rest := Text.trimBlanks text
  let name := rest.takeWhile fun c =>
    Text.isAsciiAlphanumeric c || c == '.' || c == '+' || c == '-'
  let scheme :=
    if !name.isEmpty && (rest.drop name.length).head? == some ':' then name ++ [':'] else []
  let rest := rest.drop scheme.length
  let schemeText := String.ofList scheme
  let hostless := schemeText == "javascript:"
  let slashes := Text.startsWith "//" rest
  let link : Link := { scheme := scheme, slashes := slashes && !hostless }
  let rest := if link.slashes then rest.drop 2 else rest
  let (link, rest) :=
    if !hostless && (slashes || (!scheme.isEmpty && !slashedSchemes.contains schemeText)) then
      readAuthority rest link
    else (link, rest)
  let beforeFragment := rest.takeWhile (· != '#')
  let path := beforeFragment.takeWhile (· != '?')
  { link with
    path := path
    query := beforeFragment.drop path.length
    fragment := rest.drop beforeFragment.length }

/-- Put an address together, with its characters written by some rule. The brackets around the host are
    no characters of a part, and stay. -/
def print (write : List Char → List Char) (link : Link) : List Char :=
  let host := link.host.getD []
  let before := link.scheme ++ (if link.slashes then ['/', '/'] else []) ++
    (if link.user.isEmpty then [] else link.user ++ ['@'])
  let after := (if link.port.isEmpty then [] else ':' :: link.port) ++
    link.path ++ link.query ++ link.fragment
  if host.contains ':' then write before ++ '[' :: write host ++ ']' :: write after
  else write (before ++ host ++ after)

/-! ## Hosts in either form -/

/-- Change every label of a host. A part before an `@` stays, and what follows a second one goes. -/
def mapLabels (f : List Char → Option (List Char)) (host : List Char) : Option (List Char) := do
  let isPoint (c : Char) : Bool := [0x2E, 0x3002, 0xFF0E, 0xFF61].contains c.toNat
  let map (name : List Char) : Option (List Char) := do
    let labels := Text.cutAt '.' (name.map fun c => if isPoint c then '.' else c)
    return joinLabels (← labels.mapM f)
  match Text.cutAt '@' host with
  | user :: name :: _ => return user ++ ['@'] ++ (← map name)
  | _ => map host

/-- Whether the host of an address is to be brought into another form. -/
def hasNamedHost (link : Link) : Bool :=
  !(link.host.getD []).isEmpty &&
    (link.scheme.isEmpty || ["http:", "https:", "mailto:"].contains (String.ofList link.scheme))

/-- Change the labels of the host, if every one can be changed. -/
def changeHost (f : List Char → Option (List Char)) (link : Link) : Link :=
  if link.hasNamedHost then
    match mapLabels f (link.host.getD []) with
    | some host => { link with host := some host }
    | none => link
  else link

/-- The address as it goes into a page. -/
def normalize (address : List Char) : List Char :=
  let toAscii (label : List Char) : Option (List Char) :=
    some (if label.any (0x7F ≤ ·.toNat) then "xn--".toList ++ Punycode.encode label else label)
  ((ofText address).changeHost toAscii).print percentEncode

/-- The address as it is shown to a reader. -/
def display (address : List Char) : List Char :=
  let toText (label : List Char) : Option (List Char) :=
    match Text.dropPrefix? "xn--".toList label with
    | some coded => Punycode.decode? (Text.lowerAfter [] coded)
    | none => some label
  ((ofText address).changeHost toText).print percentDisplay

/-- Whether an address may be linked to: it runs no script, opens no file, and holds no data but
    images. -/
def isAllowed (address : List Char) : Bool :=
  let text := Text.lowerAfter [] (Text.trimBlanks address)
  let hasScheme (s : String) : Bool := Text.startsWith s text
  if ["vbscript:", "javascript:", "file:", "data:"].any hasScheme then
    ["data:image/gif;", "data:image/png;", "data:image/jpeg;", "data:image/webp;"].any hasScheme
  else true

end Link

end Folio.Url

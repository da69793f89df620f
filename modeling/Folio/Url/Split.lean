import Folio.Text.CharRanges
import Folio.Text.Lower
import Folio.Text.Quoted
import Folio.Text.Scan

set_option autoImplicit false

/-! # The parts of a URL

A URL is cut at the first delimiters into scheme, authority, path, query and fragment; nothing is
decoded. Control characters and spaces at the front are dropped, and so are tabs and line ends
anywhere. An authority is refused if its brackets do not hold an address, or if it holds a character
that compatibility normalisation turns into a delimiter. -/

namespace Folio.Url

/-! ## Numeric host addresses

Which texts are internet addresses of the fourth and of the sixth version. Only the form matters
here, not the number an address stands for. -/

/-- A part of an address of the fourth version: a decimal number to 255 without leading zeros. -/
def isOctet (cs : List Char) : Bool :=
  !cs.isEmpty && cs.all Text.isAsciiDigit && cs.length ≤ 3 &&
    (cs == ['0'] || cs.head? != some '0') && Text.decimalValue cs ≤ 255

/-- Whether a text is an address of the fourth version: four parts between points. -/
def isIPv4 (cs : List Char) : Bool :=
  let parts := Text.cutAt '.' cs
  parts.length == 4 && parts.all isOctet

/-- A part of an address of the sixth version: one to four hexadecimal digits. -/
def isHextet (cs : List Char) : Bool :=
  !cs.isEmpty && cs.all Text.isHexDigit && cs.length ≤ 4

/-- Replace a last part of the fourth version's form by two parts of the sixth version's. -/
def expandLast (parts : List (List Char)) : Option (List (List Char)) :=
  match parts.getLast? with
  | none => some parts
  | some last =>
    if last.contains '.' then
      if isIPv4 last then some (parts.dropLast ++ [['0'], ['0']]) else none
    else some parts

/-- Whether the parts between the colons make an address. One gap may stand for any number of
    zeros, at least one; an empty part at an end must belong to it. -/
def arePartsOfIPv6 (parts : List (List Char)) : Bool :=
  let inner := (parts.drop 1).dropLast
  match inner.findIdx? List.isEmpty with
  | none => parts.length == 8 && parts.all isHextet
  | some i =>
    if (inner.drop (i + 1)).any List.isEmpty then false
    else
      let before := parts.take (i + 1)
      let after := parts.drop (i + 2)
      let before := if before.head? == some [] then before.drop 1 else before
      let after := if after.getLast? == some [] then after.dropLast else after
      (before.isEmpty || parts.head? != some []) && (after.isEmpty || parts.getLast? != some []) &&
        before.length + after.length < 8 && before.all isHextet && after.all isHextet

/-- Whether a text is an address of the sixth version, with or without a zone after `%`. -/
def isIPv6 (cs : List Char) : Bool :=
  let (address, zone) := match Text.cutBefore? (· == '%') cs with
    | some (address, rest) => (address, some (rest.drop 1))
    | none => (cs, none)
  let zoneOk := match zone with
    | none => true
    | some z => !z.isEmpty && !z.contains '%'
  let parts := Text.cutAt ':' address
  zoneOk && !cs.contains '/' && 3 ≤ parts.length &&
    match expandLast parts with
    | none => false
    | some parts => parts.length ≤ 9 && arePartsOfIPv6 parts

/-! ## URLs -/

/-- A URL in its parts. -/
structure Parts where
  scheme : List Char
  authority : List Char
  path : List Char
  query : List Char
  fragment : List Char
deriving Repr, DecidableEq

/-- Why a URL is refused. -/
inductive UrlError where
  /-- Brackets that do not match, or text beside them. -/
  | brackets
  /-- Brackets around what is no address. -/
  | notAnAddress (host : List Char)
  | addressOfFourthVersion
  | addressOfFutureVersion
  /-- A character of the authority that normalises to a delimiter. -/
  | hiddenDelimiter (authority : List Char)
deriving Repr, DecidableEq

/-- The text that reports the cause. -/
def UrlError.message : UrlError → String
  | brackets => "Invalid IPv6 URL"
  | notAnAddress host => Text.quote host ++ " does not appear to be an IPv4 or IPv6 address"
  | addressOfFourthVersion => "An IPv4 address cannot be in brackets"
  | addressOfFutureVersion => "IPvFuture address is invalid"
  | hiddenDelimiter authority =>
    "netloc '" ++ String.ofList authority ++
      "' contains invalid characters under NFKC normalization"

/-- Characters that may stand in a scheme. -/
def isSchemeChar (c : Char) : Bool :=
  Text.isAsciiAlphanumeric c || c == '+' || c == '-' || c == '.'

/-- Characters whose compatibility normalisation holds one of `/ ? # @ :`, beyond ASCII. -/
def hidesDelimiter (c : Char) : Bool :=
  [0x2047, 0x2048, 0x2049, 0x2100, 0x2101, 0x2105, 0x2106, 0x2A74, 0xFE13, 0xFE16, 0xFE55, 0xFE56,
    0xFE5F, 0xFE6B, 0xFF03, 0xFF0F, 0xFF1A, 0xFF1F, 0xFF20].contains c.toNat

/-- The text after the last occurrence of a character, or the whole text. -/
def afterLast (sep : Char) (cs : List Char) : List Char :=
  (cs.reverse.takeWhile (· != sep)).reverse

/-- Cut at the first occurrence of a character, which is in neither part. -/
def cutOnce (sep : Char) (cs : List Char) : List Char × Option (List Char) :=
  match Text.cutBefore? (· == sep) cs with
  | some (before, rest) => (before, some (rest.drop 1))
  | none => (cs, none)

/-- The form of an address of a future version: `v`, hexadecimal digits, a point and more. -/
def isFutureAddress (cs : List Char) : Bool :=
  match cs with
  | 'v' :: r =>
    let digits := r.takeWhile Text.isHexDigit
    !digits.isEmpty && (match r.drop digits.length with
      | '.' :: _ :: _ => true
      | _ => false)
  | _ => false

/-- Whether what stands in the brackets of an authority is an address. -/
def checkBracketedHost (host : List Char) : Except UrlError Unit :=
  if host.head? = some 'v' then
    if isFutureAddress host then .ok () else .error .addressOfFutureVersion
  else if isIPv4 host then .error .addressOfFourthVersion
  else if isIPv6 host then .ok ()
  else .error (.notAnAddress host)

/-- Check an authority. -/
def checkAuthority (authority : List Char) : Except UrlError Unit := do
  let opens := authority.contains '['
  let closes := authority.contains ']'
  if opens != closes then throw .brackets
  if opens then
    let hostAndPort := afterLast '@' authority
    match cutOnce '[' hostAndPort with
    | (before, some bracketed) =>
      if !before.isEmpty then throw .brackets
      let (host, port) := cutOnce ']' bracketed
      match port with
      | some (c :: _) => if c ≠ ':' then throw .brackets
      | _ => pure ()
      checkBracketedHost host
    | (_, none) => checkBracketedHost (cutOnce ':' hostAndPort).1
  if authority.any hidesDelimiter then throw (.hiddenDelimiter authority)

/-- Take the scheme off a URL. -/
def splitScheme (cs : List Char) : List Char × List Char :=
  match cutOnce ':' cs with
  | (before, some rest) =>
    match before with
    | c :: _ =>
      if Text.isAsciiLetter c && before.all isSchemeChar then (Text.asciiLower before, rest)
      else ([], cs)
    | [] => ([], cs)
  | (_, none) => ([], cs)

/-- Take the authority off a URL without scheme. -/
def splitAuthority (cs : List Char) : List Char × List Char :=
  match cs with
  | '/' :: '/' :: r =>
    let authority := r.takeWhile fun c => !(c == '/' || c == '?' || c == '#')
    (authority, r.drop authority.length)
  | r => ([], r)

/-- Cut a URL into its parts. -/
def split (url : List Char) : Except UrlError Parts := do
  let cs := url.dropWhile fun c => c.toNat ≤ 0x20
  let cs := cs.filter fun c => !(c == '\t' || c == '\r' || c == '\n')
  let (scheme, cs) := splitScheme cs
  let (authority, cs) := splitAuthority cs
  checkAuthority authority
  let (cs, fragment) := cutOnce '#' cs
  let (path, query) := cutOnce '?' cs
  return ⟨scheme, authority, path, query.getD [], fragment.getD []⟩

/-- The host of an authority: without user information, brackets and port. -/
def Parts.host (p : Parts) : List Char :=
  let hostAndPort := afterLast '@' p.authority
  match cutOnce '[' hostAndPort with
  | (_, some bracketed) => (cutOnce ']' bracketed).1
  | (_, none) => (cutOnce ':' hostAndPort).1

/-- Whether a link leads off the site: to another host than the internal ones, over the web or over
    whatever the page itself came by. -/
def isExternal (href : String) (internalHosts : List String) : Except UrlError Bool := do
  let parts ← split (Text.trimBlanks href.toList)
  if parts.authority.isEmpty then return false
  if !parts.scheme.isEmpty && parts.scheme != "http".toList && parts.scheme != "https".toList then
    return false
  return !(internalHosts.map Text.lower).contains (Text.lower (String.ofList parts.host))

end Folio.Url

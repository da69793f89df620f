import Folio.Text.Lower
import Folio.Text.Punctuation
import Folio.Text.Scan

set_option autoImplicit false

/-! # Addresses that stand in a text as they are

A writer need not mark an address as a link: one with a known scheme, a host name with a well-known
ending, and a mail address are found in running text. What follows an address is part of it only if it
can hardly be punctuation of the sentence. Every reader here takes the text at a place and gives the
rest after what it recognises. -/

namespace Folio.Markdown.BareLink

/-! ## Characters -/

/-- Spaces and controls. -/
def isGap (c : Char) : Bool :=
  let n := c.toNat
  n ≤ 0x20 || (0x7F ≤ n && n ≤ 0xA0) || n == 0x1680 || (0x2000 ≤ n && n ≤ 0x200A) ||
    n == 0x2028 || n == 0x2029 || n == 0x202F || n == 0x205F || n == 0x3000

/-- Characters that part an address from the text around it in any case. -/
def isSeparator (c : Char) : Bool :=
  c == '>' || c == '<' || c.toNat == 0xFF5C

/-- Spaces, controls and punctuation. -/
def isBreak (c : Char) : Bool :=
  isGap c || Text.isPunctuation c

/-- Characters of host names. -/
def isHostLetter (c : Char) : Bool :=
  !(isSeparator c || isBreak c)

/-! ## Hosts -/

/-- A label in the ASCII form of other alphabets. -/
def isCodedLabel (label : List Char) : Bool :=
  match Text.dropPrefix? "xn--".toList (Text.asciiLower label) with
  | some rest => !rest.isEmpty && rest.length ≤ 59 &&
      rest.all fun c => Text.isAsciiAlphanumeric c || c == '-'
  | none => false

/-- Whether a run of letters and hyphens is a label of a host. -/
def isLabel (label : List Char) : Bool :=
  isCodedLabel label ||
    (label.length ≤ 63 && label.head?.any isHostLetter && label.getLast?.any isHostLetter)

/-- Whether a label may end a host that stands without a scheme. -/
def isRootLabel (label : List Char) : Bool :=
  isCodedLabel label || (!label.isEmpty && label.length ≤ 63 && label.all isHostLetter)

/-- The endings of host names that are known well enough. -/
def longEndings : List String :=
  ["biz", "com", "edu", "gov", "net", "org", "pro", "web", "xxx", "aero", "asia", "coop", "info",
    "museum", "name", "shop", "рф"]

/-- The endings of host names for countries, by their first letter. -/
def countryEndings : List (Char × String) :=
  [('a', "cdefgilmnoqrstuwxz"), ('b', "abdefghijmnorstvwyz"), ('c', "acdfghiklmnoruvwxyz"),
    ('d', "ejkmoz"), ('e', "cegrstu"), ('f', "ijkmor"), ('g', "abdefghilmnpqrstuwy"), ('h', "kmnrtu"),
    ('i', "delmnoqrst"), ('j', "emop"), ('k', "eghimnprwyz"), ('l', "abcikrstuvy"),
    ('m', "acdeghklmnopqrstuvwxyz"), ('n', "acefgilopruz"), ('o', "m"), ('p', "aefghklmnrstwy"),
    ('q', "a"), ('r', "eosuw"), ('s', "abcdeghijklmnortuvxyz"), ('t', "cdfghjklmnortvwz"),
    ('u', "agksyz"), ('v', "aceginu"), ('w', "fs"), ('y', "et"), ('z', "amw")]

/-- Whether a label is a well-known ending of a host name. -/
def isKnownEnding (label : List Char) : Bool :=
  let lowered := Text.lowerAfter [] label
  isCodedLabel label || longEndings.contains (String.ofList lowered) ||
    match lowered with
    | [a, b] => (countryEndings.lookup a).any (·.toList.contains b)
    | _ => false

/-- Whether an address may end before a text: no letter follows, and nothing with which the name
    could go on. -/
def mayEnd (cs : List Char) : Bool :=
  match cs with
  | [] => true
  | c :: rest =>
    (isSeparator c || isBreak c) && c != '-' && c != '_' &&
      match c, rest with
      | ':', d :: _ => !Text.isAsciiDigit d
      | '.', d :: _ => d != '-' && isBreak d
      | _, _ => true

/-- The beginnings of a text that are labels between points, shortest first: the labels, last one
    first, and the rest. `fuel` is at least the length of the text. -/
def labelRuns : Nat → List (List Char) → List Char → List (List (List Char) × List Char)
  | 0, _, _ => []
  | fuel + 1, before, cs =>
    let label := cs.takeWhile fun c => isHostLetter c || c == '-'
    if !isLabel label then []
    else
      let labels := label :: before
      match cs.drop label.length with
      | '.' :: rest => (labels, '.' :: rest) :: labelRuns fuel labels rest
      | rest => [(labels, rest)]

/-- The rest after a port, if there is one. -/
def afterPort? (cs : List Char) : Option (List Char) :=
  match cs with
  | ':' :: rest =>
    let digits := rest.takeWhile Text.isAsciiDigit
    if digits.isEmpty || 5 < digits.length || (digits.length == 5 && digits.head? == some '0') ||
        65535 < Text.decimalValue digits then none
    else some (rest.drop digits.length)
  | _ => none

/-- The rest after a port, if there is one, where an address may end. -/
def endAfterPort? (cs : List Char) : Option (List Char) :=
  match (afterPort? cs).filter mayEnd with
  | some rest => some rest
  | none => if mayEnd cs then some cs else none

/-- The rest after the longest host whose labels, last one first, are acceptable. -/
def afterHost? (accepts : List (List Char) → Bool) (finish : List Char → Option (List Char))
    (cs : List Char) : Option (List Char) :=
  ((labelRuns cs.length [] cs).reverse.filter (accepts ·.1)).findSome? fun (_, rest) => finish rest

/-- Where an address may end without a port. -/
def endHere? (cs : List Char) : Option (List Char) :=
  if mayEnd cs then some cs else none

/-- A number to 255, of at most three digits. -/
def isOctet (label : List Char) : Bool :=
  !label.isEmpty && label.length ≤ 3 && label.all Text.isAsciiDigit && Text.decimalValue label ≤ 255

/-- Labels with a well-known ending after at least one other. -/
def haveKnownEnding (labels : List (List Char)) : Bool :=
  match labels with
  | last :: _ :: _ => isKnownEnding last
  | _ => false

/-- Four numbers, or labels with a well-known ending. -/
def areMailHost (labels : List (List Char)) : Bool :=
  haveKnownEnding labels || (labels.length == 4 && labels.all isOctet)

/-! ## Paths -/

/-- The rest after a group between two marks that holds no gap. -/
def afterGroup? (close : Char) (mayBeEmpty : Bool) (cs : List Char) : Option (List Char) :=
  let inner := cs.takeWhile fun c => !(isGap c || c == close)
  match cs.drop inner.length with
  | c :: rest => if c = close ∧ (mayBeEmpty ∨ !inner.isEmpty) then some rest else none
  | [] => none

/-- Whether a mark that also ends sentences belongs to the path, by what follows it. -/
def goesOn (mark : Char) (cs : List Char) : Bool :=
  match cs with
  | [] => false
  | c :: _ => !(isGap c || c == mark)

/-- The rest after one piece of a path. -/
def afterPathPiece? (cs : List Char) : Option (List Char) :=
  match cs with
  | [] => none
  | c :: rest =>
    if isGap c || isSeparator c then none
    else match c with
      | '[' => afterGroup? ']' true rest
      | '(' => afterGroup? ')' true rest
      | '\x7b' => afterGroup? '\x7d' true rest
      | '"' => afterGroup? '"' false rest
      | '\'' =>
        match afterGroup? '\'' false rest with
        | some r => some r
        | none =>
          match rest with
          | d :: _ => if isHostLetter d || d == '-' then some rest else none
          | [] => none
      | '.' =>
        let points := rest.takeWhile (· == '.')
        match rest.drop points.length with
        | d :: r =>
          if !points.isEmpty then
            if Text.isAsciiAlphanumeric d || d == '%' || d == '/' || d == '&' then some r else none
          else if isGap d then none else some rest
        | [] => none
      | '-' => some (rest.dropWhile (· == '-'))
      | ',' => if rest.head?.any (!isGap ·) then some rest else none
      | ';' => if rest.head?.any (!isGap ·) then some rest else none
      | '!' =>
        let r := rest.dropWhile (· == '!')
        if goesOn '!' r then some r else none
      | '?' => if goesOn '?' rest then some rest else none
      | ')' | ']' | '\x7d' => none
      | _ => some rest

/-- The rest after as many pieces of a path as there are. `fuel` is at least the length of the
    text. -/
def afterPathPieces : Nat → List Char → List Char
  | 0, cs => cs
  | fuel + 1, cs =>
    match afterPathPiece? cs with
    | some rest => afterPathPieces fuel rest
    | none => cs

/-- The rest after a path, a query and a fragment, if there are any. -/
def afterPath (cs : List Char) : List Char :=
  match cs with
  | c :: rest =>
    if c = '/' ∨ c = '?' ∨ c = '#' then
      match afterPathPiece? rest with
      | some r => afterPathPieces r.length r
      | none => if c = '/' then rest else cs
    else cs
  | [] => []

/-! ## Addresses with a scheme -/

/-- The rest after a user and its `@`, if there is one. -/
def afterUser? (cs : List Char) : Option (List Char) :=
  let user := cs.takeWhile fun c => !(isGap c || "@/[]()".toList.contains c)
  match cs.drop user.length with
  | '@' :: rest => if user.isEmpty then none else some rest
  | _ => none

/-- Try a reader after the user that may stand in front, and then without one. -/
def withUser? (read : List Char → Option (List Char)) (cs : List Char) : Option (List Char) :=
  match (afterUser? cs).bind read with
  | some rest => some rest
  | none => read cs

/-- The rest after two slashes, a host and a path. -/
def afterWebAddress? (cs : List Char) : Option (List Char) :=
  match cs with
  | '/' :: '/' :: rest =>
    (withUser? (afterHost? (fun _ => true) endAfterPort?) rest).map afterPath
  | _ => none

/-- The rest after a host that stands right after two slashes without a scheme. -/
def afterSlashedHost? (cs : List Char) : Option (List Char) :=
  let host (cs : List Char) : Option (List Char) :=
    let named :=
      if Text.startsWithNoCase "localhost" cs then endAfterPort? (cs.drop 9) else none
    match named with
    | some rest => some rest
    | none =>
      afterHost? (fun labels => 2 ≤ labels.length && labels.head?.any isRootLabel) endAfterPort? cs
  (withUser? host cs).map afterPath

/-- Characters that a mail address may begin with. -/
def isMailNameChar (c : Char) : Bool :=
  Text.isAsciiAlphanumeric c || "-;:&=+$,._".toList.contains c

/-- The rest after the name in a mail address and its `@`. -/
def afterMailName? (cs : List Char) : Option (List Char) :=
  match cs with
  | [] => none
  | c :: rest =>
    if !isMailNameChar c then none
    else match rest.dropWhile fun c => isMailNameChar c || c == '"' with
      | '@' :: rest => some rest
      | _ => none

/-- The rest after a mail address. -/
def afterMailAddress? (accepts : List (List Char) → Bool) (cs : List Char) : Option (List Char) :=
  (afterMailName? cs).bind (afterHost? accepts endHere?)

/-- The schemes that are known. -/
def schemes : List String := ["http:", "https:", "ftp:", "//", "mailto:"]

/-- The scheme that a text starts with, and the rest. -/
def scheme? (cs : List Char) : Option (String × List Char) :=
  (schemes.find? (Text.startsWithNoCase · cs)).map fun s => (s, cs.drop s.length)

/-- The rest after what belongs to a scheme. `before` is the character before the scheme. -/
def afterScheme? (scheme : String) (before : Option Char) (cs : List Char) : Option (List Char) :=
  match scheme with
  | "mailto:" => afterMailAddress? (fun _ => true) cs
  | "//" =>
    if before = some ':' ∨ before = some '/' then none else afterSlashedHost? cs
  | _ => afterWebAddress? cs

/-! ## Finding addresses -/

/-- An address that was found: its place, and its scheme, which is empty for a bare host. -/
structure Found where
  start : Nat
  stop : Nat
  scheme : String
deriving Repr

/-- Characters after which a scheme may stand. -/
def mayPrecedeScheme (c : Char) : Bool :=
  c != '_' && (isSeparator c || isBreak c)

/-- The schemes in a text, each with its place, the character before it and the rest after it.
    `before` is the character before the text; `fuel` is more than its length. -/
def schemesIn (before : Option Char) : Nat → Nat → List Char →
    List (Nat × String × Option Char × List Char)
  | 0, _, _ => []
  | fuel + 1, i, cs =>
    let atStart := if i = 0 then scheme? cs else none
    match atStart with
    | some (scheme, rest) =>
      (i, scheme, none, rest) :: schemesIn before fuel (i + (cs.length - rest.length)) rest
    | none =>
      match cs with
      | [] => []
      | c :: tail =>
        match (if mayPrecedeScheme c then scheme? tail else none) with
        | some (scheme, rest) =>
          (i + 1, scheme, some c, rest) ::
            schemesIn before fuel (i + (cs.length - rest.length)) rest
        | none => schemesIn (some c) fuel (i + 1) tail

/-- The first address with a scheme. -/
def findScheme? (text : List Char) : Option Found :=
  (schemesIn none (text.length + 1) 0 text).findSome? fun (i, scheme, before, rest) =>
    (afterScheme? scheme before rest).map fun stop => ⟨i, text.length - stop.length, scheme⟩

/-- Whether a text starts with a point, a known ending, and something that is no letter. -/
def startsWithEnding (cs : List Char) : Bool :=
  match cs with
  | '.' :: rest =>
    let ends (n : Nat) : Bool :=
      isKnownEnding (rest.take n) && n ≤ rest.length &&
        match rest[n]? with
        | none => true
        | some c => isBreak c || c == '>'
    (List.range 64).any ends
  | _ => false

/-- Whether a text starts with what hints at a host: a usual name, a number between points, or a
    known ending. -/
def hintsAtHost (cs : List Char) : Bool :=
  Text.startsWithNoCase "localhost" cs || Text.startsWithNoCase "www." cs || startsWithEnding cs ||
    match cs with
    | '.' :: rest =>
      let digits := rest.takeWhile Text.isAsciiDigit
      !digits.isEmpty && digits.length ≤ 3 && (rest.drop digits.length).head? == some '.'
    | _ => false

/-- The first place at which a test holds. -/
def firstPlace? (p : List Char → Bool) (text : List Char) : Option Nat :=
  (Text.cutBeforeMatch? p text).map fun (before, _) => before.length

/-- Characters that stand around a bare host but are not part of it. -/
def isHostFrame (c : Char) : Bool :=
  "$+<=>^\x60|".toList.contains c || c.toNat == 0xFF5C

/-- Characters after which a bare host may stand. -/
def mayPrecedeHost (c : Char) : Bool :=
  !".:/-_@".toList.contains c && (isHostFrame c || isBreak c)

/-- Find the first place where a reader succeeds, at the start of the text or after certain
    characters: the place, and the rest after what was read. -/
def findAfter? (precedes : Char → Bool) (read : List Char → Option (List Char)) :
    Nat → List Char → Option (Nat × List Char)
  | i, cs =>
    match (if i = 0 then read cs else none) with
    | some rest => some (i, rest)
    | none =>
      match cs with
      | [] => none
      | c :: tail =>
        match (if precedes c then read tail else none) with
        | some rest => some (i + 1, rest)
        | none => findAfter? precedes read (i + 1) tail

/-- The first bare host, with its path. -/
def findHost? (text : List Char) : Option Found :=
  let read (cs : List Char) : Option (List Char) :=
    if cs.head?.any isHostFrame then none
    else (afterHost? haveKnownEnding endAfterPort? cs).map afterPath
  (findAfter? mayPrecedeHost read 0 text).map fun (i, rest) => ⟨i, text.length - rest.length, ""⟩

/-- The first bare mail address. -/
def findMail? (text : List Char) : Option Found :=
  let precedes (c : Char) : Bool := isSeparator c || c == '"' || c == '(' || isGap c
  (findAfter? precedes (afterMailAddress? areMailHost) 0 text).map fun (i, rest) =>
    ⟨i, text.length - rest.length, "mailto:"⟩

/-- The first address of any kind. Of two at one place a longer mail address wins. -/
def findFirst? (text : List Char) : Option Found :=
  let found := findScheme? text
  let found :=
    match firstPlace? hintsAtHost text with
    | none => found
    | some hint =>
      if found.all (hint < ·.start) then
        match findHost? text with
        | some host => if found.all (host.start < ·.start) then some host else found
        | none => found
      else found
  if text.contains '@' then
    match findMail? text with
    | some mail =>
      if found.all fun f => mail.start < f.start || (mail.start == f.start && f.stop < mail.stop) then
        some mail
      else found
    | none => found
  else found

/-- All addresses in a text, in order. Each search starts anew after the address before. `fuel` is
    more than the length of the text. -/
def findAll : Nat → Nat → List Char → List Found
  | 0, _, _ => []
  | fuel + 1, offset, text =>
    match text, findFirst? text with
    | [], _ => []
    | _, none => []
    | _, some f =>
      ⟨offset + f.start, offset + f.stop, f.scheme⟩ ::
        findAll fuel (offset + f.stop) (text.drop f.stop)

/-- All addresses in a text, in order. -/
def inText (text : List Char) : List Found :=
  findAll (text.length + 1) 0 text

/-- Whether a text may hold an address at all. -/
def mayHold (text : List Char) : Bool :=
  text.contains '@' || !(schemesIn none (text.length + 1) 0 text).isEmpty ||
    (firstPlace? hintsAtHost text).isSome

/-- The length of an address with a scheme at the start of a text. -/
def lengthAtStart? (text : List Char) : Option Nat :=
  match scheme? text with
  | some (scheme, rest) =>
    (afterScheme? scheme none rest).map fun stop => text.length - stop.length
  | none => none

end Folio.Markdown.BareLink

import Folio.Markdown.Delimiter
import Folio.Markdown.LinkSyntax
import Std.Data.HashMap

set_option autoImplicit false

/-! # Reading running text

A paragraph, a heading or a cell of a table is read from left to right. At each place at most one kind
of construct can begin, which its first character tells; what begins none is text. To find the end of a
link's text the constructs inside it are skipped first, without a trace but for what was learnt about
where they end. -/

namespace Folio.Markdown

/-- How a text is to be read. -/
structure Reading where
  /-- Whether HTML is HTML, and not text. -/
  allowsHtml : Bool
  definitions : List LinkSyntax.Definition

/-- How deep constructs may nest. -/
def maxNesting : Nat := 20

namespace Phrase

/-! ## State -/

/-- What is known while a text is read. -/
structure State where
  pieces : Array Piece := #[]
  /-- Text that is not a piece yet, last character first. -/
  pending : List Char := []
  /-- The delimiters of the text, or of the link that is being read. -/
  delimiters : Array Delimiter := #[]
  /-- The delimiters of the links that have been read. -/
  finished : List (Array Delimiter) := []
  /-- For each length of a run of backticks, where the last such run was seen. -/
  ticks : List (Nat × Nat) := []
  /-- Whether all runs of backticks have been seen. -/
  knowsTicks : Bool := false
  /-- Where the construct that begins at a place ends. -/
  ends : Std.HashMap Nat Nat := ∅
  /-- How many links are open. -/
  links : Int := 0

namespace State

/-- Make a piece of the text that is pending. -/
def flush (s : State) : State :=
  if s.pending.isEmpty then s
  else { s with pieces := s.pieces.push (.text s.pending.reverse), pending := [] }

/-- Add a piece. -/
def add (p : Piece) (s : State) : State :=
  let s := s.flush
  { s with pieces := s.pieces.push p }

/-- Add text. -/
def addText (cs : List Char) (s : State) : State :=
  { s with pending := cs.reverse ++ s.pending }

/-- Add a mark that may open or close an emphasis. -/
def addDelimiter (mark : Char) (text : List Char) (length : Nat) (opens closes : Bool) (s : State) :
    State :=
  let s := s.add (.text text)
  let d : Delimiter := ⟨mark, length, s.pieces.size - 1, opens, closes, none⟩
  { s with delimiters := s.delimiters.push d }

end State

/-- What comes of trying a construct: the state, and the place after the construct if it is one. -/
abbrev Try := State × Option Nat

/-- A text by its places. -/
abbrev Source := Array Char

/-- The characters from one place to another. -/
def Source.slice (src : Source) (start stop : Nat) : List Char :=
  (src.extract start stop).toList

/-- The first place from `i` on, and not beyond `stop`, at which a test fails. -/
def skipWhile (p : Char → Bool) (src : Source) (stop i : Nat) : Nat :=
  if _h : i < stop then
    match src[i]? with
    | some c => if p c then skipWhile p src stop (i + 1) else i
    | none => i
  else i
termination_by stop - i

/-! ## Simple constructs -/

/-- Characters at which a construct may begin. -/
def startsConstruct (c : Char) : Bool :=
  "\n!#$%&*+-:<=>@[\\]^_\x60\x7b\x7d~".toList.contains c

/-- Text up to where a construct may begin. -/
def readText (silent : Bool) (src : Source) (stop i : Nat) (s : State) : Try :=
  let j := skipWhile (!startsConstruct ·) src stop i
  if j = i then (s, none)
  else (if silent then s else s.addText (src.slice i j), some j)

/-- The scheme at the end of a text that comes last character first. -/
def schemeAtEnd? (pending : List Char) : Option (List Char) :=
  let run := pending.takeWhile fun c =>
    Text.isAsciiAlphanumeric c || c == '.' || c == '+' || c == '-'
  let scheme := run.reverse.dropWhile (!Text.isAsciiLetter ·)
  if scheme.length = run.length ∧ !scheme.isEmpty then some scheme else none

/-- An address whose colon and slashes stand here. -/
def readBareLink (silent : Bool) (src : Source) (stop i : Nat) (s : State) : Try :=
  if 0 < s.links || stop < i + 3 || src.slice i (i + 3) != "://".toList then (s, none)
  else match schemeAtEnd? s.pending with
    | none => (s, none)
    | some scheme =>
      let text := scheme ++ src.slice i src.size
      match BareLink.lengthAtStart? text with
      | none => (s, none)
      | some length =>
        if length ≤ scheme.length then (s, none)
        else
          let address := ((text.take length).reverse.dropWhile (· == '*')).reverse
          let target := Url.Link.normalize address
          if !Url.Link.isAllowed target then (s, none)
          else
            let s :=
              if silent then s
              else
                let s := { s with pending := s.pending.drop scheme.length }
                ((s.add (.linkStart target [])).add (.text (Url.Link.display address))).add .linkStop
            (s, some (i + (address.length - scheme.length)))

/-- The end of a line. Two spaces before it make it a hard one. -/
def readLineEnd (silent : Bool) (src : Source) (stop i : Nat) (s : State) : Try :=
  let next := skipWhile isSpace src stop (i + 1)
  if silent then (s, some next)
  else
    let trimmed := s.pending.dropWhile (· == ' ')
    let s := match s.pending with
      | ' ' :: ' ' :: _ => { s with pending := trimmed }.add .hardBreak
      | ' ' :: rest => { s with pending := rest }.add .softBreak
      | _ => s.add .softBreak
    (s, some next)

/-- A backslash and the character after it. -/
def readEscape (silent : Bool) (src : Source) (stop i : Nat) (s : State) : Try :=
  if stop ≤ i + 1 then (s, none)
  else match src[i + 1]? with
    | none => (s, none)
    | some '\n' =>
      (if silent then s else s.add .hardBreak, some (skipWhile isSpace src stop (i + 2)))
    | some c =>
      let text := if Text.isAsciiPunctuation c then [c] else ['\\', c]
      (if silent then s else s.add (.escaped text), some (i + 2))

/-- The text of a span of code: line ends are spaces, and one space at each end is dropped if there
    is anything else. -/
def codeText (cs : List Char) : List Char :=
  let cs := cs.map fun c => if c = '\n' then ' ' else c
  if cs.head? = some ' ' ∧ cs.getLast? = some ' ' ∧ !(Text.trimBlanks cs).isEmpty then
    (cs.drop 1).dropLast
  else cs

/-- Find a run of `length` backticks from a place on, noting the runs of other lengths that are
    passed. `fuel` is more than the length of the text. -/
def findTicks (src : Source) (stop length : Nat) : Nat → Nat → State → State × Option (Nat × Nat)
  | 0, _, s => ({ s with knowsTicks := true }, none)
  | fuel + 1, i, s =>
    let start := skipWhile (· != '\x60') src src.size i
    if src.size ≤ start then ({ s with knowsTicks := true }, none)
    else
      let after := skipWhile (· == '\x60') src stop (start + 1)
      if after - start = length then (s, some (start, after))
      else findTicks src stop length fuel after { s with ticks := (after - start, start) :: s.ticks }

/-- A run of backticks, with the code between it and the next run of its length. -/
def readCode (silent : Bool) (src : Source) (stop i : Nat) (s : State) : Try :=
  let open' := skipWhile (· == '\x60') src stop (i + 1)
  let length := open' - i
  let asText (s : State) : Try :=
    (if silent then s else s.addText (List.replicate length '\x60'), some open')
  if s.knowsTicks && (s.ticks.lookup length).getD 0 ≤ i then asText s
  else match findTicks src stop length (src.size + 1) open' s with
    | (s, some (start, after)) =>
      (if silent then s else s.add (.code (codeText (src.slice open' start))), some after)
    | (s, none) => asText s

/-- What a run of marks can do. -/
structure Run where
  length : Nat
  opens : Bool
  closes : Bool

/-- Look at a run of marks. A mark that splits words can open and close inside a word. -/
def scanRun (splitsWords : Bool) (src : Source) (stop i : Nat) : Run :=
  let mark := src[i]?.getD ' '
  let j := skipWhile (· == mark) src stop i
  let last := if 0 < i then src[i - 1]?.getD ' ' else ' '
  let next := if j < stop then src[j]?.getD ' ' else ' '
  let left := !(isWhite next || (isMark next && !(isWhite last || isMark last)))
  let right := !(isWhite last || (isMark last && !(isWhite next || isMark next)))
  { length := j - i
    opens := left && (splitsWords || !right || isMark last)
    closes := right && (splitsWords || !left || isMark next) }

/-- A run of marks that strike out text. They count in pairs; an odd one is text. -/
def readStrike (silent : Bool) (src : Source) (stop i : Nat) (s : State) : Try :=
  let run := scanRun true src stop i
  if silent || run.length < 2 then (s, none)
  else
    let s := if run.length % 2 = 1 then s.add (.text ['~']) else s
    let s := (List.range (run.length / 2)).foldl
      (fun s _ => s.addDelimiter '~' ['~', '~'] 0 run.opens run.closes) s
    (s, some (i + run.length))

/-- A run of marks of emphasis. -/
def readEmphasis (silent : Bool) (mark : Char) (src : Source) (stop i : Nat) (s : State) : Try :=
  if silent then (s, none)
  else
    let run := scanRun (mark == '*') src stop i
    let s := (List.range run.length).foldl
      (fun s _ => s.addDelimiter mark [mark] run.length run.opens run.closes) s
    (s, some (i + run.length))

/-- Whether a text is an address with a scheme, as it may stand in angle brackets. A line end at the
    end is overlooked. -/
def isSchemeAddress (cs : List Char) : Bool :=
  let cs := if cs.getLast? = some '\n' then cs.dropLast else cs
  let scheme := cs.takeWhile fun c =>
    Text.isAsciiAlphanumeric c || c == '+' || c == '.' || c == '-'
  2 ≤ scheme.length && scheme.length ≤ 32 && scheme.head?.any Text.isAsciiLetter &&
    match cs.drop scheme.length with
    | ':' :: rest => rest.all fun c => !(c == '<' || c == '>' || c.toNat ≤ 0x20)
    | _ => false

/-- Whether a text is a mail address, as it may stand in angle brackets. -/
def isMailAddress (cs : List Char) : Bool :=
  let cs := if cs.getLast? = some '\n' then cs.dropLast else cs
  let name := cs.takeWhile fun c =>
    Text.isAsciiAlphanumeric c || ".!#$%&'*+/=?^_\x60\x7b|\x7d~-".toList.contains c
  let isLabel (label : List Char) : Bool :=
    !label.isEmpty && label.length ≤ 63 &&
      (label.all fun c => Text.isAsciiAlphanumeric c || c == '-') &&
      label.head? != some '-' && label.getLast? != some '-'
  !name.isEmpty &&
    match cs.drop name.length with
    | '@' :: rest => (Text.cutAt '.' rest).all isLabel
    | _ => false

/-- An address in angle brackets. -/
def readBracketed (silent : Bool) (src : Source) (stop i : Nat) (s : State) : Try :=
  let j := skipWhile (fun c => !(c == '<' || c == '>')) src stop (i + 1)
  if stop ≤ j || src[j]? != some '>' then (s, none)
  else
    let content := src.slice (i + 1) j
    let linkTo (address : List Char) : Try :=
      let target := Url.Link.normalize address
      if !Url.Link.isAllowed target then (s, none)
      else if silent then (s, some (j + 1))
      else
        let s := ((s.add (.linkStart target [])).add (.text (Url.Link.display content))).add .linkStop
        (s, some (j + 1))
    if isSchemeAddress content then linkTo content
    else if isMailAddress content then linkTo ("mailto:".toList ++ content)
    else (s, none)

/-- A piece of HTML. -/
def readHtml (silent : Bool) (r : Reading) (src : Source) (stop i : Nat) (s : State) : Try :=
  let mayBegin : Bool := match src[i + 1]? with
    | some c => c == '!' || c == '?' || c == '/' || Text.isAsciiLetter c
    | none => false
  if !r.allowsHtml || stop ≤ i + 2 || !mayBegin then (s, none)
  else
    let text := src.slice i src.size
    match HtmlTag.after? text with
    | none => (s, none)
    | some rest =>
      let content := text.take (text.length - rest.length)
      let s :=
        if silent then s
        else
          let s := s.add (.html content)
          let links := if HtmlTag.opensLink content then s.links + 1 else s.links
          { s with links := if HtmlTag.closesLink content then links - 1 else links }
      (s, some (i + content.length))

/-- A reference to a character. -/
def readReference (silent : Bool) (src : Source) (stop i : Nat) (s : State) : Try :=
  if stop ≤ i + 1 then (s, none)
  else
    let text := src.slice (i + 1) src.size
    match textReference? text with
    | none => (s, none)
    | some (cs, rest) =>
      (if silent then s else s.add (.escaped cs), some (i + 1 + (text.length - rest.length)))

/-! ## Links -/

/-- Where a link or an image leads. -/
structure Target where
  address : List Char
  title : List Char
  /-- The place after the link. -/
  after : Nat

/-- What stands in parentheses after the text of a link. -/
inductive Parenthesised where
  | target (t : Target)
  /-- Nothing is found; the place at which the reading went wrong. -/
  | wrong (place : Nat)
  /-- The text ends. -/
  | unfinished

/-- Read a destination and a title in parentheses; `i` is the place after the first one. An address
    that is not allowed is not taken. -/
def readParenthesised (src : Source) (stop i : Nat) : Parenthesised :=
  let isGap (c : Char) : Bool := isSpace c || c == '\n'
  let i := skipWhile isGap src stop i
  if stop ≤ i then .unfinished
  else
    let cs := src.slice i stop
    let (address, j) := match LinkSyntax.destination? cs with
      | none => ([], i)
      | some (text, rest) =>
        let address := Url.Link.normalize text
        if Url.Link.isAllowed address then (address, stop - rest.length) else ([], i)
    let close (title : List Char) (k : Nat) : Parenthesised :=
      if k < stop ∧ src[k]? = some ')' then .target ⟨address, title, k + 1⟩ else .wrong k
    let k := skipWhile isGap src stop j
    match (if k < stop && j != k then LinkSyntax.title? (src.slice k stop) else none) with
    | some (title, rest) => close title (skipWhile isGap src stop (stop - rest.length))
    | none => close [] k

/-- What a label is defined to lead to. -/
def lookUp (r : Reading) (label : List Char) : Option LinkSyntax.Definition :=
  let folded := foldLabel label
  r.definitions.find? (·.label == folded)

/-! ## Constructs that hold others -/

mutual

/-- Try the construct that begins at a place. -/
def readConstruct (r : Reading) (src : Source) (silent : Bool) :
    Nat → Nat → Nat → Nat → State → Try
  | 0, _, _, _, s => (s, none)
  | fuel + 1, level, stop, i, s =>
    match src[i]? with
    | none => (s, none)
    | some c =>
      if !startsConstruct c then readText silent src stop i s
      else match c with
        | ':' => readBareLink silent src stop i s
        | '\n' => readLineEnd silent src stop i s
        | '\\' => readEscape silent src stop i s
        | '\x60' => readCode silent src stop i s
        | '~' => readStrike silent src stop i s
        | '*' => readEmphasis silent '*' src stop i s
        | '_' => readEmphasis silent '_' src stop i s
        | '[' => readLink r src silent fuel level stop i s
        | '!' => readImage r src silent fuel level stop i s
        | '<' =>
          match readBracketed silent src stop i s with
          | (s, some j) => (s, some j)
          | (s, none) => readHtml silent r src stop i s
        | '&' => readReference silent src stop i s
        | _ => (s, none)
termination_by structural fuel => fuel

/-- The place after the construct that begins at a place, or after its character. -/
def skipConstruct (r : Reading) (src : Source) : Nat → Nat → Nat → Nat → State → State × Nat
  | 0, _, stop, _, s => (s, stop)
  | fuel + 1, level, stop, i, s =>
    match s.ends.get? i with
    | some j => (s, j)
    | none =>
      let (s, next) :=
        if level < maxNesting then
          match readConstruct r src true fuel (level + 1) stop i s with
          | (s, some j) => (s, j)
          | (s, none) => (s, i + 1)
        else (s, stop + 1)
      ({ s with ends := s.ends.insert i next }, next)
termination_by structural fuel => fuel

/-- The place of the bracket that closes one before the place `i`; `depth` counts the brackets that
    are open. Where links must not nest, one inside makes the search fail. -/
def closingBracket (r : Reading) (src : Source) (noLinks : Bool) :
    Nat → Nat → Nat → Nat → Nat → State → Try
  | 0, _, _, _, _, s => (s, none)
  | fuel + 1, level, stop, depth, i, s =>
    if stop ≤ i then (s, none)
    else
      let c := src[i]?.getD ' '
      if c = ']' ∧ depth ≤ 1 then (s, some i)
      else
        let depth := if c = ']' then depth - 1 else depth
        let (s, next) := skipConstruct r src fuel level stop i s
        if c = '[' then
          if next = i + 1 then closingBracket r src noLinks fuel level stop (depth + 1) next s
          else if noLinks then (s, none)
          else closingBracket r src noLinks fuel level stop depth next s
        else closingBracket r src noLinks fuel level stop depth next s
termination_by structural fuel => fuel

/-- The definition that a link with the text from `start` to `close` refers to, given the place at
    which a second label may stand, and the place after the link. -/
def readReferred (r : Reading) (src : Source) :
    Nat → Nat → Nat → Nat → Nat → Nat → State → State × Option Target
  | 0, _, _, _, _, _, s => (s, none)
  | fuel + 1, level, stop, start, close, i, s =>
    if r.definitions.isEmpty then (s, none)
    else
      let find (label : List Char) (after : Nat) : Option Target :=
        let label := if label.isEmpty then src.slice start close else label
        (lookUp r label).map fun d => ⟨d.address, d.title, after⟩
      if i < stop ∧ src[i]? = some '[' then
        match closingBracket r src false fuel level stop 1 (i + 1) s with
        | (s, some j) => (s, find (src.slice (i + 1) j) (j + 1))
        | (s, none) => (s, find [] (close + 1))
      else (s, find [] (close + 1))
termination_by structural fuel => fuel

/-- A link. -/
def readLink (r : Reading) (src : Source) (silent : Bool) :
    Nat → Nat → Nat → Nat → State → Try
  | 0, _, _, _, s => (s, none)
  | fuel + 1, level, stop, i, s =>
    match closingBracket r src true fuel level stop 1 (i + 1) s with
    | (s, none) => (s, none)
    | (s, some close) =>
      let after := close + 1
      let (s, target) :=
        if after < stop ∧ src[after]? = some '(' then
          match readParenthesised src stop (after + 1) with
          | .target t => (s, some t)
          | .wrong place => readReferred r src fuel level stop (i + 1) close (place + 1) s
          | .unfinished => (s, none)
        else readReferred r src fuel level stop (i + 1) close after s
      match target with
      | none => (s, none)
      | some t =>
        if silent then (s, some t.after)
        else
          let s := s.add (.linkStart t.address t.title)
          let outer := s.delimiters
          let s := { s with delimiters := #[], links := s.links + 1 }
          let s := readAll r src fuel (level + 1) close (i + 1) s
          let s := { s with
            links := s.links - 1
            finished := s.finished ++ [s.delimiters]
            delimiters := outer }
          (s.add .linkStop, some t.after)
termination_by structural fuel => fuel

/-- An image. -/
def readImage (r : Reading) (src : Source) (silent : Bool) :
    Nat → Nat → Nat → Nat → State → Try
  | 0, _, _, _, s => (s, none)
  | fuel + 1, level, stop, i, s =>
    if i + 1 < stop ∧ src[i + 1]? ≠ some '[' then (s, none)
    else
      match closingBracket r src false fuel level stop 1 (i + 2) s with
      | (s, none) => (s, none)
      | (s, some close) =>
        let after := close + 1
        let (s, target) :=
          if after < stop ∧ src[after]? = some '(' then
            match readParenthesised src stop (after + 1) with
            | .target t => (s, some t)
            | _ => (s, none)
          else readReferred r src fuel level stop (i + 2) close after s
        match target with
        | none => (s, none)
        | some t =>
          if silent then (s, some t.after)
          else
            let label := (src.extract (i + 2) close)
            let inner := readAll r label fuel 0 label.size 0 {}
            let pieces := Delimiter.apply (inner.delimiters :: inner.finished) inner.pieces
            (s.add (.image t.address t.title (Piece.joinTexts pieces.toList)), some t.after)
termination_by structural fuel => fuel

/-- Read everything from one place to another. -/
def readAll (r : Reading) (src : Source) : Nat → Nat → Nat → Nat → State → State
  | 0, _, _, _, s => s
  | fuel + 1, level, stop, i, s =>
    if stop ≤ i then s.flush
    else
      let (s, next) :=
        if level < maxNesting then readConstruct r src false fuel level stop i s else (s, none)
      match next with
      | some j => readAll r src fuel level stop j s
      | none => readAll r src fuel level stop (i + 1) (s.addText [src[i]?.getD ' '])
termination_by structural fuel => fuel

end

/-- Read a line of text into pieces. No construct nests deeper than it may, and each takes at least
    one character, which bounds the steps that follow from one another. -/
def read (r : Reading) (text : List Char) : List Piece :=
  let src := text.toArray
  let fuel := (5 * maxNesting + 10) * (src.size + 10)
  let s := readAll r src fuel 0 src.size 0 {}
  let pieces := Delimiter.apply (s.delimiters :: s.finished) s.pieces
  Piece.joinTexts pieces.toList

/-- Read a line of text into pieces, and turn the addresses in it into links. -/
def readLinked (r : Reading) (text : List Char) : List Piece :=
  Piece.linkAddresses text (read r text)

end Phrase

end Folio.Markdown

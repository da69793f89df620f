import Folio.Yaml.Timestamp
import Folio.Yaml.TokenStream

set_option autoImplicit false

/-! # Nodes of YAML

A document is a tree of scalars, sequences and mappings, each with a tag. An alias stands for the node
with its anchor; it is replaced by that node, unless it stands inside it. A node without a tag gets one
by its kind, and a plain scalar by its text. -/

namespace Folio.Yaml

/-- A node. -/
inductive Node where
  | scalar (tag : List Char) (text : List Text.Point) (mark : Mark)
  | sequence (tag : List Char) (items : List Node) (mark : Mark)
  | mapping (tag : List Char) (entries : List (Node × Node)) (mark : Mark)
  /-- An alias inside the node that it stands for. -/
  | enclosing (mark : Mark)
deriving Repr, Inhabited

namespace Node

/-- Where a node starts. -/
def mark : Node → Mark
  | scalar _ _ mark | sequence _ _ mark | mapping _ _ mark | enclosing mark => mark

/-- How reports name the kind of a node. -/
def kindName : Node → String
  | scalar _ _ _ => "scalar"
  | sequence _ _ _ | enclosing _ => "sequence"
  | mapping _ _ _ => "mapping"

mutual

/-- How deep nodes nest in a node. -/
def depth : Node → Nat
  | scalar _ _ _ | enclosing _ => 1
  | sequence _ items _ => depthItems items + 1
  | mapping _ entries _ => depthEntries entries + 1

/-- How deep nodes nest in some items. -/
def depthItems : List Node → Nat
  | [] => 0
  | node :: nodes => max node.depth (depthItems nodes)

/-- How deep nodes nest in some entries. -/
def depthEntries : List (Node × Node) → Nat
  | [] => 0
  | (key, value) :: entries => max (max key.depth value.depth) (depthEntries entries)

end

end Node

/-! ## Tags -/

/-- What the tags of the language start with. -/
def languageTag : List Char := "tag:yaml.org,2002:".toList

/-- A tag of the language. -/
def tagNamed (name : String) : List Char :=
  languageTag ++ name.toList

/-- Whether a text consists of one or more parts that satisfy a condition, with colons before all but
    the first, and has at least two. -/
def isSexagesimal (isFirst : List Char → Bool) (cs : List Char) : Bool :=
  match Text.cutAt ':' cs with
  | first :: second :: more =>
    isFirst first && (second :: more).all fun part =>
      match part with
      | [d] => Text.isAsciiDigit d
      | [d, e] => '0' ≤ d && d ≤ '5' && Text.isAsciiDigit e
      | _ => false
  | _ => false

/-- Digits and low lines. -/
def isDigitOrLine (c : Char) : Bool :=
  Text.isAsciiDigit c || c == '_'

/-- The text without a sign. -/
def withoutSign : List Char → List Char
  | '+' :: cs | '-' :: cs => cs
  | cs => cs

/-- Whether a text is written as an integer. -/
def isInteger (cs : List Char) : Bool :=
  let startsHigh (cs : List Char) : Bool := match cs with
    | d :: ds => '1' ≤ d && d ≤ '9' && ds.all isDigitOrLine
    | [] => false
  match withoutSign cs with
  | '0' :: 'b' :: ds => !ds.isEmpty && ds.all fun d => d == '0' || d == '1' || d == '_'
  | '0' :: 'x' :: ds => !ds.isEmpty && ds.all fun d => Text.isHexDigit d || d == '_'
  | '0' :: ds => ds.all fun d => ('0' ≤ d && d ≤ '7') || d == '_'
  | ds => startsHigh ds || isSexagesimal startsHigh ds

/-- Whether a text is an exponent with its sign, or nothing. -/
def isExponent (cs : List Char) : Bool :=
  match cs with
  | [] => true
  | e :: s :: ds =>
    (e == 'e' || e == 'E') && (s == '-' || s == '+') && !ds.isEmpty && ds.all Text.isAsciiDigit
  | _ => false

/-- Whether a text is written as a number with a point. -/
def isFloat (cs : List Char) : Bool :=
  let ds := withoutSign cs
  let signed := ds.length != cs.length
  let startsLow (cs : List Char) : Bool := match cs with
    | d :: ds => Text.isAsciiDigit d && ds.all isDigitOrLine
    | [] => false
  let before := ds.takeWhile (· != '.')
  match ds.drop before.length with
  | [] => false
  | _ :: after =>
    let rest := after.dropWhile isDigitOrLine
    if before.isEmpty then
      let word := String.ofList after
      (word == "inf" || word == "Inf" || word == "INF") ||
        (!signed && (word == "nan" || word == "NaN" || word == "NAN")) ||
        (!signed && after.head?.any Text.isAsciiDigit && isExponent rest)
    else (startsLow before && isExponent rest) || (rest.isEmpty && isSexagesimal startsLow before)

/-- The words for truth values. -/
def truthWords : List String :=
  ["yes", "Yes", "YES", "no", "No", "NO", "true", "True", "TRUE", "false", "False", "FALSE", "on",
    "On", "ON", "off", "Off", "OFF"]

/-- The tag of a plain scalar. One line end after the text does not count. -/
def plainTag (text : List Char) : List Char :=
  let cs := if text.getLast? = some '\n' then text.dropLast else text
  let word := String.ofList cs
  let name :=
    if truthWords.contains word then "bool"
    else if isFloat cs then "float"
    else if isInteger cs then "int"
    else if word == "<<" then "merge"
    else if ["~", "null", "Null", "NULL", ""].contains word && !(text == ['\n']) then "null"
    else if (Timestamp.ofText? cs).any Timestamp.isPlain then "timestamp"
    else if word == "=" then "value"
    else if word == "!" || word == "&" || word == "*" then "yaml"
    else "str"
  tagNamed name

/-! ## From tokens to nodes -/

/-- What is known while nodes are read. -/
structure Composer where
  stream : TokenStream
  /-- What the handles of tags stand for. -/
  handles : List (List Char × List Char)
  /-- The nodes with anchors and where they start; without a node while it is being read. -/
  anchors : List (List Char × Mark × Option Node) := []

/-- A step of reading nodes. -/
abbrev Compose := StateT Composer (Except Fault)

namespace Compose

/-- The handles of tags that need no directive. -/
def defaultHandles : List (List Char × List Char) :=
  [(['!'], ['!']), (['!', '!'], languageTag)]

/-- The next token. -/
def peek : Compose Token := do
  let stream := (← get).stream
  match stream.tokens with
  | token :: _ => return token
  | [] =>
    match stream.fault with
    | some fault => throw fault
    | none => return ⟨.textEnd, {}, {}⟩

/-- Take the next token. -/
def take : Compose Token := do
  let token ← peek
  modify fun s => { s with stream := { s.stream with tokens := s.stream.tokens.tail } }
  return token

/-- Report a fault at the next token. -/
def failHere {α : Type} (context : Option (Context × Option Mark)) (problem : String → Problem) :
    Compose α := do
  let token ← peek
  throw ⟨context, problem token.kind.text, token.start⟩

/-- A node without text. -/
def emptyNode (mark : Mark) : Node :=
  .scalar (tagNamed "null") [] mark

/-- The anchor and the tag before a node, in either order. -/
structure Properties where
  anchor : Option (List Char) := none
  tag : Option (Option (List Char) × List Char) := none
  tagMark : Mark := {}
  /-- Where the first of them starts. -/
  start : Option Mark := none

/-- Take the anchor and the tag before a node. -/
def properties : Compose Properties := do
  let first ← peek
  match first.kind with
  | .anchor name =>
    let _ ← take
    let second ← peek
    match second.kind with
    | .tag handle suffix =>
      let _ ← take
      return ⟨some name, some (handle, suffix), second.start, some first.start⟩
    | _ => return { anchor := some name, start := some first.start }
  | .tag handle suffix =>
    let _ ← take
    let second ← peek
    match second.kind with
    | .anchor name =>
      let _ ← take
      return ⟨some name, some (handle, suffix), first.start, some first.start⟩
    | _ => return ⟨none, some (handle, suffix), first.start, some first.start⟩
  | _ => return {}

/-- The full tag that a handle and a suffix stand for. -/
def resolveTag (p : Properties) : Compose (Option (List Char)) := do
  match p.tag with
  | none => return none
  | some (none, suffix) => return some suffix
  | some (some handle, suffix) =>
    match (← get).handles.lookup handle with
    | some start => return some (start ++ suffix)
    | none =>
      throw ⟨some (.node, p.start), .undefinedHandle handle, p.tagMark⟩

/-- Remember an anchor, before the node that it belongs to is known. -/
def declare (anchor : Option (List Char)) (mark : Mark) : Compose Unit := do
  match anchor with
  | none => return
  | some name =>
    match (← get).anchors.lookup name with
    | some (first, _) => throw ⟨some (.firstAnchor name, some first), .secondAnchor, mark⟩
    | none => modify fun s => { s with anchors := (name, mark, none) :: s.anchors }

/-- Remember the node of an anchor. -/
def define (anchor : Option (List Char)) (node : Node) : Compose Node := do
  match anchor with
  | none => return node
  | some name =>
    modify fun s => { s with anchors := (name, node.mark, some node) :: s.anchors }
    return node

/-- The node that an alias stands for. -/
def resolveAlias (name : List Char) (mark : Mark) : Compose Node := do
  match (← get).anchors.lookup name with
  | some (_, some node) => return node
  | some (first, none) => return .enclosing first
  | none => throw ⟨none, .undefinedAlias name, mark⟩

/-- Where a node stands, which decides what it may be. -/
inductive Position where
  /-- In a flow collection. -/
  | flow
  /-- In a block. -/
  | block
  /-- In a block mapping, where a sequence needs no indentation of its own. -/
  | blockEntry
deriving DecidableEq

/-- The kind of the next token is one of some. -/
def nextIs (p : TokenKind → Bool) : Compose Bool := do
  return p (← peek).kind

/-- Whether a token ends the key or the value of a block mapping before it has begun. -/
def endsBlockEntry : TokenKind → Bool
  | .key | .value | .blockEnd => true
  | _ => false

mutual

/-- Read a node. -/
def node (position : Position) : Nat → Compose Node
  | 0 => failHere none (.unexpectedToken "the node content")
  | fuel + 1 => do
    let first ← peek
    match first.kind with
    | .nodeAlias name =>
      let _ ← take
      resolveAlias name first.start
    | _ =>
      let p ← properties
      let tag ← resolveTag p
      let here ← peek
      let start := p.start.getD here.start
      let collectionTag (name : String) : List Char :=
        if tag = none ∨ tag = some ['!'] then tagNamed name else tag.getD []
      let sequence (items : Compose (List Node)) : Compose Node := do
        declare p.anchor start
        define p.anchor (.sequence (collectionTag "seq") (← items) start)
      let mapping (entries : Compose (List (Node × Node))) : Compose Node := do
        declare p.anchor start
        define p.anchor (.mapping (collectionTag "map") (← entries) start)
      match here.kind with
      | .scalar text plain =>
        let _ ← take
        let tag := match tag with
          | none => if plain then plainTag (Text.skeleton text) else tagNamed "str"
          | some tag => if tag = ['!'] then plainTag (Text.skeleton text) else tag
        declare p.anchor start
        define p.anchor (.scalar tag text start)
      | .flowSequenceStart => sequence do
        let _ ← take
        flowItems here.start true fuel
      | .flowMappingStart => mapping do
        let _ ← take
        flowEntries here.start true fuel
      | .blockEntry =>
        if position = .blockEntry then sequence (indentlessItems fuel)
        else noContent position p tag start
      | .blockSequenceStart =>
        if position = .flow then noContent position p tag start
        else sequence do
          let _ ← take
          blockItems here.start fuel
      | .blockMappingStart =>
        if position = .flow then noContent position p tag start
        else mapping do
          let _ ← take
          blockEntries here.start fuel
      | _ => noContent position p tag start
termination_by structural fuel => fuel

/-- A node of which nothing but properties is there, if any. -/
def noContent (position : Position) (p : Properties) (tag : Option (List Char)) (start : Mark) :
    Compose Node := do
  if p.anchor = none ∧ tag = none then
    let context := if position = .flow then Context.flowNode else .blockNode
    failHere (some (context, some start)) (.unexpectedToken "the node content")
  else
    declare p.anchor start
    let tag := match tag with
      | none => tagNamed "null"
      | some tag => if tag = ['!'] then tagNamed "null" else tag
    define p.anchor (.scalar tag [] start)

/-- The items of a block sequence. -/
def blockItems (start : Mark) : Nat → Compose (List Node)
  | 0 => return []
  | fuel + 1 => do
    let token ← peek
    match token.kind with
    | .blockEntry =>
      let _ ← take
      let isEmpty ← nextIs fun k => k == .blockEntry || k == .blockEnd
      let item ← if isEmpty then pure (emptyNode token.stop) else node .block fuel
      return item :: (← blockItems start fuel)
    | .blockEnd =>
      let _ ← take
      return []
    | _ => failHere (some (.blockSequence, some start)) (.unexpectedToken "<block end>")
termination_by structural fuel => fuel

/-- The items of a sequence that is not indented further than the mapping around it. -/
def indentlessItems : Nat → Compose (List Node)
  | 0 => return []
  | fuel + 1 => do
    let token ← peek
    match token.kind with
    | .blockEntry =>
      let _ ← take
      let isEmpty ← nextIs fun k => k == .blockEntry || endsBlockEntry k
      let item ← if isEmpty then pure (emptyNode token.stop) else node .block fuel
      return item :: (← indentlessItems fuel)
    | _ => return []
termination_by structural fuel => fuel

/-- The entries of a block mapping. -/
def blockEntries (start : Mark) : Nat → Compose (List (Node × Node))
  | 0 => return []
  | fuel + 1 => do
    let token ← peek
    match token.kind with
    | .key =>
      let _ ← take
      let key ← if ← nextIs endsBlockEntry then pure (emptyNode token.stop)
        else node .blockEntry fuel
      let token ← peek
      let value ← if token.kind = .value then do
          let _ ← take
          if ← nextIs endsBlockEntry then pure (emptyNode token.stop) else node .blockEntry fuel
        else pure (emptyNode token.start)
      return (key, value) :: (← blockEntries start fuel)
    | .blockEnd =>
      let _ ← take
      return []
    | _ => failHere (some (.blockMapping, some start)) (.unexpectedToken "<block end>")
termination_by structural fuel => fuel

/-- Go on to the next entry of a flow collection: take the comma before it. Whether there is one. -/
def flowComma (context : Context) (start : Mark) (stop : TokenKind) (expected : String)
    (isFirst : Bool) : Compose Bool := do
  if (← peek).kind = stop then
    let _ ← take
    return false
  if !isFirst then
    if (← peek).kind = .flowEntry then
      let _ ← take
    else failHere (some (context, some start)) (.unexpectedInFlow expected)
  if (← peek).kind = stop then
    let _ ← take
    return false
  return true

/-- The value after a key in a flow collection. -/
def flowValue (stop : TokenKind) : Nat → Compose Node
  | 0 => failHere none (.unexpectedToken "the node content")
  | fuel + 1 => do
    let token ← peek
    if token.kind = .value then
      let _ ← take
      if ← nextIs fun k => k == .flowEntry || k == stop then return emptyNode token.stop
      else node .flow fuel
    else return emptyNode token.start
termination_by structural fuel => fuel

/-- The key after its mark in a flow collection. -/
def flowKey (stop : TokenKind) : Nat → Compose Node
  | 0 => failHere none (.unexpectedToken "the node content")
  | fuel + 1 => do
    let token ← take
    if ← nextIs fun k => k == .value || k == .flowEntry || k == stop then
      return emptyNode token.stop
    else node .flow fuel
termination_by structural fuel => fuel

/-- The items of a flow sequence. A key among them begins a mapping with a single entry. -/
def flowItems (start : Mark) (isFirst : Bool) : Nat → Compose (List Node)
  | 0 => return []
  | fuel + 1 => do
    if ← flowComma .flowSequence start .flowSequenceEnd "',' or ']'" isFirst then
      let token ← peek
      let item ← if token.kind = .key then do
          let key ← flowKey .flowSequenceEnd fuel
          let value ← flowValue .flowSequenceEnd fuel
          pure (Node.mapping (tagNamed "map") [(key, value)] token.start)
        else node .flow fuel
      return item :: (← flowItems start false fuel)
    else return []
termination_by structural fuel => fuel

/-- The entries of a flow mapping. -/
def flowEntries (start : Mark) (isFirst : Bool) : Nat → Compose (List (Node × Node))
  | 0 => return []
  | fuel + 1 => do
    if ← flowComma .flowMapping start .flowMappingEnd "',' or '\x7d'" isFirst then
      let token ← peek
      if token.kind = .key then
        let key ← flowKey .flowMappingEnd fuel
        let value ← flowValue .flowMappingEnd fuel
        return (key, value) :: (← flowEntries start false fuel)
      else
        let key ← node .flow fuel
        let place := (← peek).start
        return (key, emptyNode place) :: (← flowEntries start false fuel)
    else return []
termination_by structural fuel => fuel

end

/-! ## Documents -/

/-- The directives before a document: what the handles of tags stand for. -/
def directives (hasVersion : Bool) (handles : List (List Char × List Char)) :
    Nat → Compose (List (List Char × List Char))
  | 0 => return handles
  | fuel + 1 => do
    let token ← peek
    match token.kind with
    | .versionDirective major _ =>
      let _ ← take
      if hasVersion then throw ⟨none, .secondVersion, token.start⟩
      if major ≠ 1 then throw ⟨none, .wrongVersion, token.start⟩
      directives true handles fuel
    | .tagDirective handle start =>
      let _ ← take
      if (handles.lookup handle).isSome then throw ⟨none, .secondHandle handle, token.start⟩
      directives hasVersion (handles ++ [(handle, start)]) fuel
    | .otherDirective =>
      let _ ← take
      directives hasVersion handles fuel
    | _ => return handles

/-- Skip the lines that end documents. -/
def skipEnds : Nat → Compose Unit
  | 0 => return
  | fuel + 1 => do
    if (← peek).kind = .documentEnd then
      let _ ← take
      skipEnds fuel

/-- The start of a document with its directives, and where it is. Nothing at the end of the text. -/
def documentStart (fuel : Nat) : Compose (Option Mark) := do
  skipEnds fuel
  let token ← peek
  if token.kind = .textEnd then return none
  let handles ← directives false [] fuel
  modify fun s => { s with handles := handles ++ defaultHandles }
  if (← peek).kind = .documentStart then
    let _ ← take
    return some token.start
  else failHere none (.unexpectedToken "'<document start>'")

/-- The only document of a text. Nothing if there is none. -/
def single (fuel : Nat) : Compose (Option Node) := do
  let first ← peek
  let isMarked : Bool := match first.kind with
    | .versionDirective _ _ | .tagDirective _ _ | .otherDirective | .documentStart => true
    | _ => false
  if first.kind = .textEnd then return none
  let root ← if isMarked then do
      let _ ← documentStart fuel
      let token ← peek
      match token.kind with
      | .versionDirective _ _ | .tagDirective _ _ | .otherDirective | .documentStart
      | .documentEnd | .textEnd => pure (emptyNode token.start)
      | _ => node .block fuel
    else node .block fuel
  let token ← peek
  if token.kind = .documentEnd then
    let _ ← take
  match ← documentStart fuel with
  | none => return some root
  | some place => throw ⟨some (.document, some root.mark), .secondDocument, place⟩

end Compose

/-- The root node of a text. Each step takes a token or leads to one that does within three more. -/
def compose (text : List Char) : Except Fault (Option Node) := do
  let stream := TokenStream.ofText text
  let start : Composer := { stream, handles := Compose.defaultHandles }
  let (root, _) ← (Compose.single (4 * (stream.tokens.length + 4))).run start
  return root

end Folio.Yaml

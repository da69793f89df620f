import Folio.Yaml.Word

set_option autoImplicit false

/-! # From text to tokens

Tokens are found one after the other. A token that may turn out to be a key is held back with all that
follow it until a colon or the end of its line decides; only then is it known whether a key, and
perhaps a mapping, starts before it. So a fault further on can hide tokens that have been found, and
the stream ends before them. -/

namespace Folio.Yaml

/-- The tokens of a text, and the fault that they end with if there is one. -/
structure TokenStream where
  tokens : List Token
  fault : Option Fault
deriving Repr

/-- A token that may turn out to be a key. -/
structure PossibleKey where
  /-- How many tokens stand before it. -/
  number : Nat
  /-- Whether nothing else can stand there. -/
  required : Bool
  mark : Mark
deriving Repr

/-- What is known between two tokens. -/
structure Tokenizer where
  cursor : Cursor
  /-- The tokens that are held back, first one first. -/
  queue : List Token := []
  /-- How many tokens have been released. -/
  released : Nat := 0
  /-- How many flow collections are open. -/
  flowLevel : Int := 0
  /-- The columns of the open block collections, innermost first. -/
  indents : List Nat := []
  allowsKey : Bool := true
  /-- The possible keys, at most one for each level of flow collections. -/
  possibleKeys : List (Int × PossibleKey) := []
deriving Repr

/-- A step of finding tokens. -/
abbrev Tokenize := StateT Tokenizer (Except Fault)

namespace Tokenize

/-- Read something from the cursor on. -/
def read {α : Type} (r : Read α) : Tokenize α := do
  let s ← get
  let (a, cursor) ← r.run s.cursor
  set { s with cursor }
  return a

/-- The place that has been reached. -/
def mark : Tokenize Mark := do
  return (← get).cursor.mark

/-- Report a fault without a context. -/
def fail {α : Type} (problem : Problem) : Tokenize α := do
  throw ⟨none, problem, ← mark⟩

/-- Whether a flow collection is open. -/
def inFlow : Tokenize Bool := do
  return (← get).flowLevel != 0

/-- Add a token. -/
def add (token : Token) : Tokenize Unit :=
  modify fun s => { s with queue := s.queue ++ [token] }

/-- Add a token without text. -/
def addEmpty (kind : TokenKind) : Tokenize Unit := do
  let place ← mark
  add ⟨kind, place, place⟩

/-- Add a token of so many characters. -/
def addMark (kind : TokenKind) (length : Nat) : Tokenize Unit := do
  let start ← mark
  read (Read.skip length)
  add ⟨kind, start, ← mark⟩

/-- Add a token whose text is read. -/
def addWord (r : Read TokenKind) : Tokenize Unit := do
  let start ← mark
  let kind ← read r
  add ⟨kind, start, ← mark⟩

/-! ## Possible keys -/

/-- Whether a token is no key any more: its line is over, or it is too long. -/
def isStale (place : Mark) (key : PossibleKey) : Bool :=
  key.mark.line != place.line || 1024 < place.index - key.mark.index

/-- Report the fault of a key without a value. -/
def failKey {α : Type} (key : PossibleKey) : Tokenize α := do
  throw ⟨some (.simpleKey, some key.mark), .keyWithoutValue, ← mark⟩

/-- Forget the tokens that are no keys any more. -/
def dropStaleKeys : Tokenize Unit := do
  let s ← get
  let (stale, fresh) := s.possibleKeys.partition fun (_, key) => isStale s.cursor.mark key
  match stale.find? (·.2.required) with
  | some (_, key) => failKey key
  | none => set { s with possibleKeys := fresh }

/-- Forget the possible key of this level. -/
def dropKey : Tokenize Unit := do
  let s ← get
  match s.possibleKeys.lookup s.flowLevel with
  | some key =>
    if key.required then failKey key
    set { s with possibleKeys := s.possibleKeys.filter (·.1 != s.flowLevel) }
  | none => return

/-- Remember that the next token may be a key. -/
def saveKey : Tokenize Unit := do
  if (← get).allowsKey then
    dropKey
    let s ← get
    let required :=
      s.flowLevel == 0 && s.indents.head? == some s.cursor.mark.column
    let key : PossibleKey := ⟨s.released + s.queue.length, required, s.cursor.mark⟩
    set { s with possibleKeys := s.possibleKeys ++ [(s.flowLevel, key)] }

/-- Say whether the token after this one may be a key. -/
def allowKey (allows : Bool) : Tokenize Unit :=
  modify fun s => { s with allowsKey := allows }

/-! ## Indentation -/

/-- Close the block collections that are indented further than a column, or all. -/
def closeBlocks (column : Option Nat) : Tokenize Unit := do
  let s ← get
  if s.flowLevel == 0 then
    let isOpen (indent : Nat) : Bool := column.all (· < indent)
    let closed := s.indents.takeWhile isOpen
    let ending : Token := ⟨.blockEnd, s.cursor.mark, s.cursor.mark⟩
    set { s with
      indents := s.indents.drop closed.length
      queue := s.queue ++ List.replicate closed.length ending }

/-- Open a block collection at a column, unless one is open there. -/
def openBlock (column : Nat) : Tokenize Bool := do
  let s ← get
  if s.indents.head?.all (· < column) then
    set { s with indents := column :: s.indents }
    return true
  else return false

/-- The column that the lines of a scalar have to reach. -/
def leastColumn : Tokenize Nat := do
  return match (← get).indents with
    | [] => 0
    | indent :: _ => indent + 1

/-! ## Tokens -/

/-- A line that separates documents. -/
def separator (kind : TokenKind) : Tokenize Unit := do
  closeBlocks none
  dropKey
  allowKey false
  addMark kind 3

/-- The start of a flow collection. -/
def flowStart (kind : TokenKind) : Tokenize Unit := do
  saveKey
  modify fun s => { s with flowLevel := s.flowLevel + 1 }
  allowKey true
  addMark kind 1

/-- The end of a flow collection. -/
def flowEnd (kind : TokenKind) : Tokenize Unit := do
  dropKey
  modify fun s => { s with flowLevel := s.flowLevel - 1 }
  allowKey false
  addMark kind 1

/-- The mark of an entry in a block, or of a key that is no plain word. -/
def blockMark (kind start : TokenKind) (problem : Problem) (allowsKey : Bool) : Tokenize Unit := do
  if !(← inFlow) then
    if !(← get).allowsKey then fail problem
    if ← openBlock (← mark).column then addEmpty start
  allowKey allowsKey
  dropKey
  addMark kind 1

/-- Put a token in front of the one with a number. -/
def insertAt (number : Nat) (token : Token) : Tokenize Unit :=
  modify fun s => { s with queue := s.queue.insertIdx (number - s.released) token }

/-- The mark of a value. If a token before it may be a key, it is one. -/
def valueMark : Tokenize Unit := do
  let s ← get
  match s.possibleKeys.lookup s.flowLevel with
  | some key =>
    set { s with possibleKeys := s.possibleKeys.filter (·.1 != s.flowLevel) }
    insertAt key.number ⟨.key, key.mark, key.mark⟩
    if !(← inFlow) then
      if ← openBlock key.mark.column then
        insertAt key.number ⟨.blockMappingStart, key.mark, key.mark⟩
    allowKey false
    addMark .value 1
  | none =>
    blockMark .value .blockMappingStart .valueNotAllowed (!(← inFlow))

/-- A word that may be a key. -/
def word (r : Read TokenKind) : Tokenize Unit := do
  saveKey
  allowKey false
  addWord r

/-- A block scalar. -/
def blockScalar : Tokenize Unit := do
  allowKey true
  dropKey
  let least ← leastColumn
  addWord do return .scalar (Text.points (← Read.blockScalar (max least 1))) false

/-- A plain scalar. -/
def plainScalar : Tokenize Unit := do
  saveKey
  let start ← mark
  let (text, atStart, stop) ← read (Read.plainScalar (← inFlow) (← leastColumn))
  allowKey atStart
  add ⟨.scalar (Text.points text) true, start, stop⟩

/-- Skip blanks, comments and line ends. A key may stand at the start of a line. -/
def skipGap : Nat → Tokenize Unit
  | 0 => return
  | fuel + 1 => do
    read Read.skipSpaces
    if (← read Read.peek) == some '#' then
      modify fun s => { s with cursor := s.cursor.skipLine }
    if (← read Read.lineBreak?).isSome then
      if !(← inFlow) then allowKey true
      skipGap fuel

/-- Whether a plain scalar starts with a character, given the one after it. -/
def startsPlain (inFlow : Bool) (c : Char) (next : Option Char) : Bool :=
  if "-?:,[]\x7b\x7d#&*!|>'\"%@\x60".toList.contains c || isGap (some c) then
    !isGap next && (c == '-' || (!inFlow && (c == '?' || c == ':')))
  else true

/-- Go on to where the next token starts. The blocks that are indented further end before it. -/
def toToken : Tokenize Unit := do
  let s ← get
  if s.cursor.mark.index = 0 ∧ (s.cursor.peek.any (·.toNat == 0xFEFF)) then read (Read.skip 1)
  skipGap (← get).cursor.rest.length.succ
  dropStaleKeys
  closeBlocks (some (← mark).column)

/-- Find the next token. Tokens that say where blocks start and end may come with it. -/
def more : Tokenize Unit := do
  toToken
  let cursor := (← get).cursor
  let next := cursor.peek 1
  let atStart := cursor.mark.column = 0
  let inFlow ← inFlow
  match cursor.peek with
  | none =>
    closeBlocks none
    dropKey
    allowKey false
    modify fun s => { s with possibleKeys := [] }
    addEmpty .textEnd
  | some c =>
    if c == '%' && atStart then
      closeBlocks none
      dropKey
      allowKey false
      let start ← mark
      let kind ← read Read.directive
      let stop ← mark
      read (Read.restOfLine .directive start)
      add ⟨kind, start, stop⟩
    else if c == '-' && atStart && cursor.isSeparator '-' then separator .documentStart
    else if c == '.' && atStart && cursor.isSeparator '.' then separator .documentEnd
    else if c == '[' then flowStart .flowSequenceStart
    else if c == '\x7b' then flowStart .flowMappingStart
    else if c == ']' then flowEnd .flowSequenceEnd
    else if c == '\x7d' then flowEnd .flowMappingEnd
    else if c == ',' then
      allowKey true
      dropKey
      addMark .flowEntry 1
    else if c == '-' && isGap next then
      blockMark .blockEntry .blockSequenceStart .entryNotAllowed true
    else if c == '?' && (inFlow || isGap next) then
      blockMark .key .blockMappingStart .keyNotAllowed (!inFlow)
    else if c == ':' && (inFlow || isGap next) then valueMark
    else if c == '*' then word do return .nodeAlias (← Read.anchorName .nodeAlias)
    else if c == '&' then word do return .anchor (← Read.anchorName .anchor)
    else if c == '!' then word Read.tag
    else if (c == '|' || c == '>') && !inFlow then blockScalar
    else if c == '\'' || c == '"' then word do return .scalar (← Read.quotedScalar) false
    else if startsPlain inFlow c next then plainScalar
    else throw ⟨some (.nextToken, none), .startsNoToken c, ← mark⟩

/-- Whether the first token that is held back has to wait. -/
def mustWait : Tokenize Bool := do
  if (← get).queue.isEmpty then return true
  dropStaleKeys
  let s ← get
  return s.possibleKeys.any (·.2.number == s.released) &&
    s.possibleKeys.all (s.released ≤ ·.2.number)

/-- Find the tokens from here on and release them. -/
def run : Nat → Tokenizer → TokenStream
  | 0, _ => ⟨[], none⟩
  | fuel + 1, s =>
    match mustWait s with
    | .error fault => ⟨[], some fault⟩
    | .ok (true, s) =>
      match more s with
      | .error fault => ⟨[], some fault⟩
      | .ok ((), s) => run fuel s
    | .ok (false, s) =>
      match s.queue with
      | [] => ⟨[], none⟩
      | token :: queue =>
        if token.kind = .textEnd then ⟨[token], none⟩
        else
          let rest := run fuel { s with queue, released := s.released + 1 }
          { rest with tokens := token :: rest.tokens }

end Tokenize

/-- The tokens of a text. Each character begins at most one token, and at most four tokens without text
    go with it. -/
def TokenStream.ofText (text : List Char) : TokenStream :=
  Tokenize.run (12 * (text.length + 4)) { cursor := ⟨text, {}⟩ }

end Folio.Yaml

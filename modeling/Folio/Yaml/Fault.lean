import Folio.Number.Written
import Folio.Yaml.Cursor

set_option autoImplicit false

/-! # Faults in a YAML text

A fault says what was being read and from where on, what is wrong, and at which place. Its report shows
the lines of these places with a caret below. -/

namespace Folio.Yaml

/-- What is being read when a fault is found. -/
inductive Context where
  | nextToken
  | simpleKey
  | directive
  | nodeAlias
  | anchor
  | tag
  | tagAddress
  | directiveAddress
  | blockScalar
  | quotedScalar
  | escapedScalar
  | node
  | blockNode
  | flowNode
  | blockSequence
  | blockMapping
  | flowSequence
  | flowMapping
  /-- A document that should be the only one. -/
  | document
  /-- The first of two nodes with one anchor. -/
  | firstAnchor (name : List Char)
  | mapping
  | orderedMap
  | pairs
deriving Repr, DecidableEq

/-- How a report names the context. -/
def Context.text : Context → String
  | nextToken => "while scanning for the next token"
  | simpleKey => "while scanning a simple key"
  | directive => "while scanning a directive"
  | nodeAlias => "while scanning an alias"
  | anchor => "while scanning an anchor"
  | tag => "while scanning a tag"
  | tagAddress => "while parsing a tag"
  | directiveAddress => "while parsing a directive"
  | blockScalar => "while scanning a block scalar"
  | quotedScalar => "while scanning a quoted scalar"
  | escapedScalar => "while scanning a double-quoted scalar"
  | node => "while parsing a node"
  | blockNode => "while parsing a block node"
  | flowNode => "while parsing a flow node"
  | blockSequence => "while parsing a block collection"
  | blockMapping => "while parsing a block mapping"
  | flowSequence => "while parsing a flow sequence"
  | flowMapping => "while parsing a flow mapping"
  | document => "expected a single document in the stream"
  | firstAnchor name => "found duplicate anchor " ++ Text.quote name ++ "; first occurrence"
  | mapping => "while constructing a mapping"
  | orderedMap => "while constructing an ordered map"
  | pairs => "while constructing pairs"

/-- What is wrong. -/
inductive Problem where
  /-- A character where something else should stand; none at the end of the text. -/
  | unexpected (expected : String) (found : Option Char)
  /-- A token where something else should stand. -/
  | unexpectedToken (expected found : String)
  /-- A token where an entry of a collection should go on or end. -/
  | unexpectedInFlow (expected found : String)
  /-- A kind of node where another one should stand. -/
  | unexpectedNode (expected found : String)
  | startsNoToken (found : Char)
  | keyWithoutValue
  | entryNotAllowed
  | keyNotAllowed
  | valueNotAllowed
  | zeroIndentation
  | endOfText
  | separatorInScalar
  | unknownEscape (found : Option Char)
  /-- A number after a backslash that is beyond all characters. -/
  | noCharacter (number : Nat)
  /-- A number in a directive that is not read. -/
  | integer (cause : IntegerError)
  | illFormedAddress (report : String)
  | secondVersion
  | wrongVersion
  | secondHandle (handle : List Char)
  | undefinedHandle (handle : List Char)
  | undefinedAlias (name : List Char)
  | secondAnchor
  | secondDocument
  | unhashableKey
  /-- Some entries where there should be a single one. -/
  | severalEntries (count : Nat)
  | notAscii (report : String)
  | notBase64 (report : String)
  | unknownTag (tag : List Char)
deriving Repr, DecidableEq

/-- A character in a report; the end of a text counts as the character zero. -/
def quoteFound (c : Option Char) : String :=
  Text.quote [c.getD (Char.ofNat 0)]

/-- The numbers that fit into a machine word are less than this. -/
def wordLimit : Nat := 0x80000000

/-- How a report names what is wrong. -/
def Problem.text : Problem → String
  | unexpected expected found => "expected " ++ expected ++ ", but found " ++ quoteFound found
  | unexpectedToken expected found =>
    "expected " ++ expected ++ ", but found " ++ Text.quote found.toList
  | unexpectedInFlow expected found =>
    "expected " ++ expected ++ ", but got " ++ Text.quote found.toList
  | unexpectedNode expected found => "expected " ++ expected ++ ", but found " ++ found
  | startsNoToken found => "found character " ++ Text.quote [found] ++ " that cannot start any token"
  | keyWithoutValue => "could not find expected ':'"
  | entryNotAllowed => "sequence entries are not allowed here"
  | keyNotAllowed => "mapping keys are not allowed here"
  | valueNotAllowed => "mapping values are not allowed here"
  | zeroIndentation => "expected indentation indicator in the range 1-9, but found 0"
  | endOfText => "found unexpected end of stream"
  | separatorInScalar => "found unexpected document separator"
  | unknownEscape found => "found unknown escape character " ++ quoteFound found
  | noCharacter number =>
    if number < wordLimit then "chr() arg not in range(0x110000)"
    else "Python int too large to convert to C int"
  | integer cause => cause.message
  | illFormedAddress report => report
  | secondVersion => "found duplicate YAML directive"
  | wrongVersion => "found incompatible YAML document (version 1.* is required)"
  | secondHandle handle => "duplicate tag handle " ++ Text.quote handle
  | undefinedHandle handle => "found undefined tag handle " ++ Text.quote handle
  | undefinedAlias name => "found undefined alias " ++ Text.quote name
  | secondAnchor => "second occurrence"
  | secondDocument => "but found another document"
  | unhashableKey => "found unhashable key"
  | severalEntries count => "expected a single mapping item, but found " ++ toString count ++ " items"
  | notAscii report => "failed to convert base64 data into ascii: " ++ report
  | notBase64 report => "failed to decode base64 data: " ++ report
  | unknownTag tag => "could not determine a constructor for the tag " ++ Text.quote tag

/-- Whether a problem is one of the form of a text. A number that cannot be used is none, and its report
    does not say where it stands. -/
def Problem.isFormal : Problem → Bool
  | noCharacter _ | integer _ => false
  | _ => true

/-- A fault. -/
structure Fault where
  context : Option (Context × Option Mark) := none
  problem : Problem
  mark : Mark
deriving Repr, DecidableEq

/-! ## Reports -/

/-- How many characters before or after a place a report may show. -/
def snippetReach : Nat := 37

/-- The line around a place, cut if it is long, with a caret below the place. -/
def snippet (text : List Char) (index : Nat) : String :=
  let before := ((text.take index).reverse.takeWhile (!isBreak ·)).take snippetReach
  let after := ((text.drop index).takeWhile (!isBreak ·)).take snippetReach
  let shorten (cs : List Char) : List Char × String :=
    if cs.length < snippetReach then (cs, "") else (cs.take (snippetReach - 5), " ... ")
  let (before, head) := shorten before
  let (after, tail) := shorten after
  "    " ++ head ++ String.ofList (before.reverse ++ after) ++ tail ++ "\n" ++
    String.ofList (List.replicate (4 + before.length + head.length) ' ') ++ "^"

/-- A place in a report. -/
def Mark.report (text : List Char) (mark : Mark) : String :=
  "  in \"<unicode string>\", line " ++ toString (mark.line + 1) ++ ", column " ++
    toString (mark.column + 1) ++ ":\n" ++ snippet text mark.index

/-- The report of a fault. The place of the context is left out if it is the place of the fault. -/
def Fault.report (text : List Char) (fault : Fault) : String :=
  let context : List String := match fault.context with
    | none => []
    | some (context, none) => [context.text]
    | some (context, some mark) =>
      if mark.line = fault.mark.line ∧ mark.column = fault.mark.column then [context.text]
      else [context.text, mark.report text]
  if fault.problem.isFormal then
    "\n".intercalate (context ++ [fault.problem.text, fault.mark.report text])
  else fault.problem.text

end Folio.Yaml

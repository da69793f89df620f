import Folio.Yaml.Scalar

set_option autoImplicit false

/-! # From a YAML text to a value

The value of a node follows from its tag. Collections are filled from the outside in, level by level, and
the first thing that is wrong in this order is reported. A mapping takes the entries of the mappings
that are merged into it, before its own. -/

namespace Folio.Yaml

/-- Why a text has no value. -/
inductive LoadError where
  /-- A character that may not stand in a text, and where it stands. -/
  | character (c : Char) (position : Nat)
  | fault (cause : Fault)
  | scalar (cause : ScalarError)
  /-- A collection whose default value leads back to it. -/
  | endless
deriving Repr, DecidableEq

/-- The text that reports the cause. -/
def LoadError.message (text : List Char) : LoadError → String
  | character c position =>
    let digits := Text.hexDigits (max 4 ((Nat.toDigits 16 c.toNat).length)) c.toNat
    "unacceptable character #x" ++ String.ofList digits ++
      ": special characters are not allowed\n  in \"<unicode string>\", position " ++
      toString position
  | fault cause => cause.report text
  | scalar cause => cause.message
  | endless => "maximum recursion depth exceeded"

/-- Whether the cause lies in the form of the text. -/
def LoadError.isFormal : LoadError → Bool
  | character _ _ => true
  | fault cause => cause.problem.isFormal
  | scalar _ | endless => false

/-- Whether the text that reports the cause says what is wrong. For a few scalars that are not what their
    tags say it does not. -/
def LoadError.isExplained : LoadError → Bool
  | scalar (.notATruthValue _) | scalar .notATimestamp | scalar .timestampInCollection => false
  | scalar .noNumber | scalar .unitTooLarge | endless => false
  | fault ⟨_, .noCharacter number, _⟩ => number < wordLimit
  | _ => true

/-- What makes or fails to make a value. -/
abbrev Load := Except LoadError

namespace Load

/-- Report a problem at a node. -/
def fail {α : Type} (problem : Problem) (node : Node) : Load α :=
  .error (.fault ⟨none, problem, node.mark⟩)

/-- Report a problem with a part of a node. -/
def failIn {α : Type} (context : Context) (whole : Node) (problem : Problem) (part : Node) : Load α :=
  .error (.fault ⟨some (context, some whole.mark), problem, part.mark⟩)

/-- The name that a tag of the language ends in. -/
def tagName (tag : List Char) : Option String :=
  (Text.dropPrefix? languageTag tag).map String.ofList

/-- The tag of a node. -/
def tagOf : Node → List Char
  | .scalar tag _ _ | .sequence tag _ _ | .mapping tag _ _ => tag
  | .enclosing _ => tagNamed "seq"

/-- The value of a mapping that stands for the whole. -/
def defaultOf? (entries : List (Node × Node)) : Option Node :=
  (entries.find? fun (key, _) => tagOf key == tagNamed "value").map (·.2)

/-- The text of a node: its own, or that of its default value. `outer` is where the collections start
    of which this is the default value, and `fuel` is how deep nodes nest in the node. -/
def textOf (outer : List Mark) : Nat → Node → Load (List Text.Point)
  | _, .scalar _ text _ => .ok text
  | fuel + 1, .mapping tag entries mark =>
    match defaultOf? entries with
    | some value => textOf (mark :: outer) fuel value
    | none => fail (.unexpectedNode "a scalar node" "mapping") (.mapping tag entries mark)
  | _, .enclosing mark =>
    if outer.contains mark then .error .endless
    else fail (.unexpectedNode "a scalar node" "sequence") (.enclosing mark)
  | _, node => fail (.unexpectedNode "a scalar node" node.kindName) node

/-- The value of a node whose tag says that it is no collection. Nothing for a collection. -/
def simple (node : Node) : Load (Option Value) := do
  let text := textOf [] node.depth node
  let scalar (r : Except ScalarError Value) : Load (Option Value) :=
    (r.mapError .scalar).map some
  match tagName (tagOf node) with
  | some "null" => do
    let _ ← text
    return some .null
  | some "bool" => scalar ((truthOf (← text)).map .bool)
  | some "int" => scalar ((integerOf (← text)).map .int)
  | some "float" => scalar ((floatOf (← text)).map .float)
  | some "binary" =>
    match bytesOf (← text) with
    | .ok v => return some v
    | .error problem => fail problem node
  | some "timestamp" => do
    let text ← text
    match node with
    | .mapping _ _ _ => .error (.scalar .timestampInCollection)
    | _ => scalar (timestampOf text)
  | some "str" => return some (.ofPoints (← text))
  | some "seq" | some "map" | some "set" | some "omap" | some "pairs" => return none
  | _ => fail (.unknownTag (tagOf node)) node

/-! ## Merging -/

/-- The entries of an item in a list of mappings that are merged into one. `merge` gives those of a mapping. -/
def itemEntries (whole : Node) (merge : Node → List (Node × Node) → Load (List (Node × Node))) (item : Node) :
    Load (List (Node × Node)) :=
  match item with
  | .mapping _ inner _ => merge item inner
  | .enclosing _ => .ok []
  | _ => failIn .mapping whole (.unexpectedNode "a mapping for merging" item.kindName) item

/-- The entries of a mapping with those of the mappings that are merged into it before its own. -/
def mergedEntries (whole : Node) : Nat → List (Node × Node) → Load (List (Node × Node))
  | 0, entries => .ok entries
  | fuel + 1, entries => do
    let isMerge (entry : Node × Node) : Bool := tagOf entry.1 == tagNamed "merge"
    let merged ← (entries.filter isMerge).mapM fun (_, value) =>
      match value with
      | .mapping _ inner _ => mergedEntries value fuel inner
      | .sequence _ items _ => do
        let parts ← items.mapM (itemEntries whole fun item inner => mergedEntries item fuel inner)
        pure parts.reverse.flatten
      | .enclosing _ => pure []
      | _ =>
        let expected := "a mapping or list of mappings for merging"
        failIn .mapping whole (.unexpectedNode expected value.kindName) value
    let own := (entries.filter (!isMerge ·)).map fun (key, value) =>
      match key with
      | .scalar tag text mark =>
        (Node.scalar (if tag = tagNamed "value" then tagNamed "str" else tag) text mark, value)
      | _ => (key, value)
    return merged.flatten ++ own

/-- The entries of a mapping. -/
def entriesOf (node : Node) : Load (List (Node × Node)) :=
  match node with
  | .mapping _ entries _ => mergedEntries node node.depth entries
  | _ => fail (.unexpectedNode "a mapping node" node.kindName) node

/-- The single entries in the items of an ordered mapping. -/
def singleEntries (context : Context) (node : Node) : Load (List (Load (Node × Node))) :=
  match node with
  | .sequence _ items _ =>
    .ok (items.map fun item =>
      match item with
      | .mapping _ [entry] _ => .ok entry
      | .mapping _ entries _ => failIn context node (.severalEntries entries.length) item
      | _ => failIn context node (.unexpectedNode "a mapping of length 1" item.kindName) item)
  | _ => failIn context node (.unexpectedNode "a sequence" node.kindName) node

/-! ## The first fault -/

/-- The node as a collection, after its value has been made if it is none. -/
def part (node : Node) : Load (List Node) := do
  match node with
  | .enclosing _ => return []
  | _ => return if (← simple node).isSome then [] else [node]

/-- The collections directly inside a collection, after its simple parts have been made. -/
def inside (node : Node) : Load (List Node) := do
  match tagName (tagOf node) with
  | some "seq" =>
    match node with
    | .sequence _ items _ => return (← items.mapM part).flatten
    | _ => fail (.unexpectedNode "a sequence node" node.kindName) node
  | some "omap" | some "pairs" =>
    let context : Context := if tagOf node = tagNamed "omap" then .orderedMap else .pairs
    let parts ← (← singleEntries context node).mapM fun entry => do
      let (key, value) ← entry
      return (← part key) ++ (← part value)
    return parts.flatten
  | _ =>
    let parts ← (← entriesOf node).mapM fun (key, value) => do
      match key with
      | .enclosing _ => failIn .mapping node .unhashableKey key
      | _ =>
        if (← simple key).isNone then failIn .mapping node .unhashableKey key
        part value
    return parts.flatten

/-- Make the simple parts of some collections, and of those inside them, level by level. -/
def check : Nat → List Node → Load Unit
  | 0, _ => .ok ()
  | fuel + 1, nodes => do
    if nodes.isEmpty then return
    check fuel (← nodes.mapM inside).flatten

/-! ## Values -/

/-- The value of a node. -/
def value : Nat → Node → Load Value
  | 0, _ => .ok (.unwritable .cycle)
  | fuel + 1, node => do
    match node with
    | .enclosing _ => return .unwritable .cycle
    | _ =>
      match ← simple node with
      | some v => return v
      | none =>
        let entry (e : Node × Node) : Load (Value × Value) := do
          return (← value fuel e.1, ← value fuel e.2)
        match tagName (tagOf node) with
        | some "seq" =>
          match node with
          | .sequence _ items _ => return .list (← items.mapM (value fuel))
          | _ => return .list []
        | some "omap" | some "pairs" =>
          let pairs ← (← singleEntries .pairs node).mapM fun e => do
            let (k, v) ← entry (← e)
            return Value.pair k v
          return .list pairs
        | some "set" =>
          let entries := Value.mapOf (← (← entriesOf node).mapM entry)
          return .set (entries.map (·.1))
        | _ => return .map (Value.mapOf (← (← entriesOf node).mapM entry))

end Load

/-- The value of a text; nothing stands for null. -/
def load (text : List Char) : Load Value := do
  match text.find? (!isCharacter ·) with
  | some c => .error (.character c (text.takeWhile isCharacter).length)
  | none =>
    match compose text with
    | .error fault => .error (.fault fault)
    | .ok none => return .null
    | .ok (some root) =>
      if (← Load.simple root).isNone then Load.check root.depth [root]
      Load.value (root.depth + 1) root

end Folio.Yaml

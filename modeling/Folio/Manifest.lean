import Folio.FileTree
import Folio.Json.Printer
import Folio.Json.Reader

set_option autoImplicit false

/-! # Manifests

The manifest of a build says which module holds the page for a key. It is kept as JSON beside the
modules, with the keys in order, so builds of the same pages write the same file. A manifest that was
written by others may hold anything; what is read is a mapping or an error. -/

namespace Folio

/-- Why a manifest cannot be read. -/
inductive ManifestError where
  | read (cause : ReadError)
  /-- A file that is no JSON; its text is needed to report why. -/
  | json (path : Path) (text : List Char) (cause : Json.Fault)
  /-- Data that has no members. -/
  | noMembers (kind : String)
  /-- Modules of a kind that holds nothing. -/
  | notIterable (kind : String)
  /-- An item among the modules that holds nothing. -/
  | notAnEntry (index : Nat)
  /-- An item among the modules that is no pair. -/
  | notAPair (index count : Nat)
  /-- A key that is a collection. -/
  | unhashable (kind : String)
  /-- A module whose place is no text. -/
  | notAPath (kind : String)
deriving Repr

/-- The text that reports the cause. -/
def ManifestError.message : ManifestError → String
  | read cause => cause.message
  | json path text cause =>
    if cause.isFormal then "Invalid " ++ path.text ++ ": " ++ cause.message text
    else cause.message text
  | noMembers kind => "'" ++ kind ++ "' object has no attribute 'get'"
  | notIterable kind => "'" ++ kind ++ "' object is not iterable"
  | notAnEntry index =>
    "cannot convert dictionary update sequence element #" ++ toString index ++ " to a sequence"
  | notAPair index count =>
    "dictionary update sequence element #" ++ toString index ++ " has length " ++ toString count ++
      "; 2 is required"
  | unhashable kind => "unhashable type: '" ++ kind ++ "'"
  | notAPath kind => "unsupported operand type(s) for /: 'PosixPath' and '" ++ kind ++ "'"

namespace Manifest

/-- The name of the file that holds a manifest. -/
def fileName : String := "manifest.json"

/-- The file that holds the manifest of a directory. -/
def file (out : Path) : Path :=
  out.join (.ofText fileName)

/-! ## Reading -/

/-- The parts of a text. -/
def lettersOf (ps : List Text.Point) : List Value :=
  ps.map fun p => .ofPoints [p]

/-- The parts of a value that may be a pair. -/
def partsOf? : Value → Option (List Value)
  | .list items => some items
  | .string s => some (lettersOf (Text.points s.toList))
  | .unwritable (.text t) => some (lettersOf t.points)
  | .map entries => some (entries.map (·.1))
  | _ => none

/-- Add an entry from an item, which is numbered. -/
def addItem (entries : List (Value × Value)) (index : Nat) (item : Value) :
    Except ManifestError (List (Value × Value)) :=
  match partsOf? item with
  | none => .error (.notAnEntry index)
  | some [key, value] =>
    match key.unhashable? with
    | some kind => .error (.unhashable kind)
    | none => .ok (Value.insert key value entries)
  | some parts => .error (.notAPair index parts.length)

/-- Add entries from items, which are numbered from a number on. -/
def addItems (entries : List (Value × Value)) (index : Nat) :
    List Value → Except ManifestError (List (Value × Value))
  | [] => .ok entries
  | item :: rest => do addItems (← addItem entries index item) (index + 1) rest

/-- The modules in the data of a manifest. -/
def modulesOf (data : Value) : Except ManifestError (List (Value × Value)) :=
  match data with
  | .map members =>
    match (Value.field? "modules" members).getD (.map []) with
    | .map entries => .ok entries
    | .list items => addItems [] 0 items
    | .string s => addItems [] 0 (lettersOf (Text.points s.toList))
    | .unwritable (.text t) => addItems [] 0 (lettersOf t.points)
    | v => .error (.notIterable v.kindName)
  | v => .error (.noMembers v.kindName)

/-- The modules in the text of a manifest. -/
def ofText (path : Path) (text : List Char) : Except ManifestError (List (Value × Value)) :=
  match Json.readChars text with
  | .error cause => .error (.json path text cause)
  | .ok data => modulesOf data.toValue

/-- The modules in the manifest of a directory: for each key the place of its module. A directory
    without a manifest has no modules. -/
def read (tree : FileTree) (out : Path) : Except ManifestError (List (Value × Value)) :=
  if !tree.doesExist (file out) then .ok []
  else do
    let (text, _) ← (tree.readText (file out)).mapError .read
    ofText (file out) text

/-! ## Writing -/

/-- Whether the key of an entry comes before another or is equal to it. -/
def keyLe (a b : String × Json) : Bool :=
  a.1 < b.1 || a.1 == b.1

/-- The data of a manifest. -/
def toJson (modules : List (String × Json)) : Json :=
  .object [("modules", .object (modules.mergeSort keyLe))]

/-- The text of a manifest. -/
def toText (modules : List (String × Json)) : List Char :=
  Json.chars Json.asciiLines 0 (toJson modules)

/-- Write the manifest of a directory, which is made if it is not there. -/
def write (tree : FileTree) (out : Path) (modules : List (String × Json)) :
    Except FileError FileTree := do
  let tree ← tree.makeDirectories (file out).parent
  tree.writeText (file out) (toText modules) 0

/-- Set the place of the module for a key. -/
def put (key place : String) (modules : List (Value × Value)) : List (Value × Value) :=
  Value.insert (.string key) (.string place) modules

/-- The modules without the one for a key. -/
def erase (key : String) (modules : List (Value × Value)) : List (Value × Value) :=
  modules.filter fun (k, _) => !k.sameKey (.string key)

/-- The entries of a manifest that is to be written. -/
def entriesOf (modules : List (Value × Value)) : List (String × Json) :=
  match Json.ofEntries modules with
  | .ok members => members
  | .error _ => []

end Manifest

end Folio

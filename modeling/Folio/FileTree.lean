import Folio.Calendar
import Folio.Number.Binary64
import Folio.Path
import Folio.Process
import Folio.Text.Utf8

set_option autoImplicit false

/-! # File trees

The files and directories that a site lives in, by their places, with the process that works on them and
its working directory, from which paths lead on. A file holds bytes and the time of its last change. What
goes wrong is reported with the path as it was given. -/

namespace Folio

/-- What can be at a place. -/
inductive Entry where
  | directory
  /-- A file, with the time of its last change in microseconds since the start of 1970. -/
  | file (bytes : List UInt8) (modified : Int)
deriving Repr, DecidableEq, Inhabited

/-- A tree of files. The root is a directory; every other place has an entry or nothing. -/
structure FileTree where
  /-- The working directory. -/
  home : Place
  entries : List (Place × Entry)
  process : Process := .plain
deriving Inhabited

/-- What can be wrong with the use of a path. -/
inductive FileFault where
  | missing
  | present
  | notADirectory
  | isADirectory
  | nameTooLong
  /-- A character that no name has. -/
  | nul
deriving Repr, DecidableEq

/-- A fault with the path that was used, and the path to which a file should have gone. -/
structure FileError where
  fault : FileFault
  path : Path
  target : Option Path := none
deriving Repr, DecidableEq

/-- The number and the words of a fault. -/
def FileFault.text : FileFault → String
  | missing => "[Errno 2] No such file or directory"
  | present => "[Errno 17] File exists"
  | notADirectory => "[Errno 20] Not a directory"
  | isADirectory => "[Errno 21] Is a directory"
  | nameTooLong => "[Errno 36] File name too long"
  | nul => "embedded null byte"

/-- The text that reports an error. -/
def FileError.message (e : FileError) : String :=
  match e.fault with
  | .nul => e.fault.text
  | _ =>
    e.fault.text ++ ": " ++ Text.quote e.path.text.toList ++
      (match e.target with
        | some target => " -> " ++ Text.quote target.text.toList
        | none => "")

/-- Why a file cannot be read as text. -/
inductive ReadError where
  | file (cause : FileError)
  | encoding (cause : Text.IllFormed)
deriving Repr, DecidableEq

/-- The text that reports the cause. -/
def ReadError.message : ReadError → String
  | file cause => cause.message
  | encoding cause => cause.message

namespace FileTree

/-! ## Entries -/

/-- A tree that has a working directory and nothing else. -/
def empty (home : Place) : FileTree :=
  { home, entries := (List.range home.length).map fun n => (home.take (n + 1), .directory) }

/-- What is at a place. -/
def entry? (tree : FileTree) (place : Place) : Option Entry :=
  if place.isEmpty then some .directory else tree.entries.lookup place

/-- The tree with another entry at a place. -/
def put (tree : FileTree) (place : Place) (entry : Entry) : FileTree :=
  { tree with entries := tree.entries.filter (fun e => e.1 != place) ++ [(place, entry)] }

/-- The tree with nothing at a place. -/
def erase (tree : FileTree) (place : Place) : FileTree :=
  { tree with entries := tree.entries.filter fun e => e.1 != place }

/-! ## Following paths -/

/-- The most bytes of a name. -/
def maxNameBytes : Nat := 255

/-- Follow names from a place. Every name but the last must lead to a directory. -/
def walk (tree : FileTree) : Place → List String → Except FileFault Place
  | place, [] => .ok place
  | place, part :: rest =>
    match tree.entry? place with
    | none => .error .missing
    | some (.file _ _) => .error .notADirectory
    | some .directory =>
      if maxNameBytes < part.utf8ByteSize then .error .nameTooLong
      else if part = ".." then tree.walk place.dropLast rest
      else tree.walk (place ++ [part]) rest

/-- Where a path leads, if all directories on the way are there. -/
def locate (tree : FileTree) (p : Path) : Except FileFault Place :=
  if p.hasNul then .error .nul
  else tree.walk (if p.isAbsolute then [] else tree.home) p.parts

/-- What a path leads to. -/
def find? (tree : FileTree) (p : Path) : Option Entry :=
  match tree.locate p with
  | .ok place => tree.entry? place
  | .error _ => none

/-- Whether a path leads to anything. -/
def doesExist (tree : FileTree) (p : Path) : Bool :=
  (tree.find? p).isSome

/-- Whether a path leads to a file. -/
def isFile (tree : FileTree) (p : Path) : Bool :=
  match tree.find? p with
  | some (.file _ _) => true
  | _ => false

/-- Whether a path leads to a directory. -/
def isDirectory (tree : FileTree) (p : Path) : Bool :=
  tree.find? p == some .directory

/-! ## Reading -/

/-- The bytes of a file and the time of its last change. -/
def read (tree : FileTree) (p : Path) : Except FileError (List UInt8 × Int) :=
  match tree.locate p with
  | .error fault => .error ⟨fault, p, none⟩
  | .ok place =>
    match tree.entry? place with
    | none => .error ⟨.missing, p, none⟩
    | some .directory => .error ⟨.isADirectory, p, none⟩
    | some (.file bytes modified) => .ok (bytes, modified)

/-- A text whose lines all end in line feeds. -/
def unifyNewlines : List Char → List Char
  | [] => []
  | '\r' :: '\n' :: cs => '\n' :: unifyNewlines cs
  | c :: cs => (if c = '\r' then '\n' else c) :: unifyNewlines cs

/-- The text of a file, with its newlines as they are. -/
def readExact (tree : FileTree) (p : Path) : Except ReadError (List Char) := do
  let (bytes, _) ← (tree.read p).mapError .file
  (Text.decodeUtf8 bytes).mapError .encoding

/-- The text of a file and the time of its last change. -/
def readText (tree : FileTree) (p : Path) : Except ReadError (List Char × Int) := do
  let (bytes, modified) ← (tree.read p).mapError .file
  let cs ← (Text.decodeUtf8 bytes).mapError .encoding
  return (unifyNewlines cs, modified)

/-- The seconds between which a file system keeps times. -/
def timeBounds : Int × Int := (-2147483648, 15032385535)

/-- The time of a change as a moment. It is held as a floating-point number of seconds, so it is
    rounded twice. -/
def moment (modified : Int) : DateTime :=
  let seconds := max timeBounds.1 (min timeBounds.2 (modified.fdiv 1000000))
  let nanoseconds :=
    if seconds = timeBounds.1 ∨ seconds = timeBounds.2 then 0 else modified.fmod 1000000 * 1000
  let time := (Binary64.ofInt seconds).add
    ((Binary64.ofDecimal false 1 (-9)).mul (.ofInt nanoseconds))
  let micro : Int := match time with
    | .finite negative mantissa exponent _ =>
      let whole := Binary64.truncate negative mantissa exponent
      let part := (time.add (.ofInt (-whole))).mul (.ofInt 1000000)
      whole * 1000000 + (match part with
        | .finite n m e _ => Binary64.roundToInt n m e
        | _ => 0)
    | _ => 0
  .ofMicroseconds micro

/-! ## Writing -/

/-- Write a file. -/
def write (tree : FileTree) (p : Path) (bytes : List UInt8) (modified : Int) :
    Except FileError FileTree :=
  match tree.locate p with
  | .error fault => .error ⟨fault, p, none⟩
  | .ok place =>
    match tree.entry? place, tree.entry? place.dropLast with
    | some .directory, _ => .error ⟨.isADirectory, p, none⟩
    | some (.file _ _), _ => .ok (tree.put place (.file bytes modified))
    | none, some .directory => .ok (tree.put place (.file bytes modified))
    | none, some (.file _ _) => .error ⟨.notADirectory, p, none⟩
    | none, none => .error ⟨.missing, p, none⟩

/-- Write a text. -/
def writeText (tree : FileTree) (p : Path) (text : List Char) (modified : Int) :
    Except FileError FileTree :=
  tree.write p (Text.encodeUtf8 text) modified

/-- Make a directory whose parent is there. -/
def makeDirectory (tree : FileTree) (p : Path) : Except FileFault FileTree :=
  match tree.locate p with
  | .error fault => .error fault
  | .ok place =>
    match tree.entry? place with
    | some _ => .error .present
    | none => .ok (tree.put place .directory)

/-- Make a directory and the parents that it lacks; `fuel` is more than the number of its names. A
    directory that is there is fine. -/
def makeDirectoriesFrom : Nat → FileTree → Path → Except FileError FileTree
  | 0, tree, _ => .ok tree
  | fuel + 1, tree, p =>
    match tree.makeDirectory p with
    | .ok tree => .ok tree
    | .error .missing => do
      if p.parts.isEmpty then throw ⟨.missing, p, none⟩
      let tree ← makeDirectoriesFrom fuel tree p.parent
      match tree.makeDirectory p with
      | .ok tree => return tree
      | .error fault => if tree.isDirectory p then return tree else throw ⟨fault, p, none⟩
    | .error fault => if tree.isDirectory p then .ok tree else .error ⟨fault, p, none⟩

/-- Make a directory and the parents that it lacks. -/
def makeDirectories (tree : FileTree) (p : Path) : Except FileError FileTree :=
  makeDirectoriesFrom (p.parts.length + 1) tree p

/-- Remove a file. -/
def remove (tree : FileTree) (p : Path) : Except FileError FileTree :=
  match tree.locate p with
  | .error fault => .error ⟨fault, p, none⟩
  | .ok place =>
    match tree.entry? place with
    | none => .error ⟨.missing, p, none⟩
    | some .directory => .error ⟨.isADirectory, p, none⟩
    | some (.file _ _) => .ok (tree.erase place)

/-- Move a file to another place, where it takes the place of a file. -/
def moveFile (tree : FileTree) (p target : Path) : Except FileError FileTree :=
  let fail (fault : FileFault) : Except FileError FileTree := .error ⟨fault, p, some target⟩
  match tree.locate p, tree.locate target with
  | .error fault, _ => fail fault
  | _, .error fault => fail fault
  | .ok old, .ok new =>
    match tree.entry? old, tree.entry? new with
    | none, _ => fail .missing
    | some .directory, _ => fail .isADirectory
    | some (.file _ _), some .directory => fail .isADirectory
    | some (.file bytes modified), _ => .ok ((tree.erase old).put new (.file bytes modified))

/-- Write a file beside its place and move it there, so that the place never holds a part of it. -/
def writeWhole (tree : FileTree) (p : Path) (text : List Char) (modified : Int) :
    Except (FileError × FileTree) FileTree :=
  match tree.makeDirectories p.parent with
  | .error e => .error (e, tree)
  | .ok tree =>
    let draft := p.withName ("." ++ p.name ++ ".tmp")
    match tree.writeText draft text modified with
    | .error e => .error (e, tree)
    | .ok tree =>
      match tree.moveFile draft p with
      | .error e => .error (e, tree)
      | .ok tree => .ok tree

/-! ## Listing -/

/-- The names of the files below a place, in the order of the names on the way. -/
def namesBelow (tree : FileTree) (place : Place) : List Place :=
  (tree.entries.filterMap fun (at', entry) =>
    match entry with
    | .file _ _ => Path.below? place at'
    | .directory => none).mergeSort Path.namesLe

/-- The paths of the files below a directory, in order. -/
def filesBelow (tree : FileTree) (p : Path) : List Path :=
  match tree.locate p with
  | .error _ => []
  | .ok place => (tree.namesBelow place).map fun names => p.join ⟨false, names⟩

/-- The sources at a path: the file itself, or all below a directory in order. -/
def sources (tree : FileTree) (p : Path) : List Path :=
  if tree.isFile p then (if p.isSource then [p] else [])
  else (tree.filesBelow p).filter fun q => Path.endsAsSource q.name

end FileTree

end Folio

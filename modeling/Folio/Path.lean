import Folio.Text.Quoted
import Folio.Text.Scan

set_option autoImplicit false

/-! # Paths

A path is a text of names between slashes. Empty names and single dots say nothing and are dropped. A
place is where a path leads from a working directory: the names from the root of the file system, with
every double dot undone. -/

namespace Folio

/-- A path. -/
structure Path where
  /-- Whether it starts at the root of the file system. -/
  isAbsolute : Bool := false
  parts : List String
deriving Repr, DecidableEq, Inhabited

/-- A place in the file system: the names from its root. -/
abbrev Place := List String

namespace Path

/-- The names in a text. -/
def namesIn (text : String) : List String :=
  ((Text.cutAt '/' text.toList).filter fun cs => cs != [] && cs != ['.']).map String.ofList

/-- The path that a text spells. -/
def ofText (text : String) : Path :=
  ⟨text.toList.head? = some '/', namesIn text⟩

/-- The spelling of a path. -/
def text (p : Path) : String :=
  if p.isAbsolute then "/" ++ "/".intercalate p.parts
  else if p.parts.isEmpty then "."
  else "/".intercalate p.parts

/-- The last name. -/
def name (p : Path) : String :=
  p.parts.getLast?.getD ""

/-- The path without its last name. -/
def parent (p : Path) : Path :=
  { p with parts := p.parts.dropLast }

/-- The path with another last name. -/
def withName (p : Path) (name : String) : Path :=
  { p with parts := p.parts.dropLast ++ [name] }

/-- The path that leads on from another. -/
def join (p q : Path) : Path :=
  if q.isAbsolute then q else { p with parts := p.parts ++ q.parts }

/-- Whether a path has a character that no name in a file system has. -/
def hasNul (p : Path) : Bool :=
  p.parts.any fun s => s.toList.contains '\x00'

/-! ## Endings -/

/-- What the names of sources end in. -/
def sourceEnding : List Char := ['.', 'm', 'd']

/-- Whether a text ends in the ending of sources. -/
def endsAsSource (s : String) : Bool :=
  (Text.dropPrefix? sourceEnding.reverse s.toList.reverse).isSome

/-- A text without the ending of sources. -/
def dropEnding (s : String) : String :=
  match Text.dropPrefix? sourceEnding.reverse s.toList.reverse with
  | some rest => String.ofList rest.reverse
  | none => s

/-- Whether a path names a source. A name that is an ending and nothing else has no ending. -/
def isSource (p : Path) : Bool :=
  endsAsSource p.name && p.name.length != sourceEnding.length

/-! ## Places -/

/-- Follow names from a place; the root has no parent but itself. -/
def follow : Place → List String → Place
  | place, [] => place
  | place, part :: rest =>
    if part = ".." then follow place.dropLast rest else follow (place ++ [part]) rest

/-- Where a path leads from a working directory, whatever is there. -/
def place (home : Place) (p : Path) : Place :=
  follow (if p.isAbsolute then [] else home) p.parts

/-- The names from a place to another below it. -/
def below? : Place → Place → Option Place
  | [], place => some place
  | _ :: _, [] => none
  | a :: as, b :: bs => if a = b then below? as bs else none

/-- The names from a root to a path below it. -/
def relative? (p : Path) (home : Place) (root : Path) : Option Place :=
  if root.hasNul || p.hasNul then none else below? (root.place home) (p.place home)

/-! ## Order -/

/-- Whether a list of names comes before another or is equal to it, name by name. -/
def namesLe : List String → List String → Bool
  | [], _ => true
  | _ :: _, [] => false
  | a :: as, b :: bs => a < b || (a == b && namesLe as bs)

/-- Whether a path comes before another or is equal to it. -/
def comesFirst (a b : Path) : Bool :=
  let names (p : Path) : List String := if p.isAbsolute then "/" :: p.parts else p.parts
  namesLe (names a) (names b)

end Path

/-! ## Slugs -/

/-- The slug of a source: its path from the root of the sources without the ending, or its name
    without the ending if it is not below the root. -/
def pathSlug (home : Place) (p : Path) (root : Option Path) : String :=
  Path.dropEnding (match root.bind fun root => p.relative? home root with
    | some names => Path.text ⟨false, names⟩
    | none => p.name)

/-- What a source is called in its compiled page. -/
def sourceLabel (slug : String) : String :=
  slug ++ String.ofList Path.sourceEnding

/-- The key of a page in a manifest. -/
def keyFor (keyStart slug : String) : String :=
  String.ofList (keyStart.toList.reverse.dropWhile (· == '/')).reverse ++ "/" ++ slug ++
    String.ofList Path.sourceEnding

end Folio

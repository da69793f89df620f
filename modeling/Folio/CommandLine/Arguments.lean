import Folio.Text.Scan

set_option autoImplicit false

/-! # Arguments

The words of a command line: options with values, flags with two names, and other words in their places.
Two hyphens end the options. A word that fits nothing is a usage error. -/

namespace Folio.CommandLine

/-- What a command asks for. -/
structure Form where
  /-- Options with a value; of several the last counts. -/
  options : List String := []
  /-- Options with a value that may be repeated. -/
  lists : List String := []
  /-- Flags with the names that set and clear them. -/
  flags : List (String × String) := []
  /-- How many other words there may be. -/
  words : Nat := 0

/-- What a command was given. -/
structure Given where
  options : List (String × String) := []
  flags : List (String × Bool) := []
  words : List String := []
deriving Repr, DecidableEq

namespace Given

/-- The value of an option. -/
def option? (g : Given) (name : String) : Option String :=
  g.options.reverse.lookup name

/-- All values of an option. -/
def all (g : Given) (name : String) : List String :=
  (g.options.filter fun o => o.1 == name).map (·.2)

/-- A flag, by the name that sets it. -/
def flag? (g : Given) (name : String) : Option Bool :=
  g.flags.reverse.lookup name

end Given

/-- What a name does. -/
inductive Role where
  | value
  | flag (name : String) (set : Bool)
deriving Repr, DecidableEq

/-- What a name does in a form. -/
def Form.role? (f : Form) (name : String) : Option Role :=
  if f.options.contains name || f.lists.contains name then some .value
  else f.flags.findSome? fun (on, off) =>
    if on = name then some (.flag on true) else if off = name then some (.flag on false) else none

/-- The name in a word and the value after an equals sign. -/
def cutValue (word : String) : String × Option String :=
  let cs := word.toList
  let name := cs.takeWhile (· != '=')
  match cs.drop name.length with
  | [] => (word, none)
  | _ :: value => (String.ofList name, some (String.ofList value))

/-- Whether a word is an option by its form. -/
def isOption (word : String) : Bool :=
  Text.startsWith "-" word.toList && word != "-"

/-- Read the words of a command line up to two hyphens: what is given and the words that are left.
    `anywhere` tells whether options may come after other words, and an option may wait for its value. -/
def readWords (f : Form) (anywhere : Bool) :
    Option String → Given → List String → Option (Given × List String)
  | some name, g, value :: rest =>
    readWords f anywhere none { g with options := g.options ++ [(name, value)] } rest
  | some _, _, [] => none
  | none, g, [] => some (g, [])
  | none, g, word :: rest =>
    if word = "--" then some (g, rest)
    else if isOption word then
      let (name, value) := cutValue word
      match f.role? name, value with
      | some .value, some v =>
        readWords f anywhere none { g with options := g.options ++ [(name, v)] } rest
      | some .value, none => readWords f anywhere (some name) g rest
      | some (.flag on set), none =>
        readWords f anywhere none { g with flags := g.flags ++ [(on, set)] } rest
      | _, _ => none
    else if anywhere then readWords f anywhere none { g with words := g.words ++ [word] } rest
    else some (g, word :: rest)

/-- Read all words of a command line, or nothing if they do not fit. -/
def Form.read? (f : Form) (words : List String) : Option Given := do
  let (g, rest) ← readWords f true none {} words
  let g := { g with words := g.words ++ rest }
  if f.words < g.words.length then none else return g

end Folio.CommandLine

import Folio.Calendar
import Folio.Number.Binary64
import Folio.Text.Point

set_option autoImplicit false

/-! # Values

The header of a page holds data of many kinds: numbers, text, dates, and lists, sets and mappings of
data. A mapping keeps the order of its keys, and a key is found again by what it is equal to: numbers
and truth values by their number, moments by their place in time. -/

namespace Folio

/-- What is held in memory and has no form in a file. -/
inductive Unwritable where
  /-- A value that contains this very place. -/
  | cycle
  /-- A text with halves. -/
  | text (t : Text.Broken)
deriving Repr

/-- A value. -/
inductive Value where
  | null
  | bool (b : Bool)
  | int (n : Int)
  | float (x : Binary64)
  | string (s : String)
  | bytes (bs : List UInt8)
  | date (d : Date)
  | dateTime (m : DateTime)
  | list (items : List Value)
  /-- Two values that belong together, such as an entry of an ordered mapping. -/
  | pair (first second : Value)
  /-- A set, with its members in the order in which they were put into it. -/
  | set (items : List Value)
  | map (entries : List (Value × Value))
  | unwritable (what : Unwritable)
deriving Repr, Inhabited

namespace Value

/-- The pattern for a value that has no form in a file, whatever keeps it from one. -/
@[match_pattern]
abbrev cycle {what : Unwritable} : Value := unwritable what

/-- The value that a text is. -/
def ofPoints (ps : List Text.Point) : Value :=
  match Text.ofPoints ps with
  | .ok s => string s
  | .error t => unwritable (.text t)

/-- Whether a value is a text with halves. -/
def isBroken : Value → Bool
  | unwritable (.text _) => true
  | _ => false

/-- Whether a value is a text. -/
def isText : Value → Bool
  | string _ => true
  | v => v.isBroken

/-- The name of a value's kind. -/
def kindName : Value → String
  | null => "NoneType"
  | bool _ => "bool"
  | int _ => "int"
  | float _ => "float"
  | string _ | unwritable (.text _) => "str"
  | bytes _ => "bytes"
  | date _ => "date"
  | dateTime _ => "datetime"
  | list _ | unwritable .cycle => "list"
  | pair _ _ => "tuple"
  | set _ => "set"
  | map _ => "dict"

/-- The full name of a value's kind. -/
def fullKindName : Value → String
  | date _ => "datetime.date"
  | dateTime _ => "datetime.datetime"
  | v => v.kindName

/-- The integer that a value is equal to, if there is one. -/
def integer? : Value → Option Int
  | bool b => some (if b then 1 else 0)
  | int n => some n
  | float x => x.toInt?
  | _ => none

/-- Whether two simple values are equal as keys. Not a number is equal to itself here. -/
def sameKey (a b : Value) : Bool :=
  match a.integer?, b.integer? with
  | some m, some n => m == n
  | some _, none | none, some _ => false
  | none, none =>
    match a, b with
    | null, null => true
    | float x, float y => x == y
    | string s, string t => s == t
    | unwritable (.text s), unwritable (.text t) => s == t
    | bytes s, bytes t => s == t
    | date d, date e => d == e
    | dateTime m, dateTime n => m.sameMoment n
    | _, _ => false

/-- The kind of the part of a value that keeps it from being a key, if there is one. -/
def unhashable? : Value → Option String
  | list items => some (kindName (list items))
  | set items => some (kindName (set items))
  | map entries => some (kindName (map entries))
  | unwritable .cycle => some (kindName (unwritable .cycle))
  | pair a b => a.unhashable?.or b.unhashable?
  | _ => none

/-! ## Mappings -/

/-- The value for a key. -/
def lookUp (key : Value) : List (Value × Value) → Option Value
  | [] => none
  | (k, v) :: rest => if k.sameKey key then some v else lookUp key rest

/-- Set the value for a key. A key that is there keeps its place and its spelling. -/
def insert (key value : Value) : List (Value × Value) → List (Value × Value)
  | [] => [(key, value)]
  | (k, v) :: rest => if k.sameKey key then (k, value) :: rest else (k, v) :: insert key value rest

/-- A mapping from entries in order; later ones win. -/
def mapOf (entries : List (Value × Value)) : List (Value × Value) :=
  entries.foldl (fun m (k, v) => insert k v m) []

/-- The value for a name. -/
def field? (name : String) (entries : List (Value × Value)) : Option Value :=
  lookUp (string name) entries

/-! ## Sets -/

mutual

/-- A value whose sets hold their members in some order. The members are keys, so they hold no sets
    themselves. -/
def arranged (order : List Value → List Value) : Value → Value
  | list items => list (arrangedAll order items)
  | pair a b => pair (arranged order a) (arranged order b)
  | set members => set (order members)
  | map entries => map (arrangedEntries order entries)
  | v => v

/-- Some values whose sets hold their members in some order. -/
def arrangedAll (order : List Value → List Value) : List Value → List Value
  | [] => []
  | v :: rest => arranged order v :: arrangedAll order rest

/-- Some entries whose sets hold their members in some order. -/
def arrangedEntries (order : List Value → List Value) : List (Value × Value) → List (Value × Value)
  | [] => []
  | (k, v) :: rest => (k, arranged order v) :: arrangedEntries order rest

end

/-- Whether a value counts as something rather than nothing. -/
def isTruthy : Value → Bool
  | null => false
  | bool b => b
  | int n => n != 0
  | float x => !Binary64.valueEq x Binary64.zero
  | string s => s != ""
  | bytes bs => !bs.isEmpty
  | list items => !items.isEmpty
  | set items => !items.isEmpty
  | map entries => !entries.isEmpty
  | date _ | dateTime _ | pair _ _ | unwritable _ => true

end Value

end Folio

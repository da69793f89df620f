import Folio.Number.Written
import Folio.Text.Utf8
import Folio.Value.Literal

set_option autoImplicit false

/-! # Plain data

Data that every program can read: what JSON has, the numbers that are not finite, and texts with halves. The
header of a page becomes plain data when the page is compiled; dates, times and bytes become text then, and sets
become lists of their members as they stand. The names of an object are different from each other, in the order in which they came. -/

namespace Folio

/-- Plain data. -/
inductive Json where
  | null
  | bool (b : Bool)
  | int (n : Int)
  | float (x : Binary64)
  | string (s : String)
  | broken (t : Text.Broken)
  | array (items : List Json)
  | object (members : List (String × Json))
deriving Repr, Inhabited

namespace Json

/-- Set a member of an object. A name that is there keeps its place. -/
def put (name : String) (value : Json) : List (String × Json) → List (String × Json)
  | [] => [(name, value)]
  | (n, v) :: rest => if n = name then (n, value) :: rest else (n, v) :: put name value rest

/-- The members of an object; of several with one name the last counts. -/
def membersOf (members : List (String × Json)) : List (String × Json) :=
  members.foldl (fun m (name, value) => put name value m) []

/-- The data that a text is. -/
def ofPoints (ps : List Text.Point) : Json :=
  match Text.ofPoints ps with
  | .ok s => string s
  | .error t => broken t

/-! ## Values as plain data -/

/-- Why a value has no form as plain data. -/
inductive Unplain where
  /-- It contains itself. -/
  | cycle
  /-- It has bytes that are no text; they end to be one at a place. -/
  | bytes (place : Nat) (byte : UInt8)
  /-- It has an integer for a key that has too many digits for a name. -/
  | hugeKey
  /-- It has a text with halves for a key. -/
  | brokenKey (t : Text.Broken)
deriving Repr, DecidableEq

/-- Whether an integer has more digits than are written in reasonable time. -/
def isHuge (n : Int) : Bool :=
  Nat.pow 10 maxDigits ≤ n.natAbs

/-- The text that reports an integer that is not written. -/
def hugeIntegerMessage : String :=
  "Exceeds the limit (" ++ toString maxDigits ++ " digits) for integer string conversion; " ++
    "use sys.set_int_max_str_digits() to increase the limit"

/-- The text that reports the cause. -/
def Unplain.message : Unplain → String
  | cycle => "Circular reference detected (id repeated)"
  | bytes place byte =>
    "'utf-8' codec can't decode byte 0x" ++ String.ofList (Text.hexDigits 2 byte.toNat) ++
      " in position " ++ toString place ++ ": invalid utf-8"
  | hugeKey => hugeIntegerMessage
  | brokenKey t => t.report

/-- A moment as text, with the letter Z for universal time. -/
def momentText (m : DateTime) : String :=
  match m.offset with
  | some 0 => DateTime.toText { m with offset := none } ++ "Z"
  | _ => m.toText

/-- Bytes as text. -/
def bytesText (bs : List UInt8) : Except Unplain String :=
  match Text.decodeUtf8 bs with
  | .ok cs => .ok (String.ofList cs)
  | .error e => .error (.bytes e.first e.byte)

/-- A key as a name. -/
def nameOf : Value → Except Unplain String
  | .null => .ok "None"
  | .bool b => .ok (if b then "true" else "false")
  | .string s => .ok s
  | .unwritable (.text t) => .error (.brokenKey t)
  | .bytes bs => bytesText bs
  | .date d => .ok d.toText
  | .dateTime m => .ok (momentText m)
  | .int n => if isHuge n then .error .hugeKey else .ok (toString n)
  | .pair a b => do return (← nameOf a) ++ "," ++ (← nameOf b)
  | v => .ok v.literal

mutual

/-- A value as plain data. -/
def ofValue : Value → Except Unplain Json
  | .null => .ok .null
  | .bool b => .ok (.bool b)
  | .int n => .ok (.int n)
  | .float x => .ok (.float x)
  | .string s => .ok (.string s)
  | .bytes bs => (bytesText bs).map .string
  | .date d => .ok (.string d.toText)
  | .dateTime m => .ok (.string (momentText m))
  | .list items => (ofValues items).map .array
  | .set items => (ofValues items).map .array
  | .pair a b => do return .array [← ofValue a, ← ofValue b]
  | .map entries => (ofEntries entries).map fun members => .object (membersOf members)
  | .unwritable .cycle => .error .cycle
  | .unwritable (.text t) => .ok (.broken t)

/-- Some values as plain data. -/
def ofValues : List Value → Except Unplain (List Json)
  | [] => .ok []
  | v :: rest => do return (← ofValue v) :: (← ofValues rest)

/-- The entries of a mapping as members of an object. -/
def ofEntries : List (Value × Value) → Except Unplain (List (String × Json))
  | [] => .ok []
  | (k, v) :: rest => do
    let name ← nameOf k
    let value ← ofValue v
    return (name, value) :: (← ofEntries rest)

end

/-! ## Plain data as values -/

mutual

/-- Plain data as a value. -/
def toValue : Json → Value
  | null => .null
  | bool b => .bool b
  | int n => .int n
  | float x => .float x
  | string s => .string s
  | broken t => .unwritable (.text t)
  | array items => .list (toValues items)
  | object members => .map (toEntries members)

/-- Some plain data as values. -/
def toValues : List Json → List Value
  | [] => []
  | j :: rest => toValue j :: toValues rest

/-- The members of an object as entries of a mapping. -/
def toEntries : List (String × Json) → List (Value × Value)
  | [] => []
  | (name, j) :: rest => (.string name, toValue j) :: toEntries rest

end

end Json

end Folio

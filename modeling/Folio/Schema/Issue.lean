import Folio.Text.Utf8
import Folio.Value.Literal

set_option autoImplicit false

/-! # Issues

What is wrong with data, and where in it. An issue has a code for programs, a message for readers, and
the value that is wrong. -/

namespace Folio.Schema

/-- A step from a value to a part of it. -/
inductive Step where
  | key (name : String)
  | index (n : Int)
deriving Repr, DecidableEq

/-- A step in a path. -/
def Step.text : Step → String
  | key name => name
  | index n => toString n

/-- What is wrong with a value. -/
inductive Defect where
  | missing
  | notText
  /-- Bytes that are no text. -/
  | undecodable
  | tooShort (least : Nat)
  /-- A text that is none of some words, given as a pattern. -/
  | noMatch (words : List String)
  /-- A value that is none of some words. -/
  | notOneOf (words : List String)
  | notAFlag
  /-- A value that could be a flag, but is none. -/
  | unclearFlag
  | notAnInteger
  | unclearInteger
  /-- A text of an integer with too many digits. -/
  | hugeInteger
  | fraction
  | notFinite
  | tooSmall (least : Int)
  | tooLarge (most : Int)
  | notAList
  | notATuple
  | notAMapping
  | notARecord (name : String)
  | notAKey
  | notAMoment
  | unclearMoment (reason : String)
  /-- A text that is neither a moment nor a date. -/
  | unclearDate (reason : String)
deriving Repr, DecidableEq

/-- Words in quotes, the last one after "or". -/
def listWords (words : List String) : String :=
  match (words.map fun w => "'" ++ w ++ "'").reverse with
  | [] => ""
  | [w] => w
  | last :: before => ", ".intercalate before.reverse ++ " or " ++ last

namespace Defect

/-- The code of a defect. -/
def code : Defect → String
  | missing => "missing"
  | notText => "string_type"
  | undecodable => "string_unicode"
  | tooShort _ => "string_too_short"
  | noMatch _ => "string_pattern_mismatch"
  | notOneOf _ => "literal_error"
  | notAFlag => "bool_type"
  | unclearFlag => "bool_parsing"
  | notAnInteger => "int_type"
  | unclearInteger => "int_parsing"
  | hugeInteger => "int_parsing_size"
  | fraction => "int_from_float"
  | notFinite => "finite_number"
  | tooSmall _ => "greater_than_equal"
  | tooLarge _ => "less_than_equal"
  | notAList => "list_type"
  | notATuple => "tuple_type"
  | notAMapping => "dict_type"
  | notARecord _ => "model_type"
  | notAKey => "invalid_key"
  | notAMoment => "datetime_type"
  | unclearMoment _ => "datetime_parsing"
  | unclearDate _ => "datetime_from_date_parsing"

/-- The message of a defect. -/
def message : Defect → String
  | missing => "Field required"
  | notText => "Input should be a valid string"
  | undecodable => "Input should be a valid string, unable to parse raw data as a unicode string"
  | tooShort least =>
    "String should have at least " ++ toString least ++ " character" ++ (if least = 1 then "" else "s")
  | noMatch words => "String should match pattern '^(" ++ "|".intercalate words ++ ")$'"
  | notOneOf words => "Input should be " ++ listWords words
  | notAFlag => "Input should be a valid boolean"
  | unclearFlag => "Input should be a valid boolean, unable to interpret input"
  | notAnInteger => "Input should be a valid integer"
  | unclearInteger => "Input should be a valid integer, unable to parse string as an integer"
  | hugeInteger => "Unable to parse input string as an integer, exceeded maximum size"
  | fraction => "Input should be a valid integer, got a number with a fractional part"
  | notFinite => "Input should be a finite number"
  | tooSmall least => "Input should be greater than or equal to " ++ toString least
  | tooLarge most => "Input should be less than or equal to " ++ toString most
  | notAList => "Input should be a valid list"
  | notATuple => "Input should be a valid tuple"
  | notAMapping => "Input should be a valid dictionary"
  | notARecord name => "Input should be a valid dictionary or instance of " ++ name
  | notAKey => "Keys should be strings"
  | notAMoment => "Input should be a valid datetime"
  | unclearMoment reason => "Input should be a valid datetime, " ++ reason
  | unclearDate reason => "Input should be a valid datetime or date, " ++ reason

end Defect

/-- A defect and where it is. -/
structure Issue where
  path : List Step
  defect : Defect
  input : Value
deriving Repr

/-- The issue seen from a step further out. -/
def Issue.under (step : Step) (issue : Issue) : Issue :=
  { issue with path := step :: issue.path }

/-- The path of an issue. -/
def Issue.pathText (issue : Issue) : String :=
  ".".intercalate (issue.path.map Step.text)

/-! ## Reports -/

/-- How many bytes of a value's spelling a report shows. -/
def shownBytes : Nat := 50

/-- The longest front of a text that has so many bytes at most. -/
def takeBytes : Nat → List Char → List Char
  | _, [] => []
  | limit, c :: cs => if c.utf8Size ≤ limit then c :: takeBytes (limit - c.utf8Size) cs else []

/-- The spelling of a value, without its middle if it is long. -/
def shorten (text : String) : String :=
  if text.utf8ByteSize ≤ shownBytes then text
  else
    let cs := text.toList
    String.ofList (takeBytes (shownBytes / 2) cs) ++ "..." ++
      String.ofList (takeBytes (shownBytes / 2 - 1) cs.reverse).reverse

/-- Data that a record refuses. -/
structure Refusal where
  record : String
  issues : List Issue
deriving Repr

/-- An issue in a report. -/
def Issue.report (issue : Issue) : String :=
  (if issue.path.isEmpty then "" else issue.pathText ++ "\n") ++ "  " ++ issue.defect.message ++
    " [type=" ++ issue.defect.code ++ ", input_value=" ++ shorten issue.input.literal ++
    ", input_type=" ++ issue.input.kindName ++ "]"

/-- The report of a refusal. -/
def Refusal.message (r : Refusal) : String :=
  let count := r.issues.length
  toString count ++ " validation error" ++ (if count = 1 then "" else "s") ++ " for " ++ r.record ++
    "\n" ++ "\n".intercalate (r.issues.map Issue.report)

end Folio.Schema

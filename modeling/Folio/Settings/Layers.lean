import Folio.Settings
import Folio.Yaml.Load

set_option autoImplicit false

/-! # Layers of settings

Settings come from a file in YAML, from variables of the environment, and from overrides; each layer
wins over the ones before it, field by field. A file without a value counts as empty. A variable holds
a text; for a field that is a list its text is cut at commas. -/

namespace Folio.Settings

open Schema

/-- The name of the file. -/
def fileName : String := "config.yaml"

/-- What the names of variables start with. -/
def variablePrefix : String := "MDCONTENT_"

/-- Why there are no settings. -/
inductive LayerError where
  /-- The file has no value; its text is needed to report why. -/
  | yaml (text : List Char) (cause : Yaml.LoadError)
  /-- A file with a value that takes no fields from variables. -/
  | notAssignable (value : Value)
  /-- A file with a value that takes no overrides. -/
  | notUpdatable (value : Value)
  /-- A file with a value that names no fields. -/
  | notAMapping (value : Value)
  /-- A file with a key that is no name. -/
  | keyNotText
  /-- Fields that have no proper form. -/
  | refused (cause : Refusal)
deriving Repr

/-- The text that reports the cause. -/
def LayerError.message : LayerError → String
  | yaml text cause =>
    if cause.isFormal then "Invalid " ++ fileName ++ ": " ++ cause.message text
    else cause.message text
  | notAssignable value =>
    match value with
    | .list _ => "list indices must be integers or slices, not str"
    | _ => "'" ++ value.fullKindName ++ "' object does not support item assignment"
  | notUpdatable value => "'" ++ value.fullKindName ++ "' object has no attribute 'update'"
  | notAMapping value =>
    "mdcontent.config.Settings() argument after ** must be a mapping, not " ++ value.fullKindName
  | keyNotText => "keywords must be strings"
  | refused cause => cause.message

/-! ## The layers -/

/-- The value in the file. -/
def fileValue (text : List Char) : Except LayerError Value :=
  match Yaml.load text with
  | .error cause => .error (.yaml text cause)
  | .ok v => .ok (if v.isTruthy then v else .map [])

/-- The name of the variable for a field. -/
def variableName (field : String) : String :=
  variablePrefix ++ String.ofList (field.toList.map Char.toUpper)

/-- The parts of a text between commas that are not blank, without blanks around them. -/
def cutAtCommas (text : String) : List String :=
  ((Text.cutAt ',' text.toList).map Text.trimBlanks).filterMap fun part =>
    if part.isEmpty then none else some (String.ofList part)

/-- Whether a field is a list. -/
def isList (f : Field) : Bool :=
  match f.absent with
  | some (.list _) => true
  | _ => false

/-- What the environment says about fields: a variable that is there and not empty. -/
def variableEntries (environment : List (String × String)) : List (String × Value) :=
  fields.filterMap fun (f, _) =>
    match environment.lookup (variableName f.name) with
    | none | some "" => none
    | some text =>
      some (f.name, if isList f then textsValue (cutAtCommas text) else .string text)

/-- Set some fields of a mapping. -/
def assign (entries : List (Value × Value)) (named : List (String × Value)) : List (Value × Value) :=
  named.foldl (fun m (name, v) => Value.insert (.string name) v m) entries

/-- Overrides that say something. -/
def saying (overrides : List (String × Value)) : List (String × Value) :=
  overrides.filter fun (_, v) => match v with
    | .null => false
    | _ => true

/-- The entries of a value after variables and overrides have been laid over it. Only a mapping takes
    them; a set takes more items, but is no mapping then. -/
def overlay (base : Value) (fromVariables overrides : List (String × Value)) :
    Except LayerError (List (Value × Value)) :=
  match base with
  | .map entries => .ok (assign (assign entries fromVariables) (saying overrides))
  | .set _ => .error (if fromVariables.isEmpty then .notAMapping base else .notAssignable base)
  | _ =>
    .error (if !fromVariables.isEmpty then .notAssignable base
      else if !overrides.isEmpty then .notUpdatable base
      else .notAMapping base)

/-- Settings from a file, which may be missing, an environment, and overrides. -/
def load (file : Option (List Char)) (environment : List (String × String))
    (overrides : List (String × Value)) : Except LayerError Settings := do
  let base ← match file with
    | some text => fileValue text
    | none => pure (.map [])
  let entries ← overlay base (variableEntries environment) overrides
  if !entries.all fun e => e.1.isText then throw .keyNotText
  (ofValue (.map entries)).mapError .refused

end Folio.Settings

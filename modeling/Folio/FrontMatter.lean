import Folio.Yaml.Load

set_option autoImplicit false

/-! # The header of a page

A page may begin with a header: data in YAML between two lines of three hyphens. What follows is its
body, and the part of the body before a separator line is its excerpt. -/

namespace Folio

/-- The parts of a page's source. -/
structure FrontMatter where
  /-- The data of the header, in order. -/
  entries : List (Value × Value)
  body : String
  excerpt : Option String
deriving Repr

/-- Why a header cannot be used. -/
inductive FrontMatterError where
  /-- The header has no value; its text is needed to report why. -/
  | yaml (header : List Char) (cause : Yaml.LoadError)
  /-- The header is a value of another kind. -/
  | notAMapping (kind : String)
deriving Repr

/-- The text that reports the cause. A scalar that is not what its tag says is reported as such. -/
def FrontMatterError.message : FrontMatterError → String
  | yaml header cause =>
    if cause.isFormal then "Invalid YAML frontmatter: " ++ cause.message header
    else cause.message header
  | notAMapping kind => "Invalid YAML frontmatter: expected a mapping, got " ++ kind

/-- Whether the text that reports the cause says what is wrong with the header. -/
def FrontMatterError.isExplained : FrontMatterError → Bool
  | yaml _ cause => cause.isExplained
  | notAMapping _ => true

/-! ## The lines around the header -/

/-- The rest after the end of a line. `atEnd` tells whether the text may end there instead. -/
def afterLineEnd? (atEnd : Bool) : List Char → Option (List Char)
  | '\n' :: rest => some rest
  | '\r' :: '\n' :: rest => some rest
  | [] => if atEnd then some [] else none
  | _ => none

/-- The characters that may follow the hyphens of a fence. -/
def isFenceBlank (c : Char) : Bool :=
  c == ' ' || c == '\t'

/-- The rest after a line of three hyphens and blanks. `atEnd` tells whether the text may end there
    instead. -/
def afterFence? (atEnd : Bool) (cs : List Char) : Option (List Char) :=
  (Text.dropPrefix? ['-', '-', '-'] cs).bind fun rest => afterLineEnd? atEnd (rest.dropWhile isFenceBlank)

/-- Cut at the first line of three hyphens: the text before it and the text after it. The flag says
    whether a line starts here. -/
def cutAtFence? : Bool → List Char → Option (List Char × List Char)
  | _, [] => none
  | lineStart, c :: cs =>
    match if lineStart then afterFence? true (c :: cs) else none with
    | some rest => some ([], rest)
    | none => (cutAtFence? (c == '\n') cs).map fun (header, body) => (c :: header, body)

/-- The header and the body of a text that has a header. -/
def header? (cs : List Char) : Option (List Char × List Char) :=
  (afterFence? false cs).bind (cutAtFence? true)

/-! ## The excerpt -/

/-- The lines before the first one that reads as a separator. -/
def linesBefore? (separator : List Char) : List (List Char) → Option (List (List Char))
  | [] => none
  | line :: lines =>
    if Text.trimBlanks line = separator then some []
    else (linesBefore? separator lines).map (line :: ·)

/-- The text before the separator line, without blanks around it. -/
def excerptOf (separator body : String) : Option String :=
  match linesBefore? separator.toList (Text.lines body.toList) with
  | none => none
  | some lines =>
    let text := Text.trimBlanks lines.flatten
    if text.isEmpty then none else some (String.ofList text)

/-! ## Splitting -/

/-- The data of a header. -/
def headerEntries (header : List Char) : Except FrontMatterError (List (Value × Value)) :=
  match Yaml.load header with
  | .error cause => .error (.yaml header cause)
  | .ok .null => .ok []
  | .ok (.map entries) => .ok entries
  | .ok value => .error (.notAMapping value.kindName)

/-- Take the source of a page apart. -/
def FrontMatter.split (text : String) (separator : String := "---") :
    Except FrontMatterError FrontMatter :=
  match header? text.toList with
  | none => .ok ⟨[], text, excerptOf separator text⟩
  | some (header, body) => do
    let body := String.ofList body
    return ⟨← headerEntries header, body, excerptOf separator body⟩

end Folio

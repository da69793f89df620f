import Folio.Text.Point
import Folio.Yaml.Cursor

set_option autoImplicit false

/-! # Tokens of YAML

The words and marks of a YAML text. Where blocks start and end is told by indentation; tokens without
text of their own say so. -/

namespace Folio.Yaml

/-- What a token is. -/
inductive TokenKind where
  | versionDirective (major minor : Nat)
  | tagDirective (handle start : List Char)
  | otherDirective
  | documentStart
  | documentEnd
  | textEnd
  | blockSequenceStart
  | blockMappingStart
  | blockEnd
  | flowSequenceStart
  | flowSequenceEnd
  | flowMappingStart
  | flowMappingEnd
  | key
  | value
  | blockEntry
  | flowEntry
  | nodeAlias (name : List Char)
  | anchor (name : List Char)
  /-- A tag: its handle, and what follows it. -/
  | tag (handle : Option (List Char)) (suffix : List Char)
  | scalar (text : List Text.Point) (plain : Bool)
deriving Repr, DecidableEq

/-- How reports name a token. -/
def TokenKind.text : TokenKind → String
  | versionDirective _ _ | tagDirective _ _ | otherDirective => "<directive>"
  | documentStart => "<document start>"
  | documentEnd => "<document end>"
  | textEnd => "<stream end>"
  | blockSequenceStart => "<block sequence start>"
  | blockMappingStart => "<block mapping start>"
  | blockEnd => "<block end>"
  | flowSequenceStart => "["
  | flowSequenceEnd => "]"
  | flowMappingStart => "\x7b"
  | flowMappingEnd => "\x7d"
  | key => "?"
  | value => ":"
  | blockEntry => "-"
  | flowEntry => ","
  | nodeAlias _ => "<alias>"
  | anchor _ => "<anchor>"
  | tag _ _ => "<tag>"
  | scalar _ _ => "<scalar>"

/-- A token and where it stands. -/
structure Token where
  kind : TokenKind
  start : Mark
  stop : Mark
deriving Repr, DecidableEq

end Folio.Yaml

import Folio.Render
import Folio.ReadingStats
import Folio.Schema.Content

set_option autoImplicit false

/-! # Settings

Where the sources of a site are, where its compiled pages go, and how pages are rendered and found. As
data, settings and options are records whose fields all have defaults; what is no field is dropped. In their
texts a character stands for each half. -/

namespace Folio

/-! ## Reading fields -/

namespace Schema

/-- A flag among the entries of a record. -/
def flagAt (name : String) (entries : List (Value × Value)) : Bool :=
  match Value.field? name entries with
  | some (.bool b) => b
  | _ => false

/-- A text among the entries of a record. -/
def textAt? (name : String) (entries : List (Value × Value)) : Option String :=
  match Value.field? name entries with
  | some (.string s) => some s
  | _ => none

/-- The texts of a list among the entries of a record. -/
def textsAt (name : String) (entries : List (Value × Value)) : List String :=
  match Value.field? name entries with
  | some (.list items) => items.filterMap fun v => match v with
    | .string s => some s
    | _ => none
  | _ => []

/-- An integer among the entries of a record. -/
def integerAt (name : String) (entries : List (Value × Value)) : Int :=
  match Value.field? name entries with
  | some (.int n) => n
  | _ => 0

/-- A text or null as a value. -/
def textValue (s : Option String) : Value :=
  match s with
  | some s => .string s
  | none => .null

/-- A list of texts as a value. -/
def textsValue (texts : List String) : Value :=
  .list (texts.map .string)

end Schema

open Schema

/-! ## Options -/

/-- The target with a name. -/
def LinkTarget.ofName? (name : String) : Option LinkTarget :=
  [blank, self].find? fun t => t.name == name

/-- The names of targets. -/
def LinkTarget.names : List String :=
  [blank.name, self.name]

namespace RenderOptions

/-- The form of options as data. -/
def shape : Shape :=
  .record "RenderOptions"
    [withDefault "sanitize" (.bool true) .flag, withDefault "allow_html" (.bool true) .flag,
      withDefault "generate_heading_ids" (.bool true) .flag,
      withDefault "external_link_target" (.string LinkTarget.blank.name)
        (.optional (.word LinkTarget.names)),
      withDefault "internal_hosts" (.list []) (.tuple .shown)]
    .drop false

/-- Options from entries that have the form of options. -/
def ofEntries (entries : List (Value × Value)) : RenderOptions where
  sanitize := flagAt "sanitize" entries
  allowHtml := flagAt "allow_html" entries
  generateHeadingIds := flagAt "generate_heading_ids" entries
  externalLinkTarget := (textAt? "external_link_target" entries).bind LinkTarget.ofName?
  internalHosts := textsAt "internal_hosts" entries

/-- Options from data. -/
def ofValue (input : Value) : Except Refusal RenderOptions :=
  (shape.accept input).map ofEntries

/-- Options as entries of a record. -/
def toEntries (o : RenderOptions) : List (Value × Value) :=
  [(.string "sanitize", .bool o.sanitize), (.string "allow_html", .bool o.allowHtml),
    (.string "generate_heading_ids", .bool o.generateHeadingIds),
    (.string "external_link_target", textValue (o.externalLinkTarget.map LinkTarget.name)),
    (.string "internal_hosts", textsValue o.internalHosts)]

end RenderOptions

/-! ## Settings -/

/-- The templates of keys that are tried in order. -/
def defaultKeyFormats : List String :=
  ["\x7balias\x7d/\x7bslug\x7d.md", "/content/\x7bslug\x7d.md"]

/-- The line that ends an excerpt unless another is given. -/
def defaultSeparator : String := "---"

/-- The settings of a site. -/
structure Settings where
  appName : String := "mdcontent"
  /-- The directory of the sources. -/
  contentRoot : String := "content"
  /-- What the keys of pages start with. -/
  contentAlias : String := "@content"
  /-- The directory of the compiled pages. -/
  outputDir : String := ".mdcontent/build"
  options : RenderOptions := {}
  keyFormats : List String := defaultKeyFormats
  wordsPerMinute : Int := defaultWordsPerMinute
  separator : String := defaultSeparator
  logLevel : String := "INFO"
deriving Repr, DecidableEq

namespace Settings

/-- The names of log levels. -/
def logLevels : List String :=
  ["DEBUG", "INFO", "WARNING", "ERROR", "CRITICAL"]

/-- The fields of settings as data. -/
def fields : List (Field × Shape) :=
  [withDefault "app_name" (.string "mdcontent") .shown,
    withDefault "content_root" (.string "content") .shown,
    withDefault "content_alias" (.string "@content") .shown,
    withDefault "output_dir" (.string ".mdcontent/build") .shown,
    withDefault "sanitize" (.bool true) .flag, withDefault "allow_html" (.bool true) .flag,
    withDefault "generate_heading_ids" (.bool true) .flag,
    withDefault "external_link_target" (.string LinkTarget.blank.name)
      (.optional (.matching LinkTarget.names)),
    withDefault "internal_hosts" (.list []) (.list .shown),
    withDefault "key_formats" (textsValue defaultKeyFormats) (.list .shown),
    withDefault "words_per_minute" (.int defaultWordsPerMinute) (.integer (some 1) none),
    withDefault "excerpt_separator" (.string defaultSeparator) (.text 1),
    withDefault "log_level" (.string "INFO") (.matching logLevels)]

/-- The form of settings as data. -/
def shape : Shape :=
  .record "Settings" fields .drop false

/-- Settings from entries that have the form of settings. -/
def ofEntries (entries : List (Value × Value)) : Settings where
  appName := (textAt? "app_name" entries).getD ""
  contentRoot := (textAt? "content_root" entries).getD ""
  contentAlias := (textAt? "content_alias" entries).getD ""
  outputDir := (textAt? "output_dir" entries).getD ""
  options := RenderOptions.ofEntries entries
  keyFormats := textsAt "key_formats" entries
  wordsPerMinute := integerAt "words_per_minute" entries
  separator := (textAt? "excerpt_separator" entries).getD ""
  logLevel := (textAt? "log_level" entries).getD ""

/-- Settings from data. -/
def ofValue (input : Value) : Except Refusal Settings :=
  (shape.accept input).map ofEntries

/-- Settings as entries of a record. -/
def toEntries (s : Settings) : List (Value × Value) :=
  [(.string "app_name", .string s.appName), (.string "content_root", .string s.contentRoot),
    (.string "content_alias", .string s.contentAlias), (.string "output_dir", .string s.outputDir)] ++
  s.options.toEntries ++
  [(.string "key_formats", textsValue s.keyFormats),
    (.string "words_per_minute", .int s.wordsPerMinute),
    (.string "excerpt_separator", .string s.separator), (.string "log_level", .string s.logLevel)]

end Settings

end Folio

import Folio.Schema.Content

set_option autoImplicit false

/-! # Filters

A collection of pages can be narrowed to a type, to some tags of which one is enough, and to a
category. Tags in a header are a list or a single text. -/

namespace Folio

/-- What the pages of a collection must have in their headers. -/
structure ContentFilters where
  contentType : Option String := none
  tags : List String := []
  category : Option String := none
deriving Repr, DecidableEq

namespace ContentFilters

/-- The form of filters as data. -/
def shape : Schema.Shape :=
  .record "ContentFilters"
    [Schema.optional "type" .shown,
      Schema.withDefault "tags" (.list []) (.list .shown),
      Schema.optional "category" .shown]
    .drop false

/-- A text in data. -/
def textOf? : Option Value → Option String
  | some (.string s) => some s
  | _ => none

/-- The texts of a list in data. -/
def textsOf : Option Value → List String
  | some (.list items) => items.filterMap fun v => textOf? (some v)
  | _ => []

/-- Filters from data. -/
def ofValue (input : Value) : Except Schema.Refusal ContentFilters := do
  let entries ← shape.accept input
  return ⟨textOf? (Value.field? "type" entries), textsOf (Value.field? "tags" entries),
    textOf? (Value.field? "category" entries)⟩

/-- Filters as data. -/
def toValue (f : ContentFilters) : Value :=
  let text (s : Option String) : Value := match s with
    | some s => .string s
    | none => .null
  .map [(.string "type", text f.contentType), (.string "tags", .list (f.tags.map .string)),
    (.string "category", text f.category)]

/-- Why a header cannot be matched: its tags are no tags. -/
inductive TagsError where
  /-- A value of a kind that holds nothing. -/
  | notIterable (kind : String)
  /-- A collection among the tags. -/
  | unhashable (kind : String)
deriving Repr, DecidableEq

/-- The text that reports the cause. -/
def TagsError.message : TagsError → String
  | notIterable kind => "'" ++ kind ++ "' object is not iterable"
  | unhashable kind => "unhashable type: '" ++ kind ++ "'"

/-- The tags of a header. -/
def tagsOf (header : List (Value × Value)) : Except TagsError (List Value) := do
  let tags := (Value.field? "tags" header).getD .null
  let items ←
    if !tags.isTruthy then pure []
    else match tags with
      | .string _ | .unwritable (.text _) => pure [tags]
      | .list items | .set items => pure items
      | .pair a b => pure [a, b]
      | .map entries => pure (entries.map (·.1))
      | .bytes bs => pure (bs.map fun b => .int b.toNat)
      | v => throw (.notIterable v.fullKindName)
  match items.findSome? Value.unhashable? with
  | some kind => throw (.unhashable kind)
  | none => return items

/-- Whether a header holds a text under a key. -/
def hasText (header : List (Value × Value)) (key text : String) : Bool :=
  textOf? (Value.field? key header) == some text

/-- Whether a header passes. -/
def isMatch (f : ContentFilters) (header : List (Value × Value)) : Except TagsError Bool := do
  if !f.contentType.all (hasText header "type") then return false
  if !f.tags.isEmpty then
    let own ← tagsOf header
    if !own.any fun v => (textOf? (some v)).any f.tags.contains then return false
  return f.category.all (hasText header "category")

end ContentFilters

end Folio

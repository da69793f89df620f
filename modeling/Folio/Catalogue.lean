import Folio.Template

set_option autoImplicit false

/-! # Catalogues

A catalogue holds the keys of all pages in order. A page is asked for by its slug, and the templates of
keys say under which keys it can be; the first of these that the catalogue holds is its key. The other
way round, the first template that fits a key gives the slug. -/

namespace Folio

/-- The keys of pages, and how they are found by slugs. -/
structure Catalogue where
  /-- What keys start with, without slashes at its end. -/
  keyStart : String
  formats : List String
  keys : List String
deriving Repr, DecidableEq

namespace Catalogue

/-- A catalogue; slashes at the end of what keys start with do not count. -/
def make (keyStart : String) (formats keys : List String) : Catalogue :=
  ⟨String.ofList (keyStart.toList.reverse.dropWhile (· == '/')).reverse, formats, keys⟩

/-- The key that a template makes of a slug. -/
def keyFrom (c : Catalogue) (format slug : String) : Except TemplateError String :=
  Template.fill format [("alias", c.keyStart), ("slug", slug)]

/-- The keys under which the page with a slug can be. -/
def candidates (c : Catalogue) (slug : String) : Except TemplateError (List String) :=
  c.formats.mapM fun format => c.keyFrom format slug

/-- The key of the page with a slug. -/
def keyFor (c : Catalogue) (slug : String) : Except TemplateError (Option String) := do
  return (← c.candidates slug).find? c.keys.contains

/-! ## From keys to slugs -/

/-- A character that no slug has; it marks the slug's place in a key. -/
def mark : Char := '\x00'

/-- The text of a key around the slug's place; all of it before, if the slug has no place. -/
def around (cs : List Char) : List Char × List Char :=
  let before := cs.takeWhile (· != mark)
  (before, cs.drop (before.length + 1))

/-- What stands between two texts, if it is not empty. -/
def between? (before after cs : List Char) : Option (List Char) := do
  let rest ← Text.dropPrefix? before cs
  let back ← Text.dropPrefix? after.reverse rest.reverse
  if back.isEmpty then none else return back.reverse

/-- The slug of a key that fits no template. -/
def plainSlug (key : List Char) : List Char :=
  let rest := key.dropWhile (· == '/')
  match Text.dropPrefix? ['d', 'm', '.'] rest.reverse with
  | some back => back.reverse
  | none => rest

/-- The slug of a key, by the first of some templates that fits it. -/
def slugBy (c : Catalogue) (key : List Char) : List String → Except TemplateError (List Char)
  | [] => .ok (plainSlug key)
  | format :: rest => do
    let (before, after) := around (← c.keyFrom format (String.ofList [mark])).toList
    match between? before after key with
    | some slug => return slug
    | none => c.slugBy key rest

/-- The slug of a key. -/
def slugFor (c : Catalogue) (key : String) : Except TemplateError String :=
  (c.slugBy key.toList c.formats).map String.ofList

/-- The slugs of all keys, in order. -/
def slugs (c : Catalogue) : Except TemplateError (List String) :=
  c.keys.mapM c.slugFor

end Catalogue

/-- A page that is not in a catalogue. -/
structure NotFound where
  slug : String
  /-- What there is instead, in order. -/
  available : List String
deriving Repr, DecidableEq

/-- A page that is not among others. -/
def NotFound.make (slug : String) (slugs : List String) : NotFound :=
  ⟨slug, slugs.mergeSort (fun a b => a < b || a == b)⟩

/-- The text that reports the page. -/
def NotFound.message (e : NotFound) : String :=
  let names := ", ".intercalate e.available
  "Content not found: " ++ e.slug ++ ". Available: " ++ (if names = "" then "(none)" else names)

/-- Something that a provider does not do. -/
structure Unsupported where
  operation : String
  provider : String
  reason : String := ""
deriving Repr, DecidableEq

/-- The text that reports the operation. -/
def Unsupported.message (e : Unsupported) : String :=
  e.operation ++ " not supported by " ++ e.provider ++
    (if e.reason = "" then "" else " - " ++ e.reason)

end Folio

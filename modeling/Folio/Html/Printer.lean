import Folio.Html.Node

set_option autoImplicit false

/-! # Writing trees of HTML

Attributes are written in the order of their names. In text the characters `&`, `<` and `>` are
escaped; a value is put in double quotes, or in single quotes if it holds a double quote and no
single one. -/

namespace Folio.Html

/-- Escape the characters that would read as markup. -/
def escapeText (s : String) : String :=
  String.ofList (s.toList.flatMap fun
    | '&' => "&amp;".toList
    | '<' => "&lt;".toList
    | '>' => "&gt;".toList
    | c => [c])

/-- A value in quotes. -/
def quoteValue (value : String) : String :=
  let escaped := (escapeText value).toList
  if escaped.contains '"' then
    if escaped.contains '\'' then
      "\"" ++ String.ofList (escaped.flatMap fun c => if c = '"' then "&quot;".toList else [c]) ++ "\""
    else "'" ++ String.ofList escaped ++ "'"
  else "\"" ++ String.ofList escaped ++ "\""

/-- The attributes of a tag, each after a space, in the order of their names. -/
def printAttributes (attributes : List (String × String)) : String :=
  let sorted := attributes.mergeSort fun a b => decide (a.1 ≤ b.1)
  String.join (sorted.map fun (name, value) => " " ++ name ++ "=" ++ quoteValue value)

mutual

/-- The text of a node. `raw` says that it stands in an element of raw text. -/
def Node.print (raw : Bool) : Node → String
  | .element name attributes children =>
    if children.isEmpty && isVoidElement name then "<" ++ name ++ printAttributes attributes ++ "/>"
    else
      "<" ++ name ++ printAttributes attributes ++ ">" ++
        printList (isRawTextElement name) children ++ "</" ++ name ++ ">"
  | .text content _ => if raw then content else escapeText content
  | .comment content => "<!--" ++ content ++ "-->"
  | .doctype content => "<!DOCTYPE " ++ content ++ ">\n"
  | .characterData content => "<![CDATA[" ++ content ++ "]]>"
  | .declaration content => "<?" ++ content ++ "?>"
  | .instruction content => "<?" ++ content ++ ">"

/-- The text of a list of nodes. -/
def printList (raw : Bool) : Forest → String
  | [] => ""
  | node :: rest => node.print raw ++ printList raw rest

end

/-- The text of a document. -/
def print (forest : Forest) : String :=
  printList false forest

end Folio.Html

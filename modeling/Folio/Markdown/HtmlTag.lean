import Folio.Text.Scan

set_option autoImplicit false

/-! # Tags in a Markdown text

What Markdown takes for HTML: tags whose attributes are well-formed, comments, declarations,
instructions and character data. Every reader gives the rest after what it recognises at the start of
a text. -/

namespace Folio.Markdown.HtmlTag

/-- Characters of the name of a tag after its first one. -/
def isTagNameChar (c : Char) : Bool :=
  Text.isAsciiAlphanumeric c || c == '-'

/-- Characters that start the name of an attribute. -/
def startsAttributeName (c : Char) : Bool :=
  Text.isAsciiLetter c || c == '_' || c == ':'

/-- Characters of the name of an attribute after its first one. -/
def isAttributeNameChar (c : Char) : Bool :=
  Text.isAsciiAlphanumeric c || c == '_' || c == ':' || c == '.' || c == '-'

/-- Characters of a value without quotes. -/
def isBareValueChar (c : Char) : Bool :=
  !("\"'=<>\x60".toList.contains c || c.toNat ≤ 0x20)

/-- The rest after the value of an attribute. -/
def afterValue? (cs : List Char) : Option (List Char) :=
  match cs with
  | '"' :: r => (Text.cutBefore? (· == '"') r).map fun (_, rest) => rest.drop 1
  | '\'' :: r => (Text.cutBefore? (· == '\'') r).map fun (_, rest) => rest.drop 1
  | r =>
    let value := r.takeWhile isBareValueChar
    if value.isEmpty then none else some (r.drop value.length)

/-- The rest after one attribute and the blanks before it. -/
def afterAttribute? (cs : List Char) : Option (List Char) :=
  match cs, Text.skipBlanks cs with
  | b :: _, c :: r =>
    if !Text.isBlank b || !startsAttributeName c then none
    else
      let afterName := r.dropWhile isAttributeNameChar
      match Text.skipBlanks afterName with
      | '=' :: r => some ((afterValue? (Text.skipBlanks r)).getD afterName)
      | _ => some afterName
  | _, _ => none

/-- The rest after all attributes. `fuel` is at least the length of the text. -/
def afterAttributes : Nat → List Char → List Char
  | 0, cs => cs
  | fuel + 1, cs =>
    match afterAttribute? cs with
    | some rest => afterAttributes fuel rest
    | none => cs

/-- The rest after a start tag. -/
def afterOpenTag? (cs : List Char) : Option (List Char) :=
  match cs with
  | '<' :: c :: r =>
    if !Text.isAsciiLetter c then none
    else
      let rest := r.dropWhile isTagNameChar
      match Text.skipBlanks (afterAttributes rest.length rest) with
      | '>' :: rest => some rest
      | '/' :: '>' :: rest => some rest
      | _ => none
  | _ => none

/-- The rest after an end tag. -/
def afterCloseTag? (cs : List Char) : Option (List Char) :=
  match cs with
  | '<' :: '/' :: c :: r =>
    if !Text.isAsciiLetter c then none
    else match Text.skipBlanks (r.dropWhile isTagNameChar) with
      | '>' :: rest => some rest
      | _ => none
  | _ => none

/-- The rest after the first place where a text occurs. -/
def afterFirst? (mark : String) (cs : List Char) : Option (List Char) :=
  (Text.cutAround? (Text.dropPrefix? mark.toList) cs).map (·.2)

/-- The rest after a comment, given what follows its opening mark. Hyphens are taken in pairs with the
    character after them, so three hyphens before the bracket do not close it. -/
def afterComment? : List Char → Option (List Char)
  | [] => none
  | '-' :: '-' :: '>' :: rest => some rest
  | '-' :: '-' :: _ :: rest => afterComment? rest
  | '-' :: c :: rest => if c = '-' then none else afterComment? rest
  | c :: rest => if c = '-' then none else afterComment? rest

/-- The rest after any piece of HTML. -/
def after? (cs : List Char) : Option (List Char) :=
  match afterOpenTag? cs with
  | some rest => some rest
  | none =>
    match afterCloseTag? cs with
    | some rest => some rest
    | none =>
      match cs with
      | '<' :: '!' :: '-' :: '-' :: '>' :: rest => some rest
      | '<' :: '!' :: '-' :: '-' :: '-' :: '>' :: rest => some rest
      | '<' :: '!' :: '-' :: '-' :: rest => afterComment? rest
      | '<' :: '?' :: rest => afterFirst? "?>" rest
      | '<' :: '!' :: '[' :: rest =>
        (Text.dropPrefix? "CDATA[".toList rest).bind (afterFirst? "]]>")
      | '<' :: '!' :: c :: rest => if Text.isAsciiLetter c then afterFirst? ">" rest else none
      | _ => none

/-- Whether a piece of HTML opens a link. -/
def opensLink (cs : List Char) : Bool :=
  match cs with
  | '<' :: a :: c :: _ => (a == 'a' || a == 'A') && (c == '>' || Text.isBlank c)
  | _ => false

/-- Whether a piece of HTML closes a link. -/
def closesLink (cs : List Char) : Bool :=
  match cs with
  | '<' :: '/' :: a :: rest => (a == 'a' || a == 'A') && (Text.skipBlanks rest).head? == some '>'
  | _ => false

/-! ## Blocks of HTML -/

/-- The elements whose tags begin a block of HTML that reaches to the next empty line. -/
def blockNames : List String :=
  ["address", "article", "aside", "base", "basefont", "blockquote", "body", "caption", "center",
    "col", "colgroup", "dd", "details", "dialog", "dir", "div", "dl", "dt", "fieldset",
    "figcaption", "figure", "footer", "form", "frame", "frameset", "h1", "h2", "h3", "h4", "h5",
    "h6", "head", "header", "hr", "html", "iframe", "legend", "li", "link", "main", "menu",
    "menuitem", "nav", "noframes", "ol", "optgroup", "option", "p", "param", "search", "section",
    "summary", "table", "tbody", "td", "tfoot", "th", "thead", "title", "tr", "track", "ul"]

/-- How far a block of HTML reaches. -/
inductive BlockKind where
  /-- To the line that holds one of some texts, letter case disregarded. -/
  | untilText (marks : List String)
  /-- To the next empty line. Whether it may follow a paragraph without an empty line. -/
  | untilEmpty (endsParagraph : Bool)
deriving Repr

/-- Whether the name of a tag at the start of a text is one of some names, letter case disregarded,
    and whether what follows it suits. -/
def startsWithName (names : List String) (suits : List Char → Bool) (cs : List Char) : Bool :=
  names.any fun name => Text.startsWithNoCase name cs && suits (cs.drop name.length)

/-- A blank, a bracket or the end. -/
def endsRawName (cs : List Char) : Bool :=
  match cs with
  | [] => true
  | c :: _ => Text.isBlank c || c == '>'

/-- A blank, a bracket, a slash with a bracket, or the end. -/
def endsBlockName (cs : List Char) : Bool :=
  match cs with
  | [] => true
  | '/' :: '>' :: _ => true
  | c :: _ => Text.isBlank c || c == '>'

/-- What kind of block of HTML a line begins. -/
def blockKind? (line : List Char) : Option BlockKind :=
  match line with
  | '<' :: rest =>
    if startsWithName ["script", "pre", "style", "textarea"] endsRawName rest then
      some (.untilText ["</script>", "</pre>", "</style>", "</textarea>"])
    else if Text.startsWith "!--" rest then some (.untilText ["-->"])
    else if Text.startsWith "?" rest then some (.untilText ["?>"])
    else if Text.startsWith "![CDATA[" rest then some (.untilText ["]]>"])
    else
      let declares : Bool := match rest with
        | '!' :: c :: _ => 'A' ≤ c && c ≤ 'Z'
        | _ => false
      let afterSlash := match rest with
        | '/' :: r => r
        | r => r
      if declares then some (.untilText [">"])
      else if startsWithName blockNames endsBlockName afterSlash then some (.untilEmpty true)
      else
        let tag := match afterOpenTag? line with
          | some rest => some rest
          | none => afterCloseTag? line
        match tag with
        | some rest => if rest.all Text.isBlank then some (.untilEmpty false) else none
        | none => none
  | _ => none

/-- Whether a block of HTML ends with a line. -/
def BlockKind.endsAt (kind : BlockKind) (line : List Char) : Bool :=
  match kind with
  | .untilEmpty _ => line.isEmpty
  | .untilText marks =>
    marks.any fun mark => (Text.cutBeforeMatch? (Text.startsWithNoCase mark) line).isSome

end Folio.Markdown.HtmlTag

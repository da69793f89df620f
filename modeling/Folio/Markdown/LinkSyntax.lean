import Folio.Markdown.Character

set_option autoImplicit false

/-! # The parts of a link as they are written

After the text of a link stand its destination and its title, each in one of several forms. The
readers take the text at a place and give what they found and the rest. -/

namespace Folio.Markdown.LinkSyntax

/-- The end of a destination in angle brackets, given what follows the first one: the destination as
    written, and the rest. -/
def cutBracketed? : List Char → Option (List Char × List Char)
  | [] => none
  | '>' :: rest => some ([], rest)
  | '\n' :: _ => none
  | '<' :: _ => none
  | '\\' :: c :: rest => (cutBracketed? rest).map fun (d, r) => ('\\' :: c :: d, r)
  | c :: rest => (cutBracketed? rest).map fun (d, r) => (c :: d, r)

/-- The end of a destination without brackets: the destination as written, and the rest. Parentheses
    must match; `depth` counts those that are open. Nothing if they nest too deep or stay open. -/
def cutPlain? : Nat → List Char → Option (List Char × List Char)
  | depth, [] => if depth = 0 then some ([], []) else none
  | depth, c :: rest =>
    let stop : Option (List Char × List Char) := if depth = 0 then some ([], c :: rest) else none
    let keep (depth : Nat) : Option (List Char × List Char) :=
      (cutPlain? depth rest).map fun (d, r) => (c :: d, r)
    if c.toNat ≤ 0x20 || c.toNat == 0x7F then stop
    else match c, rest with
      | '\\', ' ' :: _ => stop
      | '\\', e :: rest => (cutPlain? depth rest).map fun (d, r) => ('\\' :: e :: d, r)
      | '(', _ => if 32 ≤ depth then none else keep (depth + 1)
      | ')', _ => if depth = 0 then stop else keep (depth - 1)
      | _, _ => keep depth

/-- Read a destination: the address, and the rest. -/
def destination? (cs : List Char) : Option (List Char × List Char) :=
  match cs with
  | '<' :: rest => (cutBracketed? rest).map fun (d, r) => (unescape d, r)
  | _ =>
    match cutPlain? 0 cs with
    | some ([], _) => none
    | some (d, r) => some (unescape d, r)
    | none => none

/-- Cut at the mark that closes a title: the title as written, and the rest. A parenthesis must not
    open inside one that stands in parentheses. -/
def cutTitle? (close : Char) : List Char → Option (List Char × List Char)
  | [] => none
  | '\\' :: e :: rest => (cutTitle? close rest).map fun (t, r) => ('\\' :: e :: t, r)
  | c :: rest =>
    if c = close then some ([], rest)
    else if c = '(' ∧ close = ')' then none
    else (cutTitle? close rest).map fun (t, r) => (c :: t, r)

/-- Read a title: its text, and the rest. -/
def title? (cs : List Char) : Option (List Char × List Char) :=
  let read (close : Char) (rest : List Char) : Option (List Char × List Char) :=
    (cutTitle? close rest).map fun (t, r) => (unescape t, r)
  match cs with
  | '"' :: rest => read '"' rest
  | '\'' :: rest => read '\'' rest
  | '(' :: rest => read ')' rest
  | _ => none

/-- Skip spaces, tabs and line ends. -/
def skipGap (cs : List Char) : List Char :=
  cs.dropWhile fun c => isSpace c || c == '\n'

/-- What a definition says about a label. -/
structure Definition where
  /-- The label in the form in which labels are compared. -/
  label : List Char
  address : List Char
  title : List Char
deriving Repr

/-- The label at the start of a definition, after its bracket, and what follows the closing one. -/
def cutLabel? : List Char → Option (List Char × List Char)
  | [] => none
  | ']' :: rest => some ([], rest)
  | '[' :: _ => none
  | '\\' :: c :: rest => (cutLabel? rest).map fun (l, r) => ('\\' :: c :: l, r)
  | c :: rest => (cutLabel? rest).map fun (l, r) => (c :: l, r)

/-- Whether nothing but spaces stands before the end of the line. -/
def endsLine (cs : List Char) : Bool :=
  match cs.dropWhile isSpace with
  | [] => true
  | c :: _ => c == '\n'

end Folio.Markdown.LinkSyntax

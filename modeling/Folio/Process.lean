import Folio.Artifact

set_option autoImplicit false

/-! # Processes

What happens to a site depends on its files and on the process that works with them. A set has no order of
its own: a process goes through its members in some order, which another process may not share. And a module
that was not written by a build is a program like any other: what comes of it is for the process that runs
it to say. -/

namespace Folio

/-- A failure that a program raises. -/
structure Raised where
  /-- The name of its kind. -/
  kind : String
  message : String
  /-- Whether it is one of those that content is reported with. -/
  isOfContent : Bool := false
deriving Repr, DecidableEq

/-- What comes of running a module: an artifact of plain data, nothing of the kind, or a failure. -/
inductive Ran where
  | artifact (a : Artifact)
  | nothing
  | raises (failure : Raised)
deriving Repr

/-- A process. -/
structure Process where
  /-- The members of a set in the order in which the process goes through them, from the order in which they
      were put into it. -/
  order : List Value → List Value
  isOrder : ∀ members, (order members).Perm members
  /-- What comes of a module with a text that no build writes. -/
  run : List Char → Ran

/-- A process that goes through sets as they were filled and makes nothing of modules that no build writes. -/
def Process.plain : Process :=
  ⟨id, fun members => List.Perm.refl members, fun _ => .nothing⟩

instance : Inhabited Process := ⟨.plain⟩

end Folio

import Folio.Path
import Folio.Provider

set_option autoImplicit false

/-! # Watching sources

Changes of files come in batches. Those of sources are passed on, unless tools made them for themselves;
then the pages of the changed sources are dropped by the provider. A change outside of the root of the
sources has no page, so everything is dropped for it. -/

namespace Folio

/-! ## Which changes count -/

/-- Directories that tools keep for themselves. -/
def toolDirectories : List String :=
  ["__pycache__", ".git", ".hg", ".svn", ".tox", ".venv", ".idea", "node_modules", ".mypy_cache",
    ".pytest_cache", ".hypothesis"]

/-- What the names of files start with that tools keep beside sources. The endings of other such names
    are none of sources. -/
def toolBeginnings : List String :=
  [".#", "flycheck_"]

/-- Whether the change of a file counts: it is a source, and not a tool's. -/
def acceptsChange (path : String) : Bool :=
  let names := (Text.cutAt '/' (path.toList.dropWhile (· == '/'))).map String.ofList
  let name := names.getLast?.getD ""
  !names.any toolDirectories.contains && !toolBeginnings.any (fun b => Text.startsWith b name.toList) &&
    Path.endsAsSource path

/-! ## What changes do to a provider -/

/-- What is dropped for changed paths: slugs in order, and whether everything is dropped after them. -/
structure Invalidations where
  slugs : List String := []
  everything : Bool := false
deriving Repr, DecidableEq

/-- What is dropped for changed paths under a root. Nothing is looked at after a source outside of the
    root, as everything is dropped for it. -/
def invalidationsFor (home : Place) (root : Path) : List Path → Invalidations
  | [] => {}
  | p :: rest =>
    if !p.isSource then invalidationsFor home root rest
    else match p.relative? home root with
      | none => { everything := true }
      | some _ =>
        let more := invalidationsFor home root rest
        { more with slugs := pathSlug home p (some root) :: more.slugs }

/-- The calls that drop what is to be dropped; nothing stands for everything. -/
def Invalidations.calls (i : Invalidations) : List (Option String) :=
  i.slugs.map some ++ (if i.everything then [none] else [])

/-- The provider after invalidations. -/
def Provider.applyInvalidations {ε : Type} (p : Provider ε) (i : Invalidations) : Provider ε :=
  i.calls.foldl Provider.invalidate p

/-- Tell a provider of changed paths. -/
def Provider.notify {ε : Type} (p : Provider ε) (home : Place) (root : Path) (paths : List Path) :
    Provider ε :=
  p.applyInvalidations (invalidationsFor home root paths)

/-- The paths of a batch of changes that counts, in order and without repetition. -/
def changedPaths (paths : List String) : List Path :=
  (((paths.filter acceptsChange).map Path.ofText).mergeSort Path.comesFirst).eraseReps

end Folio

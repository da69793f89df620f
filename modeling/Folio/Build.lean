import Folio.Compile
import Folio.Manifest
import Folio.PageModule

set_option autoImplicit false

/-! # Building a site

A build compiles the sources below a directory, writes a module for each, and writes the manifest. A
source that does not compile is no reason to stop: the others are built, the manifest lists what was
built, and then the first failure is reported. After a change to one source it is enough to build that
one anew. -/

namespace Folio

/-- Why a page was not compiled. -/
inductive CompileCause where
  | source (cause : SourceError)
  | file (cause : FileError)
deriving Repr

/-- The text that reports the cause. -/
def CompileCause.message : CompileCause → String
  | source cause => cause.message
  | file cause => cause.message

/-- A page that was not compiled. -/
structure CompileError where
  path : String
  cause : CompileCause
deriving Repr

/-- The text that reports the failure. -/
def CompileError.message (e : CompileError) : String :=
  "Failed to compile " ++ e.path ++ ": " ++ e.cause.message

/-- Why a build ends. -/
inductive BuildError where
  | compile (cause : CompileError)
  /-- A source whose bytes are no text. -/
  | encoding (cause : Text.IllFormed)
  /-- A page with data that no module can hold. -/
  | emit (cause : PageModule.EmitError)
  | file (cause : FileError)
  | manifest (cause : ManifestError)
deriving Repr

/-- The text that reports the cause. -/
def BuildError.message : BuildError → String
  | compile cause => cause.message
  | encoding cause => cause.message
  | emit cause => cause.message
  | file cause => cause.message
  | manifest cause => cause.message

/-- A page that was built. -/
structure BuiltPage where
  source : Path
  module : Path
  key : String
  slug : String
deriving Repr, DecidableEq

/-- Where a build goes and how it is done. -/
structure BuildRules where
  root : Path
  out : Path
  keyStart : String := "@content"
  compiling : CompileRules := {}
deriving Repr

/-! ## Compiling files -/

/-- Compile a text that is the source at a path. -/
def compileText (rules : CompileRules) (tree : FileTree) (p : Path) (root : Option Path)
    (modified : DateTime) (text : String) : Except CompileError Artifact :=
  (compileSource rules (pathSlug tree.home p root) modified text tree.process.order).mapError
    fun e => ⟨p.text, .source e⟩

/-- Compile the source at a path. A file that cannot be read is a failure of the page, but bytes that
    are no text are not. -/
def compileFile (rules : CompileRules) (tree : FileTree) (p : Path) (root : Option Path) :
    Except BuildError Artifact :=
  match tree.readText p with
  | .error (.file e) => .error (.compile ⟨p.text, .file e⟩)
  | .error (.encoding e) => .error (.encoding e)
  | .ok (cs, modified) =>
    (compileText rules tree p root (FileTree.moment modified) (String.ofList cs)).mapError
      .compile

/-- The text of the module for a text that is the source at a path; nothing for a path that is no
    source. -/
def transformText (rules : CompileRules) (tree : FileTree) (path : String) (root : Option Path)
    (text : String) : Except BuildError (Option String) :=
  if !Path.endsAsSource path then .ok none
  else do
    let p := Path.ofText path
    let modified := match tree.find? p with
      | some (.file _ modified) => modified
      | _ => 0
    let artifact ← (compileText rules tree p root (FileTree.moment modified) text).mapError
      .compile
    (PageModule.emit artifact (sourceLabel (pathSlug tree.home p root))).map some |>.mapError .emit

/-! ## Building -/

/-- Work on files that may end early; what was done to the files stays. -/
abbrev Building := EStateM BuildError FileTree

namespace Building

/-- Work that reads files only. -/
def inspect {α : Type} (f : FileTree → Except BuildError α) : Building α := fun tree =>
  match f tree with
  | .ok a => .ok a tree
  | .error e => .error e tree

/-- Work that changes files, all or nothing. -/
def change (f : FileTree → Except FileError FileTree) : Building Unit := fun tree =>
  match f tree with
  | .ok tree => .ok () tree
  | .error e => .error (.file e) tree

/-- Work that changes files, perhaps in part. -/
def attempt (f : FileTree → Except (FileError × FileTree) FileTree) : Building Unit := fun tree =>
  match f tree with
  | .ok tree => .ok () tree
  | .error (e, tree) => .error (.file e) tree

/-- The result of some work, and the files after it. -/
def result {α : Type} (work : Building α) (tree : FileTree) : Except BuildError α × FileTree :=
  match work tree with
  | .ok a tree => (.ok a, tree)
  | .error e tree => (.error e, tree)

end Building

/-- The name of the module for a slug. -/
def moduleName (slug : String) : String :=
  slug ++ ".py"

/-- The place of the module for a slug, as a manifest lists it. -/
def modulePlace (slug : String) : String :=
  (Path.ofText (moduleName slug)).text

/-- The time of a file's last change. -/
def modifiedTime (tree : FileTree) (p : Path) : Int :=
  match tree.find? p with
  | some (.file _ modified) => modified
  | _ => 0

/-- Build one source. Its module bears the time of the source. -/
def buildOne (rules : BuildRules) (p : Path) : Building BuiltPage := do
  let artifact ← Building.inspect fun tree => compileFile rules.compiling tree p (some rules.root)
  let module := rules.out.join (.ofText (moduleName artifact.slug))
  let text ← Building.inspect fun _ =>
    (PageModule.emit artifact (sourceLabel artifact.slug)).mapError .emit
  Building.attempt fun tree => tree.writeWhole module text.toList (modifiedTime tree p)
  return ⟨p, module, keyFor rules.keyStart artifact.slug, artifact.slug⟩

/-- What has been done so far in a build: the pages built, and the failures. -/
structure BuildProgress where
  built : List BuiltPage := []
  failed : List CompileError := []

/-- Build some sources. One that does not compile does not stop the others. -/
def buildEach (rules : BuildRules) : List Path → Building BuildProgress
  | [] => return {}
  | p :: rest => fun tree =>
    match buildOne rules p tree with
    | .ok page tree =>
      (do let done ← buildEach rules rest; return { done with built := page :: done.built }) tree
    | .error (.compile e) tree =>
      (do let done ← buildEach rules rest; return { done with failed := e :: done.failed }) tree
    | .error e tree => .error e tree

/-- The modules of some pages. -/
def modulesOf (pages : List BuiltPage) : List (String × Json) :=
  pages.foldl (fun m page => Json.put page.key (.string (modulePlace page.slug)) m) []

/-- Build all sources and write the manifest of those that compile. -/
def build (rules : BuildRules) : Building (List BuiltPage) := do
  Building.change fun tree => tree.makeDirectories rules.out
  let sources ← Building.inspect fun tree => .ok (tree.sources rules.root)
  let done ← buildEach rules sources
  Building.change fun tree => Manifest.write tree rules.out (modulesOf done.built)
  match done.failed with
  | e :: _ => throw (.compile e)
  | [] => return done.built

/-! ## Building one source anew -/

/-- The path of a listed module. -/
def listedModule (out : Path) (place : Value) : Except BuildError Path :=
  match place with
  | .string s => .ok (out.join (.ofText s))
  | v => .error (.manifest (.notAPath v.kindName))

/-- Remove a file that may be gone. -/
def removeIfThere (tree : FileTree) (p : Path) : Except FileError FileTree :=
  match tree.remove p with
  | .error e => if e.fault = .missing then .ok tree else .error e
  | .ok tree => .ok tree

/-- Take a source that is gone out of a build, if it was built. -/
def dropSource (rules : BuildRules) (modules : List (Value × Value)) (p : Path) : Building Unit := do
  let slug ← Building.inspect fun tree => .ok (pathSlug tree.home p (some rules.root))
  let key := keyFor rules.keyStart slug
  match Value.field? key modules with
  | none | some .null => return
  | some place =>
    let module ← Building.inspect fun _ => listedModule rules.out place
    Building.change fun tree => removeIfThere tree module
    Building.change fun tree =>
      Manifest.write tree rules.out (Manifest.entriesOf (Manifest.erase key modules))

/-- Build one source anew, or take it out of the build if it is gone. -/
def buildFile (rules : BuildRules) (p : Path) : Building (Option BuiltPage) := do
  let modules ← Building.inspect fun tree => (Manifest.read tree rules.out).mapError .manifest
  let isThere ← Building.inspect fun tree => .ok (tree.doesExist p)
  if !isThere then
    dropSource rules modules p
    return none
  let page ← buildOne rules p
  Building.change fun tree =>
    Manifest.write tree rules.out
      (Manifest.entriesOf (Manifest.put page.key (modulePlace page.slug) modules))
  return some page

/-! ## Loading modules -/

/-- Why a module that can be read makes no artifact. -/
inductive Absence where
  | undefined (path : Path)
  | raised (failure : Raised)
deriving Repr, DecidableEq

/-- The text that reports the cause. -/
def Absence.message : Absence → String
  | undefined path => path.text ++ " does not define a ContentArtifact named 'artifact'"
  | raised failure => failure.message

/-- Why a module gives no artifact. -/
inductive ImportError where
  | read (cause : ReadError)
  /-- A module that makes no artifact. -/
  | noArtifact (absence : Absence)
deriving Repr

/-- The text that reports the cause. -/
def ImportError.message : ImportError → String
  | read cause => cause.message
  | noArtifact absence => absence.message

/-- The artifact that a module makes. What a build has written says which; any other module is run. -/
def importArtifact (tree : FileTree) (p : Path) : Except ImportError Artifact := do
  let (cs, _) ← (tree.readText p).mapError .read
  match PageModule.decode? cs with
  | some artifact => return artifact
  | none =>
    match tree.process.run cs with
    | .artifact artifact => return artifact
    | .nothing => throw (.noArtifact (.undefined p))
    | .raises failure => throw (.noArtifact (.raised failure))

end Folio

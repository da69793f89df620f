import Folio.Build
import Folio.Provider
import Folio.Settings
import Folio.Watch

set_option autoImplicit false

/-! # Servers

A server is a provider with loaders for its keys. A server of compiled pages runs the modules that a
manifest lists; a server of sources compiles each source when it is asked for. Loaders answer at once,
so a request is answered as soon as turns have been taken. -/

namespace Folio

/-- Why a loader gives no artifact. -/
inductive LoaderError where
  | importing (cause : ImportError)
  | building (cause : BuildError)
deriving Repr

/-- The text that reports the cause. -/
def LoaderError.message : LoaderError → String
  | importing cause => cause.message
  | building cause => cause.message

/-- Where the pages of a server come from. -/
inductive Backend where
  /-- Modules by keys. -/
  | compiled (modules : List (String × Path))
  /-- Sources by keys, below a directory. -/
  | sources (pages : List (String × Path)) (root : Path) (rules : CompileRules)
deriving Repr

/-- A provider with its loaders. -/
structure Server where
  backend : Backend
  provider : Provider LoaderError
deriving Repr

namespace Backend

/-- The keys of pages, in order. -/
def keys : Backend → List String
  | compiled modules => modules.map (·.1)
  | sources pages _ _ => pages.map (·.1)

/-- The name of the kind of a server. -/
def kindName : Backend → String
  | compiled _ => "PrecompiledContentProvider"
  | sources _ _ _ => "SourceContentProvider"

/-- The artifact for a key, from files as they are. -/
def load (tree : FileTree) (key : String) : Backend → Except LoaderError Artifact
  | compiled modules =>
    match modules.lookup key with
    | some module => (importArtifact tree module).mapError .importing
    | none => .error (.importing (.noArtifact (.undefined (.ofText key))))
  | sources pages root rules =>
    match pages.lookup key with
    | some p => (compileFile rules tree p (some root)).mapError .building
    | none => .error (.importing (.noArtifact (.undefined (.ofText key))))

/-- The server of some pages. -/
def serve (b : Backend) (keyStart : String) (formats : List String) : Server :=
  ⟨b, { catalogue := .make keyStart formats b.keys }⟩

end Backend

/-! ## Opening -/

/-- The text of a key in a manifest. -/
def keyText : Value → String
  | .string s => s
  | v => v.literal

/-- The modules that the manifest of a directory lists. -/
def listedModules (tree : FileTree) (out : Path) : Except BuildError (List (String × Path)) := do
  let entries ← (Manifest.read tree out).mapError .manifest
  entries.mapM fun (key, place) => do return (keyText key, ← listedModule out place)

/-- The sources below a directory by their keys; of several with one key the last counts. -/
def sourcePages (tree : FileTree) (root : Path) (keyStart : String) : List (String × Path) :=
  (tree.sources root).foldl
    (fun pages p =>
      let key := keyFor keyStart (pathSlug tree.home p (some root))
      if pages.any fun e => e.1 == key then
        pages.map fun e => if e.1 = key then (key, p) else e
      else pages ++ [(key, p)]) []

namespace Settings

/-- How pages are compiled. -/
def compileRules (s : Settings) : CompileRules :=
  ⟨s.options, s.wordsPerMinute, s.separator⟩

/-- How the site is built. -/
def buildRules (s : Settings) : BuildRules :=
  ⟨.ofText s.contentRoot, .ofText s.outputDir, s.contentAlias, s.compileRules⟩

end Settings

namespace Server

/-- Open a server of compiled pages, or of sources. -/
def start (tree : FileTree) (s : Settings) (fromSources : Bool) : Except BuildError Server := do
  let backend ←
    if fromSources then
      let root := Path.ofText s.contentRoot
      pure (Backend.sources (sourcePages tree root s.contentAlias) root s.compileRules)
    else (listedModules tree (.ofText s.outputDir)).map Backend.compiled
  return backend.serve s.contentAlias s.keyFormats

/-- What the loader for a key answers. -/
def answer (server : Server) (tree : FileTree) (key : String) (_ : Nat) : Answer LoaderError :=
  .now (server.backend.load tree key)

/-- The server with turns taken until there is nothing to do. -/
def drain (server : Server) (tree : FileTree) : Server :=
  { server with provider := server.provider.drain (server.answer tree) }

/-! ## Requests -/

/-- Why a request is not answered. -/
inductive RequestError where
  | load (cause : LoadError LoaderError)
  | unmatched (cause : ContentFilters.TagsError)
deriving Repr

/-- The text that reports the cause. -/
def RequestError.message : RequestError → String
  | load cause => cause.message LoaderError.message
  | unmatched cause => cause.message

/-- Load a page: what it gives, and the server after it. -/
def load (server : Server) (tree : FileTree) (slug : String) :
    Except RequestError Artifact × Server :=
  let id := server.provider.callers.length
  let server := Server.drain { server with provider := server.provider.request slug } tree
  let stage : Option (CallerStage LoaderError) := (server.provider.callers[id]?).map Caller.stage
  match stage with
  | some (.finished (.done a)) => (.ok a, server)
  | some (.finished (.failed e)) => (.error (.load e), server)
  | _ => (.error (.load (.notFound ⟨slug, []⟩)), server)

/-- Load all pages that pass some filters: what they give, and the server after it. -/
def loadAll (server : Server) (tree : FileTree) (filters : Option ContentFilters) :
    Except RequestError (List Artifact) × Server :=
  let id := server.provider.collections.length
  let server := Server.drain { server with provider := server.provider.requestAll filters } tree
  let stage : Option (CollectionStage LoaderError) :=
    (server.provider.collections[id]?).map Collection.stage
  match stage with
  | some (.finished (.done artifacts)) => (.ok artifacts, server)
  | some (.finished (.failed e)) => (.error (.load e), server)
  | some (.finished (.unmatched e)) => (.error (.unmatched e), server)
  | _ => (.ok [], server)

/-- Render the body of a page. Compiled pages are not rendered. -/
def render (server : Server) (options : Option RenderOptions) (body : String) :
    Except (Unsupported ⊕ RenderError) String :=
  match server.backend with
  | .compiled _ =>
    .error (.inl ⟨"render_markdown", server.backend.kindName, "content is precompiled"⟩)
  | .sources _ _ rules =>
    ((Folio.render (options.getD rules.options) body).mapError .inr).map RenderResult.html

/-- Check data against a schema. Compiled pages are checked elsewhere. -/
def validate (server : Server) (schema : Schema.Shape) (content : Value) :
    Except Unsupported Schema.Validation :=
  match server.backend with
  | .compiled _ =>
    .error ⟨"validate_content", server.backend.kindName,
      "validate with mdcontent.core.schemas at the call site"⟩
  | .sources _ _ _ => .ok (Schema.validate schema content)

/-- Drop a page, or all pages. -/
def invalidate (server : Server) (slug : Option String) : Server :=
  { server with provider := server.provider.invalidate slug }

end Server

/-! ## Rebuilding -/

/-- What became of a batch of changed sources: those that were built anew, and the failures. -/
structure Rebuilt where
  paths : List Path := []
  failed : List CompileError := []
deriving Repr

/-- Build changed sources anew. One that does not compile keeps its module, and the others are built. -/
def rebuildEach (rules : BuildRules) : List Path → Building Rebuilt
  | [] => return {}
  | p :: rest => fun tree =>
    match buildFile rules p tree with
    | .ok _ tree =>
      (do let more ← rebuildEach rules rest; return { more with paths := p :: more.paths }) tree
    | .error (.compile e) tree =>
      (do let more ← rebuildEach rules rest; return { more with failed := e :: more.failed }) tree
    | .error e tree => .error e tree

/-- Work through a batch of changed paths under a root: they are built anew first, if they are to be, so
    that what is loaded after it is dropped is fresh. -/
def processBatch (rebuilding : Option BuildRules) (root : Path) (paths : List Path) :
    Building (Rebuilt × Invalidations) := do
  let rebuilt ← match rebuilding with
    | some rules => rebuildEach rules paths
    | none => pure {}
  let home ← Building.inspect fun tree => .ok tree.home
  return (rebuilt, invalidationsFor home root paths)

/-! ## Sites -/

/-- A server that watches its sources. -/
structure Site where
  settings : Settings
  server : Server
deriving Repr

namespace Site

/-- Open a site. -/
def start (tree : FileTree) (s : Settings) (fromSources : Bool) : Except BuildError Site :=
  (Server.start tree s fromSources).map fun server => ⟨s, server⟩

/-- How changed sources are built anew; a server of sources needs no modules. -/
def rebuilding (site : Site) : Option BuildRules :=
  match site.server.backend with
  | .compiled _ => some site.settings.buildRules
  | .sources _ _ _ => none

/-- Apply a batch of changed paths. -/
def applyBatch (site : Site) (paths : List Path) : Building Site := do
  let (_, dropped) ← processBatch site.rebuilding (.ofText site.settings.contentRoot) paths
  let provider := site.server.provider.applyInvalidations dropped
  return { site with server := { site.server with provider := provider } }

/-- Close a site: nothing is cached or in flight any more. -/
def close (site : Site) : Site :=
  { site with server := { site.server with provider := site.server.provider.close } }

end Site

end Folio

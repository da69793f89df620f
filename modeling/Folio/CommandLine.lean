import Folio.CommandLine.Arguments
import Folio.Server
import Folio.Settings.Layers

set_option autoImplicit false

/-! # The command line

The commands build a site, watch it, list its pages, show and validate them, and render a single file.
A command works on a tree of files and an environment; what it does to the files, what it prints and how
it ends is its run. Failures that a command expects are reported as errors; others end it as they are. -/

namespace Folio.CommandLine

/-! ## Runs -/

/-- A failure that no command expects. -/
inductive Crash where
  | settings (cause : Settings.LayerError)
  | settingsFile (cause : ReadError)
  | build (cause : BuildError)
  | request (cause : Server.RequestError)
  | kind (cause : Schema.KindError)
  | render (cause : RenderError)
  | read (cause : ReadError)
  | header (cause : FrontMatterError)
deriving Repr

/-- The text that reports the failure. -/
def Crash.message : Crash → String
  | settings cause => cause.message
  | settingsFile cause => cause.message
  | build cause => cause.message
  | request cause => cause.message
  | kind cause => cause.message
  | render cause => cause.message
  | read cause => cause.message
  | header cause => cause.message

/-- How a command ends. -/
inductive Ending where
  | exit (status : Nat)
  /-- Words that fit no command. -/
  | usage
  | crash (cause : Crash)
deriving Repr

/-- What a command has done so far. -/
structure Screen where
  tree : FileTree
  output : List String := []
  errors : List String := []

/-- A run of a command, which may end early. -/
abbrev Run := EStateM Ending Screen

namespace Run

/-- Print a line. -/
def print (line : String) : Run Unit :=
  modify fun s => { s with output := s.output ++ [line] }

/-- Print a line for errors. -/
def complain (line : String) : Run Unit :=
  modify fun s => { s with errors := s.errors ++ [line] }

/-- Report an error with its cause and end. -/
def fail {α : Type} (message : String) (cause : Option String) : Run α := do
  complain ("Error: " ++ message)
  if let some cause := cause then complain ("  " ++ cause)
  throw (.exit 1)

/-- End with a failure that no command expects. -/
def crash {α : Type} (cause : Crash) : Run α :=
  throw (.crash cause)

/-- The files as they are. -/
def files : Run FileTree := do
  return (← get).tree

/-- Do some work on the files. -/
def build {α : Type} (work : Building α) : Run (Except BuildError α) := do
  let (result, tree) := work.result (← files)
  modify fun s => { s with tree := tree }
  return result

end Run

open Run

/-! ## Settings -/

/-- The settings for some overrides, or why there are none. -/
def readSettings (environment : List (String × String)) (overrides : List (String × Value))
    (tree : FileTree) : Except Crash Settings := do
  let file := Path.ofText Settings.fileName
  let text ←
    if tree.doesExist file then ((tree.readText file).map fun t => some t.1).mapError .settingsFile
    else pure none
  (Settings.load text environment overrides).mapError .settings

/-- The report of a failure to read settings, if it is one that commands expect. -/
def expected? : Crash → Option String
  | .settings e =>
    match e with
    | .notAssignable _ | .notUpdatable _ | .notAMapping _ | .keyNotText => none
    | .yaml _ cause => if cause.isExplained then some e.message else none
    | .refused _ => some e.message
  | .settingsFile (.encoding e) => some e.message
  | _ => none

/-- The settings for a command. -/
def settingsFor (environment : List (String × String)) (overrides : List (String × Value)) :
    Run Settings := do
  match readSettings environment overrides (← files) with
  | .ok s => return s
  | .error e =>
    match expected? e with
    | some message => fail message none
    | none => crash e

/-- An override with the value of an option. -/
def override (name : String) (value : Option String) : String × Value :=
  (name, Schema.textValue value)

/-! ## Commands -/

/-- Build a site and say what was built. -/
def buildSite (s : Settings) : Run Unit := do
  match ← Run.build (Folio.build s.buildRules) with
  | .error (.compile e) => fail "Build failed" (some e.message)
  | .error e => crash (.build e)
  | .ok pages =>
    for page in pages do
      print ("  " ++ page.source.text ++ " -> " ++ page.module.text)
    print ("Compiled " ++ toString pages.length ++ " document(s) to " ++ s.outputDir ++ "/")

/-- Build a site. -/
def buildCommand (environment : List (String × String)) (g : Given) : Run Unit := do
  let sanitize : Value := match g.flag? "--sanitize" with
    | some b => .bool b
    | none => .null
  buildSite (← settingsFor environment
    [override "content_root" g.words.head?, override "output_dir" (g.option? "--out-dir"),
      override "content_alias" (g.option? "--alias"), ("sanitize", sanitize)])

/-- A batch of changes as a watcher meets it: what has become of the files, the paths that changed, and
    whether watching is stopped then. -/
structure Batch where
  files : FileTree → FileTree
  paths : List String
  isLast : Bool := false

/-- Build changed sources anew and say which. -/
def rebuildBatch (s : Settings) (paths : List Path) : Run Unit := do
  match ← Run.build (rebuildEach s.buildRules paths) with
  | .error e => crash (.build e)
  | .ok done =>
    for e in done.failed do
      complain ("Error: " ++ e.message)
    for p in done.paths do
      print ("  rebuilt " ++ p.text)

/-- Work through batches of changes. -/
def watchBatches (s : Settings) : List Batch → Run Unit
  | [] => return
  | batch :: rest => do
    modify fun screen => { screen with tree := batch.files screen.tree }
    let paths := changedPaths batch.paths
    if !paths.isEmpty then rebuildBatch s paths
    if batch.isLast then print "Stopped."
    else watchBatches s rest

/-- The settings of a watch. -/
def watchSettings (environment : List (String × String)) (g : Given) : Run Settings :=
  settingsFor environment
    [override "content_root" g.words.head?, override "output_dir" (g.option? "--out-dir")]

/-- Build a site and watch it. -/
def watchCommand (environment : List (String × String)) (batches : List Batch) (g : Given) :
    Run Unit := do
  let s ← watchSettings environment g
  buildSite s
  print ("Watching " ++ s.contentRoot ++ "/ ...")
  watchBatches s batches

/-- The server of compiled pages. -/
def openServer (environment : List (String × String)) (g : Given) : Run Server := do
  let s ← settingsFor environment [override "output_dir" (g.option? "--out-dir")]
  match Server.start (← files) s false with
  | .ok server => return server
  | .error e => crash (.build e)

/-- The report of a failure to load a page, if it is one that commands expect. -/
def loadFailure? : Server.RequestError → Option String
  | .load (.notFound e) => some e.message
  | .load (.loader (.building (.compile e))) => some e.message
  | .load (.loader (.importing (.noArtifact (.raised failure)))) =>
    if failure.isOfContent then some failure.message else none
  | _ => none

/-- All pages that pass some filters. -/
def loadPages (server : Server) (filters : Option ContentFilters) : Run (List Artifact) := do
  match (server.loadAll (← files) filters).1 with
  | .ok artifacts => return artifacts
  | .error e =>
    match loadFailure? e with
    | some message => fail "Could not load content" (some message)
    | none => crash (.request e)

/-- Pages in the order of their slugs. -/
def bySlug (artifacts : List Artifact) : List Artifact :=
  artifacts.mergeSort fun a b => a.slug < b.slug || a.slug == b.slug

/-- Plain data as a list shows it: a text as it is, anything else spelled. -/
def shown : Json → List Text.Point
  | .string s => Text.points s.toList
  | .broken t => t.points
  | j => Text.points j.toValue.literal.toList

/-- The line of a page in a list, if it can be printed. -/
def listLine (a : Artifact) : Except Text.Broken String :=
  let type := (a.frontmatter.lookup "type").getD (.string "-")
  let title := (a.frontmatter.lookup "title").getD (.string "")
  Text.ofPoints (Text.points a.slug.toList ++ .char '\t' :: shown type ++ .char '\t' :: shown title)

/-- Print the line of a page. -/
def printLine (a : Artifact) : Run Unit :=
  match listLine a with
  | .ok line => print line
  | .error t => crash (.build (.emit (.brokenLine t)))

/-- Print the lines of some pages. -/
def printLines : List Artifact → Run Unit
  | [] => return
  | a :: rest => do
    printLine a
    printLines rest

/-- List pages. -/
def listCommand (environment : List (String × String)) (g : Given) : Run Unit := do
  let server ← openServer environment g
  let artifacts ← loadPages server
    (some ⟨g.option? "--type", g.all "--tag", g.option? "--category"⟩)
  if artifacts.isEmpty then
    print "No content found."
    throw (.exit 1)
  printLines (bySlug artifacts)

/-- Print a page, if it can be printed. -/
def printPage (a : Artifact) : Run Unit :=
  match Json.firstBrokenMember? a.frontmatter with
  | none => print a.exchangeText
  | some t => crash (.build (.emit (.brokenData t)))

/-- Show a page. -/
def showCommand (environment : List (String × String)) (g : Given) : Run Unit := do
  let server ← openServer environment g
  match (server.load (← files) (g.words.head?.getD "")).1 with
  | .ok a => printPage a
  | .error e =>
    match loadFailure? e with
    | some message => fail message none
    | none => crash (.request e)

/-- Check a page and say what is wrong with it: whether anything is. -/
def reportPage (a : Artifact) : Run Bool := do
  match a.validate with
  | .error e => crash (.kind e)
  | .ok (.accepted _ _) => return false
  | .ok v =>
    print (a.slug ++ ":")
    for line in v.messages do
      print ("  " ++ line)
    return true

/-- Check pages and count those with which something is wrong. -/
def reportPages : List Artifact → Run Nat
  | [] => return 0
  | a :: rest => do
    let isWrong ← reportPage a
    return (← reportPages rest) + isWrong.toNat

/-- Check all pages. -/
def validateCommand (environment : List (String × String)) (g : Given) : Run Unit := do
  let server ← openServer environment g
  let artifacts ← loadPages server none
  let wrong ← reportPages (bySlug artifacts)
  print ("Validated " ++ toString artifacts.length ++ " document(s), " ++ toString wrong ++ " invalid")
  if wrong ≠ 0 then throw (.exit 1)

/-- Render a file. -/
def renderCommand (g : Given) : Run Unit := do
  let p := Path.ofText (g.words.head?.getD "")
  let tree ← files
  if !tree.isFile p then throw .usage
  let flag (name : String) : Value := .bool ((g.flag? name).getD true)
  let options := RenderOptions.ofValue (.map
    [(.string "sanitize", flag "--sanitize"), (.string "allow_html", flag "--html"),
      (.string "generate_heading_ids", flag "--heading-ids"),
      (.string "external_link_target",
        .string ((g.option? "--link-target").getD LinkTarget.blank.name))])
  let cannot {α : Type} (cause : String) : Run α := fail ("Cannot render " ++ p.text) (some cause)
  match options with
  | .error e => cannot e.message
  | .ok options =>
    match tree.readText p with
    | .error (.encoding e) => cannot e.message
    | .error e => crash (.read e)
    | .ok (cs, _) =>
      match FrontMatter.split (String.ofList cs) with
      | .error e => if e.isExplained then cannot e.message else crash (.header e)
      | .ok parts =>
        match render options parts.body with
        | .ok page => print page.html
        | .error e => crash (.render e)

/-! ## Choosing a command -/

/-- The forms of the commands. -/
def forms : List (String × Form) :=
  [("build", { options := ["--out-dir", "--alias"], flags := [("--sanitize", "--no-sanitize")], words := 1 }),
    ("watch", { options := ["--out-dir"], words := 1 }),
    ("list", { options := ["--out-dir", "--type", "--category"], lists := ["--tag"] }),
    ("show", { options := ["--out-dir"], words := 1 }),
    ("validate", { options := ["--out-dir"] }),
    ("render",
      { options := ["--link-target"]
        flags := [("--sanitize", "--no-sanitize"), ("--html", "--no-html"),
          ("--heading-ids", "--no-heading-ids")]
        words := 1 })]

/-- The options that come before a command. -/
def commonForm : Form := { options := ["--log-level"] }

/-- The commands that need a word. -/
def needsWord (command : String) : Bool :=
  command == "show" || command == "render"

/-- Read the settings for the log, unless the level is given. Only a failure that no command expects
    ends the run here; others are met again by the command. -/
def checkLog (environment : List (String × String)) (g : Given) : Run Unit := do
  if (g.option? "--log-level").isNone then
    match readSettings environment [] (← files) with
    | .ok _ => return
    | .error e => if (expected? e).isNone then crash e

/-- A command with what it was given. -/
structure Request where
  command : String
  given : Given
deriving Repr, DecidableEq

/-- The request that the words of a command line make. -/
def readRequest (environment : List (String × String)) (words : List String) : Run Request := do
  match readWords commonForm false none {} words with
  | some (common, command :: rest) =>
    match forms.lookup command with
    | none => throw .usage
    | some form =>
      checkLog environment common
      match form.read? rest with
      | none => throw .usage
      | some g =>
        if needsWord command && g.words.isEmpty then throw .usage
        return ⟨command, g⟩
  | _ => throw .usage

/-- Answer a request. -/
def Request.perform (environment : List (String × String)) (batches : List Batch) (r : Request) :
    Run Unit :=
  match r.command with
  | "build" => buildCommand environment r.given
  | "watch" => watchCommand environment batches r.given
  | "list" => listCommand environment r.given
  | "show" => showCommand environment r.given
  | "validate" => validateCommand environment r.given
  | _ => renderCommand r.given

/-- Go on with a watch: work through another batch. Other requests are answered already. -/
def Request.resume (environment : List (String × String)) (batch : Batch) (r : Request) : Run Unit := do
  if r.command = "watch" then watchBatches (← watchSettings environment r.given) [batch]

/-- What a run has left. -/
structure Report where
  tree : FileTree
  output : String
  errors : String
  ending : Ending

/-- Some lines as a text. -/
def joinLines (lines : List String) : String :=
  String.join (lines.map (· ++ "\n"))

/-- Run something on a tree of files. -/
def Run.report (run : Run Unit) (tree : FileTree) : Report :=
  match run ⟨tree, [], []⟩ with
  | .ok _ s => ⟨s.tree, joinLines s.output, joinLines s.errors, .exit 0⟩
  | .error e s => ⟨s.tree, joinLines s.output, joinLines s.errors, e⟩

/-- Run a command line on a tree of files. -/
def report (environment : List (String × String)) (batches : List Batch) (tree : FileTree)
    (words : List String) : Report :=
  Run.report (do (← readRequest environment words).perform environment batches) tree

/-- Go on with the watch that a command line has begun. -/
def resume (environment : List (String × String)) (batch : Batch) (tree : FileTree)
    (words : List String) : Report :=
  Run.report (do (← readRequest environment words).resume environment batch) tree

/-- Whether a command line begins a watch. -/
def isWatch (words : List String) : Bool :=
  match readWords commonForm false none {} words with
  | some (_, command :: _) => command == "watch"
  | _ => false

end Folio.CommandLine

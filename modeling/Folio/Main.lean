import Folio.CommandLine

set_option autoImplicit false

/-! # The program

The command line works on a tree of files. The program reads the tree below the working directory, runs
the words that it was given on it, and brings what has changed back to the disk. A watch looks at the
tree again and again, and goes on with what has changed in the meantime. -/

namespace Folio.Program

/-! ## Files -/

/-- The entry on the disk at a place, with all that is below it. Directories that tools keep for
    themselves are left out, and so is what cannot be read. -/
partial def entriesAt (place : Place) (entry : IO.FS.DirEntry) : IO (List (Place × Entry)) := do
  let here := place ++ [entry.fileName]
  try
    let info ← entry.path.metadata
    match info.type with
    | .dir =>
      if toolDirectories.contains entry.fileName then return []
      let below ← (← entry.path.readDir).toList.mapM (entriesAt here)
      return (here, .directory) :: below.flatten
    | .file =>
      let bytes ← IO.FS.readBinFile entry.path
      let modified : Int := info.modified.sec * 1000000 + info.modified.nsec.toNat / 1000
      return [(here, .file bytes.toList modified)]
    | _ => return []
  catch _ => return []

/-- The tree of the files below the working directory. -/
def readTree : IO FileTree := do
  let directory ← IO.currentDir
  let tree := FileTree.empty (Path.ofText directory.toString).parts
  let entries ← (← directory.readDir).toList.mapM (entriesAt tree.home)
  return { tree with entries := tree.entries ++ entries.flatten }

/-- The text of a place. -/
def textOf (place : Place) : String :=
  Path.text ⟨true, place⟩

/-- Bring an entry to the disk. A file is written beside its place and moved there. -/
def writeEntry (place : Place) (entry : Entry) : IO Unit := do
  match entry with
  | .directory => IO.FS.createDirAll (textOf place)
  | .file bytes _ =>
    let draft := textOf place ++ ".draft"
    IO.FS.writeBinFile draft ⟨bytes.toArray⟩
    IO.FS.rename draft (textOf place)

/-- Bring the changes between two trees to the disk. -/
def writeChanges (old new : FileTree) : IO Unit := do
  for (place, entry) in new.entries do
    if old.entry? place ≠ some entry then writeEntry place entry
  for (place, _) in old.entries do
    if (new.entry? place).isNone then IO.FS.removeFile (textOf place)

/-- The files that differ between two trees, by their paths from the working directory. -/
def changesBetween (old new : FileTree) : List String :=
  let places := (old.entries ++ new.entries).filterMap fun e => match e.2 with
    | .file _ _ => some e.1
    | .directory => none
  (places.filter fun place => old.entry? place != new.entry? place).map fun place =>
    match Path.below? new.home place with
    | some names => Path.text ⟨false, names⟩
    | none => textOf place

/-! ## Running -/

/-- The environment's variables for settings. -/
def readEnvironment : IO (List (String × String)) := do
  let names := Settings.fields.map fun f => Settings.variableName f.1.name
  let values ← names.mapM fun name => do return (name, ← IO.getEnv name)
  return values.filterMap fun (name, value) => value.map fun text => (name, text)

/-- What is shown for words that fit no command. -/
def usage : String :=
  "Usage: [--log-level LEVEL] (build | watch | list | show | validate | render) [ARGUMENTS]"

/-- Show what a run has left, bring its changes to the disk, and give its status. -/
def conclude (old : FileTree) (report : CommandLine.Report) : IO UInt32 := do
  writeChanges old report.tree
  IO.print report.output
  (← IO.getStdout).flush
  IO.eprint report.errors
  match report.ending with
  | .exit status => return status.toUInt32
  | .usage =>
    IO.eprintln usage
    return 2
  | .crash cause =>
    IO.eprintln cause.message
    return 1

/-- How long a watch waits between two looks, in milliseconds. -/
def pause : UInt32 := 500

/-- Watch the tree until a batch of changes ends the watch. -/
partial def watch (environment : List (String × String)) (words : List String) (old : FileTree) :
    IO UInt32 := do
  IO.sleep pause
  let new ← readTree
  let paths := changesBetween old new
  if paths.isEmpty then watch environment words old
  else
    let report := CommandLine.resume environment ⟨id, paths, false⟩ new words
    let status ← conclude new report
    if status ≠ 0 then return status
    watch environment words (← readTree)

/-- Run the words of a command line. -/
def run (words : List String) : IO UInt32 := do
  let environment ← readEnvironment
  let tree ← readTree
  let status ← conclude tree (CommandLine.report environment [] tree words)
  if status = 0 ∧ CommandLine.isWatch words then watch environment words (← readTree)
  else return status

end Folio.Program

/-- Run the program. -/
def main (words : List String) : IO UInt32 :=
  Folio.Program.run words

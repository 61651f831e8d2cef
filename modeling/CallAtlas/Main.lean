import CallAtlas.Command
import CallAtlas.Source.Declarations

/-!
# The program

Works off the command line it is started with.  The settings file and the directories that its
arguments mention are read from disk beforehand, and what the command wrote is put on disk
afterwards.  No network and no grammar are linked in, so files are neither fetched nor parsed.
-/

namespace CallAtlas.Program

/-- An environment from which nothing can be fetched. -/
def offline : Environment where
  fetch := fun location => .error (.plain .network location)
  parser := Source.grammarParser {} (.error (.unavailable "no grammar is linked in"))

/-- The variables that commands look at. -/
def readVariables : IO Settings.Variables := do
  let names := ["HOME", "SOLGRAPH_HOME", "GITHUB_TOKEN"]
  let values ← names.mapM fun name => return (← IO.getEnv name).map fun value => (name, value)
  return values.filterMap id

/-- The path of a file as the operating system knows it. -/
def onDisk (fs : Files) (file : List String) : String :=
  if fs.working.isPrefixOf file then Text.join "/" ("." :: file.drop fs.working.length)
  else "/" ++ Text.join "/" file

/-- Notes the directories on the way to a path that exist. -/
def noteDirectories (fs : Files) (path : FilePath) : IO Files := do
  let start := fs.start path
  let fronts := (List.range path.segments.length).map fun n => start ++ path.segments.take (n + 1)
  let found ← fronts.filterM fun front => do
    try (← IO.FS.realPath (onDisk fs front)).isDir
    catch _ => return false
  return { fs with directories := fs.directories ++ found }

/-- Notes a file that exists. -/
def noteFile (fs : Files) (path : FilePath) : IO Files := do
  let fs ← noteDirectories fs path.parent
  let file := fs.start path ++ path.segments
  try
    let content ← IO.FS.readFile (onDisk fs file)
    return { fs with contents := fs.contents ++ [(file, content)] }
  catch _ => return fs

/-- Puts on disk what differs from `before`. -/
def store (before after : Files) : IO Unit := do
  for (file, content) in after.contents do
    if before.contentAt? file != some content then
      IO.FS.createDirAll (onDisk after file.dropLast)
      IO.FS.writeFile (onDisk after file) content

mutual

/-- The lines of a tree of labels, indented by level. -/
def treeLines (level : Nat) : Command.LabelTree → List String
  | .node label children =>
    (String.ofList (List.replicate (2 * level) ' ') ++ label) :: treesLines (level + 1) children

/-- The lines of trees of labels. -/
def treesLines (level : Nat) : List Command.LabelTree → List String
  | [] => []
  | t :: ts => treeLines level t ++ treesLines level ts

end

/-- What is shown, line by line. -/
def outputLines : Command.Output → List String
  | .line text => [text]
  | .table title columns rows => title :: (columns :: rows).map (Text.join "\t")
  | .panel title text => [title, text]
  | .tree labels => treeLines 0 labels

/-- The code with which the program ends. -/
def exitCode : Command.Ending → UInt32
  | .exit code => code.toUInt32
  | .usage _ => 2
  | _ => 1

/-- The place of a program whose settings file is at `path`, or why there is none. -/
def placeFor (vars : Settings.Variables) (files : Files) (path : FilePath) :
    Except String Command.Place := do
  let unusable := "The settings cannot be used."
  let sections ← (Settings.load Settings.Toml.format files path).1.mapError fun _ => unusable
  let settings ← (Settings.start vars sections).mapError fun e => e.message?.getD unusable
  return {
    env := offline
    vars := vars
    files := files
    now := ""
    importDepth := settings.importDepth
    callDepth := settings.callDepth
    includeSource := settings.includeSource }

/-- Shows what a command did, and puts what it wrote on disk. -/
def present (before : Files) (outcome : Command.Outcome) : IO UInt32 := do
  for shown in outcome.shown do
    for text in outputLines shown do
      IO.println text
  IO.print outcome.echoed
  match outcome.ending with
  | .usage (.badParameter message) => IO.eprintln message
  | _ => pure ()
  store before outcome.files
  return exitCode outcome.ending

/-- Works off a command line. -/
def work (arguments : List String) : IO UInt32 := do
  let vars ← readVariables
  match Settings.file? vars with
  | none => do
    IO.eprintln "Could not determine home directory."
    return 1
  | some path => do
    let fs ← arguments.foldlM (fun fs argument =>
      noteDirectories fs (FilePath.ofText argument).parent) {}
    let fs ← noteFile fs path
    match placeFor vars fs path with
    | .error message => do
      IO.eprintln message
      return 1
    | .ok place => present fs (Command.run place arguments)

end CallAtlas.Program

/-- The program. -/
def main (arguments : List String) : IO UInt32 :=
  CallAtlas.Program.work arguments

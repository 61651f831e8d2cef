import CallAtlas.Files
import CallAtlas.Log
import CallAtlas.Settings.Value

/-!
# Settings

The defaults of an analysis, overlaid with what the settings file says.  Saving merges values into
the file and keeps everything else that it holds.  The format of the file is a parameter of both.
-/

namespace CallAtlas.Settings

variable {α ε ω : Type}

/-- Values by section and key. -/
abbrev Sections (α : Type) := Table (Entries α)

/-- What holds where nothing else is said. -/
def defaults : Sections α :=
  [("analysis", [("import_depth", .int 3), ("call_depth", .int 10),
      ("timeout", .real (.ofInt 10)), ("include_source", .bool true)]),
    ("github", [("token", .text "")])]

/-- Variables of the process environment. -/
abbrev Variables := Table String

/-- The directory of a user without a given name, when it is told. -/
def homeDirectory (vars : Variables) : String :=
  (vars.get? "HOME").getD "/root"

/-- The home directory that a first segment with a tilde in front names: the user's own, or that of
the superuser.  Other users are not known. -/
def homeNamed? (vars : Variables) (segment : String) : Option String :=
  if segment = "~" then some (homeDirectory vars)
  else if segment = "~root" then some "/root"
  else none

/-- The path with a home directory in place of a first segment with a tilde in front. -/
def expandHome? (vars : Variables) (path : FilePath) : Option FilePath :=
  match path.root, path.segments with
  | "", first :: rest =>
    if first.toList.head? = some '~' then
      (homeNamed? vars first).map fun home =>
        { FilePath.ofText home with segments := (FilePath.ofText home).segments ++ rest }
    else some path
  | _, _ => some path

/-- Where the settings file is, unless that depends on an unknown user. -/
def file? (vars : Variables) : Option FilePath :=
  let base :=
    match vars.get? "SOLGRAPH_HOME" with
    | some home => FilePath.ofText home
    | none => (FilePath.ofText (homeDirectory vars)).child ".solgraph"
  (expandHome? vars base).map fun p => p.child "config.toml"

/-- The known keys of a section with what the file says about them. -/
def overlay (known said : Entries α) : Entries α :=
  Table.insertAll known (said.filter fun entry => Table.has known entry.1)

/-- The settings for a file that says `said`. -/
def effective (said : Entries α) : Sections α :=
  defaults.map fun (name, values) =>
    match Table.get? said name with
    | some (.table overrides) => (name, overlay values overrides)
    | _ => (name, values)

/-- The settings in force.  A file that is missing or malformed says nothing. -/
def load (format : Format α ε ω) (fs : Files) (path : FilePath) :
    Except ε (Sections α) × List Log.Record :=
  let ignored : Log.Record := .warning ("Ignoring unreadable config " ++ path.toText)
  if fs.contains path then
    match fs.read path with
    | .error _ => (.ok defaults, [ignored])
    | .ok text =>
      match format.parse text with
      | .ok said => (.ok (effective said), [])
      | .error fault =>
        if format.isMalformed fault then (.ok defaults, [ignored]) else (.error fault, [])
  else (.ok defaults, [])

/-- Why settings are not saved. -/
inductive SaveError (ε ω : Type) where
  /-- What goes by the name of a section is no table. -/
  | notATable (name : String)
  /-- The file holds a text that is neither readable nor malformed. -/
  | unreadable (fault : ε)
  /-- The settings have no written form. -/
  | unwritable (fault : ω)
  /-- The file cannot be read or written. -/
  | file (error : FileError)
deriving DecidableEq, Repr

/-- Merges values into sections; sections that are missing are made.  Fails with the name of a
section that is no table. -/
def merge : Entries α → Sections α → Except String (Entries α)
  | current, [] => .ok current
  | current, (name, values) :: updates =>
    match Table.get? current name with
    | none => merge (current ++ [(name, .table (Table.insertAll [] values))]) updates
    | some (.table old) =>
      merge (Table.insert current name (.table (Table.insertAll old values))) updates
    | some _ => .error name

/-- What the file says, for saving; a malformed text counts as empty. -/
def current (format : Format α ε ω) (fs : Files) (path : FilePath) :
    Except (SaveError ε ω) (Entries α × List Log.Record) :=
  if fs.contains path then
    match fs.read path with
    | .error e => .error (.file e)
    | .ok text =>
      match format.parse text with
      | .ok said => .ok (said, [])
      | .error fault =>
        if format.isMalformed fault then
          .ok ([], [.warning ("Overwriting unreadable config " ++ path.toText)])
        else .error (.unreadable fault)
  else .ok ([], [])

/-- Writes a settings file.  It is emptied first, and stays empty if the settings cannot be
written. -/
def writeFile (format : Format α ε ω) (fs : Files) (path : FilePath)
    (entries : Entries α) : Except (SaveError ε ω) Unit × Files :=
  match (fs.makeDirectory path.parent).bind fun fs => fs.write path "" with
  | .error e => (.error (.file e), fs)
  | .ok emptied =>
    match format.render entries with
    | .error fault => (.error (.unwritable fault), emptied)
    | .ok text =>
      match emptied.write path text with
      | .error e => (.error (.file e), emptied)
      | .ok written => (.ok (), written)

/-- What saving did. -/
structure Saving (ε ω : Type) where
  result : Except (SaveError ε ω) Unit
  files : Files
  log : List Log.Record := []

/-- Saves values in the settings file. -/
def save (format : Format α ε ω) (fs : Files) (path : FilePath) (updates : Sections α) :
    Saving ε ω :=
  match current format fs path with
  | .error e => { result := .error e, files := fs }
  | .ok (said, log) =>
    match merge said updates with
    | .error name => { result := .error (.notATable name), files := fs, log := log }
    | .ok merged =>
      let (result, files) := writeFile format fs path merged
      { result := result, files := files, log := log }

/-- The settings that a program starts with. -/
structure Effective where
  importDepth : Int
  callDepth : Int
  timeout : Number.Binary64
  includeSource : Bool
  token : Value Empty

/-- A value of the settings in force. -/
def lookup (s : Sections α) (name key : String) : Value α :=
  ((s.get? name).bind fun values => Table.get? values key).getD (.text "")

/-- The settings that a program starts with; credentials of the environment win over the file. -/
def start (vars : Variables) (s : Sections Empty) : Except ValueError Effective := do
  let importDepth ← (lookup s "analysis" "import_depth").toInt
  let callDepth ← (lookup s "analysis" "call_depth").toInt
  let timeout ← (lookup s "analysis" "timeout").toReal
  return {
    importDepth := importDepth
    callDepth := callDepth
    timeout := timeout
    includeSource := (lookup s "analysis" "include_source").isTrue
    token :=
      match vars.get? "GITHUB_TOKEN" with
      | some token => if token = "" then lookup s "github" "token" else .text token
      | none => lookup s "github" "token" }

end CallAtlas.Settings

import CallAtlas.Ordered
import CallAtlas.Path

/-!
# A small file system

The files below a working directory, as data.  Paths are kept in a plain spelling, without empty
and single-dot segments; double dots are followed when a path is looked up.
-/

namespace CallAtlas

/-- The plain spelling of a path. -/
structure FilePath where
  /-- The slashes in front: none, one, or exactly two. -/
  root : String
  segments : List String
deriving DecidableEq, Repr

namespace FilePath

/-- The path that a text names.  Two slashes in front are kept, more count as one. -/
def ofText (s : String) : FilePath where
  root :=
    match s.toList with
    | '/' :: '/' :: '/' :: _ => "/"
    | '/' :: '/' :: _ => "//"
    | '/' :: _ => "/"
    | _ => ""
  segments := (Text.split '/' s).filter fun p => p != "" && p != "."

/-- The path as a text. -/
def toText (p : FilePath) : String :=
  if p.root = "" && p.segments = [] then "." else p.root ++ Text.join "/" p.segments

/-- The path one segment further on. -/
def child (p : FilePath) (name : String) : FilePath :=
  { p with segments := p.segments ++ [name] }

/-- The directory of the path. -/
def parent (p : FilePath) : FilePath :=
  { p with segments := p.segments.dropLast }

/-- The last segment without its extension, which starts at the last dot unless that is the first
or the last character. -/
def stem (p : FilePath) : String :=
  let name := (p.segments.getLastD "").toList
  let front := (name.reverse.dropWhile (· != '.')).drop 1
  if front = [] || name.getLast? = some '.' then String.ofList name
  else String.ofList front.reverse

end FilePath

/-- Why a file operation fails. -/
inductive FileError where
  /-- There is no such directory. -/
  | notFound
  /-- There is a directory where a file is meant. -/
  | isDirectory
  /-- There is a file where a directory is meant. -/
  | notDirectory
  /-- A directory cannot be made where there is a file. -/
  | exists
deriving DecidableEq, Repr

/-- Files and directories by absolute path, given by segments. -/
structure Files where
  /-- The directory from which paths without a slash in front are followed. -/
  working : List String := ["work"]
  contents : List (List String × String) := []
  /-- The directories beside the root. -/
  directories : List (List String) := [["work"]]
deriving Repr

namespace Files

/-- Whether there is a directory. -/
def isDirectory (fs : Files) (place : List String) : Bool :=
  place.isEmpty || fs.directories.contains place

/-- The content of the file at an absolute path. -/
def contentAt? (fs : Files) (place : List String) : Option String :=
  fs.contents.lookup place

/-- Goes on from the directory `here`, making directories on the way if `make` says so. -/
def walk (make : Bool) (fs : Files) (here : List String) :
    List String → Except FileError (Files × List String)
  | [] => .ok (fs, here)
  | name :: rest =>
    let next := if name = ".." then here.dropLast else here ++ [name]
    if fs.isDirectory next then walk make fs next rest
    else if (fs.contentAt? next).isSome then
      .error (if make && rest.isEmpty then .exists else .notDirectory)
    else if make then walk make { fs with directories := fs.directories ++ [next] } next rest
    else .error .notFound

/-- Where a path starts. -/
def start (fs : Files) (path : FilePath) : List String :=
  if path.root = "" then fs.working else []

/-- Makes a directory and those above it. -/
def makeDirectory (fs : Files) (path : FilePath) : Except FileError Files :=
  (walk true fs (fs.start path) path.segments).map Prod.fst

/-- The absolute path of a file in an existing directory. -/
def target (fs : Files) (path : FilePath) : Except FileError (List String) := do
  let (_, directory) ← walk false fs (fs.start path) path.segments.dropLast
  match path.segments.getLast? with
  | none => throw .isDirectory
  | some name =>
    let file := if name = ".." then directory.dropLast else directory ++ [name]
    if fs.isDirectory file then throw .isDirectory else return file

/-- Sets the content of a file; its directory has to exist. -/
def write (fs : Files) (path : FilePath) (content : String) : Except FileError Files := do
  let file ← fs.target path
  return { fs with
    contents := (fs.contents.filter fun entry => entry.1 != file) ++ [(file, content)] }

/-- The content of a file. -/
def read (fs : Files) (path : FilePath) : Except FileError String := do
  match fs.contentAt? (← fs.target path) with
  | some content => return content
  | none => throw .notFound

/-- Whether there is a file or directory. -/
def contains (fs : Files) (path : FilePath) : Bool :=
  match fs.read path with
  | .ok _ => true
  | .error .isDirectory => true
  | .error _ => false

/-- The files below the working directory, by their paths from there. -/
def listing (fs : Files) : List (String × String) :=
  fs.contents.filterMap fun (file, content) =>
    if fs.working.isPrefixOf file then
      some (Text.join "/" (file.drop fs.working.length), content)
    else none

end Files

end CallAtlas

import CallAtlas.Path

/-!
# Locations of source files

A file is found by the owner, name and branch of the repository that holds it and by its path
there.  Coordinates are the same with a directory in place of the file: they say from where a
relative path is meant.
-/

namespace CallAtlas

/-- A branch of a hosted repository, with the directory from which paths are looked up. -/
structure Coords where
  owner : String
  repo : String
  branch : String
  base : String := ""
deriving DecidableEq, Repr

/-- A file of a hosted repository. -/
structure Location where
  owner : String
  repo : String
  branch : String
  path : String
deriving DecidableEq, Repr

/-- The file at `path` in the repository of `c`; the directory of `c` plays no part. -/
def Coords.locate (c : Coords) (path : String) : Location :=
  ⟨c.owner, c.repo, c.branch, path⟩

namespace Location

/-- The file's name. -/
def filename (l : Location) : String :=
  Path.basename l.path

/-- The directory that holds the file. -/
def directory (l : Location) : String :=
  Path.dirname l.path

/-- The file's repository with the file's own directory. -/
def coords (l : Location) : Coords :=
  ⟨l.owner, l.repo, l.branch, l.directory⟩

/-- Address of the page that shows the file. -/
def blobUrl (l : Location) : String :=
  "https://github.com/" ++ l.owner ++ "/" ++ l.repo ++ "/blob/" ++ l.branch ++ "/" ++ l.path

/-- Address of the file's bare content. -/
def rawUrl (l : Location) : String :=
  "https://raw.githubusercontent.com/" ++ l.owner ++ "/" ++ l.repo ++ "/" ++ l.branch ++ "/" ++
    l.path

/-- The repository and branch, `owner/repo@branch`. -/
def repository (l : Location) : String :=
  l.owner ++ "/" ++ l.repo ++ "@" ++ l.branch

/-- The text by which locations are told apart, `owner/repo@branch:path`. -/
def key (l : Location) : String :=
  l.repository ++ ":" ++ l.path

/-- The path for progress messages: of a path with more than two segments only the last two. -/
def short (l : Location) : String :=
  let parts := Text.split '/' l.path
  if parts.length > 2 then ".../" ++ Text.join "/" (parts.drop (parts.length - 2)) else l.path

/-- Whether two files come from the same branch of the same repository. -/
def sameBranch (l m : Location) : Bool :=
  l.owner == m.owner && l.repo == m.repo && l.branch == m.branch

end Location

end CallAtlas

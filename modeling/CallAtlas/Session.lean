import CallAtlas.Import.Path
import CallAtlas.Interface.Binding
import CallAtlas.Location
import CallAtlas.Number.Ratio
import CallAtlas.Repository

/-!
# Sessions

A session is all that a run has learnt: the declarations read, the imports met and what became of
them, the files taken in, the bindings decided, and what was asked of the outside.  It only grows.
-/

namespace CallAtlas

/-- Why an import was given up. -/
inductive Failure where
  | external
  | unreachable
  /-- Any other reason, in words. -/
  | other (reason : String)
deriving DecidableEq, Repr

/-- The word for a failure. -/
def Failure.name : Failure → String
  | external => "external"
  | unreachable => "unreachable"
  | other reason => reason

/-- The failure for a word. -/
def Failure.ofName (name : String) : Failure :=
  if name = "external" then .external
  else if name = "unreachable" then .unreachable
  else .other name

/-- What became of the imports of a run. -/
structure Coverage where
  found : List String
  resolved : List String
  external : List String
  unreachable : List String
deriving DecidableEq, Repr

namespace Coverage

/-- The imports that were given up. -/
def failed (c : Coverage) : List String :=
  c.external ++ c.unreachable

/-- The share of the settled imports that were resolved. -/
def successRate (c : Coverage) : Number.Ratio :=
  ⟨c.resolved.length, c.resolved.length + c.failed.length⟩

/-- The counts that reports show. -/
def stats (c : Coverage) : List (String × Document) :=
  [("found", .nat c.found.length), ("resolved", .nat c.resolved.length),
    ("failed", .nat c.failed.length), ("successRate", .real c.successRate.rounded)]

end Coverage

/-- What a run has learnt. -/
structure Session where
  repository : Repository := {}
  /-- The files the run was started for. -/
  seeds : List Location := []
  /-- Every import met, by path, with the file that first had it. -/
  discovered : Table Import.Reference := []
  /-- Where resolved imports were found. -/
  processed : Table Location := []
  /-- Imports that were given up. -/
  failed : Table Failure := []
  /-- Keys of the locations whose content was taken in. -/
  ingested : List String := []
  /-- Where each file came from, by label. -/
  locations : Table Location := []
  /-- Labels of files that could not be read. -/
  unparsed : List String := []
  /-- What was decided about each interface. -/
  bindings : Table (Option Binding) := []
  /-- Names of implementations that were looked for outside. -/
  lookups : List String := []
  /-- How many fetches were made on behalf of imports and implementations. -/
  fetchAttempts : Nat := 0
  /-- Every location asked for, in order. -/
  asked : List Location := []
  /-- How often the parser was used. -/
  parses : Nat := 0
  /-- When the run started. -/
  startedAt : String := ""
deriving DecidableEq, Repr

namespace Session

/-- Notes an import; of several imports of one path the first is kept. -/
def discover (s : Session) (ref : Import.Reference) : Session :=
  { s with discovered := s.discovered.insertNew ref.path ref }

/-- Whether it is decided what becomes of an import. -/
def isSettled (s : Session) (path : String) : Bool :=
  s.processed.has path || s.failed.has path

/-- The imports not yet settled, in order of discovery. -/
def pending (s : Session) : List Import.Reference :=
  (s.discovered.filter fun entry => !s.isSettled entry.1).map Prod.snd

/-- Notes where an import was found. -/
def markProcessed (s : Session) (path : String) (location : Location) : Session :=
  { s with processed := s.processed.insert path location }

/-- Notes that an import is given up; the first reason is kept. -/
def markFailed (s : Session) (path : String) (why : Failure) : Session :=
  { s with failed := s.failed.insertNew path why }

/-- The name by which a file goes in entities and reports: its path when it comes from the
repository of a seed, its key otherwise, so that equal paths in two libraries stay two files. -/
def fileLabel (s : Session) (location : Location) : String :=
  if s.seeds.isEmpty || s.seeds.any location.sameBranch then location.path else location.key

/-- Where a file came from. -/
def locationOf? (s : Session) (file : String) : Option Location :=
  s.locations.get? file

/-- The coordinates of the first seed. -/
def homeCoords? (s : Session) : Option Coords :=
  s.seeds.head?.map Location.coords

/-- From where the imports of a file are looked up. -/
def coordsFor? (s : Session) (file : String) : Option Coords :=
  match s.locationOf? file with
  | some location => some location.coords
  | none => s.homeCoords?

/-- What has become of the imports so far. -/
def coverage (s : Session) : Coverage where
  found := sortTexts s.discovered.keys
  resolved := s.processed.keys
  external := (s.failed.filter fun entry => entry.2 == .external).map Prod.fst
  unreachable := (s.failed.filter fun entry => entry.2 != .external).map Prod.fst

/-- Notes a request for a location. -/
def noteAsked (s : Session) (location : Location) : Session :=
  { s with asked := s.asked ++ [location] }

/-- Notes that the content of a location, going by `file`, is taken in. -/
def noteIngested (s : Session) (file : String) (location : Location) : Session :=
  { s with
    ingested := s.ingested ++ [location.key]
    locations := s.locations.insertNew file location }

/-- Notes a file that could not be read. -/
def noteUnparsed (s : Session) (file : String) : Session :=
  { s with unparsed := s.unparsed ++ [file] }

/-- Takes in what a file declares and imports. -/
def absorb (s : Session) (entities : List Entity) (imports : List Import.Reference) : Session :=
  imports.foldl discover { s with repository := s.repository.addAll entities }

end Session

end CallAtlas

import CallAtlas.CallTree.Build
import CallAtlas.Location.Url
import CallAtlas.Report

/-!
# Whole runs

`analyze` takes in the files at some addresses and what they import.  `extract` does so for one
address and then builds the call tree of a function.
-/

namespace CallAtlas.Analysis

/-- Why a run has no result. -/
inductive Failure where
  /-- No address was given. -/
  | noUrl
  /-- An address names no file. -/
  | badUrl (error : UrlError)
  /-- A file could not be fetched. -/
  | unfetched (error : FetchError)
  /-- A file could not be read. -/
  | unparsed (path : String)
  /-- There is no function of that name; these are the functions there are. -/
  | functionNotFound (name : String) (available : List String)
deriving DecidableEq, Repr

/-- The reason in words. -/
def Failure.message : Failure → String
  | noUrl => "No contract URL given"
  | badUrl error => error.message
  | unfetched error => "Failed to fetch main contract: " ++ error.message
  | unparsed path => "Failed to parse main contract: " ++ path
  | functionNotFound name available =>
    "Function \"" ++ name ++ "\" not found. Available functions: " ++
      (if available = [] then "none" else Text.join ", " available)

/-- How many rounds of imports are made by default. -/
def defaultImportDepth : Int := 3

/-- How deep call trees are by default. -/
def defaultCallDepth : Int := 10

/-- Takes in the file at an address as a seed. -/
def seed (env : Environment) (url : String) : Run (Except Failure Unit) := do
  match Location.ofUrl url with
  | .error e => return .error (.badUrl e)
  | .ok location => do
    Run.log (.info ("Fetching main contract: " ++ location.blobUrl))
    match ← Run.fetch env location with
    | .error e => return .error (.unfetched e)
    | .ok content => do
      Run.update fun s => { s with seeds := s.seeds ++ [location] }
      let _ ← Import.ingest env ⟨location, content⟩
      if (← Run.session).unparsed.contains location.path then
        return .error (.unparsed location.path)
      else return .ok ()

/-- Takes in the files at some addresses as seeds, and gives what failed. -/
def seedAll (env : Environment) : List String → Run (List Failure)
  | [] => return []
  | url :: urls => do
    match ← seed env url with
    | .ok () => seedAll env urls
    | .error failure => do
      Run.log (.error failure.message)
      let others ← seedAll env urls
      return failure :: others

/-- Takes in imports in at most `depth` rounds, when a depth is given, and sums up. -/
def finish (env : Environment) (depth : Option Int) : Run Unit := do
  match depth with
  | some bound => do
    let _ ← Import.ingestImports env bound
  | none => pure ()
  let r := (← Run.session).repository
  Run.log (.info ("Total declarations: " ++ toString r.size ++ " in " ++
    toString r.files.length ++ " files"))

/-- Takes in the files at some addresses, and what they import in at most `depth` rounds when a
depth is given.  It is enough that one of the files can be taken in. -/
def analyze (env : Environment) (urls : List String) (depth : Option Int) :
    Run (Except Failure Unit) := do
  if urls.isEmpty then return .error .noUrl
  else do
    let failures ← seedAll env urls
    match failures.head?, decide (failures.length = urls.length) with
    | some failure, true => return .error failure
    | _, _ => do
      finish env depth
      return .ok ()

/-- What an extraction is asked for. -/
structure Request where
  url : String
  function : String
  callDepth : Int := defaultCallDepth
  /-- Rounds of imports; without them only the file itself is taken in. -/
  importDepth : Option Int := some defaultImportDepth
  slice : CallTree.SliceOptions := {}

/-- The call tree of a function at an address, with what belongs to it. -/
def extract (env : Environment) (request : Request) :
    Run (Except Failure Report.Extraction) := do
  match ← analyze env [request.url] request.importDepth with
  | .error failure => return .error failure
  | .ok () => do
    let repository := (← Run.session).repository
    let (found, records) := repository.findFunction request.function
    Run.logAll records
    match found with
    | none =>
      return .error (.functionNotFound request.function repository.availableFunctions)
    | some e => do
      Run.log (.info ("Found function: " ++ e.signature))
      let tree ← CallTree.build env {} e request.callDepth
      let s ← Run.session
      let entities := CallTree.slice s.repository request.slice tree
      Run.log (.info ("Extracted " ++ toString entities.length ++ " relevant declarations"))
      return .ok {
        entity := e
        tree := tree
        entities := entities
        coverage := s.coverage
        callDepth := request.callDepth }

end CallAtlas.Analysis

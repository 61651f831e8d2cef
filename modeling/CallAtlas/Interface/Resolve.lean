import CallAtlas.Import.Ingest
import CallAtlas.Interface.Edge

/-!
# Finding implementations

What implements an interface is decided once a session.  Known files with a promising name come
first, then such files fetched from the interface's repository, then whichever known file has most
of the interface's members, if that is more than half.
-/

namespace CallAtlas.Interface

open CallAtlas.Text

/-- The functions declared in files whose name contains that of the interface. -/
def declaredMembers (r : Repository) (interface : String) : List Entity :=
  ((r.filesContaining interface).flatMap r.inFile).filter fun e => e.kind == .function

/-- The functions and state variables of a file. -/
def implementingMembers (r : Repository) (file : String) : List Entity :=
  (r.inFile file).filter fun e => e.kind == .function || e.kind == .stateVariable

/-- The members of an interface that a file implements. -/
def matchesIn (r : Repository) (members : List Entity) (file : String) : List Match :=
  matchMembers members (implementingMembers r file)

/-- What is logged about an implementation found by name. -/
def foundByName (b : Binding) : Log.Record :=
  .info ("Found implementation of " ++ b.interface ++ ": " ++ b.contract ++ " (" ++
    b.ratio.percent ++ "% match, " ++ b.strategy.word ++ ")")

/-- The binding to the first known file with a candidate name that implements some member. -/
def localBinding? (r : Repository) (interface : String) (members : List Entity)
    (candidates interfaceFiles : List String) : Option Binding :=
  (candidates.flatMap r.filesContaining).findSome? fun file =>
    if interfaceFiles.contains file then none
    else
      match matchesIn r members file with
      | [] => none
      | found => some (.ofMatches interface file found members .name)

/-- Looks among the known files by name. -/
def matchLocal (interface : String) (members : List Entity)
    (candidates interfaceFiles : List String) : Run (Option Binding) := do
  match localBinding? (← Run.session).repository interface members candidates interfaceFiles with
  | none => return none
  | some b => do
    Run.log (foundByName b)
    return some b

/-- Looks for files of candidate names in the repository at `coords`, each name once a session. -/
def matchRemoteAt (env : Environment) (interface : String) (members : List Entity)
    (coords : Coords) : (candidates : List String) → Run (Option Binding)
  | [] => return none
  | candidate :: rest => do
    let s ← Run.session
    if s.lookups.contains candidate then matchRemoteAt env interface members coords rest
    else do
      Run.update fun s => { s with lookups := s.lookups ++ [candidate] }
      let locations := ((implementationPaths candidate).map coords.locate).filter fun l =>
        !s.ingested.contains l.key
      match ← Import.fetchFirst env locations with
      | none => matchRemoteAt env interface members coords rest
      | some fetched => do
        let _ ← Import.ingest env fetched
        let s ← Run.session
        let file := s.fileLabel fetched.location
        match matchesIn s.repository members file with
        | [] => matchRemoteAt env interface members coords rest
        | found => do
          let b := Binding.ofMatches interface file found members .remote
          Run.log (foundByName b)
          return some b

/-- Looks for files of candidate names outside, given where to look. -/
def matchRemote (env : Environment) (interface : String) (members : List Entity)
    (candidates : List String) : Option Coords → Run (Option Binding)
  | none => return none
  | some coords => matchRemoteAt env interface members coords candidates

/-- The better of a binding and what a further file gives: the file has to implement more than
half of the members, and more of them than the binding. -/
def better (r : Repository) (interface : String) (members : List Entity) (best : Option Binding)
    (file : String) : Option Binding :=
  let found := matchesIn r members file
  if members.length < 2 * found.length && best.all fun b => b.members.length < found.length then
    some (.ofMatches interface file found members .scan)
  else best

/-- The known file with most of the members, if these are more than half. -/
def scanBinding? (r : Repository) (interface : String) (members : List Entity)
    (interfaceFiles : List String) : Option Binding :=
  (r.files.filter fun f => !interfaceFiles.contains f && !looksLikeInterface f).foldl
    (better r interface members) none

/-- Looks among the known files by members. -/
def matchByScan (interface : String) (members : List Entity) (interfaceFiles : List String) :
    Run (Option Binding) := do
  match scanBinding? (← Run.session).repository interface members interfaceFiles with
  | none => return none
  | some b => do
    Run.log (.info ("Found implementation of " ++ interface ++ " by member scan: " ++ b.contract))
    return some b

/-- Where the files of an interface come from: the first of them in order of names whose location
is known, or else the first seed. -/
def coordsOf? (s : Session) (interfaceFiles : List String) : Option Coords :=
  match (sortTexts interfaceFiles).findSome? s.locationOf? with
  | some location => some location.coords
  | none => s.homeCoords?

/-- The files that declare the given members. -/
def filesOf (members : List Entity) : List String :=
  keepFirst id (members.map (·.file))

/-- Looks for the implementation of an interface with known members. -/
def search (env : Environment) (interface : String) (members : List Entity)
    (coords : Option Coords) : Run (Option Binding) := do
  let interfaceFiles := filesOf members
  let candidates := candidateNames interface
  Run.log (.debug ("Searching for implementations of " ++ interface ++ ": " ++
    join ", " candidates))
  match ← matchLocal interface members candidates interfaceFiles with
  | some b => return some b
  | none => do
    let s ← Run.session
    let fetched ←
      if env.fetchRemote then
        matchRemote env interface members candidates (coords.or (coordsOf? s interfaceFiles))
      else pure none
    match fetched with
    | some b => return some b
    | none => matchByScan interface members interfaceFiles

/-- Decides what implements an interface, unless that is decided already.  Nothing is looked for
when the interface has no known members. -/
def bindingFor (env : Environment) (identifier : String) (coords : Option Coords) :
    Run (Option Binding) := do
  let interface := nameOf identifier
  let s ← Run.session
  match s.bindings.get? interface with
  | some decided => return decided
  | none => do
    let members := declaredMembers s.repository interface
    let binding ←
      if members.isEmpty then do
        Run.log (.debug ("No declared members known for " ++ interface ++
          "; skipping implementation lookup"))
        pure none
      else search env interface members coords
    if binding.isNone then Run.log (.debug ("No implementation found for " ++ interface))
    Run.update fun s => { s with bindings := s.bindings.insert interface binding }
    return binding

/-- Decides what implements the interfaces of the edges that have a definition, each once, in
order. -/
def bindInterfaces (env : Environment) (resolved : Table (Option Binding)) :
    List Edge → Run (Table (Option Binding))
  | [] => return resolved
  | e :: es => do
    if e.definition.isNone || resolved.has e.interface then bindInterfaces env resolved es
    else do
      let binding ← bindingFor env e.interface none
      bindInterfaces env (resolved ++ [(e.interface, binding)]) es

/-- An edge with what was decided about its interface. -/
def Edge.withBinding (resolved : Table (Option Binding)) (e : Edge) : Edge :=
  { e with binding := (resolved.get? e.interface).join }

/-- Binds the interfaces of edges: what was decided, and the edges with it. -/
def bindEdges (env : Environment) (edges : List Edge) :
    Run (Table (Option Binding) × List Edge) := do
  let resolved ← bindInterfaces env [] edges
  return (resolved, edges.map (Edge.withBinding resolved))

end CallAtlas.Interface

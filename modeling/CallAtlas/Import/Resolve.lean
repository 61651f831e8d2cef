import CallAtlas.Import.Candidates
import CallAtlas.Run

/-!
# Resolving imports

An import is settled once: it is external, or the first of its candidate locations that can be
fetched is taken, or it is given up when none can.
-/

namespace CallAtlas.Import

/-- The content of a location. -/
structure Fetched where
  location : Location
  content : String
deriving DecidableEq, Repr

/-- Tries locations in order and takes the first that can be fetched. -/
def fetchFirst (env : Environment) : List Location → Run (Option Fetched)
  | [] => return none
  | location :: rest => do
    Run.update fun s => { s with fetchAttempts := s.fetchAttempts + 1 }
    Run.log (.debug ("    Trying: " ++ location.short))
    match ← Run.fetch env location with
    | .error e => do
      Run.log (.debug ("    Skipping " ++ location.short ++ ": " ++ e.message))
      fetchFirst env rest
    | .ok content => do
      Run.log (.info ("    Found: " ++ location.path))
      return some ⟨location, content⟩

/-- Settles an import, and gives what was fetched for it.  A settled import is left alone. -/
def resolve (env : Environment) (ref : Reference) : Run (Option Fetched) := do
  let s ← Run.session
  if s.isSettled ref.path then return none
  else if classify ref.path = .external then do
    Run.log (.info ("  External dependency (skipped): " ++ ref.path))
    Run.update (·.markFailed ref.path .external)
    return none
  else
    match candidates ref.path (s.coordsFor? ref.origin) with
    | [] => do
      Run.log (.info ("  No resolution paths found: " ++ ref.path))
      Run.update (·.markFailed ref.path .unreachable)
      return none
    | locations => do
      Run.log (.info ("  Resolving: " ++ ref.path))
      match ← fetchFirst env locations with
      | none => do
        Run.log (.info ("    Could not resolve: " ++ ref.path))
        Run.update (·.markFailed ref.path .unreachable)
        return none
      | some fetched => do
        Run.update (·.markProcessed ref.path fetched.location)
        return some fetched

/-- Settles imports in turn, and gives all that was fetched. -/
def resolveAll (env : Environment) : List Reference → Run (List Fetched)
  | [] => return []
  | ref :: refs => do
    let fetched ← resolve env ref
    let others ← resolveAll env refs
    return fetched.toList ++ others

end CallAtlas.Import

import CallAtlas.Import.Resolve

/-!
# Taking in files

A fetched file is read once and its declarations and imports join the session.  `ingestImports`
works in rounds: each round settles all pending imports and takes in what was fetched, which may
bring new imports.  Rounds go on until no import is pending, until a round brings nothing new, or
up to a bound.
-/

namespace CallAtlas.Import

/-- Takes in a fetched file, and gives the declarations it added.  A file that is known already,
and one that cannot be read, add nothing. -/
def ingest (env : Environment) (fetched : Fetched) : Run (List Entity) := do
  let s ← Run.session
  let file := s.fileLabel fetched.location
  if s.ingested.contains fetched.location.key then return []
  else do
    Run.update (·.noteIngested file fetched.location)
    match ← Run.parse env fetched.content file with
    | .error reason => do
      Run.log (.warning ("  Failed to parse " ++ file ++ ": " ++ reason))
      Run.update (·.noteUnparsed file)
      return []
    | .ok declarations => do
      let added := s.repository.newAmong declarations.entities
      Run.update (·.absorb declarations.entities declarations.imports)
      Run.log (.info ("  Parsed: " ++ file ++ " (" ++ toString added.length ++ " declarations, " ++
        toString declarations.imports.length ++ " imports)"))
      return added

/-- Takes in fetched files in turn. -/
def ingestAll (env : Environment) : List Fetched → Run Unit
  | [] => return ()
  | fetched :: rest => do
    let _ ← ingest env fetched
    ingestAll env rest

/-- Settles the pending imports and takes in what was fetched for them. -/
def round (env : Environment) : Run Unit := do
  let fetched ← resolveAll env (← Run.session).pending
  ingestAll env fetched

/-- Up to `left` rounds, after `depth` rounds of the `bound` that were asked for. -/
def rounds (env : Environment) (bound : Int) (depth : Nat) : (left : Nat) → Run Unit
  | 0 => do
    if (← Run.session).pending.isEmpty then Run.log (.info "No dependencies left to resolve")
    else Run.log (.info ("Maximum recursion depth (" ++ toString bound ++ ") reached"))
  | left + 1 => do
    let before ← Run.session
    if before.pending.isEmpty then Run.log (.info "No dependencies left to resolve")
    else do
      Run.log (.info ("Depth " ++ toString (depth + 1) ++ "/" ++ toString bound ++ ": resolving " ++
        toString before.pending.length ++ " dependencies"))
      round env
      let fresh := (← Run.session).discovered.length - before.discovered.length
      if fresh = 0 then Run.log (.info "No new dependencies found in resolved files")
      else do
        Run.log (.info ("Found " ++ toString fresh ++ " new dependencies in resolved files"))
        rounds env bound (depth + 1) left

/-- Settles imports in at most `bound` rounds, and gives what has become of them. -/
def ingestImports (env : Environment) (bound : Int) : Run Coverage := do
  rounds env bound 0 bound.toNat
  let coverage := (← Run.session).coverage
  Run.log (.info ("Resolution summary: " ++ toString coverage.found.length ++ " found, " ++
    toString coverage.resolved.length ++ " resolved, " ++ toString coverage.failed.length ++
    " failed (" ++ toString coverage.external.length ++ " external)"))
  return coverage

end CallAtlas.Import

import CallAtlas.Fetch
import CallAtlas.Session
import CallAtlas.Source.Parser

/-!
# Runs

A run works through a session with an environment from which it fetches and with which it parses.
Its steps read and extend the session, leave log records, and may break off; what was learnt until
then stays.
-/

namespace CallAtlas

/-- What lies outside a run. -/
structure Environment where
  /-- The content of a location. -/
  fetch : Location → Except FetchError String
  /-- How texts are read. -/
  parser : Source.Parser
  /-- Whether implementations may be fetched. -/
  fetchRemote : Bool := true

/-- How far a run has come. -/
structure Progress where
  session : Session := {}
  log : List Log.Record := []
deriving DecidableEq, Repr

/-- A step of a run.  It gives no answer if it broke off. -/
def Run (α : Type) : Type :=
  Progress → Option α × Progress

namespace Run

instance : Monad Run where
  pure a := fun p => (some a, p)
  bind x f := fun p =>
    match x p with
    | (some a, q) => f a q
    | (none, q) => (none, q)

/-- What has been learnt so far. -/
def session : Run Session :=
  fun p => (some p.session, p)

/-- Extends what has been learnt. -/
def update (f : Session → Session) : Run Unit :=
  fun p => (some (), { p with session := f p.session })

/-- Leaves log records. -/
def logAll (records : List Log.Record) : Run Unit :=
  fun p => (some (), { p with log := p.log ++ records })

/-- Leaves a log record. -/
def log (record : Log.Record) : Run Unit :=
  logAll [record]

/-- Breaks off. -/
def breakOff {α : Type} : Run α :=
  fun p => (none, p)

/-- Asks the environment for a location. -/
def fetch (env : Environment) (location : Location) : Run (Except FetchError String) := do
  update (·.noteAsked location)
  return env.fetch location

/-- Reads the text of a file.  A file that cannot be read gives the reason in words. -/
def parse (env : Environment) (text file : String) :
    Run (Except String Source.Declarations) := do
  let first := (← session).parses = 0
  update fun s => { s with parses := s.parses + 1 }
  logAll (if first then env.parser.onFirstUse else [])
  match env.parser.parse text file with
  | .error .broken => breakOff
  | .error fault => return .error (fault.message file)
  | .ok declarations => do
    logAll (declarations.warnings file)
    return .ok declarations

end Run

end CallAtlas

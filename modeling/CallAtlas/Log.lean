/-!
# Log records

What a run reports about its progress, as data.
-/

namespace CallAtlas.Log

/-- How much a record matters. -/
inductive Level where
  | debug
  | info
  | warning
  | error
deriving DecidableEq, Repr

/-- Name of a level. -/
def Level.name : Level → String
  | debug => "DEBUG"
  | info => "INFO"
  | warning => "WARNING"
  | error => "ERROR"

/-- Rank of a level; what matters more ranks higher. -/
def Level.rank : Level → Nat
  | debug => 10
  | info => 20
  | warning => 30
  | error => 40

/-- One message. -/
structure Record where
  level : Level
  message : String
deriving DecidableEq, Repr

/-- A message for tracing. -/
def Record.debug (message : String) : Record := ⟨.debug, message⟩

/-- A message on progress. -/
def Record.info (message : String) : Record := ⟨.info, message⟩

/-- A message on something dubious. -/
def Record.warning (message : String) : Record := ⟨.warning, message⟩

/-- A message on a failure. -/
def Record.error (message : String) : Record := ⟨.error, message⟩

/-- The records of at least a given level. -/
def atLeast (level : Level) (records : List Record) : List Record :=
  records.filter fun r => level.rank ≤ r.level.rank

end CallAtlas.Log

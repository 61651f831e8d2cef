import CallAtlas.Entity
import CallAtlas.Import.Path
import CallAtlas.Log

/-!
# Parsers

A parser turns the text of a file into its declarations and imports, or refuses it.
-/

namespace CallAtlas.Source

/-- Why a file is not read. -/
inductive ParseFault where
  /-- The text does not fit the grammar. -/
  | syntaxError
  /-- There is no grammar to read the text with. -/
  | grammarUnavailable (reason : String)
  /-- Reading broke off; this is no property of the file and ends the whole run. -/
  | broken
deriving DecidableEq, Repr

/-- What is said of a file that is not read. -/
def ParseFault.message (file : String) : ParseFault → String
  | syntaxError => "Parse error in " ++ file ++ ": syntax error"
  | grammarUnavailable reason =>
    "Parse error in " ++ file ++ ": Solidity grammar unavailable: " ++ reason
  | broken => ""

/-- What a file declares and imports, in source order.  `damaged` says that parts of the text were
skipped because they did not fit the grammar. -/
structure Declarations where
  entities : List Entity := []
  imports : List Import.Reference := []
  damaged : Bool := false
deriving Repr

/-- A parser, with what it logs when it is first used. -/
structure Parser where
  parse : (source file : String) → Except ParseFault Declarations
  onFirstUse : List Log.Record := []

/-- The warning about a file of which parts were skipped. -/
def Declarations.warnings (d : Declarations) (file : String) : List Log.Record :=
  if d.damaged then
    [.warning ("Syntax errors in " ++ file ++ "; keeping " ++ toString d.entities.length ++
      " readable declarations")]
  else []

end CallAtlas.Source

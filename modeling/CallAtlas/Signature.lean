import CallAtlas.Entity
import CallAtlas.Text.Scan

/-!
# Signatures and type texts

A signature is built from a name, its parameters and whatever deviates from the defaults.  Type
texts are compared as texts, so they are brought into one spacing first.
-/

namespace CallAtlas.Signature

open CallAtlas.Text

/-- A parameter list: type and name of each parameter, with a comma and a blank between. -/
def parameterList (parameters : List Parameter) : String :=
  join ", " (parameters.map fun p => trim (p.type ++ " " ++ p.name))

/-- The signature of a function.  Internal visibility and plain mutability are left out, as are
empty ones, and returned values are given by type alone. -/
def build (name : String) (parameters returns : List Parameter) (visibility mutability : String) :
    String :=
  name ++ "(" ++ parameterList parameters ++ ")" ++
    (if visibility = "" || visibility = "internal" then "" else " " ++ visibility) ++
    (if mutability = "" || mutability = "nonpayable" then "" else " " ++ mutability) ++
    (if returns = [] then "" else " returns (" ++ join ", " (returns.map (·.type)) ++ ")")

/-! ### Spacing of type texts -/

/-- A run of blanks becomes one blank. -/
def blankRun : Recogniser (List Char) := fun _ s => do
  let s ← blanks? s
  return ([' '], s)

/-- An arrow is set off by one blank on either side. -/
def arrow : Recogniser (List Char) := fun _ s => do
  let s ← take? '=' (skipBlanks s)
  let s ← take? '>' s
  return ([' ', '=', '>', ' '], skipBlanks s)

/-- No blanks follow an opening parenthesis. -/
def afterOpening : Recogniser (List Char) := fun _ s => do
  let s ← take? '(' s
  let s ← blanks? s
  return (['('], s)

/-- No blanks precede a closing parenthesis. -/
def beforeClosing : Recogniser (List Char) := fun _ s => do
  let s ← blanks? s
  let s ← take? ')' s
  return ([')'], s)

/-- No blanks stand around a square bracket. -/
def bracket : Recogniser (List Char) := fun _ s =>
  match skipBlanks s with
  | '[' :: s => some (['['], skipBlanks s)
  | ']' :: s => some ([']'], skipBlanks s)
  | _ => none

/-- A type text in its one spacing. -/
def normalizeType (text : String) : String :=
  let s := trimBy isBlank text.toList
  String.ofList (replaceHits bracket (replaceHits beforeClosing (replaceHits afterOpening
    (replaceHits arrow (replaceHits blankRun s)))))

end CallAtlas.Signature

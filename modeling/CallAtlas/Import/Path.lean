import CallAtlas.Path
import CallAtlas.Text.Blank

/-!
# Import paths

The text of an import names a file in one of several ways.  Paths of package managers, web
addresses and content hashes are external: they are reported and never fetched.  Everything else
is resolvable: it is normalised and looked up in repositories.
-/

namespace CallAtlas.Import

open CallAtlas.Text

/-- An import as written in the file `origin`. -/
structure Reference where
  path : String
  origin : String
deriving DecidableEq, Repr

/-- How an import is treated. -/
inductive Class where
  | external
  | resolvable
deriving DecidableEq, Repr

/-- The ending of source files. -/
def sourceExtension : String := ".sol"

/-- Beginnings of external imports. -/
def externalFronts : List String :=
  ["@openzeppelin/", "@chainlink/", "hardhat/", "node_modules/", "npm:", "http://", "https://",
    "ipfs://"]

/-- The import without blanks around it and without quotes inside these. -/
def clean (path : String) : String :=
  String.ofList (trimBy (fun c => c == '"' || c == '\'') (trimBy isBlank path.toList))

/-- Whether an import is external or resolvable. -/
def classify (path : String) : Class :=
  if externalFronts.any (startsWith (clean path)) then .external else .resolvable

/-- The canonical form of a path below the root of a repository; there is none for a path that
leaves the root or names it. -/
def normalize? (path : String) : Option String :=
  let segments := Path.segments path.toList
  if segments = [] || segments.head? = some ['.', '.'] then none
  else some (String.ofList (['/'].intercalate segments))

/-- The path with the ending of source files. -/
def withExtension (path : String) : String :=
  if endsWith path sourceExtension then path else path ++ sourceExtension

/-- One step along a relative path from `stack`, whose last segment comes first.  A double dot at
the root stays there. -/
def stepRelative (stack : List (List Char)) (segment : List Char) : List (List Char) :=
  if segment = ['.', '.'] then stack.tail
  else if segment = ['.'] || segment = [] then stack
  else segment :: stack

/-- Where `relative` leads from the directory `base`. -/
def resolveRelative (relative base : String) : String :=
  let start := ((base.toList.splitOn '/').filter (!·.isEmpty)).reverse
  let stack := (relative.toList.splitOn '/').foldl stepRelative start
  String.ofList (['/'].intercalate stack.reverse)

end CallAtlas.Import

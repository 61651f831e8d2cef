import CallAtlas.Entity
import CallAtlas.Ordered
import CallAtlas.Text.Lowercase

/-!
# The store of declarations

A repository holds the declarations read so far, in the order in which they came, with no identity
twice.  It only ever grows.  Everything that is asked of it is a view of that one sequence.
-/

namespace CallAtlas

open CallAtlas.Text

/-- Whether a file is taken for the home of an interface: its name starts with an `I` and another
ASCII capital, or its path mentions interfaces in any case. -/
def looksLikeInterface (file : String) : Bool :=
  (match (Path.basename file).toList with
    | 'I' :: c :: _ => c.isUpper
    | _ => false) ||
    contains (lower file) "interface"

/-- The declarations read so far. -/
structure Repository where
  entities : List Entity := []
deriving DecidableEq, Repr

namespace Repository

/-- How many declarations there are. -/
def size (r : Repository) : Nat :=
  r.entities.length

/-- The declaration with a given identity. -/
def get? (r : Repository) (identity : String) : Option Entity :=
  r.entities.find? fun e => e.identity == identity

/-- Whether there is a declaration with a given identity. -/
def contains (r : Repository) (identity : String) : Bool :=
  r.entities.any fun e => e.identity == identity

/-- Adds a declaration, unless its identity is known. -/
def add (r : Repository) (e : Entity) : Repository :=
  if r.contains e.identity then r else ⟨r.entities ++ [e]⟩

/-- Adds declarations in turn. -/
def addAll (r : Repository) (es : List Entity) : Repository :=
  es.foldl add r

/-- Which of the declarations are new when they are added in turn. -/
def newAmong (r : Repository) (es : List Entity) : List Entity :=
  (keepFirst Entity.identity es).filter fun e => !r.contains e.identity

/-- The files with declarations, in order of first appearance. -/
def files (r : Repository) : List String :=
  keepFirst id (r.entities.map (·.file))

/-- The declarations of a file. -/
def inFile (r : Repository) (file : String) : List Entity :=
  r.entities.filter fun e => e.file == file

/-- The declarations of a name. -/
def named (r : Repository) (name : String) : List Entity :=
  r.entities.filter fun e => e.name == name

/-- The declarations of one of the given kinds. -/
def ofKind (r : Repository) (kinds : List Kind) : List Entity :=
  r.entities.filter fun e => kinds.contains e.kind

/-- The names of all contracts, interfaces and libraries with declarations. -/
def contractNames (r : Repository) : List String :=
  keepFirst id ((r.entities.map (·.contract)).filter (· != ""))

/-- The files whose name contains `fragment`, those of exactly that stem in front. -/
def filesContaining (r : Repository) (fragment : String) : List String :=
  let found := r.files.filter fun f => Text.contains (Path.basename f) fragment
  found.filter (fun f => Path.stem f == fragment) ++ found.filter fun f => Path.stem f != fragment

/-- The functions and events that a call of `name` can mean: those of that name, or else those
whose signature starts with it. -/
def definitionsOf (r : Repository) (name : String) : List Entity :=
  let callable := r.ofKind [.function, .event]
  let sameName := callable.filter fun e => e.name == name
  if sameName.isEmpty then callable.filter fun e => startsWith e.signature (name ++ "(")
  else sameName

/-- What a call of `name` in `file` means.  A definition in the same file is preferred, otherwise
the first one counts. -/
def findDefinition? (r : Repository) (name file : String) : Option Entity :=
  let found := r.definitionsOf name
  (found.find? fun e => e.file == file).or found.head?

/-- The names of all functions but constructors, each once. -/
def availableFunctions (r : Repository) : List String :=
  keepFirst id (((r.ofKind [.function]).map (·.name)).filter (· != "constructor"))

end Repository

end CallAtlas

import CallAtlas.CallTree
import CallAtlas.Log
import CallAtlas.Text.Quoted

/-!
# The function a tree starts from, and the declarations it touches
-/

namespace CallAtlas

open CallAtlas.Text

/-- The declaration that a name given from outside means, with what is logged about the choice.
An exact name counts first, then a signature that contains the name; events do not count. -/
def Repository.findFunction (r : Repository) (name : String) : Option Entity × List Log.Record :=
  let callable := r.entities.filter fun e => e.kind != .event
  match callable.filter fun e => e.name == name with
  | [e] => (some e, [])
  | e :: es =>
    (some e, [.warning ("Multiple functions found with name " ++ quoted name ++ ": " ++
      join "; " ((e :: es).map (·.signature)) ++ "; using the first")])
  | [] =>
    match callable.find? fun e => Text.contains e.signature name with
    | some e => (some e, [.info ("Found function by signature match: " ++ e.signature)])
    | none => (none, [])

namespace CallTree

/-- Which declarations a slice takes in beside the called ones. -/
structure SliceOptions where
  /-- The modifiers that the others invoke. -/
  modifiers : Bool := true
  /-- Events. -/
  events : Bool := false
deriving DecidableEq, Repr

/-- The declarations a node refers to: its definition and the member that implements it. -/
def referred (n : CallNode) : List Entity :=
  n.definition.toList ++ (n.route.bind (·.member)).toList

/-- The declarations a tree refers to, each once, in the order of the nodes. -/
def referredEntities (options : SliceOptions) (t : CallTree) : List Entity :=
  keepFirst Entity.identity
    ((t.nodes.flatMap referred).filter fun e => options.events || e.kind != .event)

/-- The modifier of a given name. -/
def modifierNamed? (r : Repository) (name : String) : Option Entity :=
  (r.named name).find? fun e => e.kind == .modifier

/-- The declarations a tree touches, by name and then by file. -/
def slice (r : Repository) (options : SliceOptions) (t : CallTree) : List Entity :=
  let called := referredEntities options t
  let invoked :=
    if options.modifiers then (called.flatMap (·.modifiers)).filterMap (modifierNamed? r) else []
  (keepFirst Entity.identity (called ++ invoked)).mergeSort fun a b =>
    decide (a.name < b.name) || (a.name == b.name && decide (a.file ≤ b.file))

/-- The names of declarations under their files, in order of first appearance; a missing file goes
by `unknown`. -/
def byFile (entities : List Entity) : Table (List String) :=
  let labelled := entities.map fun e => (if e.file = "" then "unknown" else e.file, e.name)
  (keepFirst id (labelled.map Prod.fst)).map fun file =>
    (file, (labelled.filter fun entry => entry.1 == file).map Prod.snd)

end CallTree

end CallAtlas

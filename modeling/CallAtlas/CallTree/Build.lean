import CallAtlas.CallTree
import CallAtlas.Interface.Resolve
import CallAtlas.Text.Digit

/-!
# Building call trees

A function is expanded into the calls of its body, first the calls as written, then the calls
through interfaces that are not among these.  Expansion stops at a bound on the depth and at a
declaration that already stands on the way from the root, so trees of recursive functions end.
-/

namespace CallAtlas.CallTree

open CallAtlas.Text
open CallAtlas.Interface (Edge Pattern)

/-- Whether a name is that of a built-in type.  Sized types may carry any number. -/
def isElementaryType (name : String) : Bool :=
  ["address", "payable", "bool", "string"].contains name ||
    ["bytes", "int", "uint"].any fun stem =>
      (dropFront? stem.toList name.toList).any fun size => size.all isDigit

/-- Whether a call converts to a type and calls nothing. -/
def isTypeConversion (name : String) (typeNames : List String) : Bool :=
  typeNames.contains name || isElementaryType name

/-- Whether an edge stands for the same call site as a call of `name` that means `definition`.
The call of a member of a cast is recorded by the member's name alone, and then means the
interface's own declaration. -/
def isRoutedThrough (name : String) (definition : Option Entity) (edges : List Edge) : Bool :=
  let method := String.ofList (afterLast '.' name.toList)
  edges.any fun e =>
    e.method == method &&
      match definition with
      | none => true
      | some d =>
        (e.definition.any fun f => f.identity == d.identity) || d.ownerName == e.interface ||
          looksLikeInterface d.file

/-- How trees are built. -/
structure Options where
  /-- How calls through interfaces are found. -/
  patterns : List Pattern := Pattern.all
  /-- Whether implementations of interfaces are looked for. -/
  bindInterfaces : Bool := true

/-- A node for a declaration that is not expanded. -/
def leafOf (e : Entity) (depth : Nat) : CallNode :=
  { identity := e.identity, name := e.name, depth := depth, definition := some e }

/-- A node for a call that cannot be followed. -/
def externalLeaf (call : Call) (depth : Nat) : CallNode :=
  { identity := "external:" ++ call.name
    name := call.name
    depth := depth
    external := true
    arguments := some call.arguments }

/-- A node for a call through an interface. -/
def interfaceLeaf (e : Edge) (depth : Nat) : CallNode :=
  let member := e.binding.bind (·.memberFor? e.method)
  { identity := "interface:" ++ e.callee
    name := e.callee
    depth := depth
    external := e.definition.isNone && member.isNone
    definition := e.definition
    route := some {
      interface := e.interface
      pattern := e.pattern
      binding := e.binding
      member := member } }

/-- A call as written, with what it means and the tree for it. -/
structure StaticCall where
  name : String
  definition : Option Entity
  tree : CallTree

/-- The calls as written of `caller`, leaving out type conversions and calls for which an edge
stands.  Known definitions are expanded with `expand`; other calls stay leaves at `depth`. -/
def staticCalls (expand : Entity → Run CallTree) (caller : Entity) (depth : Nat)
    (typeNames : List String) (edges : List Edge) : List Call → Run (List StaticCall)
  | [] => return []
  | call :: calls => do
    let definition := (← Run.session).repository.findDefinition? call.name caller.file
    if isTypeConversion call.name typeNames ||
        (!(edges.any fun e => e.callee == call.name) &&
          isRoutedThrough call.name definition edges) then
      staticCalls expand caller depth typeNames edges calls
    else do
      let tree ←
        match definition with
        | some d => expand d
        | none => pure (.node (externalLeaf call depth) [])
      let others ← staticCalls expand caller depth typeNames edges calls
      return ⟨call.name, definition, tree⟩ :: others

/-- The edges for which no call as written stands: neither under the edge's own name nor as the
call of a definition with the edge's method. -/
def remainingEdges (edges : List Edge) (statics : List StaticCall) : List Edge :=
  edges.filter fun e =>
    !(statics.any fun c => c.name == e.callee) &&
      !(statics.any fun c => c.definition.any fun d => d.name == e.method)

/-- The nodes for calls of `caller` through interfaces. -/
def interfaceCalls (env : Environment) (options : Options) (caller : Entity) (depth : Nat) :
    List Edge → Run (List CallTree)
  | [] => return []
  | edges => do
    let bound ←
      if options.bindInterfaces then do
        let (_, bound) ← Interface.bindEdges env edges
        pure bound
      else pure edges
    Run.log (.debug ("Interface calls found in " ++ caller.name ++ ": " ++
      join ", " (edges.map (·.callee))))
    return bound.map fun e => .node (interfaceLeaf e depth) []

/-- The edges in the text of a function. -/
def detectEdges (options : Options) (e : Entity) : Run (List Edge) := do
  match e.source with
  | none => return []
  | some text =>
    if text = "" then return []
    else do
      let edges := Interface.detect options.patterns text (← Run.session).repository.entities
        e.identity
      Run.logAll (edges.map (·.record))
      return edges

/-- Patterns whose edges name their interface in a cast. -/
def castPatterns : List String := ["direct", "variable"]

/-- The tree of a declaration met at `depth` below the declarations of identities `path`, with
`left` levels left to expand.  Calls through interfaces are shown from two levels on. -/
def expand (env : Environment) (options : Options) :
    (left : Nat) → (depth : Nat) → (path : List String) → Entity → Run CallTree
  | 0, depth, _, e => return .node (leafOf e depth) []
  | left + 1, depth, path, e => do
    if path.contains e.identity then return .node (leafOf e depth) []
    else do
      let edges ← if left = 0 then pure [] else detectEdges options e
      let typeNames := (← Run.session).repository.contractNames ++
        (edges.filter fun edge => castPatterns.contains edge.pattern).map (·.interface)
      let statics ← staticCalls (expand env options left (depth + 1) (e.identity :: path)) e
        (depth + 1) typeNames edges e.calls
      let interfaces ← interfaceCalls env options e (depth + 1) (remainingEdges edges statics)
      return .node (leafOf e depth) (statics.map (·.tree) ++ interfaces)

/-- The call tree of a declaration, at most `bound` deep. -/
def build (env : Environment) (options : Options) (e : Entity) (bound : Int) : Run CallTree :=
  expand env options bound.toNat 0 [] e

end CallAtlas.CallTree

import CallAtlas.Interface.Binding

/-!
# Call trees

A call tree shows what a function calls, what those calls call, and so on.  A node stands for a
known declaration, for a call that could not be followed, or for a call through an interface.
-/

namespace CallAtlas

/-- How a call goes through an interface. -/
structure Route where
  interface : String
  /-- Name of the pattern that found the call. -/
  pattern : String
  /-- The implementation believed in. -/
  binding : Option Binding := none
  /-- The implementation's member that the call reaches. -/
  member : Option Entity := none
deriving DecidableEq, Repr

/-- What a node shows apart from its children. -/
structure CallNode where
  /-- Nodes of equal identity show the same thing. -/
  identity : String
  name : String
  depth : Int
  /-- Whether the call could not be followed. -/
  external : Bool := false
  definition : Option Entity := none
  /-- How many arguments a call that could not be followed has. -/
  arguments : Option Int := none
  route : Option Route := none
deriving DecidableEq, Repr, Nonempty

/-- A node with the calls it makes. -/
inductive CallTree where
  | node (root : CallNode) (children : List CallTree)
deriving Repr, Nonempty

/-- What a node stands for. -/
inductive CallKind where
  | internal
  | external
  | interface
deriving DecidableEq, Repr

/-- The word for a kind of node. -/
def CallKind.word : CallKind → String
  | internal => "internal"
  | external => "external"
  | interface => "interface"

/-- What the node stands for. -/
def CallNode.kind (n : CallNode) : CallKind :=
  if n.route.isSome then .interface else if n.external then .external else .internal

/-- What a route adds to a node in reports. -/
def Route.fields (r : Route) : List (String × Document) :=
  [("interface", .text r.interface), ("pattern", .text r.pattern)] ++
    match r.binding with
    | none => []
    | some b =>
      [("implementation", .table (b.fields ++
        match r.member with
        | none => []
        | some m => [("implementedFunction", .text m.signature)]))]

/-- The fields of a node in reports, apart from its children. -/
def CallNode.fields (n : CallNode) : List (String × Document) :=
  [("name", .text n.name), ("depth", .int n.depth), ("type", .text n.kind.word)] ++
    (match n.definition with
      | none => []
      | some e => [("signature", .text e.signature), ("file", .text e.file)]) ++
    (if n.external then [("external", .bool true)] else []) ++
    (match n.arguments with
      | none => []
      | some count => [("arguments", .int count)]) ++
    (match n.route with
      | none => []
      | some r => r.fields)

/-- One line about a node. -/
def CallNode.label (n : CallNode) : String :=
  match n.route with
  | some r =>
    n.name ++ " (interface: " ++ r.interface ++ ") [" ++ r.pattern ++ "]" ++
      (match r.binding with
        | none => ""
        | some b => " -> " ++ b.contract) ++
      (match n.definition with
        | none => ""
        | some e => " - " ++ e.signature)
  | none =>
    if n.external then n.name ++ " (external, " ++ toString (n.arguments.getD 0) ++ " args)"
    else
      match n.definition with
      | none => n.name
      | some e => n.name ++ " - " ++ e.signature

namespace CallTree

/-- The node at the root. -/
def root : CallTree → CallNode
  | node root _ => root

/-- The trees below the root, in order. -/
def children : CallTree → List CallTree
  | node _ children => children

mutual

/-- The tree and all trees below it, a tree before those below it. -/
def subtrees : CallTree → List CallTree
  | node root children => node root children :: subtreesOfAll children

/-- The trees of a list with all trees below them. -/
def subtreesOfAll : List CallTree → List CallTree
  | [] => []
  | t :: ts => subtrees t ++ subtreesOfAll ts

end

/-- All nodes, a node before those below it. -/
def nodes (t : CallTree) : List CallNode :=
  t.subtrees.map root

mutual

/-- The tree as reports show it. -/
def toDocument : CallTree → Document
  | node root children => .table (root.fields ++ [("calls", .list (toDocuments children))])

/-- Trees as reports show them. -/
def toDocuments : List CallTree → List Document
  | [] => []
  | t :: ts => toDocument t :: toDocuments ts

end

/-- The greatest depth at which there is a node. -/
def maxDepth (t : CallTree) : Int :=
  (t.nodes.map (·.depth)).foldl max t.root.depth

/-- How many nodes there are at each depth that occurs, by depth. -/
def depthDistribution (t : CallTree) : List (Int × Nat) :=
  let depths := t.nodes.map (·.depth)
  ((keepFirst id depths).mergeSort fun a b => decide (a ≤ b)).map fun d => (d, depths.count d)

end CallTree

end CallAtlas

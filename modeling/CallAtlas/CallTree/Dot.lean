import CallAtlas.CallTree

/-!
# Call trees as Graphviz graphs

Nodes of equal identity become one node of the graph, and repeated calls between the same two one
edge.  The graph is built as a list of statements, in which nodes go by number, and then written.
-/

namespace CallAtlas.CallTree

/-- A statement of a graph. -/
inductive DotStatement where
  /-- Declares a node by its number, with its label and what it stands for. -/
  | node (number : Nat) (label : String) (kind : CallKind)
  /-- Joins two nodes. -/
  | edge (source target : Nat)
deriving DecidableEq, Repr

/-- How nodes of a kind are drawn. -/
def dotStyle : CallKind → String
  | .internal => "shape=box, style=\"rounded,filled\", fillcolor=\"#dbeafe\""
  | .external => "shape=box, style=\"dashed\", color=\"#9ca3af\""
  | .interface => "shape=box, style=\"rounded,filled\", fillcolor=\"#fef3c7\""

/-- A label between double quotes: quote and backslash take a backslash. -/
def dotEscape (s : String) : String :=
  String.ofList (s.toList.flatMap fun c => if c = '\\' || c = '"' then ['\\', c] else [c])

/-- A statement as it is written. -/
def DotStatement.text : DotStatement → String
  | node number label kind =>
    "  n" ++ toString number ++ " [label=\"" ++ dotEscape label ++ "\", " ++ dotStyle kind ++ "];"
  | edge source target => "  n" ++ toString source ++ " -> n" ++ toString target ++ ";"

/-- A graph under construction. -/
structure DotGraph where
  /-- The identities declared so far; the position is the number of the node. -/
  declared : List String := []
  /-- The statements made so far. -/
  statements : List DotStatement := []
deriving DecidableEq, Repr

namespace DotGraph

/-- The number of an identity. -/
def number (g : DotGraph) (identity : String) : Nat :=
  g.declared.idxOf identity

/-- Declares a node, unless its identity is declared. -/
def declare (g : DotGraph) (n : CallNode) : DotGraph :=
  if g.declared.contains n.identity then g
  else
    { declared := g.declared ++ [n.identity]
      statements := g.statements ++ [.node g.declared.length n.label n.kind] }

/-- Joins two nodes, unless they are joined. -/
def connect (g : DotGraph) (source target : Nat) : DotGraph :=
  if g.statements.contains (.edge source target) then g
  else { g with statements := g.statements ++ [.edge source target] }

/-- Declares a child and joins it to the node numbered `source`. -/
def addChild (source : Nat) (g : DotGraph) (child : CallNode) : DotGraph :=
  let g := g.declare child
  g.connect source (g.number child.identity)

/-- Declares a node and joins its children to it. -/
def addTree (g : DotGraph) (t : CallTree) : DotGraph :=
  let g := g.declare t.root
  (t.children.map root).foldl (addChild (g.number t.root.identity)) g

end DotGraph

/-- The graph of a tree. -/
def dotGraph (t : CallTree) : DotGraph :=
  t.subtrees.foldl DotGraph.addTree {}

/-- The text of the graph of a tree. -/
def dot (t : CallTree) : String :=
  Text.join "\n" (["digraph CallTree \x7b", "  rankdir=LR;"] ++
    (dotGraph t).statements.map DotStatement.text ++ ["\x7d"])

end CallAtlas.CallTree

import CallAtlas.CallTree
import CallAtlas.Text.Markup

/-!
# Console output

What a command shows, as data: marked-up lines, tables, panels and trees.
-/

namespace CallAtlas.Command

open CallAtlas.Text

/-- A tree of labels. -/
inductive LabelTree where
  | node (label : String) (children : List LabelTree)
deriving Repr

/-- Something shown on the console. -/
inductive Output where
  | line (text : String)
  | table (title : String) (columns : List String) (rows : List (List String))
  | panel (title text : String)
  | tree (labels : LabelTree)
deriving Repr

/-- The style in which a node is shown. -/
def styleOf : CallKind → String
  | .internal => "green"
  | .external => "dim"
  | .interface => "yellow"

/-- The label of a node in its style. -/
def styledLabel (n : CallNode) : String :=
  let style := styleOf n.kind
  "[" ++ style ++ "]" ++ Markup.escape n.label ++ "[/" ++ style ++ "]"

mutual

/-- A call tree with the labels it is shown with. -/
def labelTree : CallTree → LabelTree
  | .node root children => .node (styledLabel root) (labelTrees children)

/-- Call trees with the labels they are shown with. -/
def labelTrees : List CallTree → List LabelTree
  | [] => []
  | t :: ts => labelTree t :: labelTrees ts

end

end CallAtlas.Command

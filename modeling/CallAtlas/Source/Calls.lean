import CallAtlas.Entity
import CallAtlas.Source.Node

/-!
# Call sites in a syntax tree

`collectCalls` lists the calls and emitted events inside a body in source order, an enclosing call
before the calls in its arguments.  A call is recorded under the dotted name of its target; a
member called on the result of another call keeps only the member's name.
-/

namespace CallAtlas.Source

variable (text : Node → String)

mutual

/-- The name under which a call of the target is recorded, if it has one. -/
def callName : Node → Option String
  | .mk type named field start stop children =>
    if type = "expression" || type = "parenthesized_expression" then wrappedName children
    else if type = "identifier" then some (text (.mk type named field start stop children))
    else if type = "member_expression" then
      match children.find? fun c => c.field == some "property" with
      | none => none
      | some property =>
        match objectName children with
        | some base => some (if base = "" then text property else base ++ "." ++ text property)
        | none => some (text property)
    else none

/-- The name of what a wrapper encloses, its first named child. -/
def wrappedName : List Node → Option String
  | [] => none
  | c :: cs => if c.named then callName c else wrappedName cs

/-- The name of the receiver, the first child in the field `object`. -/
def objectName : List Node → Option String
  | [] => none
  | c :: cs => if c.field = some "object" then callName c else objectName cs

end

/-- The target of a call: the child in the field `function`, or else the first named child. -/
def callTarget? (n : Node) : Option Node :=
  (n.child? "function").or n.namedChildren.head?

/-- How many arguments a call has: its named children apart from the target and comments. -/
def argumentCount (n target : Node) : Nat :=
  (n.namedChildren.filter fun c => c.type != "comment").length -
    (if target.named && target.type != "comment" then 1 else 0)

/-- The call that the node itself makes, if it is one with a named target. -/
def callAt? (n : Node) : Option Call :=
  if n.type = "call_expression" then do
    let target ← callTarget? n
    let name ← callName text target
    if name = "" then none else some ⟨name, argumentCount n target⟩
  else if n.type = "emit_statement" then do
    let target ← n.child? "name"
    let name ← callName text target
    if name = "" then none
    else some ⟨name, (n.namedChildren.filter fun c => c.type == "call_argument").length⟩
  else none

mutual

/-- The calls at and below a node, in source order. -/
def collectCalls : Node → List Call
  | .mk type named field start stop children =>
    (callAt? text (.mk type named field start stop children)).toList ++ collectCallsOfAll children

/-- The calls at and below each of the nodes. -/
def collectCallsOfAll : List Node → List Call
  | [] => []
  | c :: cs => collectCalls c ++ collectCallsOfAll cs

end

end CallAtlas.Source

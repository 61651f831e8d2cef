import CallAtlas.Signature
import CallAtlas.Source.Calls
import CallAtlas.Source.Parser

/-!
# Declarations in a syntax tree

The walk over a Solidity syntax tree that finds imports, free functions and events at the top
level, and the members of contracts, interfaces and libraries.  `grammarParser` makes a parser out
of a grammar.
-/

namespace CallAtlas.Source

open CallAtlas.Text

/-- Whether a node declares a function of some sort. -/
def isFunctionNode (n : Node) : Bool :=
  n.type == "function_definition" || n.type == "constructor_definition" ||
    n.type == "fallback_receive_definition"

/-- Whether a node declares a contract, an interface or a library. -/
def isContainerNode (n : Node) : Bool :=
  n.type == "contract_declaration" || n.type == "interface_declaration" ||
    n.type == "library_declaration"

/-- Where and how the text of a file is read. -/
structure Reading where
  file : String
  bytes : Bytes
  includeSource : Bool

namespace Reading

variable (r : Reading)

/-- The text of a node, empty when there is none. -/
def textOf (n : Option Node) : String :=
  (n.map r.bytes.text).getD ""

/-- The text of the first child of a given type, without blanks around it. -/
def keyword? (n : Node) (type : String) : Option String :=
  (n.childOfType? type).map fun c => trim (r.bytes.text c)

/-- A declared parameter. -/
def parameter (n : Node) : Parameter where
  name := r.textOf (n.child? "name")
  type := ((n.child? "type").map fun t => Signature.normalizeType (r.bytes.text t)).getD "unknown"

/-- The parameters among the children. -/
def parameters (n : Node) : List Parameter :=
  (n.childrenOfType "parameter").map r.parameter

/-- The parameters of an event, with the indexed ones marked. -/
def eventParameters (n : Node) : List Parameter :=
  (n.childrenOfType "event_parameter").map fun p =>
    { r.parameter p with indexed := p.hasChildOfType "indexed" }

/-- The values a function returns. -/
def returns (n : Node) : List Parameter :=
  match (n.child? "return_type").or (n.childOfType? "return_type_definition") with
  | none => []
  | some values => (values.namedChildren.filter (·.type == "parameter")).map r.parameter

/-- The calls in the body of a function or modifier. -/
def bodyCalls (n : Node) : List Call :=
  match (n.child? "body").or (n.childOfType? "function_body") with
  | none => []
  | some body => collectCalls r.bytes.text body

/-- The name of an invoked modifier or base: what stands before its arguments. -/
def modifierName (n : Node) : String :=
  String.ofList (trimBy isBlank (beforeFirst '(' (r.bytes.text n).toList))

/-- The source text of a declaration, where it is kept. -/
def sourceOf (n : Node) : Option String :=
  if r.includeSource then some (r.bytes.text n) else none

/-- The visibility, or `default` when none is written. -/
def visibility (n : Node) (default : String) : String :=
  match r.keyword? n "visibility" with
  | none => default
  | some v => if v = "" then default else v

/-- The name of a function.  Constructors, fallbacks and receivers go by what they are. -/
def functionName (n : Node) : String :=
  if n.type = "constructor_definition" then "constructor"
  else if n.type = "fallback_receive_definition" then
    if n.hasChildOfType "receive" then "receive" else "fallback"
  else ((n.child? "name").map r.bytes.text).getD "<unnamed>"

/-- A function, constructor, fallback or receiver. -/
def function (n : Node) (contract : String) : Entity :=
  let name := r.functionName n
  let parameters := r.parameters n
  let returns := r.returns n
  let visibility := r.visibility n (if name = "constructor" then "public" else "internal")
  let mutability := (r.keyword? n "state_mutability").getD
    (if n.hasChildOfType "payable" then "payable" else "nonpayable")
  { kind := .function
    name := name
    signature := Signature.build name parameters returns visibility mutability
    file := r.file
    contract := contract
    visibility := visibility
    mutability := mutability
    parameters := parameters
    returns := returns
    modifiers := (n.childrenOfType "modifier_invocation").map r.modifierName
    calls := r.bodyCalls n
    startLine := r.bytes.line n.start
    endLine := r.bytes.line n.stop
    source := r.sourceOf n }

/-- A modifier. -/
def modifier (n : Node) (contract : String) : Entity :=
  let name := r.textOf (n.child? "name")
  let parameters := r.parameters n
  { kind := .modifier
    name := name
    signature := name ++ "(" ++ Signature.parameterList parameters ++ ")"
    file := r.file
    contract := contract
    parameters := parameters
    calls := r.bodyCalls n
    startLine := r.bytes.line n.start
    endLine := r.bytes.line n.stop
    source := r.sourceOf n }

/-- An event. -/
def event (n : Node) (contract : String) : Entity :=
  let name := r.textOf (n.child? "name")
  let parameters := r.eventParameters n
  { kind := .event
    name := name
    signature := name ++ "(" ++ Signature.parameterList parameters ++ ")"
    file := r.file
    contract := contract
    visibility := "public"
    parameters := parameters
    startLine := r.bytes.line n.start
    endLine := r.bytes.line n.stop
    source := r.sourceOf n }

/-- A state variable; without a name it declares nothing. -/
def stateVariable? (n : Node) (contract : String) : Option Entity := do
  let nameNode ← n.child? "name"
  let name := r.bytes.text nameNode
  let type :=
    ((n.child? "type").map fun t => Signature.normalizeType (r.bytes.text t)).getD "unknown"
  let visibility := r.visibility n "internal"
  return {
    kind := .stateVariable
    name := name
    signature := type ++ " " ++ visibility ++ " " ++ name
    file := r.file
    contract := contract
    visibility := visibility
    variableType := type
    startLine := r.bytes.line n.start
    endLine := r.bytes.line n.stop
    source := r.sourceOf n }

/-- What a node declares as a member of `contract`. -/
def member? (n : Node) (contract : String) : Option Entity :=
  if isFunctionNode n then some (r.function n contract)
  else if n.type = "modifier_definition" then some (r.modifier n contract)
  else if n.type = "event_definition" then some (r.event n contract)
  else if n.type = "state_variable_declaration" then r.stateVariable? n contract
  else none

/-- The members of a contract, interface or library. -/
def containerMembers (n : Node) : List Entity :=
  match (n.child? "body").or (n.childOfType? "contract_body") with
  | none => []
  | some body => body.namedChildren.filterMap fun m => r.member? m (r.textOf (n.child? "name"))

/-- What a node at the top level of a file declares. -/
def topLevel (n : Node) : List Entity :=
  if isContainerNode n then r.containerMembers n
  else if isFunctionNode n || n.type == "event_definition" then (r.member? n "").toList
  else []

/-- The path that an import at the top level names; an empty one imports nothing. -/
def importOf? (n : Node) : Option Import.Reference :=
  if n.type = "import_directive" then do
    let source ← (n.child? "source").or (n.childOfType? "string")
    let path := Import.clean (r.bytes.text source)
    if path = "" then none else some ⟨path, r.file⟩
  else none

/-- All that a file declares and imports. -/
def declarations (tree : Tree) : Declarations where
  entities := tree.root.children.flatMap r.topLevel
  imports := tree.root.children.filterMap r.importOf?
  damaged := tree.damaged

end Reading

/-- Why there is no grammar. -/
inductive GrammarFault where
  /-- It cannot be loaded. -/
  | unavailable (reason : String)
  /-- Loading it broke off. -/
  | broken
deriving DecidableEq, Repr

/-- How much a parser keeps and tolerates. -/
structure ParserOptions where
  /-- Whether declarations keep their source text. -/
  includeSource : Bool := true
  /-- Whether a text that does not fit the grammar is refused even if parts of it are readable. -/
  strict : Bool := false

/-- The declarations of a tree, unless the text behind it has to be refused. -/
def ofTree (options : ParserOptions) (tree : Tree) (source file : String) :
    Except ParseFault Declarations :=
  let found := Reading.declarations ⟨file, .ofText source, options.includeSource⟩ tree
  if tree.damaged && (options.strict || (found.entities.isEmpty && found.imports.isEmpty)) then
    .error .syntaxError
  else .ok found

/-- The parser that reads with a grammar.  The grammar is loaded on first use. -/
def grammarParser (options : ParserOptions) :
    Except GrammarFault (String → Tree) → Parser
  | .error (.unavailable reason) => { parse := fun _ _ => .error (.grammarUnavailable reason) }
  | .error .broken => { parse := fun _ _ => .error .broken }
  | .ok grammar =>
    { parse := fun source file => ofTree options (grammar source) source file
      onFirstUse := [.debug "Loaded tree-sitter Solidity grammar"] }

end CallAtlas.Source

import CallAtlas.CallTree
import CallAtlas.Interface.Binding
import CallAtlas.Log
import CallAtlas.Text.Scan

/-!
# Calls through interfaces

A call through an interface looks like any other member call, so it is found in the text of a
function by four patterns, from the most to the least precise:

* `direct`: a cast and a call, `Name(expr).method(`;
* `variable`: a handle declared as `Name handle = Name(expr);`, then `handle.method(`;
* `method`: `x.method(` for a method that some interface declares;
* `byname`: a function of an interface file called by its name.

`detect` runs patterns in order.  An edge found earlier is neither replaced nor removed by a later
pattern.
-/

namespace CallAtlas.Interface

open CallAtlas.Text

/-- A call of `method` through `interface`. -/
structure Edge where
  /-- The name of what is called. -/
  callee : String
  kind : CallKind
  interface : String
  method : String
  /-- Name of the pattern that found the call. -/
  pattern : String
  /-- The declaration of the method, where one is known. -/
  definition : Option Entity
  /-- Identity of the calling function. -/
  caller : String := ""
  /-- The implementation, once it is decided. -/
  binding : Option Binding := none
deriving DecidableEq, Repr

/-- The edge that a pattern finds. -/
def Edge.of (interface method pattern : String) (definition : Option Entity) : Edge where
  callee := interface ++ "." ++ method
  kind := .interface
  interface := interface
  method := method
  pattern := pattern
  definition := definition

/-! ### Comments and declarations in the text -/

/-- What follows the first end of a block comment. -/
def afterBlock? : List Char → Option (List Char)
  | [] => none
  | '*' :: '/' :: s => some s
  | _ :: s => afterBlock? s

/-- A comment, which becomes one blank: a block up to its end, or the rest of a line.  A block that
is never closed is no comment. -/
def comment : Recogniser (List Char)
  | _, '/' :: '*' :: s => (afterBlock? s).map fun s => ([' '], s)
  | _, '/' :: '/' :: s => some ([' '], s.dropWhile (· != '\n'))
  | _, _ => none

/-- The text with comments blanked. -/
def stripComments (text : List Char) : List Char :=
  replaceHits comment text

/-- The head of a declaration, which becomes one blank: a keyword and the declared name. -/
def declarationHead : Recogniser (List Char) := fun before s =>
  if atWordEdge before s then do
    let s ← ((dropFront? "function".toList s).or (dropFront? "modifier".toList s)).or
      (dropFront? "event".toList s)
    let s ← blanks? s
    let (_, s) ← word? s
    return ([' '], s)
  else none

/-! ### Calls in the text -/

/-- A member called on a receiver, both as words. -/
structure MemberCall where
  receiver : List Char
  method : List Char
deriving DecidableEq, Repr

/-- Takes an opening parenthesis, at least one character that does not close it, and the closing
parenthesis. -/
def enclosed? (s : List Char) : Option (List Char) := do
  let s ← take? '(' s
  if s.takeWhile (· != ')') = [] then none else take? ')' (s.dropWhile (· != ')'))

/-- A cast and a call on it, `Name(expr).method(`.  The cast is the receiver. -/
def directCast : Recogniser MemberCall := fun _ s => do
  let (name, s) ← word? s
  let s ← enclosed? s
  let s ← take? '.' s
  let (method, s) ← word? s
  let s ← take? '(' (skipBlanks s)
  return (⟨name, method⟩, s)

/-- A declared handle, `Type handle = Name(expr);`. -/
structure Handle where
  type : List Char
  name : List Char
deriving DecidableEq, Repr

/-- A handle declaration. -/
def handleDeclaration : Recogniser Handle := fun _ s => do
  let (type, s) ← word? s
  let s ← blanks? s
  let (name, s) ← word? s
  let s ← take? '=' (skipBlanks s)
  let (_, s) ← word? (skipBlanks s)
  let s ← enclosed? s
  let s ← take? ';' s
  return (⟨type, name⟩, s)

/-- A call of a member, `receiver.method(`. -/
def memberCall : Recogniser MemberCall := fun _ s => do
  let (receiver, s) ← word? s
  let s ← take? '.' s
  let (method, s) ← word? s
  let s ← take? '(' (skipBlanks s)
  return (⟨receiver, method⟩, s)

/-- Receivers that the language provides; they are never handles. -/
def reservedReceivers : List (List Char) :=
  ["msg".toList, "block".toList, "tx".toList, "this".toList, "super".toList]

/-- Whether `name` is called in the text behind `before`: at the edge of a word, and followed by
an opening parenthesis. -/
def callsName (name : List Char) : (before : Option Char) → List Char → Bool
  | _, [] => false
  | before, c :: s =>
    (atWordEdge before (c :: s) &&
        ((dropFront? name (c :: s)).any fun rest => (skipBlanks rest).head? == some '(')) ||
      callsName name (some c) s

/-! ### Patterns -/

/-- The declaration of a method in a file whose name contains `fragment`; events do not count. -/
def memberInFile? (entities : List Entity) (method fragment : String) : Option Entity :=
  entities.find? fun e =>
    e.name == method && e.kind != .event && contains (Path.basename e.file) fragment

/-- Edges for casts: the cast names the interface. -/
def directEdges (text : String) (entities : List Entity) : List Edge :=
  (hits directCast (stripComments text.toList)).map fun call =>
    let interface := String.ofList call.receiver
    let method := String.ofList call.method
    .of interface method "direct" (memberInFile? entities method interface)

/-- The type of a handle; of several declarations of one name the last counts. -/
def handleType? (handles : List Handle) (name : List Char) : Option (List Char) :=
  (handles.reverse.find? fun h => h.name == name).map (·.type)

/-- Edges for calls on declared handles. -/
def handleEdges (text : String) (entities : List Entity) : List Edge :=
  let text := stripComments text.toList
  let handles := hits handleDeclaration text
  (hits memberCall text).filterMap fun call =>
    if reservedReceivers.contains call.receiver then none
    else (handleType? handles call.receiver).map fun type =>
      let interface := String.ofList type
      let method := String.ofList call.method
      .of interface method "variable" (memberInFile? entities method interface)

/-- The first declaration of a method in an interface file or with external visibility. -/
def interfaceMethod? (entities : List Entity) (method : String) : Option Entity :=
  entities.find? fun e =>
    e.name == method && e.kind != .event &&
      (looksLikeInterface e.file || e.visibility == "external")

/-- Edges for calls of methods that an interface declares. -/
def methodEdges (text : String) (entities : List Entity) : List Edge :=
  (hits memberCall (stripComments text.toList)).filterMap fun call =>
    if reservedReceivers.contains call.receiver then none
    else
      let method := String.ofList call.method
      (interfaceMethod? entities method).map fun e => .of e.ownerName method "method" (some e)

/-- Edges for functions of interface files whose names are called. -/
def nameEdges (text : String) (entities : List Entity) : List Edge :=
  let text := replaceHits declarationHead (stripComments text.toList)
  (entities.filter fun e =>
      e.kind == .function && looksLikeInterface e.file && callsName e.name.toList none text).map
    fun e => .of e.ownerName e.name "byname" (some e)

/-- A way to find edges in a text, given the known declarations. -/
structure Pattern where
  name : String
  edges : String → List Entity → List Edge
  /-- Whether an edge is left out when an earlier one has its method. -/
  skipsKnownMethods : Bool := false

/-- The pattern of casts. -/
def Pattern.direct : Pattern := { name := "direct", edges := directEdges }

/-- The pattern of declared handles. -/
def Pattern.handle : Pattern := { name := "variable", edges := handleEdges }

/-- The pattern of interface methods. -/
def Pattern.member : Pattern := { name := "method", edges := methodEdges }

/-- The pattern of called names. -/
def Pattern.byName : Pattern := { name := "byname", edges := nameEdges, skipsKnownMethods := true }

/-- All patterns, the most precise first. -/
def Pattern.all : List Pattern :=
  [.direct, .handle, .member, .byName]

/-! ### Merging -/

/-- Whether an edge adds something to those found so far. -/
def Pattern.admits (p : Pattern) (found : List Edge) (e : Edge) : Bool :=
  !(found.any fun f => f.callee == e.callee) &&
    !(p.skipsKnownMethods && found.any fun f => f.method == e.method)

/-- Adds an edge of a pattern to those found so far. -/
def Pattern.merge (p : Pattern) (caller : String) (found : List Edge) (e : Edge) : List Edge :=
  if p.admits found e then found ++ [{ e with caller := caller }] else found

/-- Adds all edges of a pattern to those found so far. -/
def detectWith (text : String) (entities : List Entity) (caller : String) (found : List Edge)
    (p : Pattern) : List Edge :=
  (p.edges text entities).foldl (p.merge caller) found

/-- The edges that the patterns find in the text of `caller`. -/
def detect (patterns : List Pattern) (text : String) (entities : List Entity) (caller : String) :
    List Edge :=
  patterns.foldl (detectWith text entities caller) []

/-- What is logged about a detected edge. -/
def Edge.record (e : Edge) : Log.Record :=
  .debug ("  " ++ e.pattern ++ " call: " ++ e.callee ++ " (found def: " ++
    (if e.definition.isSome then "True" else "False") ++ ")")

end CallAtlas.Interface

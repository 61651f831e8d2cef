import CallAtlas.Document
import CallAtlas.Path

/-!
# Declarations

An entity is one declaration of a source file: a function, a modifier, an event or a state
variable, with the calls its body makes.  Entities are told apart by their identity, which joins
file, name and signature.
-/

namespace CallAtlas

/-- What is declared. -/
inductive Kind where
  | function
  | modifier
  | event
  | stateVariable
  /-- Any other kind, by its name. -/
  | other (name : String)
deriving DecidableEq, Repr

/-- The kind of a given name. -/
def Kind.ofName (name : String) : Kind :=
  if name = "function" then .function
  else if name = "modifier" then .modifier
  else if name = "event" then .event
  else if name = "stateVariable" then .stateVariable
  else .other name

/-- The name of a kind. -/
def Kind.name : Kind → String
  | function => "function"
  | modifier => "modifier"
  | event => "event"
  | stateVariable => "stateVariable"
  | other name => name

/-- A parameter or a returned value.  The name may be empty. -/
structure Parameter where
  name : String := ""
  type : String
  indexed : Bool := false
deriving DecidableEq, Repr

/-- A call site as written, before anything is looked up. -/
structure Call where
  name : String
  arguments : Int := 0
deriving DecidableEq, Repr

/-- A declaration. -/
structure Entity where
  kind : Kind := .function
  name : String
  signature : String
  file : String
  contract : String := ""
  visibility : String := "internal"
  mutability : String := "nonpayable"
  parameters : List Parameter := []
  returns : List Parameter := []
  modifiers : List String := []
  calls : List Call := []
  variableType : String := ""
  startLine : Int := 0
  endLine : Int := 0
  source : Option String := none
deriving DecidableEq, Repr

namespace Entity

/-- The text by which entities are told apart. -/
def identity (e : Entity) : String :=
  e.file ++ ":" ++ e.name ++ ":" ++ e.signature

/-- The declaring contract, or the stem of the file when the contract is unknown. -/
def ownerName (e : Entity) : String :=
  if e.contract = "" then Path.stem e.file else e.contract

end Entity

/-- A parameter as reports show it. -/
def Parameter.toDocument (p : Parameter) : Document :=
  .table [("name", .text p.name), ("type", .text p.type), ("indexed", .bool p.indexed)]

/-- The fields of an entity in reports.  Only functions show mutability, returned values and
modifiers, only state variables their type, and the source text is there on request. -/
def Entity.fields (e : Entity) (includeSource : Bool) : List (String × Document) :=
  [("type", .text e.kind.name), ("name", .text e.name), ("signature", .text e.signature),
      ("file", .text e.file), ("contract", .text e.contract), ("visibility", .text e.visibility),
      ("parameters", .list (e.parameters.map Parameter.toDocument)),
      ("location", .table [("start", .int e.startLine), ("end", .int e.endLine)])] ++
    (if e.kind = .function then
      [("stateMutability", .text e.mutability),
        ("returnParameters", .list (e.returns.map Parameter.toDocument)),
        ("modifiers", .texts e.modifiers)]
    else []) ++
    (if e.kind = .stateVariable then [("variableType", .text e.variableType)] else []) ++
    (match includeSource, e.source with
      | true, some text => [("sourceCode", .text text)]
      | _, _ => [])

/-- An entity as reports show it. -/
def Entity.toDocument (e : Entity) (includeSource : Bool) : Document :=
  .table (e.fields includeSource)

end CallAtlas

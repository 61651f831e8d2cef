import CallAtlas.Number.Ratio
import CallAtlas.Repository

/-!
# Implementations of interfaces

An interface is bound to the file believed to implement it.  This module has the names under which
implementations are looked for, the comparison of members, and the binding itself.  Members match
on name and parameter types; returned values, visibility and mutability play no part.
-/

namespace CallAtlas

open CallAtlas.Text

namespace Interface

/-- The text without the occurrences of `part`, found from left to right without overlap.  The
next `skip` characters belong to an occurrence. -/
def removeFrom (part : List Char) : Nat → List Char → List Char
  | _, [] => []
  | skip + 1, _ :: s => removeFrom part skip s
  | 0, c :: s =>
    if part.isPrefixOf (c :: s) then removeFrom part (part.length - 1) s
    else c :: removeFrom part 0 s

/-- The interface that a file path or a bare name stands for. -/
def nameOf (identifier : String) : String :=
  String.ofList (removeFrom ".sol".toList 0 (Path.basename identifier).toList)

/-- An interface name without the leading `I` that marks it. -/
def withoutMarker (name : String) : String :=
  match name.toList with
  | 'I' :: c :: rest => if c.isUpper then String.ofList (c :: rest) else name
  | _ => name

/-- `name` with its first character in lower case. -/
def uncapitalized (name : String) : String :=
  lower (String.ofList (name.toList.take 1)) ++ String.ofList (name.toList.drop 1)

/-- Names of possible implementations of an interface, in order of preference. -/
def candidateNames (interface : String) : List String :=
  let base := withoutMarker interface
  keepFirst id ([base, base ++ "Impl", base ++ "Contract", base ++ "Implementation",
    "Concrete" ++ base, interface ++ "Impl", lower base, uncapitalized base].filter (· != ""))

/-- Directories in which implementations are looked for. -/
def implementationDirectories : List String :=
  ["contracts", "src", "contracts/implementations", "contracts/impl", "src/implementations",
    "contracts/core", "src/core", "lib", ""]

/-- Paths at which a contract of a given name is looked for. -/
def implementationPaths (contract : String) : List String :=
  keepFirst id (implementationDirectories.flatMap fun directory =>
    let front := if directory = "" then "" else directory ++ "/"
    [contract ++ ".sol", lower contract ++ ".sol", contract ++ "Contract.sol",
      contract ++ "Impl.sol"].map (front ++ ·))

/-- Whether a member implements a member of an interface. -/
def compatible (interfaceMember member : Entity) : Bool :=
  interfaceMember.name == member.name &&
    interfaceMember.parameters.map (·.type) == member.parameters.map (·.type)

/-- A member of an interface with the member that implements it. -/
structure Match where
  interfaceMember : Entity
  implementation : Entity
deriving DecidableEq, Repr

/-- The members of an interface that have an implementation among `members`, each with the first
one. -/
def matchMembers (interfaceMembers members : List Entity) : List Match :=
  interfaceMembers.filterMap fun m => (members.find? (compatible m)).map fun i => ⟨m, i⟩

/-- The share of an interface that is implemented. -/
def matchRatio (found : List Match) (interfaceMembers : List Entity) : Number.Ratio :=
  ⟨found.length, max interfaceMembers.length 1⟩

/-- How an implementation was found. -/
inductive Strategy where
  /-- Among known files, by its name. -/
  | name
  /-- Fetched by its name. -/
  | remote
  /-- Among known files, by its members. -/
  | scan
  /-- In some other way, given by a word. -/
  | other (word : String)
deriving DecidableEq, Repr

/-- The word for a strategy. -/
def Strategy.word : Strategy → String
  | name => "name"
  | remote => "remote"
  | scan => "scan"
  | other word => word

/-- The strategy for a word. -/
def Strategy.ofWord (word : String) : Strategy :=
  if word = "name" then .name
  else if word = "remote" then .remote
  else if word = "scan" then .scan
  else .other word

end Interface

/-- An interface with the file believed to implement it. -/
structure Binding where
  interface : String
  file : String
  contract : String
  ratio : Number.Ratio
  members : List Interface.Match := []
  strategy : Interface.Strategy := .name
deriving DecidableEq, Repr

namespace Binding

/-- The implementation of a method. -/
def memberFor? (b : Binding) (method : String) : Option Entity :=
  (b.members.find? fun m => m.interfaceMember.name == method).map (·.implementation)

/-- The fields of a binding in reports. -/
def fields (b : Binding) : List (String × Document) :=
  [("interface", .text b.interface), ("contractName", .text b.contract), ("file", .text b.file),
    ("matchRatio", .real b.ratio.rounded), ("strategy", .text b.strategy.word),
    ("matchedMembers", .list (b.members.map fun m =>
      .table [("interface", .text m.interfaceMember.signature),
        ("implementation", .text m.implementation.signature)]))]

/-- A binding as reports show it. -/
def toDocument (b : Binding) : Document :=
  .table b.fields

/-- The binding of an interface to `file`, for members found in that order. -/
def ofMatches (interface file : String) (found : List Interface.Match)
    (interfaceMembers : List Entity) (strategy : Interface.Strategy) : Binding where
  interface := interface
  file := file
  contract := (found.head?.map fun m => m.implementation.ownerName).getD (Interface.nameOf file)
  ratio := Interface.matchRatio found interfaceMembers
  members := found
  strategy := strategy

end Binding

end CallAtlas

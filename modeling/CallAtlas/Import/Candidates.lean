import CallAtlas.Import.Path
import CallAtlas.Location
import CallAtlas.Ordered

/-!
# Where an import may be found

The locations to try for an import, in order of preference.  The beginning of a known library maps
straight to that library's repository.  Otherwise come the homes of widely used contracts, then
guesses at the layout of the importing repository.  No location is listed twice.
-/

namespace CallAtlas.Import

open CallAtlas.Text

/-- A library known by the beginning of its imports. -/
structure Library where
  front : String
  home : Coords
deriving DecidableEq, Repr

/-- The known libraries. -/
def libraries : List Library :=
  [⟨"solady/", ⟨"Vectorized", "solady", "main", ""⟩⟩,
    ⟨"openzeppelin-contracts/", ⟨"OpenZeppelin", "openzeppelin-contracts", "master", ""⟩⟩,
    ⟨"solmate/", ⟨"transmissions11", "solmate", "main", ""⟩⟩,
    ⟨"forge-std/", ⟨"foundry-rs", "forge-std", "master", ""⟩⟩,
    ⟨"chainlink/", ⟨"smartcontractkit", "chainlink", "develop", ""⟩⟩,
    ⟨"uniswap/", ⟨"Uniswap", "v3-core", "main", ""⟩⟩]

/-- A file of the contract collection that most projects draw on. -/
def openZeppelin (path : String) : Location :=
  ⟨"OpenZeppelin", "openzeppelin-contracts", "master", path⟩

/-- A file of the `solmate` collection. -/
def solmate (path : String) : Location :=
  ⟨"transmissions11", "solmate", "main", path⟩

/-- A file of the `solady` collection. -/
def solady (path : String) : Location :=
  ⟨"Vectorized", "solady", "main", path⟩

/-- Widely used contracts by file name, with their homes. -/
def wellKnown : Table (List Location) :=
  [("Ownable.sol",
      [openZeppelin "contracts/access/Ownable.sol", solady "src/auth/Ownable.sol"]),
    ("ERC20.sol",
      [openZeppelin "contracts/token/ERC20/ERC20.sol", solmate "src/tokens/ERC20.sol"]),
    ("ERC721.sol",
      [openZeppelin "contracts/token/ERC721/ERC721.sol", solmate "src/tokens/ERC721.sol"]),
    ("ReentrancyGuard.sol",
      [openZeppelin "contracts/utils/ReentrancyGuard.sol",
        solmate "src/utils/ReentrancyGuard.sol"]),
    ("SafeTransferLib.sol",
      [solmate "src/utils/SafeTransferLib.sol", solady "src/utils/SafeTransferLib.sol"])]

/-- Locations without repeats, told apart by key. -/
def distinct (locations : List Location) : List Location :=
  keepFirst Location.key locations

/-- The library whose beginning the import has. -/
def libraryOf? (path : String) : Option Library :=
  libraries.find? fun l => startsWith (clean path) l.front

/-- Where an import of a known library may be: at its path there, and below `src`. -/
def libraryLocations (path : String) : List Location :=
  match libraryOf? path with
  | none => []
  | some l =>
    match normalize? (String.ofList ((clean path).toList.drop l.front.length)) with
    | none => []
    | some relative =>
      let paths := if startsWith relative "src/" then [relative] else [relative, "src/" ++ relative]
      distinct (paths.map fun p => l.home.locate (withExtension p))

/-- The homes of a widely used contract with the import's file name. -/
def wellKnownLocations (path : String) : List Location :=
  (wellKnown.get? (Path.basename (clean path))).getD []

/-- Guesses at where the import stands in its own repository, before normalisation. -/
def layoutGuesses (path base : String) : List String :=
  let path := clean path
  let name := Path.basename path
  [if base = "" then path else base ++ "/" ++ path, path, "contracts/" ++ path, "src/" ++ path,
      "lib/" ++ path] ++
    (if startsWith path "./" then [String.ofList (path.toList.drop 2)] else []) ++
    (if startsWith path "../" then [resolveRelative path base] else []) ++
    (if startsWith path "contracts/" then [] else ["contracts/" ++ path]) ++
    ["contracts/interfaces/" ++ name, "contracts/utils/" ++ name]

/-- Paths to try in the importing repository, for an import from the directory `base`. -/
def localPaths (path base : String) : List String :=
  keepFirst id (((layoutGuesses path base).filterMap normalize?).map withExtension)

/-- The locations to try for an import, for an importing file at `coords`. -/
def candidates (path : String) (coords : Option Coords) : List Location :=
  match libraryLocations path, classify path, coords with
  | l :: ls, _, _ => l :: ls
  | [], .resolvable, some c =>
    distinct (wellKnownLocations path ++ (localPaths path c.base).map c.locate)
  | [], _, _ => []

end CallAtlas.Import

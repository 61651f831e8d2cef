import CallAtlas.Settings.Toml.Reader
import CallAtlas.Text.Quoted

/-!
# Writing a settings file

`Toml.render` writes the values of a table first and its subtables after them, level by level, with
an empty line between tables.  A character that does not print is written by its code; one with a
code of two digits stands without a backslash, and as the only one at the start of a text it has no
written form at all.  Neither has an integer with too many digits.

`Toml.format` puts reader and writer together.
-/

namespace CallAtlas.Settings.Toml

open CallAtlas.Text
open CallAtlas.Number (Binary64 maxDigits)

/-- Why settings cannot be written. -/
inductive WriteFault where
  /-- A text starts with its only code of two digits. -/
  | loneCode
  /-- An integer has too many digits. -/
  | tooManyDigits
deriving DecidableEq, Repr

/-- The reason in words, where there are words for it. -/
def WriteFault.message? : WriteFault → Option String
  | loneCode => none
  | tooManyDigits =>
    some ("Exceeds the limit (4300 digits) for integer string conversion; " ++
      "use sys.set_int_max_str_digits() to increase the limit")

/-! ### Texts -/

/-- The text as it is shown between quotes, ready to stand between double ones. -/
def shownText (s : List Char) : List Char :=
  let quote := quoteFor s
  let shown := s.flatMap (quoteChar quote)
  if quote = '\'' then
    replaceText ['"'] ['\\', '"'] (replaceText ['\\', '\''] ['\''] shown)
  else shown

/-- Whether the mark of a code of two digits behind `front` is left without a backslash.  It is if
no backslash comes before it, or an odd number, or an even number and nothing else. -/
def dropsMark (front : List Char) : Bool :=
  let count := (front.reverse.takeWhile (· == '\\')).length
  count == 0 || (count % 2 == 1) != (count == front.length)

/-- Joins pieces that stood before and behind marks of codes of two digits.  Behind a backslash that
is left over the code goes on with four digits. -/
def joinCodes : (front : List Char) → (pieces : List (List Char)) → List Char
  | front, [] => front
  | front, piece :: pieces =>
    let front := replaceText ['\\', '\\'] ['\\'] front
    let joiner := if dropsMark front then ['x'] else ['u', '0', '0']
    joinCodes (front ++ joiner ++ piece) pieces

/-- A text between double quotes. -/
def writeText (s : String) : Except WriteFault String := do
  let joined ←
    match splitText ['\\', 'x'] (shownText s.toList) with
    | [] => pure []
    | [[], _] => throw .loneCode
    | [] :: front :: pieces => pure (joinCodes front pieces)
    | front :: pieces => pure (joinCodes front pieces)
  return String.ofList ('"' :: joined ++ ['"'])

/-! ### Entries -/

/-- An integer. -/
def writeInt (n : Int) : Except WriteFault String :=
  if n.natAbs < Nat.pow 10 maxDigits then .ok (toString n) else .error .tooManyDigits

/-- A real number, with no zero in front of the digits of an exponent. -/
def writeReal (x : Binary64) : String :=
  let s := x.text.toList
  String.ofList (s.takeWhile (· != 'e') ++
    match s.dropWhile (· != 'e') with
    | 'e' :: sign :: '0' :: digits => 'e' :: sign :: digits
    | rest => rest)

/-- Whether a key is written without quotes: a bare name, also with a line break behind it. -/
def isBareKey (key : List Char) : Bool :=
  isBareName (if key.getLast? = some '\n' then key.dropLast else key)

/-- A key; anything but a bare name goes between quotes. -/
def writeKey (key : String) : Except WriteFault String :=
  if isBareKey key.toList then .ok key else writeText key

/-- A table in parts: the lines of its plain values, and its subtables by their written names. -/
structure Parts where
  body : String := ""
  subtables : Table Entries := []

/-- Takes a table apart. -/
def Parts.ofEntries (entries : Entries) : Except WriteFault Parts :=
  entries.foldlM (fun parts (key, value) => do
    let name ← writeKey key
    let withLine (written : String) : Parts :=
      { parts with body := parts.body ++ name ++ " = " ++ written ++ "\n" }
    match value with
    | .int n => return withLine (← writeInt n)
    | .real x => return withLine (writeReal x)
    | .bool b => return withLine (if b then "true" else "false")
    | .text s => return withLine (← writeText s)
    | .table inner => return { parts with subtables := parts.subtables.insert name inner })
    ({} : Parts)

/-! ### Tables -/

/-- Adds a table with its header to what is written; a table that holds nothing but subtables
needs none. -/
def addTable (written name : String) (parts : Parts) : String :=
  if parts.body = "" && !parts.subtables.isEmpty then written
  else
    written ++ (if written = "" || endsWith written "\n\n" then "" else "\n") ++
      "[" ++ name ++ "]\n" ++ parts.body

/-- Adds the tables of one level; the answer holds those of the next one too. -/
def addLevel (written : String) (tables : Table Entries) :
    Except WriteFault (String × Table Entries) :=
  tables.foldlM (fun (written, next) (name, entries) => do
    let parts ← Parts.ofEntries entries
    return (addTable written name parts,
      Table.insertAll next (parts.subtables.map fun sub => (name ++ "." ++ sub.1, sub.2))))
    (written, [])

/-- Adds tables, then their subtables, and so on for at most `fuel` levels. -/
def addLevels : (fuel : Nat) → (written : String) → Table Entries →
    Except WriteFault String
  | 0, written, _ => .ok written
  | fuel + 1, written, tables =>
    if tables.isEmpty then .ok written
    else do
      let (written, next) ← addLevel written tables
      addLevels fuel written next

mutual

/-- How many levels of tables a value has. -/
def depth : Value → Nat
  | .table entries => depthOfAll entries + 1
  | _ => 0

/-- The greatest number of levels among entries. -/
def depthOfAll : Entries → Nat
  | [] => 0
  | (_, value) :: rest => max (depth value) (depthOfAll rest)

end

/-- The text of a table, if all that it holds can be written. -/
def render (entries : Entries) : Except WriteFault String := do
  let parts ← Parts.ofEntries entries
  addLevels (depthOfAll entries + 1) parts.body parts.subtables

/-- The format of settings files without lists and dates. -/
def format : Format Empty Fault WriteFault where
  parse := parse
  render := render
  isMalformed fault := fault == .malformed

end CallAtlas.Settings.Toml

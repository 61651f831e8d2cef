import CallAtlas.Settings.Toml.Line

/-!
# Reading a settings file

`Toml.parse` reads a file line by line, in the part of TOML that has tables, texts, numbers and
truth values.  A key that comes twice is an error, and so is a header that comes twice, unless a
table of its name was made on the way to another one.
-/

namespace CallAtlas.Settings.Toml

open CallAtlas.Text

/-- What a table holds. -/
abbrev Entries := Settings.Entries Empty

/-! ### Tables -/

/-- Changes what is at a path below a value.  Tables that are missing are made. -/
def changeAt (change : Value → Except Fault Value) :
    (path : List String) → Value → Except Fault Value
  | [], value => change value
  | name :: path, .table entries =>
    match Table.get? entries name with
    | none => do return .table (entries ++ [(name, ← changeAt change path (.table []))])
    | some inner => do return .table (Table.insert entries name (← changeAt change path inner))
  | _ :: _, _ => .error .notATable

/-- Adds an entry to a table.  Its key must be new. -/
def addEntry (key : String) (value : Value) : Value → Except Fault Value
  | .table entries =>
    if Table.has entries key then .error .malformed
    else .ok (.table (entries ++ [(key, value)]))
  | _ => .error .malformed

/-- Sets an entry of a table. -/
def setEntry (key : String) (value : Value) : Value → Except Fault Value
  | .table entries => .ok (.table (Table.insert entries key value))
  | _ => .error .notATable

/-- The fault of a header that leads through a plain value. -/
def throughPlain : Value → Fault
  | .text "" => .cutShort
  | _ => .notATable

/-- Opens a table below `entries`.  Tables on the way are made if they are missing, and their names
are noted in `implied`.  A table that is there already may be opened if its name was noted, which
uses up the note. -/
def openTable : (path : List String) → (implied : List String) → Entries →
    Except Fault (Entries × List String)
  | [], implied, entries => .ok (entries, implied)
  | name :: path, implied, entries =>
    if name = "" then .error .malformed
    else
      match Table.get? entries name with
      | none => do
        let (inner, implied) ← openTable path (if path = [] then implied else implied ++ [name]) []
        return (entries ++ [(name, .table inner)], implied)
      | some value =>
        if path = [] && !implied.contains name then .error .malformed
        else
          let implied := if path = [] then implied.erase name else implied
          match value with
          | .table inner => do
            let (inner, implied) ← openTable path implied inner
            return (Table.insert entries name (.table inner), implied)
          | value =>
            if path = [] then .ok (entries, implied)
            else if path.head? = some "" then .error .malformed
            else .error (throughPlain value)

/-! ### Lines -/

/-- A text between three quotes that is not closed yet. -/
structure Unfinished where
  key : String
  text : List Char
  /-- Whether the last line ended in a backslash, so that the next one goes on without a break. -/
  goesOn : Bool

/-- A text that goes on on the next line. -/
def Unfinished.ofText (key : String) (text : List Char) : Unfinished :=
  if endsEscaped text then ⟨key, text.dropLast, true⟩ else ⟨key, text ++ ['\n'], false⟩

/-- A file that is read up to some line. -/
structure Reading where
  entries : Entries := []
  /-- The table that entries go to. -/
  current : List String := []
  /-- The names of tables that were made on the way to others. -/
  implied : List String := []
  unfinished : Option Unfinished := none

namespace Reading

/-- Changes the value at a path below the current table. -/
def changeCurrent (r : Reading) (path : List String) (change : Value → Except Fault Value) :
    Except Fault Reading := do
  match ← changeAt change (r.current ++ path) (.table r.entries) with
  | .table entries => return { r with entries := entries }
  | _ => throw .malformed

/-- Takes in the next line of a text that is not closed. -/
def stepText (r : Reading) (u : Unfinished) (line : List Char) : Except Fault Reading :=
  let line := if u.goesOn || !u.text.contains '\n' then trimBy isBlank line else line
  if line = [] && u.goesOn then .ok r
  else
    let text := u.text ++ line
    if 2 < line.length && (line.reverse.take 3).all (some · == text.head?) then do
      let value ← readValue true text
      { r with unfinished := none }.changeCurrent [] (setEntry u.key value)
    else .ok { r with unfinished := some (.ofText u.key text) }

/-- Takes in an entry. -/
def stepEntry (r : Reading) (line : List Char) : Except Fault Reading := do
  match sides? line with
  | none => throw .malformed
  | some sides =>
    let value := trimBy isBlank sides.value
    let (path, key) ← keyPath (trimBy isBlank sides.key)
    if isUnfinished value then
      let r ← r.changeCurrent path fun table => do
        let _ ← addEntry key (.bool true) table
        return table
      if key = "" then throw .malformed
      return { r with unfinished := some (.ofText key value) }
    else
      r.changeCurrent path fun table => do addEntry key (← readValue sides.isTidy value) table

/-- Takes in a line. -/
def step (r : Reading) (line : List Char) : Except Fault Reading :=
  match r.unfinished with
  | some u => r.stepText u line
  | none =>
    match trimBy isBlank line with
    | [] => .ok r
    | '#' :: _ => .ok r
    | '[' :: s =>
      match header? s with
      | none => .error .malformed
      | some path => do
        let (entries, implied) ← openTable path r.implied r.entries
        return { r with entries := entries, implied := implied, current := path }
    | '\x7b' :: _ => .error .malformed
    | s => if s.contains '=' then r.stepEntry s else .ok r

end Reading

/-- A text in which every line ends in a line feed; a carriage return, alone or in front of one,
ends a line as well. -/
def withLineFeeds : List Char → List Char
  | '\r' :: '\n' :: s => '\n' :: withLineFeeds s
  | '\r' :: s => '\n' :: withLineFeeds s
  | c :: s => c :: withLineFeeds s
  | [] => []

/-- What a settings text says. -/
def parse (text : String) : Except Fault Entries := do
  let s ← screen (withLineFeeds text.toList)
  let r ← (s.splitOn '\n').foldlM Reading.step {}
  return r.entries

end CallAtlas.Settings.Toml

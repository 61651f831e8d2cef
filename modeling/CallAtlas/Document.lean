import CallAtlas.Number.Binary64
import CallAtlas.Text.Quoted

/-!
# Documents

A report is a document: nested lists and tables of texts and numbers, where the fields of a table
keep their order.  `Document.render` writes it as JSON in ASCII, one item a line, two more blanks
for each level of nesting.
-/

namespace CallAtlas

open CallAtlas.Text
open CallAtlas.Number (Binary64)

/-- A structured value with ordered fields. -/
inductive Document where
  | null
  | bool (b : Bool)
  | int (n : Int)
  | real (x : Binary64)
  | text (s : String)
  | list (items : List Document)
  | table (fields : List (String × Document))
deriving Repr

namespace Document

/-- A natural number. -/
def nat (n : Nat) : Document := .int n

/-- A list of texts. -/
def texts (ss : List String) : Document := .list (ss.map .text)

/-- One character inside a JSON string.  Quote and backslash take a backslash, the common controls
have a letter, and everything else that is not printable ASCII is given by UTF-16 units. -/
def escapeChar (c : Char) : List Char :=
  let n := c.toNat
  if c = '"' then ['\\', '"']
  else if c = '\\' then ['\\', '\\']
  else if c = '\n' then ['\\', 'n']
  else if c = '\r' then ['\\', 'r']
  else if c = '\t' then ['\\', 't']
  else if n = 8 then ['\\', 'b']
  else if n = 12 then ['\\', 'f']
  else if 0x20 ≤ n && n < 0x7F then [c]
  else if n < 0x10000 then '\\' :: 'u' :: hex 4 n
  else
    '\\' :: 'u' :: hex 4 (0xD800 + (n - 0x10000) / 0x400) ++
      '\\' :: 'u' :: hex 4 (0xDC00 + (n - 0x10000) % 0x400)

/-- A JSON string. -/
def renderText (s : String) : String :=
  "\"" ++ String.ofList (s.toList.flatMap escapeChar) ++ "\""

/-- A line break and the blanks of nesting level `level`. -/
def newline (level : Nat) : String :=
  String.ofList ('\n' :: List.replicate (2 * level) ' ')

mutual

/-- The JSON text of a document that starts at nesting level `level`. -/
def renderAt (level : Nat) : Document → String
  | .null => "null"
  | .bool b => if b then "true" else "false"
  | .int n => toString n
  | .real x => x.text
  | .text s => renderText s
  | .list [] => "[]"
  | .list (d :: ds) =>
    "[" ++ newline (level + 1) ++ renderAt (level + 1) d ++ renderItems (level + 1) ds ++
      newline level ++ "]"
  | .table [] => "\x7b\x7d"
  | .table ((k, d) :: fs) =>
    "\x7b" ++ newline (level + 1) ++ renderText k ++ ": " ++ renderAt (level + 1) d ++
      renderFields (level + 1) fs ++ newline level ++ "\x7d"

/-- The further items of a list, each behind a comma. -/
def renderItems (level : Nat) : List Document → String
  | [] => ""
  | d :: ds => "," ++ newline level ++ renderAt level d ++ renderItems level ds

/-- The further fields of a table, each behind a comma. -/
def renderFields (level : Nat) : List (String × Document) → String
  | [] => ""
  | (k, d) :: fs =>
    "," ++ newline level ++ renderText k ++ ": " ++ renderAt level d ++ renderFields level fs

end

/-- The JSON text of a document. -/
def render (d : Document) : String :=
  renderAt 0 d

end Document

end CallAtlas

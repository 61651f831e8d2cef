import CallAtlas.Text.Blank
import CallAtlas.Text.Word

/-!
# Screening a settings text

Before a settings text is cut into lines it is screened, character by character.  Keys are checked,
quotes have to be closed, comments are blanked, and a line goes on where brackets are not balanced.
A text between three quotes may run over several lines.

`Screen.step` takes in one character, and `screen` the whole text.

Most texts that cannot be read are malformed, and those who read settings ignore them.  A few are
refused for another reason, which is passed on.
-/

namespace CallAtlas.Settings.Toml

open CallAtlas.Text

/-- Why a settings text cannot be read. -/
inductive Fault where
  /-- Something is wrong with a line, a key or a value. -/
  | malformed
  /-- A table is opened below a plain value. -/
  | notATable
  /-- The text, a key or a code ends where another character has to be looked at. -/
  | cutShort
  /-- A code is beyond 31 bits. -/
  | hugeCode
deriving DecidableEq, Repr

/-- Whether an odd number of backslashes comes first in what stands before a place, the last
character first, so that the character at that place is escaped. -/
def escapedBy (before : List Char) : Bool :=
  (before.takeWhile (· == '\\')).length % 2 == 1

/-- Whether a text ends in an odd number of backslashes, so that what follows is escaped. -/
def endsEscaped (s : List Char) : Bool :=
  escapedBy s.reverse

/-- Whether `c` is one of the two quotes. -/
def isQuote (c : Char) : Bool :=
  c == '"' || c == '\''

/-- Where in a key a screening is. -/
inductive KeyPlace where
  /-- In a word or in quotes. -/
  | inside
  /-- Behind a word or a closing quote. -/
  | behind
deriving DecidableEq, Repr

/-- A text that is screened up to some place. -/
structure Screen where
  /-- What was let through, the last character first. -/
  done : List Char
  /-- The place in the key that is being read. -/
  key : Option KeyPlace := none
  /-- Whether the key has a point. -/
  dotted : Bool := false
  /-- The quote that is open. -/
  quote : Option Char := none
  /-- Whether a text between three quotes is open. -/
  multiline : Bool := false
  /-- Whether the brackets of a table header are open. -/
  header : Bool := false
  /-- How many more brackets of values were opened than closed. -/
  brackets : Int := 0
  /-- Whether nothing but spaces and tabs was met on the line. -/
  lineStart : Bool := true
  /-- Whether a comment is being blanked. -/
  comment : Bool := false

namespace Screen

/-- Lets a character through. -/
def emit (s : Screen) (c : Char) : Screen :=
  { s with done := c :: s.done }

/-- Opens or closes a text at the quote `c`. -/
def toggle (s : Screen) (c : Char) : Screen :=
  let threefold := s.done.take 2 == [c, c]
  let isOpen := if threefold then !s.multiline else s.quote.isNone
  { s with
    multiline := if threefold then !s.multiline else s.multiline
    quote := if isOpen then some c else none }

/-- Whether the double quote that comes next is escaped.  The second of two quotes never is. -/
def isEscaped (s : Screen) : Bool :=
  match s.done with
  | '"' :: '"' :: before => escapedBy before
  | '"' :: _ => false
  | before => escapedBy before

/-- Ends the line, unless a text or a bracket is open.  Where a text between three quotes starts
with a line break, the break gives way to the quotes. -/
def endLine (s : Screen) : Except Fault Screen :=
  if s.multiline then
    match s.done with
    | p :: q :: r :: before =>
      if isQuote p && q == p then
        .ok { s with done := p :: p :: q :: (if r == p then ' ' else r) :: before }
      else .ok (s.emit '\n')
    | _ => .ok (s.emit '\n')
  else if s.quote.isSome then .error .malformed
  else if s.brackets = 0 then .ok { s.emit '\n' with lineStart := true }
  else .ok (s.emit ' ')

/-- Starts a key with a character that is neither blank nor a bracket of a header. -/
def startKey (s : Screen) (c : Char) : Except Fault Screen :=
  if s.lineStart && c != ' ' && c != '\t' then
    if s.header then .ok { s.emit c with lineStart := false }
    else if c == '=' then .error .malformed
    else .ok { s.emit c with lineStart := false, key := some .inside }
  else .ok (s.emit c)

/-- Takes in a character that is not part of a key. -/
def stepOutside (s : Screen) (c : Char) : Except Fault Screen :=
  if c == '\n' then s.endLine
  else if c == '\'' && s.quote != some '"' then (s.toggle c).startKey c
  else if c == '"' && s.quote != some '\'' then
    (if s.isEscaped then s else s.toggle c).startKey c
  else if s.quote.isSome then s.startKey c
  else if c == '#' && !s.header then .ok { s.emit ' ' with comment := true }
  else if c == '[' && !s.header then
    (if s.lineStart then { s with header := true }
      else { s with brackets := s.brackets + 1 }).startKey c
  else if c == ']' then
    (if s.header then { s with header := false }
      else { s with brackets := s.brackets - 1 }).startKey c
  else s.startKey c

/-- Goes on with a word of the key if another one follows. -/
def wordFollows (s : Screen) (next : Option Char) : Except Fault Screen :=
  match next with
  | none => .error .cutShort
  | some d => .ok (if isBlank d || d == '.' then s else { s with key := some .inside })

/-- Takes in a character of a key; `next` is the one behind it.  A key ends with an equals sign. -/
def stepKey (s : Screen) (place : KeyPlace) (c : Char) (next : Option Char) :
    Except Fault Screen :=
  if c == '\n' then .error .malformed
  else
    match s.quote, place with
    | some quote, _ =>
      if c == quote && !escapedBy s.done then
        .ok { s.emit c with key := some .behind, quote := none }
      else .ok (s.emit c)
    | none, .inside =>
      if isBlank c then .ok { s.emit c with key := some .behind }
      else if c == '.' then .ok { s.emit c with dotted := true }
      else if isWord c || c == '-' then .ok (s.emit c)
      else if s.dotted && s.done.head? == some '.' && isQuote c then
        .ok { s.emit c with quote := some c }
      else finish c
    | none, .behind =>
      if isBlank c then if s.dotted then (s.emit c).wordFollows next else .ok (s.emit c)
      else if c == '.' then { s.emit c with dotted := true }.wordFollows next
      else finish c
where
  finish (c : Char) : Except Fault Screen :=
    if c == '=' then .ok { s.emit c with key := none, dotted := false } else .error .malformed

/-- Takes in a character; `next` is the one behind it. -/
def step (s : Screen) (c : Char) (next : Option Char) : Except Fault Screen :=
  if s.comment && c != '\n' then .ok (s.emit ' ')
  else
    let s := { s with comment := false }
    match s.key with
    | some place => s.stepKey place c next
    | none => s.stepOutside c

/-- Takes in characters one after another. -/
def steps : Screen → List Char → Except Fault Screen
  | s, [] => .ok s
  | s, c :: rest => do steps (← s.step c rest.head?) rest

end Screen

/-- The text with comments blanked and lines joined.  The text is a ring: what stands before its
first character is its end. -/
def screen (text : List Char) : Except Fault (List Char) := do
  let s ← Screen.steps { done := text.reverse } text
  if s.key.isSome || s.quote.isSome then throw .malformed
  return (s.done.take text.length).reverse

end CallAtlas.Settings.Toml

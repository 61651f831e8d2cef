import CallAtlas.Number.Reading
import CallAtlas.Ordered
import CallAtlas.Text.Quoted

/-!
# Values of settings

What a settings file may hold, how it is read and written, and how its values are turned into the
kind of value that is needed.

Settings are loaded and saved in any format (`Format`).  Besides tables and the values that settings
have by default, a format may know values of other kinds, such as lists and dates; they are passed
through.
-/

namespace CallAtlas.Settings

open CallAtlas.Text
open CallAtlas.Number (Binary64)

/-- A value of a settings file, in a format whose other kinds of values are those of `α`. -/
inductive Value (α : Type) where
  | int (n : Int)
  | real (x : Binary64)
  | bool (b : Bool)
  | text (s : String)
  | table (entries : List (String × Value α))
  | other (a : α)
deriving Repr, Nonempty

/-- What a table holds. -/
abbrev Entries (α : Type) := List (String × Value α)

/-- A way to read and to write settings files.  It knows values of the other kinds `α`, and refuses
texts for reasons `ε` and documents for reasons `ω`. -/
structure Format (α ε ω : Type) where
  /-- The document that a text stands for. -/
  parse : String → Except ε (Entries α)
  /-- The text of a document. -/
  render : Entries α → Except ω String
  /-- Whether a text that is refused is malformed; those who read settings ignore such a text. -/
  isMalformed : ε → Bool

/-- Why a value cannot be used as a number. -/
inductive ValueError where
  /-- The text shows no integer. -/
  | noInteger (text : String)
  /-- The text shows an integer of this many digits, which are too many. -/
  | tooManyDigits (count : Nat)
  /-- The text shows no number. -/
  | noReal (text : String)
  /-- It is not a number, which is no integer. -/
  | nanIsNoInteger
  /-- The value is too large. -/
  | overflow
  /-- A value of this kind is never a number. -/
  | wrongKind
deriving DecidableEq, Repr

/-- The reason in words, where there are words for it.  An integer's text is shown up to a length
of 200. -/
def ValueError.message? : ValueError → Option String
  | noInteger text =>
    some ("invalid literal for int() with base 10: " ++
      String.ofList ((quoted text).toList.take 200))
  | tooManyDigits count =>
    some ("Exceeds the limit (4300 digits) for integer string conversion: value has " ++
      toString count ++ " digits; use sys.set_int_max_str_digits() to increase the limit")
  | noReal text => some ("could not convert string to float: " ++ quoted text)
  | nanIsNoInteger => some "cannot convert float NaN to integer"
  | overflow => none
  | wrongKind => none

namespace Value

/-- The value as an integer; fractions are cut off. -/
def toInt {α : Type} : Value α → Except ValueError Int
  | int n => .ok n
  | bool b => .ok (if b then 1 else 0)
  | real .nan => .error .nanIsNoInteger
  | real x =>
    match x.truncate? with
    | some n => .ok n
    | none => .error .overflow
  | text s =>
    match Number.readInt s with
    | .ok n => .ok n
    | .error .malformed => .error (.noInteger s)
    | .error (.tooLong count) => .error (.tooManyDigits count)
  | table _ => .error .wrongKind
  | other _ => .error .wrongKind

/-- The value as a real number. -/
def toReal {α : Type} : Value α → Except ValueError Binary64
  | real x => .ok x
  | bool b => .ok (.ofInt (if b then 1 else 0))
  | int n =>
    match Binary64.ofInt n with
    | .infinite _ => .error .overflow
    | x => .ok x
  | text s =>
    match Number.readReal? s with
    | some x => .ok x
    | none => .error (.noReal s)
  | table _ => .error .wrongKind
  | other _ => .error .wrongKind

/-- Whether the value counts as true: anything but zero and what is empty. -/
def isTrue : Value Empty → Bool
  | int n => n != 0
  | real x => !x.isZero
  | bool b => b
  | text s => s != ""
  | table entries => !entries.isEmpty

mutual

/-- The value inside another one, where texts are quoted. -/
def showInner : Value Empty → String
  | int n => toString n
  | real x => x.text
  | bool b => if b then "True" else "False"
  | text s => quoted s
  | table entries => "\x7b" ++ join ", " (showEntries entries) ++ "\x7d"

/-- Entries of a table with their keys. -/
def showEntries : List (String × Value Empty) → List String
  | [] => []
  | (key, value) :: rest => (quoted key ++ ": " ++ showInner value) :: showEntries rest

end

/-- The value as it is shown to people. -/
def display : Value Empty → String
  | text s => s
  | value => value.showInner

end Value

end CallAtlas.Settings

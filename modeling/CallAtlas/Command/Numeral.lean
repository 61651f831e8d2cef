import CallAtlas.Number.Reading

/-!
# Numbers on the command line

The numbers that options take are written in ASCII digits.  A whole number may have a plus sign,
zeros in front, underscores between digits and a fraction of zeros; a real number may have
underscores anywhere inside.
-/

namespace CallAtlas.Command

open CallAtlas.Text
open CallAtlas.Number (Binary64 signed inBase maxDigits readReal?)

/-- The text without its underscores, if it has any: single ones, neither first nor last. -/
def dropUnderscores? (s : List Char) : Option (List Char) :=
  if s.contains '_' && s.head? != some '_' && s.getLast? != some '_' &&
      !occursIn ['_', '_'] s then
    some (s.filter (· != '_'))
  else none

/-! ### Whole numbers -/

/-- The number shown by digits, the first of which is no superfluous zero. -/
def plainNatural? (s : List Char) : Option Nat :=
  if s ≠ [] && s.all Char.isDigit && (s.length = 1 || s.head? != some '0') then
    some (inBase 10 (s.map fun c => c.toNat - '0'.toNat))
  else none

/-- The number shown by a minus sign, if any, and such digits. -/
def plainInteger? (s : List Char) : Option Int :=
  if maxDigits < s.length then none
  else
    match s with
    | '-' :: digits => (plainNatural? digits).map (signed true)
    | digits => (plainNatural? digits).map (signed false)

/-- Drops the zeros in front, and underscores among them, but keeps one before a point or at the
end.  What is not like a number at the front is refused. -/
def dropFrontZeros? : List Char → Option (List Char)
  | '0' :: s =>
    match s.dropWhile fun c => c == '0' || c == '_' with
    | [] => ('0' :: s).getLast?.map ([·])
    | '.' :: rest =>
      let zeros := '0' :: s.takeWhile fun c => c == '0' || c == '_'
      zeros.getLast?.map (· :: '.' :: rest)
    | c :: rest => if c.isDigit then some (c :: rest) else none
  | c :: s => if c.isDigit || c == '-' then some (c :: s) else none
  | [] => none

/-- Drops a fraction of zeros, at least one. -/
def dropZeroFraction (s : List Char) : List Char :=
  match s.dropWhile (· != '.') with
  | '.' :: fraction =>
    if fraction ≠ [] && fraction.all (· == '0') then s.takeWhile (· != '.') else s
  | _ => s

/-- Drops a plus sign, unless a minus sign follows. -/
def dropPlus? : List Char → Option (List Char)
  | '+' :: '-' :: _ => none
  | '+' :: s => some s
  | s => some s

/-- The whole number that a text shows. -/
def wholeNumber? (text : String) : Option Int :=
  match plainInteger? text.toList with
  | some n => some n
  | none => do
    let s ← dropPlus? (trimBy isSpace text.toList)
    let s := dropZeroFraction (← dropFrontZeros? s)
    plainInteger? ((dropUnderscores? s).getD s)

/-! ### Real numbers -/

/-- The real number that a text in ASCII without underscores and spaces shows. -/
def plainReal? (s : List Char) : Option Binary64 :=
  if s.all fun c => c.toNat < 0x80 && c != '_' && !isBlank c then readReal? (String.ofList s)
  else none

/-- The real number that a text shows. -/
def realNumber? (text : String) : Option Binary64 :=
  (plainReal? (trimBy isSpace text.toList)).or
    ((dropUnderscores? text.toList).bind plainReal?)

end CallAtlas.Command

import CallAtlas.Settings.Toml.Text
import CallAtlas.Settings.Value

/-!
# Values in a settings file

A value is a truth value, a text or a number.  A number with a point or an exponent is real, any
other one an integer, in base ten or in the base that its front tells.  Underscores may stand
between digits.
-/

namespace CallAtlas.Settings.Toml

open CallAtlas.Text
open CallAtlas.Number (Binary64 readLiteral? readReal? takeSign)

/-- A value that is read or written here; lists and dates are not. -/
abbrev Value := Settings.Value Empty

/-- Whether zeros in front and underscores stand where a number may have them.  A zero in front goes
with a point or, in a number without sign, with the letter of a base. -/
def isTidyNumber (s : List Char) : Bool :=
  let s := trimBy isBlank s
  let isSigned := s.head? == some '+' || s.head? == some '-'
  let body := if isSigned then s.drop 1 else s
  let afterZero := if isSigned then ['.'] else ['.', 'o', 'b', 'x']
  s != [] && s.head? != some '_' && s.getLast? != some '_' &&
    !occursIn ['_', '.'] s && !occursIn ['.', '_'] s &&
    (s.length == 1 ||
      !occursIn ['_', '_'] body &&
        match body with
        | '0' :: c :: _ => afterZero.contains c
        | _ => true)

/-- The real number `x`, or zero less `x`. -/
def withSign (negative : Bool) (x : Binary64) : Binary64 :=
  match negative, x with
  | true, .finite _ m e => .finite (m != 0) m e
  | true, .infinite _ => .infinite true
  | _, x => x

/-- The number that a text without sign and underscores shows. -/
def readMagnitude? (negative : Bool) (s : List Char) : Option Value :=
  let word := s.map Char.toLower
  if s.contains '.' || (!s.contains 'x' && (s.contains 'e' || s.contains 'E')) then
    if afterFirst '.' s = [] && s.contains '.' then none
    else if s.head?.any Char.isDigit then
      (readReal? (String.ofList s)).map fun x => .real (withSign negative x)
    else none
  else if word = "inf".toList || word = "nan".toList then
    (readReal? (String.ofList s)).map fun x => .real (withSign negative x)
  else (readLiteral? s).map fun n => .int (if negative then -n else n)

/-- The number that a text shows. -/
def readNumber? (s : List Char) : Option Value :=
  let (negative, s) := takeSign s
  readMagnitude? negative (s.filter (· != '_'))

/-- The value that a text without blanks around it shows; `isTidy` tells whether a number would be
written as it should. -/
def readValue (isTidy : Bool) (s : List Char) : Except Fault Value :=
  match s with
  | [] => .error .malformed
  | c :: _ =>
    if s = "true".toList then .ok (.bool true)
    else if s = "false".toList then .ok (.bool false)
    else if isQuote c then (readText c s).map .text
    else
      match isTidy, readNumber? s with
      | true, some value => .ok value
      | _, _ => .error .malformed

end CallAtlas.Settings.Toml

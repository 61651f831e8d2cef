import CallAtlas.Number.Binary64
import CallAtlas.Text.Blank
import CallAtlas.Text.Digit

/-!
# Reading numbers

Integers and reals as people write them: spaces around, a sign, digits of any script, and single
underscores between digits.  Reals may have a fraction and an exponent, or be one of the words for
infinity and for no number.  An integer may have only so many decimal digits.
-/

namespace CallAtlas.Number

open CallAtlas.Text

/-! ### Digits -/

/-- The digits that go on a number, with single underscores in front of any of them. -/
def moreDigits : List Char → List Nat × List Char
  | [] => ([], [])
  | '_' :: c :: s =>
    match digitValue? c with
    | some d =>
      let (digits, rest) := moreDigits s
      (d :: digits, rest)
    | none => ([], '_' :: c :: s)
  | c :: s =>
    match digitValue? c with
    | some d =>
      let (digits, rest) := moreDigits s
      (d :: digits, rest)
    | none => ([], c :: s)

/-- The digits at the front of a text. -/
def digitRun : List Char → List Nat × List Char
  | [] => ([], [])
  | c :: s =>
    match digitValue? c with
    | some d =>
      let (digits, rest) := moreDigits s
      (d :: digits, rest)
    | none => ([], c :: s)

/-- The number with the given digits in a base. -/
def inBase (base : Nat) (digits : List Nat) : Nat :=
  digits.foldl (fun n d => base * n + d) 0

/-- The number with the given decimal digits. -/
def ofDigits (digits : List Nat) : Nat :=
  inBase 10 digits

/-- Takes a sign; the answer tells whether it is a minus. -/
def takeSign : List Char → Bool × List Char
  | '-' :: s => (true, s)
  | '+' :: s => (false, s)
  | s => (false, s)

/-- The number `n` with a sign. -/
def signed (negative : Bool) (n : Nat) : Int :=
  if negative then -n else n

/-! ### Integers -/

/-- Why a text shows no integer. -/
inductive IntError where
  /-- It is not written as one. -/
  | malformed
  /-- It has this many digits, which are too many. -/
  | tooLong (digits : Nat)
deriving DecidableEq, Repr

/-- How many decimal digits an integer may have. -/
def maxDigits : Nat := 4300

/-- The number that a text without sign and spaces shows in decimal digits. -/
def readDecimal (s : List Char) : Except IntError Nat :=
  match digitRun s with
  | ([], _) => .error .malformed
  | (_, '_' :: _) => .error .malformed
  | (digits, rest) =>
    if maxDigits < digits.length then .error (.tooLong digits.length)
    else if rest = [] then .ok (ofDigits digits)
    else .error .malformed

/-- The integer that a text shows in decimal digits. -/
def readInt (text : String) : Except IntError Int := do
  let (negative, s) := takeSign (trimBy isSpace text.toList)
  return signed negative (← readDecimal s)

/-- The value of a digit in bases up to sixteen. -/
def hexDigit? (c : Char) : Option Nat :=
  if 'a' ≤ c && c ≤ 'f' then some (c.toNat - 'a'.toNat + 10)
  else if 'A' ≤ c && c ≤ 'F' then some (c.toNat - 'A'.toNat + 10)
  else digitValue? c

/-- The number that a text without underscores shows in a base. -/
def readInBase? (base : Nat) (s : List Char) : Option Nat := do
  let digits ← s.mapM fun c => (hexDigit? c).filter (· < base)
  if digits = [] then none else some (inBase base digits)

/-- The number that a text without underscores shows in the base that its front tells.  In base
ten only zero has a zero in front. -/
def readUnsigned? : List Char → Option Nat
  | z :: c :: s =>
    if digitValue? z = some 0 then
      match c.toLower with
      | 'x' => readInBase? 16 s
      | 'o' => readInBase? 8 s
      | 'b' => readInBase? 2 s
      | _ => (readDecimal (z :: c :: s)).toOption.filter (· = 0)
    else (readDecimal (z :: c :: s)).toOption
  | s => (readDecimal s).toOption

/-- The integer that a text without underscores shows in the base that its front tells. -/
def readLiteral? (s : List Char) : Option Int :=
  let (negative, s) := takeSign (trimBy isSpace s)
  (readUnsigned? s).map (signed negative)

/-! ### Reals -/

/-- The exponent at the end of a number: none, or a mark, a sign and digits. -/
def readExponent? : List Char → Option Int
  | [] => some 0
  | c :: s =>
    if c = 'e' || c = 'E' then
      let (negative, s) := takeSign s
      match digitRun s with
      | ([], _) => none
      | (digits, []) => some (signed negative (ofDigits digits))
      | (_, _ :: _) => none
    else none

/-- The binary64 value nearest to the number that a text shows. -/
def readReal? (text : String) : Option Binary64 :=
  let (negative, s) := takeSign (trimBy isSpace text.toList)
  let word := String.ofList (s.map Char.toLower)
  if word = "inf" || word = "infinity" then some (.infinite negative)
  else if word = "nan" then some .nan
  else
    let (whole, s) := digitRun s
    let (fraction, s) :=
      match s with
      | '.' :: s => digitRun s
      | s => ([], s)
    if whole = [] && fraction = [] then none
    else (readExponent? s).map fun e =>
      .ofDecimal negative (ofDigits (whole ++ fraction)) (e - fraction.length)

end CallAtlas.Number

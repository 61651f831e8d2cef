import CallAtlas.Text.Basic

/-!
# Binary64 numbers

Real numbers are kept as IEEE binary64 values in exact integer arithmetic: a finite value is a
significand times a power of two.  Every operation computes the exact rational result and rounds
it once, to the nearest value and on a tie to the even significand.

`Binary64.text` writes the fewest digits that read back as the same value, of these the nearest.
-/

namespace CallAtlas.Number

/-- A binary64 value.  The significand of a finite value is below `2^53`, its exponent is at least
`-1074`, and a significand below `2^52` has that least exponent, so equal values are equal data. -/
inductive Binary64 where
  | finite (negative : Bool) (significand : Nat) (exponent : Int)
  | infinite (negative : Bool)
  | nan
deriving DecidableEq, Repr

/-- `num / den` rounded to the nearest natural number, on a tie to the even one. -/
def roundDiv (num den : Nat) : Nat :=
  let q := num / den
  let twice := 2 * (num % den)
  if twice < den || (twice = den && q % 2 = 0) then q else q + 1

/-- `num / den` divided by `base ^ e`, as numerator and denominator. -/
def scaleBy (base num den : Nat) (e : Int) : Nat × Nat :=
  if 0 ≤ e then (num, den * base.pow e.toNat) else (num * base.pow (-e).toNat, den)

namespace Binary64

/-- Zero. -/
def zero : Binary64 := .finite false 0 (-1074)

/-- The value nearest to `num / den`. -/
def ofRatio (negative : Bool) (num den : Nat) : Binary64 :=
  if num = 0 then .finite negative 0 (-1074)
  else
    -- the quotient by `2 ^ guess` lies between `2 ^ 51` and `2 ^ 53`
    let guess : Int := (num.log2 : Int) - den.log2 - 52
    let (a, b) := scaleBy 2 num den guess
    let e := max (if a / b < Nat.pow 2 52 then guess - 1 else guess) (-1074)
    let (a, b) := scaleBy 2 num den e
    let m := roundDiv a b
    let (m, e) := if m = Nat.pow 2 53 then (Nat.pow 2 52, e + 1) else (m, e)
    if 971 < e then .infinite negative else .finite negative m e

/-- The value nearest to `digits * 10 ^ e`.  Far outside the range the answer is clear without
computing the power. -/
def ofDecimal (negative : Bool) (digits : Nat) (e : Int) : Binary64 :=
  let magnitude : Int := (Nat.toDigits 10 digits).length + e
  if digits = 0 || magnitude < -400 then .finite negative 0 (-1074)
  else if 400 < magnitude then .infinite negative
  else
    let (a, b) := scaleBy 10 digits 1 (-e)
    ofRatio negative a b

/-- The integer `n` as the nearest value. -/
def ofInt (n : Int) : Binary64 :=
  ofRatio (decide (n < 0)) n.natAbs 1

/-- The exact magnitude `m * 2 ^ e` as numerator and denominator. -/
def magnitude (m : Nat) (e : Int) : Nat × Nat :=
  scaleBy 2 m 1 (-e)

/-! ### Shortest digits -/

/-- The least `k` with `num / den < 10 ^ k`, for a positive quotient. -/
def decimalPoint (num den : Nat) : Int :=
  if den ≤ num then (Nat.toDigits 10 (num / den)).length
  else 1 - ((Nat.toDigits 10 ((den + num - 1) / num - 1)).length : Int)

/-- The multiple of `10 ^ g` next to `m * 2 ^ e` that reads back as it, as a count of `10 ^ g`.  Of
two the nearer is taken, and on a tie the even one. -/
def onGrid? (m : Nat) (e g : Int) : Option Nat :=
  let (num, den) := magnitude m e
  let (a, b) := scaleBy 10 num den g
  let low := a / b
  let readsBack (d : Nat) : Bool := ofDecimal false d g == .finite false m e
  match readsBack low, readsBack (low + 1) with
  | true, true => some (roundDiv a b)
  | true, false => some low
  | false, true => some (low + 1)
  | false, false => none

/-- The fewest digits that read back as the positive value `m * 2 ^ e`, with the power of ten of
their last one. -/
def shortest (m : Nat) (e : Int) : Nat × Int :=
  let (num, den) := magnitude m e
  let point := decimalPoint num den
  let found := (List.range 17).findSome? fun i : Nat =>
    let g : Int := point - 1 - i
    (onGrid? m e g).map fun d => (d, g)
  found.getD (0, 0)

/-- Drops the zeros at the end of a digit list. -/
def dropZeros (digits : List Char) : List Char :=
  (digits.reverse.dropWhile (· == '0')).reverse

/-- Text of a natural number in decimal. -/
def decimal (n : Nat) : List Char :=
  Nat.toDigits 10 n

/-- Text of the digits `0.d₁d₂… * 10 ^ point`: positional with at least one place for points from
`-3` to `16`, otherwise with an exponent of at least two digits. -/
def layout (digits : List Char) (point : Int) : List Char :=
  let count : Int := digits.length
  if -4 < point && point ≤ 16 then
    if point ≤ 0 then ['0', '.'] ++ List.replicate (-point).toNat '0' ++ digits
    else if count ≤ point then digits ++ List.replicate (point - count).toNat '0' ++ ['.', '0']
    else digits.take point.toNat ++ ['.'] ++ digits.drop point.toNat
  else
    let exponent := point - 1
    let written := decimal exponent.natAbs
    digits.take 1 ++ (if count ≤ 1 then [] else '.' :: digits.drop 1) ++
      ['e', if exponent < 0 then '-' else '+'] ++
      (if written.length < 2 then '0' :: written else written)

/-- The value in the fewest digits that read back as it. -/
def text : Binary64 → String
  | nan => "nan"
  | infinite negative => if negative then "-inf" else "inf"
  | finite negative m e =>
    let sign := if negative then ['-'] else []
    if m = 0 then String.ofList (sign ++ ['0', '.', '0'])
    else
      let (d, g) := shortest m e
      let digits := decimal d
      String.ofList (sign ++ layout (dropZeros digits) (digits.length + g))

/-! ### Arithmetic and rounding -/

/-- The value nearest to `n` times `x`. -/
def scale (n : Nat) : Binary64 → Binary64
  | finite negative m e =>
    let (num, den) := magnitude m e
    ofRatio negative (n * num) den
  | x => x

/-- The value nearest to `x` rounded to `places` decimal places, where a tie goes to the even
digit. -/
def roundTo (places : Nat) : Binary64 → Binary64
  | finite negative m e =>
    let (num, den) := magnitude m e
    ofRatio negative (roundDiv (num * Nat.pow 10 places) den) (Nat.pow 10 places)
  | x => x

/-- The value with exactly one decimal place, where a tie goes to the even digit. -/
def onePlace : Binary64 → String
  | finite negative m e =>
    let (num, den) := magnitude m e
    let tenths := roundDiv (num * 10) den
    String.ofList ((if negative then ['-'] else []) ++ decimal (tenths / 10) ++
      ['.', Nat.digitChar (tenths % 10)])
  | x => x.text

/-- The integer part of a finite value. -/
def truncate? : Binary64 → Option Int
  | finite negative m e =>
    let (num, den) := magnitude m e
    some (if negative then -(num / den : Nat) else (num / den : Nat))
  | _ => none

/-- Whether the value is zero. -/
def isZero : Binary64 → Bool
  | finite _ m _ => m == 0
  | _ => false

end Binary64

/-- An integer or a binary64 value. -/
inductive Scalar where
  | int (n : Int)
  | real (x : Binary64)
deriving DecidableEq, Repr

end CallAtlas.Number

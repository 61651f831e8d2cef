import CallAtlas.Number.Binary64

/-!
# Ratios

A share of a whole, as two integers.  It is shown as a binary64 value rounded to four places, or as
a percentage with one place.
-/

namespace CallAtlas.Number

/-- `part` out of `whole`. -/
structure Ratio where
  part : Int
  whole : Nat
deriving DecidableEq, Repr

namespace Ratio

/-- The ratio as a binary64 value; of an empty whole it is zero. -/
def value (r : Ratio) : Binary64 :=
  if r.whole = 0 then .zero else .ofRatio (decide (r.part < 0)) r.part.natAbs r.whole

/-- The ratio rounded to four decimal places. -/
def rounded (r : Ratio) : Binary64 :=
  r.value.roundTo 4

/-- The ratio as a percentage with one decimal place. -/
def percent (r : Ratio) : String :=
  (r.value.scale 100).onePlace

end Ratio

end CallAtlas.Number

/-!
# Cutting and comparing texts

Texts are taken apart as lists of characters: fronts and tails, pieces between separators,
occurrences of one text inside another.  A property of characters is given by the closed ranges of
code points that have it; the tables themselves stand in the modules named for the property.
-/

namespace CallAtlas.Text

/-- Whether `n` lies in one of the closed ranges `rs`. -/
def inRanges (rs : List (Nat × Nat)) (n : Nat) : Bool :=
  rs.any fun r => decide (r.1 ≤ n) && decide (n ≤ r.2)

/-- `s` cut at every `sep`.  Neighbouring separators enclose an empty piece. -/
def split (sep : Char) (s : String) : List String :=
  (s.toList.splitOn sep).map String.ofList

/-- What follows `front` at the start of the list, when it starts so. -/
def dropFront? : (front s : List Char) → Option (List Char)
  | [], s => some s
  | _ :: _, [] => none
  | f :: front, c :: s => if f = c then dropFront? front s else none

/-- Whether `s` begins with `front`. -/
def startsWith (s front : String) : Bool :=
  front.toList.isPrefixOf s.toList

/-- Whether `s` ends with `tail`. -/
def endsWith (s tail : String) : Bool :=
  tail.toList.isSuffixOf s.toList

/-- Whether `part` occurs in the list as a run of consecutive characters. -/
def occursIn (part : List Char) : List Char → Bool
  | [] => part.isEmpty
  | c :: s => part.isPrefixOf (c :: s) || occursIn part s

/-- Whether `part` occurs in `s`. -/
def contains (s part : String) : Bool :=
  occursIn part.toList s.toList

/-- What follows the last `sep`, or everything when there is none. -/
def afterLast (sep : Char) (s : List Char) : List Char :=
  (s.reverse.takeWhile (· != sep)).reverse

/-- What comes before the first `sep`, or everything when there is none. -/
def beforeFirst (sep : Char) (s : List Char) : List Char :=
  s.takeWhile (· != sep)

/-- What follows the first `sep`, or nothing when there is none. -/
def afterFirst (sep : Char) (s : List Char) : List Char :=
  (s.dropWhile (· != sep)).drop 1

/-- `texts` with `separator` between neighbours. -/
def join (separator : String) (texts : List String) : String :=
  String.ofList (separator.toList.intercalate (texts.map String.toList))

end CallAtlas.Text

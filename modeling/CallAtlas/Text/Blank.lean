import CallAtlas.Text.Basic

/-!
# Blank characters

The characters that count as white space wherever this library skips or strips blanks: the ASCII
blanks, the four information separators, and the Unicode spaces.  A zero-width space is not blank.
-/

namespace CallAtlas.Text

/-- Code points of the blank characters. -/
def blankRanges : List (Nat × Nat) :=
  [(0x9, 0xD), (0x1C, 0x20), (0x85, 0x85), (0xA0, 0xA0), (0x1680, 0x1680), (0x2000, 0x200A),
    (0x2028, 0x2029), (0x202F, 0x202F), (0x205F, 0x205F), (0x3000, 0x3000)]

/-- Whether `c` is a blank character. -/
def isBlank (c : Char) : Bool :=
  inRanges blankRanges c.toNat

/-- Whether `c` is a space, as numbers may have around them: any blank but the information
separators. -/
def isSpace (c : Char) : Bool :=
  isBlank c && !(0x1C ≤ c.toNat && c.toNat ≤ 0x1F)

/-- `s` without the characters at either end that satisfy `p`. -/
def trimBy (p : Char → Bool) (s : List Char) : List Char :=
  ((s.dropWhile p).reverse.dropWhile p).reverse

/-- `s` without the blanks at either end. -/
def trim (s : String) : String :=
  String.ofList (trimBy isBlank s.toList)

end CallAtlas.Text

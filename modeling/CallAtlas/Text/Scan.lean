import CallAtlas.Text.Basic
import CallAtlas.Text.Blank
import CallAtlas.Text.Word

/-!
# Scanning a text from left to right

A recogniser looks at one place of a text: it is told the character before that place and what
follows, and answers with a value and the text after what it took.  `scan` applies it at every
place in turn, taking the first place where it succeeds and going on behind what it took, so the
matches are the leftmost ones and never overlap.
-/

namespace CallAtlas.Text

/-- Recognises something at a place given by the character before it and the text behind it. -/
abbrev Recogniser (α : Type) := Option Char → List Char → Option (α × List Char)

/-- The pieces of a text from a place on: characters that belong to no match, and matches.  The
next `skip` characters belong to a match that is already reported. -/
def scanFrom {α : Type} (r : Recogniser α) : Option Char → Nat → List Char → List (Char ⊕ α)
  | _, _, [] => []
  | _, skip + 1, c :: s => scanFrom r (some c) skip s
  | before, 0, c :: s =>
    match r before (c :: s) with
    | some (a, rest) => .inr a :: scanFrom r (some c) (s.length - rest.length) s
    | none => .inl c :: scanFrom r (some c) 0 s

/-- The pieces of a whole text. -/
def scan {α : Type} (r : Recogniser α) (s : List Char) : List (Char ⊕ α) :=
  scanFrom r none 0 s

/-- The matches in a text, from left to right. -/
def hits {α : Type} (r : Recogniser α) (s : List Char) : List α :=
  (scan r s).filterMap Sum.getRight?

/-- The text with every match replaced by what the recogniser gives for it. -/
def replaceHits (r : Recogniser (List Char)) (s : List Char) : List Char :=
  (scan r s).flatMap (Sum.elim (fun c => [c]) id)

/-! ### Fixed texts -/

/-- The text with every occurrence of `old` replaced by `new`, from the left. -/
def replaceText (old new : List Char) (s : List Char) : List Char :=
  replaceHits (fun _ s => (dropFront? old s).map fun rest => (new, rest)) s

/-- The pieces of a text between the occurrences of `sep`, from the left. -/
def splitText (sep : List Char) (s : List Char) : List (List Char) :=
  ((scan (fun _ s => (dropFront? sep s).map fun rest => ((), rest)) s).splitOnP Sum.isRight).map
    fun piece => piece.filterMap Sum.getLeft?

/-! ### Parts of recognisers -/

/-- Takes the character `c`. -/
def take? (c : Char) : List Char → Option (List Char)
  | [] => none
  | d :: s => if d = c then some s else none

/-- Takes the longest word, which must not be empty. -/
def word? (s : List Char) : Option (List Char × List Char) :=
  if s.takeWhile isWord = [] then none else some (s.takeWhile isWord, s.dropWhile isWord)

/-- Skips blanks. -/
def skipBlanks (s : List Char) : List Char :=
  s.dropWhile isBlank

/-- Skips blanks, of which there must be at least one. -/
def blanks? (s : List Char) : Option (List Char) :=
  if s.takeWhile isBlank = [] then none else some (skipBlanks s)

/-- Whether a word begins or ends between the character before a place and the text behind it. -/
def atWordEdge (before : Option Char) (s : List Char) : Bool :=
  before.any isWord != s.head?.any isWord

end CallAtlas.Text

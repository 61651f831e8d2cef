import CallAtlas.Text.Basic

/-!
# Slash-separated paths

The parts of a path: the name behind its last slash, the directory in front of it, and the stem,
which is the name without its extension.  `segments` reduces a path to its canonical segments,
where empty and single-dot segments vanish and a double dot takes back the segment before it.
-/

namespace CallAtlas.Path

open CallAtlas.Text

/-- What follows the last slash. -/
def basename (path : String) : String :=
  String.ofList (afterLast '/' path.toList)

/-- What precedes the last slash, without the slashes at its end; a front that is nothing but
slashes is kept. -/
def dirname (path : String) : String :=
  let front := path.toList.reverse.dropWhile (· != '/')
  String.ofList (if front.all (· == '/') then front else (front.dropWhile (· == '/')).reverse)

/-- The name without its extension.  The extension starts at the last dot, unless only dots stand
in front of it. -/
def stem (path : String) : String :=
  let name := afterLast '/' path.toList
  let front := (name.reverse.dropWhile (· != '.')).drop 1
  String.ofList (if front.all (· == '.') then name else front.reverse)

/-- One segment of a path met after `stack`, whose last segment comes first. -/
def pushSegment (stack : List (List Char)) (segment : List Char) : List (List Char) :=
  if segment = [] || segment = ['.'] then stack
  else if segment = ['.', '.'] then
    match stack with
    | [] => [segment]
    | top :: below => if top = ['.', '.'] then segment :: stack else below
  else segment :: stack

/-- The canonical segments of a path.  Double dots remain only in front. -/
def segments (path : List Char) : List (List Char) :=
  ((path.splitOn '/').foldl pushSegment []).reverse

end CallAtlas.Path

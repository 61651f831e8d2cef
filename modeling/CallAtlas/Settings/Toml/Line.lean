import CallAtlas.Settings.Toml.Value

/-!
# Lines of a settings file

A line opens a table, `[name.name]`, or gives a key its value, `key = value`.  Equals signs, points
and brackets between quotes do not count.  An equals sign is taken for part of the key if what
follows it starts like no value.
-/

namespace CallAtlas.Settings.Toml

open CallAtlas.Text

/-! ### Outside and inside quotes -/

/-- Joins pieces between double quotes to the last of the pieces between single quotes as long as a
single quote is open, then cuts what is left: the first piece at its single quotes. -/
def joinPieces : (singles doubles : List (List Char)) → List (List Char)
  | singles, [] => singles
  | singles, piece :: rest =>
    if singles.length % 2 == 0 && singles != [] then
      joinPieces
        (singles.dropLast ++ (singles.getLastD [] ++ '"' :: piece).splitOn '\'') rest
    else singles ++ piece.splitOn '\'' ++ rest

/-- The pieces of a line between its quotes: the first outside, the second inside, and so on in
turn. -/
def quotePieces (s : List Char) : List (List Char) :=
  match s.splitOn '"' with
  | first :: second :: rest =>
    if first.contains '\'' then joinPieces (first.splitOn '\'') (second :: rest)
    else joinPieces [] (first :: second :: rest)
  | pieces => joinPieces [] pieces

/-- How many `sep` stand in the pieces before the first one outside quotes. -/
def countQuoted (sep : Char) : (inside : Bool) → List (List Char) → Nat
  | _, [] => 0
  | inside, piece :: rest =>
    if !inside && piece.contains sep then 0
    else piece.count sep + countQuoted sep (!inside) rest

/-- The line before and behind its `sep` number `n`, counted from zero. -/
def cutAt? (sep : Char) : (n : Nat) → List Char → Option (List Char × List Char)
  | _, [] => none
  | n, c :: s =>
    if c = sep then
      match n with
      | 0 => some ([], s)
      | n + 1 => (cutAt? sep n s).map fun (front, back) => (c :: front, back)
    else (cutAt? sep n s).map fun (front, back) => (c :: front, back)

/-! ### Headers -/

/-- Whether a name needs no quotes: plain ASCII letters, digits, underscores and hyphens. -/
def isBareName (s : List Char) : Bool :=
  s != [] && s.all fun c => c.isAlphanum || c == '_' || c == '-'

/-- The name between quotes, if a text ends in the quote that it starts with. -/
def quotedName? (s : List Char) : Option String :=
  if 1 < s.length && s.head? == s.getLast? then some (String.ofList (s.drop 1).dropLast) else none

/-- The names in a header, given cut at its points.  A quoted name that is not closed goes on behind
the point; `unclosed` is its start. -/
def headerNames? : (unclosed : Option (List Char)) → List (List Char) → Option (List String)
  | none, [] => some []
  | some _, [] => none
  | none, piece :: rest =>
    let piece := trimBy isBlank piece
    if piece.head?.any isQuote then
      match quotedName? piece with
      | some name => (headerNames? none rest).map (name :: ·)
      | none => headerNames? (some piece) rest
    else if isBareName piece then (headerNames? none rest).map (String.ofList piece :: ·)
    else none
  | some start, piece :: rest =>
    match quotedName? (trimBy isBlank (start ++ '.' :: piece)) with
    | some name => (headerNames? none rest).map (name :: ·)
    | none => headerNames? (some (start ++ '.' :: piece)) rest

/-- The names of the table that a line opens, given behind its bracket. -/
def header? (s : List Char) : Option (List String) := do
  let (front, back) ← cutAt? ']' (countQuoted ']' false (quotePieces s)) s
  if trimBy isBlank back = [] then headerNames? none (front.splitOn '.') else none

/-! ### Entries -/

/-- Whether what follows an equals sign may be a value: it is empty or starts with a space, or it
is a text, a number or a truth value. -/
def startsLikeValue (s : List Char) : Bool :=
  match s with
  | [] => true
  | c :: _ =>
    c == ' ' || c == '\t' || isQuote c || c == '[' || c == '\x7b' ||
      (trimBy isBlank s == "true".toList) || (trimBy isBlank s == "false".toList) ||
      (Number.readReal? (String.ofList s)).isSome

/-- What stands on the two sides of the equals sign of an entry. -/
structure Sides where
  key : List Char
  value : List Char
  /-- Whether a number on the right would be written as it should. -/
  isTidy : Bool

/-- The sides of the equals sign number `n`, or of one behind it; `isTidy` tells whether every
right side so far would be a tidy number.  There are at most `fuel` equals signs left. -/
def sidesFrom? (line : List Char) : (fuel n : Nat) → (isTidy : Bool) → Option Sides
  | 0, _, _ => none
  | fuel + 1, n, isTidy => do
    let (key, value) ← cutAt? '=' n line
    let isTidy := isTidy && isTidyNumber value
    if startsLikeValue value then some ⟨key, value, isTidy⟩
    else sidesFrom? line fuel (n + 1) isTidy

/-- The sides of an entry.  The underscores of a number right behind the equals sign do not
count. -/
def sides? (line : List Char) : Option Sides := do
  let n := min (countQuoted '=' false (quotePieces line)) (line.count '=' - 1)
  let (key, value) ← cutAt? '=' n line
  let plain := if value.head?.any Char.isDigit then value.filter (· != '_') else value
  if startsLikeValue plain then some ⟨key, plain, isTidyNumber value⟩
  else sidesFrom? line line.length (n + 1) (isTidyNumber value)

/-- The levels of a key with a point: words between points, and texts between quotes. -/
def keyLevels : (inside : Bool) → (pieces : List (List Char)) → List (List Char)
  | _, [] => []
  | true, piece :: rest => piece :: keyLevels false rest
  | false, piece :: rest => (piece.splitOn '.').map (trimBy isBlank) ++ keyLevels true rest

/-- The tables that a key leads through, and its last name.  A key with a point is cut there, and a
quoted one without a point is unescaped. -/
def keyPath (key : List Char) : Except Fault (List String × String) :=
  if key.contains '.' then
    let levels :=
      if key.any isQuote then keyLevels false (quotePieces key) else key.splitOn '.'
    match levels.reverse.dropWhile (· == []) with
    | [] => .error .cutShort
    | last :: inner =>
      .ok ((inner.reverse.filter (· != [])).map String.ofList,
        String.ofList (trimBy isBlank last))
  else
    match key with
    | [] => .error .cutShort
    | c :: s =>
      if isQuote c && key.getLast? == some c then do
        return ([], String.ofList (← unescape s.dropLast))
      else .ok ([], String.ofList key)

/-- Whether a value starts a text between three quotes that goes on on the next line. -/
def isUnfinished (value : List Char) : Bool :=
  match value with
  | a :: b :: c :: _ =>
    isQuote a && b == a && c == a &&
      !(5 < value.length && (value.reverse.take 3).all (· == a))
  | _ => false

end CallAtlas.Settings.Toml

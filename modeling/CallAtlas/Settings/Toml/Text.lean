import CallAtlas.Number.Reading
import CallAtlas.Settings.Toml.Screen
import CallAtlas.Text.Scan

/-!
# Texts in a settings file

A text stands between single quotes, and is then taken as it is, or between double quotes, where a
backslash introduces an escape.  Codes `\u` and `\U` are resolved before the other escapes, so that
a backslash given by its code counts as one.
-/

namespace CallAtlas.Settings.Toml

open CallAtlas.Text

/-! ### Quotes -/

/-- Whether the pieces of a text between its quotes are in order: once the text is closed, none but
empty ones follow.  A piece that ends in an escape goes on behind the quote.  Between three quotes,
a piece closes the text if two quotes stand before it. -/
def piecesAreClosed (threefold : Bool) : (closed : Bool) → (quotes : Nat) →
    List (List Char) → Bool
  | _, _, [] => true
  | closed, quotes, piece :: rest =>
    if piece = [] then
      if threefold then piecesAreClosed threefold closed (quotes + 1) rest
      else piecesAreClosed threefold true quotes rest
    else if endsEscaped piece then piecesAreClosed threefold closed quotes rest
    else if closed then false
    else if !threefold || 1 < quotes then piecesAreClosed threefold true quotes rest
    else piecesAreClosed threefold closed 0 rest

/-- Whether nothing follows the quote that closes a text. -/
def isClosed (quote : Char) (body : List Char) : Bool :=
  match body.splitOn quote with
  | [] :: [] :: pieces => piecesAreClosed true false 0 pieces
  | pieces => piecesAreClosed false false 0 pieces

/-- What stands between the quotes: one at either end, or three. -/
def betweenQuotes (quote : Char) (s : List Char) : List Char :=
  let s :=
    match s.drop 1 with
    | [c] => if c == quote then s.drop 2 else s
    | c :: d :: _ => if c == quote && d == quote then (s.drop 2).dropLast.dropLast else s
    | [] => s
  (s.drop 1).dropLast

/-! ### Escapes -/

/-- What a letter behind a backslash stands for. -/
def escapes : List (Char × Char) :=
  [('0', Char.ofNat 0), ('b', Char.ofNat 8), ('f', Char.ofNat 12), ('n', '\n'), ('r', '\r'),
    ('t', '\t'), ('"', '"')]

/-- Whether a backslash may stand before `c`. -/
def isEscapable (c : Char) : Bool :=
  (escapes.lookup c).isSome || c == 'u' || c == 'U'

/-- Whether all of the pieces between backslashes start with a character that may be escaped.
Behind two backslashes anything may follow. -/
def escapesAreKnown : (doubled : Bool) → List (List Char) → Bool
  | _, [] => true
  | doubled, [] :: rest => escapesAreKnown (!doubled) rest
  | doubled, (c :: _) :: rest => (doubled || isEscapable c) && escapesAreKnown false rest

/-- The character with a code in up to `width` hexadecimal digits at the front of a text, and what
follows.  Surrogates are no characters. -/
def takeCode (width : Nat) (s : List Char) : Except Fault (Char × List Char) := do
  let digits := s.take width
  if !(digits.all fun c => c.toNat < 0x80 && (Number.hexDigit? c).isSome) then throw .malformed
  match digits.map Char.toLower with
  | [] => throw .cutShort
  | ['d'] => throw .cutShort
  | 'd' :: c :: _ => if !('0' ≤ c && c ≤ '7') then throw .malformed
  | _ => pure ()
  let code := (Number.readInBase? 16 digits).getD 0
  if 0x7FFFFFFF < code then throw .hugeCode
  else if code.isValidChar then return (Char.ofNat code, s.drop width)
  else throw .malformed

/-- Resolves the codes at the front of pieces that stand behind the mark of a code.  A mark behind a
backslash, which `escaped` tells of the first one, is none. -/
def resolveCodes (mark : List Char) (width : Nat) :
    (escaped : Bool) → List (List Char) → Except Fault (List Char)
  | _, [] => .ok []
  | true, piece :: rest => do
    return mark ++ piece ++ (← resolveCodes mark width (endsEscaped piece) rest)
  | false, piece :: rest => do
    let (c, behind) ← takeCode width piece
    return c :: behind ++ (← resolveCodes mark width false rest)

/-- Resolves the codes of one kind. -/
def withCodes (letter : Char) (width : Nat) (s : List Char) : Except Fault (List Char) :=
  match splitText ['\\', letter] s with
  | [] => .ok s
  | front :: pieces => do
    return front ++ (← resolveCodes ['\\', letter] width (endsEscaped front) pieces)

/-- Resolves the escapes other than codes. -/
def unescape : List Char → Except Fault (List Char)
  | [] => .ok []
  | '\\' :: c :: s =>
    if c = '\\' then do return '\\' :: (← unescape s)
    else if c = 'u' || c = 'U' then do return '\\' :: c :: (← unescape s)
    else
      match escapes.lookup c with
      | some d => do return d :: (← unescape s)
      | none => .error .malformed
  | c :: s => do return c :: (← unescape s)

/-- The text that is written as `s`, quotes included; `quote` is its first character. -/
def readText (quote : Char) (s : List Char) : Except Fault String := do
  if !isClosed quote (s.drop 1) then throw .malformed
  if quote = '\'' then return String.ofList (betweenQuotes quote s)
  if !escapesAreKnown false ((s.splitOn '\\').drop 1) then throw .malformed
  let s ← withCodes 'u' 4 s
  let s ← withCodes 'U' 8 s
  return String.ofList (betweenQuotes quote (← unescape s))

end CallAtlas.Settings.Toml

import CallAtlas.Text.Basic

/-!
# Console markup

Console output is marked up with tags in square brackets.  A text that is shown as it is has its
would-be tags escaped.
-/

namespace CallAtlas.Text.Markup

/-- Whether a tag may start with `c`. -/
def startsTag (c : Char) : Bool :=
  ('a' ≤ c && c ≤ 'z') || c == '#' || c == '/' || c == '@'

/-- Whether a tag opens the text: a bracket, a character that may start a tag, and a closing
bracket before the next opening one. -/
def opensTag : List Char → Bool
  | '[' :: c :: s =>
    startsTag c && (s.dropWhile fun d => d != '[' && d != ']').head? == some ']'
  | _ => false

/-- The text with a backslash in front of every would-be tag; the backslashes that stand directly
before it, of which there are `pending` so far, are doubled. -/
def escapeFrom : (pending : Nat) → List Char → List Char
  | pending, [] => List.replicate pending '\\'
  | pending, c :: s =>
    if c = '\\' then escapeFrom (pending + 1) s
    else if opensTag (c :: s) then List.replicate (2 * pending + 1) '\\' ++ c :: escapeFrom 0 s
    else List.replicate pending '\\' ++ c :: escapeFrom 0 s

/-- A text that shows as it is.  A single backslash at its end is doubled, so that it does not act
on what follows. -/
def escape (text : String) : String :=
  let s := escapeFrom 0 text.toList
  String.ofList (match s.reverse with
    | '\\' :: c :: _ => if c = '\\' then s else s ++ ['\\']
    | ['\\'] => s ++ ['\\']
    | _ => s)

end CallAtlas.Text.Markup

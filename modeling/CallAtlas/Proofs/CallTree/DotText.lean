import CallAtlas.Proofs.CallTree.Quotient

/-!
# The text of a graph

What the graph of a tree says is read off its text: the text is cut into tokens, the tokens into
statements.

* `scan m s`: the tokens of the text `s`, read on from the mode `m`.  A text is put together from
  pieces, and so is what is read of it (`Scans.append`).
* `read? s`: the statements of the graph that is written as `s`.
* `Quoted raw s`: between double quotes, `raw` stands for the text `s`.  There is no case for a
  quote without a backslash.
* `read?_dot`: the text of the graph of a tree reads as the statements that were written.
* `IsQuotient t statements id`: the statements are those of the graph in which nodes of equal
  identity are one node, which goes by the id of that identity.
-/

namespace CallAtlas.Dot

/-! ### Tokens -/

/-- A token of a written graph. -/
inductive Token where
  /-- Letters, digits and underscores. -/
  | word (s : String)
  /-- A text between double quotes, as it is written there. -/
  | quoted (raw : String)
  /-- Between the ends of an edge. -/
  | arrow
  /-- Any other character. -/
  | mark (c : Char)
deriving DecidableEq, Repr

/-- Where in a token the reader is, with what it has read of it. -/
inductive Mode where
  | between
  | inWord (s : List Char)
  | inQuotes (raw : List Char)
  | afterBackslash (raw : List Char)
  | afterDash
deriving DecidableEq, Repr

/-- Whether a word may hold a character. -/
def isWordChar (c : Char) : Bool :=
  c.isAlphanum || c == '_'

/-- The tokens that a character completes, and the mode after it, where it begins a token. -/
def begin (c : Char) : List Token × Mode :=
  if c = ' ' ∨ c = '\n' then ([], .between)
  else if c = '"' then ([], .inQuotes [])
  else if c = '-' then ([], .afterDash)
  else if isWordChar c then ([], .inWord [c])
  else ([.mark c], .between)

/-- The tokens that a character completes in a mode, and the mode after it. -/
def step : Mode → Char → List Token × Mode
  | .between, c => begin c
  | .inWord s, c =>
    if isWordChar c then ([], .inWord (s ++ [c]))
    else (.word (String.ofList s) :: (begin c).1, (begin c).2)
  | .inQuotes raw, c =>
    if c = '"' then ([.quoted (String.ofList raw)], .between)
    else if c = '\\' then ([], .afterBackslash raw)
    else ([], .inQuotes (raw ++ [c]))
  | .afterBackslash raw, c => ([], .inQuotes (raw ++ ['\\', c]))
  | .afterDash, c =>
    if c = '>' then ([.arrow], .between)
    else (.mark '-' :: (begin c).1, (begin c).2)

/-- The tokens that a text completes in a mode, and the mode after it. -/
def scan (m : Mode) : List Char → List Token × Mode
  | [] => ([], m)
  | c :: cs => ((step m c).1 ++ (scan (step m c).2 cs).1, (scan (step m c).2 cs).2)

/-- The tokens of a text that ends between tokens. -/
def tokens? (s : String) : Option (List Token) :=
  match scan .between s.toList with
  | (tokens, .between) => some tokens
  | _ => none

/-! ### Statements -/

/-- A statement of a written graph. -/
inductive Statement where
  | setting (key value : String)
  | node (id : String) (attributes : List (String × String))
  | edge (source target : String)
deriving DecidableEq, Repr

/-- An attribute, with its value as it is written. -/
def attribute? : List Token → Option (String × String)
  | [.word key, .mark '=', .word value] => some (key, value)
  | [.word key, .mark '=', .quoted value] => some (key, value)
  | _ => none

/-- The attributes of a node. -/
def attributes? (tokens : List Token) : Option (List (String × String)) :=
  (tokens.splitOn (.mark ',')).mapM attribute?

/-- The statement that tokens make. -/
def statement? : List Token → Option Statement
  | [.word key, .mark '=', .word value] => some (.setting key value)
  | [.word source, .arrow, .word target] => some (.edge source target)
  | .word id :: .mark '[' :: rest =>
    if rest.getLast? = some (.mark ']') then (attributes? rest.dropLast).map (.node id) else none
  | _ => none

/-- The statements of a body, each of which ends in a semicolon. -/
def body? (tokens : List Token) : Option (List Statement) :=
  let pieces := tokens.splitOn (.mark ';')
  if pieces.getLast? = some [.mark '\x7d'] then pieces.dropLast.mapM statement? else none

/-- The statements of a directed graph. -/
def digraph? : List Token → Option (List Statement)
  | .word keyword :: .word _ :: .mark '\x7b' :: body =>
    if keyword = "digraph" then body? body else none
  | _ => none

/-- The statements of the graph that is written. -/
def read? (s : String) : Option (List Statement) :=
  (tokens? s).bind digraph?

/-- The ids that are declared, in order. -/
def declaredIds (statements : List Statement) : List String :=
  statements.filterMap fun
    | .node id _ => some id
    | _ => none

/-- The pairs of ids that are joined, in order. -/
def joinedIds (statements : List Statement) : List (String × String) :=
  statements.filterMap fun
    | .edge source target => some (source, target)
    | _ => none

/-- Between double quotes `raw` stands for a text: quote and backslash are written after a
backslash, and every other character is written as it is. -/
inductive Quoted : List Char → List Char → Prop
  | nil : Quoted [] []
  | plain {raw s : List Char} {c : Char} (h : Quoted raw s) (hquote : c ≠ '"')
      (hbackslash : c ≠ '\\') : Quoted (c :: raw) (c :: s)
  | quote {raw s : List Char} (h : Quoted raw s) : Quoted ('\\' :: '"' :: raw) ('"' :: s)
  | backslash {raw s : List Char} (h : Quoted raw s) : Quoted ('\\' :: '\\' :: raw) ('\\' :: s)

/-! ### Reading pieces of a text -/

/-- Reading `s` on from `m` completes the tokens and ends in `m'`. -/
def Scans (m : Mode) (s : List Char) (tokens : List Token) (m' : Mode) : Prop :=
  scan m s = (tokens, m')

section

variable {m m' m'' : Mode} {s s' : List Char} {tokens tokens' : List Token}

theorem scans_nil (m : Mode) : Scans m [] [] m :=
  rfl

theorem Scans.cons {c : Char} (hstep : step m c = (tokens, m')) (h : Scans m' s tokens' m'') :
    Scans m (c :: s) (tokens ++ tokens') m'' := by
  unfold Scans at h ⊢
  rw [scan, hstep, h]

theorem Scans.append (h : Scans m s tokens m') (h' : Scans m' s' tokens' m'') :
    Scans m (s ++ s') (tokens ++ tokens') m'' := by
  induction s generalizing m tokens with
  | nil =>
    obtain ⟨rfl, rfl⟩ := Prod.mk.inj h
    exact h'
  | cons c s ih =>
    obtain ⟨rfl, hrest⟩ := Prod.mk.inj h
    have hs : Scans (step m c).2 s (scan (step m c).2 s).1 m' := Prod.ext rfl hrest
    rw [List.append_assoc]
    exact Scans.cons rfl (ih hs)

end

/-- A word goes on over the characters that a word may hold. -/
theorem scans_word (w : List Char) {s : List Char} (h : ∀ c ∈ s, isWordChar c = true) :
    Scans (.inWord w) s [] (.inWord (w ++ s)) := by
  induction s generalizing w with
  | nil =>
    rw [List.append_nil]
    exact scans_nil _
  | cons c s ih =>
    have hc : isWordChar c = true := h c List.mem_cons_self
    have hstep : step (.inWord w) c = ([], .inWord (w ++ [c])) := by
      rw [step, if_pos hc]
    have hs := ih (w ++ [c]) fun d hd => h d (List.mem_cons_of_mem c hd)
    rw [List.append_assoc] at hs
    exact Scans.cons hstep hs

/-- The reader stays between the quotes over what stands for a text. -/
theorem scans_quoted (w : List Char) {raw s : List Char} (h : Quoted raw s) :
    Scans (.inQuotes w) raw [] (.inQuotes (w ++ raw)) := by
  induction h generalizing w with
  | nil =>
    rw [List.append_nil]
    exact scans_nil _
  | plain h hquote hbackslash ih =>
    rename_i raw s c
    have hstep : step (.inQuotes w) c = ([], .inQuotes (w ++ [c])) := by
      rw [step, if_neg hquote, if_neg hbackslash]
    have hs := ih (w ++ [c])
    rw [List.append_assoc] at hs
    exact Scans.cons hstep hs
  | quote h ih =>
    have hs := ih (w ++ ['\\', '"'])
    rw [List.append_assoc] at hs
    exact Scans.cons rfl (Scans.cons rfl hs)
  | backslash h ih =>
    have hs := ih (w ++ ['\\', '\\'])
    rw [List.append_assoc] at hs
    exact Scans.cons rfl (Scans.cons rfl hs)

/-- A line that ends between tokens is read in front of the lines after it. -/
theorem Scans.line {line : List Char} {lines : List (List Char)} {tokens tokens' : List Token}
    (h : Scans .between line tokens .between)
    (h' : Scans .between (List.intercalate ['\n'] lines) tokens' .between) (hlines : lines ≠ []) :
    Scans .between (List.intercalate ['\n'] (line :: lines)) (tokens ++ tokens') .between := by
  have hbreak : Scans .between ['\n'] [] .between := rfl
  have hall := (h.append hbreak).append h'
  rw [List.append_nil] at hall
  rw [List.intercalate_cons_of_ne_nil hlines]
  exact hall

/-- Pieces that each end in a mark are cut apart at the marks. -/
theorem splitOn_flatMap {pieces : List (List Token)} {last : List Token} {mark : Token}
    (h : ∀ piece ∈ pieces, mark ∉ piece) (hlast : mark ∉ last) :
    (pieces.flatMap (· ++ [mark]) ++ last).splitOn mark = pieces ++ [last] := by
  induction pieces with
  | nil => exact List.splitOn_eq_singleton hlast
  | cons piece pieces ih =>
    have hpiece : mark ∉ piece := h piece List.mem_cons_self
    have hrest := ih fun p hp => h p (List.mem_cons_of_mem piece hp)
    rw [List.flatMap_cons, List.append_assoc, List.append_assoc, List.singleton_append,
      List.splitOn_append_cons_self_of_not_mem hpiece, hrest, List.cons_append]

end CallAtlas.Dot

namespace CallAtlas.CallTree

open Dot

/-! ### What is written -/

/-- The id of a numbered node. -/
def idText (number : Nat) : String :=
  "n" ++ toString number

/-- The attributes that make the style of a kind. -/
def styleAttributes : CallKind → List (String × String)
  | .internal => [("shape", "box"), ("style", "rounded,filled"), ("fillcolor", "#dbeafe")]
  | .external => [("shape", "box"), ("style", "dashed"), ("color", "#9ca3af")]
  | .interface => [("shape", "box"), ("style", "rounded,filled"), ("fillcolor", "#fef3c7")]

/-- What a statement reads as. -/
def DotStatement.reading : DotStatement → Dot.Statement
  | node number label kind =>
    .node (idText number) (("label", dotEscape label) :: styleAttributes kind)
  | edge source target => .edge (idText source) (idText target)

/-- The tokens of the style of a kind. -/
def styleTokens (kind : CallKind) : List Token :=
  (scan .between (dotStyle kind).toList).1

/-- The tokens of a statement, up to the semicolon. -/
def DotStatement.tokens : DotStatement → List Token
  | node number label kind =>
    [.word (idText number), .mark '[', .word "label", .mark '=', .quoted (dotEscape label),
      .mark ','] ++ styleTokens kind ++ [.mark ']']
  | edge source target => [.word (idText source), .arrow, .word (idText target)]

theorem idText_inj {a b : Nat} (h : idText a = idText b) : a = b := by
  have hdigits : Nat.toDigits 10 a = Nat.toDigits 10 b := by
    have hlists := congrArg String.toList h
    simpa [idText] using hlists
  have hvalues := congrArg (Nat.ofDigitChars 10 · 0) hdigits
  simpa using hvalues

theorem ofList_toString (number : Nat) :
    String.ofList (['n'] ++ (toString number).toList) = idText number := by
  rw [String.ofList_append, String.ofList_toList]
  rfl

theorem isWordChar_of_mem_toString {number : Nat} {c : Char} (h : c ∈ (toString number).toList) :
    isWordChar c = true := by
  have hdigit : c.isDigit = true := by
    rw [Nat.toString_eq_repr, Nat.toList_repr] at h
    exact Nat.isDigit_of_mem_toDigits (by omega) (by omega) h
  simp [isWordChar, Char.isAlphanum, hdigit]

/-- An escaped text stands for the text between double quotes. -/
theorem quoted_dotEscape (s : String) : Quoted (dotEscape s).toList s.toList := by
  rw [dotEscape, String.toList_ofList]
  induction s.toList with
  | nil => exact .nil
  | cons c cs ih =>
    rw [List.flatMap_cons]
    by_cases hbackslash : c = '\\'
    · rw [hbackslash]
      exact ih.backslash
    · by_cases hquote : c = '"'
      · rw [hquote]
        exact ih.quote
      · rw [if_neg (by simp [hbackslash, hquote])]
        exact ih.plain hquote hbackslash

theorem styles_read (kind : CallKind) :
    Scans .between (dotStyle kind).toList (styleTokens kind) .between ∧
      .mark ';' ∉ styleTokens kind ∧
      attributes? (styleTokens kind) = some (styleAttributes kind) := by
  unfold Scans
  cases kind <;> decide +kernel

/-- A statement is read as its tokens and a semicolon. -/
theorem scans_text (s : DotStatement) :
    Scans .between s.text.toList (s.tokens ++ [.mark ';']) .between := by
  have hid (number : Nat) : Scans (.inWord ['n']) (toString number).toList []
      (.inWord (['n'] ++ (toString number).toList)) :=
    scans_word ['n'] fun c hc => isWordChar_of_mem_toString hc
  have hopen : Scans .between "  n".toList [] (.inWord ['n']) := rfl
  cases s with
  | node number label kind =>
    have hlabel (w : List Char) : Scans (.inWord w) " [label=\"".toList
        [.word (String.ofList w), .mark '[', .word "label", .mark '='] (.inQuotes []) := rfl
    have hquoted := scans_quoted [] (quoted_dotEscape label)
    rw [List.nil_append] at hquoted
    have hcomma (w : List Char) : Scans (.inQuotes w) "\", ".toList
        [.quoted (String.ofList w), .mark ','] .between := rfl
    have hclose : Scans .between "];".toList [.mark ']', .mark ';'] .between := rfl
    -- the pieces of the text in order, each from the state that the last one leaves
    have hall := (((((hopen.append (hid number)).append (hlabel _)).append hquoted).append
      (hcomma _)).append (styles_read kind).1).append hclose
    rw [ofList_toString, String.ofList_toList] at hall
    simpa [DotStatement.text, DotStatement.tokens] using hall
  | edge source target =>
    have harrow (w : List Char) : Scans (.inWord w) " -> n".toList
        [.word (String.ofList w), .arrow] (.inWord ['n']) := rfl
    have hclose (w : List Char) : Scans (.inWord w) ";".toList
        [.word (String.ofList w), .mark ';'] .between := rfl
    -- an edge has no quoted part
    have hall := (((hopen.append (hid source)).append (harrow _)).append (hid target)).append
      (hclose _)
    rw [ofList_toString, ofList_toString] at hall
    simpa [DotStatement.text, DotStatement.tokens] using hall

theorem semicolon_notMem_tokens (s : DotStatement) : .mark ';' ∉ s.tokens := by
  cases s with
  | node number label kind =>
    have hstyle := (styles_read kind).2.1
    simp [DotStatement.tokens, hstyle]
  | edge source target => simp [DotStatement.tokens]

theorem statement?_node (id : String) (tokens : List Token) :
    statement? (.word id :: .mark '[' :: (tokens ++ [.mark ']'])) =
      (attributes? tokens).map (.node id) := by
  simp [statement?]

/-- The tokens of a statement read as the statement. -/
theorem statement?_tokens (s : DotStatement) : statement? s.tokens = some s.reading := by
  cases s with
  | node number label kind =>
    -- the first comma ends the label, the others are in the style
    have hattributes : attributes? ([.word "label", .mark '=', .quoted (dotEscape label)] ++
        .mark ',' :: styleTokens kind) =
          some (("label", dotEscape label) :: styleAttributes kind) := by
      have hstyle := (styles_read kind).2.2
      rw [attributes?] at hstyle
      rw [attributes?, List.splitOn_append_cons_self_of_not_mem (by simp), List.mapM_cons, hstyle]
      rfl
    have hnode := statement?_node (idText number)
      ([.word "label", .mark '=', .quoted (dotEscape label)] ++ .mark ',' :: styleTokens kind)
    rw [hattributes] at hnode
    exact hnode
  | edge source target => rfl

/-! ### The whole text -/

/-- The setting in front of the statements of a graph. -/
def directionSetting : Dot.Statement :=
  .setting "rankdir" "LR"

/-- The statements that the text of the graph of a tree reads as. -/
def graphReading (t : CallTree) : List Dot.Statement :=
  directionSetting :: (dotGraph t).statements.map DotStatement.reading

/-- The tokens of that setting, up to the semicolon. -/
def settingTokens : List Token :=
  [.word "rankdir", .mark '=', .word "LR"]

/-- The tokens of the body of a graph. -/
def bodyTokens (statements : List DotStatement) : List Token :=
  (settingTokens :: statements.map DotStatement.tokens).flatMap (· ++ [.mark ';']) ++
    [.mark '\x7d']

/-- The body of a graph reads as the setting and the statements. -/
theorem body?_bodyTokens (statements : List DotStatement) :
    body? (bodyTokens statements) =
      some (directionSetting :: statements.map DotStatement.reading) := by
  -- no piece has a semicolon inside, so the splits are the ones between pieces
  have hpieces : ∀ piece ∈ settingTokens :: statements.map DotStatement.tokens,
      Token.mark ';' ∉ piece := by
    intro piece hpiece
    rcases List.mem_cons.mp hpiece with rfl | hpiece
    · decide
    · obtain ⟨s, -, rfl⟩ := List.mem_map.mp hpiece
      exact semicolon_notMem_tokens s
  have hread : (statements.map DotStatement.tokens).mapM statement? =
      some (statements.map DotStatement.reading) := by
    have hfun : statement? ∘ DotStatement.tokens = fun s => pure (DotStatement.reading s) :=
      funext statement?_tokens
    rw [List.mapM_map, hfun, List.mapM_pure]
    rfl
  have hsetting : statement? settingTokens = some directionSetting := rfl
  -- behind the last semicolon there is the closing brace only
  have hlast (pieces : List (List Token)) :
      (pieces ++ [[Token.mark '\x7d']]).getLast? = some [Token.mark '\x7d'] :=
    List.getLast?_concat
  rw [body?, bodyTokens, splitOn_flatMap hpieces (by decide), if_pos (hlast _),
    List.dropLast_concat, List.mapM_cons, hsetting, hread]
  rfl

/-- The lines of statements and the closing brace after them. -/
theorem scans_statements (statements : List DotStatement) :
    Scans .between
      (List.intercalate ['\n'] ((statements.map DotStatement.text ++ ["\x7d"]).map String.toList))
      ((statements.map DotStatement.tokens).flatMap (· ++ [.mark ';']) ++ [.mark '\x7d'])
      .between := by
  induction statements with
  | nil => rfl
  | cons s statements ih =>
    have hline := (scans_text s).line ih (by simp)
    rw [← List.append_assoc] at hline
    exact hline

theorem tokens?_dot (t : CallTree) :
    tokens? (dot t) = some ([.word "digraph", .word "CallTree", .mark '\x7b'] ++
      bodyTokens (dotGraph t).statements) := by
  have hopen : Scans .between "digraph CallTree \x7b".toList
      [.word "digraph", .word "CallTree", .mark '\x7b'] .between := rfl
  have hsetting : Scans .between "  rankdir=LR;".toList
      (settingTokens ++ [.mark ';']) .between := rfl
  have hstatements := scans_statements (dotGraph t).statements
  have hall := hopen.line (hsetting.line hstatements (by simp)) (by simp)
  have htext : (dot t).toList = List.intercalate ['\n'] ("digraph CallTree \x7b".toList ::
      "  rankdir=LR;".toList ::
        ((dotGraph t).statements.map DotStatement.text ++ ["\x7d"]).map String.toList) := by
    rw [dot, Text.join, String.toList_ofList]
    rfl
  unfold Scans at hall
  rw [tokens?, htext, hall]
  rfl

/-- The text of the graph of a tree reads as the statements of the graph. -/
theorem read?_dot (t : CallTree) : read? (dot t) = some (graphReading t) := by
  rw [read?, tokens?_dot, Option.bind_some, graphReading, ← body?_bodyTokens]
  rfl

/-! ### The quotient of a tree -/

theorem declaredIds_reading (statements : List DotStatement) :
    declaredIds (statements.map DotStatement.reading) = (declaredNumbers statements).map idText := by
  rw [declaredIds, declaredNumbers, List.filterMap_map, List.map_filterMap]
  congr 1
  funext s
  cases s with
  | node => rfl
  | edge => rfl

theorem joinedIds_reading (statements : List DotStatement) :
    joinedIds (statements.map DotStatement.reading) =
      (joinedNumbers statements).map fun ends => (idText ends.1, idText ends.2) := by
  rw [joinedIds, joinedNumbers, List.filterMap_map, List.map_filterMap]
  congr 1
  funext s
  cases s with
  | node => rfl
  | edge => rfl

/-- What stands in front of an edge of the written graph declares its ends. -/
theorem declaredIds_before {statements : List DotStatement} (h : Grounded statements)
    {before after : List Dot.Statement} {a b : String}
    (heq : directionSetting :: statements.map DotStatement.reading = before ++ .edge a b :: after) :
    a ∈ declaredIds before ∧ b ∈ declaredIds before := by
  cases before with
  | nil => simp [directionSetting] at heq
  | cons first before =>
    obtain ⟨rfl, hrest⟩ := List.cons.inj heq
    -- what is read in front of the edge was written in front of it
    obtain ⟨ss, rest, rfl, rfl, hedge⟩ := List.map_eq_append_iff.mp hrest
    obtain ⟨s, us, rfl, hs, -⟩ := List.map_eq_cons_iff.mp hedge
    cases s with
    | node => simp [DotStatement.reading] at hs
    | edge source target =>
      obtain ⟨rfl, rfl⟩ := Dot.Statement.edge.inj hs
      obtain ⟨hsource, htarget⟩ := h.declared_before rfl
      show _ ∈ declaredIds (ss.map DotStatement.reading) ∧
        _ ∈ declaredIds (ss.map DotStatement.reading)
      rw [declaredIds_reading]
      exact ⟨List.mem_map_of_mem hsource, List.mem_map_of_mem htarget⟩

/-- The statements are those of the quotient of a tree by the identity of its nodes: the node for
an identity goes by `idOf` of it. -/
structure IsQuotient (t : CallTree) (statements : List Dot.Statement) (idOf : String → String) :
    Prop where
  idOf_inj : ∀ n ∈ t.nodes, ∀ m ∈ t.nodes, idOf n.identity = idOf m.identity →
    n.identity = m.identity
  nodup_declared : (declaredIds statements).Nodup
  mem_declared : ∀ id, id ∈ declaredIds statements ↔ ∃ n ∈ t.nodes, idOf n.identity = id
  nodup_joined : (joinedIds statements).Nodup
  mem_joined : ∀ a b, (a, b) ∈ joinedIds statements ↔
    ∃ u ∈ t.subtrees, ∃ c ∈ u.children, idOf u.root.identity = a ∧ idOf c.root.identity = b
  declared_before : ∀ before a b after, statements = before ++ .edge a b :: after →
    a ∈ declaredIds before ∧ b ∈ declaredIds before
  shows : ∀ id attributes, .node id attributes ∈ statements →
    ∃ n ∈ t.nodes, idOf n.identity = id ∧
      ∃ raw, attributes = ("label", raw) :: styleAttributes n.kind ∧
        Quoted raw.toList n.label.toList

/-- The id of an identity in the graph of a tree. -/
def nodeId (t : CallTree) (identity : String) : String :=
  idText ((dotGraph t).number identity)

section

variable {t : CallTree} {n m : CallNode}

theorem mem_declared_dotGraph (h : n ∈ t.nodes) : n.identity ∈ (dotGraph t).declared := by
  rw [(draws_dotGraph t).mem_declared]
  exact List.mem_map_of_mem (mem_flatMap_metAt.mpr h)

theorem nodeId_inj (hn : n ∈ t.nodes) (h : nodeId t n.identity = nodeId t m.identity) :
    n.identity = m.identity :=
  DotGraph.number_inj (mem_declared_dotGraph hn) (idText_inj h)

theorem declaredIds_graphReading (t : CallTree) :
    declaredIds (graphReading t) = (List.range (dotGraph t).declared.length).map idText := by
  rw [← (draws_dotGraph t).numbers_eq, ← declaredIds_reading]
  rfl

theorem joinedIds_graphReading (t : CallTree) :
    joinedIds (graphReading t) =
      (joinedNumbers (dotGraph t).statements).map fun ends => (idText ends.1, idText ends.2) := by
  rw [← joinedIds_reading]
  rfl

theorem nodup_declaredIds (t : CallTree) : (declaredIds (graphReading t)).Nodup := by
  rw [declaredIds_graphReading]
  exact List.nodup_range.map fun a b h => idText_inj h

/-- What is declared are the ids of the nodes of the tree. -/
theorem mem_declaredIds {id : String} :
    id ∈ declaredIds (graphReading t) ↔ ∃ n ∈ t.nodes, nodeId t n.identity = id := by
  have hdraws := draws_dotGraph t
  rw [declaredIds_graphReading, List.mem_map]
  constructor
  · rintro ⟨number, hnumber, rfl⟩
    -- the number is that of the identity at its place
    have hlt := List.mem_range.mp hnumber
    have hmem : (dotGraph t).declared.get ⟨number, hlt⟩ ∈ (dotGraph t).declared :=
      List.get_mem _ _
    obtain ⟨n, hn, hidentity⟩ := List.mem_map.mp ((hdraws.mem_declared _).mp hmem)
    refine ⟨n, mem_flatMap_metAt.mp hn, ?_⟩
    rw [hidentity, nodeId, DotGraph.number, List.get_eq_getElem,
      hdraws.nodup_declared.idxOf_getElem number hlt]
  · rintro ⟨n, hn, rfl⟩
    have hlt := DotGraph.number_lt (mem_declared_dotGraph hn)
    exact ⟨_, List.mem_range.mpr hlt, rfl⟩

theorem nodup_joinedIds (t : CallTree) : (joinedIds (graphReading t)).Nodup := by
  rw [joinedIds_graphReading]
  refine (draws_dotGraph t).nodup_joined.map ?_
  intro ends ends' h
  obtain ⟨hsource, htarget⟩ := Prod.mk.inj h
  exact Prod.ext (idText_inj hsource) (idText_inj htarget)

/-- What is joined are the ids of a parent and a child. -/
theorem mem_joinedIds {a b : String} :
    (a, b) ∈ joinedIds (graphReading t) ↔ ∃ u ∈ t.subtrees, ∃ c ∈ u.children,
      nodeId t u.root.identity = a ∧ nodeId t c.root.identity = b := by
  have hdraws := draws_dotGraph t
  rw [joinedIds_graphReading, List.mem_map]
  constructor
  · rintro ⟨⟨source, target⟩, hends, h⟩
    obtain ⟨rfl, rfl⟩ := Prod.mk.inj h
    obtain ⟨pair, hpair, rfl, rfl⟩ := (hdraws.mem_joined source target).mp hends
    obtain ⟨u, hu, c, hc, rfl⟩ := mem_flatMap_pairsAt.mp hpair
    exact ⟨u, hu, c, hc, rfl, rfl⟩
  · rintro ⟨u, hu, c, hc, rfl, rfl⟩
    have hpair := mem_flatMap_pairsAt.mpr ⟨u, hu, c, hc, rfl⟩
    exact ⟨_, (hdraws.mem_joined _ _).mpr ⟨_, hpair, rfl, rfl⟩, rfl⟩

/-- A node is declared with the label and the style of a node of the tree. -/
theorem node_mem_graphReading {id : String} {attributes : List (String × String)}
    (h : .node id attributes ∈ graphReading t) :
    ∃ n ∈ t.nodes, nodeId t n.identity = id ∧
      attributes = ("label", dotEscape n.label) :: styleAttributes n.kind := by
  have hstatement : .node id attributes ∈ (dotGraph t).statements.map DotStatement.reading := by
    rcases List.mem_cons.mp h with hsetting | hstatement
    · cases hsetting
    · exact hstatement
  obtain ⟨s, hs, hreading⟩ := List.mem_map.mp hstatement
  cases s with
  | edge => cases hreading
  | node number label kind =>
    obtain ⟨rfl, rfl⟩ := Dot.Statement.node.inj hreading
    obtain ⟨n, hn, rfl, rfl, rfl⟩ := (draws_dotGraph t).shows number label kind hs
    exact ⟨n, mem_flatMap_metAt.mp hn, rfl, rfl⟩

end

/-- The text of the graph of a tree can be read, and what it says is the quotient of the tree. -/
theorem dot_quotient (t : CallTree) :
    ∃ statements idOf, read? (dot t) = some statements ∧ IsQuotient t statements idOf := by
  refine ⟨graphReading t, nodeId t, read?_dot t, ?_⟩
  refine ⟨?_, nodup_declaredIds t, ?_, nodup_joinedIds t, ?_, ?_, ?_⟩
  · intro n hn m _ h
    exact nodeId_inj hn h
  · intro id
    exact mem_declaredIds
  · intro a b
    exact mem_joinedIds
  · intro before a b after heq
    exact declaredIds_before (draws_dotGraph t).grounded heq
  · intro id attributes hnode
    obtain ⟨n, hn, hid, rfl⟩ := node_mem_graphReading hnode
    exact ⟨n, hn, hid, _, rfl, quoted_dotEscape n.label⟩

end CallAtlas.CallTree

import CallAtlas.Proofs.Signature.Items
import Mathlib.Logic.Relation

/-!
# The spacing of type texts

Type texts are brought into one spacing by five substitutions.  The first sets one blank in each
gap.  Each of the others follows a rule of spacing, so together they give the spacing that the four
rules make up: no blanks inside of parentheses and around square brackets, otherwise one blank on
either side of an arrow, and one blank in every other gap.

Hence a type text in its one spacing depends on the items of the text and on the gaps that are not
next to a bracket, an arrow or the inner side of a parenthesis.  Both parts of what it means to be a
normal form come from this: the items are read back from what is written, and blanks where a gap
plays no part change nothing.

* `spacing`: the blanks between two neighbours.
* `toList_normalizeType`: a type text is its items, written with this spacing.
* `LooseBehind front`, `LooseBefore back`, `Widens t t'`: where blanks may be put, and putting them
  there.
* `normalizeType_normal`: the one spacing is a normal form.
-/

namespace CallAtlas.Signature

open CallAtlas.Text

/-- A gap inside a text is one blank. -/
def collapsed : Spacing := fun before gap _ =>
  if before.isSome && gap then 1 else 0

/-- Whether an item is a square bracket. -/
def Item.isBracket (x : Item) : Bool :=
  x = .char '[' || x = .char ']'

/-- Whether no blanks are set between two neighbours, whatever stood there. -/
def tight (before after : Option Item) : Bool :=
  before = some (.char '(') || after = some (.char ')') || before.any Item.isBracket ||
    after.any Item.isBracket

/-- How many of two neighbours are arrows. -/
def arrows (before after : Option Item) : Nat :=
  (if before = some .arrow then 1 else 0) + if after = some .arrow then 1 else 0

/-- The blanks between two neighbours in a type text. -/
def spacing : Spacing := fun before gap after =>
  if tight before after then 0
  else if arrows before after = 0 then collapsed before gap after
  else arrows before after

/-! ### Runs of blanks -/

theorem replaceHits_blankRun_cons {c : Char} (hc : isBlank c = false) (s : List Char) :
    replaceHits blankRun (c :: s) = c :: replaceHits blankRun s := by
  refine replaceHits_of_none (fun _ _ => rfl) ?_
  rw [blankRun, blanks?_eq_none (by rintro d ⟨⟩; exact hc)]
  rfl

theorem replaceHits_blankRun_blank {c : Char} (hc : isBlank c = true) (s : List Char) :
    replaceHits blankRun (c :: s) = ' ' :: replaceHits blankRun (skipBlanks s) := by
  obtain ⟨blanks, hblanks, hs⟩ := exists_blanks s
  have hall : Blanks (c :: blanks) := by
    intro d hd
    rcases List.mem_cons.mp hd with rfl | hd
    · exact hc
    · exact hblanks d hd
  have hhit : blankRun none ((c :: blanks) ++ skipBlanks s) = some ([' '], skipBlanks s) := by
    rw [blankRun, blanks?_append (List.cons_ne_nil c blanks) hall (head?_skipBlanks s)]
    rfl
  nth_rewrite 1 [hs]
  exact replaceHits_of_some (fun _ _ => rfl) (List.cons_ne_nil c blanks) hhit

/-- A text behind an item whose runs of blanks collapse, if it does not end with a blank.  Where
blanks have been read already, one of them is set. -/
theorem replaceHits_blankRun {gap : Bool} {s : List Char} (x : Item) (hend : s = [] → gap = false)
    (hlast : ∀ c ∈ s.getLast?, isBlank c = false) :
    List.replicate (lead collapsed (some x) (itemsFrom gap s)) ' ' ++
        body collapsed (itemsFrom gap s) =
      if gap then ' ' :: replaceHits blankRun (skipBlanks s) else replaceHits blankRun s := by
  have htail : ∀ {c : Char} {s : List Char}, (∀ d ∈ (c :: s).getLast?, isBlank d = false) →
      ∀ d ∈ s.getLast?, isBlank d = false := by
    intro c s h d hd
    refine h d ?_
    rw [List.getLast?_cons, hd]
    rfl
  fun_induction itemsFrom gap s generalizing x with
  | case1 gap =>
    rw [hend rfl]
    rfl
  | case2 gap s ih =>
    have hrest := ih .arrow (fun _ => rfl) (htail (htail hlast))
    have hequal : isBlank '=' = false := by decide
    have hgreater : isBlank '>' = false := by decide
    rw [if_neg Bool.false_ne_true] at hrest
    rw [body, hrest, skipBlanks_cons hequal, replaceHits_blankRun_cons hequal,
      replaceHits_blankRun_cons hgreater]
    cases gap <;> rfl
  | case3 gap c s hne hblank ih =>
    -- a blank is not the last character, so something follows the gap
    have hrest : s = [] → true = false := by
      rintro rfl
      have hc := hlast c rfl
      rwa [hblank] at hc
    rw [ih x hrest (htail hlast), if_pos rfl, skipBlanks_cons_of_blank hblank,
      replaceHits_blankRun_blank hblank, ite_self]
  | case4 gap c s hne hblank ih =>
    have hrest := ih (.char c) (fun _ => rfl) (htail hlast)
    rw [Bool.not_eq_true] at hblank
    rw [if_neg Bool.false_ne_true] at hrest
    rw [body, hrest, skipBlanks_cons hblank, replaceHits_blankRun_cons hblank]
    cases gap <;> rfl

/-- The first substitution sets one blank in each gap. -/
theorem replaceHits_blankRun_trimBy (s : List Char) :
    replaceHits blankRun (trimBy isBlank s) = write collapsed (items s) := by
  obtain ⟨-, -, -, -, -, hhead, hlast⟩ := exists_trimBy isBlank s
  rw [← items_trimBy]
  generalize trimBy isBlank s = t at hhead hlast ⊢
  have hfirst : ∀ y ∈ (items t).head?, y.1 = true := by
    intro y hy
    rcases head?_itemsFrom hy with h | ⟨h, -⟩
    · exact h
    · exact h
  cases t with
  | nil => rfl
  | cons c t =>
    -- behind an item the text would begin with a blank
    have hbehind := @replaceHits_blankRun true (c :: t) .arrow (by simp) hlast
    rw [if_pos rfl, skipBlanks_cons (hhead c rfl), ← items] at hbehind
    cases hitems : items (c :: t) with
    | nil =>
      rw [hitems] at hbehind
      cases hbehind
    | cons y ys =>
      rw [hitems] at hbehind hfirst
      obtain ⟨gap, x⟩ := y
      obtain rfl : gap = true := hfirst _ rfl
      exact (List.cons.inj hbehind).2.symm

/-! ### What the other substitutions recognise -/

section

variable {c : Char} {s : List Char}

theorem skipBlanks_spaced (hc : isBlank c = false) (n : Nat) :
    skipBlanks (List.replicate n ' ' ++ c :: s) = c :: s :=
  skipBlanks_append (blanks_replicate n) (by rintro d ⟨⟩; exact hc)

theorem skipBlanks_replicate (n : Nat) : skipBlanks (List.replicate n ' ') = [] :=
  List.dropWhile_eq_nil_iff.mpr (blanks_replicate n)

theorem arrow_spaced (hc : isBlank c = false) (n : Nat) :
    arrow none (List.replicate n ' ' ++ c :: s) =
      if c = '=' then (take? '>' s).map fun rest => ([' ', '=', '>', ' '], skipBlanks rest)
      else none := by
  rw [arrow, skipBlanks_spaced hc, take?]
  split_ifs with h
  · dsimp only [Bind.bind, Option.bind_some]
    cases take? '>' s <;> rfl
  · rfl

theorem afterOpening_spaced (n : Nat) :
    afterOpening none (List.replicate n ' ' ++ c :: s) =
      if n = 0 ∧ c = '(' then (blanks? s).map fun rest => (['('], rest) else none := by
  cases n with
  | zero =>
    rw [afterOpening, List.replicate_zero, List.nil_append, take?]
    by_cases hopening : c = '('
    · rw [if_pos hopening, if_pos ⟨rfl, hopening⟩]
      dsimp only [Bind.bind, Option.bind_some]
      cases blanks? s <;> rfl
    · rw [if_neg hopening, if_neg fun h => hopening h.2]
      rfl
  | succ n =>
    rw [if_neg (by simp)]
    rfl

theorem beforeClosing_spaced (hc : isBlank c = false) (n : Nat) :
    beforeClosing none (List.replicate n ' ' ++ c :: s) =
      if 0 < n ∧ c = ')' then some ([')'], s) else none := by
  have hhead : ∀ d ∈ (c :: s).head?, isBlank d = false := by
    rintro d ⟨⟩
    exact hc
  cases n with
  | zero =>
    rw [beforeClosing, List.replicate_zero, List.nil_append, blanks?_eq_none hhead,
      if_neg (by simp)]
    rfl
  | succ n =>
    rw [beforeClosing, blanks?_append (by simp) (blanks_replicate (n + 1)) hhead]
    dsimp only [Bind.bind, Option.bind_some]
    rw [take?]
    by_cases hclosing : c = ')'
    · rw [if_pos hclosing, if_pos ⟨Nat.succ_pos n, hclosing⟩]
      rfl
    · rw [if_neg hclosing, if_neg fun h => hclosing h.2]
      rfl

theorem bracket_spaced (hc : isBlank c = false) (n : Nat) :
    bracket none (List.replicate n ' ' ++ c :: s) =
      if c = '[' ∨ c = ']' then some ([c], skipBlanks s) else none := by
  rw [bracket, skipBlanks_spaced hc]
  split
  next rest heq =>
    obtain ⟨rfl, rfl⟩ := List.cons.inj heq
    rw [if_pos (.inl rfl)]
  next rest heq =>
    obtain ⟨rfl, rfl⟩ := List.cons.inj heq
    rw [if_pos (.inr rfl)]
  next hopening hclosing =>
    rw [if_neg]
    rintro (rfl | rfl)
    · exact hopening s rfl
    · exact hclosing s rfl

end

/-! ### What they replace -/

section

variable {r : Recogniser (List Char)} {c : Char} {s : List Char}

theorem replaceHits_blanks (hbefore : ∀ before s, r before s = r none s)
    (h : ∀ n, r none (List.replicate (n + 1) ' ' ++ s) = none) (n : Nat) :
    replaceHits r (List.replicate n ' ' ++ s) = List.replicate n ' ' ++ replaceHits r s := by
  induction n with
  | zero => rfl
  | succ n ih =>
    rw [List.replicate_succ, List.cons_append, List.cons_append, ← ih]
    exact replaceHits_of_none hbefore (h n)

theorem replaceHits_replicate (hbefore : ∀ before s, r before s = r none s)
    (h : ∀ n, r none (List.replicate (n + 1) ' ') = none) (n : Nat) :
    replaceHits r (List.replicate n ' ') = List.replicate n ' ' := by
  have hblanks := @replaceHits_blanks r [] hbefore (fun n => by rw [List.append_nil, h n]) n
  rw [List.append_nil] at hblanks
  exact hblanks.trans (List.append_nil _)

theorem replaceHits_spaced (hbefore : ∀ before s, r before s = r none s)
    (h : ∀ n, r none (List.replicate n ' ' ++ c :: s) = none) (n : Nat) :
    replaceHits r (List.replicate n ' ' ++ c :: s) =
      List.replicate n ' ' ++ c :: replaceHits r s := by
  rw [replaceHits_blanks hbefore (fun n => h (n + 1)), replaceHits_of_none hbefore (h 0)]

/-- A recogniser that fails at the characters of arrows leaves arrows as they are. -/
theorem replaceHits_arrow (hbefore : ∀ before s, r before s = r none s)
    (h : ∀ c n s, c = '=' ∨ c = '>' → r none (List.replicate n ' ' ++ c :: s) = none) (n : Nat) :
    replaceHits r (List.replicate n ' ' ++ '=' :: '>' :: s) =
      List.replicate n ' ' ++ '=' :: '>' :: replaceHits r s := by
  have hsecond : replaceHits r ('>' :: s) = '>' :: replaceHits r s :=
    replaceHits_of_none hbefore (h '>' 0 s (.inr rfl))
  rw [replaceHits_spaced hbefore (fun n => h '=' n _ (.inl rfl)), hsecond]

/-- A recogniser may take a text with the blanks on either side. -/
theorem replaceHits_around (hbefore : ∀ before s, r before s = r none s) {n m : Nat}
    {text new rest : List Char} (htext : text ≠ [])
    (h : r none (List.replicate n ' ' ++ (text ++ (List.replicate m ' ' ++ rest))) =
      some (new, rest)) :
    replaceHits r (List.replicate n ' ' ++ (text ++ (List.replicate m ' ' ++ rest))) =
      new ++ replaceHits r rest := by
  have htaken : List.replicate n ' ' ++ (text ++ (List.replicate m ' ' ++ rest)) =
      (List.replicate n ' ' ++ (text ++ List.replicate m ' ')) ++ rest := by
    simp only [List.append_assoc]
  rw [htaken] at h ⊢
  exact replaceHits_of_some hbefore (by simp [htext]) h

end

/-! ### Their rules -/

/-- One blank is set on either side of an arrow. -/
def arrowRule : Rule where
  before x n := if x = .arrow then 1 else n
  added x := if x = .arrow then 1 else 0
  kept x n := if x = .arrow then 0 else n

/-- No blanks are left behind an opening parenthesis. -/
def openingRule : Rule where
  before _ n := n
  added _ := 0
  kept x n := if x = .char '(' then 0 else n

/-- No blanks are left before a closing parenthesis. -/
def closingRule : Rule where
  before x n := if x = .char ')' then 0 else n
  added _ := 0
  kept _ n := n

/-- No blanks are left around a square bracket. -/
def bracketRule : Rule where
  before x n := if x.isBracket then 0 else n
  added _ := 0
  kept x n := if x.isBracket then 0 else n

theorem follows_arrow : Follows arrow arrowRule where
  blanks := by
    refine replaceHits_replicate (fun _ _ => rfl) fun n => ?_
    rw [arrow, skipBlanks_replicate]
    rfl
  arrow n m rest hrest := by
    have hhit : arrow none (List.replicate n ' ' ++ '=' :: '>' :: (List.replicate m ' ' ++ rest)) =
        some ([' ', '=', '>', ' '], rest) := by
      rw [arrow_spaced (by decide), if_pos rfl, take?_cons, Option.map_some,
        skipBlanks_append (blanks_replicate m) hrest]
    exact replaceHits_around (fun _ _ => rfl) (List.cons_ne_nil '=' ['>']) hhit
  char c n m rest hc hrest hsplit := by
    refine replaceHits_spaced (fun _ _ => rfl) (fun n => ?_) n
    rw [arrow_spaced hc]
    split_ifs with heq
    · -- the first half of an arrow, behind which a blank or another item follows
      rw [take?_eq_none (head?_spaced_ne (hsplit heq))]
      rfl
    · rfl

theorem follows_opening : Follows afterOpening openingRule where
  blanks := replaceHits_replicate (fun _ _ => rfl) fun _ => rfl
  arrow n m rest hrest := by
    refine replaceHits_arrow (fun _ _ => rfl) (fun c n s hc => ?_) n
    rw [afterOpening_spaced, if_neg]
    rintro ⟨-, rfl⟩
    revert hc
    decide
  char c n m rest hc hrest _ := by
    by_cases hopening : c = '('
    · subst hopening
      have hblanks : ∀ n, afterOpening none
          (List.replicate (n + 1) ' ' ++ '(' :: (List.replicate m ' ' ++ rest)) = none := by
        intro n
        rw [afterOpening_spaced, if_neg (by simp)]
      rw [replaceHits_blanks (fun _ _ => rfl) hblanks]
      refine congrArg (List.replicate n ' ' ++ ·) ?_
      -- without blanks behind it the parenthesis is not even recognised
      cases m with
      | zero =>
        refine replaceHits_of_none (fun _ _ => rfl) ?_
        refine (afterOpening_spaced 0).trans ?_
        rw [if_pos ⟨rfl, rfl⟩, List.replicate_zero, List.nil_append, blanks?_eq_none hrest]
        rfl
      | succ m =>
        have hhit : afterOpening none ('(' :: (List.replicate (m + 1) ' ' ++ rest)) =
            some (['('], rest) := by
          refine (afterOpening_spaced 0).trans ?_
          rw [if_pos ⟨rfl, rfl⟩, blanks?_append (by simp) (blanks_replicate (m + 1)) hrest]
          rfl
        exact @replaceHits_around afterOpening (fun _ _ => rfl) 0 (m + 1) ['('] _ _ (by simp) hhit
    · have hrule : openingRule.kept (.char c) m = m := if_neg (by simpa using hopening)
      rw [hrule]
      refine replaceHits_spaced (fun _ _ => rfl) (fun n => ?_) n
      rw [afterOpening_spaced, if_neg fun h => hopening h.2]

theorem follows_closing : Follows beforeClosing closingRule where
  blanks := by
    refine replaceHits_replicate (fun _ _ => rfl) fun n => ?_
    have htaken := @blanks?_append _ [] (by simp) (blanks_replicate (n + 1)) (by simp)
    rw [List.append_nil] at htaken
    rw [beforeClosing, htaken]
    rfl
  arrow n m rest hrest := by
    refine replaceHits_arrow (fun _ _ => rfl) (fun c n s hc => ?_) n
    rcases hc with rfl | rfl
    · rw [beforeClosing_spaced (by decide), if_neg (by simp)]
    · rw [beforeClosing_spaced (by decide), if_neg (by simp)]
  char c n m rest hc hrest _ := by
    by_cases hclosing : c = ')'
    · subst hclosing
      have hspaced := @beforeClosing_spaced ')' (List.replicate m ' ' ++ rest) (by decide) n
      -- without blanks in front there is nothing to replace
      cases n with
      | zero =>
        rw [if_neg (by simp)] at hspaced
        exact replaceHits_of_none (fun _ _ => rfl) hspaced
      | succ n =>
        rw [if_pos ⟨Nat.succ_pos n, rfl⟩] at hspaced
        exact @replaceHits_around beforeClosing (fun _ _ => rfl) (n + 1) 0 [')'] _ _ (by simp)
          hspaced
    · have hrule : closingRule.before (.char c) n = n := if_neg (by simpa using hclosing)
      rw [hrule]
      refine replaceHits_spaced (fun _ _ => rfl) (fun n => ?_) n
      rw [beforeClosing_spaced hc, if_neg fun h => hclosing h.2]

theorem follows_bracket : Follows bracket bracketRule where
  blanks := by
    refine replaceHits_replicate (fun _ _ => rfl) fun n => ?_
    rw [bracket, skipBlanks_replicate]
  arrow n m rest hrest := by
    refine replaceHits_arrow (fun _ _ => rfl) (fun c n s hc => ?_) n
    rcases hc with rfl | rfl
    · rw [bracket_spaced (by decide), if_neg (by decide)]
    · rw [bracket_spaced (by decide), if_neg (by decide)]
  char c n m rest hc hrest _ := by
    by_cases hbracket : c = '[' ∨ c = ']'
    · have hrule : (Item.char c).isBracket = true := by
        simpa [Item.isBracket] using hbracket
      -- the blanks on both sides are taken with the bracket
      have hhit : bracket none (List.replicate n ' ' ++ c :: (List.replicate m ' ' ++ rest)) =
          some ([c], rest) := by
        rw [bracket_spaced hc, if_pos hbracket, skipBlanks_append (blanks_replicate m) hrest]
      simp only [bracketRule, hrule, if_true]
      exact replaceHits_around (fun _ _ => rfl) (List.cons_ne_nil c []) hhit
    · have hrule : (Item.char c).isBracket = false := by
        simpa [Item.isBracket] using hbracket
      simp only [bracketRule, hrule]
      refine replaceHits_spaced (fun _ _ => rfl) (fun n => ?_) n
      rw [bracket_spaced hc, if_neg hbracket]

section

variable (sp : Spacing) (before : Option Item) (gap : Bool) (after : Option Item)

/-- Next to arrows the blanks that were there do not count. -/
theorem apply_arrowRule : arrowRule.apply sp before gap after =
    if arrows before after = 0 then sp before gap after else arrows before after := by
  rcases before with _ | _ | c <;> rcases after with _ | _ | d <;>
    simp [Rule.apply, arrowRule, arrows]

theorem apply_openingRule : openingRule.apply sp before gap after =
    if before = some (.char '(') then 0 else sp before gap after := by
  cases before <;> cases after <;> simp [Rule.apply, openingRule]

theorem apply_closingRule : closingRule.apply sp before gap after =
    if after = some (.char ')') then 0 else sp before gap after := by
  cases before <;> cases after <;> simp [Rule.apply, closingRule]

theorem apply_bracketRule : bracketRule.apply sp before gap after =
    if before.any Item.isBracket || after.any Item.isBracket then 0 else sp before gap after := by
  rcases before with _ | x <;> rcases after with _ | y
  · simp [Rule.apply]
  · simp [Rule.apply, bracketRule]
  · simp [Rule.apply, bracketRule]
  · cases hx : x.isBracket <;> simp [Rule.apply, bracketRule, hx]

end

/-- The four rules, one after the other, make up the spacing of type texts. -/
theorem apply_rules :
    bracketRule.apply (closingRule.apply (openingRule.apply (arrowRule.apply collapsed))) =
      spacing := by
  funext before gap after
  rw [apply_bracketRule, apply_closingRule, apply_openingRule, apply_arrowRule, spacing]
  by_cases htight : tight before after = true
  · -- of the three rules that take blanks away, one applies
    rw [if_pos htight]
    simp only [tight, Bool.or_eq_true, decide_eq_true_eq, or_assoc] at htight
    rcases htight with hopening | hclosing | hbracket
    · rw [if_pos hopening, ite_self, ite_self]
    · rw [if_pos hclosing, ite_self]
    · rw [if_pos (by simpa using hbracket)]
  · rw [if_neg htight]
    simp only [tight, Bool.or_eq_true, decide_eq_true_eq, not_or] at htight
    obtain ⟨⟨⟨hopening, hclosing⟩, hbefore⟩, hafter⟩ := htight
    rw [if_neg (by simp [hbefore, hafter]), if_neg hclosing, if_neg hopening]

theorem toList_normalizeType (text : String) :
    (normalizeType text).toList = write spacing (items text.toList) := by
  have hapart : Apart (items text.toList) := apart_itemsFrom true text.toList
  rw [normalizeType, String.toList_ofList, replaceHits_blankRun_trimBy,
    follows_arrow.replaceHits_write (by decide) hapart,
    follows_opening.replaceHits_write (by decide) hapart,
    follows_closing.replaceHits_write (by decide) hapart,
    follows_bracket.replaceHits_write (by decide) hapart, apply_rules]

/-! ### The normal form -/

theorem spacing_none (gap gap' : Bool) (after : Option Item) :
    spacing none gap after = spacing none gap' after := rfl

theorem spacing_of_tight {before after : Option Item} (h : tight before after = true) (gap : Bool) :
    spacing before gap after = 0 :=
  if_pos h

theorem tight_behind {c : Char} (h : c ∈ ['[', ']', '(']) (after : Option Item) :
    tight (some (.char c)) after = true := by
  simp only [List.mem_cons, List.not_mem_nil, or_false] at h
  rcases h with rfl | rfl | rfl <;> simp [tight, Item.isBracket]

theorem tight_before {c : Char} (h : c ∈ ['[', ']', ')']) (before : Option Item) :
    tight before (some (.char c)) = true := by
  simp only [List.mem_cons, List.not_mem_nil, or_false] at h
  rcases h with rfl | rfl | rfl <;> simp [tight, Item.isBracket]

theorem spacing_of_arrows {before after : Option Item} (h : arrows before after ≠ 0)
    (gap gap' : Bool) : spacing before gap after = spacing before gap' after := by
  rw [spacing, spacing, if_neg h, if_neg h]

/-- The spacing only depends on whether it set blanks itself. -/
theorem spacing_spacing (before : Option Item) (gap : Bool) (after : Option Item) :
    spacing before (decide (0 < spacing before gap after)) after = spacing before gap after := by
  by_cases htight : tight before after = true
  · rw [spacing_of_tight htight, spacing_of_tight htight]
  · by_cases harrows : arrows before after = 0
    · simp only [spacing, if_neg htight, if_pos harrows, collapsed]
      cases before.isSome <;> cases gap <;> rfl
    · exact spacing_of_arrows harrows _ _

theorem normalizeType_normalizeType (text : String) :
    normalizeType (normalizeType text) = normalizeType text := by
  have hapart : Apart (items text.toList) := apart_itemsFrom true text.toList
  apply String.toList_injective
  rw [toList_normalizeType, toList_normalizeType,
    write_items_write (by decide) spacing_none spacing_spacing hapart]

/-- Whether blanks may be put behind a text: it is empty, or ends with a blank, a square bracket, an
opening parenthesis or an arrow. -/
def LooseBehind (front : List Char) : Prop :=
  front = [] ∨ (∃ c ∈ front.getLast?, isBlank c = true ∨ c ∈ ['[', ']', '(']) ∨
    ['=', '>'] <:+ front

/-- Whether blanks may be put before a text: it is empty, or begins with a blank, a square bracket,
a closing parenthesis or an arrow. -/
def LooseBefore (back : List Char) : Prop :=
  back = [] ∨ (∃ c ∈ back.head?, isBlank c = true ∨ c ∈ ['[', ']', ')']) ∨ ['=', '>'] <+: back

instance : DecidablePred LooseBehind := fun front =>
  decidable_of_iff (front = [] ∨ (front.getLast?.any fun c =>
      isBlank c || c ∈ ['[', ']', '(']) = true ∨ ['=', '>'] <:+ front)
    (by simp [LooseBehind, Option.any_eq_true])

instance : DecidablePred LooseBefore := fun back =>
  decidable_of_iff (back = [] ∨ (back.head?.any fun c =>
      isBlank c || c ∈ ['[', ']', ')']) = true ∨ ['=', '>'] <+: back)
    (by simp [LooseBefore, Option.any_eq_true])

/-- Putting blanks where they play no part. -/
inductive Widens : String → String → Prop where
  | intro (front blanks back : String) :
      Blanks blanks.toList → LooseBehind front.toList ∨ LooseBefore back.toList →
        Widens (front ++ back) (front ++ blanks ++ back)

section

variable {front back : List Char}

theorem LooseBehind.getLast?_ne (h : LooseBehind front) : front.getLast? ≠ some '=' := by
  rcases h with rfl | ⟨c, hc, hloose⟩ | ⟨init, rfl⟩
  · rintro ⟨⟩
  · rw [hc]
    rintro ⟨⟩
    revert hloose
    decide
  · simp

theorem LooseBefore.head?_ne (h : LooseBefore back) : back.head? ≠ some '>' := by
  rcases h with rfl | ⟨c, hc, hloose⟩ | ⟨rest, rfl⟩
  · rintro ⟨⟩
  · rw [hc]
    rintro ⟨⟩
    revert hloose
    decide
  · rintro ⟨⟩

/-- Behind a text that ends loosely it plays no part whether blanks follow. -/
theorem LooseBehind.write_itemsFrom (h : LooseBehind front) :
    write spacing (items front ++ itemsFrom (gapBehind true front) back) =
      write spacing (items front ++ itemsFrom true back) := by
  by_cases hgap : gapBehind true front = true
  · rw [hgap]
  · -- the space behind the last item does not depend on the gap
    have hfixed : ∀ (gap gap' : Bool) (x : Item),
        spacing ((items front).getLast?.map Prod.snd) gap (some x) =
          spacing ((items front).getLast?.map Prod.snd) gap' (some x) := by
      intro gap gap' x
      rcases h with rfl | ⟨c, hc, hloose⟩ | harrow
      · exact absurd rfl hgap
      · rw [gapBehind, hc] at hgap
        have hblank : isBlank c = false := Bool.eq_false_iff.mpr hgap
        have hmem : c ∈ ['[', ']', '('] := hloose.resolve_left hgap
        have hne : c ≠ '>' := by
          rintro rfl
          revert hmem
          decide
        rw [items, getLast?_itemsFrom_char hc hblank hne, spacing_of_tight (tight_behind hmem _),
          spacing_of_tight (tight_behind hmem _)]
      · rw [items, getLast?_itemsFrom_arrow harrow]
        exact spacing_of_arrows (by simp [arrows]) gap gap'
    rcases itemsFrom_gap back with hback | ⟨x, xs, hback⟩
    · rw [hback]
    · rw [hback, hback]
      exact write_gap (fun gap gap' => hfixed gap gap' x) _ _

/-- Before a text that begins loosely it plays no part whether blanks stand. -/
theorem LooseBefore.write_itemsFrom (h : LooseBefore back) (xs : List (Bool × Item)) (gap : Bool) :
    write spacing (xs ++ itemsFrom gap back) = write spacing (xs ++ itemsFrom true back) := by
  rcases h with rfl | ⟨c, hc, hloose⟩ | ⟨rest, rfl⟩
  · rw [itemsFrom, itemsFrom]
  · obtain ⟨rest, rfl⟩ := List.head?_eq_some_iff.mp hc
    by_cases hblank : isBlank c = true
    · rw [itemsFrom_blank hblank, itemsFrom_blank hblank]
    · have hmem : c ∈ ['[', ']', ')'] := hloose.resolve_left hblank
      have hne : c ≠ '=' := by
        rintro rfl
        revert hmem
        decide
      rw [Bool.not_eq_true] at hblank
      rw [itemsFrom_char hblank fun h => absurd h hne, itemsFrom_char hblank fun h => absurd h hne]
      refine write_gap (fun gap gap' => ?_) gap true
      rw [spacing_of_tight (tight_before hmem _), spacing_of_tight (tight_before hmem _)]
  · exact write_gap (spacing_of_arrows (by simp [arrows])) gap true

end

theorem Widens.normalizeType_eq {text text' : String} (h : Widens text text') :
    normalizeType text' = normalizeType text := by
  obtain ⟨front, blanks, back, hblanks, hloose⟩ := h
  by_cases hne : blanks.toList = []
  · rw [String.toList_eq_nil_iff.mp hne, String.append_empty]
  · -- blanks never complete an arrow, and loose ends do not share one
    have hhead : (blanks.toList ++ back.toList).head? ≠ some '>' := by
      rw [List.head?_append_of_ne_nil _ hne]
      intro h
      exact absurd (hblanks '>' (List.mem_of_mem_head? h)) (by decide)
    have hsplit : front.toList.getLast? = some '=' → back.toList.head? ≠ some '>' := by
      intro hlast
      rcases hloose with hloose | hloose
      · exact absurd hlast hloose.getLast?_ne
      · exact hloose.head?_ne
    apply String.toList_injective
    rw [toList_normalizeType, toList_normalizeType, String.toList_append, String.toList_append,
      String.toList_append, List.append_assoc, items, itemsFrom_append fun _ => hhead,
      itemsFrom_blanks_append hne hblanks, items, itemsFrom_append hsplit, ← items]
    rcases hloose with hloose | hloose
    · exact hloose.write_itemsFrom.symm
    · exact (hloose.write_itemsFrom _ _).symm

/-- The one spacing of type texts is a normal form.  It is the items of a text, written with a
spacing that sees no more than neighbours and gaps; to bring a text into it twice is to bring it
there once; and blanks put at either end, next to blanks, around square brackets and arrows or
inside of parentheses, again and again, do not change it. -/
theorem normalizeType_normal :
    (∀ text, (normalizeType text).toList = write spacing (items text.toList)) ∧
      (∀ text, normalizeType (normalizeType text) = normalizeType text) ∧
      ∀ text text', Relation.ReflTransGen Widens text text' →
        normalizeType text' = normalizeType text := by
  refine ⟨toList_normalizeType, normalizeType_normalizeType, fun text text' hwidens => ?_⟩
  induction hwidens with
  | refl => rfl
  | tail _ hstep ih => rw [hstep.normalizeType_eq, ih]

/-- Blanks around an arrow, before a bracket and inside of parentheses. -/
theorem normalizeType_normal_mapping :
    Relation.ReflTransGen Widens "mapping(a=>b[])" " mapping(a=>\tb [] )" ∧
      normalizeType " mapping(a=>\tb [] )" = normalizeType "mapping(a=>b[])" := by
  have hwidens : Relation.ReflTransGen Widens "mapping(a=>b[])" " mapping(a=>\tb [] )" := by
    have hstart : Widens "mapping(a=>b[])" " mapping(a=>b[])" :=
      .intro "" " " "mapping(a=>b[])" (by decide) (by decide)
    have harrow : Widens " mapping(a=>b[])" " mapping(a=>\tb[])" :=
      .intro " mapping(a=>" "\t" "b[])" (by decide) (by decide)
    have hbracket : Widens " mapping(a=>\tb[])" " mapping(a=>\tb [])" :=
      .intro " mapping(a=>\tb" " " "[])" (by decide) (by decide)
    have hclosing : Widens " mapping(a=>\tb [])" " mapping(a=>\tb [] )" :=
      .intro " mapping(a=>\tb []" " " ")" (by decide) (by decide)
    exact (((Relation.ReflTransGen.single hstart).tail harrow).tail hbracket).tail hclosing
  exact ⟨hwidens, normalizeType_normal.2.2 _ _ hwidens⟩

end CallAtlas.Signature

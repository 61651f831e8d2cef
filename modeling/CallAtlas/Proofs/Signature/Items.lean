import CallAtlas.Proofs.Scan
import CallAtlas.Signature

/-!
# Items of type texts

What matters of a type text are its items, which are arrows and single characters, and whether
blanks stand between them.  A text is read into items and written from items; a spacing says how
many blanks are set between two neighbours.

A substitution that only touches blanks around items is described by a rule, which says for each
item how many blanks it leaves before it and behind it.  One induction over the items then gives
what the substitution does to a whole text, whatever the spacing of that text.

* `itemsFrom gap s`, `items s`: the items of a text, each with whether blanks stand before it.
* `itemsFrom_append`: the items of two texts that follow each other.
* `write sp xs`: items written with a spacing.
* `itemsFrom_body`: what is written is read back, gaps apart.
* `Follows r rule`: replacing what `r` recognises does what the rule says.
* `Follows.replaceHits_write`: such a substitution changes the spacing by the rule.
-/

namespace CallAtlas.Signature

open CallAtlas.Text

/-- What type texts are made of, blanks apart. -/
inductive Item where
  | arrow
  | char (c : Char)
deriving DecidableEq

/-- The characters of an item. -/
def Item.text : Item → List Char
  | arrow => ['=', '>']
  | char c => [c]

/-! ### Reading -/

/-- The items of a text, each with whether blanks stand before it.  `gap` tells this for an item
with which the text begins. -/
def itemsFrom : (gap : Bool) → List Char → List (Bool × Item)
  | _, [] => []
  | gap, '=' :: '>' :: s => (gap, .arrow) :: itemsFrom false s
  | gap, c :: s => if isBlank c then itemsFrom true s else (gap, .char c) :: itemsFrom false s

/-- The items of a whole text, whose beginning counts as a gap. -/
def items (s : List Char) : List (Bool × Item) :=
  itemsFrom true s

/-- Whether blanks stand before what follows a text. -/
def gapBehind (gap : Bool) (front : List Char) : Bool :=
  front.getLast?.elim gap isBlank

section

variable {gap : Bool} {c : Char} {s : List Char}

theorem itemsFrom_blank (hc : isBlank c = true) : itemsFrom gap (c :: s) = itemsFrom true s := by
  have hne : ∀ rest, c = '=' → s = '>' :: rest → False := by
    rintro rest rfl
    exact absurd hc (by decide)
  rw [itemsFrom.eq_3 gap c s hne, if_pos hc]

theorem itemsFrom_char (hc : isBlank c = false) (h : c = '=' → s.head? ≠ some '>') :
    itemsFrom gap (c :: s) = (gap, .char c) :: itemsFrom false s := by
  have hne : ∀ rest, c = '=' → s = '>' :: rest → False := by
    rintro rest heq rfl
    exact h heq rfl
  rw [itemsFrom.eq_3 gap c s hne, if_neg (Bool.eq_false_iff.mp hc)]

theorem itemsFrom_blanks_append {blanks : List Char} (hne : blanks ≠ []) (h : Blanks blanks) :
    itemsFrom gap (blanks ++ s) = itemsFrom true s := by
  induction blanks generalizing gap with
  | nil => exact absurd rfl hne
  | cons c blanks ih =>
    rw [List.cons_append, itemsFrom_blank (h c List.mem_cons_self)]
    by_cases hblanks : blanks = []
    · rw [hblanks, List.nil_append]
    · exact ih hblanks fun d hd => h d (List.mem_cons_of_mem c hd)

theorem itemsFrom_blanks {blanks : List Char} (h : Blanks blanks) : itemsFrom gap blanks = [] := by
  by_cases hne : blanks = []
  · rw [hne, itemsFrom]
  · have hitems := @itemsFrom_blanks_append gap [] blanks hne h
    rwa [List.append_nil] at hitems

theorem gapBehind_cons (gap : Bool) (c : Char) (front : List Char) :
    gapBehind gap (c :: front) = gapBehind (isBlank c) front := by
  rw [gapBehind, gapBehind, List.getLast?_cons]
  cases front.getLast? <;> rfl

/-- The items of two texts that follow each other and do not share an arrow. -/
theorem itemsFrom_append {front back : List Char}
    (h : front.getLast? = some '=' → back.head? ≠ some '>') :
    itemsFrom gap (front ++ back) =
      itemsFrom gap front ++ itemsFrom (gapBehind gap front) back := by
  have htail : ∀ {c : Char} {s : List Char},
      ((c :: s).getLast? = some '=' → back.head? ≠ some '>') →
        s.getLast? = some '=' → back.head? ≠ some '>' := by
    intro c s h hs
    refine h ?_
    rw [List.getLast?_cons, hs]
    rfl
  fun_induction itemsFrom gap front with
  | case1 gap => rfl
  | case2 gap s ih =>
    rw [gapBehind_cons, gapBehind_cons]
    exact congrArg ((gap, Item.arrow) :: ·) (ih (htail (htail h)))
  | case3 gap c s hne hblank ih =>
    rw [List.cons_append, itemsFrom_blank hblank, ih (htail h), gapBehind_cons, hblank]
  | case4 gap c s hne hblank ih =>
    rw [Bool.not_eq_true] at hblank
    -- an equals sign at the end does not make an arrow with what follows
    have hsplit : c = '=' → (s ++ back).head? ≠ some '>' := by
      rintro rfl
      cases s with
      | nil => exact h rfl
      | cons d s =>
        rintro ⟨⟩
        exact hne s rfl rfl
    rw [List.cons_append, itemsFrom_char hblank hsplit, ih (htail h), gapBehind_cons, hblank]
    rfl

/-- Blanks around a text play no part. -/
theorem items_trimBy (s : List Char) : items (trimBy isBlank s) = items s := by
  obtain ⟨front, back, hfront, hback, hs, -, -⟩ := exists_trimBy isBlank s
  generalize trimBy isBlank s = t at hs ⊢
  have hhead : back.head? ≠ some '>' := by
    intro h
    exact absurd (hback '>' (List.mem_of_mem_head? h)) (by decide)
  have hitems : items (t ++ back) = items t := by
    rw [items, itemsFrom_append fun _ => hhead, itemsFrom_blanks hback, List.append_nil, items]
  rw [hs, List.append_assoc]
  by_cases hne : front = []
  · rw [hne, List.nil_append, hitems]
  · exact ((itemsFrom_blanks_append hne hfront).trans hitems).symm

theorem getLast?_itemsFrom_char {front : List Char} (hlast : front.getLast? = some c)
    (hc : isBlank c = false) (hne : c ≠ '>') :
    (itemsFrom gap front).getLast?.map Prod.snd = some (.char c) := by
  obtain ⟨init, rfl⟩ := List.getLast?_eq_some_iff.mp hlast
  have hsplit : init.getLast? = some '=' → [c].head? ≠ some '>' := by
    rintro - ⟨⟩
    exact hne rfl
  rw [itemsFrom_append hsplit, itemsFrom_char hc (by simp), itemsFrom, List.getLast?_concat]
  rfl

theorem getLast?_itemsFrom_arrow {front : List Char} (hlast : ['=', '>'] <:+ front) :
    (itemsFrom gap front).getLast?.map Prod.snd = some .arrow := by
  obtain ⟨init, rfl⟩ := hlast
  rw [itemsFrom_append (by simp), itemsFrom, itemsFrom, List.getLast?_concat]
  rfl

/-- The first item of a text stands behind a gap, or the text begins with it. -/
theorem head?_itemsFrom {y : Bool × Item} (h : y ∈ (itemsFrom gap s).head?) :
    y.1 = true ∨ y.1 = gap ∧ y.2.text <+: s := by
  fun_induction itemsFrom gap s with
  | case1 gap => cases h
  | case2 gap s ih =>
    cases h
    exact .inr ⟨rfl, List.prefix_append ['=', '>'] s⟩
  | case3 gap c s hne hblank ih =>
    rcases ih h with h | ⟨h, -⟩
    · exact .inl h
    · exact .inl h
  | case4 gap c s hne hblank ih =>
    cases h
    exact .inr ⟨rfl, List.prefix_append [c] s⟩

/-- What stands before a text matters to its items only if the text begins with one. -/
theorem itemsFrom_gap (s : List Char) : (∀ gap, itemsFrom gap s = itemsFrom true s) ∨
    ∃ x xs, ∀ gap, itemsFrom gap s = (gap, x) :: xs := by
  rcases s with _ | ⟨c, s⟩
  · exact .inl fun gap => by rw [itemsFrom, itemsFrom]
  · cases hblank : isBlank c with
    | true => exact .inl fun gap => by rw [itemsFrom_blank hblank, itemsFrom_blank hblank]
    | false =>
      by_cases harrow : c = '=' ∧ s.head? = some '>'
      · obtain ⟨rfl, hs⟩ := harrow
        obtain ⟨rest, rfl⟩ := List.head?_eq_some_iff.mp hs
        exact .inr ⟨.arrow, itemsFrom false rest, fun gap => by rw [itemsFrom]⟩
      · refine .inr ⟨.char c, itemsFrom false s, fun gap => itemsFrom_char hblank ?_⟩
        exact fun hc hs => harrow ⟨hc, hs⟩

end

/-! ### Items that can be told apart -/

/-- Whether items can be told apart in a text: none is a blank, and there are blanks between two
characters that would make up an arrow. -/
def Apart : List (Bool × Item) → Prop
  | [] => True
  | (_, x) :: xs => (∀ c ∈ x.text, isBlank c = false) ∧
      (x = .char '=' → ∀ y ∈ xs.head?, y.2 = .char '>' → y.1 = true) ∧ Apart xs

theorem apart_itemsFrom (gap : Bool) (s : List Char) : Apart (itemsFrom gap s) := by
  fun_induction itemsFrom gap s with
  | case1 => exact trivial
  | case2 gap s ih =>
    refine ⟨?_, by simp, ih⟩
    intro d hd
    simp only [Item.text, List.mem_cons, List.not_mem_nil, or_false] at hd
    rcases hd with rfl | rfl <;> decide
  | case3 gap c s hne hblank ih => exact ih
  | case4 gap c s hne hblank ih =>
    refine ⟨?_, ?_, ih⟩
    · intro d hd
      rw [List.mem_singleton.mp hd]
      exact Bool.eq_false_iff.mpr hblank
    · rintro ⟨⟩ y hy hgreater
      rcases head?_itemsFrom hy with h | ⟨-, hprefix⟩
      · exact h
      · -- without a gap the two would have been read as an arrow
        rw [hgreater] at hprefix
        obtain ⟨rest, hrest⟩ := hprefix
        exact (hne rest rfl hrest.symm).elim

/-! ### Writing -/

/-- How many blanks are set between neighbours, by whether there were any.  Where an item has no
neighbour, the text begins or ends. -/
abbrev Spacing := Option Item → Bool → Option Item → Nat

/-- Whether a spacing keeps apart what would make up an arrow. -/
def Spacing.Separates (sp : Spacing) : Prop :=
  0 < sp (some (.char '=')) true (some (.char '>'))

instance (sp : Spacing) : Decidable sp.Separates :=
  inferInstanceAs (Decidable (0 < sp _ _ _))

section

variable (sp : Spacing)

/-- How many blanks are set behind `before`. -/
def lead (before : Option Item) : List (Bool × Item) → Nat
  | [] => sp before false none
  | (gap, x) :: _ => sp before gap (some x)

/-- The text of items from the first of them on. -/
def body : List (Bool × Item) → List Char
  | [] => []
  | (_, x) :: xs => x.text ++ (List.replicate (lead sp (some x) xs) ' ' ++ body xs)

/-- The text of items. -/
def write (xs : List (Bool × Item)) : List Char :=
  List.replicate (lead sp none xs) ' ' ++ body sp xs

/-- The gaps with which items are read back once they are written. -/
def regap : (gap : Bool) → List (Bool × Item) → List (Bool × Item)
  | _, [] => []
  | gap, (_, x) :: xs => (gap, x) :: regap (decide (0 < lead sp (some x) xs)) xs

end

theorem blanks_replicate (n : Nat) : Blanks (List.replicate n ' ') := by
  intro c hc
  rw [List.eq_of_mem_replicate hc]
  decide

theorem head?_spaced_ne {n : Nat} {s : List Char} (h : n = 0 → s.head? ≠ some '>') :
    (List.replicate n ' ' ++ s).head? ≠ some '>' := by
  cases n with
  | zero => exact h rfl
  | succ n =>
    rintro ⟨⟩

section

variable {sp : Spacing} {xs : List (Bool × Item)}

namespace Apart

theorem head?_body (h : Apart xs) : ∀ c ∈ (body sp xs).head?, isBlank c = false := by
  rcases xs with _ | ⟨⟨gap, x⟩, xs⟩
  · rintro c ⟨⟩
  · intro c hc
    refine h.1 c ?_
    cases x with
    | arrow =>
      cases hc
      exact List.mem_cons_self
    | char d =>
      cases hc
      exact List.mem_cons_self

theorem head?_body_ne {gap : Bool} (h : Apart ((gap, .char '=') :: xs)) (hsp : sp.Separates)
    (hlead : lead sp (some (.char '=')) xs = 0) : (body sp xs).head? ≠ some '>' := by
  obtain ⟨-, hgap, -⟩ := h
  rcases xs with _ | ⟨⟨gap', x⟩, xs⟩
  · rintro ⟨⟩
  · cases x with
    | arrow => rintro ⟨⟩
    | char c =>
      rintro ⟨⟩
      -- the two would make up an arrow, so there was a gap and the spacing keeps it
      obtain rfl : gap' = true := hgap rfl _ rfl rfl
      rw [lead] at hlead
      rw [Spacing.Separates] at hsp
      omega

end Apart

/-- Items are read back from the text in which they are written. -/
theorem itemsFrom_body (hsp : sp.Separates) (hxs : Apart xs) (gap : Bool) :
    itemsFrom gap (body sp xs) = regap sp gap xs := by
  induction xs generalizing gap with
  | nil => rfl
  | cons y xs ih =>
    obtain ⟨gap', x⟩ := y
    have hrest : itemsFrom false (List.replicate (lead sp (some x) xs) ' ' ++ body sp xs) =
        regap sp (decide (0 < lead sp (some x) xs)) xs := by
      -- blanks that are set are read as a gap
      rw [← ih hxs.2.2]
      cases lead sp (some x) xs with
      | zero => rfl
      | succ n => exact itemsFrom_blanks_append (by simp) (blanks_replicate (n + 1))
    cases x with
    | arrow => exact congrArg ((gap, Item.arrow) :: ·) hrest
    | char c =>
      have hsplit : c = '=' →
          (List.replicate (lead sp (some (.char c)) xs) ' ' ++ body sp xs).head? ≠ some '>' := by
        rintro rfl
        exact head?_spaced_ne (hxs.head?_body_ne hsp)
      have hc : isBlank c = false := hxs.1 c List.mem_cons_self
      exact (itemsFrom_char hc hsplit).trans (congrArg ((gap, Item.char c) :: ·) hrest)

/-- A spacing that only depends on whether it set blanks itself writes the same text again. -/
theorem body_regap (hsp : ∀ before gap after,
      sp before (decide (0 < sp before gap after)) after = sp before gap after) (gap : Bool) :
    body sp (regap sp gap xs) = body sp xs := by
  induction xs generalizing gap with
  | nil => rfl
  | cons y xs ih =>
    obtain ⟨gap', x⟩ := y
    have hlead : lead sp (some x) (regap sp (decide (0 < lead sp (some x) xs)) xs) =
        lead sp (some x) xs := by
      rcases xs with _ | ⟨⟨gap'', y⟩, xs⟩
      · rfl
      · exact hsp (some x) gap'' (some y)
    rw [regap, body, body, hlead, ih]

/-- Items written twice are the items written once, if in addition the spacing does not depend on
blanks at the beginning. -/
theorem write_items_write (hsep : sp.Separates)
    (hnone : ∀ gap gap' after, sp none gap after = sp none gap' after)
    (hsp : ∀ before gap after,
      sp before (decide (0 < sp before gap after)) after = sp before gap after)
    (hxs : Apart xs) : write sp (items (write sp xs)) = write sp xs := by
  have hitems : items (write sp xs) = regap sp true xs := by
    rw [← itemsFrom_body hsep hxs, items, write]
    cases lead sp none xs with
    | zero => rfl
    | succ n => exact itemsFrom_blanks_append (by simp) (blanks_replicate (n + 1))
  have hlead : lead sp none (regap sp true xs) = lead sp none xs := by
    rcases xs with _ | ⟨⟨gap, x⟩, xs⟩
    · rfl
    · exact hnone true gap (some x)
  rw [hitems, write, hlead, body_regap hsp, write]

theorem spaced_gap {x : Item} {zs : List (Bool × Item)} (before : Option Item)
    (h : ∀ gap gap', sp ((xs.getLast?.map Prod.snd).or before) gap (some x) =
      sp ((xs.getLast?.map Prod.snd).or before) gap' (some x)) (gap gap' : Bool) :
    List.replicate (lead sp before (xs ++ (gap, x) :: zs)) ' ' ++ body sp (xs ++ (gap, x) :: zs) =
      List.replicate (lead sp before (xs ++ (gap', x) :: zs)) ' ' ++
        body sp (xs ++ (gap', x) :: zs) := by
  induction xs generalizing before with
  | nil =>
    have hlead : sp before gap (some x) = sp before gap' (some x) := h gap gap'
    rw [List.nil_append, List.nil_append, lead, lead, hlead, body, body]
  | cons y xs ih =>
    obtain ⟨gap'', y⟩ := y
    have hlast : (xs.getLast?.map Prod.snd).or (some y) =
        (((gap'', y) :: xs).getLast?.map Prod.snd).or before := by
      rw [List.getLast?_cons]
      cases xs.getLast? <;> rfl
    rw [List.cons_append, List.cons_append, lead, lead, body, body, ih (some y)]
    rw [hlast]
    exact h

/-- A gap plays no part between neighbours whose spacing does not depend on it. -/
theorem write_gap {x : Item} {zs : List (Bool × Item)}
    (h : ∀ gap gap', sp (xs.getLast?.map Prod.snd) gap (some x) =
      sp (xs.getLast?.map Prod.snd) gap' (some x)) (gap gap' : Bool) :
    write sp (xs ++ (gap, x) :: zs) = write sp (xs ++ (gap', x) :: zs) := by
  refine spaced_gap none ?_ gap gap'
  rwa [Option.or_none]

end

/-! ### Rules of spacing -/

/-- What a substitution does to the blanks around an item. -/
structure Rule where
  /-- The blanks that are left before an item, of those that stand there. -/
  before : Item → Nat → Nat
  /-- The blanks that are set behind an item. -/
  added : Item → Nat
  /-- The blanks that are left to what follows an item, of those that stand there. -/
  kept : Item → Nat → Nat

/-- The spacing after a substitution. -/
def Rule.apply (rule : Rule) (sp : Spacing) : Spacing := fun before gap after =>
  before.elim 0 rule.added +
    after.elim id rule.before (before.elim id rule.kept (sp before gap after))

/-- Whether replacing what `r` recognises does what the rule says, for every item and whatever
blanks and items stand around it. -/
structure Follows (r : Recogniser (List Char)) (rule : Rule) : Prop where
  blanks : ∀ n, replaceHits r (List.replicate n ' ') = List.replicate n ' '
  arrow : ∀ (n m : Nat) (rest : List Char), (∀ c ∈ rest.head?, isBlank c = false) →
    replaceHits r (List.replicate n ' ' ++ '=' :: '>' :: (List.replicate m ' ' ++ rest)) =
      List.replicate (rule.before .arrow n) ' ' ++ '=' :: '>' ::
        (List.replicate (rule.added .arrow) ' ' ++
          replaceHits r (List.replicate (rule.kept .arrow m) ' ' ++ rest))
  char : ∀ (c : Char) (n m : Nat) (rest : List Char), isBlank c = false →
    (∀ c ∈ rest.head?, isBlank c = false) → (c = '=' → m = 0 → rest.head? ≠ some '>') →
    replaceHits r (List.replicate n ' ' ++ c :: (List.replicate m ' ' ++ rest)) =
      List.replicate (rule.before (.char c) n) ' ' ++ c ::
        (List.replicate (rule.added (.char c)) ' ' ++
          replaceHits r (List.replicate (rule.kept (.char c) m) ' ' ++ rest))

namespace Follows

variable {sp : Spacing} {r : Recogniser (List Char)} {rule : Rule} {xs : List (Bool × Item)}

theorem replaceHits_body (h : Follows r rule) (hsp : sp.Separates) (hxs : Apart xs) (n : Nat) :
    replaceHits r (List.replicate n ' ' ++ body sp xs) =
      List.replicate (xs.head?.elim n fun y => rule.before y.2 n) ' ' ++
        body (rule.apply sp) xs := by
  induction xs generalizing n with
  | nil =>
    rw [body, List.append_nil, h.blanks]
    exact (List.append_nil _).symm
  | cons y xs ih =>
    obtain ⟨gap, x⟩ := y
    -- one item, with the blanks in front of it and those that are kept behind
    have hitem : replaceHits r (List.replicate n ' ' ++ body sp ((gap, x) :: xs)) =
        List.replicate (rule.before x n) ' ' ++ (x.text ++ (List.replicate (rule.added x) ' ' ++
          replaceHits r (List.replicate (rule.kept x (lead sp (some x) xs)) ' ' ++
            body sp xs))) := by
      cases x with
      | arrow => exact h.arrow n _ _ hxs.2.2.head?_body
      | char c =>
        refine h.char c n _ _ (hxs.1 c List.mem_cons_self) hxs.2.2.head?_body ?_
        rintro rfl
        exact hxs.head?_body_ne hsp
    -- the blanks behind an item are those in front of the next one
    have hlead : lead (rule.apply sp) (some x) xs = rule.added x +
        xs.head?.elim (rule.kept x (lead sp (some x) xs))
          fun y => rule.before y.2 (rule.kept x (lead sp (some x) xs)) := by
      cases xs <;> rfl
    rw [hitem, ih hxs.2.2, body, hlead, List.replicate_add, List.append_assoc]
    rfl

/-- A substitution that follows a rule changes the spacing by the rule. -/
theorem replaceHits_write (h : Follows r rule) (hsp : sp.Separates) (hxs : Apart xs) :
    replaceHits r (write sp xs) = write (rule.apply sp) xs := by
  have hlead : lead (rule.apply sp) none xs =
      xs.head?.elim (lead sp none xs) fun y => rule.before y.2 (lead sp none xs) := by
    cases xs with
    | nil => exact Nat.zero_add _
    | cons y xs => exact Nat.zero_add _
  rw [write, h.replaceHits_body hsp hxs, write, hlead]

end Follows

end CallAtlas.Signature

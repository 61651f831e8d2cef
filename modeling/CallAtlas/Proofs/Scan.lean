import CallAtlas.Text.Scan
import Mathlib.Data.List.DropRight
import Mathlib.Data.List.Infix
import Mathlib.Data.List.TakeWhile

/-!
# What a scan finds

A scan goes from place to place: past a character where its recogniser fails, and past all that the
recogniser takes where it succeeds.  For a recogniser that always takes something this is an
induction (`scan_induction`), and all that is known about scans comes from it.

* `Progressive r`: the recogniser takes something whenever it succeeds.
* `Found r before s front a rest`: the scan finds `a` behind `front`, and goes on with `rest`.
* `mem_hits_iff`: the matches are what is found.
* `found_or_covered`: a recogniser that succeeds at a place has its match found there, unless
  another match is found that began earlier and goes beyond the place.
* `Recognises r Form`: the recogniser takes the texts of a form.
* `WordLed Form`: these begin with a word and end with something else.  They are found only where a
  word begins (`of_mem_hits`), and all of them if none begins inside another (`mem_hits_of_form`).

The parts of recognisers are each described twice: by the texts they take (`word?_append` and its
neighbours), and by what is known of a text from which they took something (`of_word?` and its
neighbours).
-/

namespace CallAtlas.Text

variable {α : Type} {r : Recogniser α}

/-- Whether a recogniser takes something whenever it succeeds. -/
def Progressive (r : Recogniser α) : Prop :=
  ∀ before s a rest, r before s = some (a, rest) → ∃ taken, taken ≠ [] ∧ s = taken ++ rest

/-! ### One step of a scan -/

theorem scanFrom_skip (before : Option Char) (taken rest : List Char) :
    scanFrom r before taken.length (taken ++ rest) =
      scanFrom r (taken.getLast?.or before) 0 rest := by
  induction taken generalizing before with
  | nil => rfl
  | cons c taken ih =>
    have hlast : (c :: taken).getLast?.or before = taken.getLast?.or (some c) := by
      rw [List.getLast?_cons]
      cases taken.getLast? <;> rfl
    rw [List.length_cons, List.cons_append, scanFrom, ih, hlast]

theorem scanFrom_of_none {before : Option Char} {c : Char} {s : List Char}
    (h : r before (c :: s) = none) :
    scanFrom r before 0 (c :: s) = .inl c :: scanFrom r (some c) 0 s := by
  rw [scanFrom, h]

theorem scanFrom_of_some {before : Option Char} {taken rest : List Char} {a : α}
    (htaken : taken ≠ []) (h : r before (taken ++ rest) = some (a, rest)) :
    scanFrom r before 0 (taken ++ rest) = .inr a :: scanFrom r taken.getLast? 0 rest := by
  obtain ⟨c, taken, rfl⟩ := List.exists_cons_of_ne_nil htaken
  have hlength : (taken ++ rest).length - rest.length = taken.length := by
    rw [List.length_append]
    omega
  have hlast : taken.getLast?.or (some c) = (c :: taken).getLast? := by
    rw [List.getLast?_cons]
    cases taken.getLast? <;> rfl
  rw [List.cons_append] at h ⊢
  rw [scanFrom, h]
  dsimp only
  rw [hlength, scanFrom_skip, hlast]

/-- What holds at the end of a text, and at a place if it holds where the scan goes on from there,
holds everywhere. -/
theorem scan_induction (hr : Progressive r) {motive : Option Char → List Char → Prop}
    (nil : ∀ before, motive before [])
    (plain : ∀ before c s, r before (c :: s) = none → motive (some c) s → motive before (c :: s))
    (hit : ∀ before taken a rest, taken ≠ [] → r before (taken ++ rest) = some (a, rest) →
      motive taken.getLast? rest → motive before (taken ++ rest))
    (before : Option Char) (s : List Char) : motive before s := by
  induction hn : s.length using Nat.strong_induction_on generalizing before s with
  | _ n ih =>
    subst hn
    rcases s with _ | ⟨c, s⟩
    · exact nil before
    · rcases hres : r before (c :: s) with _ | ⟨a, rest⟩
      · exact plain before c s hres (ih s.length (by simp) (some c) s rfl)
      · obtain ⟨taken, htaken, hs⟩ := hr before (c :: s) a rest hres
        have hshort : rest.length < (c :: s).length := by
          have hpos := List.length_pos_of_ne_nil htaken
          rw [hs, List.length_append]
          omega
        have hrest := ih rest.length hshort taken.getLast? rest rfl
        rw [hs] at hres ⊢
        exact hit before taken a rest htaken hres hrest

/-! ### Where matches are found -/

/-- In the text `s` behind `before`, the scan finds `a` behind `front` and goes on with `rest`. -/
inductive Found (r : Recogniser α) :
    Option Char → (s front : List Char) → α → (rest : List Char) → Prop
  | here {before : Option Char} {s : List Char} {a : α} {rest : List Char} :
      r before s = some (a, rest) → Found r before s [] a rest
  | plain {before : Option Char} {c : Char} {s front : List Char} {a : α} {rest : List Char} :
      r before (c :: s) = none → Found r (some c) s front a rest →
      Found r before (c :: s) (c :: front) a rest
  | behind {before : Option Char} {taken s front : List Char} {b a : α} {rest : List Char} :
      taken ≠ [] → r before (taken ++ s) = some (b, s) → Found r taken.getLast? s front a rest →
      Found r before (taken ++ s) (taken ++ front) a rest

theorem getLast?_append_or {taken : List Char} (h : taken ≠ []) (front : List Char)
    (before : Option Char) :
    (taken ++ front).getLast?.or before = front.getLast?.or taken.getLast? := by
  rw [List.getLast?_append, List.getLast?_eq_some_getLast h]
  cases front.getLast? <;> rfl

/-- What is found stands in the text, and the recogniser takes it there. -/
theorem Found.recognised (hr : Progressive r) {before : Option Char} {s front rest : List Char}
    {a : α} (h : Found r before s front a rest) :
    ∃ taken, taken ≠ [] ∧ s = front ++ (taken ++ rest) ∧
      r (front.getLast?.or before) (taken ++ rest) = some (a, rest) := by
  induction h with
  | @here before s a rest h =>
    obtain ⟨taken, htaken, rfl⟩ := hr before s a rest h
    exact ⟨taken, htaken, rfl, h⟩
  | @plain before c s front a rest _ _ ih =>
    obtain ⟨taken, htaken, rfl, hres⟩ := ih
    refine ⟨taken, htaken, rfl, ?_⟩
    rw [← List.singleton_append, getLast?_append_or (List.cons_ne_nil c [])]
    exact hres
  | @behind before taken s front b a rest htaken _ _ ih =>
    obtain ⟨taken', htaken', rfl, hres⟩ := ih
    refine ⟨taken', htaken', (List.append_assoc _ _ _).symm, ?_⟩
    rw [getLast?_append_or htaken]
    exact hres

theorem mem_scanFrom_iff (hr : Progressive r) (before : Option Char) (s : List Char) (a : α) :
    .inr a ∈ scanFrom r before 0 s ↔ ∃ front rest, Found r before s front a rest := by
  constructor
  · -- along the scan, which skips what a hit has taken
    intro h
    induction before, s using scan_induction hr with
    | nil before => cases h
    | plain before c s hres ih =>
      rw [scanFrom_of_none hres, List.mem_cons] at h
      obtain ⟨front, rest, hfound⟩ := ih (h.resolve_left Sum.inr_ne_inl)
      exact ⟨c :: front, rest, .plain hres hfound⟩
    | hit before taken b s htaken hres ih =>
      rw [scanFrom_of_some htaken hres, List.mem_cons, Sum.inr.injEq] at h
      rcases h with rfl | h
      · exact ⟨[], s, .here hres⟩
      · obtain ⟨front, rest, hfound⟩ := ih h
        exact ⟨taken ++ front, rest, .behind htaken hres hfound⟩
  · rintro ⟨front, rest, h⟩
    induction h with
    | @here before s a rest h =>
      obtain ⟨taken, htaken, rfl⟩ := hr before s a rest h
      rw [scanFrom_of_some htaken h]
      exact List.mem_cons_self
    | plain hres _ ih =>
      rw [scanFrom_of_none hres]
      exact List.mem_cons_of_mem _ ih
    | behind htaken hres _ ih =>
      rw [scanFrom_of_some htaken hres]
      exact List.mem_cons_of_mem _ ih

/-- The matches in a text are what the scan finds. -/
theorem mem_hits_iff (hr : Progressive r) {s : List Char} {a : α} :
    a ∈ hits r s ↔ ∃ front rest, Found r none s front a rest := by
  rw [hits, List.mem_filterMap, ← mem_scanFrom_iff hr]
  constructor
  · rintro ⟨piece, hmem, hpiece⟩
    rwa [Sum.getRight?_eq_some_iff.mp hpiece] at hmem
  · intro h
    exact ⟨.inr a, h, rfl⟩

/-- A recogniser that succeeds at a place has its match found there, unless another match is found
that began earlier and goes beyond the place. -/
theorem found_or_covered (hr : Progressive r) (before : Option Char) (front tail : List Char)
    {a : α} {rest : List Char} (h : r (front.getLast?.or before) tail = some (a, rest)) :
    Found r before (front ++ tail) front a rest ∨
      ∃ front' b rest', Found r before (front ++ tail) front' b rest' ∧ front' <+: front ∧
        front'.length < front.length ∧ rest'.length < tail.length := by
  generalize hs : front ++ tail = s
  induction before, s using scan_induction hr generalizing front with
  | nil before =>
    obtain ⟨taken, htaken, htail⟩ := hr _ _ _ _ h
    have hnil : taken ++ rest = [] := htail ▸ (List.append_eq_nil_iff.mp hs).2
    exact absurd (List.append_eq_nil_iff.mp hnil).1 htaken
  | plain before c s hres ih =>
    rcases front with _ | ⟨d, front⟩
    · rw [List.nil_append] at hs
      rw [hs] at h
      have hnone : r before (c :: s) = some (a, rest) := h
      rw [hres] at hnone
      cases hnone
    · obtain ⟨rfl, htail⟩ := List.cons.inj hs
      rw [← List.singleton_append, getLast?_append_or (List.cons_ne_nil d [])] at h
      rcases ih front h htail with hfound | ⟨front', b, rest', hfound, hle, hlt, hshort⟩
      · exact .inl (.plain hres hfound)
      · refine .inr ⟨d :: front', b, rest', .plain hres hfound, ?_, ?_, hshort⟩
        · exact List.cons_prefix_cons.mpr ⟨rfl, hle⟩
        · simpa using hlt
  | hit before taken b s htaken hres ih =>
    by_cases hfront : front = []
    · rw [hfront, List.nil_append] at hs
      rw [hfront, hs] at h
      have hsame : r before (taken ++ s) = some (a, rest) := h
      rw [hfront]
      exact .inl (.here hsame)
    rcases Nat.lt_or_ge front.length taken.length with hlt | hle
    · -- the match goes beyond the place
      refine .inr ⟨[], b, s, .here hres, List.nil_prefix, List.length_pos_of_ne_nil hfront, ?_⟩
      have hlength := congrArg List.length hs
      rw [List.length_append, List.length_append] at hlength
      omega
    · -- the match ends before the place, which is looked for in what is left
      obtain ⟨more, rfl⟩ : taken <+: front :=
        List.prefix_of_prefix_length_le (List.prefix_append taken s) ⟨tail, hs⟩ hle
      rw [List.append_assoc] at hs
      rw [getLast?_append_or htaken] at h
      rcases ih more h (List.append_cancel_left hs) with
        hfound | ⟨front', b', rest', hfound, hle, hlt, hshort⟩
      · exact .inl (.behind htaken hres hfound)
      · refine .inr ⟨taken ++ front', b', rest', .behind htaken hres hfound, ?_, ?_, hshort⟩
        · exact (List.prefix_append_right_inj taken).mpr hle
        · rw [List.length_append, List.length_append]
          omega

/-! ### Scans that look alike -/

theorem hits_of_map {β : Type} {r' : Recogniser β} {f : α → β}
    (h : ∀ before s, r' before s = (r before s).map (Prod.map f id)) (s : List Char) :
    hits r' s = (hits r s).map f := by
  -- both scans skip the same characters, since the rests are the same
  have hscan : ∀ before skip, scanFrom r' before skip s =
      (scanFrom r before skip s).map (Sum.map id f) := by
    induction s with
    | nil => intro before skip; cases skip <;> rfl
    | cons c s ih =>
      intro before skip
      cases skip with
      | succ skip => rw [scanFrom, scanFrom, ih]
      | zero =>
        rw [scanFrom, scanFrom, h]
        rcases r before (c :: s) with _ | ⟨a, rest⟩
        · dsimp only [Option.map_none]
          rw [ih, List.map_cons]
          rfl
        · dsimp only [Option.map_some, Prod.map_apply]
          rw [ih, List.map_cons]
          rfl
  rw [hits, hits, scan, scan, hscan, List.filterMap_map, List.map_filterMap]
  congr 1
  funext piece
  cases piece <;> rfl

/-! ### Replacing -/

theorem scanFrom_before (h : ∀ before s, r before s = r none s) (before : Option Char) (skip : Nat)
    (s : List Char) : scanFrom r before skip s = scanFrom r none skip s := by
  rcases s with _ | ⟨c, s⟩
  · rfl
  · cases skip with
    | succ skip => rfl
    | zero => rw [scanFrom, scanFrom, h before]

theorem replaceHits_of_none {r : Recogniser (List Char)}
    (hbefore : ∀ before s, r before s = r none s) {c : Char} {s : List Char}
    (h : r none (c :: s) = none) :
    replaceHits r (c :: s) = c :: replaceHits r s := by
  rw [replaceHits, scan, scanFrom_of_none h, scanFrom_before hbefore]
  rfl

theorem replaceHits_of_some {r : Recogniser (List Char)}
    (hbefore : ∀ before s, r before s = r none s) {taken new rest : List Char} (htaken : taken ≠ [])
    (h : r none (taken ++ rest) = some (new, rest)) :
    replaceHits r (taken ++ rest) = new ++ replaceHits r rest := by
  rw [replaceHits, scan, scanFrom_of_some htaken h, scanFrom_before hbefore]
  rfl

/-! ### Words and blanks -/

/-- A word: characters of words, at least one. -/
structure Word (w : List Char) : Prop where
  ne_nil : w ≠ []
  isWord : ∀ c ∈ w, isWord c = true

theorem Word.cons {c : Char} (hc : CallAtlas.Text.isWord c = true) {w : List Char} (hw : Word w) :
    Word (c :: w) where
  ne_nil := List.cons_ne_nil c w
  isWord := by
    intro d hd
    rcases List.mem_cons.mp hd with rfl | hd
    · exact hc
    · exact hw.isWord d hd

/-- Whether all characters are blanks. -/
def Blanks (s : List Char) : Prop :=
  ∀ c ∈ s, isBlank c = true

instance : DecidablePred Blanks :=
  fun s => decidable_of_iff (s.all isBlank = true) List.all_eq_true

/-- Whether a word in front of `rest` ends there. -/
def EndsWord (rest : List Char) : Prop :=
  ∀ c ∈ rest.head?, isWord c = false

/-- Whether a word behind `front` begins there. -/
def BeginsWord (front : List Char) : Prop :=
  ∀ c ∈ front.getLast?, isWord c = false

theorem beginsWord_append_iff (front : List Char) {back : List Char} (h : back ≠ []) :
    BeginsWord (front ++ back) ↔ BeginsWord back := by
  rw [BeginsWord, BeginsWord, List.getLast?_append_of_ne_nil _ h]

theorem Word.not_beginsWord {w : List Char} (hw : Word w) : ¬ BeginsWord w := by
  intro h
  have hlast := h _ (List.getLast?_eq_some_getLast hw.ne_nil)
  rw [hw.isWord _ (List.getLast_mem hw.ne_nil)] at hlast
  cases hlast

theorem Word.of_append {front back : List Char} (h : Word (front ++ back)) (hne : front ≠ []) :
    Word front :=
  ⟨hne, fun c hc => h.isWord c (List.mem_append_left back hc)⟩

/-- No code point of a blank is one of a word. -/
theorem blankRanges_apart : (blankRanges.all fun range =>
    (List.range' range.1 (range.2 + 1 - range.1)).all fun n => !isWord (Char.ofNat n)) = true := by
  decide +kernel

theorem isWord_eq_false_of_isBlank {c : Char} (h : isBlank c = true) : isWord c = false := by
  rw [isBlank, inRanges, List.any_eq_true] at h
  obtain ⟨range, hrange, hc⟩ := h
  rw [Bool.and_eq_true, decide_eq_true_eq, decide_eq_true_eq] at hc
  have hmem : c.toNat ∈ List.range' range.1 (range.2 + 1 - range.1) := by
    rw [List.mem_range'_1]
    omega
  have happart := List.all_eq_true.mp (List.all_eq_true.mp blankRanges_apart range hrange) _ hmem
  rwa [Char.ofNat_toNat, Bool.not_eq_true'] at happart

theorem endsWord_cons {c : Char} (hc : isWord c = false) (rest : List Char) :
    EndsWord (c :: rest) := by
  rintro d ⟨⟩
  exact hc

theorem endsWord_blanks_append {blanks rest : List Char} (hblanks : Blanks blanks)
    (hrest : EndsWord rest) : EndsWord (blanks ++ rest) := by
  rcases blanks with _ | ⟨c, blanks⟩
  · exact hrest
  · exact endsWord_cons (isWord_eq_false_of_isBlank (hblanks c List.mem_cons_self)) _

theorem Word.head_isBlank {w : List Char} (hw : Word w) (rest : List Char) :
    ∀ c ∈ (w ++ rest).head?, isBlank c = false := by
  obtain ⟨d, w, rfl⟩ := List.exists_cons_of_ne_nil hw.ne_nil
  rintro c ⟨⟩
  rw [Bool.eq_false_iff]
  intro hblank
  have hword := hw.isWord d List.mem_cons_self
  rw [isWord_eq_false_of_isBlank hblank] at hword
  cases hword

/-! ### Parts of recognisers -/

theorem takeWhile_dropWhile_append {p : Char → Bool} {front rest : List Char}
    (hfront : ∀ c ∈ front, p c = true) (hrest : ∀ c ∈ rest.head?, p c = false) :
    (front ++ rest).takeWhile p = front ∧ (front ++ rest).dropWhile p = rest := by
  rw [List.takeWhile_append_of_pos hfront, List.dropWhile_append_of_pos hfront]
  rcases rest with _ | ⟨c, rest⟩
  · exact ⟨List.append_nil _, rfl⟩
  · have hc := Bool.eq_false_iff.mp (hrest c rfl)
    rw [List.takeWhile_cons_of_neg hc, List.dropWhile_cons_of_neg hc, List.append_nil]
    exact ⟨rfl, rfl⟩

theorem word?_append {w rest : List Char} (hw : Word w) (hrest : EndsWord rest) :
    word? (w ++ rest) = some (w, rest) := by
  obtain ⟨htake, hdrop⟩ := takeWhile_dropWhile_append hw.isWord hrest
  rw [word?, htake, hdrop, if_neg hw.ne_nil]

theorem of_word? {s w rest : List Char} (h : word? s = some (w, rest)) :
    Word w ∧ s = w ++ rest := by
  rw [word?] at h
  split_ifs at h with hnil
  obtain ⟨rfl, rfl⟩ := Prod.mk.inj (Option.some.inj h)
  exact ⟨⟨hnil, fun c hc => List.mem_takeWhile_imp hc⟩, List.takeWhile_append_dropWhile.symm⟩

theorem take?_cons (c : Char) (s : List Char) : take? c (c :: s) = some s := by
  rw [take?, if_pos rfl]

theorem of_take? {c : Char} {s rest : List Char} (h : take? c s = some rest) : s = c :: rest := by
  rcases s with _ | ⟨d, s⟩
  · cases h
  · rw [take?] at h
    split_ifs at h with hd
    rw [hd, Option.some.inj h]

theorem take?_eq_none {c : Char} {s : List Char} (h : s.head? ≠ some c) : take? c s = none := by
  rw [Option.eq_none_iff_forall_ne_some]
  intro rest htake
  exact h (congrArg List.head? (of_take? htake))

theorem of_dropFront? {front s rest : List Char} (h : dropFront? front s = some rest) :
    s = front ++ rest := by
  induction front generalizing s with
  | nil => exact Option.some.inj h
  | cons c front ih =>
    rcases s with _ | ⟨d, s⟩
    · cases h
    · rw [dropFront?] at h
      split_ifs at h with hd
      rw [ih h, hd, List.cons_append]

theorem skipBlanks_append {blanks rest : List Char} (hblanks : Blanks blanks)
    (hrest : ∀ c ∈ rest.head?, isBlank c = false) : skipBlanks (blanks ++ rest) = rest :=
  (takeWhile_dropWhile_append hblanks hrest).2

theorem skipBlanks_cons_of_blank {c : Char} (hc : isBlank c = true) (s : List Char) :
    skipBlanks (c :: s) = skipBlanks s :=
  List.dropWhile_cons_of_pos hc

theorem skipBlanks_cons {c : Char} (hc : isBlank c = false) (s : List Char) :
    skipBlanks (c :: s) = c :: s :=
  List.dropWhile_cons_of_neg (Bool.eq_false_iff.mp hc)

theorem head?_skipBlanks (s : List Char) : ∀ c ∈ (skipBlanks s).head?, isBlank c = false := by
  intro c hc
  have hnot := List.head?_dropWhile_not isBlank s
  rw [← skipBlanks, hc] at hnot
  simpa using hnot

theorem exists_blanks (s : List Char) : ∃ blanks, Blanks blanks ∧ s = blanks ++ skipBlanks s :=
  ⟨s.takeWhile isBlank, fun _ hc => List.mem_takeWhile_imp hc,
    List.takeWhile_append_dropWhile.symm⟩

theorem take?_skipBlanks {c : Char} (hc : isBlank c = false) {blanks : List Char}
    (hblanks : Blanks blanks) (rest : List Char) :
    take? c (skipBlanks (blanks ++ c :: rest)) = some rest := by
  have hhead : ∀ d ∈ (c :: rest).head?, isBlank d = false := by
    rintro d ⟨⟩
    exact hc
  rw [skipBlanks_append hblanks hhead, take?_cons]

theorem of_take?_skipBlanks {c : Char} {s rest : List Char}
    (h : take? c (skipBlanks s) = some rest) :
    ∃ blanks, Blanks blanks ∧ s = blanks ++ c :: rest := by
  obtain ⟨blanks, hblanks, hs⟩ := exists_blanks s
  rw [of_take? h] at hs
  exact ⟨blanks, hblanks, hs⟩

theorem blanks?_append {blanks rest : List Char} (hne : blanks ≠ []) (hblanks : Blanks blanks)
    (hrest : ∀ c ∈ rest.head?, isBlank c = false) : blanks? (blanks ++ rest) = some rest := by
  rw [blanks?, (takeWhile_dropWhile_append hblanks hrest).1, if_neg hne,
    skipBlanks_append hblanks hrest]

theorem blanks?_eq_none {s : List Char} (h : ∀ c ∈ s.head?, isBlank c = false) :
    blanks? s = none := by
  cases s with
  | nil => rfl
  | cons c s =>
    rw [blanks?, List.takeWhile_cons_of_neg (Bool.eq_false_iff.mp (h c rfl)), if_pos rfl]

theorem of_blanks? {s rest : List Char} (h : blanks? s = some rest) :
    ∃ blanks, blanks ≠ [] ∧ Blanks blanks ∧ s = blanks ++ rest := by
  rw [blanks?] at h
  split_ifs at h with hnil
  rw [← Option.some.inj h]
  exact ⟨s.takeWhile isBlank, hnil, fun _ hc => List.mem_takeWhile_imp hc,
    List.takeWhile_append_dropWhile.symm⟩

/-! ### Trimming -/

/-- What is trimmed off is what stands around a text that neither begins nor ends so. -/
theorem trimBy_append {p : Char → Bool} {front s back : List Char}
    (hfront : ∀ c ∈ front, p c = true) (hback : ∀ c ∈ back, p c = true)
    (hhead : ∀ c ∈ s.head?, p c = false) (hlast : ∀ c ∈ s.getLast?, p c = false) :
    trimBy p (front ++ s ++ back) = s := by
  rcases s with _ | ⟨c, s⟩
  · have hall : ∀ c ∈ front ++ [] ++ back, p c = true := by
      simpa [or_imp, forall_and] using ⟨hfront, hback⟩
    rw [trimBy, List.dropWhile_eq_nil_iff.mpr hall]
    rfl
  · have hrear : ∀ d ∈ (c :: s).reverse.head?, p d = false := by
      rwa [List.head?_reverse]
    have hback' : ∀ d ∈ back.reverse, p d = true := fun d hd => hback d (List.mem_reverse.mp hd)
    have hfirst : ∀ d ∈ (c :: s ++ back).head?, p d = false := hhead
    rw [trimBy, List.append_assoc, (takeWhile_dropWhile_append hfront hfirst).2,
      List.reverse_append, (takeWhile_dropWhile_append hback' hrear).2, List.reverse_reverse]

/-- A trimmed text neither begins nor ends with what is trimmed off. -/
theorem exists_trimBy (p : Char → Bool) (s : List Char) :
    ∃ front back, (∀ c ∈ front, p c = true) ∧ (∀ c ∈ back, p c = true) ∧
      s = front ++ trimBy p s ++ back ∧ (∀ c ∈ (trimBy p s).head?, p c = false) ∧
      ∀ c ∈ (trimBy p s).getLast?, p c = false := by
  have htrim : trimBy p s = (s.dropWhile p).rdropWhile p := rfl
  refine ⟨s.takeWhile p, (s.dropWhile p).rtakeWhile p, fun c hc => List.mem_takeWhile_imp hc,
    fun c hc => List.mem_rtakeWhile_imp hc, ?_, ?_, ?_⟩
  · rw [htrim, List.append_assoc, List.rdropWhile_append_rtakeWhile,
      List.takeWhile_append_dropWhile]
  · intro c hc
    obtain ⟨rest, hrest⟩ := List.head?_eq_some_iff.mp hc
    -- trimming the end leaves the first character alone
    obtain ⟨back, hback⟩ := List.rdropWhile_prefix p (s.dropWhile p)
    rw [← htrim, hrest] at hback
    have hhead := List.head?_dropWhile_not p s
    rw [← hback] at hhead
    simpa using hhead
  · intro c hc
    obtain ⟨front, hfront⟩ := List.getLast?_eq_some_iff.mp hc
    rw [htrim] at hfront
    have hne : (s.dropWhile p).rdropWhile p ≠ [] := by simp [hfront]
    have hlast := List.rdropWhile_last_not p (s.dropWhile p) hne
    simpa [hfront] using hlast

/-! ### Recognisers of texts of a form -/

section

variable {Form : α → List Char → Prop}

/-- Whether a recogniser succeeds exactly in front of texts of a form, whatever stands behind. -/
def Recognises (r : Recogniser α) (Form : α → List Char → Prop) : Prop :=
  ∀ before s a rest, r before s = some (a, rest) ↔ ∃ text, Form a text ∧ s = text ++ rest

/-- Whether texts of a form begin with a word, of which they may have more or less, and end with
something else. -/
structure WordLed (Form : α → List Char → Prop) : Prop where
  widen : ∀ a text c, Form a text → isWord c = true → ∃ a', Form a' (c :: text)
  ends : ∀ a text, Form a text → ∃ front c, text = front ++ [c] ∧ isWord c = false

theorem WordLed.ne_nil (h : WordLed Form) {a : α} {text : List Char} (hform : Form a text) :
    text ≠ [] := by
  obtain ⟨front, c, rfl, -⟩ := h.ends a text hform
  simp

theorem Recognises.progressive (hr : Recognises r Form) (hled : WordLed Form) :
    Progressive r := by
  intro before s a rest h
  obtain ⟨text, hform, rfl⟩ := (hr before s a rest).mp h
  exact ⟨text, hled.ne_nil hform, rfl⟩

/-- What begins with a word is found only where that word begins. -/
theorem Found.beginsWord (hr : Recognises r Form) (hled : WordLed Form) {before : Option Char}
    {s front rest : List Char} {a : α} (h : Found r before s front a rest) : BeginsWord front := by
  induction h with
  | here => exact fun c hc => by cases hc
  | @plain before c s front a rest hres hfound ih =>
    rcases front with _ | ⟨d, front⟩
    · -- otherwise the recogniser would have succeeded one place earlier
      rintro c ⟨⟩
      rw [Bool.eq_false_iff]
      intro hc
      obtain ⟨text, -, rfl, htext⟩ := hfound.recognised (hr.progressive hled)
      obtain ⟨text', hform, heq⟩ := (hr _ _ _ _).mp htext
      obtain rfl := List.append_cancel_right heq
      obtain ⟨a', hform'⟩ := hled.widen a text c hform hc
      have hsome := (hr before (c :: (text ++ rest)) a' rest).mpr ⟨c :: text, hform', rfl⟩
      rw [List.nil_append, hsome] at hres
      cases hres
    · rw [BeginsWord, List.getLast?_cons_cons]
      exact ih
  | @behind before taken s front b a rest htaken hres _ ih =>
    rcases front with _ | ⟨d, front⟩
    · obtain ⟨text, hform, heq⟩ := (hr _ _ _ _).mp hres
      obtain rfl := List.append_cancel_right heq
      obtain ⟨front, c, rfl, hc⟩ := hled.ends b taken hform
      rw [List.append_nil, BeginsWord, List.getLast?_concat]
      rintro c' ⟨⟩
      exact hc
    · rw [BeginsWord, List.getLast?_append_cons]
      exact ih

/-- A match stands in the text, from the beginning of a word on. -/
theorem of_mem_hits (hr : Recognises r Form) (hled : WordLed Form) {s : List Char} {a : α}
    (h : a ∈ hits r s) :
    ∃ front text rest, s = front ++ (text ++ rest) ∧ BeginsWord front ∧ Form a text := by
  obtain ⟨front, rest, hfound⟩ := (mem_hits_iff (hr.progressive hled)).mp h
  obtain ⟨text, -, rfl, hres⟩ := hfound.recognised (hr.progressive hled)
  obtain ⟨text', hform, heq⟩ := (hr _ _ _ _).mp hres
  obtain rfl := List.append_cancel_right heq
  exact ⟨front, text, rest, rfl, hfound.beginsWord hr hled, hform⟩

/-- What stands in the text from the beginning of a word on is a match, if nothing of the form can
begin with a word inside something else of the form. -/
theorem mem_hits_of_form (hr : Recognises r Form) (hled : WordLed Form)
    (hapart : ∀ b front back a text rest rest', Form b (front ++ back) → front ≠ [] → back ≠ [] →
      BeginsWord front → Form a text → back ++ rest' ≠ text ++ rest)
    {front text rest : List Char} {a : α} (hfront : BeginsWord front) (hform : Form a text) :
    a ∈ hits r (front ++ (text ++ rest)) := by
  have hprogressive := hr.progressive hled
  have hres := (hr (front.getLast?.or none) (text ++ rest) a rest).mpr ⟨text, hform, rfl⟩
  rw [mem_hits_iff hprogressive]
  rcases found_or_covered hprogressive none front (text ++ rest) hres with
    hfound | ⟨front', b, rest', hfound, hle, hlt, hshort⟩
  · exact ⟨front, rest, hfound⟩
  · -- the other match begins in `front` and ends behind it
    exfalso
    obtain ⟨mid, rfl⟩ := hle
    have hmid : mid ≠ [] := by
      rintro rfl
      simp at hlt
    obtain ⟨text', -, heq, hres'⟩ := hfound.recognised hprogressive
    obtain ⟨text'', hform', heq'⟩ := (hr _ _ _ _).mp hres'
    obtain rfl := List.append_cancel_right heq'
    rw [List.append_assoc] at heq
    have heq := List.append_cancel_left heq
    have hbegins : BeginsWord mid := (beginsWord_append_iff front' hmid).mp hfront
    rcases List.append_eq_append_iff.mp heq with ⟨back, rfl, hback⟩ | ⟨back, hback, hrest⟩
    · refine hapart b mid back a text rest rest' hform' hmid ?_ hbegins hform hback.symm
      rintro rfl
      rw [hback, List.nil_append] at hshort
      exact Nat.lt_irrefl _ hshort
    · rw [hrest, List.length_append] at hshort
      omega

end

end CallAtlas.Text

import CallAtlas.Import.Path
import CallAtlas.Text.Lowercase
import Mathlib.Data.List.TakeWhile

/-!
# Texts

What it means that a text occurs in another, what the name of a file is, and that lower-casing a
text that is in lower case leaves it alone.  For the characters beyond ASCII this last is a property
of the table of capitals: no small letter of a run is a capital of a run.  It is checked on sets of
letters as wholes, each the bits of a number.

* `contains_iff`: occurrences are infixes.
* `mem_toList_join`: what stands in joined texts.
* `Path.basename_sourceFile`: the name of a file in a directory.
* `Small c`: lower-casing leaves `c` alone wherever it stands.
* `CapitalRun.capitals`, `CapitalRun.smalls`: the letters of a run, as the bits of a number.
* `small_of_mem_lower`, `lower_of_small`: what is in lower case is small, and what is small stays.
-/

namespace CallAtlas

/-! ### Occurrences -/

namespace Text

theorem occursIn_iff {part s : List Char} : occursIn part s = true ↔ part <:+: s := by
  induction s with
  | nil => rw [occursIn, List.isEmpty_iff, List.infix_nil]
  | cons c s ih =>
    rw [occursIn, Bool.or_eq_true, List.isPrefixOf_iff_prefix, ih, List.infix_cons_iff]

theorem contains_iff {s part : String} :
    contains s part = true ↔ part.toList <:+: s.toList :=
  occursIn_iff

/-- What occurs in a text has no character more often than the text. -/
theorem count_le_of_contains {s part : String} (h : contains s part = true) (x : Char) :
    part.toList.count x ≤ s.toList.count x :=
  (contains_iff.mp h).sublist.count_le x

/-- What stands in joined texts stands in one of them or in what is between them. -/
theorem mem_toList_join {separator : String} {texts : List String} {c : Char}
    (h : c ∈ (join separator texts).toList) :
    c ∈ separator.toList ∨ ∃ t ∈ texts, c ∈ t.toList := by
  rw [join, String.toList_ofList] at h
  induction texts with
  | nil => cases h
  | cons t texts ih =>
    cases texts with
    | nil =>
      rw [List.map_singleton, List.intercalate_singleton] at h
      exact .inr ⟨t, List.mem_singleton_self t, h⟩
    | cons u texts =>
      rw [List.map_cons, List.map_cons, List.intercalate_cons_cons, List.mem_append,
        List.mem_append] at h
      rcases h with (h | h) | h
      · exact .inr ⟨t, List.mem_cons_self, h⟩
      · exact .inl h
      · rcases ih h with h | ⟨v, hv, h⟩
        · exact .inl h
        · exact .inr ⟨v, List.mem_cons_of_mem t hv, h⟩

end Text

/-! ### Names of files -/

namespace Path

open CallAtlas.Text (afterLast)

theorem notMem_afterLast (sep : Char) (s : List Char) : sep ∉ afterLast sep s := by
  intro h
  rw [afterLast, List.mem_reverse] at h
  have hne := List.mem_takeWhile_imp h
  rw [bne_self_eq_false] at hne
  cases hne

theorem afterLast_append {sep : Char} {front name : List Char} (hname : sep ∉ name)
    (hfront : front = [] ∨ ∃ directory, front = directory ++ [sep]) :
    afterLast sep (front ++ name) = name := by
  have hall : ∀ x ∈ name.reverse, (x != sep) = true := by
    intro x hx
    rw [bne_iff_ne]
    rintro rfl
    exact hname (List.mem_reverse.mp hx)
  have hrest : front.reverse.takeWhile (· != sep) = [] := by
    rcases hfront with rfl | ⟨directory, rfl⟩
    · rfl
    · rw [List.reverse_append, List.reverse_singleton, List.singleton_append,
        List.takeWhile_cons_of_neg (by simp)]
  rw [afterLast, List.reverse_append, List.takeWhile_append_of_pos hall, hrest, List.append_nil,
    List.reverse_reverse]

/-- The path of the source file of a name in a directory. -/
def sourceFile (directory name : String) : String :=
  (if directory = "" then "" else directory ++ "/") ++ (name ++ Import.sourceExtension)

theorem basename_sourceFile (directory : String) {name : String} (hname : '/' ∉ name.toList) :
    basename (sourceFile directory name) = name ++ Import.sourceExtension := by
  have hslash : '/' ∉ (name ++ Import.sourceExtension).toList := by
    rw [String.toList_append, List.mem_append, not_or]
    exact ⟨hname, by decide⟩
  rw [basename, sourceFile, String.toList_append, afterLast_append hslash, String.ofList_toList]
  split_ifs
  · exact .inl rfl
  · exact .inr ⟨directory.toList, String.toList_append⟩

end Path

/-! ### Lower case -/

namespace Text

/-- Whether lower-casing leaves a character alone wherever it stands. -/
def Small (c : Char) : Prop :=
  c.toNat ≠ 0x3A3 ∧ lowerChar c = [c]

instance : DecidablePred Small :=
  fun c => inferInstanceAs (Decidable (c.toNat ≠ 0x3A3 ∧ lowerChar c = [c]))

/-- The bits of all `f x`. -/
def unite {α : Type} (f : α → Nat) (xs : List α) : Nat :=
  xs.foldr (fun x bits => f x ||| bits) 0

theorem testBit_unite {α : Type} (f : α → Nat) (xs : List α) (n : Nat) :
    (unite f xs).testBit n = xs.any fun x => (f x).testBit n := by
  induction xs with
  | nil => exact Nat.zero_testBit n
  | cons x xs ih => rw [unite, List.foldr_cons, Nat.testBit_or, List.any_cons, ← ih, unite]

namespace CapitalRun

/-- Whether `n` is a capital of the run. -/
def has (r : CapitalRun) (n : Nat) : Bool :=
  decide (r.first ≤ n) && decide (n ≤ r.last) && decide ((n - r.first) % r.step = 0)

/-- The small letter of the first capital. -/
def lowest (r : CapitalRun) : Nat :=
  (r.first + r.shift).toNat

/-- The small letter of the last capital. -/
def highest (r : CapitalRun) : Nat :=
  (r.last + r.shift).toNat

/-- The capitals of the run, as the bits of a number. -/
def capitals (r : CapitalRun) : Nat :=
  unite (1 <<< ·) (List.range' r.first ((r.last - r.first) / r.step + 1) r.step)

/-- The small letters of the run, as the bits of a number. -/
def smalls (r : CapitalRun) : Nat :=
  if 0 ≤ r.shift then r.capitals <<< r.shift.toNat else r.capitals >>> (-r.shift).toNat

/-- Whether the small letters are characters behind the ASCII capitals. -/
def sensible (r : CapitalRun) : Bool :=
  Nat.ble 0x61 r.lowest && (Nat.blt r.highest 0xD800 ||
    (Nat.blt 0xDFFF r.lowest && Nat.blt r.highest 0x110000))

variable {r : CapitalRun} {n : Nat}

theorem has_iff : r.has n = true ↔ r.first ≤ n ∧ n ≤ r.last ∧ (n - r.first) % r.step = 0 := by
  simp only [has, Bool.and_eq_true, decide_eq_true_eq, and_assoc]

theorem lowest_le (h : r.has n = true) : r.lowest ≤ (n + r.shift).toNat := by
  have := (has_iff.mp h).1
  rw [lowest]
  omega

theorem le_highest (h : r.has n = true) : (n + r.shift).toNat ≤ r.highest := by
  have := (has_iff.mp h).2.1
  rw [highest]
  omega

theorem testBit_capitals (h : r.has n = true) : r.capitals.testBit n = true := by
  obtain ⟨hfirst, hlast, hstep⟩ := has_iff.mp h
  have hsteps : n = r.first + r.step * ((n - r.first) / r.step) := by
    rw [Nat.mul_div_cancel' (Nat.dvd_of_mod_eq_zero hstep)]
    omega
  have hle : (n - r.first) / r.step ≤ (r.last - r.first) / r.step :=
    Nat.div_le_div_right (Nat.sub_le_sub_right hlast _)
  rw [capitals, testBit_unite, List.any_eq_true]
  refine ⟨n, List.mem_range'.mpr ⟨_, Nat.lt_succ_of_le hle, hsteps⟩, ?_⟩
  rw [Nat.one_shiftLeft, Nat.testBit_two_pow_self]

theorem testBit_smalls (hr : r.sensible = true) (h : r.has n = true) :
    r.smalls.testBit (n + r.shift).toNat = true := by
  have hlow := lowest_le h
  rw [sensible, Bool.and_eq_true, Nat.ble_eq] at hr
  rw [smalls]
  split
  · have hsub : (n + r.shift).toNat - r.shift.toNat = n := by omega
    rw [Nat.testBit_shiftLeft, hsub, testBit_capitals h, Bool.and_true, decide_eq_true_eq]
    omega
  · -- a shift down loses no small letter, since none is below the ASCII capitals
    have hadd : (-r.shift).toNat + (n + r.shift).toNat = n := by omega
    rw [Nat.testBit_shiftRight, hadd, testBit_capitals h]

end CapitalRun

/-- The dotted capital `I` as a run.  It has two characters for a small letter. -/
def dottedRun : CapitalRun :=
  ⟨0x130, 0x130, 2, 0⟩

/-- The capitals of all runs, as the bits of a number. -/
def allCapitals : Nat :=
  unite CapitalRun.capitals (dottedRun :: capitalRuns)

/-- What holds of the letters by their tables. -/
structure LetterTables : Prop where
  sensible : (capitalRuns.all CapitalRun.sensible) = true
  /-- No small letter is a capital. -/
  apart : ∀ r ∈ capitalRuns, allCapitals &&& r.smalls = 0
  /-- The capital sigma and the dotted capital `I` are in the runs. -/
  taken : ∀ m ∈ [0x3A3, 0x130], ((dottedRun :: capitalRuns).any fun r => r.has m) = true
  ascii : ∀ n < 0x80, Small (Char.ofNat n).toLower ∧
    ((Char.ofNat n).toLower = Char.ofNat n ∨ 0x61 ≤ (Char.ofNat n).toLower.toNat)
  /-- Asked for the Kelvin sign, the only capital beyond ASCII with a small letter in ASCII. -/
  kept : ∀ m < 0x80, 0x61 ≤ m → lowerChar (Char.ofNat m) = [Char.ofNat m]
  /-- What the dotted capital `I` becomes, and both small sigmas. -/
  small : ∀ m ∈ [0x69, 0x307, 0x3C2, 0x3C3], Small (Char.ofNat m) ∧ 0x61 ≤ (Char.ofNat m).toNat

theorem letterTables_checked : LetterTables where
  sensible := by decide +kernel
  apart := by decide +kernel
  taken := by decide +kernel
  ascii := by decide +kernel
  kept := by decide +kernel
  small := by decide +kernel

theorem lowerChar_of_no_run {c : Char} (hc : 0x80 ≤ c.toNat) (hdotted : c.toNat ≠ 0x130)
    (h : ∀ r ∈ capitalRuns, r.has c.toNat = false) : lowerChar c = [c] := by
  have hfind : capitalRuns.find? (fun r => r.has c.toNat) = none := by
    rw [List.find?_eq_none]
    intro r hr hhas
    rw [h r hr] at hhas
    cases hhas
  simp only [CapitalRun.has] at hfind
  rw [lowerChar, if_neg (Nat.not_lt.mpr hc), if_neg hdotted, hfind]

theorem toNat_small_of_has {r : CapitalRun} {n : Nat} (hr : r ∈ capitalRuns)
    (h : r.has n = true) :
    (Char.ofNat (n + r.shift).toNat).toNat = (n + r.shift).toNat ∧ 0x61 ≤ (n + r.shift).toNat := by
  have hsensible := List.all_eq_true.mp letterTables_checked.sensible r hr
  have hlow := r.lowest_le h
  have hhigh := r.le_highest h
  simp only [CapitalRun.sensible, Bool.and_eq_true, Bool.or_eq_true, Nat.ble_eq, Nat.blt_eq]
    at hsensible
  have hvalid : (n + r.shift).toNat.isValidChar := by
    rw [Nat.isValidChar]
    omega
  rw [Char.ofNat, dif_pos hvalid]
  exact ⟨rfl, Nat.le_trans hsensible.1 hlow⟩

/-- The small letter of a capital is small. -/
theorem small_of_has {r : CapitalRun} {n : Nat} (hr : r ∈ capitalRuns) (h : r.has n = true) :
    Small (Char.ofNat (n + r.shift).toNat) := by
  obtain ⟨hnat, hlow⟩ := toNat_small_of_has hr h
  have hsensible := List.all_eq_true.mp letterTables_checked.sensible r hr
  -- no run of capitals has the small letter in it
  have hclear : ∀ r' ∈ dottedRun :: capitalRuns, r'.has (n + r.shift).toNat = false := by
    intro r' hr'
    rw [Bool.eq_false_iff]
    intro hhas
    have hcapital : allCapitals.testBit (n + r.shift).toNat = true := by
      rw [allCapitals, testBit_unite, List.any_eq_true]
      exact ⟨r', hr', CapitalRun.testBit_capitals hhas⟩
    have hboth := Nat.testBit_and allCapitals r.smalls (n + r.shift).toNat
    rw [letterTables_checked.apart r hr, Nat.zero_testBit, hcapital,
      CapitalRun.testBit_smalls hsensible h] at hboth
    cases hboth
  have hne : ∀ m, ((dottedRun :: capitalRuns).any fun r' => r'.has m) = true →
      (n + r.shift).toNat ≠ m := by
    rintro m hm rfl
    obtain ⟨r', hr', hhas⟩ := List.any_eq_true.mp hm
    rw [hclear r' hr'] at hhas
    cases hhas
  refine ⟨?_, ?_⟩
  · rw [hnat]
    exact hne 0x3A3 (letterTables_checked.taken _ (by simp))
  · -- ASCII letters are checked one by one
    by_cases hascii : (n + r.shift).toNat < 0x80
    · exact letterTables_checked.kept _ hascii hlow
    · refine lowerChar_of_no_run ?_ ?_ ?_
      · rw [hnat]
        exact Nat.not_lt.mp hascii
      · rw [hnat]
        exact hne 0x130 (letterTables_checked.taken _ (by simp))
      · rw [hnat]
        exact fun r' hr' => hclear r' (List.mem_cons_of_mem _ hr')

/-- What a character becomes is small, and is the character itself or comes behind the ASCII
capitals. -/
theorem mem_lowerChar {c x : Char} (hc : c.toNat ≠ 0x3A3) (h : x ∈ lowerChar c) :
    Small x ∧ (x = c ∨ 0x61 ≤ x.toNat) := by
  by_cases hascii : c.toNat < 0x80
  · obtain ⟨hsmall, hself⟩ := letterTables_checked.ascii c.toNat hascii
    rw [Char.ofNat_toNat] at hsmall hself
    rw [lowerChar, if_pos hascii, List.mem_singleton] at h
    rw [h]
    exact ⟨hsmall, hself⟩
  -- the dotted capital becomes two characters
  by_cases hdotted : c.toNat = 0x130
  · have hi := letterTables_checked.small 0x69 (by simp)
    have hdot := letterTables_checked.small 0x307 (by simp)
    rw [lowerChar, if_neg hascii, if_pos hdotted, List.mem_cons, List.mem_singleton] at h
    rcases h with rfl | rfl
    · exact ⟨hi.1, .inr hi.2⟩
    · exact ⟨hdot.1, .inr hdot.2⟩
  rcases hfind : capitalRuns.find? (fun r => r.has c.toNat) with _ | r
  · have hno : ∀ r ∈ capitalRuns, r.has c.toNat = false := by
      intro r hr
      exact Bool.eq_false_iff.mpr (List.find?_eq_none.mp hfind r hr)
    have hself := lowerChar_of_no_run (Nat.not_lt.mp hascii) hdotted hno
    rw [hself, List.mem_singleton] at h
    rw [h]
    exact ⟨⟨hc, hself⟩, .inl rfl⟩
  · -- the first run that has the character
    have hr := List.mem_of_find?_eq_some hfind
    have hhas : r.has c.toNat = true := by simpa using List.find?_some hfind
    simp only [CapitalRun.has] at hfind
    rw [lowerChar, if_neg hascii, if_neg hdotted, hfind, List.mem_singleton] at h
    obtain ⟨hnat, hlow⟩ := toNat_small_of_has hr hhas
    rw [h, hnat]
    exact ⟨small_of_has hr hhas, .inr hlow⟩

/-- Both small sigmas are small. -/
theorem small_sigma (last : Bool) :
    Small (Char.ofNat (if last then 0x3C2 else 0x3C3)) ∧
      0x61 ≤ (Char.ofNat (if last then 0x3C2 else 0x3C3)).toNat := by
  refine letterTables_checked.small _ ?_
  cases last <;> simp

theorem mem_lowerAfter {before s : List Char} {x : Char} (h : x ∈ lowerAfter before s) :
    Small x ∧ (x ∈ s ∨ 0x61 ≤ x.toNat) := by
  induction s generalizing before with
  | nil => cases h
  | cons c s ih =>
    rw [lowerAfter] at h
    rcases List.mem_append.mp h with h | h
    · by_cases hsigma : c.toNat = 0x3A3
      · rw [if_pos hsigma, List.mem_singleton] at h
        have htable := small_sigma (startsCased before && !startsCased s)
        rw [← h] at htable
        exact ⟨htable.1, .inr htable.2⟩
      · rw [if_neg hsigma] at h
        obtain ⟨hsmall, rfl | hlow⟩ := mem_lowerChar hsigma h
        · exact ⟨hsmall, .inl List.mem_cons_self⟩
        · exact ⟨hsmall, .inr hlow⟩
    · obtain ⟨hsmall, hmem⟩ := ih h
      exact ⟨hsmall, hmem.imp_left (List.mem_cons_of_mem c)⟩

theorem lowerAfter_of_small {s : List Char} (h : ∀ c ∈ s, Small c) (before : List Char) :
    lowerAfter before s = s := by
  induction s generalizing before with
  | nil => rfl
  | cons c s ih =>
    obtain ⟨hsigma, hself⟩ := h c List.mem_cons_self
    rw [lowerAfter, if_neg hsigma, hself, ih fun d hd => h d (List.mem_cons_of_mem c hd),
      List.singleton_append]

theorem small_of_mem_lower {s : String} {x : Char} (h : x ∈ (lower s).toList) : Small x := by
  rw [lower, String.toList_ofList] at h
  exact (mem_lowerAfter h).1

theorem mem_of_mem_lower {s : String} {x : Char} (h : x ∈ (lower s).toList)
    (hx : x.toNat < 0x61) : x ∈ s.toList := by
  rw [lower, String.toList_ofList] at h
  exact (mem_lowerAfter h).2.resolve_right (Nat.not_le.mpr hx)

theorem lower_of_small {s : String} (h : ∀ c ∈ s.toList, Small c) : lower s = s := by
  rw [lower, lowerAfter_of_small h, String.ofList_toList]

end Text

end CallAtlas

import CallAtlas.Proofs.Import.Canonical
import CallAtlas.Proofs.Location
import CallAtlas.Proofs.Text

/-!
# What is tried for an import

The places to try for an import are files of a known library, or the homes of a widely used contract
followed by files of the importing repository.  All of them are canonical paths of source files, and
no place is tried twice.  An import that begins like a library's is meant for that library, but it is
looked up there only if what follows the beginning is a path inside it; otherwise it is treated like
any other.

* `Coords.Holds c l`: `l` is a file of the repository and branch of `c`.
* `tables_checked`: what the lemmas need of the tables of libraries and widely used contracts.
* `candidates_cases`: the three kinds of lists.
* `isSourcePath_of_mem_candidates`: what is tried is the canonical path of a source file.
* `exists_own`: the homes of a widely used contract come first, and what follows is the repository's
  own.
* `candidates_canonical`: what every list of candidates looks like.
* `candidates_of_library`: when an import that begins like a library's stays in the library.
-/

namespace CallAtlas

/-- Whether a file is in the repository and branch of some coordinates. -/
def Coords.Holds (c : Coords) (l : Location) : Prop :=
  l.owner = c.owner ∧ l.repo = c.repo ∧ l.branch = c.branch

instance (c : Coords) (l : Location) : Decidable (c.Holds l) :=
  inferInstanceAs (Decidable (_ ∧ _ ∧ _))

namespace Coords

variable {c d : Coords} {l : Location}

theorem holds_locate (c : Coords) (path : String) : c.Holds (c.locate path) :=
  ⟨rfl, rfl, rfl⟩

/-- Coordinates that share a file share all files. -/
theorem Holds.locate (hc : c.Holds l) (hd : d.Holds l) (path : String) : d.Holds (c.locate path) :=
  ⟨hc.1.symm.trans hd.1, hc.2.1.symm.trans hd.2.1, hc.2.2.symm.trans hd.2.2⟩

theorem Holds.trans {path : String} (hc : c.Holds l) (hd : d.Holds (c.locate path)) : d.Holds l :=
  ⟨hc.1.trans hd.1, hc.2.1.trans hd.2.1, hc.2.2.trans hd.2.2⟩

theorem Holds.plain {path : String} (h : c.Holds l) (hplain : (c.locate path).Plain) : l.Plain := by
  obtain ⟨howner, hrepo, hbranch⟩ := h
  rw [Location.Plain, howner, hrepo, hbranch]
  exact hplain

end Coords

/-! ### Paths of source files -/

namespace Path

open CallAtlas.Text

/-- What is appended without a separator belongs to the last piece. -/
theorem splitOn_append_of_notMem {sep : Char} {tail : List Char} (htail : sep ∉ tail)
    (s : List Char) :
    ∃ front last, s.splitOn sep = front ++ [last] ∧
      (s ++ tail).splitOn sep = front ++ [last ++ tail] := by
  induction s with
  | nil => exact ⟨[], [], rfl, List.splitOn_eq_singleton htail⟩
  | cons c s ih =>
    obtain ⟨front, last, hs, htail'⟩ := ih
    rw [List.cons_append, List.splitOn_cons_eq_if_modifyHead, List.splitOn_cons_eq_if_modifyHead, hs,
      htail']
    split_ifs
    · exact ⟨[] :: front, last, rfl, rfl⟩
    · cases front with
      | nil => exact ⟨[], c :: last, rfl, rfl⟩
      | cons first front => exact ⟨(c :: first) :: front, last, rfl, rfl⟩

theorem Canonical.append {path ending : String} (h : Canonical path) (hslash : '/' ∉ ending.toList)
    (hending : 2 ≤ ending.toList.length) : Canonical (path ++ ending) := by
  obtain ⟨front, last, hpath, happend⟩ := splitOn_append_of_notMem hslash path.toList
  rw [Canonical, hpath] at h
  rw [Canonical, String.toList_append, happend]
  intro segment hsegment
  rcases List.mem_append.mp hsegment with hfront | hlast
  · exact h segment (List.mem_append_left _ hfront)
  · -- with the ending the last segment is too long for a dot or a double dot
    have hnonempty : last ≠ [] :=
      (h last (List.mem_append_right _ List.mem_cons_self)).1
    have hlength : 3 ≤ segment.length := by
      have hpos := List.length_pos_of_ne_nil hnonempty
      rw [List.mem_singleton.mp hlast, List.length_append]
      omega
    refine ⟨?_, ?_, ?_⟩
    all_goals
      rintro rfl
      simp at hlength

theorem Canonical.cons {front path : String} (hslash : '/' ∉ front.toList)
    (hfront : Names front.toList) (h : Canonical path) : Canonical (front ++ "/" ++ path) := by
  have hchars : (front ++ "/" ++ path).toList = front.toList ++ '/' :: path.toList := by
    simp
  rw [Canonical, hchars, List.splitOn_append_cons_self_of_not_mem hslash]
  intro segment hsegment
  rcases List.mem_cons.mp hsegment with rfl | hsegment
  · exact hfront
  · exact h segment hsegment

theorem Canonical.ne_empty {path : String} (h : Canonical path) : path ≠ "" := by
  rintro rfl
  exact (h [] List.mem_cons_self).1 rfl

theorem Canonical.startsWith_slash {path : String} (h : Canonical path) :
    startsWith path "/" = false := by
  rw [Bool.eq_false_iff]
  intro hslash
  obtain ⟨rest, hrest⟩ := List.isPrefixOf_iff_prefix.mp hslash
  have hsplit : path.toList.splitOn '/' = [] :: rest.splitOn '/' := by
    rw [← hrest]
    exact List.splitOn_append_cons_self_of_not_mem List.not_mem_nil rest
  rw [Canonical, hsplit] at h
  exact (h [] List.mem_cons_self).1 rfl

end Path

namespace Import

open CallAtlas.Text
open CallAtlas.Path (Canonical)

/-- The canonical path of a source file. -/
def IsSourcePath (path : String) : Prop :=
  Canonical path ∧ endsWith path sourceExtension = true

instance : DecidablePred IsSourcePath :=
  fun _ => inferInstanceAs (Decidable (_ ∧ _))

theorem isSourcePath_withExtension {path : String} (h : Canonical path) :
    IsSourcePath (withExtension path) := by
  rw [withExtension]
  split_ifs with hends
  · exact ⟨h, hends⟩
  · refine ⟨h.append (by decide) (by decide), ?_⟩
    rw [endsWith, List.isSuffixOf_iff_suffix, String.toList_append]
    exact List.suffix_append _ _

theorem startsWith_iff {s front : String} :
    startsWith s front = true ↔ front.toList <+: s.toList :=
  List.isPrefixOf_iff_prefix

/-- What is checked of the tables of libraries and of widely used contracts. -/
structure TablesChecked : Prop where
  fronts_apart : ∀ library ∈ libraries, ∀ other ∈ libraries,
    startsWith library.front other.front = true → library = other
  fronts_not_external : ∀ front ∈ externalFronts, ∀ library ∈ libraries,
    startsWith front library.front = false ∧ startsWith library.front front = false
  homes_in_repositories : ∀ entry ∈ wellKnown, ∀ library ∈ libraries,
    ∃ home ∈ entry.2, ¬ library.home.Holds home
  homes_distinct : ∀ entry ∈ wellKnown, (entry.2.map Location.key).Nodup
  homes_canonical : ∀ entry ∈ wellKnown, ∀ home ∈ entry.2, IsSourcePath home.path
  libraries_plain : ∀ library ∈ libraries, (library.home.locate "").Plain
  homes_plain : ∀ entry ∈ wellKnown, ∀ home ∈ entry.2, home.Plain

theorem tables_checked : TablesChecked := by
  have hplain : ∀ entry ∈ wellKnown, ∀ home ∈ entry.2, home.Plain := by decide +kernel
  have hdistinct : ∀ entry ∈ wellKnown, entry.2.Nodup := by decide +kernel
  exact {
    fronts_apart := by decide +kernel
    fronts_not_external := by decide +kernel
    homes_in_repositories := by decide +kernel
    -- plain locations are compared here, not their keys, which are long
    homes_distinct := by
      intro entry hentry
      refine (hdistinct entry hentry).map_on fun l hl m hm => ?_
      exact (Location.key_inj (hplain entry hentry l hl) (hplain entry hentry m hm)).mp
    homes_canonical := by decide +kernel
    libraries_plain := by decide +kernel
    homes_plain := hplain }

/-! ### Libraries -/

/-- What an import has behind the beginning of a library. -/
def Library.remainder (library : Library) (path : String) : String :=
  String.ofList ((clean path).toList.drop library.front.length)

/-- No beginning of a library is one of another. -/
theorem eq_of_fronts {library other : Library} (hlibrary : library ∈ libraries)
    (hother : other ∈ libraries) {s : String} (h : startsWith s library.front = true)
    (h' : startsWith s other.front = true) : library = other := by
  have hapart := tables_checked.fronts_apart
  rcases List.prefix_or_prefix_of_prefix (startsWith_iff.mp h) (startsWith_iff.mp h') with hp | hp
  · exact (hapart other hother library hlibrary (startsWith_iff.mpr hp)).symm
  · exact hapart library hlibrary other hother (startsWith_iff.mpr hp)

theorem libraryOf?_eq_some_iff {path : String} {library : Library} :
    libraryOf? path = some library ↔
      library ∈ libraries ∧ startsWith (clean path) library.front = true := by
  have hfinds : ∀ found, libraryOf? path = some found →
      found ∈ libraries ∧ startsWith (clean path) found.front = true := by
    intro found hfound
    rw [libraryOf?] at hfound
    have hfront := List.find?_some hfound
    exact ⟨List.mem_of_find?_eq_some hfound, hfront⟩
  refine ⟨hfinds library, fun ⟨hmem, hfront⟩ => ?_⟩
  cases hfind : libraryOf? path with
  | none =>
    rw [libraryOf?, List.find?_eq_none] at hfind
    exact absurd hfront (hfind library hmem)
  | some found =>
    obtain ⟨hmem', hfront'⟩ := hfinds found hfind
    rw [eq_of_fronts hmem' hmem hfront' hfront]

theorem libraryLocations_of_unusable {path : String} {library : Library}
    (hlibrary : libraryOf? path = some library)
    (hremainder : normalize? (library.remainder path) = none) : libraryLocations path = [] := by
  rw [libraryLocations, hlibrary]
  dsimp only
  rw [← Library.remainder, hremainder]

theorem libraryLocations_of_usable {path relative : String} {library : Library}
    (hlibrary : libraryOf? path = some library)
    (hremainder : normalize? (library.remainder path) = some relative) :
    libraryLocations path =
      distinct ((if startsWith relative "src/" then [relative] else [relative, "src/" ++ relative]).map
        fun p => library.home.locate (withExtension p)) := by
  rw [libraryLocations, hlibrary]
  dsimp only
  rw [← Library.remainder, hremainder]

theorem libraryLocations_ne_nil {path : String} {library : Library}
    (hlibrary : libraryOf? path = some library)
    (hremainder : normalize? (library.remainder path) ≠ none) : libraryLocations path ≠ [] := by
  obtain ⟨relative, hrelative⟩ := Option.ne_none_iff_exists'.mp hremainder
  rw [libraryLocations_of_usable hlibrary hrelative]
  split_ifs
  all_goals exact List.cons_ne_nil _ _

/-- What is tried in a library is the canonical path of a source file there. -/
theorem of_mem_libraryLocations {path : String} {l : Location} (h : l ∈ libraryLocations path) :
    ∃ library, libraryOf? path = some library ∧ library.home.Holds l ∧ IsSourcePath l.path := by
  cases hlibrary : libraryOf? path with
  | none =>
    rw [libraryLocations, hlibrary] at h
    exact absurd h List.not_mem_nil
  | some library =>
    cases hremainder : normalize? (library.remainder path) with
    | none =>
      rw [libraryLocations_of_unusable hlibrary hremainder] at h
      exact absurd h List.not_mem_nil
    | some relative =>
      have hrelative : Canonical relative := canonical_of_normalize? hremainder
      have hbelow : Canonical ("src" ++ "/" ++ relative) :=
        hrelative.cons (by decide) (by decide)
      rw [libraryLocations_of_usable hlibrary hremainder] at h
      obtain ⟨p, hp, rfl⟩ := List.mem_map.mp (mem_of_mem_keepFirst _ h)
      -- the path below the library, or below its source directory
      have hcanonical : Canonical p := by
        split_ifs at hp
        · rwa [List.mem_singleton.mp hp]
        · rcases List.mem_cons.mp hp with rfl | hp
          · exact hrelative
          · rwa [List.mem_singleton.mp hp]
      exact ⟨library, rfl, library.home.holds_locate _, isSourcePath_withExtension hcanonical⟩

/-- An import that begins like one of a library is not external. -/
theorem classify_of_libraryOf? {path : String} {library : Library}
    (h : libraryOf? path = some library) : classify path = .resolvable := by
  obtain ⟨hmem, hlibrary⟩ := libraryOf?_eq_some_iff.mp h
  rw [classify, if_neg]
  intro hany
  obtain ⟨front, hfront, hexternal⟩ := List.any_eq_true.mp hany
  obtain ⟨hne, hne'⟩ := tables_checked.fronts_not_external front hfront library hmem
  rcases List.prefix_or_prefix_of_prefix (startsWith_iff.mp hexternal)
    (startsWith_iff.mp hlibrary) with hp | hp
  · rw [startsWith_iff.mpr hp] at hne'
    cases hne'
  · rw [startsWith_iff.mpr hp] at hne
    cases hne

theorem libraryLocations_of_external {path : String} (h : classify path = .external) :
    libraryLocations path = [] := by
  cases hlibrary : libraryOf? path with
  | none => rw [libraryLocations, hlibrary]
  | some library =>
    rw [classify_of_libraryOf? hlibrary] at h
    cases h

/-! ### Widely used contracts -/

theorem of_mem_wellKnownLocations {path : String} {l : Location}
    (h : l ∈ wellKnownLocations path) :
    ∃ entry ∈ wellKnown, entry.1 = Path.basename (clean path) ∧ l ∈ entry.2 := by
  rw [wellKnownLocations] at h
  cases hget : wellKnown.get? (Path.basename (clean path)) with
  | none =>
    rw [hget] at h
    exact absurd h List.not_mem_nil
  | some homes =>
    rw [hget] at h
    exact ⟨_, Table.mem_of_get? hget, rfl, h⟩

/-- Widely used contracts are at home in more than one repository. -/
theorem exists_home_outside {path : String} (h : wellKnownLocations path ≠ []) {library : Library}
    (hlibrary : library ∈ libraries) : ∃ l ∈ wellKnownLocations path, ¬ library.home.Holds l := by
  rw [wellKnownLocations] at h ⊢
  cases hget : wellKnown.get? (Path.basename (clean path)) with
  | none =>
    rw [hget] at h
    exact absurd rfl h
  | some homes =>
    exact tables_checked.homes_in_repositories _ (Table.mem_of_get? hget) library hlibrary

theorem nodup_key_wellKnownLocations (path : String) :
    ((wellKnownLocations path).map Location.key).Nodup := by
  rw [wellKnownLocations]
  cases hget : wellKnown.get? (Path.basename (clean path)) with
  | none => exact List.nodup_nil
  | some homes => exact tables_checked.homes_distinct _ (Table.mem_of_get? hget)

/-! ### Files of the importing repository -/

theorem mem_localPaths {path base p : String} :
    p ∈ localPaths path base ↔
      ∃ guess ∈ layoutGuesses path base, ∃ target, normalize? guess = some target ∧
        withExtension target = p := by
  rw [localPaths, mem_keepFirst_id, List.mem_map]
  simp only [List.mem_filterMap]
  constructor
  · rintro ⟨target, ⟨guess, hguess, htarget⟩, rfl⟩
    exact ⟨guess, hguess, target, htarget, rfl⟩
  · rintro ⟨guess, hguess, target, htarget, rfl⟩
    exact ⟨target, ⟨guess, hguess, htarget⟩, rfl⟩

theorem isSourcePath_of_mem_localPaths {path base p : String} (h : p ∈ localPaths path base) :
    IsSourcePath p := by
  obtain ⟨guess, -, target, htarget, rfl⟩ := mem_localPaths.mp h
  exact isSourcePath_withExtension (canonical_of_normalize? htarget)

/-- The guess below the directory of interfaces, which uses nothing but the file's name. -/
theorem interfaces_mem_layoutGuesses (path base : String) :
    "contracts/interfaces/" ++ Path.basename (clean path) ∈ layoutGuesses path base := by
  rw [layoutGuesses_eq]
  apply List.mem_append_right
  exact List.mem_append_right _ List.mem_cons_self

/-- A name below two directories takes back one of them at most. -/
theorem normalize?_interfaces_ne_none {name : String} (hname : '/' ∉ name.toList) :
    normalize? ("contracts/interfaces/" ++ name) ≠ none := by
  have hchars : ("contracts/interfaces/" ++ name).toList =
      "contracts".toList ++ '/' :: ("interfaces".toList ++ '/' :: name.toList) := by
    rw [String.toList_append]
    rfl
  have hsegments : Path.segments ("contracts/interfaces/" ++ name).toList =
      (Path.pushSegment ["interfaces".toList, "contracts".toList] name.toList).reverse := by
    rw [hchars, Path.segments, List.splitOn_append_cons_self_of_not_mem (by decide),
      List.splitOn_append_cons_self_of_not_mem (by decide), List.splitOn_eq_singleton hname]
    rfl
  rw [Ne, normalize?_eq_none_iff, hsegments]
  rcases Path.pushSegment_cases ["interfaces".toList, "contracts".toList] name.toList with
    ⟨-, heq⟩ | ⟨-, heq⟩ | ⟨-, hbottom, -⟩ | ⟨-, top, -, heq⟩
  · rw [heq]
    decide
  · rw [heq, List.reverse_cons]
    simp
  · exact absurd hbottom (by decide)
  · -- a double dot takes back `interfaces`, and `contracts` remains
    rw [← (List.cons.inj heq).2]
    decide

theorem localPaths_ne_nil (path base : String) : localPaths path base ≠ [] := by
  have hname : '/' ∉ (Path.basename (clean path)).toList := by
    rw [Path.basename, String.toList_ofList]
    exact Path.notMem_afterLast '/' _
  obtain ⟨target, htarget⟩ :=
    Option.ne_none_iff_exists'.mp (normalize?_interfaces_ne_none hname)
  exact List.ne_nil_of_mem
    (mem_localPaths.mpr ⟨_, interfaces_mem_layoutGuesses path base, target, htarget, rfl⟩)

/-! ### All candidates -/

theorem candidates_cases (path : String) (coords : Option Coords) :
    libraryLocations path ≠ [] ∧ candidates path coords = libraryLocations path ∨
      libraryLocations path = [] ∧ (classify path = .external ∨ coords = none) ∧
        candidates path coords = [] ∨
      libraryLocations path = [] ∧ classify path = .resolvable ∧ ∃ c, coords = some c ∧
        candidates path coords =
          distinct (wellKnownLocations path ++ (localPaths path c.base).map c.locate) := by
  -- the match is split by hand, without evaluating what it is on
  unfold candidates
  generalize libraryLocations path = mapped
  generalize classify path = kind
  cases mapped with
  | cons first rest => exact .inl ⟨List.cons_ne_nil _ _, rfl⟩
  | nil =>
    cases kind with
    | external => exact .inr (.inl ⟨rfl, .inl rfl, rfl⟩)
    | resolvable =>
      cases coords with
      | none => exact .inr (.inl ⟨rfl, .inr rfl, rfl⟩)
      | some c => exact .inr (.inr ⟨rfl, rfl, c, rfl, rfl⟩)

/-- Outside the libraries the homes of a widely used contract come first, and then files of the
importing repository; there is something to try in any case. -/
theorem exists_own (path : String) (c : Coords) :
    ∃ own, distinct (wellKnownLocations path ++ (localPaths path c.base).map c.locate) =
        wellKnownLocations path ++ own ∧
      (∀ l ∈ own, c.Holds l ∧ IsSourcePath l.path) ∧ (wellKnownLocations path = [] → own ≠ []) := by
  refine ⟨(distinct ((localPaths path c.base).map c.locate)).filter
    fun l => l.key ∉ (wellKnownLocations path).map Location.key, ?_, ?_, ?_⟩
  · rw [distinct, keepFirst_append, keepFirst_eq_self _ (nodup_key_wellKnownLocations path),
      distinct]
  · intro l hl
    obtain ⟨p, hp, rfl⟩ := List.mem_map.mp (mem_of_mem_keepFirst _ (List.mem_filter.mp hl).1)
    exact ⟨c.holds_locate p, isSourcePath_of_mem_localPaths hp⟩
  · intro hnone
    -- without such homes the first local path stays
    obtain ⟨first, rest, hlocal⟩ := List.exists_cons_of_ne_nil (localPaths_ne_nil path c.base)
    rw [hnone, hlocal, List.map_cons, distinct, keepFirst, List.filter_cons_of_pos]
    · exact List.cons_ne_nil _ _
    · rfl

/-- What is tried is the canonical path of a source file. -/
theorem isSourcePath_of_mem_candidates {path : String} {coords : Option Coords} {l : Location}
    (h : l ∈ candidates path coords) : IsSourcePath l.path := by
  rcases candidates_cases path coords with ⟨-, heq⟩ | ⟨-, -, heq⟩ | ⟨-, -, c, -, heq⟩
  · rw [heq] at h
    obtain ⟨library, -, -, hpath⟩ := of_mem_libraryLocations h
    exact hpath
  · rw [heq] at h
    exact absurd h List.not_mem_nil
  · obtain ⟨own, hown, hholds, -⟩ := exists_own path c
    rw [heq, hown] at h
    rcases List.mem_append.mp h with h | h
    · obtain ⟨entry, hentry, -, hmem⟩ := of_mem_wellKnownLocations h
      exact tables_checked.homes_canonical entry hentry l hmem
    · exact (hholds l h).2

theorem nodup_key_candidates (path : String) (coords : Option Coords) :
    ((candidates path coords).map Location.key).Nodup := by
  rcases candidates_cases path coords with ⟨-, heq⟩ | ⟨-, -, heq⟩ | ⟨-, -, c, -, heq⟩
  · rw [heq, libraryLocations]
    split
    · exact List.nodup_nil
    · split
      · exact List.nodup_nil
      · exact nodup_map_keepFirst _ _
  · rw [heq]
    exact List.nodup_nil
  · rw [heq]
    exact nodup_map_keepFirst _ _

theorem candidates_eq_nil_iff {path : String} {coords : Option Coords} :
    candidates path coords = [] ↔
      libraryLocations path = [] ∧ (classify path = .external ∨ coords = none) := by
  rcases candidates_cases path coords with ⟨hne, heq⟩ | ⟨hnil, hwhy, heq⟩ | ⟨hnil, hclass, c, rfl, heq⟩
  · rw [heq]
    exact iff_of_false hne fun h => hne h.1
  · exact iff_of_true heq ⟨hnil, hwhy⟩
  · obtain ⟨own, hown, -, hne⟩ := exists_own path c
    rw [heq, hown, hclass, List.append_eq_nil_iff]
    refine iff_of_false (fun h => hne h.1 h.2) fun h => ?_
    rcases h.2 with hexternal | hnone
    · cases hexternal
    · cases hnone

/-- **What every list of candidates looks like.**  No two have the same key, and each is the
canonical path of a source file.  All are files of the library that the import names, or the homes
of a widely used contract come first and the rest is in the importing repository.  The list is empty
just for imports that no library answers and that are external or have no repository to look in. -/
theorem candidates_canonical (path : String) (coords : Option Coords) :
    ((candidates path coords).map Location.key).Nodup ∧
      (∀ l ∈ candidates path coords, l.path ≠ "" ∧ Canonical l.path ∧
        startsWith l.path "/" = false ∧ endsWith l.path sourceExtension = true) ∧
      (candidates path coords = libraryLocations path ∨
        ∃ c own, coords = some c ∧ candidates path coords = wellKnownLocations path ++ own ∧
          ∀ l ∈ own, c.Holds l) ∧
      (∀ l ∈ libraryLocations path, ∃ library ∈ libraries,
        startsWith (clean path) library.front = true ∧ library.home.Holds l) ∧
      (∀ l ∈ wellKnownLocations path, ∃ entry ∈ wellKnown,
        entry.1 = Path.basename (clean path) ∧ l ∈ entry.2) ∧
      (candidates path coords = [] ↔
        libraryLocations path = [] ∧ (classify path = .external ∨ coords = none)) ∧
      (classify path = .external → candidates path coords = []) ∧
      (classify path = .resolvable → coords ≠ none → candidates path coords ≠ []) := by
  refine ⟨nodup_key_candidates path coords, ?_, ?_, ?_, fun l => of_mem_wellKnownLocations,
    candidates_eq_nil_iff, ?_, ?_⟩
  · intro l hl
    obtain ⟨hcanonical, hends⟩ := isSourcePath_of_mem_candidates hl
    exact ⟨hcanonical.ne_empty, hcanonical, hcanonical.startsWith_slash, hends⟩
  · -- by where the candidates come from
    rcases candidates_cases path coords with ⟨-, heq⟩ | ⟨hnil, -, heq⟩ | ⟨-, -, c, hc, heq⟩
    · exact .inl heq
    · exact .inl (heq.trans hnil.symm)
    · obtain ⟨own, hown, hholds, -⟩ := exists_own path c
      exact .inr ⟨c, own, hc, heq.trans hown, fun l hl => (hholds l hl).1⟩
  · intro l hl
    obtain ⟨library, hlibrary, hholds, -⟩ := of_mem_libraryLocations hl
    obtain ⟨hmem, hfront⟩ := libraryOf?_eq_some_iff.mp hlibrary
    exact ⟨library, hmem, hfront, hholds⟩
  · intro hexternal
    exact candidates_eq_nil_iff.mpr ⟨libraryLocations_of_external hexternal, .inl hexternal⟩
  · -- an empty list would need an external import or no repository
    intro hclass hcoords hnil
    rcases (candidates_eq_nil_iff.mp hnil).2 with hexternal | hnone
    · rw [hclass] at hexternal
      cases hexternal
    · exact hcoords hnone

/-- An import with blanks, quotes and spare segments. -/
def messyImport : String := " '..//x/./../ERC20.sol' "

/-- Coordinates whose directory is not canonical. -/
def messyCoords : Coords := ⟨"acme", "vault", "main", "contracts//./core/"⟩

/-- What is tried for the messy import is canonical, and the homes of its contract come first.  For
an external import nothing is tried. -/
theorem candidates_canonical_messyImport :
    candidates messyImport (some messyCoords) =
        [openZeppelin "contracts/token/ERC20/ERC20.sol", solmate "src/tokens/ERC20.sol",
          messyCoords.locate "contracts/ERC20.sol", messyCoords.locate "ERC20.sol",
          messyCoords.locate "contracts/interfaces/ERC20.sol",
          messyCoords.locate "contracts/utils/ERC20.sol"] ∧
      (∀ l ∈ candidates messyImport (some messyCoords), l.path ≠ "" ∧ Canonical l.path ∧
        startsWith l.path "/" = false ∧ endsWith l.path sourceExtension = true) ∧
      classify messyImport = .resolvable ∧ candidates messyImport (some messyCoords) ≠ [] ∧
      classify "ipfs://ERC20.sol" = .external ∧
      candidates "ipfs://ERC20.sol" (some messyCoords) = [] := by
  have hlist : candidates messyImport (some messyCoords) =
      [openZeppelin "contracts/token/ERC20/ERC20.sol", solmate "src/tokens/ERC20.sol",
        messyCoords.locate "contracts/ERC20.sol", messyCoords.locate "ERC20.sol",
        messyCoords.locate "contracts/interfaces/ERC20.sol",
        messyCoords.locate "contracts/utils/ERC20.sol"] := by decide +kernel
  have hclass : classify messyImport = .resolvable := by decide +kernel
  have hexternal : classify "ipfs://ERC20.sol" = .external := by decide +kernel
  obtain ⟨-, hpaths, -, -, -, -, -, hne⟩ := candidates_canonical messyImport (some messyCoords)
  obtain ⟨-, -, -, -, -, -, hnil, -⟩ :=
    candidates_canonical "ipfs://ERC20.sol" (some messyCoords)
  exact ⟨hlist, hpaths, hclass, hne hclass (Option.some_ne_none _), hexternal, hnil hexternal⟩

/-! ### Imports of libraries -/

section

variable {path : String} {library : Library} (hlibrary : libraryOf? path = some library)

include hlibrary

theorem candidates_of_usable (hremainder : normalize? (library.remainder path) ≠ none)
    (coords : Option Coords) : candidates path coords = libraryLocations path := by
  have hne := libraryLocations_ne_nil hlibrary hremainder
  rcases candidates_cases path coords with ⟨-, heq⟩ | ⟨hnil, -⟩ | ⟨hnil, -⟩
  · exact heq
  · exact absurd hnil hne
  · exact absurd hnil hne

theorem candidates_of_unusable (hremainder : normalize? (library.remainder path) = none)
    (c : Coords) :
    candidates path (some c) =
      distinct (wellKnownLocations path ++ (localPaths path c.base).map c.locate) := by
  have hnil := libraryLocations_of_unusable hlibrary hremainder
  rcases candidates_cases path (some c) with ⟨hne, -⟩ | ⟨-, hwhy, -⟩ | ⟨-, -, c', hc, heq⟩
  · exact absurd hnil hne
  · rcases hwhy with hexternal | hnone
    · rw [classify_of_libraryOf? hlibrary] at hexternal
      cases hexternal
    · cases hnone
  · obtain rfl := Option.some.inj hc
    exact heq

theorem holds_of_mem_libraryLocations {l : Location} (h : l ∈ libraryLocations path) :
    library.home.Holds l := by
  obtain ⟨other, hother, hholds, -⟩ := of_mem_libraryLocations h
  rw [hlibrary] at hother
  rwa [Option.some.inj hother]

/-- What is tried for an import that no path inside the library follows stays in the library only if
the importing repository is that of the library, and no widely used contract has the same name. -/
theorem forall_holds_of_unusable (hremainder : normalize? (library.remainder path) = none)
    (c : Coords) :
    (∀ l ∈ candidates path (some c), library.home.Holds l) ↔
      wellKnownLocations path = [] ∧ ∀ p, library.home.Holds (c.locate p) := by
  obtain ⟨own, hown, hholds, hne⟩ := exists_own path c
  rw [candidates_of_unusable hlibrary hremainder, hown]
  constructor
  · intro hall
    -- a widely used contract has a home outside the library
    have hnone : wellKnownLocations path = [] := by
      by_contra hsome
      obtain ⟨home, hhome, houtside⟩ :=
        exists_home_outside hsome (libraryOf?_eq_some_iff.mp hlibrary).1
      exact houtside (hall home (List.mem_append_left _ hhome))
    obtain ⟨l, hl⟩ := List.exists_mem_of_ne_nil _ (hne hnone)
    exact ⟨hnone, (hholds l hl).1.locate (hall l (List.mem_append_right _ hl))⟩
  · rintro ⟨hnone, hsame⟩ l hl
    rw [hnone, List.nil_append] at hl
    exact (hholds l hl).1.trans (hsame "")

end

/-- **When an import of a library stays in the library.**  What follows the library's beginning has
to be a path inside the library; then the import is looked for there and nowhere else.  If it is
none, the import counts as one of the importing repository, as long as there is one. -/
theorem candidates_of_library {path : String} {library : Library} (hmem : library ∈ libraries)
    (hfront : startsWith (clean path) library.front = true) (coords : Option Coords) :
    ((∀ l ∈ candidates path coords, library.home.Holds l) ↔
        normalize? (library.remainder path) ≠ none ∨ coords = none ∨
          wellKnownLocations path = [] ∧
            ∃ c, coords = some c ∧ ∀ p, library.home.Holds (c.locate p)) ∧
      (candidates path coords = libraryLocations path ↔
        normalize? (library.remainder path) ≠ none ∨ coords = none) ∧
      (candidates path coords = [] ↔
        normalize? (library.remainder path) = none ∧ coords = none) := by
  have hlibrary : libraryOf? path = some library := libraryOf?_eq_some_iff.mpr ⟨hmem, hfront⟩
  by_cases hremainder : normalize? (library.remainder path) = none
  · -- the library has nothing to try, and the import is treated like any other
    have hnil := libraryLocations_of_unusable hlibrary hremainder
    cases coords with
    | none =>
      have hempty : candidates path none = [] :=
        candidates_eq_nil_iff.mpr ⟨hnil, .inr rfl⟩
      simp [hempty, hnil, hremainder]
    | some c =>
      have hne : candidates path (some c) ≠ [] := by
        intro hempty
        rcases (candidates_eq_nil_iff.mp hempty).2 with hexternal | hnone
        · rw [classify_of_libraryOf? hlibrary] at hexternal
          cases hexternal
        · cases hnone
      rw [forall_holds_of_unusable hlibrary hremainder, hnil]
      simp [hremainder, hne]
  · have heq := candidates_of_usable hlibrary hremainder coords
    have hne := libraryLocations_ne_nil hlibrary hremainder
    rw [heq]
    refine ⟨iff_of_true (fun l => holds_of_mem_libraryLocations hlibrary) (.inl hremainder),
      iff_of_true rfl (.inl hremainder), iff_of_false hne fun h => hremainder h.1⟩

/-- The `solmate` library. -/
def solmateLibrary : Library := ⟨"solmate/", ⟨"transmissions11", "solmate", "main", ""⟩⟩

/-- Coordinates of a repository that is no library. -/
def vaultCoords : Coords := ⟨"acme", "vault", "main", "contracts"⟩

/-- The import `solmate/tokens/ERC20.sol` stays in its library.  The import `solmate/../Vault.sol`
leaves it, and files of the importing repository are tried. -/
theorem candidates_of_library_solmate :
    solmateLibrary ∈ libraries ∧
      (startsWith (clean "solmate/tokens/ERC20.sol") solmateLibrary.front = true ∧
        ∀ l ∈ candidates "solmate/tokens/ERC20.sol" (some vaultCoords),
          solmateLibrary.home.Holds l) ∧
      startsWith (clean "solmate/../Vault.sol") solmateLibrary.front = true ∧
      normalize? (solmateLibrary.remainder "solmate/../Vault.sol") = none ∧
      libraryLocations "solmate/../Vault.sol" = [] ∧
      vaultCoords.locate "contracts/Vault.sol" ∈
        candidates "solmate/../Vault.sol" (some vaultCoords) ∧
      (¬ ∀ l ∈ candidates "solmate/../Vault.sol" (some vaultCoords),
        solmateLibrary.home.Holds l) ∧
      candidates "solmate/../Vault.sol" (some vaultCoords) ≠
        libraryLocations "solmate/../Vault.sol" := by
  have hmem : solmateLibrary ∈ libraries := by decide +kernel
  have hinside : startsWith (clean "solmate/tokens/ERC20.sol") solmateLibrary.front = true := by
    decide +kernel
  have husable : normalize? (solmateLibrary.remainder "solmate/tokens/ERC20.sol") ≠ none := by
    decide +kernel
  have houtside : startsWith (clean "solmate/../Vault.sol") solmateLibrary.front = true := by
    decide +kernel
  have hnone : normalize? (solmateLibrary.remainder "solmate/../Vault.sol") = none := by
    decide +kernel
  have htried : vaultCoords.locate "contracts/Vault.sol" ∈
      candidates "solmate/../Vault.sol" (some vaultCoords) := by decide +kernel
  have hstays := (candidates_of_library hmem hinside (some vaultCoords)).1
  obtain ⟨hleaves, hmapped, -⟩ := candidates_of_library hmem houtside (some vaultCoords)
  refine ⟨hmem, ⟨hinside, hstays.mpr (.inl husable)⟩, houtside, hnone,
    libraryLocations_of_unusable (libraryOf?_eq_some_iff.mpr ⟨hmem, houtside⟩) hnone, htried, ?_, ?_⟩
  · intro hall
    -- the remainder has no canonical form, and the repositories differ
    rcases hleaves.mp hall with hsome | hcoords | ⟨-, c, hc, hsame⟩
    · exact hsome hnone
    · cases hcoords
    · obtain rfl := Option.some.inj hc
      exact absurd (hsame "") (by decide +kernel)
  · intro heq
    rcases hmapped.mp heq with hsome | hcoords
    · exact hsome hnone
    · cases hcoords

end Import

end CallAtlas

import CallAtlas.Import.Candidates
import CallAtlas.Proofs.Ordered
import Mathlib.Data.List.Basic

/-!
# Canonical paths

A path is canonical if every segment between its slashes names something: none is empty, a dot or a
double dot.  A path is brought into this form by a stack of segments, on which a double dot takes
back the segment before it.  Two stacks are in use.  One keeps the double dots that leave the root,
so that they can be told at its bottom; the other passes over them.  They differ only once a double
dot is kept, and what is kept stays.

* `Path.Reduced stack`: what the stack that keeps double dots looks like.
* `normalize?_eq_self_iff`: the canonical paths are those that normalisation leaves alone.
* `foldl_stepRelative`: both stacks agree as long as no double dot is kept.
* `relative_paths_agree`: walking from a directory and normalising the joined path lead to the same
  place, so the guess that walks is new only where the joined path has no canonical form.
-/

namespace CallAtlas

/-! ### Segments -/

namespace Path

/-- Whether a segment names something: it is neither empty nor a dot nor a double dot. -/
def Names (segment : List Char) : Prop :=
  segment ≠ [] ∧ segment ≠ ['.'] ∧ segment ≠ ['.', '.']

instance : DecidablePred Names :=
  fun _ => inferInstanceAs (Decidable (_ ∧ _ ∧ _))

/-- Whether every segment of a path names something. -/
def Canonical (path : String) : Prop :=
  ∀ segment ∈ path.toList.splitOn '/', Names segment

instance : DecidablePred Canonical :=
  fun path => inferInstanceAs (Decidable (∀ segment ∈ path.toList.splitOn '/', Names segment))

theorem notMem_of_mem_splitOn {sep : Char} {s segment : List Char} (h : segment ∈ s.splitOn sep) :
    sep ∉ segment := by
  induction s generalizing segment with
  | nil =>
    rw [List.splitOn_nil, List.mem_singleton] at h
    rw [h]
    exact List.not_mem_nil
  | cons c s ih =>
    rw [List.splitOn_cons_eq_if_modifyHead] at h
    split_ifs at h with hc
    · rcases List.mem_cons.mp h with rfl | h
      · exact List.not_mem_nil
      · exact ih h
    · obtain ⟨first, rest, hs⟩ := List.exists_cons_of_ne_nil (List.splitOn_ne_nil sep s)
      rw [hs, List.modifyHead_cons, List.mem_cons] at h
      rcases h with rfl | h
      · -- the first piece gets `c` in front, which is no separator
        rw [List.mem_cons, not_or]
        refine ⟨fun heq => hc (beq_iff_eq.mpr heq.symm), ih ?_⟩
        rw [hs]
        exact List.mem_cons_self
      · apply ih
        rw [hs]
        exact List.mem_cons_of_mem first h

variable {stack : List (List Char)} {segment : List Char}

/-- What one segment does to the stack. -/
theorem pushSegment_cases (stack : List (List Char)) (segment : List Char) :
    (segment = [] ∨ segment = ['.']) ∧ pushSegment stack segment = stack ∨
      Names segment ∧ pushSegment stack segment = segment :: stack ∨
      segment = ['.', '.'] ∧ (stack = [] ∨ ['.', '.'] ∈ stack) ∧
        pushSegment stack segment = segment :: stack ∨
      segment = ['.', '.'] ∧ ∃ top, top ≠ ['.', '.'] ∧ stack = top :: pushSegment stack segment := by
  by_cases hskip : segment = [] ∨ segment = ['.']
  · refine .inl ⟨hskip, ?_⟩
    unfold pushSegment
    rw [if_pos (by simpa using hskip)]
  have hskip' : ¬ (decide (segment = []) || decide (segment = ['.'])) = true := by simpa using hskip
  by_cases hup : segment = ['.', '.']
  · refine .inr (.inr ?_)
    -- a step up takes away the top, unless the top is itself a step up
    cases stack with
    | nil =>
      refine .inl ⟨hup, .inl rfl, ?_⟩
      rw [pushSegment, if_neg hskip', if_pos hup]
    | cons top below =>
      by_cases htop : top = ['.', '.']
      · refine .inl ⟨hup, .inr (htop ▸ List.mem_cons_self), ?_⟩
        rw [pushSegment, if_neg hskip', if_pos hup]
        exact if_pos htop
      · refine .inr ⟨hup, top, htop, ?_⟩
        rw [pushSegment, if_neg hskip', if_pos hup]
        exact congrArg (top :: ·) (if_neg htop).symm
  · -- every other segment is a name
    refine .inr (.inl ⟨⟨fun h => hskip (.inl h), fun h => hskip (.inr h), hup⟩, ?_⟩)
    unfold pushSegment
    rw [if_neg hskip', if_neg hup]

theorem pushSegment_of_names (h : Names segment) (stack : List (List Char)) :
    pushSegment stack segment = segment :: stack := by
  obtain ⟨hne, hdot, hup⟩ := h
  simp [pushSegment, hne, hdot, hup]

theorem foldl_pushSegment_of_names {segments : List (List Char)} (h : ∀ s ∈ segments, Names s)
    (stack : List (List Char)) : segments.foldl pushSegment stack = segments.reverse ++ stack := by
  induction segments generalizing stack with
  | nil => rfl
  | cons s segments ih =>
    rw [List.foldl_cons, pushSegment_of_names (h s List.mem_cons_self),
      ih fun t ht => h t (List.mem_cons_of_mem s ht), List.reverse_cons, List.append_assoc,
      List.singleton_append]

theorem mem_of_mem_pushSegment {x : List Char} (h : x ∈ pushSegment stack segment) :
    x ∈ segment :: stack := by
  rcases pushSegment_cases stack segment with ⟨-, heq⟩ | ⟨-, heq⟩ | ⟨-, -, heq⟩ | ⟨-, top, -, heq⟩
  · rw [heq] at h
    exact List.mem_cons_of_mem _ h
  · rwa [heq] at h
  · rwa [heq] at h
  · rw [heq]
    exact List.mem_cons_of_mem _ (List.mem_cons_of_mem _ h)

theorem mem_of_mem_foldl_pushSegment {segments : List (List Char)} {x : List Char}
    (h : x ∈ segments.foldl pushSegment stack) : x ∈ stack ∨ x ∈ segments := by
  induction segments generalizing stack with
  | nil => exact .inl h
  | cons s segments ih =>
    rcases ih h with h | h
    · rcases List.mem_cons.mp (mem_of_mem_pushSegment h) with rfl | h
      · exact .inr List.mem_cons_self
      · exact .inl h
    · exact .inr (List.mem_cons_of_mem s h)

/-! ### Double dots that are kept -/

/-- A double dot that is kept stays. -/
theorem climb_mem_pushSegment (h : ['.', '.'] ∈ stack) (segment : List Char) :
    ['.', '.'] ∈ pushSegment stack segment := by
  rcases pushSegment_cases stack segment with ⟨-, heq⟩ | ⟨-, heq⟩ | ⟨-, -, heq⟩ | ⟨-, top, htop, heq⟩
  · rwa [heq]
  · rw [heq]
    exact List.mem_cons_of_mem _ h
  · rw [heq]
    exact List.mem_cons_of_mem _ h
  · rw [heq] at h
    exact (List.mem_cons.mp h).resolve_left (Ne.symm htop)

theorem climb_mem_foldl_pushSegment (h : ['.', '.'] ∈ stack) (segments : List (List Char)) :
    ['.', '.'] ∈ segments.foldl pushSegment stack := by
  induction segments generalizing stack with
  | nil => exact h
  | cons s segments ih => exact ih (climb_mem_pushSegment h s)

/-- What a stack looks like: its members name something or are double dots, and if there is a double
dot, then one lies at the bottom. -/
structure Reduced (stack : List (List Char)) : Prop where
  names_or_climbs : ∀ s ∈ stack, Names s ∨ s = ['.', '.']
  climbs_at_bottom : ['.', '.'] ∈ stack → stack.getLast? = some ['.', '.']

namespace Reduced

theorem nil : Reduced [] where
  names_or_climbs := nofun
  climbs_at_bottom := nofun

theorem cons {s : List Char} (h : Reduced stack) (hs : Names s ∨ s = ['.', '.'])
    (hbottom : s = ['.', '.'] → stack = [] ∨ ['.', '.'] ∈ stack) : Reduced (s :: stack) where
  names_or_climbs := by
    intro t ht
    rcases List.mem_cons.mp ht with rfl | ht
    · exact hs
    · exact h.names_or_climbs t ht
  climbs_at_bottom hmem := by
    by_cases hbelow : ['.', '.'] ∈ stack
    · rw [List.getLast?_cons, h.climbs_at_bottom hbelow, Option.getD_some]
    · have hself : s = ['.', '.'] := ((List.mem_cons.mp hmem).resolve_right hbelow).symm
      rw [(hbottom hself).resolve_right hbelow, hself]
      rfl

theorem tail {top : List Char} {below : List (List Char)} (h : Reduced (top :: below)) :
    Reduced below where
  names_or_climbs s hs := h.names_or_climbs s (List.mem_cons_of_mem top hs)
  climbs_at_bottom hmem := by
    have hlast := h.climbs_at_bottom (List.mem_cons_of_mem top hmem)
    obtain ⟨first, rest, rfl⟩ := List.exists_cons_of_ne_nil (List.ne_nil_of_mem hmem)
    rwa [List.getLast?_cons_cons] at hlast

theorem push (h : Reduced stack) (segment : List Char) : Reduced (pushSegment stack segment) := by
  rcases pushSegment_cases stack segment with
    ⟨-, heq⟩ | ⟨hnames, heq⟩ | ⟨hup, hbottom, heq⟩ | ⟨-, top, -, heq⟩
  · rwa [heq]
  · rw [heq]
    exact h.cons (.inl hnames) fun hup => absurd hup hnames.2.2
  · rw [heq]
    exact h.cons (.inr hup) fun _ => hbottom
  · rw [heq] at h
    exact h.tail

theorem foldl (h : Reduced stack) (segments : List (List Char)) :
    Reduced (segments.foldl pushSegment stack) := by
  induction segments generalizing stack with
  | nil => exact h
  | cons s segments ih => exact ih (h.push s)

end Reduced

/-- A path that does not begin with a double dot once it is reduced has only names. -/
theorem names_of_mem_segments {path : List Char}
    (h : (segments path).head? ≠ some ['.', '.']) : ∀ s ∈ segments path, Names s := by
  have hreduced := Reduced.nil.foldl (path.splitOn '/')
  intro s hs
  have hmem : s ∈ (path.splitOn '/').foldl pushSegment [] := List.mem_reverse.mp hs
  rcases hreduced.names_or_climbs s hmem with hnames | rfl
  · exact hnames
  · -- the bottom of the stack is the head of the segments
    rw [segments, List.head?_reverse] at h
    exact absurd (hreduced.climbs_at_bottom hmem) h

theorem slash_notMem_of_mem_segments {path s : List Char} (h : s ∈ segments path) : '/' ∉ s := by
  rcases mem_of_mem_foldl_pushSegment (List.mem_reverse.mp h) with hnil | hmem
  · exact absurd hnil List.not_mem_nil
  · exact notMem_of_mem_splitOn hmem

end Path

/-! ### Normalisation -/

namespace Import

open CallAtlas.Text
open CallAtlas.Path (Canonical Names pushSegment segments)

theorem normalize?_eq_none_iff {path : String} :
    normalize? path = none ↔
      segments path.toList = [] ∨ (segments path.toList).head? = some ['.', '.'] := by
  rw [normalize?]
  split_ifs with hbad
  · simpa using hbad
  · simpa using hbad

theorem normalize?_eq_some_iff {path target : String} :
    normalize? path = some target ↔
      segments path.toList ≠ [] ∧ (∀ s ∈ segments path.toList, Names s) ∧
        target.toList = ['/'].intercalate (segments path.toList) := by
  rw [normalize?]
  constructor
  · intro h
    split_ifs at h with hbad
    simp only [Bool.or_eq_true, decide_eq_true_eq, not_or] at hbad
    refine ⟨hbad.1, Path.names_of_mem_segments hbad.2, ?_⟩
    rw [← Option.some.inj h, String.toList_ofList]
  · rintro ⟨hne, hnames, htarget⟩
    have hhead : (segments path.toList).head? ≠ some ['.', '.'] :=
      fun h => (hnames _ (List.mem_of_head? h)).2.2 rfl
    rw [if_neg, ← htarget, String.ofList_toList]
    simp only [Bool.or_eq_true, decide_eq_true_eq, not_or]
    exact ⟨hne, hhead⟩

theorem splitOn_of_normalize? {path target : String} (h : normalize? path = some target) :
    target.toList.splitOn '/' = segments path.toList := by
  obtain ⟨hne, -, htarget⟩ := normalize?_eq_some_iff.mp h
  rw [htarget]
  exact List.splitOn_intercalate '/' (fun s => Path.slash_notMem_of_mem_segments) hne

theorem canonical_of_normalize? {path target : String} (h : normalize? path = some target) :
    Canonical target := by
  rw [Canonical, splitOn_of_normalize? h]
  exact (normalize?_eq_some_iff.mp h).2.1

/-- The canonical paths are those that normalisation leaves alone. -/
theorem normalize?_eq_self_iff {path : String} : normalize? path = some path ↔ Canonical path := by
  refine ⟨canonical_of_normalize?, fun h => ?_⟩
  have hsegments : segments path.toList = path.toList.splitOn '/' := by
    rw [segments, Path.foldl_pushSegment_of_names h, List.append_nil, List.reverse_reverse]
  rw [normalize?_eq_some_iff, hsegments]
  exact ⟨List.splitOn_ne_nil '/' _, h, (List.intercalate_splitOn '/').symm⟩

/-! ### Walking from a directory -/

/-- Both stacks do the same with a segment, unless a double dot is kept. -/
theorem stepRelative_eq_pushSegment {stack : List (List Char)} {segment : List Char}
    (h : ['.', '.'] ∉ pushSegment stack segment) :
    stepRelative stack segment = pushSegment stack segment := by
  rcases Path.pushSegment_cases stack segment with
    ⟨hskip, heq⟩ | ⟨hnames, heq⟩ | ⟨hup, -, heq⟩ | ⟨hup, top, -, heq⟩
  · rw [heq]
    rcases hskip with rfl | rfl
    · rfl
    · rfl
  · obtain ⟨hne, hdot, hup⟩ := hnames
    rw [heq, stepRelative, if_neg hup, if_neg]
    simp [hne, hdot]
  · refine absurd ?_ h
    rw [heq, hup]
    exact List.mem_cons_self
  · rw [stepRelative, if_pos hup]
    exact congrArg List.tail heq

theorem foldl_stepRelative {stack segments : List (List Char)}
    (h : ['.', '.'] ∉ segments.foldl pushSegment stack) :
    segments.foldl stepRelative stack = segments.foldl pushSegment stack := by
  induction segments generalizing stack with
  | nil => rfl
  | cons s segments ih =>
    -- a double dot kept now would be kept to the end
    have hnow : ['.', '.'] ∉ pushSegment stack s :=
      fun hmem => h (Path.climb_mem_foldl_pushSegment hmem segments)
    rw [List.foldl_cons, List.foldl_cons, stepRelative_eq_pushSegment hnow]
    exact ih h

/-- The path that `relative` makes in the directory `base`; the root of a repository is the empty
path. -/
def joined (base relative : String) : String :=
  if base = "" then relative else base ++ "/" ++ relative

section

variable {base : String}

/-- The segments of a canonical directory, or none at the root, are where both stacks start. -/
theorem foldl_pushSegment_base (hbase : base = "" ∨ Canonical base) :
    (base.toList.splitOn '/').foldl pushSegment [] =
      ((base.toList.splitOn '/').filter (!·.isEmpty)).reverse := by
  rcases hbase with rfl | hbase
  · rfl
  · have hall : (base.toList.splitOn '/').filter (!·.isEmpty) = base.toList.splitOn '/' := by
      rw [List.filter_eq_self]
      intro s hs
      rw [Bool.not_eq_true', List.isEmpty_eq_false_iff]
      exact (hbase s hs).1
    rw [hall, Path.foldl_pushSegment_of_names hbase, List.append_nil]

theorem segments_joined (hbase : base = "" ∨ Canonical base) (relative : String) :
    segments (joined base relative).toList =
      ((relative.toList.splitOn '/').foldl pushSegment
        ((base.toList.splitOn '/').filter (!·.isEmpty)).reverse).reverse := by
  rw [joined]
  split_ifs with hroot
  · rw [hroot]
    rfl
  · have hchars : (base ++ "/" ++ relative).toList = base.toList ++ '/' :: relative.toList := by
      simp
    rw [hchars, segments, List.splitOn_append_cons_self, List.foldl_append,
      foldl_pushSegment_base hbase]

/-- Walking from a directory leads where the joined path points, if that is below the root. -/
theorem resolveRelative_of_normalize? (hbase : base = "" ∨ Canonical base)
    {relative target : String} (h : normalize? (joined base relative) = some target) :
    resolveRelative relative base = target := by
  rw [normalize?_eq_some_iff, segments_joined hbase] at h
  obtain ⟨-, hnames, htarget⟩ := h
  have hclimb : ['.', '.'] ∉ (relative.toList.splitOn '/').foldl pushSegment
      ((base.toList.splitOn '/').filter (!·.isEmpty)).reverse :=
    fun hmem => (hnames _ (List.mem_reverse.mpr hmem)).2.2 rfl
  rw [resolveRelative, foldl_stepRelative hclimb, ← htarget, String.ofList_toList]

end

/-! ### The guess that walks -/

/-- The guesses in front of the one that walks from the directory. -/
def guessesBefore (path base : String) : List String :=
  let path := clean path
  [joined base path, path, "contracts/" ++ path, "src/" ++ path, "lib/" ++ path] ++
    (if startsWith path "./" then [String.ofList (path.toList.drop 2)] else [])

/-- The guess that walks from the directory, for an import that leaves it. -/
def guessByWalking (path base : String) : List String :=
  if startsWith (clean path) "../" then [resolveRelative (clean path) base] else []

/-- The guesses behind the one that walks from the directory. -/
def guessesBehind (path : String) : List String :=
  let path := clean path
  let name := Path.basename path
  (if startsWith path "contracts/" then [] else ["contracts/" ++ path]) ++
    ["contracts/interfaces/" ++ name, "contracts/utils/" ++ name]

theorem joined_mem_guessesBefore (path base : String) :
    joined base (clean path) ∈ guessesBefore path base :=
  List.mem_append_left _ List.mem_cons_self

theorem layoutGuesses_eq (path base : String) :
    layoutGuesses path base =
      guessesBefore path base ++ guessByWalking path base ++ guessesBehind path := by
  simp only [layoutGuesses, guessesBefore, guessByWalking, guessesBehind, joined, List.append_assoc]

/-- The paths that guesses stand for, in order and without repeats. -/
def pathsOf (guesses : List String) : List String :=
  keepFirst id ((guesses.filterMap normalize?).map withExtension)

/-- A guess adds nothing if one before it stands for the same path. -/
theorem pathsOf_append_cons {before behind : List String} {guess target : String}
    (hguess : normalize? guess = some target)
    (hbefore : ∃ g ∈ before, normalize? g = some target) :
    pathsOf (before ++ guess :: behind) = pathsOf (before ++ behind) := by
  obtain ⟨g, hg, htarget⟩ := hbefore
  have hmem : withExtension target ∈ (before.filterMap normalize?).map withExtension :=
    List.mem_map_of_mem (List.mem_filterMap.mpr ⟨g, hg, htarget⟩)
  rw [pathsOf, pathsOf, List.filterMap_append, List.filterMap_append, List.map_append,
    List.map_append, List.filterMap_cons_some hguess, List.map_cons]
  apply keepFirst_append_cons_of_mem
  rwa [List.map_id]

/-- **Two ways to follow a relative path agree.**  From a canonical directory, walking leads where
the joined path points, if that is below the root.  So the guess that walks adds a path to try only
if the joined path leaves the root or names it.  What is normalised stays as it is. -/
theorem relative_paths_agree :
    (∀ base relative target : String, base = "" ∨ Canonical base →
        normalize? (joined base relative) = some target →
          resolveRelative relative base = target) ∧
      (∀ path base : String,
        localPaths path base =
            pathsOf (guessesBefore path base ++ guessByWalking path base ++ guessesBehind path) ∧
          (base = "" ∨ Canonical base →
            localPaths path base ≠ pathsOf (guessesBefore path base ++ guessesBehind path) →
              normalize? (joined base (clean path)) = none)) ∧
      (∀ path : String, normalize? path = some path ↔ Canonical path) ∧
      ∀ path target : String, normalize? path = some target → normalize? target = some target := by
  refine ⟨fun base relative target hbase h => resolveRelative_of_normalize? hbase h,
    fun path base => ?_, fun path => normalize?_eq_self_iff,
    fun path target h => normalize?_eq_self_iff.mpr (canonical_of_normalize? h)⟩
  have hlocal : localPaths path base =
      pathsOf (guessesBefore path base ++ guessByWalking path base ++ guessesBehind path) := by
    rw [localPaths, layoutGuesses_eq, pathsOf]
  refine ⟨hlocal, fun hbase hne => ?_⟩
  by_contra hsome
  obtain ⟨target, htarget⟩ := Option.ne_none_iff_exists'.mp hsome
  apply hne
  rw [hlocal, List.append_assoc, guessByWalking]
  split_ifs
  · -- the joined path comes first and stands for the same target
    have hwalk : normalize? (resolveRelative (clean path) base) = some target := by
      rw [resolveRelative_of_normalize? hbase htarget]
      exact normalize?_eq_self_iff.mpr (canonical_of_normalize? htarget)
    rw [List.singleton_append]
    exact pathsOf_append_cons hwalk ⟨_, joined_mem_guessesBefore path base, htarget⟩
  · rw [List.nil_append]

/-- From `contracts/core` the path `../A.sol` leads to `contracts/A.sol` both ways.  From `contracts`
the import `../../A.sol` leaves the root, and `A.sol` is tried only because of the guess that
walks. -/
theorem relative_paths_agree_core :
    (Canonical "contracts/core" ∧
        normalize? (joined "contracts/core" "../A.sol") = some "contracts/A.sol" ∧
        resolveRelative "../A.sol" "contracts/core" = "contracts/A.sol") ∧
      (Canonical "contracts" ∧
        localPaths "../../A.sol" "contracts" =
          ["A.sol", "contracts/interfaces/A.sol", "contracts/utils/A.sol"] ∧
        pathsOf (guessesBefore "../../A.sol" "contracts" ++ guessesBehind "../../A.sol") =
          ["contracts/interfaces/A.sol", "contracts/utils/A.sol"] ∧
        normalize? (joined "contracts" (clean "../../A.sol")) = none) ∧
      normalize? "contracts//utils/.././A.sol" = some "contracts/A.sol" ∧
      normalize? "contracts/A.sol" = some "contracts/A.sol" := by
  obtain ⟨hwalk, hguess, -, hagain⟩ := relative_paths_agree
  have hcore : Canonical "contracts/core" := by decide +kernel
  have hjoin : normalize? (joined "contracts/core" "../A.sol") = some "contracts/A.sol" := by
    decide +kernel
  have hcontracts : Canonical "contracts" := by decide +kernel
  have hlocal : localPaths "../../A.sol" "contracts" =
      ["A.sol", "contracts/interfaces/A.sol", "contracts/utils/A.sol"] := by decide +kernel
  have hothers : pathsOf (guessesBefore "../../A.sol" "contracts" ++ guessesBehind "../../A.sol") =
      ["contracts/interfaces/A.sol", "contracts/utils/A.sol"] := by decide +kernel
  have hnormal : normalize? "contracts//utils/.././A.sol" = some "contracts/A.sol" := by
    decide +kernel
  refine ⟨⟨hcore, hjoin, hwalk _ _ _ (.inr hcore) hjoin⟩, ⟨hcontracts, hlocal, hothers, ?_⟩,
    hnormal, hagain _ _ hnormal⟩
  -- the guess that walks gives the one path that the others do not
  apply (hguess "../../A.sol" "contracts").2 (.inr hcontracts)
  rw [hlocal, hothers]
  decide

end Import

end CallAtlas

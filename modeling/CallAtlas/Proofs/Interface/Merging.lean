import CallAtlas.Interface.Edge
import Mathlib.Data.List.Induction
import Mathlib.Data.List.Nodup

/-!
# Merging what patterns see

Patterns see edges one after the other, and what they see is merged into a list that only grows at
its end.  A sighting is passed over if its name is known.  Some patterns are less sure of themselves:
what such a pattern sees is skipped if the method is known, under whatever name.  A sighting that is
skipped leaves no trace, so its name can still be brought in by a later one.

* `sightings`: all that patterns see, in the order in which it is met.
* `Sighting.Skipped`: what is passed over for its method.
* `Sighting.IsFirst`: the first sighting of a name that is not skipped.
* `mem_merged_iff`: an edge is found iff it was seen as the first of its name.
* `merged_append_of_skipping`: what patterns add that skip known methods.
* `detect_merges`: how the edges of several patterns come together.
-/

namespace CallAtlas.Interface

/-- An edge as a pattern sees it. -/
structure Sighting where
  pattern : Pattern
  edge : Edge

/-- What patterns see in a text: pattern by pattern, and for each pattern in its own order. -/
def sightings (patterns : List Pattern) (text : String) (entities : List Entity) : List Sighting :=
  patterns.flatMap fun p => (p.edges text entities).map fun e => ⟨p, e⟩

/-- The edges that are found when sightings are merged in turn. -/
def merged (caller : String) (seen : List Sighting) : List Edge :=
  seen.foldl (fun found s => s.pattern.merge caller found s.edge) []

theorem sightings_append (patterns others : List Pattern) (text : String)
    (entities : List Entity) :
    sightings (patterns ++ others) text entities =
      sightings patterns text entities ++ sightings others text entities :=
  List.flatMap_append

theorem detect_eq_merged (patterns : List Pattern) (text : String) (entities : List Entity)
    (caller : String) :
    detect patterns text entities caller = merged caller (sightings patterns text entities) := by
  rw [detect, merged, sightings, List.foldl_flatMap]
  simp only [List.foldl_map]
  rfl

/-- Whether a sighting behind others is skipped: its pattern leaves out known methods, and an edge
found so far has its method. -/
def Sighting.Skipped (caller : String) (before : List Sighting) (s : Sighting) : Prop :=
  s.pattern.skipsKnownMethods = true ∧ ∃ f ∈ merged caller before, f.method = s.edge.method

/-- Whether a sighting behind others is the first of its name: it is not skipped, and those before it
that have its name are. -/
structure Sighting.IsFirst (caller : String) (before : List Sighting) (s : Sighting) : Prop where
  counts : ¬ s.Skipped caller before
  others_skipped : ∀ front t rest, before = front ++ t :: rest →
    t.edge.callee = s.edge.callee → t.Skipped caller front

/-! ### One sighting -/

section

variable {caller : String} {seen : List Sighting} {s : Sighting}

theorem admits_iff :
    s.pattern.admits (merged caller seen) s.edge = true ↔
      s.edge.callee ∉ (merged caller seen).map Edge.callee ∧ ¬ s.Skipped caller seen := by
  rw [Pattern.admits, Bool.and_eq_true, Bool.not_eq_true', Bool.not_eq_true', Sighting.Skipped,
    List.any_eq_false, Bool.and_eq_false_iff, List.any_eq_false, List.mem_map]
  simp only [beq_iff_eq, not_exists, not_and, ← Bool.not_eq_true, imp_iff_not_or]

theorem merged_concat_of_admits
    (h : s.pattern.admits (merged caller seen) s.edge = true) :
    merged caller (seen ++ [s]) = merged caller seen ++ [{ s.edge with caller := caller }] := by
  rw [merged, List.foldl_append]
  exact if_pos h

theorem merged_concat_of_not_admits
    (h : ¬ s.pattern.admits (merged caller seen) s.edge = true) :
    merged caller (seen ++ [s]) = merged caller seen := by
  rw [merged, List.foldl_append]
  exact if_neg h

end

/-! ### All sightings -/

section

variable {caller : String} {seen : List Sighting}

/-- Further sightings let the list grow at its end. -/
theorem merged_prefix (caller : String) (seen more : List Sighting) :
    merged caller seen <+: merged caller (seen ++ more) := by
  -- on the last sighting, since those before it decide whether it is added
  induction more using List.reverseRecOn with
  | nil => exact ⟨[], by rw [List.append_nil, List.append_nil]⟩
  | append_singleton more s ih =>
    rw [← List.append_assoc]
    by_cases h : s.pattern.admits (merged caller (seen ++ more)) s.edge = true
    · rw [merged_concat_of_admits h]
      exact ih.trans (List.prefix_append _ _)
    · rwa [merged_concat_of_not_admits h]

theorem nodup_callee_merged (caller : String) (seen : List Sighting) :
    ((merged caller seen).map Edge.callee).Nodup := by
  induction seen using List.reverseRecOn with
  | nil => exact List.nodup_nil
  | append_singleton seen s ih =>
    by_cases h : s.pattern.admits (merged caller seen) s.edge = true
    · rw [merged_concat_of_admits h, List.map_append, List.map_singleton,
        ← List.concat_eq_append]
      exact ih.concat (admits_iff.mp h).1
    · rwa [merged_concat_of_not_admits h]

/-- A place in a list that is extended is a place in the list, or the one behind it. -/
theorem exists_place_concat {P : List Sighting → Sighting → Prop} {s : Sighting} :
    (∃ front t rest, seen ++ [s] = front ++ t :: rest ∧ P front t) ↔
      (∃ front t rest, seen = front ++ t :: rest ∧ P front t) ∨ P seen s := by
  constructor
  · rintro ⟨front, t, rest, heq, ht⟩
    rcases rest.eq_nil_or_concat' with rfl | ⟨rest, last, rfl⟩
    · obtain ⟨rfl, rfl⟩ := List.append_singleton_inj.mp heq
      exact .inr ht
    · rw [← List.cons_append, ← List.append_assoc] at heq
      exact .inl ⟨front, t, rest, (List.append_singleton_inj.mp heq).1, ht⟩
  · rintro (⟨front, t, rest, rfl, ht⟩ | hs)
    · exact ⟨front, t, rest ++ [s], by rw [List.append_assoc, List.cons_append], ht⟩
    · exact ⟨seen, s, [], rfl, hs⟩

/-- The names that are found are those of the sightings that are not skipped. -/
theorem mem_callee_merged_iff {name : String} :
    name ∈ (merged caller seen).map Edge.callee ↔
      ∃ front t rest, seen = front ++ t :: rest ∧
        t.edge.callee = name ∧ ¬ t.Skipped caller front := by
  induction seen using List.reverseRecOn with
  | nil => simp [merged]
  | append_singleton seen s ih =>
    rw [exists_place_concat, ← ih]
    by_cases h : s.pattern.admits (merged caller seen) s.edge = true
    · rw [merged_concat_of_admits h, List.map_append, List.map_singleton,
        List.mem_append, List.mem_singleton]
      refine or_congr_right ⟨fun heq => ⟨heq.symm, (admits_iff.mp h).2⟩, fun heq => heq.1.symm⟩
    · rw [merged_concat_of_not_admits h]
      refine ⟨.inl, ?_⟩
      rintro (hold | ⟨rfl, hcounts⟩)
      · exact hold
      · -- what is not skipped is passed over only for its name
        by_contra hnew
        exact h (admits_iff.mpr ⟨hnew, hcounts⟩)

theorem admits_iff_isFirst {s : Sighting} :
    s.pattern.admits (merged caller seen) s.edge = true ↔ s.IsFirst caller seen := by
  rw [admits_iff, mem_callee_merged_iff]
  simp only [not_exists, not_and, not_not]
  exact ⟨fun h => ⟨h.2, h.1⟩, fun h => ⟨h.others_skipped, h.counts⟩⟩

/-- An edge is found iff it was seen as the first of its name. -/
theorem mem_merged_iff {f : Edge} :
    f ∈ merged caller seen ↔
      ∃ front t rest, seen = front ++ t :: rest ∧
        t.IsFirst caller front ∧ f = { t.edge with caller := caller } := by
  induction seen using List.reverseRecOn with
  | nil => simp [merged]
  | append_singleton seen s ih =>
    rw [exists_place_concat, ← ih]
    by_cases h : s.pattern.admits (merged caller seen) s.edge = true
    · rw [merged_concat_of_admits h, List.mem_append, List.mem_singleton]
      exact or_congr_right (iff_and_self.mpr fun _ => admits_iff_isFirst.mp h)
    · rw [merged_concat_of_not_admits h]
      exact (or_iff_left fun hs => h (admits_iff_isFirst.mpr hs.1)).symm

/-- What patterns add that skip known methods: no two of these edges have the same method, and none
has a method that was found before. -/
theorem merged_append_of_skipping {more : List Sighting}
    (h : ∀ s ∈ more, s.pattern.skipsKnownMethods = true) (caller : String) (seen : List Sighting) :
    ∃ added, merged caller (seen ++ more) = merged caller seen ++ added ∧
      (added.map Edge.method).Nodup ∧
      ∀ e ∈ added, ∀ f ∈ merged caller seen, f.method ≠ e.method := by
  induction more using List.reverseRecOn with
  | nil =>
    refine ⟨[], ?_, List.nodup_nil, fun e he => absurd he List.not_mem_nil⟩
    rw [List.append_nil, List.append_nil]
  | append_singleton more s ih =>
    obtain ⟨added, heq, hnodup, hnew⟩ := ih fun t ht => h t (List.mem_append_left _ ht)
    rw [← List.append_assoc]
    by_cases hadmits : s.pattern.admits (merged caller (seen ++ more)) s.edge = true
    · -- neither an old edge nor one just added has the method, or `s` would be skipped
      have hmethod : ∀ f ∈ merged caller seen ++ added, f.method ≠ s.edge.method := by
        intro f hf hsame
        rw [← heq] at hf
        exact (admits_iff.mp hadmits).2
          ⟨h s (List.mem_append_right _ List.mem_cons_self), f, hf, hsame⟩
      refine ⟨added ++ [{ s.edge with caller := caller }], ?_, ?_, ?_⟩
      · rw [merged_concat_of_admits hadmits, heq, List.append_assoc]
      · rw [List.map_append, List.map_singleton, ← List.concat_eq_append]
        refine hnodup.concat fun hmem => ?_
        obtain ⟨f, hf, hsame⟩ := List.mem_map.mp hmem
        exact hmethod f (List.mem_append_right _ hf) hsame
      · intro e he f hf
        rcases List.mem_append.mp he with he | he
        · exact hnew e he f hf
        · rw [List.mem_singleton.mp he]
          exact hmethod f (List.mem_append_left _ hf)
    · exact ⟨added, (merged_concat_of_not_admits hadmits).trans heq, hnodup, hnew⟩

end

/-! ### Detection -/

/-- Detected edges have different names, whatever the patterns are. -/
theorem nodup_callee_detect (patterns : List Pattern) (text : String) (entities : List Entity)
    (caller : String) : ((detect patterns text entities caller).map Edge.callee).Nodup := by
  rw [detect_eq_merged]
  exact nodup_callee_merged caller _

theorem detect_prefix (patterns others : List Pattern) (text : String) (entities : List Entity)
    (caller : String) :
    detect patterns text entities caller <+: detect (patterns ++ others) text entities caller := by
  rw [detect_eq_merged, detect_eq_merged, sightings_append]
  exact merged_prefix caller _ _

/-- **How the edges of several patterns come together.**  Further patterns add edges at the end and
change nothing else.  No two edges have the same name.  What a pattern sees that skips nothing is
found under its name, as it was first seen by a pattern that did not skip it; and nothing else is
found.  What a pattern adds that skips known methods has a method that no edge before it has. -/
theorem detect_merges (text : String) (entities : List Entity) (caller : String) :
    (∀ P Q : List Pattern, ∃ more, detect (P ++ Q) text entities caller =
        detect P text entities caller ++ more) ∧
      (∀ P : List Pattern, ((detect P text entities caller).map Edge.callee).Nodup) ∧
      (∀ P : List Pattern, ∀ p ∈ P, p.skipsKnownMethods = false → ∀ e ∈ p.edges text entities,
        ∃ front s rest, sightings P text entities = front ++ s :: rest ∧
          s.edge.callee = e.callee ∧ s.IsFirst caller front ∧
          { s.edge with caller := caller } ∈ detect P text entities caller) ∧
      (∀ (P : List Pattern) (f : Edge), f ∈ detect P text entities caller ↔
        ∃ front s rest, sightings P text entities = front ++ s :: rest ∧
          s.IsFirst caller front ∧ f = { s.edge with caller := caller }) ∧
      ∀ (P : List Pattern) (p : Pattern) (Q : List Pattern), p.skipsKnownMethods = true →
        ∃ added more, detect (P ++ p :: Q) text entities caller =
            detect P text entities caller ++ added ++ more ∧
          detect (P ++ [p]) text entities caller = detect P text entities caller ++ added ∧
          (added.map Edge.method).Nodup ∧
          ∀ e ∈ added, ∀ f ∈ detect P text entities caller, f.method ≠ e.method := by
  refine ⟨fun P Q => ?_, fun P => nodup_callee_detect P text entities caller, ?_, ?_, ?_⟩
  · obtain ⟨more, hmore⟩ := detect_prefix P Q text entities caller
    exact ⟨more, hmore.symm⟩
  · intro P p hp hskips e he
    -- the pattern skips nothing, so the name of the edge is found
    have hseen : (⟨p, e⟩ : Sighting) ∈ sightings P text entities :=
      List.mem_flatMap.mpr ⟨p, hp, List.mem_map_of_mem he⟩
    obtain ⟨front, rest, hplace⟩ := List.append_of_mem hseen
    have hcounts : ¬ (⟨p, e⟩ : Sighting).Skipped caller front :=
      fun hskipped => Bool.false_ne_true (hskips.symm.trans hskipped.1)
    have hname : e.callee ∈ (merged caller (sightings P text entities)).map Edge.callee :=
      mem_callee_merged_iff.mpr ⟨front, ⟨p, e⟩, rest, hplace, rfl, hcounts⟩
    obtain ⟨f, hf, hcallee⟩ := List.mem_map.mp hname
    obtain ⟨front, s, rest, hplace, hfirst, rfl⟩ := mem_merged_iff.mp hf
    rw [detect_eq_merged]
    exact ⟨front, s, rest, hplace, hcallee, hfirst, hf⟩
  · intro P f
    rw [detect_eq_merged]
    exact mem_merged_iff
  · intro P p Q hskips
    -- all that this pattern sees is under the rule
    have hall : ∀ s ∈ sightings [p] text entities, s.pattern.skipsKnownMethods = true := by
      intro s hs
      rw [sightings, List.flatMap_singleton] at hs
      obtain ⟨e, -, rfl⟩ := List.mem_map.mp hs
      exact hskips
    obtain ⟨added, heq, hnodup, hnew⟩ :=
      merged_append_of_skipping hall caller (sightings P text entities)
    obtain ⟨more, hmore⟩ := detect_prefix (P ++ [p]) Q text entities caller
    rw [← sightings_append, ← detect_eq_merged, ← detect_eq_merged] at heq
    rw [← detect_eq_merged] at hnew
    refine ⟨added, more, ?_, heq, hnodup, hnew⟩
    rw [← heq, hmore, List.append_assoc, List.singleton_append]

/-- The declaration of a transfer in the file of an interface. -/
def transferOf (interface : String) : Entity :=
  { name := "transfer"
    signature := "transfer()"
    file := "contracts/interfaces/" ++ interface ++ ".sol"
    contract := interface }

/-- The known declarations. -/
def transfers : List Entity :=
  [transferOf "IERC20", transferOf "IShares"]

/-- A text that calls a transfer on two casts. -/
def transferText : String := "IERC20(t).transfer(); IVault(v).transfer();"

/-- The pattern of called names in front of that of casts. -/
def nameFirst : List Pattern :=
  [.byName, .direct]

/-- The edges found in the text. -/
def transferEdges : List Edge :=
  detect nameFirst transferText transfers "run"

/-- The first cast, as the pattern of casts sees it. -/
def castTransfer : Edge :=
  .of "IERC20" "transfer" "direct" (some (transferOf "IERC20"))

/-- Of the two called names the second is skipped, and of the two casts the first comes too late; the
second is found although its method is known. -/
theorem detect_merges_transferEdges :
    transferEdges.map (fun e => (e.callee, e.pattern)) =
        [("IERC20.transfer", "byname"), ("IVault.transfer", "direct")] ∧
      (Pattern.direct ∈ nameFirst ∧ Pattern.direct.skipsKnownMethods = false ∧
        castTransfer ∈ Pattern.direct.edges transferText transfers ∧
        ∃ front s rest, sightings nameFirst transferText transfers = front ++ s :: rest ∧
          s.edge.callee = castTransfer.callee ∧ s.IsFirst "run" front ∧
          { s.edge with caller := "run" } ∈ transferEdges) ∧
      Pattern.byName.skipsKnownMethods = true ∧
      ∃ added more, transferEdges = added ++ more ∧
        detect [.byName] transferText transfers "run" = added ∧ (added.map Edge.method).Nodup := by
  have hfound : transferEdges.map (fun e => (e.callee, e.pattern)) =
      [("IERC20.transfer", "byname"), ("IVault.transfer", "direct")] := by decide +kernel
  have hmem : Pattern.direct ∈ nameFirst := List.mem_cons_of_mem _ List.mem_cons_self
  have hcast : castTransfer ∈ Pattern.direct.edges transferText transfers := by decide +kernel
  obtain ⟨-, -, hfirst, -, hskipping⟩ := detect_merges transferText transfers "run"
  obtain ⟨added, more, hall, hadded, hnodup, -⟩ := hskipping [] .byName [.direct] rfl
  exact ⟨hfound, ⟨hmem, rfl, hcast, hfirst nameFirst .direct hmem rfl castTransfer hcast⟩, rfl,
    added, more, hall, hadded, hnodup⟩

end CallAtlas.Interface

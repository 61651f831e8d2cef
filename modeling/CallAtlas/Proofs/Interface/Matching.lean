import CallAtlas.Interface.Resolve
import CallAtlas.Proofs.Ordered
import Mathlib.Algebra.Order.Field.Basic
import Mathlib.Algebra.Order.Field.Rat
import Mathlib.Data.List.Forall2

/-!
# Members and their counterparts

A member of an interface is implemented in a file by a counterpart: a function or a state variable
of the same name, whose parameters have the same types one by one.  What is matched in a file are
the members with a counterpart there, in the order of the interface.

* `Interface.Counterpart r file m i`: `i` implements `m` in the file.
* `Interface.map_matchesIn`, `Interface.counterpart_of_mem_matchesIn`: what is matched.
* `Binding.Sound r members b`: the binding shows matched members, and their share.
* `Interface.sound_ofMatches`: a binding made from matched members is sound.
-/

namespace CallAtlas

/-- The ratio as a fraction. -/
def Number.Ratio.exact (r : Number.Ratio) : ℚ :=
  r.part / r.whole

theorem Repository.file_mem_files {r : Repository} {e : Entity} (h : e ∈ r.entities) :
    e.file ∈ r.files :=
  mem_keepFirst_id.mpr (List.mem_map_of_mem h)

theorem Repository.mem_filesContaining {r : Repository} {fragment file : String} :
    file ∈ r.filesContaining fragment ↔
      file ∈ r.files ∧ Text.contains (Path.basename file) fragment = true := by
  simp only [Repository.filesContaining, List.mem_append, List.mem_filter, beq_iff_eq, bne_iff_ne]
  constructor
  · rintro (⟨hfile, -⟩ | ⟨hfile, -⟩)
    · exact hfile
    · exact hfile
  · intro hfile
    by_cases hstem : Path.stem file = fragment
    · exact .inl ⟨hfile, hstem⟩
    · exact .inr ⟨hfile, hstem⟩

namespace Interface

/-! ### Counterparts -/

/-- Whether `i` implements the member `m` of an interface in a file. -/
structure Counterpart (r : Repository) (file : String) (m i : Entity) : Prop where
  mem : i ∈ r.entities
  file_eq : i.file = file
  kind_eq : i.kind = .function ∨ i.kind = .stateVariable
  name_eq : i.name = m.name
  types_eq : List.Forall₂ (fun a b : Parameter => a.type = b.type) m.parameters i.parameters

theorem mem_declaredMembers {r : Repository} {interface : String} {m : Entity} :
    m ∈ declaredMembers r interface ↔
      m ∈ r.entities ∧ m.kind = .function ∧
        Text.contains (Path.basename m.file) interface = true := by
  simp only [declaredMembers, List.mem_filter, List.mem_flatMap, Repository.mem_filesContaining,
    Repository.inFile, beq_iff_eq]
  constructor
  · rintro ⟨⟨file, ⟨-, hcontains⟩, hm, rfl⟩, hkind⟩
    exact ⟨hm, hkind, hcontains⟩
  · rintro ⟨hm, hkind, hcontains⟩
    exact ⟨⟨m.file, ⟨Repository.file_mem_files hm, hcontains⟩, hm, rfl⟩, hkind⟩

theorem compatible_iff {m i : Entity} :
    compatible m i = true ↔
      i.name = m.name ∧
        List.Forall₂ (fun a b : Parameter => a.type = b.type) m.parameters i.parameters := by
  rw [compatible, Bool.and_eq_true, beq_iff_eq, beq_iff_eq, eq_comm, ← List.forall₂_eq_eq_eq,
    List.forall₂_map_left_iff, List.forall₂_map_right_iff]

theorem mem_implementingMembers {r : Repository} {file : String} {i : Entity} :
    i ∈ implementingMembers r file ↔
      i ∈ r.entities ∧ i.file = file ∧ (i.kind = .function ∨ i.kind = .stateVariable) := by
  simp only [implementingMembers, Repository.inFile, List.mem_filter, beq_iff_eq, Bool.or_eq_true,
    and_assoc]

theorem counterpart_iff {r : Repository} {file : String} {m i : Entity} :
    Counterpart r file m i ↔ i ∈ implementingMembers r file ∧ compatible m i = true := by
  rw [mem_implementingMembers, compatible_iff]
  constructor
  · rintro ⟨hmem, hfile, hkind, hname, htypes⟩
    exact ⟨⟨hmem, hfile, hkind⟩, hname, htypes⟩
  · rintro ⟨⟨hmem, hfile, hkind⟩, hname, htypes⟩
    exact ⟨hmem, hfile, hkind, hname, htypes⟩

theorem any_compatible_iff {r : Repository} {file : String} {m : Entity} :
    (implementingMembers r file).any (compatible m) = true ↔ ∃ i, Counterpart r file m i := by
  simp only [List.any_eq_true, counterpart_iff]

/-! ### Matched members -/

/-- The matched members are those with a counterpart, in the order of the interface. -/
theorem map_matchesIn (r : Repository) (members : List Entity) (file : String) :
    (matchesIn r members file).map (·.interfaceMember) =
      members.filter fun m => (implementingMembers r file).any (compatible m) := by
  rw [matchesIn]
  generalize implementingMembers r file = is
  induction members with
  | nil => rfl
  | cons m ms ih =>
    rcases hfind : is.find? (compatible m) with _ | i
    · -- no counterpart: the member is left out on both sides
      have hany : ¬ is.any (compatible m) = true := by
        rw [Bool.not_eq_true, List.any_eq_false]
        exact List.find?_eq_none.mp hfind
      rw [matchMembers, List.filterMap_cons_none (by rw [hfind]; rfl), List.filter_cons,
        if_neg hany]
      exact ih
    · have hany : is.any (compatible m) = true :=
        List.any_eq_true.mpr ⟨i, List.mem_of_find?_eq_some hfind, List.find?_some hfind⟩
      rw [matchMembers, List.filterMap_cons_some (by rw [hfind]; rfl), List.map_cons,
        List.filter_cons, if_pos hany]
      exact congrArg (m :: ·) ih

theorem counterpart_of_mem_matchesIn {r : Repository} {members : List Entity} {file : String}
    {x : Match} (h : x ∈ matchesIn r members file) :
    Counterpart r file x.interfaceMember x.implementation := by
  obtain ⟨m, -, hm⟩ := List.mem_filterMap.mp h
  obtain ⟨i, hfind, rfl⟩ := Option.map_eq_some_iff.mp hm
  exact counterpart_iff.mpr ⟨List.mem_of_find?_eq_some hfind, List.find?_some hfind⟩

theorem sublist_matchesIn (r : Repository) (members : List Entity) (file : String) :
    ((matchesIn r members file).map (·.interfaceMember)).Sublist members := by
  rw [map_matchesIn]
  exact List.filter_sublist

theorem length_matchesIn (r : Repository) (members : List Entity) (file : String) :
    (matchesIn r members file).length =
      (members.filter fun m => (implementingMembers r file).any (compatible m)).length := by
  rw [← map_matchesIn, List.length_map]

theorem length_matchesIn_le (r : Repository) (members : List Entity) (file : String) :
    (matchesIn r members file).length ≤ members.length := by
  rw [length_matchesIn]
  exact List.length_filter_le _ members

theorem length_matchesIn_eq_iff {r : Repository} {members : List Entity} {file : String} :
    (matchesIn r members file).length = members.length ↔
      ∀ m ∈ members, ∃ i, Counterpart r file m i := by
  rw [length_matchesIn, List.length_filter_eq_length_iff]
  simp only [any_compatible_iff]

theorem matchesIn_eq_nil_iff {r : Repository} {members : List Entity} {file : String} :
    matchesIn r members file = [] ↔ ∀ m ∈ members, ∀ i, ¬ Counterpart r file m i := by
  rw [← List.map_eq_nil_iff, map_matchesIn, List.filter_eq_nil_iff]
  simp only [any_compatible_iff, not_exists]

end Interface

/-! ### Bindings -/

open Interface

/-- Whether a binding of an interface with the given members can be relied on: it has members, each
with a counterpart in its file, and its ratio is their share. -/
structure Binding.Sound (r : Repository) (members : List Entity) (b : Binding) : Prop where
  ne_nil : b.members ≠ []
  sublist : (b.members.map (·.interfaceMember)).Sublist members
  counterpart : ∀ x ∈ b.members, Counterpart r b.file x.interfaceMember x.implementation
  ratio_eq : b.ratio.exact = b.members.length / members.length
  ratio_pos : 0 < b.ratio.exact
  ratio_le_one : b.ratio.exact ≤ 1
  ratio_eq_one_iff : b.ratio.exact = 1 ↔ ∀ m ∈ members, ∃ i, Counterpart r b.file m i

namespace Interface

theorem exact_matchRatio {found : List Match} {members : List Entity} (h : members ≠ []) :
    (matchRatio found members).exact = found.length / members.length := by
  have hpos : 1 ≤ members.length := List.length_pos_of_ne_nil h
  rw [matchRatio, Number.Ratio.exact, Nat.max_eq_left hpos, Int.cast_natCast]

theorem sound_ofMatches {r : Repository} {members : List Entity} {file : String}
    (h : matchesIn r members file ≠ []) (interface : String) (strategy : Strategy) :
    (Binding.ofMatches interface file (matchesIn r members file) members strategy).Sound r
      members := by
  have hfound : 0 < (matchesIn r members file).length := List.length_pos_of_ne_nil h
  have hle := length_matchesIn_le r members file
  have hmembers : (0 : ℚ) < members.length := by exact_mod_cast hfound.trans_le hle
  have hratio : (matchRatio (matchesIn r members file) members).exact =
      (matchesIn r members file).length / members.length :=
    exact_matchRatio (List.ne_nil_of_length_pos (hfound.trans_le hle))
  refine ⟨h, sublist_matchesIn r members file, fun x => counterpart_of_mem_matchesIn, hratio,
    ?_, ?_, ?_⟩
  · exact hratio ▸ div_pos (by exact_mod_cast hfound) hmembers
  · exact hratio ▸ (div_le_one hmembers).mpr (by exact_mod_cast hle)
  · -- the share is one iff nothing is left out
    refine Iff.trans ?_ length_matchesIn_eq_iff
    rw [Binding.ofMatches, hratio, div_eq_one_iff_eq hmembers.ne', Nat.cast_inj]

end Interface

end CallAtlas

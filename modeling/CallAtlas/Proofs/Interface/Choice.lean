import CallAtlas.Proofs.Interface.Offline
import Mathlib.Data.List.Nodup
import Mathlib.Data.Prod.Lex

/-!
# Which file is chosen

Without fetching, an implementation is looked for in two ways.  The search by name goes through
candidate names and, for each, through the files whose name contains it; it ends at the first file
that will do.  The search by members goes through all files and keeps the best so far.  Both come to
a choice that can be said without a search.

* `Nomination.First r interface x`: of all candidates with a file whose name contains them, that
  will do, `x` comes first: by the place of the candidate, then by whether it is the whole stem of
  the file, then by the place of the file.
* `Elected r interface file`: the file has most members, more than half, and is the earliest such.
* `pairwise_nominations`: the search by name meets candidates with files in ascending rank.
* `foldl_better_cases`: the search by members keeps the earliest of the best.
* `bindingFor_exact`: the choice.
-/

namespace CallAtlas.Interface

theorem pairwise_idxOf {l : List String} (h : l.Nodup) :
    l.Pairwise fun a b => l.idxOf a < l.idxOf b := by
  rw [List.pairwise_iff_getElem]
  intro i j hi hj hij
  rwa [h.idxOf_getElem i hi, h.idxOf_getElem j hj]

theorem nodup_files (r : Repository) : r.files.Nodup :=
  nodup_keepFirst_id _

/-! ### Choosing by name -/

/-- A candidate name with a file. -/
structure Nomination where
  candidate : String
  file : String
deriving DecidableEq, Repr

namespace Nomination

/-- Whether the file will do for the candidate: its name contains the candidate, it is no file of
the interface, and it has a counterpart of a member. -/
structure Stands (r : Repository) (interface : String) (x : Nomination) : Prop where
  candidate_mem : x.candidate ∈ candidateNames interface
  file_mem : x.file ∈ r.files
  contains : Text.contains (Path.basename x.file) x.candidate = true
  foreign : ∀ m ∈ declaredMembers r interface, m.file ≠ x.file
  matched : ∃ m ∈ declaredMembers r interface, ∃ i, Counterpart r x.file m i

/-- Zero if the candidate is the whole stem of the file, one if it is less. -/
def looseness (x : Nomination) : ℕ :=
  if Path.stem x.file = x.candidate then 0 else 1

/-- The place of the candidate, then whether it is less than the whole stem of the file, then the
place of the file. -/
def rank (r : Repository) (interface : String) (x : Nomination) : ℕ ×ₗ ℕ ×ₗ ℕ :=
  toLex ((candidateNames interface).idxOf x.candidate,
    toLex (x.looseness, r.files.idxOf x.file))

/-- Whether the nomination comes first among those that will do. -/
structure First (r : Repository) (interface : String) (x : Nomination) : Prop where
  stands : x.Stands r interface
  rank_le : ∀ y, Stands r interface y → x.rank r interface ≤ y.rank r interface

end Nomination

/-- The candidates with the files whose name contains them, in the order in which they are met. -/
def nominations (r : Repository) (interface : String) : List Nomination :=
  (candidateNames interface).flatMap fun candidate =>
    (r.filesContaining candidate).map fun file => ⟨candidate, file⟩

section

variable {r : Repository} {interface : String} {x y : Nomination}

theorem mem_nominations :
    x ∈ nominations r interface ↔ x.candidate ∈ candidateNames interface ∧ x.file ∈ r.files ∧
      Text.contains (Path.basename x.file) x.candidate = true := by
  simp only [nominations, List.mem_flatMap, List.mem_map, Repository.mem_filesContaining]
  constructor
  · rintro ⟨candidate, hcandidate, file, hfile, rfl⟩
    exact ⟨hcandidate, hfile⟩
  · rintro ⟨hcandidate, hfile⟩
    exact ⟨x.candidate, hcandidate, x.file, hfile, rfl⟩

theorem rank_lt_of_candidate {candidate f g : String}
    (h : Nomination.looseness ⟨candidate, f⟩ < Nomination.looseness ⟨candidate, g⟩ ∨
      Nomination.looseness ⟨candidate, f⟩ = Nomination.looseness ⟨candidate, g⟩ ∧
        r.files.idxOf f < r.files.idxOf g) :
    Nomination.rank r interface ⟨candidate, f⟩ < Nomination.rank r interface ⟨candidate, g⟩ := by
  rw [Nomination.rank, Nomination.rank, Prod.Lex.toLex_lt_toLex, Prod.Lex.toLex_lt_toLex]
  dsimp only
  exact .inr ⟨rfl, h⟩

/-- The files of one candidate are met in ascending rank. -/
theorem pairwise_filesContaining (r : Repository) (interface candidate : String) :
    (r.filesContaining candidate).Pairwise fun f g =>
      Nomination.rank r interface ⟨candidate, f⟩ < Nomination.rank r interface ⟨candidate, g⟩ := by
  have hplaces := (pairwise_idxOf (nodup_files r)).filter
    fun f => Text.contains (Path.basename f) candidate
  have hwhole : ∀ f, Path.stem f = candidate → Nomination.looseness ⟨candidate, f⟩ = 0 :=
    fun f hf => if_pos hf
  have hpart : ∀ f, Path.stem f ≠ candidate → Nomination.looseness ⟨candidate, f⟩ = 1 :=
    fun f hf => if_neg hf
  rw [Repository.filesContaining, List.pairwise_append]
  refine ⟨?_, ?_, ?_⟩
  · -- where the candidate is the whole stem, the places of the files decide
    refine (hplaces.filter _).imp_of_mem fun {f g} hf hg hfg => ?_
    have hf := hwhole f (beq_iff_eq.mp (List.mem_filter.mp hf).2)
    have hg := hwhole g (beq_iff_eq.mp (List.mem_filter.mp hg).2)
    exact rank_lt_of_candidate (.inr ⟨hf.trans hg.symm, hfg⟩)
  · refine (hplaces.filter _).imp_of_mem fun {f g} hf hg hfg => ?_
    have hf := hpart f (bne_iff_ne.mp (List.mem_filter.mp hf).2)
    have hg := hpart g (bne_iff_ne.mp (List.mem_filter.mp hg).2)
    exact rank_lt_of_candidate (.inr ⟨hf.trans hg.symm, hfg⟩)
  · intro f hf g hg
    have hf := hwhole f (beq_iff_eq.mp (List.mem_filter.mp hf).2)
    have hg := hpart g (bne_iff_ne.mp (List.mem_filter.mp hg).2)
    refine rank_lt_of_candidate (.inl ?_)
    rw [hf, hg]
    exact Nat.zero_lt_one

/-- The search by name meets candidates with files in ascending rank. -/
theorem pairwise_nominations (r : Repository) (interface : String) :
    (nominations r interface).Pairwise fun x y => x.rank r interface < y.rank r interface := by
  rw [nominations, List.pairwise_flatMap]
  refine ⟨?_, ?_⟩
  · intro candidate _
    rw [List.pairwise_map]
    exact pairwise_filesContaining r interface candidate
  · refine (pairwise_idxOf (nodup_keepFirst_id _)).imp fun {c d} hcd => ?_
    intro x hx y hy
    obtain ⟨f, -, rfl⟩ := List.mem_map.mp hx
    obtain ⟨g, -, rfl⟩ := List.mem_map.mp hy
    exact Prod.Lex.toLex_lt_toLex.mpr (.inl hcd)

theorem Nomination.First.unique (hx : x.First r interface) (hy : y.First r interface) : x = y := by
  have hrank := le_antisymm (hx.rank_le y hy.stands) (hy.rank_le x hx.stands)
  simp only [Nomination.rank, toLex_inj, Prod.mk.injEq] at hrank
  obtain ⟨hcandidate, -, hfile⟩ := hrank
  cases x
  cases y
  cases (List.idxOf_inj hx.stands.candidate_mem).mp hcandidate
  cases (List.idxOf_inj hx.stands.file_mem).mp hfile
  rfl

/-- What the search by name makes of a file. -/
theorem localBinding?_eq_findSome? (r : Repository) (interface : String) (members : List Entity)
    (interfaceFiles : List String) :
    localBinding? r interface members (candidateNames interface) interfaceFiles =
      (nominations r interface).findSome? fun x =>
        if interfaceFiles.contains x.file = false ∧ matchesIn r members x.file ≠ [] then
          some (.ofMatches interface x.file (matchesIn r members x.file) members .name)
        else none := by
  -- the files are gone through in the order of the nominations
  have hfiles : (candidateNames interface).flatMap r.filesContaining =
      (nominations r interface).map Nomination.file := by
    rw [nominations, List.map_flatMap]
    congr 1
    funext candidate
    rw [List.map_map]
    exact (List.map_id _).symm
  rw [localBinding?, hfiles, List.findSome?_map]
  congr 1
  funext x
  rw [Function.comp_apply]
  cases interfaceFiles.contains x.file with
  | true => rfl
  | false =>
    rw [if_neg Bool.false_ne_true]
    cases matchesIn r members x.file with
    | nil => rfl
    | cons => rfl

theorem stands_iff :
    x.Stands r interface ↔ x ∈ nominations r interface ∧
      (filesOf (declaredMembers r interface)).contains x.file = false ∧
      matchesIn r (declaredMembers r interface) x.file ≠ [] := by
  rw [mem_nominations, contains_filesOf_eq_false, Ne, matchesIn_eq_nil_iff]
  push Not
  constructor
  · rintro ⟨hcandidate, hfile, hcontains, hforeign, hmatched⟩
    exact ⟨⟨hcandidate, hfile, hcontains⟩, hforeign, hmatched⟩
  · rintro ⟨⟨hcandidate, hfile, hcontains⟩, hforeign, hmatched⟩
    exact ⟨hcandidate, hfile, hcontains, hforeign, hmatched⟩

end

section

variable (r : Repository) (interface : String)

/-- What is found by name among the known files. -/
def byName? : Option Binding :=
  localBinding? r interface (declaredMembers r interface) (candidateNames interface)
    (filesOf (declaredMembers r interface))

/-- What is found by members among the known files. -/
def byMembers? : Option Binding :=
  scanBinding? r interface (declaredMembers r interface) (filesOf (declaredMembers r interface))

/-- The binding of the interface to a file, with the members that the file implements. -/
def bindingTo (file : String) (strategy : Strategy) : Binding :=
  .ofMatches interface file (matchesIn r (declaredMembers r interface) file)
    (declaredMembers r interface) strategy

end

section

variable {r : Repository} {interface : String} {b : Binding}

theorem byName?_eq_none_iff :
    byName? r interface = none ↔ ∀ x, ¬ Nomination.Stands r interface x := by
  rw [byName?, localBinding?_eq_findSome?, List.findSome?_eq_none_iff]
  constructor
  · intro h x hx
    obtain ⟨hmem, hstands⟩ := stands_iff.mp hx
    have hnone := h x hmem
    rw [if_pos hstands] at hnone
    cases hnone
  · intro h x hmem
    exact if_neg fun hstands => h x (stands_iff.mpr ⟨hmem, hstands⟩)

theorem exists_first_of_byName? (h : byName? r interface = some b) :
    ∃ x, Nomination.First r interface x ∧ b = bindingTo r interface x.file .name := by
  rw [byName?, localBinding?_eq_findSome?, List.findSome?_eq_some_iff] at h
  obtain ⟨front, x, back, hsplit, hx, hfront⟩ := h
  have hsorted := pairwise_nominations r interface
  rw [hsplit, List.pairwise_append, List.pairwise_cons] at hsorted
  split_ifs at hx with hstands
  have hmem : x ∈ nominations r interface := by
    rw [hsplit]
    exact List.mem_append_right _ List.mem_cons_self
  refine ⟨x, ⟨stands_iff.mpr ⟨hmem, hstands⟩, ?_⟩, (Option.some.inj hx).symm⟩
  intro y hy
  obtain ⟨hmem, hstands⟩ := stands_iff.mp hy
  rw [hsplit, List.mem_append, List.mem_cons] at hmem
  rcases hmem with hmem | rfl | hmem
  · -- what was met before would not do
    have hnone := hfront y hmem
    rw [if_pos hstands] at hnone
    cases hnone
  · exact le_rfl
  · exact (hsorted.2.1.1 y hmem).le

theorem byName?_eq_some_iff :
    byName? r interface = some b ↔
      ∃ x, Nomination.First r interface x ∧ b = bindingTo r interface x.file .name := by
  refine ⟨exists_first_of_byName?, ?_⟩
  rintro ⟨x, hx, rfl⟩
  rcases hfound : byName? r interface with _ | b
  · exact absurd hx.stands (byName?_eq_none_iff.mp hfound x)
  · obtain ⟨y, hy, rfl⟩ := exists_first_of_byName? hfound
    rw [hx.unique hy]

end

/-! ### Choosing by members -/

instance (r : Repository) (file : String) (m : Entity) : Decidable (∃ i, Counterpart r file m i) :=
  decidable_of_iff _ any_compatible_iff

/-- How many members of the interface have a counterpart in a file. -/
def matchedCount (r : Repository) (interface file : String) : Nat :=
  (declaredMembers r interface).countP fun m => ∃ i, Counterpart r file m i

/-- Whether a file can be bound to for its members: it is no file of the interface and does not look
like one of an interface. -/
structure Contends (r : Repository) (interface file : String) : Prop where
  file_mem : file ∈ r.files
  foreign : ∀ m ∈ declaredMembers r interface, m.file ≠ file
  plain : looksLikeInterface file = false

/-- Whether a file is the earliest of those that implement most members, and these are more than
half. -/
structure Elected (r : Repository) (interface file : String) : Prop where
  contends : Contends r interface file
  most : ∀ other, Contends r interface other →
    matchedCount r interface other ≤ matchedCount r interface file
  earliest : ∀ other, Contends r interface other →
    matchedCount r interface other = matchedCount r interface file →
    r.files.idxOf file ≤ r.files.idxOf other
  majority : (declaredMembers r interface).length < 2 * matchedCount r interface file

section

variable {r : Repository} {interface : String} {b : Binding}

theorem length_matchesIn_declaredMembers (r : Repository) (interface file : String) :
    (matchesIn r (declaredMembers r interface) file).length = matchedCount r interface file := by
  rw [length_matchesIn, ← List.countP_eq_length_filter, matchedCount]
  congr 1
  funext m
  rw [Bool.eq_iff_iff, any_compatible_iff, decide_eq_true_eq]

theorem better_none (file : String) :
    better r interface (declaredMembers r interface) none file =
      if (declaredMembers r interface).length < 2 * matchedCount r interface file then
        some (bindingTo r interface file .scan)
      else none := by
  rw [better, bindingTo]
  simp only [Option.all_none, Bool.and_true, decide_eq_true_eq, length_matchesIn_declaredMembers]

theorem better_some (f file : String) :
    better r interface (declaredMembers r interface) (some (bindingTo r interface f .scan)) file =
      if (declaredMembers r interface).length < 2 * matchedCount r interface file ∧
          matchedCount r interface f < matchedCount r interface file then
        some (bindingTo r interface file .scan)
      else some (bindingTo r interface f .scan) := by
  rw [better, bindingTo, bindingTo]
  simp only [Option.all_some, Bool.and_eq_true, decide_eq_true_eq, Binding.ofMatches,
    length_matchesIn_declaredMembers]

/-- The search by members keeps none of the files if none implements more than half, and otherwise
the first of those that implement most. -/
theorem foldl_better_cases (r : Repository) (interface : String) (files : List String) :
    (files.foldl (better r interface (declaredMembers r interface)) none = none ∧
      ∀ f ∈ files, 2 * matchedCount r interface f ≤ (declaredMembers r interface).length) ∨
    ∃ front f back, files = front ++ f :: back ∧
      files.foldl (better r interface (declaredMembers r interface)) none =
        some (bindingTo r interface f .scan) ∧
      (declaredMembers r interface).length < 2 * matchedCount r interface f ∧
      (∀ g ∈ front, matchedCount r interface g < matchedCount r interface f) ∧
      ∀ g ∈ back, matchedCount r interface g ≤ matchedCount r interface f := by
  -- files are gone through in order, so the induction is from the end
  induction files using List.reverseRecOn with
  | nil => exact .inl ⟨rfl, nofun⟩
  | append_singleton files file ih =>
    rw [List.foldl_append, List.foldl_cons, List.foldl_nil]
    rcases ih with ⟨hnone, hfew⟩ | ⟨front, f, back, rfl, hbest, hhalf, hfront, hback⟩
    · -- the first file that implements more than half is kept
      rw [hnone, better_none]
      by_cases hmore : (declaredMembers r interface).length < 2 * matchedCount r interface file
      · refine .inr ⟨files, file, [], rfl, ?_, hmore, ?_, nofun⟩
        · rw [if_pos hmore]
        · intro g hg
          have := hfew g hg
          omega
      · refine .inl ⟨if_neg hmore, ?_⟩
        intro g hg
        rcases List.mem_append.mp hg with hg | hg
        · exact hfew g hg
        · rw [List.mem_singleton.mp hg]
          exact Nat.le_of_not_lt hmore
    · rw [hbest, better_some]
      by_cases hmore : matchedCount r interface f < matchedCount r interface file
      · -- more than half follows, since those of `f` are already
        have hhalf' : (declaredMembers r interface).length < 2 * matchedCount r interface file := by
          omega
        refine .inr ⟨front ++ f :: back, file, [], rfl, ?_, hhalf', ?_, nofun⟩
        · rw [if_pos ⟨hhalf', hmore⟩]
        · intro g hg
          rw [List.mem_append, List.mem_cons] at hg
          rcases hg with hg | rfl | hg
          · exact (hfront g hg).trans hmore
          · exact hmore
          · exact (hback g hg).trans_lt hmore
      · refine .inr ⟨front, f, back ++ [file], ?_, ?_, hhalf, hfront, ?_⟩
        · rw [List.append_assoc, List.cons_append]
        · exact if_neg fun h => hmore h.2
        · intro g hg
          rcases List.mem_append.mp hg with hg | hg
          · exact hback g hg
          · rw [List.mem_singleton.mp hg]
            exact Nat.le_of_not_lt hmore

theorem mem_contenders {file : String} :
    file ∈ r.files.filter (fun f => !(filesOf (declaredMembers r interface)).contains f &&
        !looksLikeInterface f) ↔ Contends r interface file := by
  rw [List.mem_filter, Bool.and_eq_true, Bool.not_eq_true', Bool.not_eq_true',
    contains_filesOf_eq_false]
  constructor
  · rintro ⟨hfile, hforeign, hplain⟩
    exact ⟨hfile, hforeign, hplain⟩
  · rintro ⟨hfile, hforeign, hplain⟩
    exact ⟨hfile, hforeign, hplain⟩

theorem Elected.unique {f g : String} (hf : Elected r interface f) (hg : Elected r interface g) :
    f = g := by
  have hcount := le_antisymm (hg.most f hf.contends) (hf.most g hg.contends)
  have hplace := le_antisymm (hf.earliest g hg.contends hcount.symm)
    (hg.earliest f hf.contends hcount)
  exact (List.idxOf_inj hf.contends.file_mem).mp hplace

/-- Nothing is found by members, and no file is elected, or the file is elected that is found. -/
theorem byMembers?_cases (r : Repository) (interface : String) :
    (byMembers? r interface = none ∧ ∀ file, ¬ Elected r interface file) ∨
      ∃ file, Elected r interface file ∧
        byMembers? r interface = some (bindingTo r interface file .scan) := by
  have hplaces := (pairwise_idxOf (nodup_files r)).filter fun f =>
    !(filesOf (declaredMembers r interface)).contains f && !looksLikeInterface f
  rcases foldl_better_cases r interface (r.files.filter fun f =>
      !(filesOf (declaredMembers r interface)).contains f && !looksLikeInterface f) with
    ⟨hnone, hfew⟩ | ⟨front, f, back, hsplit, hbest, hhalf, hfront, hback⟩
  · refine .inl ⟨hnone, fun file hfile => ?_⟩
    have hle := hfew file (mem_contenders.mpr hfile.contends)
    have hlt := hfile.majority
    omega
  · rw [hsplit, List.pairwise_append, List.pairwise_cons] at hplaces
    -- a contender comes before `f` and has less, or it is `f`, or it comes behind
    have hcases : ∀ other, Contends r interface other →
        other ∈ front ∨ other = f ∨ other ∈ back := by
      intro other hother
      have hmem := mem_contenders.mpr hother
      rwa [hsplit, List.mem_append, List.mem_cons] at hmem
    have hcontends : Contends r interface f := by
      rw [← mem_contenders, hsplit]
      exact List.mem_append_right _ List.mem_cons_self
    refine .inr ⟨f, ⟨hcontends, ?_, ?_, hhalf⟩, hbest⟩
    · intro other hother
      rcases hcases other hother with h | rfl | h
      · exact (hfront other h).le
      · exact le_rfl
      · exact hback other h
    · intro other hother hequal
      rcases hcases other hother with h | rfl | h
      · exact absurd hequal (hfront other h).ne
      · exact le_rfl
      · exact (hplaces.2.1.1 other h).le

theorem byMembers?_eq_none_iff :
    byMembers? r interface = none ↔ ∀ file, ¬ Elected r interface file := by
  rcases byMembers?_cases r interface with ⟨hnone, hnobody⟩ | ⟨file, hfile, hsome⟩
  · exact iff_of_true hnone hnobody
  · rw [hsome]
    exact iff_of_false (Option.some_ne_none _) fun h => h file hfile

theorem byMembers?_eq_some_iff :
    byMembers? r interface = some b ↔
      ∃ file, Elected r interface file ∧ b = bindingTo r interface file .scan := by
  rcases byMembers?_cases r interface with ⟨hnone, hnobody⟩ | ⟨file, hfile, hsome⟩
  · rw [hnone]
    refine iff_of_false (Option.some_ne_none b).symm ?_
    rintro ⟨file, hfile, -⟩
    exact hnobody file hfile
  · rw [hsome, Option.some.injEq, eq_comm]
    constructor
    · intro hb
      exact ⟨file, hfile, hb⟩
    · rintro ⟨other, hother, hb⟩
      rwa [hfile.unique hother]

end

/-! ### The choice -/

theorem bindingFor_of_new {env : Environment} (henv : env.fetchRemote = false)
    (identifier : String) (coords : Option Coords) {p : Progress}
    (hnew : p.session.bindings.get? (nameOf identifier) = none)
    (hmembers : declaredMembers p.session.repository (nameOf identifier) ≠ []) :
    ∃ q, bindingFor env identifier coords p =
      (some ((byName? p.session.repository (nameOf identifier)).or
        (byMembers? p.session.repository (nameOf identifier))), q) := by
  obtain ⟨q, hrun, -⟩ := bindingFor_yields henv identifier coords p rfl
  refine ⟨q, ?_⟩
  rw [hrun, Session.known_bindingOf, hnew, Option.getD_none, foundAmong?,
    if_neg (mt List.isEmpty_iff.mp hmembers)]
  rfl

/-- **Without fetching, the choice is exact.**  An interface with members about which nothing is
decided is bound to the file of the nomination that comes first, if there is one that will do.  If
there is none it is bound to the earliest file with most members, if these are more than half.  It
stays without a binding iff there is neither. -/
theorem bindingFor_exact {env : Environment} (henv : env.fetchRemote = false)
    (identifier : String) (coords : Option Coords) {p : Progress}
    (hnew : p.session.bindings.get? (nameOf identifier) = none)
    (hmembers : declaredMembers p.session.repository (nameOf identifier) ≠ []) :
    let r := p.session.repository
    let interface := nameOf identifier
    ∃ answer q, bindingFor env identifier coords p = (some answer, q) ∧
      (∀ b, answer = some b ↔
        (∃ x, Nomination.First r interface x ∧ b = bindingTo r interface x.file .name) ∨
        (∀ x, ¬ Nomination.Stands r interface x) ∧
          ∃ file, Elected r interface file ∧ b = bindingTo r interface file .scan) ∧
      (answer = none ↔
        (∀ x, ¬ Nomination.Stands r interface x) ∧ ∀ file, ¬ Elected r interface file) := by
  intro r interface
  obtain ⟨q, hrun⟩ := bindingFor_of_new henv identifier coords hnew hmembers
  refine ⟨_, q, hrun, ?_, ?_⟩
  · intro b
    rw [Option.or_eq_some_iff, byName?_eq_some_iff, byName?_eq_none_iff, byMembers?_eq_some_iff]
  · rw [Option.or_eq_none_iff, byName?_eq_none_iff, byMembers?_eq_none_iff]

/-- Nothing can be read, and no implementation may be fetched. -/
def offline : Environment :=
  { Environment.barren with fetchRemote := false }

/-- An interface with two members.  One file has both, but no promising name; of two files with a
promising name, the one that is met first has less of it. -/
def shelf : Progress where
  session :=
    { repository := ⟨[
        { name := "deposit", signature := "deposit()", file := "IVault.sol" },
        { name := "total", signature := "total()", file := "IVault.sol" },
        { name := "deposit", signature := "deposit()", file := "Bank.sol" },
        { name := "total", signature := "total()", file := "Bank.sol" },
        { name := "deposit", signature := "deposit()", file := "VaultProxy.sol" },
        { name := "total", signature := "total()", file := "Vault.sol" }]⟩ }

/-- The whole stem is preferred, and one member found by name to two found by members. -/
theorem bindingFor_exact_shelf :
    offline.fetchRemote = false ∧
      shelf.session.bindings.get? (nameOf "IVault.sol") = none ∧
      declaredMembers shelf.session.repository (nameOf "IVault.sol") ≠ [] ∧
      ∃ x q, Nomination.First shelf.session.repository (nameOf "IVault.sol") x ∧
        x.file = "Vault.sol" ∧
        bindingFor offline "IVault.sol" none shelf =
          (some (some (bindingTo shelf.session.repository (nameOf "IVault.sol") "Vault.sol" .name)),
            q) := by
  have henv : offline.fetchRemote = false := rfl
  have hnew : shelf.session.bindings.get? (nameOf "IVault.sol") = none := by decide +kernel
  have hmembers : declaredMembers shelf.session.repository (nameOf "IVault.sol") ≠ [] := by
    decide +kernel
  have hfound : (bindingFor offline "IVault.sol" none shelf).1 =
      some (some (bindingTo shelf.session.repository (nameOf "IVault.sol") "Vault.sol" .name)) := by
    decide +kernel
  obtain ⟨answer, q, hrun, hsome, -⟩ := bindingFor_exact henv "IVault.sol" none hnew hmembers
  rw [hrun] at hfound
  cases hfound
  refine ⟨henv, hnew, hmembers, ?_⟩
  rcases (hsome _).mp rfl with ⟨x, hx, hb⟩ | ⟨-, file, -, hb⟩
  · exact ⟨x, q, hx, (congrArg Binding.file hb).symm, hrun⟩
  · cases congrArg Binding.strategy hb

end CallAtlas.Interface

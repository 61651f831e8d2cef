import CallAtlas.Proofs.Interface.Choice
import CallAtlas.Proofs.Text

/-!
# Which candidates can win

Files of an interface are told by their names: every file whose name contains that of the interface
counts, and none of them is taken for an implementation.  The name of an implementation is made from
that of the interface, so it may contain it.  Then the file of the implementation counts as one of
the interface, and is passed over although its name was looked for.

* `confusedNames interface`: the candidates to which this happens.
* `mem_confusedNames_iff`: these are the candidates that contain the name of the interface.
* `ImplementedBy r file file'`: two files, of which one has counterparts of the other's functions.
* `bindingFor_candidate`: the file of a candidate wins iff it does not count as one of the interface.
-/

namespace CallAtlas.Interface

open CallAtlas.Text
open CallAtlas.Path (sourceFile basename_sourceFile)
open Import (sourceExtension)

/-! ### Names -/

/-- Whether a name has a marker: an `I` in front of a capital. -/
structure Marked (name : String) (capital : Char) (rest : List Char) : Prop where
  isUpper : capital.isUpper = true
  toList_eq : name.toList = 'I' :: capital :: rest
  toList_withoutMarker : (withoutMarker name).toList = capital :: rest

theorem withoutMarker_cases (name : String) :
    withoutMarker name = name ∨ ∃ capital rest, Marked name capital rest := by
  have hcases : withoutMarker name = name ∨ ∃ c rest, c.isUpper = true ∧
      name.toList = 'I' :: c :: rest ∧ withoutMarker name = String.ofList (c :: rest) := by
    rw [withoutMarker]
    split
    next c rest hname =>
      split_ifs with hc
      · exact .inr ⟨c, rest, hc, hname, rfl⟩
      · exact .inl rfl
    next => exact .inl rfl
  rcases hcases with hsame | ⟨c, rest, hc, hname, hbase⟩
  · exact .inl hsame
  · exact .inr ⟨c, rest, hc, hname, by rw [hbase, String.toList_ofList]⟩

theorem mem_candidateNames {interface candidate : String} :
    candidate ∈ candidateNames interface ↔
      candidate ∈ [withoutMarker interface, withoutMarker interface ++ "Impl",
        withoutMarker interface ++ "Contract", withoutMarker interface ++ "Implementation",
        "Concrete" ++ withoutMarker interface, interface ++ "Impl",
        lower (withoutMarker interface), uncapitalized (withoutMarker interface)] ∧
        candidate ≠ "" := by
  rw [candidateNames, mem_keepFirst_id, List.mem_filter, bne_iff_ne]

theorem mem_removeFrom {part s : List Char} {skip : Nat} {x : Char}
    (h : x ∈ removeFrom part skip s) : x ∈ s := by
  fun_induction removeFrom part skip s with
  | case1 => exact h
  | case2 skip c s ih => exact List.mem_cons_of_mem c (ih h)
  | case3 c s hpart ih => exact List.mem_cons_of_mem c (ih h)
  | case4 c s hpart ih =>
    rcases List.mem_cons.mp h with rfl | h
    · exact List.mem_cons_self
    · exact List.mem_cons_of_mem c (ih h)

theorem slash_notMem_nameOf (identifier : String) : '/' ∉ (nameOf identifier).toList := by
  intro h
  rw [nameOf, String.toList_ofList] at h
  have hname := mem_removeFrom h
  rw [Path.basename, String.toList_ofList] at hname
  exact Path.notMem_afterLast '/' _ hname

theorem toList_uncapitalized (name : String) :
    (uncapitalized name).toList =
      (lower (String.ofList (name.toList.take 1))).toList ++ name.toList.drop 1 := by
  rw [uncapitalized, String.toList_append, String.toList_ofList]

/-- A candidate has no slash that the interface does not have. -/
theorem slash_notMem_of_mem_candidateNames {interface candidate : String}
    (hinterface : '/' ∉ interface.toList) (h : candidate ∈ candidateNames interface) :
    '/' ∉ candidate.toList := by
  have hbase : '/' ∉ (withoutMarker interface).toList := by
    rcases withoutMarker_cases interface with hsame | ⟨capital, rest, hmarked⟩
    · rwa [hsame]
    · rw [hmarked.toList_withoutMarker]
      rw [hmarked.toList_eq] at hinterface
      exact fun hmem => hinterface (List.mem_cons_of_mem _ hmem)
  have hlower : ∀ s : String, '/' ∉ s.toList → '/' ∉ (lower s).toList :=
    fun s hs hmem => hs (mem_of_mem_lower hmem (by decide))
  have happend : ∀ s t : String, '/' ∉ s.toList → '/' ∉ t.toList → '/' ∉ (s ++ t).toList := by
    intro s t hs ht
    rw [String.toList_append, List.mem_append, not_or]
    exact ⟨hs, ht⟩
  have hcandidate := (mem_candidateNames.mp h).1
  simp only [List.mem_cons, List.not_mem_nil, or_false] at hcandidate
  -- each candidate is put together from these
  rcases hcandidate with rfl | rfl | rfl | rfl | rfl | rfl | rfl | rfl
  · exact hbase
  · exact happend _ _ hbase (by decide)
  · exact happend _ _ hbase (by decide)
  · exact happend _ _ hbase (by decide)
  · exact happend _ _ (by decide) hbase
  · exact happend _ _ hinterface (by decide)
  · exact hlower _ hbase
  · rw [toList_uncapitalized, List.mem_append, not_or]
    refine ⟨hlower _ ?_, fun hmem => hbase (List.mem_of_mem_drop hmem)⟩
    rw [String.toList_ofList]
    exact fun hmem => hbase (List.mem_of_mem_take hmem)

/-! ### Names that contain that of the interface -/

/-- The candidates whose own files count as files of the interface. -/
def confusedNames (interface : String) : List String :=
  let base := withoutMarker interface
  if base = interface then
    [interface ++ "Impl", interface ++ "Contract", interface ++ "Implementation",
      "Concrete" ++ interface]
  else if interface.toList.all (· == 'I') then
    [base ++ "Impl", base ++ "Implementation", interface ++ "Impl"]
  else [interface ++ "Impl"]

theorem contains_append (name ending : String) : contains (name ++ ending) name = true := by
  rw [contains_iff, String.toList_append]
  exact (List.prefix_append _ _).isInfix

theorem contains_append_append (name back ending : String) :
    contains (name ++ back ++ ending) name = true := by
  rw [String.append_assoc]
  exact contains_append name (back ++ ending)

theorem contains_middle (front name ending : String) :
    contains (front ++ name ++ ending) name = true := by
  rw [contains_iff, String.toList_append, String.toList_append]
  exact ⟨front.toList, ending.toList, rfl⟩

/-- A list stays the same when its first member moves to its end iff it has no other member. -/
theorem cons_eq_append_singleton_iff {x : Char} {l : List Char} :
    x :: l = l ++ [x] ↔ ∀ y ∈ l, y = x := by
  constructor
  · intro h
    induction l with
    | nil =>
      intro y hy
      cases hy
    | cons z l ih =>
      rw [List.cons_append] at h
      obtain ⟨rfl, hrest⟩ := List.cons.inj h
      intro y hy
      rcases List.mem_cons.mp hy with rfl | hy
      · rfl
      · exact ih hrest y hy
  · intro h
    rw [List.eq_replicate_of_mem h, ← List.replicate_succ, List.replicate_succ']

/-- If `x :: l` occurs in `l ++ x :: tail` then at the front, as long as the first member of `l` is
not in the tail. -/
theorem cons_eq_append_of_infix {x u : Char} {rest tail : List Char} (hu : u ∉ tail)
    (h : x :: u :: rest <:+: (u :: rest) ++ x :: tail) : x :: u :: rest = (u :: rest) ++ [x] := by
  obtain ⟨front, back, h⟩ := h
  cases front with
  | nil =>
    have hsplit : (x :: u :: rest) ++ back = ((u :: rest) ++ [x]) ++ tail := by
      rw [List.append_assoc, List.singleton_append]
      exact h
    exact List.append_inj_left hsplit (by simp)
  | cons y front =>
    -- the front would begin with `u`, of which the whole has no more than the part
    have hy : y = u := (List.cons.inj h).1
    have hcount := congrArg (List.count u) h
    rw [hy] at hcount
    simp only [List.count_append, List.count_cons, List.count_eq_zero_of_not_mem hu, beq_self_eq_true,
      if_true] at hcount
    omega

section

variable {interface candidate : String}

theorem small_of_mem_sourceExtension : ∀ x ∈ sourceExtension.toList, Small x := by
  have hall : sourceExtension.toList.all (fun x => decide (Small x)) = true := by decide +kernel
  intro x hx
  exact of_decide_eq_true (List.all_eq_true.mp hall x hx)

/-- A name occurs in the name with a small first character only if its own is small. -/
theorem uncapitalized_eq_of_contains
    (h : contains (uncapitalized interface ++ sourceExtension) interface = true) :
    uncapitalized interface = interface := by
  rw [← String.toList_inj, toList_uncapitalized]
  rcases hname : interface.toList with _ | ⟨x, xs⟩
  · rfl
  · have htake : (x :: xs).take 1 = [x] := rfl
    have hdrop : (x :: xs).drop 1 = xs := rfl
    rw [htake, hdrop]
    have hsmall : Small x := by
      by_contra hx
      -- otherwise it is gone from the front, and not to be found behind
      have hcount := count_le_of_contains h x
      have hfront : x ∉ (lower (String.ofList [x])).toList := fun hmem => hx (small_of_mem_lower hmem)
      have hback : x ∉ sourceExtension.toList :=
        fun hmem => hx (small_of_mem_sourceExtension x hmem)
      rw [String.toList_append, toList_uncapitalized, hname, htake, hdrop, List.count_append,
        List.count_append, List.count_cons_self, List.count_eq_zero_of_not_mem hfront,
        List.count_eq_zero_of_not_mem hback] at hcount
      omega
    have hlower : lower (String.ofList [x]) = String.ofList [x] := by
      refine lower_of_small fun y hy => ?_
      rw [String.toList_ofList, List.mem_singleton] at hy
      rwa [hy]
    rw [hlower, String.toList_ofList, List.singleton_append]

/-- Without a marker, only the two names in lower case do not contain that of the interface. -/
theorem mem_confusedNames_iff_of_unmarked (hbase : withoutMarker interface = interface)
    (hcandidate : candidate ∈ candidateNames interface) (hne : candidate ≠ interface) :
    candidate ∈ confusedNames interface ↔
      contains (candidate ++ sourceExtension) interface = true := by
  rw [confusedNames, if_pos hbase]
  constructor
  · intro h
    simp only [List.mem_cons, List.not_mem_nil, or_false] at h
    rcases h with rfl | rfl | rfl | rfl
    · exact contains_append_append interface "Impl" _
    · exact contains_append_append interface "Contract" _
    · exact contains_append_append interface "Implementation" _
    · exact contains_middle "Concrete" interface _
  · intro h
    have hmem := (mem_candidateNames.mp hcandidate).1
    rw [hbase] at hmem
    simp only [List.mem_cons, List.not_mem_nil, or_false] at hmem ⊢
    rcases hmem with rfl | rfl | rfl | rfl | rfl | rfl | rfl | rfl
    · exact absurd rfl hne
    · exact .inl rfl
    · exact .inr (.inl rfl)
    · exact .inr (.inr (.inl rfl))
    · exact .inr (.inr (.inr rfl))
    · exact .inl rfl
    · -- all that occurs in lower case is small, and would be left alone
      refine absurd (lower_of_small fun x hx => ?_) hne
      have hx' := (contains_iff.mp h).subset hx
      rw [String.toList_append, List.mem_append] at hx'
      rcases hx' with hx' | hx'
      · exact small_of_mem_lower hx'
      · exact small_of_mem_sourceExtension x hx'
    · exact absurd (uncapitalized_eq_of_contains h) hne

theorem count_lower (s : String) : (lower s).toList.count 'I' = 0 := by
  refine List.count_eq_zero_of_not_mem fun hmem => ?_
  have hsmall : ¬ Small 'I' := by decide +kernel
  exact hsmall (small_of_mem_lower hmem)

namespace Marked

variable {capital : Char} {rest : List Char}

theorem withoutMarker_ne (h : Marked interface capital rest) :
    withoutMarker interface ≠ interface := by
  intro heq
  have hlength := congrArg (fun s : String => s.toList.length) heq
  simp [h.toList_withoutMarker, h.toList_eq] at hlength

/-- The name of the interface has one more `I` than what is left of it without the marker. -/
theorem not_contains (h : Marked interface capital rest)
    (hcount : candidate.toList.count 'I' ≤ (capital :: rest).count 'I') :
    ¬ contains (candidate ++ sourceExtension) interface = true := by
  intro hcontains
  have hle := count_le_of_contains hcontains 'I'
  have hextension : sourceExtension.toList.count 'I' = 0 := by decide
  rw [h.toList_eq, String.toList_append, List.count_append, hextension, List.count_cons_self] at hle
  omega

/-- What is left of the name, followed by an `I` and no other capital, contains the name iff that is
made of `I` alone. -/
theorem contains_append_iff (h : Marked interface capital rest) (back : String) (tail : List Char)
    (hback : (back ++ sourceExtension).toList = 'I' :: tail)
    (htail : tail.any Char.isUpper = false) :
    contains (withoutMarker interface ++ back ++ sourceExtension) interface = true ↔
      interface.toList.all (· == 'I') = true := by
  have hcapital : capital ∉ tail :=
    fun hmem => List.any_eq_false.mp htail capital hmem h.isUpper
  have hall : interface.toList.all (· == 'I') = true ↔ ∀ x ∈ capital :: rest, x = 'I' := by
    rw [h.toList_eq, List.all_cons, beq_self_eq_true, Bool.true_and, List.all_eq_true]
    simp only [beq_iff_eq]
  rw [hall, ← cons_eq_append_singleton_iff, contains_iff, String.append_assoc,
    String.toList_append, h.toList_withoutMarker, hback, h.toList_eq]
  constructor
  · exact cons_eq_append_of_infix hcapital
  · intro heq
    rw [heq]
    exact ⟨[], tail, by simp⟩

theorem mem_confusedNames_iff (h : Marked interface capital rest)
    (hcandidate : candidate ∈ candidateNames interface) :
    candidate ∈ confusedNames interface ↔
      contains (candidate ++ sourceExtension) interface = true := by
  have himpl := h.contains_append_iff "Impl" "mpl.sol".toList rfl (by decide)
  have himplementation := h.contains_append_iff "Implementation" "mplementation.sol".toList rfl
    (by decide)
  have hwhole := contains_append_append interface "Impl" sourceExtension
  rw [confusedNames, if_neg h.withoutMarker_ne]
  constructor
  · intro hmem
    split_ifs at hmem with hall
    · simp only [List.mem_cons, List.not_mem_nil, or_false] at hmem
      rcases hmem with rfl | rfl | rfl
      · exact himpl.mpr hall
      · exact himplementation.mpr hall
      · exact hwhole
    · rw [List.mem_singleton.mp hmem]
      exact hwhole
  · intro hcontains
    have hmem := (mem_candidateNames.mp hcandidate).1
    simp only [List.mem_cons, List.not_mem_nil, or_false] at hmem
    -- other candidates have too few capital `I`s for the interface to be in them
    rcases hmem with rfl | rfl | rfl | rfl | rfl | rfl | rfl | rfl
    · refine absurd hcontains (h.not_contains ?_)
      rw [h.toList_withoutMarker]
    · rw [if_pos (himpl.mp hcontains)]
      exact List.mem_cons_self
    · refine absurd hcontains (h.not_contains ?_)
      have hcount : "Contract".toList.count 'I' = 0 := by decide
      rw [String.toList_append, h.toList_withoutMarker, List.count_append, hcount, Nat.add_zero]
    · rw [if_pos (himplementation.mp hcontains)]
      exact List.mem_cons_of_mem _ List.mem_cons_self
    · refine absurd hcontains (h.not_contains ?_)
      have hcount : "Concrete".toList.count 'I' = 0 := by decide
      rw [String.toList_append, h.toList_withoutMarker, List.count_append, hcount, Nat.zero_add]
    · split_ifs
      · exact List.mem_cons_of_mem _ (List.mem_cons_of_mem _ List.mem_cons_self)
      · exact List.mem_cons_self
    · refine absurd hcontains (h.not_contains ?_)
      rw [count_lower]
      exact Nat.zero_le _
    · refine absurd hcontains (h.not_contains ?_)
      rw [toList_uncapitalized, h.toList_withoutMarker, List.count_append, count_lower, Nat.zero_add]
      exact (List.drop_sublist 1 _).count_le 'I'

end Marked

/-- The confused names are the candidates whose files have the name of the interface in theirs. -/
theorem mem_confusedNames_iff (hcandidate : candidate ∈ candidateNames interface)
    (hne : candidate ≠ interface) :
    candidate ∈ confusedNames interface ↔
      contains (candidate ++ sourceExtension) interface = true := by
  rcases withoutMarker_cases interface with hbase | ⟨capital, rest, hmarked⟩
  · exact mem_confusedNames_iff_of_unmarked hbase hcandidate hne
  · exact hmarked.mem_confusedNames_iff hcandidate

/-- Every interface has a candidate that is confused with it. -/
theorem append_mem_confusedNames (interface : String) :
    interface ++ "Impl" ∈ candidateNames interface ∧
      interface ++ "Impl" ∈ confusedNames interface := by
  refine ⟨mem_candidateNames.mpr ⟨by simp, ?_⟩, ?_⟩
  · intro h
    have hlength := congrArg (fun s : String => s.toList.length) h
    simp at hlength
  · rw [confusedNames]
    split_ifs
    · exact List.mem_cons_self
    · simp
    · exact List.mem_cons_self

end

/-! ### Two files -/

/-- Whether all declarations are in two files, the first has functions, and the second has
counterparts of all of them. -/
structure ImplementedBy (r : Repository) (file file' : String) : Prop where
  file_eq : ∀ e ∈ r.entities, e.file = file ∨ e.file = file'
  declared : ∃ m ∈ r.entities, m.file = file ∧ m.kind = .function
  counterpart : ∀ m ∈ r.entities, m.file = file → m.kind = .function →
    ∃ i, Counterpart r file' m i

namespace ImplementedBy

variable {r : Repository} {file file' interface candidate : String}

theorem exists_mem_declaredMembers (h : ImplementedBy r file file')
    (hfile : Path.basename file = interface ++ sourceExtension) :
    ∃ m ∈ declaredMembers r interface, m.file = file := by
  obtain ⟨m, hm, rfl, hkind⟩ := h.declared
  refine ⟨m, mem_declaredMembers.mpr ⟨hm, hkind, ?_⟩, rfl⟩
  rw [hfile]
  exact contains_append _ _

theorem eq_of_mem_files (h : ImplementedBy r file file') {f : String} (hf : f ∈ r.files) :
    f = file ∨ f = file' := by
  rw [Repository.files, mem_keepFirst_id] at hf
  obtain ⟨e, he, rfl⟩ := List.mem_map.mp hf
  exact h.file_eq e he

/-- If both files have members of the interface then neither is taken for an implementation. -/
theorem not_found (h : ImplementedBy r file file')
    (hfile : Path.basename file = interface ++ sourceExtension)
    (hmember : ∃ m ∈ declaredMembers r interface, m.file = file') :
    (byName? r interface).or (byMembers? r interface) = none := by
  obtain ⟨m, hm, hmfile⟩ := h.exists_mem_declaredMembers hfile
  obtain ⟨m', hm', hmfile'⟩ := hmember
  have hno : ∀ f ∈ r.files, ¬ ∀ m ∈ declaredMembers r interface, m.file ≠ f := by
    intro f hf hforeign
    rcases h.eq_of_mem_files hf with rfl | rfl
    · exact hforeign m hm hmfile
    · exact hforeign m' hm' hmfile'
  rw [Option.or_eq_none_iff, byName?_eq_none_iff, byMembers?_eq_none_iff]
  refine ⟨?_, ?_⟩
  · intro x hx
    exact hno x.file hx.file_mem hx.foreign
  · intro f hf
    exact hno f hf.contends.file_mem hf.contends.foreign

/-- If only the first file has members of the interface then the second is found by its name. -/
theorem found (h : ImplementedBy r file file')
    (hfile : Path.basename file = interface ++ sourceExtension)
    (hfile' : Path.basename file' = candidate ++ sourceExtension)
    (hcandidate : candidate ∈ candidateNames interface)
    (hforeign : ∀ m ∈ declaredMembers r interface, m.file ≠ file') :
    byName? r interface = some (bindingTo r interface file' .name) := by
  obtain ⟨m, hm, hmfile⟩ := h.exists_mem_declaredMembers hfile
  obtain ⟨hmem, hkind, -⟩ := mem_declaredMembers.mp hm
  obtain ⟨i, hi⟩ := h.counterpart m hmem hmfile hkind
  have hstands : Nomination.Stands r interface ⟨candidate, file'⟩ := by
    refine ⟨hcandidate, ?_, ?_, hforeign, m, hm, i, hi⟩
    · exact hi.file_eq ▸ Repository.file_mem_files hi.mem
    · rw [hfile']
      exact contains_append _ _
  rcases hfound : byName? r interface with _ | b
  · exact absurd hstands (byName?_eq_none_iff.mp hfound _)
  · obtain ⟨x, hx, rfl⟩ := exists_first_of_byName? hfound
    rcases h.eq_of_mem_files hx.stands.file_mem with heq | heq
    · exact absurd (hmfile.trans heq.symm) (hx.stands.foreign m hm)
    · rw [heq]

theorem ratio_bindingTo (h : ImplementedBy r file file')
    (hfile : Path.basename file = interface ++ sourceExtension)
    (hforeign : ∀ m ∈ declaredMembers r interface, m.file ≠ file') :
    (bindingTo r interface file' .name).ratio.exact = 1 := by
  have hall : ∀ m ∈ declaredMembers r interface, ∃ i, Counterpart r file' m i := by
    intro m hm
    obtain ⟨hmem, hkind, -⟩ := mem_declaredMembers.mp hm
    exact h.counterpart m hmem ((h.file_eq m hmem).resolve_right (hforeign m hm)) hkind
  have hsome : matchesIn r (declaredMembers r interface) file' ≠ [] := by
    obtain ⟨m, hm, -⟩ := h.exists_mem_declaredMembers hfile
    obtain ⟨i, hi⟩ := hall m hm
    exact fun hnil => matchesIn_eq_nil_iff.mp hnil m hm i hi
  exact (sound_ofMatches hsome interface .name).ratio_eq_one_iff.mpr hall

end ImplementedBy

/-- **Which candidates can win.**  Of two files, one is named after the interface and one after a
candidate, and the latter has counterparts of all functions of the former.  Without fetching it is
bound to, with all members, unless it has functions and its name is confused with that of the
interface; then nothing is.  Every interface has such a candidate. -/
theorem bindingFor_candidate {env : Environment} (henv : env.fetchRemote = false)
    (identifier : String) (coords : Option Coords) {p : Progress}
    (hnew : p.session.bindings.get? (nameOf identifier) = none) {candidate : String}
    (hcandidate : candidate ∈ candidateNames (nameOf identifier))
    (hne : candidate ≠ nameOf identifier) (directory directory' : String)
    (hfiles : ImplementedBy p.session.repository (sourceFile directory (nameOf identifier))
      (sourceFile directory' candidate)) :
    (∃ answer q, bindingFor env identifier coords p = (some answer, q) ∧
      (answer = none ↔ candidate ∈ confusedNames (nameOf identifier) ∧
        ∃ e ∈ p.session.repository.entities,
          e.file = sourceFile directory' candidate ∧ e.kind = .function) ∧
      ∀ b, answer = some b →
        b.file = sourceFile directory' candidate ∧ b.strategy = .name ∧ b.ratio.exact = 1) ∧
    nameOf identifier ++ "Impl" ∈ candidateNames (nameOf identifier) ∧
      nameOf identifier ++ "Impl" ∈ confusedNames (nameOf identifier) := by
  refine ⟨?_, append_mem_confusedNames (nameOf identifier)⟩
  have hfile := basename_sourceFile directory (slash_notMem_nameOf identifier)
  have hfile' := basename_sourceFile directory'
    (slash_notMem_of_mem_candidateNames (slash_notMem_nameOf identifier) hcandidate)
  obtain ⟨m, hm, -⟩ := hfiles.exists_mem_declaredMembers hfile
  obtain ⟨q, hrun⟩ := bindingFor_of_new henv identifier coords hnew (List.ne_nil_of_mem hm)
  -- the file of the candidate counts as one of the interface iff it has members of it
  have hcounts : (∃ m ∈ declaredMembers p.session.repository (nameOf identifier),
        m.file = sourceFile directory' candidate) ↔
      candidate ∈ confusedNames (nameOf identifier) ∧ ∃ e ∈ p.session.repository.entities,
        e.file = sourceFile directory' candidate ∧ e.kind = .function := by
    rw [mem_confusedNames_iff hcandidate hne, ← hfile']
    constructor
    · rintro ⟨m, hm, heq⟩
      obtain ⟨hmem, hkind, hcontains⟩ := mem_declaredMembers.mp hm
      exact ⟨heq ▸ hcontains, m, hmem, heq, hkind⟩
    · rintro ⟨hcontains, e, he, heq, hkind⟩
      exact ⟨e, mem_declaredMembers.mpr ⟨he, hkind, heq ▸ hcontains⟩, heq⟩
  refine ⟨_, q, hrun, ?_⟩
  rw [← hcounts]
  by_cases hmember : ∃ m ∈ declaredMembers p.session.repository (nameOf identifier),
      m.file = sourceFile directory' candidate
  · -- it counts as a file of the interface, and no other is left
    have hnone := hfiles.not_found hfile hmember
    rw [hnone]
    refine ⟨iff_of_true rfl hmember, ?_⟩
    intro b hb
    cases hb
  · -- it is found by name, before anything else is tried
    have hforeign : ∀ m ∈ declaredMembers p.session.repository (nameOf identifier),
        m.file ≠ sourceFile directory' candidate :=
      fun m hm heq => hmember ⟨m, hm, heq⟩
    rw [hfiles.found hfile hfile' hcandidate hforeign, Option.some_or]
    refine ⟨iff_of_false (Option.some_ne_none _) hmember, ?_⟩
    intro b hb
    rw [← Option.some.inj hb]
    exact ⟨rfl, rfl, hfiles.ratio_bindingTo hfile hforeign⟩

/-- A function. -/
def depositIn (file : String) : Entity :=
  { name := "deposit", signature := "deposit(uint256)", file := file
    parameters := [{ type := "uint256" }] }

/-- An interface next to the file of a candidate. -/
def vaultWith (candidate : String) : Progress where
  session :=
    { repository := ⟨[depositIn (sourceFile "src" "IVault"),
        depositIn (sourceFile "src" candidate)]⟩ }

theorem implementedBy_vaultWith (candidate : String) :
    ImplementedBy (vaultWith candidate).session.repository (sourceFile "src" "IVault")
      (sourceFile "src" candidate) where
  file_eq e he := by
    rcases List.mem_pair.mp he with rfl | rfl
    · exact .inl rfl
    · exact .inr rfl
  declared := ⟨_, List.mem_cons_self, rfl, rfl⟩
  counterpart m hm _ _ := by
    refine ⟨depositIn (sourceFile "src" candidate), ?_, rfl, .inl rfl, ?_, ?_⟩
    · exact List.mem_cons_of_mem _ List.mem_cons_self
    · rcases List.mem_pair.mp hm with rfl | rfl <;> rfl
    · rcases List.mem_pair.mp hm with rfl | rfl <;> exact .cons rfl .nil

/-- Of two candidates that implement the same, one is bound to and one is not. -/
theorem bindingFor_candidate_vaultWith :
    "VaultImpl" ∈ candidateNames (nameOf "IVault") ∧
      (∃ b q, bindingFor offline "IVault" none (vaultWith "VaultImpl") = (some (some b), q) ∧
        b.file = "src/VaultImpl.sol" ∧ b.ratio.exact = 1) ∧
      "IVaultImpl" ∈ candidateNames (nameOf "IVault") ∧
      ∃ q, bindingFor offline "IVault" none (vaultWith "IVaultImpl") = (some none, q) := by
  have henv : offline.fetchRemote = false := rfl
  have hname : nameOf "IVault" = "IVault" := by decide +kernel
  have hnew : ∀ candidate,
      (vaultWith candidate).session.bindings.get? (nameOf "IVault") = none := fun _ => rfl
  have hfiles : ∀ candidate, ImplementedBy (vaultWith candidate).session.repository
      (sourceFile "src" (nameOf "IVault")) (sourceFile "src" candidate) := by
    intro candidate
    rw [hname]
    exact implementedBy_vaultWith candidate
  have hplain : "VaultImpl" ∈ candidateNames (nameOf "IVault") := by decide +kernel
  have hmarked : "IVaultImpl" ∈ candidateNames (nameOf "IVault") := by decide +kernel
  refine ⟨hplain, ?_, hmarked, ?_⟩
  · obtain ⟨⟨answer, q, hrun, hnone, hsome⟩, -⟩ := bindingFor_candidate henv "IVault" none
      (hnew "VaultImpl") hplain (by decide +kernel) "src" "src" (hfiles "VaultImpl")
    -- its file cannot be taken for one of the interface
    have hclear : "VaultImpl" ∉ confusedNames (nameOf "IVault") := by decide +kernel
    obtain ⟨b, rfl⟩ := Option.ne_none_iff_exists'.mp fun h => hclear (hnone.mp h).1
    obtain ⟨hfile, -, hratio⟩ := hsome b rfl
    exact ⟨b, q, hrun, hfile, hratio⟩
  · obtain ⟨⟨answer, q, hrun, hnone, -⟩, -⟩ := bindingFor_candidate henv "IVault" none
      (hnew "IVaultImpl") hmarked (by decide +kernel) "src" "src" (hfiles "IVaultImpl")
    -- its file has the name of the interface in its own
    have hconfused : "IVaultImpl" ∈ confusedNames (nameOf "IVault") := by decide +kernel
    have hanswer : answer = none := by
      refine hnone.mpr ⟨hconfused, depositIn (sourceFile "src" "IVaultImpl"), ?_, rfl, rfl⟩
      exact List.mem_cons_of_mem _ List.mem_cons_self
    rw [hanswer] at hrun
    exact ⟨q, hrun⟩

end CallAtlas.Interface

import CallAtlas.CallTree.Slice
import CallAtlas.Proofs.Ordered

/-!
# The declarations that a tree touches

A slice has the declarations that the nodes of a tree refer to, and the modifiers that these invoke.
It is gathered from two places of each node and over branches that repeat each other, then sorted.

* `Called`: of the declarations a tree refers to, the first one of its identity.
* `Invokes`: the modifier that a declaration invokes by one of its names.
* `mem_referredEntities`, `mem_invoked`: what the two parts of a slice have.
* `perm_flatMap_filter`: the groups of a list, put one behind the other, are the list in some order.
* `slice_exact`: a slice has exactly what it should, once each and sorted, and its groups by file
  partition it.
-/

namespace CallAtlas

/-! ### Groups -/

/-- Of distinct keys that cover a list, the groups together have every element once. -/
theorem perm_flatMap_filter {α β : Type} [DecidableEq β] (key : α → β) {keys : List β}
    (hkeys : keys.Nodup) {xs : List α} (hxs : ∀ x ∈ xs, key x ∈ keys) :
    (keys.flatMap fun k => xs.filter fun x => key x == k).Perm xs := by
  induction keys generalizing xs with
  | nil =>
    have hnil : xs = [] := List.eq_nil_iff_forall_not_mem.mpr fun x hx => by simpa using hxs x hx
    rw [hnil]
    exact List.Perm.refl _
  | cons k ks ih =>
    rw [List.nodup_cons] at hkeys
    -- the groups of the other keys have what is left without the first
    have hrest : (ks.flatMap fun k' => xs.filter fun x => key x == k') =
        ks.flatMap fun k' => (xs.filter fun x => !(key x == k)).filter fun x => key x == k' := by
      refine List.flatMap_congr fun k' hk' => ?_
      rw [List.filter_filter]
      refine List.filter_congr fun x _ => ?_
      by_cases hx : key x = k'
      · have hne : key x ≠ k := fun h => hkeys.1 (h ▸ hx ▸ hk')
        simp [hx, hx ▸ hne]
      · simp [hx]
    have hcover : ∀ x ∈ xs.filter (fun x => !(key x == k)), key x ∈ ks := by
      intro x hx
      obtain ⟨hmem, hne⟩ := List.mem_filter.mp hx
      have hcons := hxs x hmem
      rw [List.mem_cons] at hcons
      exact hcons.resolve_left (by simpa using hne)
    rw [List.flatMap_cons, hrest]
    exact ((ih hkeys.2 hcover).append_left _).trans (List.filter_append_perm _ xs)

namespace CallTree

/-! ### What a slice should have -/

/-- Whether a node refers to a declaration: as its definition, or as the member that implements
it. -/
def Refers (n : CallNode) (e : Entity) : Prop :=
  n.definition = some e ∨ ∃ route, n.route = some route ∧ route.member = some e

/-- Whether a slice takes in a declaration that the tree refers to. -/
def SliceOptions.Takes (options : SliceOptions) (e : Entity) : Prop :=
  options.events = true ∨ e.kind ≠ .event

/-- Whether `e` is the first declaration of its identity that the tree refers to and a slice takes
in, going through the nodes in order and at each node from the definition to the member. -/
def Called (options : SliceOptions) (t : CallTree) (e : Entity) : Prop :=
  IsFirst (fun d => options.Takes d ∧ d.identity = e.identity) (t.nodes.flatMap referred) e

/-- Whether `m` is the first modifier of a name that `e` invokes. -/
def Invokes (r : Repository) (e m : Entity) : Prop :=
  ∃ name ∈ e.modifiers, IsFirst (fun d => d.kind = .modifier ∧ d.name = name) r.entities m

/-- Whether `a` may stand before `b`: by name and then by file, in the order of code points. -/
def Precedes (a b : Entity) : Prop :=
  a.name < b.name ∨ a.name = b.name ∧ a.file ≤ b.file

/-- Whether a list has exactly the declarations that a tree touches. -/
structure IsSlice (r : Repository) (options : SliceOptions) (t : CallTree) (es : List Entity) :
    Prop where
  nodup_identity : (es.map Entity.identity).Nodup
  sorted : es.Pairwise Precedes
  mem_identity : ∀ i, i ∈ es.map Entity.identity ↔
    (∃ n ∈ t.nodes, ∃ e, Refers n e ∧ options.Takes e ∧ e.identity = i) ∨
      options.modifiers = true ∧ ∃ e m, Called options t e ∧ Invokes r e m ∧ m.identity = i
  /-- Of each identity that the tree refers to, the list has the first declaration. -/
  mem_of_called : ∀ e, Called options t e → e ∈ es
  /-- All else are modifiers that those invoke, of identities that the tree does not refer to. -/
  called_or_invoked : ∀ m ∈ es, Called options t m ∨
    options.modifiers = true ∧ (∃ e, Called options t e ∧ Invokes r e m) ∧
      ∀ n ∈ t.nodes, ∀ d, Refers n d → options.Takes d → d.identity ≠ m.identity

/-- The file under which a declaration is grouped. -/
def groupName (e : Entity) : String :=
  if e.file = "" then "unknown" else e.file

/-- Whether names in groups are those of a list of declarations, each under its file. -/
structure Partitions (es : List Entity) (groups : Table (List String)) : Prop where
  nodup_keys : groups.keys.Nodup
  /-- A group has the names of its file, in the order of the list. -/
  group_eq : ∀ file names, (file, names) ∈ groups →
    names ≠ [] ∧ names = (es.filter fun e => groupName e == file).map (·.name)
  /-- Taken together, the groups have the name of each declaration once, under its file. -/
  perm : (groups.flatMap fun group => group.2.map fun name => (group.1, name)).Perm
    (es.map fun e => (groupName e, e.name))

/-! ### The parts of a slice -/

section

variable {r : Repository} {options : SliceOptions} {t : CallTree} {e m : Entity}

theorem mem_referred {n : CallNode} : e ∈ referred n ↔ Refers n e := by
  rw [referred, List.mem_append, Option.mem_toList, Option.mem_toList, Refers,
    Option.bind_eq_some_iff]

theorem takes_iff : (options.events || e.kind != .event) = true ↔ options.Takes e := by
  rw [Bool.or_eq_true, bne_iff_ne, SliceOptions.Takes]

/-- The first part of a slice has the first declaration of each identity. -/
theorem mem_referredEntities : e ∈ referredEntities options t ↔ Called options t e := by
  rw [referredEntities, mem_keepFirst_iff_find?, List.find?_filter, Called]
  symm
  apply isFirst_iff_find?
  intro d
  rw [decide_eq_true_eq, takes_iff, beq_iff_eq]

theorem mem_identity_referredEntities {i : String} :
    i ∈ (referredEntities options t).map Entity.identity ↔
      ∃ n ∈ t.nodes, ∃ e, Refers n e ∧ options.Takes e ∧ e.identity = i := by
  rw [referredEntities, mem_map_keepFirst, List.mem_map]
  constructor
  · rintro ⟨e, he, rfl⟩
    obtain ⟨hmem, htakes⟩ := List.mem_filter.mp he
    obtain ⟨n, hn, hrefers⟩ := List.mem_flatMap.mp hmem
    exact ⟨n, hn, e, mem_referred.mp hrefers, takes_iff.mp htakes, rfl⟩
  · rintro ⟨n, hn, e, hrefers, htakes, rfl⟩
    have hmem : e ∈ t.nodes.flatMap referred :=
      List.mem_flatMap.mpr ⟨n, hn, mem_referred.mpr hrefers⟩
    exact ⟨e, List.mem_filter.mpr ⟨hmem, takes_iff.mpr htakes⟩, rfl⟩

theorem modifierNamed?_eq_some {name : String} :
    modifierNamed? r name = some m ↔
      IsFirst (fun d => d.kind = .modifier ∧ d.name = name) r.entities m := by
  rw [modifierNamed?, Repository.named, List.find?_filter]
  symm
  apply isFirst_iff_find?
  intro d
  rw [decide_eq_true_eq, beq_iff_eq, beq_iff_eq, and_comm]

/-- The modifiers that the first part of a slice invokes, with repeats. -/
def invoked (r : Repository) (options : SliceOptions) (t : CallTree) : List Entity :=
  if options.modifiers then
    ((referredEntities options t).flatMap (·.modifiers)).filterMap (modifierNamed? r)
  else []

theorem mem_invoked : m ∈ invoked r options t ↔
    options.modifiers = true ∧ ∃ e, Called options t e ∧ Invokes r e m := by
  rw [invoked]
  split_ifs with hmodifiers
  · rw [and_iff_right hmodifiers, List.mem_filterMap]
    constructor
    · rintro ⟨name, hname, hm⟩
      obtain ⟨e, he, hname⟩ := List.mem_flatMap.mp hname
      exact ⟨e, mem_referredEntities.mp he, name, hname, modifierNamed?_eq_some.mp hm⟩
    · rintro ⟨e, he, name, hname, hm⟩
      refine ⟨name, ?_, modifierNamed?_eq_some.mpr hm⟩
      exact List.mem_flatMap.mpr ⟨e, mem_referredEntities.mpr he, hname⟩
  · simp [hmodifiers]

/-! ### Putting a slice together -/

/-- The test by which a slice is sorted. -/
def precedes (a b : Entity) : Bool :=
  decide (a.name < b.name) || (a.name == b.name && decide (a.file ≤ b.file))

theorem precedes_iff {a b : Entity} : precedes a b = true ↔ Precedes a b := by
  simp [precedes, Precedes]

theorem precedes_trans {a b c : Entity} (hab : Precedes a b) (hbc : Precedes b c) :
    Precedes a c := by
  unfold Precedes at *
  rcases hab with hab | ⟨hab, hfile⟩ <;> rcases hbc with hbc | ⟨hbc, hfile'⟩
  · exact .inl (String.lt_trans hab hbc)
  · exact .inl (hbc ▸ hab)
  · exact .inl (hab ▸ hbc)
  · exact .inr ⟨hab.trans hbc, String.le_trans hfile hfile'⟩

theorem precedes_total (a b : Entity) : Precedes a b ∨ Precedes b a := by
  unfold Precedes
  by_cases hab : a.name < b.name
  · exact .inl (.inl hab)
  by_cases hba : b.name < a.name
  · exact .inr (.inl hba)
  -- the names are the same, so the files decide
  have hname : a.name = b.name :=
    String.le_antisymm (String.not_lt.mp hba) (String.not_lt.mp hab)
  rcases String.le_total a.file b.file with hfile | hfile
  · exact .inl (.inr ⟨hname, hfile⟩)
  · exact .inr (.inr ⟨hname.symm, hfile⟩)

/-- The declarations of a slice in the order in which they are gathered. -/
def gathered (r : Repository) (options : SliceOptions) (t : CallTree) : List Entity :=
  keepFirst Entity.identity (referredEntities options t ++ invoked r options t)

theorem slice_eq : slice r options t = (gathered r options t).mergeSort precedes := rfl

theorem mem_slice : e ∈ slice r options t ↔ e ∈ gathered r options t := by
  rw [slice_eq, List.mem_mergeSort]

/-- The first part of a slice is gathered as it is; of the invoked modifiers those are that have a
new identity. -/
theorem gathered_eq : gathered r options t = referredEntities options t ++
    (keepFirst Entity.identity (invoked r options t)).filter fun m =>
      m.identity ∉ (referredEntities options t).map Entity.identity := by
  have hself : keepFirst Entity.identity (referredEntities options t) =
      referredEntities options t :=
    keepFirst_eq_self _ (nodup_map_keepFirst _ _)
  rw [gathered, keepFirst_append, hself]

theorem pairwise_slice : (slice r options t).Pairwise Precedes := by
  rw [slice_eq]
  have htrans : ∀ a b c : Entity, precedes a b = true → precedes b c = true →
      precedes a c = true := by
    intro a b c
    simpa only [precedes_iff] using precedes_trans
  have htotal : ∀ a b : Entity, (precedes a b || precedes b a) = true := by
    intro a b
    simpa only [Bool.or_eq_true, precedes_iff] using precedes_total a b
  have hsorted := List.pairwise_mergeSort htrans htotal (gathered r options t)
  exact hsorted.imp fun hab => precedes_iff.mp hab

theorem isSlice_slice (r : Repository) (options : SliceOptions) (t : CallTree) :
    IsSlice r options t (slice r options t) where
  nodup_identity := by
    rw [slice_eq, ((List.mergeSort_perm _ _).map Entity.identity).nodup_iff]
    exact nodup_map_keepFirst _ _
  sorted := pairwise_slice
  mem_identity i := by
    -- sorting and dropping repetitions keeps the identities
    rw [slice_eq, ((List.mergeSort_perm _ _).map Entity.identity).mem_iff, gathered,
      mem_map_keepFirst, List.map_append, List.mem_append, mem_identity_referredEntities,
      List.mem_map]
    simp only [mem_invoked]
    refine or_congr_right ?_
    constructor
    · rintro ⟨m, ⟨hmodifiers, e, he, hm⟩, hi⟩
      exact ⟨hmodifiers, e, m, he, hm, hi⟩
    · rintro ⟨hmodifiers, e, m, he, hm, hi⟩
      exact ⟨m, ⟨hmodifiers, e, he, hm⟩, hi⟩
  mem_of_called e he := by
    rw [mem_slice, gathered_eq, List.mem_append]
    exact .inl (mem_referredEntities.mpr he)
  called_or_invoked m hm := by
    rw [mem_slice, gathered_eq, List.mem_append, List.mem_filter, decide_eq_true_eq] at hm
    rcases hm with hm | ⟨hm, hnew⟩
    · exact .inl (mem_referredEntities.mp hm)
    · -- a modifier is added only if no node stands for its identity
      obtain ⟨hmodifiers, hinvoked⟩ := mem_invoked.mp (mem_of_mem_keepFirst _ hm)
      refine .inr ⟨hmodifiers, hinvoked, ?_⟩
      intro n hn d hrefers htakes heq
      exact hnew (mem_identity_referredEntities.mpr ⟨n, hn, d, hrefers, htakes, heq⟩)

/-! ### Groups by file -/

theorem byFile_eq (es : List Entity) :
    byFile es = (keepFirst id (es.map groupName)).map fun file =>
      (file, (es.filter fun e => groupName e == file).map (·.name)) := by
  have hgroup : ∀ file, ((es.map fun e => (groupName e, e.name)).filter
      fun entry => entry.1 == file).map Prod.snd =
        (es.filter fun e => groupName e == file).map (·.name) := by
    intro file
    rw [List.filter_map, List.map_map]
    rfl
  have hkeys : (es.map fun e => (groupName e, e.name)).map Prod.fst = es.map groupName := by
    rw [List.map_map]
    rfl
  unfold byFile
  rw [← hkeys]
  refine List.map_congr_left fun file _ => ?_
  rw [← hgroup]
  rfl

theorem partitions_byFile (es : List Entity) : Partitions es (byFile es) where
  nodup_keys := by
    rw [byFile_eq, Table.keys, List.map_map]
    have hkeys := nodup_keepFirst_id (es.map groupName)
    rwa [← List.map_id (keepFirst id (es.map groupName))] at hkeys
  group_eq file names hgroup := by
    rw [byFile_eq] at hgroup
    obtain ⟨file, hfile, heq⟩ := List.mem_map.mp hgroup
    obtain ⟨rfl, rfl⟩ := Prod.mk.inj heq
    refine ⟨?_, rfl⟩
    -- a file is a key since some declaration is of it
    obtain ⟨e, he, hname⟩ := List.mem_map.mp (mem_keepFirst_id.mp hfile)
    have hmem : e ∈ es.filter fun e => groupName e == file :=
      List.mem_filter.mpr ⟨he, beq_iff_eq.mpr hname⟩
    exact List.ne_nil_of_mem (List.mem_map_of_mem hmem)
  perm := by
    have hcover : ∀ e ∈ es, groupName e ∈ keepFirst id (es.map groupName) :=
      fun e he => mem_keepFirst_id.mpr (List.mem_map_of_mem he)
    have hperm := (perm_flatMap_filter groupName (nodup_keepFirst_id _) hcover).map
      fun e => (groupName e, e.name)
    rw [List.map_flatMap] at hperm
    rw [byFile_eq, List.flatMap_map]
    refine (List.Perm.of_eq ?_).trans hperm
    refine List.flatMap_congr fun file _ => ?_
    rw [List.map_map]
    refine List.map_congr_left fun e he => ?_
    have hfile := (List.mem_filter.mp he).2
    rw [Function.comp_apply, beq_iff_eq.mp hfile]

end

/-- **A slice is exact.**  It has no identity twice and is sorted by name and file.  Its identities
are those of the declarations that the tree refers to, events only on request, and on request those
of the modifiers that the first declaration of each such identity invokes, each looked up by name.
Grouped by file, it gives the name of each of its declarations once, under its file and in
order. -/
theorem slice_exact (r : Repository) (options : SliceOptions) (t : CallTree) :
    IsSlice r options t (slice r options t) ∧
      Partitions (slice r options t) (byFile (slice r options t)) :=
  ⟨isSlice_slice r options t, partitions_byFile _⟩

end CallTree

end CallAtlas

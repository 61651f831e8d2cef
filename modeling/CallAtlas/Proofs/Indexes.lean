import CallAtlas.Proofs.Repository

/-!
# A repository as three tables

A repository is one sequence, and all that is asked of it is read off that sequence.  Instead one
can keep a table for each question: declarations by identity, by file and by name, each of them
updated on its own when a declaration is added.  Whatever is added, the tables stay consistent with
each other, and they answer as the one sequence does.

* `grouped key es`: the declarations under each key, the keys in order of first appearance.
* `Table.pushAt_grouped`: a table of groups stays one when a declaration is put behind its group.
* `Indexes.add_of`, `Indexes.addAll_of`: the tables of a repository after an addition are those of
  the repository after that addition.
* `Indexes.built_consistent`: what the tables show after any sequence of additions.
-/

namespace CallAtlas

/-- Of two elements of a list without its repeats, the one in front occurs first. -/
theorem pairwise_idxOf_keepFirst {β : Type} [DecidableEq β] (xs : List β) :
    (keepFirst id xs).Pairwise fun a b => xs.idxOf a < xs.idxOf b := by
  induction xs with
  | nil => exact List.Pairwise.nil
  | cons x xs ih =>
    have hne : ∀ b ∈ (keepFirst id xs).filter (fun y => id y ≠ id x), x ≠ b := by
      intro b hb
      rw [List.mem_filter, decide_eq_true_eq] at hb
      exact Ne.symm hb.2
    rw [keepFirst, List.pairwise_cons]
    constructor
    · intro b hb
      rw [List.idxOf_cons_self, List.idxOf_cons_ne xs (hne b hb)]
      exact Nat.succ_pos _
    · refine (ih.sublist List.filter_sublist).imp_of_mem ?_
      intro a b ha hb hab
      rw [List.idxOf_cons_ne xs (hne a ha), List.idxOf_cons_ne xs (hne b hb)]
      exact Nat.succ_lt_succ hab

/-! ### Tables of groups -/

/-- The declarations under each key, the keys in order of first appearance. -/
def grouped (key : Entity → String) (es : List Entity) : Table (List Entity) :=
  (keepFirst id (es.map key)).map fun k => (k, es.filter fun e => key e == k)

/-- Puts a declaration behind those at `k`, where there may be none yet. -/
def Table.pushAt (t : Table (List Entity)) (k : String) (e : Entity) : Table (List Entity) :=
  t.insert k ((t.get? k).getD [] ++ [e])

section

variable (key : Entity → String) (es : List Entity)

theorem keys_grouped : (grouped key es).keys = keepFirst id (es.map key) := by
  rw [Table.keys, grouped, List.map_map]
  exact List.map_id _

theorem has_grouped (k : String) : (grouped key es).has k = true ↔ k ∈ es.map key := by
  rw [Table.has_iff, keys_grouped, mem_keepFirst_id]

theorem getD_get?_grouped (k : String) :
    ((grouped key es).get? k).getD [] = es.filter fun e => key e == k := by
  by_cases hk : k ∈ es.map key
  · have hsome : ((grouped key es).get? k).isSome = true := by
      rw [Table.get?_isSome, has_grouped]
      exact hk
    obtain ⟨group, hgroup⟩ := Option.isSome_iff_exists.mp hsome
    obtain ⟨k', -, hk'⟩ := List.mem_map.mp (Table.mem_of_get? hgroup)
    obtain ⟨rfl, rfl⟩ := Prod.mk.inj hk'
    rw [hgroup, Option.getD_some]
  · have hnone : (grouped key es).get? k = none := by
      rw [Table.get?_eq_none, Bool.eq_false_iff, Ne, has_grouped]
      exact hk
    have hnil : (es.filter fun e => key e == k) = [] := by
      rw [List.filter_eq_nil_iff]
      intro e he heq
      exact hk (beq_iff_eq.mp heq ▸ List.mem_map_of_mem he)
    rw [hnone, hnil, Option.getD_none]

theorem filter_key_append (e : Entity) (k : String) :
    (es ++ [e]).filter (fun d => key d == k) =
      es.filter (fun d => key d == k) ++ if key e = k then [e] else [] := by
  rw [List.filter_append, List.filter_cons, List.filter_nil]
  simp only [beq_iff_eq]

/-- Put behind its group, a declaration is behind all declarations of its key. -/
theorem Table.pushAt_grouped (e : Entity) :
    (grouped key es).pushAt (key e) e = grouped key (es ++ [e]) := by
  have hsingle : keepFirst id [key e] = [key e] := rfl
  rw [Table.pushAt, getD_get?_grouped]
  by_cases hk : key e ∈ es.map key
  · -- the group is there: it grows in its place, and no key is new
    have hkeys : keepFirst id ((es ++ [e]).map key) = keepFirst id (es.map key) := by
      rw [List.map_append, List.map_singleton, keepFirst_append, hsingle,
        List.filter_cons_of_neg (by simpa using hk), List.filter_nil, List.append_nil]
    rw [Table.insert, if_pos ((has_grouped key es _).mpr hk), grouped, grouped, hkeys,
      List.map_map]
    refine List.map_congr_left ?_
    intro k _
    rw [Function.comp_apply, filter_key_append]
    by_cases heq : k = key e
    · rw [if_pos heq, heq, if_pos rfl]
    · rw [if_neg heq, if_neg (Ne.symm heq), List.append_nil]
  · -- the group is new: it comes last, and the others stay
    have hkeys : keepFirst id ((es ++ [e]).map key) = keepFirst id (es.map key) ++ [key e] := by
      rw [List.map_append, List.map_singleton, keepFirst_append, hsingle,
        List.filter_cons_of_pos (by simpa using hk), List.filter_nil]
    have hnew : (grouped key es).has (key e) = false := by
      rw [Bool.eq_false_iff, Ne, has_grouped]
      exact hk
    rw [Table.insert_of_not_has hnew, grouped, grouped, hkeys, List.map_append,
      List.map_singleton]
    congr 1
    · refine List.map_congr_left ?_
      intro k hmem
      have hne : key e ≠ k := by
        rintro rfl
        exact hk (mem_keepFirst_id.mp hmem)
      rw [filter_key_append, if_neg hne, List.append_nil]
    · rw [filter_key_append, if_pos rfl]

end

/-! ### The tables -/

/-- A store of declarations with a table for each way to look them up. -/
structure Indexes where
  byIdentity : Table Entity := []
  byFile : Table (List Entity) := []
  byName : Table (List Entity) := []
deriving DecidableEq, Repr

namespace Indexes

/-- The declarations in the order in which they came. -/
def entities (x : Indexes) : List Entity :=
  x.byIdentity.map Prod.snd

/-- How many declarations there are. -/
def size (x : Indexes) : Nat :=
  x.byIdentity.length

/-- The files with declarations. -/
def files (x : Indexes) : List String :=
  x.byFile.keys

/-- The declarations of a file. -/
def inFile (x : Indexes) (file : String) : List Entity :=
  (x.byFile.get? file).getD []

/-- The declarations of a name. -/
def named (x : Indexes) (name : String) : List Entity :=
  (x.byName.get? name).getD []

/-- Adds a declaration to each of the tables unless its identity is known, and says whether it
did. -/
def add (x : Indexes) (e : Entity) : Bool × Indexes :=
  if x.byIdentity.has e.identity then (false, x)
  else
    (true,
      { byIdentity := x.byIdentity.insert e.identity e
        byFile := x.byFile.pushAt e.file e
        byName := x.byName.pushAt e.name e })

/-- Adds declarations in turn, and says how many were added. -/
def addAll (x : Indexes) : List Entity → Nat × Indexes
  | [] => (0, x)
  | e :: es =>
    let first := x.add e
    let rest := first.2.addAll es
    (first.1.toNat + rest.1, rest.2)

/-- The tables of a repository. -/
def of (r : Repository) : Indexes where
  byIdentity := r.entities.map fun e => (e.identity, e)
  byFile := grouped (·.file) r.entities
  byName := grouped (·.name) r.entities

section

variable (r : Repository)

@[simp] theorem keys_byIdentity_of :
    (of r).byIdentity.keys = r.entities.map Entity.identity := by
  rw [Table.keys, of, List.map_map]
  rfl

@[simp] theorem entities_of : (of r).entities = r.entities := by
  rw [entities, of, List.map_map]
  exact List.map_id _

@[simp] theorem size_of : (of r).size = r.size := by
  rw [size, of, List.length_map, Repository.size]

@[simp] theorem files_of : (of r).files = r.files :=
  keys_grouped _ _

@[simp] theorem inFile_of (file : String) : (of r).inFile file = r.inFile file :=
  getD_get?_grouped _ _ file

@[simp] theorem named_of (name : String) : (of r).named name = r.named name :=
  getD_get?_grouped _ _ name

theorem get?_byIdentity_of (i : String) : (of r).byIdentity.get? i = r.get? i := by
  rw [of, Repository.get?]
  induction r.entities with
  | nil => rfl
  | cons e es ih =>
    rw [List.map_cons, Table.get?_cons, ih, List.find?_cons]
    by_cases heq : i = e.identity
    · rw [if_pos heq, beq_iff_eq.mpr heq.symm]
    · rw [if_neg heq, beq_false_of_ne (Ne.symm heq)]

theorem has_byIdentity_of (i : String) : (of r).byIdentity.has i = r.contains i := by
  rw [Bool.eq_iff_iff, Table.has_iff, keys_byIdentity_of, Repository.contains_iff]

/-- The tables after a declaration is added are those of the repository after that. -/
theorem add_of (e : Entity) :
    (of r).add e = (!r.contains e.identity, of (r.add e)) := by
  rw [add, has_byIdentity_of, Repository.add]
  cases hknown : r.contains e.identity with
  | true => rfl
  | false =>
    have hnew : (of r).byIdentity.has e.identity = false := by
      rw [has_byIdentity_of, hknown]
    rw [if_neg Bool.false_ne_true, if_neg Bool.false_ne_true, Table.insert_of_not_has hnew]
    simp only [of, Table.pushAt_grouped, List.map_append, List.map_singleton, Bool.not_false]

end

/-- As many declarations are counted as are new. -/
theorem length_newAmong_cons (r : Repository) (e : Entity) (es : List Entity) :
    (!r.contains e.identity).toNat + ((r.add e).newAmong es).length =
      (r.newAmong (e :: es)).length := by
  have hfirst : (r.add e).entities.length =
      r.entities.length + (!r.contains e.identity).toNat := by
    rw [Repository.add]
    cases r.contains e.identity with
    | true => rfl
    | false => exact List.length_append
  have hrest := congrArg List.length ((r.add e).entities_addAll es)
  have hall := congrArg List.length (r.entities_addAll (e :: es))
  rw [List.length_append] at hrest hall
  rw [Repository.addAll, List.foldl_cons, ← Repository.addAll] at hall
  omega

/-- The tables after declarations are added are those of the repository after that, and the count
is that of the new ones. -/
theorem addAll_of (r : Repository) (es : List Entity) :
    (of r).addAll es = ((r.newAmong es).length, of (r.addAll es)) := by
  induction es generalizing r with
  | nil => rfl
  | cons e es ih =>
    rw [addAll, add_of]
    dsimp only
    rw [ih, length_newAmong_cons, Repository.addAll, Repository.addAll, List.foldl_cons]

end Indexes

/-! ### Sequences of additions -/

/-- One addition to a store of declarations. -/
inductive Addition where
  | one (e : Entity)
  | many (es : List Entity)
deriving DecidableEq, Repr

/-- What is added. -/
def Addition.entities : Addition → List Entity
  | one e => [e]
  | many es => es

/-- The repository after an addition. -/
def Repository.extend (r : Repository) : Addition → Repository
  | .one e => r.add e
  | .many es => r.addAll es

/-- The repository after additions in turn, starting with none. -/
def Repository.built (additions : List Addition) : Repository :=
  additions.foldl extend {}

/-- The tables after an addition. -/
def Indexes.extend (x : Indexes) : Addition → Indexes
  | .one e => (x.add e).2
  | .many es => (x.addAll es).2

/-- The tables after additions in turn, starting with none. -/
def Indexes.built (additions : List Addition) : Indexes :=
  additions.foldl extend {}

theorem Repository.extend_eq (r : Repository) (a : Addition) :
    r.extend a = r.addAll a.entities := by
  cases a with
  | one e => rfl
  | many es => rfl

theorem Repository.foldl_extend (r : Repository) (additions : List Addition) :
    additions.foldl extend r = r.addAll (additions.flatMap Addition.entities) := by
  induction additions generalizing r with
  | nil => rfl
  | cons a additions ih =>
    rw [List.foldl_cons, ih, extend_eq, List.flatMap_cons, addAll, addAll, addAll,
      List.foldl_append]

theorem Repository.newAmong_empty (es : List Entity) :
    Repository.newAmong {} es = keepFirst Entity.identity es := by
  rw [newAmong, List.filter_eq_self]
  intro e _
  rfl

/-- What is kept of additions are the first declarations of each identity. -/
theorem Repository.entities_built (additions : List Addition) :
    (built additions).entities =
      keepFirst Entity.identity (additions.flatMap Addition.entities) := by
  rw [built, foldl_extend, entities_addAll, newAmong_empty]
  exact List.nil_append _

theorem Indexes.extend_of (r : Repository) (a : Addition) :
    (of r).extend a = of (r.extend a) := by
  cases a with
  | one e => exact congrArg Prod.snd (add_of r e)
  | many es => exact congrArg Prod.snd (addAll_of r es)

theorem Indexes.foldl_extend_of (r : Repository) (additions : List Addition) :
    additions.foldl extend (of r) = of (additions.foldl Repository.extend r) := by
  induction additions generalizing r with
  | nil => rfl
  | cons a additions ih => rw [List.foldl_cons, extend_of, ih, List.foldl_cons]

/-- The tables that additions lead to are those of the repository that they lead to. -/
theorem Indexes.built_eq (additions : List Addition) :
    built additions = of (Repository.built additions) :=
  foldl_extend_of {} additions

/-! ### What the tables show -/

namespace Indexes

/-- Whether the tables are consistent with each other and with what was added to them. -/
structure Consistent (added : List Entity) (x : Indexes) : Prop where
  nodup_keys : x.byIdentity.keys.Nodup
  key_eq : ∀ entry ∈ x.byIdentity, entry.1 = entry.2.identity
  entities_eq : x.entities = keepFirst Entity.identity added
  inFile_eq : ∀ file, x.inFile file = x.entities.filter fun e => e.file == file
  named_eq : ∀ name, x.named name = x.entities.filter fun e => e.name == name
  nodup_files : x.files.Nodup
  mem_files : ∀ file, file ∈ x.files ↔ ∃ e ∈ x.entities, e.file = file
  /-- Files come in the order in which they first appear. -/
  files_ordered : x.files.Pairwise fun f g =>
    (x.entities.map (·.file)).idxOf f < (x.entities.map (·.file)).idxOf g
  size_addAll : ∀ es, (x.addAll es).2.size = x.size + (x.addAll es).1
  addAll_again : ∀ es ⊆ added, x.addAll es = (0, x)

/-- Whether the tables answer as the one sequence of a repository does. -/
structure Mirrors (r : Repository) (x : Indexes) : Prop where
  entities_eq : x.entities = r.entities
  size_eq : x.size = r.size
  get?_eq : ∀ i, x.byIdentity.get? i = r.get? i
  has_eq : ∀ i, x.byIdentity.has i = r.contains i
  files_eq : x.files = r.files
  inFile_eq : ∀ file, x.inFile file = r.inFile file
  named_eq : ∀ name, x.named name = r.named name
  add_eq : ∀ e, (x.add e).1 = !r.contains e.identity
  addAll_eq : ∀ es, (x.addAll es).1 = (r.newAmong es).length

theorem mirrors_of (r : Repository) : (of r).Mirrors r where
  entities_eq := entities_of r
  size_eq := size_of r
  get?_eq := get?_byIdentity_of r
  has_eq := has_byIdentity_of r
  files_eq := files_of r
  inFile_eq := inFile_of r
  named_eq := named_of r
  add_eq e := congrArg Prod.fst (add_of r e)
  addAll_eq es := congrArg Prod.fst (addAll_of r es)

/-- Declarations whose identities are known are not added. -/
theorem newAmong_eq_nil {r : Repository} {es : List Entity}
    (h : ∀ e ∈ es, r.contains e.identity = true) : r.newAmong es = [] := by
  rw [Repository.newAmong, List.filter_eq_nil_iff]
  intro e he
  rw [h e (mem_of_mem_keepFirst _ he)]
  exact Bool.false_ne_true

theorem consistent_of {r : Repository} {added : List Entity}
    (h : r.entities = keepFirst Entity.identity added) : (of r).Consistent added where
  nodup_keys := by
    rw [keys_byIdentity_of, h]
    exact nodup_map_keepFirst _ _
  key_eq entry hentry := by
    obtain ⟨e, -, rfl⟩ := List.mem_map.mp hentry
    rfl
  entities_eq := (entities_of r).trans h
  inFile_eq file := by
    rw [inFile_of, entities_of, Repository.inFile]
  named_eq name := by
    rw [named_of, entities_of, Repository.named]
  nodup_files := by
    rw [files_of]
    exact nodup_keepFirst_id _
  mem_files file := by
    rw [files_of, entities_of, Repository.files, mem_keepFirst_id, List.mem_map]
  files_ordered := by
    rw [files_of, entities_of]
    exact pairwise_idxOf_keepFirst _
  size_addAll es := by
    rw [addAll_of, size_of, size_of, Repository.size, Repository.size, r.entities_addAll,
      List.length_append]
  addAll_again es hes := by
    have hknown : ∀ e ∈ es, r.contains e.identity = true := by
      intro e he
      rw [Repository.contains_iff, h, mem_map_keepFirst]
      exact List.mem_map_of_mem (hes he)
    -- nothing is new, so the store stays the same
    have hsame : r.addAll es = r := by
      have hentities := r.entities_addAll es
      rw [newAmong_eq_nil hknown, List.append_nil] at hentities
      cases r
      exact congrArg Repository.mk hentities
    rw [addAll_of, newAmong_eq_nil hknown, hsame, List.length_nil]

/-- **Tables of declarations stay consistent.**  After any sequence of additions the identities are
distinct, each declaration is filed under its own, and those are there that came first with their
identity, in order.  A file and a name lead to the declarations that have them, in order, and each
file is listed once, where it first appeared.  Additions are counted as the store grows, so what was
added before adds nothing.  A repository answers as its tables do. -/
theorem built_consistent (additions : List Addition) :
    (built additions).Consistent (additions.flatMap Addition.entities) ∧
      (built additions).Mirrors (Repository.built additions) := by
  rw [built_eq]
  exact ⟨consistent_of (Repository.entities_built additions), mirrors_of _⟩

end Indexes

end CallAtlas

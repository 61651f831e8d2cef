import CallAtlas.Session
import CallAtlas.Proofs.Ordered
import Mathlib.Order.Defs.Unbundled

/-!
# Sessions grow

`Session.Grows s t` says that nothing of `s` is lost or changed in `t`: every sequence of `s` is
the front of that of `t`, counters do not fall, and the seeds are the same.  It is a preorder, so
it passes from the steps of a run to the whole run.  Each way to extend a session is shown to make
it grow; settling an import has to be shown for imports that are not settled, since an entry that
is there already would be overwritten.
-/

namespace CallAtlas

namespace Repository

theorem contains_iff {r : Repository} {identity : String} :
    r.contains identity = true ↔ identity ∈ r.entities.map Entity.identity := by
  simp only [contains, List.any_eq_true, beq_iff_eq, List.mem_map]

theorem prefix_add (r : Repository) (e : Entity) : r.entities <+: (r.add e).entities := by
  rw [add]
  split_ifs
  · exact List.prefix_rfl
  · exact List.prefix_append _ _

theorem prefix_addAll (r : Repository) (es : List Entity) :
    r.entities <+: (r.addAll es).entities := by
  induction es generalizing r with
  | nil => exact List.prefix_rfl
  | cons e es ih => exact (r.prefix_add e).trans (ih (r.add e))

theorem mem_of_mem_add {r : Repository} {d e : Entity} (h : d ∈ (r.add e).entities) :
    d ∈ r.entities ∨ d = e := by
  rw [add] at h
  split_ifs at h
  · exact .inl h
  · rwa [List.mem_append, List.mem_singleton] at h

theorem mem_of_mem_addAll {r : Repository} {es : List Entity} {d : Entity}
    (h : d ∈ (r.addAll es).entities) : d ∈ r.entities ∨ d ∈ es := by
  induction es generalizing r with
  | nil => exact .inl h
  | cons e es ih =>
    rcases ih h with h | h
    · rcases mem_of_mem_add h with h | rfl
      · exact .inl h
      · exact .inr List.mem_cons_self
    · exact .inr (List.mem_cons_of_mem _ h)

end Repository

namespace Session

/-- Nothing of `s` is lost or changed in `t`. -/
structure Grows (s t : Session) : Prop where
  repository : s.repository.entities <+: t.repository.entities
  seeds : t.seeds = s.seeds
  discovered : s.discovered <+: t.discovered
  processed : s.processed <+: t.processed
  failed : s.failed <+: t.failed
  ingested : s.ingested <+: t.ingested
  locations : s.locations <+: t.locations
  unparsed : s.unparsed <+: t.unparsed
  bindings : s.bindings <+: t.bindings
  lookups : s.lookups <+: t.lookups
  asked : s.asked <+: t.asked
  fetchAttempts : s.fetchAttempts ≤ t.fetchAttempts
  parses : s.parses ≤ t.parses

theorem Grows.rfl (s : Session) : s.Grows s where
  repository := List.prefix_rfl
  seeds := Eq.refl _
  discovered := List.prefix_rfl
  processed := List.prefix_rfl
  failed := List.prefix_rfl
  ingested := List.prefix_rfl
  locations := List.prefix_rfl
  unparsed := List.prefix_rfl
  bindings := List.prefix_rfl
  lookups := List.prefix_rfl
  asked := List.prefix_rfl
  fetchAttempts := Nat.le_refl _
  parses := Nat.le_refl _

theorem Grows.trans {s t u : Session} (h : s.Grows t) (h' : t.Grows u) : s.Grows u where
  repository := h.repository.trans h'.repository
  seeds := h'.seeds.trans h.seeds
  discovered := h.discovered.trans h'.discovered
  processed := h.processed.trans h'.processed
  failed := h.failed.trans h'.failed
  ingested := h.ingested.trans h'.ingested
  locations := h.locations.trans h'.locations
  unparsed := h.unparsed.trans h'.unparsed
  bindings := h.bindings.trans h'.bindings
  lookups := h.lookups.trans h'.lookups
  asked := h.asked.trans h'.asked
  fetchAttempts := Nat.le_trans h.fetchAttempts h'.fetchAttempts
  parses := Nat.le_trans h.parses h'.parses

instance : IsPreorder Session Grows where
  refl := Grows.rfl
  trans _ _ _ := Grows.trans

/-! ### What makes a session grow -/

theorem grows_noteIngested (s : Session) (file : String) (l : Location) :
    s.Grows (s.noteIngested file l) :=
  { Grows.rfl s with
    ingested := List.prefix_append _ _
    locations := s.locations.prefix_insertNew file l }

theorem grows_noteUnparsed (s : Session) (file : String) : s.Grows (s.noteUnparsed file) :=
  { Grows.rfl s with unparsed := List.prefix_append _ _ }

theorem grows_discover (s : Session) (ref : Import.Reference) : s.Grows (s.discover ref) :=
  { Grows.rfl s with discovered := s.discovered.prefix_insertNew ref.path ref }

theorem grows_foldl_discover (s : Session) (imports : List Import.Reference) :
    s.Grows (imports.foldl discover s) := by
  induction imports generalizing s with
  | nil => exact Grows.rfl s
  | cons ref imports ih => exact (s.grows_discover ref).trans (ih (s.discover ref))

theorem grows_absorb (s : Session) (entities : List Entity) (imports : List Import.Reference) :
    s.Grows (s.absorb entities imports) := by
  refine Grows.trans ?_ (grows_foldl_discover _ imports)
  exact { Grows.rfl s with repository := s.repository.prefix_addAll entities }

theorem grows_markFailed (s : Session) (path : String) (why : Failure) :
    s.Grows (s.markFailed path why) :=
  { Grows.rfl s with failed := s.failed.prefix_insertNew path why }

theorem grows_markProcessed {s : Session} {path : String} (h : s.isSettled path = false)
    (l : Location) : s.Grows (s.markProcessed path l) := by
  rw [isSettled, Bool.or_eq_false_iff] at h
  refine { Grows.rfl s with processed := ?_ }
  rw [markProcessed, Table.insert_of_not_has h.1]
  exact List.prefix_append _ _

/-! ### What growth keeps -/

theorem Grows.contains {s t : Session} (h : s.Grows t) {identity : String}
    (hi : s.repository.contains identity = true) : t.repository.contains identity = true := by
  rw [Repository.contains_iff] at hi ⊢
  exact (h.repository.map Entity.identity).subset hi

/-- Where a file of a known location comes from stays the same. -/
theorem coordsFor?_of_prefix {s t : Session} (h : s.locations <+: t.locations) {file : String}
    (hf : s.locations.has file = true) : t.coordsFor? file = s.coordsFor? file := by
  rw [← Table.get?_isSome, Option.isSome_iff_exists] at hf
  obtain ⟨l, hl⟩ := hf
  rw [Session.coordsFor?, Session.coordsFor?, locationOf?, locationOf?, hl,
    Table.get?_of_prefix h hl]

end Session

end CallAtlas

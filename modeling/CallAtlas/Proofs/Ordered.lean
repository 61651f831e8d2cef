import CallAtlas.Ordered
import Mathlib.Data.List.Infix
import Mathlib.Data.List.Nodup

/-!
# Ordered collections: first of equals, and tables that grow at the end

* `keepFirst_append`: a list without repeats grows at the end by what is new.
* `IsFirst P xs x`: `x` is the first in `xs` with `P`; `isFirst_iff_find?`.
* `Table.get?_of_prefix`: what a table answers, it still answers after it has grown at the end.
* `Table.prefix_insertNew`, `Table.insert_of_not_has`: making an entry lets a table grow at the
  end.
-/

namespace CallAtlas

/-! ### First of equals -/

section

variable {α β : Type} [DecidableEq β] (key : α → β)

theorem mem_map_keepFirst (xs : List α) (k : β) :
    k ∈ (keepFirst key xs).map key ↔ k ∈ xs.map key := by
  induction xs with
  | nil => rfl
  | cons x xs ih =>
    simp only [keepFirst, List.map_cons, List.mem_cons]
    by_cases hk : k = key x
    · simp [hk]
    · rw [← ih]
      simp only [hk, false_or, List.mem_map, List.mem_filter, decide_eq_true_eq]
      constructor
      · rintro ⟨y, ⟨hy, -⟩, rfl⟩
        exact ⟨y, hy, rfl⟩
      · rintro ⟨y, hy, rfl⟩
        exact ⟨y, ⟨hy, hk⟩, rfl⟩

theorem mem_keepFirst_id {xs : List β} {k : β} : k ∈ keepFirst id xs ↔ k ∈ xs := by
  have h := mem_map_keepFirst id xs k
  rwa [List.map_id, List.map_id] at h

theorem nodup_map_keepFirst (xs : List α) : ((keepFirst key xs).map key).Nodup := by
  induction xs with
  | nil => exact List.nodup_nil
  | cons x xs ih =>
    rw [keepFirst, List.map_cons, List.nodup_cons]
    constructor
    · rw [List.mem_map]
      rintro ⟨y, hy, hyx⟩
      rw [List.mem_filter, decide_eq_true_eq] at hy
      exact hy.2 hyx
    · exact ih.sublist (List.filter_sublist.map key)

theorem nodup_keepFirst_id (xs : List β) : (keepFirst id xs).Nodup := by
  have h := nodup_map_keepFirst id xs
  rwa [List.map_id] at h

/-- Of a list behind another one, what is new is kept. -/
theorem keepFirst_append (xs ys : List α) :
    keepFirst key (xs ++ ys) =
      keepFirst key xs ++ (keepFirst key ys).filter fun y => key y ∉ xs.map key := by
  induction xs with
  | nil => simp [keepFirst]
  | cons x xs ih =>
    rw [List.cons_append, keepFirst, keepFirst, ih, List.filter_append, List.filter_filter,
      List.cons_append]
    congr 2
    apply List.filter_congr
    intro y _
    simp only [List.map_cons, List.mem_cons, not_or, ne_eq, Bool.decide_and]

theorem keepFirst_eq_self {xs : List α} (h : (xs.map key).Nodup) : keepFirst key xs = xs := by
  induction xs with
  | nil => rfl
  | cons x xs ih =>
    rw [List.map_cons, List.nodup_cons] at h
    rw [keepFirst, ih h.2, List.filter_eq_self.mpr]
    intro y hy
    rw [decide_eq_true_eq]
    exact fun heq => h.1 (heq ▸ List.mem_map_of_mem hy)

/-- An element whose key occurs before it is not kept. -/
theorem keepFirst_append_cons_of_mem {xs ys : List α} {y : α} (h : key y ∈ xs.map key) :
    keepFirst key (xs ++ y :: ys) = keepFirst key (xs ++ ys) := by
  rw [keepFirst_append, keepFirst_append, keepFirst, List.filter_cons_of_neg (by simpa using h),
    List.filter_filter]
  congr 1
  apply List.filter_congr
  intro z _
  rw [Bool.and_eq_left_iff_imp]
  intro hz
  rw [decide_eq_true_eq] at hz ⊢
  exact fun heq => hz (heq ▸ h)

/-- What is kept comes first among those of its key. -/
theorem find?_of_mem_keepFirst {xs : List α} {x : α} (h : x ∈ keepFirst key xs) :
    xs.find? (fun y => key y == key x) = some x := by
  induction xs with
  | nil => cases h
  | cons y ys ih =>
    rw [keepFirst, List.mem_cons, List.mem_filter, decide_eq_true_eq] at h
    rw [List.find?_cons]
    rcases h with rfl | ⟨hmem, hne⟩
    · rw [beq_self_eq_true]
    · rw [beq_false_of_ne (Ne.symm hne)]
      exact ih hmem

theorem keepFirst_congr {γ : Type} [DecidableEq γ] {key' : α → γ} {xs : List α}
    (h : ∀ x ∈ xs, ∀ y ∈ xs, key x = key y ↔ key' x = key' y) :
    keepFirst key xs = keepFirst key' xs := by
  induction xs with
  | nil => rfl
  | cons x xs ih =>
    rw [keepFirst, keepFirst, ih fun y hy z hz =>
      h y (List.mem_cons_of_mem _ hy) z (List.mem_cons_of_mem _ hz)]
    congr 1
    apply List.filter_congr
    intro y hy
    have hy' : y ∈ xs := List.mem_of_find?_eq_some (find?_of_mem_keepFirst key' hy)
    have hiff := h y (List.mem_cons_of_mem _ hy') x List.mem_cons_self
    simp only [ne_eq, hiff]

theorem mem_of_mem_keepFirst {xs : List α} {x : α} (h : x ∈ keepFirst key xs) : x ∈ xs :=
  List.mem_of_find?_eq_some (find?_of_mem_keepFirst key h)

end

theorem mem_keepFirst_iff_find? {α β : Type} [DecidableEq β] (key : α → β) {xs : List α} {x : α} :
    x ∈ keepFirst key xs ↔ xs.find? (fun y => key y == key x) = some x := by
  refine ⟨find?_of_mem_keepFirst key, ?_⟩
  intro h
  induction xs with
  | nil => cases h
  | cons y ys ih =>
    rw [keepFirst, List.mem_cons, List.mem_filter, decide_eq_true_eq]
    rw [List.find?_cons] at h
    by_cases hy : key y = key x
    · rw [beq_iff_eq.mpr hy] at h
      exact .inl (Option.some.inj h).symm
    · rw [beq_false_of_ne hy] at h
      exact .inr ⟨ih h, Ne.symm hy⟩

/-- Whether `x` is in a list, has `P`, and nothing in front of it has. -/
def IsFirst {α : Type} (P : α → Prop) (xs : List α) (x : α) : Prop :=
  ∃ before after, xs = before ++ x :: after ∧ P x ∧ ∀ y ∈ before, ¬ P y

theorem isFirst_iff_find? {α : Type} {P : α → Prop} {p : α → Bool} (hp : ∀ x, p x = true ↔ P x)
    {xs : List α} {x : α} : IsFirst P xs x ↔ xs.find? p = some x := by
  rw [List.find?_eq_some_iff_append, IsFirst]
  simp only [Bool.not_eq_true', ← Bool.not_eq_true, hp]
  constructor
  · rintro ⟨before, after, heq, hx, hbefore⟩
    exact ⟨hx, before, after, heq, hbefore⟩
  · rintro ⟨hx, before, after, heq, hbefore⟩
    exact ⟨before, after, heq, hx, hbefore⟩

namespace Table

variable {α : Type} {t u : Table α} {k : String} {v : α}

/-! ### Looking up -/

theorem has_iff : t.has k = true ↔ k ∈ t.keys := by
  simp only [has, keys, List.any_eq_true, beq_iff_eq, List.mem_map]

theorem get?_isSome : (t.get? k).isSome = t.has k := by
  rw [Bool.eq_iff_iff, get?, List.lookup_isSome_iff, has, List.any_eq_true]
  constructor
  · rintro ⟨entry, hmem, heq⟩
    exact ⟨entry, hmem, beq_iff_eq.mpr (beq_iff_eq.mp heq).symm⟩
  · rintro ⟨entry, hmem, heq⟩
    exact ⟨entry, hmem, beq_iff_eq.mpr (beq_iff_eq.mp heq).symm⟩

theorem get?_eq_none : t.get? k = none ↔ t.has k = false := by
  rw [← get?_isSome, Option.isSome_eq_false_iff, Option.isNone_iff_eq_none]

theorem mem_of_get? (h : t.get? k = some v) : (k, v) ∈ t := by
  obtain ⟨front, rest, rfl, -⟩ := List.lookup_eq_some_iff.mp h
  exact List.mem_append_right _ List.mem_cons_self

theorem get?_append : (t ++ u : Table α).get? k = (t.get? k).or (u.get? k) :=
  List.lookup_append

theorem get?_of_prefix (h : t <+: u) (hk : t.get? k = some v) : u.get? k = some v := by
  obtain ⟨w, rfl⟩ := h
  rw [get?_append, hk, Option.some_or]

theorem has_of_prefix (h : t <+: u) (hk : t.has k = true) : u.has k = true := by
  rw [has_iff] at hk ⊢
  exact (h.map Prod.fst).subset hk

theorem has_append : (t ++ u : Table α).has k = (t.has k || u.has k) :=
  List.any_append

theorem get?_cons {k' : String} :
    Table.get? ((k', v) :: t) k = if k = k' then some v else t.get? k := by
  rw [get?, List.lookup_cons]
  split_ifs with h
  · rw [h, beq_self_eq_true]
  · rw [beq_false_of_ne h, get?]

theorem has_singleton {k' : String} : Table.has [(k', v)] k = true ↔ k = k' := by
  rw [has_iff, keys, List.map_singleton, List.mem_singleton]

/-! ### Making entries -/

theorem insertNew_of_has (h : t.has k = true) : t.insertNew k v = t := by
  rw [insertNew, if_pos h]

theorem insertNew_of_not_has (h : t.has k = false) : t.insertNew k v = t ++ [(k, v)] := by
  rw [insertNew, h, if_neg Bool.false_ne_true]

theorem insert_of_not_has (h : t.has k = false) : t.insert k v = t ++ [(k, v)] := by
  rw [insert, h, if_neg Bool.false_ne_true]

theorem get?_map_set (t : Table α) (k k' : String) (v : α) :
    Table.get? (t.map fun entry => if entry.1 = k then (k, v) else entry) k' =
      if k' = k ∧ t.has k = true then some v else t.get? k' := by
  induction t with
  | nil =>
    rw [if_neg]
    · rfl
    · rintro ⟨-, h⟩
      cases h
  | cons entry t ih =>
    obtain ⟨key, value⟩ := entry
    have hhas : Table.has ((key, value) :: t) k = (key == k || Table.has t k) := List.any_cons
    rw [List.map_cons, hhas, get?_cons]
    by_cases hkey : key = k
    · rw [if_pos hkey, get?_cons, ih]
      grind
    · rw [if_neg hkey, get?_cons, ih]
      grind

theorem get?_insert (t : Table α) (k k' : String) (v : α) :
    (t.insert k v).get? k' = if k' = k then some v else t.get? k' := by
  cases h : t.has k with
  | true =>
    rw [insert, if_pos h, get?_map_set]
    simp only [h, and_true]
  | false =>
    rw [insert_of_not_has h, get?_append, get?_cons]
    split_ifs with heq
    · rw [heq, get?_eq_none.mpr h, Option.none_or]
    · exact Option.or_none

theorem prefix_insertNew (t : Table α) (k : String) (v : α) : t <+: t.insertNew k v := by
  cases h : t.has k with
  | true =>
    rw [insertNew_of_has h]
  | false =>
    rw [insertNew_of_not_has h]
    exact List.prefix_append t _

theorem has_insertNew_iff {k' : String} :
    (t.insertNew k v).has k' = true ↔ t.has k' = true ∨ k' = k := by
  cases h : t.has k with
  | true =>
    rw [insertNew_of_has h]
    exact ⟨.inl, fun h' => h'.elim id fun heq => heq ▸ h⟩
  | false => rw [insertNew_of_not_has h, has_append, Bool.or_eq_true, has_singleton]

theorem has_insertNew (t : Table α) (k : String) (v : α) : (t.insertNew k v).has k = true :=
  has_insertNew_iff.mpr (.inr rfl)

/-- Setting an entry that an earlier table did not have leaves that earlier table in front. -/
theorem prefix_insert_of_prefix (h : t <+: u) (hk : t.has k = false) : t <+: u.insert k v := by
  obtain ⟨w, rfl⟩ := h
  have hne : ∀ entry ∈ t, entry.1 ≠ k := by
    intro entry hmem heq
    have : t.has k = true := has_iff.mpr (heq ▸ List.mem_map_of_mem hmem)
    rw [hk] at this
    exact Bool.false_ne_true this
  rw [insert]
  split_ifs
  · rw [List.map_append]
    have hmap : t.map (fun entry => if entry.1 = k then (k, v) else entry) = t := by
      conv_rhs => rw [← List.map_id t]
      apply List.map_congr_left
      intro entry hmem
      rw [if_neg (hne entry hmem), id]
    rw [hmap]
    exact List.prefix_append t _
  · rw [List.append_assoc]
    exact List.prefix_append t _

end Table

end CallAtlas

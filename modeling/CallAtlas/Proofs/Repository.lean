import CallAtlas.Proofs.Session

/-!
# What a repository keeps of declarations that are added

Of declarations that are added in turn, those stay whose identity is new: `entities_addAll` gives
the whole sequence, `get?_addAll` what is found under an identity afterwards.  The first declaration
of an identity stays, even if a later one differs from it in all that identities leave out.

Identities join file, name and signature by colons.  Where names and signatures have none, the
three can be read off an identity (`Entity.identity_inj`).
-/

namespace CallAtlas

/-! ### Identities -/

/-- Whether neither name nor signature has a colon. -/
def Entity.Plain (e : Entity) : Prop :=
  ':' ∉ e.name.toList ∧ ':' ∉ e.signature.toList

/-- A text splits in one way at its last colon. -/
theorem append_colon_inj {a b a' b' : List Char} (hb : ':' ∉ b) (hb' : ':' ∉ b') :
    a ++ ':' :: b = a' ++ ':' :: b' ↔ a = a' ∧ b = b' := by
  constructor
  · intro h
    rcases List.append_eq_append_iff.mp h with ⟨c, rfl, hc⟩ | ⟨c, rfl, hc⟩
    · cases c with
      | nil => exact ⟨(List.append_nil a).symm, (List.cons.inj hc).2⟩
      | cons x c =>
        refine absurd ?_ hb
        rw [(List.cons.inj hc).2]
        exact List.mem_append_right _ List.mem_cons_self
    · cases c with
      | nil => exact ⟨List.append_nil a', (List.cons.inj hc).2.symm⟩
      | cons x c =>
        refine absurd ?_ hb'
        rw [(List.cons.inj hc).2]
        exact List.mem_append_right _ List.mem_cons_self
  · rintro ⟨rfl, rfl⟩
    rfl

theorem Entity.identity_inj {d e : Entity} (hd : d.Plain) (he : e.Plain) :
    d.identity = e.identity ↔ d.file = e.file ∧ d.name = e.name ∧ d.signature = e.signature := by
  have hlist : ∀ e : Entity, e.identity.toList =
      (e.file.toList ++ ':' :: e.name.toList) ++ ':' :: e.signature.toList := by
    intro e
    simp [identity]
  rw [← String.toList_inj, hlist, hlist, append_colon_inj hd.2 he.2, append_colon_inj hd.1 he.1,
    String.toList_inj, String.toList_inj, String.toList_inj, and_assoc]

namespace Repository

variable {r : Repository} {e : Entity} {es : List Entity} {i : String}

/-! ### One declaration -/

theorem get?_eq_none : r.get? i = none ↔ r.contains i = false := by
  rw [get?, contains, List.find?_eq_none, List.any_eq_false]

theorem get?_add (r : Repository) (e : Entity) (i : String) :
    (r.add e).get? i = (r.get? i).or (if e.identity = i then some e else none) := by
  rw [add]
  cases hknown : r.contains e.identity with
  | true =>
    rw [if_pos rfl]
    rcases hget : r.get? i with _ | d
    · -- nothing is known under `i`, so `e` has another identity
      have hne : e.identity ≠ i := by
        rintro rfl
        rw [get?_eq_none, hknown] at hget
        cases hget
      rw [if_neg hne, Option.none_or]
    · rw [Option.some_or]
  | false =>
    rw [if_neg Bool.false_ne_true, get?, get?, List.find?_append, List.find?_singleton]
    simp only [beq_iff_eq]

/-! ### Declarations in turn -/

/-- What is found under an identity is what was there, or else the first that was added. -/
theorem get?_addAll (r : Repository) (es : List Entity) (i : String) :
    (r.addAll es).get? i = (r.get? i).or (es.find? fun e => e.identity == i) := by
  induction es generalizing r with
  | nil => exact (Option.or_none).symm
  | cons e es ih =>
    rw [addAll, List.foldl_cons, ← addAll, ih, get?_add, Option.or_assoc, List.find?_cons]
    by_cases heq : e.identity = i
    · rw [if_pos heq, beq_iff_eq.mpr heq, Option.some_or]
    · rw [if_neg heq, beq_false_of_ne heq, Option.none_or]

theorem contains_add (r : Repository) (e : Entity) (i : String) :
    (r.add e).contains i = (r.contains i || e.identity == i) := by
  rw [add]
  cases hknown : r.contains e.identity with
  | true =>
    rw [if_pos rfl]
    by_cases heq : e.identity = i
    · rw [← heq, hknown, Bool.true_or]
    · rw [beq_false_of_ne heq, Bool.or_false]
  | false =>
    rw [if_neg Bool.false_ne_true, contains, contains, List.any_append, List.any_cons,
      List.any_nil, Bool.or_false]

theorem contains_addAll {r : Repository} {es : List Entity} {i : String} :
    (r.addAll es).contains i = true ↔ r.contains i = true ∨ i ∈ es.map Entity.identity := by
  induction es generalizing r with
  | nil => simp [addAll]
  | cons e es ih =>
    rw [addAll, List.foldl_cons, ← addAll, ih, contains_add, Bool.or_eq_true, beq_iff_eq,
      List.map_cons, List.mem_cons, or_assoc, @eq_comm _ i]

/-- The declarations that are new join those that are there. -/
theorem entities_addAll (r : Repository) (es : List Entity) :
    (r.addAll es).entities = r.entities ++ r.newAmong es := by
  induction es generalizing r with
  | nil => exact (List.append_nil _).symm
  | cons e es ih =>
    -- behind `e`, another declaration of its identity is not new
    have hrest : (r.add e).newAmong es =
        ((keepFirst Entity.identity es).filter fun d => d.identity ≠ e.identity).filter
          fun d => !r.contains d.identity := by
      rw [newAmong, List.filter_filter]
      refine List.filter_congr ?_
      intro d _
      rw [contains_add, Bool.not_or]
      congr 1
      by_cases heq : d.identity = e.identity
      · simp [heq]
      · simp [heq, Ne.symm heq]
    rw [addAll, List.foldl_cons, ← addAll, ih, hrest, newAmong, keepFirst, add]
    cases hknown : r.contains e.identity with
    | true => rw [if_pos rfl, List.filter_cons_of_neg (by simp [hknown])]
    | false =>
      rw [if_neg Bool.false_ne_true, List.filter_cons_of_pos (by simp [hknown]),
        List.append_assoc, List.singleton_append]

end Repository

end CallAtlas

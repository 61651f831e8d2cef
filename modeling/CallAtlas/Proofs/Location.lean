import CallAtlas.Location
import Mathlib.Data.List.Basic

/-!
# Keys of locations

A key joins owner, repository, branch and path of a location by three different characters.  Where
none of these occurs too early, the four can be read off a key (`Location.key_inj`).
-/

namespace CallAtlas

/-- A text splits in one way at the first occurrence of a character. -/
theorem append_cons_inj {c : Char} {a b a' b' : List Char} (ha : c ∉ a) (ha' : c ∉ a') :
    a ++ c :: b = a' ++ c :: b' ↔ a = a' ∧ b = b' := by
  constructor
  · intro h
    induction a generalizing a' with
    | nil =>
      cases a' with
      | nil => exact ⟨rfl, (List.cons.inj h).2⟩
      | cons x a' =>
        -- the other side would have the character in front
        refine absurd ?_ ha'
        rw [(List.cons.inj h).1]
        exact List.mem_cons_self
    | cons x a ih =>
      cases a' with
      | nil =>
        refine absurd ?_ ha
        rw [← (List.cons.inj h).1]
        exact List.mem_cons_self
      | cons x' a' =>
        obtain ⟨rfl, hrest⟩ := List.cons.inj h
        obtain ⟨rfl, hb⟩ := ih (List.not_mem_of_not_mem_cons ha) (List.not_mem_of_not_mem_cons ha')
          hrest
        exact ⟨rfl, hb⟩
  · rintro ⟨rfl, rfl⟩
    rfl

namespace Location

/-- Whether the characters that separate the parts of a key do not occur too early. -/
def Plain (l : Location) : Prop :=
  '/' ∉ l.owner.toList ∧ '@' ∉ l.repo.toList ∧ ':' ∉ l.branch.toList

instance (l : Location) : Decidable l.Plain :=
  inferInstanceAs (Decidable (_ ∧ _ ∧ _))

theorem toList_key (l : Location) :
    l.key.toList = l.owner.toList ++ '/' :: (l.repo.toList ++ '@' ::
      (l.branch.toList ++ ':' :: l.path.toList)) := by
  simp [key, repository]

/-- Locations are told apart by their keys. -/
theorem key_inj {l m : Location} (hl : l.Plain) (hm : m.Plain) : l.key = m.key ↔ l = m := by
  obtain ⟨howner, hrepo, hbranch⟩ := hl
  obtain ⟨howner', hrepo', hbranch'⟩ := hm
  refine ⟨fun h => ?_, congrArg key⟩
  rw [← String.toList_inj, toList_key, toList_key, append_cons_inj howner howner',
    append_cons_inj hrepo hrepo', append_cons_inj hbranch hbranch'] at h
  simp only [String.toList_inj] at h
  obtain ⟨h₁, h₂, h₃, h₄⟩ := h
  rw [Location.mk.injEq]
  exact ⟨h₁, h₂, h₃, h₄⟩

theorem sameBranch_iff {l m : Location} :
    l.sameBranch m = true ↔ l.owner = m.owner ∧ l.repo = m.repo ∧ l.branch = m.branch := by
  simp only [sameBranch, Bool.and_eq_true, beq_iff_eq, and_assoc]

end Location

end CallAtlas

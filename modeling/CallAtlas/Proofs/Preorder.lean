import Mathlib.Data.List.Infix
import Mathlib.Data.List.Pairwise

/-!
# Walks over trees

A walk over a tree visits the root and then walks over the children, one after another.  Equal nodes
may stand at several places of a tree, so a place is told by its address: the numbers of the
children on the way down to it.

* `descend children address x`: what stands at an address below `x`.
* `IsWalk children x addresses visited`: the addresses are those of all places at and below `x`,
  none of them twice or before one above it, and `visited` is what stands there.
* `childInduction`: induction from the children of a node to the node, for trees that are walked
  over.
* `exists_isWalk`: a function that visits the root and then the children walks over every tree.
* `IsWalk.exists_filterMap`: the places of a walk at which something is found.
-/

namespace CallAtlas.Preorder

variable {α β : Type} {children : α → List α} {x : α}

/-- What stands at an address below `x`, if the address stays in the tree. -/
def descend (children : α → List α) : (address : List Nat) → (x : α) → Option α
  | [], x => some x
  | i :: address, x => (children x)[i]?.bind (descend children address)

/-- A walk over what is at and below `x`: it comes to every place, and to none twice or before one
above it. -/
structure IsWalk (children : α → List α) (x : α) (addresses : List (List Nat))
    (visited : List α) : Prop where
  visits : (addresses.map fun a => descend children a x) = visited.map some
  complete : ∀ a, (descend children a x).isSome = true → a ∈ addresses
  above_first : addresses.Pairwise fun a b => ¬ b <+: a

/-! ### The addresses below the root -/

/-- The addresses below the children `cs`, the first of which has the number `i`, given those below
each child. -/
def addressesFrom (below : α → List (List Nat)) : (i : Nat) → (cs : List α) → List (List Nat)
  | _, [] => []
  | i, c :: cs => (below c).map (i :: ·) ++ addressesFrom below (i + 1) cs

theorem mem_addressesFrom {below : α → List (List Nat)} {i : Nat} {cs : List α} {a : List Nat} :
    a ∈ addressesFrom below i cs ↔ ∃ j b c, a = (i + j) :: b ∧ cs[j]? = some c ∧ b ∈ below c := by
  induction cs generalizing i with
  | nil => simp [addressesFrom]
  | cons c cs ih =>
    rw [addressesFrom, List.mem_append, List.mem_map, ih]
    constructor
    · rintro (⟨b, hb, rfl⟩ | ⟨j, b, d, rfl, hd, hb⟩)
      · exact ⟨0, b, c, rfl, rfl, hb⟩
      · refine ⟨j + 1, b, d, ?_, hd, hb⟩
        rw [Nat.add_assoc, Nat.add_comm 1 j]
    · rintro ⟨j, b, d, rfl, hd, hb⟩
      cases j with
      | zero =>
        obtain rfl : c = d := by simpa using hd
        exact .inl ⟨b, hb, rfl⟩
      | succ j =>
        refine .inr ⟨j, b, d, ?_, by simpa using hd, hb⟩
        rw [Nat.add_assoc, Nat.add_comm 1 j]

/-- No address below a later child is above one below an earlier child, since they differ in their
first number. -/
theorem pairwise_addressesFrom {below : α → List (List Nat)} {cs : List α}
    (h : ∀ c ∈ cs, (below c).Pairwise fun a b => ¬ b <+: a) (i : Nat) :
    (addressesFrom below i cs).Pairwise fun a b => ¬ b <+: a := by
  induction cs generalizing i with
  | nil => exact List.Pairwise.nil
  | cons c cs ih =>
    rw [List.forall_mem_cons] at h
    rw [addressesFrom, List.pairwise_append]
    refine ⟨?_, ih h.2 (i + 1), ?_⟩
    · rw [List.pairwise_map]
      refine h.1.imp fun hab hprefix => hab ?_
      exact (List.cons_prefix_cons.mp hprefix).2
    · intro a ha b hb hprefix
      obtain ⟨a', -, rfl⟩ := List.mem_map.mp ha
      obtain ⟨j, b', -, rfl, -⟩ := mem_addressesFrom.mp hb
      have hnumber : i + 1 + j = i := (List.cons_prefix_cons.mp hprefix).1
      omega

/-- What stands at the addresses below the children `cs`, which are the last of the children of
`x`. -/
theorem map_descend_addressesFrom {below : α → List (List Nat)} {walk : α → List α}
    (front : List α) {cs : List α} (hx : children x = front ++ cs)
    (h : ∀ c ∈ cs, ((below c).map fun a => descend children a c) = (walk c).map some) :
    ((addressesFrom below front.length cs).map fun a => descend children a x) =
      (cs.flatMap walk).map some := by
  induction cs generalizing front with
  | nil => rfl
  | cons c cs ih =>
    rw [List.forall_mem_cons] at h
    have hchild : (children x)[front.length]? = some c := by
      rw [hx, List.getElem?_append_right (Nat.le_refl _), Nat.sub_self, List.getElem?_cons_zero]
    -- addresses below the first child start with its number
    have hfirst : ((below c).map fun b => descend children (front.length :: b) x) =
        (walk c).map some := by
      rw [← h.1]
      refine List.map_congr_left fun b _ => ?_
      rw [descend, hchild, Option.bind_some]
    have hx' : children x = (front ++ [c]) ++ cs := by
      rw [hx, List.append_assoc, List.singleton_append]
    have hrest := ih (front ++ [c]) hx' h.2
    rw [List.length_append, List.length_singleton] at hrest
    rw [addressesFrom, List.map_append, List.map_map, List.flatMap_cons, List.map_append, ← hrest,
      ← hfirst]
    rfl

/-! ### Walks -/

section

variable {walk : α → List α} (hwalk : ∀ x, walk x = x :: (children x).flatMap walk)

include hwalk

/-- What holds of a node whenever it holds of the children holds of every node that a walk starts
from: the walk over a child is shorter. -/
@[elab_as_elim]
theorem childInduction {P : α → Prop} (step : ∀ x, (∀ c ∈ children x, P c) → P x) (x : α) :
    P x := by
  induction hlength : (walk x).length using Nat.strong_induction_on generalizing x with
  | _ n ih =>
    refine step x fun c hc => ih _ ?_ c rfl
    have hle : (walk c).length ≤ ((children x).flatMap walk).length :=
      (List.sublist_flatten_of_mem (List.mem_map_of_mem hc)).length_le
    rw [← hlength, hwalk x, List.length_cons]
    exact Nat.lt_succ_of_le hle

/-- What visits the root and then the children walks over every tree. -/
theorem exists_isWalk (x : α) : ∃ addresses, IsWalk children x addresses (walk x) := by
  induction x using childInduction hwalk with
  | step x ih =>
    have hchild : ∀ c, ∃ addresses, c ∈ children x → IsWalk children c addresses (walk c) := by
      intro c
      by_cases hc : c ∈ children x
      · obtain ⟨addresses, h⟩ := ih c hc
        exact ⟨addresses, fun _ => h⟩
      · exact ⟨[], fun h => absurd h hc⟩
    -- the walks over the children, put one behind the other
    choose below hbelow using hchild
    refine ⟨[] :: addressesFrom below 0 (children x), ?_, ?_, ?_⟩
    · have hbelow' := map_descend_addressesFrom [] (List.nil_append _).symm
        fun c hc => (hbelow c hc).visits
      rw [List.length_nil] at hbelow'
      rw [hwalk x, List.map_cons, List.map_cons, hbelow', descend]
    · intro a ha
      cases a with
      | nil => exact List.mem_cons_self
      | cons i a =>
        rw [descend, Option.isSome_bind] at ha
        rcases hi : (children x)[i]? with _ | c
        · rw [hi] at ha
          cases ha
        · rw [hi] at ha
          have hc : c ∈ children x := List.mem_of_getElem? hi
          refine List.mem_cons_of_mem _ (mem_addressesFrom.mpr ⟨i, a, c, ?_, hi, ?_⟩)
          · rw [Nat.zero_add]
          · exact (hbelow c hc).complete a ha
    · rw [List.pairwise_cons]
      constructor
      · -- no other address is above the root
        intro b hb hprefix
        obtain ⟨j, b', -, rfl, -⟩ := mem_addressesFrom.mp hb
        exact List.cons_ne_nil _ _ (List.prefix_nil.mp hprefix)
      · exact pairwise_addressesFrom (fun c hc => (hbelow c hc).above_first) 0

end

namespace IsWalk

variable {addresses : List (List Nat)} {visited : List α}

/-- What holds between things visited one after the other holds between what stands at their
addresses. -/
theorem pairwise (h : IsWalk children x addresses visited) {R : α → α → Prop}
    (hR : visited.Pairwise R) : addresses.Pairwise fun a b =>
      ∀ y z, descend children a x = some y → descend children b x = some z → R y z := by
  have hsome : (visited.map some).Pairwise fun o o' => ∀ y z, o = some y → o' = some z → R y z := by
    rw [List.pairwise_map]
    refine hR.imp fun hyz y' z' hy hz => ?_
    rwa [← Option.some.inj hy, ← Option.some.inj hz]
  rw [← h.visits, List.pairwise_map] at hsome
  exact hsome

/-- The addresses at which `find` finds something, with what it finds there. -/
theorem exists_filterMap (h : IsWalk children x addresses visited) (find : α → Option β) :
    ∃ found : List (List Nat), found.Sublist addresses ∧
      (found.map fun a => (descend children a x).bind find) = (visited.filterMap find).map some ∧
      ∀ a y b, descend children a x = some y → find y = some b → a ∈ found := by
  refine ⟨addresses.filter fun a => ((descend children a x).bind find).isSome,
    List.filter_sublist, ?_, ?_⟩
  · have hmap : (addresses.map fun a => (descend children a x).bind find) = visited.map find := by
      have hbind := congrArg (List.map fun o : Option α => o.bind find) h.visits
      rwa [List.map_map, List.map_map] at hbind
    have hfilter : ∀ os : List (Option β), os.filter Option.isSome = (os.filterMap id).map some := by
      intro os
      induction os with
      | nil => rfl
      | cons o os ih => cases o <;> simp [ih]
    -- filtering by what is found at an address is filtering what is found
    calc _ = (addresses.map fun a => (descend children a x).bind find).filter Option.isSome := by
            rw [List.filter_map]
            rfl
      _ = (visited.filterMap find).map some := by
            rw [hmap, hfilter, List.filterMap_map, Function.id_comp]
  · intro a y b hy hb
    rw [List.mem_filter]
    refine ⟨h.complete a ?_, ?_⟩
    · rw [hy]
      rfl
    · rw [hy, Option.bind_some, hb]
      rfl

end IsWalk

end CallAtlas.Preorder

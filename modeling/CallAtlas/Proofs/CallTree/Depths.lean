import CallAtlas.Proofs.CallTree.Bounded
import CallAtlas.Proofs.Ordered
import CallAtlas.Proofs.Preorder
import Mathlib.Algebra.BigOperators.Group.List.Lemmas
import Mathlib.Algebra.GroupWithZero.Nat
import Mathlib.Data.List.Sort
import Mathlib.Order.Bounds.Basic

/-!
# Depths of the nodes of a tree

A child lies one level below its parent, so on the way from the root to a node no depth is left out,
and the depths that occur in a tree are those from the root's to the greatest.

* `subtrees_eq`: the trees at and below a tree are visited root first.
* `Leveled`: every child lies one level below its parent; `exists_depth` finds a node at each depth
  on the way.
* `isGreatest_maxDepth`: the greatest depth is one that occurs.
* `Leveled.countedDepths_eq`: the depths that are counted, in order.
* `Tallied`: what the walk over a tree and the counts by depth have to do with each other.
* `build_tallied`: every tree that is built is tallied.
-/

namespace CallAtlas.CallTree

variable {t : CallTree}

/-! ### The walk -/

theorem subtreesOfAll_eq (ts : List CallTree) : subtreesOfAll ts = ts.flatMap subtrees := by
  induction ts with
  | nil => rfl
  | cons t ts ih => rw [subtreesOfAll, ih, List.flatMap_cons]

theorem subtrees_eq (t : CallTree) : t.subtrees = t :: t.children.flatMap subtrees := by
  obtain ⟨n, children⟩ := t
  rw [subtrees, subtreesOfAll_eq]
  rfl

theorem nodes_eq (t : CallTree) : t.nodes = t.root :: t.children.flatMap nodes := by
  rw [nodes, subtrees_eq, List.map_cons, List.map_flatMap]
  rfl

/-! ### Levels -/

/-- Whether every child lies one level below its parent. -/
def Leveled (t : CallTree) : Prop :=
  ∀ u ∈ t.subtrees, ∀ c ∈ u.children, c.root.depth = u.root.depth + 1

theorem Leveled.child_depth (h : t.Leveled) {c : CallTree} (hc : c ∈ t.children) :
    c.root.depth = t.root.depth + 1 := by
  apply h t
  · rw [subtrees_eq]
    exact List.mem_cons_self
  · exact hc

theorem Leveled.child (h : t.Leveled) {c : CallTree} (hc : c ∈ t.children) : c.Leveled := by
  intro u hu
  apply h
  rw [subtrees_eq]
  exact List.mem_cons_of_mem _ (List.mem_flatMap_of_mem hc hu)

theorem Leveled.root_depth_le (h : t.Leveled) {n : CallNode} (hn : n ∈ t.nodes) :
    t.root.depth ≤ n.depth := by
  induction t using Preorder.childInduction subtrees_eq with
  | step t ih =>
    rw [nodes_eq, List.mem_cons, List.mem_flatMap] at hn
    rcases hn with rfl | ⟨c, hc, hn⟩
    · exact Int.le_refl _
    · have hle := ih c hc (h.child hc) hn
      have hroot := h.child_depth hc
      omega

/-- No depth is left out on the way to a node. -/
theorem Leveled.exists_depth (h : t.Leveled) {n : CallNode} (hn : n ∈ t.nodes) {d : Int}
    (hroot : t.root.depth ≤ d) (hd : d ≤ n.depth) : ∃ m ∈ t.nodes, m.depth = d := by
  induction t using Preorder.childInduction subtrees_eq with
  | step t ih =>
    by_cases htop : d = t.root.depth
    · refine ⟨t.root, ?_, htop.symm⟩
      rw [nodes_eq]
      exact List.mem_cons_self
    · -- the node is not the root, so it lies in a child, and `d` is at least the child's depth
      rw [nodes_eq, List.mem_cons, List.mem_flatMap] at hn
      rcases hn with rfl | ⟨c, hc, hn⟩
      · omega
      · have hchild := h.child_depth hc
        obtain ⟨m, hm, hdepth⟩ := ih c hc (h.child hc) hn (by omega)
        refine ⟨m, ?_, hdepth⟩
        rw [nodes_eq]
        exact List.mem_cons_of_mem _ (List.mem_flatMap_of_mem hc hm)

/-! ### Depths that occur -/

/-- The depths of the nodes, in the order of the walk. -/
def depths (t : CallTree) : List Int :=
  t.nodes.map (·.depth)

theorem depths_eq (t : CallTree) :
    t.depths = t.root.depth :: (t.children.flatMap nodes).map (·.depth) := by
  rw [depths, nodes_eq, List.map_cons]

/-- Only the root lies at its depth. -/
theorem Leveled.count_root (h : t.Leveled) : t.depths.count t.root.depth = 1 := by
  have hbelow : t.root.depth ∉ (t.children.flatMap nodes).map (·.depth) := by
    intro hmem
    obtain ⟨n, hn, hdepth⟩ := List.mem_map.mp hmem
    obtain ⟨c, hc, hn⟩ := List.mem_flatMap.mp hn
    have hle := (h.child hc).root_depth_le hn
    have hroot := h.child_depth hc
    omega
  rw [depths_eq, List.count_cons_self, List.count_eq_zero_of_not_mem hbelow]

theorem isGreatest_foldl_max (d : Int) (ds : List Int) :
    IsGreatest {x | x ∈ d :: ds} (ds.foldl max d) := by
  induction ds generalizing d with
  | nil => simp [IsGreatest, upperBounds]
  | cons e ds ih =>
    obtain ⟨hmem, hle⟩ := ih (max d e)
    rw [List.foldl_cons]
    constructor
    · have hcases : max d e = d ∨ max d e = e := by omega
      have hmem' : ds.foldl max (max d e) ∈ max d e :: ds := hmem
      show ds.foldl max (max d e) ∈ d :: e :: ds
      rw [List.mem_cons] at hmem'
      grind
    · intro x hx
      have hx' : x ∈ d :: e :: ds := hx
      have hmax : max d e ≤ ds.foldl max (max d e) := hle List.mem_cons_self
      rw [List.mem_cons, List.mem_cons] at hx'
      rcases hx' with rfl | rfl | hx'
      · exact (le_max_left _ _).trans hmax
      · exact (le_max_right _ _).trans hmax
      · exact hle (List.mem_cons_of_mem _ hx')

/-- The greatest depth is one that occurs. -/
theorem isGreatest_maxDepth (t : CallTree) : IsGreatest {d | d ∈ t.depths} t.maxDepth := by
  have hroot : t.maxDepth =
      ((t.children.flatMap nodes).map (·.depth)).foldl max t.root.depth := by
    rw [maxDepth, nodes_eq, List.map_cons, List.foldl_cons, max_self]
  rw [hroot, depths_eq]
  exact isGreatest_foldl_max _ _

/-- In a tree with levels the depths that occur are those from the root's to the greatest. -/
theorem Leveled.mem_depths_iff (h : t.Leveled) {d : Int} :
    d ∈ t.depths ↔ t.root.depth ≤ d ∧ d ≤ t.maxDepth := by
  obtain ⟨hmem, hle⟩ := isGreatest_maxDepth t
  constructor
  · intro hd
    refine ⟨?_, hle hd⟩
    obtain ⟨n, hn, rfl⟩ := List.mem_map.mp hd
    exact h.root_depth_le hn
  · rintro ⟨hlow, hhigh⟩
    obtain ⟨n, hn, hdepth⟩ := List.mem_map.mp (show t.maxDepth ∈ t.depths from hmem)
    obtain ⟨m, hm, rfl⟩ := h.exists_depth hn hlow (hdepth ▸ hhigh)
    exact List.mem_map_of_mem hm

/-! ### Counts -/

/-- The depths that are counted. -/
def countedDepths (t : CallTree) : List Int :=
  (keepFirst id t.depths).mergeSort fun a b => decide (a ≤ b)

theorem depthDistribution_eq (t : CallTree) :
    t.depthDistribution = t.countedDepths.map fun d => (d, t.depths.count d) := rfl

theorem mem_countedDepths {d : Int} : d ∈ t.countedDepths ↔ d ∈ t.depths := by
  rw [countedDepths, List.mem_mergeSort, mem_keepFirst_id]

theorem nodup_countedDepths (t : CallTree) : t.countedDepths.Nodup :=
  (List.mergeSort_perm _ _).nodup_iff.mpr (nodup_keepFirst_id _)

theorem pairwise_countedDepths (t : CallTree) : t.countedDepths.Pairwise (· ≤ ·) := by
  have hsorted : t.countedDepths.Pairwise fun a b => decide (a ≤ b) = true := by
    refine List.pairwise_mergeSort ?_ ?_ _
    · intro a b c hab hbc
      rw [decide_eq_true_eq] at *
      exact hab.trans hbc
    · intro a b
      rw [Bool.or_eq_true, decide_eq_true_eq, decide_eq_true_eq]
      exact le_total a b
  exact hsorted.imp of_decide_eq_true

/-- The depths that are counted are those from nothing to the greatest, in order. -/
theorem Leveled.countedDepths_eq (h : t.Leveled) (hroot : t.root.depth = 0) :
    t.countedDepths = (List.range (t.maxDepth.toNat + 1)).map Int.ofNat := by
  have hperm : t.countedDepths.Perm ((List.range (t.maxDepth.toNat + 1)).map Int.ofNat) := by
    refine (List.perm_ext_iff_of_nodup t.nodup_countedDepths ?_).mpr fun d => ?_
    · exact List.nodup_range.map fun _ _ => Int.ofNat.inj
    · rw [mem_countedDepths, h.mem_depths_iff, hroot, List.mem_map]
      constructor
      · rintro ⟨hlow, hhigh⟩
        refine ⟨d.toNat, List.mem_range.mpr (by omega), ?_⟩
        exact Int.toNat_of_nonneg hlow
      · rintro ⟨i, hi, rfl⟩
        have hlt : i < t.maxDepth.toNat + 1 := List.mem_range.mp hi
        have hcast : Int.ofNat i = (i : Int) := rfl
        have hgreatest : 0 ≤ t.maxDepth := by
          rw [← hroot]
          exact (h.mem_depths_iff.mp (isGreatest_maxDepth t).1).1
        omega
  refine hperm.eq_of_pairwise' t.pairwise_countedDepths ?_
  rw [List.pairwise_map]
  exact List.pairwise_lt_range.imp fun hlt => Int.ofNat_le.mpr (Nat.le_of_lt hlt)

/-- The counts by depth together count every node. -/
theorem sum_depthDistribution (t : CallTree) :
    (t.depthDistribution.map Prod.snd).sum = t.nodes.length := by
  have hperm : t.countedDepths.Perm t.depths.dedup := by
    refine (List.perm_ext_iff_of_nodup t.nodup_countedDepths (List.nodup_dedup _)).mpr fun d => ?_
    rw [mem_countedDepths, List.mem_dedup]
  calc (t.depthDistribution.map Prod.snd).sum
      = (t.countedDepths.map fun d => t.depths.count d).sum := by
        rw [depthDistribution_eq, List.map_map]
        rfl
    _ = (t.depths.dedup.map fun d => t.depths.count d).sum := (hperm.map _).sum_eq
    _ = t.nodes.length := by
        rw [List.sum_map_count_dedup_eq_length, depths, List.length_map]

/-! ### Trees that are built -/

/-- Whether the counts by depth fit the walk over a tree: they are counts for the depths from
nothing to the greatest, in order, none of them zero, one for the root, and together as many as the
nodes that are visited.  The walk visits every place of the tree, none of them twice or before one
above it. -/
structure Tallied (t : CallTree) : Prop where
  keys : t.depthDistribution.map Prod.fst = (List.range (t.maxDepth.toNat + 1)).map Int.ofNat
  maxDepth_nonneg : 0 ≤ t.maxDepth
  count_pos : ∀ entry ∈ t.depthDistribution, 0 < entry.2
  count_zero : t.depthDistribution.lookup 0 = some 1
  sum_counts : (t.depthDistribution.map Prod.snd).sum = t.nodes.length
  walk : ∃ addresses, Preorder.IsWalk children t addresses t.subtrees ∧
    addresses.length = t.nodes.length

theorem Leveled.tallied (h : t.Leveled) (hroot : t.root.depth = 0) : t.Tallied where
  keys := by
    rw [← h.countedDepths_eq hroot, depthDistribution_eq, List.map_map]
    exact List.map_id _
  maxDepth_nonneg := by
    rw [← hroot]
    exact (h.mem_depths_iff.mp (isGreatest_maxDepth t).1).1
  count_pos := by
    intro entry hentry
    rw [depthDistribution_eq] at hentry
    obtain ⟨d, hd, rfl⟩ := List.mem_map.mp hentry
    exact List.count_pos_iff.mpr (mem_countedDepths.mp hd)
  count_zero := by
    have hcount : t.depths.count 0 = 1 := by
      rw [← hroot]
      exact h.count_root
    -- the first depth that is counted is that of the root
    rw [depthDistribution_eq, h.countedDepths_eq hroot, List.range_succ_eq_map, List.map_cons,
      List.map_cons]
    show List.lookup (0 : Int) ((0, t.depths.count 0) :: _) = some 1
    rw [List.lookup_cons, beq_self_eq_true, hcount]
  sum_counts := sum_depthDistribution t
  walk := by
    obtain ⟨addresses, hwalk⟩ := Preorder.exists_isWalk subtrees_eq t
    refine ⟨addresses, hwalk, ?_⟩
    have hlength := congrArg List.length hwalk.visits
    rw [List.length_map, List.length_map] at hlength
    rw [hlength, nodes, List.length_map]

/-- A tree is built unless a text cannot be read for reasons of the parser's own.  Its counts by
depth fit the walk over it. -/
theorem build_tallied (env : Environment) (options : Options) (e : Entity) (bound : Int)
    (p : Progress) :
    (env.parser.Steady → ∃ t q, build env options e bound p = (some t, q)) ∧
      ∀ t q, build env options e bound p = (some t, q) → t.Tallied := by
  refine ⟨fun henv => (Run.closed_completes henv).build options e bound p, ?_⟩
  intro t q h
  have hexp : Expanded (fun _ => True) bound.toNat 0 [] t :=
    expanded_of_expand h trivial fun _ _ => trivial
  have hleveled : t.Leveled := hexp.bounded.child_depth
  exact hleveled.tallied hexp.bounded.root_depth

/-- A function that calls another one. -/
def payAll : Entity :=
  { name := "payAll", signature := "payAll()", file := "contracts/A.sol", contract := "A"
    calls := [{ name := "pay" }] }

/-- Declarations of which the second one calls a function that is not declared, and the third one
through an interface. -/
def payments : List Entity :=
  [payAll,
    { name := "pay", signature := "pay()", file := "contracts/A.sol", contract := "A"
      calls := [{ name := "log" }, { name := "IX", arguments := 1 }, { name := "send" }]
      source := some "log(); IX(x).send();" },
    { name := "send", signature := "send()", file := "contracts/IX.sol", contract := "IX" }]

/-- The two calls at the end lie two levels below the root, one of them through the interface. -/
theorem build_tallied_payAll :
    let p : Progress := { session := { repository := ⟨payments⟩ } }
    Environment.barren.parser.Steady ∧
      ∃ t q, build .barren {} payAll 9 p = (some t, q) ∧
        t.nodes.map (fun n => (n.name, n.kind, n.depth)) =
          [("payAll", .internal, 0), ("pay", .internal, 1), ("log", .external, 2),
            ("IX.send", .interface, 2)] ∧
        t.depthDistribution.map Prod.fst = [0, 1, 2] ∧ t.Tallied := by
  intro p
  obtain ⟨hbuilds, htallied⟩ := build_tallied .barren {} payAll 9 p
  obtain ⟨t, q, h⟩ := hbuilds Environment.steady_barren
  have hshown : (build .barren {} payAll 9 p).1.map
      (fun t => (t.nodes.map fun n => (n.name, n.kind, n.depth), t.maxDepth)) =
        some ([("payAll", .internal, 0), ("pay", .internal, 1), ("log", .external, 2),
          ("IX.send", .interface, 2)], 2) := by
    decide +kernel
  rw [h] at hshown
  obtain ⟨hnodes, hdepth⟩ := Prod.mk.inj (Option.some.inj hshown)
  have hkeys := (htallied t q h).keys
  rw [hdepth] at hkeys
  exact ⟨Environment.steady_barren, t, q, h, hnodes, hkeys, htallied t q h⟩

end CallAtlas.CallTree

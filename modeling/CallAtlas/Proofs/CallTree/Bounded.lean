import CallAtlas.Proofs.CallTree.Visit
import Mathlib.Data.List.Perm.Subperm

/-!
# Call trees are bounded

Trees end, whatever the declarations call: depth counts from the root, no node lies deeper than
the bound, and no declaration is expanded below itself.  Since declarations may be read while a
tree is built, the declarations that stand on the way to a node are counted among those that are
there at the end.

* `Expanded known left depth path t`: what an expansion can come to, read off the recursion.  All
  properties of trees below are drawn from it.
* `Expanded.of_mem_subtrees`: a tree below an expanded one is expanded too, under the identities
  on the way to it.  These are known and no two of them are equal.
* `build_bounded`: the bounds for every tree that is built.
-/

namespace CallAtlas.CallTree

open Interface (Edge)

/-! ### Trees below a tree -/

theorem mem_subtreesOfAll {u : CallTree} {ts : List CallTree} :
    u ∈ subtreesOfAll ts ↔ ∃ t ∈ ts, u ∈ t.subtrees := by
  induction ts with
  | nil => simp [subtreesOfAll]
  | cons t ts ih => simp [subtreesOfAll, ih]

theorem mem_subtrees_node {u : CallTree} {n : CallNode} {children : List CallTree} :
    u ∈ (node n children).subtrees ↔ u = node n children ∨ ∃ c ∈ children, u ∈ c.subtrees := by
  rw [subtrees, List.mem_cons, mem_subtreesOfAll]

/-- The nodes on a way from the root of a tree down to a leaf. -/
inductive Branch : CallTree → List CallNode → Prop
  | leaf {n : CallNode} : Branch (node n []) [n]
  | step {n : CallNode} {children : List CallTree} {c : CallTree} {b : List CallNode}
      (hc : c ∈ children) (hb : Branch c b) : Branch (node n children) (n :: b)

theorem Branch.ne_nil {t : CallTree} {b : List CallNode} (h : Branch t b) : b ≠ [] := by
  cases h with
  | leaf => exact List.cons_ne_nil _ _
  | step => exact List.cons_ne_nil _ _

/-- Depth counts from the root, at most to the bound; only nodes of known declarations have
children, and none of these has a node of its own identity above it. -/
structure Bounded (bound : Int) (t : CallTree) : Prop where
  root_depth : t.root.depth = 0
  child_depth : ∀ u ∈ t.subtrees, ∀ c ∈ u.children, c.root.depth = u.root.depth + 1
  depth_le : ∀ n ∈ t.nodes, n.depth ≤ max bound 0
  children_eq_nil : ∀ u ∈ t.subtrees, u.root.kind ≠ .internal → u.children = []
  identity_ne : ∀ a ∈ t.subtrees, ∀ x ∈ subtreesOfAll a.children, x.children ≠ [] →
    a.root.identity ≠ x.root.identity
  nodup_branch : ∀ b, Branch t b → (b.dropLast.map (·.identity)).Nodup

/-! ### What an expansion comes to -/

/-- What a declaration met at `depth` below the identities `path` comes to, with `left` levels left
to expand: a leaf, or a node that is new on the way and has expanded children. -/
inductive Expanded (known : String → Prop) :
    (left depth : Nat) → (path : List String) → CallTree → Prop
  | leaf {left depth : Nat} {path : List String} {n : CallNode} (hdepth : n.depth = depth) :
      Expanded known left depth path (node n [])
  | node {left depth : Nat} {path : List String} {n : CallNode} {children : List CallTree}
      (hdepth : n.depth = depth) (hkind : n.kind = .internal) (hnew : n.identity ∉ path)
      (hknown : known n.identity)
      (hchildren : ∀ c ∈ children, Expanded known left (depth + 1) (n.identity :: path) c) :
      Expanded known (left + 1) depth path (node n children)

theorem expanded_of_expand {env : Environment} {options : Options} {left depth : Nat}
    {path : List String} {e : Entity} {p q : Progress} {t : CallTree} {known : String → Prop}
    (h : expand env options left depth path e p = (some t, q)) (he : known e.identity)
    (hknown : ∀ i, q.session.repository.contains i = true → known i) :
    Expanded known left depth path t := by
  induction left generalizing depth path e p q t with
  | zero =>
    cases h
    exact .leaf rfl
  | succ left ih =>
    by_cases hpath : e.identity ∈ path
    · rw [expand, if_pos (List.contains_iff_mem.mpr hpath)] at h
      cases h
      exact .leaf rfl
    · obtain ⟨log, sites, r, bind, hvisits, -, hgrows, rfl⟩ := expand_eq_some hpath h
      refine .node rfl rfl hpath he fun c hc => ?_
      have hexpand := (Run.closed_grows env).expand options left (depth + 1) (e.identity :: path)
      rcases List.mem_append.mp hc with hc | hc
      · obtain ⟨site, hsite, hc⟩ := List.mem_filterMap.mp hc
        obtain ⟨r', r'', hvisit, -, hrest⟩ := hvisits.exists_visit hexpand hsite
        cases hvisit with
        | leftOut => cases hc
        | @followed _ d _ _ _ hd ht =>
          cases hc
          -- the declarations are those at the moment of the call; at the end there may be more
          have hlater : ∀ i, r''.session.repository.contains i = true → known i :=
            fun i hi => hknown i ((hrest.trans hgrows).contains hi)
          have hmem : r'.session.repository.contains d.identity = true :=
            Repository.contains_iff.mpr
              (List.mem_map_of_mem (Repository.mem_of_findDefinition? hd))
          have hgrows' := hexpand d r'
          rw [ht] at hgrows'
          exact ih ht (hlater _ (hgrows'.contains hmem)) hlater
        | unknown =>
          cases hc
          exact .leaf rfl
      · obtain ⟨edge, -, rfl⟩ := List.mem_map.mp hc
        exact .leaf rfl

namespace Expanded

variable {known : String → Prop} {left depth : Nat} {path : List String} {t u : CallTree}

theorem root_depth (h : Expanded known left depth path t) : t.root.depth = depth := by
  cases h with
  | leaf hdepth => exact hdepth
  | node hdepth => exact hdepth

/-- A tree below an expanded one is expanded under the identities on the way to it. -/
theorem of_mem_subtrees (h : Expanded known left depth path t) (hu : u ∈ t.subtrees) :
    ∃ above : List String, above.length ≤ left ∧
      Expanded known (left - above.length) (depth + above.length) (above ++ path) u ∧
      (path.Nodup → (above ++ path).Nodup) ∧ ∀ i ∈ above, known i := by
  induction h with
  | @leaf left depth path n hdepth =>
    have hu' : u = .node n [] := by simpa [mem_subtrees_node] using hu
    rw [hu']
    exact ⟨[], Nat.zero_le _, .leaf hdepth, id, by simp⟩
  | @node left depth path n children hdepth hkind hnew hknown hchildren ih =>
    rcases mem_subtrees_node.mp hu with rfl | ⟨c, hc, hu⟩
    · exact ⟨[], Nat.zero_le _, .node hdepth hkind hnew hknown hchildren, id, by simp⟩
    · -- the nearest identity comes first, so that of the root goes to the end
      obtain ⟨above, hle, hexp, hnodup, habove⟩ := ih c hc hu
      refine ⟨above ++ [n.identity], ?_, ?_, ?_, ?_⟩
      · simpa using hle
      · rw [List.append_assoc, List.singleton_append, List.length_append, List.length_singleton,
          Nat.add_sub_add_right, Nat.add_comm _ 1, ← Nat.add_assoc]
        exact hexp
      · intro hpath
        rw [List.append_assoc, List.singleton_append]
        exact hnodup (List.nodup_cons.mpr ⟨hnew, hpath⟩)
      · intro i hi
        rcases List.mem_append.mp hi with hi | hi
        · exact habove i hi
        · rw [List.mem_singleton.mp hi]
          exact hknown

/-- No way down to a leaf has an identity twice or one of `path`, its end apart. -/
theorem nodup_branch (h : Expanded known left depth path t) {b : List CallNode}
    (hb : Branch t b) :
    (b.dropLast.map (·.identity)).Nodup ∧ ∀ i ∈ b.dropLast.map (·.identity), i ∉ path := by
  induction h generalizing b with
  | leaf =>
    cases hb with
    | leaf => exact ⟨List.nodup_nil, by simp⟩
    | step hc => cases hc
  | @node left depth path n children hdepth hkind hnew hknown hchildren ih =>
    cases hb with
    | leaf => exact ⟨List.nodup_nil, by simp⟩
    | @step _ _ c b hc hb =>
      -- below the node no identity is its own
      obtain ⟨hnodup, hfree⟩ := ih c hc hb
      rw [List.dropLast_cons_of_ne_nil hb.ne_nil, List.map_cons]
      constructor
      · refine List.nodup_cons.mpr ⟨fun hmem => ?_, hnodup⟩
        exact hfree _ hmem List.mem_cons_self
      · intro i hi
        rcases List.mem_cons.mp hi with rfl | hi
        · exact hnew
        · exact fun hmem => hfree i hi (List.mem_cons_of_mem _ hmem)

/-- A node with children is of a known declaration and new on the way. -/
theorem of_children_ne_nil (h : Expanded known left depth path t) (hc : t.children ≠ []) :
    t.root.kind = .internal ∧ t.root.identity ∉ path := by
  cases h with
  | leaf => exact absurd rfl hc
  | node _ hkind hnew => exact ⟨hkind, hnew⟩

theorem child (h : Expanded known left depth path t) {c : CallTree} (hc : c ∈ t.children) :
    ∃ left', Expanded known left' (depth + 1) (t.root.identity :: path) c := by
  cases h with
  | leaf => cases hc
  | node _ _ _ _ hchildren => exact ⟨_, hchildren c hc⟩

theorem bounded {bound : Int} (h : Expanded known bound.toNat 0 [] t) : t.Bounded bound where
  root_depth := h.root_depth
  child_depth := by
    intro u hu c hc
    obtain ⟨above, -, hexp, -⟩ := h.of_mem_subtrees hu
    obtain ⟨left', hchild⟩ := hexp.child hc
    rw [hchild.root_depth, hexp.root_depth, Int.natCast_add, Int.natCast_one]
  depth_le := by
    intro n hn
    obtain ⟨u, hu, rfl⟩ := List.mem_map.mp hn
    obtain ⟨above, hle, hexp, -⟩ := h.of_mem_subtrees hu
    rw [hexp.root_depth]
    omega
  children_eq_nil := by
    intro u hu hkind
    obtain ⟨above, -, hexp, -⟩ := h.of_mem_subtrees hu
    by_contra hc
    exact hkind (hexp.of_children_ne_nil hc).1
  identity_ne := by
    intro a ha x hx hc
    obtain ⟨above, -, hexp, -⟩ := h.of_mem_subtrees ha
    obtain ⟨c, hca, hxc⟩ := mem_subtreesOfAll.mp hx
    obtain ⟨left', hchild⟩ := hexp.child hca
    obtain ⟨below, -, hexp', -⟩ := hchild.of_mem_subtrees hxc
    intro heq
    -- a node with children is expanded, so its identity is none of those above
    refine (hexp'.of_children_ne_nil hc).2 (List.mem_append_right _ ?_)
    rw [heq]
    exact List.mem_cons_self
  nodup_branch := fun _ hb => (h.nodup_branch hb).1

/-- The way to a node has no known identity twice, so it is no longer than there are
declarations. -/
theorem depth_le_size {r : Repository}
    (h : Expanded (fun i => r.contains i = true) left 0 [] t) {n : CallNode} (hn : n ∈ t.nodes) :
    n.depth ≤ r.size := by
  obtain ⟨u, hu, rfl⟩ := List.mem_map.mp hn
  obtain ⟨above, -, hexp, hnodup, hknown⟩ := h.of_mem_subtrees hu
  have hsubset : above ⊆ r.entities.map Entity.identity :=
    fun i hi => Repository.contains_iff.mp (hknown i hi)
  have hnodup' : above.Nodup := by simpa using hnodup List.nodup_nil
  have hlength := (List.subperm_of_subset hnodup' hsubset).length_le
  rw [List.length_map] at hlength
  rw [hexp.root_depth, Repository.size]
  omega

end Expanded

/-! ### Trees that are built -/

/-- A tree is built unless a text cannot be read for reasons of the parser's own.  It is bounded,
and if it starts from one of the declarations then no node lies deeper than there are declarations
at the end. -/
theorem build_bounded (env : Environment) (options : Options) (e : Entity) (bound : Int)
    (p : Progress) :
    (env.parser.Steady → ∃ t q, build env options e bound p = (some t, q)) ∧
      ∀ t q, build env options e bound p = (some t, q) →
        t.Bounded bound ∧
        (p.session.repository.contains e.identity = true →
          ∀ n ∈ t.nodes, n.depth ≤ q.session.repository.size) := by
  refine ⟨fun henv => (Run.closed_completes henv).build options e bound p, ?_⟩
  intro t q h
  constructor
  · have hexp : Expanded (fun _ => True) bound.toNat 0 [] t :=
      expanded_of_expand h trivial fun _ _ => trivial
    exact hexp.bounded
  · intro he n hn
    have hgrows := (Run.closed_grows env).build options e bound p
    rw [h] at hgrows
    have hexp : Expanded (fun i => q.session.repository.contains i = true) bound.toNat 0 [] t :=
      expanded_of_expand h (hgrows.contains he) fun _ hi => hi
    exact hexp.depth_le_size hn

/-- A function that calls a second one, which calls the first. -/
def ping : Entity :=
  { name := "ping", signature := "ping()", file := "A.sol", calls := [{ name := "pong" }] }

/-- A function that calls the one that calls it, and one that is not declared. -/
def pong : Entity :=
  { name := "pong", signature := "pong()", file := "A.sol"
    calls := [{ name := "ping" }, { name := "require", arguments := 1 }] }

/-- Two functions that call each other end at the second time the first one is met, two levels
below the root, however many levels are asked for. -/
theorem build_bounded_pingPong :
    let p : Progress := { session := { repository := ⟨[ping, pong]⟩ } }
    Environment.barren.parser.Steady ∧ p.session.repository.contains ping.identity = true ∧
      ∃ t q, build .barren {} ping 9 p = (some t, q) ∧
        t.nodes.map (fun n => (n.name, n.depth)) =
          [("ping", 0), ("pong", 1), ("ping", 2), ("require", 2)] ∧
        t.Bounded 9 ∧ ∀ n ∈ t.nodes, n.depth ≤ q.session.repository.size := by
  intro p
  have hcontains : p.session.repository.contains ping.identity = true := by decide +kernel
  obtain ⟨hbuilds, hbounded⟩ := build_bounded .barren {} ping 9 p
  obtain ⟨t, q, h⟩ := hbuilds Environment.steady_barren
  obtain ⟨ht, hsize⟩ := hbounded t q h
  have hnodes : (build .barren {} ping 9 p).1.map (fun t => t.nodes.map fun n => (n.name, n.depth))
      = some [("ping", 0), ("pong", 1), ("ping", 2), ("require", 2)] := by
    decide +kernel
  rw [h] at hnodes
  exact ⟨Environment.steady_barren, hcontains, t, q, h, Option.some.inj hnodes, ht,
    hsize hcontains⟩

end CallAtlas.CallTree

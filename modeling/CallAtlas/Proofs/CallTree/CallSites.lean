import CallAtlas.Proofs.CallTree.Visit
import CallAtlas.Proofs.Interface.Merging

/-!
# Which calls a tree shows

A call of a function that is expanded has a child of its own, or an edge stands for it and the
child for that edge shows it.  The two groups of children are chosen apart: a call is left out when
an edge stands for it, and an edge is left out when a call as written has its name or means a
declaration with its method.  A call can fall between the two, and then no child shows it.

* `mem_remainingEdges`: which edges get a child.
* `Visit.metBy`: what a call means when it is met, and what its own child looks like.
* `represented_iff_not_lost`: exactly the calls that are left out for an edge, while every edge of
  their method is left out for other calls, are not shown.
-/

namespace CallAtlas.CallTree

open Interface (Edge)

/-! ### Shown and lost calls -/

/-- The last component of a dotted name. -/
def memberName (name : String) : String :=
  String.ofList (Text.afterLast '.' name.toList)

/-- Whether a node is for a call of `method` through an interface: that of one of the edges. -/
def IsInterfaceCall (edges : List Edge) (method : String) (n : CallNode) : Prop :=
  ∃ e ∈ edges, e.method = method ∧
    ∃ binding depth, n = interfaceLeaf { e with binding := binding } depth

namespace Site

/-- Whether a child of `t` shows the call: its own one, or one for a call of the same member
through an interface. -/
def Represented (edges : List Edge) (t : CallTree) (site : Site) : Prop :=
  (∃ c ∈ t.children, site.tree = some c) ∨
    ∃ c ∈ t.children, IsInterfaceCall edges (memberName site.call.name) c.root

/-- Whether an edge stands for the call, and the call is not written like an edge. -/
def StoodFor (edges : List Edge) (site : Site) : Prop :=
  (∀ e ∈ edges, e.callee ≠ site.call.name) ∧
    isRoutedThrough site.call.name site.definition edges = true

/-- Whether an edge stands for the call, while each edge with its method is left out for one of
the calls `sites`: one of them means a declaration of that name, or is written like the edge. -/
def Lost (edges : List Edge) (sites : List Site) (site : Site) : Prop :=
  site.StoodFor edges ∧
    ((∃ k ∈ sites, k.tree.isSome ∧
        ∃ d, k.definition = some d ∧ d.name = memberName site.call.name) ∨
      ∀ e ∈ edges, e.method = memberName site.call.name →
        ∃ k ∈ sites, k.tree.isSome ∧ k.call.name = e.callee)

/-- The node of a call's own child: that of the definition, or else one that is not followed. -/
def ownNode (depth : Nat) (site : Site) : CallNode :=
  match site.definition with
  | some d => leafOf d depth
  | none => externalLeaf site.call depth

/-- The call means what the declarations at some moment between `s` and `t` make of it, and it has
a child of its own unless it is left out. -/
structure MetBy (caller : Entity) (depth : Nat) (typeNames : List String) (edges : List Edge)
    (s t : Session) (site : Site) : Prop where
  definition : ∃ u : Session, s.Grows u ∧ u.Grows t ∧
    site.definition = u.repository.findDefinition? site.call.name caller.file
  tree : site.tree = none ↔ isLeftOut typeNames edges site.call.name site.definition = true
  root : ∀ c, site.tree = some c → c.root = site.ownNode depth

end Site

/-! ### Edges that get a child -/

theorem forall_mem_kept? {sites : List Site} {P : String → Option Entity → Prop} :
    (∀ c ∈ sites.filterMap Site.kept?, P c.name c.definition) ↔
      ∀ k ∈ sites, k.tree.isSome → P k.call.name k.definition := by
  constructor
  · intro h k hk htree
    obtain ⟨t, ht⟩ := Option.isSome_iff_exists.mp htree
    refine h ⟨k.call.name, k.definition, t⟩ (List.mem_filterMap.mpr ⟨k, hk, ?_⟩)
    rw [Site.kept?, ht, Option.map_some]
  · intro h c hc
    obtain ⟨k, hk, hkept⟩ := List.mem_filterMap.mp hc
    obtain ⟨t, ht, rfl⟩ := Option.map_eq_some_iff.mp hkept
    exact h k hk (Option.isSome_iff_exists.mpr ⟨t, ht⟩)

theorem mem_remainingEdges {edges : List Edge} {sites : List Site} {e : Edge} :
    e ∈ remainingEdges edges (sites.filterMap Site.kept?) ↔
      e ∈ edges ∧ (∀ k ∈ sites, k.tree.isSome → k.call.name ≠ e.callee) ∧
        ∀ k ∈ sites, k.tree.isSome → ∀ d, k.definition = some d → d.name ≠ e.method := by
  rw [remainingEdges, List.mem_filter, Bool.and_eq_true, Bool.not_eq_true', Bool.not_eq_true',
    List.any_eq_false, List.any_eq_false]
  simp only [Option.any_eq_true, beq_iff_eq, not_exists, not_and]
  rw [forall_mem_kept? (P := fun name _ => ¬ name = e.callee),
    forall_mem_kept? (P := fun _ definition => ∀ d, definition = some d → ¬ d.name = e.method)]

/-! ### Calls when they are met -/

theorem root_of_expand {env : Environment} {options : Options} {left depth : Nat}
    {path : List String} {e : Entity} {p q : Progress} {t : CallTree}
    (h : expand env options left depth path e p = (some t, q)) : t.root = leafOf e depth := by
  cases left with
  | zero =>
    cases h
    rfl
  | succ left =>
    by_cases hpath : e.identity ∈ path
    · rw [expand, if_pos (List.contains_iff_mem.mpr hpath)] at h
      cases h
      rfl
    · obtain ⟨log, sites, r, bind, -, -, -, rfl⟩ := expand_eq_some hpath h
      rfl

theorem Visit.metBy {expand : Entity → Run CallTree} {caller : Entity} {depth : Nat}
    {typeNames : List String} {edges : List Edge} {r r' : Progress} {s t : Session} {site : Site}
    (h : Visit expand caller depth typeNames edges r site r')
    (hroot : ∀ d p t q, expand d p = (some t, q) → t.root = leafOf d depth)
    (hs : s.Grows r.session) (ht : r.session.Grows t) :
    site.MetBy caller depth typeNames edges s t := by
  cases h with
  | leftOut hout => exact ⟨⟨r.session, hs, ht, rfl⟩, iff_of_true rfl hout, nofun⟩
  | followed hout hd hexp =>
    refine ⟨⟨r.session, hs, ht, hd.symm⟩, ?_, ?_⟩
    · rw [hout]
      simp
    · rintro c ⟨⟩
      exact hroot _ _ _ _ hexp
  | unknown hout hd =>
    refine ⟨⟨r.session, hs, ht, hd.symm⟩, ?_, ?_⟩
    · rw [hout]
      simp
    · rintro c ⟨⟩
      rfl

/-! ### Calls that are shown -/

theorem nodup_callee_edgesOf (options : Options) (left : Nat) (r : Repository) (e : Entity) :
    ((edgesOf options left r e).map Edge.callee).Nodup := by
  rw [edgesOf]
  split_ifs
  · exact List.nodup_nil
  · rcases e.source with _ | text
    · exact List.nodup_nil
    · dsimp only
      split_ifs
      · exact List.nodup_nil
      · exact Interface.nodup_callee_detect _ _ _ _

theorem isInterfaceCall_interfaceLeaf {edges : List Edge} {method : String} {e : Edge}
    {binding : Option Binding} {depth : Nat} (hnodup : (edges.map Edge.callee).Nodup)
    (he : e ∈ edges) :
    IsInterfaceCall edges method (interfaceLeaf { e with binding := binding } depth) ↔
      e.method = method := by
  constructor
  · rintro ⟨e', he', rfl, binding', depth', hleaf⟩
    -- the node's name tells which edge it is for
    have hcallee : e.callee = e'.callee := congrArg CallNode.name hleaf
    rw [List.inj_on_of_nodup_map hnodup he he' hcallee]
  · intro hmethod
    exact ⟨e, he, hmethod, binding, depth, rfl⟩

theorem not_isInterfaceCall_ownNode (edges : List Edge) (method : String) (depth : Nat)
    (site : Site) : ¬ IsInterfaceCall edges method (site.ownNode depth) := by
  rintro ⟨e, -, -, binding, depth', hleaf⟩
  have hroute := congrArg CallNode.route hleaf
  rw [Site.ownNode] at hroute
  rcases hd : site.definition with _ | d
  · rw [hd] at hroute
    cases hroute
  · rw [hd] at hroute
    cases hroute

section

variable {caller : Entity} {depth : Nat} {typeNames : List String} {edges : List Edge}
  {s t : Session} {site : Site} {sites : List Site}

/-- A call that is no conversion has a child of its own unless an edge stands for it. -/
theorem Site.MetBy.tree_eq_none_iff (h : site.MetBy caller depth typeNames edges s t)
    (hconv : isTypeConversion site.call.name typeNames = false) :
    site.tree = none ↔ site.StoodFor edges := by
  rw [h.tree, isLeftOut, hconv, Bool.false_or, Bool.and_eq_true, Bool.not_eq_true',
    List.any_eq_false, StoodFor]
  simp only [beq_iff_eq, ne_eq]

/-- So the children show its own child iff no edge stands for it. -/
theorem Site.MetBy.exists_own_iff (h : site.MetBy caller depth typeNames edges s t)
    (hconv : isTypeConversion site.call.name typeNames = false) (hsite : site ∈ sites)
    {children : List CallTree} (hstatic : sites.filterMap (·.tree) <+: children) :
    (∃ c ∈ children, site.tree = some c) ↔ ¬ site.StoodFor edges := by
  rw [← h.tree_eq_none_iff hconv]
  constructor
  · rintro ⟨c, -, hc⟩ hnone
    rw [hnone] at hc
    cases hc
  · intro hne
    obtain ⟨c, hc⟩ := Option.ne_none_iff_exists'.mp hne
    exact ⟨c, hstatic.subset (List.mem_filterMap.mpr ⟨site, hsite, hc⟩), hc⟩

/-- Only the children of edges are for calls through an interface. -/
theorem exists_isInterfaceCall_iff {method : String} {bind : Edge → Option Binding}
    (hmet : ∀ site ∈ sites, site.MetBy caller depth typeNames edges s t)
    (hnodup : (edges.map Edge.callee).Nodup) {remaining : List Edge} (hsub : remaining ⊆ edges) :
    (∃ c ∈ sites.filterMap (·.tree) ++ remaining.map fun e =>
        .node (interfaceLeaf { e with binding := bind e } depth) [],
      IsInterfaceCall edges method c.root) ↔ ∃ e ∈ remaining, e.method = method := by
  constructor
  · rintro ⟨c, hc, hcall⟩
    rcases List.mem_append.mp hc with hc | hc
    · -- the node of a call as written is none of an interface
      obtain ⟨k, hk, htree⟩ := List.mem_filterMap.mp hc
      rw [(hmet k hk).root c htree] at hcall
      exact absurd hcall (not_isInterfaceCall_ownNode _ _ _ _)
    · obtain ⟨e, he, rfl⟩ := List.mem_map.mp hc
      exact ⟨e, he, (isInterfaceCall_interfaceLeaf hnodup (hsub he)).mp hcall⟩
  · rintro ⟨e, he, hmethod⟩
    exact ⟨_, List.mem_append_right _ (List.mem_map_of_mem he),
      (isInterfaceCall_interfaceLeaf hnodup (hsub he)).mpr hmethod⟩

/-- The child of an edge that stands for a call is there iff the edge is not left out. -/
theorem exists_remainingEdge_iff {method : String} :
    (∃ e ∈ remainingEdges edges (sites.filterMap Site.kept?), e.method = method) ↔
      ¬ ((∃ k ∈ sites, k.tree.isSome ∧ ∃ d, k.definition = some d ∧ d.name = method) ∨
        ∀ e ∈ edges, e.method = method → ∃ k ∈ sites, k.tree.isSome ∧ k.call.name = e.callee) := by
  constructor
  · rintro ⟨e, he, rfl⟩ hout
    obtain ⟨hmem, hname, hmethod⟩ := mem_remainingEdges.mp he
    rcases hout with ⟨k, hk, htree, d, hd, heq⟩ | hall
    · exact hmethod k hk htree d hd heq
    · obtain ⟨k, hk, htree, heq⟩ := hall e hmem rfl
      exact hname k hk htree heq
  · intro hout
    rw [not_or] at hout
    obtain ⟨hmethod, hname⟩ := hout
    push Not at hmethod hname
    obtain ⟨e, he, rfl, hname⟩ := hname
    exact ⟨e, mem_remainingEdges.mpr ⟨he, hname, hmethod⟩, rfl⟩

end

/-- A call of an expanded declaration that is no conversion is shown by its own child or by the
child of a call of its member through an interface, exactly if it is not lost between the two. -/
theorem represented_iff_not_lost {env : Environment} {options : Options} {left depth : Nat}
    {path : List String} {e : Entity} {p q : Progress} {t : CallTree}
    (hpath : e.identity ∉ path) (h : expand env options (left + 1) depth path e p = (some t, q)) :
    let edges := edgesOf options left p.session.repository e
    let typeNames := typeNamesOf p.session.repository edges
    ∃ sites : List Site,
      sites.map (·.call) = e.calls ∧
      (∀ site ∈ sites, site.MetBy e (depth + 1) typeNames edges p.session q.session) ∧
      sites.filterMap (·.tree) <+: t.children ∧
      ∀ site ∈ sites, isTypeConversion site.call.name typeNames = false →
        (site.Represented edges t ↔ ¬ site.Lost edges sites) := by
  intro edges typeNames
  obtain ⟨log, sites, r, bind, hvisits, hcalls, hgrows, ht⟩ := expand_eq_some hpath h
  have hexpand := (Run.closed_grows env).expand options left (depth + 1) (e.identity :: path)
  have hmet : ∀ site ∈ sites, site.MetBy e (depth + 1) typeNames edges p.session q.session := by
    intro site hsite
    -- calls before this one may have brought declarations, and so may those behind it
    obtain ⟨r₁, r₂, hvisit, hbefore, hafter⟩ := hvisits.exists_visit hexpand hsite
    exact hvisit.metBy (fun _ _ _ _ => root_of_expand) hbefore
      ((hvisit.grows hexpand).trans (hafter.trans hgrows))
  have hstatic : sites.filterMap (·.tree) <+: t.children := by
    rw [ht]
    exact List.prefix_append _ _
  refine ⟨sites, hcalls, hmet, hstatic, ?_⟩
  intro site hsite hconv
  have hown := (hmet site hsite).exists_own_iff hconv hsite hstatic
  have hshown : (∃ c ∈ t.children, IsInterfaceCall edges (memberName site.call.name) c.root) ↔
      ∃ edge ∈ remainingEdges edges (sites.filterMap Site.kept?),
        edge.method = memberName site.call.name := by
    rw [ht]
    exact exists_isInterfaceCall_iff hmet (nodup_callee_edgesOf options left _ e)
      (List.filter_subset_self _)
  rw [Site.Represented, hown, hshown, exists_remainingEdge_iff, Site.Lost, not_and_or]

/-- A function that calls one of its own contract and, on a handle, one of the same name that an
interface declares. -/
def runBoth : Entity :=
  { name := "run", signature := "run()", file := "contracts/A.sol", contract := "A"
    calls := [{ name := "foo" }, { name := "x.foo" }]
    source := some "function run() { foo(); x.foo(); }" }

/-- The start of a run that knows the function, what it calls, and the interface. -/
def knowingBoth : Progress :=
  { session := { repository := ⟨[runBoth,
      { name := "foo", signature := "foo()", file := "contracts/A.sol", contract := "A" },
      { name := "foo", signature := "foo()", file := "contracts/IX.sol", contract := "IX" }]⟩ } }

/-- The call on the handle is left out because the interface's edge stands for it, and the edge is
left out because the plain call means a declaration with its method. -/
theorem represented_iff_not_lost_runBoth :
    let edges := edgesOf {} 2 knowingBoth.session.repository runBoth
    runBoth.identity ∉ ([] : List String) ∧
      ∃ t q, expand .barren {} 3 0 [] runBoth knowingBoth = (some t, q) ∧
        t.children.map (·.root.name) = ["foo"] ∧
        ∃ sites : List Site, sites.map (·.call) = runBoth.calls ∧
          ∃ site ∈ sites, site.call.name = "x.foo" ∧ ¬ site.Represented edges t ∧
            site.Lost edges sites := by
  intro edges
  refine ⟨List.not_mem_nil, ?_⟩
  obtain ⟨t, q, h⟩ :=
    (Run.closed_completes Environment.steady_barren).expand {} 3 0 [] runBoth knowingBoth
  obtain ⟨sites, hcalls, hmet, -, hiff⟩ := represented_iff_not_lost List.not_mem_nil h
  have hshown : (expand .barren {} 3 0 [] runBoth knowingBoth).1.map
      (fun t => t.children.map fun c => (c.root.name, c.root.route)) = some [("foo", none)] := by
    decide +kernel
  rw [h] at hshown
  have hshown : t.children.map (fun c => (c.root.name, c.root.route)) = [("foo", none)] :=
    Option.some.inj hshown
  have hsame : (expand .barren {} 3 0 [] runBoth knowingBoth).2.session.repository =
      knowingBoth.session.repository := by
    decide +kernel
  rw [h] at hsame
  obtain ⟨site, hsite, hcall⟩ : ∃ site ∈ sites, site.call = { name := "x.foo" } := by
    rw [← List.mem_map, hcalls]
    decide
  -- nothing is read on the way, so the call means nothing whenever it is met
  have hdefinition : site.definition = none := by
    obtain ⟨u, hu, hu', hd⟩ := (hmet site hsite).definition
    have hrepository : u.repository.entities = knowingBoth.session.repository.entities := by
      refine (hu.repository.eq_of_length_le ?_).symm
      rw [← hsame]
      exact hu'.repository.length_le
    rw [hd, hcall, show u.repository = knowingBoth.session.repository from
      congrArg Repository.mk hrepository]
    decide +kernel
  have hnone : site.tree = none := by
    rw [(hmet site hsite).tree, hcall, hdefinition]
    decide +kernel
  -- the one child is for the plain call, and not through an interface
  have hnot : ¬ site.Represented edges t := by
    rintro (⟨c, -, hc⟩ | ⟨c, hc, e, -, -, binding, depth, hleaf⟩)
    · rw [hnone] at hc
      cases hc
    · have hmem := List.mem_map_of_mem (f := fun c => (c.root.name, c.root.route)) hc
      rw [hshown, List.mem_singleton, Prod.mk.injEq, hleaf] at hmem
      cases hmem.2
  have hconv : isTypeConversion site.call.name
      (typeNamesOf knowingBoth.session.repository edges) = false := by
    rw [hcall]
    decide +kernel
  refine ⟨t, q, h, ?_, sites, hcalls, site, hsite, by rw [hcall], hnot, ?_⟩
  · have hnames := congrArg (List.map Prod.fst) hshown
    rwa [List.map_map] at hnames
  · by_contra hlost
    exact hnot ((hiff site hsite hconv).mpr hlost)

end CallAtlas.CallTree

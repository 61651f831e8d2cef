import CallAtlas.Proofs.CallTree.Bounded
import CallAtlas.Proofs.Interface.Offline

/-!
# The depth bound only cuts the tree

Without fetching, a tree depends on what is known at the beginning, whatever is noted while it is
built: `treeIn` gives it as a function of the knowledge, and `expand_yields` says that building
comes to it.  Trees of different bounds can then be compared.

Calls through interfaces are not looked for in the last level above the bound, so there the trees
may differ; above that level they do not.  Where there is no text to look at, they differ in nothing
but what lies below the bound (`build_cut`).
-/

namespace CallAtlas.CallTree

open Interface (Edge)
open Run (Yields)

/-! ### Cutting -/

mutual

/-- The tree without the nodes below its root that lie deeper than `bound`. -/
def cut (bound : Int) : CallTree → CallTree
  | node root children => node root (cutAll bound children)

/-- The trees that do not lie deeper than `bound`, cut there. -/
def cutAll (bound : Int) : List CallTree → List CallTree
  | [] => []
  | t :: ts => if t.root.depth ≤ bound then cut bound t :: cutAll bound ts else cutAll bound ts

end

section

variable {bound : Int}

theorem root_cut (t : CallTree) : (t.cut bound).root = t.root := by
  cases t with
  | node root children => rw [cut, CallTree.root, CallTree.root]

theorem cutAll_eq (ts : List CallTree) :
    cutAll bound ts = (ts.filter fun t => t.root.depth ≤ bound).map (cut bound) := by
  induction ts with
  | nil => rfl
  | cons t ts ih =>
    rw [cutAll, ih]
    split_ifs with h
    · rw [List.filter_cons_of_pos (by simpa using h), List.map_cons]
    · rw [List.filter_cons_of_neg (by simpa using h)]

theorem cutAll_append (ts us : List CallTree) :
    cutAll bound (ts ++ us) = cutAll bound ts ++ cutAll bound us := by
  rw [cutAll_eq, cutAll_eq, cutAll_eq, List.filter_append, List.map_append]

theorem cutAll_map_congr {α : Type} {f g : α → CallTree}
    (h : ∀ x, (f x).cut bound = (g x).cut bound) (xs : List α) :
    cutAll bound (xs.map f) = cutAll bound (xs.map g) := by
  induction xs with
  | nil => rfl
  | cons x xs ih =>
    have hroot : (f x).root = (g x).root := by rw [← root_cut (f x), h x, root_cut]
    rw [List.map_cons, List.map_cons, cutAll, cutAll, ih, h x, hroot]

theorem cutAll_eq_nil {ts : List CallTree} (h : ∀ t ∈ ts, bound < t.root.depth) :
    cutAll bound ts = [] := by
  rw [cutAll_eq, List.map_eq_nil_iff, List.filter_eq_nil_iff]
  intro t ht
  have hdepth := h t ht
  simp only [decide_eq_true_eq]
  omega

theorem cutAll_eq_map {ts : List CallTree} (h : ∀ t ∈ ts, t.root.depth ≤ bound) :
    cutAll bound ts = ts.map (cut bound) := by
  rw [cutAll_eq, List.filter_eq_self.mpr]
  intro t ht
  exact decide_eq_true (h t ht)

end

/-! ### Trees as functions of what is known -/

/-- The calls as written that get children of their own, with what they mean. -/
def keptCalls (r : Repository) (caller : Entity) (typeNames : List String) (edges : List Edge)
    (calls : List Call) : List (Call × Option Entity) :=
  (calls.map fun call => (call, r.findDefinition? call.name caller.file)).filter fun c =>
    !isLeftOut typeNames edges c.1.name c.2

/-- A call with its tree, given the trees of declarations. -/
def staticCallOf (tree : Entity → CallTree) (depth : Nat) (c : Call × Option Entity) :
    StaticCall :=
  ⟨c.1.name, c.2, c.2.elim (.node (externalLeaf c.1 depth) []) tree⟩

/-- The nodes for calls through interfaces. -/
def interfaceNodes (known : Known) (options : Options) (depth : Nat) (edges : List Edge) :
    List CallTree :=
  (if options.bindInterfaces then edges.map (.withBinding (Interface.resolveIn known [] edges))
    else edges).map fun e => .node (interfaceLeaf e depth) []

/-- The tree of a declaration met at `depth` below the declarations of identities `path`, with
`left` levels left to expand. -/
def treeIn (known : Known) (options : Options) :
    (left : Nat) → (depth : Nat) → (path : List String) → Entity → CallTree
  | 0, depth, _, e => .node (leafOf e depth) []
  | left + 1, depth, path, e =>
    if path.contains e.identity then .node (leafOf e depth) []
    else
      let r := known.repository
      let edges := edgesOf options left r e
      let statics := (keptCalls r e (typeNamesOf r edges) edges e.calls).map
        (staticCallOf (treeIn known options left (depth + 1) (e.identity :: path)) (depth + 1))
      .node (leafOf e depth) (statics.map (·.tree) ++
        interfaceNodes known options (depth + 1) (remainingEdges edges statics))

section

variable {env : Environment} {options : Options} {known : Known}

theorem keptCalls_cons (r : Repository) (caller : Entity) (typeNames : List String)
    (edges : List Edge) (call : Call) (calls : List Call) :
    keptCalls r caller typeNames edges (call :: calls) =
      if isLeftOut typeNames edges call.name (r.findDefinition? call.name caller.file) then
        keptCalls r caller typeNames edges calls
      else
        (call, r.findDefinition? call.name caller.file) ::
          keptCalls r caller typeNames edges calls := by
  rw [keptCalls, keptCalls, List.map_cons, List.filter_cons]
  cases isLeftOut typeNames edges call.name (r.findDefinition? call.name caller.file) with
  | true => rfl
  | false => rfl

theorem staticCalls_yields {expand : Entity → Run CallTree} {tree : Entity → CallTree}
    (hexpand : ∀ d, Yields known (expand d) (tree d)) (caller : Entity) (depth : Nat)
    (typeNames : List String) (edges : List Edge) (calls : List Call) :
    Yields known (staticCalls expand caller depth typeNames edges calls)
      ((keptCalls known.repository caller typeNames edges calls).map
        (staticCallOf tree depth)) := by
  induction calls with
  | nil => exact Run.yields_pure []
  | cons call calls ih =>
    rw [staticCalls, keptCalls_cons, isLeftOut]
    refine Run.yields_session_bind ?_
    rintro s rfl
    rw [Session.known_repository] at ih ⊢
    dsimp only
    split_ifs
    · exact ih
    · rcases s.repository.findDefinition? call.name caller.file with _ | d
      · exact (Run.yields_pure _).bind (ih.bind (Run.yields_pure _))
      · exact (hexpand d).bind (ih.bind (Run.yields_pure _))

theorem interfaceCalls_yields
    (h : options.bindInterfaces = true → env.fetchRemote = false) (caller : Entity) (depth : Nat)
    (edges : List Edge) :
    Yields known (interfaceCalls env options caller depth edges)
      (interfaceNodes known options depth edges) := by
  rw [interfaceNodes]
  cases edges with
  | nil =>
    rw [List.map_nil, ite_self]
    exact Run.yields_pure []
  | cons e es =>
    unfold interfaceCalls
    dsimp only
    split_ifs with hbind
    · have hbound : Yields known _ _ := Interface.bindEdges_yields (h hbind) (e :: es)
      exact hbound.bind ((Run.yields_pure _).bind ((Run.yields_log _).bind (Run.yields_pure _)))
    · exact (Run.yields_pure _).bind ((Run.yields_log _).bind (Run.yields_pure _))

theorem edges_yields {α : Type} (left : Nat) (e : Entity) {f : List Edge → Run α} {a : α}
    (h : Yields known (f (edgesOf options left known.repository e)) a) :
    Yields known (if left = 0 then pure [] >>= f else detectEdges options e >>= f : Run α) a := by
  rintro p rfl
  obtain ⟨log, hedges⟩ := edges_run options left e p
  rw [edges_bind f hedges]
  exact h ⟨p.session, log⟩ rfl

/-- Without fetching, an expansion comes to the tree that goes with what is known. -/
theorem expand_yields (h : options.bindInterfaces = true → env.fetchRemote = false)
    (left depth : Nat) (path : List String) (e : Entity) :
    Yields known (expand env options left depth path e)
      (treeIn known options left depth path e) := by
  induction left generalizing depth path e with
  | zero => exact Run.yields_pure _
  | succ left ih =>
    rw [expand, treeIn]
    cases path.contains e.identity with
    | true => exact Run.yields_pure _
    | false =>
      rw [if_neg Bool.false_ne_true, if_neg Bool.false_ne_true]
      refine edges_yields left e (Run.yields_session_bind ?_)
      rintro s rfl
      exact (staticCalls_yields (ih (depth + 1) (e.identity :: path)) e (depth + 1) _ _ _).bind
        ((interfaceCalls_yields h e (depth + 1) _).bind (Run.yields_pure _))

end

/-! ### What the bound does to the tree -/

section

variable {known : Known} {options : Options} {left left' depth : Nat} {path : List String}
  {e : Entity} {bound : Int}

theorem root_treeIn (known : Known) (options : Options) (left depth : Nat) (path : List String)
    (e : Entity) : (treeIn known options left depth path e).root = leafOf e depth := by
  cases left with
  | zero => rw [treeIn, CallTree.root]
  | succ left =>
    rw [treeIn]
    split_ifs
    · rw [CallTree.root]
    · rw [CallTree.root]

theorem depth_treeIn : (treeIn known options left depth path e).root.depth = depth := by
  rw [root_treeIn]
  rfl

theorem depth_staticCallOf {tree : Entity → CallTree} (htree : ∀ d, (tree d).root.depth = depth)
    (c : Call × Option Entity) : (staticCallOf tree depth c).tree.root.depth = depth := by
  obtain ⟨call, _ | d⟩ := c
  · rfl
  · exact htree d

theorem depth_of_mem_interfaceNodes {edges : List Edge} {t : CallTree}
    (h : t ∈ interfaceNodes known options depth edges) : t.root.depth = depth := by
  obtain ⟨edge, -, rfl⟩ := List.mem_map.mp h
  rfl

theorem depth_of_mem_children {t : CallTree}
    (h : t ∈ (treeIn known options left depth path e).children) : t.root.depth = depth + 1 := by
  cases left with
  | zero => cases h
  | succ left =>
    rw [treeIn] at h
    split_ifs at h
    · cases h
    · rcases List.mem_append.mp h with h | h
      · obtain ⟨c, hc, rfl⟩ := List.mem_map.mp h
        obtain ⟨c, -, rfl⟩ := List.mem_map.mp hc
        exact depth_staticCallOf (fun _ => depth_treeIn) c
      · exact depth_of_mem_interfaceNodes h

/-- Cut at its root's depth or above, a tree is its root alone. -/
theorem cut_treeIn_of_le (h : bound ≤ depth) :
    (treeIn known options left depth path e).cut bound = .node (leafOf e depth) [] := by
  have hroot := root_treeIn known options left depth path e
  have hchildren : cutAll bound (treeIn known options left depth path e).children = [] := by
    refine cutAll_eq_nil ?_
    intro t ht
    rw [depth_of_mem_children ht]
    omega
  generalize treeIn known options left depth path e = t at hroot hchildren ⊢
  cases t with
  | node root children =>
    rw [cut, ← hroot]
    exact congrArg (node root) hchildren

/-- Which edges remain depends on the calls that are kept, not on their trees. -/
theorem remainingEdges_map_staticCallOf (edges : List Edge) (tree tree' : Entity → CallTree)
    (depth : Nat) (calls : List (Call × Option Entity)) :
    remainingEdges edges (calls.map (staticCallOf tree depth)) =
      remainingEdges edges (calls.map (staticCallOf tree' depth)) := by
  simp only [remainingEdges, List.any_map, Function.comp_def, staticCallOf]

/-- More levels change nothing above the last level that there was before. -/
theorem cut_treeIn (hle : left ≤ left') (hbound : bound < depth + left) :
    (treeIn known options left depth path e).cut bound =
      (treeIn known options left' depth path e).cut bound := by
  induction left generalizing left' depth path e with
  | zero => rw [cut_treeIn_of_le (by omega), cut_treeIn_of_le (by omega)]
  | succ left ih =>
    by_cases hroot : bound ≤ depth
    · rw [cut_treeIn_of_le hroot, cut_treeIn_of_le hroot]
    · -- the bound lies below the root, so there is a level left in which edges are looked for
      obtain ⟨left, rfl⟩ : ∃ n, left = n + 1 := ⟨left - 1, by omega⟩
      obtain ⟨left', rfl⟩ : ∃ n, left' = n + 2 := ⟨left' - 2, by omega⟩
      have hedges : ∀ r, edgesOf options (left + 1) r e = edgesOf options (left' + 1) r e :=
        fun _ => rfl
      have htrees : ∀ d, (treeIn known options (left + 1) (depth + 1) (e.identity :: path) d).cut
          bound = (treeIn known options (left' + 1) (depth + 1) (e.identity :: path) d).cut
            bound := by
        intro d
        exact ih (by omega) (by omega)
      rw [treeIn, treeIn]
      split_ifs
      · rfl
      · dsimp only
        rw [cut, cut, cutAll_append, cutAll_append, hedges,
          remainingEdges_map_staticCallOf _ _
            (treeIn known options (left' + 1) (depth + 1) (e.identity :: path)),
          List.map_map, List.map_map, cutAll_map_congr]
        rintro ⟨call, _ | d⟩
        · rfl
        · exact htrees d

theorem definition_of_mem_keptCalls {r : Repository} {caller : Entity} {typeNames : List String}
    {edges : List Edge} {calls : List Call} {c : Call × Option Entity}
    (h : c ∈ keptCalls r caller typeNames edges calls) :
    c.2 = r.findDefinition? c.1.name caller.file := by
  obtain ⟨call, -, rfl⟩ := List.mem_map.mp (List.mem_of_mem_filter h)
  rfl

theorem edgesOf_eq_nil (he : e.source.getD "" = "") (r : Repository) :
    edgesOf options left r e = [] := by
  rw [edgesOf]
  rcases hsource : e.source with _ | text
  · exact ite_self _
  · rw [hsource, Option.getD_some] at he
    dsimp only
    rw [if_pos he, ite_self]

/-- Where there is no text to look at, the bound does nothing but cut. -/
theorem treeIn_eq_cut (hle : left ≤ left') (he : e.source.getD "" = "")
    (hr : ∀ d ∈ known.repository.entities, d.source.getD "" = "") :
    treeIn known options left depth path e =
      (treeIn known options left' depth path e).cut (depth + left) := by
  induction left generalizing left' depth path e with
  | zero =>
    rw [cut_treeIn_of_le (by omega), treeIn]
  | succ left ih =>
    obtain ⟨left', rfl⟩ : ∃ n, left' = n + 1 := ⟨left' - 1, by omega⟩
    have hdepth : (depth : Int) + (left + 1 : Nat) = (depth + 1 : Nat) + left := by omega
    have hnodes : interfaceNodes known options (depth + 1) [] = [] := by
      rw [interfaceNodes, List.map_nil, ite_self, List.map_nil]
    rw [treeIn, treeIn, hdepth]
    split_ifs
    · rfl
    · dsimp only
      rw [edgesOf_eq_nil he, edgesOf_eq_nil he, remainingEdges, remainingEdges, List.filter_nil,
        List.filter_nil, hnodes, List.append_nil, List.append_nil, cut, cutAll_eq_map]
      · rw [List.map_map, List.map_map, List.map_map]
        congr 1
        refine List.map_congr_left ?_
        rintro ⟨call, _ | d⟩ hc
        · rfl
        · -- what a call means is one of the declarations, so it has no text either
          have hd := definition_of_mem_keptCalls hc
          exact ih (by omega) (hr d (Repository.mem_of_findDefinition? hd.symm))
      · intro t ht
        obtain ⟨c, hc, rfl⟩ := List.mem_map.mp ht
        obtain ⟨c, -, rfl⟩ := List.mem_map.mp hc
        rw [depth_staticCallOf fun _ => depth_treeIn]
        omega

end

/-! ### Trees that are built -/

/-- Without fetching, a tree with more levels is the same above the last level that there was
before; and where there is no text to look at, it is the same above the bound and on it. -/
theorem build_cut {env : Environment} {options : Options}
    (h : options.bindInterfaces = true → env.fetchRemote = false) (e : Entity) (p : Progress)
    {n m : Int} (hnm : n ≤ m) :
    ∃ t q u r, build env options e n p = (some t, q) ∧ build env options e m p = (some u, r) ∧
      (1 ≤ n → t.cut (n - 1) = u.cut (n - 1)) ∧
      (0 ≤ n → e.source.getD "" = "" →
        (∀ d ∈ p.session.repository.entities, d.source.getD "" = "") → t = u.cut n) := by
  obtain ⟨q, hq, -⟩ := expand_yields h n.toNat 0 [] e p rfl
  obtain ⟨r, hr, -⟩ := expand_yields h m.toNat 0 [] e p rfl
  refine ⟨_, q, _, r, hq, hr, ?_, ?_⟩
  · intro hn
    exact cut_treeIn (by omega) (by omega)
  · intro hn he hsource
    have hcut : treeIn p.session.known options n.toNat 0 [] e =
        (treeIn p.session.known options m.toNat 0 [] e).cut ((0 : Nat) + n.toNat) :=
      treeIn_eq_cut (by omega) he hsource
    rwa [Int.natCast_zero, Int.zero_add, Int.toNat_of_nonneg hn] at hcut

/-- A function that calls a member of an interface on a cast. -/
def sweep : Entity :=
  { name := "sweep", signature := "sweep()", file := "Keeper.sol"
    calls := [{ name := "IVault", arguments := 1 }, { name := "total" }]
    source := some "IVault(v).total();" }

/-- A function that calls the one with the call through an interface. -/
def keep : Entity :=
  { name := "keep", signature := "keep()", file := "Keeper.sol", calls := [{ name := "sweep" }] }

/-- With two levels, the cast and the member are shown as written; with three, the call through the
interface is.  Above that the trees are the same.  Two functions without text that call each other
are cut at the bound. -/
theorem build_cut_keep :
    let offline : Environment := { Environment.barren with fetchRemote := false }
    let p : Progress :=
      { session := { repository := ⟨keep :: sweep :: Interface.bank.session.repository.entities⟩ } }
    let p' : Progress := { session := { repository := ⟨[ping, pong]⟩ } }
    (∃ t u, (build offline {} keep 2 p).1 = some t ∧ (build offline {} keep 3 p).1 = some u ∧
      t.nodes.map (·.name) = ["keep", "sweep", "IVault", "total"] ∧
      u.nodes.map (·.name) = ["keep", "sweep", "IVault.total"] ∧ t.cut 1 = u.cut 1) ∧
    ∃ t u, (build offline {} ping 1 p').1 = some t ∧ (build offline {} ping 9 p').1 = some u ∧
      u.nodes.length = 4 ∧ t = u.cut 1 := by
  intro offline p p'
  have hoffline : ({} : Options).bindInterfaces = true → offline.fetchRemote = false := fun _ => rfl
  constructor
  · obtain ⟨t, q, u, r, ht, hu, hcut, -⟩ :=
      build_cut hoffline keep p (show (2 : Int) ≤ 3 by decide)
    have hnames : (build offline {} keep 2 p).1.map (fun t => t.nodes.map (·.name)) =
        some ["keep", "sweep", "IVault", "total"] := by
      decide +kernel
    have hnames' : (build offline {} keep 3 p).1.map (fun t => t.nodes.map (·.name)) =
        some ["keep", "sweep", "IVault.total"] := by
      decide +kernel
    -- the trees that were compared are those whose names were computed
    rw [ht] at hnames
    rw [hu] at hnames'
    exact ⟨t, u, by rw [ht], by rw [hu], Option.some.inj hnames, Option.some.inj hnames',
      hcut (by decide)⟩
  · obtain ⟨t, q, u, r, ht, hu, -, hcut⟩ :=
      build_cut hoffline ping p' (show (1 : Int) ≤ 9 by decide)
    have hlength : (build offline {} ping 9 p').1.map (fun t => t.nodes.length) = some 4 := by
      decide +kernel
    rw [hu] at hlength
    exact ⟨t, u, by rw [ht], by rw [hu], Option.some.inj hlength,
      hcut (by decide) rfl (by decide)⟩

end CallAtlas.CallTree

import CallAtlas.Proofs.CallTree.Closed

/-!
# One expansion, call by call

An expanded declaration has a child for each call as written that is kept, and a child for each
edge that remains.  `Visit` says what can become of one call as written, `Visits` of all calls in
turn, and `expand_apart` and `expand_eq_some` take an expansion apart into these two groups of
children.
-/

namespace CallAtlas

open Interface (Edge)

theorem Repository.mem_of_mem_definitionsOf {r : Repository} {name : String} {e : Entity}
    (h : e ∈ r.definitionsOf name) : e ∈ r.entities := by
  rw [definitionsOf] at h
  cases hnone : ((r.ofKind [.function, .event]).filter fun e => e.name == name).isEmpty with
  | true =>
    rw [hnone, if_pos rfl] at h
    exact List.mem_of_mem_filter (List.mem_of_mem_filter h)
  | false =>
    rw [hnone, if_neg Bool.false_ne_true] at h
    exact List.mem_of_mem_filter (List.mem_of_mem_filter h)

theorem Repository.mem_of_findDefinition? {r : Repository} {name file : String} {d : Entity}
    (h : r.findDefinition? name file = some d) : d ∈ r.entities := by
  rw [findDefinition?, Option.or_eq_some_iff] at h
  rcases h with h | ⟨-, h⟩
  · exact mem_of_mem_definitionsOf (List.mem_of_find?_eq_some h)
  · exact mem_of_mem_definitionsOf (List.mem_of_mem_head? h)

namespace CallTree

/-! ### Calls as written -/

/-- A call as written when it is met: what it means then, and the tree that is kept for it. -/
structure Site where
  call : Call
  definition : Option Entity
  tree : Option CallTree

/-- The call with its tree, if one is kept. -/
def Site.kept? (site : Site) : Option StaticCall :=
  site.tree.map fun t => ⟨site.call.name, site.definition, t⟩

theorem map_tree_kept? (sites : List Site) :
    (sites.filterMap Site.kept?).map (·.tree) = sites.filterMap (·.tree) := by
  rw [List.map_filterMap]
  congr 1
  funext site
  rw [Site.kept?, Option.map_map]
  exact Option.map_id'

section

variable (expand : Entity → Run CallTree) (caller : Entity) (depth : Nat)
  (typeNames : List String) (edges : List Edge)

/-- Whether a call as written gets no child of its own, given what it means: it converts to a type,
or its name is no edge's and an edge stands for it. -/
def isLeftOut (name : String) (definition : Option Entity) : Bool :=
  isTypeConversion name typeNames ||
    (!(edges.any fun e => e.callee == name) && isRoutedThrough name definition edges)

/-- What becomes of a call that is met at `p`: nothing is kept of it, or a definition is expanded
for it, or it stays a leaf because nothing is known of what it means. -/
inductive Visit (p : Progress) : Site → Progress → Prop
  | leftOut {call : Call} (h : isLeftOut typeNames edges call.name
        (p.session.repository.findDefinition? call.name caller.file) = true) :
      Visit p ⟨call, p.session.repository.findDefinition? call.name caller.file, none⟩ p
  | followed {call : Call} {d : Entity} {t : CallTree} {q : Progress}
      (h : isLeftOut typeNames edges call.name (some d) = false)
      (hd : p.session.repository.findDefinition? call.name caller.file = some d)
      (ht : expand d p = (some t, q)) :
      Visit p ⟨call, some d, some t⟩ q
  | unknown {call : Call} (h : isLeftOut typeNames edges call.name none = false)
      (hd : p.session.repository.findDefinition? call.name caller.file = none) :
      Visit p ⟨call, none, some (.node (externalLeaf call depth) [])⟩ p

/-- What becomes of calls that are met in turn, from `p` on. -/
inductive Visits : Progress → List Site → Progress → Prop
  | nil {p : Progress} : Visits p [] p
  | cons {p r q : Progress} {site : Site} {sites : List Site}
      (hsite : Visit expand caller depth typeNames edges p site r) (hsites : Visits r sites q) :
      Visits p (site :: sites) q

variable {expand caller depth typeNames edges}

theorem staticCalls_eq_some {calls : List Call} {p q : Progress} {statics : List StaticCall}
    (h : staticCalls expand caller depth typeNames edges calls p = (some statics, q)) :
    ∃ sites, Visits expand caller depth typeNames edges p sites q ∧
      sites.map (·.call) = calls ∧ statics = sites.filterMap Site.kept? := by
  induction calls generalizing p statics with
  | nil =>
    cases h
    exact ⟨[], .nil, rfl, rfl⟩
  | cons call calls ih =>
    rw [staticCalls, Run.session_bind] at h
    dsimp only at h
    split_ifs at h with hout
    · obtain ⟨sites, hvisits, rfl, rfl⟩ := ih h
      exact ⟨_ :: sites, .cons (.leftOut hout) hvisits, rfl, rfl⟩
    · have hout := Bool.eq_false_iff.mpr hout
      -- a call that is kept stays a leaf or is expanded, by what it means now
      rcases hd : p.session.repository.findDefinition? call.name caller.file with _ | d
      · rw [hd] at h hout
        simp only [Run.bind_eq_some, Run.pure_apply] at h
        obtain ⟨t, r, ht, others, q', hothers, heq⟩ := h
        cases ht
        cases heq
        obtain ⟨sites, hvisits, rfl, rfl⟩ := ih hothers
        exact ⟨_ :: sites, .cons (.unknown hout hd) hvisits, rfl, rfl⟩
      · rw [hd] at h hout
        simp only [Run.bind_eq_some, Run.pure_apply] at h
        obtain ⟨t, r, ht, others, q', hothers, heq⟩ := h
        cases heq
        obtain ⟨sites, hvisits, rfl, rfl⟩ := ih hothers
        exact ⟨_ :: sites, .cons (.followed hout hd ht) hvisits, rfl, rfl⟩

theorem staticCalls_of_visits {p q : Progress} {sites : List Site}
    (h : Visits expand caller depth typeNames edges p sites q) :
    staticCalls expand caller depth typeNames edges (sites.map (·.call)) p =
      (some (sites.filterMap Site.kept?), q) := by
  induction h with
  | nil => rfl
  | cons hsite _ ih =>
    rw [List.map_cons, staticCalls, Run.session_bind]
    dsimp only
    cases hsite with
    | leftOut hout =>
      rw [isLeftOut] at hout
      rw [if_pos hout]
      exact ih
    | followed hout hd ht =>
      -- the test of the run is on what the call means where it is met
      rw [isLeftOut, ← hd, Bool.eq_false_iff] at hout
      rw [if_neg hout, hd]
      dsimp only
      rw [Run.bind_of_some ht, Run.bind_of_some ih]
      rfl
    | unknown hout hd =>
      rw [isLeftOut, ← hd, Bool.eq_false_iff] at hout
      rw [if_neg hout, hd]
      dsimp only
      rw [Run.bind_of_some (Run.pure_apply _ _), Run.bind_of_some ih]
      rfl

/-- The calls before a call, the call itself, and those after it. -/
theorem Visits.split {p q : Progress} {before after : List Site} {site : Site}
    (h : Visits expand caller depth typeNames edges p (before ++ site :: after) q) :
    ∃ r r', Visits expand caller depth typeNames edges p before r ∧
      Visit expand caller depth typeNames edges r site r' ∧
      Visits expand caller depth typeNames edges r' after q := by
  induction before generalizing p with
  | nil =>
    cases h with
    | cons hsite hafter => exact ⟨p, _, .nil, hsite, hafter⟩
  | cons first before ih =>
    cases h with
    | cons hfirst hrest =>
      obtain ⟨r, r', hbefore, hsite, hafter⟩ := ih hrest
      exact ⟨r, r', .cons hfirst hbefore, hsite, hafter⟩

section

variable {R : Session → Session → Prop} [IsPreorder Session R]

theorem Visit.respects {p q : Progress} {site : Site}
    (h : Visit expand caller depth typeNames edges p site q)
    (hexpand : ∀ d, Run.Respects R (expand d)) : R p.session q.session := by
  cases h with
  | leftOut => exact refl p.session
  | @followed _ d _ _ _ _ ht =>
    have hrel := hexpand d p
    rwa [ht] at hrel
  | unknown => exact refl p.session

theorem Visits.respects {p q : Progress} {sites : List Site}
    (h : Visits expand caller depth typeNames edges p sites q)
    (hexpand : ∀ d, Run.Respects R (expand d)) : R p.session q.session := by
  induction h with
  | nil => exact refl _
  | cons hsite _ ih => exact IsTrans.trans _ _ _ (hsite.respects hexpand) ih

/-- Each call is met somewhere on the way. -/
theorem Visits.exists_visit {p q : Progress} {sites : List Site} {site : Site}
    (h : Visits expand caller depth typeNames edges p sites q)
    (hexpand : ∀ d, Run.Respects R (expand d)) (hs : site ∈ sites) :
    ∃ r r', Visit expand caller depth typeNames edges r site r' ∧
      R p.session r.session ∧ R r'.session q.session := by
  obtain ⟨before, after, rfl⟩ := List.append_of_mem hs
  obtain ⟨r, r', hbefore, hvisit, hafter⟩ := h.split
  exact ⟨r, r', hvisit, hbefore.respects hexpand, hafter.respects hexpand⟩

end

theorem Visit.grows {p q : Progress} {site : Site}
    (h : Visit expand caller depth typeNames edges p site q)
    (hexpand : ∀ d, Run.Respects Session.Grows (expand d)) : p.session.Grows q.session :=
  h.respects hexpand

end

/-! ### Calls through interfaces -/

/-- Binding edges changes nothing but their bindings. -/
theorem interfaceCalls_eq_some {env : Environment} {options : Options} {caller : Entity}
    {depth : Nat} {edges : List Edge} {p q : Progress} {trees : List CallTree}
    (h : interfaceCalls env options caller depth edges p = (some trees, q)) :
    ∃ bind : Edge → Option Binding,
      trees = edges.map fun e => .node (interfaceLeaf { e with binding := bind e } depth) [] := by
  cases edges with
  | nil =>
    cases h
    exact ⟨Edge.binding, rfl⟩
  | cons e es =>
    unfold interfaceCalls at h
    dsimp only at h
    split_ifs at h
    · simp only [Run.bind_eq_some] at h
      obtain ⟨⟨resolved, bound⟩, r, hbind, h⟩ := h
      simp only [Run.pure_apply, Run.log_apply] at h
      obtain ⟨_, _, heq, _, _, heq', heq''⟩ := h
      cases heq
      cases heq'
      cases heq''
      -- the bound edges are the edges with what was found for their interfaces
      simp only [Interface.bindEdges, Run.bind_eq_some] at hbind
      obtain ⟨resolved', r', -, heq⟩ := hbind
      cases heq
      exact ⟨fun e => (resolved.get? e.interface).join, by rw [List.map_map]; rfl⟩
    · cases h
      exact ⟨Edge.binding, rfl⟩

/-! ### Expansions -/

/-- The edges in the text of `e` among the declarations `r`, unless only one level is left. -/
def edgesOf (options : Options) (left : Nat) (r : Repository) (e : Entity) : List Edge :=
  if left = 0 then []
  else
    match e.source with
    | none => []
    | some text =>
      if text = "" then [] else Interface.detect options.patterns text r.entities e.identity

/-- The names that count as types when a function with the given edges is expanded. -/
def typeNamesOf (r : Repository) (edges : List Edge) : List String :=
  r.contractNames ++ (edges.filter fun edge => castPatterns.contains edge.pattern).map (·.interface)

theorem edges_run (options : Options) (left : Nat) (e : Entity) (p : Progress) :
    ∃ log, (if left = 0 then pure [] else detectEdges options e : Run (List Edge)) p =
      (some (edgesOf options left p.session.repository e), ⟨p.session, log⟩) := by
  rw [edgesOf]
  split_ifs
  · exact ⟨_, rfl⟩
  · rw [detectEdges]
    rcases e.source with _ | text
    · exact ⟨_, rfl⟩
    · dsimp only
      split_ifs
      · exact ⟨_, rfl⟩
      · exact ⟨_, rfl⟩

theorem edges_bind {α : Type} {options : Options} {left : Nat} {e : Entity} {edges : List Edge}
    {p q : Progress} (f : List Edge → Run α)
    (h : (if left = 0 then pure [] else detectEdges options e : Run (List Edge)) p =
      (some edges, q)) :
    (if left = 0 then pure [] >>= f else detectEdges options e >>= f : Run α) p = f edges q := by
  refine Eq.trans ?_ (Run.bind_of_some h)
  split_ifs <;> rfl

/-- An expansion taken apart: edges are found, calls as written are met in turn, then the edges that
remain are turned into nodes. -/
theorem expand_apart {env : Environment} {options : Options} {left depth : Nat}
    {path : List String} {e : Entity} {p q : Progress} {t : CallTree}
    (hpath : e.identity ∉ path) (h : expand env options (left + 1) depth path e p = (some t, q)) :
    let edges := edgesOf options left p.session.repository e
    ∃ log sites r interfaces,
      (if left = 0 then pure [] else detectEdges options e : Run (List Edge)) p =
        (some edges, ⟨p.session, log⟩) ∧
      Visits (expand env options left (depth + 1) (e.identity :: path)) e (depth + 1)
        (typeNamesOf p.session.repository edges) edges ⟨p.session, log⟩ sites r ∧
      sites.map (·.call) = e.calls ∧
      interfaceCalls env options e (depth + 1)
        (remainingEdges edges (sites.filterMap Site.kept?)) r = (some interfaces, q) ∧
      t = .node (leafOf e depth) (sites.filterMap (·.tree) ++ interfaces) := by
  intro edges
  have hcontains : path.contains e.identity = false := by simpa using hpath
  rw [expand, hcontains, if_neg Bool.false_ne_true] at h
  obtain ⟨log, hedges⟩ := edges_run options left e p
  -- finding edges leaves the session as it is
  replace h := (edges_bind _ hedges).symm.trans h
  simp only [Run.session_bind, Run.bind_eq_some] at h
  obtain ⟨statics, r, hstatics, interfaces, q', hinterfaces, heq⟩ := h
  cases heq
  obtain ⟨sites, hvisits, hcalls, rfl⟩ := staticCalls_eq_some hstatics
  refine ⟨log, sites, r, interfaces, hedges, hvisits, hcalls, hinterfaces, ?_⟩
  rw [map_tree_kept?]

/-- The children are those of the calls as written that are kept, then those of the edges that
remain. -/
theorem expand_eq_some {env : Environment} {options : Options} {left depth : Nat}
    {path : List String} {e : Entity} {p q : Progress} {t : CallTree}
    (hpath : e.identity ∉ path) (h : expand env options (left + 1) depth path e p = (some t, q)) :
    let edges := edgesOf options left p.session.repository e
    ∃ log sites r, ∃ bind : Edge → Option Binding,
      Visits (expand env options left (depth + 1) (e.identity :: path)) e (depth + 1)
        (typeNamesOf p.session.repository edges) edges ⟨p.session, log⟩ sites r ∧
      sites.map (·.call) = e.calls ∧ r.session.Grows q.session ∧
      t = .node (leafOf e depth) (sites.filterMap (·.tree) ++
        (remainingEdges edges (sites.filterMap Site.kept?)).map fun e =>
          .node (interfaceLeaf { e with binding := bind e } (depth + 1)) []) := by
  intro edges
  obtain ⟨log, sites, r, interfaces, -, hvisits, hcalls, hinterfaces, rfl⟩ := expand_apart hpath h
  obtain ⟨bind, rfl⟩ := interfaceCalls_eq_some hinterfaces
  have hgrows := (Run.closed_grows env).interfaceCalls options e (depth + 1)
    (remainingEdges edges (sites.filterMap Site.kept?)) r
  rw [hinterfaces] at hgrows
  exact ⟨log, sites, r, bind, hvisits, hcalls, hgrows, rfl⟩

end CallTree

end CallAtlas

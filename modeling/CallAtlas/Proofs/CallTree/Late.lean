import CallAtlas.Proofs.AppendOnly
import CallAtlas.Proofs.CallTree.Cut
import CallAtlas.Proofs.CallTree.Layout
import CallAtlas.Proofs.Interface.Lookups
import CallAtlas.Proofs.Preorder

/-!
# When calls are resolved

What a call means is looked up when the call is met, among the declarations that are there by then.
Calls met later may bring in implementation files, and with them a declaration that an earlier call
would mean; its leaf stays as it was.

* `Entity.AnswersTo name d`: a call of `name` can mean `d`; `findDefinition?_eq_none_iff`.
* `Meets`: where the run is when it meets the call that a place of the tree is made for.  There is
  one such moment at most for each place (`Meets.unique`).
* `exists_meets`: the call of each leaf that could not be followed is met, and nothing answers to it
  at that moment.
* `extract_unknown`: what answers to the call at the end was looked up after that moment.
-/

namespace CallAtlas

/-! ### What a call can mean -/

/-- Whether a call of `name` can mean `d`. -/
def Entity.AnswersTo (name : String) (d : Entity) : Prop :=
  (d.kind = .function ∨ d.kind = .event) ∧
    (d.name = name ∨ Text.startsWith d.signature (name ++ "(") = true)

namespace Repository

variable {r : Repository} {name file : String}

theorem definitionsOf_eq_nil_iff :
    r.definitionsOf name = [] ↔ ∀ d ∈ r.entities, ¬ d.AnswersTo name := by
  have hkind : ∀ d : Entity, d ∈ r.ofKind [.function, .event] ↔
      d ∈ r.entities ∧ (d.kind = .function ∨ d.kind = .event) := by
    intro d
    simp [ofKind]
  rw [definitionsOf]
  split_ifs with hnone
  · -- no declaration has the name, so those count whose signature starts with it
    rw [List.isEmpty_iff, List.filter_eq_nil_iff] at hnone
    rw [List.filter_eq_nil_iff]
    constructor
    · rintro h d hd ⟨hdkind, hname | hsignature⟩
      · exact hnone d ((hkind d).mpr ⟨hd, hdkind⟩) (beq_iff_eq.mpr hname)
      · exact h d ((hkind d).mpr ⟨hd, hdkind⟩) hsignature
    · intro h d hd hsignature
      obtain ⟨hd, hdkind⟩ := (hkind d).mp hd
      exact h d hd ⟨hdkind, .inr hsignature⟩
  · rw [List.isEmpty_iff] at hnone
    refine iff_of_false hnone fun h => ?_
    obtain ⟨d, hd⟩ := List.exists_mem_of_ne_nil _ hnone
    obtain ⟨hd, hname⟩ := List.mem_filter.mp hd
    obtain ⟨hd, hdkind⟩ := (hkind d).mp hd
    exact h d hd ⟨hdkind, .inl (beq_iff_eq.mp hname)⟩

/-- A call means nothing iff nothing answers to its name, whatever the file it is made in. -/
theorem findDefinition?_eq_none_iff :
    r.findDefinition? name file = none ↔ ∀ d ∈ r.entities, ¬ d.AnswersTo name := by
  rw [← definitionsOf_eq_nil_iff, findDefinition?, Option.or_eq_none_iff, List.head?_eq_none_iff]
  refine ⟨And.right, fun h => ⟨?_, h⟩⟩
  rw [h, List.find?_nil]

end Repository

/-! ### The moment of a call -/

namespace CallTree

open Interface (Edge)

section

variable (env : Environment) (options : Options)

/-- Where the run is when the expansion of `e` from `p` comes to a call as written that is kept as
child number `k`: the edges of `e` are found by then, and the calls before it are done. -/
inductive ComesTo (left depth : Nat) (path : List String) (e : Entity) (p : Progress) (k : Nat) :
    Call → Progress → Prop
  | mk {edges : List Edge} {p' r : Progress} {before after : List Call} {call : Call}
      {statics : List StaticCall} (hpath : e.identity ∉ path)
      (hedges : (if left = 0 then pure [] else detectEdges options e : Run (List Edge)) p =
        (some edges, p'))
      (hcalls : e.calls = before ++ call :: after)
      (hbefore : staticCalls (expand env options left (depth + 1) (e.identity :: path)) e
        (depth + 1) (typeNamesOf p'.session.repository edges) edges before p' = (some statics, r))
      (hkept : isLeftOut (typeNamesOf p'.session.repository edges) edges call.name
        (r.session.repository.findDefinition? call.name e.file) = false)
      (hk : statics.length = k) :
      ComesTo left depth path e p k call r

/-- Where the run of an expansion is when it meets the call that child number `k` of the node at
`address` is made for.  Calls on the way down are followed from where the run comes to them. -/
inductive Meets : (left depth : Nat) → (path : List String) → Entity → Progress →
    (address : List Nat) → (k : Nat) → (caller : Entity) → Call → Progress → Prop
  | here {left depth k : Nat} {path : List String} {e : Entity} {p r : Progress} {call : Call}
      (h : ComesTo env options left depth path e p k call r) :
      Meets (left + 1) depth path e p [] k e call r
  | deeper {left depth i k : Nat} {path : List String} {address : List Nat}
      {e d caller : Entity} {p r s : Progress} {followed call : Call}
      (h : ComesTo env options left depth path e p i followed r)
      (hd : r.session.repository.findDefinition? followed.name e.file = some d)
      (hbelow : Meets left (depth + 1) (e.identity :: path) d r address k caller call s) :
      Meets (left + 1) depth path e p (i :: address) k caller call s

end

section

variable {expand : Entity → Run CallTree} {caller : Entity} {depth : Nat}
  {typeNames : List String} {edges : List Edge} {p q r : Progress}

theorem Visit.isLeftOut_eq {site : Site}
    (h : Visit expand caller depth typeNames edges p site q) :
    isLeftOut typeNames edges site.call.name
      (p.session.repository.findDefinition? site.call.name caller.file) = site.tree.isNone := by
  cases h with
  | leftOut hout => exact hout
  | followed hout hd =>
    rw [hd]
    exact hout
  | unknown hout hd =>
    rw [hd]
    exact hout

/-- More is kept once a call is done that is not left out. -/
theorem length_lt_of_staticCalls {before after : List Call} {call : Call}
    {statics all : List StaticCall}
    (h : staticCalls expand caller depth typeNames edges before p = (some statics, r))
    (hkept : isLeftOut typeNames edges call.name
      (r.session.repository.findDefinition? call.name caller.file) = false)
    (hall : staticCalls expand caller depth typeNames edges (before ++ call :: after) p =
      (some all, q)) : statics.length < all.length := by
  obtain ⟨sites, hvisits, hcalls, rfl⟩ := staticCalls_eq_some hall
  obtain ⟨first, rest, rfl, rfl, hrest⟩ := List.map_eq_append_iff.mp hcalls
  obtain ⟨site, last, rfl, rfl, rfl⟩ := List.map_eq_cons_iff.mp hrest
  obtain ⟨r', _, hfirst, hvisit, -⟩ := hvisits.split
  -- both runs are at the same place when they come to the call
  cases h.symm.trans (staticCalls_of_visits hfirst)
  rw [hvisit.isLeftOut_eq, Option.isNone_eq_false_iff] at hkept
  obtain ⟨t, ht⟩ := Option.isSome_iff_exists.mp hkept
  have hsite : site.kept? = some ⟨site.call.name, site.definition, t⟩ := by
    rw [Site.kept?, ht]
    rfl
  rw [List.filterMap_append, List.filterMap_cons_some hsite, List.length_append, List.length_cons]
  omega

theorem eq_nil_of_staticCalls {before between after rest : List Call} {call : Call}
    {statics statics' : List StaticCall}
    (h : staticCalls expand caller depth typeNames edges before p = (some statics, r))
    (hkept : isLeftOut typeNames edges call.name
      (r.session.repository.findDefinition? call.name caller.file) = false)
    (hrest : call :: after = between ++ rest)
    (h' : staticCalls expand caller depth typeNames edges (before ++ between) p =
      (some statics', q)) (hlength : statics'.length = statics.length) : between = [] := by
  cases between with
  | nil => rfl
  | cons first between =>
    cases hrest
    have hlt := length_lt_of_staticCalls h hkept h'
    omega

theorem Visit.external {site : Site} {c : CallTree}
    (h : Visit expand caller depth typeNames edges p site q)
    (hroot : ∀ d p t q, expand d p = (some t, q) → t.root = leafOf d depth)
    (hc : site.tree = some c) (hkind : c.root.kind = .external) :
    c = .node (externalLeaf site.call depth) [] ∧
      p.session.repository.findDefinition? site.call.name caller.file = none := by
  cases h with
  | leftOut => cases hc
  | followed _ _ ht =>
    cases hc
    rw [hroot _ _ _ _ ht] at hkind
    cases hkind
  | unknown _ hd =>
    cases hc
    exact ⟨rfl, hd⟩

end

variable {env : Environment} {options : Options} {left depth k : Nat} {path : List String}
  {address : List Nat} {e caller : Entity} {call : Call} {p q r : Progress} {t u c : CallTree}

theorem ComesTo.mem (h : ComesTo env options left depth path e p k call r) : call ∈ e.calls := by
  cases h with
  | mk _ _ hcalls =>
    rw [hcalls]
    exact List.mem_append_right _ List.mem_cons_self

/-- The run comes to one call only for each child. -/
theorem ComesTo.unique {call' : Call} {r' : Progress}
    (h : ComesTo env options left depth path e p k call r)
    (h' : ComesTo env options left depth path e p k call' r') : call' = call ∧ r' = r := by
  obtain ⟨-, hedges, hcalls, hbefore, hkept, hk⟩ := h
  obtain ⟨-, hedges', hcalls', hbefore', hkept', hk'⟩ := h'
  cases hedges.symm.trans hedges'
  -- of two different calls, the later one would be a later child
  rcases List.append_eq_append_iff.mp (hcalls.symm.trans hcalls') with
    ⟨between, rfl, hrest⟩ | ⟨between, rfl, hrest⟩
  · obtain rfl := eq_nil_of_staticCalls hbefore hkept hrest hbefore' (hk'.trans hk.symm)
    cases hrest
    rw [List.append_nil] at hbefore'
    cases hbefore.symm.trans hbefore'
    exact ⟨rfl, rfl⟩
  · obtain rfl := eq_nil_of_staticCalls hbefore' hkept' hrest hbefore (hk.trans hk'.symm)
    cases hrest
    rw [List.append_nil] at hbefore
    cases hbefore.symm.trans hbefore'
    exact ⟨rfl, rfl⟩

/-- The run meets one call only for each place of the tree, and is at one place then. -/
theorem Meets.unique {caller' : Entity} {call' : Call} {r' : Progress}
    (h : Meets env options left depth path e p address k caller call r)
    (h' : Meets env options left depth path e p address k caller' call' r') :
    caller' = caller ∧ call' = call ∧ r' = r := by
  induction h with
  | here hcomes =>
    cases h' with
    | here hcomes' => exact ⟨rfl, hcomes.unique hcomes'⟩
  | deeper hcomes hd _ ih =>
    cases h' with
    | deeper hcomes' hd' hbelow' =>
      obtain ⟨rfl, rfl⟩ := hcomes.unique hcomes'
      cases hd.symm.trans hd'
      exact ih hbelow'

/-- Whether `c`, below the node `u`, is the leaf of a call that nothing answers to in the session
`s`; the node is that of the caller, met at `depth`. -/
structure UnknownAt (s : Session) (depth : Nat) (u c : CallTree) (caller : Entity) (call : Call) :
    Prop where
  root_eq : u.root = leafOf caller depth
  eq_leaf : c = .node (externalLeaf call (depth + 1)) []
  call_mem : call ∈ caller.calls
  unknown : s.repository.findDefinition? call.name caller.file = none

theorem not_child_of_leaf {n : CallNode}
    (hu : Preorder.descend CallTree.children address (.node n []) = some u) :
    u.children[k]? ≠ some c := by
  cases address with
  | nil =>
    cases hu
    exact nofun
  | cons => cases hu

theorem exists_of_getElem?_filterMap {α β : Type} {f : α → Option β} {l : List α} {b : β}
    (h : (l.filterMap f)[k]? = some b) :
    ∃ before a after, l = before ++ a :: after ∧ f a = some b ∧
      (before.filterMap f).length = k := by
  obtain ⟨hk, hb⟩ := List.getElem?_eq_some_iff.mp h
  have hsplit : l.filterMap f = (l.filterMap f).take k ++ b :: (l.filterMap f).drop (k + 1) := by
    rw [← hb, List.getElem_cons_drop, List.take_append_drop]
  obtain ⟨front, rest, rfl, hfront, hrest⟩ := List.filterMap_eq_append_iff.mp hsplit
  obtain ⟨skipped, a, after, rfl, hskipped, ha, -⟩ := List.filterMap_eq_cons_iff.mp hrest
  refine ⟨front ++ skipped, a, after, (List.append_assoc _ _ _).symm, ha, ?_⟩
  rw [List.filterMap_append, hfront, List.filterMap_eq_nil_iff.mpr hskipped, List.append_nil,
    List.length_take, min_eq_left hk.le]

section

variable {R : Session → Session → Prop} [IsPreorder Session R]

/-- A child of an expanded declaration is a leaf for an edge, or it is made of a call that the run
comes to. -/
theorem child_of_expand (hR : Run.Composed env (Run.Respects R)) (hpath : e.identity ∉ path)
    (h : expand env options (left + 1) depth path e p = (some t, q))
    (hc : t.children[k]? = some c) :
    (∃ edge, c = .node (interfaceLeaf edge (depth + 1)) []) ∨
      ∃ typeNames edges site r r', ComesTo env options left depth path e p k site.call r ∧
        Visit (expand env options left (depth + 1) (e.identity :: path)) e (depth + 1) typeNames
          edges r site r' ∧
        site.tree = some c ∧ R p.session r.session ∧ R r'.session q.session := by
  obtain ⟨log, sites, last, interfaces, hedges, hvisits, hcalls, hinterfaces, rfl⟩ :=
    expand_apart hpath h
  have hexpand := hR.expand options left (depth + 1) (e.identity :: path)
  -- what is searched for behind the calls as written
  have hlast : R last.session q.session := by
    have hrel := hR.interfaceCalls options e (depth + 1) (remainingEdges
      (edgesOf options left p.session.repository e) (sites.filterMap Site.kept?)) last
    rwa [hinterfaces] at hrel
  obtain ⟨bind, rfl⟩ := interfaceCalls_eq_some hinterfaces
  change (sites.filterMap (·.tree) ++ _)[k]? = some c at hc
  rcases Nat.lt_or_ge k (sites.filterMap (·.tree)).length with hk | hk
  · rw [List.getElem?_append_left hk] at hc
    obtain ⟨before, site, after, rfl, htree, hlength⟩ := exists_of_getElem?_filterMap hc
    obtain ⟨r, r', hbefore, hvisit, hafter⟩ := hvisits.split
    rw [List.map_append, List.map_cons] at hcalls
    have hkept := hvisit.isLeftOut_eq
    rw [htree, Option.isNone_some] at hkept
    have hcomes : ComesTo env options left depth path e p k site.call r := by
      refine .mk hpath hedges hcalls.symm (staticCalls_of_visits hbefore) hkept ?_
      rw [← hlength, ← map_tree_kept?, List.length_map]
    refine .inr ⟨_, _, site, r, r', hcomes, hvisit, htree, hbefore.respects hexpand, ?_⟩
    exact IsTrans.trans _ _ _ (hafter.respects hexpand) hlast
  · rw [List.getElem?_append_right hk] at hc
    obtain ⟨edge, -, rfl⟩ := List.mem_map.mp (List.mem_of_getElem? hc)
    exact .inl ⟨_, rfl⟩

/-- The run meets the call of each leaf that could not be followed, and nothing answers to the call
where the run is then. -/
theorem exists_meets (hR : Run.Composed env (Run.Respects R))
    (h : expand env options left depth path e p = (some t, q))
    (hu : Preorder.descend CallTree.children address t = some u) (hc : u.children[k]? = some c)
    (hkind : c.root.kind = .external) :
    ∃ caller call r, Meets env options left depth path e p address k caller call r ∧
      UnknownAt r.session (depth + address.length) u c caller call ∧
      R p.session r.session ∧ R r.session q.session := by
  induction left generalizing depth path e p q t address with
  | zero =>
    cases h
    exact absurd hc (not_child_of_leaf hu)
  | succ left ih =>
    by_cases hpath : e.identity ∈ path
    · rw [expand, if_pos (List.contains_iff_mem.mpr hpath)] at h
      cases h
      exact absurd hc (not_child_of_leaf hu)
    · have hexpand := hR.expand options left (depth + 1) (e.identity :: path)
      cases address with
      | nil =>
        cases hu
        rcases child_of_expand hR hpath h hc with
          ⟨edge, rfl⟩ | ⟨_, _, site, r, r', hcomes, hvisit, htree, hbefore, hafter⟩
        · cases hkind
        · -- a leaf of this kind is made only where the call means nothing
          obtain ⟨rfl, hunknown⟩ := hvisit.external (fun _ _ _ _ => root_of_expand) htree hkind
          refine ⟨e, site.call, r, .here hcomes,
            ⟨root_of_expand h, rfl, hcomes.mem, hunknown⟩, hbefore, ?_⟩
          exact IsTrans.trans _ _ _ (hvisit.respects hexpand) hafter
      | cons i address =>
        rw [Preorder.descend] at hu
        obtain ⟨child, hchild, hu⟩ := Option.bind_eq_some_iff.mp hu
        rcases child_of_expand hR hpath h hchild with
          ⟨edge, rfl⟩ | ⟨_, _, site, r, r', hcomes, hvisit, htree, hbefore, hafter⟩
        · exact absurd hc (not_child_of_leaf hu)
        · cases hvisit with
          | leftOut => cases htree
          | followed _ hd ht =>
            -- the place is below a definition that is expanded from where the run is
            cases htree
            obtain ⟨caller, call, s, hmeets, hat, hs, hs'⟩ := ih ht hu
            rw [Nat.add_assoc, Nat.add_comm 1] at hat
            exact ⟨caller, call, s, .deeper hcomes hd hmeets, hat,
              IsTrans.trans _ _ _ hbefore hs, IsTrans.trans _ _ _ hs' hafter⟩
          | unknown =>
            cases htree
            exact absurd hc (not_child_of_leaf hu)

end

end CallTree

/-! ### Extractions -/

namespace Analysis

/-- An extraction taken apart: an analysis, then the building of a tree. -/
theorem extract_eq_ok {env : Environment} {request : Request} {p q : Progress}
    {x : Report.Extraction} (h : extract env request p = (some (.ok x), q)) :
    ∃ r log q', analyze env [request.url] request.importDepth p = (some (.ok ()), r) ∧
      CallTree.build env {} x.entity request.callDepth ⟨r.session, log⟩ = (some x.tree, q') ∧
      q.session = q'.session := by
  obtain ⟨r, log, q', hanalyze, -, hbuild, hsession, -⟩ := extract_apart h
  exact ⟨r, log, q', hanalyze, hbuild, hsession⟩

/-- **Calls are resolved when they are met.**  The call of a leaf that could not be followed is met
while the tree is built, and where the run is then nothing answers to the call; so nothing does in
what the analysis left.  The call still means nothing at the end iff none of the declarations that
were looked up after that moment answers to it.  Without fetching it always means nothing at the
end. -/
theorem extract_unknown {env : Environment} {request : Request} {p q : Progress}
    {x : Report.Extraction} (h : extract env request p = (some (.ok x), q))
    {address : List Nat} {k : Nat} {u c : CallTree}
    (hu : Preorder.descend CallTree.children address x.tree = some u)
    (hc : u.children[k]? = some c) (hkind : c.root.kind = .external) :
    let analyzed := (analyze env [request.url] request.importDepth p).2.session
    ∃ start q', start.session = analyzed ∧ q'.session = q.session ∧
      CallTree.build env {} x.entity request.callDepth start = (some x.tree, q') ∧
      (∃ caller call r, CallTree.Meets env {} request.callDepth.toNat 0 [] x.entity start address k
        caller call r) ∧
      ∀ caller call r, CallTree.Meets env {} request.callDepth.toNat 0 [] x.entity start address k
          caller call r →
        CallTree.UnknownAt r.session address.length u c caller call ∧
        analyzed.Grows r.session ∧ r.session.Grows q.session ∧
        analyzed.repository.findDefinition? call.name caller.file = none ∧
        (∀ file, q.session.repository.findDefinition? call.name file = none ↔
          ∀ d ∈ q.session.repository.entities,
            Session.LookedUp env r.session q.session d → ¬ d.AnswersTo call.name) ∧
        (env.fetchRemote = false →
          ∀ file, q.session.repository.findDefinition? call.name file = none) := by
  intro analyzed
  obtain ⟨start, log, q', hanalyze, hbuild, hsession⟩ := extract_eq_ok h
  have hanalyzed : analyzed = start.session := congrArg (fun y => y.2.session) hanalyze
  rw [hanalyzed, hsession]
  -- the building only adds, and only what is looked up
  obtain ⟨caller, call, r, hmeets, hat, hbefore, hafter⟩ :=
    CallTree.exists_meets (Run.composed_adds env) hbuild hu hc hkind
  refine ⟨⟨start.session, log⟩, q', rfl, rfl, hbuild, ⟨caller, call, r, hmeets⟩, ?_⟩
  intro caller' call' r' hmeets'
  -- there is one moment only
  obtain ⟨rfl, rfl, rfl⟩ := hmeets.unique hmeets'
  rw [Nat.zero_add] at hat
  have hmoment : ∀ d ∈ r'.session.repository.entities, ¬ d.AnswersTo call'.name :=
    Repository.findDefinition?_eq_none_iff.mp hat.unknown
  have hstart : ∀ d ∈ start.session.repository.entities, ¬ d.AnswersTo call'.name :=
    fun d hd => hmoment d (hbefore.repository.subset hd)
  refine ⟨hat, hbefore.toGrows, hafter.toGrows,
    Repository.findDefinition?_eq_none_iff.mpr hstart, ?_, ?_⟩
  · intro file
    rw [Repository.findDefinition?_eq_none_iff]
    constructor
    · exact fun hnone d hd _ => hnone d hd
    · intro hlooked d hd
      rcases hafter.looked d hd with hd | hup
      · exact hmoment d hd
      · exact hlooked d hd hup
  · -- nothing is looked up, so the repository is the same from the analysis to the end
    intro hoffline file
    obtain ⟨q'', hq, hknown⟩ := CallTree.expand_yields (fun _ => hoffline)
      request.callDepth.toNat 0 [] x.entity ⟨start.session, log⟩ rfl
    have hsame : q'.session.repository = start.session.repository := by
      have heq := congrArg Prod.snd (hbuild.symm.trans hq)
      dsimp only at heq
      rw [heq]
      exact congrArg Known.repository hknown
    rw [hsame]
    exact Repository.findDefinition?_eq_none_iff.mpr hstart

/-- A repository of two files: an interface next to a function that calls a helper and a member of
the interface, and an implementation of the interface, which has the helper. -/
def twoFiles : Environment where
  fetch l :=
    if l.path = "contracts/IX.sol" || l.path = "contracts/X.sol" then .ok ""
    else .error (.plain .notFound l)
  parser.parse _ file :=
    if file = "contracts/IX.sol" then
      .ok { entities := [
        { name := "foo", signature := "foo()", file := file, contract := "IX" },
        { name := "run", signature := "run()", file := file, contract := "A"
          calls := [{ name := "helper" }, { name := "foo" }]
          source := some "function run() { helper(); IX(x).foo(); }" }] }
    else
      .ok { entities := [
        { name := "foo", signature := "foo()", file := file, contract := "X" },
        { name := "helper", signature := "helper()", file := file, contract := "X" }] }

/-- The extraction of the function next to the interface. -/
def twoFilesRun : Option (Except Failure Report.Extraction) × Progress :=
  extract twoFiles
    { url := "https://github.com/acme/vault/blob/main/contracts/IX.sol", function := "run" } {}

theorem shown_twoFilesRun :
    twoFilesRun.1.map (fun r => r.toOption.map fun x =>
        x.tree.children.map fun c => (c.root.name, c.root.kind)) =
      some (some [("helper", .external), ("IX.foo", .interface)]) := by
  decide +kernel

theorem helper_twoFilesRun :
    (twoFilesRun.2.session.repository.findDefinition? "helper" "").isSome = true := by
  decide +kernel

theorem exists_twoFilesRun :
    ∃ x q, twoFilesRun = (some (.ok x), q) ∧
      ∃ c ∈ x.tree.children, c.root.name = "helper" ∧ c.root.kind = .external := by
  have hshown := shown_twoFilesRun
  rcases hrun : twoFilesRun with ⟨_ | failure | x, q⟩
  · rw [hrun] at hshown
    cases hshown
  · rw [hrun] at hshown
    cases hshown
  · rw [hrun] at hshown
    have hchildren := Option.some.inj (Option.some.inj hshown)
    have hmem : ("helper", CallKind.external) ∈
        x.tree.children.map fun c => (c.root.name, c.root.kind) := by
      rw [show x.tree.children.map (fun c => (c.root.name, c.root.kind)) = _ from hchildren]
      exact List.mem_cons_self
    obtain ⟨c, hc, heq⟩ := List.mem_map.mp hmem
    obtain ⟨hname, hkind⟩ := Prod.mk.inj heq
    exact ⟨x, q, rfl, c, hc, hname, hkind⟩

/-- The helper's call is met before the implementation is looked for, so its leaf stands although
the helper is known at the end. -/
theorem helper_known_at_end :
    ∃ x q, twoFilesRun = (some (.ok x), q) ∧
      ∃ c ∈ x.tree.children, c.root.name = "helper" ∧ c.root.kind = .external ∧
        (q.session.repository.findDefinition? c.root.name "").isSome = true := by
  have hknown := helper_twoFilesRun
  obtain ⟨x, q, hrun, c, hc, hname, hkind⟩ := exists_twoFilesRun
  rw [hrun] at hknown
  exact ⟨x, q, hrun, c, hc, hname, hkind, hname ▸ hknown⟩

/-- The helper was looked up after its call was met. -/
theorem extract_unknown_twoFiles :
    ∃ x q, twoFilesRun = (some (.ok x), q) ∧
      ∃ c k, x.tree.children[k]? = some c ∧ c.root.kind = .external ∧
        ∃ start caller call r,
          CallTree.Meets twoFiles {} 10 0 [] x.entity start [] k caller call r ∧
          CallTree.UnknownAt r.session 0 x.tree c caller call ∧
          ∃ d ∈ q.session.repository.entities,
            Session.LookedUp twoFiles r.session q.session d ∧ d.AnswersTo call.name := by
  have hknown := helper_twoFilesRun
  obtain ⟨x, q, hrun, c, hc, hname, hkind⟩ := exists_twoFilesRun
  rw [hrun] at hknown
  obtain ⟨k, hk⟩ := List.mem_iff_getElem?.mp hc
  have hroot : Preorder.descend CallTree.children [] x.tree = some x.tree := rfl
  obtain ⟨start, _, -, -, -, ⟨caller, call, r, hmeets⟩, hmoment⟩ :=
    extract_unknown hrun hroot hk hkind
  obtain ⟨hat, -, -, -, hiff, -⟩ := hmoment caller call r hmeets
  refine ⟨x, q, hrun, c, k, hk, hkind, start, caller, call, r, hmeets, hat, ?_⟩
  have hcall : call.name = "helper" := by
    obtain rfl := hat.eq_leaf
    exact hname
  by_contra hnone
  push Not at hnone
  rw [← hcall, (hiff "").mpr hnone] at hknown
  cases hknown

end Analysis

end CallAtlas

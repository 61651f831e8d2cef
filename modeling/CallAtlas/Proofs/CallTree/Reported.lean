import CallAtlas.Proofs.CallTree.Cut
import CallAtlas.Report
import Mathlib.Data.List.Forall2

/-!
# Calls in the report and in the tree

The report on a session lists the calls of a function, each with what it means.  The tree of the
function has a child for each call as written.  The two are made by separate walks over the calls,
and the tree leaves type conversions out, has children of its own for calls through interfaces, and
looks further down while it walks.  For a function without text, and as long as nothing is fetched,
the children are the entries of the report that are no conversions, one for one and in order.

* `Agrees`: what a child shows and what an entry of the report shows is the same.
* `children_treeIn`: the children of a function without text.
* `build_agrees`: the children of a tree that is built agree with the report.
-/

namespace CallAtlas

/-! ### Entries of the report -/

namespace Report

/-- The name under which a call is reported. -/
def ResolvedCall.name : ResolvedCall → String
  | internal name _ => name
  | external name _ => name

/-- What is reported of a call made in `file`. -/
def entryOf (r : Repository) (file : String) (call : Call) : ResolvedCall :=
  (r.findDefinition? call.name file).elim (.external call.name call.arguments)
    (.internal call.name)

theorem name_entryOf (r : Repository) (file : String) (call : Call) :
    (entryOf r file call).name = call.name := by
  rw [entryOf]
  rcases r.findDefinition? call.name file with _ | d
  · rfl
  · rfl

theorem resolvedCalls_eq (r : Repository) (e : Entity) :
    resolvedCalls r e = e.calls.map (entryOf r e.file) := by
  rw [resolvedCalls]
  refine List.map_congr_left ?_
  intro call _
  rw [entryOf]
  rcases r.findDefinition? call.name e.file with _ | d
  · rfl
  · rfl

end Report

namespace CallTree

open Report (ResolvedCall resolvedCalls entryOf)

/-! ### Children and entries -/

/-- A child shows what an entry of the report shows. -/
structure Agrees (c : CallTree) (entry : ResolvedCall) : Prop where
  /-- The child is internal with a definition iff the entry is. -/
  internal_iff : ∀ d, (c.root.kind = .internal ∧ c.root.definition = some d) ↔
    entry = .internal entry.name d
  /-- The child is external with a number of arguments iff the entry is. -/
  external_iff : ∀ n, (c.root.kind = .external ∧ c.root.arguments = some n) ↔
    entry = .external entry.name n
  /-- A definition shows in the report by its signature and file. -/
  internal_shown_iff : ∀ signature file,
    (c.root.kind = .internal ∧
        ∃ d, c.root.definition = some d ∧ d.signature = signature ∧ d.file = file) ↔
      entry.toDocument = .table [("name", .text entry.name), ("type", .text "internal"),
        ("definition", .table [("signature", .text signature), ("file", .text file)])]
  external_shown_iff : ∀ n, (c.root.kind = .external ∧ c.root.arguments = some n) ↔
    entry.toDocument = .table [("name", .text entry.name), ("type", .text "external"),
      ("arguments", .int n)]
  name_of_external : c.root.kind = .external → c.root.name = entry.name

theorem agrees_internal {c : CallTree} {d : Entity} {depth : Nat} (hc : c.root = leafOf d depth)
    (name : String) : c.Agrees (.internal name d) where
  internal_iff d' := by
    rw [hc]
    simp [leafOf, CallNode.kind, ResolvedCall.name]
  external_iff n := by
    rw [hc]
    simp [leafOf, CallNode.kind]
  internal_shown_iff signature file := by
    rw [hc]
    simp [leafOf, CallNode.kind, ResolvedCall.name, ResolvedCall.toDocument]
  external_shown_iff n := by
    rw [hc]
    simp [leafOf, CallNode.kind, ResolvedCall.toDocument]
  name_of_external := by
    rw [hc]
    simp [leafOf, CallNode.kind]

theorem agrees_external (call : Call) (depth : Nat) :
    (node (externalLeaf call depth) []).Agrees (.external call.name call.arguments) where
  internal_iff d := by
    simp [root, externalLeaf, CallNode.kind]
  external_iff n := by
    simp [root, externalLeaf, CallNode.kind, ResolvedCall.name]
  internal_shown_iff signature file := by
    simp [root, externalLeaf, CallNode.kind, ResolvedCall.toDocument]
  external_shown_iff n := by
    simp [root, externalLeaf, CallNode.kind, ResolvedCall.name, ResolvedCall.toDocument]
  name_of_external _ := rfl

/-- The tree for a call with its meaning agrees with what is reported of the call. -/
theorem agrees_staticCallOf {tree : Entity → CallTree} {depth : Nat}
    (htree : ∀ d, (tree d).root = leafOf d depth) (r : Repository) (file : String) (call : Call) :
    (staticCallOf tree depth (call, r.findDefinition? call.name file)).tree.Agrees
      (entryOf r file call) := by
  rw [staticCallOf, entryOf]
  rcases r.findDefinition? call.name file with _ | d
  · exact agrees_external call depth
  · exact agrees_internal (htree d) call.name

/-! ### Functions without text -/

section

variable {known : Known} {options : Options} {left depth : Nat} {path : List String} {e : Entity}

/-- Without edges, calls as written are left out if they are conversions. -/
theorem keptCalls_of_no_edges (r : Repository) (caller : Entity) (typeNames : List String)
    (calls : List Call) :
    keptCalls r caller typeNames [] calls =
      (calls.filter fun call => !isTypeConversion call.name typeNames).map fun call =>
        (call, r.findDefinition? call.name caller.file) := by
  rw [keptCalls, List.filter_map]
  congr 1
  refine List.filter_congr ?_
  intro call _
  have hrouted : isRoutedThrough call.name (r.findDefinition? call.name caller.file) [] = false :=
    rfl
  rw [Function.comp_apply, isLeftOut, hrouted, Bool.and_false, Bool.or_false]

/-- A function without text has a child for each call that is no conversion. -/
theorem children_treeIn (he : e.source.getD "" = "") (hpath : e.identity ∉ path) :
    (treeIn known options (left + 1) depth path e).children =
      (e.calls.filter fun call =>
        !isTypeConversion call.name known.repository.contractNames).map fun call =>
          (staticCallOf (treeIn known options left (depth + 1) (e.identity :: path)) (depth + 1)
            (call, known.repository.findDefinition? call.name e.file)).tree := by
  have hcontains : path.contains e.identity = false := by simpa using hpath
  have htypes : typeNamesOf known.repository [] = known.repository.contractNames := by
    simp [typeNamesOf]
  have hnodes : ∀ statics,
      interfaceNodes known options (depth + 1) (remainingEdges [] statics) = [] := by
    intro statics
    simp [interfaceNodes, remainingEdges]
  rw [treeIn, hcontains, if_neg Bool.false_ne_true]
  dsimp only
  rw [children, edgesOf_eq_nil he, hnodes, List.append_nil, htypes, keptCalls_of_no_edges,
    List.map_map, List.map_map]
  rfl

end

/-- **The report and the tree agree on calls.**  Without fetching, the tree of a function without
text is built, and nothing is read on the way.  Its children go with the calls that the report lists
and that are no conversions, one for one and in order: a child is internal with its definition
exactly if the entry is, and external with its number of arguments exactly if the entry is. -/
theorem build_agrees {env : Environment} {options : Options}
    (h : options.bindInterfaces = true → env.fetchRemote = false) {e : Entity}
    (he : e.source.getD "" = "") {bound : Int} (hbound : 1 ≤ bound) (p : Progress) :
    ∃ tree q, build env options e bound p = (some tree, q) ∧
      q.session.repository = p.session.repository ∧
      List.Forall₂ Agrees tree.children
        ((resolvedCalls p.session.repository e).filter fun entry =>
          !isTypeConversion entry.name p.session.repository.contractNames) := by
  obtain ⟨q, hq, hknown⟩ := expand_yields h bound.toNat 0 [] e p rfl
  refine ⟨_, q, hq, congrArg Known.repository hknown, ?_⟩
  obtain ⟨left, hleft⟩ : ∃ left, bound.toNat = left + 1 := ⟨bound.toNat - 1, by omega⟩
  -- a call and its entry have the same name, so the same ones are left out
  have hfilter : (e.calls.filter fun call =>
        !isTypeConversion call.name p.session.repository.contractNames) =
      e.calls.filter ((fun entry : ResolvedCall =>
        !isTypeConversion entry.name p.session.repository.contractNames) ∘
          entryOf p.session.repository e.file) := by
    refine List.filter_congr ?_
    intro call _
    rw [Function.comp_apply, Report.name_entryOf]
  -- both lists are maps of the calls that stay
  rw [hleft, children_treeIn he List.not_mem_nil, Report.resolvedCalls_eq, List.filter_map,
    Session.known_repository, hfilter, List.forall₂_map_left_iff, List.forall₂_map_right_iff,
    List.forall₂_same]
  intro call _
  exact agrees_staticCallOf (fun d => root_treeIn _ _ _ _ _ d) _ _ _

/-- A function without text that makes two conversions, calls a function with text, and calls one
that is not declared. -/
def payOut : Entity :=
  { name := "payOut", signature := "payOut()", file := "Keeper.sol", contract := "Keeper"
    calls := [{ name := "Keeper", arguments := 1 }, { name := "sweep" },
      { name := "address", arguments := 1 }, { name := "token.transfer", arguments := 2 }] }

/-- The start of a run that knows the function, what it calls, and an interface with its
implementation. -/
def payOutStart : Progress :=
  { session := { repository := ⟨payOut :: sweep :: Interface.bank.session.repository.entities⟩ } }

/-- Of the four calls in the report two are conversions; the tree has the other two. -/
theorem build_agrees_payOut :
    let offline : Environment := { Environment.barren with fetchRemote := false }
    let entries := (resolvedCalls payOutStart.session.repository payOut).filter fun entry =>
      !isTypeConversion entry.name payOutStart.session.repository.contractNames
    payOut.source.getD "" = "" ∧
      entries = [.internal "sweep" sweep, .external "token.transfer" 2] ∧
      ∃ tree q, build offline {} payOut 3 payOutStart = (some tree, q) ∧
        tree.children.map (fun c => (c.root.kind, c.root.name, c.children.length)) =
          [(.internal, "sweep", 1), (.external, "token.transfer", 0)] ∧
        List.Forall₂ Agrees tree.children entries := by
  intro offline entries
  have hoffline : ({} : Options).bindInterfaces = true → offline.fetchRemote = false := fun _ => rfl
  obtain ⟨tree, q, htree, -, hagrees⟩ :=
    build_agrees hoffline (e := payOut) rfl (show (1 : Int) ≤ 3 by decide) payOutStart
  have hentries : entries = [.internal "sweep" sweep, .external "token.transfer" 2] := by
    decide +kernel
  have hshown : (build offline {} payOut 3 payOutStart).1.map (fun t =>
      t.children.map fun c => (c.root.kind, c.root.name, c.children.length)) =
        some [(.internal, "sweep", 1), (.external, "token.transfer", 0)] := by
    decide +kernel
  rw [htree] at hshown
  exact ⟨rfl, hentries, tree, q, htree, Option.some.inj hshown, hagrees⟩

end CallTree

end CallAtlas

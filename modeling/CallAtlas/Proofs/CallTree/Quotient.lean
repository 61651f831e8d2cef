import CallAtlas.CallTree.Dot
import CallAtlas.Proofs.CallTree.Bounded

/-!
# The graph of a tree

A graph is drawn in one walk over the tree, which declares nodes and joins them as it meets them.  A
node may be met first as somebody's child and later with children of its own, so both are done only
where they are new.

* `Grounded`: every edge joins nodes that were declared before it.
* `Draws g seen joined`: the graph `g` has a node for each identity in `seen` and an edge for each
  pair in `joined`.  This is what each step of the walk keeps (`Draws.declare`, `Draws.connect`).
* `draws_dotGraph`: the graph of a tree draws the nodes of the tree and its pairs of parent and
  child.
-/

namespace CallAtlas.CallTree

/-! ### Statements -/

/-- The number that a statement declares. -/
def DotStatement.number? : DotStatement → Option Nat
  | node number _ _ => some number
  | edge _ _ => none

/-- The numbers that a statement joins. -/
def DotStatement.ends? : DotStatement → Option (Nat × Nat)
  | node _ _ _ => none
  | edge source target => some (source, target)

/-- The numbers that are declared, in order. -/
def declaredNumbers (statements : List DotStatement) : List Nat :=
  statements.filterMap DotStatement.number?

/-- The pairs that are joined, in order. -/
def joinedNumbers (statements : List DotStatement) : List (Nat × Nat) :=
  statements.filterMap DotStatement.ends?

/-- Whether every edge joins nodes that are declared before it. -/
inductive Grounded : List DotStatement → Prop
  | nil : Grounded []
  | node {statements : List DotStatement} (h : Grounded statements) (number : Nat)
      (label : String) (kind : CallKind) : Grounded (statements ++ [.node number label kind])
  | edge {statements : List DotStatement} (h : Grounded statements) {source target : Nat}
      (hsource : source ∈ declaredNumbers statements)
      (htarget : target ∈ declaredNumbers statements) :
      Grounded (statements ++ [.edge source target])

theorem declaredNumbers_append (ss us : List DotStatement) :
    declaredNumbers (ss ++ us) = declaredNumbers ss ++ declaredNumbers us :=
  List.filterMap_append

theorem joinedNumbers_append (ss us : List DotStatement) :
    joinedNumbers (ss ++ us) = joinedNumbers ss ++ joinedNumbers us :=
  List.filterMap_append

theorem mem_joinedNumbers {statements : List DotStatement} {a b : Nat} :
    (a, b) ∈ joinedNumbers statements ↔ .edge a b ∈ statements := by
  rw [joinedNumbers, List.mem_filterMap]
  constructor
  · rintro ⟨s, hs, hends⟩
    cases s with
    | node => cases hends
    | edge source target =>
      cases hends
      exact hs
  · intro h
    exact ⟨_, h, rfl⟩

/-- What stands in front of an edge declares its ends. -/
theorem Grounded.declared_before {statements : List DotStatement} (h : Grounded statements)
    {before after : List DotStatement} {a b : Nat} (heq : statements = before ++ .edge a b :: after) :
    a ∈ declaredNumbers before ∧ b ∈ declaredNumbers before := by
  induction h generalizing after with
  | nil => simp at heq
  | node h number label kind ih =>
    -- the edge is not the last statement
    rcases List.eq_nil_or_concat' after with rfl | ⟨after, last, rfl⟩
    · have hlast := (List.append_inj' heq rfl).2
      simp at hlast
    · rw [← List.cons_append, ← List.append_assoc] at heq
      exact ih (List.append_inj' heq rfl).1
  | edge h hsource htarget ih =>
    rcases List.eq_nil_or_concat' after with rfl | ⟨after, last, rfl⟩
    · obtain ⟨rfl, hlast⟩ := List.append_inj' heq rfl
      simp only [List.cons.injEq, DotStatement.edge.injEq, and_true] at hlast
      obtain ⟨rfl, rfl⟩ := hlast
      exact ⟨hsource, htarget⟩
    · rw [← List.cons_append, ← List.append_assoc] at heq
      exact ih (List.append_inj' heq rfl).1

/-! ### What a graph draws -/

/-- The graph has a node for each identity in `seen`, numbered in the order in which they are
declared, and an edge for each pair of identities in `joined`. -/
structure Draws (g : DotGraph) (seen : List CallNode) (joined : List (String × String)) :
    Prop where
  nodup_declared : g.declared.Nodup
  mem_declared : ∀ i, i ∈ g.declared ↔ i ∈ seen.map (·.identity)
  numbers_eq : declaredNumbers g.statements = List.range g.declared.length
  shows : ∀ number label kind, .node number label kind ∈ g.statements →
    ∃ n ∈ seen, g.number n.identity = number ∧ n.label = label ∧ n.kind = kind
  nodup_joined : (joinedNumbers g.statements).Nodup
  mem_joined : ∀ a b, (a, b) ∈ joinedNumbers g.statements ↔
    ∃ pair ∈ joined, g.number pair.1 = a ∧ g.number pair.2 = b
  known : ∀ pair ∈ joined, pair.1 ∈ g.declared ∧ pair.2 ∈ g.declared
  grounded : Grounded g.statements

namespace DotGraph

variable {g : DotGraph} {n : CallNode} {i : String}

theorem declare_of_mem (h : n.identity ∈ g.declared) : g.declare n = g := by
  rw [declare, if_pos (List.contains_iff_mem.mpr h)]

theorem declare_of_notMem (h : n.identity ∉ g.declared) :
    g.declare n = ⟨g.declared ++ [n.identity],
      g.statements ++ [.node g.declared.length n.label n.kind]⟩ := by
  rw [declare, if_neg (by simpa using h)]

theorem mem_declare : i ∈ (g.declare n).declared ↔ i ∈ g.declared ∨ i = n.identity := by
  by_cases h : n.identity ∈ g.declared
  · rw [declare_of_mem h]
    refine ⟨.inl, ?_⟩
    rintro (hi | rfl)
    · exact hi
    · exact h
  · rw [declare_of_notMem h, List.mem_append, List.mem_singleton]

/-- A number stays when more is declared. -/
theorem number_declare (h : i ∈ g.declared) : (g.declare n).number i = g.number i := by
  by_cases hn : n.identity ∈ g.declared
  · rw [declare_of_mem hn]
  · rw [declare_of_notMem hn, number, number, List.idxOf_append_of_mem h]

theorem number_lt (h : i ∈ g.declared) : g.number i < g.declared.length :=
  List.idxOf_lt_length_iff.mpr h

theorem number_inj {j : String} (hi : i ∈ g.declared) (h : g.number i = g.number j) : i = j :=
  (List.idxOf_inj hi).mp h

theorem connect_of_mem {a b : Nat} (h : .edge a b ∈ g.statements) : g.connect a b = g := by
  rw [connect, if_pos (List.contains_iff_mem.mpr h)]

theorem connect_of_notMem {a b : Nat} (h : .edge a b ∉ g.statements) :
    g.connect a b = ⟨g.declared, g.statements ++ [.edge a b]⟩ := by
  rw [connect, if_neg (by simpa using h)]

theorem declared_connect (a b : Nat) : (g.connect a b).declared = g.declared := by
  rw [connect]
  split_ifs
  · rfl
  · rfl

theorem number_connect (a b : Nat) : (g.connect a b).number i = g.number i := by
  rw [number, number, declared_connect]

end DotGraph

/-! ### Steps of the walk -/

section

variable {g : DotGraph} {seen : List CallNode} {joined : List (String × String)} {n m : CallNode}

theorem draws_empty : Draws {} [] [] where
  nodup_declared := List.nodup_nil
  mem_declared _ := Iff.rfl
  numbers_eq := rfl
  shows _ _ _ h := absurd h List.not_mem_nil
  nodup_joined := List.nodup_nil
  mem_joined a b := by simp [joinedNumbers]
  known _ h := absurd h List.not_mem_nil
  grounded := .nil

/-- The number of a declared identity is declared by a statement. -/
theorem Draws.number_mem (h : Draws g seen joined) {i : String} (hi : i ∈ g.declared) :
    g.number i ∈ declaredNumbers g.statements := by
  rw [h.numbers_eq, List.mem_range]
  exact DotGraph.number_lt hi

/-- Declaring a node draws it. -/
theorem Draws.declare (h : Draws g seen joined) (n : CallNode) :
    Draws (g.declare n) (seen ++ [n]) joined := by
  -- identities that are joined are declared, so they keep their numbers
  have hnumber : ∀ pair ∈ joined,
      (g.declare n).number pair.1 = g.number pair.1 ∧
        (g.declare n).number pair.2 = g.number pair.2 := by
    intro pair hpair
    obtain ⟨hfst, hsnd⟩ := h.known pair hpair
    exact ⟨DotGraph.number_declare hfst, DotGraph.number_declare hsnd⟩
  have hmem : ∀ i, i ∈ (g.declare n).declared ↔ i ∈ (seen ++ [n]).map (·.identity) := by
    intro i
    rw [DotGraph.mem_declare, h.mem_declared, List.map_append, List.mem_append, List.map_singleton,
      List.mem_singleton]
  have hknown : ∀ pair ∈ joined,
      pair.1 ∈ (g.declare n).declared ∧ pair.2 ∈ (g.declare n).declared := by
    intro pair hpair
    obtain ⟨hfst, hsnd⟩ := h.known pair hpair
    exact ⟨DotGraph.mem_declare.mpr (.inl hfst), DotGraph.mem_declare.mpr (.inl hsnd)⟩
  by_cases hn : n.identity ∈ g.declared
  · -- nothing is declared, and what was shown is still among what was seen
    rw [DotGraph.declare_of_mem hn] at hmem ⊢
    refine { h with mem_declared := hmem, shows := ?_ }
    intro number label kind hshown
    obtain ⟨m, hm, hshows⟩ := h.shows number label kind hshown
    exact ⟨m, List.mem_append_left _ hm, hshows⟩
  · -- a new identity gets the next number
    have hlast : (g.declare n).number n.identity = g.declared.length := by
      rw [DotGraph.declare_of_notMem hn, DotGraph.number, List.idxOf_append_of_notMem hn]
      simp
    have hstatements : (g.declare n).statements =
        g.statements ++ [.node g.declared.length n.label n.kind] := by
      rw [DotGraph.declare_of_notMem hn]
    have hdeclared : (g.declare n).declared = g.declared ++ [n.identity] := by
      rw [DotGraph.declare_of_notMem hn]
    have hjoined : joinedNumbers (g.declare n).statements = joinedNumbers g.statements := by
      rw [hstatements, joinedNumbers_append]
      exact List.append_nil _
    refine ⟨?_, hmem, ?_, ?_, ?_, ?_, hknown, ?_⟩
    · -- declared once
      rw [hdeclared, List.nodup_append]
      refine ⟨h.nodup_declared, List.nodup_singleton _, ?_⟩
      rintro i hi j hj rfl
      rw [List.mem_singleton.mp hj] at hi
      exact hn hi
    · -- the numbers are an initial segment, one longer
      rw [hstatements, hdeclared, declaredNumbers_append, h.numbers_eq, List.length_append,
        List.length_singleton, List.range_succ]
      rfl
    · -- what is shown was shown before, or is the new node
      intro number label kind hshown
      rw [hstatements, List.mem_append, List.mem_singleton] at hshown
      rcases hshown with hshown | hshown
      · obtain ⟨m, hm, hnum, hshows⟩ := h.shows number label kind hshown
        refine ⟨m, List.mem_append_left _ hm, ?_, hshows⟩
        have hmdeclared : m.identity ∈ g.declared :=
          (h.mem_declared _).mpr (List.mem_map_of_mem hm)
        rw [DotGraph.number_declare hmdeclared, hnum]
      · obtain ⟨rfl, rfl, rfl⟩ := DotStatement.node.inj hshown
        exact ⟨n, List.mem_append_right _ List.mem_cons_self, hlast, rfl, rfl⟩
    · -- no edge is added
      rw [hjoined]
      exact h.nodup_joined
    · intro a b
      rw [hjoined, h.mem_joined]
      refine exists_congr fun pair => and_congr_right fun hpair => ?_
      rw [(hnumber pair hpair).1, (hnumber pair hpair).2]
    · rw [hstatements]
      exact h.grounded.node _ _ _

/-- Joining two declared nodes draws the pair. -/
theorem Draws.connect (h : Draws g seen joined) {i j : String} (hi : i ∈ g.declared)
    (hj : j ∈ g.declared) :
    Draws (g.connect (g.number i) (g.number j)) seen (joined ++ [(i, j)]) := by
  have hdeclared := g.declared_connect (g.number i) (g.number j)
  have hknown : ∀ pair ∈ joined ++ [(i, j)], pair.1 ∈ g.declared ∧ pair.2 ∈ g.declared := by
    intro pair hpair
    rcases List.mem_append.mp hpair with hpair | hpair
    · exact h.known pair hpair
    · rw [List.mem_singleton.mp hpair]
      exact ⟨hi, hj⟩
  -- a number is joined iff it was, or the new pair has it
  have hpairs : ∀ a b, (∃ pair ∈ joined ++ [(i, j)], g.number pair.1 = a ∧ g.number pair.2 = b) ↔
      (a, b) ∈ joinedNumbers g.statements ∨ (a, b) = (g.number i, g.number j) := by
    intro a b
    rw [h.mem_joined]
    simp only [List.mem_append, List.mem_singleton, or_and_right, exists_or, exists_eq_left,
      Prod.mk.injEq]
    rw [eq_comm (a := a), eq_comm (a := b)]
  by_cases hold : .edge (g.number i) (g.number j) ∈ g.statements
  · -- the edge is there already, so the pair adds no joined numbers
    rw [DotGraph.connect_of_mem hold]
    refine { h with mem_joined := ?_, known := hknown }
    intro a b
    rw [hpairs]
    refine ⟨.inl, ?_⟩
    rintro (hab | hab)
    · exact hab
    · rw [hab]
      exact mem_joinedNumbers.mpr hold
  · -- one edge is added, and no node
    have hstatements : (g.connect (g.number i) (g.number j)).statements =
        g.statements ++ [.edge (g.number i) (g.number j)] := by
      rw [DotGraph.connect_of_notMem hold]
    have hjoined : joinedNumbers (g.connect (g.number i) (g.number j)).statements =
        joinedNumbers g.statements ++ [(g.number i, g.number j)] := by
      rw [hstatements, joinedNumbers_append]
      rfl
    have hnumbers : declaredNumbers (g.connect (g.number i) (g.number j)).statements =
        declaredNumbers g.statements := by
      rw [hstatements, declaredNumbers_append]
      exact List.append_nil _
    refine ⟨?_, ?_, ?_, ?_, ?_, ?_, ?_, ?_⟩
    · -- what is about nodes stands as it was
      rw [hdeclared]
      exact h.nodup_declared
    · rw [hdeclared]
      exact h.mem_declared
    · rw [hnumbers, hdeclared, h.numbers_eq]
    · intro number label kind hshown
      rw [hstatements, List.mem_append, List.mem_singleton] at hshown
      simp only [DotGraph.number_connect]
      exact h.shows number label kind (hshown.resolve_right (by simp))
    · -- the new edge is not among the old ones
      rw [hjoined, List.nodup_append]
      refine ⟨h.nodup_joined, List.nodup_singleton _, ?_⟩
      rintro pair hpair pair' hpair' rfl
      rw [List.mem_singleton.mp hpair', mem_joinedNumbers] at hpair
      exact hold hpair
    · intro a b
      simp only [DotGraph.number_connect]
      rw [hpairs, hjoined, List.mem_append, List.mem_singleton]
    · rw [hdeclared]
      exact hknown
    · rw [hstatements]
      exact h.grounded.edge (h.number_mem hi) (h.number_mem hj)

/-- Drawing a child of `m` leaves the number of `m` as it was. -/
theorem Draws.addChild (h : Draws g seen joined) (hm : m.identity ∈ g.declared) (n : CallNode) :
    Draws (DotGraph.addChild (g.number m.identity) g n) (seen ++ [n])
        (joined ++ [(m.identity, n.identity)]) ∧
      m.identity ∈ (DotGraph.addChild (g.number m.identity) g n).declared ∧
      (DotGraph.addChild (g.number m.identity) g n).number m.identity = g.number m.identity := by
  have hsource : (g.declare n).number m.identity = g.number m.identity :=
    DotGraph.number_declare hm
  have hmem : m.identity ∈ (g.declare n).declared := DotGraph.mem_declare.mpr (.inl hm)
  have hnmem : n.identity ∈ (g.declare n).declared := DotGraph.mem_declare.mpr (.inr rfl)
  rw [DotGraph.addChild, ← hsource]
  refine ⟨(h.declare n).connect hmem hnmem, ?_, DotGraph.number_connect _ _⟩
  rw [DotGraph.declared_connect]
  exact hmem

/-- Drawing the children of `m` in turn. -/
theorem Draws.foldl_addChild (h : Draws g seen joined) (hm : m.identity ∈ g.declared)
    (children : List CallNode) :
    Draws (children.foldl (DotGraph.addChild (g.number m.identity)) g) (seen ++ children)
      (joined ++ children.map fun n => (m.identity, n.identity)) := by
  induction children generalizing g seen joined with
  | nil => simpa using h
  | cons n children ih =>
    obtain ⟨hdraws, hdeclared, hnumber⟩ := h.addChild hm n
    have hrest := ih hdraws hdeclared
    rw [hnumber] at hrest
    simpa using hrest

/-- The nodes that are met at a tree: its root and the roots of its children. -/
def metAt (t : CallTree) : List CallNode :=
  t.root :: t.children.map root

/-- The pairs of identities that are joined at a tree. -/
def pairsAt (t : CallTree) : List (String × String) :=
  t.children.map fun c => (t.root.identity, c.root.identity)

theorem Draws.addTree (h : Draws g seen joined) (t : CallTree) :
    Draws (g.addTree t) (seen ++ metAt t) (joined ++ pairsAt t) := by
  have hroot : t.root.identity ∈ (g.declare t.root).declared :=
    DotGraph.mem_declare.mpr (.inr rfl)
  have hdraws := (h.declare t.root).foldl_addChild hroot (t.children.map root)
  rw [List.append_assoc, List.map_map] at hdraws
  exact hdraws

theorem Draws.foldl_addTree (h : Draws g seen joined) (ts : List CallTree) :
    Draws (ts.foldl DotGraph.addTree g) (seen ++ ts.flatMap metAt)
      (joined ++ ts.flatMap pairsAt) := by
  induction ts generalizing g seen joined with
  | nil => simpa using h
  | cons t ts ih =>
    have hrest := ih (h.addTree t)
    simpa using hrest

end

/-! ### The whole walk -/

/-- The graph of a tree draws what is met at the trees in it. -/
theorem draws_dotGraph (t : CallTree) :
    Draws (dotGraph t) (t.subtrees.flatMap metAt) (t.subtrees.flatMap pairsAt) :=
  draws_empty.foldl_addTree t.subtrees

theorem mem_subtrees_self (t : CallTree) : t ∈ t.subtrees := by
  cases t with
  | node root children => exact mem_subtrees_node.mpr (.inl rfl)

mutual

/-- The children of a tree in another tree are in that one. -/
theorem child_mem_subtrees : (t : CallTree) → ∀ u ∈ t.subtrees, ∀ c ∈ u.children, c ∈ t.subtrees
  | node root children => by
    intro u hu c hc
    rw [subtrees, List.mem_cons] at hu ⊢
    rcases hu with rfl | hu
    · exact .inr (mem_subtreesOfAll.mpr ⟨c, hc, mem_subtrees_self c⟩)
    · exact .inr (child_mem_subtreesOfAll children u hu c hc)

theorem child_mem_subtreesOfAll : (ts : List CallTree) →
    ∀ u ∈ subtreesOfAll ts, ∀ c ∈ u.children, c ∈ subtreesOfAll ts
  | [] => by
    intro u hu
    cases hu
  | t :: ts => by
    intro u hu c hc
    rw [subtreesOfAll, List.mem_append] at hu ⊢
    rcases hu with hu | hu
    · exact .inl (child_mem_subtrees t u hu c hc)
    · exact .inr (child_mem_subtreesOfAll ts u hu c hc)

end

/-- What is met on the walk are the nodes of the tree. -/
theorem mem_flatMap_metAt {t : CallTree} {n : CallNode} :
    n ∈ t.subtrees.flatMap metAt ↔ n ∈ t.nodes := by
  rw [List.mem_flatMap, nodes, List.mem_map]
  constructor
  · rintro ⟨u, hu, hn⟩
    rcases List.mem_cons.mp hn with rfl | hn
    · exact ⟨u, hu, rfl⟩
    · obtain ⟨c, hc, rfl⟩ := List.mem_map.mp hn
      exact ⟨c, child_mem_subtrees t u hu c hc, rfl⟩
  · rintro ⟨u, hu, rfl⟩
    exact ⟨u, hu, List.mem_cons_self⟩

theorem mem_flatMap_pairsAt {t : CallTree} {pair : String × String} :
    pair ∈ t.subtrees.flatMap pairsAt ↔
      ∃ u ∈ t.subtrees, ∃ c ∈ u.children, (u.root.identity, c.root.identity) = pair := by
  simp only [List.mem_flatMap, pairsAt, List.mem_map]

end CallAtlas.CallTree

import CallAtlas.Proofs.Preorder
import CallAtlas.Proofs.Text
import CallAtlas.Source.Calls
import Mathlib.Data.List.Forall2

/-!
# Calls in source order

The calls of a body are collected in one walk over its syntax tree, which goes on below calls that
are recorded already: into their targets and their arguments.

* `Node.walk`: the nodes at and below a node, a node before those below it.
* `Node.Ordered`: at and below a node, children lie inside of their parent, one behind the other.
* `Node.RecordedAs`: the name under which a node is recorded as a call, by its target.
* `Unwraps`: what is left of a target without the wrappers around it.
* `pairwise_start_walk`: the walk over an ordered tree comes by start offsets that never decrease.
* `afterLast_of_recordedAs`: a member is the last part of the name that it is recorded under.
* `collectCalls_ordered`: exactly the nodes with a name are recorded, each once and in order.
-/

namespace CallAtlas.Source

open CallAtlas.Text (afterLast)

/-! ### Walking over syntax trees -/

mutual

/-- The nodes at and below a node, a node before those below it. -/
def Node.walk : Node → List Node
  | .mk type named field start stop children =>
    .mk type named field start stop children :: walkAll children

/-- The nodes at and below each of the nodes. -/
def walkAll : List Node → List Node
  | [] => []
  | c :: cs => c.walk ++ walkAll cs

end

theorem walkAll_eq (cs : List Node) : walkAll cs = cs.flatMap Node.walk := by
  induction cs with
  | nil => rfl
  | cons c cs ih => rw [walkAll, ih, List.flatMap_cons]

theorem Node.walk_eq (n : Node) : n.walk = n :: n.children.flatMap Node.walk := by
  obtain ⟨type, named, field, start, stop, children⟩ := n
  rw [Node.walk, walkAll_eq]
  rfl

/-- The node at an address below `n`. -/
def Node.at? (n : Node) (address : List Nat) : Option Node :=
  Preorder.descend Node.children address n

variable {text : Node → String} {n c m : Node}

theorem collectCallsOfAll_eq_flatMap (cs : List Node) :
    collectCallsOfAll text cs = cs.flatMap (collectCalls text) := by
  induction cs with
  | nil => rfl
  | cons c cs ih => rw [collectCallsOfAll, ih, List.flatMap_cons]

/-- The calls are what is found on the walk. -/
theorem collectCalls_eq_filterMap (n : Node) :
    collectCalls text n = n.walk.filterMap (callAt? text) := by
  induction n using Preorder.childInduction Node.walk_eq with
  | step n ih =>
    have hbelow : n.children.flatMap (collectCalls text) =
        (n.children.flatMap Node.walk).filterMap (callAt? text) := by
      rw [List.filterMap_flatMap]
      exact List.flatMap_congr ih
    have hnode : collectCalls text n =
        (callAt? text n).toList ++ n.children.flatMap (collectCalls text) := by
      obtain ⟨type, named, field, start, stop, children⟩ := n
      rw [collectCalls, collectCallsOfAll_eq_flatMap]
      rfl
    rw [hnode, hbelow, n.walk_eq, List.filterMap_cons]
    cases callAt? text n <;> rfl

/-! ### Order -/

/-- Whether the children of a node lie inside of it, one behind the other. -/
def Node.FitsChildren (n : Node) : Prop :=
  (∀ c ∈ n.children, n.start ≤ c.start ∧ c.start ≤ c.stop ∧ c.stop ≤ n.stop) ∧
    n.children.Pairwise fun c d => c.stop ≤ d.start

/-- Whether at and below a node the children of every node lie inside of it, one behind the
other. -/
def Node.Ordered (n : Node) : Prop :=
  ∀ m ∈ n.walk, m.FitsChildren

instance : DecidablePred Node.FitsChildren := fun n =>
  @instDecidableAnd _ _ (List.decidableBAll _ n.children) inferInstance

instance : DecidablePred Node.Ordered := fun n =>
  List.decidableBAll _ n.walk

theorem Node.Ordered.fitsChildren (h : n.Ordered) : n.FitsChildren := by
  apply h
  rw [n.walk_eq]
  exact List.mem_cons_self

theorem Node.Ordered.child (h : n.Ordered) (hc : c ∈ n.children) : c.Ordered := by
  intro m hm
  apply h
  rw [n.walk_eq]
  exact List.mem_cons_of_mem _ (List.mem_flatMap_of_mem hc hm)

/-- What is below an ordered node starts inside of it. -/
theorem start_of_mem_walk (h : n.Ordered) (hspan : n.start ≤ n.stop) (hm : m ∈ n.walk) :
    n.start ≤ m.start ∧ m.start ≤ n.stop := by
  induction n using Preorder.childInduction Node.walk_eq with
  | step n ih =>
    rw [n.walk_eq, List.mem_cons, List.mem_flatMap] at hm
    rcases hm with rfl | ⟨c, hc, hm⟩
    · exact ⟨Nat.le_refl _, hspan⟩
    · obtain ⟨hstart, hspan', hstop⟩ := h.fitsChildren.1 c hc
      obtain ⟨hlow, hhigh⟩ := ih c hc (h.child hc) hspan' hm
      omega

/-- The walk over an ordered tree comes by start offsets that never decrease. -/
theorem pairwise_start_walk (h : n.Ordered) : n.walk.Pairwise fun a b => a.start ≤ b.start := by
  induction n using Preorder.childInduction Node.walk_eq with
  | step n ih =>
    obtain ⟨hinside, hbehind⟩ := h.fitsChildren
    rw [n.walk_eq, List.pairwise_cons, List.pairwise_flatMap]
    refine ⟨?_, fun c hc => ih c hc (h.child hc), ?_⟩
    · intro m hm
      obtain ⟨c, hc, hm⟩ := List.mem_flatMap.mp hm
      obtain ⟨hstart, hspan, -⟩ := hinside c hc
      have hlow := (start_of_mem_walk (h.child hc) hspan hm).1
      omega
    · -- what is in an earlier child starts before its end, and that is before the later child
      refine hbehind.imp_of_mem fun {c d} hc hd hcd a ha b hb => ?_
      have hhigh := (start_of_mem_walk (h.child hc) (hinside c hc).2.1 ha).2
      have hlow := (start_of_mem_walk (h.child hd) (hinside d hd).2.1 hb).1
      omega

/-! ### Names -/

/-- The node that tells what is called or emitted, if the node is a call or an emitted event. -/
def Node.target? (n : Node) : Option Node :=
  if n.type = "call_expression" then callTarget? n
  else if n.type = "emit_statement" then n.child? "name"
  else none

/-- Whether the target of a node resolves to a name that is not empty. -/
def Node.RecordedAs (text : Node → String) (n : Node) (name : String) : Prop :=
  name ≠ "" ∧ ∃ target, n.target? = some target ∧ callName text target = some name

/-- Exactly the nodes whose target has a name make calls, under that name. -/
theorem callAt?_iff {name : String} :
    (∃ call, callAt? text n = some call ∧ call.name = name) ↔ n.RecordedAs text name := by
  -- calls and emitted events differ only in where the target is
  have hrecord : ∀ (target? : Option Node) (count : Node → Nat),
      (∃ call : Call, (target?.bind fun target => (callName text target).bind fun name =>
          if name = "" then none else some ⟨name, count target⟩) = some call ∧
            call.name = name) ↔
        name ≠ "" ∧ ∃ target, target? = some target ∧ callName text target = some name := by
    intro target? count
    constructor
    · rintro ⟨call, hcall, rfl⟩
      obtain ⟨target, htarget, hcall⟩ := Option.bind_eq_some_iff.mp hcall
      obtain ⟨name, hname, hcall⟩ := Option.bind_eq_some_iff.mp hcall
      split_ifs at hcall with hempty
      obtain rfl := Option.some.inj hcall
      exact ⟨hempty, target, htarget, hname⟩
    · rintro ⟨hempty, target, rfl, hname⟩
      refine ⟨⟨name, count target⟩, ?_, rfl⟩
      rw [Option.bind_some, hname, Option.bind_some, if_neg hempty]
  unfold callAt? Node.RecordedAs Node.target?
  split_ifs
  · exact hrecord (callTarget? n) (argumentCount n)
  · exact hrecord (n.child? "name") fun _ => _
  · simp

/-- What is left of a target without the wrappers around it: a wrapper encloses its first named
child. -/
inductive Unwraps : Node → Node → Prop
  | done (n : Node) : Unwraps n n
  | step {n c m : Node} (hwrapper : n.type = "expression" ∨ n.type = "parenthesized_expression")
      (hfirst : n.namedChildren.head? = some c) (h : Unwraps c m) : Unwraps n m

theorem wrappedName_eq (cs : List Node) :
    wrappedName text cs = (cs.filter Node.named).head?.bind (callName text) := by
  induction cs with
  | nil => rfl
  | cons c cs ih =>
    rw [wrappedName, ih]
    split_ifs with hnamed
    · rw [List.filter_cons_of_pos hnamed]
      rfl
    · rw [List.filter_cons_of_neg hnamed]

/-- A target has the name of what its wrappers enclose. -/
theorem callName_of_unwraps (h : Unwraps n m) : callName text n = callName text m := by
  induction h with
  | done n => rfl
  | @step n c m hwrapper hfirst h ih =>
    rw [← ih]
    obtain ⟨type, named, field, start, stop, children⟩ := n
    have htype : (type = "expression" || type = "parenthesized_expression") = true := by
      have hwrapper' : type = "expression" ∨ type = "parenthesized_expression" := hwrapper
      simpa using hwrapper'
    have hhead : (children.filter Node.named).head? = some c := hfirst
    rw [callName, if_pos htype, wrappedName_eq, hhead, Option.bind_some]

/-- The name of a member ends in the text of its property, alone or behind a point. -/
theorem callName_member (text : Node → String) {property : Node}
    (htype : n.type = "member_expression") (hproperty : n.child? "property" = some property) :
    ∃ front : List Char, (front = [] ∨ ∃ base, front = base ++ ['.']) ∧
      callName text n = some (String.ofList (front ++ (text property).toList)) := by
  obtain ⟨type, named, field, start, stop, children⟩ := n
  obtain rfl : type = "member_expression" := htype
  have hfind : children.find? (fun c => c.field == some "property") = some property := hproperty
  rw [callName, if_neg (by decide), if_neg (by decide), if_pos rfl, hfind]
  have halone : some (text property) = some (String.ofList ([] ++ (text property).toList)) := by
    rw [List.nil_append, String.ofList_toList]
  -- without a name of the object the property stands alone
  cases objectName text children with
  | none => exact ⟨[], .inl rfl, halone⟩
  | some base =>
    by_cases hbase : base = ""
    · refine ⟨[], .inl rfl, ?_⟩
      dsimp only
      rw [if_pos hbase, halone]
    · refine ⟨base.toList ++ ['.'], .inr ⟨base.toList, rfl⟩, ?_⟩
      dsimp only
      rw [if_neg hbase]
      congr 1
      apply String.toList_injective
      simp

/-- A member without points is the last part of the name that it is recorded under, whatever it is a
member of. -/
theorem afterLast_of_recordedAs {name : String} {target property : Node}
    (h : n.RecordedAs text name) (htarget : n.target? = some target) (hunwraps : Unwraps target m)
    (htype : m.type = "member_expression") (hproperty : m.child? "property" = some property)
    (hpoint : '.' ∉ (text property).toList) :
    afterLast '.' name.toList = (text property).toList := by
  obtain ⟨-, target', htarget', hname⟩ := h
  obtain rfl : target = target' := Option.some.inj (htarget.symm.trans htarget')
  obtain ⟨front, hfront, hmember⟩ := callName_member text htype hproperty
  rw [callName_of_unwraps hunwraps, hmember] at hname
  rw [← Option.some.inj hname, String.toList_ofList]
  exact Path.afterLast_append hpoint hfront

/-! ### All calls -/

/-- What an entry owes to the node that it is made at: its name is that of the target, and if the
target is a member whose property has no point, then the property is the last part of the name. -/
structure IsEntry (text : Node → String) (n : Node) (call : Call) : Prop where
  recorded : n.RecordedAs text call.name
  member : ∀ target m property, n.target? = some target → Unwraps target m →
    m.type = "member_expression" → m.child? "property" = some property →
    '.' ∉ (text property).toList → afterLast '.' call.name.toList = (text property).toList

theorem isEntry_of_callAt? {call : Call} (h : callAt? text n = some call) :
    IsEntry text n call := by
  have hrecorded : n.RecordedAs text call.name := callAt?_iff.mp ⟨call, h, rfl⟩
  exact ⟨hrecorded, fun _ _ _ => afterLast_of_recordedAs hrecorded⟩

/-- The calls of a body whose nodes lie inside of each other and one behind the other have an entry
for each call or emitted event whose target has a name, and no others.  The addresses of these nodes
come in an order in which none comes twice or before one above it, and in which the start offsets
never decrease. -/
theorem collectCalls_ordered (text : Node → String) (body : Node) (h : body.Ordered) :
    ∃ sites : List (List Nat),
      List.Forall₂ (fun site call => ∃ n, body.at? site = some n ∧ IsEntry text n call)
        sites (collectCalls text body) ∧
      (∀ site n name, body.at? site = some n → n.RecordedAs text name → site ∈ sites) ∧
      (sites.Pairwise fun a b => ¬ b <+: a) ∧
      sites.Pairwise fun a b => ∀ n m, body.at? a = some n → body.at? b = some m →
        n.start ≤ m.start := by
  -- the calls are what is found on a walk over the body
  obtain ⟨addresses, hwalk⟩ := Preorder.exists_isWalk Node.walk_eq body
  obtain ⟨sites, hsublist, hfound, hcomplete⟩ := hwalk.exists_filterMap (callAt? text)
  refine ⟨sites, ?_, ?_, hwalk.above_first.sublist hsublist,
    (hwalk.pairwise (pairwise_start_walk h)).sublist hsublist⟩
  · rw [collectCalls_eq_filterMap]
    -- the entry at a place is what is found there
    have hentries : List.Forall₂ (fun o o' => ∀ call, o' = some call → o = some call)
        (sites.map fun a => (body.at? a).bind (callAt? text))
        ((body.walk.filterMap (callAt? text)).map some) := by
      rw [← hfound]
      exact List.forall₂_same.mpr fun _ _ _ => id
    rw [List.forall₂_map_left_iff, List.forall₂_map_right_iff] at hentries
    refine hentries.imp fun site call hsite => ?_
    obtain ⟨n, hn, hcall⟩ := Option.bind_eq_some_iff.mp (hsite call rfl)
    exact ⟨n, hn, isEntry_of_callAt? hcall⟩
  · intro site n name hn hrecorded
    obtain ⟨call, hcall, -⟩ := callAt?_iff.mpr hrecorded
    exact hcomplete site n call hn hcall

/-- The bytes of a member called on a cast, with a call for its argument. -/
def castText : Bytes :=
  .ofText "IERC20(token).transfer(fee(x))"

/-- The three calls in them. -/
def castCall : Node :=
  .mk "call_expression" true none 0 30
    [.mk "expression" true (some "function") 0 22
        [.mk "member_expression" true none 0 22
          [.mk "expression" true (some "object") 0 13
              [.mk "call_expression" true none 0 13
                [.mk "expression" true (some "function") 0 6 [.mk "identifier" true none 0 6 []],
                  .mk "(" false none 6 7 [],
                  .mk "call_argument" true none 7 12 [.mk "identifier" true none 7 12 []],
                  .mk ")" false none 12 13 []]],
            .mk "." false none 13 14 [],
            .mk "identifier" true (some "property") 14 22 []]],
      .mk "(" false none 22 23 [],
      .mk "call_argument" true none 23 29
        [.mk "call_expression" true none 23 29
          [.mk "expression" true (some "function") 23 26 [.mk "identifier" true none 23 26 []],
            .mk "(" false none 26 27 [],
            .mk "call_argument" true none 27 28 [.mk "identifier" true none 27 28 []],
            .mk ")" false none 28 29 []]],
      .mk ")" false none 29 30 []]

/-- The call of the member comes first, then the cast in its target, then the call in its
argument. -/
theorem collectCalls_ordered_castCall :
    castCall.Ordered ∧
      ∃ sites : List (List Nat),
        List.Forall₂ (fun site call => ∃ n, castCall.at? site = some n ∧
            IsEntry castText.text n call)
          sites [⟨"transfer", 1⟩, ⟨"IERC20", 1⟩, ⟨"fee", 1⟩] ∧
        (∀ site n name, castCall.at? site = some n → n.RecordedAs castText.text name →
          site ∈ sites) ∧
        (sites.Pairwise fun a b => ¬ b <+: a) ∧
        sites.Pairwise fun a b => ∀ n m, castCall.at? a = some n → castCall.at? b = some m →
          n.start ≤ m.start := by
  have hordered : castCall.Ordered := by decide
  have hcalls : collectCalls castText.text castCall =
      [⟨"transfer", 1⟩, ⟨"IERC20", 1⟩, ⟨"fee", 1⟩] := by
    decide
  have h := collectCalls_ordered castText.text castCall hordered
  rw [hcalls] at h
  exact ⟨hordered, h⟩

end CallAtlas.Source

import CallAtlas.Source.Calls
import Mathlib.Data.List.Basic

/-!
# Comments in syntax trees

A grammar may put comments anywhere, so the calls of a body should be those of the body without its
comments.  Where nodes are found by their field or counted, this is so.  Where the first named node
is taken, a comment may stand in its place: inside of parentheses, and before the target of a call
that has no field of its own for it.  Then a name that stands behind the comment is not found, and
with it goes the call, or the receiver of the member that is called.

* `Node.uncommented`: a node without the comments below it.
* `Node.sites`: the nodes at and below a node, comments apart.
* `Node.bare`: comments have no field and no calls in them.
* `hidden`, `obscured`: whether a comment stands before the name of a target, or of a call site.
* `reveals_spoken`: what the name of a target is without comments.
* `collectCalls_uncommented_iff`: comments make no difference to the calls exactly if no call site
  is obscured, and they never add a call.
-/

namespace CallAtlas.Source

/-! ### Nodes without comments -/

mutual

/-- A node without the comments below it. -/
def Node.uncommented : Node → Node
  | .mk type named field start stop children =>
    .mk type named field start stop (uncommentedAll children)

/-- The nodes that are no comments, without the comments below them. -/
def uncommentedAll : List Node → List Node
  | [] => []
  | c :: cs =>
    if c.type = "comment" then uncommentedAll cs else c.uncommented :: uncommentedAll cs

end

mutual

/-- The nodes at and below a node, comments and what is in them apart. -/
def Node.sites : Node → List Node
  | .mk type named field start stop children =>
    .mk type named field start stop children :: sitesOfAll children

/-- The nodes at and below each of the nodes, comments and what is in them apart. -/
def sitesOfAll : List Node → List Node
  | [] => []
  | c :: cs => (if c.type = "comment" then [] else c.sites) ++ sitesOfAll cs

end

section

variable (b : Bytes)

mutual

/-- Whether the comments below a node have no field and no calls in them. -/
def Node.bare : Node → Bool
  | .mk _ _ _ _ _ children => bareAll children

/-- Whether the comments at and below each of the nodes have no field and no calls in them. -/
def bareAll : List Node → Bool
  | [] => true
  | c :: cs =>
    (if c.type = "comment" then c.field.isNone && (collectCalls b.text c).isEmpty else c.bare) &&
      bareAll cs

end

/-! ### Names of targets -/

/-- The name of a target, empty if it has none. -/
def spoken (n : Node) : String :=
  (callName b.text n).getD ""

/-- The name of the first named node, empty if it has none. -/
def wrapped (cs : List Node) : String :=
  (wrappedName b.text cs).getD ""

/-- The name of the receiver, empty if it has none. -/
def receiver (cs : List Node) : String :=
  (objectName b.text cs).getD ""

/-- The name of a member, behind that of its receiver if this has one. -/
def dotted (base member : String) : String :=
  if base = "" then member else base ++ "." ++ member

mutual

/-- Whether a comment stands before the name of a target. -/
def hidden : Node → Bool
  | .mk type _ _ _ _ children =>
    if type = "expression" || type = "parenthesized_expression" then covered children
    else type = "member_expression" &&
      (children.find? fun c => c.field == some "property").isSome && hiddenReceiver children

/-- Whether a comment stands before the name of the first named node: it is that node, or stands in
it. -/
def covered : List Node → Bool
  | [] => false
  | c :: cs =>
    if c.named then
      if c.type = "comment" then wrapped b (uncommentedAll cs) != "" else hidden c
    else covered cs

/-- Whether a comment stands before the name of the receiver. -/
def hiddenReceiver : List Node → Bool
  | [] => false
  | c :: cs => if c.field = some "object" then hidden c else hiddenReceiver cs

end

/-- Whether a comment stands before the name under which a call site is recorded. -/
def obscured (n : Node) : Bool :=
  if n.type = "call_expression" then (n.child? "function").elim (covered b n.children) (hidden b)
  else n.type = "emit_statement" && (n.child? "name").any (hidden b)

end

/-! ### What stays without comments -/

section

variable {b : Bytes} {n t : Node} {c : Node} {cs : List Node}

theorem Node.type_uncommented (n : Node) : n.uncommented.type = n.type := by
  cases n
  rfl

theorem Node.named_uncommented (n : Node) : n.uncommented.named = n.named := by
  cases n
  rfl

theorem Node.field_uncommented (n : Node) : n.uncommented.field = n.field := by
  cases n
  rfl

theorem text_uncommented (n : Node) : b.text n.uncommented = b.text n := by
  cases n
  rfl

theorem Node.children_uncommented (n : Node) :
    n.uncommented.children = uncommentedAll n.children := by
  cases n
  rfl

theorem uncommentedAll_eq (cs : List Node) : uncommentedAll cs =
    (cs.filter fun c => c.type != "comment").map Node.uncommented := by
  induction cs with
  | nil => rfl
  | cons c cs ih =>
    rw [uncommentedAll, ih]
    split_ifs with hc
    · rw [List.filter_cons_of_neg (by simp [hc])]
    · rw [List.filter_cons_of_pos (by simp [hc]), List.map_cons]

theorem bareAll_cons : bareAll b (c :: cs) = true ↔
    (if c.type = "comment" then c.field = none ∧ collectCalls b.text c = []
      else c.bare b = true) ∧ bareAll b cs = true := by
  rw [bareAll, Bool.and_eq_true]
  split_ifs <;> simp

theorem bareAll_of_bare (h : n.bare b = true) : bareAll b n.children = true := by
  cases n
  exact h

theorem bareAll_iff : bareAll b cs = true ↔ ∀ c ∈ cs,
    if c.type = "comment" then c.field = none ∧ collectCalls b.text c = []
    else c.bare b = true := by
  induction cs with
  | nil => simp [bareAll]
  | cons c cs ih => rw [bareAll_cons, ih, List.forall_mem_cons]

theorem find?_uncommentedAll (h : bareAll b cs = true) (f : String) :
    (uncommentedAll cs).find? (fun c => c.field == some f) =
      (cs.find? fun c => c.field == some f).map Node.uncommented := by
  induction cs with
  | nil => rfl
  | cons c cs ih =>
    obtain ⟨hc, hcs⟩ := bareAll_cons.mp h
    rw [uncommentedAll]
    split_ifs at hc ⊢ with hcomment
    · rw [ih hcs, List.find?_cons_of_neg (by simp [hc.1])]
    · rw [List.find?_cons, List.find?_cons, c.field_uncommented, ih hcs]
      cases c.field == some f <;> rfl

theorem child?_uncommented (h : n.bare b = true) (f : String) :
    n.uncommented.child? f = (n.child? f).map Node.uncommented := by
  rw [Node.child?, n.children_uncommented, find?_uncommentedAll (bareAll_of_bare h), Node.child?]

/-- A node that plays a field is no comment. -/
theorem bare_of_child? (h : n.bare b = true) {f : String} (ht : n.child? f = some t) :
    t.type ≠ "comment" ∧ t.bare b = true := by
  have hfield : t.field = some f := by simpa using List.find?_some ht
  have hbare := bareAll_iff.mp (bareAll_of_bare h) t (List.mem_of_find?_eq_some ht)
  split_ifs at hbare with hcomment
  · rw [hfield] at hbare
    cases hbare.1
  · exact ⟨hcomment, hbare⟩

theorem wrapped_cons : wrapped b (c :: cs) = if c.named then spoken b c else wrapped b cs := by
  rw [wrapped, wrappedName]
  split_ifs <;> rfl

theorem receiver_cons : receiver b (c :: cs) =
    if c.field = some "object" then spoken b c else receiver b cs := by
  rw [receiver, objectName]
  split_ifs <;> rfl

/-- The name of a target, by what it is. -/
theorem spoken_mk (type : String) (named : Bool) (field : Option String) (start stop : Nat)
    (children : List Node) : spoken b (.mk type named field start stop children) =
      if type = "expression" || type = "parenthesized_expression" then wrapped b children
      else if type = "identifier" then b.text (.mk type named field start stop children)
      else if type = "member_expression" then
        (children.find? fun c => c.field == some "property").elim ""
          fun property => dotted (receiver b children) (b.text property)
      else "" := by
  rw [spoken, callName]
  split_ifs
  · rfl
  · rfl
  · rw [receiver]
    cases children.find? fun c => c.field == some "property" with
    | none => rfl
    | some property => cases objectName b.text children <;> rfl
  · rfl

theorem spoken_of_comment (h : n.type = "comment") : spoken b n = "" := by
  obtain ⟨type, named, field, start, stop, children⟩ := n
  obtain rfl : type = "comment" := h
  rw [spoken_mk, if_neg (by decide), if_neg (by decide), if_neg (by decide)]

/-- Members of different receivers have different names. -/
theorem dotted_inj {base base' member : String} (h : dotted base member = dotted base' member) :
    base = base' := by
  have hlength := congrArg String.length h
  rw [dotted, dotted] at h hlength
  split_ifs at h hlength with hbase hbase'
  · rw [hbase, hbase']
  · simp at hlength
  · simp at hlength
  · simpa using h

/-! ### What is found without comments -/

/-- What a name is without comments: where a comment stood before it, there is now a name and
another one; otherwise it stays. -/
def Reveals (hides : Bool) (name name' : String) : Prop :=
  if hides then name' ≠ "" ∧ name' ≠ name else name' = name

theorem Reveals.dotted {hides : Bool} {base base' : String} (h : Reveals hides base base')
    (member : String) : Reveals hides (dotted base member) (dotted base' member) := by
  rw [Reveals] at h ⊢
  split_ifs at h ⊢
  · refine ⟨?_, fun heq => h.2 (dotted_inj heq)⟩
    rw [Source.dotted, if_neg h.1]
    simp
  · rw [h]

mutual

/-- What the name of a target is without comments. -/
theorem reveals_spoken : ∀ {n : Node}, n.bare b = true →
    Reveals (hidden b n) (spoken b n) (spoken b n.uncommented)
  | .mk type named field start stop children, h => by
    rw [hidden, Node.uncommented, spoken_mk, spoken_mk]
    by_cases hwrapper : (type = "expression" || type = "parenthesized_expression") = true
    · rw [if_pos hwrapper, if_pos hwrapper, if_pos hwrapper]
      exact reveals_wrapped h
    · rw [if_neg hwrapper, if_neg hwrapper, if_neg hwrapper]
      by_cases hmember : type = "member_expression"
      · subst hmember
        rw [if_neg (by decide), if_pos rfl, if_neg (by decide), if_pos rfl,
          find?_uncommentedAll h]
        cases children.find? fun c => c.field == some "property" with
        | none => rfl
        | some property =>
          have hreceiver := (reveals_receiver h).dotted (b.text property)
          simpa [text_uncommented] using hreceiver
      · -- an identifier or something without a name
        simp only [hmember, decide_false, Bool.false_and, if_false]
        rfl

/-- What the name of the first named node is without comments. -/
theorem reveals_wrapped : ∀ {cs : List Node}, bareAll b cs = true →
    Reveals (covered b cs) (wrapped b cs) (wrapped b (uncommentedAll cs))
  | [], _ => rfl
  | c :: cs, h => by
    obtain ⟨hc, hcs⟩ := bareAll_cons.mp h
    rw [covered, uncommentedAll, wrapped_cons]
    by_cases hcomment : c.type = "comment"
    · rw [if_pos hcomment, if_pos hcomment]
      split_ifs
      · -- the comment has no name, so any name behind it is another one
        rw [spoken_of_comment hcomment, Reveals]
        split_ifs with hname
        · exact ⟨by simpa using hname, by simpa using hname⟩
        · simpa using hname
      · exact reveals_wrapped hcs
    · rw [if_neg hcomment] at hc
      rw [if_neg hcomment, if_neg hcomment, wrapped_cons, c.named_uncommented]
      split_ifs
      · exact reveals_spoken hc
      · exact reveals_wrapped hcs

/-- What the name of the receiver is without comments. -/
theorem reveals_receiver : ∀ {cs : List Node}, bareAll b cs = true →
    Reveals (hiddenReceiver b cs) (receiver b cs) (receiver b (uncommentedAll cs))
  | [], _ => rfl
  | c :: cs, h => by
    obtain ⟨hc, hcs⟩ := bareAll_cons.mp h
    rw [hiddenReceiver, uncommentedAll, receiver_cons]
    by_cases hcomment : c.type = "comment"
    · -- a comment plays no field, so it is passed over in either list
      rw [if_pos hcomment] at hc ⊢
      have hfield : c.field ≠ some "object" := by simp [hc.1]
      rw [if_neg hfield, if_neg hfield]
      exact reveals_receiver hcs
    · rw [if_neg hcomment] at hc ⊢
      rw [receiver_cons, c.field_uncommented]
      split_ifs
      · exact reveals_spoken hc
      · exact reveals_receiver hcs

end

/-! ### Call sites -/

/-- The name under which a call site is recorded, empty if it is not. -/
def siteName (b : Bytes) (n : Node) : String :=
  if n.type = "call_expression" then (n.child? "function").elim (wrapped b n.children) (spoken b)
  else if n.type = "emit_statement" then (n.child? "name").elim "" (spoken b)
  else ""

/-- How many arguments are recorded for a call site. -/
def siteArguments (n : Node) : Nat :=
  if n.type = "call_expression" then
    (n.namedChildren.filter fun c => c.type != "comment").length -
      (n.child? "function").elim 1 fun t => if t.named && t.type != "comment" then 1 else 0
  else (n.namedChildren.filter fun c => c.type == "call_argument").length

theorem wrapped_eq (cs : List Node) :
    wrapped b cs = (cs.filter Node.named).head?.elim "" (spoken b) := by
  induction cs with
  | nil => rfl
  | cons c cs ih =>
    rw [wrapped_cons, ih]
    split_ifs with hnamed
    · rw [List.filter_cons_of_pos hnamed]
      rfl
    · rw [List.filter_cons_of_neg hnamed]

theorem recorded_eq (t : Node) (arguments : Nat) :
    ((callName b.text t).bind fun name =>
        if name = "" then none else some (Call.mk name arguments)) =
      if spoken b t = "" then none else some ⟨spoken b t, arguments⟩ := by
  rw [spoken]
  cases callName b.text t <;> rfl

/-- A call site is recorded if it has a name. -/
theorem callAt?_eq (n : Node) : callAt? b.text n =
    if siteName b n = "" then none else some ⟨siteName b n, siteArguments n⟩ := by
  rw [callAt?, siteName, siteArguments]
  by_cases hcall : n.type = "call_expression"
  · rw [if_pos hcall, if_pos hcall, if_pos hcall, callTarget?]
    cases hfunction : n.child? "function" with
    | some t => exact recorded_eq t (argumentCount n t)
    | none =>
      rw [Option.none_or, wrapped_eq, ← Node.namedChildren]
      cases hfirst : n.namedChildren.head? with
      | none => rfl
      | some t =>
        refine (recorded_eq t (argumentCount n t)).trans ?_
        by_cases hname : spoken b t = ""
        · simp [hname]
        · -- what has a name is no comment
          have hnamed : t.named = true :=
            (List.mem_filter.mp (List.mem_of_mem_head? hfirst)).2
          have hcomment : t.type ≠ "comment" := fun h => hname (spoken_of_comment h)
          simp [hname, argumentCount, hnamed, hcomment]
  · rw [if_neg hcall, if_neg hcall, if_neg hcall]
    by_cases hemit : n.type = "emit_statement"
    · rw [if_pos hemit, if_pos hemit]
      cases n.child? "name" with
      | none => rfl
      | some t => exact recorded_eq t _
    · rw [if_neg hemit, if_neg hemit]
      rfl

/-- Named nodes of a type other than comments are counted alike. -/
theorem length_filter_uncommented (n : Node) {counts : String → Bool}
    (hcounts : counts "comment" = false) :
    (n.uncommented.namedChildren.filter fun c => counts c.type).length =
      (n.namedChildren.filter fun c => counts c.type).length := by
  have hchildren : n.uncommented.children =
      (n.children.filter fun c => c.type != "comment").map Node.uncommented := by
    rw [n.children_uncommented, uncommentedAll_eq]
  simp only [Node.namedChildren, hchildren, List.filter_map, List.length_map, List.filter_filter]
  refine congrArg List.length (List.filter_congr fun c _ => ?_)
  by_cases hcomment : c.type = "comment"
  · simp [c.type_uncommented, hcomment, hcounts]
  · have hkept : (c.type != "comment") = true := bne_iff_ne.mpr hcomment
    simp [c.type_uncommented, c.named_uncommented, hkept]

theorem siteArguments_uncommented (h : n.bare b = true) :
    siteArguments n.uncommented = siteArguments n := by
  rw [siteArguments, siteArguments, n.type_uncommented, child?_uncommented h,
    @length_filter_uncommented n (fun type => type != "comment") rfl,
    @length_filter_uncommented n (fun type => type == "call_argument") rfl]
  cases n.child? "function" with
  | none => rfl
  | some t => rw [Option.map_some, Option.elim_some, Option.elim_some, t.named_uncommented,
      t.type_uncommented]

theorem reveals_siteName (h : n.bare b = true) :
    Reveals (obscured b n) (siteName b n) (siteName b n.uncommented) := by
  rw [obscured, siteName, siteName, n.type_uncommented, child?_uncommented h, child?_uncommented h]
  by_cases hcall : n.type = "call_expression"
  · rw [if_pos hcall, if_pos hcall, if_pos hcall]
    cases hfunction : n.child? "function" with
    | none =>
      rw [n.children_uncommented]
      exact reveals_wrapped (bareAll_of_bare h)
    | some t => exact reveals_spoken (bare_of_child? h hfunction).2
  · rw [if_neg hcall, if_neg hcall, if_neg hcall]
    by_cases hemit : n.type = "emit_statement"
    · rw [if_pos hemit, if_pos hemit, hemit]
      cases hname : n.child? "name" with
      | none => rfl
      | some t => exact reveals_spoken (bare_of_child? h hname).2
    · simp only [hemit, decide_false, Bool.false_and, if_false]
      rfl

/-- Without comments a call site that is recorded still is, with as many arguments. -/
theorem exists_callAt?_uncommented (h : n.bare b = true) {call : Call}
    (hcall : callAt? b.text n = some call) :
    ∃ call', callAt? b.text n.uncommented = some call' ∧ call'.arguments = call.arguments := by
  have hreveals := reveals_siteName h
  rw [callAt?_eq] at hcall ⊢
  split_ifs at hcall with hname
  obtain rfl := Option.some.inj hcall
  rw [Reveals] at hreveals
  have hname' : siteName b n.uncommented ≠ "" := by
    split_ifs at hreveals
    · exact hreveals.1
    · rwa [hreveals]
  rw [if_neg hname', siteArguments_uncommented h]
  exact ⟨_, rfl, rfl⟩

/-- A call site is recorded alike without comments exactly if it is not obscured. -/
theorem callAt?_uncommented_iff (h : n.bare b = true) :
    callAt? b.text n.uncommented = callAt? b.text n ↔ obscured b n = false := by
  have hreveals := reveals_siteName h
  rw [callAt?_eq, callAt?_eq, siteArguments_uncommented h]
  cases hobscured : obscured b n with
  | false =>
    rw [hobscured] at hreveals
    have hname : siteName b n.uncommented = siteName b n := hreveals
    simp [hname]
  | true =>
    rw [hobscured] at hreveals
    obtain ⟨hname, hne⟩ : siteName b n.uncommented ≠ "" ∧ siteName b n.uncommented ≠ siteName b n :=
      hreveals
    rw [if_neg hname]
    split_ifs
    · simp
    · simp [hne]

/-! ### All call sites -/

mutual

theorem bare_of_mem_sites {m : Node} : ∀ {n : Node}, n.bare b = true → m ∈ n.sites →
    m.bare b = true
  | .mk type named field start stop children, h, hm => by
    rw [Node.sites, List.mem_cons] at hm
    rcases hm with rfl | hm
    · exact h
    · exact bare_of_mem_sitesOfAll h hm

theorem bare_of_mem_sitesOfAll {m : Node} : ∀ {cs : List Node}, bareAll b cs = true →
    m ∈ sitesOfAll cs → m.bare b = true
  | [], _, hm => by cases hm
  | c :: cs, h, hm => by
    obtain ⟨hc, hcs⟩ := bareAll_cons.mp h
    rw [sitesOfAll, List.mem_append] at hm
    rcases hm with hm | hm
    · split_ifs at hc hm
      · cases hm
      · exact bare_of_mem_sites hc hm
    · exact bare_of_mem_sitesOfAll hcs hm

end

mutual

theorem collectCalls_eq : ∀ {n : Node}, n.bare b = true →
    collectCalls b.text n = n.sites.filterMap (callAt? b.text)
  | .mk type named field start stop children, h => by
    rw [collectCalls, Node.sites, List.filterMap_cons, collectCallsOfAll_eq h]
    cases callAt? b.text (.mk type named field start stop children) <;> rfl

theorem collectCallsOfAll_eq : ∀ {cs : List Node}, bareAll b cs = true →
    collectCallsOfAll b.text cs = (sitesOfAll cs).filterMap (callAt? b.text)
  | [], _ => rfl
  | c :: cs, h => by
    obtain ⟨hc, hcs⟩ := bareAll_cons.mp h
    rw [collectCallsOfAll, sitesOfAll, List.filterMap_append, collectCallsOfAll_eq hcs]
    split_ifs at hc ⊢
    · rw [hc.2, List.filterMap_nil]
    · rw [collectCalls_eq hc]

end

mutual

theorem collectCalls_uncommented : ∀ n : Node,
    collectCalls b.text n.uncommented = n.sites.filterMap fun m => callAt? b.text m.uncommented
  | .mk type named field start stop children => by
    rw [Node.uncommented, collectCalls, Node.sites, List.filterMap_cons,
      collectCallsOfAll_uncommented children, Node.uncommented]
    cases callAt? b.text (.mk type named field start stop (uncommentedAll children)) <;> rfl

theorem collectCallsOfAll_uncommented : ∀ cs : List Node,
    collectCallsOfAll b.text (uncommentedAll cs) =
      (sitesOfAll cs).filterMap fun m => callAt? b.text m.uncommented
  | [] => rfl
  | c :: cs => by
    rw [uncommentedAll, sitesOfAll, List.filterMap_append, ← collectCallsOfAll_uncommented cs]
    split_ifs
    · rw [List.filterMap_nil, List.nil_append]
    · rw [collectCallsOfAll, collectCalls_uncommented c]

end

section

variable {f g : Node → Option Call} {ms : List Node}

theorem sublist_filterMap (h : ∀ m ∈ ms, ∀ call, f m = some call →
      ∃ call', g m = some call' ∧ call'.arguments = call.arguments) :
    ((ms.filterMap f).map (·.arguments)).Sublist ((ms.filterMap g).map (·.arguments)) := by
  induction ms with
  | nil => exact List.Sublist.slnil
  | cons m ms ih =>
    rw [List.forall_mem_cons] at h
    cases hf : f m with
    | none =>
      rw [List.filterMap_cons_none hf]
      refine (ih h.2).trans (List.Sublist.map _ ?_)
      exact (List.sublist_cons_self m ms).filterMap g
    | some call =>
      obtain ⟨call', hg, harguments⟩ := h.1 call hf
      rw [List.filterMap_cons_some hf, List.filterMap_cons_some hg, List.map_cons, List.map_cons,
        harguments]
      exact (ih h.2).cons_cons _

/-- If no call is lost, then the calls are the same only if each of them is. -/
theorem filterMap_eq_iff (h : ∀ m ∈ ms, ∀ call, f m = some call →
      ∃ call', g m = some call' ∧ call'.arguments = call.arguments) :
    ms.filterMap g = ms.filterMap f ↔ ∀ m ∈ ms, g m = f m := by
  refine ⟨fun heq => ?_, List.filterMap_congr⟩
  induction ms with
  | nil => simp
  | cons m ms ih =>
    rw [List.forall_mem_cons] at h ⊢
    cases hf : f m with
    | none =>
      cases hg : g m with
      | none =>
        rw [List.filterMap_cons_none hf, List.filterMap_cons_none hg] at heq
        exact ⟨rfl, ih h.2 heq⟩
      | some call' =>
        -- one call more, and none less behind it
        have hlength := (sublist_filterMap h.2).length_le
        rw [List.filterMap_cons_none hf, List.filterMap_cons_some hg] at heq
        rw [← heq, List.length_map, List.length_map, List.length_cons] at hlength
        omega
    | some call =>
      obtain ⟨call', hg, -⟩ := h.1 call hf
      rw [List.filterMap_cons_some hf, List.filterMap_cons_some hg] at heq
      obtain ⟨rfl, hrest⟩ := List.cons.inj heq
      exact ⟨hg, ih h.2 hrest⟩

end

/-- Comments that have no field and no calls in them make no difference to the calls of a body,
their names, arguments and order, exactly if none stands before the name of a call site: as first
named node in parentheses around a target or its receiver, or before a target that has no field of
its own, with a name behind it.  In any case no call is there because of a comment: without comments
those that are found have as many arguments, in the same order, with others between them at most. -/
theorem collectCalls_uncommented_iff (b : Bytes) (n : Node) (h : n.bare b = true) :
    ((collectCalls b.text n).map (·.arguments)).Sublist
        ((collectCalls b.text n.uncommented).map (·.arguments)) ∧
      (collectCalls b.text n.uncommented = collectCalls b.text n ↔
        ∀ m ∈ n.sites, obscured b m = false) := by
  have hkept : ∀ m ∈ n.sites, ∀ call, callAt? b.text m = some call →
      ∃ call', callAt? b.text m.uncommented = some call' ∧ call'.arguments = call.arguments :=
    fun m hm call hcall => exists_callAt?_uncommented (bare_of_mem_sites h hm) hcall
  rw [collectCalls_eq h, collectCalls_uncommented]
  refine ⟨sublist_filterMap hkept, (filterMap_eq_iff hkept).trans ?_⟩
  exact forall₂_congr fun m hm => callAt?_uncommented_iff (bare_of_mem_sites h hm)

end

/-- The bytes of a call with a comment in parentheses around its target. -/
def commentedText : Bytes :=
  .ofText "(/* c */ foo)(1)"

/-- The call of `foo` in them. -/
def commentedCall : Node :=
  .mk "call_expression" true none 0 16
    [.mk "expression" true (some "function") 0 13
        [.mk "parenthesized_expression" true none 0 13
          [.mk "(" false none 0 1 [], .mk "comment" true none 1 8 [],
            .mk "expression" true none 9 12 [.mk "identifier" true none 9 12 []],
            .mk ")" false none 12 13 []]],
      .mk "(" false none 13 14 [],
      .mk "call_argument" true none 14 15 [.mk "number_literal" true none 14 15 []],
      .mk ")" false none 15 16 []]

/-- The comment takes the place of the name, and the call is not found. -/
theorem collectCalls_uncommented_iff_commentedCall :
    commentedCall.bare commentedText = true ∧
      collectCalls commentedText.text commentedCall = [] ∧
      collectCalls commentedText.text commentedCall.uncommented = [⟨"foo", 1⟩] ∧
      ¬∀ m ∈ commentedCall.sites, obscured commentedText m = false := by
  have hbare : commentedCall.bare commentedText = true := by decide
  have hcalls : collectCalls commentedText.text commentedCall = [] := by decide
  have hcalls' : collectCalls commentedText.text commentedCall.uncommented = [⟨"foo", 1⟩] := by
    decide
  refine ⟨hbare, hcalls, hcalls', fun hclear => ?_⟩
  have heq := (collectCalls_uncommented_iff commentedText commentedCall hbare).2.mpr hclear
  rw [hcalls, hcalls'] at heq
  cases heq

end CallAtlas.Source

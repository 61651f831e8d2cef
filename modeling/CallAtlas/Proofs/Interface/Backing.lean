import CallAtlas.Proofs.Interface.Handles
import CallAtlas.Proofs.Interface.Merging

/-!
# What stands behind an edge

Four patterns find edges in different ways, but each edge can be traced back to the text and to the
known declarations.

* `Backed text entities e`: what an edge can be traced back to, by the pattern that found it.
* `backed_of_mem_edges`: every pattern finds such edges only.
* `mem_methodEdges_of_callsMember`: the methods of interfaces are found on receivers that are not
  reserved.
* `detect_backed`: patterns together find such edges only, and on reserved receivers no handles and
  no methods.
-/

namespace CallAtlas.Interface

open CallAtlas.Text

/-- The text in which a pattern looks for calls: without comments and, for called names, without the
heads of declarations. -/
def searched (pattern text : String) : List Char :=
  if pattern = "byname" then replaceHits declarationHead (stripComments text.toList)
  else stripComments text.toList

/-- What an edge can be traced back to. -/
structure Backed (text : String) (entities : List Entity) (e : Edge) : Prop where
  pattern_mem : e.pattern ∈ Pattern.all.map Pattern.name
  /-- The method is called in the text. -/
  called : Called (searched e.pattern text) e.method.toList
  /-- The definition is one of the declarations, and declares the method. -/
  known : ∀ d, e.definition = some d → d ∈ entities ∧ d.name = e.method ∧ d.kind ≠ .event
  /-- Where the text names the interface, the definition is in a file of that name. -/
  named : e.pattern = "direct" ∨ e.pattern = "variable" →
    ∀ d, e.definition = some d → contains (Path.basename d.file) e.interface = true
  /-- Otherwise the definition names it. -/
  owned : e.pattern = "method" ∨ e.pattern = "byname" →
    ∃ d, e.definition = some d ∧ d.ownerName = e.interface
  /-- A method is declared in the file of an interface, or can be called from outside. -/
  offered : e.pattern = "method" →
    ∀ d, e.definition = some d → looksLikeInterface d.file = true ∨ d.visibility = "external"
  /-- A called name is that of a function in the file of an interface. -/
  declared : e.pattern = "byname" →
    ∀ d, e.definition = some d → d.kind = .function ∧ looksLikeInterface d.file = true
  /-- Handles and methods are called on a receiver that is not reserved. -/
  received : e.pattern = "variable" ∨ e.pattern = "method" → ∃ receiver,
    receiver ∉ reservedReceivers ∧ CallsMember (stripComments text.toList) receiver e.method.toList

section

variable {text : String} {entities : List Entity} {e : Edge}

theorem of_memberInFile? {method fragment : String} {d : Entity}
    (h : memberInFile? entities method fragment = some d) :
    (d ∈ entities ∧ d.name = method ∧ d.kind ≠ .event) ∧
      contains (Path.basename d.file) fragment = true := by
  have hfound := List.find?_some h
  simp only [Bool.and_eq_true, beq_iff_eq, bne_iff_ne] at hfound
  exact ⟨⟨List.mem_of_find?_eq_some h, hfound.1.1, hfound.1.2⟩, hfound.2⟩

theorem of_interfaceMethod? {method : String} {d : Entity}
    (h : interfaceMethod? entities method = some d) :
    (d ∈ entities ∧ d.name = method ∧ d.kind ≠ .event) ∧
      (looksLikeInterface d.file = true ∨ d.visibility = "external") := by
  have hfound := List.find?_some h
  simp only [Bool.and_eq_true, Bool.or_eq_true, beq_iff_eq, bne_iff_ne] at hfound
  exact ⟨⟨List.mem_of_find?_eq_some h, hfound.1.1, hfound.1.2⟩, hfound.2⟩

/-! ### The four patterns -/

theorem backed_of_mem_directEdges (h : e ∈ directEdges text entities) :
    Backed text entities e := by
  obtain ⟨call, hcall, rfl⟩ := List.mem_map.mp h
  have hcalled := called_of_mem_hits_directCast hcall
  exact {
    pattern_mem := List.mem_map_of_mem (a := Pattern.direct) (by simp [Pattern.all])
    called := by simpa [searched] using hcalled
    known := fun d hd => (of_memberInFile? hd).1
    named := fun _ d hd => (of_memberInFile? hd).2
    owned := by simp
    offered := by simp
    declared := by simp
    received := by simp }

theorem backed_of_mem_handleEdges (h : e ∈ handleEdges text entities) :
    Backed text entities e := by
  obtain ⟨d, method, hyields, rfl⟩ := mem_handleEdges_iff.mp h
  have hcalled := hyields.calls.called
  exact {
    pattern_mem := List.mem_map_of_mem (a := Pattern.handle) (by simp [Pattern.all])
    called := by simpa [searched, handleEdge] using hcalled
    known := fun d hd => (of_memberInFile? hd).1
    named := fun _ d hd => (of_memberInFile? hd).2
    owned := by simp [handleEdge]
    offered := by simp [handleEdge]
    declared := by simp [handleEdge]
    received := fun _ => ⟨d.name, hyields.not_reserved, by simpa [handleEdge] using hyields.calls⟩ }

theorem backed_of_mem_methodEdges (h : e ∈ methodEdges text entities) :
    Backed text entities e := by
  obtain ⟨call, hcall, he⟩ := List.mem_filterMap.mp h
  split_ifs at he with hreserved
  obtain ⟨d, hd, rfl⟩ := Option.map_eq_some_iff.mp he
  rw [mem_hits_memberCall] at hcall
  have hcalled := hcall.called
  have hfound := of_interfaceMethod? hd
  exact {
    pattern_mem := List.mem_map_of_mem (a := Pattern.member) (by simp [Pattern.all])
    called := by simpa [searched] using hcalled
    known := by
      rintro d' ⟨⟩
      exact hfound.1
    named := by simp
    owned := fun _ => ⟨d, rfl, rfl⟩
    offered := by
      rintro - d' ⟨⟩
      exact hfound.2
    declared := by simp
    received := fun _ => ⟨call.receiver, by simpa using hreserved, by simpa using hcall⟩ }

/-- A method that an interface declares has an edge if it is called on a receiver that is not
reserved. -/
theorem mem_methodEdges_of_callsMember {receiver method : List Char} {d : Entity}
    (hfree : receiver ∉ reservedReceivers)
    (hcalls : CallsMember (stripComments text.toList) receiver method)
    (hd : interfaceMethod? entities (String.ofList method) = some d) :
    Edge.of d.ownerName (String.ofList method) "method" (some d) ∈ methodEdges text entities := by
  refine List.mem_filterMap.mpr ⟨⟨receiver, method⟩, mem_hits_memberCall.mpr hcalls, ?_⟩
  simp [hfree, hd]

theorem backed_of_mem_nameEdges (h : e ∈ nameEdges text entities) :
    Backed text entities e := by
  simp only [nameEdges, List.mem_map, List.mem_filter, Bool.and_eq_true, beq_iff_eq] at h
  obtain ⟨d, ⟨hd, ⟨hkind, hfile⟩, hcalls⟩, rfl⟩ := h
  exact {
    pattern_mem := List.mem_map_of_mem (a := Pattern.byName) (by simp [Pattern.all])
    called := by simpa [searched] using called_of_callsName hcalls
    known := by
      rintro d' ⟨⟩
      exact ⟨hd, rfl, by rw [hkind]; decide⟩
    named := by simp
    owned := fun _ => ⟨d, rfl, rfl⟩
    offered := by simp
    declared := by
      rintro - d' ⟨⟩
      exact ⟨hkind, hfile⟩
    received := by simp }

theorem backed_of_mem_edges {p : Pattern} (hp : p ∈ Pattern.all) (h : e ∈ p.edges text entities) :
    Backed text entities e := by
  simp only [Pattern.all, List.mem_cons, List.not_mem_nil, or_false] at hp
  rcases hp with rfl | rfl | rfl | rfl
  · exact backed_of_mem_directEdges h
  · exact backed_of_mem_handleEdges h
  · exact backed_of_mem_methodEdges h
  · exact backed_of_mem_nameEdges h

/-- Every pattern names its edges for the interface and the method. -/
theorem named_of_mem_edges {p : Pattern} (hp : p ∈ Pattern.all) (h : e ∈ p.edges text entities) :
    e.callee = e.interface ++ "." ++ e.method ∧ e.kind = .interface := by
  simp only [Pattern.all, List.mem_cons, List.not_mem_nil, or_false] at hp
  rcases hp with rfl | rfl | rfl | rfl
  · obtain ⟨call, -, rfl⟩ := List.mem_map.mp h
    exact ⟨rfl, rfl⟩
  · obtain ⟨d, method, -, rfl⟩ := mem_handleEdges_iff.mp h
    exact ⟨rfl, rfl⟩
  · obtain ⟨call, -, he⟩ := List.mem_filterMap.mp h
    split_ifs at he
    obtain ⟨d, -, rfl⟩ := Option.map_eq_some_iff.mp he
    exact ⟨rfl, rfl⟩
  · obtain ⟨d, -, rfl⟩ := List.mem_map.mp h
    exact ⟨rfl, rfl⟩

/-! ### Detection -/

/-- Whatever is found was seen by one of the patterns. -/
theorem exists_pattern_of_mem_detect {patterns : List Pattern} {caller : String}
    (h : e ∈ detect patterns text entities caller) :
    ∃ p ∈ patterns, ∃ seen ∈ p.edges text entities, e = { seen with caller := caller } := by
  rw [detect_eq_merged, mem_merged_iff] at h
  obtain ⟨front, t, rest, hplace, -, rfl⟩ := h
  have hmem : t ∈ sightings patterns text entities := by
    rw [hplace]
    exact List.mem_append_right _ List.mem_cons_self
  obtain ⟨p, hp, hseen⟩ := List.mem_flatMap.mp hmem
  obtain ⟨seen, hedge, rfl⟩ := List.mem_map.mp hseen
  exact ⟨p, hp, seen, hedge, rfl⟩

/-- What a pattern sees that skips nothing is found under its name. -/
theorem exists_mem_detect_of_mem_edges {patterns : List Pattern} {p : Pattern} (hp : p ∈ patterns)
    (hskips : p.skipsKnownMethods = false) (h : e ∈ p.edges text entities) (caller : String) :
    ∃ f ∈ detect patterns text entities caller, f.callee = e.callee := by
  have hseen : (⟨p, e⟩ : Sighting) ∈ sightings patterns text entities :=
    List.mem_flatMap.mpr ⟨p, hp, List.mem_map_of_mem h⟩
  obtain ⟨front, rest, hplace⟩ := List.append_of_mem hseen
  have hcounts : ¬ (⟨p, e⟩ : Sighting).Skipped caller front := by
    rintro ⟨hskipping, -⟩
    rw [hskips] at hskipping
    cases hskipping
  have hname := mem_callee_merged_iff.mpr ⟨front, ⟨p, e⟩, rest, hplace, rfl, hcounts⟩
  rw [← detect_eq_merged] at hname
  exact List.mem_map.mp hname

/-- Who makes the call plays no part. -/
theorem Backed.of_caller (h : Backed text entities e) (caller : String) :
    Backed text entities { e with caller := caller } where
  pattern_mem := h.pattern_mem
  called := h.called
  known := h.known
  named := h.named
  owned := h.owned
  offered := h.offered
  declared := h.declared
  received := h.received

end

/-- **Every edge is backed by the text and the declarations.**  It is a call through an interface,
is named for the interface and the method, and can be traced back to what the text says and to one
of the declarations.  Where all receivers of a method are reserved, no edge for that method is found
by a handle or as a method.  On any other receiver, a method that an interface declares is found. -/
theorem detect_backed {patterns : List Pattern} (hpatterns : ∀ p ∈ patterns, p ∈ Pattern.all)
    (text : String) (entities : List Entity) (caller : String) :
    (∀ e ∈ detect patterns text entities caller,
        e.callee = e.interface ++ "." ++ e.method ∧ e.kind = .interface ∧
          Backed text entities e) ∧
      (∀ method : String,
        (∀ receiver, CallsMember (stripComments text.toList) receiver method.toList →
          receiver ∈ reservedReceivers) →
        ∀ e ∈ detect patterns text entities caller, e.method = method →
          e.pattern ≠ "variable" ∧ e.pattern ≠ "method") ∧
      (Pattern.member ∈ patterns → ∀ (receiver method : List Char) (d : Entity),
        receiver ∉ reservedReceivers →
        CallsMember (stripComments text.toList) receiver method →
        interfaceMethod? entities (String.ofList method) = some d →
        ∃ e ∈ detect patterns text entities caller,
          e.callee = d.ownerName ++ "." ++ String.ofList method) := by
  have hbacked : ∀ e ∈ detect patterns text entities caller,
      e.callee = e.interface ++ "." ++ e.method ∧ e.kind = .interface ∧ Backed text entities e := by
    intro e he
    obtain ⟨p, hp, seen, hseen, rfl⟩ := exists_pattern_of_mem_detect he
    -- merging only notes who makes the call
    obtain ⟨hcallee, hkind⟩ := named_of_mem_edges (hpatterns p hp) hseen
    exact ⟨hcallee, hkind, (backed_of_mem_edges (hpatterns p hp) hseen).of_caller caller⟩
  refine ⟨hbacked, ?_, ?_⟩
  · rintro method hreserved e he rfl
    rw [← not_or]
    intro hpattern
    obtain ⟨receiver, hfree, hcalls⟩ := (hbacked e he).2.2.received hpattern
    exact hfree (hreserved receiver hcalls)
  · intro hmember receiver method d hfree hcalls hd
    exact exists_mem_detect_of_mem_edges hmember rfl
      (mem_methodEdges_of_callsMember hfree hcalls hd) caller

/-- A text with one call for each pattern, and one on a reserved receiver. -/
def marketText : String :=
  "IERC20(t).transferFrom(a); IOracle o = IOracle(x); o.getValue(); vault.sweep(); " ++
    "balanceOf(u); this.hidden();"

/-- A function of a contract, in a file of the same name. -/
def functionOf (contract name visibility : String) : Entity :=
  { name := name
    signature := name ++ "()"
    file := "contracts/" ++ contract ++ ".sol"
    contract := contract
    visibility := visibility }

/-- The known declarations. -/
def marketEntities : List Entity :=
  [functionOf "IERC20" "transferFrom" "internal", functionOf "IOracle" "getValue" "internal",
    functionOf "Vault" "sweep" "external", functionOf "IERC20" "balanceOf" "internal",
    functionOf "IVault" "hidden" "external"]

/-- The edges found in the text. -/
def marketEdges : List Edge :=
  detect Pattern.all marketText marketEntities "run"

/-- The edge for the call on a reserved receiver. -/
def hiddenEdge : Edge :=
  { Edge.of "IVault" "hidden" "byname" (some (functionOf "IVault" "hidden" "external")) with
    caller := "run" }

theorem marketEdges_found :
    marketEdges.map (fun e => (e.callee, e.pattern)) =
        [("IERC20.transferFrom", "direct"), ("IOracle.getValue", "variable"),
          ("Vault.sweep", "method"), ("IERC20.balanceOf", "byname"), ("IVault.hidden", "byname")] ∧
      hiddenEdge ∈ marketEdges ∧
      hits memberCall (stripComments marketText.toList) =
        [⟨"o".toList, "getValue".toList⟩, ⟨"vault".toList, "sweep".toList⟩,
          ⟨"this".toList, "hidden".toList⟩] ∧
      interfaceMethod? marketEntities (String.ofList "sweep".toList) =
        some (functionOf "Vault" "sweep" "external") ∧
      (functionOf "Vault" "sweep" "external").ownerName = "Vault" := by
  decide +kernel

/-- Each pattern finds its call, and the one on the reserved receiver is found by its name only. -/
theorem detect_backed_marketEdges :
    (∀ p ∈ Pattern.all, p ∈ Pattern.all) ∧
      marketEdges.map (fun e => (e.callee, e.pattern)) =
        [("IERC20.transferFrom", "direct"), ("IOracle.getValue", "variable"),
          ("Vault.sweep", "method"), ("IERC20.balanceOf", "byname"), ("IVault.hidden", "byname")] ∧
      (∀ e ∈ marketEdges, Backed marketText marketEntities e) ∧
      (∀ receiver, CallsMember (stripComments marketText.toList) receiver hiddenEdge.method.toList →
        receiver ∈ reservedReceivers) ∧
      (hiddenEdge ∈ marketEdges ∧ hiddenEdge.pattern ≠ "variable" ∧ hiddenEdge.pattern ≠ "method") ∧
      CallsMember (stripComments marketText.toList) "vault".toList "sweep".toList ∧
      ∃ e ∈ marketEdges, e.callee = "Vault" ++ "." ++ "sweep" := by
  obtain ⟨hfound, hhidden, hcalls, hsweep, howner⟩ := marketEdges_found
  obtain ⟨hbacked, hreserved, hoffered⟩ :=
    detect_backed (fun p (hp : p ∈ Pattern.all) => hp) marketText marketEntities "run"
  -- the one call of the member is on `this`
  have honly : ∀ receiver,
      CallsMember (stripComments marketText.toList) receiver hiddenEdge.method.toList →
        receiver ∈ reservedReceivers := by
    intro receiver hcall
    have hmem : (⟨receiver, "hidden".toList⟩ : MemberCall) ∈
        hits memberCall (stripComments marketText.toList) := mem_hits_memberCall.mpr hcall
    have hthis : receiver = "this".toList := by
      rw [hcalls] at hmem
      simpa using hmem
    rw [hthis]
    decide
  have hvault : CallsMember (stripComments marketText.toList) "vault".toList "sweep".toList := by
    have hmem : (⟨"vault".toList, "sweep".toList⟩ : MemberCall) ∈
        hits memberCall (stripComments marketText.toList) := by
      rw [hcalls]
      exact List.mem_cons_of_mem _ List.mem_cons_self
    exact mem_hits_memberCall.mp hmem
  refine ⟨fun p hp => hp, hfound, fun e he => (hbacked e he).2.2, honly, ⟨hhidden, ?_⟩, hvault, ?_⟩
  · exact hreserved _ honly hiddenEdge hhidden rfl
  · -- the call of the other member is on a name that is free
    have hmember : Pattern.member ∈ Pattern.all := by simp [Pattern.all]
    obtain ⟨e, he, hcallee⟩ := hoffered hmember _ _ _ (by decide) hvault hsweep
    rw [howner, String.ofList_toList] at hcallee
    exact ⟨e, he, hcallee⟩

end CallAtlas.Interface

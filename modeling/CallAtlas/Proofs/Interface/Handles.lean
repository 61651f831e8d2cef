import CallAtlas.Proofs.Interface.CallTexts

/-!
# Handles and what they are declared with

A handle has the type it was last declared with.  A declaration names a type and, for the value,
something that is called; the two need not be the same.  Edges are made for the type, whatever is
called.

* `Declares s d`: the declaration stands in the text.
* `Counts s d`: it is the last that is found of its name.
* `Yields s d method`: it counts, its name is not reserved, and the method is called on it.
* `mem_handleEdges_iff`: the edges are those of the declarations that yield some.
* `handleEdges_declared`: what an edge says about the text, and when its handle is a cast to the
  type it is declared with.
-/

namespace CallAtlas.Interface

open CallAtlas.Text

namespace Edge

variable (interface method pattern : String) (definition : Option Entity)

@[simp]
theorem of_interface : (of interface method pattern definition).interface = interface :=
  rfl

@[simp]
theorem of_method : (of interface method pattern definition).method = method :=
  rfl

@[simp]
theorem of_pattern : (of interface method pattern definition).pattern = pattern :=
  rfl

@[simp]
theorem of_definition : (of interface method pattern definition).definition = definition :=
  rfl

end Edge

/-! ### Declarations -/

/-- Whether a declaration stands in a text, from the beginning of a word on. -/
def Declares (s : List Char) (d : Declaration) : Prop :=
  ∃ front text rest, s = front ++ (text ++ rest) ∧ BeginsWord front ∧ d.Written text

/-- Whether a declaration counts: of those found in the text, it is the last of its name. -/
def Counts (s : List Char) (d : Declaration) : Prop :=
  ∃ earlier later, hits declaration s = earlier ++ d :: later ∧ ∀ d' ∈ later, d'.name ≠ d.name

variable {s : List Char}

theorem Counts.mem {d : Declaration} (h : Counts s d) : d ∈ hits declaration s := by
  obtain ⟨earlier, later, heq, -⟩ := h
  rw [heq]
  exact List.mem_append_right _ List.mem_cons_self

theorem Counts.declares {d : Declaration} (h : Counts s d) : Declares s d :=
  of_mem_hits recognises_declaration wordLed_declaration h.mem

/-- The type of a handle is that of the declaration that counts. -/
theorem handleType?_eq_some_iff {name type : List Char} :
    handleType? (hits handleDeclaration s) name = some type ↔
      ∃ d, Counts s d ∧ d.name = name ∧ d.type = type := by
  rw [hits_of_map handleDeclaration_eq_map, handleType?, ← List.map_reverse, List.find?_map,
    Option.map_map, Option.map_eq_some_iff]
  refine exists_congr fun d => ?_
  -- the list is searched from its end, so those before are the later ones
  rw [List.find?_eq_some_iff_append]
  constructor
  · rintro ⟨⟨hname, later, earlier, heq, hlater⟩, htype⟩
    have hsame : d.name = name := eq_of_beq hname
    refine ⟨⟨earlier.reverse, later.reverse, ?_, ?_⟩, hsame, htype⟩
    · rw [List.reverse_eq_iff] at heq
      rw [heq, List.reverse_append, List.reverse_cons, List.append_assoc, List.singleton_append]
    · intro d' hd' hname'
      have hother := hlater d' (List.mem_reverse.mp hd')
      rw [hsame] at hname'
      simp [Declaration.handle, hname'] at hother
  · rintro ⟨⟨earlier, later, heq, hlater⟩, rfl, rfl⟩
    refine ⟨⟨by simp [Declaration.handle], later.reverse, earlier.reverse, ?_, ?_⟩, rfl⟩
    · rw [heq, List.reverse_append, List.reverse_cons, List.append_assoc, List.singleton_append]
    · intro d' hd'
      have hother := hlater d' (List.mem_reverse.mp hd')
      simpa [Declaration.handle] using hother

/-! ### Edges -/

/-- Whether a declaration yields an edge for a method. -/
structure Yields (s : List Char) (d : Declaration) (method : List Char) : Prop where
  counts : Counts s d
  not_reserved : d.name ∉ reservedReceivers
  calls : CallsMember s d.name method

/-- The edge for a call on a handle. -/
def handleEdge (entities : List Entity) (type method : List Char) : Edge :=
  .of (String.ofList type) (String.ofList method) "variable"
    (memberInFile? entities (String.ofList method) (String.ofList type))

theorem mem_handleEdges_iff {text : String} {entities : List Entity} {e : Edge} :
    e ∈ handleEdges text entities ↔ ∃ d method,
      Yields (stripComments text.toList) d method ∧ e = handleEdge entities d.type method := by
  simp only [handleEdges, List.mem_filterMap, mem_hits_memberCall]
  constructor
  · rintro ⟨call, hcall, he⟩
    split_ifs at he with hreserved
    obtain ⟨type, htype, rfl⟩ := Option.map_eq_some_iff.mp he
    obtain ⟨d, hcounts, hname, rfl⟩ := handleType?_eq_some_iff.mp htype
    rw [← hname] at hcall hreserved
    exact ⟨d, call.method, ⟨hcounts, by simpa using hreserved, hcall⟩, rfl⟩
  · rintro ⟨d, method, hyields, rfl⟩
    refine ⟨⟨d.name, method⟩, hyields.calls, ?_⟩
    have htype := handleType?_eq_some_iff.mpr ⟨d, hyields.counts, rfl, rfl⟩
    rw [if_neg (by simpa using hyields.not_reserved), htype]
    rfl

/-- **Handles have the type they are declared with.**  There is an edge for each method that is
called on a handle, as long as its name is not reserved: for the type of the declaration that
counts, whatever is called for the value.  That declaration stands in the text, and so does the
call.  Where every handle that yields edges is declared as a cast to its type, each edge has the
type of a cast `Type handle = Type(expr);` that stands in the text, and its method is called on that
handle. -/
theorem handleEdges_declared (text : String) (entities : List Entity) :
    (∀ e, e ∈ handleEdges text entities ↔ ∃ d method,
        Yields (stripComments text.toList) d method ∧ e = handleEdge entities d.type method) ∧
      (∀ d method, Yields (stripComments text.toList) d method →
        Declares (stripComments text.toList) d ∧
          CallsMember (stripComments text.toList) d.name method) ∧
      ((∀ d method, Yields (stripComments text.toList) d method → d.cast = d.type) →
        ∀ e ∈ handleEdges text entities, ∃ name,
          Declares (stripComments text.toList)
              ⟨e.interface.toList, name, e.interface.toList⟩ ∧
            CallsMember (stripComments text.toList) name e.method.toList) := by
  refine ⟨fun e => mem_handleEdges_iff, fun d method h => ⟨h.counts.declares, h.calls⟩, ?_⟩
  intro hcasts e he
  obtain ⟨d, method, hyields, rfl⟩ := mem_handleEdges_iff.mp he
  have hdeclares := hyields.counts.declares
  have hcast := hcasts d method hyields
  obtain ⟨type, name, cast⟩ := d
  obtain rfl : cast = type := hcast
  refine ⟨name, ?_, ?_⟩
  · simpa [handleEdge] using hdeclares
  · simpa [handleEdge] using hyields.calls

/-- A text in which a number is what a function returns. -/
def feeText : String :=
  "uint256 fee = feeOf(user); fee.mul(rate);"

/-- A text in which an oracle is a cast to its interface. -/
def oracleText : String :=
  "IOracle oracle = IOracle(feed); oracle.getValue();"

/-- What is declared in the two texts, and the edges of which they have one each. -/
theorem declared_texts :
    hits declaration (stripComments feeText.toList) =
        [⟨"uint256".toList, "fee".toList, "feeOf".toList⟩] ∧
      hits declaration (stripComments oracleText.toList) =
        [⟨"IOracle".toList, "oracle".toList, "IOracle".toList⟩] ∧
      handleEdges feeText [] = [handleEdge [] "uint256".toList "mul".toList] ∧
      handleEdges oracleText [] = [handleEdge [] "IOracle".toList "getValue".toList] := by
  decide +kernel

/-- The number yields an edge for its type although that is not what is called for its value.  The
oracle yields one for the interface it is cast to. -/
theorem handleEdges_declared_texts :
    (∃ e ∈ handleEdges feeText [], ∃ d method, Yields (stripComments feeText.toList) d method ∧
        e = handleEdge [] d.type method ∧ d.cast ≠ d.type) ∧
      (∀ d method, Yields (stripComments oracleText.toList) d method → d.cast = d.type) ∧
      ∃ e ∈ handleEdges oracleText [], ∃ name,
        Declares (stripComments oracleText.toList)
            ⟨e.interface.toList, name, e.interface.toList⟩ ∧
          CallsMember (stripComments oracleText.toList) name e.method.toList := by
  obtain ⟨hfee, horacle, hfeeEdges, horacleEdges⟩ := declared_texts
  have hcasts : ∀ d method, Yields (stripComments oracleText.toList) d method →
      d.cast = d.type := by
    intro d method hyields
    have hmem := hyields.counts.mem
    rw [horacle, List.mem_singleton] at hmem
    rw [hmem]
  have hfeeEdge := hfeeEdges ▸ List.mem_singleton_self (handleEdge [] "uint256".toList "mul".toList)
  have horacleEdge :=
    horacleEdges ▸ List.mem_singleton_self (handleEdge [] "IOracle".toList "getValue".toList)
  refine ⟨⟨_, hfeeEdge, ?_⟩, hcasts, _, horacleEdge, ?_⟩
  · obtain ⟨d, method, hyields, heq⟩ := ((handleEdges_declared feeText []).1 _).mp hfeeEdge
    -- the one declaration in the text is that of the number
    have hmem := hyields.counts.mem
    rw [hfee, List.mem_singleton] at hmem
    refine ⟨d, method, hyields, heq, ?_⟩
    rw [hmem]
    decide
  · exact (handleEdges_declared oracleText []).2.2 hcasts _ horacleEdge

end CallAtlas.Interface

import CallAtlas.Proofs.Indexes
import CallAtlas.Source.Declarations
import Mathlib.Data.List.TakeWhile

/-!
# What a call means

A call of a name is looked up in the table of names, and among all signatures if the table has no
function or event of that name.  Signatures start with the name of what they declare and an opening
parenthesis.  As no name has a parenthesis, the search through signatures can only find what the
table has found already: a call means the first function or event of its name in the caller's file,
or else the first one anywhere.

* `Entity.Signed`: the name is what stands before the first parenthesis of the signature.
* `Reading.signed_of_mem_declarations`: functions and events that are read from a tree are signed.
* `findDefinition?_eq_or`: the search as two searches by name.
* `findDefinition?_of_prefix`: as a repository grows, a call keeps its meaning or comes to mean a
  declaration of its own file.
* `findDefinition?_means`: both for the sequence and for the tables, over any further additions.
-/

namespace CallAtlas

open Text (startsWith beforeFirst)

/-! ### Signatures that start with the name -/

namespace Entity

/-- Whether calls can mean the declaration: it is a function or an event. -/
def Callable (e : Entity) : Prop :=
  e.kind = .function ∨ e.kind = .event

/-- Whether the declaration is a function or an event of a given name. -/
def Defines (name : String) (e : Entity) : Prop :=
  e.Callable ∧ e.name = name

/-- Whether the signature starts with the name and an opening parenthesis, and the name has no
such parenthesis. -/
structure Signed (e : Entity) : Prop where
  name : '(' ∉ e.name.toList
  signature : (e.name ++ "(").toList <+: e.signature.toList

end Entity

/-- What stands before the first parenthesis of a text that starts with a name and one. -/
theorem beforeFirst_of_prefix {name : String} {s : List Char} (hname : '(' ∉ name.toList)
    (h : (name ++ "(").toList <+: s) : beforeFirst '(' s = name.toList := by
  obtain ⟨rest, rfl⟩ := h
  have hinside : ∀ c ∈ name.toList, (c != '(') = true := by
    intro c hc
    rw [bne_iff_ne]
    rintro rfl
    exact hname hc
  have hshape : (name ++ "(").toList ++ rest = name.toList ++ '(' :: rest := by
    simp
  rw [hshape, beforeFirst, List.takeWhile_append_of_pos hinside,
    List.takeWhile_cons_of_neg (by simp), List.append_nil]

/-- A signed declaration whose signature starts with a name and a parenthesis has that name. -/
theorem Entity.Signed.name_eq {e : Entity} (he : e.Signed) {name : String}
    (hname : '(' ∉ name.toList) (h : startsWith e.signature (name ++ "(") = true) :
    e.name = name := by
  have hprefix : (name ++ "(").toList <+: e.signature.toList := List.isPrefixOf_iff_prefix.mp h
  apply String.toList_inj.mp
  rw [← beforeFirst_of_prefix he.name he.signature, beforeFirst_of_prefix hname hprefix]

/-! ### Declarations that are read are signed -/

namespace Source

variable {r : Reading} {tree : Tree} {n : Node} {contract : String} {e : Entity}

/-- A signature that is built starts with the name and a parenthesis. -/
theorem prefix_build (name : String) (parameters returns : List Parameter)
    (visibility mutability : String) :
    (name ++ "(").toList <+:
      (Signature.build name parameters returns visibility mutability).toList := by
  unfold Signature.build
  simp only [String.toList_append, List.append_assoc]
  exact (List.prefix_append_right_inj _).mpr (List.prefix_append _ _)

theorem Reading.signature_of_member? (h : r.member? n contract = some e) (hkind : e.Callable) :
    (e.name ++ "(").toList <+: e.signature.toList := by
  rw [Reading.member?] at h
  split_ifs at h
  · cases h
    exact prefix_build _ _ _ _ _
  · -- a modifier
    cases h
    rcases hkind with hkind | hkind <;> cases hkind
  · cases h
    simp only [Reading.event, String.toList_append, List.append_assoc]
    exact (List.prefix_append_right_inj _).mpr (List.prefix_append _ _)
  · -- a state variable
    obtain ⟨name, -, h⟩ := Option.bind_eq_some_iff.mp h
    cases h
    rcases hkind with hkind | hkind <;> cases hkind

/-- Whatever is read of a tree is read of one of its nodes, as a member of some container. -/
theorem Reading.exists_member?_of_mem (h : e ∈ (r.declarations tree).entities) :
    ∃ n contract, r.member? n contract = some e := by
  obtain ⟨n, -, hn⟩ := List.mem_flatMap.mp h
  rw [Reading.topLevel] at hn
  split_ifs at hn
  · rw [Reading.containerMembers] at hn
    split at hn
    · cases hn
    · obtain ⟨m, -, hm⟩ := List.mem_filterMap.mp hn
      exact ⟨m, _, hm⟩
  · exact ⟨n, _, Option.mem_toList.mp hn⟩
  · cases hn

theorem Reading.signed_of_mem_declarations (h : e ∈ (r.declarations tree).entities)
    (hkind : e.Callable) (hname : '(' ∉ e.name.toList) : e.Signed := by
  obtain ⟨n, contract, hmember⟩ := Reading.exists_member?_of_mem h
  exact ⟨hname, Reading.signature_of_member? hmember hkind⟩

end Source

/-! ### Lookups by name -/

namespace Repository

variable {r r' : Repository} {name file : String} {d : Entity}

/-- Whether all functions and events are signed. -/
def Signed (r : Repository) : Prop :=
  ∀ e ∈ r.entities, e.Callable → e.Signed

/-- The rule by which a call of `name` in `file` means a declaration. -/
def Means (r : Repository) (name file : String) (d : Entity) : Prop :=
  IsFirst (fun e => e.Defines name ∧ e.file = file) r.entities d ∨
    (∀ e ∈ r.entities, e.Defines name → e.file ≠ file) ∧ IsFirst (·.Defines name) r.entities d

/-- The test for functions and events of a name. -/
def isDefinition (name : String) (e : Entity) : Bool :=
  [Kind.function, .event].contains e.kind && e.name == name

theorem contains_kind_iff {e : Entity} :
    [Kind.function, .event].contains e.kind = true ↔ e.Callable := by
  rw [List.contains_iff_mem, List.mem_cons, List.mem_singleton, Entity.Callable]

theorem isDefinition_iff {e : Entity} : isDefinition name e = true ↔ e.Defines name := by
  rw [isDefinition, Bool.and_eq_true, contains_kind_iff, beq_iff_eq, Entity.Defines]

/-- Among signed declarations, the search through signatures finds nothing that the name does
not. -/
theorem definitionsOf_eq_filter (hr : r.Signed) (hname : '(' ∉ name.toList) :
    r.definitionsOf name = r.entities.filter (isDefinition name) := by
  have hnamed : (r.ofKind [.function, .event]).filter (fun e => e.name == name) =
      r.entities.filter (isDefinition name) := by
    rw [ofKind, List.filter_filter]
    refine List.filter_congr ?_
    intro e _
    rw [isDefinition, Bool.and_comm]
  rw [definitionsOf, hnamed]
  split_ifs with hempty
  · -- nothing has the name, so no signature starts with it
    rw [List.isEmpty_iff] at hempty
    rw [hempty, List.filter_eq_nil_iff]
    intro e he hsignature
    obtain ⟨hmem, hkind⟩ := List.mem_filter.mp he
    have hcallable : e.Callable := contains_kind_iff.mp hkind
    have hsame : e.name = name := (hr e hmem hcallable).name_eq hname hsignature
    exact List.filter_eq_nil_iff.mp hempty e hmem (isDefinition_iff.mpr ⟨hcallable, hsame⟩)
  · rfl

/-- A call means the first definition of its name in its file, or else the first one of all. -/
theorem findDefinition?_eq_or (hr : r.Signed) (hname : '(' ∉ name.toList) :
    r.findDefinition? name file =
      (r.entities.find? fun e => isDefinition name e && e.file == file).or
        (r.entities.find? (isDefinition name)) := by
  rw [findDefinition?, definitionsOf_eq_filter hr hname, List.find?_filter, List.head?_filter]
  simp only [Bool.decide_and, Bool.decide_eq_true]

theorem isDefinition_and_iff {e : Entity} :
    (isDefinition name e && e.file == file) = true ↔ e.Defines name ∧ e.file = file := by
  rw [Bool.and_eq_true, isDefinition_iff, beq_iff_eq]

theorem findDefinition?_eq_some_iff (hr : r.Signed) (hname : '(' ∉ name.toList) :
    r.findDefinition? name file = some d ↔ r.Means name file d := by
  rw [findDefinition?_eq_or hr hname, Option.or_eq_some_iff, List.find?_eq_none, Means,
    ← isFirst_iff_find? fun _ => isDefinition_and_iff, ← isFirst_iff_find? fun _ => isDefinition_iff]
  simp only [isDefinition_and_iff, not_and, ne_eq]

theorem findDefinition?_eq_none_iff_forall (hr : r.Signed) (hname : '(' ∉ name.toList) :
    r.findDefinition? name file = none ↔ ∀ e ∈ r.entities, ¬ e.Defines name := by
  rw [findDefinition?_eq_or hr hname, Option.or_eq_none_iff, List.find?_eq_none,
    List.find?_eq_none]
  simp only [isDefinition_iff, isDefinition_and_iff, not_and]
  constructor
  · rintro ⟨-, h⟩
    exact h
  · intro h
    exact ⟨fun e he hdefines => absurd hdefines (h e he), h⟩

/-! ### Growing repositories -/

/-- In a repository with more declarations behind, a call means the same or a declaration of its
own file, and the latter only if it had none. -/
theorem findDefinition?_of_prefix (hr : r.Signed) (hr' : r'.Signed) (hname : '(' ∉ name.toList)
    (h : r.entities <+: r'.entities) (hd : r.findDefinition? name file = some d) :
    ∃ d', r'.findDefinition? name file = some d' ∧ (d' = d ∨ d.file ≠ file ∧ d'.file = file) := by
  obtain ⟨more, hmore⟩ := h
  rw [findDefinition?_eq_or hr hname] at hd
  rw [findDefinition?_eq_or hr' hname, ← hmore, List.find?_append, List.find?_append]
  rcases hlocal : r.entities.find? (fun e => isDefinition name e && e.file == file) with _ | e
  · -- the file had no definition; it may have got one
    rw [hlocal, Option.none_or] at hd
    rw [Option.none_or, hd, Option.some_or]
    have hfile : d.file ≠ file := by
      intro hfile
      refine List.find?_eq_none.mp hlocal d (List.mem_of_find?_eq_some hd) ?_
      rw [Bool.and_eq_true, beq_iff_eq]
      have hdefines := List.find?_some hd
      exact ⟨hdefines, hfile⟩
    rcases hnew : more.find? (fun e => isDefinition name e && e.file == file) with _ | d'
    · exact ⟨d, rfl, .inl rfl⟩
    · have hd' := List.find?_some hnew
      exact ⟨d', rfl, .inr ⟨hfile, (isDefinition_and_iff.mp hd').2⟩⟩
  · rw [hlocal, Option.some_or] at hd
    rw [Option.some_or, Option.some_or]
    exact ⟨e, rfl, .inl (Option.some.inj hd)⟩

theorem Signed.addAll (hr : r.Signed) {es : List Entity} (hes : ∀ e ∈ es, e.Callable → e.Signed) :
    (r.addAll es).Signed := by
  intro e he
  rcases mem_of_mem_addAll he with he | he
  · exact hr e he
  · exact hes e he

end Repository

/-! ### Lookups in the table of names -/

namespace Indexes

/-- The functions and events that a call of `name` can mean: those that the table of names has
under it, or else those whose signature starts with it. -/
def definitionsOf (x : Indexes) (name : String) : List Entity :=
  let sameName := (x.named name).filter fun e => [Kind.function, .event].contains e.kind
  if sameName.isEmpty then
    x.entities.filter fun e =>
      [Kind.function, .event].contains e.kind && startsWith e.signature (name ++ "(")
  else sameName

/-- What a call of `name` in `file` means. -/
def findDefinition? (x : Indexes) (name file : String) : Option Entity :=
  let found := x.definitionsOf name
  (found.find? fun e => e.file == file).or found.head?

theorem definitionsOf_of (r : Repository) (name : String) :
    (of r).definitionsOf name = r.definitionsOf name := by
  have hnamed : (r.named name).filter (fun e => [Kind.function, .event].contains e.kind) =
      (r.ofKind [.function, .event]).filter fun e => e.name == name := by
    rw [Repository.named, Repository.ofKind, List.filter_filter, List.filter_filter]
    refine List.filter_congr ?_
    intro e _
    rw [Bool.and_comm]
  have hscan : (r.entities.filter fun e =>
      [Kind.function, .event].contains e.kind && startsWith e.signature (name ++ "(")) =
      (r.ofKind [.function, .event]).filter fun e => startsWith e.signature (name ++ "(") := by
    rw [Repository.ofKind, List.filter_filter]
    refine List.filter_congr ?_
    intro e _
    rw [Bool.and_comm]
  rw [definitionsOf, named_of, entities_of, hnamed, hscan, Repository.definitionsOf]

/-- The table of names leads to the same declaration as the sequence. -/
theorem findDefinition?_of (r : Repository) (name file : String) :
    (of r).findDefinition? name file = r.findDefinition? name file := by
  rw [findDefinition?, definitionsOf_of, Repository.findDefinition?]

end Indexes

/-- **What a call means is decided by names.**  Among signed declarations, a call of a name without
parenthesis means the first function or event of that name in its file, or else the first one in
any file, and nothing iff none has the name; no other signature starts with the name and a
parenthesis.  The tables lead to the same.  Whatever is added later, the call goes on to mean this
declaration, unless it is of another file and the call comes to mean one of its own file. -/
theorem Repository.findDefinition?_means {r : Repository} (hr : r.Signed) {name : String}
    (hname : '(' ∉ name.toList) (file : String) :
    (∀ d, r.findDefinition? name file = some d ↔ r.Means name file d) ∧
      (r.findDefinition? name file = none ↔ ∀ e ∈ r.entities, ¬ e.Defines name) ∧
      (∀ e ∈ r.entities, e.Callable → startsWith e.signature (name ++ "(") = true →
        e.Defines name) ∧
      (Indexes.of r).findDefinition? name file = r.findDefinition? name file ∧
      ∀ additions : List Addition, (∀ a ∈ additions, ∀ e ∈ a.entities, e.Callable → e.Signed) →
        ∀ d, r.findDefinition? name file = some d →
          ∃ d', (additions.foldl extend r).findDefinition? name file = some d' ∧
            (d' = d ∨ d.file ≠ file ∧ d'.file = file) := by
  refine ⟨fun d => findDefinition?_eq_some_iff hr hname,
    findDefinition?_eq_none_iff_forall hr hname, ?_, Indexes.findDefinition?_of r name file, ?_⟩
  · intro e he hcallable hsignature
    exact ⟨hcallable, (hr e he hcallable).name_eq hname hsignature⟩
  · intro additions hadditions d hd
    -- what the additions add is added at once
    have hnew : ∀ e ∈ additions.flatMap Addition.entities, e.Callable → e.Signed := by
      intro e he
      obtain ⟨a, ha, hea⟩ := List.mem_flatMap.mp he
      exact hadditions a ha e hea
    rw [foldl_extend]
    exact findDefinition?_of_prefix hr (hr.addAll hnew) hname (prefix_addAll r _) hd

/-- Two functions, the name of one being the front of the other's. -/
def paymentText : String :=
  "function pay(uint256 x) {} function payAll() {}"

/-- The tree of that text. -/
def paymentTree : Source.Tree :=
  ⟨false, .mk "source_file" true none 0 47
    [.mk "function_definition" true none 0 26
      [.mk "identifier" true (some "name") 9 12 [],
        .mk "parameter" true none 13 22
          [.mk "type_name" true (some "type") 13 20 [],
            .mk "identifier" true (some "name") 21 22 []]],
      .mk "function_definition" true none 27 47
        [.mk "identifier" true (some "name") 36 42 []]]⟩

/-- What is read of that text in a file. -/
def payments (file : String) : List Entity :=
  (Source.Reading.declarations ⟨file, .ofText paymentText, true⟩ paymentTree).entities

/-- A repository that has the text as a file of a library. -/
def paymentLibrary : Repository :=
  Repository.addAll {} (payments "lib/Pay.sol")

theorem payments_found :
    ((payments "lib/Pay.sol").all fun e => !e.name.toList.contains '(') = true ∧
      ((payments "contracts/A.sol").all fun e => !e.name.toList.contains '(') = true ∧
      (paymentLibrary.findDefinition? "pay" "contracts/A.sol").map
        (fun d => (d.signature, d.file)) = some ("pay(uint256 x)", "lib/Pay.sol") ∧
      ((paymentLibrary.extend (.many (payments "contracts/A.sol"))).findDefinition? "pay"
        "contracts/A.sol").map (·.file) = some "contracts/A.sol" := by
  decide +kernel

theorem signed_payments {file : String}
    (h : ((payments file).all fun e => !e.name.toList.contains '(') = true) :
    ∀ e ∈ payments file, e.Callable → e.Signed := by
  intro e he hcallable
  have hname := List.all_eq_true.mp h e he
  exact Source.Reading.signed_of_mem_declarations he hcallable (by simpa using hname)

/-- A call of `pay` means the library's function, until its own file is added with one. -/
theorem Repository.findDefinition?_means_payments :
    paymentLibrary.Signed ∧ '(' ∉ "pay".toList ∧
      (∀ e ∈ payments "contracts/A.sol", e.Callable → e.Signed) ∧
      ∃ d d', paymentLibrary.findDefinition? "pay" "contracts/A.sol" = some d ∧
        paymentLibrary.Means "pay" "contracts/A.sol" d ∧
        ([Addition.many (payments "contracts/A.sol")].foldl extend paymentLibrary).findDefinition?
          "pay" "contracts/A.sol" = some d' ∧
        d.file = "lib/Pay.sol" ∧ d'.file = "contracts/A.sol" := by
  obtain ⟨hlibrary, hown, hbefore, hafter⟩ := payments_found
  have hsigned : paymentLibrary.Signed :=
    Signed.addAll (fun _ he => absurd he List.not_mem_nil) (signed_payments hlibrary)
  have hname : '(' ∉ "pay".toList := by decide
  obtain ⟨d, hd, hfound⟩ := Option.map_eq_some_iff.mp hbefore
  have hdfile : d.file = "lib/Pay.sol" := congrArg Prod.snd hfound
  obtain ⟨hmeans, -, -, -, hgrows⟩ :=
    findDefinition?_means hsigned hname "contracts/A.sol"
  -- the call goes on to mean something, and the table tells that it is of its own file
  obtain ⟨d', hd', -⟩ := hgrows [.many (payments "contracts/A.sol")]
    (by simpa [Addition.entities] using signed_payments hown) d hd
  refine ⟨hsigned, hname, signed_payments hown, d, d', hd, (hmeans d).mp hd, hd', hdfile, ?_⟩
  rw [List.foldl_cons, List.foldl_nil] at hd'
  rw [hd'] at hafter
  exact Option.some.inj hafter

end CallAtlas

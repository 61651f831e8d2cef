import CallAtlas.Proofs.Consistency
import CallAtlas.Proofs.Repository

/-!
# What can be retrieved of a file that was taken in

Every function, modifier and event in a contract, interface or library of a file is read, with the
name of its container and its own calls.  It is kept if no declaration of its identity came before
it.  Identities leave the container out, so of two functions of the same name and signature in two
containers of one file only the first can be retrieved.

* `Tree.Holds`: a definition stands in a container; `Reading.exists_of_holds` says what it is read
  as.
* `Retrievable`: what a repository has of a file.
* `ingest_retrievable`: taking in a file leaves that in the repository.
-/

namespace CallAtlas

open Source
open Import (Fetched ingest)

/-! ### Definitions in containers -/

namespace Source

/-- A function, modifier or event stands in a contract, interface or library of the tree. -/
structure Tree.Holds (tree : Tree) (container member : Node) : Prop where
  container_mem : container ∈ tree.root.children
  isContainer : isContainerNode container = true
  member_mem : ∃ body,
    (container.child? "body").or (container.childOfType? "contract_body") = some body ∧
      member ∈ body.namedChildren
  isDefinition : isFunctionNode member = true ∨ member.type = "modifier_definition" ∨
    member.type = "event_definition"

/-- The calls in a definition; an event makes none. -/
def Reading.ownCalls (r : Reading) (member : Node) : List Call :=
  if member.type = "event_definition" then [] else r.bodyCalls member

variable {r : Reading} {tree : Tree} {container member : Node}

theorem Reading.exists_member? (contract : String)
    (h : isFunctionNode member = true ∨ member.type = "modifier_definition" ∨
      member.type = "event_definition") :
    ∃ e, r.member? member contract = some e ∧ e.contract = contract ∧
      e.calls = r.ownCalls member := by
  rw [Reading.member?, Reading.ownCalls]
  -- a function is no event, and neither of the other two is a function
  rcases h with h | h | h
  · have hevent : member.type ≠ "event_definition" := by
      intro hevent
      rw [isFunctionNode, hevent] at h
      exact absurd h (by decide)
    rw [if_pos h, if_neg hevent]
    exact ⟨_, rfl, rfl, rfl⟩
  · have hfunction : isFunctionNode member = false := by
      rw [isFunctionNode, h]
      decide
    rw [hfunction, h]
    exact ⟨_, rfl, rfl, rfl⟩
  · have hfunction : isFunctionNode member = false := by
      rw [isFunctionNode, h]
      decide
    rw [hfunction, h]
    exact ⟨_, rfl, rfl, rfl⟩

/-- A definition in a container is read with the container's name and its own calls. -/
theorem Reading.exists_of_holds (r : Reading) (h : tree.Holds container member) :
    ∃ e ∈ (r.declarations tree).entities,
      r.member? member (r.textOf (container.child? "name")) = some e ∧
      e.contract = r.textOf (container.child? "name") ∧ e.calls = r.ownCalls member := by
  obtain ⟨body, hbody, hmember⟩ := h.member_mem
  obtain ⟨e, he, hcontract, hcalls⟩ :=
    Reading.exists_member? (r := r) (r.textOf (container.child? "name")) h.isDefinition
  refine ⟨e, ?_, he, hcontract, hcalls⟩
  refine List.mem_flatMap.mpr ⟨container, h.container_mem, ?_⟩
  rw [Reading.topLevel, if_pos h.isContainer, Reading.containerMembers, hbody]
  exact List.mem_filterMap.mpr ⟨member, hmember, he⟩

theorem Reading.file_of_mem_declarations {e : Entity} (h : e ∈ (r.declarations tree).entities) :
    e.file = r.file := by
  obtain ⟨n, -, hn⟩ := List.mem_flatMap.mp h
  exact Reading.file_of_mem_topLevel hn

end Source

/-! ### What a repository has of a file -/

/-- What the repository `r` has of a tree that was read after the declarations `known`. -/
structure Retrievable (reading : Reading) (tree : Tree) (known r : Repository) : Prop where
  /-- Of the file, the repository has what was new. -/
  inFile_eq : r.inFile reading.file = known.newAmong (reading.declarations tree).entities
  /-- A definition in a container is read with its own container and calls, and it is retrieved by
  its identity iff no declaration of this identity came before it. -/
  definition : ∀ container member, tree.Holds container member →
    ∃ e ∈ (reading.declarations tree).entities,
      reading.member? member (reading.textOf (container.child? "name")) = some e ∧
      e.contract = reading.textOf (container.child? "name") ∧ e.calls = reading.ownCalls member ∧
      (r.get? e.identity = some e ↔
        ∃ before after, known.entities ++ (reading.declarations tree).entities =
          before ++ e :: after ∧ ∀ d ∈ before, d.identity ≠ e.identity)
  /-- Two declarations give two entities iff their identities differ. -/
  get?_ne_iff : ∀ d ∈ (reading.declarations tree).entities,
    ∀ e ∈ (reading.declarations tree).entities,
      r.get? d.identity ≠ r.get? e.identity ↔ d.identity ≠ e.identity
  /-- Without colons in names and signatures, the file has the first declarations of each name and
  signature. -/
  inFile_eq_of_plain : (∀ d ∈ known.entities ++ (reading.declarations tree).entities, d.Plain) →
    r.inFile reading.file =
      keepFirst (fun e => (e.name, e.signature)) (reading.declarations tree).entities

section

variable {reading : Reading} {tree : Tree} {known : Repository}

theorem Repository.get?_addAll_eq_find? (r : Repository) (es : List Entity) (i : String) :
    (r.addAll es).get? i = (r.entities ++ es).find? fun e => e.identity == i := by
  rw [get?_addAll, get?, List.find?_append]

theorem inFile_addAll (hunused : ∀ d ∈ known.entities, d.file ≠ reading.file) :
    (known.addAll (reading.declarations tree).entities).inFile reading.file =
      known.newAmong (reading.declarations tree).entities := by
  have hknown : known.entities.filter (fun e => e.file == reading.file) = [] := by
    refine List.filter_eq_nil_iff.mpr ?_
    intro d hd
    simpa using hunused d hd
  have hnew : (known.newAmong (reading.declarations tree).entities).filter
      (fun e => e.file == reading.file) =
        known.newAmong (reading.declarations tree).entities := by
    refine List.filter_eq_self.mpr ?_
    intro e he
    have hmem := mem_of_mem_keepFirst Entity.identity (List.mem_of_mem_filter he)
    exact beq_iff_eq.mpr (Reading.file_of_mem_declarations hmem)
  rw [Repository.inFile, Repository.entities_addAll, List.filter_append, hknown, hnew,
    List.nil_append]

/-- Some declaration of the identity is found for each that was added. -/
theorem Repository.exists_get?_addAll (r : Repository) {es : List Entity} {e : Entity}
    (h : e ∈ es) : ∃ d, (r.addAll es).get? e.identity = some d ∧ d.identity = e.identity := by
  rw [get?_addAll_eq_find?]
  rcases hfind : (r.entities ++ es).find? fun d => d.identity == e.identity with _ | d
  · exact absurd (beq_self_eq_true e.identity)
      (List.find?_eq_none.mp hfind e (List.mem_append_right _ h))
  · have hd := List.find?_some hfind
    exact ⟨d, hfind, beq_iff_eq.mp hd⟩

theorem newAmong_eq_of_plain (hunused : ∀ d ∈ known.entities, d.file ≠ reading.file)
    (hplain : ∀ d ∈ known.entities ++ (reading.declarations tree).entities, d.Plain) :
    known.newAmong (reading.declarations tree).entities =
      keepFirst (fun e => (e.name, e.signature)) (reading.declarations tree).entities := by
  have hdeclared : ∀ e ∈ (reading.declarations tree).entities, e.Plain :=
    fun e he => hplain e (List.mem_append_right _ he)
  rw [Repository.newAmong, List.filter_eq_self.mpr]
  · -- all have the same file, so their identities differ in names and signatures
    refine keepFirst_congr _ ?_
    intro d hd e he
    rw [Entity.identity_inj (hdeclared d hd) (hdeclared e he), Prod.mk.injEq,
      Reading.file_of_mem_declarations hd, Reading.file_of_mem_declarations he]
    exact and_iff_right rfl
  · intro e he
    have hmem := mem_of_mem_keepFirst Entity.identity he
    rw [Bool.not_eq_true', ← Bool.not_eq_true, Repository.contains_iff, List.mem_map]
    rintro ⟨d, hd, hidentity⟩
    have hsame := (Entity.identity_inj (hplain d (List.mem_append_left _ hd))
      (hdeclared e hmem)).mp hidentity
    exact hunused d hd (hsame.1.trans (Reading.file_of_mem_declarations hmem))

theorem retrievable_addAll (hunused : ∀ d ∈ known.entities, d.file ≠ reading.file) :
    Retrievable reading tree known (known.addAll (reading.declarations tree).entities) where
  inFile_eq := inFile_addAll hunused
  definition := by
    intro container member h
    obtain ⟨e, hmem, he, hcontract, hcalls⟩ := reading.exists_of_holds h
    refine ⟨e, hmem, he, hcontract, hcalls, ?_⟩
    rw [Repository.get?_addAll_eq_find?, List.find?_eq_some_iff_append, beq_self_eq_true,
      and_iff_right rfl]
    simp only [Bool.not_eq_true', beq_eq_false_iff_ne]
  get?_ne_iff := by
    intro d hd e he
    constructor
    · intro hne heq
      exact hne (by rw [heq])
    · intro hne heq
      -- both are retrieved by their identities, so these would be the same
      obtain ⟨k, hk, hidentity⟩ := known.exists_get?_addAll hd
      obtain ⟨k', hk', hidentity'⟩ := known.exists_get?_addAll he
      rw [hk, hk'] at heq
      cases heq
      exact hne (hidentity.symm.trans hidentity')
  inFile_eq_of_plain := by
    intro hplain
    rw [inFile_addAll hunused, newAmong_eq_of_plain hunused hplain]

end

/-! ### Taking in a file -/

theorem Session.repository_take {env : Environment} {s : Session} {fetched : Fetched}
    {declarations : Declarations} (hnew : fetched.location.key ∉ s.ingested)
    (hparse : env.parser.parse fetched.content (s.fileLabel fetched.location) = .ok declarations) :
    (s.take env fetched).repository = s.repository.addAll declarations.entities := by
  have hknown : s.ingested.contains fetched.location.key = false := by simpa using hnew
  rw [take_of_new env hknown, declared_of_ok hparse]

/-- Taking in a new file under a name that was not used before leaves in the repository what can be
retrieved of its tree. -/
theorem ingest_retrievable {env : Environment} {options : ParserOptions} {grammar : String → Tree}
    (henv : env.parser = grammarParser options (.ok grammar)) {fetched : Fetched} {p : Progress}
    {file : String} (hfile : p.session.fileLabel fetched.location = file)
    (hnew : fetched.location.key ∉ p.session.ingested)
    (hunused : ∀ d ∈ p.session.repository.entities, d.file ≠ file) {found : Declarations}
    (hfound : ofTree options (grammar fetched.content) fetched.content file = .ok found) :
    ∃ added q, ingest env fetched p = (some added, q) ∧
      Retrievable ⟨file, .ofText fetched.content, options.includeSource⟩ (grammar fetched.content)
        p.session.repository q.session.repository := by
  subst hfile
  have hsteady : env.parser.Steady := henv ▸ steady_grammarParser options grammar
  have hparse : env.parser.parse fetched.content (p.session.fileLabel fetched.location) =
      .ok found := by
    rw [henv]
    exact hfound
  obtain ⟨added, q, hq⟩ := Import.ingest_completes hsteady fetched p
  have hsession := Import.ingest_session env fetched p
  rw [hq] at hsession
  refine ⟨added, q, hq, ?_⟩
  -- the session is told by the effect of taking in a file that can be read
  rw [show q.session = p.session.take env fetched from hsession,
    Session.repository_take hnew hparse]
  rw [ofTree] at hfound
  split_ifs at hfound
  cases hfound
  exact retrievable_addAll hunused

/-! ### Two containers with the same function -/

/-- A function that makes one call, in a text where its container starts at `start`. -/
def twinFunction (start : Nat) : Node :=
  .mk "function_definition" true none (start + 13) (start + 34)
    [.mk "identifier" true (some "name") (start + 22) (start + 23) [],
      .mk "function_body" true (some "body") (start + 26) (start + 34)
        [.mk "call_expression" true none (start + 28) (start + 31)
          [.mk "identifier" true (some "function") (start + 28) (start + 29) []]]]

/-- The container of that function. -/
def twinContainer (start : Nat) : Node :=
  .mk "contract_declaration" true none start (start + 36)
    [.mk "identifier" true (some "name") (start + 9) (start + 10) [],
      .mk "contract_body" true (some "body") (start + 11) (start + 36) [twinFunction start]]

/-- A file with two contracts that have a function of the same name and signature. -/
def twins : Fetched where
  location := ⟨"acme", "vault", "main", "X.sol"⟩
  content := "contract A { function f() { g(); } } contract B { function f() { h(); } }"

/-- The tree of that file. -/
def twinTree : Tree :=
  ⟨false, .mk "source_file" true none 0 73 [twinContainer 0, twinContainer 37]⟩

/-- An environment with a grammar for that file. -/
def twinEnvironment : Environment where
  fetch l := .error (.plain .notFound l)
  parser := grammarParser {} (.ok fun _ => twinTree)

theorem holds_twinTree (start : Nat) (h : start = 0 ∨ start = 37) :
    twinTree.Holds (twinContainer start) (twinFunction start) where
  container_mem := by
    rcases h with rfl | rfl
    · exact List.mem_cons_self
    · exact List.mem_cons_of_mem _ List.mem_cons_self
  isContainer := rfl
  member_mem := ⟨_, rfl, List.mem_cons_self⟩
  isDefinition := .inl rfl

/-- How that file is read. -/
def twinReading : Reading :=
  ⟨"X.sol", .ofText twins.content, true⟩

theorem entities_twinTree : (twinReading.declarations twinTree).entities =
    [twinReading.function (twinFunction 0) "A", twinReading.function (twinFunction 37) "B"] := rfl

/-- The first of the two functions can be retrieved with its own contract and calls. -/
theorem ingest_retrievable_twins :
    ({} : Session).fileLabel twins.location = "X.sol" ∧
      twins.location.key ∉ ({} : Session).ingested ∧
      ofTree {} twinTree twins.content "X.sol" = .ok (twinReading.declarations twinTree) ∧
      ∃ added q, ingest twinEnvironment twins {} = (some added, q) ∧
        Retrievable twinReading twinTree {} q.session.repository ∧
        ∃ e, q.session.repository.get? e.identity = some e ∧ e.contract = "A" ∧
          e.calls = [{ name := "g" }] := by
  have hlabel : ({} : Session).fileLabel twins.location = "X.sol" := by decide
  have hnew : twins.location.key ∉ ({} : Session).ingested := List.not_mem_nil
  have hfound : ofTree {} twinTree twins.content "X.sol" =
      .ok (twinReading.declarations twinTree) := rfl
  have henv : twinEnvironment.parser = grammarParser {} (.ok fun _ => twinTree) := rfl
  obtain ⟨added, q, hq, hretrievable⟩ :=
    ingest_retrievable (p := {}) henv hlabel hnew (fun _ h => absurd h List.not_mem_nil) hfound
  replace hretrievable : Retrievable twinReading twinTree {} q.session.repository := hretrievable
  refine ⟨hlabel, hnew, hfound, added, q, hq, hretrievable, ?_⟩
  obtain ⟨e, -, he, hcontract, hcalls, hiff⟩ :=
    hretrievable.definition _ _ (holds_twinTree 0 (.inl rfl))
  have hname : twinReading.textOf ((twinContainer 0).child? "name") = "A" := by decide +kernel
  have hcall : twinReading.ownCalls (twinFunction 0) = [{ name := "g" }] := by decide +kernel
  have hmember : twinReading.member? (twinFunction 0) "A" =
      some (twinReading.function (twinFunction 0) "A") := rfl
  rw [hname, hmember] at he
  cases he
  -- it is the first of the two
  refine ⟨_, hiff.mpr ⟨[], [twinReading.function (twinFunction 37) "B"], ?_, ?_⟩, rfl,
    hcalls.trans hcall⟩
  · rw [entities_twinTree]
  · intro d hd
    cases hd

/-- The second one cannot be retrieved, though it is read like the first. -/
theorem not_mem_second_twin :
    ({} : Session).fileLabel twins.location = "X.sol" ∧
      ofTree {} twinTree twins.content "X.sol" = .ok (twinReading.declarations twinTree) ∧
      twinTree.Holds (twinContainer 37) (twinFunction 37) ∧
      ∃ e ∈ (twinReading.declarations twinTree).entities,
        twinReading.member? (twinFunction 37)
          (twinReading.textOf ((twinContainer 37).child? "name")) = some e ∧
        e.contract = "B" ∧ e.calls = [{ name := "h" }] ∧
        e ∉ (ingest twinEnvironment twins {}).2.session.repository.entities := by
  refine ⟨by decide, rfl, holds_twinTree 37 (.inr rfl), ?_⟩
  refine ⟨twinReading.function (twinFunction 37) "B", ?_, ?_, rfl, ?_, ?_⟩
  · rw [entities_twinTree]
    exact List.mem_cons_of_mem _ List.mem_cons_self
  · decide +kernel
  · decide +kernel
  · decide +kernel

end CallAtlas

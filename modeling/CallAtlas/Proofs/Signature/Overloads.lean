import CallAtlas.Proofs.Location
import CallAtlas.Proofs.Repository
import CallAtlas.Proofs.Scan
import CallAtlas.Proofs.Text
import CallAtlas.Signature

/-!
# Overloads

Functions of one name in one file differ in the types of their parameters.  Their signatures keep
these apart: a signature of a given name can be read back as far as its parameters, whatever follows
them.  The list of parameters ends with the first closing parenthesis, a comma ends a parameter, and
a blank in it ends its type.

Since identities of one file and name differ with the signatures, a repository keeps every overload.

* `Parameter.Plain`: the characters that mark these ends do not occur in a parameter.
* `join_inj`: joined texts can be told apart.
* `parameterList_inj`: types and names of parameters can be read off their list.
* `Entity.Overload`: one of the functions of a name in a file.
* `overloads_kept`: overloads have different signatures and identities and are all kept.
-/

namespace CallAtlas

open CallAtlas.Text

/-- Whether a parameter has a type, and neither type nor name has a blank, a comma or a closing
parenthesis. -/
def Parameter.Plain (p : Parameter) : Prop :=
  p.type ≠ "" ∧ ∀ c ∈ p.type.toList ++ p.name.toList, isBlank c = false ∧ c ≠ ',' ∧ c ≠ ')'

instance : DecidablePred Parameter.Plain := fun p =>
  @instDecidableAnd (p.type ≠ "") _ _ (List.decidableBAll _ (p.type.toList ++ p.name.toList))

/-! ### Joined texts -/

namespace Text

/-- Joined texts with the separator behind the last as well. -/
theorem toList_join_append (separator : String) {texts : List String} (hne : texts ≠ []) :
    (join separator texts).toList ++ separator.toList =
      texts.flatMap fun t => t.toList ++ separator.toList := by
  rw [join, String.toList_ofList]
  induction texts with
  | nil => exact absurd rfl hne
  | cons t texts ih =>
    cases texts with
    | nil => simp
    | cons u texts =>
      rw [List.flatMap_cons, ← ih (List.cons_ne_nil u texts), List.map_cons, List.map_cons,
        List.intercalate_cons_cons, List.append_assoc, List.append_assoc]

theorem flatMap_inj {c : Char} {separator : List Char} {texts texts' : List String}
    (h : ∀ t ∈ texts, c ∉ t.toList) (h' : ∀ t ∈ texts', c ∉ t.toList)
    (heq : (texts.flatMap fun t => t.toList ++ c :: separator) =
      texts'.flatMap fun t => t.toList ++ c :: separator) : texts = texts' := by
  induction texts generalizing texts' with
  | nil =>
    cases texts' with
    | nil => rfl
    | cons t' texts' => simp at heq
  | cons t texts ih =>
    cases texts' with
    | nil => simp at heq
    | cons t' texts' =>
      -- the first `c` is that of the first separator on either side
      rw [List.forall_mem_cons] at h h'
      rw [List.flatMap_cons, List.flatMap_cons, List.append_assoc, List.append_assoc,
        List.cons_append, List.cons_append, append_cons_inj h.1 h'.1, String.toList_inj,
        List.append_cancel_left_eq] at heq
      obtain ⟨rfl, hrest⟩ := heq
      rw [ih h.2 h'.2 hrest]

theorem join_eq_empty {separator : String} {texts : List String} (h : ∀ t ∈ texts, t ≠ "")
    (heq : join separator texts = "") : texts = [] := by
  by_contra hne
  have hjoin := congrArg List.length (toList_join_append separator hne)
  obtain ⟨t, rest, rfl⟩ := List.exists_cons_of_ne_nil hne
  have hlength : t.toList.length ≠ 0 := by
    simpa using h t List.mem_cons_self
  rw [heq, List.flatMap_cons, List.length_append, List.length_append, List.length_append] at hjoin
  simp only [String.toList_empty, List.length_nil] at hjoin
  omega

/-- Texts can be told apart once they are joined, if none of them is empty or has the character with
which the separator begins. -/
theorem join_inj {separator : String} {c : Char} {texts texts' : List String}
    (hc : separator.toList.head? = some c) (h : ∀ t ∈ texts, t ≠ "" ∧ c ∉ t.toList)
    (h' : ∀ t ∈ texts', t ≠ "" ∧ c ∉ t.toList)
    (heq : join separator texts = join separator texts') : texts = texts' := by
  obtain ⟨rest, hseparator⟩ := List.head?_eq_some_iff.mp hc
  by_cases hne : texts = []
  · subst hne
    exact (join_eq_empty (fun t ht => (h' t ht).1) heq.symm).symm
  · by_cases hne' : texts' = []
    · subst hne'
      exact join_eq_empty (fun t ht => (h t ht).1) heq
    · have hflat := toList_join_append separator hne
      rw [heq, toList_join_append separator hne', hseparator] at hflat
      exact flatMap_inj (fun t ht => (h t ht).2) (fun t ht => (h' t ht).2) hflat.symm

end Text

/-! ### One parameter -/

namespace Parameter.Plain

variable {p q : Parameter} {c : Char}

theorem of_mem_type (h : p.Plain) (hc : c ∈ p.type.toList) :
    isBlank c = false ∧ c ≠ ',' ∧ c ≠ ')' :=
  h.2 c (List.mem_append_left _ hc)

theorem of_mem_name (h : p.Plain) (hc : c ∈ p.name.toList) :
    isBlank c = false ∧ c ≠ ',' ∧ c ≠ ')' :=
  h.2 c (List.mem_append_right _ hc)

theorem space_notMem_type (h : p.Plain) : ' ' ∉ p.type.toList := by
  intro hmem
  exact absurd (h.of_mem_type hmem).1 (by decide)

/-- A parameter is shown by its type, and by its name if it has one. -/
theorem trim_eq (h : p.Plain) : trim (p.type ++ " " ++ p.name) =
    if p.name = "" then p.type else p.type ++ " " ++ p.name := by
  have hhead : ∀ c ∈ p.type.toList.head?, isBlank c = false := fun c hc =>
    (h.of_mem_type (List.mem_of_mem_head? hc)).1
  apply String.toList_injective
  rw [trim, String.toList_ofList]
  split_ifs with hname
  · have hlast : ∀ c ∈ p.type.toList.getLast?, isBlank c = false := fun c hc =>
      (h.of_mem_type (List.mem_of_mem_getLast? hc)).1
    rw [hname, String.append_empty, String.toList_append]
    exact @trimBy_append isBlank [] _ [' '] (by simp) (by decide : Blanks [' ']) hhead hlast
  · have hne : p.name.toList ≠ [] := by simpa using hname
    have hlast : ∀ c ∈ (p.type ++ " " ++ p.name).toList.getLast?, isBlank c = false := by
      rw [String.toList_append, List.getLast?_append_of_ne_nil _ hne]
      exact fun c hc => (h.of_mem_name (List.mem_of_mem_getLast? hc)).1
    have hhead' : ∀ c ∈ (p.type ++ " " ++ p.name).toList.head?, isBlank c = false := by
      rw [String.toList_append, String.toList_append, List.append_assoc,
        List.head?_append_of_ne_nil _ (by simpa using h.1)]
      exact hhead
    have htrim := @trimBy_append isBlank [] _ [] (by simp) (by simp) hhead' hlast
    rwa [List.nil_append, List.append_nil] at htrim

theorem mem_trim (h : p.Plain) (hc : c ∈ (trim (p.type ++ " " ++ p.name)).toList) :
    c ≠ ',' ∧ c ≠ ')' := by
  rw [h.trim_eq] at hc
  split_ifs at hc
  · exact (h.of_mem_type hc).2
  · rw [String.toList_append, String.toList_append, List.mem_append, List.mem_append] at hc
    rcases hc with (hc | hc) | hc
    · exact (h.of_mem_type hc).2
    · obtain rfl : c = ' ' := List.mem_singleton.mp hc
      decide
    · exact (h.of_mem_name hc).2

theorem trim_ne_empty (h : p.Plain) : trim (p.type ++ " " ++ p.name) ≠ "" := by
  rw [h.trim_eq]
  split_ifs
  · exact h.1
  · simp

/-- Type and name can be read off what is shown. -/
theorem trim_inj (hp : p.Plain) (hq : q.Plain)
    (heq : trim (p.type ++ " " ++ p.name) = trim (q.type ++ " " ++ q.name)) :
    p.type = q.type ∧ p.name = q.name := by
  -- with a name there is a blank behind the type, without one there is none
  rw [hp.trim_eq, hq.trim_eq] at heq
  split_ifs at heq with hname hname'
  · exact ⟨heq, hname.trans hname'.symm⟩
  · exact absurd (by simp [heq]) hp.space_notMem_type
  · exact absurd (by simp [← heq]) hq.space_notMem_type
  · have hlist := congrArg String.toList heq
    simp only [String.toList_append, List.append_assoc] at hlist
    obtain ⟨htype, hname⟩ :=
      (append_cons_inj hp.space_notMem_type hq.space_notMem_type).mp hlist
    exact ⟨String.toList_inj.mp htype, String.toList_inj.mp hname⟩

end Parameter.Plain

/-! ### Signatures -/

namespace Signature

variable {parameters parameters' : List Parameter}

theorem parameterList_inj (h : ∀ p ∈ parameters, p.Plain) (h' : ∀ p ∈ parameters', p.Plain)
    (heq : parameterList parameters = parameterList parameters') :
    parameters.map (fun p => (p.type, p.name)) = parameters'.map fun p => (p.type, p.name) := by
  have htexts : ∀ ps : List Parameter, (∀ p ∈ ps, p.Plain) →
      ∀ t ∈ ps.map fun p => trim (p.type ++ " " ++ p.name), t ≠ "" ∧ ',' ∉ t.toList := by
    intro ps hps t ht
    obtain ⟨p, hp, rfl⟩ := List.mem_map.mp ht
    exact ⟨(hps p hp).trim_ne_empty, fun hc => ((hps p hp).mem_trim hc).1 rfl⟩
  -- commas stand between parameters only, so the texts of the parameters agree
  have hshown := join_inj (by rfl) (htexts parameters h) (htexts parameters' h') heq
  clear heq
  induction parameters generalizing parameters' with
  | nil =>
    rw [List.map_nil, eq_comm, List.map_eq_nil_iff] at hshown
    rw [hshown]
  | cons p ps ih =>
    cases parameters' with
    | nil => cases hshown
    | cons p' ps' =>
      rw [List.forall_mem_cons] at h h'
      obtain ⟨hfirst, hrest⟩ := List.cons.inj hshown
      obtain ⟨htype, hname⟩ := h.1.trim_inj h'.1 hfirst
      rw [List.map_cons, List.map_cons, htype, hname, ih h.2 h'.2 hrest]

theorem closing_notMem_parameterList (h : ∀ p ∈ parameters, p.Plain) :
    ')' ∉ (parameterList parameters).toList := by
  intro hmem
  rcases mem_toList_join hmem with hmem | ⟨t, ht, hmem⟩
  · revert hmem
    decide
  · obtain ⟨p, hp, rfl⟩ := List.mem_map.mp ht
    exact ((h p hp).mem_trim hmem).2 rfl

/-- The types of the parameters can be read off a signature of a known name. -/
theorem types_of_build {name : String} {returns returns' : List Parameter}
    {visibility visibility' mutability mutability' : String} (h : ∀ p ∈ parameters, p.Plain)
    (h' : ∀ p ∈ parameters', p.Plain)
    (heq : build name parameters returns visibility mutability =
      build name parameters' returns' visibility' mutability') :
    parameters.map (·.type) = parameters'.map (·.type) := by
  have hlist := congrArg String.toList heq
  -- name and opening parenthesis are the same, and the next closing one ends the parameters
  simp only [build, String.toList_append, List.append_assoc, List.append_cancel_left_eq] at hlist
  have hparameters := (append_cons_inj (closing_notMem_parameterList h)
    (closing_notMem_parameterList h')).mp hlist
  have hpairs := parameterList_inj h h' (String.toList_inj.mp hparameters.1)
  have htypes := congrArg (List.map Prod.fst) hpairs
  rw [List.map_map, List.map_map] at htypes
  exact htypes

end Signature

/-! ### Repositories -/

/-- Whether an entity is one of the functions of a name in a file, with the signature that its own
fields give. -/
def Entity.Overload (file name : String) (e : Entity) : Prop :=
  e.file = file ∧ e.name = name ∧ (∀ p ∈ e.parameters, p.Plain) ∧
    e.signature = Signature.build e.name e.parameters e.returns e.visibility e.mutability

instance (file name : String) : DecidablePred (Entity.Overload file name) := fun e =>
  inferInstanceAs (Decidable (e.file = file ∧ e.name = name ∧ _))

theorem Entity.Overload.types_of_identity {file name : String} {d e : Entity}
    (hd : d.Overload file name) (he : e.Overload file name) (heq : d.identity = e.identity) :
    d.parameters.map (·.type) = e.parameters.map (·.type) := by
  obtain ⟨hfile, hname, hplain, hsignature⟩ := hd
  obtain ⟨hfile', hname', hplain', hsignature'⟩ := he
  rw [identity, identity, hfile, hfile', hname, hname'] at heq
  have hbuilt : d.signature = e.signature := by simpa using heq
  rw [hsignature, hsignature', hname, hname'] at hbuilt
  exact Signature.types_of_build hplain hplain' hbuilt

/-- Overloads never share an identity.  Signatures of one name are equal only if the types of the
parameters are, whatever is returned and whatever visibility and mutability there are; so functions
of one name in one file with different types of parameters have different identities, and a
repository keeps all of them that it does not have already. -/
theorem overloads_kept :
    (∀ (name : String) (parameters parameters' returns returns' : List Parameter)
        (visibility visibility' mutability mutability' : String),
      (∀ p ∈ parameters, p.Plain) → (∀ p ∈ parameters', p.Plain) →
        Signature.build name parameters returns visibility mutability =
            Signature.build name parameters' returns' visibility' mutability' →
          parameters.map (·.type) = parameters'.map (·.type)) ∧
      ∀ (file name : String) (es : List Entity), (∀ e ∈ es, e.Overload file name) →
        (es.map fun e => e.parameters.map (·.type)).Nodup →
          (es.map Entity.identity).Nodup ∧ ∀ r : Repository,
            (r.addAll es).entities =
              r.entities ++ es.filter fun e => !r.contains e.identity := by
  constructor
  · intro name parameters parameters' _ _ _ _ _ _ h h' heq
    exact Signature.types_of_build h h' heq
  · intro file name es hes htypes
    -- equal identities would mean equal types
    have hidentities : (es.map Entity.identity).Nodup := by
      refine List.Nodup.map_on ?_ htypes.of_map
      intro d hd e he heq
      exact List.inj_on_of_nodup_map htypes hd he ((hes d hd).types_of_identity (hes e he) heq)
    refine ⟨hidentities, fun r => ?_⟩
    rw [Repository.entities_addAll, Repository.newAmong, keepFirst_eq_self _ hidentities]

/-- Overloads with and without names, returned values and a visibility of their own. -/
def transfers : List Entity :=
  [{ name := "transfer", file := "Token.sol", signature := "transfer()" },
    { name := "transfer", file := "Token.sol", visibility := "public",
      signature := "transfer(address to, uint256) public returns (bool)",
      parameters := [{ type := "address", name := "to" }, { type := "uint256" }],
      returns := [{ type := "bool" }] },
    { name := "transfer", file := "Token.sol", mutability := "view",
      signature := "transfer(address, uint256[] amounts) view",
      parameters := [{ type := "address" }, { type := "uint256[]", name := "amounts" }] }]

theorem overloads_kept_transfers :
    (∀ e ∈ transfers, e.Overload "Token.sol" "transfer") ∧
      (transfers.map fun e => e.parameters.map (·.type)).Nodup ∧
      (transfers.map Entity.identity).Nodup ∧
      (({} : Repository).addAll transfers).entities = transfers := by
  have hoverloads : ∀ e ∈ transfers, e.Overload "Token.sol" "transfer" := by decide
  have htypes : (transfers.map fun e => e.parameters.map (·.type)).Nodup := by decide
  obtain ⟨hidentities, hkept⟩ := overloads_kept.2 "Token.sol" "transfer" transfers hoverloads htypes
  exact ⟨hoverloads, htypes, hidentities, hkept {}⟩

end CallAtlas

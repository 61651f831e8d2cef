import CallAtlas.Proofs.Analysis.Seeds
import CallAtlas.Proofs.Consistency
import CallAtlas.Proofs.Import.Composition
import CallAtlas.Proofs.Import.Retrieval
import CallAtlas.Proofs.Indexes

/-!
# Which function a run starts from

A name given from outside means the first declaration of that name that is no event.  Further rounds
of imports only add declarations behind those that are there, so once the name means something in
this way it keeps its meaning.  The declarations of the seed come first of all.  If one of them has
the name then that is meant however deep imports are followed, unless it was dropped because an
earlier declaration has its identity; identities do not tell an event from a function.

* `Repository.findFunction_iff`: what is found by its own name is the first of that name.
* `NoDeeper d d'`: no more rounds of imports are asked for by `d` than by `d'`.
* `grows_sessionAfter`: more rounds only add to what fewer come to.
* `Repository.Distinct r`: no two declarations have the same identity.
* `startFunction?_stable`: what a run starts from.
-/

namespace CallAtlas

open Import (Fetched Reference ingestImports repeated round rounds)

/-! ### Declarations of a name -/

/-- Whether a declaration has the name and is no event. -/
def Entity.goesBy (name : String) (e : Entity) : Bool :=
  e.name == name && e.kind != .event

theorem Entity.goesBy_iff {name : String} {e : Entity} :
    e.goesBy name = true ↔ e.name = name ∧ e.kind ≠ .event := by
  rw [goesBy, Bool.and_eq_true, beq_iff_eq, bne_iff_ne]

namespace Repository

variable {r : Repository} {name : String} {e : Entity}

theorem filter_goesBy (r : Repository) (name : String) :
    (r.entities.filter fun e => e.kind != .event).filter (fun e => e.name == name) =
      r.entities.filter (Entity.goesBy name) :=
  List.filter_filter

theorem findFunction_of_named {es : List Entity}
    (h : r.entities.filter (Entity.goesBy name) = e :: es) :
    (r.findFunction name).1 = some e := by
  rw [findFunction, filter_goesBy, h]
  cases es <;> rfl

/-- Where nothing has the name, what is found has another. -/
theorem name_ne_of_findFunction (h : r.entities.filter (Entity.goesBy name) = [])
    (hfound : (r.findFunction name).1 = some e) : e.name ≠ name := by
  rw [findFunction, filter_goesBy, h] at hfound
  dsimp only at hfound
  rcases hsignature : (r.entities.filter fun e => e.kind != .event).find? fun e =>
      Text.contains e.signature name with _ | d
  · rw [hsignature] at hfound
    cases hfound
  · rw [hsignature] at hfound
    cases hfound
    obtain ⟨hmem, hkind⟩ := List.mem_filter.mp (List.mem_of_find?_eq_some hsignature)
    intro hname
    exact List.filter_eq_nil_iff.mp h e hmem (Entity.goesBy_iff.mpr ⟨hname, bne_iff_ne.mp hkind⟩)

/-- A function is found by its own name iff it is the first declaration of that name that is no
event. -/
theorem findFunction_iff :
    (r.findFunction name).1 = some e ∧ e.name = name ↔
      r.entities.find? (Entity.goesBy name) = some e := by
  rw [← List.head?_filter]
  rcases hnamed : r.entities.filter (Entity.goesBy name) with _ | ⟨d, ds⟩
  · refine iff_of_false ?_ (Option.some_ne_none e).symm
    rintro ⟨hfound, hname⟩
    exact name_ne_of_findFunction hnamed hfound hname
  · have hd : d ∈ r.entities.filter (Entity.goesBy name) := hnamed ▸ List.mem_cons_self
    have hname : d.name = name := (Entity.goesBy_iff.mp (List.mem_filter.mp hd).2).1
    rw [findFunction_of_named hnamed, List.head?_cons]
    constructor
    · exact And.left
    · intro h
      cases h
      exact ⟨rfl, hname⟩

/-- What is found by its own name is found in whatever begins with the same declarations. -/
theorem findFunction_of_prefix {r' : Repository} (h : r.entities <+: r'.entities)
    (hfound : (r.findFunction name).1 = some e) (hname : e.name = name) :
    (r'.findFunction name).1 = some e :=
  (findFunction_iff.mpr (h.find?_eq_some (findFunction_iff.mp ⟨hfound, hname⟩))).1

end Repository

/-- The first of several that meets a condition is kept, and still the first, if it is also the
first of its key. -/
theorem find?_keepFirst {α β : Type} [DecidableEq β] {key : α → β} {xs : List α} {p : α → Bool}
    {x : α} (hx : xs.find? p = some x) (hkey : xs.find? (fun y => key y == key x) = some x) :
    (keepFirst key xs).find? p = some x := by
  obtain ⟨hp, front, back, rfl, hfront⟩ := List.find?_eq_some_iff_append.mp hx
  have hnew : key x ∉ front.map key := by
    intro hmem
    obtain ⟨y, hy, hyx⟩ := List.mem_map.mp hmem
    -- then the first of the key would stand in front, and the condition fails there
    rw [List.find?_append] at hkey
    rcases hfirst : front.find? (fun y => key y == key x) with _ | z
    · exact absurd (beq_iff_eq.mpr hyx) (List.find?_eq_none.mp hfirst y hy)
    · rw [hfirst, Option.some_or] at hkey
      cases hkey
      have hneg := hfront x (List.mem_of_find?_eq_some hfirst)
      rw [hp] at hneg
      cases hneg
  have hkept : (keepFirst key front).find? p = none := by
    rw [List.find?_eq_none]
    intro y hy hpy
    have hneg := hfront y (mem_of_mem_keepFirst key hy)
    rw [hpy] at hneg
    cases hneg
  rw [keepFirst_append, List.find?_append, hkept, Option.none_or, keepFirst,
    List.filter_cons_of_pos (by simpa using hnew), List.find?_cons_of_pos hp]

/-! ### Identities -/

/-- Whether no two declarations have the same identity. -/
def Repository.Distinct (r : Repository) : Prop :=
  (r.entities.map Entity.identity).Nodup

namespace Repository.Distinct

variable {r : Repository}

theorem add (h : r.Distinct) (e : Entity) : (r.add e).Distinct := by
  rw [Repository.add]
  split_ifs with hknown
  · exact h
  · rw [Distinct, List.map_append, List.map_singleton, List.nodup_append]
    refine ⟨h, List.nodup_singleton _, ?_⟩
    rintro _ hmem _ he rfl
    rw [List.mem_singleton.mp he] at hmem
    exact hknown (Repository.contains_iff.mpr hmem)

theorem addAll (h : r.Distinct) (es : List Entity) : (r.addAll es).Distinct := by
  induction es generalizing r with
  | nil => exact h
  | cons e es ih => exact ih (h.add e)

theorem eq_of_identity_eq (h : r.Distinct) {d e : Entity} (hd : d ∈ r.entities)
    (he : e ∈ r.entities) (heq : d.identity = e.identity) : d = e :=
  List.inj_on_of_nodup_map h hd he heq

end Repository.Distinct

/-- Whether the declarations of a session are distinct. -/
def Session.Distinct (s : Session) : Prop :=
  s.repository.Distinct

namespace Session.Distinct

variable {env : Environment} {s : Session}

theorem take (h : s.Distinct) (fetched : Fetched) : (s.take env fetched).Distinct := by
  cases hknown : s.ingested.contains fetched.location.key with
  | true => rwa [take_of_known hknown]
  | false =>
    rw [take_of_new env hknown]
    exact Repository.Distinct.addAll h _

theorem settle (h : s.Distinct) (ref : Reference) : (s.settle env ref).Distinct := by
  cases hsettled : s.isSettled ref.path with
  | true => rwa [Session.settle, if_pos hsettled]
  | false =>
    rw [settle_eq env hsettled]
    exact h

end Session.Distinct

/-! ### More rounds -/

namespace Import

theorem grows_repeated (env : Environment) (n : Nat) :
    Run.Respects Session.Grows (repeated env n) := by
  induction n with
  | zero => exact Run.respects_pure ()
  | succ n ih => exact Run.Respects.bind (fun p => (withinRound_round env p).grows) fun _ => ih

/-- More rounds only add to what fewer come to. -/
theorem grows_repeated_of_le (env : Environment) {n m : Nat} (h : n ≤ m) (p : Progress) :
    (repeated env n p).2.session.Grows (repeated env m p).2.session := by
  -- the longer run is the shorter one with `k` rounds behind it
  obtain ⟨k, rfl⟩ := Nat.exists_eq_add_of_le h
  rw [repeated_add]
  exact Run.respects_after _ (fun _ => grows_repeated env k) p

theorem session_ingestImports (env : Environment) (bound : Int) {p : Progress}
    (hs : p.session.Filed) :
    (ingestImports env bound p).2.session = (repeated env bound.toNat p).2.session := by
  have halike := rounds_alike env bound 0 bound.toNat hs (Eq.refl p.session)
  rw [← halike.2, ingestImports]
  rcases hrounds : rounds env bound 0 bound.toNat p with ⟨_ | _, q⟩
  · rw [Run.bind_of_none hrounds]
  · rw [Run.bind_of_some hrounds]
    rfl

end Import

namespace Analysis

/-- No more rounds of imports are asked for by the one than by the other.  Without a depth imports
are left alone. -/
def NoDeeper (depth depth' : Option Int) : Prop :=
  ∀ n ∈ depth, ∃ m ∈ depth', n ≤ m

theorem noDeeper_none (depth : Option Int) : NoDeeper none depth := by
  intro n hn
  cases hn

/-- The session after a run that starts from the beginning. -/
def sessionAfter (env : Environment) (url : String) (depth : Option Int) (startedAt : String) :
    Session :=
  (analyze env [url] depth { session := { startedAt := startedAt } }).2.session

/-- The declaration that a name means after a run that starts from the beginning. -/
def startFunction? (env : Environment) (url name : String) (depth : Option Int)
    (startedAt : String) : Option Entity :=
  ((sessionAfter env url depth startedAt).repository.findFunction name).1

section

variable {env : Environment} {url name startedAt : String} {depth depth' : Option Int}

theorem session_finish (env : Environment) (depth : Option Int) (p : Progress) :
    (finish env depth p).2.session =
      depth.elim p.session fun bound => (ingestImports env bound p).2.session := by
  cases depth with
  | none => rfl
  | some bound =>
    rw [Option.elim_some, finish]
    dsimp only
    rcases hrun : ingestImports env bound p with ⟨_ | coverage, q⟩
    · rw [Run.bind_of_none hrun]
    · rw [Run.bind_of_some hrun]
      rfl

theorem grows_finish (h : NoDeeper depth depth') {p : Progress} (hs : p.session.Filed) :
    (finish env depth p).2.session.Grows (finish env depth' p).2.session := by
  rw [session_finish, session_finish]
  cases depth with
  | none =>
    cases depth' with
    | none => exact .rfl _
    | some m => exact Import.grows_ingestImports env m p
  | some n =>
    obtain ⟨m, rfl, hle⟩ := h n rfl
    rw [Option.elim_some, Option.elim_some, Import.session_ingestImports env n hs,
      Import.session_ingestImports env m hs]
    exact Import.grows_repeated_of_le env (Int.toNat_le_toNat hle) p

/-- A run over one address: what the seed comes to decides whether imports are followed. -/
theorem analyze_singleton (env : Environment) (url : String) (depth : Option Int) :
    analyze env [url] depth = (do
      match ← seed env url with
      | .ok () => do
        finish env depth
        return .ok ()
      | .error failure => do
        Run.log (.error failure.message)
        return .error failure) := by
  rw [analyze, List.isEmpty_cons, if_neg Bool.false_ne_true]
  dsimp only [seedAll]
  rw [bind_assoc]
  congr 1
  funext result
  rcases result with failure | ⟨⟩
  · rfl
  · rfl

/-- After the seed, more rounds only add to what fewer come to. -/
theorem grows_sessionAfter (env : Environment) (url : String) (h : NoDeeper depth depth')
    (startedAt : String) :
    (sessionAfter env url depth startedAt).Grows (sessionAfter env url depth' startedAt) := by
  have hfiled : (seed env url { session := { startedAt := startedAt } }).2.session.Filed := by
    refine seed_respects (R := Session.Keeps Session.Filed) ?_ ?_ ?_ url _ ?_
    · exact fun s l hs => ⟨hs.path_eq, hs.known⟩
    · exact fun s l hs => ⟨hs.path_eq, hs.known⟩
    · exact fun s fetched hs => hs.take env fetched
    · exact ⟨nofun, fun _ hsettled => absurd hsettled Bool.false_ne_true⟩
  rw [sessionAfter, sessionAfter, analyze_singleton, analyze_singleton]
  -- up to the end of the seed both runs are one; only if that succeeds do they part
  rcases hseed : seed env url { session := { startedAt := startedAt } } with ⟨_ | failure | ⟨⟩, q⟩
  · rw [Run.bind_of_none hseed, Run.bind_of_none hseed]
    exact .rfl _
  · rw [Run.bind_of_some hseed, Run.bind_of_some hseed]
    exact .rfl _
  · rw [hseed] at hfiled
    rw [Run.bind_of_some hseed, Run.bind_of_some hseed]
    have hend : ∀ depth, ((finish env depth >>= fun _ => return .ok () : Run (Except Failure Unit))
        q).2.session = (finish env depth q).2.session := by
      intro depth
      exact (Run.respects_after (R := Eq) _ (fun _ => Run.respects_pure _) q).symm
    dsimp only
    rw [hend, hend]
    exact grows_finish h hfiled

theorem distinct_sessionAfter (env : Environment) (url : String) (depth : Option Int)
    (startedAt : String) : (sessionAfter env url depth startedAt).Distinct := by
  have hseed : Run.Respects (Session.Keeps Session.Distinct) (seed env url) :=
    seed_respects (fun _ _ hs => hs) (fun _ _ hs => hs) (fun _ fetched hs => hs.take fetched) url
  -- taking in files is all that changes declarations, in a seed as in a round
  have hround : ∀ s t : Session, s.WithinRound env t → Session.Keeps Session.Distinct s t :=
    fun s t h => h.respects (fun _ ref hs => hs.settle ref) fun _ fetched hs => hs.take fetched
  have hfinish : Run.Respects (Session.Keeps Session.Distinct) (finish env depth) := by
    intro p
    rw [session_finish]
    cases depth with
    | none => exact id
    | some bound => exact Import.respects_ingestImports hround bound p
  have hrun : Run.Respects (Session.Keeps Session.Distinct) (analyze env [url] depth) := by
    rw [analyze_singleton]
    refine hseed.bind fun result => ?_
    rcases result with failure | ⟨⟩
    · exact (Run.respects_logAll _).bind fun _ => Run.respects_pure _
    · exact hfinish.bind fun _ => Run.respects_pure _
  exact hrun _ List.nodup_nil

theorem session_seed {file : Fetched} (hfile : fetched? env url = some file) (p : Progress) :
    (seed env url p).2.session = Session.take env
      { p.session.noteAsked file.location with seeds := p.session.seeds ++ [file.location] }
      file := by
  obtain ⟨hurl, hfetch⟩ := fetched?_eq_some.mp hfile
  unfold seed
  rw [hurl]
  dsimp only
  rw [Run.log_bind, Run.fetch_bind, hfetch]
  dsimp only
  rw [Run.update_bind]
  refine (Run.respects_after (R := Eq) _ (fun _ => ?_) _).symm.trans (Import.ingest_session _ _ _)
  refine Run.respects_session.bind fun s => ?_
  split_ifs
  · exact Run.respects_pure _
  · exact Run.respects_pure _

/-- Without imports, the declarations are those of the seed that are kept. -/
theorem entities_sessionAfter_none {file : Fetched} (hfile : fetched? env url = some file)
    {declarations : Source.Declarations}
    (hparse : env.parser.parse file.content file.location.path = .ok declarations)
    (startedAt : String) :
    (sessionAfter env url none startedAt).repository.entities =
      keepFirst Entity.identity declarations.entities := by
  have hsession : sessionAfter env url none startedAt =
      (seed env url { session := { startedAt := startedAt } }).2.session := by
    rw [sessionAfter, analyze_singleton]
    refine (Run.respects_after (R := Eq) _ (fun result => ?_) _).symm
    rcases result with failure | ⟨⟩
    · exact (Run.respects_logAll _).bind fun _ => Run.respects_pure _
    · exact Run.Respects.bind (fun p => (session_finish env none p).symm) fun _ =>
        Run.respects_pure _
  rw [hsession, session_seed hfile, Session.repository_take List.not_mem_nil ?_,
    Repository.entities_addAll]
  · exact Repository.newAmong_empty _
  · rw [Session.fileLabel_of_mem_seeds List.mem_cons_self]
    exact hparse

/-- The declarations of the seed that are kept come first, however deep imports are followed. -/
theorem prefix_sessionAfter {file : Fetched} (hfile : fetched? env url = some file)
    {declarations : Source.Declarations}
    (hparse : env.parser.parse file.content file.location.path = .ok declarations)
    (depth : Option Int) (startedAt : String) :
    keepFirst Entity.identity declarations.entities <+:
      (sessionAfter env url depth startedAt).repository.entities := by
  rw [← entities_sessionAfter_none hfile hparse startedAt]
  exact (grows_sessionAfter env url (noDeeper_none depth) startedAt).repository

/-- Whether a run has an answer, and which, does not depend on how deep imports are followed. -/
theorem answer_eq_of_depth (henv : env.parser.Steady) (url : String) (depth depth' : Option Int)
    (startedAt : String) :
    answer env [url] depth startedAt = answer env [url] depth' startedAt := by
  rw [answer, answer, analyze_singleton, analyze_singleton]
  rcases hseed : seed env url { session := { startedAt := startedAt } } with ⟨_ | failure | ⟨⟩, q⟩
  · rw [Run.bind_of_none hseed, Run.bind_of_none hseed]
  · rw [Run.bind_of_some hseed, Run.bind_of_some hseed]
  · obtain ⟨_, q₁, hfinish⟩ := finish_completes henv depth q
    obtain ⟨_, q₂, hfinish'⟩ := finish_completes henv depth' q
    rw [Run.bind_of_some hseed, Run.bind_of_some hseed]
    dsimp only
    rw [Run.bind_of_some hfinish, Run.bind_of_some hfinish']
    rfl

theorem entity_of_extract {request : Request} {x : Report.Extraction} {q : Progress}
    (h : extract env request { session := { startedAt := startedAt } } = (some (.ok x), q)) :
    startFunction? env request.url request.function request.importDepth startedAt =
      some x.entity := by
  obtain ⟨r, log, q', hanalyze, hfound, -⟩ := extract_apart h
  rw [startFunction?, sessionAfter, hanalyze]
  exact hfound

end

/-- **Following imports deeper does not change what a run starts from.**  What a name means, as the
name of a declaration that is no event, it means after every deeper run; and the deeper run has the
same answer.  If the seed can be read, the first declaration of the name that is kept of it is meant
however deep imports are followed.  That is the first one declared iff no declaration before that has
its identity.  An extraction starts from what its name means. -/
theorem startFunction?_stable (env : Environment) (url name startedAt : String) :
    (∀ depth depth' e, NoDeeper depth depth' →
      startFunction? env url name depth startedAt = some e → e.name = name →
        startFunction? env url name depth' startedAt = some e) ∧
    (env.parser.Steady → ∀ depth depth',
      answer env [url] depth startedAt = answer env [url] depth' startedAt) ∧
    (∀ file declarations, fetched? env url = some file →
      env.parser.parse file.content file.location.path = .ok declarations → ∀ e depth,
        ((keepFirst Entity.identity declarations.entities).find? (Entity.goesBy name) = some e →
          startFunction? env url name depth startedAt = some e) ∧
        (declarations.entities.find? (Entity.goesBy name) = some e →
          (startFunction? env url name depth startedAt = some e ↔
            declarations.entities.find? (fun d => d.identity == e.identity) = some e))) ∧
    ∀ request x q, request.url = url → request.function = name →
      extract env request { session := { startedAt := startedAt } } = (some (.ok x), q) →
        startFunction? env url name request.importDepth startedAt = some x.entity := by
  refine ⟨?_, fun henv depth depth' => answer_eq_of_depth henv url depth depth' startedAt, ?_, ?_⟩
  · intro depth depth' e hdepth hfound hname
    exact Repository.findFunction_of_prefix
      (grows_sessionAfter env url hdepth startedAt).repository hfound hname
  · intro file declarations hfile hparse e depth
    -- what is kept of the seed stays in front of all that imports bring
    have hkeptFirst := prefix_sessionAfter hfile hparse depth startedAt
    have hkept : (keepFirst Entity.identity declarations.entities).find? (Entity.goesBy name) =
        some e → startFunction? env url name depth startedAt = some e :=
      fun h => (Repository.findFunction_iff.mpr (hkeptFirst.find?_eq_some h)).1
    refine ⟨hkept, fun hfirst => ⟨fun hstart => ?_, fun hidentity => ?_⟩⟩
    · -- the declaration that is kept under the identity of `e` is `e`, since that is there
      have he : e ∈ declarations.entities := List.mem_of_find?_eq_some hfirst
      have hname : e.name = name := (Entity.goesBy_iff.mp (List.find?_some hfirst)).1
      have hthere : e ∈ (sessionAfter env url depth startedAt).repository.entities :=
        List.mem_of_find?_eq_some (Repository.findFunction_iff.mp ⟨hstart, hname⟩)
      obtain ⟨d, hd, hde⟩ := List.mem_map.mp
        ((mem_map_keepFirst Entity.identity _ _).mpr (List.mem_map_of_mem he))
      have heq : d = e := (distinct_sessionAfter env url depth startedAt).eq_of_identity_eq
        (hkeptFirst.subset hd) hthere hde
      rw [heq] at hd
      exact find?_of_mem_keepFirst Entity.identity hd
    · exact hkept (find?_keepFirst hfirst hidentity)
  · rintro request x q rfl rfl hextract
    exact entity_of_extract hextract

/-- The function of a seed. -/
def seedRun : Entity :=
  { name := "run", signature := "run()", file := "A.sol", contract := "A" }

/-- A function of a file that is imported. -/
def importedHalt : Entity :=
  { name := "halt", signature := "halt()", file := "B.sol", contract := "B" }

/-- A seed that declares a function and imports a file, which declares a function of the same name
and another one. -/
def twoLayers : Environment where
  fetch l :=
    if l.path = "A.sol" || l.path = "B.sol" then .ok "" else .error (.plain .notFound l)
  parser.parse _ file :=
    if file = "A.sol" then .ok { entities := [seedRun], imports := [⟨"./B.sol", file⟩] }
    else .ok { entities := [{ seedRun with file := file, contract := "B" }, importedHalt] }

/-- The name that both files declare means the function of the seed.  The other one means nothing
without imports, and its own function from one round on. -/
theorem startFunction?_stable_twoLayers :
    let url := "https://github.com/acme/vault/blob/main/A.sol"
    startFunction? twoLayers url "halt" none "" = none ∧
      (∀ n : Int, 1 ≤ n → startFunction? twoLayers url "halt" (some n) "" = some importedHalt) ∧
      ∀ depth, startFunction? twoLayers url "run" depth "" = some seedRun := by
  intro url
  have hnone : startFunction? twoLayers url "halt" none "" = none := by decide +kernel
  have hone : startFunction? twoLayers url "halt" (some 1) "" = some importedHalt := by
    decide +kernel
  have hfile : fetched? twoLayers url = some ⟨⟨"acme", "vault", "main", "A.sol"⟩, ""⟩ := by
    decide +kernel
  obtain ⟨hdeeper, -⟩ := startFunction?_stable twoLayers url "halt" ""
  obtain ⟨-, -, hseed, -⟩ := startFunction?_stable twoLayers url "run" ""
  refine ⟨hnone, fun n hn => ?_, fun depth => ?_⟩
  · refine hdeeper (some 1) (some n) importedHalt ?_ hone rfl
    intro m hm
    cases hm
    exact ⟨n, rfl, hn⟩
  · exact (hseed _ _ hfile rfl seedRun depth).1 (by decide +kernel)

/-- A seed in which a function comes behind an event of the same identity. -/
def eclipsed : Environment where
  fetch _ := .ok ""
  parser.parse _ file :=
    .ok { entities := [
      { kind := .event, name := "f", signature := "f()", file := file, contract := "A" },
      { name := "f", signature := "f()", file := file, contract := "B" }] }

/-- The first declaration of a name in the seed need not be what the name means: behind an event of
the same identity it is dropped. -/
theorem not_start_of_first_declared :
    ¬ ∀ env url name startedAt depth file declarations e, fetched? env url = some file →
      env.parser.parse file.content file.location.path = .ok declarations →
      declarations.entities.find? (Entity.goesBy name) = some e →
        startFunction? env url name depth startedAt = some e := by
  intro h
  have hfile : fetched? eclipsed "https://github.com/acme/vault/blob/main/A.sol" =
      some ⟨⟨"acme", "vault", "main", "A.sol"⟩, ""⟩ := by decide +kernel
  have hnone : startFunction? eclipsed "https://github.com/acme/vault/blob/main/A.sol" "f" none "" =
      none := by decide +kernel
  have hsome := h eclipsed _ "f" "" none _ _ _ hfile rfl rfl
  rw [hnone] at hsome
  cases hsome

end Analysis

end CallAtlas

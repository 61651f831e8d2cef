import CallAtlas.Proofs.AppendOnly
import CallAtlas.Proofs.Import.Composition
import CallAtlas.Proofs.Import.Relative

/-!
# Sessions are consistent

The tables of a session are written by seeding, by runs over imports, and by searches for
implementations while trees are built.  Between such steps they always fit together.

* `Session.Orderly s`: what every single write to a session keeps.
* `Session.TookFound s`: what imports were found at is taken in.  This fails within a round, after
  imports are settled and before files are taken in, and holds again at its end.
* `Step env s t`, `Reachable env s`: what one operation does, and what any number of them lead to.
* `reachable_consistent`: what holds of every session that is reached.
-/

namespace CallAtlas

open Import (Fetched Reference classify ingest ingestImports verdict)

/-! ### Files of declarations -/

namespace Source

/-- Whether each declaration that a parser reports has the file it reads as its file. -/
def Parser.StampsFiles (parser : Parser) : Prop :=
  ∀ text file declarations, parser.parse text file = .ok declarations →
    ∀ e ∈ declarations.entities, e.file = file

theorem Reading.file_of_member? {r : Reading} {n : Node} {contract : String} {e : Entity}
    (h : r.member? n contract = some e) : e.file = r.file := by
  rw [Reading.member?] at h
  split_ifs at h
  · cases h
    rfl
  · cases h
    rfl
  · cases h
    rfl
  · obtain ⟨name, -, h⟩ := Option.bind_eq_some_iff.mp h
    cases h
    rfl

theorem Reading.file_of_mem_topLevel {r : Reading} {n : Node} {e : Entity}
    (h : e ∈ r.topLevel n) : e.file = r.file := by
  rw [Reading.topLevel] at h
  split_ifs at h
  · rw [Reading.containerMembers] at h
    split at h
    · cases h
    · obtain ⟨m, -, hm⟩ := List.mem_filterMap.mp h
      exact Reading.file_of_member? hm
  · exact Reading.file_of_member? (Option.mem_toList.mp h)
  · cases h

theorem stampsFiles_grammarParser (options : ParserOptions)
    (grammar : Except GrammarFault (String → Tree)) :
    (grammarParser options grammar).StampsFiles := by
  intro text file declarations h e he
  rcases grammar with fault | grammar
  · cases fault <;> cases h
  · change ofTree options (grammar text) text file = .ok declarations at h
    rw [ofTree] at h
    split_ifs at h
    cases h
    obtain ⟨n, -, hn⟩ := List.mem_flatMap.mp he
    exact Reading.file_of_mem_topLevel hn

end Source

namespace Table

variable {α : Type} {t : Table α} {k : String} {v : α}

theorem nodup_keys_append (h : t.keys.Nodup) (hk : t.has k = false) :
    (t ++ [(k, v)] : Table α).keys.Nodup := by
  rw [keys, List.map_append, List.map_singleton, List.nodup_append]
  refine ⟨h, List.nodup_singleton k, ?_⟩
  rintro _ hmem _ hk' rfl
  rw [List.mem_singleton.mp hk'] at hmem
  rw [has_iff.mpr hmem] at hk
  cases hk

theorem nodup_keys_insertNew (h : t.keys.Nodup) : (t.insertNew k v).keys.Nodup := by
  cases hk : t.has k with
  | true => rwa [insertNew_of_has hk]
  | false =>
    rw [insertNew_of_not_has hk]
    exact nodup_keys_append h hk

end Table

/-! ### What every write keeps -/

namespace Session

/-- What every single write to a session keeps. -/
structure Orderly (s : Session) : Prop extends Filed s where
  nodup_discovered : s.discovered.keys.Nodup
  nodup_processed : s.processed.keys.Nodup
  nodup_failed : s.failed.keys.Nodup
  disjoint : s.processed.keys.Disjoint s.failed.keys
  external_iff : ∀ entry ∈ s.failed, entry.2 = .external ↔ classify entry.1 = .external
  resolvable : ∀ path ∈ s.processed.keys, classify path ≠ .external
  entities : ∀ e ∈ s.repository.entities, s.locations.has e.file = true
  unparsed : ∀ file ∈ s.unparsed, s.locations.has file = true
  nodup_ingested : s.ingested.Nodup
  parses : s.parses = s.ingested.length

/-- What imports were found at is taken in. -/
def TookFound (s : Session) : Prop :=
  ∀ entry ∈ s.processed, entry.2.key ∈ s.ingested

namespace Orderly

variable {env : Environment} {s : Session} {path : String}

theorem fresh (startedAt : String) : Orderly { startedAt := startedAt } where
  path_eq := nofun
  known _ h := absurd h Bool.false_ne_true
  nodup_discovered := List.nodup_nil
  nodup_processed := List.nodup_nil
  nodup_failed := List.nodup_nil
  disjoint := nofun
  external_iff := nofun
  resolvable := nofun
  entities := nofun
  unparsed := nofun
  nodup_ingested := List.nodup_nil
  parses := rfl

theorem markFailed (hs : s.Orderly) (hnew : s.isSettled path = false)
    (hknown : s.discovered.has path = true) {why : Failure}
    (hwhy : why = .external ↔ classify path = .external) : (s.markFailed path why).Orderly := by
  obtain ⟨hprocessed, hfailed⟩ := Bool.or_eq_false_iff.mp hnew
  rw [Session.markFailed, Table.insertNew_of_not_has hfailed]
  refine { hs with
    known := ?_
    nodup_failed := Table.nodup_keys_append hs.nodup_failed hfailed
    disjoint := ?_
    external_iff := ?_ }
  · intro other hother
    rw [isSettled, Table.has_append, ← Bool.or_assoc, Bool.or_eq_true, Table.has_singleton]
      at hother
    rcases hother with hother | rfl
    · exact hs.known other hother
    · exact hknown
  · -- a path that fails was not processed
    intro other hother hother'
    rw [Table.keys, List.map_append, List.map_singleton, List.mem_append, List.mem_singleton]
      at hother'
    rcases hother' with hother' | rfl
    · exact hs.disjoint hother hother'
    · rw [Table.has_iff.mpr hother] at hprocessed
      cases hprocessed
  · -- the new entry is external iff its path is
    intro entry hentry
    rcases List.mem_append.mp hentry with hentry | hentry
    · exact hs.external_iff entry hentry
    · rw [List.mem_singleton.mp hentry]
      exact hwhy

theorem markProcessed (hs : s.Orderly) (hnew : s.isSettled path = false)
    (hknown : s.discovered.has path = true) (hpath : classify path ≠ .external) (l : Location) :
    (s.markProcessed path l).Orderly := by
  obtain ⟨hprocessed, hfailed⟩ := Bool.or_eq_false_iff.mp hnew
  have hkeys : Table.keys (s.processed ++ [(path, l)]) = s.processed.keys ++ [path] := by
    rw [Table.keys, List.map_append, List.map_singleton, Table.keys]
  rw [Session.markProcessed, Table.insert_of_not_has hprocessed]
  refine { hs with
    known := ?_
    nodup_processed := Table.nodup_keys_append hs.nodup_processed hprocessed
    disjoint := ?_
    resolvable := ?_ }
  · intro other hother
    rw [isSettled, Table.has_append, Bool.or_right_comm, Bool.or_eq_true, Table.has_singleton]
      at hother
    rcases hother with hother | rfl
    · exact hs.known other hother
    · exact hknown
  · -- a path that is processed had not failed
    rw [hkeys, List.disjoint_append_left]
    refine ⟨hs.disjoint, ?_⟩
    rw [List.singleton_disjoint]
    intro hmem
    rw [Table.has_iff.mpr hmem] at hfailed
    cases hfailed
  · rw [hkeys]
    intro other hother
    rcases List.mem_append.mp hother with hother | hother
    · exact hs.resolvable other hother
    · rwa [List.mem_singleton.mp hother]

theorem noteTried (hs : s.Orderly) (ls : List Location) : (s.noteTried ls).Orderly :=
  { hs with }

theorem settle (hs : s.Orderly) {ref : Reference} (hknown : s.discovered.has ref.path = true) :
    (s.settle env ref).Orderly := by
  rw [Session.settle]
  split_ifs with hsettled
  · exact hs
  · -- what is tried plays no part, and is not to be computed
    generalize Import.triedFor env ref.path (s.coordsFor? ref.origin) = ls
    have htried := hs.noteTried ls
    have hnew : (s.noteTried ls).isSettled ref.path = false := by
      rw [isSettled_noteTried]
      exact Bool.eq_false_iff.mpr hsettled
    by_cases hclass : classify ref.path = .external
    · have hverdict : verdict env ref.path (s.coordsFor? ref.origin) = .external := by
        unfold verdict
        rw [hclass]
      rw [hverdict]
      exact htried.markFailed hnew hknown (iff_of_true rfl hclass)
    · rw [Import.verdict_of_resolvable hclass]
      cases (Import.candidates ref.path (s.coordsFor? ref.origin)).find? env.serves with
      | none => exact htried.markFailed hnew hknown (iff_of_false (by decide) hclass)
      | some l => exact htried.markProcessed hnew hknown hclass l

theorem settleAll (hs : s.Orderly) {refs : List Reference}
    (hknown : ∀ ref ∈ refs, s.discovered.has ref.path = true) : (s.settleAll env refs).Orderly := by
  induction refs generalizing s with
  | nil => exact hs
  | cons ref refs ih =>
    refine ih (hs.settle (hknown ref List.mem_cons_self)) fun other hother => ?_
    rw [discovered_settle]
    exact hknown other (List.mem_cons_of_mem _ hother)

end Orderly

/-! ### Taking in a file -/

/-- Declarations that are new when a file is taken in belong to that file. -/
theorem file_of_mem_take {env : Environment} (hparser : env.parser.StampsFiles) {s : Session}
    {fetched : Fetched} {e : Entity} (he : e ∈ (s.take env fetched).repository.entities) :
    e ∈ s.repository.entities ∨ e.file = s.fileLabel fetched.location := by
  rcases mem_entities_take he with he | ⟨declarations, hparse, he⟩
  · exact .inl he
  · exact .inr (hparser _ _ _ hparse e he)

/-- Only the file that is taken in can be refused. -/
theorem file_of_mem_unparsed_take {env : Environment} {s : Session} {fetched : Fetched}
    {file : String} (h : file ∈ (s.take env fetched).unparsed) :
    file ∈ s.unparsed ∨ file = s.fileLabel fetched.location := by
  cases hnew : s.ingested.contains fetched.location.key with
  | true =>
    rw [take_of_known hnew] at h
    exact .inl h
  | false =>
    rw [take_of_new env hnew, List.mem_append, Option.mem_toList] at h
    exact h.imp_right eq_of_refused?

theorem nodup_foldl_insertNew {t : Table Reference} (h : t.keys.Nodup) (refs : List Reference) :
    (refs.foldl (fun t ref => t.insertNew ref.path ref) t).keys.Nodup := by
  induction refs generalizing t with
  | nil => exact h
  | cons ref refs ih => exact ih (Table.nodup_keys_insertNew h)

namespace Orderly

variable {env : Environment} {s : Session}

theorem take (hs : s.Orderly) (hparser : env.parser.StampsFiles) (fetched : Fetched) :
    (s.take env fetched).Orderly := by
  cases hnew : s.ingested.contains fetched.location.key with
  | true => rwa [take_of_known hnew]
  | false =>
    have hfiled := hs.toFiled.take env fetched
    have hentities := @file_of_mem_take env hparser s fetched
    have hunparsed := @file_of_mem_unparsed_take env s fetched
    rw [take_of_new env hnew] at hfiled hentities hunparsed ⊢
    -- the file has a location now, and so have all files that had one before
    have hlocated : ∀ file, s.locations.has file = true ∨ file = s.fileLabel fetched.location →
        (s.locations.insertNew (s.fileLabel fetched.location) fetched.location).has file =
          true := by
      rintro file (hfile | rfl)
      · exact Table.has_of_prefix (Table.prefix_insertNew _ _ _) hfile
      · exact Table.has_insertNew _ _ _
    refine { hs with
      toFiled := hfiled
      nodup_discovered := nodup_foldl_insertNew hs.nodup_discovered _
      entities := fun e he => hlocated _ ((hentities he).imp_left (hs.entities e))
      unparsed := fun file h => hlocated _ ((hunparsed h).imp_left (hs.unparsed file))
      nodup_ingested := ?_
      parses := ?_ }
    · rw [List.nodup_append]
      refine ⟨hs.nodup_ingested, List.nodup_singleton _, ?_⟩
      rintro key hkey _ hlast rfl
      rw [List.mem_singleton.mp hlast, ← List.contains_iff_mem, hnew] at hkey
      cases hkey
    · rw [List.length_append, List.length_singleton, hs.parses]

theorem takeAll (hs : s.Orderly) (hparser : env.parser.StampsFiles) (files : List Fetched) :
    (s.takeAll env files).Orderly := by
  induction files generalizing s with
  | nil => exact hs
  | cons first files ih => exact ih (hs.take hparser first)

theorem afterRound (hs : s.Orderly) (hparser : env.parser.StampsFiles) :
    (s.afterRound env).Orderly := by
  refine (hs.settleAll fun ref href => ?_).takeAll hparser _
  exact hs.known_of_pending (List.mem_map_of_mem href)

end Orderly

/-! ### What was found is taken in -/

namespace TookFound

variable {env : Environment} {s : Session}

theorem take (hs : s.TookFound) (fetched : Fetched) : (s.take env fetched).TookFound := by
  intro entry hentry
  rw [(s.frame_take env fetched).1] at hentry
  exact (s.grows_take env fetched).ingested.subset (hs entry hentry)

/-- A round takes in all that it fetched. -/
theorem afterRound (hs : s.TookFound) : (s.afterRound env).TookFound := by
  intro entry hentry
  obtain ⟨hfound, hingested⟩ := s.found_settleAll env s.pending
  have hmem : entry.2 ∈ (s.settleAll env s.pending).processed.map Prod.snd := by
    rw [Session.afterRound, processed_takeAll] at hentry
    exact List.mem_map_of_mem hentry
  rw [Session.afterRound, mem_ingested_takeAll, hingested]
  rw [hfound, List.mem_append, List.mem_map] at hmem
  rcases hmem with ⟨old, hold, heq⟩ | hfetched
  · rw [← heq]
    exact .inl (hs old hold)
  · exact .inr (List.mem_map_of_mem hfetched)

end TookFound

/-! ### What becomes of imports, counted -/

open scoped List

theorem perm_failed (s : Session) :
    (s.coverage.external ++ s.coverage.unreachable).Perm s.failed.keys := by
  have hsplit := (List.filter_append_perm (fun entry => entry.2 == .external) s.failed).map Prod.fst
  rwa [List.map_append] at hsplit

namespace Orderly

variable {s : Session}

/-- The known imports that are settled are those found somewhere and those given up. -/
theorem perm_settled (hs : s.Orderly) :
    (s.discovered.keys.filter s.isSettled).Perm (s.processed.keys ++ s.failed.keys) := by
  have hnodup : (s.processed.keys ++ s.failed.keys).Nodup :=
    List.nodup_append'.mpr ⟨hs.nodup_processed, hs.nodup_failed, hs.disjoint⟩
  rw [List.perm_ext_iff_of_nodup (hs.nodup_discovered.filter _) hnodup]
  intro path
  rw [List.mem_filter, List.mem_append, ← Table.has_iff, ← Table.has_iff, ← Table.has_iff,
    ← Bool.or_eq_true]
  exact ⟨And.right, fun h => ⟨hs.known path h, h⟩⟩

theorem map_pending (hs : s.Orderly) :
    s.pending.map Reference.path = s.discovered.keys.filter fun path => !s.isSettled path := by
  rw [pending, List.map_map, Table.keys, List.filter_map]
  refine List.map_congr_left fun entry hentry => ?_
  exact hs.path_eq entry (List.mem_of_mem_filter hentry)

/-- Each import that is known is resolved, external, unreachable or pending, and one of these
only. -/
theorem perm_found (hs : s.Orderly) :
    s.coverage.found.Perm (s.coverage.resolved ++ s.coverage.external ++ s.coverage.unreachable ++
      s.pending.map Reference.path) := by
  calc s.coverage.found
    _ ~ s.discovered.keys := List.mergeSort_perm _ _
    _ ~ s.discovered.keys.filter s.isSettled ++
          s.discovered.keys.filter fun path => !s.isSettled path :=
      (List.filter_append_perm _ _).symm
    _ ~ (s.processed.keys ++ s.failed.keys) ++ s.pending.map Reference.path := by
      rw [hs.map_pending]
      exact hs.perm_settled.append_right _
    _ ~ s.coverage.resolved ++ s.coverage.external ++ s.coverage.unreachable ++
          s.pending.map Reference.path := by
      rw [List.append_assoc s.coverage.resolved]
      exact (s.perm_failed.symm.append_left _).append_right _

end Orderly

/-- The tables of a session fit together. -/
structure Consistent (s : Session) : Prop where
  /-- No import is both found somewhere and given up. -/
  disjoint : s.processed.keys.Disjoint s.failed.keys
  processed_subset : s.processed.keys ⊆ s.discovered.keys
  failed_subset : s.failed.keys ⊆ s.discovered.keys
  /-- Each import that is known is counted once, as resolved, external, unreachable or pending. -/
  nodup_found : s.coverage.found.Nodup
  perm_found : s.coverage.found.Perm (s.coverage.resolved ++ s.coverage.external ++
    s.coverage.unreachable ++ s.pending.map Reference.path)
  length_found : s.coverage.found.length =
    s.coverage.resolved.length + s.coverage.failed.length + s.pending.length
  /-- The external imports are those given up as such. -/
  external_iff : ∀ entry ∈ s.failed, entry.2 = .external ↔ classify entry.1 = .external
  resolvable : ∀ path ∈ s.processed.keys, classify path ≠ .external
  /-- What imports were found at is taken in. -/
  tookFound : ∀ entry ∈ s.processed, entry.2.key ∈ s.ingested
  /-- Where a file comes from is known if it declares something or cannot be read. -/
  located : ∀ e ∈ s.repository.entities, s.locations.has e.file = true
  unparsed_located : ∀ file ∈ s.unparsed, s.locations.has file = true
  /-- Each file that is taken in is read once. -/
  nodup_ingested : s.ingested.Nodup
  parses : s.parses = s.ingested.length

theorem Orderly.consistent {s : Session} (hs : s.Orderly) (hfound : s.TookFound) :
    s.Consistent where
  disjoint := hs.disjoint
  processed_subset path hpath := by
    rw [← Table.has_iff] at hpath ⊢
    exact hs.known path (Bool.or_eq_true_iff.mpr (.inl hpath))
  failed_subset path hpath := by
    rw [← Table.has_iff] at hpath ⊢
    exact hs.known path (Bool.or_eq_true_iff.mpr (.inr hpath))
  nodup_found := (List.mergeSort_perm _ _).nodup_iff.mpr hs.nodup_discovered
  perm_found := hs.perm_found
  length_found := by
    rw [hs.perm_found.length_eq, Coverage.failed]
    simp only [List.length_append, List.length_map, Nat.add_assoc]
  external_iff := hs.external_iff
  resolvable := hs.resolvable
  tookFound := hfound
  located := hs.entities
  unparsed_located := hs.unparsed
  nodup_ingested := hs.nodup_ingested
  parses := hs.parses

/-- A property passes from `s` to `t`. -/
def Keeps (I : Session → Prop) (s t : Session) : Prop :=
  I s → I t

instance (I : Session → Prop) : IsPreorder Session (Keeps I) where
  refl _ := id
  trans _ _ _ h h' := h' ∘ h

end Session

/-! ### Operations -/

theorem Analysis.seed_respects {env : Environment} {R : Session → Session → Prop}
    [IsPreorder Session R] (hasked : ∀ s l, R s (Session.noteAsked s l))
    (hseed : ∀ s l, R s { s with seeds := s.seeds ++ [l] })
    (htake : ∀ s fetched, R s (s.take env fetched)) (url : String) :
    Run.Respects R (seed env url) := by
  unfold seed
  split
  · exact Run.respects_pure _
  · refine (Run.respects_logAll _).bind fun _ => ?_
    refine Run.Respects.bind (fun p => hasked p.session _) fun result => ?_
    rcases result with e | content
    · exact Run.respects_pure _
    · refine (Run.respects_update fun s => hseed s _).bind fun _ => ?_
      refine Run.Respects.bind (fun p => ?_) fun _ => Run.respects_session.bind fun s => ?_
      · rw [Import.ingest_session]
        exact htake p.session _
      · split_ifs
        · exact Run.respects_pure _
        · exact Run.respects_pure _

/-- What one operation does to a session.  Searches may differ in whether they fetch. -/
inductive Step (env : Environment) : Session → Session → Prop
  /-- The file at an address is taken in as a seed. -/
  | seed (p : Progress) (url : String) : Step env p.session (Analysis.seed env url p).2.session
  /-- A location becomes a seed. -/
  | addSeed (s : Session) (l : Location) : Step env s { s with seeds := s.seeds ++ [l] }
  /-- A file is taken in. -/
  | ingest (p : Progress) (fetched : Fetched) :
      Step env p.session (ingest env fetched p).2.session
  /-- Imports are settled in rounds. -/
  | ingestImports (p : Progress) (bound : Int) :
      Step env p.session (ingestImports env bound p).2.session
  /-- It is decided what implements an interface. -/
  | bindingFor (p : Progress) (fetchRemote : Bool) (identifier : String)
      (coords : Option Coords) :
      Step env p.session
        (Interface.bindingFor { env with fetchRemote } identifier coords p).2.session
  /-- The interfaces of edges are bound. -/
  | bindEdges (p : Progress) (fetchRemote : Bool) (edges : List Interface.Edge) :
      Step env p.session (Interface.bindEdges { env with fetchRemote } edges p).2.session
  /-- A tree is built. -/
  | build (p : Progress) (fetchRemote : Bool) (options : CallTree.Options) (e : Entity)
      (bound : Int) :
      Step env p.session (CallTree.build { env with fetchRemote } options e bound p).2.session

/-- What one operation does in an environment that is admitted.  What can be fetched, and how texts
are read, may differ from operation to operation. -/
def StepIn (admitted : Environment → Prop) (s t : Session) : Prop :=
  ∃ env, admitted env ∧ Step env s t

/-- Whether operations lead from a new session to `s`. -/
def Reachable (admitted : Environment → Prop) (s : Session) : Prop :=
  ∃ startedAt, Relation.ReflTransGen (StepIn admitted) { startedAt := startedAt } s

/-- What holds of a session between operations. -/
def Session.Sound (s : Session) : Prop :=
  s.Orderly ∧ s.TookFound

section

variable {env : Environment}

theorem Import.sound_ingestImports (hsteady : env.parser.Steady)
    (hparser : env.parser.StampsFiles) (bound : Int) :
    Run.Respects (Session.Keeps Session.Sound) (ingestImports env bound) := by
  intro p hp
  obtain ⟨coverage, q, hrun⟩ := ingestImports_completes hsteady bound p
  obtain ⟨s, hrounds, hend⟩ := ingestImports_apply env bound p
  have hs : s.Sound := by
    clear hend
    induction hrounds with
    | refl => exact hp
    | tail _ hround ih =>
      rw [hround]
      exact ⟨ih.1.afterRound hparser, ih.2.afterRound⟩
  rcases hend with ⟨-, hsession⟩ | ⟨hnone, -⟩
  · rwa [hsession]
  · rw [hrun] at hnone
    cases hnone

theorem Run.closed_sound (hparser : env.parser.StampsFiles) :
    Closed env (Respects (Session.Keeps Session.Sound)) := by
  refine closed_respects ?_ ?_ ?_ ?_
  · intro s ls hs
    exact ⟨hs.1.noteTried ls, hs.2⟩
  · intro s fetched hs
    exact ⟨hs.1.take hparser fetched, hs.2.take fetched⟩
  · intro s candidate hs
    exact ⟨{ hs.1 with }, hs.2⟩
  · intro s t interface binding _ ht hs
    exact ⟨{ (ht hs).1 with }, (ht hs).2⟩

theorem Step.sound (hsteady : env.parser.Steady) (hparser : env.parser.StampsFiles)
    {s t : Session} (h : Step env s t) (hs : s.Sound) : t.Sound := by
  cases h with
  | seed p url =>
    -- asking and adding a seed touch none of the tables
    refine Analysis.seed_respects (R := Session.Keeps Session.Sound) ?_ ?_ ?_ url p hs
    · intro s l hs
      exact ⟨{ hs.1 with }, hs.2⟩
    · intro s l hs
      exact ⟨{ hs.1 with }, hs.2⟩
    · intro s fetched hs
      exact ⟨hs.1.take hparser fetched, hs.2.take fetched⟩
  | addSeed s l => exact ⟨{ hs.1 with }, hs.2⟩
  | ingest p fetched =>
    rw [Import.ingest_session]
    exact ⟨hs.1.take hparser fetched, hs.2.take fetched⟩
  | ingestImports p bound => exact Import.sound_ingestImports hsteady hparser bound p hs
  | bindingFor p fetchRemote identifier coords =>
    exact (@Run.closed_sound { env with fetchRemote } hparser).bindingFor _ _ p hs
  | bindEdges p fetchRemote edges =>
    exact (@Run.closed_sound { env with fetchRemote } hparser).bindEdges _ p hs
  | build p fetchRemote options e bound =>
    exact (@Run.closed_sound { env with fetchRemote } hparser).build _ _ _ p hs

theorem Reachable.sound {admitted : Environment → Prop}
    (hadmitted : ∀ env, admitted env → env.parser.Steady ∧ env.parser.StampsFiles) {s : Session}
    (h : Reachable admitted s) : s.Sound := by
  obtain ⟨startedAt, hsteps⟩ := h
  induction hsteps with
  | refl => exact ⟨.fresh startedAt, nofun⟩
  | tail _ hstep ih =>
    obtain ⟨env, henv, hstep⟩ := hstep
    exact hstep.sound (hadmitted env henv).1 (hadmitted env henv).2 ih

end

/-- **Sessions are consistent.**  Whatever operations lead to a session, and whatever can be fetched
in each of them, its tables fit together, for parsers that read or refuse every file and report it
as the file of its declarations. -/
theorem reachable_consistent {admitted : Environment → Prop}
    (hadmitted : ∀ env, admitted env → env.parser.Steady ∧ env.parser.StampsFiles) {s : Session}
    (h : Reachable admitted s) : s.Consistent := by
  have hs := h.sound hadmitted
  exact hs.1.consistent hs.2

namespace Import

/-- The environment of the small repository while nothing can be fetched. -/
def vaultDown : Environment :=
  { vault with fetch := fun l => .error (.plain .notFound l) }

/-- The run over the small repository, with an external and an unreachable import.  Its file is
taken in while nothing can be fetched. -/
theorem reachable_consistent_vault :
    (∀ env, env = vaultDown ∨ env = vault → env.parser.Steady ∧ env.parser.StampsFiles) ∧
      Reachable (fun env => env = vaultDown ∨ env = vault) vaultEnd ∧
      vaultEnd.Consistent ∧ vaultEnd.coverage.failed.length = 2 := by
  have hparser : vault.parser.StampsFiles :=
    Source.stampsFiles_grammarParser {} (.ok vaultGrammar)
  have hadmitted : ∀ env, env = vaultDown ∨ env = vault →
      env.parser.Steady ∧ env.parser.StampsFiles := by
    rintro env (rfl | rfl)
    · exact ⟨steady_vault, hparser⟩
    · exact ⟨steady_vault, hparser⟩
  -- the seed is taken in without fetching, the imports with it
  have hseed : Step vaultDown {} { seeds := [vaultFile.location] } :=
    .addSeed {} vaultFile.location
  have hstart : Step vaultDown { seeds := [vaultFile.location] } vaultStart := by
    have hingest := @Step.ingest vaultDown ⟨{ seeds := [vaultFile.location] }, []⟩ vaultFile
    rwa [ingest_session, show Session.take vaultDown _ vaultFile = _ from take_vault] at hingest
  have hend : Step vault vaultStart vaultEnd := by
    have hrounds := @Step.ingestImports vault ⟨vaultStart, []⟩ 3
    rwa [session_vault] at hrounds
  have hreach : Reachable (fun env => env = vaultDown ∨ env = vault) vaultEnd :=
    ⟨"", .tail (.tail (.single ⟨_, .inl rfl, hseed⟩) ⟨_, .inl rfl, hstart⟩) ⟨_, .inr rfl, hend⟩⟩
  exact ⟨hadmitted, hreach, reachable_consistent hadmitted hreach, by decide +kernel⟩

end Import

end CallAtlas

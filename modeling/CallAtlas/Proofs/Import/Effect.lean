import CallAtlas.Import.Ingest
import CallAtlas.Proofs.Run
import CallAtlas.Proofs.Session

/-!
# What resolving and taking in do to a session

Trying locations, settling an import and taking in a file are runs; what they do to the session is
a function of the session alone, and that function is given here.

* `fetchFirst_apply`: trying locations asks for them up to and including the first that is served.
* `resolve_apply`: settling an import turns a session `s` into `s.settle env ref`.
* `ingest_session`: taking in a file turns a session `s` into `s.take env fetched`.

All three make the session grow.  Only taking in a file can break off, and only if the parser does
(`ingest_completes`).
-/

namespace CallAtlas

open Import (Fetched Reference candidates classify fetchFirst ingest resolve)

/-! ### Trying locations -/

namespace Environment

/-- Whether a location can be fetched. -/
def serves (env : Environment) (l : Location) : Bool :=
  (env.fetch l).isOk

/-- The locations asked for when `ls` are tried in turn: up to and including the first that is
served, all of them if none is. -/
def tried (env : Environment) (ls : List Location) : List Location :=
  ls.takeWhile (fun l => !env.serves l) ++ (ls.find? env.serves).toList

/-- The first of the locations that is served, with its content. -/
def firstServed? (env : Environment) (ls : List Location) : Option Fetched :=
  ls.findSome? fun l => (env.fetch l).toOption.map fun content => ⟨l, content⟩

variable {env : Environment} {l : Location} {ls : List Location}

theorem serves_of_ok {content : String} (h : env.fetch l = .ok content) : env.serves l = true := by
  rw [serves, h]; rfl

theorem serves_of_error {e : FetchError} (h : env.fetch l = .error e) : env.serves l = false := by
  rw [serves, h]; rfl

@[simp] theorem tried_nil (env : Environment) : env.tried [] = [] := rfl

theorem tried_cons_of_serves (h : env.serves l = true) : env.tried (l :: ls) = [l] := by
  simp [tried, h]

theorem tried_cons_of_not_serves (h : env.serves l = false) :
    env.tried (l :: ls) = l :: env.tried ls := by
  simp [tried, h]

theorem firstServed?_location (env : Environment) (ls : List Location) :
    (env.firstServed? ls).map Fetched.location = ls.find? env.serves := by
  induction ls with
  | nil => rfl
  | cons l ls ih =>
    rw [firstServed?, List.findSome?_cons, List.find?_cons]
    cases h : env.fetch l with
    | error e =>
      rw [serves_of_error h]
      exact ih
    | ok content =>
      rw [serves_of_ok h]
      rfl

theorem mem_of_mem_tried (h : l ∈ env.tried ls) : l ∈ ls := by
  rcases List.mem_append.mp h with h | h
  · exact (List.takeWhile_sublist _).subset h
  · exact List.mem_of_find?_eq_some (Option.mem_toList.mp h)

/-- What is fetched was asked for. -/
theorem location_mem_tried {fetched : Fetched} (h : env.firstServed? ls = some fetched) :
    fetched.location ∈ env.tried ls := by
  have hfound := env.firstServed?_location ls
  rw [h] at hfound
  exact List.mem_append_right _ (Option.mem_toList.mpr hfound.symm)

theorem firstServed?_eq_some {fetched : Fetched} (h : env.firstServed? ls = some fetched) :
    fetched.location ∈ ls ∧ env.fetch fetched.location = .ok fetched.content := by
  obtain ⟨l, hl, hsome⟩ := List.exists_of_findSome?_eq_some h
  cases hfetch : env.fetch l with
  | error e =>
    rw [hfetch] at hsome
    cases hsome
  | ok content =>
    rw [hfetch] at hsome
    cases hsome
    exact ⟨hl, hfetch⟩

end Environment

/-- Notes locations that were tried. -/
def Session.noteTried (s : Session) (ls : List Location) : Session :=
  { s with fetchAttempts := s.fetchAttempts + ls.length, asked := s.asked ++ ls }

theorem Session.grows_noteTried (s : Session) (ls : List Location) : s.Grows (s.noteTried ls) :=
  { Grows.rfl s with
    fetchAttempts := Nat.le_add_right _ _
    asked := List.prefix_append _ _ }

@[simp] theorem Session.noteTried_nil (s : Session) : s.noteTried [] = s := by
  simp [noteTried]

@[simp] theorem Session.isSettled_noteTried (s : Session) (ls : List Location) (path : String) :
    (s.noteTried ls).isSettled path = s.isSettled path := rfl

namespace Import

theorem fetchFirst_apply (env : Environment) (ls : List Location) (p : Progress) :
    ∃ log, fetchFirst env ls p =
      (some (env.firstServed? ls), ⟨p.session.noteTried (env.tried ls), log⟩) := by
  induction ls generalizing p with
  | nil =>
    refine ⟨p.log, ?_⟩
    simp [fetchFirst, Environment.firstServed?, Environment.tried, Session.noteTried]
  | cons l ls ih =>
    rw [fetchFirst]
    simp only [Run.update_bind, Run.log_bind, Run.fetch_bind]
    cases h : env.fetch l with
    | ok content =>
      have hfirst : env.firstServed? (l :: ls) = some ⟨l, content⟩ := by
        simp [Environment.firstServed?, h, Except.toOption]
      rw [Environment.tried_cons_of_serves (Environment.serves_of_ok h), hfirst]
      exact ⟨_, rfl⟩
    | error e =>
      have hfirst : env.firstServed? (l :: ls) = env.firstServed? ls := by
        simp [Environment.firstServed?, h, Except.toOption]
      rw [Environment.tried_cons_of_not_serves (Environment.serves_of_error h), hfirst]
      simp only [Run.log_bind]
      obtain ⟨log, hlog⟩ := ih _
      refine ⟨log, hlog.trans ?_⟩
      -- one location more was asked for than by the rest
      simp only [Session.noteTried, Session.noteAsked, List.length_cons, List.append_assoc,
        List.singleton_append, Nat.add_assoc, Nat.add_comm 1]

/-! ### Settling an import -/

/-- What becomes of an import. -/
inductive Verdict where
  | external
  | found (l : Location)
  | unreachable
deriving DecidableEq, Repr

/-- What has to become of an import looked up from `coords`: external imports are given up, of the
candidates the first that is served is taken, and the import is unreachable if none is. -/
def verdict (env : Environment) (path : String) (coords : Option Coords) : Verdict :=
  match classify path with
  | .external => .external
  | .resolvable =>
    match (candidates path coords).find? env.serves with
    | some l => .found l
    | none => .unreachable

/-- The locations that have to be asked for on behalf of an import looked up from `coords`. -/
def triedFor (env : Environment) (path : String) (coords : Option Coords) : List Location :=
  match classify path with
  | .external => []
  | .resolvable => env.tried (candidates path coords)

/-- Where an import was found. -/
def Verdict.location? : Verdict → Option Location
  | found l => some l
  | _ => none

/-- Why an import was given up. -/
def Verdict.failure? : Verdict → Option Failure
  | external => some .external
  | found _ => none
  | unreachable => some .unreachable

end Import

namespace Session

open Import (Verdict verdict triedFor)

/-- Notes what became of an import. -/
def record (s : Session) (path : String) : Verdict → Session
  | .external => s.markFailed path .external
  | .found l => s.markProcessed path l
  | .unreachable => s.markFailed path .unreachable

/-- The session after an import is settled; a settled import is left alone. -/
def settle (env : Environment) (s : Session) (ref : Reference) : Session :=
  if s.isSettled ref.path then s
  else
    (s.noteTried (triedFor env ref.path (s.coordsFor? ref.origin))).record ref.path
      (verdict env ref.path (s.coordsFor? ref.origin))

/-- What is fetched when an import is settled. -/
def fetchedFor? (env : Environment) (s : Session) (ref : Reference) : Option Fetched :=
  if s.isSettled ref.path then none
  else
    match classify ref.path with
    | .external => none
    | .resolvable => env.firstServed? (candidates ref.path (s.coordsFor? ref.origin))

theorem grows_record {s : Session} {path : String} (h : s.isSettled path = false) (v : Verdict) :
    s.Grows (s.record path v) := by
  cases v with
  | external => exact s.grows_markFailed path .external
  | found l => exact grows_markProcessed h l
  | unreachable => exact s.grows_markFailed path .unreachable

theorem grows_settle (env : Environment) (s : Session) (ref : Reference) :
    s.Grows (s.settle env ref) := by
  rw [settle]
  split_ifs with h
  · exact Grows.rfl s
  · refine (s.grows_noteTried _).trans (grows_record ?_ _)
    rw [isSettled_noteTried]
    exact Bool.eq_false_iff.mpr h

end Session

namespace Import

theorem resolve_apply (env : Environment) (ref : Reference) (p : Progress) :
    ∃ log, resolve env ref p =
      (some (p.session.fetchedFor? env ref), ⟨p.session.settle env ref, log⟩) := by
  rw [resolve, Session.settle, Session.fetchedFor?, Run.session_bind]
  cases hs : p.session.isSettled ref.path with
  | true => exact ⟨p.log, rfl⟩
  | false =>
    simp only [Bool.false_eq_true, if_false]
    unfold verdict triedFor
    cases hc : classify ref.path with
    | external =>
      refine ⟨p.log ++ [.info ("  External dependency (skipped): " ++ ref.path)], ?_⟩
      simp only [Run.log_bind, Run.update_bind, Run.pure_apply, Session.noteTried_nil,
        Session.record, if_true]
    | resolvable =>
      simp only [reduceCtorEq, if_false]
      generalize candidates ref.path (p.session.coordsFor? ref.origin) = ls
      -- with no candidate nothing is asked for; else the first one served is taken
      cases ls with
      | nil =>
        refine ⟨p.log ++ [.info ("  No resolution paths found: " ++ ref.path)], ?_⟩
        simp only [Run.log_bind, Run.update_bind, Run.pure_apply, Environment.tried_nil,
          Session.noteTried_nil, List.find?_nil, Session.record]
        rfl
      | cons l ls =>
        simp only [← env.firstServed?_location, Run.log_bind]
        obtain ⟨log, hlog⟩ := fetchFirst_apply env (l :: ls)
          { p with log := p.log ++ [.info ("  Resolving: " ++ ref.path)] }
        rw [Run.bind_of_some hlog]
        cases env.firstServed? (l :: ls) with
        | none => exact ⟨_, rfl⟩
        | some fetched => exact ⟨_, rfl⟩

end Import

/-! ### Taking in a file -/

/-- Whether a parser never breaks off: it reads a file or refuses it. -/
def Source.Parser.Steady (parser : Source.Parser) : Prop :=
  ∀ text file, parser.parse text file ≠ .error .broken

/-- An environment in which no location is served and no text declares anything. -/
def Environment.barren : Environment where
  fetch l := .error (.plain .notFound l)
  parser := { parse := fun _ _ => .ok {} }

theorem Environment.steady_barren : Environment.barren.parser.Steady := by
  intro text file h
  cases h

/-- The session after a file is taken in; a file that is known already is left alone. -/
def Session.take (env : Environment) (s : Session) (fetched : Fetched) : Session :=
  if s.ingested.contains fetched.location.key then s
  else
    let file := s.fileLabel fetched.location
    let noted := { s.noteIngested file fetched.location with parses := s.parses + 1 }
    match env.parser.parse fetched.content file with
    | .error .broken => noted
    | .error _ => noted.noteUnparsed file
    | .ok declarations => noted.absorb declarations.entities declarations.imports

theorem Session.grows_take (env : Environment) (s : Session) (fetched : Fetched) :
    s.Grows (s.take env fetched) := by
  have hnoted := s.grows_noteIngested (s.fileLabel fetched.location) fetched.location
  have hparsed : s.Grows { s.noteIngested (s.fileLabel fetched.location) fetched.location with
      parses := s.parses + 1 } := { hnoted with parses := Nat.le_add_right _ _ }
  rw [take]
  split_ifs
  · exact Grows.rfl s
  · dsimp only
    split
    · exact hparsed
    · exact hparsed.trans (grows_noteUnparsed _ _)
    · exact hparsed.trans (grows_absorb _ _ _)

namespace Import

/-- Taking in a file breaks off at a new file at which the parser does. -/
theorem ingest_apply (env : Environment) (fetched : Fetched) (p : Progress) :
    (ingest env fetched p).2.session = p.session.take env fetched ∧
      ((ingest env fetched p).1 = none ↔
        p.session.ingested.contains fetched.location.key = false ∧
          env.parser.parse fetched.content (p.session.fileLabel fetched.location) =
            .error .broken) := by
  rw [ingest, Session.take, Run.session_bind]
  dsimp only
  by_cases hknown : p.session.ingested.contains fetched.location.key = true
  · rw [if_pos hknown, if_pos hknown, hknown]
    exact ⟨rfl, iff_of_false (Option.some_ne_none _) fun h => by cases h.1⟩
  · rw [if_neg hknown, if_neg hknown]
    have hnew := Bool.eq_false_iff.mpr hknown
    have hrun := Run.parse_apply env fetched.content (p.session.fileLabel fetched.location)
      ⟨p.session.noteIngested (p.session.fileLabel fetched.location) fetched.location, p.log⟩
    obtain ⟨log, hlog⟩ := hrun
    rw [Run.update_bind]
    -- only a break of the parser leaves the run without an answer
    rcases hparse : env.parser.parse fetched.content (p.session.fileLabel fetched.location) with
      fault | declarations
    · cases fault with
      | broken =>
        rw [hparse] at hlog
        rw [Run.bind_of_none hlog]
        exact ⟨rfl, iff_of_true rfl ⟨hnew, rfl⟩⟩
      | syntaxError | grammarUnavailable =>
        rw [hparse] at hlog
        rw [Run.bind_of_some hlog]
        exact ⟨rfl, iff_of_false (Option.some_ne_none _) fun h => by cases h.2⟩
    · rw [hparse] at hlog
      rw [Run.bind_of_some hlog]
      exact ⟨rfl, iff_of_false (Option.some_ne_none _) fun h => by cases h.2⟩

theorem ingest_session (env : Environment) (fetched : Fetched) (p : Progress) :
    (ingest env fetched p).2.session = p.session.take env fetched :=
  (ingest_apply env fetched p).1

theorem ingest_completes {env : Environment} (h : env.parser.Steady) (fetched : Fetched) :
    Run.Completes (ingest env fetched) := by
  intro p
  have hsome : (ingest env fetched p).1 ≠ none :=
    fun hnone => h _ _ ((ingest_apply env fetched p).2.mp hnone).2
  obtain ⟨added, hadded⟩ := Option.ne_none_iff_exists'.mp hsome
  exact ⟨added, (ingest env fetched p).2, Prod.ext hadded rfl⟩

end Import

end CallAtlas

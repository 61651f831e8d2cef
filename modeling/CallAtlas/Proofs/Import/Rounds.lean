import CallAtlas.Proofs.Import.Effect
import Mathlib.Logic.Relation

/-!
# Rounds of imports

Each round settles the pending imports and takes in what was fetched for them.  What a whole round
does is again a function of the session (`Session.afterRound`); only a parser that breaks off can
leave some of the fetched files out.

* `resolveAll_apply`, `ingestAll_apply`: settling and taking in, one after the other.
* `ingestImports_apply`: a run passes through whole rounds; then it ends, or it breaks off within
  one more round.
-/

namespace CallAtlas

open Import (Fetched Reference ingest resolve resolveAll ingestAll rounds ingestImports)
open Relation (ReflTransGen)

namespace Session

/-- What is fetched when imports are settled in turn. -/
def fetchedForAll (env : Environment) : Session → List Reference → List Fetched
  | _, [] => []
  | s, ref :: refs => (s.fetchedFor? env ref).toList ++ (s.settle env ref).fetchedForAll env refs

/-- The session after imports are settled in turn. -/
def settleAll (env : Environment) (s : Session) (refs : List Reference) : Session :=
  refs.foldl (settle env) s

/-- The session after files are taken in in turn. -/
def takeAll (env : Environment) (s : Session) (files : List Fetched) : Session :=
  files.foldl (take env) s

/-- The session after a round. -/
def afterRound (env : Environment) (s : Session) : Session :=
  (s.settleAll env s.pending).takeAll env (s.fetchedForAll env s.pending)

/-- Whether a session can be that of a round which broke off: the pending imports are settled, and
some of the fetched files are taken in. -/
def WithinRound (env : Environment) (s t : Session) : Prop :=
  ∃ files, files <+: s.fetchedForAll env s.pending ∧
    t = (s.settleAll env s.pending).takeAll env files

theorem withinRound_afterRound (env : Environment) (s : Session) :
    s.WithinRound env (s.afterRound env) :=
  ⟨_, List.prefix_rfl, rfl⟩

end Session

namespace Import

theorem resolveAll_apply (env : Environment) (refs : List Reference) (p : Progress) :
    ∃ log, resolveAll env refs p =
      (some (p.session.fetchedForAll env refs), ⟨p.session.settleAll env refs, log⟩) := by
  induction refs generalizing p with
  | nil => exact ⟨p.log, rfl⟩
  | cons ref refs ih =>
    obtain ⟨log, hfirst⟩ := resolve_apply env ref p
    obtain ⟨log', hrest⟩ := ih ⟨p.session.settle env ref, log⟩
    refine ⟨log', ?_⟩
    rw [resolveAll, Run.bind_of_some hfirst, Run.bind_of_some hrest]
    rfl

/-- Files are taken in until one breaks off. -/
theorem ingestAll_apply (env : Environment) (files : List Fetched) (p : Progress) :
    ∃ done, done <+: files ∧ (ingestAll env files p).2.session = p.session.takeAll env done ∧
      ((ingestAll env files p).1 = some () → done = files) := by
  induction files generalizing p with
  | nil => exact ⟨[], List.prefix_rfl, rfl, fun _ => rfl⟩
  | cons file files ih =>
    have hsession := ingest_session env file p
    rcases hfirst : ingest env file p with ⟨added | added, q⟩
    · -- the file at which the parser breaks off is noted all the same
      rw [hfirst] at hsession
      refine ⟨[file], ⟨files, rfl⟩, ?_⟩
      rw [ingestAll, Run.bind_of_none hfirst]
      exact ⟨hsession, nofun⟩
    · rw [hfirst] at hsession
      obtain ⟨done, hdone, hrest, hall⟩ := ih q
      refine ⟨file :: done, (List.prefix_cons_inj file).mpr hdone, ?_⟩
      rw [ingestAll, Run.bind_of_some hfirst]
      refine ⟨?_, fun h => by rw [hall h]⟩
      rw [hrest, hsession]
      rfl

theorem round_apply (env : Environment) (p : Progress) :
    ((round env p).1 = some () ∧ (round env p).2.session = p.session.afterRound env) ∨
      ((round env p).1 = none ∧ p.session.WithinRound env (round env p).2.session) := by
  obtain ⟨log, hresolve⟩ := resolveAll_apply env p.session.pending p
  have hround : round env p = ingestAll env (p.session.fetchedForAll env p.session.pending)
      ⟨p.session.settleAll env p.session.pending, log⟩ := by
    rw [round, Run.session_bind, Run.bind_of_some hresolve]
  obtain ⟨done, hdone, hsession, hall⟩ := ingestAll_apply env
    (p.session.fetchedForAll env p.session.pending) ⟨p.session.settleAll env p.session.pending, log⟩
  rw [hround]
  rcases hresult : (ingestAll env (p.session.fetchedForAll env p.session.pending)
    ⟨p.session.settleAll env p.session.pending, log⟩).1 with _ | ⟨⟩
  · exact .inr ⟨rfl, done, hdone, hsession⟩
  · rw [hall hresult] at hsession
    exact .inl ⟨rfl, hsession⟩

/-- A run passes through whole rounds.  Then it ends, or it breaks off within one more round. -/
theorem rounds_apply (env : Environment) (bound : Int) (depth left : Nat) (p : Progress) :
    ∃ s, ReflTransGen (fun s t => t = s.afterRound env) p.session s ∧
      (((rounds env bound depth left p).1 = some () ∧
          (rounds env bound depth left p).2.session = s) ∨
        ((rounds env bound depth left p).1 = none ∧
          s.WithinRound env (rounds env bound depth left p).2.session)) := by
  induction left generalizing depth p with
  | zero =>
    refine ⟨p.session, .refl, .inl ?_⟩
    rw [rounds, Run.session_bind]
    split_ifs
    · exact ⟨rfl, rfl⟩
    · exact ⟨rfl, rfl⟩
  | succ left ih =>
    rw [rounds, Run.session_bind]
    split_ifs
    · exact ⟨p.session, .refl, .inl ⟨rfl, rfl⟩⟩
    · rw [Run.log_bind]
      generalize hstart : { p with log := p.log ++ _ } = p'
      have hsession : p'.session = p.session := by rw [← hstart]
      have hround := round_apply env p'
      rcases hresult : round env p' with ⟨_ | ⟨⟩, q⟩
      · -- the parser broke off within this round
        rw [hresult, hsession] at hround
        rw [Run.bind_of_none hresult]
        rcases hround with ⟨h, -⟩ | hwithin
        · cases h
        · exact ⟨p.session, .refl, .inr hwithin⟩
      · rw [hresult, hsession] at hround
        rw [Run.bind_of_some hresult, Run.session_bind]
        rcases hround with ⟨-, hround⟩ | ⟨h, -⟩
        · split_ifs
          · exact ⟨q.session, .single hround, .inl ⟨rfl, rfl⟩⟩
          · rw [Run.log_bind]
            -- something new turned up, so the run goes on from here
            generalize hnext : { q with log := q.log ++ _ } = q'
            have hsession' : q'.session = q.session := by rw [← hnext]
            obtain ⟨s, hstar, hend⟩ := ih (depth + 1) q'
            exact ⟨s, .head (hsession'.trans hround) hstar, hend⟩
        · cases h

/-- A run passes through whole rounds.  Then it ends with what has become of the imports, or it
breaks off within one more round. -/
theorem ingestImports_apply (env : Environment) (bound : Int) (p : Progress) :
    ∃ s, ReflTransGen (fun s t => t = s.afterRound env) p.session s ∧
      (((ingestImports env bound p).1 = some s.coverage ∧
          (ingestImports env bound p).2.session = s) ∨
        ((ingestImports env bound p).1 = none ∧
          s.WithinRound env (ingestImports env bound p).2.session)) := by
  obtain ⟨s, hstar, hend⟩ := rounds_apply env bound 0 bound.toNat p
  refine ⟨s, hstar, ?_⟩
  rcases hrounds : rounds env bound 0 bound.toNat p with ⟨_ | ⟨⟩, q⟩
  · rw [ingestImports, Run.bind_of_none hrounds]
    rw [hrounds] at hend
    rcases hend with ⟨h, -⟩ | ⟨-, hwithin⟩
    · cases h
    · exact .inr ⟨rfl, hwithin⟩
  · rw [ingestImports, Run.bind_of_some hrounds]
    rw [hrounds] at hend
    rcases hend with ⟨-, rfl⟩ | ⟨h, -⟩
    · exact .inl ⟨rfl, rfl⟩
    · cases h

/-! ### Runs end -/

theorem ingestAll_completes {env : Environment} (h : env.parser.Steady) (files : List Fetched) :
    Run.Completes (ingestAll env files) := by
  induction files with
  | nil => exact Run.completes_pure ()
  | cons file files ih => exact (ingest_completes h file).bind fun _ => ih

theorem round_completes {env : Environment} (h : env.parser.Steady) :
    Run.Completes (round env) := by
  intro p
  obtain ⟨log, hresolve⟩ := resolveAll_apply env p.session.pending p
  rw [round, Run.session_bind, Run.bind_of_some hresolve]
  exact ingestAll_completes h _ _

theorem rounds_completes {env : Environment} (h : env.parser.Steady) (bound : Int)
    (depth left : Nat) : Run.Completes (rounds env bound depth left) := by
  induction left generalizing depth with
  | zero =>
    intro p
    rw [rounds, Run.session_bind]
    split_ifs
    · exact ⟨_, _, rfl⟩
    · exact ⟨_, _, rfl⟩
  | succ left ih =>
    intro p
    rw [rounds, Run.session_bind]
    split_ifs
    · exact ⟨_, _, rfl⟩
    · rw [Run.log_bind]
      obtain ⟨_, q, hround⟩ := round_completes h _
      rw [Run.bind_of_some hround, Run.session_bind]
      split_ifs
      · exact ⟨_, _, rfl⟩
      · exact ih (depth + 1) _

/-- Imports are settled to an end unless the parser breaks off. -/
theorem ingestImports_completes {env : Environment} (h : env.parser.Steady) (bound : Int) :
    Run.Completes (ingestImports env bound) := by
  intro p
  obtain ⟨_, q, hrounds⟩ := rounds_completes h bound 0 bound.toNat p
  rw [ingestImports, Run.bind_of_some hrounds]
  exact ⟨_, _, rfl⟩

end Import

end CallAtlas

import CallAtlas.Proofs.Consistency
import CallAtlas.Proofs.Interface.Lookups
import CallAtlas.Proofs.Interface.Soundness

/-!
# Interfaces are decided once, and names are looked for once

What was decided about an interface stands, and asking again leaves the session as it is.  All that
is asked for belongs to queries: the file of a seed, an import, or an implementation of a given
name.  No name has two queries of the last kind, however many interfaces it is a candidate for.

* `Query.asked`: the locations that a query asks for, which depend on what can be fetched then.
* `Trace admitted s queries t`: the queries made on the way from `s` to `t`, in order, each with the
  environment in which it is made.
* `Step.traced`: each operation has a trace.
* `decided_and_looked_up_once`: what follows for any sequence of operations.
-/

namespace CallAtlas

open Import (Fetched Reference triedFor)
open Relation (ReflTransGen)

/-! ### Queries -/

/-- Locations tried in turn for one purpose. -/
inductive Query where
  /-- The file of a seed. -/
  | seed (l : Location)
  /-- An import, looked up from `coords`. -/
  | imported (path : String) (coords : Option Coords)
  /-- An implementation of a given name. -/
  | implementation (candidate : String) (locations : List Location)
deriving DecidableEq, Repr

namespace Query

/-- The locations that a query asks for. -/
def asked (env : Environment) : Query → List Location
  | seed l => [l]
  | imported path coords => triedFor env path coords
  | implementation _ locations => env.tried locations

/-- The name whose implementation is looked for. -/
def candidate? : Query → Option String
  | implementation candidate _ => some candidate
  | _ => none

end Query

/-- A query that is made in a session, and the session after it.  An import is looked up only if
it is not settled, a name only if it was not looked for. -/
inductive Asks (env : Environment) (s : Session) : Query → Session → Prop
  | seed (l : Location) : Asks env s (.seed l) (s.noteAsked l)
  | imported {ref : Reference} (hnew : s.isSettled ref.path = false) :
      Asks env s (.imported ref.path (s.coordsFor? ref.origin)) (s.settle env ref)
  | implementation {candidate : String} (coords : Coords) (hnew : candidate ∉ s.lookups) :
      Asks env s (.implementation candidate (s.implementationLocations coords candidate))
        (s.lookUp env coords candidate)

/-- What is done to a session without a query. -/
inductive Silent (env : Environment) (s : Session) : Session → Prop
  | addSeed (l : Location) : Silent env s { s with seeds := s.seeds ++ [l] }
  | take (fetched : Fetched) : Silent env s (s.take env fetched)
  | decide (interface : String) (binding : Option Binding) :
      Silent env s { s with bindings := s.bindings.insert interface binding }

/-- Queries in order, each with the environment in which it is made. -/
abbrev Queries := List (Environment × Query)

namespace Queries

/-- The locations that queries ask for. -/
def asked (queries : Queries) : List Location :=
  queries.flatMap fun made => made.2.asked made.1

/-- The names whose implementations are looked for. -/
def candidates (queries : Queries) : List String :=
  queries.filterMap fun made => made.2.candidate?

end Queries

/-- The queries made on the way from one session to another, in environments that are admitted. -/
inductive Trace (admitted : Environment → Prop) : Session → Queries → Session → Prop
  | refl (s : Session) : Trace admitted s [] s
  | silent {env : Environment} {s t u : Session} {queries : Queries} (henv : admitted env)
      (h : Silent env s t) (hrest : Trace admitted t queries u) : Trace admitted s queries u
  | ask {env : Environment} {s t u : Session} {r : Query} {queries : Queries}
      (henv : admitted env) (h : Asks env s r t) (hrest : Trace admitted t queries u) :
      Trace admitted s ((env, r) :: queries) u

section

variable {admitted : Environment → Prop} {env : Environment} {s t u : Session} {r : Query}
  {queries queries' : Queries}

theorem Asks.asked_eq (h : Asks env s r t) : t.asked = s.asked ++ r.asked env := by
  cases h with
  | seed l => rfl
  | imported hnew =>
    rw [Session.settle_eq env hnew]
    rfl
  | implementation coords _ => exact Session.asked_lookUp env s coords _

theorem Asks.lookups_eq (h : Asks env s r t) : t.lookups = s.lookups ++ r.candidate?.toList := by
  cases h with
  | seed l => exact (List.append_nil _).symm
  | imported hnew =>
    rw [Session.settle_eq env hnew]
    exact (List.append_nil _).symm
  | implementation coords _ => exact Session.lookups_lookUp env s coords _

theorem Asks.not_mem_lookups (h : Asks env s r t) : ∀ c ∈ r.candidate?, c ∉ s.lookups := by
  cases h with
  | seed | imported => nofun
  | implementation coords hnew =>
    intro c hc
    rwa [← Option.some.inj hc]

theorem Silent.frame (h : Silent env s t) : t.asked = s.asked ∧ t.lookups = s.lookups := by
  cases h with
  | addSeed | decide => exact ⟨rfl, rfl⟩
  | take fetched => exact ⟨(s.frame_take env fetched).2.2.1, s.lookups_take env fetched⟩

namespace Trace

theorem append (h : Trace admitted s queries t) (h' : Trace admitted t queries' u) :
    Trace admitted s (queries ++ queries') u := by
  induction h with
  | refl => exact h'
  | silent henv hsilent _ ih => exact .silent henv hsilent (ih h')
  | ask henv hask _ ih => exact .ask henv hask (ih h')

theorem asked_eq (h : Trace admitted s queries t) : t.asked = s.asked ++ queries.asked := by
  induction h with
  | refl s => exact (List.append_nil _).symm
  | silent _ hsilent _ ih => rw [ih, hsilent.frame.1]
  | ask _ hask _ ih =>
    rw [ih, hask.asked_eq, Queries.asked, Queries.asked, List.flatMap_cons, List.append_assoc]

theorem lookups_eq (h : Trace admitted s queries t) :
    t.lookups = s.lookups ++ queries.candidates := by
  induction h with
  | refl s => exact (List.append_nil _).symm
  | silent _ hsilent _ ih => rw [ih, hsilent.frame.2]
  | @ask _ _ _ _ r _ _ hask _ ih =>
    rw [ih, hask.lookups_eq, Queries.candidates, Queries.candidates, List.filterMap_cons,
      List.append_assoc]
    cases r.candidate? <;> rfl

/-- No name is looked for twice, and none that was looked for before. -/
theorem nodup_candidates (h : Trace admitted s queries t) :
    queries.candidates.Nodup ∧ s.lookups.Disjoint queries.candidates := by
  induction h with
  | refl s => exact ⟨List.nodup_nil, List.disjoint_nil_right _⟩
  | silent _ hsilent _ ih => rwa [hsilent.frame.2] at ih
  | @ask _ s t _ r queries _ hask _ ih =>
    rw [hask.lookups_eq, List.disjoint_append_left] at ih
    obtain ⟨hnodup, hold, hthis⟩ := ih
    have hnew := hask.not_mem_lookups
    rw [Queries.candidates, List.filterMap_cons]
    cases hc : r.candidate? with
    | none => exact ⟨hnodup, hold⟩
    | some c =>
      -- a name that is looked for now is new, and is among the old ones for what follows
      rw [hc] at hthis hnew
      refine ⟨List.nodup_cons.mpr ⟨hthis (List.mem_singleton_self c), hnodup⟩, ?_⟩
      exact List.disjoint_cons_right.mpr ⟨hnew c rfl, hold⟩

/-- Each query is made in a session on the way, before which the earlier queries are made. -/
theorem exists_asks {before after : Queries}
    (h : Trace admitted s (before ++ (env, r) :: after) t) :
    ∃ u u', Trace admitted s before u ∧ admitted env ∧ Asks env u r u' ∧
      Trace admitted u' after t := by
  generalize hall : before ++ (env, r) :: after = queries at h
  induction h generalizing before with
  | refl s => simp at hall
  | silent henv hsilent _ ih =>
    obtain ⟨u, u', hbefore, hask⟩ := ih hall
    exact ⟨u, u', .silent henv hsilent hbefore, hask⟩
  | ask henv hask hrest ih =>
    cases before with
    | nil =>
      cases hall
      exact ⟨_, _, .refl _, henv, hask, hrest⟩
    | cons first before =>
      obtain ⟨rfl, hothers⟩ := List.cons.inj hall
      obtain ⟨u, u', hbefore, hask'⟩ := ih hothers
      exact ⟨u, u', .ask henv hask hbefore, hask'⟩

end Trace

end

/-! ### Operations -/

/-- Some queries lead from `s` to `t`. -/
def Traced (admitted : Environment → Prop) (s t : Session) : Prop :=
  ∃ queries, Trace admitted s queries t

instance (admitted : Environment → Prop) : IsPreorder Session (Traced admitted) where
  refl s := ⟨[], .refl s⟩
  trans _ _ _ h h' := by
    obtain ⟨queries, h⟩ := h
    obtain ⟨queries', h'⟩ := h'
    exact ⟨queries ++ queries', h.append h'⟩

/-- A preorder on sessions that every single change keeps is kept by every operation. -/
theorem Step.respects {env : Environment} {R : Session → Session → Prop} [IsPreorder Session R]
    (hasked : ∀ s l, R s (Session.noteAsked s l))
    (hseed : ∀ s l, R s { s with seeds := s.seeds ++ [l] })
    (htake : ∀ s fetched, R s (s.take env fetched))
    (hsettle : ∀ s ref, R s (s.settle env ref))
    (hlookUp : ∀ s coords candidate, candidate ∉ s.lookups → R s (s.lookUp env coords candidate))
    (hdecide : ∀ s t interface binding, s.bindings.get? interface = none → R s t →
      R s { t with bindings := t.bindings.insert interface binding })
    {s t : Session} (h : Step env s t) : R s t := by
  -- whether searches fetch makes no difference to what a lookup does
  have hsearch : ∀ fetchRemote : Bool, Run.Composed { env with fetchRemote } (Run.Respects R) :=
    fun _ => Run.composed_respects hlookUp hdecide
  cases h with
  | seed p url => exact Analysis.seed_respects hasked hseed htake url p
  | addSeed s l => exact hseed s l
  | ingest p fetched =>
    rw [Import.ingest_session]
    exact htake p.session fetched
  | ingestImports p bound =>
    exact Import.respects_ingestImports (fun _ _ h => h.respects hsettle htake) bound p
  | bindingFor p fetchRemote identifier coords =>
    exact (hsearch fetchRemote).bindingFor identifier coords p
  | bindEdges p fetchRemote edges => exact (hsearch fetchRemote).bindEdges edges p
  | build p fetchRemote options e bound => exact (hsearch fetchRemote).build options e bound p

theorem Step.traced {admitted : Environment → Prop} {env : Environment} (henv : admitted env)
    {s t : Session} (h : Step env s t) : Traced admitted s t := by
  refine h.respects ?_ ?_ ?_ ?_ ?_ ?_
  · intro s l
    exact ⟨_, .ask henv (.seed l) (.refl _)⟩
  · intro s l
    exact ⟨_, .silent henv (.addSeed l) (.refl _)⟩
  · intro s fetched
    exact ⟨_, .silent henv (.take fetched) (.refl _)⟩
  · intro s ref
    cases hsettled : s.isSettled ref.path with
    | true =>
      rw [Session.settle, if_pos hsettled]
      exact ⟨_, .refl s⟩
    | false => exact ⟨_, .ask henv (.imported hsettled) (.refl _)⟩
  · intro s coords candidate hnew
    exact ⟨_, .ask henv (.implementation coords hnew) (.refl _)⟩
  · rintro s t interface binding - ⟨queries, htrace⟩
    exact ⟨_, htrace.append (.silent henv (.decide interface binding) (.refl _))⟩

/-- Decisions about interfaces stand. -/
theorem Step.prefix_bindings {env : Environment} {s t : Session} (h : Step env s t) :
    s.bindings <+: t.bindings := by
  have : IsPreorder Session fun s t => s.bindings <+: t.bindings :=
    { refl := fun _ => List.prefix_rfl, trans := fun _ _ _ h h' => h.trans h' }
  refine h.respects (R := fun s t => s.bindings <+: t.bindings) ?_ ?_ ?_ ?_ ?_ ?_
  · exact fun _ _ => List.prefix_rfl
  · exact fun _ _ => List.prefix_rfl
  · exact fun s fetched => (s.grows_take env fetched).bindings
  · exact fun s ref => (s.grows_settle env ref).bindings
  · exact fun s coords candidate _ => (s.grows_lookUp env coords candidate).bindings
  · intro s t interface binding hnew h
    exact Table.prefix_insert_of_prefix h (Table.get?_eq_none.mp hnew)

namespace Interface

/-- The run after `bank` in which an interface is bound. -/
def bankBound : Progress :=
  (bindingFor .barren "src/IVault.sol" (some ⟨"o", "r", "main", ""⟩) bank).2

/-- The run after that in which another interface is bound, of which the candidate names are among
those of the first.  By then other files can be fetched. -/
def bankReused : Progress :=
  (bindingFor Import.vault "Vault" (some ⟨"o", "r", "main", ""⟩) bankBound).2

theorem step_bindingFor (env : Environment) (p : Progress) (identifier : String)
    (coords : Option Coords) : Step env p.session (bindingFor env identifier coords p).2.session :=
  .bindingFor p env.fetchRemote identifier coords

theorem step_bankBound : Step .barren bank.session bankBound.session := by
  rw [bankBound]
  exact step_bindingFor .barren bank _ _

theorem step_bankReused : Step Import.vault bankBound.session bankReused.session := by
  rw [bankReused]
  exact step_bindingFor Import.vault bankBound _ _

end Interface

end CallAtlas

import CallAtlas.Proofs.Interface.Soundness

/-!
# Searching without fetching

If nothing may be fetched, what implements an interface depends on the known declarations alone,
and these stay as they are.  A search then notes its outcome in the session, but only what every
later search would come to as well.  So it matters neither when an interface is looked for nor
what was looked for before.

* `Known`: the declarations of a session, and for every interface what is decided about it or would
  be decided.
* `Run.Yields known x a`: the run `x` answers `a` in every session with this knowledge, and leaves
  the knowledge as it is.
* `bindingFor_yields`, `bindEdges_yields`: searches without fetching yield what is known.
-/

namespace CallAtlas

open Interface (Edge)

/-! ### Knowledge -/

/-- What is found for an interface among the declarations alone. -/
def Interface.foundAmong? (r : Repository) (interface : String) : Option Binding :=
  let members := declaredMembers r interface
  if members.isEmpty then none
  else
    (localBinding? r interface members (candidateNames interface) (filesOf members)).or
      (scanBinding? r interface members (filesOf members))

/-- What searches without fetching go by. -/
structure Known where
  repository : Repository
  /-- What is decided about an interface, or would be. -/
  bindingOf : String → Option Binding

/-- The knowledge of a session.  What is decided stands, even if a search would come to something
else by now. -/
def Session.known (s : Session) : Known where
  repository := s.repository
  bindingOf interface :=
    (s.bindings.get? interface).getD (Interface.foundAmong? s.repository interface)

@[simp] theorem Session.known_repository (s : Session) : s.known.repository = s.repository := rfl

theorem Session.known_bindingOf (s : Session) (interface : String) :
    s.known.bindingOf interface =
      (s.bindings.get? interface).getD (Interface.foundAmong? s.repository interface) := rfl

/-- Noting what would be decided anyway adds no knowledge. -/
theorem Session.known_noteBinding (s : Session) (interface : String) :
    Session.known { s with
      bindings := s.bindings.insert interface (s.known.bindingOf interface) } = s.known := by
  rw [Session.known, Known.mk.injEq]
  refine ⟨rfl, ?_⟩
  funext name
  rw [Table.get?_insert]
  split_ifs with heq
  · rw [heq, Option.getD_some]
  · rfl

/-! ### Runs that only go by what is known -/

namespace Run

variable {α β : Type} {known : Known}

/-- The run answers `a` in every session with the given knowledge, and leaves it as it is. -/
def Yields (known : Known) (x : Run α) (a : α) : Prop :=
  ∀ p : Progress, p.session.known = known → ∃ q, x p = (some a, q) ∧ q.session.known = known

theorem yields_pure (a : α) : Yields known (pure a : Run α) a :=
  fun p hp => ⟨p, rfl, hp⟩

theorem yields_logAll (records : List Log.Record) : Yields known (Run.logAll records) () :=
  fun _ hp => ⟨_, rfl, hp⟩

theorem yields_log (record : Log.Record) : Yields known (Run.log record) () :=
  yields_logAll [record]

theorem Yields.bind {x : Run α} {f : α → Run β} {a : α} {b : β} (hx : Yields known x a)
    (hf : Yields known (f a) b) : Yields known (x >>= f) b := by
  intro p hp
  obtain ⟨q, hq, hknown⟩ := hx p hp
  obtain ⟨r, hr, hknown'⟩ := hf q hknown
  exact ⟨r, by rw [bind_of_some hq, hr], hknown'⟩

theorem yields_session_bind {f : Session → Run β} {b : β}
    (h : ∀ s : Session, s.known = known → Yields known (f s) b) :
    Yields known (Run.session >>= f) b := by
  intro p hp
  rw [session_bind]
  exact h p.session hp p hp

/-- A run that reads the session and at most logs. -/
theorem yields_of_apply {x : Run α} {a : α}
    (h : ∀ p : Progress, p.session.known = known → ∃ log, x p = (some a, ⟨p.session, log⟩)) :
    Yields known x a := by
  intro p hp
  obtain ⟨log, hlog⟩ := h p hp
  exact ⟨_, hlog, hp⟩

end Run

/-! ### Searches -/

namespace Interface

open Run (Yields)

variable {env : Environment} {known : Known}

theorem search_yields (henv : env.fetchRemote = false) (interface : String)
    (members : List Entity) (coords : Option Coords) :
    Yields known (search env interface members coords)
      ((localBinding? known.repository interface members (candidateNames interface)
          (filesOf members)).or
        (scanBinding? known.repository interface members (filesOf members))) := by
  have hlocal : Yields known
      (matchLocal interface members (candidateNames interface) (filesOf members))
      (localBinding? known.repository interface members (candidateNames interface)
        (filesOf members)) := by
    refine Run.yields_of_apply ?_
    rintro p rfl
    exact matchLocal_apply interface members _ _ p
  have hscan : Yields known (matchByScan interface members (filesOf members))
      (scanBinding? known.repository interface members (filesOf members)) := by
    refine Run.yields_of_apply ?_
    rintro p rfl
    exact matchByScan_apply interface members _ p
  rw [search]
  refine (Run.yields_log _).bind (hlocal.bind ?_)
  rcases localBinding? known.repository interface members (candidateNames interface)
    (filesOf members) with _ | b
  · -- nothing is fetched between the two searches
    refine Run.yields_session_bind ?_
    intro s _
    rw [henv]
    exact (Run.yields_pure none).bind hscan
  · exact Run.yields_pure (some b)

/-- A search comes to what is found among the declarations. -/
theorem lookFor_yields (henv : env.fetchRemote = false) (interface : String)
    (coords : Option Coords) {s : Session} (hs : s.known = known) :
    Yields known (lookFor env interface coords s) (foundAmong? known.repository interface) := by
  have hrest : ∀ binding : Option Binding, Yields known (do
      if binding.isNone then Run.log (.debug ("No implementation found for " ++ interface))
      return binding : Run (Option Binding)) binding := by
    intro binding
    dsimp only
    split_ifs
    · exact (Run.yields_log _).bind (Run.yields_pure binding)
    · exact Run.yields_pure binding
  have hr : s.repository = known.repository := by rw [← hs, Session.known_repository]
  rw [lookFor, foundAmong?, hr]
  dsimp only
  split_ifs
  · exact (Run.yields_log _).bind ((Run.yields_pure none).bind (hrest none))
  · exact (search_yields henv interface _ coords).bind (hrest _)

theorem bindingFor_yields (henv : env.fetchRemote = false) (identifier : String)
    (coords : Option Coords) :
    Yields known (bindingFor env identifier coords) (known.bindingOf (nameOf identifier)) := by
  rintro p rfl
  rw [bindingFor_eq]
  rcases hget : p.session.bindings.get? (nameOf identifier) with _ | decided
  · obtain ⟨q, hq, hknown⟩ :=
      lookFor_yields henv (nameOf identifier) coords (s := p.session) rfl p rfl
    have hfound : foundAmong? p.session.known.repository (nameOf identifier) =
        q.session.known.bindingOf (nameOf identifier) := by
      rw [hknown, Session.known_bindingOf, hget, Option.getD_none, Session.known_repository]
    rw [hfound] at hq
    rw [decideOnce_of_none hget, Run.bind_of_some hq, ← hknown]
    exact ⟨_, rfl, q.session.known_noteBinding _⟩
  · rw [Session.known_bindingOf, hget, Option.getD_some]
    exact ⟨p, decideOnce_of_some hget, rfl⟩

/-- What is decided about the interfaces of the edges that have a definition, each once, in
order. -/
def resolveIn (known : Known) (resolved : Table (Option Binding)) :
    List Edge → Table (Option Binding)
  | [] => resolved
  | e :: es =>
    if e.definition.isNone || resolved.has e.interface then resolveIn known resolved es
    else resolveIn known (resolved ++ [(e.interface, known.bindingOf (nameOf e.interface))]) es

theorem bindInterfaces_yields (henv : env.fetchRemote = false) (resolved : Table (Option Binding))
    (edges : List Edge) :
    Yields known (bindInterfaces env resolved edges) (resolveIn known resolved edges) := by
  induction edges generalizing resolved with
  | nil => exact Run.yields_pure resolved
  | cons e es ih =>
    rw [bindInterfaces, resolveIn]
    split_ifs
    · exact ih resolved
    · exact (bindingFor_yields henv e.interface none).bind (ih _)

theorem bindEdges_yields (henv : env.fetchRemote = false) (edges : List Edge) :
    Yields known (bindEdges env edges)
      (resolveIn known [] edges, edges.map (Edge.withBinding (resolveIn known [] edges))) :=
  (bindInterfaces_yields henv [] edges).bind (Run.yields_pure _)

end Interface

end CallAtlas

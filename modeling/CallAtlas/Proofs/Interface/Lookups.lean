import CallAtlas.Proofs.CallTree.Closed
import CallAtlas.Proofs.Import.History

/-!
# Looking for names outside

Searches for implementations and the building of trees change a session in two ways only: a name is
looked for outside, which may bring in a file, and it is noted what an interface is bound to.  A
name is looked for only if it was not looked for before.

* `Session.lookUp`: the session after a name is looked for outside.
* `Run.composed_respects`: a preorder on sessions that these two ways keep is kept by whatever is
  searched for or built, also when it breaks off.
* `Run.composed_adds`: what is declared at the end and not at the start is declared in a file that
  was fetched for a name looked for in between.
-/

namespace CallAtlas

open Import (Fetched)

namespace Session

/-! ### One name -/

/-- Where an implementation of a given name is looked for: at the usual paths, except what is taken
in already. -/
def implementationLocations (s : Session) (coords : Coords) (candidate : String) : List Location :=
  ((Interface.implementationPaths candidate).map coords.locate).filter fun l =>
    !s.ingested.contains l.key

/-- The session once locations are tried for a name. -/
def noteLookup (env : Environment) (s : Session) (coords : Coords) (candidate : String) :
    Session :=
  { s with lookups := s.lookups ++ [candidate] }.noteTried
    (env.tried (s.implementationLocations coords candidate))

/-- The session after a name is looked for outside. -/
def lookUp (env : Environment) (s : Session) (coords : Coords) (candidate : String) : Session :=
  match env.firstServed? (s.implementationLocations coords candidate) with
  | none => s.noteLookup env coords candidate
  | some fetched => (s.noteLookup env coords candidate).take env fetched

section

variable {env : Environment} {s : Session} {coords : Coords} {candidate : String}

theorem mem_implementationLocations {l : Location} :
    l ∈ s.implementationLocations coords candidate ↔
      l ∈ (Interface.implementationPaths candidate).map coords.locate ∧ l.key ∉ s.ingested := by
  rw [implementationLocations, List.mem_filter, Bool.not_eq_true', ← Bool.not_eq_true,
    List.contains_iff_mem]

theorem lookUp_of_none
    (h : env.firstServed? (s.implementationLocations coords candidate) = none) :
    s.lookUp env coords candidate = s.noteLookup env coords candidate := by
  rw [lookUp, h]

theorem lookUp_of_some {fetched : Fetched}
    (h : env.firstServed? (s.implementationLocations coords candidate) = some fetched) :
    s.lookUp env coords candidate = (s.noteLookup env coords candidate).take env fetched := by
  rw [lookUp, h]

theorem grows_lookUp (env : Environment) (s : Session) (coords : Coords) (candidate : String) :
    s.Grows (s.lookUp env coords candidate) := by
  have hnoted : s.Grows (s.noteLookup env coords candidate) := by
    refine Grows.trans (t := { s with lookups := s.lookups ++ [candidate] }) ?_ ?_
    · exact { Grows.rfl s with lookups := List.prefix_append _ _ }
    · exact grows_noteTried _ _
  rcases h : env.firstServed? (s.implementationLocations coords candidate) with _ | fetched
  · rwa [lookUp_of_none h]
  · rw [lookUp_of_some h]
    exact hnoted.trans (grows_take env _ _)

theorem asked_lookUp (env : Environment) (s : Session) (coords : Coords) (candidate : String) :
    (s.lookUp env coords candidate).asked =
      s.asked ++ env.tried (s.implementationLocations coords candidate) := by
  rcases h : env.firstServed? (s.implementationLocations coords candidate) with _ | fetched
  · rw [lookUp_of_none h]
    rfl
  · rw [lookUp_of_some h, (frame_take env _ fetched).2.2.1]
    rfl

theorem lookups_lookUp (env : Environment) (s : Session) (coords : Coords) (candidate : String) :
    (s.lookUp env coords candidate).lookups = s.lookups ++ [candidate] := by
  rcases h : env.firstServed? (s.implementationLocations coords candidate) with _ | fetched
  · rw [lookUp_of_none h]
    rfl
  · rw [lookUp_of_some h, lookups_take]
    rfl

end

end Session

/-! ### Searches -/

namespace Interface

theorem respects_matchRemoteAt {env : Environment} {R : Session → Session → Prop}
    [IsPreorder Session R]
    (hlookUp : ∀ s coords candidate, candidate ∉ s.lookups → R s (s.lookUp env coords candidate))
    (interface : String) (members : List Entity) (coords : Coords) (candidates : List String) :
    Run.Respects R (matchRemoteAt env interface members coords candidates) := by
  induction candidates with
  | nil => exact Run.respects_pure _
  | cons candidate rest ih =>
    intro p
    rw [matchRemoteAt, Run.session_bind]
    split_ifs with hknown
    · exact ih p
    · have hnew : candidate ∉ p.session.lookups := mt List.contains_iff_mem.mpr hknown
      have hstep := hlookUp p.session coords candidate hnew
      obtain ⟨log, hfetch⟩ := Import.fetchFirst_apply env
        (p.session.implementationLocations coords candidate)
        { p with session := { p.session with lookups := p.session.lookups ++ [candidate] } }
      rw [Run.update_bind]
      dsimp only
      rw [← Session.implementationLocations, Run.bind_of_some hfetch]
      -- what is done up to here is the lookup of one name
      rcases hserved : env.firstServed? (p.session.implementationLocations coords candidate) with
        _ | fetched
      · rw [Session.lookUp_of_none hserved] at hstep
        exact IsTrans.trans _ _ _ hstep (ih ⟨_, log⟩)
      · rw [Session.lookUp_of_some hserved, ← Import.ingest_session env fetched ⟨_, log⟩] at hstep
        refine IsTrans.trans _ _ _ hstep ?_
        refine Run.respects_after _ (fun _ => Run.respects_session.bind fun s => ?_) _
        split
        · exact ih
        · exact (Run.respects_logAll _).bind fun _ => Run.respects_pure _

end Interface

/-- A preorder on sessions is kept by whatever is searched for or built if looking for a new name
and noting what an interface is bound to keep it. -/
theorem Run.composed_respects {env : Environment} {R : Session → Session → Prop}
    [IsPreorder Session R]
    (hlookUp : ∀ s coords candidate, candidate ∉ s.lookups → R s (s.lookUp env coords candidate))
    (hdecide : ∀ s t interface binding, s.bindings.get? interface = none → R s t →
      R s { t with bindings := t.bindings.insert interface binding }) :
    Composed env (Respects R) where
  pure := respects_pure
  bind := Respects.bind
  session := respects_session
  logAll := respects_logAll
  matchRemoteAt := Interface.respects_matchRemoteAt hlookUp
  decideOnce := respects_decideOnce hdecide

/-! ### What searches add -/

namespace Session

/-- Whether `d` is declared in a file that was fetched, between `s` and `t`, for a name looked for
outside. -/
def LookedUp (env : Environment) (s t : Session) (d : Entity) : Prop :=
  ∃ candidate coords location content declarations,
    candidate ∈ t.lookups ∧ candidate ∉ s.lookups ∧
    location ∈ (Interface.implementationPaths candidate).map (Coords.locate coords) ∧
    location.key ∈ t.ingested ∧ location.key ∉ s.ingested ∧
    env.fetch location = .ok content ∧
    env.parser.parse content (t.fileLabel location) = .ok declarations ∧ d ∈ declarations.entities

/-- The session grows, and what it declares anew was looked up. -/
structure Adds (env : Environment) (s t : Session) : Prop extends s.Grows t where
  looked : ∀ d ∈ t.repository.entities, d ∈ s.repository.entities ∨ LookedUp env s t d

variable {env : Environment} {s t u : Session} {d : Entity}

theorem Grows.fileLabel (h : s.Grows t) (l : Location) : t.fileLabel l = s.fileLabel l := by
  rw [Session.fileLabel, Session.fileLabel, h.seeds]

theorem LookedUp.of_later (h : LookedUp env t u d) (hgrows : s.Grows t) : LookedUp env s u d := by
  obtain ⟨candidate, coords, location, content, declarations, hlooked, hnew, hpath, hingested,
    hfresh, hrest⟩ := h
  exact ⟨candidate, coords, location, content, declarations, hlooked,
    fun hmem => hnew (hgrows.lookups.subset hmem), hpath, hingested,
    fun hmem => hfresh (hgrows.ingested.subset hmem), hrest⟩

theorem LookedUp.of_earlier (h : LookedUp env s t d) (hgrows : t.Grows u) :
    LookedUp env s u d := by
  obtain ⟨candidate, coords, location, content, declarations, hlooked, hnew, hpath, hingested,
    hfresh, hfetch, hparse, hd⟩ := h
  rw [← hgrows.fileLabel] at hparse
  exact ⟨candidate, coords, location, content, declarations, hgrows.lookups.subset hlooked, hnew,
    hpath, hgrows.ingested.subset hingested, hfresh, hfetch, hparse, hd⟩

instance (env : Environment) : IsPreorder Session (Adds env) where
  refl s := { Grows.rfl s with looked := fun _ => .inl }
  trans s t u h h' := by
    refine { h.toGrows.trans h'.toGrows with looked := ?_ }
    intro d hd
    rcases h'.looked d hd with hd | hlooked
    · exact (h.looked d hd).imp_right fun hlooked => hlooked.of_earlier h'.toGrows
    · exact .inr (hlooked.of_later h.toGrows)

theorem adds_lookUp {coords : Coords} {candidate : String} (hnew : candidate ∉ s.lookups) :
    s.Adds env (s.lookUp env coords candidate) := by
  have hgrows := s.grows_lookUp env coords candidate
  refine { hgrows with looked := ?_ }
  intro d hd
  have hlooked : candidate ∈ (s.lookUp env coords candidate).lookups := by
    rw [lookups_lookUp]
    exact List.mem_append_right _ List.mem_cons_self
  -- only a file that was served declares anything new
  rcases hserved : env.firstServed? (s.implementationLocations coords candidate) with _ | fetched
  · rw [lookUp_of_none hserved] at hd
    exact .inl hd
  · obtain ⟨hlocation, hfetch⟩ := Environment.firstServed?_eq_some hserved
    obtain ⟨hpath, hfresh⟩ := mem_implementationLocations.mp hlocation
    have hingested : fetched.location.key ∈ (s.lookUp env coords candidate).ingested := by
      rw [lookUp_of_some hserved]
      exact (mem_ingested_take env _ fetched).mpr (.inr rfl)
    rw [lookUp_of_some hserved] at hd
    refine (mem_entities_take hd).imp_right ?_
    rintro ⟨declarations, hparse, hd⟩
    refine ⟨candidate, coords, fetched.location, fetched.content, declarations, hlooked, hnew,
      hpath, hingested, hfresh, hfetch, ?_, hd⟩
    rw [hgrows.fileLabel]
    exact hparse

end Session

/-- Whatever is searched for or built, what is declared anew was looked up. -/
theorem Run.composed_adds (env : Environment) : Composed env (Respects (Session.Adds env)) := by
  refine composed_respects (fun s coords candidate => Session.adds_lookUp) ?_
  intro s t interface binding hget h
  have hnew : s.bindings.has interface = false := Table.get?_eq_none.mp hget
  exact { h with bindings := Table.prefix_insert_of_prefix h.bindings hnew }

end CallAtlas

import CallAtlas.CallTree.Build
import CallAtlas.Proofs.Import.Effect

/-!
# What building a tree inherits from its elementary actions

Looking for implementations and building trees are put together from a few elementary actions:
trying locations, taking in files, and noting what was looked for and decided.  `Run.Closed env P`
says that a property `P` of runs passes from parts to wholes and holds of these actions; then it
holds of every search and of every tree that is built (`Closed.build`).

Two such properties are that the session grows (`closed_grows`) and, for a parser that never breaks
off, that the run does not break off (`closed_completes`).  For any preorder on sessions it is
enough to look at the four ways in which searches change a session (`closed_respects`).

A property may hold of looking for names outside without holding of the single actions, since each
name is looked for under a condition.  Then it is `Run.Composed env P` that passes it on.
-/

namespace CallAtlas

open Interface (Edge)

/-- Decides something about an interface once: what was decided before stands. -/
def Interface.decideOnce (interface : String) (x : Session → Run (Option Binding)) :
    Run (Option Binding) := do
  let s ← Run.session
  match s.bindings.get? interface with
  | some decided => return decided
  | none => do
    let binding ← x s
    Run.update fun s => { s with bindings := s.bindings.insert interface binding }
    return binding

namespace Interface

theorem decideOnce_of_some {interface : String} {x : Session → Run (Option Binding)}
    {p : Progress} {decided : Option Binding}
    (h : p.session.bindings.get? interface = some decided) :
    decideOnce interface x p = (some decided, p) := by
  rw [decideOnce, Run.session_bind, h]
  rfl

theorem decideOnce_of_none {interface : String} {x : Session → Run (Option Binding)}
    {p : Progress} (h : p.session.bindings.get? interface = none) :
    decideOnce interface x p = (x p.session >>= fun binding => do
      Run.update fun s => { s with bindings := s.bindings.insert interface binding }
      return binding : Run (Option Binding)) p := by
  rw [decideOnce, Run.session_bind, h]

/-- Looks for the implementation of an interface, in the session as it is. -/
def lookFor (env : Environment) (interface : String) (coords : Option Coords) (s : Session) :
    Run (Option Binding) := do
  let members := declaredMembers s.repository interface
  let binding ←
    if members.isEmpty then do
      Run.log (.debug ("No declared members known for " ++ interface ++
        "; skipping implementation lookup"))
      pure none
    else search env interface members coords
  if binding.isNone then Run.log (.debug ("No implementation found for " ++ interface))
  return binding

theorem bindingFor_eq (env : Environment) (identifier : String) (coords : Option Coords) :
    bindingFor env identifier coords =
      decideOnce (nameOf identifier) (lookFor env (nameOf identifier) coords) := by
  unfold bindingFor decideOnce lookFor
  dsimp only
  congr 1
  funext s
  rcases s.bindings.get? (nameOf identifier) with _ | decided
  · by_cases hm : (declaredMembers s.repository (nameOf identifier)).isEmpty = true
    · simp only [hm, if_true, bind_assoc, pure_bind, Option.isNone_none]
    · simp only [hm, Bool.false_eq_true, if_false, bind_assoc]
      congr 1
      funext binding
      cases binding with
      | none => simp only [Option.isNone_none, if_true, bind_assoc, pure_bind]
      | some b => simp only [Option.isNone_some, Bool.false_eq_true, if_false, pure_bind]
  · rfl

end Interface

namespace Run

/-- `P` passes from parts of runs to wholes, and holds of looking for names outside. -/
structure Composed (env : Environment) (P : ∀ {α : Type}, Run α → Prop) : Prop where
  pure : ∀ {α : Type} (a : α), P (pure a : Run α)
  bind : ∀ {α β : Type} {x : Run α} {f : α → Run β}, P x → (∀ a, P (f a)) → P (x >>= f)
  session : P Run.session
  logAll : ∀ records, P (Run.logAll records)
  matchRemoteAt : ∀ interface members coords candidates,
    P (Interface.matchRemoteAt env interface members coords candidates)
  decideOnce : ∀ interface {x : Session → Run (Option Binding)}, (∀ s, P (x s)) →
    P (Interface.decideOnce interface x)

/-- `P` passes from parts of runs to wholes, and holds of the elementary actions of searches. -/
structure Closed (env : Environment) (P : ∀ {α : Type}, Run α → Prop) : Prop where
  pure : ∀ {α : Type} (a : α), P (pure a : Run α)
  bind : ∀ {α β : Type} {x : Run α} {f : α → Run β}, P x → (∀ a, P (f a)) → P (x >>= f)
  session : P Run.session
  logAll : ∀ records, P (Run.logAll records)
  fetchFirst : ∀ ls, P (Import.fetchFirst env ls)
  ingest : ∀ fetched, P (Import.ingest env fetched)
  look : ∀ candidate, P (Run.update fun s => { s with lookups := s.lookups ++ [candidate] })
  decideOnce : ∀ interface {x : Session → Run (Option Binding)}, (∀ s, P (x s)) →
    P (Interface.decideOnce interface x)

namespace Composed

variable {env : Environment} {P : ∀ {α : Type}, Run α → Prop}

theorem log (h : Composed env P) (record : Log.Record) : P (Run.log record) :=
  h.logAll [record]

/-! ### Searches -/

theorem matchLocal (h : Composed env P) (interface : String) (members : List Entity)
    (candidates interfaceFiles : List String) :
    P (Interface.matchLocal interface members candidates interfaceFiles) := by
  rw [Interface.matchLocal]
  refine h.bind h.session fun s => ?_
  split
  · exact h.pure _
  · exact h.bind (h.log _) fun _ => h.pure _

theorem matchRemote (h : Composed env P) (interface : String) (members : List Entity)
    (candidates : List String) (coords : Option Coords) :
    P (Interface.matchRemote env interface members candidates coords) := by
  cases coords with
  | none => exact h.pure _
  | some coords => exact h.matchRemoteAt interface members coords candidates

theorem matchByScan (h : Composed env P) (interface : String) (members : List Entity)
    (interfaceFiles : List String) :
    P (Interface.matchByScan interface members interfaceFiles) := by
  rw [Interface.matchByScan]
  refine h.bind h.session fun s => ?_
  split
  · exact h.pure _
  · exact h.bind (h.log _) fun _ => h.pure _

theorem search (h : Composed env P) (interface : String) (members : List Entity)
    (coords : Option Coords) : P (Interface.search env interface members coords) := by
  rw [Interface.search]
  refine h.bind (h.log _) fun _ => h.bind (h.matchLocal _ _ _ _) fun found => ?_
  cases found with
  | some b => exact h.pure _
  | none =>
    refine h.bind h.session fun s => ?_
    dsimp only
    split_ifs
    · refine h.bind (h.matchRemote _ _ _ _) fun fetched => ?_
      cases fetched with
      | some b => exact h.pure _
      | none => exact h.matchByScan _ _ _
    · refine h.bind (h.pure _) fun fetched => ?_
      cases fetched with
      | some b => exact h.pure _
      | none => exact h.matchByScan _ _ _

theorem lookFor (h : Composed env P) (interface : String) (coords : Option Coords) (s : Session) :
    P (Interface.lookFor env interface coords s) := by
  have hrest : ∀ binding : Option Binding, P (do
      if binding.isNone then Run.log (.debug ("No implementation found for " ++ interface))
      return binding : Run (Option Binding)) := by
    intro binding
    dsimp only
    split_ifs
    · exact h.bind (h.log _) fun _ => h.pure _
    · exact h.pure _
  rw [Interface.lookFor]
  dsimp only
  split_ifs
  · exact h.bind (h.log _) fun _ => h.bind (h.pure _) hrest
  · exact h.bind (h.search _ _ _) hrest

theorem bindingFor (h : Composed env P) (identifier : String) (coords : Option Coords) :
    P (Interface.bindingFor env identifier coords) := by
  rw [Interface.bindingFor_eq]
  exact h.decideOnce _ (h.lookFor _ _)

theorem bindInterfaces (h : Composed env P) (resolved : Table (Option Binding)) (edges : List Edge) :
    P (Interface.bindInterfaces env resolved edges) := by
  induction edges generalizing resolved with
  | nil => exact h.pure _
  | cons e es ih =>
    rw [Interface.bindInterfaces]
    split_ifs
    · exact ih _
    · exact h.bind (h.bindingFor _ _) fun _ => ih _

theorem bindEdges (h : Composed env P) (edges : List Edge) : P (Interface.bindEdges env edges) :=
  h.bind (h.bindInterfaces [] edges) fun _ => h.pure _

/-! ### Trees -/

theorem interfaceCalls (h : Composed env P) (options : CallTree.Options) (caller : Entity)
    (depth : Nat) (edges : List Edge) :
    P (CallTree.interfaceCalls env options caller depth edges) := by
  cases edges with
  | nil => exact h.pure _
  | cons e es =>
    unfold CallTree.interfaceCalls
    dsimp only
    split_ifs
    · exact h.bind (h.bindEdges _) fun _ => h.bind (h.pure _) fun _ =>
        h.bind (h.log _) fun _ => h.pure _
    · exact h.bind (h.pure _) fun _ => h.bind (h.log _) fun _ => h.pure _

theorem detectEdges (h : Composed env P) (options : CallTree.Options) (e : Entity) :
    P (CallTree.detectEdges options e) := by
  rw [CallTree.detectEdges]
  split
  · exact h.pure _
  · split_ifs
    · exact h.pure _
    · exact h.bind h.session fun _ => h.bind (h.logAll _) fun _ => h.pure _

theorem staticCalls (h : Composed env P) {expand : Entity → Run CallTree}
    (hexpand : ∀ d, P (expand d)) (caller : Entity) (depth : Nat) (typeNames : List String)
    (edges : List Edge) (calls : List Call) :
    P (CallTree.staticCalls expand caller depth typeNames edges calls) := by
  induction calls with
  | nil => exact h.pure _
  | cons call calls ih =>
    rw [CallTree.staticCalls]
    refine h.bind h.session fun s => ?_
    dsimp only
    split_ifs
    · exact ih
    · split
      · exact h.bind (hexpand _) fun _ => h.bind ih fun _ => h.pure _
      · exact h.bind (h.pure _) fun _ => h.bind ih fun _ => h.pure _

theorem expand (h : Composed env P) (options : CallTree.Options) (left depth : Nat)
    (path : List String) (e : Entity) : P (CallTree.expand env options left depth path e) := by
  induction left generalizing depth path e with
  | zero => exact h.pure _
  | succ left ih =>
    rw [CallTree.expand]
    split_ifs with hp hl
    · exact h.pure _
    · exact h.bind (h.pure _) fun _ => h.bind h.session fun _ =>
        h.bind (h.staticCalls (fun _ => ih _ _ _) _ _ _ _ _) fun _ =>
          h.bind (h.interfaceCalls _ _ _ _) fun _ => h.pure _
    · exact h.bind (h.detectEdges _ _) fun _ => h.bind h.session fun _ =>
        h.bind (h.staticCalls (fun _ => ih _ _ _) _ _ _ _ _) fun _ =>
          h.bind (h.interfaceCalls _ _ _ _) fun _ => h.pure _

theorem build (h : Composed env P) (options : CallTree.Options) (e : Entity) (bound : Int) :
    P (CallTree.build env options e bound) :=
  h.expand options _ _ _ _

end Composed

namespace Closed

variable {env : Environment} {P : ∀ {α : Type}, Run α → Prop}

theorem log (h : Closed env P) (record : Log.Record) : P (Run.log record) :=
  h.logAll [record]

theorem matchRemoteAt (h : Closed env P) (interface : String) (members : List Entity)
    (coords : Coords) (candidates : List String) :
    P (Interface.matchRemoteAt env interface members coords candidates) := by
  induction candidates with
  | nil => exact h.pure _
  | cons candidate rest ih =>
    rw [Interface.matchRemoteAt]
    refine h.bind h.session fun s => ?_
    split_ifs
    · exact ih
    · refine h.bind (h.look candidate) fun _ => h.bind (h.fetchFirst _) fun found => ?_
      cases found with
      | none => exact ih
      | some fetched =>
        refine h.bind (h.ingest fetched) fun _ => h.bind h.session fun s => ?_
        dsimp only
        split
        · exact ih
        · exact h.bind (h.log _) fun _ => h.pure _

theorem composed (h : Closed env P) : Composed env P where
  pure := h.pure
  bind := h.bind
  session := h.session
  logAll := h.logAll
  matchRemoteAt := h.matchRemoteAt
  decideOnce := h.decideOnce

theorem bindingFor (h : Closed env P) (identifier : String) (coords : Option Coords) :
    P (Interface.bindingFor env identifier coords) :=
  h.composed.bindingFor identifier coords

theorem bindEdges (h : Closed env P) (edges : List Edge) : P (Interface.bindEdges env edges) :=
  h.composed.bindEdges edges

theorem interfaceCalls (h : Closed env P) (options : CallTree.Options) (caller : Entity)
    (depth : Nat) (edges : List Edge) :
    P (CallTree.interfaceCalls env options caller depth edges) :=
  h.composed.interfaceCalls options caller depth edges

theorem expand (h : Closed env P) (options : CallTree.Options) (left depth : Nat)
    (path : List String) (e : Entity) : P (CallTree.expand env options left depth path e) :=
  h.composed.expand options left depth path e

theorem build (h : Closed env P) (options : CallTree.Options) (e : Entity) (bound : Int) :
    P (CallTree.build env options e bound) :=
  h.composed.build options e bound

end Closed

/-! ### Inherited properties -/

/-- What an interface is bound to is noted at the end of its search, in a session `t` that may
differ from the one at the start. -/
theorem respects_decideOnce {R : Session → Session → Prop} [IsPreorder Session R]
    (hdecide : ∀ s t interface binding, s.bindings.get? interface = none → R s t →
      R s { t with bindings := t.bindings.insert interface binding })
    (interface : String) {x : Session → Run (Option Binding)} (hx : ∀ s, Respects R (x s)) :
    Respects R (Interface.decideOnce interface x) := by
  intro p
  rcases hget : p.session.bindings.get? interface with _ | decided
  · rw [Interface.decideOnce_of_none hget]
    have hrel := hx p.session p
    rcases hxp : x p.session p with ⟨binding | binding, q⟩
    · rw [hxp] at hrel
      rw [bind_of_none hxp]
      exact hrel
    · rw [hxp] at hrel
      rw [bind_of_some hxp]
      exact hdecide _ _ _ _ hget hrel
  · rw [Interface.decideOnce_of_some hget]
    exact refl p.session

/-- A preorder on sessions that the four ways keep in which a search changes a session is kept by
whatever is searched for or built. -/
theorem closed_respects {env : Environment} {R : Session → Session → Prop} [IsPreorder Session R]
    (htried : ∀ s ls, R s (s.noteTried ls)) (htake : ∀ s fetched, R s (s.take env fetched))
    (hlook : ∀ s candidate, R s { s with lookups := s.lookups ++ [candidate] })
    (hdecide : ∀ s t interface binding, s.bindings.get? interface = none → R s t →
      R s { t with bindings := t.bindings.insert interface binding }) :
    Closed env (Respects R) where
  pure := respects_pure
  bind := Respects.bind
  session := respects_session
  logAll := respects_logAll
  fetchFirst ls p := by
    obtain ⟨log, hlog⟩ := Import.fetchFirst_apply env ls p
    rw [hlog]
    exact htried p.session _
  ingest fetched p := by
    rw [Import.ingest_session]
    exact htake p.session fetched
  look candidate := respects_update fun s => hlook s candidate
  decideOnce := respects_decideOnce hdecide

/-- Whatever is searched for or built, the session grows. -/
theorem closed_grows (env : Environment) : Closed env (Respects Session.Grows) := by
  refine closed_respects Session.grows_noteTried (Session.grows_take env) ?_ ?_
  · intro s candidate
    exact { Session.Grows.rfl s with lookups := List.prefix_append _ _ }
  · intro s t interface binding hget hgrows
    -- the interface may be bound meanwhile; the table before the search has no entry for it
    have hnew : s.bindings.has interface = false := Table.get?_eq_none.mp hget
    exact { hgrows with bindings := Table.prefix_insert_of_prefix hgrows.bindings hnew }

/-- With a parser that never breaks off, searches and the building of trees come to an end. -/
theorem closed_completes {env : Environment} (henv : env.parser.Steady) :
    Closed env Completes where
  pure := completes_pure
  bind := Completes.bind
  session p := ⟨_, _, rfl⟩
  logAll records p := ⟨_, _, rfl⟩
  fetchFirst ls p := by
    obtain ⟨log, hlog⟩ := Import.fetchFirst_apply env ls p
    exact ⟨_, _, hlog⟩
  ingest fetched := Import.ingest_completes henv fetched
  look candidate p := ⟨_, _, rfl⟩
  decideOnce interface x hx := by
    intro p
    rcases hget : p.session.bindings.get? interface with _ | decided
    · obtain ⟨binding, q, hq⟩ := hx p.session p
      exact ⟨_, _, by rw [Interface.decideOnce_of_none hget, bind_of_some hq]; rfl⟩
    · exact ⟨_, _, Interface.decideOnce_of_some hget⟩

end Run

end CallAtlas

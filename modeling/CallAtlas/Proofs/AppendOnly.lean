import CallAtlas.Analysis
import CallAtlas.Proofs.CallTree.Closed
import CallAtlas.Proofs.Import.History
import CallAtlas.Proofs.Import.Rounds

/-!
# Sessions are append-only

Whatever is done with a session, nothing of it is lost or changed.  Taking in a file, settling
an import and searching are known to make a session grow; here this passes to runs over imports.
Searches and the building of trees moreover leave alone what has become of imports, so a report at
the end of an extraction shows of them what its analysis came to.

* `Session.SameFates s t`: the same has become of imports in `s` and `t`.
* `session_grows`: what each operation does to a session.
-/

namespace CallAtlas

open Import (Fetched Reference ingest ingestImports resolve)

namespace Session

/-! ### Runs over imports -/

section

variable {env : Environment} {R : Session → Session → Prop} [IsPreorder Session R]

theorem respects_settleAll (hsettle : ∀ s ref, R s (s.settle env ref)) (s : Session)
    (refs : List Reference) : R s (s.settleAll env refs) := by
  induction refs generalizing s with
  | nil => exact refl s
  | cons ref refs ih => exact IsTrans.trans _ _ _ (hsettle s ref) (ih _)

theorem respects_takeAll (htake : ∀ s fetched, R s (s.take env fetched)) (s : Session)
    (files : List Fetched) : R s (s.takeAll env files) := by
  induction files generalizing s with
  | nil => exact refl s
  | cons first files ih => exact IsTrans.trans _ _ _ (htake s first) (ih _)

theorem WithinRound.respects (hsettle : ∀ s ref, R s (s.settle env ref))
    (htake : ∀ s fetched, R s (s.take env fetched)) {s t : Session} (h : s.WithinRound env t) :
    R s t := by
  obtain ⟨files, -, rfl⟩ := h
  exact IsTrans.trans _ _ _ (respects_settleAll hsettle s s.pending) (respects_takeAll htake _ files)

end

theorem WithinRound.grows {env : Environment} {s t : Session} (h : s.WithinRound env t) :
    s.Grows t :=
  h.respects (grows_settle env) (grows_take env)

end Session

/-- What holds from the start of a round to wherever it may end holds of whole runs. -/
theorem Import.respects_ingestImports {env : Environment} {R : Session → Session → Prop}
    [IsPreorder Session R] (hround : ∀ s t, s.WithinRound env t → R s t) (bound : Int) :
    Run.Respects R (ingestImports env bound) := by
  intro p
  obtain ⟨s, hrounds, hend⟩ := ingestImports_apply env bound p
  have hs : R p.session s := by
    clear hend
    induction hrounds with
    | refl => exact refl _
    | @tail t u _ hstep ih =>
      rw [hstep]
      exact IsTrans.trans _ _ _ ih (hround t _ (t.withinRound_afterRound env))
  rcases hend with ⟨-, hsession⟩ | ⟨-, hwithin⟩
  · rwa [hsession]
  · exact IsTrans.trans _ _ _ hs (hround _ _ hwithin)

theorem Import.grows_ingestImports (env : Environment) (bound : Int) :
    Run.Respects Session.Grows (ingestImports env bound) :=
  respects_ingestImports (fun _ _ h => h.grows) bound

/-! ### What has become of imports -/

namespace Session

/-- The same has become of imports in `s` and `t`. -/
def SameFates (s t : Session) : Prop :=
  t.processed = s.processed ∧ t.failed = s.failed

instance : IsPreorder Session SameFates where
  refl _ := ⟨rfl, rfl⟩
  trans _ _ _ h h' := ⟨h'.1.trans h.1, h'.2.trans h.2⟩

theorem SameFates.coverage {s t : Session} (h : s.SameFates t) :
    t.coverage.resolved = s.coverage.resolved ∧ t.coverage.external = s.coverage.external ∧
      t.coverage.unreachable = s.coverage.unreachable := by
  simp only [Session.coverage, h.1, h.2, and_self]

end Session

/-- Whatever is searched for or built, nothing becomes of imports. -/
theorem Run.closed_sameFates (env : Environment) : Closed env (Respects Session.SameFates) := by
  refine closed_respects (fun _ _ => ⟨rfl, rfl⟩) ?_ (fun _ _ => ⟨rfl, rfl⟩) fun _ _ _ _ _ h => h
  intro s fetched
  obtain ⟨hprocessed, hfailed, -⟩ := s.frame_take env fetched
  exact ⟨hprocessed, hfailed⟩

/-! ### Extractions -/

namespace Analysis

/-- What searches and the building of trees respect relates the session after the analysis to that
at the end of an extraction. -/
theorem extract_respects {env : Environment} {R : Session → Session → Prop}
    [IsPreorder Session R] (h : Run.Closed env (Run.Respects R)) (request : Request)
    (p : Progress) :
    R (analyze env [request.url] request.importDepth p).2.session
      (extract env request p).2.session := by
  rw [extract]
  refine Run.respects_after _ (fun result => ?_) p
  rcases result with failure | ⟨⟩
  · exact h.pure _
  · refine h.bind h.session fun s => h.bind (h.logAll _) fun _ => ?_
    dsimp only
    split
    · exact h.pure _
    · exact h.bind (h.log _) fun _ => h.bind (h.build _ _ _) fun _ => h.bind h.session fun _ =>
        h.bind (h.log _) fun _ => h.pure _

/-- An extraction taken apart: an analysis, the search for the function, then the building of a
tree. -/
theorem extract_apart {env : Environment} {request : Request} {p q : Progress}
    {x : Report.Extraction} (h : extract env request p = (some (.ok x), q)) :
    ∃ r log q', analyze env [request.url] request.importDepth p = (some (.ok ()), r) ∧
      (r.session.repository.findFunction request.function).1 = some x.entity ∧
      CallTree.build env {} x.entity request.callDepth ⟨r.session, log⟩ = (some x.tree, q') ∧
      q.session = q'.session ∧ x.coverage = q.session.coverage := by
  rw [extract, Run.bind_eq_some] at h
  obtain ⟨result, r, hanalyze, h⟩ := h
  rcases result with failure | ⟨⟩
  · cases h
  · dsimp only at h
    rw [Run.session_bind, Run.logAll_bind] at h
    rcases hfind : (r.session.repository.findFunction request.function).1 with _ | e
    · rw [hfind] at h
      cases h
    · rw [hfind] at h
      simp only [Run.log_bind, Run.bind_eq_some] at h
      obtain ⟨tree, q', hbuild, s, _, hs, h⟩ := h
      cases hs
      cases h
      exact ⟨r, _, q', hanalyze, hfind, hbuild, rfl, rfl⟩

theorem coverage_of_extract {env : Environment} {request : Request} {p q : Progress}
    {x : Report.Extraction} (h : extract env request p = (some (.ok x), q)) :
    x.coverage = q.session.coverage := by
  obtain ⟨r, log, q', -, -, -, -, hcoverage⟩ := extract_apart h
  exact hcoverage

end Analysis

/-- **Sessions are append-only.**  Nothing of a session is lost or changed, whatever is done with
it.  Searches and the building of trees leave alone what has become of imports, so after an
extraction the imports that were resolved, the external and the unreachable ones are those of its
analysis. -/
theorem session_grows (env : Environment) (p : Progress) :
    (∀ fetched, p.session.Grows (ingest env fetched p).2.session) ∧
    (∀ ref, p.session.Grows (resolve env ref p).2.session) ∧
    (∀ bound, p.session.Grows (ingestImports env bound p).2.session) ∧
    (∀ identifier coords,
      let t := (Interface.bindingFor env identifier coords p).2.session
      p.session.Grows t ∧ p.session.SameFates t) ∧
    (∀ edges,
      let t := (Interface.bindEdges env edges p).2.session
      p.session.Grows t ∧ p.session.SameFates t) ∧
    (∀ options e bound,
      let t := (CallTree.build env options e bound p).2.session
      p.session.Grows t ∧ p.session.SameFates t) ∧
    ∀ request : Analysis.Request,
      let analyzed := (Analysis.analyze env [request.url] request.importDepth p).2.session
      let t := (Analysis.extract env request p).2.session
      analyzed.Grows t ∧ t.coverage.resolved = analyzed.coverage.resolved ∧
        t.coverage.external = analyzed.coverage.external ∧
        t.coverage.unreachable = analyzed.coverage.unreachable ∧
        ∀ x, (Analysis.extract env request p).1 = some (.ok x) → x.coverage = t.coverage := by
  have hgrows := Run.closed_grows env
  have hfates := Run.closed_sameFates env
  refine ⟨?_, ?_, fun bound => Import.grows_ingestImports env bound p,
    fun identifier coords => ⟨hgrows.bindingFor _ _ p, hfates.bindingFor _ _ p⟩,
    fun edges => ⟨hgrows.bindEdges _ p, hfates.bindEdges _ p⟩,
    fun options e bound => ⟨hgrows.build _ _ _ p, hfates.build _ _ _ p⟩, ?_⟩
  · intro fetched
    rw [Import.ingest_session]
    exact p.session.grows_take env fetched
  · intro ref
    obtain ⟨log, hlog⟩ := Import.resolve_apply env ref p
    rw [hlog]
    exact p.session.grows_settle env ref
  · intro request analyzed t
    -- behind the analysis an extraction only builds a tree
    obtain ⟨hresolved, hexternal, hunreachable⟩ :=
      (Analysis.extract_respects hfates request p).coverage
    refine ⟨Analysis.extract_respects hgrows request p, hresolved, hexternal, hunreachable, ?_⟩
    intro x hx
    rcases hrun : Analysis.extract env request p with ⟨answer, q⟩
    rw [hrun] at hx
    cases hx
    change x.coverage = (Analysis.extract env request p).2.session.coverage
    rw [hrun]
    exact Analysis.coverage_of_extract hrun

end CallAtlas

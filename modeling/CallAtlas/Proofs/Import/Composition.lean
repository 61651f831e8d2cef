import CallAtlas.Proofs.Import.Settlement

/-!
# Rounds compose

A run over imports stops when nothing is pending, when its rounds are used up, or when a round
finds no new import.  A round settles all that was pending when it began, so after the last of these
exits nothing is pending either; and with nothing pending a further round would change nothing.
Hence a run of at most `n` rounds does what `n` rounds do that never stop early, and runs compose.

* `Session.Filed s`: imports are filed under their own paths, and the settled ones are known.
* `Session.Filed.pending_afterRound`: pending after a round is what was first found in it.
* `Passes env left s begun t`: how a run goes, exit by exit, with the sessions in which its rounds
  began.
* `rounds_alike`: the exits make no difference to what `left` rounds do.
* `ingestImports_composes`: what is pending after a run, and what two runs in turn do.
-/

namespace CallAtlas

open Import (Fetched Reference ingest ingestAll ingestImports resolveAll round rounds)

/-! ### What is settled -/

namespace Session

theorem isSettled_settle (env : Environment) (s : Session) (ref : Reference) {path : String} :
    (s.settle env ref).isSettled path = true ↔ s.isSettled path = true ∨ path = ref.path := by
  cases h : s.isSettled ref.path with
  | true =>
    rw [settle, if_pos h]
    refine ⟨.inl, ?_⟩
    rintro (hpath | rfl)
    · exact hpath
    · exact h
  | false =>
    rw [settle_eq env h]
    -- the verdict makes an entry of this path in one of the two tables
    cases s.verdictOn env ref with
    | external | unreachable =>
      simp only [isSettled, Import.Verdict.location?, Import.Verdict.failure?, Option.map_none,
        Option.map_some, Option.toList_none, Option.toList_some, List.append_nil, Table.has_append,
        Bool.or_eq_true, Table.has_singleton, or_assoc]
    | found l =>
      simp only [isSettled, Import.Verdict.location?, Import.Verdict.failure?, Option.map_none,
        Option.map_some, Option.toList_none, Option.toList_some, List.append_nil, Table.has_append,
        Bool.or_eq_true, Table.has_singleton, or_right_comm]

theorem isSettled_settleAll (env : Environment) (s : Session) (refs : List Reference)
    {path : String} : (s.settleAll env refs).isSettled path = true ↔
      s.isSettled path = true ∨ path ∈ refs.map Reference.path := by
  induction refs generalizing s with
  | nil => simp [settleAll]
  | cons ref refs ih =>
    rw [settleAll, List.foldl_cons]
    refine (ih (s.settle env ref)).trans ?_
    rw [isSettled_settle, List.map_cons, List.mem_cons, or_assoc]

theorem isSettled_take (env : Environment) (s : Session) (fetched : Fetched) (path : String) :
    (s.take env fetched).isSettled path = s.isSettled path := by
  obtain ⟨hprocessed, hfailed, -⟩ := s.frame_take env fetched
  rw [isSettled, hprocessed, hfailed, isSettled]

theorem isSettled_takeAll (env : Environment) (s : Session) (files : List Fetched)
    (path : String) : (s.takeAll env files).isSettled path = s.isSettled path := by
  induction files generalizing s with
  | nil => rfl
  | cons first files ih => exact (ih (s.take env first)).trans (s.isSettled_take env first path)

/-- Within a round, what was pending when it began is settled, and nothing else besides what was
settled before. -/
theorem isSettled_withinRound {env : Environment} {s t : Session} (h : s.WithinRound env t)
    {path : String} : t.isSettled path = true ↔
      s.isSettled path = true ∨ path ∈ s.pending.map Reference.path := by
  obtain ⟨files, -, rfl⟩ := h
  rw [isSettled_takeAll, isSettled_settleAll]

end Session

theorem Import.withinRound_round (env : Environment) (p : Progress) :
    p.session.WithinRound env (round env p).2.session := by
  rcases round_apply env p with ⟨-, h⟩ | ⟨-, h⟩
  · rw [h]
    exact p.session.withinRound_afterRound env
  · exact h

/-! ### What is found -/

namespace Import

/-- `u` has what `t` has, and behind it imports of other paths, filed under these. -/
def FindsMore (t u : Table Reference) : Prop :=
  ∃ fresh, u = t ++ fresh ∧ ∀ entry ∈ fresh, t.has entry.1 = false ∧ entry.2.path = entry.1

theorem FindsMore.rfl (t : Table Reference) : FindsMore t t :=
  ⟨[], (List.append_nil t).symm, nofun⟩

theorem FindsMore.trans {t u v : Table Reference} (h : FindsMore t u) (h' : FindsMore u v) :
    FindsMore t v := by
  obtain ⟨fresh, rfl, hfresh⟩ := h
  obtain ⟨fresh', rfl, hfresh'⟩ := h'
  refine ⟨fresh ++ fresh', List.append_assoc _ _ _, fun entry hentry => ?_⟩
  rcases List.mem_append.mp hentry with hentry | hentry
  · exact hfresh entry hentry
  · obtain ⟨hnew, hpath⟩ := hfresh' entry hentry
    rw [Table.has_append, Bool.or_eq_false_iff] at hnew
    exact ⟨hnew.1, hpath⟩

theorem findsMore_insertNew (t : Table Reference) (ref : Reference) :
    FindsMore t (t.insertNew ref.path ref) := by
  cases h : t.has ref.path with
  | true =>
    rw [Table.insertNew_of_has h]
    exact .rfl t
  | false =>
    refine ⟨[(ref.path, ref)], Table.insertNew_of_not_has h, fun entry hentry => ?_⟩
    rw [List.mem_singleton.mp hentry]
    exact ⟨h, Eq.refl _⟩

theorem findsMore_foldl (t : Table Reference) (refs : List Reference) :
    FindsMore t (refs.foldl (fun t ref => t.insertNew ref.path ref) t) := by
  induction refs generalizing t with
  | nil => exact .rfl t
  | cons ref refs ih => exact (findsMore_insertNew t ref).trans (ih _)

end Import

namespace Session

open Import (FindsMore findsMore_foldl)

theorem findsMore_take (env : Environment) (s : Session) (fetched : Fetched) :
    FindsMore s.discovered (s.take env fetched).discovered := by
  cases h : s.ingested.contains fetched.location.key with
  | true =>
    rw [take_of_known h]
    exact .rfl _
  | false =>
    rw [take_of_new env h]
    exact findsMore_foldl _ _

theorem findsMore_takeAll (env : Environment) (s : Session) (files : List Fetched) :
    FindsMore s.discovered (s.takeAll env files).discovered := by
  induction files generalizing s with
  | nil => exact .rfl _
  | cons first files ih => exact (s.findsMore_take env first).trans (ih _)

theorem discovered_settle (env : Environment) (s : Session) (ref : Reference) :
    (s.settle env ref).discovered = s.discovered := by
  cases h : s.isSettled ref.path with
  | true => rw [settle, if_pos h]
  | false => rw [settle_eq env h]

theorem discovered_settleAll (env : Environment) (s : Session) (refs : List Reference) :
    (s.settleAll env refs).discovered = s.discovered := by
  induction refs generalizing s with
  | nil => rfl
  | cons ref refs ih => exact (ih _).trans (s.discovered_settle env ref)

theorem findsMore_withinRound {env : Environment} {s t : Session} (h : s.WithinRound env t) :
    FindsMore s.discovered t.discovered := by
  obtain ⟨files, -, rfl⟩ := h
  rw [← s.discovered_settleAll env s.pending]
  exact findsMore_takeAll env _ files

/-! ### What is pending -/

/-- Imports are filed under their own paths, and those that are settled are known. -/
structure Filed (s : Session) : Prop where
  path_eq : ∀ entry ∈ s.discovered, entry.2.path = entry.1
  known : ∀ path, s.isSettled path = true → s.discovered.has path = true

namespace Filed

variable {env : Environment} {s t : Session}

theorem known_of_pending (hs : s.Filed) {path : String}
    (h : path ∈ s.pending.map Reference.path) : s.discovered.has path = true := by
  rw [pending, List.map_map, List.mem_map] at h
  obtain ⟨entry, hentry, rfl⟩ := h
  have hmem := List.mem_of_mem_filter hentry
  rw [Function.comp_apply, hs.path_eq entry hmem, Table.has_iff]
  exact List.mem_map_of_mem hmem

/-- Every import that is known is settled within a round. -/
theorem isSettled_of_known (hs : s.Filed) (h : s.WithinRound env t) {entry : String × Reference}
    (hentry : entry ∈ s.discovered) : t.isSettled entry.1 = true := by
  rw [isSettled_withinRound h]
  cases hsettled : s.isSettled entry.1 with
  | true => exact .inl rfl
  | false =>
    have hpending : entry.2 ∈ s.pending := by
      refine List.mem_map_of_mem (List.mem_filter.mpr ⟨hentry, ?_⟩)
      rw [hsettled, Bool.not_false]
    rw [← hs.path_eq entry hentry]
    exact .inr (List.mem_map_of_mem hpending)

theorem of_findsMore (hs : s.Filed) (hmore : FindsMore s.discovered t.discovered)
    (hknown : ∀ path, t.isSettled path = true → s.discovered.has path = true) : t.Filed := by
  obtain ⟨fresh, hfresh, hnew⟩ := hmore
  constructor
  · rw [hfresh]
    intro entry hentry
    rcases List.mem_append.mp hentry with hentry | hentry
    · exact hs.path_eq entry hentry
    · exact (hnew entry hentry).2
  · intro path hpath
    exact Table.has_of_prefix ⟨fresh, hfresh.symm⟩ (hknown path hpath)

theorem take (hs : s.Filed) (env : Environment) (fetched : Fetched) :
    (s.take env fetched).Filed := by
  refine hs.of_findsMore (s.findsMore_take env fetched) fun path hpath => ?_
  rw [isSettled_take] at hpath
  exact hs.known path hpath

theorem withinRound (hs : s.Filed) (h : s.WithinRound env t) : t.Filed := by
  refine hs.of_findsMore (findsMore_withinRound h) fun path hpath => ?_
  rcases (isSettled_withinRound h).mp hpath with hpath | hpath
  · exact hs.known path hpath
  · exact hs.known_of_pending hpath

theorem afterRound (hs : s.Filed) (env : Environment) : (s.afterRound env).Filed :=
  hs.withinRound (s.withinRound_afterRound env)

/-- Pending within a round are the imports that were first found in it. -/
theorem pending_withinRound (hs : s.Filed) (h : s.WithinRound env t) :
    ∃ fresh, t.discovered = s.discovered ++ fresh ∧ t.pending = fresh.map Prod.snd := by
  obtain ⟨fresh, hfresh, hnew⟩ := findsMore_withinRound h
  refine ⟨fresh, hfresh, ?_⟩
  have hold : s.discovered.filter (fun entry => !t.isSettled entry.1) = [] := by
    rw [List.filter_eq_nil_iff]
    intro entry hentry
    rw [hs.isSettled_of_known h hentry]
    exact Bool.false_ne_true
  -- all that is settled was known when the round began, and what is fresh was not
  have hfresh' : fresh.filter (fun entry => !t.isSettled entry.1) = fresh := by
    rw [List.filter_eq_self]
    intro entry hentry
    rw [Bool.not_eq_true', Bool.eq_false_iff, Ne, isSettled_withinRound h]
    intro hsettled
    have hknown : s.discovered.has entry.1 = true := by
      rcases hsettled with hsettled | hpending
      · exact hs.known _ hsettled
      · exact hs.known_of_pending hpending
    rw [(hnew entry hentry).1] at hknown
    cases hknown
  rw [pending, hfresh, List.filter_append, hold, hfresh', List.nil_append]

theorem pending_afterRound (hs : s.Filed) (env : Environment) :
    ∃ fresh, (s.afterRound env).discovered = s.discovered ++ fresh ∧
      (s.afterRound env).pending = fresh.map Prod.snd :=
  hs.pending_withinRound (s.withinRound_afterRound env)

/-- After a round that finds nothing new, nothing is pending. -/
theorem pending_eq_nil (hs : s.Filed)
    (h : (s.afterRound env).discovered.length - s.discovered.length = 0) :
    (s.afterRound env).pending = [] := by
  obtain ⟨fresh, hfresh, hpending⟩ := hs.pending_afterRound env
  rw [hfresh, List.length_append, Nat.add_sub_cancel_left] at h
  rw [hpending, List.eq_nil_of_length_eq_zero h, List.map_nil]

end Filed

end Session

/-! ### How a run goes -/

namespace Import

/-- How a run goes from `s` to `t` with at most `left` rounds, which began in the sessions
`begun`. -/
inductive Passes (env : Environment) : (left : Nat) → Session → List Session → Session → Prop
  /-- Nothing is pending. -/
  | settled {left : Nat} {s : Session} (h : s.pending = []) : Passes env left s [] s
  /-- No rounds are left. -/
  | spent {s : Session} (h : s.pending ≠ []) : Passes env 0 s [] s
  /-- A round finds nothing new. -/
  | still {left : Nat} {s : Session} (h : s.pending ≠ [])
      (hnew : (s.afterRound env).discovered.length - s.discovered.length = 0) :
      Passes env (left + 1) s [s] (s.afterRound env)
  /-- A round finds something new, and the run goes on. -/
  | again {left : Nat} {s t : Session} {begun : List Session} (h : s.pending ≠ [])
      (hnew : (s.afterRound env).discovered.length - s.discovered.length ≠ 0)
      (hrest : Passes env left (s.afterRound env) begun t) :
      Passes env (left + 1) s (s :: begun) t

theorem round_eq_some {env : Environment} {p q : Progress} {u : Unit}
    (h : round env p = (some u, q)) : q.session = p.session.afterRound env := by
  rcases round_apply env p with ⟨-, hsession⟩ | ⟨hnone, -⟩
  · rw [h] at hsession
    exact hsession
  · rw [h] at hnone
    cases hnone

theorem passes_of_rounds {env : Environment} {bound : Int} {depth left : Nat} {p q : Progress}
    (h : rounds env bound depth left p = (some (), q)) :
    ∃ begun, Passes env left p.session begun q.session := by
  induction left generalizing depth p with
  | zero =>
    rw [rounds, Run.session_bind] at h
    split_ifs at h with hpending
    · cases h
      exact ⟨[], .settled (List.isEmpty_iff.mp hpending)⟩
    · cases h
      exact ⟨[], .spent (mt List.isEmpty_iff.mpr hpending)⟩
  | succ left ih =>
    rw [rounds, Run.session_bind] at h
    split_ifs at h with hpending
    · cases h
      exact ⟨[], .settled (List.isEmpty_iff.mp hpending)⟩
    · have hpending' : p.session.pending ≠ [] := mt List.isEmpty_iff.mpr hpending
      rw [Run.log_bind, Run.bind_eq_some] at h
      obtain ⟨_, r, hround, h⟩ := h
      have hsession := round_eq_some hround
      rw [Run.session_bind] at h
      split_ifs at h with hnew
      · -- nothing new turned up, so the run stops here
        cases h
        rw [hsession] at hnew ⊢
        exact ⟨[p.session], .still hpending' hnew⟩
      · rw [Run.log_bind] at h
        obtain ⟨begun, hrest⟩ := ih h
        rw [hsession] at hnew hrest
        exact ⟨p.session :: begun, .again hpending' hnew hrest⟩

/-- After a run nothing is pending, or all rounds were made.  In the latter case what is pending was
first found in the last round, or is all that was pending at first if there was no round. -/
theorem Passes.pending {env : Environment} {left : Nat} {s t : Session} {begun : List Session}
    (h : Passes env left s begun t) (hs : s.Filed) :
    t.pending = [] ∨ begun.length = left ∧
      ((begun = [] ∧ t = s) ∨ ∃ last fresh, begun.getLast? = some last ∧ t = last.afterRound env ∧
        t.discovered = last.discovered ++ fresh ∧ t.pending = fresh.map Prod.snd) := by
  induction h with
  | settled h => exact .inl h
  | spent _ => exact .inr ⟨rfl, .inl ⟨rfl, rfl⟩⟩
  | still _ hnew => exact .inl (hs.pending_eq_nil hnew)
  | @again left s t begun _ _ _ ih =>
    rcases ih (hs.afterRound env) with hnil | ⟨hlength, hlast⟩
    · exact .inl hnil
    · refine .inr ⟨congrArg (· + 1) hlength, .inr ?_⟩
      rcases hlast with ⟨rfl, rfl⟩ | ⟨last, fresh, hlast, hend⟩
      · obtain ⟨fresh, hfresh, hpending⟩ := hs.pending_afterRound env
        exact ⟨s, fresh, rfl, rfl, hfresh, hpending⟩
      · refine ⟨last, fresh, ?_, hend⟩
        rw [List.getLast?_cons, hlast, Option.getD_some]

/-! ### Rounds that never stop early -/

/-- So many rounds, whatever is pending. -/
def repeated (env : Environment) : Nat → Run Unit
  | 0 => return ()
  | n + 1 => do
    round env
    repeated env n

theorem repeated_add (env : Environment) (n m : Nat) :
    repeated env (n + m) = (do repeated env n; repeated env m) := by
  induction n with
  | zero => rw [Nat.zero_add, repeated, pure_bind]
  | succ n ih => rw [Nat.add_right_comm, repeated, ih, repeated, bind_assoc]

theorem blind_ingest (env : Environment) (fetched : Fetched) : Run.Blind (ingest env fetched) := by
  rw [ingest]
  refine Run.blind_session.bind fun s => ?_
  dsimp only
  split_ifs
  · exact Run.blind_pure _
  · refine (Run.blind_update _).bind fun _ => (Run.blind_parse _ _ _).bind fun result => ?_
    rcases result with reason | declarations
    · exact (Run.blind_logAll _).bind fun _ => (Run.blind_update _).bind fun _ => Run.blind_pure _
    · exact (Run.blind_update _).bind fun _ => (Run.blind_logAll _).bind fun _ => Run.blind_pure _

theorem blind_ingestAll (env : Environment) (files : List Fetched) :
    Run.Blind (ingestAll env files) := by
  induction files with
  | nil => exact Run.blind_pure ()
  | cons file files ih => exact (blind_ingest env file).bind fun _ => ih

theorem blind_round (env : Environment) : Run.Blind (round env) := by
  refine Run.blind_session.bind fun s => Run.Blind.bind ?_ (blind_ingestAll env)
  intro p q h
  obtain ⟨log, hp⟩ := resolveAll_apply env s.pending p
  obtain ⟨log', hq⟩ := resolveAll_apply env s.pending q
  rw [hp, hq, h]
  exact ⟨rfl, rfl⟩

theorem round_of_pending_nil (env : Environment) {p : Progress} (h : p.session.pending = []) :
    round env p = (some (), p) := by
  rw [round, Run.session_bind, h]
  rfl

theorem repeated_of_pending_nil (env : Environment) (n : Nat) {p : Progress}
    (h : p.session.pending = []) : repeated env n p = (some (), p) := by
  induction n with
  | zero => rfl
  | succ n ih => rw [repeated, Run.bind_of_some (round_of_pending_nil env h), ih]

/-- Where a run stops early nothing is pending, so further rounds change nothing. -/
theorem rounds_alike (env : Environment) (bound : Int) (depth left : Nat) {p q : Progress}
    (hs : p.session.Filed) (hpq : p.session = q.session) :
    Run.Alike (rounds env bound depth left p) (repeated env left q) := by
  induction left generalizing depth p q with
  | zero =>
    rw [rounds, Run.session_bind]
    split_ifs
    · exact ⟨rfl, hpq⟩
    · exact ⟨rfl, hpq⟩
  | succ left ih =>
    rw [rounds, Run.session_bind]
    split_ifs with hpending
    · rw [repeated_of_pending_nil env _ (hpq ▸ List.isEmpty_iff.mp hpending)]
      exact ⟨rfl, hpq⟩
    · rw [Run.log_bind, repeated]
      refine Run.Alike.bind (blind_round env _ q hpq) fun _ p' q' hround hsession => ?_
      have hafter := round_eq_some hround
      rw [Run.session_bind]
      split_ifs with hnew
      · -- with nothing new nothing is pending, so the rounds left over do nothing
        rw [hafter] at hnew
        have hnil : q'.session.pending = [] := by
          rw [← hsession, hafter]
          exact hs.pending_eq_nil hnew
        rw [repeated_of_pending_nil env left hnil]
        exact ⟨rfl, hsession⟩
      · exact ih (depth + 1) (hafter ▸ hs.afterRound env) hsession

/-! ### Runs -/

/-- What has become of imports after so many rounds, whatever is pending. -/
def coverageAfter (env : Environment) (n : Nat) : Run Coverage := do
  repeated env n
  return (← Run.session).coverage

theorem ingestImports_alike (env : Environment) (n : Nat) {p q : Progress}
    (hs : p.session.Filed) (hpq : p.session = q.session) :
    Run.Alike (ingestImports env n p) (coverageAfter env n q) := by
  rw [ingestImports, coverageAfter, Int.toNat_natCast]
  refine (rounds_alike env n 0 n hs hpq).bind fun _ p' q' _ hsession => ?_
  exact ⟨congrArg (fun s : Session => some s.coverage) hsession, hsession⟩

theorem filed_ingestImports (env : Environment) (bound : Int) {p : Progress}
    (hs : p.session.Filed) : (ingestImports env bound p).2.session.Filed := by
  obtain ⟨s, hrounds, hend⟩ := ingestImports_apply env bound p
  have hfiled : s.Filed := by
    clear hend
    induction hrounds with
    | refl => exact hs
    | tail _ hround ih => exact hround ▸ ih.afterRound env
  rcases hend with ⟨-, hsession⟩ | ⟨-, hwithin⟩
  · rwa [hsession]
  · exact hfiled.withinRound hwithin

/-- A run of at most `n` rounds and then one of at most `m` do what one of at most `n + m` does. -/
theorem ingestImports_bind (env : Environment) (n m : Nat) {p : Progress} (hs : p.session.Filed) :
    Run.Alike ((do let _ ← ingestImports env n; ingestImports env m : Run Coverage) p)
      (ingestImports env (n + m : Nat) p) := by
  have hfirst := ingestImports_alike env n hs (Eq.refl p.session)
  have hboth : (do let _ ← coverageAfter env n; coverageAfter env m : Run Coverage) =
      coverageAfter env (n + m) := by
    simp only [coverageAfter, repeated_add, bind_assoc, pure_bind]
    rfl
  refine Run.Alike.trans ?_ (ingestImports_alike env (n + m) hs (Eq.refl p.session)).symm
  rw [← hboth]
  refine hfirst.bind fun _ p' q' hrun hsession => ingestImports_alike env m ?_ hsession
  have hfiled := filed_ingestImports env n hs
  rwa [hrun] at hfiled

/-- **Runs over imports compose.**  A round settles what was pending when it began, even if the
parser breaks off in it.  A run of at most `n` rounds leaves nothing pending, or makes all `n`
rounds and leaves pending what was first found in the last of them; without rounds it changes
nothing.  A run of at most `n` rounds and then one of at most `m` come to what a run of at most
`n + m` rounds comes to, and break off where it does. -/
theorem ingestImports_composes (env : Environment) {p : Progress} (hs : p.session.Filed)
    (n m : Nat) :
    (∀ q : Progress, ∀ ref ∈ q.session.pending,
      (round env q).2.session.isSettled ref.path = true) ∧
    (env.parser.Steady → ∃ coverage q, ingestImports env n p = (some coverage, q)) ∧
    (∀ coverage q, ingestImports env n p = (some coverage, q) →
      coverage = q.session.coverage ∧ (∃ begun, Passes env n p.session begun q.session) ∧
      ∀ begun, Passes env n p.session begun q.session →
        q.session.pending = [] ∨ begun.length = n ∧
          ((begun = [] ∧ q.session = p.session) ∨
            ∃ last fresh, begun.getLast? = some last ∧ q.session = last.afterRound env ∧
              q.session.discovered = last.discovered ++ fresh ∧
              q.session.pending = fresh.map Prod.snd)) ∧
    Run.Alike ((do let _ ← ingestImports env n; ingestImports env m : Run Coverage) p)
      (ingestImports env (n + m : Nat) p) := by
  refine ⟨?_, fun henv => ingestImports_completes henv n p, ?_, ingestImports_bind env n m hs⟩
  · intro q ref href
    rw [Session.isSettled_withinRound (withinRound_round env q)]
    exact .inr (List.mem_map_of_mem href)
  · intro coverage q h
    rw [ingestImports, Int.toNat_natCast, Run.bind_eq_some] at h
    obtain ⟨_, r, hrounds, h⟩ := h
    -- the rounds of the run, and then its coverage
    have hgoes := passes_of_rounds hrounds
    cases h
    exact ⟨rfl, hgoes, fun _ hpasses => hpasses.pending hs⟩

/-! ### A chain of files -/

/-- Files of which each imports the next: `A.sol` imports `B.sol`, and that imports `C.sol`.  The
text of a file is the path that it imports. -/
def chain : Environment where
  fetch l :=
    if l.path = "B.sol" then .ok "./C.sol"
    else if l.path = "C.sol" then .ok ""
    else .error (.plain .notFound l)
  parser :=
    { parse := fun text file => .ok { imports := if text = "" then [] else [⟨text, file⟩] } }

/-- The session in which the first file of the chain is taken in. -/
def chainStart : Session where
  seeds := [vaultAt "A.sol"]
  discovered := [("./B.sol", ⟨"./B.sol", "A.sol"⟩)]
  ingested := [(vaultAt "A.sol").key]
  locations := [("A.sol", vaultAt "A.sol")]
  parses := 1

theorem steady_chain : chain.parser.Steady := by
  intro text file h
  cases h

theorem filed_chainStart : chainStart.Filed where
  path_eq := by decide +kernel
  known := fun _ h => absurd h Bool.false_ne_true

/-- One round over the chain leaves the import of its second file pending, and two runs of one round
are one run of two, which settles all. -/
theorem ingestImports_composes_chain :
    let p : Progress := ⟨chainStart, []⟩
    p.session.Filed ∧ chain.parser.Steady ∧
      (∃ coverage q, ingestImports chain (1 : Nat) p = (some coverage, q) ∧
        q.session.pending = [⟨"./C.sol", "B.sol"⟩] ∧
        ∃ begun, Passes chain 1 p.session begun q.session ∧ begun.length = 1) ∧
      Run.Alike
        ((do let _ ← ingestImports chain (1 : Nat); ingestImports chain (1 : Nat) : Run Coverage) p)
        (ingestImports chain (1 + 1 : Nat) p) ∧
      (ingestImports chain (1 + 1 : Nat) p).2.session.pending = [] := by
  intro p
  obtain ⟨-, hruns, hends, halike⟩ := ingestImports_composes chain (p := p) filed_chainStart 1 1
  obtain ⟨coverage, q, hrun⟩ := hruns steady_chain
  obtain ⟨-, ⟨begun, hpasses⟩, hpending⟩ := hends coverage q hrun
  have hleft : (ingestImports chain (1 : Nat) p).2.session.pending = [⟨"./C.sol", "B.sol"⟩] := by
    decide +kernel
  have hnone : (ingestImports chain (1 + 1 : Nat) p).2.session.pending = [] := by
    decide +kernel
  rw [hrun] at hleft
  -- something is pending, so the one round was made
  have hlength : begun.length = 1 := by
    rcases hpending begun hpasses with hnil | ⟨hlength, -⟩
    · rw [hnil] at hleft
      cases hleft
    · exact hlength
  exact ⟨filed_chainStart, steady_chain, ⟨coverage, q, hrun, hleft, begun, hpasses, hlength⟩,
    halike, hnone⟩

end Import

end CallAtlas

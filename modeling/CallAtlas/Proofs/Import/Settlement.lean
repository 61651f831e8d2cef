import CallAtlas.Proofs.Import.History
import CallAtlas.Proofs.Import.Rounds

/-!
# What becomes of imports

Imports are settled in the order in which they were found, each once, and looked up from where the
first file that has it lies.  External imports are given up without a request.  Of the candidates
for any other import the first that is served is taken, and an import is unreachable if none is.

* `Tables env settled s`: the tables of `s` are those that the imports `settled` bring about;
  `Settlement env start settled s`: so are the requests, from `start` on.
* `Kept.ingestImports`: what settling the next import and taking in a file keep, a run keeps.  Both
  of the above are such (`kept_tables`, `kept_settlement`).
* `ingestImports_settles`: the tables and the requests after any run over imports.
-/

namespace CallAtlas

open Import (Fetched Reference Taken History Verdict candidates classify declaredFrom? ingestImports
  triedFor verdict)

/-! ### Tables of settled imports -/

namespace Import

/-- The entries that imports make in a table, in order. -/
def entries {α : Type} (f : Reference → Option α) (refs : List Reference) : Table α :=
  refs.filterMap fun ref => (f ref).map fun a => (ref.path, a)

section

variable {α : Type} {f g : Reference → Option α} {refs : List Reference}

theorem entries_append (refs : List Reference) (ref : Reference) :
    entries f (refs ++ [ref]) = entries f refs ++ ((f ref).map fun a => (ref.path, a)).toList := by
  rw [entries, List.filterMap_append]
  rcases h : f ref with _ | a
  · simp [entries, h]
  · simp [entries, h]

theorem entries_congr (h : ∀ ref ∈ refs, f ref = g ref) : entries f refs = entries g refs :=
  List.filterMap_congr fun ref href => by rw [h ref href]

theorem has_entries {path : String} :
    (entries f refs).has path = true ↔ ∃ ref ∈ refs, ref.path = path ∧ (f ref).isSome := by
  rw [Table.has_iff, Table.keys, entries, List.mem_map]
  constructor
  · rintro ⟨entry, hentry, rfl⟩
    obtain ⟨ref, href, hf⟩ := List.mem_filterMap.mp hentry
    obtain ⟨a, ha, rfl⟩ := Option.map_eq_some_iff.mp hf
    exact ⟨ref, href, rfl, Option.isSome_iff_exists.mpr ⟨a, ha⟩⟩
  · rintro ⟨ref, href, rfl, hf⟩
    obtain ⟨a, ha⟩ := Option.isSome_iff_exists.mp hf
    exact ⟨(ref.path, a), List.mem_filterMap.mpr ⟨ref, href, by rw [ha, Option.map_some]⟩, rfl⟩

theorem entries_cons (first : Reference) (refs : List Reference) :
    entries f (first :: refs) =
      ((f first).map fun a => (first.path, a)).toList ++ entries f refs := by
  rw [entries, List.filterMap_cons]
  rcases f first with _ | a
  · rfl
  · rfl

theorem get?_toList (ref : Reference) (path : String) (a? : Option α) :
    Table.get? (a?.map fun a => (ref.path, a)).toList path =
      if path = ref.path then a? else none := by
  rcases a? with _ | a
  · rw [ite_self]
    rfl
  · rw [Option.map_some, Option.toList_some, Table.get?, List.lookup_cons, List.lookup_nil]
    by_cases h : path = ref.path
    · rw [if_pos h, h, beq_self_eq_true]
    · rw [if_neg h, beq_false_of_ne h]

/-- Where no two imports have the same path, the entry of an import is its own. -/
theorem get?_entries (hnodup : (refs.map Reference.path).Nodup) {ref : Reference}
    (href : ref ∈ refs) : (entries f refs).get? ref.path = f ref := by
  induction refs with
  | nil => cases href
  | cons first refs ih =>
    rw [List.map_cons, List.nodup_cons] at hnodup
    rw [entries_cons, Table.get?_append, get?_toList]
    rcases List.mem_cons.mp href with rfl | href
    · -- no later import has its path
      have hnone : (entries f refs).get? ref.path = none := by
        rw [Table.get?_eq_none, Bool.eq_false_iff, Ne, has_entries]
        rintro ⟨other, hother, heq, -⟩
        exact hnodup.1 (heq ▸ List.mem_map_of_mem hother)
      rw [if_pos rfl, hnone, Option.or_none]
    · have hne : ref.path ≠ first.path := fun heq => hnodup.1 (heq ▸ List.mem_map_of_mem href)
      rw [if_neg hne, Option.none_or]
      exact ih hnodup.2 href

end

end Import

/-! ### Settling the next import -/

namespace Session

/-- What becomes of an import when it is looked up from where its origin lies. -/
def verdictOn (env : Environment) (s : Session) (ref : Reference) : Verdict :=
  verdict env ref.path (s.coordsFor? ref.origin)

/-- The locations asked for on behalf of an import. -/
def triedOn (env : Environment) (s : Session) (ref : Reference) : List Location :=
  triedFor env ref.path (s.coordsFor? ref.origin)

variable {s : Session} {ref : Reference}

theorem settle_eq (env : Environment) (h : s.isSettled ref.path = false) :
    s.settle env ref =
      { s with
        processed := s.processed ++
          ((s.verdictOn env ref).location?.map fun l => (ref.path, l)).toList
        failed := s.failed ++
          ((s.verdictOn env ref).failure?.map fun why => (ref.path, why)).toList
        asked := s.asked ++ s.triedOn env ref
        fetchAttempts := s.fetchAttempts + (s.triedOn env ref).length } := by
  -- neither table has an entry yet, so both kinds of entries are made at the end
  have hsplit := Bool.or_eq_false_iff.mp h
  rw [settle, h, if_neg Bool.false_ne_true]
  change (s.noteTried (s.triedOn env ref)).record ref.path (s.verdictOn env ref) = _
  cases s.verdictOn env ref with
  | external | unreachable =>
    rw [record, markFailed, noteTried, Table.insertNew_of_not_has hsplit.2]
    simp [Verdict.location?, Verdict.failure?]
  | found l =>
    rw [record, markProcessed, noteTried, Table.insert_of_not_has hsplit.1]
    simp [Verdict.location?, Verdict.failure?]

theorem coordsFor?_settle (env : Environment) (s : Session) (ref : Reference) (file : String) :
    (s.settle env ref).coordsFor? file = s.coordsFor? file := by
  cases h : s.isSettled ref.path with
  | true => rw [settle, if_pos h]
  | false =>
    rw [settle_eq env h]
    rfl

theorem verdictOn_settle (env : Environment) (s : Session) (ref : Reference) :
    (s.settle env ref).verdictOn env = s.verdictOn env := by
  funext other
  rw [verdictOn, coordsFor?_settle, verdictOn]

theorem triedOn_settle (env : Environment) (s : Session) (ref : Reference) :
    (s.settle env ref).triedOn env = s.triedOn env := by
  funext other
  rw [triedOn, coordsFor?_settle, triedOn]

end Session

namespace Import

/-- The tables of `s` are those that the imports `settled`, the first ones found, bring about. -/
structure Tables (env : Environment) (settled : List Reference) (s : Session) : Prop where
  found : settled <+: s.discovered.map Prod.snd
  processed : s.processed = entries (fun ref => (s.verdictOn env ref).location?) settled
  failed : s.failed = entries (fun ref => (s.verdictOn env ref).failure?) settled

/-- So are the requests of `s`, from `start` on. -/
structure Settlement (env : Environment) (start : Session) (settled : List Reference)
    (s : Session) : Prop extends Tables env settled s where
  asked : s.asked = start.asked ++ settled.flatMap (s.triedOn env)
  fetchAttempts :
    s.fetchAttempts = start.fetchAttempts + (settled.flatMap (s.triedOn env)).length

section

variable {env : Environment} {start s t : Session} {files : List Taken} {settled : List Reference}
  {ref : Reference}

theorem History.settle (hs : History env files s) (ref : Reference) :
    History env files (s.settle env ref) := by
  cases h : s.isSettled ref.path with
  | true => rwa [Session.settle, if_pos h]
  | false => refine .aside hs ?_ ?_ ?_ <;> rw [Session.settle_eq env h]

theorem History.settleAll (hs : History env files s) (refs : List Reference) :
    History env files (s.settleAll env refs) := by
  induction refs generalizing s with
  | nil => exact hs
  | cons ref refs ih => exact ih (hs.settle ref)

theorem History.takeAll (hs : History env files s) (fetched : List Fetched) :
    History env (files ++ s.takesAll env fetched) (s.takeAll env fetched) := by
  induction fetched generalizing s files with
  | nil => rwa [Session.takesAll, List.append_nil]
  | cons first fetched ih =>
    rw [Session.takesAll, ← List.append_assoc]
    exact ih (.take first hs)

theorem Tables.nil (env : Environment) (hprocessed : s.processed = []) (hfailed : s.failed = []) :
    Tables env [] s :=
  ⟨List.nil_prefix, hprocessed, hfailed⟩

theorem Tables.isSettled_iff (h : Tables env settled s) {path : String} :
    s.isSettled path = true ↔ path ∈ settled.map Reference.path := by
  rw [Session.isSettled, Bool.or_eq_true, h.processed, h.failed, has_entries, has_entries,
    List.mem_map]
  constructor
  · rintro (⟨ref, href, hpath, -⟩ | ⟨ref, href, hpath, -⟩)
    · exact ⟨ref, href, hpath⟩
    · exact ⟨ref, href, hpath⟩
  · rintro ⟨ref, href, hpath⟩
    -- an import that is not found somewhere is given up
    cases hv : s.verdictOn env ref with
    | found l => exact .inl ⟨ref, href, hpath, by rw [hv]; rfl⟩
    | external | unreachable => exact .inr ⟨ref, href, hpath, by rw [hv]; rfl⟩

theorem Tables.nodup (h : Tables env settled s) (hs : History env files s) :
    (settled.map Reference.path).Nodup :=
  hs.nodup_discovered.sublist (h.found.map Reference.path).sublist

/-- The import that comes next is not settled. -/
theorem Tables.isSettled_next (h : Tables env settled s) (hs : History env files s)
    (hnext : settled ++ [ref] <+: s.discovered.map Prod.snd) : s.isSettled ref.path = false := by
  rw [Bool.eq_false_iff, Ne, h.isSettled_iff]
  have hnodup := hs.nodup_discovered.sublist (hnext.map Reference.path).sublist
  rw [List.map_append, List.map_singleton, List.nodup_append] at hnodup
  intro hmem
  exact hnodup.2.2 _ hmem _ (List.mem_singleton.mpr rfl) rfl

theorem Tables.settle (h : Tables env settled s) (hs : History env files s)
    (hnext : settled ++ [ref] <+: s.discovered.map Prod.snd) :
    Tables env (settled ++ [ref]) (s.settle env ref) := by
  have heq := Session.settle_eq env (h.isSettled_next hs hnext)
  constructor
  · rwa [congrArg Session.discovered heq]
  · rw [Session.verdictOn_settle, entries_append, ← h.processed, congrArg Session.processed heq]
  · rw [Session.verdictOn_settle, entries_append, ← h.failed, congrArg Session.failed heq]

theorem Settlement.settle (h : Settlement env start settled s) (hs : History env files s)
    (hnext : settled ++ [ref] <+: s.discovered.map Prod.snd) :
    Settlement env start (settled ++ [ref]) (s.settle env ref) := by
  have heq := Session.settle_eq env (h.isSettled_next hs hnext)
  have htried : (settled ++ [ref]).flatMap (s.triedOn env) =
      settled.flatMap (s.triedOn env) ++ s.triedOn env ref := by
    rw [List.flatMap_append, List.flatMap_singleton]
  refine ⟨h.toTables.settle hs hnext, ?_, ?_⟩
  · rw [Session.triedOn_settle, htried, ← List.append_assoc, ← h.asked,
      congrArg Session.asked heq]
  · rw [Session.triedOn_settle, htried, List.length_append, ← Nat.add_assoc, ← h.fetchAttempts,
      congrArg Session.fetchAttempts heq]

/-! ### Taking in a file -/

/-- A settled import is still looked up from the same place when more places are known. -/
theorem Tables.coordsFor?_of_prefix (h : Tables env settled s) (hs : History env files s)
    (hparser : env.parser.StampsOrigins) (hlocations : s.locations <+: t.locations)
    (href : ref ∈ settled) : t.coordsFor? ref.origin = s.coordsFor? ref.origin := by
  obtain ⟨⟨path, ref'⟩, hmem, rfl⟩ := List.mem_map.mp (h.found.subset href)
  exact Session.coordsFor?_of_prefix hlocations (hs.coordsFor?_eq hparser hmem).1

/-- The tables remain those of the settled imports while more imports and places are found. -/
theorem Tables.of_prefix (h : Tables env settled s) (hs : History env files s)
    (hparser : env.parser.StampsOrigins) (hdiscovered : s.discovered <+: t.discovered)
    (hlocations : s.locations <+: t.locations) (hprocessed : t.processed = s.processed)
    (hfailed : t.failed = s.failed) : Tables env settled t := by
  have hverdict : ∀ ref ∈ settled, t.verdictOn env ref = s.verdictOn env ref := by
    intro ref href
    rw [Session.verdictOn, h.coordsFor?_of_prefix hs hparser hlocations href, Session.verdictOn]
  refine ⟨h.found.trans (hdiscovered.map Prod.snd), ?_, ?_⟩
  · rw [hprocessed, h.processed]
    exact entries_congr fun ref href => by rw [hverdict ref href]
  · rw [hfailed, h.failed]
    exact entries_congr fun ref href => by rw [hverdict ref href]

theorem Tables.take (h : Tables env settled s) (hs : History env files s)
    (hparser : env.parser.StampsOrigins) (fetched : Fetched) :
    Tables env settled (s.take env fetched) := by
  have hgrows := s.grows_take env fetched
  obtain ⟨hprocessed, hfailed, -, -⟩ := s.frame_take env fetched
  exact h.of_prefix hs hparser hgrows.discovered hgrows.locations hprocessed hfailed

theorem Settlement.take (h : Settlement env start settled s) (hs : History env files s)
    (hparser : env.parser.StampsOrigins) (fetched : Fetched) :
    Settlement env start settled (s.take env fetched) := by
  have htried : settled.flatMap ((s.take env fetched).triedOn env) =
      settled.flatMap (s.triedOn env) := by
    refine List.flatMap_congr fun ref href => ?_
    have hlocations := (s.grows_take env fetched).locations
    rw [Session.triedOn, h.coordsFor?_of_prefix hs hparser hlocations href, Session.triedOn]
  obtain ⟨-, -, hasked, hattempts⟩ := s.frame_take env fetched
  refine ⟨h.toTables.take hs hparser fetched, ?_, ?_⟩
  · rw [hasked, h.asked, htried]
  · rw [hattempts, h.fetchAttempts, htried]

end

/-! ### Whole rounds -/

/-- What a round keeps of the imports settled so far: what settling the next import and taking in a
file keep. -/
structure Kept (env : Environment) (P : List Reference → Session → Prop) : Prop where
  tables : ∀ {settled s}, P settled s → Tables env settled s
  settle : ∀ {files settled s ref}, History env files s → P settled s →
    settled ++ [ref] <+: s.discovered.map Prod.snd → P (settled ++ [ref]) (s.settle env ref)
  take : ∀ {files settled s}, History env files s → P settled s →
    ∀ fetched, P settled (s.take env fetched)

theorem kept_tables {env : Environment} (hparser : env.parser.StampsOrigins) :
    Kept env (Tables env) where
  tables := id
  settle hs h hnext := h.settle hs hnext
  take hs h fetched := h.take hs hparser fetched

theorem kept_settlement {env : Environment} (hparser : env.parser.StampsOrigins)
    (start : Session) : Kept env (Settlement env start) where
  tables h := h.toTables
  settle hs h hnext := h.settle hs hnext
  take hs h fetched := h.take hs hparser fetched

section

variable {env : Environment} {start s t : Session} {files : List Taken} {settled : List Reference}

/-- The pending imports come behind the settled ones. -/
theorem Tables.append_pending (h : Tables env settled s) (hs : History env files s) :
    settled ++ s.pending = s.discovered.map Prod.snd := by
  obtain ⟨rest, hrest⟩ := h.found
  have hpending : s.pending =
      (s.discovered.map Prod.snd).filter fun ref => !s.isSettled ref.path := by
    rw [hs.map_discovered, Session.pending, hs.discovered_eq, byPath, List.filter_map,
      List.map_map]
    exact List.map_id _
  have hnodup := hs.nodup_discovered
  rw [← hrest, List.map_append, List.nodup_append] at hnodup
  -- no path occurs twice, so settled and pending imports are told apart by their paths
  have hfront : settled.filter (fun ref => !s.isSettled ref.path) = [] := by
    rw [List.filter_eq_nil_iff]
    intro ref href
    rw [h.isSettled_iff.mpr (List.mem_map_of_mem href)]
    exact Bool.false_ne_true
  have hback : rest.filter (fun ref => !s.isSettled ref.path) = rest := by
    rw [List.filter_eq_self]
    intro ref href
    rw [Bool.not_eq_true', Bool.eq_false_iff, Ne, h.isSettled_iff]
    intro hmem
    exact hnodup.2.2 _ hmem _ (List.mem_map_of_mem href) rfl
  rw [hpending, ← hrest, List.filter_append, hfront, hback, List.nil_append]

variable {P : List Reference → Session → Prop}

theorem Kept.settleAll (hP : Kept env P) (hs : History env files s) (h : P settled s)
    {refs : List Reference} (hnext : settled ++ refs <+: s.discovered.map Prod.snd) :
    P (settled ++ refs) (s.settleAll env refs) := by
  induction refs generalizing s settled with
  | nil => rwa [List.append_nil]
  | cons ref refs ih =>
    rw [List.append_cons] at hnext ⊢
    have hfirst := (List.prefix_append (settled ++ [ref]) refs).trans hnext
    refine ih (hs.settle ref) (hP.settle hs h hfirst) ?_
    rw [(hs.settle ref).map_discovered, ← hs.map_discovered]
    exact hnext

theorem Kept.takeAll (hP : Kept env P) (hs : History env files s) (h : P settled s)
    (fetched : List Fetched) : P settled (s.takeAll env fetched) := by
  induction fetched generalizing s files with
  | nil => exact h
  | cons first fetched ih => exact ih (.take first hs) (hP.take hs h first)

/-- Within a round all imports found so far are settled, and some of the files fetched for them
are taken in. -/
theorem Kept.withinRound (hP : Kept env P) (hs : History env files s) (h : P settled s)
    (ht : s.WithinRound env t) : ∃ more settled, History env (files ++ more) t ∧ P settled t := by
  obtain ⟨fetched, -, rfl⟩ := ht
  have hnext : settled ++ s.pending <+: s.discovered.map Prod.snd := by
    rw [(hP.tables h).append_pending hs]
  have hall := hP.settleAll hs h hnext
  exact ⟨_, _, (hs.settleAll s.pending).takeAll fetched,
    hP.takeAll (hs.settleAll s.pending) hall fetched⟩

theorem Kept.ingestImports {p : Progress} (hP : Kept env P) (hs : History env files p.session)
    (h : P settled p.session) (bound : Int) :
    ∃ more settled, History env (files ++ more) (ingestImports env bound p).2.session ∧
      P settled (ingestImports env bound p).2.session := by
  obtain ⟨s, hrounds, hend⟩ := ingestImports_apply env bound p
  have hrun : ∃ more settled, History env (files ++ more) s ∧ P settled s := by
    clear hend
    induction hrounds with
    | refl => exact ⟨[], settled, by rwa [List.append_nil], h⟩
    | @tail t u _ hround ih =>
      obtain ⟨more, settled', hs', h'⟩ := ih
      rw [hround]
      obtain ⟨more', settled'', hs'', h''⟩ :=
        hP.withinRound hs' h' (Session.withinRound_afterRound env t)
      exact ⟨more ++ more', settled'', by rwa [← List.append_assoc], h''⟩
  obtain ⟨more, settled', hs', h'⟩ := hrun
  -- the run ended after these rounds, or the parser broke off within one more
  rcases hend with ⟨-, heq⟩ | ⟨-, hwithin⟩
  · rw [heq]
    exact ⟨more, settled', hs', h'⟩
  · obtain ⟨more', settled'', hs'', h''⟩ := hP.withinRound hs' h' hwithin
    exact ⟨more ++ more', settled'', by rwa [← List.append_assoc], h''⟩

end

/-! ### Single imports -/

/-- What has become of an import looked up from `coords`: it is external, or the first candidate
that is served is taken, or none is served and it is given up. -/
structure SettledFrom (env : Environment) (s : Session) (path : String) (coords : Coords) :
    Prop where
  external : s.failed.get? path = some .external ↔ classify path = .external
  not_processed : classify path = .external → s.processed.get? path = none
  processed : classify path ≠ .external →
    s.processed.get? path = (candidates path coords).find? env.serves
  unreachable : classify path ≠ .external →
    (s.failed.get? path = some .unreachable ↔
      ∀ l ∈ candidates path coords, env.serves l = false)

theorem verdict_of_resolvable {env : Environment} {path : String} {coords : Option Coords}
    (h : classify path ≠ .external) : verdict env path coords =
      ((candidates path coords).find? env.serves).elim .unreachable .found := by
  have hclass : classify path = .resolvable := by
    cases hclass : classify path with
    | external => exact absurd hclass h
    | resolvable => rfl
  unfold verdict
  rw [hclass]
  cases (candidates path coords).find? env.serves with
  | none => rfl
  | some l => rfl

theorem settledFrom_of_verdict {env : Environment} {s : Session} {path : String} {coords : Coords}
    (hprocessed : s.processed.get? path = (verdict env path coords).location?)
    (hfailed : s.failed.get? path = (verdict env path coords).failure?) :
    SettledFrom env s path coords where
  external := by
    -- by the class of the path and the first candidate that is served
    rw [hfailed]
    unfold verdict
    cases classify path with
    | external => exact iff_of_true rfl rfl
    | resolvable =>
      cases (candidates path coords).find? env.serves with
      | none => exact iff_of_false nofun nofun
      | some l => exact iff_of_false nofun nofun
  not_processed := by
    intro h
    rw [hprocessed]
    unfold verdict
    rw [h]
    rfl
  processed := by
    intro h
    rw [hprocessed, verdict_of_resolvable h]
    cases (candidates path coords).find? env.serves with
    | none => rfl
    | some l => rfl
  unreachable := by
    intro h
    rw [hfailed, verdict_of_resolvable h]
    cases hfind : (candidates path coords).find? env.serves with
    | none =>
      refine iff_of_true rfl fun l hl => ?_
      exact Bool.eq_false_iff.mpr (List.find?_eq_none.mp hfind l hl)
    | some l =>
      -- the candidate that was found is served
      refine iff_of_false nofun fun hnone => ?_
      have hserves := hnone l (List.mem_of_find?_eq_some hfind)
      rw [List.find?_some hfind] at hserves
      cases hserves

/-- Requests are made for imports that are not external only. -/
theorem flatMap_triedFor (env : Environment) (origin? : String → Option Coords)
    (paths : List String) :
    paths.flatMap (fun path => triedFor env path (origin? path)) =
      (paths.filter fun path => classify path ≠ .external).flatMap fun path =>
        env.tried (candidates path (origin? path)) := by
  induction paths with
  | nil => rw [List.filter_nil, List.flatMap_nil, List.flatMap_nil]
  | cons path paths ih =>
    rw [List.flatMap_cons, ih]
    cases h : classify path with
    | external =>
      have htried : triedFor env path (origin? path) = [] := by
        unfold triedFor
        rw [h]
      rw [htried, List.nil_append, List.filter_cons_of_neg (by simp [h])]
    | resolvable =>
      have htried : triedFor env path (origin? path) =
          env.tried (candidates path (origin? path)) := by
        unfold triedFor
        rw [h]
      rw [htried, List.filter_cons_of_pos (by simp [h]), List.flatMap_cons]

section

variable {env : Environment} {start s : Session} {files : List Taken} {settled : List Reference}

/-- A settled import was looked up from where the first file that has it lies. -/
theorem Tables.coordsFor?_eq (h : Tables env settled s) (hs : History env files s)
    (hparser : env.parser.StampsOrigins) {ref : Reference} (href : ref ∈ settled) :
    s.coordsFor? ref.origin = declaredFrom? files s ref.path ∧
      (declaredFrom? files s ref.path).isSome := by
  obtain ⟨⟨path, ref'⟩, hmem, rfl⟩ := List.mem_map.mp (h.found.subset href)
  obtain ⟨rfl, -⟩ := hs.exists_taken hmem
  exact (hs.coordsFor?_eq hparser hmem).2

theorem Tables.settledFrom (h : Tables env settled s) (hs : History env files s)
    (hparser : env.parser.StampsOrigins) {ref : Reference} (href : ref ∈ settled) :
    ∃ coords, declaredFrom? files s ref.path = some coords ∧
      SettledFrom env s ref.path coords := by
  obtain ⟨heq, hsome⟩ := h.coordsFor?_eq hs hparser href
  obtain ⟨coords, hcoords⟩ := Option.isSome_iff_exists.mp hsome
  refine ⟨coords, hcoords, settledFrom_of_verdict ?_ ?_⟩
  · rw [h.processed, get?_entries (h.nodup hs) href, Session.verdictOn, heq, hcoords]
  · rw [h.failed, get?_entries (h.nodup hs) href, Session.verdictOn, heq, hcoords]

theorem Tables.flatMap_triedOn (h : Tables env settled s) (hs : History env files s)
    (hparser : env.parser.StampsOrigins) :
    settled.flatMap (s.triedOn env) =
      ((settled.map Reference.path).filter fun path => classify path ≠ .external).flatMap
        fun path => env.tried (candidates path (declaredFrom? files s path)) := by
  rw [← flatMap_triedFor, List.flatMap_map]
  refine List.flatMap_congr fun ref href => ?_
  rw [Session.triedOn, (h.coordsFor?_eq hs hparser href).1]

end

/-- **What a run over imports leaves behind.**  The imports that are settled are the first ones
found, in order.  Each is looked up from where the first file that has it lies, and the requests are
those for the imports that are not external, one import after the other: the candidates up to the
first that is served. -/
theorem ingestImports_settles {env : Environment} (hparser : env.parser.StampsOrigins)
    {files : List Taken} {start : Session} (hstart : History env files start)
    (hprocessed : start.processed = []) (hfailed : start.failed = []) (bound : Int)
    (log : List Log.Record) :
    let s := (ingestImports env bound ⟨start, log⟩).2.session
    (env.parser.Steady → (ingestImports env bound ⟨start, log⟩).1 = some s.coverage) ∧
      ∃ more paths,
        let origin? := declaredFrom? (files ++ more) s
        let requests := (paths.filter fun path => classify path ≠ .external).flatMap fun path =>
          env.tried (candidates path (origin? path))
        History env (files ++ more) s ∧
        paths <+: s.discovered.keys ∧ paths.Nodup ∧
        (∀ path, s.isSettled path = true ↔ path ∈ paths) ∧
        (∀ path ∈ paths, ∃ coords, origin? path = some coords ∧ SettledFrom env s path coords) ∧
        s.asked = start.asked ++ requests ∧
        s.fetchAttempts = start.fetchAttempts + requests.length := by
  intro s
  constructor
  · intro henv
    obtain ⟨coverage, q, hq⟩ := ingestImports_completes henv bound ⟨start, log⟩
    obtain ⟨t, -, ⟨hcoverage, hsession⟩ | ⟨hnone, -⟩⟩ := ingestImports_apply env bound ⟨start, log⟩
    · rw [hcoverage, ← hsession]
    · rw [hq] at hnone
      cases hnone
  · -- at the start nothing is settled and nothing asked for; each round carries this on
    have hfirst : Settlement env start [] start :=
      ⟨.nil env hprocessed hfailed, (List.append_nil _).symm, rfl⟩
    obtain ⟨more, settled, hs, hsettled⟩ :=
      (kept_settlement hparser start).ingestImports (p := ⟨start, log⟩) hstart hfirst bound
    have hrequests := hsettled.flatMap_triedOn hs hparser
    refine ⟨more, settled.map Reference.path, hs, ?_, hsettled.nodup hs,
      fun _ => hsettled.isSettled_iff, ?_, ?_, ?_⟩
    · -- what is settled is an initial part of what is found
      rw [hs.keys_discovered]
      exact hsettled.found.map Reference.path
    · intro path hpath
      obtain ⟨ref, href, rfl⟩ := List.mem_map.mp hpath
      exact hsettled.settledFrom hs hparser href
    · rw [← hrequests]
      exact hsettled.asked
    · rw [← hrequests]
      exact hsettled.fetchAttempts

/-! ### A small repository -/

/-- The text of a file that only imports. -/
def directives (paths : List String) : String :=
  String.join (paths.map fun path => "import '" ++ path ++ "';")

/-- The nodes of import directives, from an offset on. -/
def directiveNodes : Nat → List String → List Source.Node
  | _, [] => []
  | start, path :: paths =>
    let stop := start + path.length + 10
    .mk "import_directive" true none start stop
        [.mk "import" false none start (start + 6) [],
          .mk "string" true (some "source") (start + 7) (stop - 1) [],
          .mk ";" false none (stop - 1) stop []] ::
      directiveNodes stop paths

/-- The tree of `directives`. -/
def directivesTree (paths : List String) : Source.Tree :=
  ⟨false, .mk "source_file" true none 0 (directives paths).length (directiveNodes 0 paths)⟩

/-- What the file at the start of the run imports. -/
def vaultImports : List String :=
  ["./T.sol", "./sub/B.sol", "@openzeppelin/X.sol", "./M.sol"]

/-- A grammar for the texts of a small repository. -/
def vaultGrammar (source : String) : Source.Tree :=
  if source = directives vaultImports then directivesTree vaultImports
  else if source = directives ["./T.sol"] then directivesTree ["./T.sol"]
  else .empty

/-- A small repository: a file below the one at the start imports a file of its own directory by a
path that the one at the start has too. -/
def vault : Environment where
  fetch l :=
    if l.path = "contracts/sub/B.sol" then .ok (directives ["./T.sol"])
    else if l.path = "contracts/T.sol" ∨ l.path = "contracts/sub/T.sol" then .ok ""
    else .error (.plain .notFound l)
  parser := Source.grammarParser {} (.ok vaultGrammar)

/-- A file of the small repository. -/
def vaultAt (path : String) : Location :=
  ⟨"acme", "vault", "main", path⟩

/-- The file at the start of the run. -/
def vaultFile : Fetched :=
  ⟨vaultAt "contracts/A.sol", directives vaultImports⟩

/-- The session in which the file at the start is taken in. -/
def vaultStart : Session where
  seeds := [vaultAt "contracts/A.sol"]
  discovered := vaultImports.map fun path => (path, ⟨path, "contracts/A.sol"⟩)
  ingested := [(vaultAt "contracts/A.sol").key]
  locations := [("contracts/A.sol", vaultAt "contracts/A.sol")]
  parses := 1

/-- The session at the end of the run. -/
def vaultEnd : Session where
  seeds := [vaultAt "contracts/A.sol"]
  discovered := vaultImports.map fun path => (path, ⟨path, "contracts/A.sol"⟩)
  processed :=
    [("./T.sol", vaultAt "contracts/T.sol"), ("./sub/B.sol", vaultAt "contracts/sub/B.sol")]
  failed := [("@openzeppelin/X.sol", .external), ("./M.sol", .unreachable)]
  ingested := ["contracts/A.sol", "contracts/T.sol", "contracts/sub/B.sol"].map fun path =>
    (vaultAt path).key
  locations := ["contracts/A.sol", "contracts/T.sol", "contracts/sub/B.sol"].map fun path =>
    (path, vaultAt path)
  fetchAttempts := 8
  asked := ["contracts/T.sol", "contracts/sub/B.sol", "contracts/M.sol", "M.sol", "src/M.sol",
    "lib/M.sol", "contracts/interfaces/M.sol", "contracts/utils/M.sol"].map vaultAt
  parses := 3

theorem take_vault :
    Session.take vault { seeds := [vaultFile.location] } vaultFile = vaultStart := by
  decide +kernel

theorem session_vault : (ingestImports vault 3 ⟨vaultStart, []⟩).2.session = vaultEnd := by
  decide +kernel

theorem stampsOrigins_vault : vault.parser.StampsOrigins :=
  Source.stampsOrigins_grammarParser {} (.ok vaultGrammar)

theorem steady_vault : vault.parser.Steady :=
  Source.steady_grammarParser {} vaultGrammar

theorem ingestImports_settles_vault :
    let s := (ingestImports vault 3 ⟨vaultStart, []⟩).2.session
    let files := Session.takes vault { seeds := [vaultFile.location] } vaultFile
    vault.parser.StampsOrigins ∧ vault.parser.Steady ∧ History vault files vaultStart ∧
      vaultStart.processed = [] ∧ vaultStart.failed = [] ∧
      (ingestImports vault 3 ⟨vaultStart, []⟩).1 = some s.coverage ∧ s = vaultEnd ∧
      ∃ more coords, declaredFrom? (files ++ more) s "./M.sol" = some coords ∧
        SettledFrom vault s "./M.sol" coords := by
  intro s files
  have hfresh : History vault [] { seeds := [vaultFile.location] } := .fresh rfl rfl rfl
  have hstart : History vault files vaultStart := by
    have htake := hfresh.take vaultFile
    rwa [take_vault] at htake
  obtain ⟨hcoverage, more, paths, -, -, -, hiff, hall, -, -⟩ :=
    ingestImports_settles stampsOrigins_vault hstart rfl rfl 3 []
  have hsettled : s.isSettled "./M.sol" = true := by
    rw [show s = vaultEnd from session_vault]
    decide +kernel
  obtain ⟨coords, hcoords, hfrom⟩ := hall _ ((hiff _).mp hsettled)
  exact ⟨stampsOrigins_vault, steady_vault, hstart, rfl, rfl, hcoverage steady_vault,
    session_vault, more, coords, hcoords, hfrom⟩

end Import

end CallAtlas

import CallAtlas.Proofs.AppendOnly
import CallAtlas.Proofs.Import.Candidates
import CallAtlas.Proofs.Import.Composition
import CallAtlas.Proofs.Repository

/-!
# The order of a round does not matter

A round settles the pending imports and then takes in what was fetched.  All imports are looked up
before a file is taken in, so what is fetched for one does not depend on the others.  Files may be
fetched several times, may be known already and may be refused; what they bring together depends on
which of them are new, not on their order.

* `settleAll_eq`, `fetchedForAll_eq`: settling imports of different paths, import by import.
* `freshAmong known files`: the files that are taken in; `takeAll_eq`: what they bring.
* `perm_freshAmong`: files in another order have the same new ones.
* `roundOver_perm`: what is the same after a round, whatever the order of its imports.
-/

namespace CallAtlas

open Import (Fetched Reference candidates classify entries ingest ingestAll resolveAll round)
open scoped List

/-! ### Settling imports -/

namespace Import

theorem get?_entries_perm {α : Type} {f : Reference → Option α} {refs refs' : List Reference}
    (hperm : refs ~ refs') (hnodup : (refs.map Reference.path).Nodup) (path : String) :
    (entries f refs).get? path = (entries f refs').get? path := by
  have hnodup' : (refs'.map Reference.path).Nodup := (hperm.map _).nodup_iff.mp hnodup
  by_cases hpath : ∃ ref ∈ refs, ref.path = path
  · obtain ⟨ref, href, rfl⟩ := hpath
    rw [get?_entries hnodup href, get?_entries hnodup' (hperm.mem_iff.mp href)]
  · have hnone : ∀ refs'' : List Reference, refs'' ~ refs →
        (entries f refs'').get? path = none := by
      intro refs'' hperm''
      rw [Table.get?_eq_none, Bool.eq_false_iff, Ne, has_entries]
      rintro ⟨ref, href, heq, -⟩
      exact hpath ⟨ref, hperm''.mem_iff.mp href, heq⟩
    rw [hnone refs (List.Perm.refl _), hnone refs' hperm.symm]

end Import

namespace Session

/-- What is fetched for an import that is not settled. -/
def fetchedOn (env : Environment) (s : Session) (ref : Reference) : Option Fetched :=
  match classify ref.path with
  | .external => none
  | .resolvable => env.firstServed? (candidates ref.path (s.coordsFor? ref.origin))

section

variable {s : Session} {refs : List Reference}

theorem fetchedFor?_of_not_settled (env : Environment) {ref : Reference}
    (h : s.isSettled ref.path = false) : s.fetchedFor? env ref = s.fetchedOn env ref := by
  rw [fetchedFor?, if_neg (Bool.eq_false_iff.mp h)]
  unfold fetchedOn
  cases classify ref.path with
  | external => rfl
  | resolvable => rfl

theorem fetchedOn_settle (env : Environment) (s : Session) (ref : Reference) :
    (s.settle env ref).fetchedOn env = s.fetchedOn env := by
  funext other
  unfold fetchedOn
  rw [coordsFor?_settle]

/-- Whether the imports are not settled and have different paths. -/
def Open (s : Session) (refs : List Reference) : Prop :=
  (refs.map Reference.path).Nodup ∧ ∀ ref ∈ refs, s.isSettled ref.path = false

theorem Open.settle {ref : Reference} (h : s.Open (ref :: refs)) (env : Environment) :
    (s.settle env ref).Open refs := by
  obtain ⟨hnodup, hsettled⟩ := h
  rw [List.map_cons, List.nodup_cons] at hnodup
  refine ⟨hnodup.2, fun other hother => ?_⟩
  rw [Bool.eq_false_iff, Ne, isSettled_settle, not_or, Bool.not_eq_true]
  refine ⟨hsettled other (List.mem_cons_of_mem _ hother), fun heq => hnodup.1 ?_⟩
  rw [← heq]
  exact List.mem_map_of_mem hother

theorem Open.perm {refs' : List Reference} (h : s.Open refs) (hperm : refs ~ refs') :
    s.Open refs' :=
  ⟨(hperm.map _).nodup_iff.mp h.1, fun ref href => h.2 ref (hperm.mem_iff.mpr href)⟩

theorem settleAll_eq (env : Environment) (h : s.Open refs) :
    s.settleAll env refs =
      { s with
        processed := s.processed ++ entries (fun ref => (s.verdictOn env ref).location?) refs
        failed := s.failed ++ entries (fun ref => (s.verdictOn env ref).failure?) refs
        asked := s.asked ++ refs.flatMap (s.triedOn env)
        fetchAttempts := s.fetchAttempts + (refs.flatMap (s.triedOn env)).length } := by
  induction refs generalizing s with
  | nil => simp [settleAll, entries]
  | cons ref refs ih =>
    -- what becomes of the others does not depend on what became of the first
    have hrest := ih (h.settle env)
    rw [verdictOn_settle, triedOn_settle, settle_eq env (h.2 ref List.mem_cons_self)] at hrest
    rw [settleAll, List.foldl_cons, ← settleAll, settle_eq env (h.2 ref List.mem_cons_self), hrest]
    simp only [Import.entries_cons, List.flatMap_cons, List.append_assoc, List.length_append,
      Nat.add_assoc]

theorem fetchedForAll_eq (env : Environment) (h : s.Open refs) :
    s.fetchedForAll env refs = refs.filterMap (s.fetchedOn env) := by
  induction refs generalizing s with
  | nil => rfl
  | cons ref refs ih =>
    rw [fetchedForAll, ih (h.settle env), fetchedOn_settle,
      fetchedFor?_of_not_settled env (h.2 ref List.mem_cons_self), List.filterMap_cons]
    cases s.fetchedOn env ref <;> rfl

/-- Pending imports are not settled; where they are filed under their paths, these differ. -/
theorem open_pending (hnodup : s.discovered.keys.Nodup)
    (hpath : ∀ entry ∈ s.discovered, entry.2.path = entry.1) : s.Open s.pending := by
  constructor
  · have hpaths : s.pending.map Reference.path =
        (s.discovered.filter fun entry => !s.isSettled entry.1).map Prod.fst := by
      rw [pending, List.map_map]
      exact List.map_congr_left fun entry hentry => hpath entry (List.mem_of_mem_filter hentry)
    rw [hpaths]
    exact hnodup.sublist (List.filter_sublist.map Prod.fst)
  · intro ref href
    obtain ⟨entry, hentry, rfl⟩ := List.mem_map.mp href
    obtain ⟨hentry, hsettled⟩ := List.mem_filter.mp hentry
    rw [hpath entry hentry]
    exact Bool.not_eq_true' _ ▸ hsettled

end

/-! ### Taking in files -/

/-- The files that are new when files are taken in in turn: of those with the same key the first,
unless the key is known. -/
def freshAmong (known : List String) (files : List Fetched) : List Fetched :=
  (keepFirst (fun file => file.location.key) files).filter fun file =>
    !known.contains file.location.key

section

variable {known : List String} {first : Fetched} {files files' : List Fetched}

theorem freshAmong_cons_of_known (h : known.contains first.location.key = true) :
    freshAmong known (first :: files) = freshAmong known files := by
  rw [freshAmong, keepFirst, List.filter_cons_of_neg (by rw [h]; decide), List.filter_filter,
    freshAmong]
  refine List.filter_congr fun file _ => ?_
  by_cases heq : file.location.key = first.location.key
  · rw [heq, h]
    rfl
  · simp [heq]

theorem freshAmong_cons_of_new (h : known.contains first.location.key = false) :
    freshAmong known (first :: files) =
      first :: freshAmong (known ++ [first.location.key]) files := by
  rw [freshAmong, keepFirst, List.filter_cons_of_pos (by rw [h]; rfl), List.filter_filter,
    freshAmong]
  congr 1
  refine List.filter_congr fun file _ => ?_
  simp [List.contains_eq_mem]

/-- Where files of the same key are the same, all files count that are not known. -/
theorem mem_freshAmong {file : Fetched}
    (hsame : ∀ f ∈ files, ∀ g ∈ files, f.location.key = g.location.key → f = g) :
    file ∈ freshAmong known files ↔ file ∈ files ∧ file.location.key ∉ known := by
  rw [freshAmong, List.mem_filter, Bool.not_eq_true', ← Bool.not_eq_true, List.contains_iff_mem]
  refine and_congr_left fun _ => ⟨mem_of_mem_keepFirst _, fun hfile => ?_⟩
  have hkey : file.location.key ∈
      (keepFirst (fun f => f.location.key) files).map fun f => f.location.key :=
    (mem_map_keepFirst _ _ _).mpr (List.mem_map_of_mem hfile)
  obtain ⟨g, hg, heq⟩ := List.mem_map.mp hkey
  rw [hsame file hfile g (mem_of_mem_keepFirst _ hg) heq.symm]
  exact hg

theorem nodup_freshAmong (known : List String) (files : List Fetched) :
    (freshAmong known files).Nodup :=
  (nodup_map_keepFirst (fun file : Fetched => file.location.key) files).of_map.filter _

/-- Files in another order have the same new ones. -/
theorem perm_freshAmong (known : List String) (hperm : files ~ files')
    (hsame : ∀ f ∈ files, ∀ g ∈ files, f.location.key = g.location.key → f = g) :
    freshAmong known files ~ freshAmong known files' := by
  rw [List.perm_ext_iff_of_nodup (nodup_freshAmong _ _) (nodup_freshAmong _ _)]
  intro file
  have hsame' : ∀ f ∈ files', ∀ g ∈ files', f.location.key = g.location.key → f = g :=
    fun f hf g hg => hsame f (hperm.mem_iff.mpr hf) g (hperm.mem_iff.mpr hg)
  rw [mem_freshAmong hsame, mem_freshAmong hsame', hperm.mem_iff]

end

/-- The session with what new files bring. -/
def gather (env : Environment) (s : Session) (files : List Fetched) : Session :=
  { s with
    repository := s.repository.addAll (files.flatMap fun file => (s.declared env file).entities)
    discovered := (files.flatMap fun file => (s.declared env file).imports).foldl
      (fun t ref => t.insertNew ref.path ref) s.discovered
    ingested := s.ingested ++ files.map fun file => file.location.key
    locations := files.foldl
      (fun t file => t.insertNew (s.fileLabel file.location) file.location) s.locations
    unparsed := s.unparsed ++ files.filterMap (s.refused? env)
    parses := s.parses + files.length }

section

variable {s : Session} {file : Fetched}

theorem gather_singleton (env : Environment)
    (h : s.ingested.contains file.location.key = false) :
    s.gather env [file] = s.take env file := by
  have hrefused : [file].filterMap (s.refused? env) = (s.refused? env file).toList := by
    rw [List.filterMap_cons, List.filterMap_nil]
    cases s.refused? env file <;> rfl
  rw [take_of_new env h, gather, hrefused, List.flatMap_singleton, List.flatMap_singleton]
  rfl

theorem gather_append (env : Environment) (s : Session) (files files' : List Fetched) :
    s.gather env (files ++ files') = (s.gather env files).gather env files' := by
  have hdeclared : (s.gather env files).declared env = s.declared env := rfl
  have hrefused : (s.gather env files).refused? env = s.refused? env := rfl
  have hlabel : (s.gather env files).fileLabel = s.fileLabel := rfl
  conv_rhs => rw [gather, hdeclared, hrefused, hlabel]
  simp only [gather, Repository.addAll, List.flatMap_append, List.foldl_append, List.map_append,
    List.filterMap_append, List.length_append, List.append_assoc, Nat.add_assoc]

/-- Files that are taken in in turn bring what the new ones among them bring. -/
theorem takeAll_eq (env : Environment) (s : Session) (files : List Fetched) :
    s.takeAll env files = s.gather env (freshAmong s.ingested files) := by
  induction files generalizing s with
  | nil => simp [takeAll, freshAmong, keepFirst, gather, Repository.addAll]
  | cons first files ih =>
    rw [takeAll, List.foldl_cons, ← takeAll, ih]
    cases h : s.ingested.contains first.location.key with
    | true => rw [take_of_known h, freshAmong_cons_of_known h]
    | false =>
      rw [freshAmong_cons_of_new h, ← List.singleton_append, gather_append,
        gather_singleton env h, take_of_new env h]

end

/-! ### What does not depend on the order -/

/-- Whether imports were settled in the same way, at the cost of as many fetches. -/
structure SettledAlike (s t : Session) : Prop where
  processed : ∀ path, s.processed.get? path = t.processed.get? path
  failed : ∀ path, s.failed.get? path = t.failed.get? path
  fetchAttempts : s.fetchAttempts = t.fetchAttempts

namespace SettledAlike

theorem symm {s t : Session} (h : s.SettledAlike t) : t.SettledAlike s :=
  ⟨fun path => (h.processed path).symm, fun path => (h.failed path).symm, h.fetchAttempts.symm⟩

theorem trans {s t u : Session} (h : s.SettledAlike t) (h' : t.SettledAlike u) :
    s.SettledAlike u :=
  ⟨fun path => (h.processed path).trans (h'.processed path),
    fun path => (h.failed path).trans (h'.failed path), h.fetchAttempts.trans h'.fetchAttempts⟩

end SettledAlike

/-- Whether the same files were taken in, with the same imports and declarations found there. -/
structure FilledAlike (s t : Session) : Prop where
  ingested : s.ingested ~ t.ingested
  discovered : ∀ path, s.discovered.has path = true ↔ t.discovered.has path = true
  identities : ∀ identity,
    s.repository.contains identity = true ↔ t.repository.contains identity = true
  unparsed : s.unparsed ~ t.unparsed

theorem has_foldl_insertNew {t : Table Reference} {refs : List Reference} {path : String} :
    (refs.foldl (fun t ref => t.insertNew ref.path ref) t).has path = true ↔
      t.has path = true ∨ path ∈ refs.map Reference.path := by
  induction refs generalizing t with
  | nil => simp
  | cons ref refs ih =>
    rw [List.foldl_cons, ih, Table.has_insertNew_iff, List.map_cons, List.mem_cons, or_assoc]

theorem settledAlike_settleAll (env : Environment) {s : Session} {refs refs' : List Reference}
    (h : s.Open refs) (hperm : refs ~ refs') :
    (s.settleAll env refs).SettledAlike (s.settleAll env refs') := by
  rw [settleAll_eq env h, settleAll_eq env (h.perm hperm)]
  constructor
  · intro path
    dsimp only
    rw [Table.get?_append, Table.get?_append, Import.get?_entries_perm hperm h.1]
  · intro path
    dsimp only
    rw [Table.get?_append, Table.get?_append, Import.get?_entries_perm hperm h.1]
  · exact congrArg (s.fetchAttempts + ·) (hperm.flatMap_right _).length_eq

theorem filledAlike_gather (env : Environment) (s : Session) {files files' : List Fetched}
    (hperm : files ~ files') : (s.gather env files).FilledAlike (s.gather env files') := by
  constructor
  · exact (hperm.map _).append_left _
  · intro path
    rw [gather, gather, has_foldl_insertNew, has_foldl_insertNew,
      ((hperm.flatMap_right _).map _).mem_iff]
  · intro identity
    rw [gather, gather, Repository.contains_addAll, Repository.contains_addAll,
      ((hperm.flatMap_right _).map _).mem_iff]
  · exact (hperm.filterMap _).append_left _

end Session

/-! ### Where files come from -/

namespace Import

theorem plain_of_mem_libraryLocations {path : String} {l : Location}
    (h : l ∈ libraryLocations path) : l.Plain := by
  obtain ⟨library, hlibrary, hholds, -⟩ := of_mem_libraryLocations h
  have hmem : library ∈ libraries := (libraryOf?_eq_some_iff.mp hlibrary).1
  exact hholds.plain (tables_checked.libraries_plain library hmem)

theorem plain_of_mem_wellKnownLocations {path : String} {l : Location}
    (h : l ∈ wellKnownLocations path) : l.Plain := by
  obtain ⟨entry, hentry, -, hl⟩ := of_mem_wellKnownLocations h
  exact tables_checked.homes_plain entry hentry l hl

/-- An import is tried in known places and in the repository of the importing file. -/
theorem plain_of_mem_candidates {path : String} {coords : Option Coords} {l : Location}
    (hcoords : ∀ c ∈ coords, ∀ p, (c.locate p).Plain) (h : l ∈ candidates path coords) :
    l.Plain := by
  rcases candidates_cases path coords with ⟨-, heq⟩ | ⟨-, -, heq⟩ | ⟨-, -, c, hc, heq⟩
  · rw [heq] at h
    exact plain_of_mem_libraryLocations h
  · rw [heq] at h
    exact absurd h List.not_mem_nil
  · obtain ⟨own, hown, hholds, -⟩ := exists_own path c
    rw [heq, hown] at h
    rcases List.mem_append.mp h with h | h
    · exact plain_of_mem_wellKnownLocations h
    · exact (hholds l h).1.plain (hcoords c hc "")

end Import

namespace Session

section

variable {env : Environment} {s : Session}

theorem plain_coordsFor? (hseeds : ∀ l ∈ s.seeds, l.Plain)
    (hlocations : ∀ entry ∈ s.locations, entry.2.Plain) {file : String} {c : Coords}
    (h : c ∈ s.coordsFor? file) (path : String) : (c.locate path).Plain := by
  rw [Option.mem_def, coordsFor?] at h
  cases hplace : s.locationOf? file with
  | some l =>
    rw [hplace] at h
    cases h
    exact hlocations _ (Table.mem_of_get? hplace)
  | none =>
    rw [hplace] at h
    obtain ⟨l, hl, rfl⟩ := Option.map_eq_some_iff.mp h
    exact hseeds l (List.mem_of_head? hl)

theorem fetchedOn_eq_some (hseeds : ∀ l ∈ s.seeds, l.Plain)
    (hlocations : ∀ entry ∈ s.locations, entry.2.Plain) {ref : Reference} {file : Fetched}
    (h : s.fetchedOn env ref = some file) :
    file.location.Plain ∧ env.fetch file.location = .ok file.content := by
  unfold fetchedOn at h
  cases hclass : classify ref.path with
  | external =>
    rw [hclass] at h
    cases h
  | resolvable =>
    rw [hclass] at h
    obtain ⟨hmem, hfetch⟩ := Environment.firstServed?_eq_some h
    exact ⟨Import.plain_of_mem_candidates (fun c => plain_coordsFor? hseeds hlocations) hmem,
      hfetch⟩

/-- Two imports for which files of the same key are fetched share one file. -/
theorem eq_of_key_eq (hseeds : ∀ l ∈ s.seeds, l.Plain)
    (hlocations : ∀ entry ∈ s.locations, entry.2.Plain) (refs : List Reference) :
    ∀ f ∈ refs.filterMap (s.fetchedOn env), ∀ g ∈ refs.filterMap (s.fetchedOn env),
      f.location.key = g.location.key → f = g := by
  intro f hf g hg hkey
  obtain ⟨ref, -, hf⟩ := List.mem_filterMap.mp hf
  obtain ⟨ref', -, hg⟩ := List.mem_filterMap.mp hg
  obtain ⟨hplain, hfetch⟩ := fetchedOn_eq_some hseeds hlocations hf
  obtain ⟨hplain', hfetch'⟩ := fetchedOn_eq_some hseeds hlocations hg
  have hlocation : f.location = g.location := (Location.key_inj hplain hplain').mp hkey
  rw [hlocation, hfetch', Except.ok.injEq] at hfetch
  rw [Fetched.mk.injEq]
  exact ⟨hlocation, hfetch.symm⟩

end

end Session

/-! ### A round over given imports -/

namespace Import

open Session (freshAmong freshAmong_cons_of_known freshAmong_cons_of_new)

/-- Settles imports and takes in what was fetched for them. -/
def roundOver (env : Environment) (refs : List Reference) : Run Unit := do
  let fetched ← resolveAll env refs
  ingestAll env fetched

theorem round_eq (env : Environment) (p : Progress) :
    round env p = roundOver env p.session.pending p := by
  rw [round, Run.session_bind, roundOver]

/-- Taking in files breaks off when the parser does so at a new one. -/
theorem ingestAll_eq_none_iff (env : Environment) (files : List Fetched) (p : Progress) :
    (ingestAll env files p).1 = none ↔
      ∃ file ∈ freshAmong p.session.ingested files,
        p.session.reading env file = .error .broken := by
  induction files generalizing p with
  | nil => exact iff_of_false (Option.some_ne_none _) (by simp [freshAmong, keepFirst])
  | cons first files ih =>
    obtain ⟨hsession, hnone⟩ := ingest_apply env first p
    rcases hfirst : ingest env first p with ⟨_ | added, q⟩
    · rw [hfirst] at hnone
      obtain ⟨hnew, hbroken⟩ := hnone.mp rfl
      rw [ingestAll, Run.bind_of_none hfirst, freshAmong_cons_of_new hnew]
      exact iff_of_true rfl ⟨first, List.mem_cons_self, hbroken⟩
    · rw [hfirst] at hsession hnone
      rw [ingestAll, Run.bind_of_some hfirst, ih q, hsession]
      cases hknown : p.session.ingested.contains first.location.key with
      | true => rw [Session.take_of_known hknown, freshAmong_cons_of_known hknown]
      | false =>
        have hread : p.session.reading env first ≠ .error .broken :=
          fun hbroken => Option.some_ne_none _ (hnone.mpr ⟨hknown, hbroken⟩)
        rw [Session.take_of_new env hknown, freshAmong_cons_of_new hknown,
          List.exists_mem_cons_iff, or_iff_right hread]
        -- labels depend on the seeds only, so the other files are read as before
        rfl

section

variable {env : Environment} {p : Progress} {refs : List Reference}

theorem roundOver_eq_none_iff (h : p.session.Open refs) :
    (roundOver env refs p).1 = none ↔
      ∃ file ∈ freshAmong p.session.ingested (refs.filterMap (p.session.fetchedOn env)),
        p.session.reading env file = .error .broken := by
  obtain ⟨log, hresolve⟩ := resolveAll_apply env refs p
  rw [roundOver, Run.bind_of_some hresolve, ingestAll_eq_none_iff, Session.fetchedForAll_eq env h,
    Session.settleAll_eq env h]
  rfl

/-- Whether or not a round breaks off, its imports are settled. -/
theorem settledAlike_roundOver (env : Environment) (refs : List Reference) (p : Progress) :
    (p.session.settleAll env refs).SettledAlike (roundOver env refs p).2.session := by
  obtain ⟨log, hresolve⟩ := resolveAll_apply env refs p
  obtain ⟨done, -, hsession, -⟩ := ingestAll_apply env (p.session.fetchedForAll env refs)
    ⟨p.session.settleAll env refs, log⟩
  rw [roundOver, Run.bind_of_some hresolve, hsession, Session.takeAll_eq]
  exact ⟨fun _ => rfl, fun _ => rfl, rfl⟩

theorem roundOver_session (h : p.session.Open refs) (hdone : (roundOver env refs p).1 = some ()) :
    (roundOver env refs p).2.session = (p.session.settleAll env refs).gather env
      (freshAmong p.session.ingested (refs.filterMap (p.session.fetchedOn env))) := by
  obtain ⟨log, hresolve⟩ := resolveAll_apply env refs p
  obtain ⟨done, -, hsession, hall⟩ := ingestAll_apply env (p.session.fetchedForAll env refs)
    ⟨p.session.settleAll env refs, log⟩
  rw [roundOver, Run.bind_of_some hresolve] at hdone ⊢
  rw [hsession, hall hdone, Session.takeAll_eq, Session.fetchedForAll_eq env h,
    Session.settleAll_eq env h]

end

/-- **The order of a round does not matter.**  Let imports be filed under their paths, as every
operation leaves them, and let the locations from which they are looked up have keys that tell them
apart.  Then settling the pending imports in any order and taking in what was fetched ends like a
round in the given order: it breaks off in the same cases, every import is settled in the same way
with as many fetches, and unless it breaks off the same files are taken in and refused and the same
imports and declarations found. -/
theorem roundOver_perm (env : Environment) (p : Progress)
    (hnodup : p.session.discovered.keys.Nodup)
    (hpath : ∀ entry ∈ p.session.discovered, entry.2.path = entry.1)
    (hseeds : ∀ l ∈ p.session.seeds, l.Plain)
    (hlocations : ∀ entry ∈ p.session.locations, entry.2.Plain)
    {refs : List Reference} (hperm : refs ~ p.session.pending) :
    (roundOver env refs p).1 = (round env p).1 ∧
      (roundOver env refs p).2.session.SettledAlike (round env p).2.session ∧
      ((round env p).1 = some () →
        (roundOver env refs p).2.session.FilledAlike (round env p).2.session) := by
  rw [round_eq]
  have hpending : p.session.Open p.session.pending := Session.open_pending hnodup hpath
  have hrefs : p.session.Open refs := hpending.perm hperm.symm
  -- the same files are new in either order
  have hfresh := Session.perm_freshAmong p.session.ingested
    (hperm.filterMap (p.session.fetchedOn env)) (Session.eq_of_key_eq hseeds hlocations refs)
  -- a round breaks off at one of them
  have hnone : (roundOver env refs p).1 = none ↔
      (roundOver env p.session.pending p).1 = none := by
    rw [roundOver_eq_none_iff hrefs, roundOver_eq_none_iff hpending]
    exact exists_congr fun file => and_congr_left fun _ => hfresh.mem_iff
  have hresult : (roundOver env refs p).1 = (roundOver env p.session.pending p).1 := by
    cases hrun : (roundOver env refs p).1 with
    | none => exact (hnone.mp hrun).symm
    | some _ =>
      have hsome : (roundOver env p.session.pending p).1 ≠ none := by
        rw [Ne, ← hnone, hrun]
        exact Option.some_ne_none _
      obtain ⟨_, hrun'⟩ := Option.ne_none_iff_exists'.mp hsome
      exact hrun'.symm
  refine ⟨hresult, ?_, fun hdone => ?_⟩
  · exact (settledAlike_roundOver env refs p).symm.trans
      ((Session.settledAlike_settleAll env hrefs hperm).trans (settledAlike_roundOver env _ p))
  · -- nothing breaks off, so both sessions gather the same files
    rw [roundOver_session hrefs (hresult.trans hdone), roundOver_session hpending hdone,
      Session.settleAll_eq env hrefs, Session.settleAll_eq env hpending]
    exact { Session.filledAlike_gather env p.session hfresh with }

/-- A file that two paths lead to and that imports another one, and a file that is refused. -/
def sharedFile : Environment where
  fetch l :=
    if l.path = "contracts/T.sol" then .ok "T"
    else if l.path = "contracts/R.sol" then .ok "R"
    else .error (.plain .notFound l)
  parser :=
    { parse := fun text file =>
        if text = "R" then .error .syntaxError else .ok { imports := [⟨"./U.sol", file⟩] } }

/-- A session with imports of every kind pending. -/
def sharedFileStart : Session where
  seeds := [vaultAt "contracts/A.sol"]
  discovered := ["./T.sol", "contracts/T.sol", "./R.sol", "@openzeppelin/X.sol", "./M.sol"].map
    fun path => (path, ⟨path, "contracts/A.sol"⟩)
  ingested := [(vaultAt "contracts/A.sol").key]
  locations := [("contracts/A.sol", vaultAt "contracts/A.sol")]
  parses := 1

/-- The imports are settled and their files taken in, starting from the last one. -/
def sharedFileReversed : Option Unit × Progress :=
  roundOver sharedFile sharedFileStart.pending.reverse ⟨sharedFileStart, []⟩

/-- The imports are settled and their files taken in. -/
def sharedFileRound : Option Unit × Progress :=
  round sharedFile ⟨sharedFileStart, []⟩

theorem ends_sharedFile : sharedFileRound.1 = some () ∧
    sharedFileReversed.2.session.ingested ≠ sharedFileRound.2.session.ingested ∧
    sharedFileRound.2.session.unparsed = ["contracts/R.sol"] ∧
    sharedFileRound.2.session.processed.get? "contracts/T.sol" =
      sharedFileRound.2.session.processed.get? "./T.sol" := by
  decide +kernel

/-- In reverse order the sessions differ, but only in the order of their entries. -/
theorem roundOver_perm_sharedFile :
    sharedFileStart.discovered.keys.Nodup ∧
      (∀ entry ∈ sharedFileStart.discovered, entry.2.path = entry.1) ∧
      (∀ l ∈ sharedFileStart.seeds, l.Plain) ∧
      (∀ entry ∈ sharedFileStart.locations, entry.2.Plain) ∧
      sharedFileReversed.2.session.ingested ≠ sharedFileRound.2.session.ingested ∧
      sharedFileReversed.1 = some () ∧ sharedFileRound.2.session.unparsed = ["contracts/R.sol"] ∧
      sharedFileRound.2.session.processed.get? "contracts/T.sol" =
        sharedFileRound.2.session.processed.get? "./T.sol" ∧
      sharedFileReversed.2.session.SettledAlike sharedFileRound.2.session ∧
      sharedFileReversed.2.session.FilledAlike sharedFileRound.2.session := by
  have hnodup : sharedFileStart.discovered.keys.Nodup := by decide +kernel
  have hpath : ∀ entry ∈ sharedFileStart.discovered, entry.2.path = entry.1 := by decide +kernel
  have hseeds : ∀ l ∈ sharedFileStart.seeds, l.Plain := by decide +kernel
  have hlocations : ∀ entry ∈ sharedFileStart.locations, entry.2.Plain := by decide +kernel
  have hperm := @roundOver_perm sharedFile ⟨sharedFileStart, []⟩ hnodup hpath hseeds hlocations
    sharedFileStart.pending.reverse (List.reverse_perm _)
  rw [← sharedFileReversed, ← sharedFileRound] at hperm
  obtain ⟨hresult, hsettled, hfilled⟩ := hperm
  obtain ⟨hdone, hdiffer, hrefused, hshared⟩ := ends_sharedFile
  exact ⟨hnodup, hpath, hseeds, hlocations, hdiffer, hresult.trans hdone, hrefused, hshared,
    hsettled, hfilled hdone⟩

end Import

end CallAtlas

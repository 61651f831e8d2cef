import CallAtlas.Analysis
import CallAtlas.Proofs.Import.History
import CallAtlas.Proofs.Import.Rounds

/-!
# Which seeds fail

A run over some addresses fails if every one of them does, and then for the reason of the first.
Whether an address fails is not decided by its own file alone.  All seeds go by their paths, and a
seed counts as refused if its path is among those refused so far; so a file that can be read fails
after one of the same path, from another repository, that cannot.  And of two files with the same
key only the first is read.

* `ownFailure? env url`: why an address fails when nothing was taken in before.
* `FailsAfter env before url`: whether it fails behind the addresses `before`.
* `seedAll_apply`: the failures of a run over seeds.
* `answer_error_iff`: when a run fails, and why.  If neither paths nor keys are shared between
  different files, it fails iff every address fails on its own.
-/

namespace CallAtlas

open Import (Fetched)

theorem Session.fileLabel_of_mem_seeds {s : Session} {l : Location} (h : l ∈ s.seeds) :
    s.fileLabel l = l.path := by
  have hsame : s.seeds.any l.sameBranch = true :=
    List.any_eq_true.mpr ⟨l, h, by simp [Location.sameBranch]⟩
  rw [fileLabel, hsame, Bool.or_true, if_pos rfl]

namespace Analysis

/-! ### One address on its own -/

/-- The file at an address, if the address names one and it can be fetched. -/
def fetched? (env : Environment) (url : String) : Option Fetched :=
  match Location.ofUrl url with
  | .error _ => none
  | .ok l => (env.fetch l).toOption.map fun content => ⟨l, content⟩

/-- Whether a file cannot be read, going by its path. -/
def refuses (env : Environment) (file : Fetched) : Bool :=
  !(env.parser.parse file.content file.location.path).isOk

/-- Why an address fails on its own: it names no file, the file cannot be fetched, or what is
fetched cannot be read. -/
def ownFailure? (env : Environment) (url : String) : Option Failure :=
  match Location.ofUrl url with
  | .error e => some (.badUrl e)
  | .ok l =>
    match env.fetch l with
    | .error e => some (.unfetched e)
    | .ok content => if refuses env ⟨l, content⟩ then some (.unparsed l.path) else none

section

variable {env : Environment} {url : String} {file : Fetched}

theorem fetched?_eq_some :
    fetched? env url = some file ↔
      Location.ofUrl url = .ok file.location ∧ env.fetch file.location = .ok file.content := by
  unfold fetched?
  rcases Location.ofUrl url with e | l
  · simp
  · rcases hfetch : env.fetch l with e | content
    · simp only [hfetch, Except.toOption, Option.map_none, reduceCtorEq, Except.ok.injEq, false_iff,
        not_and]
      rintro rfl
      rw [hfetch]
      intro hcontent
      cases hcontent
    · simp only [hfetch, Except.toOption, Option.map_some, Option.some.injEq, Except.ok.injEq]
      constructor
      · rintro rfl
        exact ⟨rfl, hfetch⟩
      · rintro ⟨rfl, hcontent⟩
        rw [hfetch] at hcontent
        cases hcontent
        rfl

theorem ownFailure?_of_fetched (h : fetched? env url = some file) :
    ownFailure? env url =
      if refuses env file then some (.unparsed file.location.path) else none := by
  obtain ⟨hurl, hfetch⟩ := fetched?_eq_some.mp h
  unfold ownFailure?
  rw [hurl]
  dsimp only
  rw [hfetch]

theorem isSome_ownFailure?_of_not_fetched (h : fetched? env url = none) :
    (ownFailure? env url).isSome := by
  unfold ownFailure?
  rcases hurl : Location.ofUrl url with e | l
  · rfl
  · dsimp only
    rcases hfetch : env.fetch l with e | content
    · rfl
    · have hfetched : fetched? env url = some ⟨l, content⟩ :=
        fetched?_eq_some.mpr ⟨hurl, hfetch⟩
      rw [h] at hfetched
      cases hfetched

end

/-! ### Files taken in before -/

/-- The paths of the files that are refused when `files` are taken in in turn.  Of files with the
same key only the first is read. -/
def refusedPaths (env : Environment) (files : List Fetched) : List String :=
  ((keepFirst (·.location.key) files).filter (refuses env)).map (·.location.path)

/-- The session has taken in the files in turn, each as a seed. -/
structure Seeded (env : Environment) (files : List Fetched) (s : Session) : Prop where
  ingested : ∀ key, key ∈ s.ingested ↔ key ∈ files.map (·.location.key)
  unparsed : s.unparsed = refusedPaths env files

/-- Why an address fails after `files` were taken in: a file counts as refused if its path is among
those refused so far. -/
def failureAfter? (env : Environment) (files : List Fetched) (url : String) : Option Failure :=
  match fetched? env url with
  | none => ownFailure? env url
  | some file =>
    if file.location.path ∈ refusedPaths env (files ++ [file]) then
      some (.unparsed file.location.path)
    else none

section

variable {env : Environment} {files : List Fetched} {file : Fetched} {s : Session}

theorem mem_refusedPaths {path : String} :
    path ∈ refusedPaths env files ↔
      ∃ other ∈ keepFirst (·.location.key) files,
        other.location.path = path ∧ refuses env other = true := by
  rw [refusedPaths, List.mem_map]
  constructor
  · rintro ⟨other, hother, hpath⟩
    obtain ⟨hmem, hrefused⟩ := List.mem_filter.mp hother
    exact ⟨other, hmem, hpath, hrefused⟩
  · rintro ⟨other, hmem, hpath, hrefused⟩
    exact ⟨other, List.mem_filter.mpr ⟨hmem, hrefused⟩, hpath⟩

theorem refusedPaths_append :
    refusedPaths env (files ++ [file]) =
      if file.location.key ∈ files.map (·.location.key) then refusedPaths env files
      else if refuses env file then refusedPaths env files ++ [file.location.path]
      else refusedPaths env files := by
  have hsingle : keepFirst (fun f : Fetched => f.location.key) [file] = [file] := rfl
  rw [refusedPaths, keepFirst_append, hsingle, List.filter_append, List.map_append,
    ← refusedPaths]
  split_ifs with hknown hrefused
  · rw [List.filter_cons_of_neg (by simpa using hknown)]
    exact List.append_nil _
  · rw [List.filter_cons_of_pos (by simpa using hknown), List.filter_nil,
      List.filter_cons_of_pos hrefused]
    rfl
  · rw [List.filter_cons_of_pos (by simpa using hknown), List.filter_nil,
      List.filter_cons_of_neg hrefused]
    exact List.append_nil _

theorem Seeded.fresh (env : Environment) (startedAt : String) :
    Seeded env [] { startedAt := startedAt } :=
  ⟨fun _ => Iff.rfl, rfl⟩

theorem Seeded.take (hs : Seeded env files s) (henv : env.parser.Steady)
    (hlabel : s.fileLabel file.location = file.location.path) :
    Seeded env (files ++ [file]) (s.take env file) := by
  cases hknown : s.ingested.contains file.location.key with
  | true =>
    -- a file whose key is known is left alone, and adds no key
    have hmem : file.location.key ∈ files.map (·.location.key) :=
      (hs.ingested _).mp (List.contains_iff_mem.mp hknown)
    rw [Session.take, if_pos hknown]
    refine ⟨fun key => ?_, ?_⟩
    · rw [hs.ingested, List.map_append, List.map_singleton, List.mem_append, List.mem_singleton,
        or_iff_left_of_imp]
      rintro rfl
      exact hmem
    · rw [refusedPaths_append, if_pos hmem, hs.unparsed]
  | false =>
    have hmem : file.location.key ∉ files.map (·.location.key) := by
      rw [← hs.ingested, ← List.contains_iff_mem, hknown]
      exact Bool.false_ne_true
    have hingested : ∀ key, key ∈ s.ingested ++ [file.location.key] ↔
        key ∈ (files ++ [file]).map (·.location.key) := by
      intro key
      rw [List.map_append, List.map_singleton, List.mem_append, List.mem_append, hs.ingested]
    rw [Session.take, hknown, if_neg Bool.false_ne_true, hlabel]
    dsimp only
    -- the path is refused iff the parser refuses the text
    rcases hparse : env.parser.parse file.content file.location.path with fault | declarations
    · have hrefused : refuses env file = true := by
        rw [refuses, hparse]
        rfl
      have hunparsed : s.unparsed ++ [file.location.path] = refusedPaths env (files ++ [file]) := by
        rw [refusedPaths_append, if_neg hmem, if_pos hrefused, hs.unparsed]
      cases fault with
      | broken => exact absurd hparse (henv _ _)
      | syntaxError | grammarUnavailable => exact ⟨hingested, hunparsed⟩
    · have haccepted : refuses env file = false := by
        rw [refuses, hparse]
        rfl
      have hunparsed : s.unparsed = refusedPaths env (files ++ [file]) := by
        rw [refusedPaths_append, if_neg hmem, haccepted, if_neg Bool.false_ne_true, hs.unparsed]
      dsimp only
      rw [Session.absorb, Session.foldl_discover]
      exact ⟨hingested, hunparsed⟩

end

/-! ### One address behind others -/

/-- The failures of addresses that are taken in in turn, after `files`. -/
def failuresAfter (env : Environment) : List Fetched → List String → List Failure
  | _, [] => []
  | files, url :: urls =>
    (failureAfter? env files url).toList ++
      failuresAfter env (files ++ (fetched? env url).toList) urls

section

variable {env : Environment} {files : List Fetched} {p : Progress}

/-- What becomes of a file once it is fetched and noted as a seed. -/
theorem ingest_seed_apply (henv : env.parser.Steady) (hp : Seeded env files p.session)
    {file : Fetched} (hseed : file.location ∈ p.session.seeds) :
    ∃ q, (do
        let _ ← Import.ingest env file
        if (← Run.session).unparsed.contains file.location.path then
          return .error (.unparsed file.location.path)
        else return .ok () : Run (Except Failure Unit)) p =
      (some (if file.location.path ∈ refusedPaths env (files ++ [file]) then
        .error (.unparsed file.location.path) else .ok ()), q) ∧
      Seeded env (files ++ [file]) q.session := by
  obtain ⟨added, q, hq⟩ := Import.ingest_completes henv file p
  have hsession := Import.ingest_session env file p
  rw [hq] at hsession
  have hseeded : Seeded env (files ++ [file]) q.session :=
    hsession ▸ hp.take henv (Session.fileLabel_of_mem_seeds hseed)
  refine ⟨q, ?_, hseeded⟩
  rw [Run.bind_of_some hq, Run.session_bind, hseeded.unparsed]
  simp only [List.contains_iff_mem]
  split_ifs
  · rfl
  · rfl

theorem seed_apply (henv : env.parser.Steady) (hp : Seeded env files p.session) (url : String) :
    ∃ q, seed env url p = (some ((failureAfter? env files url).elim (.ok ()) .error), q) ∧
      Seeded env (files ++ (fetched? env url).toList) q.session := by
  unfold seed failureAfter? fetched? ownFailure?
  rcases Location.ofUrl url with e | l
  · exact ⟨p, rfl, (List.append_nil files).symm ▸ hp⟩
  · dsimp only
    rw [Run.log_bind, Run.fetch_bind]
    rcases env.fetch l with e | content
    · refine ⟨_, rfl, ?_⟩
      rw [Except.toOption, Option.map_none, Option.toList_none, List.append_nil]
      exact ⟨hp.ingested, hp.unparsed⟩
    · dsimp only [Except.toOption, Option.map_some, Option.toList_some]
      rw [Run.update_bind, apply_ite (Option.elim · _ _)]
      -- the file is fetched and noted, and then taken in
      refine ingest_seed_apply henv ?_ ?_
      · exact ⟨hp.ingested, hp.unparsed⟩
      · exact List.mem_append_right _ List.mem_cons_self

theorem seedAll_apply (henv : env.parser.Steady) (hp : Seeded env files p.session)
    (urls : List String) :
    ∃ q, seedAll env urls p = (some (failuresAfter env files urls), q) := by
  induction urls generalizing files p with
  | nil => exact ⟨p, rfl⟩
  | cons url urls ih =>
    obtain ⟨q, hseed, hq⟩ := seed_apply henv hp url
    dsimp only [seedAll, failuresAfter]
    rw [Run.bind_of_some hseed]
    rcases failureAfter? env files url with _ | failure
    · exact ih hq
    · dsimp only [Option.elim_some]
      obtain ⟨r, hr⟩ := ih (p := { q with log := q.log ++ [.error failure.message] }) hq
      exact ⟨r, by rw [Run.log_bind, Run.bind_of_some hr]; rfl⟩

end

/-! ### All addresses -/

/-- Whether an address fails behind the addresses `before`: if its file is fetched at all, then one
of the files of the same path, up to this one, is read and refused. -/
def FailsAfter (env : Environment) (before : List String) (url : String) : Prop :=
  ∀ file, fetched? env url = some file →
    ∃ other ∈ keepFirst (·.location.key) (before.filterMap (fetched? env) ++ [file]),
      other.location.path = file.location.path ∧ refuses env other = true

/-- Whether files at the addresses that share a path or a key are the same. -/
def Unmixed (env : Environment) (urls : List String) : Prop :=
  ∀ f ∈ urls.filterMap (fetched? env), ∀ g ∈ urls.filterMap (fetched? env),
    f.location.path = g.location.path ∨ f.location.key = g.location.key → f.location = g.location

section

variable {env : Environment} {before after urls : List String} {url : String}
  {failure : Failure}

theorem forall_cons_eq_append {P : List String → String → Prop} :
    (∀ front url' back, url :: urls = front ++ url' :: back → P front url') ↔
      P [] url ∧ ∀ front url' back, urls = front ++ url' :: back → P (url :: front) url' := by
  constructor
  · intro h
    refine ⟨h [] url urls rfl, ?_⟩
    intro front url' back hurls
    exact h (url :: front) url' back (by rw [hurls, List.cons_append])
  · rintro ⟨hfirst, hrest⟩ front url' back hurls
    cases front with
    | nil =>
      cases hurls
      exact hfirst
    | cons x front =>
      obtain ⟨rfl, hback⟩ := List.cons.inj hurls
      exact hrest front url' back hback

theorem isSome_failureAfter?_iff :
    (failureAfter? env (before.filterMap (fetched? env)) url).isSome ↔
      FailsAfter env before url := by
  unfold failureAfter? FailsAfter
  rcases hfetched : fetched? env url with _ | file
  · refine iff_of_true (isSome_ownFailure?_of_not_fetched hfetched) ?_
    intro file hfile
    cases hfile
  · simp only [Option.some.injEq, forall_eq', ← mem_refusedPaths]
    split_ifs with hrefused
    · exact iff_of_true rfl hrefused
    · exact iff_of_false Bool.false_ne_true hrefused

theorem failureAfter?_nil (env : Environment) (url : String) :
    failureAfter? env [] url = ownFailure? env url := by
  unfold failureAfter?
  rcases hfetched : fetched? env url with _ | file
  · rfl
  · have hnil : refusedPaths env [] = [] := rfl
    rw [ownFailure?_of_fetched hfetched]
    dsimp only
    rw [refusedPaths_append, List.map_nil, if_neg List.not_mem_nil, hnil]
    cases refuses env file with
    | true => exact if_pos List.mem_cons_self
    | false => exact if_neg List.not_mem_nil

/-- Where neither paths nor keys are shared, an address fails iff it does on its own. -/
theorem failsAfter_iff_of_unmixed (hurls : urls = before ++ url :: after)
    (hunmixed : Unmixed env urls) :
    FailsAfter env before url ↔ (ownFailure? env url).isSome := by
  rcases hfetched : fetched? env url with _ | file
  · -- what cannot be fetched fails behind any other address
    refine iff_of_true ?_ (isSome_ownFailure?_of_not_fetched hfetched)
    intro file hfile
    rw [hfetched] at hfile
    cases hfile
  · -- the file and those before it are among all files
    have hmem : ∀ g ∈ before.filterMap (fetched? env) ++ [file],
        g ∈ urls.filterMap (fetched? env) := by
      intro g hg
      rw [hurls, List.filterMap_append, List.filterMap_cons_some hfetched]
      rcases List.mem_append.mp hg with hg | hg
      · exact List.mem_append_left _ hg
      · rw [List.mem_singleton.mp hg]
        exact List.mem_append_right _ List.mem_cons_self
    have hfile : file ∈ before.filterMap (fetched? env) ++ [file] :=
      List.mem_append_right _ (List.mem_singleton.mpr rfl)
    -- files at the same location have the same content
    have hsame : ∀ g ∈ before.filterMap (fetched? env) ++ [file],
        g.location.path = file.location.path ∨ g.location.key = file.location.key → g = file := by
      intro g hg hshared
      have hlocation := hunmixed g (hmem g hg) file (hmem file hfile) hshared
      obtain ⟨url', -, hurl'⟩ := List.mem_filterMap.mp (hmem g hg)
      have hcontent := (fetched?_eq_some.mp hurl').2
      rw [hlocation, (fetched?_eq_some.mp hfetched).2] at hcontent
      cases g
      cases hlocation
      cases hcontent
      rfl
    rw [ownFailure?_of_fetched hfetched]
    constructor
    · -- a file of the same path that is refused is this one
      intro h
      obtain ⟨other, hother, hpath, hrefused⟩ := h file hfetched
      rw [hsame other (mem_of_mem_keepFirst _ hother) (.inl hpath)] at hrefused
      rw [if_pos hrefused]
      rfl
    · intro h other hother
      rw [hfetched] at hother
      cases hother
      have hrefused : refuses env file = true := by
        by_contra hrefused
        rw [if_neg hrefused] at h
        cases h
      -- of the files with its key the first is read, and is this one
      have hkey := (mem_map_keepFirst (·.location.key)
        (before.filterMap (fetched? env) ++ [file]) file.location.key).mpr
        (List.mem_map_of_mem hfile)
      obtain ⟨g, hg, hgkey⟩ := List.mem_map.mp hkey
      have heq := hsame g (mem_of_mem_keepFirst _ hg) (.inr hgkey)
      exact ⟨g, hg, by rw [heq], by rw [heq, hrefused]⟩

theorem forall_failsAfter_iff_of_unmixed (hunmixed : Unmixed env urls) :
    (∀ before url after, urls = before ++ url :: after → FailsAfter env before url) ↔
      ∀ url ∈ urls, (ownFailure? env url).isSome := by
  constructor
  · intro h url hurl
    obtain ⟨before, after, hurls⟩ := List.append_of_mem hurl
    exact (failsAfter_iff_of_unmixed hurls hunmixed).mp (h before url after hurls)
  · intro h before url after hurls
    refine (failsAfter_iff_of_unmixed hurls hunmixed).mpr (h url ?_)
    rw [hurls]
    exact List.mem_append_right _ List.mem_cons_self

theorem length_failuresAfter_le (env : Environment) (files : List Fetched) (urls : List String) :
    (failuresAfter env files urls).length ≤ urls.length := by
  induction urls generalizing files with
  | nil => exact Nat.le_refl 0
  | cons url urls ih =>
    have hrest := ih (files ++ (fetched? env url).toList)
    rw [failuresAfter, List.length_append, List.length_cons]
    have hone : (failureAfter? env files url).toList.length ≤ 1 := by
      cases failureAfter? env files url <;> simp
    omega

theorem filterMap_fetched?_append_singleton :
    (before ++ [url]).filterMap (fetched? env) =
      before.filterMap (fetched? env) ++ (fetched? env url).toList := by
  rw [List.filterMap_append]
  cases hfetched : fetched? env url with
  | none => rw [List.filterMap_cons_none hfetched, List.filterMap_nil, Option.toList_none]
  | some file => rw [List.filterMap_cons_some hfetched, List.filterMap_nil, Option.toList_some]

/-- There are as many failures as addresses iff each address fails behind those before it. -/
theorem length_failuresAfter_eq_iff :
    (failuresAfter env (before.filterMap (fetched? env)) urls).length = urls.length ↔
      ∀ front url back, urls = front ++ url :: back → FailsAfter env (before ++ front) url := by
  induction urls generalizing before with
  | nil =>
    refine iff_of_true rfl ?_
    intro front url back h
    cases front <;> cases h
  | cons url urls ih =>
    have hrest := length_failuresAfter_le env ((before ++ [url]).filterMap (fetched? env)) urls
    rw [forall_cons_eq_append, List.append_nil, failuresAfter,
      ← filterMap_fetched?_append_singleton, List.length_append, List.length_cons,
      ← isSome_failureAfter?_iff]
    -- the failures behind the first address, by the induction
    have htail : (∀ front url' back, urls = front ++ url' :: back →
        FailsAfter env (before ++ url :: front) url') ↔
        (failuresAfter env ((before ++ [url]).filterMap (fetched? env)) urls).length =
          urls.length := by
      rw [ih]
      simp only [List.append_assoc, List.singleton_append]
    rw [htail]
    -- each address adds one failure at most, so none can be missing
    cases failureAfter? env (before.filterMap (fetched? env)) url with
    | none =>
      rw [Option.toList_none, List.length_nil, Option.isSome_none]
      constructor
      · intro h
        omega
      · rintro ⟨h, -⟩
        cases h
    | some failure =>
      rw [Option.toList_some, List.length_singleton, Option.isSome_some]
      constructor
      · intro h
        exact ⟨rfl, by omega⟩
      · rintro ⟨-, h⟩
        omega

theorem head?_failuresAfter (h : failureAfter? env [] url = some failure) :
    (failuresAfter env [] (url :: urls)).head? = some failure := by
  rw [failuresAfter, h, Option.toList_some, List.singleton_append, List.head?_cons]

end

/-! ### The whole run -/

/-- What a run answers that starts from the beginning. -/
def answer (env : Environment) (urls : List String) (depth : Option Int) (startedAt : String) :
    Option (Except Failure Unit) :=
  (analyze env urls depth { session := { startedAt := startedAt } }).1

section

variable {env : Environment}

theorem finish_completes (henv : env.parser.Steady) (depth : Option Int) :
    Run.Completes (finish env depth) := by
  cases depth with
  | none => exact fun _ => ⟨(), _, rfl⟩
  | some bound =>
    refine (Import.ingestImports_completes henv bound).bind ?_
    exact fun _ _ => ⟨(), _, rfl⟩

/-- There are as many failures as addresses, and the first is that of the first address. -/
theorem answer_of_all_fail (henv : env.parser.Steady) {urls : List String} {failure : Failure}
    (hlength : (failuresAfter env [] urls).length = urls.length)
    (hfirst : (failuresAfter env [] urls).head? = some failure)
    (depth : Option Int) (startedAt : String) :
    answer env urls depth startedAt = some (.error failure) := by
  obtain ⟨q, hq⟩ := seedAll_apply henv (Seeded.fresh env startedAt) urls
    (p := { session := { startedAt := startedAt } })
  have hurls : urls.isEmpty = false := by
    cases urls with
    | nil => cases hfirst
    | cons => rfl
  rw [answer, analyze, hurls, if_neg Bool.false_ne_true, Run.bind_of_some hq, hfirst, hlength,
    decide_eq_true rfl]
  rfl

theorem answer_of_one_succeeds (henv : env.parser.Steady) {urls : List String} (hurls : urls ≠ [])
    (hlength : (failuresAfter env [] urls).length ≠ urls.length)
    (depth : Option Int) (startedAt : String) :
    answer env urls depth startedAt = some (.ok ()) := by
  obtain ⟨q, hq⟩ := seedAll_apply henv (Seeded.fresh env startedAt) urls
    (p := { session := { startedAt := startedAt } })
  obtain ⟨_, r, hr⟩ := finish_completes henv depth q
  rw [answer, analyze, List.isEmpty_eq_false_iff.mpr hurls, if_neg Bool.false_ne_true,
    Run.bind_of_some hq, decide_eq_false hlength]
  rcases (failuresAfter env [] urls).head? with _ | failure
  · dsimp only
    rw [Run.bind_of_some hr]
    rfl
  · dsimp only
    rw [Run.bind_of_some hr]
    rfl

/-- A run has a result or fails for the reason of the first address.  It fails iff every address
fails behind those before it; if neither paths nor keys are shared, iff every address fails on its
own. -/
theorem answer_error_iff (henv : env.parser.Steady) {urls : List String} (hurls : urls ≠ [])
    (depth : Option Int) (startedAt : String) :
    (answer env urls depth startedAt = some (.ok ()) ∨
      ∃ failure, urls.head?.bind (ownFailure? env) = some failure ∧
        answer env urls depth startedAt = some (.error failure)) ∧
    ((∃ failure, answer env urls depth startedAt = some (.error failure)) ↔
      ∀ before url after, urls = before ++ url :: after → FailsAfter env before url) ∧
    (Unmixed env urls →
      ((∃ failure, answer env urls depth startedAt = some (.error failure)) ↔
        ∀ url ∈ urls, (ownFailure? env url).isSome)) := by
  obtain ⟨url, rest, rfl⟩ := List.exists_cons_of_ne_nil hurls
  have hlength := @length_failuresAfter_eq_iff env [] (url :: rest)
  simp only [List.filterMap_nil, List.nil_append] at hlength
  by_cases hall : ∀ before url' after, url :: rest = before ++ url' :: after →
      FailsAfter env before url'
  · -- the first address fails with nothing before it, so on its own
    have hfirst := isSome_failureAfter?_iff.mpr (hall [] url rest rfl)
    rw [List.filterMap_nil] at hfirst
    obtain ⟨failure, hfailure⟩ := Option.isSome_iff_exists.mp hfirst
    have hanswer := answer_of_all_fail henv (hlength.mpr hall) (head?_failuresAfter hfailure)
      depth startedAt
    have hown : (url :: rest).head?.bind (ownFailure? env) = some failure := by
      rw [List.head?_cons, Option.bind_some, ← failureAfter?_nil, hfailure]
    have herror : ∃ failure, answer env (url :: rest) depth startedAt = some (.error failure) :=
      ⟨failure, hanswer⟩
    refine ⟨.inr ⟨failure, hown, hanswer⟩, iff_of_true herror hall, ?_⟩
    intro hunmixed
    exact iff_of_true herror ((forall_failsAfter_iff_of_unmixed hunmixed).mp hall)
  · -- an address that goes through is enough for a result
    have hanswer := answer_of_one_succeeds henv hurls (mt hlength.mp hall) depth startedAt
    have herror : ¬∃ failure, answer env (url :: rest) depth startedAt = some (.error failure) := by
      rintro ⟨failure, hfailure⟩
      rw [hanswer] at hfailure
      cases hfailure
    refine ⟨.inl hanswer, iff_of_false herror hall, ?_⟩
    intro hunmixed
    exact iff_of_false herror (mt (forall_failsAfter_iff_of_unmixed hunmixed).mpr hall)

end

/-- Two repositories have a file of the same path, and that of the first cannot be read. -/
def twoRepositories : Environment where
  fetch l := .ok l.repo
  parser := { parse := fun text _ => if text = "one" then .error .syntaxError else .ok {} }

/-- The file of the second repository can be read, but fails behind that of the first. -/
theorem answer_error_iff_twoRepositories :
    ownFailure? twoRepositories "https://github.com/acme/two/blob/main/A.sol" = none ∧
      FailsAfter twoRepositories ["https://github.com/acme/one/blob/main/A.sol"]
        "https://github.com/acme/two/blob/main/A.sol" ∧
      ¬Unmixed twoRepositories ["https://github.com/acme/one/blob/main/A.sol",
        "https://github.com/acme/two/blob/main/A.sol"] ∧
      answer twoRepositories ["https://github.com/acme/one/blob/main/A.sol",
        "https://github.com/acme/two/blob/main/A.sol"] none "" =
          some (.error (.unparsed "A.sol")) := by
  have hsteady : twoRepositories.parser.Steady := by
    intro text file h
    dsimp only [twoRepositories] at h
    split_ifs at h
    cases h
  have hown : ownFailure? twoRepositories "https://github.com/acme/two/blob/main/A.sol" = none := by
    decide +kernel
  have hanswer : answer twoRepositories ["https://github.com/acme/one/blob/main/A.sol",
      "https://github.com/acme/two/blob/main/A.sol"] none "" =
        some (.error (.unparsed "A.sol")) := by
    decide +kernel
  -- the general result tells which addresses fail, and that files must be mixed here
  obtain ⟨-, hfails, hunmixed⟩ := answer_error_iff hsteady
    (List.cons_ne_nil "https://github.com/acme/one/blob/main/A.sol"
      ["https://github.com/acme/two/blob/main/A.sol"]) none ""
  refine ⟨hown, hfails.mp ⟨_, hanswer⟩ [_] _ [] rfl, ?_, hanswer⟩
  intro h
  have hsome := (hunmixed h).mp ⟨_, hanswer⟩ _ (List.mem_cons_of_mem _ List.mem_cons_self)
  rw [hown] at hsome
  cases hsome

end Analysis

end CallAtlas

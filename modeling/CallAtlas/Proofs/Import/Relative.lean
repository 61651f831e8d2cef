import CallAtlas.Proofs.Import.Settlement

/-!
# Relative imports

An import that starts with a dot is meant from the directory of the file that has it.  What is tried
first for it is the file it means there; but an import is settled once for all files that have it,
from where the first of them lies.  So a file that a later one means is reached only if it is found
for some import.

* `Reached env given files s`: `s` comes about when the locations `given` are taken in and rounds
  of imports are completed, and `files` were read on the way.
* `Reached.mem_ingested_iff`: what is taken in is what was given and what imports were found at.
* `candidates_of_relative`: what is tried first for a relative import.
* `ingestImports_reaches`: which files a run that leaves nothing pending takes in.
-/

namespace CallAtlas

open Import (Fetched Reference Taken History Tables Verdict candidates classify clean declaredFrom?
  ingestImports libraries libraryOf? normalize? verdict wellKnown withExtension)
open Relation (ReflTransGen)

/-! ### What is tried first -/

theorem Path.segments_slash (path : List Char) : segments ('/' :: path) = segments path := rfl

namespace Import

open CallAtlas.Text

/-- Whether an import is relative: it starts in the directory of its file or above it. -/
def IsRelative (path : String) : Prop :=
  startsWith (clean path) "./" = true ∨ startsWith (clean path) "../" = true

/-- The file that an import means when it is written in a file at `l`; none if it leaves the
repository. -/
def meant? (l : Location) (path : String) : Option Location :=
  (normalize? (l.directory ++ "/" ++ clean path)).map fun target =>
    l.coords.locate (withExtension target)

theorem normalize?_slash (path : String) : normalize? ("/" ++ path) = normalize? path := by
  have hsegments : Path.segments ("/" ++ path).toList = Path.segments path.toList := by
    rw [String.toList_append]
    exact Path.segments_slash path.toList
  simp only [normalize?, hsegments]

theorem IsRelative.toList_clean {path : String} (h : IsRelative path) :
    ∃ rest, (clean path).toList = '.' :: rest := by
  rcases h with h | h
  · obtain ⟨rest, hrest⟩ := List.isPrefixOf_iff_prefix.mp h
    exact ⟨_, hrest.symm⟩
  · obtain ⟨rest, hrest⟩ := List.isPrefixOf_iff_prefix.mp h
    exact ⟨_, hrest.symm⟩

theorem IsRelative.startsWith_eq_false {path front : String} (h : IsRelative path)
    (hfront : front.toList.head?.any (· != '.') = true) :
    startsWith (clean path) front = false := by
  obtain ⟨rest, hrest⟩ := h.toList_clean
  rw [startsWith, hrest]
  cases hchars : front.toList with
  | nil =>
    rw [hchars] at hfront
    cases hfront
  | cons c cs =>
    rw [hchars, List.head?_cons, Option.any_some] at hfront
    rw [List.isPrefixOf, beq_false_of_ne (bne_iff_ne.mp hfront), Bool.false_and]

theorem IsRelative.classify_eq {path : String} (h : IsRelative path) :
    classify path = .resolvable := by
  have hfronts : ∀ front ∈ externalFronts, front.toList.head?.any (· != '.') = true := by
    decide
  have hany : externalFronts.any (startsWith (clean path)) = false := by
    rw [List.any_eq_false]
    intro front hmem
    rw [h.startsWith_eq_false (hfronts front hmem)]
    exact Bool.false_ne_true
  rw [classify, hany, if_neg Bool.false_ne_true]

theorem IsRelative.libraryLocations_eq {path : String} (h : IsRelative path) :
    libraryLocations path = [] := by
  have hfronts : ∀ l ∈ libraries, l.front.toList.head?.any (· != '.') = true := by
    decide
  have hnone : libraryOf? path = none := by
    rw [libraryOf?, List.find?_eq_none]
    intro l hmem
    rw [h.startsWith_eq_false (hfronts l hmem)]
    exact Bool.false_ne_true
  rw [libraryLocations, hnone]

theorem normalize?_layoutGuesses (path base : String) :
    ∃ guesses, (layoutGuesses path base).filterMap normalize? =
      (normalize? (base ++ "/" ++ clean path)).toList ++ guesses := by
  have hfirst : normalize? (if base = "" then clean path else base ++ "/" ++ clean path) =
      normalize? (base ++ "/" ++ clean path) := by
    -- at the root the import stands alone, which is the same path
    by_cases hbase : base = ""
    · rw [if_pos hbase, hbase, String.empty_append, normalize?_slash]
    · rw [if_neg hbase]
  simp only [layoutGuesses, List.cons_append]
  cases h : normalize? (base ++ "/" ++ clean path) with
  | none =>
    rw [List.filterMap_cons_none (hfirst.trans h), Option.toList_none]
    exact ⟨_, (List.nil_append _).symm⟩
  | some target =>
    rw [List.filterMap_cons_some (hfirst.trans h), Option.toList_some]
    exact ⟨_, List.singleton_append.symm⟩

theorem IsRelative.candidates_eq {path : String} (h : IsRelative path) (c : Coords) :
    candidates path (some c) =
      distinct (wellKnownLocations path ++ (localPaths path c.base).map c.locate) := by
  -- `unfold` leaves the match as it stands, where the equations of `candidates` would split it
  unfold candidates
  rw [h.libraryLocations_eq, h.classify_eq]

/-- What is tried first for a relative import is the file it means, unless a widely used contract
has the same name. -/
theorem candidates_of_relative {path : String} {l target : Location} (h : IsRelative path)
    (hname : wellKnown.has (Path.basename (clean path)) = false)
    (ht : meant? l path = some target) :
    ∃ rest, candidates path (some l.coords) = target :: rest := by
  rw [meant?, Option.map_eq_some_iff] at ht
  obtain ⟨relative, hrelative, htarget⟩ := ht
  obtain ⟨guesses, hguesses⟩ := normalize?_layoutGuesses path l.directory
  have hhomes : wellKnownLocations path = [] := by
    rw [wellKnownLocations, Table.get?_eq_none.mpr hname, Option.getD_none]
  have hlocal : ∃ rest, localPaths path l.directory = withExtension relative :: rest := by
    rw [localPaths, hguesses, hrelative, Option.toList_some, List.singleton_append, List.map_cons,
      keepFirst]
    exact ⟨_, rfl⟩
  obtain ⟨rest, hrest⟩ := hlocal
  rw [h.candidates_eq, hhomes, List.nil_append, show l.coords.base = l.directory from rfl, hrest,
    List.map_cons, htarget, distinct, keepFirst]
  exact ⟨_, rfl⟩

end Import

/-! ### What rounds take in -/

namespace Session

theorem mem_ingested_takeAll (env : Environment) (s : Session) (files : List Fetched)
    {key : String} : key ∈ (s.takeAll env files).ingested ↔
      key ∈ s.ingested ∨ key ∈ (files.map Fetched.location).map Location.key := by
  induction files generalizing s with
  | nil => simp [takeAll]
  | cons first files ih =>
    rw [takeAll, List.foldl_cons]
    exact (ih (s.take env first)).trans (by
      rw [mem_ingested_take, List.map_cons, List.map_cons, List.mem_cons, or_assoc])

theorem processed_takeAll (env : Environment) (s : Session) (files : List Fetched) :
    (s.takeAll env files).processed = s.processed := by
  induction files generalizing s with
  | nil => rfl
  | cons first files ih => exact (ih _).trans (s.frame_take env first).1

/-- What is fetched for an import is where it is found. -/
theorem location_fetchedFor? (env : Environment) {s : Session} {ref : Reference}
    (h : s.isSettled ref.path = false) :
    (s.fetchedFor? env ref).map Fetched.location = (s.verdictOn env ref).location? := by
  rw [fetchedFor?, h, if_neg Bool.false_ne_true, verdictOn]
  unfold verdict
  cases classify ref.path with
  | external => rfl
  | resolvable =>
    dsimp only
    rw [env.firstServed?_location]
    cases (candidates ref.path (s.coordsFor? ref.origin)).find? env.serves with
    | none => rfl
    | some l => rfl

/-- Settling an import notes what is fetched for it, and takes nothing in. -/
theorem found_settle (env : Environment) (s : Session) (ref : Reference) :
    (s.settle env ref).processed.map Prod.snd =
        s.processed.map Prod.snd ++ (s.fetchedFor? env ref).toList.map Fetched.location ∧
      (s.settle env ref).ingested = s.ingested := by
  cases h : s.isSettled ref.path with
  | true =>
    rw [settle, fetchedFor?, h, if_pos rfl, if_pos rfl, Option.toList_none, List.map_nil,
      List.append_nil]
    exact ⟨rfl, rfl⟩
  | false =>
    have hlocation := location_fetchedFor? env h
    rw [settle_eq env h]
    refine ⟨?_, rfl⟩
    rw [List.map_append, ← hlocation]
    cases s.fetchedFor? env ref with
    | none => rfl
    | some fetched => rfl

theorem found_settleAll (env : Environment) (s : Session) (refs : List Reference) :
    (s.settleAll env refs).processed.map Prod.snd =
        s.processed.map Prod.snd ++ (s.fetchedForAll env refs).map Fetched.location ∧
      (s.settleAll env refs).ingested = s.ingested := by
  induction refs generalizing s with
  | nil => exact ⟨(List.append_nil _).symm, rfl⟩
  | cons ref refs ih =>
    obtain ⟨hfound, hingested⟩ := s.found_settle env ref
    obtain ⟨hfounds, hingesteds⟩ := ih (s.settle env ref)
    rw [fetchedForAll, List.map_append, ← List.append_assoc, ← hfound]
    exact ⟨hfounds, hingesteds.trans hingested⟩

end Session

namespace Import

/-- `s` comes about when the locations `given` are taken in and rounds of imports are completed;
`files` were read on the way.  In between, all may change but what is known of files and imports. -/
inductive Reached (env : Environment) : List Location → List Taken → Session → Prop
  | fresh {s : Session} (hdiscovered : s.discovered = []) (hlocations : s.locations = [])
      (hingested : s.ingested = []) (hprocessed : s.processed = []) (hfailed : s.failed = []) :
      Reached env [] [] s
  | aside {given : List Location} {files : List Taken} {s t : Session}
      (hs : Reached env given files s) (hdiscovered : t.discovered = s.discovered)
      (hlocations : t.locations = s.locations) (hingested : t.ingested = s.ingested)
      (hprocessed : t.processed = s.processed) (hfailed : t.failed = s.failed) :
      Reached env given files t
  | take {given : List Location} {files : List Taken} {s : Session} (fetched : Fetched)
      (hs : Reached env given files s) :
      Reached env (given ++ [fetched.location]) (files ++ s.takes env fetched)
        (s.take env fetched)
  | round {given : List Location} {files : List Taken} {s : Session}
      (hs : Reached env given files s) :
      Reached env given
        (files ++ (s.settleAll env s.pending).takesAll env (s.fetchedForAll env s.pending))
        (s.afterRound env)

namespace Reached

variable {env : Environment} {given : List Location} {files : List Taken} {s : Session}

theorem history (h : Reached env given files s) : History env files s := by
  induction h with
  | fresh hdiscovered hlocations hingested => exact .fresh hdiscovered hlocations hingested
  | aside _ hdiscovered hlocations hingested _ _ ih =>
    exact .aside ih hdiscovered hlocations hingested
  | take fetched _ ih => exact .take fetched ih
  | @round _ _ s _ ih => exact (ih.settleAll s.pending).takeAll _

theorem tables (h : Reached env given files s) (hparser : env.parser.StampsOrigins) :
    ∃ settled, Tables env settled s := by
  induction h with
  | fresh _ _ _ hprocessed hfailed => exact ⟨[], .nil env hprocessed hfailed⟩
  | @aside _ _ s t hs hdiscovered hlocations _ hprocessed hfailed ih =>
    obtain ⟨settled, htables⟩ := ih
    refine ⟨settled, htables.of_prefix hs.history hparser ?_ ?_ hprocessed hfailed⟩
    · rw [hdiscovered]
    · rw [hlocations]
  | take fetched hs ih =>
    obtain ⟨settled, htables⟩ := ih
    exact ⟨settled, htables.take hs.history hparser fetched⟩
  | @round _ _ s hs ih =>
    obtain ⟨settled, htables⟩ := ih
    obtain ⟨-, settled', -, htables'⟩ := (kept_tables hparser).withinRound hs.history htables
      (s.withinRound_afterRound env)
    exact ⟨settled', htables'⟩

/-- What is taken in is what was given and what imports were found at. -/
theorem mem_ingested_iff (h : Reached env given files s) {key : String} :
    key ∈ s.ingested ↔
      key ∈ given.map Location.key ∨ key ∈ (s.processed.map Prod.snd).map Location.key := by
  induction h with
  | fresh _ _ hingested hprocessed _ => simp [hingested, hprocessed]
  | aside _ _ _ hingested hprocessed _ ih => rw [hingested, hprocessed, ih]
  | @take _ _ s fetched _ ih =>
    rw [Session.mem_ingested_take, ih, (s.frame_take env fetched).1, List.map_append,
      List.mem_append, List.map_singleton, List.mem_singleton, or_right_comm]
  | @round _ _ s _ ih =>
    -- a round takes in what it fetched, and notes these places as found
    obtain ⟨hfound, hingested⟩ := s.found_settleAll env s.pending
    rw [Session.afterRound, Session.mem_ingested_takeAll, hingested, ih, Session.processed_takeAll,
      hfound, List.map_append, List.mem_append, or_assoc]

/-- A run over imports that ends leaves a session that is reached. -/
theorem ingestImports {p q : Progress} (h : Reached env given files p.session) {bound : Int}
    {coverage : Coverage} (hrun : ingestImports env bound p = (some coverage, q)) :
    ∃ more, Reached env given (files ++ more) q.session := by
  obtain ⟨s, hrounds, hend⟩ := ingestImports_apply env bound p
  rw [hrun] at hend
  rcases hend with ⟨-, hsession⟩ | ⟨hnone, -⟩
  · rw [show q.session = s from hsession]
    clear hsession
    induction hrounds with
    | refl => exact ⟨[], by rwa [List.append_nil]⟩
    | tail _ hround ih =>
      obtain ⟨more, hmore⟩ := ih
      rw [hround]
      have hnext := hmore.round
      rw [List.append_assoc] at hnext
      exact ⟨_, hnext⟩
  · cases hnone

end Reached

/-! ### Where imports lead -/

/-- An import leads to a location: from where the first file that has it lies, the location is the
first candidate that is served. -/
def LeadsTo (env : Environment) (files : List Taken) (s : Session) (path : String) (l : Location) :
    Prop :=
  ∃ coords, declaredFrom? files s path = some coords ∧ classify path ≠ .external ∧
    (candidates path (some coords)).find? env.serves = some l

theorem mem_map_entries {α : Type} {f : Reference → Option α} {refs : List Reference} {a : α} :
    a ∈ (entries f refs).map Prod.snd ↔ ∃ ref ∈ refs, f ref = some a := by
  rw [entries, List.map_filterMap, List.mem_filterMap]
  simp only [Option.map_map, Option.map_eq_some_iff, Function.comp_apply, exists_eq_right]

theorem location?_verdict {env : Environment} {path : String} {coords : Option Coords}
    {l : Location} : (verdict env path coords).location? = some l ↔
      classify path ≠ .external ∧ (candidates path coords).find? env.serves = some l := by
  by_cases h : classify path = .external
  · unfold verdict
    rw [h]
    exact iff_of_false nofun fun hne => hne.1 rfl
  · rw [verdict_of_resolvable h]
    cases (candidates path coords).find? env.serves with
    | none => exact iff_of_false nofun fun hfound => nomatch hfound.2
    | some found => exact ⟨fun heq => ⟨h, heq⟩, And.right⟩

/-- The imports of a file are known. -/
theorem History.exists_known {env : Environment} {files : List Taken} {s : Session}
    (hs : History env files s) {t : Taken} (ht : t ∈ files) {path : String}
    (hpath : t.declares path = true) : ∃ ref ∈ s.discovered.map Prod.snd, ref.path = path := by
  obtain ⟨ref, href, heq⟩ := List.any_eq_true.mp hpath
  have hmem : path ∈ (files.flatMap (·.imports)).map Reference.path :=
    List.mem_map.mpr ⟨ref, List.mem_flatMap.mpr ⟨t, ht, href⟩, beq_iff_eq.mp heq⟩
  rw [← mem_map_keepFirst, ← hs.map_discovered] at hmem
  exact List.mem_map.mp hmem

section

variable {env : Environment} {given : List Location} {files : List Taken} {s : Session}

/-- Once no import is pending, imports were found where they lead. -/
theorem Reached.found_iff (h : Reached env given files s) (hparser : env.parser.StampsOrigins)
    (hpending : s.pending = []) {l : Location} :
    l ∈ s.processed.map Prod.snd ↔ ∃ path, LeadsTo env files s path l := by
  obtain ⟨settled, htables⟩ := h.tables hparser
  -- nothing is pending, so all imports that are known are settled
  have hall : settled = s.discovered.map Prod.snd := by
    rw [← htables.append_pending h.history, hpending, List.append_nil]
  rw [htables.processed, mem_map_entries]
  constructor
  · rintro ⟨ref, href, hfound⟩
    obtain ⟨heq, hsome⟩ := htables.coordsFor?_eq h.history hparser href
    obtain ⟨coords, hcoords⟩ := Option.isSome_iff_exists.mp hsome
    rw [Session.verdictOn, heq, hcoords] at hfound
    exact ⟨ref.path, coords, hcoords, location?_verdict.mp hfound⟩
  · rintro ⟨path, coords, hcoords, hfound⟩
    obtain ⟨t, hfind, -⟩ := Option.bind_eq_some_iff.mp hcoords
    obtain ⟨ref, href, rfl⟩ :=
      h.history.exists_known (List.mem_of_find?_eq_some hfind) (List.find?_some hfind)
    rw [← hall] at href
    refine ⟨ref, href, ?_⟩
    rw [Session.verdictOn, (htables.coordsFor?_eq h.history hparser href).1, hcoords]
    exact location?_verdict.mpr hfound

/-- A relative import leads to the file it means when it is looked up from the directory of its own
file, and that file is served. -/
theorem leadsTo_of_relative {l target : Location} {path : String} (hrelative : IsRelative path)
    (hname : wellKnown.has (Path.basename (clean path)) = false)
    (htarget : meant? l path = some target) (hserves : env.serves target = true)
    (hfirst : declaredFrom? files s path = some l.coords) : LeadsTo env files s path target := by
  obtain ⟨rest, hrest⟩ := candidates_of_relative hrelative hname htarget
  refine ⟨l.coords, hfirst, ?_, ?_⟩
  · rw [hrelative.classify_eq]
    exact nofun
  · rw [hrest, List.find?_cons, hserves]

end

/-- **Which files a run over imports takes in.**  When no import is left pending, these are the
locations that were given and those that some import leads to.  So the file that a relative import
means is taken in, unless the import was looked up from elsewhere than the directory of its own
file: a file of another directory had the same import before. -/
theorem ingestImports_reaches {env : Environment} (hparser : env.parser.StampsOrigins)
    {given : List Location} {files : List Taken} {start : Session} {log : List Log.Record}
    {q : Progress} (hstart : Reached env given files start) {bound : Int} {coverage : Coverage}
    (hrun : ingestImports env bound ⟨start, log⟩ = (some coverage, q))
    (hpending : q.session.pending = []) :
    (∃ more, Reached env given (files ++ more) q.session) ∧
      ∀ read, Reached env given read q.session →
        (∀ l : Location, l.key ∈ q.session.ingested ↔ l.key ∈ given.map Location.key ∨
          ∃ path found, LeadsTo env read q.session path found ∧ found.key = l.key) ∧
        ∀ t ∈ read, ∀ ref ∈ t.imports, IsRelative ref.path →
          wellKnown.has (Path.basename (clean ref.path)) = false →
          ∀ target, meant? t.location ref.path = some target → env.serves target = true →
            target.key ∈ q.session.ingested ∨
              ∃ coords, declaredFrom? read q.session ref.path = some coords ∧
                coords ≠ t.location.coords := by
  refine ⟨hstart.ingestImports (p := ⟨start, log⟩) hrun, fun read hend => ?_⟩
  -- what was found for imports is what imports lead to, since none is pending
  have hiff : ∀ l : Location, l.key ∈ q.session.ingested ↔ l.key ∈ given.map Location.key ∨
      ∃ path found, LeadsTo env read q.session path found ∧ found.key = l.key := by
    intro l
    rw [hend.mem_ingested_iff]
    refine or_congr_right (List.mem_map.trans ⟨?_, ?_⟩)
    · rintro ⟨found, hfound, hkey⟩
      obtain ⟨path, hleads⟩ := (hend.found_iff hparser hpending).mp hfound
      exact ⟨path, found, hleads, hkey⟩
    · rintro ⟨path, found, hleads, hkey⟩
      exact ⟨found, (hend.found_iff hparser hpending).mpr ⟨path, hleads⟩, hkey⟩
  refine ⟨hiff, ?_⟩
  intro t ht ref href hrelative hname target htarget hserves
  have hdeclares : t.declares ref.path = true :=
    List.any_eq_true.mpr ⟨ref, href, beq_self_eq_true _⟩
  -- the first file with the import decides from where it is looked up, and need not be `t`
  obtain ⟨first, hfind⟩ := Option.isSome_iff_exists.mp (List.find?_isSome.mpr ⟨t, ht, hdeclares⟩)
  obtain ⟨l, -, hfrom⟩ := hend.history.declaredFrom?_of_find? hfind
  by_cases hcoords : l.coords = t.location.coords
  · rw [hcoords] at hfrom
    have hleads := leadsTo_of_relative hrelative hname htarget hserves hfrom
    exact .inl ((hiff target).mpr (.inr ⟨ref.path, target, hleads, rfl⟩))
  · exact .inr ⟨l.coords, hfrom, hcoords⟩

/-- A file of the small repository, as it is read. -/
def vaultTaken (path : String) (imports : List String) : Taken :=
  ⟨path, vaultAt path, imports.map fun name => ⟨name, path⟩⟩

/-- The files of the small repository that are read, in order. -/
def vaultRead : List Taken :=
  [vaultTaken "contracts/A.sol" vaultImports, vaultTaken "contracts/T.sol" [],
    vaultTaken "contracts/sub/B.sol" ["./T.sol"]]

theorem reached_vaultStart :
    Reached vault [vaultFile.location] [vaultTaken "contracts/A.sol" vaultImports] vaultStart := by
  have htaken : Session.takes vault { seeds := [vaultFile.location] } vaultFile =
      [vaultTaken "contracts/A.sol" vaultImports] := by
    decide +kernel
  have hfresh : Reached vault [] [] { seeds := [vaultFile.location] } := .fresh rfl rfl rfl rfl rfl
  have htake := hfresh.take vaultFile
  rwa [htaken, take_vault] at htake

theorem reached_vaultEnd : Reached vault [vaultFile.location] vaultRead vaultEnd := by
  have hread : [vaultTaken "contracts/A.sol" vaultImports] ++
      (vaultStart.settleAll vault vaultStart.pending).takesAll vault
        (vaultStart.fetchedForAll vault vaultStart.pending) = vaultRead := by
    decide +kernel
  have hsession : vaultStart.afterRound vault = vaultEnd := by
    decide +kernel
  have hround := reached_vaultStart.round
  rwa [hread, hsession] at hround

/-- The file `contracts/sub/B.sol` of the small repository is read, and means `contracts/sub/T.sol`
by its import.  That file is served, but no import leads there. -/
theorem ingestImports_reaches_vault :
    let t := vaultTaken "contracts/sub/B.sol" ["./T.sol"]
    let target := vaultAt "contracts/sub/T.sol"
    vault.parser.StampsOrigins ∧
      Reached vault [vaultFile.location] [vaultTaken "contracts/A.sol" vaultImports] vaultStart ∧
      (∃ coverage q, ingestImports vault 3 ⟨vaultStart, []⟩ = (some coverage, q) ∧
        q.session = vaultEnd ∧ q.session.pending = []) ∧
      Reached vault [vaultFile.location] vaultRead vaultEnd ∧ t ∈ vaultRead ∧
      IsRelative "./T.sol" ∧ wellKnown.has (Path.basename (clean "./T.sol")) = false ∧
      meant? t.location "./T.sol" = some target ∧ vault.serves target = true ∧
      target.key ∉ vaultEnd.ingested ∧
      (¬ ∃ path found, LeadsTo vault vaultRead vaultEnd path found ∧ found.key = target.key) ∧
      ∃ coords, declaredFrom? vaultRead vaultEnd "./T.sol" = some coords ∧
        coords ≠ t.location.coords := by
  intro t target
  obtain ⟨coverage, q, hrun⟩ := ingestImports_completes steady_vault 3 ⟨vaultStart, []⟩
  have hsession : q.session = vaultEnd := by
    rw [← session_vault, hrun]
  have hpending : q.session.pending = [] := by
    rw [hsession]
    decide +kernel
  have hreaches := (ingestImports_reaches stampsOrigins_vault reached_vaultStart hrun hpending).2
  rw [hsession] at hreaches
  obtain ⟨hiff, hmeant⟩ := hreaches vaultRead reached_vaultEnd
  -- the file, its import, and what is meant by it
  have ht : t ∈ vaultRead := by decide +kernel
  have hrelative : IsRelative "./T.sol" := .inl (by decide +kernel)
  have hname : wellKnown.has (Path.basename (clean "./T.sol")) = false := by decide +kernel
  have htarget : meant? t.location "./T.sol" = some target := by decide +kernel
  have hserves : vault.serves target = true := by decide +kernel
  have hmissing : target.key ∉ vaultEnd.ingested := by decide +kernel
  refine ⟨stampsOrigins_vault, reached_vaultStart, ⟨coverage, q, hrun, hsession, hpending⟩,
    reached_vaultEnd, ht, hrelative, hname, htarget, hserves, hmissing,
    fun hleads => hmissing ((hiff target).mpr (.inr hleads)), ?_⟩
  -- the target is missing, so the import was found from another directory first
  exact (hmeant t ht ⟨"./T.sol", "contracts/sub/B.sol"⟩ List.mem_cons_self hrelative hname target
    htarget hserves).resolve_left hmissing

end Import

end CallAtlas

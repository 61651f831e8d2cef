import CallAtlas.Proofs.AppendOnly
import CallAtlas.Proofs.Import.Composition
import CallAtlas.Proofs.Interface.Lookups
import CallAtlas.Proofs.Location

/-!
# Labels of files

A file goes by its path if it comes from the repository of a seed, and by its key otherwise.  Both
kinds of labels fill one table, which keeps the first location of each label.  If all seeds are in
one repository and paths have no `@`, no two locations share a label, so nothing is lost in the
table, whatever brought the files.

* `Location.label_inj`: labels tell locations apart.
* `Placed env home places s`: the files taken in are those at `places`, and the table has each of
  them.
* `Carries env home I s t`: a property `I` passes from `s` to `t` if what was served is clear and
  all seeds are at home.
* `label_identifies`: what holds after any analysis and whatever follows it.
-/

namespace CallAtlas

open Import (Fetched Reference ingest ingestImports)
open Relation (ReflTransGen)

/-! ### Labels and locations -/

namespace Location

/-- Whether a location is plain and cannot be mistaken for a key. -/
def Clear (l : Location) : Prop :=
  l.Plain ∧ '@' ∉ l.path.toList

instance (l : Location) : Decidable l.Clear :=
  inferInstanceAs (Decidable (_ ∧ _))

/-- The label of a file when all seeds are in the repository of `home`. -/
def label (home l : Location) : String :=
  if l.sameBranch home then l.path else l.key

theorem at_mem_key (l : Location) : '@' ∈ l.key.toList := by
  rw [toList_key]
  simp

/-- Locations are told apart by their labels. -/
theorem label_inj {home l m : Location} (hl : l.Clear) (hm : m.Clear) :
    home.label l = home.label m ↔ l = m := by
  refine ⟨fun h => ?_, congrArg home.label⟩
  rw [label, label] at h
  split_ifs at h with hhome hhome' hhome'
  · obtain ⟨howner, hrepo, hbranch⟩ := sameBranch_iff.mp hhome
    obtain ⟨howner', hrepo', hbranch'⟩ := sameBranch_iff.mp hhome'
    rw [Location.mk.injEq]
    exact ⟨howner.trans howner'.symm, hrepo.trans hrepo'.symm, hbranch.trans hbranch'.symm, h⟩
  · -- a key has an `@`, a path has none
    refine absurd m.at_mem_key ?_
    rw [← h]
    exact hl.2
  · refine absurd l.at_mem_key ?_
    rw [h]
    exact hm.2
  · exact (key_inj hl.1 hm.1).mp h

end Location

namespace Session

/-- Whether all seeds are in the repository of `home`. -/
def AtHome (home : Location) (s : Session) : Prop :=
  ∀ l ∈ s.seeds, l.sameBranch home = true

theorem AtHome.fileLabel {home : Location} {s : Session} (h : s.AtHome home) (hne : s.seeds ≠ [])
    (l : Location) : s.fileLabel l = home.label l := by
  have hany : s.seeds.any l.sameBranch = l.sameBranch home := by
    rw [Bool.eq_iff_iff, List.any_eq_true]
    constructor
    · rintro ⟨seed, hseed, hl⟩
      obtain ⟨howner, hrepo, hbranch⟩ := Location.sameBranch_iff.mp hl
      obtain ⟨howner', hrepo', hbranch'⟩ := Location.sameBranch_iff.mp (h seed hseed)
      exact Location.sameBranch_iff.mpr
        ⟨howner.trans howner', hrepo.trans hrepo', hbranch.trans hbranch'⟩
    · intro hl
      obtain ⟨seed, hseed⟩ := List.exists_mem_of_ne_nil _ hne
      obtain ⟨howner, hrepo, hbranch⟩ := Location.sameBranch_iff.mp hl
      obtain ⟨howner', hrepo', hbranch'⟩ := Location.sameBranch_iff.mp (h seed hseed)
      refine ⟨seed, hseed, Location.sameBranch_iff.mpr ?_⟩
      exact ⟨howner.trans howner'.symm, hrepo.trans hrepo'.symm, hbranch.trans hbranch'.symm⟩
  have hempty : s.seeds.isEmpty = false := List.isEmpty_eq_false_iff.mpr hne
  rw [Session.fileLabel, hempty, Bool.false_or, hany]
  rfl

/-- Whether all that was asked for and served is clear. -/
def ServedClear (env : Environment) (s : Session) : Prop :=
  ∀ l ∈ s.asked, env.serves l = true → l.Clear

/-! ### Where files are -/

/-- The files taken in are those at `places`, each under its label, and the imports known were read
in them. -/
structure Placed (env : Environment) (home : Location) (places : List Location) (s : Session) :
    Prop where
  clear : ∀ l ∈ places, l.Clear
  ingested : s.ingested = places.map Location.key
  locations : s.locations = places.map fun l => (home.label l, l)
  seeded : places ≠ [] → s.seeds ≠ []
  read : ∀ entry ∈ s.discovered, ∃ l ∈ places, ∃ content declarations,
    env.fetch l = .ok content ∧ env.parser.parse content (home.label l) = .ok declarations ∧
      entry.2 ∈ declarations.imports

theorem mem_foldl_insertNew {t : Table Reference} {refs : List Reference}
    {entry : String × Reference}
    (h : entry ∈ refs.foldl (fun t ref => t.insertNew ref.path ref) t) :
    entry ∈ t ∨ entry.2 ∈ refs := by
  induction refs generalizing t with
  | nil => exact .inl h
  | cons ref refs ih =>
    rcases ih h with h | h
    · dsimp only at h
      cases hhas : t.has ref.path with
      | true =>
        rw [Table.insertNew_of_has hhas] at h
        exact .inl h
      | false =>
        rw [Table.insertNew_of_not_has hhas, List.mem_append, List.mem_singleton] at h
        rcases h with h | rfl
        · exact .inl h
        · exact .inr List.mem_cons_self
    · exact .inr (List.mem_cons_of_mem _ h)

namespace Placed

variable {env : Environment} {home : Location} {places : List Location} {s t : Session}

theorem fresh (env : Environment) (home : Location) (startedAt : String) :
    Placed env home [] { startedAt := startedAt } where
  clear := nofun
  ingested := rfl
  locations := rfl
  seeded h := absurd rfl h
  read := nofun

theorem congr (hs : Placed env home places s) (hingested : t.ingested = s.ingested)
    (hlocations : t.locations = s.locations) (hdiscovered : t.discovered = s.discovered)
    (hseeds : s.seeds <+: t.seeds) : Placed env home places t where
  clear := hs.clear
  ingested := hingested.trans hs.ingested
  locations := hlocations.trans hs.locations
  seeded h hnil := hs.seeded h (List.prefix_nil.mp (hnil ▸ hseeds))
  read := by
    rw [hdiscovered]
    exact hs.read

/-- The place of a file that is taken in is known by its key. -/
theorem mem_of_key_mem (hs : Placed env home places s) {l : Location} (hl : l.Clear)
    (h : l.key ∈ s.ingested) : l ∈ places := by
  rw [hs.ingested] at h
  obtain ⟨m, hm, hkey⟩ := List.mem_map.mp h
  rw [← (Location.key_inj (hs.clear m hm).1 hl.1).mp hkey]
  exact hm

theorem locationOf?_label (hs : Placed env home places s) {l : Location} (hl : l ∈ places) :
    s.locationOf? (home.label l) = some l := by
  have hhas : s.locations.has (home.label l) = true := by
    rw [Table.has_iff, Table.keys, hs.locations, List.map_map]
    exact List.mem_map_of_mem hl
  rw [← Table.get?_isSome] at hhas
  obtain ⟨m, hm⟩ := Option.isSome_iff_exists.mp hhas
  have hmem := Table.mem_of_get? hm
  rw [hs.locations] at hmem
  obtain ⟨m', hm', heq⟩ := List.mem_map.mp hmem
  obtain ⟨hlabel, rfl⟩ := Prod.mk.inj heq
  rw [locationOf?, hm, (Location.label_inj (hs.clear m' hm') (hs.clear l hl)).mp hlabel]

/-- A clear file that is new gets a label of its own. -/
theorem take (hs : Placed env home places s) (hhome : s.AtHome home) (hne : s.seeds ≠ [])
    {fetched : Fetched} (hclear : fetched.location.Clear)
    (hfetch : env.fetch fetched.location = .ok fetched.content) :
    ∃ places', Placed env home places' (s.take env fetched) := by
  cases hnew : s.ingested.contains fetched.location.key with
  | true =>
    rw [take_of_known hnew]
    exact ⟨places, hs⟩
  | false =>
    have hlabel := hhome.fileLabel hne fetched.location
    have hfree : s.locations.has (home.label fetched.location) = false := by
      rw [Bool.eq_false_iff, Ne, Table.has_iff, Table.keys, hs.locations, List.map_map,
        List.mem_map]
      rintro ⟨l, hl, heq⟩
      -- the file would be known
      rw [← (Location.label_inj (hs.clear l hl) hclear).mp heq, hs.ingested,
        List.contains_iff_mem.mpr (List.mem_map_of_mem hl)] at hnew
      cases hnew
    -- the place is added at the end, with its key and its label
    rw [take_of_new env hnew]
    refine ⟨places ++ [fetched.location], ?_, ?_, ?_, fun _ => hne, ?_⟩
    · intro l hl
      rcases List.mem_append.mp hl with hl | hl
      · exact hs.clear l hl
      · rwa [List.mem_singleton.mp hl]
    · rw [List.map_append, List.map_singleton, hs.ingested]
    · rw [hlabel, Table.insertNew_of_not_has hfree, hs.locations, List.map_append,
        List.map_singleton]
    · intro entry hentry
      rcases mem_foldl_insertNew hentry with hentry | hentry
      · obtain ⟨l, hl, hrest⟩ := hs.read entry hentry
        exact ⟨l, List.mem_append_left _ hl, hrest⟩
      · rcases s.declared_cases env fetched with hempty | hread
        · rw [hempty] at hentry
          cases hentry
        · rw [reading, hlabel] at hread
          exact ⟨fetched.location, List.mem_append_right _ List.mem_cons_self, fetched.content,
            _, hfetch, hread, hentry⟩

end Placed

/-! ### What operations keep -/

/-- Whether the files taken in are at some places, each under its label. -/
def Locatable (env : Environment) (home : Location) (s : Session) : Prop :=
  ∃ places, Placed env home places s

/-- `I` passes from `s` to `t` if all that was served is clear and all seeds are at home. -/
structure Carries (env : Environment) (home : Location) (I : Session → Prop) (s t : Session) :
    Prop where
  asked : s.asked <+: t.asked
  seeds : s.seeds <+: t.seeds
  carry : t.ServedClear env → t.AtHome home → I s → I t

section

variable {env : Environment} {home : Location} {I : Session → Prop} {s t : Session}

theorem ServedClear.of_prefix (h : t.ServedClear env) (hasked : s.asked <+: t.asked) :
    s.ServedClear env :=
  fun l hl => h l (hasked.subset hl)

theorem AtHome.of_prefix (h : t.AtHome home) (hseeds : s.seeds <+: t.seeds) : s.AtHome home :=
  fun l hl => h l (hseeds.subset hl)

instance (env : Environment) (home : Location) (I : Session → Prop) :
    IsPreorder Session (Carries env home I) where
  refl s := ⟨List.prefix_rfl, List.prefix_rfl, fun _ _ h => h⟩
  trans s t u h h' := by
    refine ⟨h.asked.trans h'.asked, h.seeds.trans h'.seeds, fun hclear hhome hs => ?_⟩
    exact h'.carry hclear hhome
      (h.carry (hclear.of_prefix h'.asked) (hhome.of_prefix h'.seeds) hs)

theorem Carries.of_frame (hasked : s.asked <+: t.asked) (hseeds : s.seeds <+: t.seeds)
    (hingested : t.ingested = s.ingested) (hlocations : t.locations = s.locations)
    (hdiscovered : t.discovered = s.discovered) : Carries env home (Locatable env home) s t := by
  refine ⟨hasked, hseeds, ?_⟩
  rintro - - ⟨places, hs⟩
  exact ⟨places, hs.congr hingested hlocations hdiscovered hseeds⟩

/-- Once there is a seed, there always is one. -/
theorem Carries.seeded (h : Carries env home (Locatable env home) s t) :
    Carries env home (fun s => s.Locatable env home ∧ s.seeds ≠ []) s t := by
  refine ⟨h.asked, h.seeds, fun hclear hhome hs => ⟨h.carry hclear hhome hs.1, fun hnil => ?_⟩⟩
  exact hs.2 (List.prefix_nil.mp (hnil ▸ h.seeds))

/-! ### Runs over imports -/

theorem carries_settle (s : Session) (ref : Reference) :
    Carries env home (Locatable env home) s (s.settle env ref) := by
  cases h : s.isSettled ref.path with
  | true =>
    rw [settle, if_pos h]
    exact refl s
  | false =>
    rw [settle_eq env h]
    exact .of_frame (List.prefix_append _ _) List.prefix_rfl rfl rfl rfl

/-- What is fetched for an import was asked for on its behalf. -/
theorem asked_of_fetchedFor? {ref : Reference} {fetched : Fetched}
    (h : s.fetchedFor? env ref = some fetched) :
    fetched.location ∈ (s.settle env ref).asked ∧
      env.fetch fetched.location = .ok fetched.content := by
  cases hsettled : s.isSettled ref.path with
  | true =>
    rw [fetchedFor?, if_pos hsettled] at h
    cases h
  | false =>
    rw [fetchedFor?, if_neg (Bool.eq_false_iff.mp hsettled)] at h
    rw [settle_eq env hsettled]
    cases hclass : Import.classify ref.path with
    | external =>
      rw [hclass] at h
      cases h
    | resolvable =>
      rw [hclass] at h
      -- the first one served is the last one tried
      refine ⟨List.mem_append_right _ ?_, (Environment.firstServed?_eq_some h).2⟩
      rw [triedOn]
      unfold Import.triedFor
      rw [hclass]
      exact Environment.location_mem_tried h

theorem asked_of_mem_fetchedForAll {refs : List Reference} {fetched : Fetched}
    (h : fetched ∈ s.fetchedForAll env refs) :
    fetched.location ∈ (s.settleAll env refs).asked ∧
      env.fetch fetched.location = .ok fetched.content := by
  induction refs generalizing s with
  | nil => cases h
  | cons ref refs ih =>
    rw [fetchedForAll, List.mem_append, Option.mem_toList] at h
    rcases h with h | h
    · obtain ⟨hasked, hfetch⟩ := asked_of_fetchedFor? h
      have hgrows := respects_settleAll (grows_settle env) (s.settle env ref) refs
      exact ⟨hgrows.asked.subset hasked, hfetch⟩
    · exact ih h

theorem locatable_takeAll (hclear : s.ServedClear env) (hhome : s.AtHome home)
    (hne : s.seeds ≠ []) (hs : s.Locatable env home) {files : List Fetched}
    (hfiles : ∀ fetched ∈ files, fetched.location ∈ s.asked ∧
      env.fetch fetched.location = .ok fetched.content) :
    (s.takeAll env files).Locatable env home := by
  induction files generalizing s with
  | nil => exact hs
  | cons first files ih =>
    obtain ⟨places, hs⟩ := hs
    obtain ⟨hasked, hfetch⟩ := hfiles first List.mem_cons_self
    have hfirst := hclear first.location hasked (Environment.serves_of_ok hfetch)
    have hgrows := s.grows_take env first
    have hsame : (s.take env first).asked = s.asked := (s.frame_take env first).2.2.1
    -- taking in the first file asks for nothing and adds no seed
    refine ih (s := s.take env first) ?_ ?_ ?_ (hs.take hhome hne hfirst hfetch) ?_
    · rwa [ServedClear, hsame]
    · rwa [AtHome, hgrows.seeds]
    · rwa [hgrows.seeds]
    · intro fetched hmem
      rw [hsame]
      exact hfiles fetched (List.mem_cons_of_mem _ hmem)

/-- Files are fetched only for imports, and these were read in a file, so there is a seed. -/
theorem carries_withinRound (h : s.WithinRound env t) :
    Carries env home (Locatable env home) s t := by
  have hgrows := h.grows
  refine ⟨hgrows.asked, hgrows.seeds ▸ List.prefix_rfl, fun hclear hhome hs => ?_⟩
  obtain ⟨files, hfiles, rfl⟩ := h
  -- first the imports are settled
  have hsettled := respects_settleAll (R := Carries env home (Locatable env home))
    carries_settle s s.pending
  have hgrows' := respects_takeAll (grows_take env) (s.settleAll env s.pending) files
  have hclear' := hclear.of_prefix hgrows'.asked
  have hhome' : (s.settleAll env s.pending).AtHome home := by rwa [AtHome, ← hgrows'.seeds]
  have hlocatable := hsettled.carry hclear' hhome' hs
  -- then files are taken in, for which there must be an import
  cases hpending : s.pending with
  | nil =>
    rw [hpending, fetchedForAll, List.prefix_nil] at hfiles
    rw [hfiles, ← hpending]
    exact hlocatable
  | cons ref refs =>
    have hne : s.seeds ≠ [] := by
      obtain ⟨places, hplaced⟩ := hs
      have hmem : ref ∈ s.pending := hpending ▸ List.mem_cons_self
      obtain ⟨entry, hentry, -⟩ := List.mem_map.mp hmem
      obtain ⟨l, hl, -⟩ := hplaced.read entry (List.mem_of_mem_filter hentry)
      exact hplaced.seeded (List.ne_nil_of_mem hl)
    rw [← hpending]
    refine locatable_takeAll hclear' hhome' ?_ hlocatable fun fetched hmem =>
      asked_of_mem_fetchedForAll (hfiles.subset hmem)
    exact fun hnil => hne (List.prefix_nil.mp (hnil ▸ hsettled.seeds))

/-! ### Searches -/

theorem carries_lookUp (s : Session) (coords : Coords) (candidate : String) :
    Carries env home (fun s => s.Locatable env home ∧ s.seeds ≠ []) s
      (s.lookUp env coords candidate) := by
  have hgrows := s.grows_lookUp env coords candidate
  refine ⟨hgrows.asked, hgrows.seeds ▸ List.prefix_rfl, fun hclear hhome hs => ?_⟩
  obtain ⟨⟨places, hplaced⟩, hne⟩ := hs
  refine ⟨?_, by rwa [hgrows.seeds]⟩
  have hnoted : Placed env home places (s.noteLookup env coords candidate) :=
    hplaced.congr rfl rfl rfl List.prefix_rfl
  rcases hserved : env.firstServed? (s.implementationLocations coords candidate) with _ | fetched
  · rw [lookUp_of_none hserved]
    exact ⟨places, hnoted⟩
  · have hfetch := (Environment.firstServed?_eq_some hserved).2
    -- what is served was asked for, so it is clear
    have hasked : fetched.location ∈ (s.lookUp env coords candidate).asked := by
      rw [asked_lookUp]
      exact List.mem_append_right _ (Environment.location_mem_tried hserved)
    have hfirst := hclear fetched.location hasked (Environment.serves_of_ok hfetch)
    rw [lookUp_of_some hserved]
    exact hnoted.take (hhome.of_prefix (hgrows.seeds ▸ List.prefix_rfl)) hne hfirst hfetch

/-- A seed is noted before its file is taken in. -/
theorem carries_seed (home : Location) (s : Session) {l : Location} {content : String}
    (hfetch : env.fetch l = .ok content) :
    Carries env home (Locatable env home) s
      (take env { s.noteAsked l with seeds := s.seeds ++ [l] } ⟨l, content⟩) := by
  have hgrows := grows_take env { s.noteAsked l with seeds := s.seeds ++ [l] } ⟨l, content⟩
  have hasked := List.IsPrefix.trans (List.prefix_append s.asked [l]) hgrows.asked
  have hseeds : s.seeds <+: s.seeds ++ [l] := List.prefix_append _ _
  refine ⟨hasked, hgrows.seeds ▸ hseeds, fun hclear hhome hs => ?_⟩
  obtain ⟨places, hplaced⟩ := hs
  have hnoted : Placed env home places { s.noteAsked l with seeds := s.seeds ++ [l] } :=
    hplaced.congr rfl rfl rfl hseeds
  have hmem : l ∈ s.asked ++ [l] := List.mem_append_right _ List.mem_cons_self
  refine hnoted.take (hhome.of_prefix (hgrows.seeds ▸ List.prefix_rfl)) ?_ ?_ hfetch
  · exact List.append_ne_nil_of_right_ne_nil _ (List.cons_ne_nil _ _)
  · exact hclear l (hgrows.asked.subset hmem) (Environment.serves_of_ok hfetch)

end

end Session

/-! ### Whole runs -/

section

variable {env : Environment} {home : Location}

open Session (Carries Locatable)

theorem Import.carries_ingestImports (bound : Int) :
    Run.Respects (Carries env home (Locatable env home)) (ingestImports env bound) :=
  respects_ingestImports (fun _ _ => Session.carries_withinRound) bound

/-- Whether searches fetch makes no difference to what a lookup does. -/
theorem Run.composed_carries (env : Environment) (home : Location) (fetchRemote : Bool) :
    Composed { env with fetchRemote }
      (Respects (Carries env home fun s => s.Locatable env home ∧ s.seeds ≠ [])) := by
  have hlookUp : ∀ (s : Session) (coords : Coords) (candidate : String), candidate ∉ s.lookups →
      Carries env home (fun s => s.Locatable env home ∧ s.seeds ≠ []) s
        (s.lookUp env coords candidate) :=
    fun s coords candidate _ => s.carries_lookUp coords candidate
  refine composed_respects hlookUp ?_
  rintro s t interface binding - h
  refine IsTrans.trans _ _ _ h (Carries.seeded ?_)
  exact .of_frame List.prefix_rfl List.prefix_rfl rfl rfl rfl

namespace Analysis

theorem carries_seed (url : String) :
    Run.Respects (Carries env home (Locatable env home)) (seed env url) := by
  intro p
  unfold seed
  rcases Location.ofUrl url with e | l
  · exact refl p.session
  · dsimp only
    rw [Run.log_bind, Run.fetch_bind]
    rcases hfetch : env.fetch l with e | content
    · exact .of_frame (List.prefix_append _ _) List.prefix_rfl rfl rfl rfl
    · dsimp only
      rw [Run.update_bind]
      have hseed := p.session.carries_seed home hfetch
      rw [← Import.ingest_session env ⟨l, content⟩ ⟨_, p.log ++ _⟩] at hseed
      refine IsTrans.trans _ _ _ hseed (Run.respects_after _ (fun _ => ?_) _)
      refine Run.respects_session.bind fun s => ?_
      split_ifs
      · exact Run.respects_pure _
      · exact Run.respects_pure _

theorem carries_seedAll (urls : List String) :
    Run.Respects (Carries env home (Locatable env home)) (seedAll env urls) := by
  induction urls with
  | nil => exact Run.respects_pure _
  | cons url urls ih =>
    dsimp only [seedAll]
    refine (carries_seed url).bind fun result => ?_
    rcases result with failure | ⟨⟩
    · exact (Run.respects_logAll _).bind fun _ => ih.bind fun _ => Run.respects_pure _
    · exact ih

theorem carries_analyze (urls : List String) (depth : Option Int) :
    Run.Respects (Carries env home (Locatable env home)) (analyze env urls depth) := by
  have hfinish : Run.Respects (Carries env home (Locatable env home)) (finish env depth) := by
    unfold finish
    cases depth with
    | none => exact Run.respects_session.bind fun _ => Run.respects_logAll _
    | some bound =>
      exact (Import.carries_ingestImports bound).bind fun _ =>
        Run.respects_session.bind fun _ => Run.respects_logAll _
  rw [analyze]
  split_ifs
  · exact Run.respects_pure _
  · refine (carries_seedAll urls).bind fun failures => ?_
    split
    · exact Run.respects_pure _
    · exact hfinish.bind fun _ => Run.respects_pure _

end Analysis

/-- What is done with a session that is analyzed: clear files are taken in, imports are settled,
implementations are searched for and trees are built.  Searches may differ in whether they fetch. -/
inductive Continued (env : Environment) : Session → Session → Prop
  | ingest (p : Progress) {fetched : Fetched} (hclear : fetched.location.Clear)
      (hfetch : env.fetch fetched.location = .ok fetched.content) :
      Continued env p.session (ingest env fetched p).2.session
  | ingestImports (p : Progress) (bound : Int) :
      Continued env p.session (ingestImports env bound p).2.session
  | bindingFor (p : Progress) (fetchRemote : Bool) (identifier : String)
      (coords : Option Coords) :
      Continued env p.session
        (Interface.bindingFor { env with fetchRemote } identifier coords p).2.session
  | bindEdges (p : Progress) (fetchRemote : Bool) (edges : List Interface.Edge) :
      Continued env p.session (Interface.bindEdges { env with fetchRemote } edges p).2.session
  | build (p : Progress) (fetchRemote : Bool) (options : CallTree.Options) (e : Entity)
      (bound : Int) :
      Continued env p.session
        (CallTree.build { env with fetchRemote } options e bound p).2.session

theorem Continued.carries {s t : Session} (h : Continued env s t) :
    Carries env home (fun s => s.Locatable env home ∧ s.seeds ≠ []) s t := by
  cases h with
  | @ingest p fetched hclear hfetch =>
    rw [Import.ingest_session]
    have hgrows := p.session.grows_take env fetched
    refine ⟨hgrows.asked, hgrows.seeds ▸ List.prefix_rfl, fun _ hhome hs => ?_⟩
    obtain ⟨⟨places, hplaced⟩, hne⟩ := hs
    refine ⟨?_, by rwa [hgrows.seeds]⟩
    exact hplaced.take (hhome.of_prefix (hgrows.seeds ▸ List.prefix_rfl)) hne hclear hfetch
  | ingestImports p bound => exact (Import.carries_ingestImports bound p).seeded
  | bindingFor p fetchRemote identifier coords =>
    exact (Run.composed_carries env home fetchRemote).bindingFor identifier coords p
  | bindEdges p fetchRemote edges =>
    exact (Run.composed_carries env home fetchRemote).bindEdges edges p
  | build p fetchRemote options e bound =>
    exact (Run.composed_carries env home fetchRemote).build options e bound p

end

/-- **Labels identify locations.**  After the analysis of seeds in one repository, of which at least
one could be fetched, and whatever is done then, if the locations that were asked for and served are
clear: no two clear locations share a label, a file that is taken in is found under its label, and
each import that is known is looked up from where a file lies that has it. -/
theorem label_identifies {env : Environment} {home : Location} {urls : List String}
    {depth : Option Int} {startedAt : String} {log : List Log.Record} {s t : Session}
    (hs : (Analysis.analyze env urls depth ⟨{ startedAt := startedAt }, log⟩).2.session = s)
    (hseeds : s.seeds ≠ []) (hsteps : ReflTransGen (Continued env) s t)
    (hhome : ∀ l ∈ t.seeds, l.sameBranch home = true)
    (hclear : ∀ l ∈ t.asked, env.serves l = true → l.Clear) :
    (∀ l m : Location, l.Clear → m.Clear → (t.fileLabel l = t.fileLabel m ↔ l = m)) ∧
    (∀ l : Location, l.Clear → l.key ∈ t.ingested → t.locationOf? (t.fileLabel l) = some l) ∧
    (env.parser.StampsOrigins → ∀ entry ∈ t.discovered, ∃ l content declarations,
      l.Clear ∧ l.key ∈ t.ingested ∧ env.fetch l = .ok content ∧
      env.parser.parse content (t.fileLabel l) = .ok declarations ∧
      entry.2 ∈ declarations.imports ∧ t.coordsFor? entry.2.origin = some l.coords) := by
  have hanalyzed : Session.Carries env home (Session.Locatable env home)
      { startedAt := startedAt } s :=
    hs ▸ Analysis.carries_analyze urls depth ⟨{ startedAt := startedAt }, log⟩
  -- what the analysis establishes, every later operation carries on
  have hcontinued : Session.Carries env home
      (fun s => s.Locatable env home ∧ s.seeds ≠ []) s t := by
    clear hhome hclear
    induction hsteps with
    | refl => exact refl s
    | tail _ hstep ih => exact IsTrans.trans _ _ _ ih hstep.carries
  have hstart : s.Locatable env home :=
    hanalyzed.carry (Session.ServedClear.of_prefix hclear hcontinued.asked)
      (Session.AtHome.of_prefix hhome hcontinued.seeds) ⟨[], .fresh env home startedAt⟩
  obtain ⟨⟨places, hplaced⟩, hne⟩ := hcontinued.carry hclear hhome ⟨hstart, hseeds⟩
  -- with seeds at home, labels depend on the location only
  have hlabel : ∀ l, t.fileLabel l = home.label l := Session.AtHome.fileLabel hhome hne
  simp only [hlabel]
  refine ⟨fun l m hl hm => Location.label_inj hl hm, ?_, ?_⟩
  · intro l hl hkey
    exact hplaced.locationOf?_label (hplaced.mem_of_key_mem hl hkey)
  · intro hparser entry hentry
    obtain ⟨l, hl, content, declarations, hfetch, hparse, hmem⟩ := hplaced.read entry hentry
    have hkey : l.key ∈ t.ingested := by
      rw [hplaced.ingested]
      exact List.mem_map_of_mem hl
    refine ⟨l, content, declarations, hplaced.clear l hl, hkey, hfetch, hparse, hmem, ?_⟩
    rw [hparser _ _ _ hparse _ hmem, Session.coordsFor?, hplaced.locationOf?_label hl]

/-- A repository that imports a file from each of two libraries, where it has the same path; that
of the second library imports a file next to it. -/
def twoLibraries : Environment where
  fetch l :=
    if l.path = "contracts/A.sol" || l.path = "src/utils/Lib.sol" then .ok l.repo
    else .error (.plain .notFound l)
  parser.parse text file :=
    if text = "vault" then
      .ok { imports := [⟨"solmate/src/utils/Lib.sol", file⟩, ⟨"solady/src/utils/Lib.sol", file⟩] }
    else if text = "solady" then .ok { imports := [⟨"./Bits.sol", file⟩] }
    else .ok {}

/-- The file of that path in the first library. -/
def solmateLib : Location := Import.solmate "src/utils/Lib.sol"

/-- The file of that path in the second library. -/
def soladyLib : Location := Import.solady "src/utils/Lib.sol"

/-- The file that imports them. -/
def vaultA : Location := ⟨"acme", "vault", "main", "contracts/A.sol"⟩

/-- The session after an analysis of that repository with one round of imports. -/
def twoLibrariesEnd : Session where
  seeds := [vaultA]
  discovered := [
    ("solmate/src/utils/Lib.sol", ⟨"solmate/src/utils/Lib.sol", vaultA.path⟩),
    ("solady/src/utils/Lib.sol", ⟨"solady/src/utils/Lib.sol", vaultA.path⟩),
    ("./Bits.sol", ⟨"./Bits.sol", soladyLib.key⟩)]
  processed := [("solmate/src/utils/Lib.sol", solmateLib), ("solady/src/utils/Lib.sol", soladyLib)]
  ingested := [vaultA.key, solmateLib.key, soladyLib.key]
  locations := [(vaultA.path, vaultA), (solmateLib.key, solmateLib), (soladyLib.key, soladyLib)]
  fetchAttempts := 2
  asked := [vaultA, solmateLib, soladyLib]
  parses := 3

theorem analyze_twoLibraries :
    (Analysis.analyze twoLibraries ["https://github.com/acme/vault/blob/main/contracts/A.sol"]
      (some 1) ⟨{ startedAt := "" }, []⟩).2.session = twoLibrariesEnd := by
  decide +kernel

theorem stampsOrigins_twoLibraries : twoLibraries.parser.StampsOrigins := by
  intro text file declarations h ref href
  dsimp only [twoLibraries] at h
  split_ifs at h
  · cases h
    rcases List.mem_cons.mp href with rfl | href
    · rfl
    · rw [List.mem_singleton.mp href]
  · cases h
    rw [List.mem_singleton.mp href]
  · cases h
    cases href

/-- The two files of the same path have different labels, and the import of the second one is looked
up in its own library. -/
theorem label_identifies_twoLibraries :
    twoLibrariesEnd.seeds ≠ [] ∧
      (∀ l ∈ twoLibrariesEnd.seeds, l.sameBranch vaultA = true) ∧
      (∀ l ∈ twoLibrariesEnd.asked, twoLibraries.serves l = true → l.Clear) ∧
      twoLibrariesEnd.fileLabel solmateLib ≠ twoLibrariesEnd.fileLabel soladyLib ∧
      twoLibrariesEnd.locationOf? (twoLibrariesEnd.fileLabel soladyLib) = some soladyLib ∧
      ∃ l content declarations, l.Clear ∧ twoLibraries.fetch l = .ok content ∧
        twoLibraries.parser.parse content (twoLibrariesEnd.fileLabel l) = .ok declarations ∧
        ⟨"./Bits.sol", soladyLib.key⟩ ∈ declarations.imports ∧
        twoLibrariesEnd.coordsFor? soladyLib.key = some l.coords := by
  have hne : twoLibrariesEnd.seeds ≠ [] := List.cons_ne_nil _ _
  have hhome : ∀ l ∈ twoLibrariesEnd.seeds, l.sameBranch vaultA = true := by decide +kernel
  have hclear : ∀ l ∈ twoLibrariesEnd.asked, twoLibraries.serves l = true → l.Clear := by
    decide +kernel
  have hclear' : solmateLib.Clear ∧ soladyLib.Clear := by decide +kernel
  have hdiffer : solmateLib ≠ soladyLib := by decide +kernel
  obtain ⟨hinj, hlocate, hlookup⟩ :=
    label_identifies analyze_twoLibraries hne .refl hhome hclear
  refine ⟨hne, hhome, hclear, fun heq => hdiffer ((hinj _ _ hclear'.1 hclear'.2).mp heq), ?_, ?_⟩
  · exact hlocate soladyLib hclear'.2 (.tail _ (.tail _ (.head _)))
  · obtain ⟨l, content, declarations, hl, -, hfetch, hparse, himport, hcoords⟩ :=
      hlookup stampsOrigins_twoLibraries ("./Bits.sol", ⟨"./Bits.sol", soladyLib.key⟩)
        (.tail _ (.tail _ (.head _)))
    exact ⟨l, content, declarations, hl, hfetch, hparse, himport, hcoords⟩

end CallAtlas

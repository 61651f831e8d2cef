import CallAtlas.Proofs.Import.Effect
import CallAtlas.Source.Declarations

/-!
# The files behind a session

The imports that a session knows come from the files that were taken in and read.  `History env h s`
says that `h` lists these files of `s` in order; nothing is said of how the session came by them or
of what else happened in between.

* `History.discovered_eq`: the imports known are those of the files, the first of each path.
* `History.coordsFor?_eq`: an import is looked up from where the first file that has it lies.

For the latter, a parser has to report the file it reads as the origin of every import.  The parser
that reads with a grammar does (`stampsOrigins_grammarParser`).
-/

namespace CallAtlas

open Import (Fetched Reference)

/-! ### Origins -/

namespace Source

/-- Whether each import that a parser reports has the file it reads as its origin. -/
def Parser.StampsOrigins (parser : Parser) : Prop :=
  ∀ text file declarations, parser.parse text file = .ok declarations →
    ∀ ref ∈ declarations.imports, ref.origin = file

theorem Reading.origin_of_importOf? {r : Reading} {n : Node} {ref : Reference}
    (h : r.importOf? n = some ref) : ref.origin = r.file := by
  rw [Reading.importOf?] at h
  by_cases hn : n.type = "import_directive"
  · rw [if_pos hn] at h
    obtain ⟨source, -, h⟩ := Option.bind_eq_some_iff.mp h
    by_cases hp : Import.clean (r.bytes.text source) = ""
    · rw [if_pos hp] at h
      cases h
    · rw [if_neg hp] at h
      rw [← Option.some.inj h]
  · rw [if_neg hn] at h
    cases h

theorem stampsOrigins_grammarParser (options : ParserOptions)
    (grammar : Except GrammarFault (String → Tree)) :
    (grammarParser options grammar).StampsOrigins := by
  intro text file declarations h ref href
  rcases grammar with fault | grammar
  · cases fault <;> cases h
  · change ofTree options (grammar text) text file = .ok declarations at h
    rw [ofTree] at h
    split_ifs at h
    cases h
    obtain ⟨n, -, hn⟩ := List.mem_filterMap.mp href
    exact Reading.origin_of_importOf? hn

theorem steady_grammarParser (options : ParserOptions) (grammar : String → Tree) :
    (grammarParser options (.ok grammar)).Steady := by
  intro text file h
  change ofTree options (grammar text) text file = .error .broken at h
  rw [ofTree] at h
  split_ifs at h
  cases h

end Source

/-! ### What a file brings -/

namespace Import

/-- A file that was taken in and read: the name it goes by, where it lies, and what it imports. -/
structure Taken where
  file : String
  location : Location
  imports : List Reference
deriving DecidableEq, Repr

/-- Whether a file has an import of `path`. -/
def Taken.declares (path : String) (t : Taken) : Bool :=
  t.imports.any fun ref => ref.path == path

/-- Imports by path, the first of each path. -/
def byPath (refs : List Reference) : Table Reference :=
  (keepFirst Reference.path refs).map fun ref => (ref.path, ref)

theorem keys_byPath (refs : List Reference) :
    (byPath refs).keys = (keepFirst Reference.path refs).map Reference.path := by
  rw [byPath, Table.keys, List.map_map]
  rfl

theorem insertNew_byPath (refs : List Reference) (ref : Reference) :
    (byPath refs).insertNew ref.path ref = byPath (refs ++ [ref]) := by
  have hhas : (byPath refs).has ref.path = true ↔ ref.path ∈ refs.map Reference.path := by
    rw [Table.has_iff, keys_byPath, mem_map_keepFirst]
  have hsingle : keepFirst Reference.path [ref] = [ref] := rfl
  rw [byPath.eq_1 (refs ++ [ref]), keepFirst_append, List.map_append, hsingle]
  by_cases hmem : ref.path ∈ refs.map Reference.path
  · rw [Table.insertNew_of_has (hhas.mpr hmem), List.filter_cons_of_neg (by simpa using hmem)]
    exact (List.append_nil _).symm
  · rw [Table.insertNew_of_not_has (Bool.eq_false_iff.mpr (mt hhas.mp hmem)),
      List.filter_cons_of_pos (by simpa using hmem)]
    rfl

theorem foldl_insertNew_byPath (refs news : List Reference) :
    news.foldl (fun t ref => t.insertNew ref.path ref) (byPath refs) = byPath (refs ++ news) := by
  induction news generalizing refs with
  | nil => rw [List.foldl_nil, List.append_nil]
  | cons ref news ih =>
    rw [List.foldl_cons, insertNew_byPath, ih, List.append_assoc, List.singleton_append]

end Import

namespace Session

open Import (Taken)

theorem foldl_discover (s : Session) (imports : List Reference) :
    imports.foldl discover s =
      { s with
        discovered := imports.foldl (fun t ref => t.insertNew ref.path ref) s.discovered } := by
  induction imports generalizing s with
  | nil => rfl
  | cons ref imports ih => rw [List.foldl_cons, ih, discover, List.foldl_cons]

variable {env : Environment} {s : Session} {fetched : Fetched}

/-- What the parser makes of a file. -/
def reading (env : Environment) (s : Session) (fetched : Fetched) :
    Except Source.ParseFault Source.Declarations :=
  env.parser.parse fetched.content (s.fileLabel fetched.location)

/-- What a file declares and imports: nothing when it cannot be read. -/
def declared (env : Environment) (s : Session) (fetched : Fetched) : Source.Declarations :=
  match s.reading env fetched with
  | .ok declarations => declarations
  | .error _ => {}

/-- The label of a file that is refused. -/
def refused? (env : Environment) (s : Session) (fetched : Fetched) : Option String :=
  match s.reading env fetched with
  | .ok _ => none
  | .error .broken => none
  | .error _ => some (s.fileLabel fetched.location)

theorem declared_of_ok {declarations : Source.Declarations}
    (h : s.reading env fetched = .ok declarations) : s.declared env fetched = declarations := by
  rw [declared, h]

theorem declared_cases (env : Environment) (s : Session) (fetched : Fetched) :
    s.declared env fetched = {} ∨ s.reading env fetched = .ok (s.declared env fetched) := by
  rw [declared]
  cases s.reading env fetched with
  | error fault => exact .inl rfl
  | ok declarations => exact .inr rfl

theorem eq_of_refused? {file : String} (h : s.refused? env fetched = some file) :
    file = s.fileLabel fetched.location := by
  rw [refused?] at h
  split at h
  · cases h
  · cases h
  · exact (Option.some.inj h).symm

/-- What is read when a file is taken in: nothing of a file that is known or refused. -/
def takes (env : Environment) (s : Session) (fetched : Fetched) : List Taken :=
  if s.ingested.contains fetched.location.key then []
  else
    match env.parser.parse fetched.content (s.fileLabel fetched.location) with
    | .error _ => []
    | .ok declarations =>
      [⟨s.fileLabel fetched.location, fetched.location, declarations.imports⟩]

/-- What is read when files are taken in in turn. -/
def takesAll (env : Environment) : Session → List Fetched → List Taken
  | _, [] => []
  | s, fetched :: rest => s.takes env fetched ++ (s.take env fetched).takesAll env rest

theorem take_of_known (h : s.ingested.contains fetched.location.key = true) :
    s.take env fetched = s := by
  rw [take, if_pos h]

theorem takes_of_known (h : s.ingested.contains fetched.location.key = true) :
    s.takes env fetched = [] := by
  rw [takes, if_pos h]

/-- A new file is noted, and what it declares and imports is noted behind what is there. -/
theorem take_of_new (env : Environment)
    (h : s.ingested.contains fetched.location.key = false) :
    s.take env fetched =
      { s with
        repository := s.repository.addAll (s.declared env fetched).entities
        discovered := (s.declared env fetched).imports.foldl
          (fun t ref => t.insertNew ref.path ref) s.discovered
        ingested := s.ingested ++ [fetched.location.key]
        locations := s.locations.insertNew (s.fileLabel fetched.location) fetched.location
        unparsed := s.unparsed ++ (s.refused? env fetched).toList
        parses := s.parses + 1 } := by
  rw [take, declared, refused?, reading, if_neg (Bool.eq_false_iff.mp h)]
  dsimp only
  -- by what the parser makes of the text
  rcases env.parser.parse fetched.content (s.fileLabel fetched.location) with fault | declarations
  · cases fault with
    | broken =>
      rw [Option.toList_none, List.append_nil]
      rfl
    | syntaxError | grammarUnavailable => rfl
  · rw [Option.toList_none, List.append_nil]
    dsimp only
    rw [absorb, foldl_discover]
    rfl

theorem imports_takes (env : Environment)
    (h : s.ingested.contains fetched.location.key = false) :
    (s.takes env fetched).flatMap (·.imports) = (s.declared env fetched).imports := by
  rw [takes, declared, reading, if_neg (Bool.eq_false_iff.mp h)]
  cases env.parser.parse fetched.content (s.fileLabel fetched.location) with
  | error fault => rfl
  | ok declarations => exact List.append_nil _

/-- Taking in a file leaves alone what has become of imports and what was asked for. -/
theorem frame_take (env : Environment) (s : Session) (fetched : Fetched) :
    (s.take env fetched).processed = s.processed ∧ (s.take env fetched).failed = s.failed ∧
      (s.take env fetched).asked = s.asked ∧
      (s.take env fetched).fetchAttempts = s.fetchAttempts := by
  cases h : s.ingested.contains fetched.location.key with
  | true =>
    rw [take_of_known h]
    exact ⟨rfl, rfl, rfl, rfl⟩
  | false =>
    rw [take_of_new env h]
    exact ⟨rfl, rfl, rfl, rfl⟩

theorem lookups_take (env : Environment) (s : Session) (fetched : Fetched) :
    (s.take env fetched).lookups = s.lookups := by
  cases h : s.ingested.contains fetched.location.key with
  | true => rw [take_of_known h]
  | false => rw [take_of_new env h]

/-- A file that is taken in is noted, and no other. -/
theorem mem_ingested_take (env : Environment) (s : Session) (fetched : Fetched) {key : String} :
    key ∈ (s.take env fetched).ingested ↔ key ∈ s.ingested ∨ key = fetched.location.key := by
  cases h : s.ingested.contains fetched.location.key with
  | true =>
    rw [take_of_known h]
    refine ⟨.inl, ?_⟩
    rintro (hmem | rfl)
    · exact hmem
    · exact List.contains_iff_mem.mp h
  | false => rw [take_of_new env h, List.mem_append, List.mem_singleton]

/-- A declaration that is new when a file is taken in is one of that file. -/
theorem mem_entities_take {e : Entity} (he : e ∈ (s.take env fetched).repository.entities) :
    e ∈ s.repository.entities ∨ ∃ declarations,
      env.parser.parse fetched.content (s.fileLabel fetched.location) = .ok declarations ∧
        e ∈ declarations.entities := by
  cases h : s.ingested.contains fetched.location.key with
  | true =>
    rw [take_of_known h] at he
    exact .inl he
  | false =>
    rw [take_of_new env h] at he
    refine (Repository.mem_of_mem_addAll he).imp_right fun he => ?_
    rcases s.declared_cases env fetched with hempty | hread
    · rw [hempty] at he
      cases he
    · exact ⟨_, hread, he⟩

theorem of_mem_takes {t : Taken} (h : t ∈ s.takes env fetched) :
    t.file = s.fileLabel fetched.location ∧ t.location = fetched.location ∧
      (env.parser.StampsOrigins → ∀ ref ∈ t.imports, ref.origin = t.file) := by
  rw [takes] at h
  split_ifs at h
  · cases h
  · rcases hp : env.parser.parse fetched.content (s.fileLabel fetched.location) with fault | d
    · rw [hp] at h
      cases h
    · rw [hp] at h
      rw [List.mem_singleton.mp h]
      exact ⟨rfl, rfl, fun hparser => hparser _ _ _ hp⟩

end Session

/-! ### Histories -/

namespace Import

open Session (takes)

/-- `h` lists the files of a session that were taken in and read, in order.  In between, all may
change but the files that are known and the imports that they brought. -/
inductive History (env : Environment) : List Taken → Session → Prop
  | fresh {s : Session} (hdiscovered : s.discovered = []) (hlocations : s.locations = [])
      (hingested : s.ingested = []) : History env [] s
  | aside {h : List Taken} {s t : Session} (hs : History env h s)
      (hdiscovered : t.discovered = s.discovered) (hlocations : t.locations = s.locations)
      (hingested : t.ingested = s.ingested) : History env h t
  | take {h : List Taken} {s : Session} (fetched : Fetched) (hs : History env h s) :
      History env (h ++ s.takes env fetched) (s.take env fetched)

/-- From where an import is looked up: where the first file of `h` that has it lies. -/
def declaredFrom? (h : List Taken) (s : Session) (path : String) : Option Coords :=
  (h.find? (Taken.declares path)).bind fun t => (s.locationOf? t.file).map Location.coords

namespace History

variable {env : Environment} {h : List Taken} {s : Session}

theorem discovered_eq (hs : History env h s) :
    s.discovered = byPath (h.flatMap (·.imports)) := by
  induction hs with
  | fresh hdiscovered => rw [hdiscovered]; rfl
  | aside hs hdiscovered _ _ ih => rw [hdiscovered, ih]
  | @take h s fetched hs ih =>
    rw [List.flatMap_append, ← foldl_insertNew_byPath, ← ih]
    cases hknown : s.ingested.contains fetched.location.key with
    | true => rw [Session.take_of_known hknown, Session.takes_of_known hknown]; rfl
    | false => rw [Session.take_of_new env hknown, Session.imports_takes env hknown]

theorem map_discovered (hs : History env h s) :
    s.discovered.map Prod.snd = keepFirst Reference.path (h.flatMap (·.imports)) := by
  rw [hs.discovered_eq, byPath, List.map_map]
  exact List.map_id _

theorem keys_discovered (hs : History env h s) :
    s.discovered.keys = (s.discovered.map Prod.snd).map Reference.path := by
  rw [hs.map_discovered, hs.discovered_eq, keys_byPath]

theorem nodup_discovered (hs : History env h s) :
    ((s.discovered.map Prod.snd).map Reference.path).Nodup := by
  rw [hs.map_discovered]
  exact nodup_map_keepFirst _ _

/-- The place and the name of each file are known. -/
theorem of_mem (hs : History env h s) {t : Taken} (ht : t ∈ h) :
    s.locations.has t.file = true ∧ t.location.key ∈ s.ingested ∧
      (env.parser.StampsOrigins → ∀ ref ∈ t.imports, ref.origin = t.file) := by
  induction hs with
  | fresh => cases ht
  | aside hs _ hlocations hingested ih =>
    rw [hlocations, hingested]
    exact ih ht
  | @take h s fetched hs ih =>
    rcases List.mem_append.mp ht with ht | ht
    · -- an earlier file, of which nothing is lost
      obtain ⟨hhas, hkey, horigin⟩ := ih ht
      have hgrows := s.grows_take env fetched
      exact ⟨Table.has_of_prefix hgrows.locations hhas, hgrows.ingested.subset hkey, horigin⟩
    · -- the file taken in now, which is none if its key was there
      obtain ⟨hfile, hlocation, horigin⟩ := Session.of_mem_takes ht
      cases hknown : s.ingested.contains fetched.location.key with
      | true =>
        rw [Session.takes_of_known hknown] at ht
        cases ht
      | false =>
        rw [Session.take_of_new env hknown, hfile, hlocation]
        rw [hfile] at horigin
        exact ⟨Table.has_insertNew _ _ _, List.mem_append_right _ (List.mem_singleton.mpr rfl),
          horigin⟩

/-- An import that is known comes from the first file that has it. -/
theorem exists_taken (hs : History env h s) {path : String} {ref : Reference}
    (href : (path, ref) ∈ s.discovered) :
    ref.path = path ∧ ∃ t ∈ h, h.find? (Taken.declares path) = some t ∧ ref ∈ t.imports := by
  rw [hs.discovered_eq, byPath, List.mem_map] at href
  obtain ⟨ref', hmem, heq⟩ := href
  obtain ⟨rfl, rfl⟩ := Prod.mk.inj heq
  have hfind := find?_of_mem_keepFirst Reference.path hmem
  rw [List.find?_flatMap] at hfind
  -- no file before `t` has an import of this path
  obtain ⟨before, t, after, rfl, ht, hbefore⟩ := List.findSome?_eq_some_iff.mp hfind
  have hmem := List.mem_of_find?_eq_some ht
  refine ⟨rfl, t, List.mem_append_right _ List.mem_cons_self, ?_, hmem⟩
  rw [List.find?_eq_some_iff_append]
  refine ⟨List.any_eq_true.mpr ⟨ref', hmem, beq_self_eq_true _⟩, before, after, rfl, ?_⟩
  intro t' ht'
  rw [Taken.declares, Bool.not_eq_true', List.any_eq_false]
  exact List.find?_eq_none.mp (hbefore t' ht')

/-- The place of the first file that has an import is known. -/
theorem declaredFrom?_of_find? (hs : History env h s) {path : String} {t : Taken}
    (hfind : h.find? (Taken.declares path) = some t) :
    ∃ l, s.locationOf? t.file = some l ∧ declaredFrom? h s path = some l.coords := by
  obtain ⟨hhas, -⟩ := hs.of_mem (List.mem_of_find?_eq_some hfind)
  obtain ⟨l, hl⟩ := Option.isSome_iff_exists.mp (Table.get?_isSome.trans hhas)
  refine ⟨l, hl, ?_⟩
  rw [declaredFrom?, hfind, Option.bind_some, Session.locationOf?, hl, Option.map_some]

/-- Where an import that is known is looked up from. -/
theorem coordsFor?_eq (hs : History env h s) (hparser : env.parser.StampsOrigins) {path : String}
    {ref : Reference} (href : (path, ref) ∈ s.discovered) :
    s.locations.has ref.origin = true ∧ s.coordsFor? ref.origin = declaredFrom? h s path ∧
      (declaredFrom? h s path).isSome := by
  obtain ⟨rfl, t, ht, hfind, hmem⟩ := hs.exists_taken href
  obtain ⟨hhas, -, horigin⟩ := hs.of_mem ht
  obtain ⟨l, hl, hfrom⟩ := hs.declaredFrom?_of_find? hfind
  have hfile := horigin hparser ref hmem
  refine ⟨hfile ▸ hhas, ?_, ?_⟩
  · rw [hfrom, hfile, Session.coordsFor?, hl]
  · rw [hfrom]
    rfl

end History

end Import

end CallAtlas

import CallAtlas.Proofs.Files
import CallAtlas.Proofs.Settings.Merged

/-!
# Saved settings are loaded

What a settings file says after any number of saves, and what is loaded from it then.

* `Says`: the document that a settings file is taken for in a format.  A file that is missing or
  malformed is taken for an empty one, by loading and by saving alike (`load_of_says`,
  `current_of_says`).
* `save_of_fits`, `save_of_not_fits`: a save writes the merged document, or refuses and leaves every
  file as it is.
* `saveAll_merged`: many saves, by induction from what one does.
* `saveAll_reloads`: after many saves the value given last is loaded, unless the file holds a text
  that is neither readable nor malformed.  Nothing is loaded from such a file, and nothing is saved.

The format is any that has no key twice in what it reads (`Format.DistinctKeys`).  That a written
document reads back is asked of the documents that a run writes only (`WritesReadBack`): of a table
that is written, the entries may come back in another order.
-/

namespace CallAtlas.Settings

variable {α ε ω : Type} {format : Format α ε ω} {fs : Files} {path : FilePath}
  {said after : Entries α} {u : Sections α}

/-! ### What a settings file says -/

/-- The document that a settings file is taken for. -/
inductive Says (format : Format α ε ω) (fs : Files) (path : FilePath) : Entries α → Prop
  | absent (hfile : fs.contains path = false) : Says format fs path []
  | malformed {text : String} {fault : ε} (hread : fs.read path = .ok text)
      (hparse : format.parse text = .error fault) (hfault : format.isMalformed fault = true) :
      Says format fs path []
  | document {text : String} {said : Entries α} (hread : fs.read path = .ok text)
      (hparse : format.parse text = .ok said) : Says format fs path said

theorem load_of_says (h : Says format fs path said) :
    (load format fs path).1 = .ok (effective said) := by
  rw [load]
  cases h with
  | absent hfile =>
    rw [hfile]
    rfl
  | malformed hread hparse hfault =>
    rw [if_pos (Files.contains_of_read hread), hread]
    dsimp only
    rw [hparse]
    dsimp only
    rw [if_pos hfault]
    rfl
  | document hread hparse =>
    rw [if_pos (Files.contains_of_read hread), hread]
    dsimp only
    rw [hparse]

theorem current_of_says (h : Says format fs path said) :
    ∃ log, current format fs path = .ok (said, log) := by
  rw [current]
  cases h with
  | absent hfile =>
    rw [hfile]
    exact ⟨_, rfl⟩
  | malformed hread hparse hfault =>
    rw [if_pos (Files.contains_of_read hread), hread]
    dsimp only
    rw [hparse]
    dsimp only
    rw [if_pos hfault]
    exact ⟨_, rfl⟩
  | document hread hparse =>
    rw [if_pos (Files.contains_of_read hread), hread]
    dsimp only
    rw [hparse]
    exact ⟨_, rfl⟩

/-- A file says one thing only. -/
theorem Says.unique {said' : Entries α} (h : Says format fs path said)
    (h' : Says format fs path said') : said = said' := by
  obtain ⟨log, hlog⟩ := current_of_says h
  obtain ⟨log', hlog'⟩ := current_of_says h'
  cases hlog.symm.trans hlog'
  rfl

theorem Says.distinct (hformat : format.DistinctKeys) (h : Says format fs path said) :
    (Value.table said).Distinct := by
  cases h with
  | absent => exact Value.distinct_nil
  | malformed => exact Value.distinct_nil
  | document _ hparse => exact hformat _ _ hparse

/-- A file says something, unless its text has a fault that is no malformation. -/
theorem exists_says_iff (hadmits : fs.Admits path) : (∃ said, Says format fs path said) ↔
    ∀ text fault, fs.read path = .ok text → format.parse text = .error fault →
      format.isMalformed fault = true := by
  constructor
  · rintro ⟨said, hsaid⟩ text fault hread hparse
    cases hsaid with
    | absent hfile =>
      rw [Files.contains_of_read hread] at hfile
      cases hfile
    | malformed hread' hparse' hfault =>
      cases hread.symm.trans hread'
      cases hparse.symm.trans hparse'
      exact hfault
    | document hread' hparse' =>
      cases hread.symm.trans hread'
      cases hparse.symm.trans hparse'
  · -- no file, a document, or a text whose fault is a malformation
    intro hfaults
    rcases hfile : fs.contains path with _ | _
    · exact ⟨[], .absent hfile⟩
    · obtain ⟨text, hread⟩ := hadmits.read_of_contains hfile
      rcases hparse : format.parse text with fault | said
      · exact ⟨[], .malformed hread hparse (hfaults text fault hread hparse)⟩
      · exact ⟨said, .document hread hparse⟩

/-! ### One save -/

/-- Whether a document has a written form that reads back as the same document, but for the order of
entries. -/
def ReadsBack (format : Format α ε ω) (entries : Entries α) : Prop :=
  ∃ text said, format.render entries = .ok text ∧ format.parse text = .ok said ∧
    ∀ name, Alike (Table.get? said name) (Table.get? entries name)

/-- A document that has a written form is written where there can be a file. -/
theorem save_of_merge (hadmits : fs.Admits path) (hsaid : Says format fs path said)
    {merged : Entries α} {text : String} (hmerge : merge said u = .ok merged)
    (hrender : format.render merged = .ok text) :
    (save format fs path u).result = .ok () ∧
      (save format fs path u).files.read path = .ok text := by
  obtain ⟨log, hcurrent⟩ := current_of_says hsaid
  obtain ⟨emptied, hemptied, hwrite⟩ := hadmits.exists_write
  obtain ⟨written, hwritten⟩ := hwrite text
  -- the file is emptied and then written
  have hfile : writeFile format fs path merged = (.ok (), written) := by
    rw [writeFile, hemptied]
    dsimp only
    rw [hrender]
    dsimp only
    rw [hwritten]
  have hsave : save format fs path u = { result := .ok (), files := written, log := log } := by
    rw [save, hcurrent]
    dsimp only
    rw [hmerge]
    dsimp only
    rw [hfile]
  rw [hsave]
  exact ⟨rfl, Files.read_of_write hwritten⟩

theorem save_of_fits (hadmits : fs.Admits path) (hsaid : Says format fs path said)
    (hfits : fits said u = true)
    (hback : ∀ merged, merge said u = .ok merged → ReadsBack format merged) :
    (save format fs path u).result = .ok () ∧ (save format fs path u).files.Admits path ∧
      ∃ after, Says format (save format fs path u).files path after ∧ Merged u said after := by
  obtain ⟨merged, hmerge, hmerged⟩ := merge_of_fits hfits
  obtain ⟨text, after, hrender, hparse, halike⟩ := hback merged hmerge
  obtain ⟨hresult, hread⟩ := save_of_merge hadmits hsaid hmerge hrender
  -- reading back merges nothing more into the document
  have hafter : Merged (u ++ []) said after := hmerged.append (merged_nil_iff.mpr halike)
  rw [List.append_nil] at hafter
  exact ⟨hresult, Files.admits_of_read hread, after, .document hread hparse, hafter⟩

theorem save_of_not_fits (hsaid : Says format fs path said) (hfits : fits said u = false) :
    (save format fs path u).files = fs ∧ ∃ name ∈ u.keys, isOpen said name = false ∧
      (save format fs path u).result = .error (.notATable name) := by
  obtain ⟨log, hcurrent⟩ := current_of_says hsaid
  obtain ⟨name, hname, hclosed, hmerge⟩ := merge_of_not_fits hfits
  have hsave : save format fs path u =
      { result := .error (.notATable name), files := fs, log := log } := by
    rw [save, hcurrent]
    dsimp only
    rw [hmerge]
  rw [hsave]
  exact ⟨rfl, name, hname, hclosed, rfl⟩

/-! ### Many saves -/

/-- The files after saving in turn, whatever came of each save. -/
def saveAll (format : Format α ε ω) (fs : Files) (path : FilePath)
    (updates : List (Sections α)) : Files :=
  updates.foldl (fun fs u => (save format fs path u).files) fs

theorem saveAll_cons (updates : List (Sections α)) : saveAll format fs path (u :: updates) =
    saveAll format (save format fs path u).files path updates :=
  rfl

/-- Whether each document that is written on the way reads back. -/
def WritesReadBack (format : Format α ε ω) (path : FilePath) : Files → List (Sections α) → Prop
  | _, [] => True
  | fs, u :: updates =>
    (∀ said merged, Says format fs path said → merge said u = .ok merged →
      ReadsBack format merged) ∧
      WritesReadBack format path (save format fs path u).files updates

theorem writesReadBack_cons {updates : List (Sections α)} (hsaid : Says format fs path said)
    (hback : ∀ merged, merge said u = .ok merged → ReadsBack format merged)
    (hrest : WritesReadBack format path (save format fs path u).files updates) :
    WritesReadBack format path fs (u :: updates) := by
  refine ⟨fun said' merged hsaid' => ?_, hrest⟩
  obtain rfl := hsaid.unique hsaid'
  exact hback merged

theorem writesReadBack_append (updates updates' : List (Sections α)) :
    WritesReadBack format path fs (updates ++ updates') ↔ WritesReadBack format path fs updates ∧
      WritesReadBack format path (saveAll format fs path updates) updates' := by
  induction updates generalizing fs with
  | nil => exact ⟨fun h => ⟨trivial, h⟩, And.right⟩
  | cons u updates ih =>
    rw [List.cons_append, WritesReadBack, WritesReadBack, ih, and_assoc]
    rfl

/-- The values of the saves that are not refused, in order. -/
def accepted (said : Entries α) (updates : List (Sections α)) : Sections α :=
  (updates.filter (fits said)).flatten

theorem fits_accepted (said : Entries α) (updates : List (Sections α)) :
    fits said (accepted said updates) = true := by
  rw [fits, List.all_eq_true]
  intro name hname
  obtain ⟨entry, hentry, rfl⟩ := List.mem_map.mp hname
  obtain ⟨u, hu, hmem⟩ := List.mem_flatten.mp hentry
  exact List.all_eq_true.mp (List.mem_filter.mp hu).2 entry.1 (List.mem_map_of_mem hmem)

/-- After many saves the file says what was accepted, merged into what it said before. -/
theorem saveAll_merged {updates : List (Sections α)} (hadmits : fs.Admits path)
    (hsaid : Says format fs path said) (hback : WritesReadBack format path fs updates) :
    (saveAll format fs path updates).Admits path ∧
      ∃ after, Says format (saveAll format fs path updates) path after ∧
        Merged (accepted said updates) said after := by
  induction updates generalizing fs said with
  | nil => exact ⟨hadmits, said, hsaid, merged_nil_iff.mpr fun _ => Alike.refl _⟩
  | cons u updates ih =>
    rw [saveAll_cons]
    rcases hfits : fits said u with _ | _
    · -- refused: the run goes on from the same files
      have haccepted : accepted said (u :: updates) = accepted said updates := by
        rw [accepted, List.filter_cons_of_neg (by simp [hfits])]
        rfl
      have hfiles := (save_of_not_fits hsaid hfits).1
      have hrest := hback.2
      rw [hfiles] at hrest ⊢
      rw [haccepted]
      exact ih hadmits hsaid hrest
    · have haccepted : accepted said (u :: updates) = u ++ accepted said updates := by
        rw [accepted, List.filter_cons_of_pos hfits, List.flatten_cons]
        rfl
      obtain ⟨-, hadmits', middle, hmiddle, hmerged⟩ :=
        save_of_fits hadmits hsaid hfits fun merged => hback.1 said merged hsaid
      obtain ⟨hadmits'', after, hafter, hrest⟩ := ih hadmits' hmiddle hback.2
      -- the same updates fit the document in the middle
      have hsame : accepted middle updates = accepted said updates := by
        rw [accepted, hmerged.fits_eq hfits]
        rfl
      rw [hsame] at hrest
      rw [haccepted]
      exact ⟨hadmits'', after, hafter, hmerged.append hrest⟩

/-- What saving in turn does to a file that says `said`.  A save goes through exactly if its values
fit, and else leaves every file as it is.  In the end the file holds the values that were given last
and everything else that it held, and for each known key the value given last is loaded, or else
what was loaded before. -/
structure Reloads (format : Format α ε ω) (fs : Files) (path : FilePath) (said : Entries α)
    (updates : List (Sections α)) : Prop where
  saves : ∀ before u rest, updates = before ++ u :: rest → fits said u = true →
    (save format (saveAll format fs path before) path u).result = .ok ()
  refuses : ∀ before u rest, updates = before ++ u :: rest → fits said u = false →
    (save format (saveAll format fs path before) path u).files = saveAll format fs path before ∧
      ∃ name ∈ u.keys, isOpen said name = false ∧
        (save format (saveAll format fs path before) path u).result = .error (.notATable name)
  file : ∃ after, Says format (saveAll format fs path updates) path after ∧
    Merged (accepted said updates) said after
  loads : ∃ old new, (load format fs path).1 = .ok old ∧
    (load format (saveAll format fs path updates) path).1 = .ok new ∧
      ∀ name key, (setting? (defaults : Sections α) name key).isSome = true →
        Alike (setting? new name key)
          ((lastGiven? (accepted said updates) name key).or (setting? old name key))

/-- The settings in force after a merge. -/
theorem Merged.setting?_effective {updates : Sections α} (h : Merged updates said after)
    (hsaid : (Value.table said).Distinct) (hafter : (Value.table after).Distinct)
    {name key : String} (hknown : (setting? (defaults : Sections α) name key).isSome = true) :
    Alike (setting? (effective after) name key)
      ((lastGiven? updates name key).or (setting? (effective said) name key)) := by
  rw [Settings.setting?_effective hafter hknown, Settings.setting?_effective hsaid hknown,
    ← Option.or_assoc]
  exact (h.setting name key).or (Alike.refl _)

theorem reloads_of_says {updates : List (Sections α)} (hformat : format.DistinctKeys)
    (hadmits : fs.Admits path) (hsaid : Says format fs path said)
    (hback : WritesReadBack format path fs updates) :
    Reloads format fs path said updates where
  saves := by
    rintro before u rest rfl hfits
    -- a save finds what the saves before it left, and that has the same tables
    obtain ⟨hbefore, hback⟩ := (writesReadBack_append _ _).mp hback
    obtain ⟨hadmits, middle, hmiddle, hmerged⟩ := saveAll_merged hadmits hsaid hbefore
    rw [← hmerged.fits_eq (fits_accepted said before)] at hfits
    exact (save_of_fits hadmits hmiddle hfits fun merged => hback.1 middle merged hmiddle).1
  refuses := by
    rintro before u rest rfl hfits
    obtain ⟨hbefore, -⟩ := (writesReadBack_append _ _).mp hback
    obtain ⟨-, middle, hmiddle, hmerged⟩ := saveAll_merged hadmits hsaid hbefore
    have haccepted := fits_accepted said before
    rw [← hmerged.fits_eq haccepted] at hfits
    obtain ⟨hfiles, name, hname, hclosed, hresult⟩ := save_of_not_fits hmiddle hfits
    rw [hmerged.isOpen_eq haccepted] at hclosed
    exact ⟨hfiles, name, hname, hclosed, hresult⟩
  file := (saveAll_merged hadmits hsaid hback).2
  loads := by
    obtain ⟨-, after, hafter, hmerged⟩ := saveAll_merged hadmits hsaid hback
    refine ⟨effective said, effective after, load_of_says hsaid, load_of_says hafter, ?_⟩
    intro name key hknown
    exact hmerged.setting?_effective (hsaid.distinct hformat) (hafter.distinct hformat) hknown

/-! ### Texts that are neither readable nor malformed -/

theorem load_of_fault {text : String} {fault : ε} (hread : fs.read path = .ok text)
    (hparse : format.parse text = .error fault) (hfault : format.isMalformed fault = false) :
    (load format fs path).1 = .error fault := by
  rw [load, if_pos (Files.contains_of_read hread), hread]
  dsimp only
  rw [hparse]
  dsimp only
  rw [hfault]
  rfl

theorem save_of_fault {text : String} {fault : ε} (hread : fs.read path = .ok text)
    (hparse : format.parse text = .error fault) (hfault : format.isMalformed fault = false)
    (u : Sections α) :
    save format fs path u = { result := .error (.unreadable fault), files := fs } := by
  have hcurrent : current format fs path = .error (.unreadable fault) := by
    rw [current, if_pos (Files.contains_of_read hread), hread]
    dsimp only
    rw [hparse]
    dsimp only
    rw [hfault]
    rfl
  rw [save, hcurrent]

theorem saveAll_of_fault {text : String} {fault : ε} (hread : fs.read path = .ok text)
    (hparse : format.parse text = .error fault) (hfault : format.isMalformed fault = false)
    (updates : List (Sections α)) : saveAll format fs path updates = fs := by
  induction updates with
  | nil => rfl
  | cons u updates ih =>
    rw [saveAll_cons, save_of_fault hread hparse hfault]
    exact ih

/-- Saved settings are loaded, exactly if the text of the file is readable or malformed or there is
no file.  Otherwise nothing is loaded, no save goes through, and the files stay as they are. -/
theorem saveAll_reloads (format : Format α ε ω) (fs : Files) (path : FilePath)
    (updates : List (Sections α)) (hformat : format.DistinctKeys) (hadmits : fs.Admits path)
    (hback : WritesReadBack format path fs updates) :
    ((∃ said, Says format fs path said ∧ Reloads format fs path said updates) ↔
      ∀ text fault, fs.read path = .ok text → format.parse text = .error fault →
        format.isMalformed fault = true) ∧
    ∀ text fault, fs.read path = .ok text → format.parse text = .error fault →
      format.isMalformed fault = false →
        (load format fs path).1 = .error fault ∧ saveAll format fs path updates = fs ∧
          ∀ u, save format fs path u = { result := .error (.unreadable fault), files := fs } := by
  refine ⟨?_, fun text fault hread hparse hfault => ?_⟩
  · rw [← exists_says_iff hadmits]
    constructor
    · rintro ⟨said, hsaid, -⟩
      exact ⟨said, hsaid⟩
    · rintro ⟨said, hsaid⟩
      exact ⟨said, hsaid, reloads_of_says hformat hadmits hsaid hback⟩
  · exact ⟨load_of_fault hread hparse hfault, saveAll_of_fault hread hparse hfault updates,
      save_of_fault hread hparse hfault⟩

/-- The settings file of a working directory. -/
def workFile : FilePath := .ofText "config.toml"

def workFiles (text : String) : Files where
  contents := [(["work", "config.toml"], text)]

/-- Settings with a plain value. -/
def workText : String := "beta = true\n"

/-- What the settings say, with a plain value and a section. -/
def workSaid (values : Toml.Entries) : Toml.Entries :=
  [("beta", .bool true), ("github", .table values)]

def workHosts : String × Toml.Value := ("hosts", .table [("ci", .bool true)])

/-- Two saves into a section, and between them one into a missing section and the plain value. -/
def workUpdates : List (Sections Empty) :=
  [[("github", [workHosts, ("token", .text "a")])],
    [("analysis", [("include_source", .bool false)]), ("beta", [("on", .bool true)])],
    [("github", [("token", .text "b")])]]

/-- The text that the first save leaves, in which the table below the section comes last. -/
def firstText : String :=
  "beta = true\n\n[github]\ntoken = \"a\"\n\n[github.hosts]\nci = true\n"

def lastText : String :=
  "beta = true\n\n[github]\ntoken = \"b\"\n\n[github.hosts]\nci = true\n"

theorem alike_workSaid (name : String) :
    Alike (Table.get? (workSaid [("token", .text "a"), workHosts]) name)
      (Table.get? (workSaid [workHosts, ("token", .text "a")]) name) := by
  simp only [workSaid, Table.get?_cons]
  split_ifs
  · exact Alike.refl _
  · refine alike_table fun key => ?_
    simp only [workHosts, Table.get?_cons]
    split_ifs <;> simp_all [Alike.refl]
  · exact Alike.refl _

theorem admits_workFiles (text : String) : (workFiles text).Admits workFile :=
  ⟨_, rfl⟩

theorem says_workFiles : Says Toml.format (workFiles workText) workFile [("beta", .bool true)] :=
  .document rfl rfl

theorem writesReadBack_workUpdates :
    WritesReadBack Toml.format workFile (workFiles workText) workUpdates := by
  have hmerge : merge [("beta", .bool true)] [("github", [workHosts, ("token", .text "a")])] =
      .ok (workSaid [workHosts, ("token", .text "a")]) := rfl
  have hrender : Toml.format.render (workSaid [workHosts, ("token", .text "a")]) = .ok firstText :=
    rfl
  have hparse : Toml.format.parse firstText = .ok (workSaid [("token", .text "a"), workHosts]) :=
    rfl
  have hsaved :=
    Says.document (save_of_merge (admits_workFiles _) says_workFiles hmerge hrender).2 hparse
  refine writesReadBack_cons says_workFiles (fun merged hmerged => ?_) ?_
  · cases hmerge.symm.trans hmerged
    exact ⟨firstText, _, hrender, hparse, alike_workSaid⟩
  refine writesReadBack_cons hsaved (fun merged hmerged => ?_) ?_
  · cases hmerged
  -- the second save is refused, so the third finds what the first left
  rw [(save_of_not_fits hsaved rfl).1]
  refine writesReadBack_cons hsaved (fun merged hmerged => ?_) trivial
  have hmerge : merge (workSaid [("token", .text "a"), workHosts])
      [("github", [("token", .text "b")])] = .ok (workSaid [("token", .text "b"), workHosts]) := rfl
  cases hmerge.symm.trans hmerged
  exact ⟨lastText, workSaid [("token", .text "b"), workHosts], rfl, rfl, fun _ => Alike.refl _⟩

/-- Settings in which a table is opened below a plain value. -/
def faultyText : String := "a = 1\n[a.b]\n"

def depthUpdate : Sections Empty :=
  [("analysis", [("call_depth", .int 5)])]

theorem writesReadBack_faultyText :
    WritesReadBack Toml.format workFile (workFiles faultyText) [depthUpdate] := by
  refine ⟨fun said merged hsaid => ?_, trivial⟩
  have hfault := (exists_says_iff (admits_workFiles _)).mp ⟨said, hsaid⟩
  cases hfault faultyText .notATable rfl rfl

theorem saveAll_reloads_workFiles : Toml.format.DistinctKeys ∧
    ((workFiles workText).Admits workFile ∧
      WritesReadBack Toml.format workFile (workFiles workText) workUpdates ∧
      Reloads Toml.format (workFiles workText) workFile [("beta", .bool true)] workUpdates ∧
      workUpdates.map (fits [("beta", .bool true)]) = [true, false, true]) ∧
    (workFiles faultyText).Admits workFile ∧
      WritesReadBack Toml.format workFile (workFiles faultyText) [depthUpdate] ∧
      (load Toml.format (workFiles faultyText) workFile).1 = .error .notATable ∧
      (save Toml.format (workFiles faultyText) workFile depthUpdate).result =
        .error (.unreadable .notATable) := by
  have hformat := Toml.distinctKeys_format
  have hadmits := admits_workFiles workText
  have hadmits' := admits_workFiles faultyText
  obtain ⟨said, hsaid, hreloads⟩ :=
    (saveAll_reloads _ _ _ _ hformat hadmits writesReadBack_workUpdates).1.mpr
      ((exists_says_iff hadmits).mp ⟨_, says_workFiles⟩)
  obtain rfl := says_workFiles.unique hsaid
  obtain ⟨hload, -, hsave⟩ :=
    (saveAll_reloads _ _ _ _ hformat hadmits' writesReadBack_faultyText).2 faultyText .notATable
      rfl rfl rfl
  exact ⟨hformat, ⟨hadmits, writesReadBack_workUpdates, hreloads, rfl⟩, hadmits',
    writesReadBack_faultyText, hload, by rw [hsave]⟩

end CallAtlas.Settings

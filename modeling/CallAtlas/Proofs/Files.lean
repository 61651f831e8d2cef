import CallAtlas.Files
import Mathlib.Data.List.Basic
import Mathlib.Tactic.Tauto

/-!
# Reading back what was written

* `walk_of_directories`: a way through directories that exist stays open, whatever else there is.
* `walk_made`: directories that are made can be walked through.
* `read_of_write`: a file reads as what was written to it.
* `Admits`: a file can be written at a path, in directories that are made for it.  A file that is
  there can be written again (`admits_of_read`).
-/

namespace CallAtlas.Files

variable {fs gs : Files} {path : FilePath} {here rest directory file : List String}
  {content : String}

/-! ### Walking -/

/-- The place that a segment of a path leads to. -/
def onward (here : List String) (name : String) : List String :=
  if name = ".." then here.dropLast else here ++ [name]

theorem walk_cons (make : Bool) (fs : Files) (here : List String) (name : String)
    (rest : List String) :
    walk make fs here (name :: rest) =
      if fs.isDirectory (onward here name) then walk make fs (onward here name) rest
      else if (fs.contentAt? (onward here name)).isSome then
        .error (if make && rest.isEmpty then .exists else .notDirectory)
      else if make then
        walk make { fs with directories := fs.directories ++ [onward here name] }
          (onward here name) rest
      else .error .notFound := rfl

/-- A way through directories is open wherever these exist, and none is made. -/
theorem walk_of_directories (h : walk false fs here rest = .ok (fs, directory))
    (hdirectories : ∀ p, fs.isDirectory p = true → gs.isDirectory p = true) (make : Bool) :
    walk make gs here rest = .ok (gs, directory) := by
  induction rest generalizing here with
  | nil =>
    cases h
    rfl
  | cons name rest ih =>
    rw [walk_cons, if_neg Bool.false_ne_true] at h
    split_ifs at h with hnext
    rw [walk_cons, if_pos (hdirectories _ hnext)]
    exact ih h

theorem eq_of_walk (h : walk false fs here rest = .ok (gs, directory)) : gs = fs := by
  induction rest generalizing here with
  | nil =>
    cases h
    rfl
  | cons name rest ih =>
    rw [walk_cons, if_neg Bool.false_ne_true] at h
    split_ifs at h
    exact ih h

theorem walk_ne_isDirectory (make : Bool) (fs : Files) (here rest : List String) :
    walk make fs here rest ≠ .error .isDirectory := by
  induction rest generalizing fs here with
  | nil => simp [walk]
  | cons name rest ih =>
    rw [walk_cons]
    split_ifs
    · exact ih fs _
    · simp
    · simp
    · exact ih _ _
    · simp

/-- Directories that are made can be walked through; all that was there stays. -/
theorem walk_made (h : walk true fs here rest = .ok (gs, directory)) :
    (∀ p, fs.isDirectory p = true → gs.isDirectory p = true) ∧ gs.working = fs.working ∧
      gs.contents = fs.contents ∧ walk false gs here rest = .ok (gs, directory) := by
  induction rest generalizing fs here with
  | nil =>
    cases h
    exact ⟨fun _ => id, rfl, rfl, rfl⟩
  | cons name rest ih =>
    rw [walk_cons] at h ⊢
    split_ifs at h with hnext
    · obtain ⟨hkept, hworking, hcontents, hwalk⟩ := ih h
      rw [if_pos (hkept _ hnext)]
      exact ⟨hkept, hworking, hcontents, hwalk⟩
    · obtain ⟨hkept, hworking, hcontents, hwalk⟩ := ih h
      -- the new directory is the place that the walk goes on from
      have hmade : ∀ p, fs.isDirectory p = true ∨ p = onward here name →
          gs.isDirectory p = true := by
        intro p hp
        apply hkept
        simp only [isDirectory, Bool.or_eq_true, List.contains_iff_mem, List.mem_append,
          List.mem_singleton] at hp ⊢
        tauto
      rw [if_pos (hmade _ (.inr rfl))]
      exact ⟨fun p hp => hmade p (.inl hp), hworking, hcontents, hwalk⟩

/-! ### Reading and writing -/

theorem target_of_walk_error {e : FileError}
    (h : walk false fs (fs.start path) path.segments.dropLast = .error e) :
    fs.target path = .error e := by
  rw [target, h]
  rfl

theorem target_of_walk (h : walk false fs (fs.start path) path.segments.dropLast =
      .ok (gs, directory)) :
    fs.target path = path.segments.getLast?.elim (.error .isDirectory) fun name =>
      if fs.isDirectory (onward directory name) then .error .isDirectory
      else .ok (onward directory name) := by
  rw [target, h]
  rcases path.segments.getLast? with _ | name
  · rfl
  · rfl

/-- The place of a file: its name, onward from a directory that exists, and no directory itself. -/
theorem target_eq_ok : fs.target path = .ok file ↔
    ∃ directory name, walk false fs (fs.start path) path.segments.dropLast = .ok (fs, directory) ∧
      path.segments.getLast? = some name ∧ file = onward directory name ∧
      fs.isDirectory file = false := by
  constructor
  · intro h
    rcases hwalk : walk false fs (fs.start path) path.segments.dropLast with e | ⟨gs, directory⟩
    · rw [target_of_walk_error hwalk] at h
      cases h
    · rw [target_of_walk hwalk] at h
      obtain rfl := eq_of_walk hwalk
      rcases hname : path.segments.getLast? with _ | name
      · rw [hname] at h
        cases h
      · rw [hname, Option.elim_some] at h
        split_ifs at h with hfile
        cases h
        exact ⟨directory, name, rfl, rfl, rfl, by simpa using hfile⟩
  · rintro ⟨directory, name, hwalk, hname, rfl, hfile⟩
    rw [target_of_walk hwalk, hname, Option.elim_some, hfile, if_neg Bool.false_ne_true]

/-- Where there are the same directories, a path leads to the same place. -/
theorem target_of_directories (h : fs.target path = .ok file)
    (hdirectories : gs.directories = fs.directories) (hworking : gs.working = fs.working) :
    gs.target path = .ok file := by
  have hsame : gs.isDirectory = fs.isDirectory := by
    funext p
    rw [isDirectory, isDirectory, hdirectories]
  have hstart : gs.start path = fs.start path := by
    rw [start, start, hworking]
  obtain ⟨directory, name, hwalk, hname, hfile, hplain⟩ := target_eq_ok.mp h
  refine target_eq_ok.mpr ⟨directory, name, ?_, hname, hfile, by rw [hsame, hplain]⟩
  rw [hstart]
  exact walk_of_directories hwalk (fun p hp => by rw [hsame, hp]) false

theorem write_eq_ok : fs.write path content = .ok gs ↔ ∃ file, fs.target path = .ok file ∧
    gs = { fs with
      contents := (fs.contents.filter fun entry => entry.1 != file) ++ [(file, content)] } := by
  unfold write
  rcases fs.target path with e | file
  · constructor
    · intro h
      cases h
    · rintro ⟨_, h, -⟩
      cases h
  · constructor
    · intro h
      cases h
      exact ⟨file, rfl, rfl⟩
    · rintro ⟨_, h, rfl⟩
      cases h
      rfl

theorem read_eq_ok : fs.read path = .ok content ↔
    ∃ file, fs.target path = .ok file ∧ fs.contentAt? file = some content := by
  unfold read
  rcases fs.target path with e | file
  · constructor
    · intro h
      cases h
    · rintro ⟨_, h, -⟩
      cases h
  · dsimp only [Bind.bind, Except.bind]
    constructor
    · intro h
      rcases hcontent : fs.contentAt? file with _ | text
      · rw [hcontent] at h
        cases h
      · rw [hcontent] at h
        cases h
        exact ⟨file, rfl, hcontent⟩
    · rintro ⟨_, h, hcontent⟩
      cases h
      rw [hcontent]
      rfl

theorem target_of_read_isDirectory (h : fs.read path = .error .isDirectory) :
    fs.target path = .error .isDirectory := by
  rw [read] at h
  rcases htarget : fs.target path with e | file
  · rw [htarget] at h
    cases h
    rfl
  · rw [htarget] at h
    dsimp only [Bind.bind, Except.bind] at h
    rcases hcontent : fs.contentAt? file with _ | text
    · rw [hcontent] at h
      cases h
    · rw [hcontent] at h
      cases h

/-- A file reads as what was written to it. -/
theorem read_of_write (h : fs.write path content = .ok gs) : gs.read path = .ok content := by
  obtain ⟨file, hfile, rfl⟩ := write_eq_ok.mp h
  refine read_eq_ok.mpr ⟨file, target_of_directories hfile rfl rfl, ?_⟩
  have hothers : (fs.contents.filter fun entry => entry.1 != file).lookup file = none := by
    rw [List.lookup_eq_none_iff]
    intro entry hentry
    have hne : entry.1 ≠ file := by simpa using (List.mem_filter.mp hentry).2
    exact bne_iff_ne.mpr (Ne.symm hne)
  show List.lookup file (_ ++ [(file, content)]) = some content
  rw [List.lookup_append, hothers, Option.none_or, List.lookup_cons, beq_self_eq_true]

theorem contains_of_read (h : fs.read path = .ok content) : fs.contains path = true := by
  rw [contains, h]

/-! ### Where a file can be -/

/-- Whether a file can be written at a path, in directories that are made for it. -/
def Admits (fs : Files) (path : FilePath) : Prop :=
  ∃ gs, ((fs.makeDirectory path.parent).bind fun fs => fs.write path "") = .ok gs

theorem makeDirectory_eq_ok : fs.makeDirectory path = .ok gs ↔
    ∃ directory, walk true fs (fs.start path) path.segments = .ok (gs, directory) := by
  rw [makeDirectory]
  rcases walk true fs (fs.start path) path.segments with e | ⟨made, directory⟩
  · simp [Except.map]
  · simp [Except.map]

/-- A file that is there can be written again, and its directories are not made. -/
theorem makeDirectory_of_target (h : fs.target path = .ok file) :
    fs.makeDirectory path.parent = .ok fs := by
  obtain ⟨directory, name, hwalk, -⟩ := target_eq_ok.mp h
  exact makeDirectory_eq_ok.mpr ⟨directory, walk_of_directories hwalk (fun _ => id) true⟩

theorem admits_of_read (h : fs.read path = .ok content) : fs.Admits path := by
  obtain ⟨file, hfile, -⟩ := read_eq_ok.mp h
  obtain ⟨gs, hgs⟩ : ∃ gs, fs.write path "" = .ok gs := ⟨_, write_eq_ok.mpr ⟨file, hfile, rfl⟩⟩
  refine ⟨gs, ?_⟩
  rw [makeDirectory_of_target hfile]
  exact hgs

/-- Where a file can be written, it is written. -/
theorem Admits.exists_write (h : fs.Admits path) : ∃ emptied,
    ((fs.makeDirectory path.parent).bind fun fs => fs.write path "") = .ok emptied ∧
      ∀ content, ∃ gs, emptied.write path content = .ok gs := by
  obtain ⟨emptied, hemptied⟩ := h
  refine ⟨emptied, hemptied, fun content => ?_⟩
  rcases hmade : fs.makeDirectory path.parent with e | made
  · rw [hmade] at hemptied
    cases hemptied
  · rw [hmade] at hemptied
    obtain ⟨file, hfile, -⟩ := read_eq_ok.mp (read_of_write hemptied)
    exact ⟨_, write_eq_ok.mpr ⟨file, hfile, rfl⟩⟩

theorem Admits.read_ne_isDirectory (h : fs.Admits path) : fs.read path ≠ .error .isDirectory := by
  intro hread
  have htarget := target_of_read_isDirectory hread
  obtain ⟨emptied, hemptied⟩ := h
  rcases hmade : fs.makeDirectory path.parent with e | made
  · rw [hmade] at hemptied
    cases hemptied
  · rw [hmade] at hemptied
    obtain ⟨file, hfile, -⟩ := write_eq_ok.mp hemptied
    obtain ⟨directory, name, hwalk, hname, rfl, hplain⟩ := target_eq_ok.mp hfile
    obtain ⟨directory', hwalk'⟩ := makeDirectory_eq_ok.mp hmade
    obtain ⟨hkept, hworking, -, -⟩ := walk_made hwalk'
    have hstart : made.start path = fs.start path := by
      rw [start, start, hworking]
    -- a directory at the place of the file would still be there when the others are made
    rcases hbefore : walk false fs (fs.start path) path.segments.dropLast with e | ⟨gs, before⟩
    · rw [target_of_walk_error hbefore] at htarget
      cases htarget
      exact walk_ne_isDirectory _ _ _ _ hbefore
    · obtain rfl := eq_of_walk hbefore
      have hafter := walk_of_directories hbefore hkept false
      rw [← hstart, hwalk] at hafter
      cases hafter
      rw [target_of_walk hbefore, hname, Option.elim_some] at htarget
      split_ifs at htarget with hdirectory
      rw [hkept _ hdirectory] at hplain
      cases hplain

/-- Where a file can be written there is a file or nothing. -/
theorem Admits.read_of_contains (h : fs.Admits path) (hcontains : fs.contains path = true) :
    ∃ content, fs.read path = .ok content := by
  rw [contains] at hcontains
  rcases hread : fs.read path with e | content
  · rw [hread] at hcontains
    cases e with
    | isDirectory => exact absurd hread h.read_ne_isDirectory
    | notFound => cases hcontains
    | notDirectory => cases hcontains
    | «exists» => cases hcontains
  · exact ⟨content, rfl⟩

end CallAtlas.Files

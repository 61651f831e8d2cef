import CallAtlas.Proofs.Settings.Distinct
import CallAtlas.Settings

/-!
# Merging values into settings

Saving merges values into what the settings file says, and loading lays the values of known keys
over the defaults.  Both are told by looking up one setting at a time, since the order in which a
file has its entries is not kept by writing it.

* `Alike`: what is looked up is the same but for the order of entries.
* `lastGiven?`: the value that is given last for a setting.
* `Merged`: what a document says after values were merged into it.  Documents can be merged into one
  after the other (`Merged.append`).
* `fits`: whether values go into sections that are tables or missing.  Exactly such values are
  merged (`merge_of_fits`, `merge_of_not_fits`).
* `setting?_effective`: the settings in force for a document.
-/

namespace CallAtlas

namespace Table

variable {α : Type} {t : Table α} {k : String}

/-- The entry that is set last counts. -/
theorem get?_insertAll (t u : Table α) (k : String) :
    (t.insertAll u).get? k = (u.reverse.lookup k).or (t.get? k) := by
  induction u generalizing t with
  | nil => rfl
  | cons entry u ih =>
    have hstep : t.insertAll (entry :: u) = (t.insert entry.1 entry.2).insertAll u := rfl
    rw [hstep, ih, get?_insert, List.reverse_cons, List.lookup_append, Option.or_assoc]
    congr 1
    have hentry : List.lookup k [entry] = if k = entry.1 then some entry.2 else none := get?_cons
    rw [hentry]
    split_ifs
    · rfl
    · rfl

theorem get?_map {β : Type} (t : Table α) (f : String → α → β) (k : String) :
    Table.get? (t.map fun entry => (entry.1, f entry.1 entry.2)) k = (t.get? k).map (f k) := by
  induction t with
  | nil => rfl
  | cons entry t ih =>
    rw [List.map_cons, get?_cons, get?_cons]
    split_ifs with hk
    · rw [hk]
      rfl
    · exact ih

/-- Where keys are distinct, there is one value to find. -/
theorem get?_eq_some_iff_mem (h : t.keys.Nodup) {v : α} : t.get? k = some v ↔ (k, v) ∈ t := by
  refine ⟨mem_of_get?, fun hmem => ?_⟩
  induction t with
  | nil => cases hmem
  | cons entry t ih =>
    obtain ⟨hnew, hkeys⟩ := List.nodup_cons.mp h
    rw [get?_cons]
    rcases List.mem_cons.mp hmem with rfl | hmem
    · rw [if_pos rfl]
    · have hne : k ≠ entry.1 := fun heq => hnew (heq ▸ List.mem_map_of_mem hmem)
      rw [if_neg hne]
      exact ih hkeys hmem

end Table

namespace Settings

variable {α : Type}

/-! ### Values but for the order of entries -/

/-- What stands at a path below a value, a table without its entries. -/
def Value.at? : (path : List String) → Value α → Option (Value α)
  | [], table _ => some (table [])
  | [], v => some v
  | key :: path, table entries => (Table.get? entries key).bind (at? path)
  | _ :: _, _ => none

/-- Whether what is looked up is the same at every path, whatever the order of entries is. -/
def Alike (v w : Option (Value α)) : Prop :=
  ∀ path, v.bind (Value.at? path) = w.bind (Value.at? path)

section

variable {v w x v' w' : Option (Value α)} {entries : Entries α}

theorem Alike.refl (v : Option (Value α)) : Alike v v :=
  fun _ => rfl

theorem Alike.trans (h : Alike v w) (h' : Alike w x) : Alike v x :=
  fun path => (h path).trans (h' path)

theorem Value.isSome_at?_nil (v : Value α) : (v.at? []).isSome = true := by
  cases v <;> rfl

theorem Alike.isSome (h : Alike v w) : v.isSome = w.isSome := by
  have hroot := congrArg Option.isSome (h [])
  rcases v with _ | v <;> rcases w with _ | w <;> simp_all [Value.isSome_at?_nil]

theorem Alike.or (h : Alike v w) (h' : Alike v' w') : Alike (v.or v') (w.or w') := by
  have hsome := h.isSome
  rcases v with _ | v <;> rcases w with _ | w
  · exact h'
  · cases hsome
  · cases hsome
  · exact h

theorem Value.all_isTable_at?_nil (v : Value α) : (v.at? []).all isTable = v.isTable := by
  cases v <;> rfl

theorem Alike.all_isTable (h : Alike v w) : v.all Value.isTable = w.all Value.isTable := by
  -- at the root a table is shown as a table, anything else as it is
  have hroot := congrArg (Option.all Value.isTable) (h [])
  have hsome := h.isSome
  rcases v with _ | v <;> rcases w with _ | w
  · rfl
  · cases hsome
  · cases hsome
  · rw [Option.bind_some, Option.bind_some, Value.all_isTable_at?_nil,
      Value.all_isTable_at?_nil] at hroot
    exact hroot

theorem alike_table {entries' : Entries α}
    (h : ∀ key, Alike (Table.get? entries key) (Table.get? entries' key)) :
    Alike (some (.table entries)) (some (.table entries'))
  | [] => rfl
  | key :: path => h key path

theorem exists_table_of_alike (h : Alike v (some (.table entries))) :
    ∃ entries', v = some (.table entries') := by
  have hsome := h.isSome
  have htable := h.all_isTable
  rcases v with _ | v
  · cases hsome
  · cases v with
    | table entries' => exact ⟨entries', rfl⟩
    | int => cases htable
    | real => cases htable
    | bool => cases htable
    | text => cases htable
    | other => cases htable

end

/-- The value of a setting in a document. -/
def settingAt? (said : Entries α) (name key : String) : Option (Value α) :=
  (Table.get? said name).bind fun
    | .table entries => Table.get? entries key
    | _ => none

/-- What stands below a setting stands below its section. -/
theorem bind_settingAt? (said : Entries α) (name key : String) (path : List String) :
    (settingAt? said name key).bind (Value.at? path) =
      (Table.get? said name).bind (Value.at? (key :: path)) := by
  rw [settingAt?]
  rcases Table.get? said name with _ | v
  · rfl
  · cases v <;> rfl

theorem settingAt?_of_table {said entries : Entries α} {name : String}
    (h : Table.get? said name = some (.table entries)) (key : String) :
    settingAt? said name key = Table.get? entries key := by
  rw [settingAt?, h]
  rfl

theorem Alike.settingAt? {said said' : Entries α} {name : String}
    (h : Alike (Table.get? said name) (Table.get? said' name)) (key : String) :
    Alike (settingAt? said name key) (settingAt? said' name key) := by
  intro path
  rw [bind_settingAt?, bind_settingAt?]
  exact h (key :: path)

/-! ### Values that are given -/

/-- The settings in sections, in order. -/
def given (updates : Sections α) : List ((String × String) × Value α) :=
  updates.flatMap fun entry => entry.2.map fun setting => ((entry.1, setting.1), setting.2)

/-- The value that is given last for a setting. -/
def lastGiven? (updates : Sections α) (name key : String) : Option (Value α) :=
  (given updates).reverse.lookup (name, key)

theorem lastGiven?_append (u v : Sections α) (name key : String) :
    lastGiven? (u ++ v) name key = (lastGiven? v name key).or (lastGiven? u name key) := by
  rw [lastGiven?, given, List.flatMap_append, List.reverse_append, List.lookup_append]
  rfl

theorem lastGiven?_of_notMem {updates : Sections α} {name : String} (h : name ∉ updates.keys)
    (key : String) : lastGiven? updates name key = none := by
  rw [lastGiven?, List.lookup_eq_none_iff]
  intro setting hsetting
  rw [List.mem_reverse, given, List.mem_flatMap] at hsetting
  obtain ⟨entry, hentry, hsetting⟩ := hsetting
  obtain ⟨value, -, rfl⟩ := List.mem_map.mp hsetting
  rw [bne_iff_ne]
  intro heq
  exact h ((Prod.mk.inj heq).1 ▸ List.mem_map_of_mem hentry)

theorem lastGiven?_singleton (name key : String) (values : Entries α) :
    lastGiven? [(name, values)] name key = values.reverse.lookup key := by
  have hgiven : (given [(name, values)]).reverse =
      values.reverse.map fun setting => ((name, setting.1), setting.2) := by
    rw [given, List.flatMap_singleton, List.map_reverse]
  rw [lastGiven?, hgiven]
  induction values.reverse with
  | nil => rfl
  | cons setting settings ih =>
    rw [List.map_cons, List.lookup_cons, List.lookup_cons, ih]
    have hkey : ((name, key) == (name, setting.1)) = (key == setting.1) := by simp
    rw [hkey]

/-! ### Documents after merging -/

/-- What a document says after values were merged into it: the sections that are updated are tables,
in which a setting has the value given last, or else what was said before, and the other sections
are kept. -/
structure Merged (updates : Sections α) (said after : Entries α) : Prop where
  updated : ∀ name ∈ updates.keys, ∃ entries, Table.get? after name = some (.table entries) ∧
    ∀ key, Alike (Table.get? entries key)
      ((lastGiven? updates name key).or (settingAt? said name key))
  kept : ∀ name, name ∉ updates.keys → Alike (Table.get? after name) (Table.get? said name)

theorem merged_nil_iff {said after : Entries α} :
    Merged [] said after ↔ ∀ name, Alike (Table.get? after name) (Table.get? said name) := by
  constructor
  · intro h name
    exact h.kept name List.not_mem_nil
  · intro h
    exact ⟨fun _ hname => absurd hname List.not_mem_nil, fun name _ => h name⟩

theorem Merged.setting {updates : Sections α} {said after : Entries α}
    (h : Merged updates said after) (name key : String) : Alike (settingAt? after name key)
      ((lastGiven? updates name key).or (settingAt? said name key)) := by
  by_cases hname : name ∈ updates.keys
  · obtain ⟨entries, hentries, hsettings⟩ := h.updated name hname
    rw [settingAt?_of_table hentries]
    exact hsettings key
  · rw [lastGiven?_of_notMem hname, Option.none_or]
    exact (h.kept name hname).settingAt? key

/-- Merging twice is merging what is given first and then what is given second. -/
theorem Merged.append {u v : Sections α} {said middle after : Entries α} (h : Merged u said middle)
    (h' : Merged v middle after) : Merged (u ++ v) said after where
  updated := by
    intro name hname
    have hlast : ∀ key, Alike (settingAt? after name key)
        ((lastGiven? (u ++ v) name key).or (settingAt? said name key)) := by
      intro key
      rw [lastGiven?_append, Option.or_assoc]
      exact (h'.setting name key).trans ((Alike.refl _).or (h.setting name key))
    -- after the second merge the section is a table if it was updated in either
    have htable : ∃ entries, Table.get? after name = some (.table entries) := by
      by_cases hv : name ∈ v.keys
      · obtain ⟨entries, hentries, -⟩ := h'.updated name hv
        exact ⟨entries, hentries⟩
      · have hu : name ∈ u.keys := by
          rw [Table.keys, List.map_append, List.mem_append] at hname
          exact hname.resolve_right hv
        obtain ⟨entries, hentries, -⟩ := h.updated name hu
        have hkept := h'.kept name hv
        rw [hentries] at hkept
        exact exists_table_of_alike hkept
    obtain ⟨entries, hentries⟩ := htable
    refine ⟨entries, hentries, fun key => ?_⟩
    rw [← settingAt?_of_table hentries]
    exact hlast key
  kept := by
    intro name hname
    rw [Table.keys, List.map_append, List.mem_append, not_or] at hname
    exact (h'.kept name hname.2).trans (h.kept name hname.1)

/-! ### Merging -/

/-- Whether a section is a table or missing. -/
def isOpen (said : Entries α) (name : String) : Bool :=
  (Table.get? said name).all Value.isTable

/-- Whether values go into sections that are tables or missing. -/
def fits (said : Entries α) (updates : Sections α) : Bool :=
  updates.keys.all (isOpen said)

/-- Merging values makes no section a table that is none, and none a value that is no table. -/
theorem Merged.isOpen_eq {updates : Sections α} {said after : Entries α}
    (h : Merged updates said after) (hfits : fits said updates = true) (name : String) :
    isOpen after name = isOpen said name := by
  by_cases hname : name ∈ updates.keys
  · obtain ⟨entries, hentries, -⟩ := h.updated name hname
    rw [List.all_eq_true.mp hfits name hname, isOpen, hentries]
    rfl
  · exact (h.kept name hname).all_isTable

theorem Merged.fits_eq {updates : Sections α} {said after : Entries α}
    (h : Merged updates said after) (hfits : fits said updates = true) :
    fits after = fits said := by
  funext u
  rw [fits, fits, funext (h.isOpen_eq hfits)]

/-- What a section holds that values are merged into, unless it is no table. -/
def sectionEntries? (said : Entries α) (name : String) : Option (Entries α) :=
  match Table.get? said name with
  | none => some []
  | some (.table entries) => some entries
  | some _ => none

theorem merge_cons (said : Entries α) (name : String) (values : Entries α) (updates : Sections α) :
    merge said ((name, values) :: updates) =
      (sectionEntries? said name).elim (.error name) fun old =>
        merge (Table.insert said name (.table (Table.insertAll old values))) updates := by
  rw [merge, sectionEntries?]
  rcases hname : Table.get? said name with _ | v
  · show merge (said ++ [(name, .table (Table.insertAll [] values))]) updates =
      merge (Table.insert said name (.table (Table.insertAll [] values))) updates
    rw [Table.insert_of_not_has (Table.get?_eq_none.mp hname)]
  · cases v <;> rfl

theorem sectionEntries?_isSome (said : Entries α) (name : String) :
    (sectionEntries? said name).isSome = isOpen said name := by
  rw [sectionEntries?, isOpen]
  rcases Table.get? said name with _ | v
  · rfl
  · cases v <;> rfl

theorem get?_sectionEntries? (said : Entries α) (name key : String) :
    Table.get? ((sectionEntries? said name).getD []) key = settingAt? said name key := by
  rw [sectionEntries?, settingAt?]
  rcases Table.get? said name with _ | v
  · rfl
  · cases v <;> rfl

theorem merged_insert {said old : Entries α} {name : String}
    (h : sectionEntries? said name = some old) (values : Entries α) :
    Merged [(name, values)] said
      (Table.insert said name (.table (Table.insertAll old values))) where
  updated := by
    intro name' hname'
    obtain rfl : name' = name := by simpa [Table.keys] using hname'
    refine ⟨Table.insertAll old values, ?_, fun key => ?_⟩
    · rw [Table.get?_insert, if_pos rfl]
    · have hold := get?_sectionEntries? said name' key
      rw [h, Option.getD_some] at hold
      rw [Table.get?_insertAll, lastGiven?_singleton, hold]
      exact Alike.refl _
  kept := by
    intro name' hname'
    have hne : name' ≠ name := by simpa [Table.keys] using hname'
    rw [Table.get?_insert, if_neg hne]
    exact Alike.refl _

theorem fits_cons (said : Entries α) (name : String) (values : Entries α) (updates : Sections α) :
    fits said ((name, values) :: updates) = (isOpen said name && fits said updates) :=
  rfl

theorem fits_singleton {said : Entries α} {name : String} (h : isOpen said name = true)
    (values : Entries α) : fits said [(name, values)] = true := by
  rw [fits_cons, h]
  rfl

/-- Values are merged into sections that are tables or missing. -/
theorem merge_of_fits {said : Entries α} {updates : Sections α} (h : fits said updates = true) :
    ∃ after, merge said updates = .ok after ∧ Merged updates said after := by
  induction updates generalizing said with
  | nil => exact ⟨said, rfl, merged_nil_iff.mpr fun _ => Alike.refl _⟩
  | cons entry updates ih =>
    obtain ⟨name, values⟩ := entry
    rw [fits_cons, Bool.and_eq_true] at h
    obtain ⟨old, hold⟩ := Option.isSome_iff_exists.mp ((sectionEntries?_isSome said name).trans h.1)
    have hfirst := merged_insert hold values
    obtain ⟨after, hafter, hrest⟩ : ∃ after, _ ∧ Merged updates _ after :=
      ih (hfirst.fits_eq (fits_singleton h.1 values) ▸ h.2)
    refine ⟨after, ?_, hfirst.append hrest⟩
    rw [merge_cons, hold]
    exact hafter

/-- Values are refused for a section that is no table, if there is one among theirs. -/
theorem merge_of_not_fits {said : Entries α} {updates : Sections α}
    (h : fits said updates = false) :
    ∃ name ∈ updates.keys, isOpen said name = false ∧ merge said updates = .error name := by
  induction updates generalizing said with
  | nil => cases h
  | cons entry updates ih =>
    obtain ⟨name, values⟩ := entry
    rw [merge_cons]
    have hopen := sectionEntries?_isSome said name
    rcases hold : sectionEntries? said name with _ | old
    · rw [hold] at hopen
      exact ⟨name, List.mem_cons_self, hopen.symm, rfl⟩
    · -- the first section takes its values, and that closes no other
      rw [hold, Option.isSome_some] at hopen
      rw [fits_cons, ← hopen, Bool.true_and] at h
      have hfirst := merged_insert hold values
      have hfits := fits_singleton hopen.symm values
      obtain ⟨name', hmem, hclosed, herror⟩ := ih (hfirst.fits_eq hfits ▸ h)
      refine ⟨name', List.mem_cons_of_mem _ hmem, ?_, herror⟩
      rw [← hfirst.isOpen_eq hfits]
      exact hclosed

/-! ### Settings in force -/

/-- The value of a setting in sections. -/
def setting? (s : Sections α) (name key : String) : Option (Value α) :=
  (s.get? name).bind fun values => Table.get? values key

theorem get?_overlay {known said : Entries α} (hsaid : (Table.keys said).Nodup) {key : String}
    (hkey : Table.has known key = true) :
    Table.get? (overlay known said) key = (Table.get? said key).or (Table.get? known key) := by
  have hsub : (said.filter fun entry => Table.has known entry.1).Sublist said :=
    List.filter_sublist
  have hnodup : (Table.keys (said.filter fun entry => Table.has known entry.1).reverse).Nodup := by
    rw [Table.keys, List.map_reverse, List.nodup_reverse]
    exact hsaid.sublist (hsub.map Prod.fst)
  rw [overlay, Table.get?_insertAll]
  congr 1
  -- the same entries are found in either order, and the key is a known one
  ext v
  show Table.get? _ key = some v ↔ _
  rw [Table.get?_eq_some_iff_mem hnodup, Table.get?_eq_some_iff_mem hsaid, List.mem_reverse,
    List.mem_filter, and_iff_left hkey]

theorem nodup_keys_sectionEntries? {said : Entries α} (hsaid : (Value.table said).Distinct)
    (name : String) : (Table.keys ((sectionEntries? said name).getD [])).Nodup := by
  rw [sectionEntries?]
  rcases hname : Table.get? said name with _ | v
  · exact List.nodup_nil
  · cases v with
    | table entries => exact (Value.distinct_table_iff.mp (hsaid.get? hname)).1
    | int => exact List.nodup_nil
    | real => exact List.nodup_nil
    | bool => exact List.nodup_nil
    | text => exact List.nodup_nil
    | other => exact List.nodup_nil

theorem get?_effective (said : Entries α) (name : String) :
    (effective said).get? name = (defaults.get? name).map fun values =>
      overlay values ((sectionEntries? said name).getD []) := by
  have hmap : effective said = defaults.map fun entry =>
      (entry.1, overlay entry.2 ((sectionEntries? said entry.1).getD [])) := by
    refine List.map_congr_left ?_
    rintro ⟨name, values⟩ -
    rw [sectionEntries?]
    dsimp only
    -- nothing is laid over the defaults of a section that is no table
    rcases Table.get? said name with _ | v
    · rfl
    · cases v <;> rfl
  rw [hmap, Table.get?_map defaults fun name values =>
    overlay values ((sectionEntries? said name).getD [])]

/-- The settings in force for a document whose keys are distinct: what it says of a known key, or
else the default. -/
theorem setting?_effective {said : Entries α} (hsaid : (Value.table said).Distinct)
    {name key : String} (hknown : (setting? (defaults : Sections α) name key).isSome = true) :
    setting? (effective said) name key =
      (settingAt? said name key).or (setting? defaults name key) := by
  rw [setting?, get?_effective]
  rw [setting?] at hknown ⊢
  rcases hname : (defaults : Sections α).get? name with _ | values
  · rw [hname] at hknown
    cases hknown
  · rw [hname, Option.bind_some] at hknown
    rw [Option.map_some, Option.bind_some, Option.bind_some,
      get?_overlay (nodup_keys_sectionEntries? hsaid name) (Table.get?_isSome ▸ hknown),
      get?_sectionEntries?]

end Settings

end CallAtlas

import CallAtlas.Proofs.Ordered
import CallAtlas.Settings.Toml.Writer

/-!
# Keys of a settings file

What is read from a settings file has no key twice, in no table of it.  This is asked of a format,
and shown for files that are read line by line.  Each line keeps it: an entry is added only under a
new key, and a table is opened in its place.

* `Value.Distinct`: no table in a value has a key twice.
* `Format.DistinctKeys`: a format reads such tables only.
* `distinct_changeAt`, `distinct_openTable`: what the two kinds of lines do to the tables.
* `Reading.distinct_step`: taking in a line; `distinct_of_foldlM`: taking in lines.
* `distinctKeys_format`: what is read has no key twice.
-/

namespace CallAtlas

/-! ### Tables -/

namespace Table

variable {α : Type} {t : Table α} {k : String} {v : α}

theorem keys_insert (t : Table α) (k : String) (v : α) :
    (t.insert k v).keys = if t.has k then t.keys else t.keys ++ [k] := by
  rw [insert]
  split_ifs
  · rw [keys, List.map_map]
    refine List.map_congr_left fun entry _ => ?_
    show (if entry.1 = k then (k, v) else entry).1 = entry.1
    split_ifs with hkey
    · exact hkey.symm
    · rfl
  · rw [keys, List.map_append, List.map_singleton, keys]

theorem nodup_keys_insert (h : t.keys.Nodup) (k : String) (v : α) : (t.insert k v).keys.Nodup := by
  rw [keys_insert]
  split_ifs with hk
  · exact h
  · rw [has_iff] at hk
    rw [List.nodup_append]
    refine ⟨h, List.nodup_singleton k, ?_⟩
    intro key hkey key' hkey'
    rw [List.mem_singleton.mp hkey']
    exact fun heq => hk (heq ▸ hkey)

theorem mem_insert {entry : String × α} (h : entry ∈ t.insert k v) :
    entry ∈ t ∨ entry = (k, v) := by
  rw [insert] at h
  split_ifs at h
  · obtain ⟨old, hold, rfl⟩ := List.mem_map.mp h
    split_ifs
    · exact .inr rfl
    · exact .inl hold
  · rcases List.mem_append.mp h with h | h
    · exact .inl h
    · exact .inr (List.mem_singleton.mp h)

end Table

namespace Settings

variable {α : Type}

/-- Whether the value is a table. -/
def Value.isTable : Value α → Bool
  | table _ => true
  | _ => false

/-- No table in the value has a key twice. -/
inductive Value.Distinct : Value α → Prop
  | plain {v : Value α} (h : v.isTable = false) : Distinct v
  | table {entries : Entries α} (hkeys : (Table.keys entries).Nodup)
      (hvalues : ∀ entry ∈ entries, Distinct entry.2) : Distinct (.table entries)

namespace Value

variable {entries : Entries α} {key : String} {v : Value α}

theorem distinct_table_iff : (table entries).Distinct ↔
    (Table.keys entries).Nodup ∧ ∀ entry ∈ entries, entry.2.Distinct := by
  constructor
  · intro h
    cases h with
    | plain h => cases h
    | table hkeys hvalues => exact ⟨hkeys, hvalues⟩
  · rintro ⟨hkeys, hvalues⟩
    exact .table hkeys hvalues

theorem distinct_nil : (table [] : Value α).Distinct :=
  .table List.nodup_nil (by simp)

theorem Distinct.get? (h : (Value.table entries).Distinct) (hv : Table.get? entries key = some v) :
    v.Distinct :=
  (distinct_table_iff.mp h).2 _ (Table.mem_of_get? hv)

theorem Distinct.insert (h : (Value.table entries).Distinct) (key : String) (hv : v.Distinct) :
    (Value.table (Table.insert entries key v)).Distinct := by
  obtain ⟨hkeys, hvalues⟩ := distinct_table_iff.mp h
  refine .table (Table.nodup_keys_insert hkeys key v) fun entry hentry => ?_
  rcases Table.mem_insert hentry with hold | rfl
  · exact hvalues entry hold
  · exact hv

theorem Distinct.append (h : (Value.table entries).Distinct)
    (hkey : Table.has entries key = false) (hv : v.Distinct) :
    (Value.table (entries ++ [(key, v)])).Distinct := by
  rw [← Table.insert_of_not_has hkey]
  exact h.insert key hv

end Value

/-- Whether documents that are read in the format have no key twice. -/
def Format.DistinctKeys {ε ω : Type} (format : Format α ε ω) : Prop :=
  ∀ text entries, format.parse text = .ok entries → (Value.table entries).Distinct

namespace Toml

variable {v w : Value} {key : String}

/-! ### What lines do to tables -/

theorem exists_of_bind {ε α β : Type} {x : Except ε α} {f : α → Except ε β} {b : β}
    (h : (x >>= f) = .ok b) : ∃ a, x = .ok a ∧ f a = .ok b := by
  rcases x with e | a
  · cases h
  · exact ⟨a, rfl, h⟩

/-- If the change at the end of the path keeps keys distinct, then so does the change of the
whole. -/
theorem distinct_changeAt {change : Value → Except Fault Value}
    (hchange : ∀ v w, v.Distinct → change v = .ok w → w.Distinct) {path : List String}
    (hv : v.Distinct) (h : changeAt change path v = .ok w) : w.Distinct := by
  induction path generalizing v w with
  | nil => exact hchange v w hv h
  | cons name path ih =>
    cases v with
    | table entries =>
      rw [changeAt] at h
      -- a table on the way is made where it is missing
      rcases hname : Table.get? entries name with _ | inner
      · rw [hname] at h
        obtain ⟨made, hmade, h⟩ := exists_of_bind h
        cases h
        exact hv.append (Table.get?_eq_none.mp hname) (ih Value.distinct_nil hmade)
      · rw [hname] at h
        obtain ⟨changed, hchanged, h⟩ := exists_of_bind h
        cases h
        exact hv.insert name (ih (hv.get? hname) hchanged)
    | int => cases h
    | real => cases h
    | bool => cases h
    | text => cases h
    | other a => cases a

theorem distinct_addEntry {value : Value} (hvalue : value.Distinct) (hv : v.Distinct)
    (h : addEntry key value v = .ok w) : w.Distinct := by
  cases v with
  | table entries =>
    rw [addEntry] at h
    split_ifs at h with hkey
    cases h
    exact hv.append (by simpa using hkey) hvalue
  | int => cases h
  | real => cases h
  | bool => cases h
  | text => cases h
  | other a => cases a

theorem distinct_setEntry {value : Value} (hvalue : value.Distinct) (hv : v.Distinct)
    (h : setEntry key value v = .ok w) : w.Distinct := by
  cases v with
  | table entries =>
    cases h
    exact hv.insert key hvalue
  | int => cases h
  | real => cases h
  | bool => cases h
  | text => cases h
  | other a => cases a

theorem distinct_openTable {path implied implied' : List String} {entries entries' : Entries}
    (hentries : (Value.table entries).Distinct)
    (h : openTable path implied entries = .ok (entries', implied')) :
    (Value.table entries').Distinct := by
  induction path generalizing implied entries entries' with
  | nil =>
    cases h
    exact hentries
  | cons name path ih =>
    rw [openTable] at h
    split at h
    · cases h
    rcases hname : Table.get? entries name with _ | value
    · rw [hname] at h
      obtain ⟨⟨inner, implied''⟩, hinner, h⟩ := exists_of_bind h
      cases h
      exact hentries.append (Table.get?_eq_none.mp hname) (ih Value.distinct_nil hinner)
    · rw [hname] at h
      dsimp only at h
      split at h
      · cases h
      · cases value with
        | table inner =>
          obtain ⟨⟨inner', implied''⟩, hinner, h⟩ := exists_of_bind h
          cases h
          exact hentries.insert name (ih (hentries.get? hname) hinner)
        | _ =>
          -- what is no table is left as it is
          dsimp only at h
          split_ifs at h
          cases h
          exact hentries

/-! ### Values -/

theorem isTable_of_readMagnitude? {negative : Bool} {s : List Char}
    (h : readMagnitude? negative s = some v) : v.isTable = false := by
  unfold readMagnitude? at h
  dsimp only at h
  split_ifs at h
  all_goals
    obtain ⟨x, -, rfl⟩ := Option.map_eq_some_iff.mp h
    rfl

/-- A value on one line is no table. -/
theorem isTable_of_readValue {isTidy : Bool} {s : List Char} (h : readValue isTidy s = .ok v) :
    v.isTable = false := by
  unfold readValue at h
  cases s with
  | nil => cases h
  | cons c s =>
    dsimp only at h
    split_ifs at h with htrue hfalse hquote
    · cases h
      rfl
    · cases h
      rfl
    · rcases hread : readText c (c :: s) with fault | text
      · rw [hread] at h
        cases h
      · rw [hread] at h
        cases h
        rfl
    · -- what is none of the others is a number or nothing
      rcases hnumber : readNumber? (c :: s) with _ | value
      · rw [hnumber] at h
        cases isTidy <;> cases h
      · rw [hnumber] at h
        cases isTidy with
        | false => cases h
        | true =>
          cases h
          exact isTable_of_readMagnitude? hnumber

/-! ### Lines -/

namespace Reading

/-- Whether what is read so far has no key twice. -/
def Distinct (r : Reading) : Prop :=
  (Value.table r.entries).Distinct

variable {r r' : Reading} {path : List String} {line : List Char}

theorem distinct_changeCurrent {change : Value → Except Fault Value}
    (hchange : ∀ v w, v.Distinct → change v = .ok w → w.Distinct) (hr : r.Distinct)
    (h : r.changeCurrent path change = .ok r') : r'.Distinct := by
  obtain ⟨value, hvalue, h⟩ := exists_of_bind h
  have hdistinct : value.Distinct := distinct_changeAt hchange hr hvalue
  cases value with
  | table entries =>
    cases h
    exact hdistinct
  | int => cases h
  | real => cases h
  | bool => cases h
  | text => cases h
  | other a => cases a

theorem distinct_stepText {u : Unfinished} (hr : r.Distinct)
    (h : r.stepText u line = .ok r') : r'.Distinct := by
  unfold stepText at h
  dsimp only at h
  generalize (if (u.goesOn || !u.text.contains '\n') = true then Text.trimBy Text.isBlank line
    else line) = line at h
  split_ifs at h
  · cases h
    exact hr
  · obtain ⟨value, hvalue, h⟩ := exists_of_bind h
    have hplain : value.Distinct := .plain (isTable_of_readValue hvalue)
    have hchange : ∀ v w, v.Distinct → setEntry u.key value v = .ok w → w.Distinct :=
      fun _ _ => distinct_setEntry hplain
    have hclosed : ({ r with unfinished := none } : Reading).Distinct := hr
    exact distinct_changeCurrent hchange hclosed h
  · cases h
    exact hr

theorem distinct_stepEntry (hr : r.Distinct) (h : r.stepEntry line = .ok r') : r'.Distinct := by
  unfold stepEntry at h
  rcases hsides : sides? line with _ | sides
  · rw [hsides] at h
    cases h
  · rw [hsides] at h
    obtain ⟨⟨path, key⟩, -, h⟩ := exists_of_bind h
    dsimp only at h
    by_cases hunfinished : isUnfinished (Text.trimBy Text.isBlank sides.value) = true
    · -- a text that goes on adds nothing yet
      rw [if_pos hunfinished] at h
      obtain ⟨checked, hchecked, h⟩ := exists_of_bind h
      have hchange : ∀ v w, v.Distinct → (do
          let _ ← addEntry key (.bool true) v
          return v : Except Fault Value) = .ok w → w.Distinct := by
        intro v w hv hw
        obtain ⟨_, -, hw⟩ := exists_of_bind hw
        cases hw
        exact hv
      have hdistinct : checked.Distinct := distinct_changeCurrent hchange hr hchecked
      split_ifs at h
      · cases h
      · cases h
        exact hdistinct
    · rw [if_neg hunfinished] at h
      have hchange : ∀ v w, v.Distinct → (do
          addEntry key (← readValue sides.isTidy (Text.trimBy Text.isBlank sides.value)) v
            : Except Fault Value) = .ok w → w.Distinct := by
        intro v w hv hw
        obtain ⟨value, hvalue, hw⟩ := exists_of_bind hw
        exact distinct_addEntry (.plain (isTable_of_readValue hvalue)) hv hw
      exact distinct_changeCurrent hchange hr h

/-- Taking in a line keeps the keys distinct. -/
theorem distinct_step (hr : r.Distinct) (h : r.step line = .ok r') : r'.Distinct := by
  unfold step at h
  rcases hunfinished : r.unfinished with _ | u
  · rw [hunfinished] at h
    dsimp only at h
    -- blank line, comment, table head, brace, any other line
    split at h
    · cases h
      exact hr
    · cases h
      exact hr
    · split at h
      · cases h
      · obtain ⟨⟨entries, implied⟩, hopened, h⟩ := exists_of_bind h
        cases h
        exact distinct_openTable hr hopened
    · cases h
    · split_ifs at h
      · exact distinct_stepEntry hr h
      · cases h
        exact hr
  · rw [hunfinished] at h
    exact distinct_stepText hr h

theorem distinct_of_foldlM {lines : List (List Char)} (hr : r.Distinct)
    (h : lines.foldlM step r = .ok r') : r'.Distinct := by
  induction lines generalizing r with
  | nil =>
    cases h
    exact hr
  | cons line lines ih =>
    rw [List.foldlM_cons] at h
    obtain ⟨next, hnext, h⟩ := exists_of_bind h
    exact ih (distinct_step hr hnext) h

end Reading

/-- What is read from a text has no key twice. -/
theorem distinctKeys_format : format.DistinctKeys := by
  intro text entries h
  obtain ⟨s, -, h⟩ := exists_of_bind h
  obtain ⟨r, hr, h⟩ := exists_of_bind h
  cases h
  have hstart : Reading.Distinct {} := Value.distinct_nil
  exact Reading.distinct_of_foldlM hstart hr

end Toml

end Settings

end CallAtlas

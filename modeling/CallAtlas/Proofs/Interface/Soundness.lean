import CallAtlas.Proofs.CallTree.Closed
import CallAtlas.Proofs.Interface.Matching

/-!
# Bindings are sound

An implementation is looked for in three ways: by name among the known files, by name outside, and
by members among the known files.  Outside files are taken in between, so the members are those
declared at the start, while what implements them is declared at the end.

* `matchLocal_apply`, `matchByScan_apply`: searches among known files only read the repository.
* `matchRemote_eq_some`, `search_eq_some`: where a binding that is found comes from.
* `bindingFor_sound`: a binding is sound, and it is found by members only if names lead nowhere.
-/

namespace CallAtlas.Interface

/-- Whether names lead nowhere: no known file with a candidate name, the files of the interface
itself aside, has a counterpart of a member. -/
def NothingByName (r : Repository) (interface : String) : Prop :=
  ∀ file ∈ r.files,
    (∃ candidate ∈ candidateNames interface,
      Text.contains (Path.basename file) candidate = true) →
    (∀ m ∈ declaredMembers r interface, m.file ≠ file) →
    ∀ m ∈ declaredMembers r interface, ∀ i, ¬ Counterpart r file m i

theorem contains_filesOf {members : List Entity} {file : String} :
    (filesOf members).contains file = true ↔ ∃ m ∈ members, m.file = file := by
  rw [List.contains_iff_mem, filesOf, mem_keepFirst_id, List.mem_map]

theorem contains_filesOf_eq_false {members : List Entity} {file : String} :
    (filesOf members).contains file = false ↔ ∀ m ∈ members, m.file ≠ file := by
  rw [← Bool.not_eq_true, contains_filesOf]
  push Not
  rfl

section

variable {env : Environment} {interface : String} {members : List Entity} {b : Binding}

/-! ### By name among the known files -/

theorem localBinding?_eq_some {r : Repository} {candidates interfaceFiles : List String}
    (h : localBinding? r interface members candidates interfaceFiles = some b) :
    ∃ file, interfaceFiles.contains file = false ∧ matchesIn r members file ≠ [] ∧
      b = .ofMatches interface file (matchesIn r members file) members .name := by
  obtain ⟨file, -, hfile⟩ := List.exists_of_findSome?_eq_some h
  split_ifs at hfile with hcontains
  split at hfile
  · cases hfile
  · next hfound =>
    exact ⟨file, Bool.not_eq_true _ ▸ hcontains, hfound, (Option.some.inj hfile).symm⟩

theorem localBinding?_eq_none_iff {r : Repository} {candidates interfaceFiles : List String} :
    localBinding? r interface members candidates interfaceFiles = none ↔
      ∀ candidate ∈ candidates, ∀ file ∈ r.filesContaining candidate,
        interfaceFiles.contains file = false → matchesIn r members file = [] := by
  rw [localBinding?, List.findSome?_eq_none_iff]
  constructor
  · intro h candidate hcandidate file hfile hcontains
    have hnone := h file (List.mem_flatMap.mpr ⟨candidate, hcandidate, hfile⟩)
    rw [hcontains, if_neg Bool.false_ne_true] at hnone
    split at hnone
    · assumption
    · cases hnone
  · intro h file hfile
    obtain ⟨candidate, hcandidate, hfile⟩ := List.mem_flatMap.mp hfile
    split_ifs with hcontains
    · rfl
    · rw [h candidate hcandidate file hfile (Bool.not_eq_true _ ▸ hcontains)]

theorem nothingByName_iff {r : Repository} :
    NothingByName r interface ↔
      localBinding? r interface (declaredMembers r interface) (candidateNames interface)
        (filesOf (declaredMembers r interface)) = none := by
  simp only [localBinding?_eq_none_iff, NothingByName, Repository.mem_filesContaining,
    contains_filesOf_eq_false, matchesIn_eq_nil_iff]
  constructor
  · intro h candidate hcandidate file hfile
    exact h file hfile.1 ⟨candidate, hcandidate, hfile.2⟩
  · rintro h file hfile ⟨candidate, hcandidate, hcontains⟩
    exact h candidate hcandidate file ⟨hfile, hcontains⟩

theorem matchLocal_apply (interface : String) (members : List Entity)
    (candidates interfaceFiles : List String) (p : Progress) :
    ∃ log, matchLocal interface members candidates interfaceFiles p =
      (some (localBinding? p.session.repository interface members candidates interfaceFiles),
        ⟨p.session, log⟩) := by
  rw [matchLocal, Run.session_bind]
  rcases localBinding? p.session.repository interface members candidates interfaceFiles with _ | b
  · exact ⟨p.log, rfl⟩
  · exact ⟨p.log ++ [foundByName b], rfl⟩

/-! ### By name outside -/

/-- A file that was fetched is bound to for what is matched in it once it is taken in. -/
theorem matchRemoteAt_eq_some {coords : Coords} {candidates : List String} {p q : Progress}
    (h : matchRemoteAt env interface members coords candidates p = (some (some b), q)) :
    ∃ file, matchesIn q.session.repository members file ≠ [] ∧
      b = .ofMatches interface file (matchesIn q.session.repository members file) members
        .remote := by
  induction candidates generalizing p with
  | nil => cases h
  | cons candidate rest ih =>
    rw [matchRemoteAt, Run.session_bind] at h
    split_ifs at h
    · exact ih h
    · rw [Run.update_bind, Run.bind_eq_some] at h
      obtain ⟨fetched, p₁, -, h⟩ := h
      cases fetched with
      | none => exact ih h
      | some fetched =>
        obtain ⟨_, p₂, -, h⟩ := Run.bind_eq_some.mp h
        rw [Run.session_bind] at h
        dsimp only at h
        -- the file is taken in by now; if nothing matches the search goes on
        rcases hfound : matchesIn p₂.session.repository members
          (p₂.session.fileLabel fetched.location) with _ | ⟨x, xs⟩
        · rw [hfound] at h
          exact ih h
        · rw [hfound] at h
          cases h
          refine ⟨p₂.session.fileLabel fetched.location, ?_, ?_⟩
          · exact hfound ▸ List.cons_ne_nil x xs
          · exact hfound ▸ rfl

theorem matchRemote_eq_some {coords : Option Coords} {candidates : List String} {p q : Progress}
    (h : matchRemote env interface members candidates coords p = (some (some b), q)) :
    ∃ file, matchesIn q.session.repository members file ≠ [] ∧
      b = .ofMatches interface file (matchesIn q.session.repository members file) members
        .remote := by
  cases coords with
  | none => cases h
  | some coords => exact matchRemoteAt_eq_some h

/-! ### By members among the known files -/

/-- The best of some files is one of them that implements more than half of the members, or the
best before. -/
theorem foldl_better_eq_some {r : Repository} {files : List String} {best : Option Binding}
    (h : files.foldl (better r interface members) best = some b) :
    best = some b ∨ ∃ file ∈ files, members.length < 2 * (matchesIn r members file).length ∧
      b = .ofMatches interface file (matchesIn r members file) members .scan := by
  induction files generalizing best with
  | nil => exact .inl h
  | cons file files ih =>
    rcases ih h with hbest | ⟨file', hfile', hrest⟩
    · rw [better] at hbest
      split_ifs at hbest with hbetter
      · rw [Bool.and_eq_true, decide_eq_true_eq] at hbetter
        exact .inr ⟨file, List.mem_cons_self, hbetter.1, (Option.some.inj hbest).symm⟩
      · exact .inl hbest
    · exact .inr ⟨file', List.mem_cons_of_mem file hfile', hrest⟩

theorem scanBinding?_eq_some {r : Repository} {interfaceFiles : List String}
    (h : scanBinding? r interface members interfaceFiles = some b) :
    ∃ file, interfaceFiles.contains file = false ∧ looksLikeInterface file = false ∧
      members.length < 2 * (matchesIn r members file).length ∧
      b = .ofMatches interface file (matchesIn r members file) members .scan := by
  rcases foldl_better_eq_some h with hnone | ⟨file, hfile, hhalf, hb⟩
  · cases hnone
  · rw [List.mem_filter, Bool.and_eq_true, Bool.not_eq_true', Bool.not_eq_true'] at hfile
    exact ⟨file, hfile.2.1, hfile.2.2, hhalf, hb⟩

theorem matchByScan_apply (interface : String) (members : List Entity)
    (interfaceFiles : List String) (p : Progress) :
    ∃ log, matchByScan interface members interfaceFiles p =
      (some (scanBinding? p.session.repository interface members interfaceFiles),
        ⟨p.session, log⟩) := by
  rw [matchByScan, Run.session_bind]
  rcases scanBinding? p.session.repository interface members interfaceFiles with _ | b
  · exact ⟨p.log, rfl⟩
  · exact ⟨_, rfl⟩

theorem matchByScan_eq_some {interfaceFiles : List String} {p q : Progress}
    (h : matchByScan interface members interfaceFiles p = (some (some b), q)) :
    scanBinding? q.session.repository interface members interfaceFiles = some b := by
  obtain ⟨log, hscan⟩ := matchByScan_apply interface members interfaceFiles p
  obtain ⟨hb, rfl⟩ := Prod.mk.inj (hscan.symm.trans h)
  exact Option.some.inj hb

/-! ### One way after the other -/

/-- A binding comes from the first way that leads to one. -/
theorem search_eq_some {coords : Option Coords} {p q : Progress}
    (h : search env interface members coords p = (some (some b), q)) :
    (localBinding? p.session.repository interface members (candidateNames interface)
        (filesOf members) = some b ∧ q.session = p.session) ∨
      localBinding? p.session.repository interface members (candidateNames interface)
          (filesOf members) = none ∧
        ((∃ file, matchesIn q.session.repository members file ≠ [] ∧
            b = .ofMatches interface file (matchesIn q.session.repository members file) members
              .remote) ∨
          scanBinding? q.session.repository interface members (filesOf members) = some b) := by
  rw [search, Run.log_bind] at h
  obtain ⟨log, hlocal⟩ := matchLocal_apply interface members (candidateNames interface)
    (filesOf members) { p with log := p.log ++ _ }
  rw [Run.bind_of_some hlocal] at h
  -- by name among the known files first
  rcases hbinding : localBinding? p.session.repository interface members
    (candidateNames interface) (filesOf members) with _ | b'
  · rw [hbinding] at h
    refine .inr ⟨rfl, ?_⟩
    dsimp only at h
    rw [Run.session_bind] at h
    -- then among fetched files if that is allowed, and last by members
    split_ifs at h
    · obtain ⟨fetched, p₁, hremote, h⟩ := Run.bind_eq_some.mp h
      cases fetched with
      | some b' =>
        cases h
        exact .inl (matchRemote_eq_some hremote)
      | none => exact .inr (matchByScan_eq_some h)
    · exact .inr (matchByScan_eq_some h)
  · rw [hbinding] at h
    cases h
    exact .inl ⟨rfl, rfl⟩

theorem bindingFor_eq_some {identifier : String} {coords : Option Coords} {p q : Progress}
    (hnew : p.session.bindings.get? (nameOf identifier) = none)
    (hrun : bindingFor env identifier coords p = (some (some b), q)) :
    ∃ p₁, search env (nameOf identifier)
        (declaredMembers p.session.repository (nameOf identifier)) coords p = (some (some b), p₁) ∧
      q.session.repository = p₁.session.repository := by
  rw [bindingFor_eq, decideOnce_of_none hnew] at hrun
  obtain ⟨binding, p₁, hlook, hrun⟩ := Run.bind_eq_some.mp hrun
  cases hrun
  rw [lookFor] at hlook
  split_ifs at hlook
  · cases hlook
  · obtain ⟨binding, p₂, hsearch, hlook⟩ := Run.bind_eq_some.mp hlook
    cases binding with
    | none => cases hlook
    | some b' =>
      cases hlook
      exact ⟨p₁, hsearch, rfl⟩

end

/-- **Soundness of bindings.**  A binding that is decided now shows members declared at the start,
with their counterparts in the file it names.  Unless it was fetched, that is no file of the
interface.  If it was found by members then these are more than half, and the file does not look
like one of an interface.  A binding is not found by name among the known files only if these lead
nowhere. -/
theorem bindingFor_sound {env : Environment} {identifier : String} {coords : Option Coords}
    {p q : Progress} {b : Binding}
    (hnew : p.session.bindings.get? (nameOf identifier) = none)
    (hrun : bindingFor env identifier coords p = (some (some b), q)) :
    (∀ m, m ∈ declaredMembers p.session.repository (nameOf identifier) ↔
        m ∈ p.session.repository.entities ∧ m.kind = .function ∧
          Text.contains (Path.basename m.file) (nameOf identifier) = true) ∧
      b.Sound q.session.repository (declaredMembers p.session.repository (nameOf identifier)) ∧
      b.strategy ∈ [.name, .remote, .scan] ∧
      (b.strategy = .name ∨ b.strategy = .scan →
        ∀ m ∈ declaredMembers p.session.repository (nameOf identifier), m.file ≠ b.file) ∧
      (b.strategy = .scan →
        (declaredMembers p.session.repository (nameOf identifier)).length < 2 * b.members.length ∧
          looksLikeInterface b.file = false) ∧
      (b.strategy = .remote ∨ b.strategy = .scan →
        NothingByName p.session.repository (nameOf identifier)) := by
  refine ⟨fun m => mem_declaredMembers, ?_⟩
  obtain ⟨p₁, hsearch, hrepository⟩ := bindingFor_eq_some hnew hrun
  rw [hrepository]
  rcases search_eq_some hsearch with ⟨hlocal, hsession⟩ | ⟨hlocal, hremote | hscan⟩
  · obtain ⟨file, hfile, hfound, rfl⟩ := localBinding?_eq_some hlocal
    rw [hsession]
    exact ⟨sound_ofMatches hfound _ _, .head _, fun _ => contains_filesOf_eq_false.mp hfile, nofun,
      nofun⟩
  · obtain ⟨file, hfound, rfl⟩ := hremote
    exact ⟨sound_ofMatches hfound _ _, .tail _ (.head _), nofun, nofun,
      fun _ => nothingByName_iff.mpr hlocal⟩
  · obtain ⟨file, hfile, hlooks, hhalf, rfl⟩ := scanBinding?_eq_some hscan
    -- more than half of the members are some
    refine ⟨sound_ofMatches (List.ne_nil_of_length_pos ?_) _ _, .tail _ (.tail _ (.head _)),
      fun _ => contains_filesOf_eq_false.mp hfile, fun _ => ⟨hhalf, hlooks⟩,
      fun _ => nothingByName_iff.mpr hlocal⟩
    omega

/-- An interface, a file with a promising name and none of its members, and a file with two of
them, one as a state variable.  All candidate names but the first were looked for before. -/
def bank : Progress where
  session :=
    { repository := ⟨[
        { name := "deposit", signature := "deposit(uint256)", file := "IVault.sol",
          parameters := [{ type := "uint256" }] },
        { name := "total", signature := "total()", file := "IVault.sol" },
        { name := "pause", signature := "pause()", file := "IVault.sol" },
        { name := "deposit", signature := "deposit()", file := "Vault.sol" },
        { kind := .stateVariable, name := "total", signature := "total", file := "Bank.sol" },
        { name := "deposit", signature := "deposit(uint256)", file := "Bank.sol",
          parameters := [{ name := "amount", type := "uint256" }] }]⟩
      lookups := (candidateNames "IVault").tail }

/-- The search outside comes to nothing, and two of the three members decide. -/
theorem bindingFor_sound_bank :
    bank.session.bindings.get? (nameOf "src/IVault.sol") = none ∧
      ∃ b q, bindingFor .barren "src/IVault.sol" (some ⟨"o", "r", "main", ""⟩) bank =
          (some (some b), q) ∧
        b.file = "Bank.sol" ∧ b.strategy = .scan ∧ b.members.length = 2 ∧
        b.Sound q.session.repository
          (declaredMembers bank.session.repository (nameOf "src/IVault.sol")) ∧
        NothingByName bank.session.repository (nameOf "src/IVault.sol") := by
  have hnew : bank.session.bindings.get? (nameOf "src/IVault.sol") = none := by decide +kernel
  have hfound : (bindingFor .barren "src/IVault.sol" (some ⟨"o", "r", "main", ""⟩) bank).1.map
      (Option.map fun b => (b.file, b.strategy, b.members.length)) =
      some (some ("Bank.sol", .scan, 2)) := by decide +kernel
  rcases hrun : bindingFor .barren "src/IVault.sol" (some ⟨"o", "r", "main", ""⟩) bank with
    ⟨_ | _ | b, q⟩
  · rw [hrun] at hfound
    cases hfound
  · rw [hrun] at hfound
    cases hfound
  · rw [hrun] at hfound
    obtain ⟨hfile, hstrategy, hlength⟩ : b.file = "Bank.sol" ∧ b.strategy = .scan ∧
        b.members.length = 2 := by
      simpa using hfound
    obtain ⟨-, hsound, -, -, -, hnames⟩ := bindingFor_sound hnew hrun
    exact ⟨hnew, b, q, rfl, hfile, hstrategy, hlength, hsound, hnames (.inr hstrategy)⟩

end CallAtlas.Interface

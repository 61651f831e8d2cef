import CallAtlas.Proofs.Text
import CallAtlas.Session

/-!
# How the names of library files are read

A file from the repository of a seed goes by its path, any other by its key, in which the repository
and a colon stand in front of the path.  Whether a file is taken for the home of an interface, and
what its stem is, is read off that name.  Below a directory the last slash of the key is one of the
path.  At the top of a repository it is one of the repository, and what is read begins with that.

* `mentionsInterface_key`: a key mentions interfaces iff the repository or the path does.
* `afterLast_append_of_mem`, `afterLast_append_of_notMem`: what follows the last slash of a key.
* `looksLikeInterface_key`: when a file that goes by its key is taken for the home of an interface.
* `stem_key_of_notMem`: the stem at the top of a repository has the repository in front.
* `fileLabel_read`: when the name of a file is read like its path.
-/

namespace CallAtlas

open CallAtlas.Text
open CallAtlas.Path (afterLast_append)

theorem Location.toList_key_append (l : Location) :
    l.key.toList = (l.repository.toList ++ [':']) ++ l.path.toList := by
  simp [key]

/-! ### Mentioning interfaces -/

/-- Whether a text mentions interfaces, in any case. -/
def mentionsInterface (text : String) : Bool :=
  contains (lower text) "interface"

/-- A text in which a character does not occur occurs on one side of that character. -/
theorem infix_append_cons_iff {part front back : List Char} {x : Char} (hx : x ∉ part) :
    part <:+: front ++ x :: back ↔ part <:+: front ∨ part <:+: back := by
  constructor
  · rintro ⟨before, behind, heq⟩
    rw [List.append_assoc] at heq
    rcases List.append_eq_append_iff.mp heq with ⟨more, rfl, hmore⟩ | ⟨more, rfl, hmore⟩
    · -- it starts in front of the character, and must end there
      rcases List.append_eq_append_iff.mp hmore with ⟨rest, rfl, -⟩ | ⟨rest, rfl, hrest⟩
      · exact .inl ⟨before, rest, by rw [List.append_assoc]⟩
      · rcases rest with _ | ⟨y, rest⟩
        · exact .inl ⟨before, [], by simp⟩
        · obtain rfl := (List.cons.inj hrest).1
          exact absurd (List.mem_append_right more List.mem_cons_self) hx
    · -- it starts at the character or behind it
      rcases more with _ | ⟨y, more⟩
      · rcases part with _ | ⟨z, part⟩
        · exact .inl List.nil_infix
        · obtain rfl := (List.cons.inj hmore).1
          exact absurd List.mem_cons_self hx
      · obtain ⟨-, rfl⟩ := List.cons.inj hmore
        exact .inr ⟨more, behind, List.append_assoc more part behind⟩
  · rintro (h | h)
    · exact h.trans (List.prefix_append front _).isInfix
    · exact h.trans ⟨front ++ [x], [], by simp⟩

/-- The final sigma as the one inside a word. -/
def unfinal (c : Char) : Char :=
  if c = Char.ofNat 0x3C2 then Char.ofNat 0x3C3 else c

/-- The small form of a character, whatever stands around it. -/
def folded (c : Char) : List Char :=
  if c.toNat = 0x3A3 then [Char.ofNat 0x3C3] else (lowerChar c).map unfinal

/-- Up to sigmas at the ends of words, texts are lower-cased character by character. -/
theorem map_unfinal_lowerAfter (before s : List Char) :
    (lowerAfter before s).map unfinal = s.flatMap folded := by
  induction s generalizing before with
  | nil => rfl
  | cons c s ih =>
    rw [lowerAfter, List.map_append, ih, List.flatMap_cons]
    congr 1
    by_cases hsigma : c.toNat = 0x3A3
    · rw [if_pos hsigma, folded, if_pos hsigma]
      cases startsCased before && !startsCased s <;> rfl
    · rw [if_neg hsigma, folded, if_neg hsigma]

/-- A text without sigmas occurs whether or not sigmas are final. -/
theorem infix_map_unfinal_iff {part s : List Char} (hfinal : Char.ofNat 0x3C2 ∉ part)
    (hsigma : Char.ofNat 0x3C3 ∉ part) : part <:+: s.map unfinal ↔ part <:+: s := by
  constructor
  · rintro ⟨before, behind, heq⟩
    obtain ⟨front, rest, rfl, hfront, -⟩ := List.map_eq_append_iff.mp heq.symm
    obtain ⟨before', part', rfl, -, hpart⟩ := List.map_eq_append_iff.mp hfront
    -- the characters that are mapped onto it are none that change
    have hsame : part' = part := by
      have hid : part'.map unfinal = part'.map id := by
        refine List.map_congr_left fun c hc => ?_
        have hmem : unfinal c ∈ part := hpart ▸ List.mem_map_of_mem hc
        rw [unfinal] at hmem ⊢
        split_ifs at hmem ⊢ with hc
        · exact absurd hmem hsigma
        · rfl
      rw [← hpart, hid, List.map_id]
    rw [hsame]
    exact ⟨before', rest, rfl⟩
  · intro h
    have hid : part.map unfinal = part := by
      refine (List.map_congr_left fun c hc => ?_).trans (List.map_id part)
      refine if_neg ?_
      rintro rfl
      exact hfinal hc
    rw [← hid]
    exact h.map unfinal

theorem mentionsInterface_iff {text : String} :
    mentionsInterface text = true ↔ "interface".toList <:+: text.toList.flatMap folded := by
  have hlower : (lower text).toList = lowerAfter [] text.toList := String.toList_ofList
  rw [mentionsInterface, contains_iff, hlower, ← map_unfinal_lowerAfter [],
    infix_map_unfinal_iff (by decide) (by decide)]

theorem mentionsInterface_key (l : Location) :
    mentionsInterface l.key = (mentionsInterface l.repository || mentionsInterface l.path) := by
  have hcolon : folded ':' = [':'] := by decide
  rw [Bool.eq_iff_iff, Bool.or_eq_true, mentionsInterface_iff, mentionsInterface_iff,
    mentionsInterface_iff, l.toList_key_append, List.append_assoc, List.singleton_append,
    List.flatMap_append, List.flatMap_cons, hcolon, List.singleton_append,
    infix_append_cons_iff (by decide)]

/-! ### What follows the last slash -/

theorem afterLast_append_of_mem {sep : Char} {back : List Char} (h : sep ∈ back)
    (front : List Char) : afterLast sep (front ++ back) = afterLast sep back := by
  obtain ⟨behind, before, hback, hbehind⟩ := List.eq_append_cons_of_mem (List.mem_reverse.mpr h)
  have hsplit : back = (before.reverse ++ [sep]) ++ behind.reverse := by
    rw [← List.reverse_reverse back, hback]
    simp
  have hname : sep ∉ behind.reverse := by rwa [List.mem_reverse]
  rw [hsplit, ← List.append_assoc, ← List.append_assoc, afterLast_append hname (.inr ⟨_, rfl⟩),
    afterLast_append hname (.inr ⟨_, rfl⟩)]

theorem afterLast_append_of_notMem {sep : Char} {back : List Char} (h : sep ∉ back)
    (front : List Char) : afterLast sep (front ++ back) = afterLast sep front ++ back := by
  have hall : ∀ x ∈ back.reverse, (x != sep) = true := by
    intro x hx
    rw [bne_iff_ne]
    rintro rfl
    exact h (List.mem_reverse.mp hx)
  rw [afterLast, afterLast, List.reverse_append, List.takeWhile_append_of_pos hall,
    List.reverse_append, List.reverse_reverse]

theorem afterLast_of_notMem {sep : Char} {s : List Char} (h : sep ∉ s) : afterLast sep s = s :=
  afterLast_append_of_notMem h []

/-! ### Names of interfaces -/

/-- Whether a name starts with an `I` and another ASCII capital. -/
def marked : List Char → Bool
  | 'I' :: c :: _ => c.isUpper
  | _ => false

theorem marked_append_colon (front back : List Char) :
    marked (front ++ ':' :: back) = marked front := by
  rcases front with _ | ⟨c, front⟩
  · rfl
  · by_cases hc : c = 'I'
    · rw [hc]
      cases front <;> rfl
    · simp [marked, hc]

theorem looksLikeInterface_eq (file : String) :
    looksLikeInterface file = (marked (afterLast '/' file.toList) || mentionsInterface file) := by
  have hname : (Path.basename file).toList = afterLast '/' file.toList := String.toList_ofList
  rw [looksLikeInterface, hname]
  rfl

/-- A file that goes by its key is read like its path below a directory, and like its repository at
the top of that; in both cases mentions of interfaces count in either. -/
theorem looksLikeInterface_key (l : Location) :
    looksLikeInterface l.key =
      if '/' ∈ l.path.toList then looksLikeInterface l.path || mentionsInterface l.repository
      else looksLikeInterface l.repository || mentionsInterface l.path := by
  rw [looksLikeInterface_eq, mentionsInterface_key, l.toList_key_append,
    looksLikeInterface_eq l.path, looksLikeInterface_eq l.repository]
  split_ifs with hslash
  · rw [afterLast_append_of_mem hslash, Bool.or_assoc, Bool.or_comm (mentionsInterface l.path)]
  · rw [afterLast_append_of_notMem hslash, afterLast_append_of_notMem (by decide),
      List.append_assoc, List.singleton_append, marked_append_colon, Bool.or_assoc]

/-! ### Stems -/

/-- The stem of a name without slashes. -/
def nameStem (name : List Char) : List Char :=
  let front := (name.reverse.dropWhile (· != '.')).drop 1
  if front.all (· == '.') then name else front.reverse

theorem stem_eq (path : String) :
    Path.stem path = String.ofList (nameStem (afterLast '/' path.toList)) :=
  rfl

/-- What stands in front of a name with an extension stands in front of its stem. -/
theorem nameStem_append {name : List Char} (h : nameStem name ≠ name) (front : List Char) :
    nameStem (front ++ name) = front ++ nameStem name := by
  rw [nameStem] at h
  split_ifs at h with hall
  · exact absurd rfl h
  · have hne : name.reverse.dropWhile (· != '.') ≠ [] := by
      intro hnil
      rw [hnil] at hall
      exact hall rfl
    obtain ⟨dot, rest, hrest⟩ := List.exists_cons_of_ne_nil hne
    rw [hrest, List.drop_succ_cons, List.drop_zero] at hall
    have hlong : (front ++ name).reverse.dropWhile (· != '.') = dot :: (rest ++ front.reverse) := by
      rw [List.reverse_append, List.dropWhile_append, hrest]
      rfl
    have hall' : ¬ (rest ++ front.reverse).all (· == '.') = true := by
      rw [List.all_append, Bool.and_eq_true]
      exact fun hboth => hall hboth.1
    rw [nameStem, nameStem, hlong, hrest, List.drop_succ_cons, List.drop_zero,
      List.drop_succ_cons, List.drop_zero, if_neg hall', if_neg hall,
      List.reverse_append, List.reverse_reverse]

theorem stem_key_of_mem {l : Location} (h : '/' ∈ l.path.toList) :
    Path.stem l.key = Path.stem l.path := by
  rw [stem_eq, stem_eq, l.toList_key_append, afterLast_append_of_mem h]

/-- At the top of a repository the stem of a name with an extension has the repository in front. -/
theorem stem_key_of_notMem {l : Location} (h : '/' ∉ l.path.toList)
    (hextension : Path.stem l.path ≠ l.path) :
    Path.stem l.key = Path.basename l.repository ++ ":" ++ Path.stem l.path := by
  have hstem : nameStem l.path.toList ≠ l.path.toList := by
    intro heq
    rw [stem_eq, afterLast_of_notMem h, heq, String.ofList_toList] at hextension
    exact hextension rfl
  rw [← String.toList_inj, stem_eq, stem_eq, l.toList_key_append,
    afterLast_append_of_notMem h, afterLast_append_of_notMem (by decide), afterLast_of_notMem h,
    nameStem_append hstem]
  simp [Path.basename]

/-! ### Names that are read alike -/

/-- Whether two names of files have the same stem and are both taken for the home of an interface
or both not. -/
def ReadAlike (file file' : String) : Prop :=
  looksLikeInterface file = looksLikeInterface file' ∧ Path.stem file = Path.stem file'

/-- A file with an extension is read alike by key and by path iff it lies below a directory, and its
path looks like the home of an interface or its repository mentions none. -/
theorem readAlike_key_iff {l : Location} (hextension : Path.stem l.path ≠ Path.basename l.path) :
    ReadAlike l.key l.path ↔
      '/' ∈ l.path.toList ∧
        (looksLikeInterface l.path = true ∨ mentionsInterface l.repository = false) := by
  rw [ReadAlike, looksLikeInterface_key]
  by_cases hslash : '/' ∈ l.path.toList
  · rw [if_pos hslash, stem_key_of_mem hslash]
    cases looksLikeInterface l.path <;> simp [hslash]
  · have hbase : Path.basename l.path = l.path := by
      rw [Path.basename, afterLast_of_notMem hslash, String.ofList_toList]
    rw [hbase] at hextension
    constructor
    · rintro ⟨-, hstem⟩
      -- The stem of the key is longer by the colon at least.
      have hlength := congrArg String.length hstem
      rw [stem_key_of_notMem hslash hextension, String.length_append, String.length_append]
        at hlength
      have hcolon : ":".length = 1 := rfl
      omega
    · rintro ⟨hmem, -⟩
      exact absurd hmem hslash

namespace Session

variable {s : Session} {l : Location}

theorem fileLabel_of_sameBranch (h : s.seeds.any l.sameBranch = true) : s.fileLabel l = l.path := by
  rw [fileLabel, h, Bool.or_true, if_pos rfl]

theorem fileLabel_of_not_sameBranch (hseeds : s.seeds ≠ [])
    (h : s.seeds.any l.sameBranch = false) : s.fileLabel l = l.key := by
  rw [fileLabel, h, List.isEmpty_eq_false_iff.mpr hseeds, Bool.or_false, if_neg Bool.false_ne_true]

/-- A file of a seed's repository is read like its path.  Any other file is read like its path below
a directory, except that mentions of interfaces in the repository count; at the top of a repository
the name is that of the repository with the path behind it.  So a file with an extension is read
like its path iff it belongs to a seed's repository, or lies below a directory and its path looks
like the home of an interface or its repository mentions none. -/
theorem fileLabel_read (s : Session) (hseeds : s.seeds ≠ []) (l : Location) :
    (s.seeds.any l.sameBranch = true → ReadAlike (s.fileLabel l) l.path) ∧
    (s.seeds.any l.sameBranch = false →
      (looksLikeInterface (s.fileLabel l) =
        if '/' ∈ l.path.toList then looksLikeInterface l.path || mentionsInterface l.repository
        else looksLikeInterface l.repository || mentionsInterface l.path) ∧
      ('/' ∈ l.path.toList → Path.stem (s.fileLabel l) = Path.stem l.path) ∧
      ('/' ∉ l.path.toList → Path.stem l.path ≠ l.path →
        Path.stem (s.fileLabel l) = Path.basename l.repository ++ ":" ++ Path.stem l.path)) ∧
    (Path.stem l.path ≠ Path.basename l.path →
      (ReadAlike (s.fileLabel l) l.path ↔
        s.seeds.any l.sameBranch = true ∨
        '/' ∈ l.path.toList ∧
          (looksLikeInterface l.path = true ∨ mentionsInterface l.repository = false))) := by
  have hhome : s.seeds.any l.sameBranch = true → ReadAlike (s.fileLabel l) l.path := by
    intro h
    rw [fileLabel_of_sameBranch h]
    exact ⟨rfl, rfl⟩
  refine ⟨hhome, fun haway => ?_, fun hextension => ?_⟩
  · rw [fileLabel_of_not_sameBranch hseeds haway]
    exact ⟨looksLikeInterface_key l, stem_key_of_mem, stem_key_of_notMem⟩
  · by_cases h : s.seeds.any l.sameBranch = true
    · exact ⟨fun _ => .inl h, fun _ => hhome h⟩
    · -- away from the seeds the label is the key
      have hlabel := fileLabel_of_not_sameBranch hseeds (Bool.eq_false_iff.mpr h)
      rw [hlabel, readAlike_key_iff hextension, or_iff_right h]

/-- A session for one file of a vault. -/
def vaultSession : Session :=
  { seeds := [⟨"acme", "vault", "main", "contracts/A.sol"⟩] }

/-- An interface at the top of a library. -/
def topInterface : Location :=
  ⟨"lib", "tokens", "main", "IERC20.sol"⟩

/-- A file that is no interface, in a library named for interfaces. -/
def plainFile : Location :=
  ⟨"lib", "interfaces", "main", "src/Math.sol"⟩

/-- An interface below a directory of a library. -/
def nestedInterface : Location :=
  ⟨"lib", "tokens", "main", "src/IERC20.sol"⟩

theorem vaultSession_away :
    (vaultSession.seeds.any topInterface.sameBranch = false ∧
      '/' ∉ topInterface.path.toList ∧ Path.stem topInterface.path ≠ topInterface.path ∧
      looksLikeInterface topInterface.path = true ∧
      looksLikeInterface topInterface.repository = false ∧
      mentionsInterface topInterface.path = false) ∧
    (vaultSession.seeds.any plainFile.sameBranch = false ∧
      Path.stem plainFile.path ≠ Path.basename plainFile.path ∧
      looksLikeInterface plainFile.path = false ∧
      mentionsInterface plainFile.repository = true) ∧
    Path.stem nestedInterface.path ≠ Path.basename nestedInterface.path ∧
      '/' ∈ nestedInterface.path.toList ∧ looksLikeInterface nestedInterface.path = true := by
  decide +kernel

/-- The interface at the top of a library is not seen as one and has a longer stem, the plain file
is taken for an interface, and the interface below a directory is read like its path. -/
theorem fileLabel_read_vaultSession :
    vaultSession.seeds ≠ [] ∧
    (looksLikeInterface topInterface.path = true ∧
      looksLikeInterface (vaultSession.fileLabel topInterface) = false ∧
      Path.stem (vaultSession.fileLabel topInterface) =
        Path.basename topInterface.repository ++ ":" ++ Path.stem topInterface.path) ∧
    ¬ ReadAlike (vaultSession.fileLabel plainFile) plainFile.path ∧
    ReadAlike (vaultSession.fileLabel nestedInterface) nestedInterface.path := by
  have hseeds : vaultSession.seeds ≠ [] := List.cons_ne_nil _ _
  obtain ⟨⟨haway, hslash, hstem, hlooks, hrepository, hpath⟩, ⟨haway', hext, hlooks', hmentions⟩,
    hext', hslash', hnested⟩ := vaultSession_away
  obtain ⟨-, htop, -⟩ := fileLabel_read vaultSession hseeds topInterface
  obtain ⟨htopLooks, -, htopStem⟩ := htop haway
  obtain ⟨-, -, hplain⟩ := fileLabel_read vaultSession hseeds plainFile
  obtain ⟨-, -, hbelow⟩ := fileLabel_read vaultSession hseeds nestedInterface
  refine ⟨hseeds, ⟨hlooks, ?_, htopStem hslash hstem⟩, ?_, ?_⟩
  · rw [htopLooks, if_neg hslash, hrepository, hpath, Bool.or_false]
  · rw [hplain hext, haway', hlooks', hmentions]
    simp
  · exact (hbelow hext').mpr (.inr ⟨hslash', .inl hnested⟩)

end Session

end CallAtlas

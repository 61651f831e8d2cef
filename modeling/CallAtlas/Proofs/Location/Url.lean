import CallAtlas.Location.Url
import CallAtlas.Proofs.Scan
import CallAtlas.Proofs.Text
import Mathlib.Data.List.DropRight

/-!
# Addresses of locations

A location has two addresses, of the page that shows its file and of the file's bare content.  Both
consist of a host and of segments, and read back they give the location: in the form in which they
are written, and with blanks around them, a query or a fragment behind them and empty segments
between the others.  Reading cuts an address into parts, and each part is said here for any text
that may follow it.

* `Url.Clear s`: the text has no character that is taken out of an address or ends its path.
* `Url.parts_address`: the parts of an address with a clear path, whatever query or fragment there
  is.
* `Url.Spells host segments url`: the ways to write an address.
* `Url.Spells.parts_eq`: however it is written, its parts give the host and the segments.
* `Location.ofUrl_spelled`: the addresses of a location give the location.
-/

namespace CallAtlas

open CallAtlas.Text

namespace Url

/-- Whether a character is taken out of an address wherever it stands. -/
def isBreak (c : Char) : Bool :=
  c == '\t' || c == '\r' || c == '\n'

/-- Whether a character ends an authority. -/
def isDelimiter (c : Char) : Bool :=
  c == '/' || c == '?' || c == '#'

/-- An address without the characters that are no part of it. -/
def cleaned (url : List Char) : List Char :=
  (url.dropWhile fun c => decide (c.toNat ≤ 0x20)).filter (!isBreak ·)

/-- Whether a text is empty, a query or a fragment. -/
def Tail (s : List Char) : Prop :=
  ∀ c ∈ s.head?, c = '?' ∨ c = '#'

/-- Whether a text has no character that is taken out of an address or ends its path. -/
def Clear (s : List Char) : Prop :=
  ∀ c ∈ s, isBlank c = false ∧ c ≠ '?' ∧ c ≠ '#' ∧ c ≠ ';'

instance : DecidablePred Tail :=
  fun s => decidable_of_iff ((s.head?.all fun c => c == '?' || c == '#') = true)
    (by cases h : s.head? <;> simp [Tail, h])

instance : DecidablePred Clear :=
  fun s => List.decidableBAll _ s

/-- Whether a text is a host that is neither refused nor cut. -/
structure IsHost (host : List Char) : Prop where
  clear : Clear host
  slash_notMem : '/' ∉ host
  brackets : checkBrackets host = .ok ()
  delimiters : checkDelimiters host = .ok ()

/-! ### Clear texts -/

namespace Clear

variable {s t : List Char}

theorem append (hs : Clear s) (ht : Clear t) : Clear (s ++ t) := by
  intro c hc
  rcases List.mem_append.mp hc with hc | hc
  · exact hs c hc
  · exact ht c hc

theorem slash_cons (hs : Clear s) : Clear ('/' :: s) :=
  append (by decide : Clear ['/']) hs

theorem filter_eq (hs : Clear s) : s.filter (!isBreak ·) = s := by
  rw [List.filter_eq_self]
  intro c hc
  have hblank : isBlank c = false := (hs c hc).1
  have htab : c ≠ '\t' := by rintro rfl; exact absurd hblank (by decide)
  have hreturn : c ≠ '\r' := by rintro rfl; exact absurd hblank (by decide)
  have hline : c ≠ '\n' := by rintro rfl; exact absurd hblank (by decide)
  simp [isBreak, htab, hreturn, hline]

theorem of_join {segments : List String} (h : ∀ s ∈ segments, Clear s.toList) :
    Clear (join "/" segments).toList := by
  intro c hc
  rcases mem_toList_join hc with hc | ⟨s, hs, hc⟩
  · rw [List.mem_singleton.mp hc]
    decide
  · exact h s hs c hc

end Clear

theorem IsHost.not_isDelimiter {host : List Char} (h : IsHost host) :
    ∀ c ∈ host, (!isDelimiter c) = true := by
  intro c hc
  have hclear := h.clear c hc
  have hslash : c ≠ '/' := fun heq => h.slash_notMem (heq ▸ hc)
  simp [isDelimiter, hslash, hclear.2.1, hclear.2.2.1]

/-! ### Queries and fragments -/

namespace Tail

variable {tail : List Char}

theorem filter (h : Tail tail) : Tail (tail.filter (!isBreak ·)) := by
  rcases tail with _ | ⟨c, tail⟩
  · exact h
  · rcases h c rfl with rfl | rfl
    · exact h
    · exact h

/-- Of a tail with blanks behind it, trimming leaves a tail. -/
theorem exists_trimmed {after : List Char} (htail : Tail tail) (hafter : Blanks after) :
    ∃ tail' back, tail ++ after = tail' ++ back ∧ Tail tail' ∧ Blanks back ∧
      ∀ c ∈ tail'.getLast?, isBlank c = false := by
  refine ⟨(tail ++ after).rdropWhile isBlank, (tail ++ after).rtakeWhile isBlank,
    List.rdropWhile_append_rtakeWhile.symm, ?_, fun c => List.mem_rtakeWhile_imp, ?_⟩
  · rcases tail with _ | ⟨d, tail⟩
    · rw [List.nil_append, List.rdropWhile_eq_nil_iff.mpr hafter]
      exact htail
    · intro c hc
      obtain ⟨rest, hrest⟩ := List.head?_eq_some_iff.mp hc
      have hprefix := List.rdropWhile_prefix isBlank (d :: tail ++ after)
      rw [hrest, List.cons_append, List.cons_prefix_cons] at hprefix
      exact htail c (congrArg some hprefix.1.symm)
  · intro c hc
    obtain ⟨front, hfront⟩ := List.getLast?_eq_some_iff.mp hc
    have hne : (tail ++ after).rdropWhile isBlank ≠ [] := by simp [hfront]
    have hlast := List.rdropWhile_last_not isBlank (tail ++ after) hne
    simpa [hfront] using hlast

end Tail

/-! ### Parts -/

theorem splitScheme_https (rest : List Char) :
    splitScheme ("https:".toList ++ rest) = ("https".toList, rest) := by
  have hfront : ("https:".toList ++ rest).takeWhile (· != ':') = "https".toList := rfl
  have hlength : "https".toList.length < ("https:".toList ++ rest).length := by
    simp
  rw [splitScheme, hfront, decide_eq_true hlength]
  rfl

theorem beforeFirst_of_notMem {sep : Char} {s : List Char} (hs : sep ∉ s) :
    beforeFirst sep s = s := by
  rw [beforeFirst, List.takeWhile_eq_self_iff]
  intro c hc
  rw [bne_iff_ne]
  rintro rfl
  exact hs hc

theorem beforeFirst_append {sep : Char} {s t : List Char} (hs : sep ∉ s) :
    beforeFirst sep (s ++ t) = s ++ beforeFirst sep t := by
  rw [beforeFirst, List.takeWhile_append_of_pos]
  · rfl
  · intro c hc
    rw [bne_iff_ne]
    rintro rfl
    exact hs hc

/-- The path ends where the query or the fragment begins. -/
theorem beforeFirst_path {path tail : List Char} (hpath : Clear path) (htail : Tail tail) :
    beforeFirst '?' (beforeFirst '#' (path ++ tail)) = path := by
  have hhash : '#' ∉ path := fun h => (hpath _ h).2.2.1 rfl
  have hquery : '?' ∉ path := fun h => (hpath _ h).2.1 rfl
  rcases tail with _ | ⟨c, tail⟩
  · rw [List.append_nil, beforeFirst_of_notMem hhash, beforeFirst_of_notMem hquery]
  · rw [beforeFirst_append hhash]
    rcases htail c rfl with rfl | rfl
    · -- a fragment behind the query is cut off first
      rw [show beforeFirst '#' ('?' :: tail) = '?' :: beforeFirst '#' tail from rfl,
        beforeFirst_append hquery]
      exact List.append_nil path
    · rw [show beforeFirst '#' ('#' :: tail) = [] from rfl, List.append_nil,
        beforeFirst_of_notMem hquery]

/-- A path that has no parameters keeps its last segment. -/
theorem dropParameters_eq {path : List Char} (h : ';' ∉ path) : dropParameters path = path := by
  have hsuffix : afterLast '/' path <:+ path := by
    rw [← List.reverse_prefix, afterLast, List.reverse_reverse]
    exact List.takeWhile_prefix _
  have hlast : beforeFirst ';' (afterLast '/' path) = afterLast '/' path :=
    beforeFirst_of_notMem fun hmem => h (hsuffix.subset hmem)
  have hdrop := List.suffix_iff_eq_drop.mp hsuffix
  calc dropParameters path
      = path.take (path.length - (afterLast '/' path).length) ++ afterLast '/' path := by
        rw [dropParameters, hlast]
    _ = path := by
        nth_rewrite 2 [hdrop]
        exact List.take_append_drop _ path

/-- Behind the scheme and two slashes, the authority goes up to the first delimiter. -/
theorem parts_of_https {url s : List Char} (h : cleaned url = "https://".toList ++ s) :
    parts url = (do
      checkBrackets (s.takeWhile (!isDelimiter ·))
      checkDelimiters (s.takeWhile (!isDelimiter ·))
      return ⟨"https".toList, s.takeWhile (!isDelimiter ·),
        dropParameters (beforeFirst '?' (beforeFirst '#' (s.dropWhile (!isDelimiter ·))))⟩) := by
  have hscheme : splitScheme (cleaned url) = ("https".toList, "//".toList ++ s) := by
    rw [h]
    exact splitScheme_https ("//".toList ++ s)
  simp only [cleaned, isBreak] at hscheme
  rw [parts, hscheme]
  rfl

theorem parts_address {host path tail : List Char} (hhost : IsHost host) (hpath : Clear path)
    (htail : Tail tail) :
    parts ("https://".toList ++ (host ++ ('/' :: path ++ tail))) =
      .ok ⟨"https".toList, host, '/' :: path⟩ := by
  have hclear := hpath.slash_cons
  have hclean : cleaned ("https://".toList ++ (host ++ ('/' :: path ++ tail))) =
      "https://".toList ++ (host ++ ('/' :: path ++ tail.filter (!isBreak ·))) := by
    have hfront : ("https://".toList ++ (host ++ ('/' :: path ++ tail))).dropWhile
        (fun c => decide (c.toNat ≤ 0x20)) = "https://".toList ++ (host ++ ('/' :: path ++ tail)) :=
      rfl
    rw [cleaned, hfront, List.filter_append, List.filter_append, List.filter_append,
      hhost.clear.filter_eq, hclear.filter_eq]
    rfl
  have hend : ∀ c ∈ ('/' :: path ++ tail.filter (!isBreak ·)).head?, (!isDelimiter c) = false := by
    rintro c ⟨⟩
    rfl
  have hauthority := takeWhile_dropWhile_append hhost.not_isDelimiter hend
  have hsemicolon : ';' ∉ '/' :: path := fun h => (hclear _ h).2.2.2 rfl
  rw [parts_of_https hclean, hauthority.1, hauthority.2, hhost.brackets, hhost.delimiters,
    beforeFirst_path hclear htail.filter, dropParameters_eq hsemicolon]
  rfl

/-! ### Spellings -/

/-- The address of a place on a host. -/
def address (host : String) (segments : List String) : String :=
  "https://" ++ host ++ "/" ++ join "/" segments

/-- The ways to write the address of a place: there may be blanks around it, a query or a fragment
behind it, and empty segments anywhere in its path. -/
inductive Spells (host : String) (segments : List String) : String → Prop
  | intro {before tail after : String} {padded : List String} :
      Blanks before.toList → padded.filter (· ≠ "") = segments → Tail tail.toList →
      Blanks after.toList → Spells host segments (before ++ address host padded ++ tail ++ after)

/-- Whether a text may stand between the slashes of a path. -/
structure Segment (s : String) : Prop where
  ne_empty : s ≠ ""
  slash_notMem : '/' ∉ s.toList
  clear : Clear s.toList

instance : DecidablePred Segment :=
  fun s => decidable_of_iff (s ≠ "" ∧ '/' ∉ s.toList ∧ Clear s.toList)
    ⟨fun h => ⟨h.1, h.2.1, h.2.2⟩, fun h => ⟨h.ne_empty, h.slash_notMem, h.clear⟩⟩

theorem toList_address (host : String) (segments : List String) :
    (address host segments).toList =
      "https://".toList ++ (host.toList ++ '/' :: (join "/" segments).toList) := by
  simp [address]

variable {host url : String} {segments : List String}

/-- The plainest way to write an address. -/
theorem spells_address (h : ∀ s ∈ segments, s ≠ "") :
    Spells host segments (address host segments) := by
  have hpadded : segments.filter (· ≠ "") = segments := by
    simpa using h
  have hnone : Blanks "".toList := fun c hc => absurd hc List.not_mem_nil
  have hspells : Spells host segments ("" ++ address host segments ++ "" ++ "") :=
    .intro hnone hpadded (by decide) hnone
  simpa using hspells

/-- The segments of a path are those that were joined, without the empty ones. -/
theorem segments_join {padded : List String} (hne : padded ≠ [])
    (hslash : ∀ s ∈ padded, '/' ∉ s.toList) :
    ((('/' :: (join "/" padded).toList).splitOn '/').filter (!·.isEmpty)).map String.ofList =
      padded.filter (· ≠ "") := by
  have hsplit : (join "/" padded).toList.splitOn '/' = padded.map String.toList := by
    rw [join, String.toList_ofList]
    refine List.splitOn_intercalate '/' ?_ (by simpa using hne)
    intro s hs
    obtain ⟨t, ht, rfl⟩ := List.mem_map.mp hs
    exact hslash t ht
  have hfirst := List.splitOn_append_cons_self_of_not_mem (List.not_mem_nil (a := '/'))
    (join "/" padded).toList
  have hempty : ((!·.isEmpty) ∘ String.toList) = fun s : String => decide (s ≠ "") := by
    funext s
    rw [Bool.eq_iff_iff]
    simp
  rw [List.nil_append] at hfirst
  rw [hfirst, hsplit, List.filter_cons_of_neg (by simp), List.filter_map, List.map_map, hempty]
  exact List.map_id'' (fun _ => String.ofList_toList) _

/-- However the address of a place is written, its parts give the host and the segments. -/
theorem Spells.parts_eq (hhost : IsHost host.toList) (hne : segments ≠ [])
    (hsegments : ∀ s ∈ segments, Segment s) (h : Spells host segments url) :
    ∃ path, parts (trimBy isBlank url.toList) = .ok ⟨"https".toList, host.toList, path⟩ ∧
      ((path.splitOn '/').filter (!·.isEmpty)).map String.ofList = segments := by
  obtain @⟨before, tail, after, padded, hbefore, rfl, htail, hafter⟩ := h
  -- the parts between slashes are segments or empty
  have hpadded : ∀ s ∈ padded, '/' ∉ s.toList ∧ Clear s.toList := by
    intro s hs
    by_cases hempty : s = ""
    · rw [hempty]
      exact ⟨List.not_mem_nil, fun c hc => absurd hc List.not_mem_nil⟩
    · have hsegment := hsegments s (List.mem_filter.mpr ⟨hs, decide_eq_true hempty⟩)
      exact ⟨hsegment.slash_notMem, hsegment.clear⟩
  have hpath : Clear (join "/" padded).toList := .of_join fun s hs => (hpadded s hs).2
  have hfront : Clear (("https://".toList ++ host.toList) ++ '/' :: (join "/" padded).toList) :=
    (Clear.append (by decide) hhost.clear).append hpath.slash_cons
  obtain ⟨tail', back, hback, htail', hblanks, hlast⟩ := htail.exists_trimmed hafter
  have htrim : trimBy isBlank (before ++ address host padded ++ tail ++ after).toList =
      "https://".toList ++ (host.toList ++ ('/' :: (join "/" padded).toList ++ tail')) := by
    have happend : (before ++ address host padded ++ tail ++ after).toList = before.toList ++
        ("https://".toList ++ (host.toList ++ ('/' :: (join "/" padded).toList ++ tail'))) ++
          back := by
      simp only [String.toList_append, toList_address, List.append_assoc, hback, List.cons_append]
    rw [happend]
    refine trimBy_append hbefore hblanks ?_ ?_
    · rintro c ⟨⟩
      decide
    · -- the last character stands in the tail, or in the path if there is no tail
      intro c hc
      rw [← List.append_assoc, ← List.append_assoc, List.getLast?_append, Option.mem_def,
        Option.or_eq_some_iff] at hc
      rcases hc with hc | ⟨-, hc⟩
      · exact hlast c hc
      · exact (hfront c (List.mem_of_getLast? hc)).1
  refine ⟨'/' :: (join "/" padded).toList, ?_, ?_⟩
  · rw [htrim]
    exact parts_address hhost hpath htail'
  · refine segments_join ?_ fun s hs => (hpadded s hs).1
    rintro rfl
    exact hne rfl

end Url

/-! ### Locations -/

namespace Location

/-- The segments in the address of the page that shows the file. -/
def pageSegments (l : Location) : List String :=
  l.owner :: l.repo :: "blob" :: l.branch :: split '/' l.path

/-- The segments in the address of the file's bare content. -/
def contentSegments (l : Location) : List String :=
  l.owner :: l.repo :: l.branch :: split '/' l.path

/-- Whether owner, repository, branch and the segments of the path may all stand between the slashes
of an address. -/
def Addressable (l : Location) : Prop :=
  ∀ s ∈ l.contentSegments, Url.Segment s

instance : DecidablePred Addressable :=
  fun l => inferInstanceAs (Decidable (∀ s ∈ l.contentSegments, Url.Segment s))

theorem join_split (path : String) : join "/" (split '/' path) = path := by
  have htexts : (split '/' path).map String.toList = path.toList.splitOn '/' := by
    rw [split, List.map_map]
    exact List.map_id'' (fun _ => String.toList_ofList) _
  rw [join, htexts]
  exact (congrArg String.ofList (List.intercalate_splitOn '/')).trans String.ofList_toList

theorem toList_join_cons {segments : List String} (h : segments ≠ []) (segment : String) :
    (join "/" (segment :: segments)).toList =
      segment.toList ++ '/' :: (join "/" segments).toList := by
  have hne : segments.map String.toList ≠ [] := by simpa using h
  simp only [join, String.toList_ofList, List.map_cons, List.intercalate_cons_of_ne_nil hne,
    List.append_assoc]
  rfl

theorem split_ne_nil (path : String) : split '/' path ≠ [] := by
  simp [split]

theorem blobUrl_eq_address (l : Location) :
    l.blobUrl = Url.address "github.com" l.pageSegments := by
  have hpath : (join "/" l.pageSegments).toList = l.owner.toList ++ '/' :: (l.repo.toList ++
      '/' :: ("blob".toList ++ '/' :: (l.branch.toList ++ '/' :: l.path.toList))) := by
    rw [pageSegments, toList_join_cons (List.cons_ne_nil _ _),
      toList_join_cons (List.cons_ne_nil _ _), toList_join_cons (List.cons_ne_nil _ _),
      toList_join_cons (split_ne_nil l.path), join_split]
  apply String.toList_inj.mp
  rw [Url.toList_address, hpath]
  unfold blobUrl
  simp only [String.toList_append, List.append_assoc]
  rfl

theorem rawUrl_eq_address (l : Location) :
    l.rawUrl = Url.address "raw.githubusercontent.com" l.contentSegments := by
  have hpath : (join "/" l.contentSegments).toList = l.owner.toList ++ '/' :: (l.repo.toList ++
      '/' :: (l.branch.toList ++ '/' :: l.path.toList)) := by
    rw [contentSegments, toList_join_cons (List.cons_ne_nil _ _),
      toList_join_cons (List.cons_ne_nil _ _), toList_join_cons (split_ne_nil l.path), join_split]
  apply String.toList_inj.mp
  rw [Url.toList_address, hpath]
  unfold rawUrl
  simp only [String.toList_append, List.append_assoc]
  rfl

/-- Both hosts are read as they are written. -/
theorem hosts_read :
    (Url.IsHost "github.com".toList ∧ Url.host "github.com".toList = "github.com") ∧
      Url.IsHost "raw.githubusercontent.com".toList ∧
        Url.host "raw.githubusercontent.com".toList = "raw.githubusercontent.com" := by
  refine ⟨⟨⟨by decide, by decide, rfl, rfl⟩, ?_⟩, ⟨by decide, by decide, rfl, rfl⟩, ?_⟩
  · decide +kernel
  · decide +kernel

section

variable {l : Location} {url : String}

theorem Addressable.segment_of_mem_page (hl : l.Addressable) :
    ∀ s ∈ l.pageSegments, Url.Segment s := by
  intro s hs
  by_cases hblob : s = "blob"
  · rw [hblob]
    decide
  · refine hl s ?_
    simpa [pageSegments, contentSegments, hblob] using hs

theorem ofUrl_page (hl : l.Addressable) (h : Url.Spells "github.com" l.pageSegments url) :
    ofUrl url = .ok l := by
  obtain ⟨hhost, hname⟩ := hosts_read.1
  obtain ⟨path, hparts, hpath⟩ :=
    h.parts_eq hhost (List.cons_ne_nil _ _) hl.segment_of_mem_page
  have hrest : (split '/' l.path).isEmpty = false := by
    simpa using split_ne_nil l.path
  unfold ofUrl
  rw [hparts]
  dsimp only [Bind.bind, Except.bind]
  rw [hpath, hname]
  dsimp only [pageSegments]
  rw [hrest, join_split]
  rfl

theorem ofUrl_content (hl : l.Addressable)
    (h : Url.Spells "raw.githubusercontent.com" l.contentSegments url) : ofUrl url = .ok l := by
  obtain ⟨hhost, hname⟩ := hosts_read.2
  obtain ⟨path, hparts, hpath⟩ := h.parts_eq hhost (List.cons_ne_nil _ _) hl
  obtain ⟨first, rest, hrest⟩ := List.exists_cons_of_ne_nil (split_ne_nil l.path)
  have hjoin : join "/" (first :: rest) = l.path := by rw [← hrest, join_split]
  unfold ofUrl
  rw [hparts]
  dsimp only [Bind.bind, Except.bind]
  rw [hpath, hname, hrest]
  dsimp only
  rw [hjoin]
  rfl

end

/-- **Addresses give back the location.**  If owner, repository, branch and all segments of the path
may stand between the slashes of an address, then both addresses of a location are read as the
location, also with blanks around them, a query or a fragment behind them and empty segments
anywhere in their paths. -/
theorem ofUrl_spelled {l : Location} (hl : l.Addressable) :
    (ofUrl l.blobUrl = .ok l ∧ ofUrl l.rawUrl = .ok l) ∧
      (l.blobUrl = Url.address "github.com" l.pageSegments ∧
        ∀ url, Url.Spells "github.com" l.pageSegments url → ofUrl url = .ok l) ∧
      (l.rawUrl = Url.address "raw.githubusercontent.com" l.contentSegments ∧
        ∀ url, Url.Spells "raw.githubusercontent.com" l.contentSegments url →
          ofUrl url = .ok l) := by
  have hpage := blobUrl_eq_address l
  have hcontent := rawUrl_eq_address l
  refine ⟨⟨?_, ?_⟩, ⟨hpage, fun url => ofUrl_page hl⟩, hcontent, fun url => ofUrl_content hl⟩
  · rw [hpage]
    exact ofUrl_page hl (Url.spells_address fun s hs => (hl.segment_of_mem_page s hs).ne_empty)
  · rw [hcontent]
    exact ofUrl_content hl (Url.spells_address fun s hs => (hl s hs).ne_empty)

/-- A file whose path has characters with a meaning elsewhere in addresses. -/
def oddlyNamed : Location :=
  ⟨"acme", "vault", "blob", "src/@scope/Größe:[1]%2F.sol"⟩

theorem ofUrl_spelled_oddlyNamed :
    oddlyNamed.Addressable ∧
      ofUrl "https://github.com/acme/vault/blob/blob/src/@scope/Größe:[1]%2F.sol" =
        .ok oddlyNamed ∧
      ofUrl
        "\n https://raw.githubusercontent.com//acme/vault/blob/src//@scope/Größe:[1]%2F.sol/?a# " =
          .ok oddlyNamed := by
  have haddressable : oddlyNamed.Addressable := by decide +kernel
  obtain ⟨⟨hblob, -⟩, -, -, hcontent⟩ := ofUrl_spelled haddressable
  have hspelled : Url.Spells "raw.githubusercontent.com" oddlyNamed.contentSegments
      ("\n " ++ Url.address "raw.githubusercontent.com"
        ["", "acme", "vault", "blob", "src", "", "@scope", "Größe:[1]%2F.sol", ""] ++ "?a#" ++
          " ") :=
    .intro (by decide) (by decide +kernel) (by decide) (by decide)
  refine ⟨haddressable, ?_, ?_⟩
  · exact hblob
  · exact hcontent _ hspelled

end Location

end CallAtlas

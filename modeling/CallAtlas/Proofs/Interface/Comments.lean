import CallAtlas.Interface.Edge
import CallAtlas.Proofs.Scan

/-!
# Texts without comments

A comment becomes a blank, so what stands before and behind it does not come together: no two
characters other than blanks are neighbours in the stripped text that were not neighbours before
(`pair_of_stripComments`).  Hence stripping leaves no comment, and opens no new one.

* `CommentFree s`: no two slashes are neighbours, and no block is opened and closed.
* `commentFree_stripComments`: this is so when comments are stripped.
* `stripComments_eq_self_iff`: only texts without comments stay as they are.
* `detect_of_stripped`: texts that differ in comments alone have the same edges.
* `comments_ignored`: all of it for the edges that are detected.
-/

namespace CallAtlas.Interface

open CallAtlas.Text

/-- Whether a text has no comment: no two slashes are neighbours, and behind the characters that
open a block there are none that close it. -/
structure CommentFree (s : List Char) : Prop where
  no_line : ¬ ['/', '/'] <:+: s
  no_block : ∀ front back, s = front ++ '/' :: '*' :: back → ¬ ['*', '/'] <:+: back

/-! ### One comment -/

theorem afterBlock?_eq_none_iff {s : List Char} : afterBlock? s = none ↔ ¬ ['*', '/'] <:+: s := by
  fun_induction afterBlock? s with
  | case1 => exact iff_of_true rfl (by simp)
  | case2 s => exact iff_of_false (by simp) (not_not.mpr ⟨[], s, rfl⟩)
  | case3 c s hne ih =>
    rw [ih, List.infix_cons_iff, not_or]
    refine (and_iff_right ?_).symm
    rintro ⟨rest, heq⟩
    obtain ⟨rfl, rfl⟩ := List.cons.inj heq
    exact hne rest rfl rfl

theorem of_afterBlock? {s rest : List Char} (h : afterBlock? s = some rest) :
    ∃ body, s = body ++ '*' :: '/' :: rest := by
  fun_induction afterBlock? s with
  | case1 => cases h
  | case2 s => exact ⟨[], by rw [Option.some.inj h, List.nil_append]⟩
  | case3 c s hne ih =>
    obtain ⟨body, rfl⟩ := ih h
    exact ⟨c :: body, rfl⟩

theorem comment_before (before : Option Char) (s : List Char) :
    comment before s = comment none s := by
  fun_cases comment before s with
  | case1 before s => rfl
  | case2 before s => rfl
  | case3 before s hblock hline => rw [comment.eq_3 none s hblock hline]

/-- A comment is a block up to its end or the rest of a line, and becomes a blank. -/
theorem of_comment {s new rest : List Char} (h : comment none s = some (new, rest)) :
    new = [' '] ∧ ((∃ body, s = '/' :: '*' :: (body ++ '*' :: '/' :: rest)) ∨
      ∃ line, s = '/' :: '/' :: (line ++ rest)) := by
  rw [comment.eq_def] at h
  split at h
  next _ s =>
    obtain ⟨rest', hafter, hnew⟩ := Option.map_eq_some_iff.mp h
    obtain ⟨rfl, rfl⟩ := Prod.mk.inj hnew
    obtain ⟨body, rfl⟩ := of_afterBlock? hafter
    exact ⟨rfl, .inl ⟨body, rfl⟩⟩
  next _ s =>
    obtain ⟨rfl, rfl⟩ := Prod.mk.inj (Option.some.inj h)
    exact ⟨rfl, .inr ⟨s.takeWhile (· != '\n'), by rw [List.takeWhile_append_dropWhile]⟩⟩
  next => cases h

theorem progressive_comment : Progressive comment := by
  intro before s new rest h
  rw [comment_before] at h
  rcases (of_comment h).2 with ⟨body, rfl⟩ | ⟨line, rfl⟩
  · exact ⟨'/' :: '*' :: (body ++ ['*', '/']), by simp, by simp⟩
  · exact ⟨'/' :: '/' :: line, by simp, by simp⟩

/-! ### Stripping -/

theorem stripComments_of_none {c : Char} {s : List Char} (h : comment none (c :: s) = none) :
    stripComments (c :: s) = c :: stripComments s :=
  replaceHits_of_none comment_before h

theorem stripComments_of_some {taken new rest : List Char} (htaken : taken ≠ [])
    (h : comment none (taken ++ rest) = some (new, rest)) :
    stripComments (taken ++ rest) = ' ' :: stripComments rest := by
  rw [stripComments, replaceHits_of_some comment_before htaken h, (of_comment h).1]
  rfl

/-- What holds of the empty text, and of a text if it holds of what is left behind its first
character or its first comment, holds of every text. -/
theorem strip_induction {motive : List Char → Prop} (nil : motive [])
    (plain : ∀ c s, comment none (c :: s) = none → motive s → motive (c :: s))
    (stripped : ∀ taken new rest, taken ≠ [] → comment none (taken ++ rest) = some (new, rest) →
      motive rest → motive (taken ++ rest)) (s : List Char) : motive s := by
  refine scan_induction progressive_comment (motive := fun _ s => motive s) (fun _ => nil) ?_ ?_
    none s
  · intro before c s h
    rw [comment_before] at h
    exact plain c s h
  · intro before taken new rest htaken h
    rw [comment_before] at h
    exact stripped taken new rest htaken h

/-- A character other than a blank comes from the text. -/
theorem of_stripComments_eq_cons {x : Char} (hx : x ≠ ' ') {s back : List Char}
    (h : stripComments s = x :: back) :
    ∃ rest, s = x :: rest ∧ back = stripComments rest := by
  rcases s with _ | ⟨c, s⟩
  · cases h
  · rcases hcomment : comment none (c :: s) with _ | ⟨new, rest⟩
    · rw [stripComments_of_none hcomment] at h
      obtain ⟨rfl, rfl⟩ := List.cons.inj h
      exact ⟨s, rfl, rfl⟩
    · obtain ⟨taken, htaken, heq⟩ := progressive_comment none _ _ _ hcomment
      rw [heq] at h hcomment
      rw [stripComments_of_some htaken hcomment] at h
      exact absurd (List.cons.inj h).1.symm hx

/-- Neighbours other than blanks are neighbours in the text. -/
theorem pair_of_stripComments {x y : Char} (hx : x ≠ ' ') (hy : y ≠ ' ') {s : List Char}
    (h : [x, y] <:+: stripComments s) : [x, y] <:+: s := by
  induction s using strip_induction with
  | nil => exact h
  | plain c s hcomment ih =>
    rw [stripComments_of_none hcomment, List.infix_cons_iff] at h
    rcases h with ⟨back, heq⟩ | h
    · obtain ⟨rfl, hback⟩ := List.cons.inj heq
      obtain ⟨rest, rfl, -⟩ := of_stripComments_eq_cons hy hback.symm
      exact ⟨[], rest, rfl⟩
    · exact List.infix_cons (ih h)
  | stripped taken new rest htaken hcomment ih =>
    rw [stripComments_of_some htaken hcomment, List.infix_cons_iff] at h
    rcases h with ⟨back, heq⟩ | h
    · exact absurd (List.cons.inj heq).1 hx
    · exact (ih h).trans (List.suffix_append taken rest).isInfix

/-! ### No comments -/

namespace CommentFree

variable {c : Char} {s : List Char}

theorem nil : CommentFree [] :=
  ⟨by simp, by simp⟩

theorem tail (h : CommentFree (c :: s)) : CommentFree s where
  no_line hline := h.no_line (List.infix_cons hline)
  no_block front back hs := h.no_block (c :: front) back (by rw [hs, List.cons_append])

theorem cons (h : CommentFree s) (hline : c = '/' → ∀ rest, s ≠ '/' :: rest)
    (hblock : c = '/' → ∀ rest, s = '*' :: rest → ¬ ['*', '/'] <:+: rest) :
    CommentFree (c :: s) where
  no_line := by
    rw [List.infix_cons_iff]
    rintro (⟨rest, heq⟩ | hinfix)
    · obtain ⟨rfl, rfl⟩ := List.cons.inj heq
      exact hline rfl rest rfl
    · exact h.no_line hinfix
  no_block := by
    intro front back heq
    rcases front with _ | ⟨d, front⟩
    · obtain ⟨rfl, rfl⟩ := List.cons.inj heq
      exact hblock rfl back rfl
    · exact h.no_block front back (List.cons.inj heq).2

theorem comment_eq_none (h : CommentFree s) : comment none s = none := by
  rw [Option.eq_none_iff_forall_ne_some]
  rintro ⟨new, rest⟩ hcomment
  rcases (of_comment hcomment).2 with ⟨body, rfl⟩ | ⟨line, rfl⟩
  · exact h.no_block [] (body ++ '*' :: '/' :: rest) rfl ⟨body, rest, by simp⟩
  · exact h.no_line ⟨[], line ++ rest, rfl⟩

theorem stripComments_eq (h : CommentFree s) : stripComments s = s := by
  induction s with
  | nil => rfl
  | cons c s ih => rw [stripComments_of_none h.comment_eq_none, ih h.tail]

end CommentFree

theorem commentFree_stripComments (s : List Char) : CommentFree (stripComments s) := by
  induction s using strip_induction with
  | nil => exact CommentFree.nil
  | plain c s hcomment ih =>
    rw [stripComments_of_none hcomment]
    refine ih.cons ?_ ?_
    · -- two slashes would have been neighbours before
      rintro rfl rest heq
      obtain ⟨rest, rfl, -⟩ := of_stripComments_eq_cons (by decide) heq
      cases hcomment
    · -- the block is open in the text, where nothing closes it
      rintro rfl rest heq hinfix
      obtain ⟨rest, rfl, rfl⟩ := of_stripComments_eq_cons (by decide) heq
      have hopen : afterBlock? rest = none := Option.map_eq_none_iff.mp hcomment
      exact afterBlock?_eq_none_iff.mp hopen (pair_of_stripComments (by decide) (by decide) hinfix)
  | stripped taken new rest htaken hcomment ih =>
    rw [stripComments_of_some htaken hcomment]
    exact ih.cons (fun h => absurd h (by decide)) fun h => absurd h (by decide)

theorem stripComments_eq_self_iff {s : List Char} : stripComments s = s ↔ CommentFree s := by
  refine ⟨fun h => ?_, CommentFree.stripComments_eq⟩
  have hfree := commentFree_stripComments s
  rwa [h] at hfree

/-! ### Detection -/

section

variable {text text' : String}

/-- The patterns look at the stripped text only. -/
theorem edges_of_stripped {p : Pattern} (hp : p ∈ Pattern.all)
    (h : stripComments text.toList = stripComments text'.toList) (entities : List Entity) :
    p.edges text entities = p.edges text' entities := by
  simp only [Pattern.all, List.mem_cons, List.not_mem_nil, or_false] at hp
  rcases hp with rfl | rfl | rfl | rfl
  · simp only [Pattern.direct, directEdges, h]
  · simp only [Pattern.handle, handleEdges, h]
  · simp only [Pattern.member, methodEdges, h]
  · simp only [Pattern.byName, nameEdges, h]

theorem detect_of_stripped {patterns : List Pattern} (hpatterns : ∀ p ∈ patterns, p ∈ Pattern.all)
    (h : stripComments text.toList = stripComments text'.toList) (entities : List Entity)
    (caller : String) :
    detect patterns text entities caller = detect patterns text' entities caller := by
  refine List.foldl_ext _ _ _ fun found p hp => ?_
  rw [detectWith, detectWith, edges_of_stripped (hpatterns p hp) h]

end

/-- **Comments play no part.**  Stripping comments leaves none: no line comment and no block that is
closed.  It changes only texts that have one, so stripping twice is stripping once.  And the edges
detected in a text are those detected in the stripped text. -/
theorem comments_ignored (text : String) :
    CommentFree (stripComments text.toList) ∧
      stripComments (stripComments text.toList) = stripComments text.toList ∧
      (stripComments text.toList = text.toList ↔ CommentFree text.toList) ∧
      ∀ patterns : List Pattern, (∀ p ∈ patterns, p ∈ Pattern.all) →
        ∀ (entities : List Entity) (caller : String),
          detect patterns (String.ofList (stripComments text.toList)) entities caller =
            detect patterns text entities caller := by
  have hfree := commentFree_stripComments text.toList
  refine ⟨hfree, hfree.stripComments_eq, stripComments_eq_self_iff, ?_⟩
  intro patterns hpatterns entities caller
  refine detect_of_stripped hpatterns ?_ entities caller
  rw [String.toList_ofList, hfree.stripComments_eq]

/-- A text with a comment in a cast, a call in a comment, and a block that is opened only. -/
def commentedText : String :=
  "IVault v = IVault(a /* b); */); // v.burn();\nv.mint(); /*/"

theorem detect_commentedText :
    stripComments commentedText.toList = "IVault v = IVault(a  );  \nv.mint(); /*/".toList ∧
      (detect Pattern.all commentedText [] "run").map Edge.callee = ["IVault.mint"] := by
  decide +kernel

/-- Both comments become blanks, the open block stays, and of the two calls the one outside comments
is found with and without them. -/
theorem comments_ignored_commentedText :
    stripComments commentedText.toList = "IVault v = IVault(a  );  \nv.mint(); /*/".toList ∧
      CommentFree (stripComments commentedText.toList) ∧ ¬ CommentFree commentedText.toList ∧
      (∀ p ∈ Pattern.all, p ∈ Pattern.all) ∧
      (detect Pattern.all (String.ofList (stripComments commentedText.toList)) [] "run").map
        Edge.callee = ["IVault.mint"] := by
  obtain ⟨hstripped, hedges⟩ := detect_commentedText
  obtain ⟨hfree, -, hself, hdetect⟩ := comments_ignored commentedText
  refine ⟨hstripped, hfree, ?_, fun p hp => hp, ?_⟩
  · rw [← hself, hstripped]
    decide
  · rw [hdetect Pattern.all (fun p hp => hp) [] "run", hedges]

end CallAtlas.Interface

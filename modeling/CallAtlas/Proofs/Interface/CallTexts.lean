import CallAtlas.Interface.Edge
import CallAtlas.Proofs.Scan

/-!
# Calls as they are written

The three recognisers of calls each take the texts of a form, and what a scan finds with them is
said by that form.

* `MemberCall.Written`: `receiver.method(`, with blanks in front of the parenthesis.
* `MemberCall.WrittenOnCast`: `Name(expr).method(`, likewise.
* `Declaration.Written`: `Type handle = Name(expr);`, with blanks around the handle and the sign.
* `CallsMember s receiver method`: the member is called on the receiver somewhere in `s`.
* `mem_hits_memberCall`: the member calls that are found are those that are there.
* `called_of_callsName`: what is called by its name has a parenthesis behind it.
-/

namespace CallAtlas.Interface

open CallAtlas.Text

/-! ### The forms -/

/-- The text of a member call. -/
inductive MemberCall.Written : MemberCall → List Char → Prop
  | intro {receiver method blanks : List Char} : Word receiver → Word method → Blanks blanks →
      Written ⟨receiver, method⟩ (receiver ++ '.' :: (method ++ (blanks ++ ['('])))

/-- The text of a call on a cast, whose name is the receiver. -/
inductive MemberCall.WrittenOnCast : MemberCall → List Char → Prop
  | intro {name argument method blanks : List Char} : Word name → argument ≠ [] → ')' ∉ argument →
      Word method → Blanks blanks → WrittenOnCast ⟨name, method⟩
        (name ++ '(' :: (argument ++ ')' :: '.' :: (method ++ (blanks ++ ['(']))))

/-- A declaration of a handle, with the name that is called for its value. -/
structure Declaration where
  type : List Char
  name : List Char
  cast : List Char
deriving DecidableEq, Repr

/-- The text of a declaration. -/
inductive Declaration.Written : Declaration → List Char → Prop
  | intro {type gap name blanks blanks' cast argument : List Char} : Word type → gap ≠ [] →
      Blanks gap → Word name → Blanks blanks → Blanks blanks' → Word cast → argument ≠ [] →
      ')' ∉ argument → Written ⟨type, name, cast⟩
        (type ++ (gap ++ (name ++ (blanks ++ '=' :: (blanks' ++ (cast ++
          '(' :: (argument ++ [')', ';'])))))))

/-- The declared handle. -/
def Declaration.handle (d : Declaration) : Handle :=
  ⟨d.type, d.name⟩

/-- A declaration of a handle, with the name that is called for its value. -/
def declaration : Recogniser Declaration := fun _ s => do
  let (type, s) ← word? s
  let s ← blanks? s
  let (name, s) ← word? s
  let s ← take? '=' (skipBlanks s)
  let (cast, s) ← word? (skipBlanks s)
  let s ← enclosed? s
  let s ← take? ';' s
  return (⟨type, name, cast⟩, s)

theorem handleDeclaration_eq_map (before : Option Char) (s : List Char) :
    handleDeclaration before s =
      (declaration before s).map (Prod.map Declaration.handle id) := by
  simp only [handleDeclaration, declaration, Option.bind_eq_bind, Option.map_bind,
    Function.comp_def]
  rfl

/-! ### What the recognisers take -/

theorem enclosed?_append {argument rest : List Char} (hne : argument ≠ [])
    (hargument : ')' ∉ argument) : enclosed? ('(' :: (argument ++ ')' :: rest)) = some rest := by
  have hall : ∀ c ∈ argument, (c != ')') = true := by
    intro c hc
    rw [bne_iff_ne]
    rintro rfl
    exact hargument hc
  have hhead : ∀ c ∈ (')' :: rest).head?, (c != ')') = false := by
    rintro c ⟨⟩
    rfl
  obtain ⟨htake, hdrop⟩ := takeWhile_dropWhile_append hall hhead
  simp only [enclosed?, take?_cons, Option.bind_eq_bind, Option.bind_some, htake, hdrop,
    if_neg hne]

theorem of_enclosed? {s rest : List Char} (h : enclosed? s = some rest) :
    ∃ argument, argument ≠ [] ∧ ')' ∉ argument ∧ s = '(' :: (argument ++ ')' :: rest) := by
  simp only [enclosed?, Option.bind_eq_bind, Option.bind_eq_some_iff] at h
  obtain ⟨s, hopen, h⟩ := h
  split_ifs at h with hnil
  rw [of_take? hopen]
  refine ⟨s.takeWhile (· != ')'), hnil, ?_, ?_⟩
  · intro hmem
    have hne := List.mem_takeWhile_imp hmem
    simp at hne
  · rw [← of_take? h, List.takeWhile_append_dropWhile]

theorem recognises_memberCall : Recognises memberCall MemberCall.Written := by
  intro before s call rest
  constructor
  · intro h
    simp only [memberCall, Option.bind_eq_bind, Option.bind_eq_some_iff, Prod.exists] at h
    obtain ⟨receiver, s₁, h₁, s₂, h₂, method, s₃, h₃, s₄, h₄, h⟩ := h
    obtain ⟨rfl, rfl⟩ := Prod.mk.inj (Option.some.inj h)
    obtain ⟨hreceiver, rfl⟩ := of_word? h₁
    obtain rfl := of_take? h₂
    obtain ⟨hmethod, rfl⟩ := of_word? h₃
    obtain ⟨blanks, hblanks, rfl⟩ := of_take?_skipBlanks h₄
    exact ⟨_, .intro hreceiver hmethod hblanks, by simp⟩
  · rintro ⟨text, @⟨receiver, method, blanks, hreceiver, hmethod, hblanks⟩, rfl⟩
    have hopen : EndsWord (blanks ++ '(' :: rest) :=
      endsWord_blanks_append hblanks (endsWord_cons (by decide) rest)
    have hdot : EndsWord ('.' :: (method ++ (blanks ++ '(' :: rest))) :=
      endsWord_cons (by decide) _
    simp [memberCall, word?_append hreceiver hdot, take?_cons, word?_append hmethod hopen,
      take?_skipBlanks (c := '(') (by decide) hblanks]

theorem recognises_directCast : Recognises directCast MemberCall.WrittenOnCast := by
  intro before s call rest
  constructor
  · intro h
    simp only [directCast, Option.bind_eq_bind, Option.bind_eq_some_iff, Prod.exists] at h
    obtain ⟨name, s₁, h₁, s₂, h₂, s₃, h₃, method, s₄, h₄, s₅, h₅, h⟩ := h
    obtain ⟨rfl, rfl⟩ := Prod.mk.inj (Option.some.inj h)
    obtain ⟨hname, rfl⟩ := of_word? h₁
    obtain ⟨argument, hne, hargument, rfl⟩ := of_enclosed? h₂
    obtain rfl := of_take? h₃
    obtain ⟨hmethod, rfl⟩ := of_word? h₄
    obtain ⟨blanks, hblanks, rfl⟩ := of_take?_skipBlanks h₅
    exact ⟨_, .intro hname hne hargument hmethod hblanks, by simp⟩
  · rintro ⟨text, @⟨name, argument, method, blanks, hname, hne, hargument, hmethod, hblanks⟩, rfl⟩
    have hopen : EndsWord (blanks ++ '(' :: rest) :=
      endsWord_blanks_append hblanks (endsWord_cons (by decide) rest)
    have hcast : EndsWord ('(' :: (argument ++ ')' :: '.' :: (method ++
        (blanks ++ '(' :: rest)))) := endsWord_cons (by decide) _
    simp [directCast, word?_append hname hcast, enclosed?_append hne hargument, take?_cons,
      word?_append hmethod hopen, take?_skipBlanks (c := '(') (by decide) hblanks]

theorem recognises_declaration : Recognises declaration Declaration.Written := by
  intro before s d rest
  constructor
  · intro h
    simp only [declaration, Option.bind_eq_bind, Option.bind_eq_some_iff, Prod.exists] at h
    obtain ⟨type, s₁, h₁, s₂, h₂, name, s₃, h₃, s₄, h₄, cast, s₅, h₅, s₆, h₆, s₇, h₇, h⟩ := h
    obtain ⟨rfl, rfl⟩ := Prod.mk.inj (Option.some.inj h)
    -- each part that was read, from left to right
    obtain ⟨htype, rfl⟩ := of_word? h₁
    obtain ⟨gap, hgap, hgaps, rfl⟩ := of_blanks? h₂
    obtain ⟨hname, rfl⟩ := of_word? h₃
    obtain ⟨blanks, hblanks, rfl⟩ := of_take?_skipBlanks h₄
    obtain ⟨blanks', hblanks', hs₄⟩ := exists_blanks s₄
    obtain ⟨hcast, hvalue⟩ := of_word? h₅
    obtain ⟨argument, hne, hargument, rfl⟩ := of_enclosed? h₆
    obtain rfl := of_take? h₇
    rw [hs₄, hvalue]
    exact ⟨_, .intro htype hgap hgaps hname hblanks hblanks' hcast hne hargument, by simp⟩
  · rintro ⟨text, @⟨type, gap, name, blanks, blanks', cast, argument, htype, hgap, hgaps, hname,
      hblanks, hblanks', hcast, hne, hargument⟩, rfl⟩
    -- each word ends where it should, told from right to left
    have hvalue : EndsWord ('(' :: (argument ++ ')' :: ';' :: rest)) :=
      endsWord_cons (by decide) _
    have hsign : EndsWord (blanks ++ '=' :: (blanks' ++ (cast ++
        '(' :: (argument ++ ')' :: ';' :: rest)))) :=
      endsWord_blanks_append hblanks (endsWord_cons (by decide) _)
    have hgapped : EndsWord (gap ++ (name ++ (blanks ++ '=' :: (blanks' ++ (cast ++
        '(' :: (argument ++ ')' :: ';' :: rest)))))) := by
      obtain ⟨c, gap, rfl⟩ := List.exists_cons_of_ne_nil hgap
      exact endsWord_cons (isWord_eq_false_of_isBlank (hgaps c List.mem_cons_self)) _
    simp [declaration, word?_append htype hgapped, blanks?_append hgap hgaps (hname.head_isBlank _),
      word?_append hname hsign, take?_skipBlanks (c := '=') (by decide) hblanks,
      skipBlanks_append hblanks' (hcast.head_isBlank _), word?_append hcast hvalue,
      enclosed?_append hne hargument, take?_cons]

/-! ### Where they begin and end -/

theorem wordLed_written : WordLed MemberCall.Written where
  widen := by
    rintro call text c ⟨hreceiver, hmethod, hblanks⟩ hc
    exact ⟨_, .intro (hreceiver.cons hc) hmethod hblanks⟩
  ends := by
    rintro call text @⟨receiver, method, blanks, -, -, -⟩
    exact ⟨receiver ++ '.' :: (method ++ blanks), '(', by simp, by decide⟩

theorem wordLed_writtenOnCast : WordLed MemberCall.WrittenOnCast where
  widen := by
    rintro call text c ⟨hname, hne, hargument, hmethod, hblanks⟩ hc
    exact ⟨_, .intro (hname.cons hc) hne hargument hmethod hblanks⟩
  ends := by
    rintro call text @⟨name, argument, method, blanks, -, -, -, -, -⟩
    exact ⟨name ++ '(' :: (argument ++ ')' :: '.' :: (method ++ blanks)), '(', by simp, by decide⟩

theorem wordLed_declaration : WordLed Declaration.Written where
  widen := by
    rintro d text c ⟨htype, hgap, hgaps, hname, hblanks, hblanks', hcast, hne, hargument⟩ hc
    exact ⟨_, .intro (htype.cons hc) hgap hgaps hname hblanks hblanks' hcast hne hargument⟩
  ends := by
    rintro d text @⟨type, gap, name, blanks, blanks', cast, argument, -, -, -, -, -, -, -, -, -⟩
    refine ⟨type ++ (gap ++ (name ++ (blanks ++ '=' :: (blanks' ++ (cast ++
      '(' :: (argument ++ [')'])))))), ';', by simp, by decide⟩

/-- Whether a member is called on a receiver: the receiver stands there as a whole word, then a dot,
the member and an opening parenthesis. -/
def CallsMember (s receiver method : List Char) : Prop :=
  ∃ front text rest, s = front ++ (text ++ rest) ∧ BeginsWord front ∧
    MemberCall.Written ⟨receiver, method⟩ text

/-- A word with a parenthesis behind it has no dot there. -/
theorem opened_ne_dotted {w blanks w' : List Char} (hw : Word w) (hblanks : Blanks blanks)
    (hw' : Word w') (rest rest' : List Char) :
    w ++ (blanks ++ '(' :: rest) ≠ w' ++ '.' :: rest' := by
  intro heq
  have hparen : EndsWord (blanks ++ '(' :: rest) :=
    endsWord_blanks_append hblanks (endsWord_cons (by decide) rest)
  have hopen := word?_append hw hparen
  have hdot := word?_append hw' (endsWord_cons (c := '.') (by decide) rest')
  rw [heq, hdot] at hopen
  have hrest := (Prod.mk.inj (Option.some.inj hopen)).2
  rcases blanks with _ | ⟨c, blanks⟩
  · exact absurd (List.cons.inj hrest).1 (by decide)
  · have hblank := hblanks c List.mem_cons_self
    rw [← (List.cons.inj hrest).1] at hblank
    exact absurd hblank (by decide)

/-- No member call begins with a word inside another one. -/
theorem MemberCall.Written.apart {call call' : MemberCall} {front back text rest rest' : List Char}
    (h : call'.Written (front ++ back)) (hfront : front ≠ []) (hback : back ≠ [])
    (hbegins : BeginsWord front) (htext : call.Written text) : back ++ rest' ≠ text ++ rest := by
  intro heq
  generalize hwhole : front ++ back = whole at h
  obtain @⟨receiver', method', blanks', hreceiver', hmethod', hblanks'⟩ := h
  obtain @⟨receiver, method, blanks, hreceiver, hmethod, hblanks⟩ := htext
  -- where the inner call could begin: in the receiver, at the dot, in the method or behind it
  rcases List.append_eq_append_iff.mp hwhole with ⟨more, rfl, -⟩ | ⟨more, rfl, hmore⟩
  · exact (hreceiver'.of_append hfront).not_beginsWord hbegins
  rcases more with _ | ⟨x, more⟩
  · rw [List.append_nil] at hbegins
    exact hreceiver'.not_beginsWord hbegins
  obtain ⟨rfl, hinner⟩ := List.cons.inj hmore
  rcases List.append_eq_append_iff.mp hinner with ⟨behind, rfl, hbehind⟩ | ⟨inside, rfl, rfl⟩
  · -- behind the method there is no character of a word
    obtain ⟨c, back, rfl⟩ := List.exists_cons_of_ne_nil hback
    have hc : isWord c = false := by
      have hmem : c ∈ blanks' ++ ['('] := hbehind ▸ List.mem_append_right behind List.mem_cons_self
      rcases List.mem_append.mp hmem with hmem | hmem
      · exact isWord_eq_false_of_isBlank (hblanks' c hmem)
      · rw [List.mem_singleton.mp hmem]
        decide
    obtain ⟨d, receiver, rfl⟩ := List.exists_cons_of_ne_nil hreceiver.ne_nil
    have hd := hreceiver.isWord d List.mem_cons_self
    rw [← (List.cons.inj heq).1, hc] at hd
    cases hd
  · rcases more with _ | ⟨y, more⟩
    · simp only [List.nil_append, List.append_assoc, List.cons_append] at heq
      exact opened_ne_dotted hmethod' hblanks' hreceiver _ _ heq
    · rw [← List.singleton_append, ← List.append_assoc,
        beginsWord_append_iff _ (List.cons_ne_nil y more)] at hbegins
      exact (hmethod'.of_append (List.cons_ne_nil y more)).not_beginsWord hbegins

theorem mem_hits_memberCall {s : List Char} {call : MemberCall} :
    call ∈ hits memberCall s ↔ CallsMember s call.receiver call.method := by
  constructor
  · exact of_mem_hits recognises_memberCall wordLed_written
  · rintro ⟨front, text, rest, rfl, hfront, hwritten⟩
    refine mem_hits_of_form recognises_memberCall wordLed_written ?_ hfront hwritten
    intro call' front back call text rest rest' h hne hne' hbegins htext
    exact h.apart hne hne' hbegins htext

/-! ### What is called -/

/-- Whether a name stands in a text with an opening parenthesis behind it, blanks apart. -/
def Called (s name : List Char) : Prop :=
  ∃ front blanks rest, Blanks blanks ∧ s = front ++ (name ++ (blanks ++ '(' :: rest))

theorem CallsMember.called {s receiver method : List Char} (h : CallsMember s receiver method) :
    Called s method := by
  obtain ⟨front, text, rest, rfl, -, hwritten⟩ := h
  obtain @⟨-, -, blanks, -, -, hblanks⟩ := hwritten
  exact ⟨front ++ (receiver ++ ['.']), blanks, rest, hblanks, by simp⟩

theorem called_of_mem_hits_directCast {s : List Char} {call : MemberCall}
    (h : call ∈ hits directCast s) : Called s call.method := by
  obtain ⟨front, text, rest, rfl, -, hwritten⟩ :=
    of_mem_hits recognises_directCast wordLed_writtenOnCast h
  obtain @⟨name, argument, method, blanks, -, -, -, -, hblanks⟩ := hwritten
  exact ⟨front ++ (name ++ '(' :: (argument ++ [')', '.'])), blanks, rest, hblanks, by simp⟩

theorem called_of_callsName {name s : List Char} {before : Option Char}
    (h : callsName name before s = true) : Called s name := by
  induction s generalizing before with
  | nil => cases h
  | cons c s ih =>
    rw [callsName, Bool.or_eq_true, Bool.and_eq_true, Option.any_eq_true] at h
    rcases h with ⟨-, rest, hrest, hopen⟩ | h
    · obtain ⟨blanks, hblanks, hskip⟩ := exists_blanks rest
      rw [beq_iff_eq, List.head?_eq_some_iff] at hopen
      obtain ⟨rest', hrest'⟩ := hopen
      refine ⟨[], blanks, rest', hblanks, ?_⟩
      rw [of_dropFront? hrest, hskip, hrest', List.nil_append]
    · obtain ⟨front, blanks, rest, hblanks, rfl⟩ := ih h
      exact ⟨c :: front, blanks, rest, hblanks, rfl⟩

end CallAtlas.Interface

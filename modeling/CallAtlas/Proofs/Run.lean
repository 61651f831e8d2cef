import CallAtlas.Run
import Mathlib.Order.Defs.Unbundled

/-!
# Steps of a run

How the steps of a run compose, and what passes from the steps to the whole.

* `bind_eq_some`: a run of two parts has an answer iff the first part has one and the second part,
  started where the first ended, has one too.
* `Respects R x`: whatever the start, and whether or not `x` breaks off, the session after `x` is
  related by `R` to the session before it.  For a preorder `R` this passes to sequences of steps.
* `Completes x`: `x` never breaks off.
* `Alike` and `Blind`: ends of runs that differ in the log alone, and runs for which the log before
  them makes no other difference.
-/

namespace CallAtlas.Run

variable {α β : Type}

/-! ### Elementary steps -/

@[simp] theorem pure_apply (a : α) (p : Progress) : (pure a : Run α) p = (some a, p) := rfl

@[simp] theorem session_apply (p : Progress) : Run.session p = (some p.session, p) := rfl

@[simp] theorem update_apply (f : Session → Session) (p : Progress) :
    Run.update f p = (some (), { p with session := f p.session }) := rfl

@[simp] theorem logAll_apply (records : List Log.Record) (p : Progress) :
    Run.logAll records p = (some (), { p with log := p.log ++ records }) := rfl

@[simp] theorem log_apply (record : Log.Record) (p : Progress) :
    Run.log record p = (some (), { p with log := p.log ++ [record] }) := rfl

@[simp] theorem breakOff_apply (p : Progress) : (Run.breakOff : Run α) p = (none, p) := rfl

@[simp] theorem fetch_apply (env : Environment) (l : Location) (p : Progress) :
    Run.fetch env l p = (some (env.fetch l), { p with session := p.session.noteAsked l }) := rfl

/-! ### Sequences -/

/-- A sequence goes on where its first part ended. -/
theorem bind_of_some {x : Run α} {f : α → Run β} {p q : Progress} {a : α}
    (h : x p = (some a, q)) : (x >>= f) p = f a q := by
  dsimp only [Bind.bind]
  rw [h]

/-- A sequence breaks off where its first part does. -/
theorem bind_of_none {x : Run α} {f : α → Run β} {p q : Progress} (h : x p = (none, q)) :
    (x >>= f) p = (none, q) := by
  dsimp only [Bind.bind]
  rw [h]

theorem bind_eq_some {x : Run α} {f : α → Run β} {p q : Progress} {b : β} :
    (x >>= f) p = (some b, q) ↔ ∃ a r, x p = (some a, r) ∧ f a r = (some b, q) := by
  rcases hx : x p with ⟨a | a, r⟩
  · rw [bind_of_none hx]
    simp
  · rw [bind_of_some hx]
    constructor
    · intro h
      exact ⟨a, r, rfl, h⟩
    · rintro ⟨a', r', heq, h⟩
      cases heq
      exact h

instance : LawfulMonad Run := LawfulMonad.mk' Run
  (fun x => by
    funext p
    dsimp only [Functor.map]
    rcases x p with ⟨a | a, q⟩ <;> rfl)
  (fun _ _ => rfl)
  (fun x f g => by
    funext p
    rcases hx : x p with ⟨a | a, q⟩
    · rw [bind_of_none (bind_of_none hx), bind_of_none hx]
    · rw [bind_of_some hx]
      rcases hf : f a q with ⟨b | b, r⟩
      · rw [bind_of_none hf, bind_of_none ((bind_of_some hx).trans hf)]
      · rw [bind_of_some hf, bind_of_some ((bind_of_some hx).trans hf)])

@[simp] theorem pure_bind_apply (a : α) (f : α → Run β) (p : Progress) :
    ((pure a : Run α) >>= f) p = f a p := rfl

@[simp] theorem session_bind (f : Session → Run β) (p : Progress) :
    (Run.session >>= f) p = f p.session p := rfl

@[simp] theorem update_bind (g : Session → Session) (f : Unit → Run β) (p : Progress) :
    (Run.update g >>= f) p = f () { p with session := g p.session } := rfl

@[simp] theorem logAll_bind (records : List Log.Record) (f : Unit → Run β) (p : Progress) :
    (Run.logAll records >>= f) p = f () { p with log := p.log ++ records } := rfl

@[simp] theorem log_bind (record : Log.Record) (f : Unit → Run β) (p : Progress) :
    (Run.log record >>= f) p = f () { p with log := p.log ++ [record] } := rfl

@[simp] theorem fetch_bind (env : Environment) (l : Location)
    (f : Except FetchError String → Run β) (p : Progress) :
    (Run.fetch env l >>= f) p =
      f (env.fetch l) { p with session := p.session.noteAsked l } := rfl

/-- Reading a text counts as one use of the parser, and breaks off iff the parser does. -/
theorem parse_apply (env : Environment) (text file : String) (p : Progress) :
    ∃ log, Run.parse env text file p =
      (match env.parser.parse text file with
        | .error .broken => none
        | .error fault => some (.error (fault.message file))
        | .ok declarations => some (.ok declarations),
      ⟨{ p.session with parses := p.session.parses + 1 }, log⟩) := by
  rw [Run.parse]
  simp only [session_bind, update_bind, logAll_bind]
  rcases env.parser.parse text file with fault | declarations
  · cases fault with
    | broken => exact ⟨_, rfl⟩
    | syntaxError | grammarUnavailable => exact ⟨_, rfl⟩
  · exact ⟨_, rfl⟩

/-! ### What steps respect -/

/-- Whatever the start, and whether or not `x` breaks off, the session after `x` is related to the
session before it. -/
def Respects (R : Session → Session → Prop) (x : Run α) : Prop :=
  ∀ p, R p.session (x p).2.session

section

variable {R : Session → Session → Prop} [IsPreorder Session R]

theorem respects_pure (a : α) : Respects R (pure a : Run α) :=
  fun p => refl p.session

theorem respects_session : Respects R Run.session :=
  fun p => refl p.session

theorem respects_logAll (records : List Log.Record) : Respects R (Run.logAll records) :=
  fun p => refl p.session

omit [IsPreorder Session R] in
theorem respects_update {f : Session → Session} (h : ∀ s, R s (f s)) : Respects R (Run.update f) :=
  fun p => h p.session

theorem Respects.bind {x : Run α} {f : α → Run β} (hx : Respects R x) (hf : ∀ a, Respects R (f a)) :
    Respects R (x >>= f) := by
  intro p
  have h₁ := hx p
  rcases hxp : x p with ⟨a | a, q⟩
  · rw [bind_of_none hxp]
    rwa [hxp] at h₁
  · rw [bind_of_some hxp]
    rw [hxp] at h₁
    exact IsTrans.trans _ _ _ h₁ (hf a q)

/-- What every second part respects relates the session between the parts to that at the end. -/
theorem respects_after (x : Run α) {f : α → Run β} (hf : ∀ a, Respects R (f a)) (p : Progress) :
    R (x p).2.session ((x >>= f) p).2.session := by
  rcases hxp : x p with ⟨a | a, q⟩
  · rw [bind_of_none hxp]
    exact refl q.session
  · rw [bind_of_some hxp]
    exact hf a q

end

/-! ### Runs that do not break off -/

/-- Whatever the start, `x` has an answer. -/
def Completes (x : Run α) : Prop :=
  ∀ p, ∃ a q, x p = (some a, q)

theorem completes_pure (a : α) : Completes (pure a : Run α) :=
  fun p => ⟨a, p, rfl⟩

theorem Completes.bind {x : Run α} {f : α → Run β} (hx : Completes x) (hf : ∀ a, Completes (f a)) :
    Completes (x >>= f) := by
  intro p
  obtain ⟨a, q, hq⟩ := hx p
  obtain ⟨b, r, hr⟩ := hf a q
  exact ⟨b, r, by rw [bind_of_some hq, hr]⟩

/-! ### What does not depend on the log -/

/-- Two ends of runs with the same answer and the same session; the log may differ. -/
def Alike (x y : Option α × Progress) : Prop :=
  x.1 = y.1 ∧ x.2.session = y.2.session

theorem Alike.symm {x y : Option α × Progress} (h : Alike x y) : Alike y x :=
  ⟨h.1.symm, h.2.symm⟩

theorem Alike.trans {x y z : Option α × Progress} (h : Alike x y) (h' : Alike y z) : Alike x z :=
  ⟨h.1.trans h'.1, h.2.trans h'.2⟩

/-- Sequences end alike if their first parts do and their second parts do from there. -/
theorem Alike.bind {x y : Run α} {f g : α → Run β} {p q : Progress} (h : Alike (x p) (y q))
    (hfg : ∀ a p' q', x p = (some a, p') → p'.session = q'.session → Alike (f a p') (g a q')) :
    Alike ((x >>= f) p) ((y >>= g) q) := by
  rcases hx : x p with ⟨a | a, p'⟩
  · rcases hy : y q with ⟨b | b, q'⟩
    · rw [bind_of_none hx, bind_of_none hy]
      rw [hx, hy] at h
      exact ⟨rfl, h.2⟩
    · rw [hx, hy] at h
      cases h.1
  · rcases hy : y q with ⟨b | b, q'⟩
    · rw [hx, hy] at h
      cases h.1
    · rw [bind_of_some hx, bind_of_some hy]
      rw [hx, hy] at h
      obtain ⟨hanswer, hsession⟩ := h
      cases hanswer
      exact hfg a p' q' hx hsession

/-- What `x` does does not depend on the log before it. -/
def Blind (x : Run α) : Prop :=
  ∀ p q : Progress, p.session = q.session → Alike (x p) (x q)

theorem blind_pure (a : α) : Blind (pure a : Run α) :=
  fun _ _ h => ⟨rfl, h⟩

theorem blind_session : Blind Run.session :=
  fun _ _ h => ⟨congrArg some h, h⟩

theorem blind_update (f : Session → Session) : Blind (Run.update f) :=
  fun _ _ h => ⟨rfl, congrArg f h⟩

theorem blind_logAll (records : List Log.Record) : Blind (Run.logAll records) :=
  fun _ _ h => ⟨rfl, h⟩

theorem Blind.bind {x : Run α} {f : α → Run β} (hx : Blind x) (hf : ∀ a, Blind (f a)) :
    Blind (x >>= f) :=
  fun p q h => (hx p q h).bind fun a p' q' _ h' => hf a p' q' h'

theorem blind_parse (env : Environment) (text file : String) :
    Blind (Run.parse env text file) := by
  rw [Run.parse]
  refine blind_session.bind fun s => (blind_update _).bind fun _ => ?_
  refine (blind_logAll _).bind fun _ => ?_
  split
  · exact fun _ _ h => ⟨rfl, h⟩
  · exact blind_pure _
  · exact (blind_logAll _).bind fun _ => blind_pure _

end CallAtlas.Run

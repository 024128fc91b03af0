import Mathlib.Tactic

/-!
Programs that act through calls on their surroundings.
-/

namespace Yaade.Library

universe u

/-- A computation that ends with a value or waits for the answer to a call. -/
inductive Program (E : Type → Type u) (α : Type) : Type (max 1 u) where
  | done (a : α)
  | call {β : Type} (e : E β) (k : β → Program E α)

namespace Program

variable {E : Type → Type u} {α β ε ε' : Type}

def bind : Program E α → (α → Program E β) → Program E β
  | done a, f => f a
  | call e k, f => call e fun b => (k b).bind f

instance : Monad (Program E) where
  pure := done
  bind := bind

def perform (e : E α) : Program E α := call e done

def performAll (calls : List (E Unit)) : Program E Unit :=
  match calls with
  | [] => done ()
  | e :: rest => call e fun _ => performAll rest

variable {σ : Type} {step : ∀ {β : Type}, E β → σ → β → σ → Prop}

/-- A run of a program with nothing else running: it ends in state `s'` with
value `b`. -/
def Runs (step : ∀ {β : Type}, E β → σ → β → σ → Prop) :
    Program E α → σ → α → σ → Prop
  | done a, s, b, s' => b = a ∧ s' = s
  | call e k, s, b, s' => ∃ c t, step e s c t ∧ Runs step (k c) t b s'

@[simp] theorem runs_done {a b : α} {s s' : σ} :
    Runs step (done a : Program E α) s b s' ↔ b = a ∧ s' = s := Iff.rfl

theorem runs_call {e : E β} {k : β → Program E α} {a : α} {s s' : σ} :
    Runs step (call e k) s a s' ↔ ∃ b t, step e s b t ∧ Runs step (k b) t a s' := Iff.rfl

theorem runs_bind {p : Program E α} {f : α → Program E β} {b : β} {s s' : σ} :
    Runs step (p >>= f) s b s' ↔ ∃ a t, Runs step p s a t ∧ Runs step (f a) t b s' := by
  induction p generalizing s with
  | done a =>
    constructor
    · intro h
      exact ⟨a, s, ⟨rfl, rfl⟩, h⟩
    · rintro ⟨a', t, hdone, hrest⟩
      obtain ⟨rfl, rfl⟩ := runs_done.mp hdone
      exact hrest
  | call e k ih =>
    constructor
    · intro h
      obtain ⟨c, u, hstep, hrest⟩ := runs_call.mp h
      obtain ⟨a, t, hfirst, hsecond⟩ := (ih c).mp hrest
      exact ⟨a, t, ⟨c, u, hstep, hfirst⟩, hsecond⟩
    · rintro ⟨a, t, hfirst, hsecond⟩
      obtain ⟨c, u, hstep, hrest⟩ := runs_call.mp hfirst
      exact ⟨c, u, hstep, (ih c).mpr ⟨a, t, hrest, hsecond⟩⟩

@[simp] theorem runs_perform {e : E α} {a : α} {s s' : σ} :
    Runs step (perform e) s a s' ↔ step e s a s' := by
  unfold perform
  rw [runs_call]
  constructor
  · rintro ⟨b, t, hstep, hdone⟩
    obtain ⟨rfl, rfl⟩ := runs_done.mp hdone
    exact hstep
  · intro hstep
    exact ⟨a, s', hstep, rfl, rfl⟩

/-! ## Programs that may fail -/

abbrev Fallible (E : Type → Type u) (ε α : Type) := ExceptT ε (Program E) α

def attempt (convert : ε' → ε) (e : E (Except ε' α)) : Fallible E ε α :=
  call e fun
    | .ok a => done (.ok a)
    | .error error => done (.error (convert error))

def ignore (p : Fallible E ε α) : Fallible E ε Unit :=
  Program.bind p fun _ => done (.ok ())

section Fallible

variable {a : α} {b : β} {s s' : σ}

variable {p : Fallible E ε α}

theorem runs_bind_ok {f : α → Fallible E ε β} : Runs step (p >>= f : Fallible E ε β) s (.ok b) s' ↔
      ∃ a t, Runs step p s (.ok a) t ∧ Runs step (f a) t (.ok b) s' := by
  have hbind : (p >>= f : Fallible E ε β) =
      (show Program E (Except ε α) from p) >>= ExceptT.bindCont f := rfl
  rw [hbind, runs_bind]
  constructor
  · rintro ⟨outcome, t, hp, hf⟩
    cases outcome with
    | error e =>
      obtain ⟨habs, -⟩ := runs_done.mp hf
      cases habs
    | ok a => exact ⟨a, t, hp, hf⟩
  · rintro ⟨a, t, hp, hf⟩
    exact ⟨.ok a, t, hp, hf⟩

theorem runs_bind_outcome {f : α → Fallible E ε β} {outcome : Except ε β} :
    Runs step (p >>= f : Fallible E ε β) s outcome s' ↔
      (∃ a t, Runs step p s (.ok a) t ∧ Runs step (f a) t outcome s') ∨
        ∃ error, outcome = .error error ∧ Runs step p s (.error error) s' := by
  have hbind : (p >>= f : Fallible E ε β) =
      (show Program E (Except ε α) from p) >>= ExceptT.bindCont f := rfl
  rw [hbind, runs_bind]
  constructor
  · rintro ⟨first, t, hp, hf⟩
    cases first with
    | error error =>
      obtain ⟨rfl, rfl⟩ := runs_done.mp hf
      exact .inr ⟨error, rfl, hp⟩
    | ok a => exact .inl ⟨a, t, hp, hf⟩
  · rintro (⟨a, t, hp, hf⟩ | ⟨error, rfl, hp⟩)
    · exact ⟨.ok a, t, hp, hf⟩
    · exact ⟨.error error, s', hp, rfl, rfl⟩

@[simp] theorem runs_pure_ok {c : α} :
    Runs step (pure c : Fallible E ε α) s (.ok a) s' ↔ a = c ∧ s' = s := by
  have hpure : (pure c : Fallible E ε α) = (done (.ok c) : Program E (Except ε α)) := rfl
  rw [hpure, runs_done, Except.ok.injEq]

@[simp] theorem runs_throw_ok {e : ε} : ¬ Runs step (throw e : Fallible E ε α) s (.ok a) s' := by
  intro h
  have hthrow : (throw e : Fallible E ε α) = (done (.error e) : Program E (Except ε α)) := rfl
  rw [hthrow] at h
  obtain ⟨habs, -⟩ := runs_done.mp h
  cases habs

@[simp] theorem runs_attempt_ok {convert : ε' → ε} {e : E (Except ε' α)} :
    Runs step (attempt convert e : Fallible E ε α) s (.ok a) s' ↔ step e s (.ok a) s' := by
  unfold attempt
  rw [runs_call]
  constructor
  · rintro ⟨outcome, t, hstep, hdone⟩
    cases outcome with
    | error error =>
      obtain ⟨habs, -⟩ := runs_done.mp hdone
      cases habs
    | ok c =>
      obtain ⟨hok, rfl⟩ := runs_done.mp hdone
      cases hok
      exact hstep
  · intro hstep
    exact ⟨.ok a, s', hstep, rfl, rfl⟩

theorem runs_ignore {u : Unit} :
    Runs step (ignore p) s (.ok u) s' ↔ ∃ outcome, Runs step p s outcome s' := by
  have hignore : ignore p = ((show Program E (Except ε α) from p) >>= fun _ => done (.ok ())) := rfl
  rw [hignore, runs_bind]
  constructor
  · rintro ⟨outcome, t, hp, hdone⟩
    obtain ⟨-, rfl⟩ := runs_done.mp hdone
    exact ⟨outcome, hp⟩
  · rintro ⟨outcome, hp⟩
    exact ⟨outcome, s', hp, rfl, rfl⟩

@[simp] theorem runs_lift_ok {p : Program E α} :
    Runs step (ExceptT.lift p : Fallible E ε α) s (.ok a) s' ↔ Runs step p s a s' := by
  have hlift : (ExceptT.lift p : Fallible E ε α) =
      (p >>= fun a => done (.ok a) : Program E (Except ε α)) := rfl
  rw [hlift, runs_bind]
  constructor
  · rintro ⟨c, t, hp, hdone⟩
    obtain ⟨hok, rfl⟩ := runs_done.mp hdone
    cases hok
    exact hp
  · intro hp
    exact ⟨a, s', hp, rfl, rfl⟩

end Fallible

/-! ## What every run ends with -/

def Ensures (step : ∀ {β : Type}, E β → σ → β → σ → Prop) (p : Program E α) (s : σ)
    (post : α → σ → Prop) : Prop :=
  ∀ a s', Runs step p s a s' → post a s'

section Ensures

variable {s : σ} {post post' : α → σ → Prop}

theorem ensures_done {a : α} (h : post a s) : Ensures step (done a) s post := by
  intro b s' hruns
  obtain ⟨rfl, rfl⟩ := runs_done.mp hruns
  exact h

theorem ensures_call {e : E β} {k : β → Program E α}
    (h : ∀ b t, step e s b t → Ensures step (k b) t post) : Ensures step (call e k) s post := by
  intro a s' hruns
  obtain ⟨b, t, hstep, hrest⟩ := runs_call.mp hruns
  exact h b t hstep a s' hrest

theorem Ensures.mono {p : Program E α} (h : Ensures step p s post)
    (hpost : ∀ a s', post a s' → post' a s') : Ensures step p s post' :=
  fun a s' hruns => hpost a s' (h a s' hruns)

theorem Ensures.fallible_bind {p : Fallible E ε α} {f : α → Fallible E ε β}
    {Q : α → σ → Prop} {last : Except ε β → σ → Prop}
    (hp : Ensures (α := Except ε α) step p s fun outcome t =>
      match outcome with
      | .ok a => Q a t
      | .error error => last (.error error) t)
    (hf : ∀ a t, Q a t → Ensures (α := Except ε β) step (f a) t last) :
    Ensures (α := Except ε β) step (p >>= f : Fallible E ε β) s last := by
  intro outcome s' hruns
  rcases runs_bind_outcome.mp hruns with ⟨a, t, hfirst, hrest⟩ | ⟨error, rfl, hfirst⟩
  · exact hf a t (hp _ _ hfirst) outcome s' hrest
  · exact hp _ _ hfirst

end Ensures

end Program

end Yaade.Library

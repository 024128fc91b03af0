import Yaade.Library.Program

/-!
Disciplines for programs whose calls are interleaved with those of others.
-/

namespace Yaade.Library

universe u v

/-- The calls admitted in a phase, the answers of a call, and the phase after
an answer. -/
structure Discipline (E : Type → Type u) (G : Type v) where
  may : ∀ {β : Type}, G → E β → Prop
  answers : ∀ {β : Type}, E β → β → Prop
  after : ∀ {β : Type}, G → E β → β → G

namespace Discipline

variable {E : Type → Type u} {G : Type v} {α β ε ε' : Type} (d : Discipline E G)

/-- Every call of the program is admitted when it is made, whatever the answers
before it, and it ends in a phase where `final` holds. -/
def Follows (final : G → α → Prop) : G → Program E α → Prop
  | g, .done a => final g a
  | g, .call e k => d.may g e ∧ ∀ b, d.answers e b → Follows final (d.after g e b) (k b)

variable {d} {g : G}

theorem Follows.mono {final final' : G → α → Prop} (h : ∀ g a, final g a → final' g a)
    {p : Program E α} (hp : d.Follows final g p) : d.Follows final' g p := by
  induction p generalizing g with
  | done a => exact h g a hp
  | call e k ih => exact ⟨hp.1, fun b hb => ih b (hp.2 b hb)⟩

theorem follows_bind {final : G → β → Prop} {p : Program E α} {f : α → Program E β}
    (h : d.Follows (fun g' a => d.Follows final g' (f a)) g p) : d.Follows final g (p >>= f) := by
  induction p generalizing g with
  | done a => exact h
  | call e k ih => exact ⟨h.1, fun b hb => ih b (h.2 b hb)⟩

/-! ## Programs that may fail -/

open Program (Fallible)

variable {final : G → Except ε β → Prop}

variable {f : α → Fallible E ε β}

theorem follows_fallible_bind {p : Fallible E ε α}
    (h : d.Follows (α := Except ε α) (fun g' outcome =>
      match outcome with
      | .ok a => d.Follows (α := Except ε β) final g' (f a)
      | .error error => final g' (.error error)) g p) :
    d.Follows (α := Except ε β) final g (p >>= f : Fallible E ε β) := by
  have hbind : (p >>= f : Fallible E ε β) =
      (show Program E (Except ε α) from p) >>= ExceptT.bindCont f := rfl
  rw [hbind]
  refine follows_bind (h.mono ?_)
  intro g' outcome houtcome
  cases outcome with
  | ok | error => exact houtcome

variable (d) in
def Keeps (g : G) (p : Fallible E ε α) : Prop :=
  d.Follows (α := Except ε α) (fun g' outcome => g' = g ∧ ∃ a, outcome = .ok a) g p

theorem Keeps.bind {p : Fallible E ε α} (h : d.Keeps g p)
    (hf : ∀ a, d.Follows (α := Except ε β) final g (f a)) :
    d.Follows (α := Except ε β) final g (p >>= f : Fallible E ε β) := by
  apply follows_fallible_bind
  apply Follows.mono _ h
  rintro _ _ ⟨rfl, a, rfl⟩
  exact hf a

theorem keeps_pure (a : α) : d.Keeps g (pure a : Fallible E ε α) := ⟨rfl, a, rfl⟩

theorem keeps_lift_perform {e : E α} (hmay : d.may g e) (hafter : ∀ b, d.after g e b = g) :
    d.Keeps g (ExceptT.lift (Program.perform e) : Fallible E ε α) :=
  ⟨hmay, fun b _ => ⟨hafter b, b, rfl⟩⟩

theorem keeps_lift_performAll {calls : List (E Unit)}
    (hcalls : ∀ e ∈ calls, d.may g e ∧ ∀ b, d.after g e b = g) :
    d.Keeps g (ExceptT.lift (Program.performAll calls) : Fallible E ε Unit) := by
  induction calls with
  | nil => exact keeps_pure ()
  | cons e rest ih =>
    obtain ⟨hmay, hafter⟩ := hcalls e List.mem_cons_self
    refine ⟨hmay, fun b _ => ?_⟩
    rw [hafter b]
    exact ih fun e' he' => hcalls e' (List.mem_cons_of_mem e he')

theorem follows_attempt_bind {convert : ε' → ε} {e : E (Except ε' α)}
    (hmay : d.may g e) (hok : ∀ a, d.answers e (.ok a) →
      d.Follows (α := Except ε β) final (d.after g e (.ok a)) (f a))
    (herror : ∀ error, final (d.after g e (.error error)) (.error (convert error))) :
    d.Follows (α := Except ε β) final g
      (Program.attempt convert e >>= f : Fallible E ε β) := by
  apply follows_fallible_bind
  refine ⟨hmay, fun outcome hanswer => ?_⟩
  cases outcome with
  | ok a => exact hok a hanswer
  | error error => exact herror error

end Discipline

end Yaade.Library

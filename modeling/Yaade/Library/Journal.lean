import Mathlib.Tactic

/-!
Work that is done in small steps and can be cut short after each of them.
-/

namespace Yaade.Library

open List Option

universe u v

variable {σ : Type u} {ι : Type v} {apply : σ → ι → σ} {admits : List ι → Prop}
  {P Q : List ι → σ → Prop} {s : σ} {steps : List ι}

def runSteps (apply : σ → ι → σ) (s : σ) (steps : List ι) : σ := steps.foldl apply s

@[simp] theorem runSteps_nil : runSteps apply s [] = s := rfl

@[simp] theorem runSteps_cons (step : ι) (rest : List ι) :
    runSteps apply s (step :: rest) = runSteps apply (apply s step) rest := rfl

theorem runSteps_append (first rest : List ι) :
    runSteps apply s (first ++ rest) = runSteps apply (runSteps apply s first) rest :=
  foldl_append

/-- Wherever the steps are cut short, `P` holds of the steps done and the
state, if the steps done are admitted. -/
def Survives (apply : σ → ι → σ) (admits : List ι → Prop) (P : List ι → σ → Prop) (s : σ)
    (steps : List ι) : Prop :=
  ∀ count, admits (steps.take count) →
    P (steps.take count) (runSteps apply s (steps.take count))

def Tailed (admits : List ι → Prop) : Prop := ∀ step rest, admits (step :: rest) → admits rest

theorem Tailed.drop (htail : Tailed admits) {first rest : List ι}
    (h : admits (first ++ rest)) : admits rest := by
  induction first with
  | nil => exact h
  | cons step first ih => exact ih (htail step _ h)

theorem Survives.nil (h : P [] s) : Survives apply admits P s [] := by
  intro count _
  rw [take_nil]
  exact h

theorem Survives.cons (htail : Tailed admits) (h : P [] s) {step : ι} {rest : List ι}
    (hrest : Survives apply admits (fun done => P (step :: done)) (apply s step) rest) :
    Survives apply admits P s (step :: rest) := by
  intro count hadmits
  cases count with
  | zero => exact h
  | succ count => exact hrest count (htail step _ hadmits)

theorem Survives.step {K : σ → Prop} (htail : Tailed admits) (h : K s) {step : ι} {rest : List ι}
    {next : σ} (hstep : apply s step = next)
    (hrest : Survives apply admits (fun _ => K) next rest) :
    Survives apply admits (fun _ => K) s (step :: rest) := by
  subst hstep
  exact Survives.cons htail h hrest

theorem Survives.append (htail : Tailed admits) {first rest : List ι}
    (hfirst : Survives apply admits P s first)
    (hrest : Survives apply admits (fun done => P (first ++ done)) (runSteps apply s first) rest) :
    Survives apply admits P s (first ++ rest) := by
  intro count hadmits
  by_cases hcount : count ≤ first.length
  · rw [take_append_of_le_length hcount] at hadmits ⊢
    exact hfirst count hadmits
  rw [take_append, take_of_length_le (by omega)] at hadmits ⊢
  rw [runSteps_append]
  exact hrest _ (htail.drop hadmits)

theorem Survives.mono (h : Survives apply admits P s steps)
    (himp : ∀ done s, done <+: steps → P done s → Q done s) : Survives apply admits Q s steps :=
  fun count hadmits => himp _ _ ( take_prefix count steps) (h count hadmits)

end Yaade.Library

import Mathlib.Tactic

/-!
Transition systems with an executable step.
-/

namespace Yaade.Library

open List Option

universe u v

/-- What is in a log that has got one more entry. -/
theorem mem_snoc {α : Type u} {log : List α} {a last : α} :
    a ∈ log ++ [last] ↔ a ∈ log ∨ a = last := by
  rw [mem_append, mem_singleton]

/-- Initial states and the result of each action, where it is enabled. -/
structure System (σ : Type u) (ι : Type v) where
  initial : σ → Prop
  step : σ → ι → Option σ

namespace System

variable {σ : Type u} {ι : Type v} (sys : System σ ι)

/-- States at the end of a run whose steps are all `allowed`. -/
inductive Run (allowed : σ → ι → Prop) : σ → Prop where
  | start {s : σ} (hinitial : sys.initial s) : Run allowed s
  | next {s s' : σ} {a : ι} (hrun : Run allowed s) (hallow : allowed s a)
      (hstep : sys.step s a = some s') : Run allowed s'

def Reachable : σ → Prop := sys.Run fun _ _ => True

variable {sys} {allowed : σ → ι → Prop}

theorem Run.invariant {inv : σ → Prop} (hinitial : ∀ s, sys.initial s → inv s)
    (hstep : ∀ s a s', inv s → allowed s a → sys.step s a = some s' → inv s')
    {s : σ} (hrun : sys.Run allowed s) : inv s := by
  induction hrun with
  | start h => exact hinitial _ h
  | next _ hallow hnext ih => exact hstep _ _ _ ih hallow hnext

theorem Run.weaken {weaker : σ → ι → Prop} (h : ∀ s a, allowed s a → weaker s a)
    {s : σ} (hrun : sys.Run allowed s) : sys.Run weaker s := by
  induction hrun with
  | start hinitial => exact Run.start hinitial
  | next _ hallow hnext ih => exact Run.next ih (h _ _ hallow) hnext

theorem Run.reachable {s : σ} (hrun : sys.Run allowed s) : sys.Reachable s :=
  hrun.weaken fun _ _ _ => trivial

/-- The state after a list of actions, if each in turn passes a check and is
enabled. -/
def replay (sys : System σ ι) (check : σ → ι → Bool) : σ → List ι → Option σ
  | s, [] => some s
  | s, a :: rest => if check s a then (sys.step s a).bind fun s' => sys.replay check s' rest
      else none

variable {check : σ → ι → Bool}

theorem replay_run {s s' : σ} (hrun : sys.Run allowed s)
    {actions : List ι} (hcheck : ∀ s, ∀ a ∈ actions, check s a = true → allowed s a)
    (hrpl : sys.replay check s actions = some s') : sys.Run allowed s' := by
  induction actions generalizing s with
  | nil =>
    cases hrpl
    exact hrun
  | cons a rest ih =>
    obtain ⟨hpass, hrest⟩ := ite_none_right_eq_some.mp hrpl
    obtain ⟨t, hstep, hnext⟩ := bind_eq_some_iff.mp hrest
    exact ih (hrun.next (hcheck s a mem_cons_self hpass) hstep)
      (fun s b hb => hcheck s b (mem_cons_of_mem a hb)) hnext

theorem replay_append {s : σ} {first rest : List ι} : sys.replay check s (first ++ rest) =
      (sys.replay check s first).bind fun s' => sys.replay check s' rest := by
  induction first generalizing s with
  | nil => rfl
  | cons a first ih =>
    rw [cons_append, replay, replay]
    split
    · cases sys.step s a with
      | none => rfl
      | some t => simp only [bind_some, ih]
    · rfl

/-- From one state to another by steps that are all `allowed`. -/
inductive Path (sys : System σ ι) (allowed : σ → ι → Prop) (s : σ) : σ → Prop where
  | refl : sys.Path allowed s s
  | next {t t' : σ} {a : ι} (hpath : sys.Path allowed s t) (hallow : allowed t a)
      (hstep : sys.step t a = some t') : sys.Path allowed s t'

theorem Path.invariant {P : σ → Prop} {s s' : σ} (hpath : sys.Path allowed s s') (hstart : P s)
    (hstep : ∀ s a s', P s → allowed s a → sys.step s a = some s' → P s') : P s' := by
  induction hpath with
  | refl => exact hstart
  | next _ hallow hnext ih => exact hstep _ _ _ ih hallow hnext

theorem replay_path {s s' : σ} {actions : List ι}
    (hcheck : ∀ s, ∀ a ∈ actions, check s a = true → allowed s a)
    (hrpl : sys.replay check s actions = some s') : sys.Path allowed s s' := by
  suffices ∀ t, sys.Path allowed s t → sys.replay check t actions = some s' →
      sys.Path allowed s s' from this s .refl hrpl
  clear hrpl
  induction actions with
  | nil =>
    intro t hpath hrpl
    cases hrpl
    exact hpath
  | cons a rest ih =>
    intro t hpath hrpl
    obtain ⟨hpass, hrest⟩ := ite_none_right_eq_some.mp hrpl
    obtain ⟨t', hstep, hnext⟩ := bind_eq_some_iff.mp hrest
    exact ih (fun s b hb => hcheck s b (mem_cons_of_mem a hb)) t'
      (hpath.next (hcheck t a mem_cons_self hpass) hstep) hnext

/-- A run that goes on for ever. -/
structure Execution (sys : System σ ι) (allowed : σ → ι → Prop) where
  states : Nat → σ
  actions : Nat → ι
  starts : sys.initial (states 0)
  permitted : ∀ n, allowed (states n) (actions n)
  steps : ∀ n, sys.step (states n) (actions n) = some (states (n + 1))

theorem Execution.run (e : Execution sys allowed) (n : Nat) : sys.Run allowed (e.states n) := by
  induction n with
  | zero => exact Run.start e.starts
  | succ n ih => exact ih.next (e.permitted n) (e.steps n)

theorem Execution.stays (e : Execution sys allowed) {P : σ → Prop} {n : Nat}
    (hstart : P (e.states n)) (hstep : ∀ m, n ≤ m → P (e.states m) → P (e.states (m + 1))) :
    ∀ m, n ≤ m → P (e.states m) := by
  intro m hm
  induction m, hm using Nat.le_induction with
  | base => exact hstart
  | succ m hm ih => exact hstep m hm ih

end System

end Yaade.Library

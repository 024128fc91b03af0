import Yaade.Workers.Scheduler

/-!
What the scheduler's operations do to the lane of one terminal: what waits in
it, and which command of it is on its way.
-/

namespace Yaade.Workers

open Yaade.Library List Option IndexMap FairWorkerScheduler

section Lanes

variable {T κ : Type} {scheduler scheduler' : FairWorkerScheduler T κ} {terminalId other : String}
  {tag : T → String} {key : T → κ}

def FairWorkerScheduler.flight (scheduler : FairWorkerScheduler T κ) (terminalId : String) :
    Option κ := (scheduler.lanes.get? terminalId).bind Lane.inFlightKey

def Keyed (tag : T → String) (key : T → κ) (scheduler : FairWorkerScheduler T κ) : Prop :=
  ∀ terminalId lane, scheduler.lanes.get? terminalId = some lane → ∀ pending ∈ lane.queue,
    tag pending.value = terminalId ∧ pending.key = key pending.value

/-- Of each terminal nothing is dispatched, or the first command that waits,
where none was on its way. -/
def Moves (key : T → κ) (scheduler scheduler' : FairWorkerScheduler T κ)
    (sent : List (String × T)) : Prop :=
  ∀ terminalId,
    (scheduler'.queued terminalId = scheduler.queued terminalId ∧
      scheduler'.flight terminalId = scheduler.flight terminalId ∧
        forTerminal terminalId sent = []) ∨
    ∃ value, scheduler.flight terminalId = none ∧
      scheduler.queued terminalId = value :: scheduler'.queued terminalId ∧
        scheduler'.flight terminalId = some (key value) ∧ forTerminal terminalId sent = [value]

theorem Moves.refl (scheduler : FairWorkerScheduler T κ) : Moves key scheduler scheduler [] :=
  fun _ => .inl ⟨rfl, rfl, rfl⟩

theorem Moves.trans {last : FairWorkerScheduler T κ} {sent more : List (String × T)}
    (h : Moves key scheduler scheduler' sent) (hmore : Moves key scheduler' last more) :
    Moves key scheduler last (sent ++ more) := by
  intro terminalId
  rw [forTerminal_append]
  rcases h terminalId with ⟨hqueue, hflight, hsent⟩ | ⟨value, hfree, hqueue, hflight, hsent⟩
  · rw [hsent, nil_append, ← hqueue, ← hflight]
    exact hmore terminalId
  rcases hmore terminalId with ⟨hqueue', hflight', hsent'⟩ | ⟨_, hfree', _⟩
  · exact .inr ⟨value, hfree, hqueue'.symm ▸ hqueue, hflight'.trans hflight, by
      rw [hsent, hsent', append_nil]⟩
  · cases hflight.symm.trans hfree'

def Shrinks (scheduler scheduler' : FairWorkerScheduler T κ) : Prop :=
  ∀ terminalId lane', scheduler'.lanes.get? terminalId = some lane' →
    ∃ lane, scheduler.lanes.get? terminalId = some lane ∧ lane'.queue ⊆ lane.queue

theorem Keyed.shrinks (h : Keyed tag key scheduler) (hshrinks : Shrinks scheduler scheduler') :
    Keyed tag key scheduler' := by
  intro terminalId lane' hlane' pending hmem
  obtain ⟨lane, hlane, hqueue⟩ := hshrinks terminalId lane' hlane'
  exact h terminalId lane hlane pending (hqueue hmem)

theorem flight_update {lane : Lane T κ} {lanes : IndexMap String (Lane T κ)} {order : List String}
    {cursor bytes commands inFlight : Nat} {scheduled : Bool} (other : String) :
    flight ⟨lanes.insert terminalId lane, order, cursor, bytes, commands,
        inFlight, scheduled⟩ other =
      if other = terminalId then lane.inFlightKey
      else (lanes.get? other).bind Lane.inFlightKey := by
  unfold flight
  rw [get?_insert]
  split <;> rfl

theorem attempt_keyed (h : Keyed tag key scheduler) : Keyed tag key scheduler.attempt.1 ∧
      Moves key scheduler scheduler.attempt.1 scheduler.attempt.2 ∧
      ∀ value ∈ scheduler.attempt.2, tag value.2 = value.1 := by
  rcases attempt_cases scheduler with
    ⟨lane, pending, rest, terminalId, -, -, hlane, hkey, hqueue, hattempt⟩ | ⟨hattempt, -⟩
  · have hfirst := h terminalId lane hlane pending (hqueue ▸ mem_cons_self)
    rw [hattempt]
    split
    · refine ⟨h.shrinks fun target lane' hlane' => ?_, fun target => .inl ⟨?_, ?_, rfl⟩,
        fun _ hnone => by cases hnone⟩
      · rw [get?_insert] at hlane'
        split at hlane'
        · rename_i htgt
          cases hlane'
          exact ⟨lane, htgt ▸ hlane, List.Subset.refl _⟩
        · exact ⟨lane', hlane', List.Subset.refl _⟩
      · rw [queued_update]
        split
        · rename_i htgt
          subst htgt
          simp [queued, hlane]
        · rfl
      · rw [flight_update]
        split
        · rename_i htgt
          subst htgt
          simp [flight, hlane]
        · rfl
    · refine ⟨h.shrinks fun target lane' hlane' => ?_, fun target => ?_, fun value hvalue => ?_⟩
      · rw [get?_insert] at hlane'
        split at hlane'
        · rename_i htgt
          cases hlane'
          exact ⟨lane, htgt ▸ hlane, hqueue ▸ subset_cons_self pending rest⟩
        · exact ⟨lane', hlane', List.Subset.refl _⟩
      · rw [queued_update, flight_update]
        by_cases htgt : target = terminalId
        · subst htgt
          refine .inr ⟨pending.value, ?_, ?_, ?_, ?_⟩
          · simp [flight, hlane, hkey]
          · simp [queued, hlane, hqueue]
          · rw [if_pos rfl, ← hfirst.2]
          · simp [forTerminal]
        · refine .inl ⟨?_, ?_, ?_⟩
          · rw [if_neg htgt]
            rfl
          · rw [if_neg htgt]
            rfl
          · simp [forTerminal, Ne.symm htgt]
      · cases mem_singleton.mp hvalue
        exact hfirst.1
  · rw [hattempt]
    exact ⟨h, Moves.refl scheduler, fun _ hnone => by cases hnone⟩

theorem attempts_keyed (count : Nat) (h : Keyed tag key scheduler) :
    Keyed tag key (attempts count scheduler).1 ∧
      Moves key scheduler (attempts count scheduler).1
        (attempts count scheduler).2 ∧
      ∀ value ∈ (attempts count scheduler).2, tag value.2 = value.1 := by
  induction count generalizing scheduler with
  | zero => exact ⟨h, Moves.refl scheduler, fun _ hnone => by cases hnone⟩
  | succ count ih =>
    unfold attempts
    split
    · obtain ⟨hkeyed, hmoves, htags⟩ := attempt_keyed h
      obtain ⟨hkeyed', hmoves', htags'⟩ := ih hkeyed
      refine ⟨hkeyed', hmoves.trans hmoves', fun value hvalue => ?_⟩
      exact (mem_append.mp hvalue).elim (htags value) (htags' value)
    · exact ⟨h, Moves.refl scheduler, fun _ hnone => by cases hnone⟩

theorem runMicrotask_keyed (h : Keyed tag key scheduler) : Keyed tag key scheduler.runMicrotask.1 ∧
      Moves key scheduler scheduler.runMicrotask.1 scheduler.runMicrotask.2 ∧
      ∀ value ∈ scheduler.runMicrotask.2, tag value.2 = value.1 := by
  have hrest : Keyed tag key { scheduler with scheduled := false } := h
  unfold runMicrotask pump
  split
  · exact ⟨hrest, Moves.refl scheduler, nofun⟩
  have hattempts := attempts_keyed (scheduler.order.length * 32) hrest
  dsimp only
  generalize attempts (scheduler.order.length * 32)
    { scheduler with scheduled := false } = result at hattempts ⊢
  split
  · exact hattempts
  · exact hattempts

theorem Keyed.enqueue (h : Keyed tag key scheduler) {value : T} {bytes : Nat}
    {priority : WorkerPriority} (htag : tag value = terminalId)
    (henq : scheduler.enqueue terminalId value bytes priority (key value) = .ok scheduler') :
    Keyed tag key scheduler' := by
  unfold FairWorkerScheduler.enqueue at henq
  simp only at henq
  split at henq
  · cases henq
  cases henq
  intro target lane' hlane' pending hmem
  rw [get?_insert] at hlane'
  split at hlane'
  · rename_i htgt
    cases hlane'
    rcases mem_snoc.mp hmem with hold | rfl
    · cases hknown : scheduler.lanes.get? terminalId with
      | none =>
        rw [hknown] at hold
        cases hold
      | some lane =>
        rw [hknown] at hold
        rw [htgt]
        exact h terminalId lane hknown pending hold
    · exact ⟨htag.trans htgt.symm, rfl⟩
  · exact h target lane' hlane' pending hmem

theorem flight_enqueue {value : T} {bytes : Nat} {priority : WorkerPriority} {key : κ}
    (henq : scheduler.enqueue terminalId value bytes priority key = .ok scheduler')
    (other : String) : scheduler'.flight other = scheduler.flight other := by
  unfold FairWorkerScheduler.enqueue at henq
  simp only at henq
  split at henq
  · cases henq
  cases henq
  rw [flight_update]
  split
  · rename_i hother
    rw [flight, hother]
    cases scheduler.lanes.get? terminalId <;> rfl
  · rfl

theorem Keyed.setPriority (h : Keyed tag key scheduler) (priority : WorkerPriority) :
    Keyed tag key (scheduler.setPriority terminalId priority) := by
  refine h.shrinks fun target lane' hlane' => ?_
  unfold FairWorkerScheduler.setPriority at hlane'
  rw [get?_modify] at hlane'
  split at hlane'
  · obtain ⟨lane, hlane, rfl⟩ := map_eq_some_iff.mp hlane'
    exact ⟨lane, hlane, List.Subset.refl _⟩
  · exact ⟨lane', hlane', List.Subset.refl _⟩

theorem flight_setPriority (priority : WorkerPriority) (other : String) :
    (scheduler.setPriority terminalId priority).flight other = scheduler.flight other := by
  unfold FairWorkerScheduler.setPriority flight
  rw [get?_modify]
  split
  · cases scheduler.lanes.get? other <;> rfl
  · rfl

theorem flight_removeLane (other : String) : (scheduler.removeLane terminalId).flight other =
      if other = terminalId then none else scheduler.flight other := by
  unfold removeLane flight
  rw [get?_shiftRemove]
  split <;> rfl

theorem removeLane_shrinks (scheduler : FairWorkerScheduler T κ) :
    Shrinks scheduler (scheduler.removeLane terminalId) := by
  intro target lane' hlane'
  unfold removeLane at hlane'
  exact ⟨lane', (get?_shiftRemove_eq_some.mp hlane').2, List.Subset.refl _⟩

theorem flight_complete [DecidableEq κ] (key : κ) (other : String) :
    (scheduler.complete terminalId key).flight other =
      if other = terminalId ∧ scheduler.flight terminalId = some key then none
      else scheduler.flight other := by
  unfold FairWorkerScheduler.complete
  cases hlane : scheduler.lanes.get? terminalId with
  | none => simp [flight, hlane]
  | some lane =>
    have hflight : scheduler.flight terminalId = lane.inFlightKey := by
      simp [flight, hlane]
    dsimp only
    split
    · rename_i hkey
      rw [hflight, if_neg fun h => hkey h.2]
    rename_i hkey
    rw [ne_eq, not_not] at hkey
    have hlanded : ∀ landed : FairWorkerScheduler T κ,
        landed.schedule.flight other = landed.flight other := fun _ => rfl
    rw [hlanded, hflight, hkey]
    unfold cleanup
    by_cases hother : other = terminalId
    · subst hother
      rw [if_pos (⟨rfl, rfl⟩ : other = other ∧ some key = some key)]
      split
      · rw [flight_update, if_pos rfl]
      · rw [flight_removeLane, if_pos rfl]
    · rw [if_neg (fun h : other = terminalId ∧ some key = some key => hother h.1)]
      split
      · rw [flight_update, if_neg hother]
        rfl
      · rw [flight_removeLane, if_neg hother, flight_update, if_neg hother]
        rfl

theorem Keyed.complete [DecidableEq κ] (h : Keyed tag key scheduler) (landed : κ) :
    Keyed tag key (scheduler.complete terminalId landed) := by
  unfold FairWorkerScheduler.complete
  split
  · exact h
  rename_i lane hlane
  split
  · exact h
  have hinsert : ∀ scheduler' : FairWorkerScheduler T κ,
      scheduler'.lanes = scheduler.lanes.insert terminalId { lane with inFlightKey := none } →
        Keyed tag key scheduler' := by
    intro scheduler' hlanes
    refine h.shrinks fun target lane' hlane' => ?_
    rw [hlanes, get?_insert] at hlane'
    split at hlane'
    · rename_i htgt
      cases hlane'
      exact ⟨lane, htgt ▸ hlane, List.Subset.refl _⟩
    · exact ⟨lane', hlane', List.Subset.refl _⟩
  have hsame : ∀ scheduler' : FairWorkerScheduler T κ, Keyed tag key scheduler' →
      Keyed tag key scheduler'.schedule := fun _ hkeyed => hkeyed
  unfold cleanup
  refine hsame _ ?_
  split
  · exact hinsert _ rfl
  · exact Keyed.shrinks (hinsert _ rfl) (removeLane_shrinks _)

theorem Keyed.cancel (h : Keyed tag key scheduler) : Keyed tag key (scheduler.cancel terminalId) := by
  unfold FairWorkerScheduler.cancel
  split
  · exact h
  · exact Keyed.shrinks h (removeLane_shrinks _)

theorem flight_cancel (other : String) : (scheduler.cancel terminalId).flight other =
      if other = terminalId then none else scheduler.flight other := by
  unfold FairWorkerScheduler.cancel
  split
  · rename_i hnone
    split
    · rename_i hother
      rw [hother, flight, hnone]
      rfl
    · rfl
  · rw [flight_removeLane]
    rfl

end Lanes

end Yaade.Workers

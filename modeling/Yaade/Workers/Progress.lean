import Yaade.Workers.Scheduler

/-!
Every command that waits is dispatched in the end.
-/

namespace Yaade.Workers

open Yaade.Library List Option IndexMap FairWorkerScheduler

/-! ## How far a lane is from its dispatch -/

def laneBound : Nat := 8201

/-- How far the cursor is from a place in the order: before the place it has to
come to it, behind it it has to turn around first. -/
def distance (cursor place : Nat) : Nat :=
  if cursor ≤ place then place * 2 * laneBound + (place - cursor)
  else (place * 2 + 1) * laneBound + (laneBound - cursor)

def distanceBound : Nat := 2 * laneBound * laneBound

section Distance

variable {cursor place length : Nat}

theorem distance_lt (hcursor : cursor < length) (hplace : place < length)
    (hlength : length < laneBound) : distance cursor place < distanceBound := by
  unfold distance distanceBound laneBound at *
  split <;> omega

theorem distance_next (hcursor : cursor < length) (hplace : place < length)
    (hlength : length < laneBound) (hother : cursor ≠ place) :
    distance ((cursor + 1) % length) place < distance cursor place := by
  unfold distance laneBound at *
  by_cases hlast : cursor + 1 = length
  · rw [hlast, Nat.mod_self]
    split <;> split <;> omega
  · rw [Nat.mod_eq_of_lt (by omega)]
    split <;> split <;> omega

theorem distance_removed_after (hcursor : cursor < length + 1) (hplace : place < length)
    (hlength : length + 1 < laneBound) :
    distance (cursor % max 1 length) place ≤ distance cursor place := by
  have hmax : max 1 length = length := by omega
  rw [hmax]
  unfold distance laneBound at *
  by_cases hlast : cursor = length
  · rw [hlast, Nat.mod_self]
    split <;> split <;> omega
  · rw [Nat.mod_eq_of_lt (by omega)]

theorem distance_removed_before {cursor' : Nat} (hcursor : cursor' < length)
    (hplace : place + 1 < length + 1) (hlength : length + 1 < laneBound) :
    distance cursor' place ≤ distance cursor (place + 1) := by
  unfold distance laneBound at *
  split <;> split <;> omega

end Distance

/-! ## A lane that waits -/

variable {T κ : Type}

/-- A lane that waits with a command in front, and how far that command is from
its dispatch: the deficit that is missing first, then the cursor. -/
def Waits (scheduler : FairWorkerScheduler T κ) (terminalId : String) (pending : Pending T κ)
    (measure : Nat) : Prop :=
  ∃ lane, scheduler.lanes.get? terminalId = some lane ∧ lane.inFlightKey = none ∧
    lane.queue.head? = some pending ∧
    measure = (pending.bytes - lane.deficit) * distanceBound +
      distance scheduler.cursor (scheduler.order.idxOf terminalId)

section Waiting

variable {scheduler : FairWorkerScheduler T κ} {terminalId other : String} {pending : Pending T κ}
  {measure : Nat} {lane : Lane T κ}

section

variable (h : Exact scheduler)
include h

theorem Exact.few_lanes : scheduler.order.length < laneBound := by
  have hlanes : scheduler.lanes.keys.length ≤
      scheduler.lanes.total Lane.commands + scheduler.lanes.total Lane.inFlight := by
    apply length_le_total
    intro terminalId lane hlane
    rcases h.busy terminalId lane hlane with hqueue | hkey
    · have hpos := length_pos_of_ne_nil hqueue
      unfold Lane.commands
      omega
    · simp [Lane.inFlight, hkey]
  have hcommands := h.commands
  have hinFlight := h.inFlight
  have hfew := h.fewCommands
  have hslots := h.slots
  rw [h.order]
  unfold laneBound
  unfold maxCommands at hfew
  unfold maxInFlight at hslots
  omega

theorem Exact.mem_order (hlane : scheduler.lanes.get? terminalId = some lane) :
    terminalId ∈ scheduler.order :=
  h.order ▸ mem_keys.mpr ⟨lane, hlane⟩

theorem Exact.cursor_lt (hlane : scheduler.lanes.get? terminalId = some lane) :
    scheduler.cursor < scheduler.order.length := by
  have hpos := length_pos_of_mem (h.mem_order hlane)
  have hcursor := h.cursor
  omega

theorem Exact.nodup : scheduler.order.Nodup := h.order ▸ scheduler.lanes.nodup

end

theorem Waits.frame {scheduler' : FairWorkerScheduler T κ}
    (h : Waits scheduler terminalId pending measure)
    (hlane : ∀ lane, scheduler.lanes.get? terminalId = some lane → lane.inFlightKey = none →
      ∃ lane', scheduler'.lanes.get? terminalId = some lane' ∧ lane'.inFlightKey = none ∧
        (lane.queue ≠ [] → lane'.queue.head? = lane.queue.head?) ∧ lane'.deficit = lane.deficit)
    (hdistance : distance scheduler'.cursor (scheduler'.order.idxOf terminalId) ≤
      distance scheduler.cursor (scheduler.order.idxOf terminalId)) :
    ∃ measure' ≤ measure, Waits scheduler' terminalId pending measure' := by
  obtain ⟨lane, hfound, hkey, hhead, rfl⟩ := h
  obtain ⟨lane', hfound', hkey', hhead', hdeficit⟩ := hlane lane hfound hkey
  have hqueue : lane.queue ≠ [] := by
    rintro hnil
    rw [hnil] at hhead
    cases hhead
  refine ⟨_, ?_, lane', hfound', hkey', (hhead' hqueue).trans hhead, rfl⟩
  rw [hdeficit]
  omega

/-- A lane is taken out of the order. -/
theorem distance_removeLane (h : Exact scheduler)
    (hlane : scheduler.lanes.get? terminalId = some lane) {removed : Lane T κ}
    (hrem : scheduler.lanes.get? other = some removed) (hne : terminalId ≠ other) :
    distance (scheduler.removeLane other).cursor
        ((scheduler.removeLane other).order.idxOf terminalId) ≤
      distance scheduler.cursor (scheduler.order.idxOf terminalId) := by
  have hnodup := h.nodup
  have hfew := h.few_lanes
  have hcursor := h.cursor_lt hlane
  have hmem := h.mem_order hlane
  obtain ⟨before, after, hsplit⟩ := append_of_mem (h.mem_order hrem)
  have hfilter : scheduler.order.filter (· != other) = before ++ after := by
    rw [hsplit] at hnodup ⊢
    have hrest := (nodup_cons.mp (nodup_middle.mp hnodup)).1
    rw [filter_append, filter_cons_of_neg (by simp), ← filter_append]
    apply filter_eq_self.mpr
    intro id hid
    rw [bne_iff_ne]
    rintro rfl
    exact hrest hid
  unfold removeLane
  simp only
  rw [hfilter]
  have hlength : scheduler.order.length = (before ++ after).length + 1 := by
    rw [hsplit]
    simp only [length_append, length_cons]
    omega
  rw [hlength] at hfew hcursor
  rw [hsplit] at hmem ⊢
  by_cases hbef : terminalId ∈ before
  · rw [idxOf_append_of_mem hbef, idxOf_append_of_mem hbef]
    have hplace := idxOf_lt_length_of_mem hbef
    refine distance_removed_after hcursor ?_ hfew
    rw [length_append]
    omega
  · have hafter : terminalId ∈ after := by
      rcases mem_append.mp hmem with hmem | hmem
      · exact absurd hmem hbef
      · exact (mem_cons.mp hmem).resolve_left hne
    have hplace := idxOf_lt_length_of_mem hafter
    rw [idxOf_append_of_notMem hbef, idxOf_append_of_notMem hbef, idxOf_cons_ne _ (Ne.symm hne)]
    rw [length_append] at hfew ⊢
    have hcursor' : scheduler.cursor % max 1 (before.length + after.length) <
        before.length + after.length := by
      have hmod := Nat.mod_lt scheduler.cursor (show 0 < max 1 (before.length + after.length) by omega)
      omega
    have hplace' : before.length + after.idxOf terminalId + 1 < before.length + after.length + 1 := by
      omega
    exact distance_removed_before hcursor' hplace' hfew

/-- An attempt dispatches the command or brings it nearer. -/
theorem attempt_waits (h : Exact scheduler) (hnamed : terminalId ≠ "")
    (hwaits : Waits scheduler terminalId pending measure) :
    (∃ measure' < measure, Waits scheduler.attempt.1 terminalId pending measure') ∧
        forTerminal terminalId scheduler.attempt.2 = [] ∨
      scheduler.attempt.2 = [(terminalId, pending.value)] := by
  obtain ⟨lane, hlane, hkey, hhead, rfl⟩ := hwaits
  have hnodup := h.nodup
  have hfew := h.few_lanes
  have hcursor := h.cursor_lt hlane
  have hmem := h.mem_order hlane
  have hplace := idxOf_lt_length_of_mem hmem
  have hthere := getElem?_idxOf hmem
  have hnext := Nat.mod_lt (scheduler.cursor + 1) (show 0 < scheduler.order.length by omega)
  rcases attempt_cases scheduler with
    ⟨found, first, rest, target, htgt, -, hfound, hfree, hqueue, hattempt⟩ | ⟨hattempt, hidle⟩
  · by_cases hsame : target = terminalId
    · -- the cursor is at the lane
      subst hsame
      rw [hlane] at hfound
      cases hfound
      rw [hqueue, head?_cons] at hhead
      cases hhead
      rw [hattempt]
      split
      · rename_i hlarge
        left
        refine ⟨⟨_, ?_, { lane with deficit := lane.deficit + quantumBytes * weight lane.priority }, ?_,
          hkey, by rw [hqueue]; rfl, rfl⟩, rfl⟩
        · have hbound := distance_lt hnext hplace hfew
          have hweight : 1 ≤ quantumBytes * weight lane.priority := by
            unfold quantumBytes weight
            split
            · omega
            · split <;> omega
          have hless : pending.bytes - (lane.deficit + quantumBytes * weight lane.priority) + 1 ≤
              pending.bytes - lane.deficit := by omega
          have hmul := Nat.mul_le_mul_right distanceBound hless
          rw [Nat.add_mul, Nat.one_mul] at hmul
          simp only
          omega
        · rw [get?_insert, if_pos rfl]
      · exact .inr rfl
    · -- the cursor is at another lane
      have hother : scheduler.cursor ≠ scheduler.order.idxOf terminalId := by
        intro heq
        rw [← heq, htgt] at hthere
        exact hsame (Option.some.inj hthere)
      have hless := distance_next hcursor hplace hfew hother
      left
      rw [hattempt]
      have hlane' : ∀ changed : Lane T κ,
          (scheduler.lanes.insert target changed).get? terminalId = some lane := by
        intro changed
        rw [get?_insert, if_neg (Ne.symm hsame), hlane]
      split
      · refine ⟨⟨_, ?_, lane, hlane' _, hkey, hhead, rfl⟩, rfl⟩
        simp only
        omega
      · refine ⟨⟨_, ?_, lane, hlane' _, hkey, hhead, rfl⟩, ?_⟩
        · simp only
          omega
        · simp [forTerminal, hsame]
  · have hother : scheduler.cursor ≠ scheduler.order.idxOf terminalId := by
      intro heq
      rw [← heq] at hthere
      have hwaiting := hidle terminalId lane hthere hnamed hlane
      have hqueue : lane.queue ≠ [] := by
        rintro hnil
        rw [hnil] at hhead
        cases hhead
      simp [Lane.waiting, hkey, hqueue] at hwaiting
    have hless := distance_next hcursor hplace hfew hother
    left
    rw [hattempt]
    refine ⟨⟨_, ?_, lane, hlane, hkey, hhead, rfl⟩, rfl⟩
    simp only
    omega

theorem attempts_waits (count : Nat) (h : Exact scheduler) (hnamed : terminalId ≠ "")
    (hwaits : Waits scheduler terminalId pending measure) :
    (∃ measure' ≤ measure, Waits (attempts count scheduler).1 terminalId pending
          measure' ∧ (0 < count → scheduler.inFlight < maxInFlight → measure' < measure)) ∧
        forTerminal terminalId (attempts count scheduler).2 = [] ∨
      ∃ more, forTerminal terminalId (attempts count scheduler).2 =
        pending.value :: more := by
  induction count generalizing scheduler measure with
  | zero => exact .inl ⟨⟨measure, le_rfl, hwaits, fun h => absurd h (Nat.lt_irrefl 0)⟩, rfl⟩
  | succ count ih =>
    have hsome : 0 < scheduler.order.length := by
      obtain ⟨lane, hlane, -⟩ := hwaits
      exact length_pos_of_mem (h.mem_order hlane)
    unfold attempts
    split
    · rename_i hfree
      obtain ⟨hexact, -⟩ := attempt_exact h hfree hsome
      simp only
      rw [forTerminal_append]
      rcases attempt_waits h hnamed hwaits with ⟨⟨measure', hless, hwaits'⟩, hnone⟩ | hsent
      · rw [hnone, nil_append]
        rcases ih hexact hwaits' with ⟨⟨measure'', hle, hwaits'', -⟩, hnone'⟩ | hmore
        · exact .inl ⟨⟨measure'', by omega, hwaits'', fun _ _ => by omega⟩, hnone'⟩
        · exact .inr hmore
      · right
        rw [hsent]
        exact ⟨forTerminal terminalId (attempts count scheduler.attempt.1).2, by simp [forTerminal]⟩
    · rename_i hfull
      exact .inl ⟨⟨measure, le_rfl, hwaits, fun _ hfree => absurd hfree hfull⟩, rfl⟩

theorem pump_waits (h : Exact scheduler) (hnamed : terminalId ≠ "")
    (hwaits : Waits scheduler terminalId pending measure) :
    (∃ measure' ≤ measure, Waits scheduler.pump.1 terminalId pending measure' ∧
          (scheduler.inFlight < maxInFlight → measure' < measure)) ∧
        forTerminal terminalId scheduler.pump.2 = [] ∨
      ∃ more, forTerminal terminalId scheduler.pump.2 = pending.value :: more := by
  have hsome : 0 < scheduler.order.length := by
    obtain ⟨lane, hlane, -⟩ := hwaits
    exact length_pos_of_mem (h.mem_order hlane)
  unfold pump
  split
  · rename_i hidle
    refine .inl ⟨⟨measure, le_rfl, hwaits, fun hfree => ?_⟩, rfl⟩
    rcases hidle with hnone | hfull <;> omega
  have hafter := attempts_waits (scheduler.order.length * 32) h hnamed hwaits
  generalize attempts (scheduler.order.length * 32) scheduler = result at *
  obtain ⟨after, sent⟩ := result
  simp only at hafter ⊢
  rcases hafter with ⟨⟨measure', hle, hwaits', hless⟩, hnone⟩ | hsent
  · refine .inl ⟨⟨measure', hle, ?_, fun hfree => hless (by omega) hfree⟩, hnone⟩
    split <;> exact hwaits'
  · exact .inr hsent

end Waiting

/-! ## Steps -/

def Drops (action : SchedulerAction T κ) (terminalId : String) : Prop :=
  action = .cancel terminalId ∨ action = .reset

section Steps

variable [DecidableEq κ] {world world' : SchedulerWorld T κ} {action : SchedulerAction T κ}
  {scheduler : FairWorkerScheduler T κ} {terminalId other : String} {pending : Pending T κ}
  {measure : Nat}

theorem microtask_world (hstep : (schedulerSystem T κ).step world .microtask = some world') :
    world' = { world with
      scheduler := world.scheduler.runMicrotask.1
      sent := world.sent ++ world.scheduler.runMicrotask.2 } :=
  (Option.some.inj (ite_none_right_eq_some.mp hstep).2).symm

omit [DecidableEq κ] in
theorem removeLane_waits (h : Exact scheduler)
    (hwaits : Waits scheduler terminalId pending measure) {removed : Lane T κ}
    (hrem : scheduler.lanes.get? other = some removed) (hne : terminalId ≠ other)
    {scheduler' : FairWorkerScheduler T κ}
    (hcursor : scheduler'.cursor = (scheduler.removeLane other).cursor)
    (horder : scheduler'.order = (scheduler.removeLane other).order)
    (hlanes : scheduler'.lanes.get? terminalId = scheduler.lanes.get? terminalId) :
    ∃ measure' ≤ measure, Waits scheduler' terminalId pending measure' := by
  obtain ⟨lane, hlane, hrest⟩ := id hwaits
  refine hwaits.frame ?_ ?_
  · intro lane hlane hkey
    exact ⟨lane, hlanes.trans hlane, hkey, fun _ => rfl, rfl⟩
  · rw [hcursor, horder]
    exact distance_removeLane h hlane hrem hne

omit [DecidableEq κ] in
theorem enqueue_waits (h : Exact scheduler)
    (hwaits : Waits scheduler terminalId pending measure) {scheduler' : FairWorkerScheduler T κ}
    {value : T} {bytes : Nat} {priority : WorkerPriority} {key : κ}
    (henq : scheduler.enqueue other value bytes priority key = .ok scheduler') :
    ∃ measure' ≤ measure, Waits scheduler' terminalId pending measure' := by
  obtain ⟨lane, hlane, -⟩ := id hwaits
  have hmem := h.mem_order hlane
  unfold enqueue at henq
  simp only at henq
  split at henq
  · cases henq
  cases henq
  refine hwaits.frame ?_ ?_
  · intro lane hlane hkey
    simp only [get?_insert]
    split
    · rename_i hother
      subst hother
      refine ⟨_, rfl, by rw [hlane]; exact hkey, fun hqueue => ?_, by rw [hlane]; rfl⟩
      rw [hlane]
      exact head?_append_of_ne_nil _ hqueue
    · exact ⟨lane, hlane, hkey, fun _ => rfl, rfl⟩
  · simp only
    split
    · exact le_rfl
    · rw [idxOf_append_of_mem hmem]

omit [DecidableEq κ] in
theorem setPriority_waits (hwaits : Waits scheduler terminalId pending measure)
    (priority : WorkerPriority) :
    ∃ measure' ≤ measure, Waits (scheduler.setPriority other priority) terminalId pending
      measure' := by
  refine hwaits.frame ?_ le_rfl
  intro lane hlane hkey
  unfold setPriority
  rw [get?_modify, hlane]
  split
  · exact ⟨_, rfl, hkey, fun _ => rfl, rfl⟩
  · exact ⟨_, rfl, hkey, fun _ => rfl, rfl⟩

theorem complete_waits (h : Exact scheduler)
    (hwaits : Waits scheduler terminalId pending measure) (key : κ) :
    ∃ measure' ≤ measure, Waits (scheduler.complete other key) terminalId pending measure' := by
  unfold complete
  split
  · exact ⟨measure, le_rfl, hwaits⟩
  rename_i done hdone
  split
  · exact ⟨measure, le_rfl, hwaits⟩
  rename_i hkey
  rw [not_not] at hkey
  have hne : terminalId ≠ other := by
    rintro rfl
    obtain ⟨lane, hlane, hnone, -⟩ := hwaits
    rw [hdone] at hlane
    cases hlane
    rw [hnone] at hkey
    cases hkey
  unfold cleanup
  simp only
  split
  · refine hwaits.frame ?_ le_rfl
    intro lane hlane hfree
    refine ⟨lane, ?_, hfree, fun _ => rfl, rfl⟩
    unfold schedule
    simp only [get?_insert, hne, if_false]
    exact hlane
  · refine removeLane_waits h hwaits hdone hne rfl rfl ?_
    unfold schedule removeLane
    simp [hne]

omit [DecidableEq κ] in
theorem cancel_waits (h : Exact scheduler)
    (hwaits : Waits scheduler terminalId pending measure) (hne : terminalId ≠ other) :
    ∃ measure' ≤ measure, Waits (scheduler.cancel other) terminalId pending measure' := by
  unfold cancel
  split
  · exact ⟨measure, le_rfl, hwaits⟩
  rename_i removed hrem
  refine removeLane_waits h hwaits hrem hne rfl rfl ?_
  unfold removeLane
  simp [hne]

/-- A step that does not drop the command dispatches it or keeps it as near as
it is, and brings it nearer if it is the pump and there is a free slot. -/
theorem step_waits (h : Exact world.scheduler) (hnamed : terminalId ≠ "")
    (hwaits : Waits world.scheduler terminalId pending measure) (hkept : ¬ Drops action terminalId)
    (hstep : (schedulerSystem T κ).step world action = some world') :
    (∃ measure' ≤ measure, Waits world'.scheduler terminalId pending measure' ∧
          (action = .microtask → world.scheduler.inFlight < maxInFlight → measure' < measure)) ∧
        forTerminal terminalId world'.sent = forTerminal terminalId world.sent ∨
      ∃ more, forTerminal terminalId world'.sent =
        forTerminal terminalId world.sent ++ pending.value :: more := by
  cases action with
  | enqueue target value bytes priority key =>
    left
    simp only [schedulerSystem, schedulerStep] at hstep
    split at hstep
    · cases hstep
      exact ⟨⟨measure, le_rfl, hwaits, fun h => by cases h⟩, rfl⟩
    rename_i scheduler henq
    cases hstep
    obtain ⟨measure', hle, hwaits'⟩ := enqueue_waits h hwaits henq
    exact ⟨⟨measure', hle, hwaits', fun h => by cases h⟩, rfl⟩
  | setPriority target priority =>
    cases hstep
    obtain ⟨measure', hle, hwaits'⟩ := @setPriority_waits _ _ _ _ target _ _ hwaits priority
    exact .inl ⟨⟨measure', hle, hwaits', fun h => by cases h⟩, rfl⟩
  | complete target key =>
    cases hstep
    obtain ⟨measure', hle, hwaits'⟩ := @complete_waits _ _ _ _ _ target _ _ h hwaits key
    exact .inl ⟨⟨measure', hle, hwaits', fun h => by cases h⟩, rfl⟩
  | cancel target =>
    cases hstep
    have hne : terminalId ≠ target := fun heq => hkept (.inl (by rw [heq]))
    obtain ⟨measure', hle, hwaits'⟩ := cancel_waits h hwaits hne
    exact .inl ⟨⟨measure', hle, hwaits', fun h => by cases h⟩, rfl⟩
  | reset => exact absurd (.inr rfl) hkept
  | microtask =>
    have hworld := microtask_world hstep
    have hpump := pump_waits (h.rescheduled false) hnamed hwaits
    rw [hworld]
    simp only
    rw [forTerminal_append]
    rcases hpump with ⟨⟨measure', hle, hwaits', hless⟩, hnone⟩ | ⟨more, hsent⟩
    · refine .inl ⟨⟨measure', hle, hwaits', fun _ hfree => hless hfree⟩, ?_⟩
      rw [show forTerminal terminalId world.scheduler.runMicrotask.2 = [] from hnone, append_nil]
    · exact .inr ⟨more, congrArg _ hsent⟩

/-- What is dispatched and what waits stay in line. -/
theorem step_stream (h : Exact world.scheduler) (hkept : ¬ Drops action terminalId)
    (hstep : (schedulerSystem T κ).step world action = some world') :
    forTerminal terminalId world.sent <+: forTerminal terminalId world'.sent ∧
      forTerminal terminalId world.sent ++ world.scheduler.queued terminalId <+:
        forTerminal terminalId world'.sent ++ world'.scheduler.queued terminalId := by
  cases action with
  | enqueue target value bytes priority key =>
    simp only [schedulerSystem, schedulerStep] at hstep
    split at hstep
    · cases hstep
      exact ⟨prefix_rfl, prefix_rfl⟩
    rename_i scheduler henq
    cases hstep
    refine ⟨prefix_rfl, ?_⟩
    simp only
    rw [queued_enqueue henq, ← append_assoc]
    exact prefix_append _ _
  | setPriority target priority =>
    cases hstep
    refine ⟨prefix_rfl, ?_⟩
    simp only
    rw [queued_setPriority]
  | complete target key =>
    cases hstep
    refine ⟨prefix_rfl, ?_⟩
    simp only
    rw [queued_complete]
  | cancel target =>
    cases hstep
    have hne : terminalId ≠ target := fun heq => hkept (.inl (by rw [heq]))
    refine ⟨prefix_rfl, ?_⟩
    simp only
    rw [queued_cancel, if_neg hne]
  | reset => exact absurd (.inr rfl) hkept
  | microtask =>
    have hworld := microtask_world hstep
    have hsent : world.scheduler.queued terminalId =
        forTerminal terminalId world.scheduler.runMicrotask.2 ++
          (world.scheduler.runMicrotask.1).queued terminalId :=
      (pump_exact (h.rescheduled false)).2 terminalId
    rw [hworld, hsent]
    simp only
    rw [forTerminal_append, append_assoc]
    exact ⟨prefix_append _ _, prefix_rfl⟩

def Ends (action : SchedulerAction T κ) (terminalId : String) (key : κ) : Prop :=
  action = .complete terminalId key ∨ Drops action terminalId

def OnItsWay (scheduler : FairWorkerScheduler T κ) (terminalId : String) (key : κ)
    (queue : List (Pending T κ)) : Prop :=
  ∃ lane, scheduler.lanes.get? terminalId = some lane ∧ lane.inFlightKey = some key ∧
    queue <+: lane.queue

omit [DecidableEq κ] in
theorem attempts_onItsWay {key : κ} {queue : List (Pending T κ)} (count : Nat)
    (h : OnItsWay scheduler terminalId key queue) :
    OnItsWay (attempts count scheduler).1 terminalId key queue := by
  induction count generalizing scheduler with
  | zero => exact h
  | succ count ih =>
    unfold attempts
    split
    · apply ih
      obtain ⟨lane, hlane, hkey, hqueue⟩ := h
      rcases attempt_cases scheduler with
        ⟨found, first, rest, target, -, -, hfound, hfree, -, hattempt⟩ | ⟨hattempt, -⟩
      · have hne : terminalId ≠ target := by
          rintro rfl
          rw [hlane] at hfound
          cases hfound
          rw [hkey] at hfree
          cases hfree
        rw [hattempt]
        split
        · exact ⟨lane, by simp [hne, hlane], hkey, hqueue⟩
        · exact ⟨lane, by simp [hne, hlane], hkey, hqueue⟩
      · rw [hattempt]
        exact ⟨lane, hlane, hkey, hqueue⟩
    · exact h

omit [DecidableEq κ] in
variable {key : κ} {queue : List (Pending T κ)}

theorem pump_onItsWay (h : OnItsWay scheduler terminalId key queue) :
    OnItsWay scheduler.pump.1 terminalId key queue := by
  unfold pump
  split
  · exact h
  have hafter := attempts_onItsWay (scheduler.order.length * 32) h
  generalize attempts (scheduler.order.length * 32) scheduler = result at *
  simp only
  split <;> exact hafter

/-- A command that does not end stays on its way. -/
theorem step_onItsWay
    (h : OnItsWay world.scheduler terminalId key queue) (hgoes : ¬ Ends action terminalId key)
    (hstep : (schedulerSystem T κ).step world action = some world') :
    OnItsWay world'.scheduler terminalId key queue := by
  obtain ⟨lane, hlane, hkey, hqueue⟩ := id h
  cases action with
  | enqueue target value bytes priority key' =>
    simp only [schedulerSystem, schedulerStep] at hstep
    split at hstep
    · cases hstep
      exact h
    rename_i scheduler henq
    cases hstep
    unfold enqueue at henq
    simp only at henq
    split at henq
    · cases henq
    cases henq
    unfold OnItsWay
    simp only [get?_insert]
    split
    · rename_i hother
      subst hother
      refine ⟨_, rfl, by rw [hlane]; exact hkey, ?_⟩
      rw [hlane]
      exact hqueue.trans (prefix_append _ _)
    · exact ⟨lane, hlane, hkey, hqueue⟩
  | setPriority target priority =>
    cases hstep
    unfold OnItsWay setPriority
    simp only
    rw [get?_modify, hlane]
    split
    · exact ⟨_, rfl, hkey, hqueue⟩
    · exact ⟨_, rfl, hkey, hqueue⟩
  | complete target key' =>
    cases hstep
    simp only
    unfold complete
    split
    · exact h
    rename_i done hdone
    split
    · exact h
    rename_i hmatch
    rw [not_not] at hmatch
    have hne : terminalId ≠ target := by
      rintro rfl
      rw [hlane] at hdone
      cases hdone
      rw [hkey] at hmatch
      cases hmatch
      exact hgoes (.inl rfl)
    refine ⟨lane, ?_, hkey, hqueue⟩
    unfold cleanup schedule removeLane
    simp only
    split <;> simp [hne, hlane]
  | cancel target =>
    cases hstep
    have hne : terminalId ≠ target := fun heq => hgoes (.inr (.inl (by rw [heq])))
    simp only
    unfold cancel
    split
    · exact h
    refine ⟨lane, ?_, hkey, hqueue⟩
    unfold removeLane
    simp [hne, hlane]
  | reset => exact absurd (.inr (.inr rfl)) hgoes
  | microtask =>
    have hworld := microtask_world hstep
    rw [hworld]
    have hstart : OnItsWay { world.scheduler with scheduled := false } terminalId key queue := h
    exact pump_onItsWay hstart

theorem step_ends (h : Exact world.scheduler)
    (honItsWay : OnItsWay world.scheduler terminalId key queue) (hends : Ends action terminalId key)
    (hstep : (schedulerSystem T κ).step world action = some world') :
    world'.scheduler.inFlight < world.scheduler.inFlight := by
  obtain ⟨lane, hlane, hkey, -⟩ := honItsWay
  have hone : lane.inFlight = 1 := by simp [Lane.inFlight, hkey]
  have hle := IndexMap.le_total hlane Lane.inFlight
  have hexact := h.inFlight
  rcases hends with rfl | rfl | rfl
  · cases hstep
    simp only
    unfold complete
    rw [hlane]
    simp only [hkey, ne_eq, not_true_eq_false, if_false]
    unfold cleanup schedule removeLane
    split <;> simp only <;> omega
  · cases hstep
    simp only
    unfold cancel
    rw [hlane]
    unfold removeLane
    simp only
    omega
  · cases hstep
    have hzero : world.scheduler.reset.inFlight = 0 := rfl
    simp only
    omega

/-- Only the pump takes slots. -/
theorem step_slots (hnot : action ≠ .microtask)
    (hstep : (schedulerSystem T κ).step world action = some world') :
    world'.scheduler.inFlight ≤ world.scheduler.inFlight := by
  cases action with
  | enqueue target value bytes priority key =>
    simp only [schedulerSystem, schedulerStep] at hstep
    split at hstep
    · cases hstep
      exact le_rfl
    rename_i scheduler henq
    cases hstep
    unfold enqueue at henq
    simp only at henq
    split at henq
    · cases henq
    · cases henq
      exact le_rfl
  | setPriority target priority =>
    cases hstep
    exact le_rfl
  | complete target key =>
    cases hstep
    simp only
    unfold complete
    split
    · exact le_rfl
    split
    · exact le_rfl
    unfold cleanup schedule removeLane
    simp only
    split <;> simp only <;> omega
  | cancel target =>
    cases hstep
    simp only
    unfold cancel
    split
    · exact le_rfl
    unfold removeLane
    simp only
    omega
  | reset =>
    cases hstep
    exact Nat.zero_le _
  | microtask => exact absurd rfl hnot

end Steps

/-! ## Runs that go on -/

section Executions

variable [DecidableEq κ] (e : (schedulerSystem T κ).Execution Resumes)

/-- A microtask that was queued runs, and a command that was dispatched is
completed, unless its terminal is cancelled. -/
structure Fair : Prop where
  microtask : ∀ n, (e.states n).scheduler.scheduled = true → ∃ m, n ≤ m ∧ e.actions m = .microtask
  completes : ∀ n terminalId lane key,
    (e.states n).scheduler.lanes.get? terminalId = some lane → lane.inFlightKey = some key →
    ∃ m, n ≤ m ∧ Ends (e.actions m) terminalId key

variable {e} {n : Nat} {terminalId : String} {pending : Pending T κ} {measure : Nat}

theorem Execution.exact (e : (schedulerSystem T κ).Execution Resumes) (n : Nat) :
    Exact (e.states n).scheduler := (scheduler_sound (e.run n)).exact

omit [DecidableEq κ] in
theorem pump_order (scheduler : FairWorkerScheduler T κ) :
    scheduler.pump.1.order = scheduler.order := by
  have hattempts : ∀ count (scheduler : FairWorkerScheduler T κ),
      (attempts count scheduler).1.order = scheduler.order := by
    intro count
    induction count with
    | zero => exact fun _ => rfl
    | succ count ih =>
      intro scheduler
      unfold attempts
      split
      · exact (ih scheduler.attempt.1).trans (attempt_order scheduler)
      · rfl
  have hall := hattempts (scheduler.order.length * 32) scheduler
  unfold pump
  split
  · rfl
  generalize attempts (scheduler.order.length * 32) scheduler = result at *
  simp only
  split <;> exact hall

/-- Terminals have names. -/
theorem step_named {world world' : SchedulerWorld T κ} {action : SchedulerAction T κ}
    (h : "" ∉ world.scheduler.order) (hresumes : Resumes world action)
    (hstep : (schedulerSystem T κ).step world action = some world') :
    "" ∉ world'.scheduler.order := by
  have hrem : ∀ (scheduler : FairWorkerScheduler T κ) (target : String),
      "" ∉ scheduler.order → "" ∉ (scheduler.removeLane target).order :=
    fun scheduler target h hmem => h (mem_filter.mp hmem).1
  cases action with
  | enqueue target value bytes priority key =>
    simp only [schedulerSystem, schedulerStep] at hstep
    split at hstep
    · cases hstep
      exact h
    rename_i scheduler henq
    cases hstep
    unfold enqueue at henq
    simp only at henq
    split at henq
    · cases henq
    cases henq
    simp only
    split
    · exact h
    intro hmem
    rcases mem_append.mp hmem with hmem | hmem
    · exact h hmem
    · exact hresumes (mem_singleton.mp hmem).symm
  | setPriority target priority =>
    cases hstep
    exact h
  | complete target key =>
    cases hstep
    simp only
    unfold complete
    split
    · exact h
    split
    · exact h
    unfold cleanup
    simp only
    split
    · exact h
    · exact hrem _ target h
  | cancel target =>
    cases hstep
    simp only
    unfold cancel
    split
    · exact h
    · exact hrem _ target h
  | reset =>
    cases hstep
    exact not_mem_nil
  | microtask =>
    have hworld := microtask_world hstep
    rw [hworld]
    simp only
    rw [show world.scheduler.runMicrotask.1.order = world.scheduler.order from pump_order _]
    exact h

theorem Execution.named (e : (schedulerSystem T κ).Execution Resumes) (n : Nat) {lane : Lane T κ}
    (hlane : (e.states n).scheduler.lanes.get? terminalId = some lane) : terminalId ≠ "" := by
  have hnone : ∀ world, (schedulerSystem T κ).Run Resumes world → "" ∉ world.scheduler.order := by
    intro world hrun
    apply hrun.invariant
    · rintro start rfl
      exact not_mem_nil
    · exact fun _ _ _ h hresumes hstep => step_named h hresumes hstep
  rintro rfl
  exact hnone _ (e.run n) ((Execution.exact e n).mem_order hlane)

theorem Fair.frees (hfair : Fair e) (n : Nat) :
    ∃ m, n ≤ m ∧ (e.states m).scheduler.inFlight < maxInFlight := by
  by_contra hfull
  push Not at hfull
  have hexact := Execution.exact e n
  have hsome : ∃ terminalId lane key, (e.states n).scheduler.lanes.get? terminalId = some lane ∧
      lane.inFlightKey = some key := by
    by_contra hnone
    push Not at hnone
    have hzero : (e.states n).scheduler.lanes.total Lane.inFlight = 0 := by
      apply total_eq_zero
      intro terminalId lane hlane
      cases hkey : lane.inFlightKey with
      | none => simp [Lane.inFlight, hkey]
      | some key => exact absurd hkey (hnone terminalId lane key hlane)
    have hcount := hexact.inFlight
    have hstart := hfull n (Nat.le_refl n)
    unfold maxInFlight at hstart
    omega
  obtain ⟨terminalId, lane, key, hlane, hkey⟩ := hsome
  obtain ⟨m, hm, hends⟩ := hfair.completes n terminalId lane key hlane hkey
  have hnever : ∀ k, n ≤ k → OnItsWay (e.states k).scheduler terminalId key [] →
      ¬ Ends (e.actions k) terminalId key := by
    intro k hk honItsWay hends
    have hfalls := step_ends (Execution.exact e k) honItsWay hends (e.steps k)
    have hslots := (Execution.exact e k).slots
    have hfull' := hfull (k + 1) (by omega)
    omega
  have hstays := e.stays (P := fun world => OnItsWay world.scheduler terminalId key [])
    ⟨lane, hlane, hkey, nil_prefix⟩
    fun k hk h => step_onItsWay h (hnever k hk h) (e.steps k)
  exact hnever m hm (hstays m hm) hends

omit [DecidableEq κ] in
theorem Waits.dispatchable {scheduler : FairWorkerScheduler T κ}
    (h : Waits scheduler terminalId pending measure) : scheduler.dispatchable = true := by
  obtain ⟨lane, hlane, hkey, hhead, -⟩ := h
  cases hidle : scheduler.dispatchable with
  | true => rfl
  | false =>
    have hwaiting := dispatchable_eq_false.mp hidle terminalId lane hlane
    have hqueue : lane.queue ≠ [] := by
      rintro hnil
      rw [hnil] at hhead
      cases hhead
    simp [Lane.waiting, hkey, hqueue] at hwaiting

theorem Fair.pumps (hfair : Fair e)
    (hwaits : ∀ m, n ≤ m → (e.states m).scheduler.dispatchable = true) :
    ∃ m, n ≤ m ∧ e.actions m = .microtask ∧ (e.states m).scheduler.inFlight < maxInFlight := by
  obtain ⟨k, hk, hfree⟩ := hfair.frees n
  have hscheduled : (e.states k).scheduler.scheduled = true := by
    rcases (scheduler_sound (e.run k)).conserving with hscheduled | hfull | hidle
    · exact hscheduled
    · omega
    · rw [hwaits k hk] at hidle
      cases hidle
  have hpump := hfair.microtask k hscheduled
  classical
  have hfind := Nat.find_spec hpump
  have hfirst := fun j hj => Nat.find_min hpump (m := j) hj
  obtain ⟨hkm, haction⟩ := hfind
  refine ⟨Nat.find hpump, by omega, haction, ?_⟩
  have hslots : ∀ j, k ≤ j → j ≤ Nat.find hpump →
      (e.states j).scheduler.inFlight < maxInFlight := by
    intro j hj
    induction j, hj using Nat.le_induction with
    | base => exact fun _ => hfree
    | succ j hj ih =>
      intro hle
      have hbef := ih (by omega)
      have hnot : e.actions j ≠ .microtask := fun h => hfirst j (by omega) ⟨hj, h⟩
      have hstep := step_slots hnot (e.steps j)
      omega
  exact hslots _ hkm le_rfl

theorem Fair.no_wait (hfair : Fair e) (hnamed : terminalId ≠ "")
    (hstay : ∀ m, n ≤ m → ¬ Drops (e.actions m) terminalId ∧
      forTerminal terminalId (e.states (m + 1)).sent = forTerminal terminalId (e.states m).sent) :
    ¬ Waits (e.states n).scheduler terminalId pending measure := by
  intro hwaits
  induction measure using Nat.strong_induction_on generalizing n with
  | _ measure ih =>
    have hnear : ∀ m, n ≤ m → ∀ near,
        Waits (e.states m).scheduler terminalId pending near →
        ∃ near' ≤ near, Waits (e.states (m + 1)).scheduler terminalId pending near' ∧
          (e.actions m = .microtask → (e.states m).scheduler.inFlight < maxInFlight →
            near' < near) := by
      intro m hm near hnear
      obtain ⟨hkept, hsame⟩ := hstay m hm
      rcases step_waits (Execution.exact e m) hnamed hnear hkept (e.steps m) with
        ⟨hstep, -⟩ | ⟨more, hsent⟩
      · exact hstep
      rw [hsame] at hsent
      have hlength := congrArg List.length hsent
      simp at hlength
    have hall := e.stays (n := n)
      (P := fun world => ∃ near ≤ measure, Waits world.scheduler terminalId pending near)
      ⟨measure, le_rfl, hwaits⟩ (by
        rintro m hm ⟨near, hle, hwaiting⟩
        obtain ⟨near', hle', hwaiting', -⟩ := hnear m hm near hwaiting
        exact ⟨near', by omega, hwaiting'⟩)
    obtain ⟨m, hm, haction, hfree⟩ := hfair.pumps (n := n) fun m hm => by
      obtain ⟨near, -, hwaiting⟩ := hall m hm
      exact hwaiting.dispatchable
    obtain ⟨near, hle, hwaiting⟩ := hall m hm
    obtain ⟨near', -, hwaiting', hless⟩ := hnear m hm near hwaiting
    have hnearer := hless haction hfree
    exact ih near' (by omega) (n := m + 1) (fun k hk => hstay k (by omega)) hwaiting'

theorem complete_frees {scheduler : FairWorkerScheduler T κ} {key : κ}
    {rest : List (Pending T κ)} (h : OnItsWay scheduler terminalId key (pending :: rest)) :
    ∃ measure, Waits (scheduler.complete terminalId key) terminalId pending measure := by
  obtain ⟨lane, hlane, hkey, more, hqueue⟩ := h
  have hsome : lane.queue ≠ [] := by
    rw [← hqueue]
    exact cons_ne_nil _ _
  have hcomplete : scheduler.complete terminalId key = ({ scheduler with
      lanes := scheduler.lanes.insert terminalId { lane with inFlightKey := none }
      inFlight := scheduler.inFlight - 1 } : FairWorkerScheduler T κ).schedule := by
    unfold complete cleanup
    rw [hlane]
    simp only [hkey, ne_eq, not_true_eq_false, if_false]
    rw [if_pos (.inr hsome)]
  rw [hcomplete]
  refine ⟨_, { lane with inFlightKey := none }, ?_, rfl, ?_, rfl⟩
  · unfold schedule
    rw [get?_insert, if_pos rfl]
  · rw [← hqueue]
    rfl

/-- What waits is dispatched, unless it is dropped. -/
theorem Fair.sends (hfair : Fair e) (hqueued : (e.states n).scheduler.queued terminalId ≠ []) :
    ∃ m, n ≤ m ∧ ((∃ k, n ≤ k ∧ k < m ∧ Drops (e.actions k) terminalId) ∨
      (forTerminal terminalId (e.states n).sent).length <
        (forTerminal terminalId (e.states m).sent).length) := by
  by_contra hstuck
  push Not at hstuck
  have hkept : ∀ m, n ≤ m → ¬ Drops (e.actions m) terminalId := fun m hm =>
    (hstuck (m + 1) (by omega)).1 m hm (by omega)
  have hgrows : ∀ m, n ≤ m → forTerminal terminalId (e.states m).sent <+:
      forTerminal terminalId (e.states (m + 1)).sent := fun m hm =>
    (step_stream (Execution.exact e m) (hkept m hm) (e.steps m)).1
  have hmore := e.stays (n := n) (P := fun world =>
    forTerminal terminalId (e.states n).sent <+: forTerminal terminalId world.sent)
    prefix_rfl fun m hm h => h.trans (hgrows m hm)
  have hstay : ∀ m, n ≤ m → ¬ Drops (e.actions m) terminalId ∧
      forTerminal terminalId (e.states (m + 1)).sent = forTerminal terminalId (e.states m).sent := by
    intro m hm
    refine ⟨hkept m hm, ((hgrows m hm).eq_of_length_le ?_).symm⟩
    exact ((hstuck (m + 1) (by omega)).2).trans (hmore m hm).length_le
  obtain ⟨lane, hlane⟩ : ∃ lane, (e.states n).scheduler.lanes.get? terminalId = some lane := by
    cases hlane : (e.states n).scheduler.lanes.get? terminalId with
    | none => simp [queued, hlane] at hqueued
    | some lane => exact ⟨lane, rfl⟩
  have hnamed := Execution.named e n hlane
  obtain ⟨pending, rest, hqueue⟩ : ∃ pending rest, lane.queue = pending :: rest := by
    apply exists_cons_of_ne_nil
    rintro hnil
    simp [queued, hlane, hnil] at hqueued
  cases hkey : lane.inFlightKey with
  | none => exact hfair.no_wait hnamed hstay ⟨lane, hlane, hkey, by rw [hqueue]; rfl, rfl⟩
  | some key =>
    have hends := hfair.completes n terminalId lane key hlane hkey
    classical
    obtain ⟨hm, hend⟩ := Nat.find_spec hends
    have hfirst := fun j hj => Nat.find_min hends (m := j) hj
    have honItsWay : ∀ j, n ≤ j → j ≤ Nat.find hends →
        OnItsWay (e.states j).scheduler terminalId key (pending :: rest) := by
      intro j hj
      induction j, hj using Nat.le_induction with
      | base => exact fun _ => ⟨lane, hlane, hkey, hqueue ▸ prefix_rfl⟩
      | succ j hj ih =>
        intro hle
        exact step_onItsWay (ih (by omega)) (fun h => hfirst j (by omega) ⟨hj, h⟩) (e.steps j)
    have hlast := honItsWay _ hm le_rfl
    rcases hend with hcomplete | hdrop
    · obtain ⟨measure, hwaits⟩ := complete_frees hlast
      have hstep := e.steps (Nat.find hends)
      rw [hcomplete] at hstep
      have hnext : (e.states (Nat.find hends + 1)).scheduler =
          (e.states (Nat.find hends)).scheduler.complete terminalId key := by
        rw [← Option.some.inj hstep]
      rw [← hnext] at hwaits
      exact hfair.no_wait hnamed (fun m hm' => hstay m (by omega)) hwaits
    · exact hkept _ hm hdrop

/-- All that waits is dispatched, in order, unless it is dropped. -/
theorem Fair.dispatches (hfair : Fair e) (n : Nat) (terminalId : String) :
    ∃ m, n ≤ m ∧ ((∃ k, n ≤ k ∧ k < m ∧ Drops (e.actions k) terminalId) ∨
      forTerminal terminalId (e.states n).sent ++ (e.states n).scheduler.queued terminalId <+:
        forTerminal terminalId (e.states m).sent) := by
  obtain ⟨wanted, hwanted⟩ : ∃ wanted, wanted = forTerminal terminalId (e.states n).sent ++
    (e.states n).scheduler.queued terminalId := ⟨_, rfl⟩
  rw [← hwanted]
  -- induction on how many of the wanted commands are not yet dispatched
  suffices hcount : ∀ missing m, n ≤ m → (∀ k, n ≤ k → k < m → ¬ Drops (e.actions k) terminalId) →
      wanted <+: forTerminal terminalId (e.states m).sent ++
        (e.states m).scheduler.queued terminalId →
      wanted.length ≤ (forTerminal terminalId (e.states m).sent).length + missing →
      ∃ m, n ≤ m ∧ ((∃ k, n ≤ k ∧ k < m ∧ Drops (e.actions k) terminalId) ∨
        wanted <+: forTerminal terminalId (e.states m).sent) by
    exact hcount wanted.length n (Nat.le_refl n) (fun k hk hlt => by omega)
      (hwanted ▸ prefix_rfl) (by omega)
  intro missing
  induction missing with
  | zero =>
    intro m hm _ hline hlength
    exact ⟨m, hm, .inr (prefix_of_prefix_length_le hline (prefix_append _ _) (by omega))⟩
  | succ missing ih =>
    intro m hm hkept hline hlength
    by_cases hdone : wanted.length ≤ (forTerminal terminalId (e.states m).sent).length
    · exact ⟨m, hm, .inr (prefix_of_prefix_length_le hline (prefix_append _ _) hdone)⟩
    have hqueued : (e.states m).scheduler.queued terminalId ≠ [] := by
      intro hnil
      have hle := hline.length_le
      rw [hnil, append_nil] at hle
      omega
    obtain ⟨m', hm', hmoves⟩ := hfair.sends hqueued
    by_cases hdropped : ∃ k, m ≤ k ∧ k < m' ∧ Drops (e.actions k) terminalId
    · obtain ⟨k, hk, hlt, hdrop⟩ := hdropped
      exact ⟨m', by omega, .inl ⟨k, by omega, hlt, hdrop⟩⟩
    have hmoved := hmoves.resolve_left hdropped
    have hkept' : ∀ k, n ≤ k → k < m' → ¬ Drops (e.actions k) terminalId := by
      intro k hk hlt hdrop
      by_cases hbef : k < m
      · exact hkept k hk hbef hdrop
      · exact hdropped ⟨k, by omega, hlt, hdrop⟩
    have hline' : ∀ j, m ≤ j → j ≤ m' → wanted <+:
        forTerminal terminalId (e.states j).sent ++ (e.states j).scheduler.queued terminalId := by
      intro j hj
      induction j, hj using Nat.le_induction with
      | base => exact fun _ => hline
      | succ j hj ih =>
        intro hle
        exact (ih (by omega)).trans (step_stream (Execution.exact e j)
          (hkept' j (by omega) (by omega)) (e.steps j)).2
    exact ih m' (by omega) hkept' (hline' m' hm' le_rfl) (by omega)

end Executions

/-! ## The scheduler is exact and fair -/

/-- In every run the counters are exact, a free slot is not left unused, and
each terminal's commands are dispatched in order, none twice; in a run that is
fair every command that waits is dispatched, unless it is dropped. The pump has
to run again after a cancelled command leaves a slot, and terminals have names. -/
theorem scheduler_exact (T κ : Type) [DecidableEq κ] :
    (∀ world, (schedulerSystem T κ).Run Resumes world → SchedulerSound world) ∧
      ∀ e : (schedulerSystem T κ).Execution Resumes, Fair e → ∀ n terminalId,
        ∃ m, n ≤ m ∧ ((∃ k, n ≤ k ∧ k < m ∧ Drops (e.actions k) terminalId) ∨
          forTerminal terminalId (e.states n).sent ++
              (e.states n).scheduler.queued terminalId <+:
            forTerminal terminalId (e.states m).sent) :=
  ⟨fun _ hrun => scheduler_sound hrun, fun _ hfair n terminalId => hfair.dispatches n terminalId⟩

def sampleAction : Nat → SchedulerAction Nat Nat
  | 0 => .enqueue "t" 7 1 ⟨true, true⟩ 0
  | 1 => .microtask
  | 2 => .complete "t" 0
  | 3 => .microtask
  | _ => .setPriority "t" ⟨true, true⟩

def sampleWorld : Nat → SchedulerWorld Nat Nat
  | 0 => ⟨.empty, [], [], []⟩
  | n + 1 => (schedulerStep (sampleWorld n) (sampleAction n)).getD (sampleWorld n)

theorem sampleWorld_idle (n : Nat) : sampleWorld (n + 4) = sampleWorld 4 := by
  induction n with
  | zero => rfl
  | succ n ih =>
    have hstep : sampleWorld (n + 4 + 1) =
        (schedulerStep (sampleWorld (n + 4)) (.setPriority "t" ⟨true, true⟩)).getD
          (sampleWorld (n + 4)) := rfl
    rw [show n + 1 + 4 = n + 4 + 1 by omega, hstep, ih]
    rfl

def sampleExecution : (schedulerSystem Nat Nat).Execution Resumes where
  states := sampleWorld
  actions := sampleAction
  starts := rfl
  permitted
    | 0 => show ("t" : String) ≠ "" by decide
    | 1 | 2 | 3 => trivial
    | _ + 4 => trivial
  steps
    | 0 | 1 | 2 | 3 => rfl
    | _ + 4 => rfl

theorem sampleExecution_fair : Fair sampleExecution where
  microtask
    | 0, h => absurd h (by decide)
    | 1, _ => ⟨1, le_rfl, rfl⟩
    | 2, _ | 3, _ => ⟨3, by omega, rfl⟩
    | n + 4, h => by
      have hidle : (sampleWorld (n + 4)).scheduler.scheduled = true := h
      rw [sampleWorld_idle] at hidle
      exact absurd hidle (by decide)
  completes := by
    intro n terminalId lane key hlane hkey
    have hmem := get?_eq_some.mp hlane
    match n with
    | 0 => cases hmem
    | 1 =>
      have hall : ∀ entry ∈ (sampleWorld 1).scheduler.lanes.entries,
          entry.2.inFlightKey = none := by decide
      rw [hall _ hmem] at hkey
      cases hkey
    | 2 =>
      have hall : ∀ entry ∈ (sampleWorld 2).scheduler.lanes.entries,
          entry.1 = "t" ∧ entry.2.inFlightKey = some 0 := by decide
      obtain ⟨rfl, hzero⟩ := hall _ hmem
      rw [hzero] at hkey
      cases hkey
      exact ⟨2, le_rfl, .inl rfl⟩
    | 3 => cases hmem
    | n + 4 =>
      have hidle : (terminalId, lane) ∈ (sampleWorld (n + 4)).scheduler.lanes.entries := hmem
      rw [sampleWorld_idle] at hidle
      cases hidle

/-- The command is counted, dispatched and completed. -/
theorem scheduler_exact_sample :
    SchedulerSound (sampleWorld 2) ∧ ∃ m, [7] <+: forTerminal "t" (sampleWorld m).sent := by
  obtain ⟨hsound, hfair⟩ := scheduler_exact Nat Nat
  refine ⟨hsound _ (sampleExecution.run 2), ?_⟩
  obtain ⟨m, -, hdropped | hsent⟩ := hfair sampleExecution sampleExecution_fair 1 "t"
  · obtain ⟨k, -, -, hdrop | hdrop⟩ := hdropped
    · match k, hdrop with
      | 0, h | 1, h | 2, h | 3, h | _ + 4, h => cases h
    · match k, hdrop with
      | 0, h | 1, h | 2, h | 3, h | _ + 4, h => cases h
  · exact ⟨m, hsent⟩

/-- Nine terminals, of which eight are cancelled while their commands are on
their way. -/
def stall : List (SchedulerAction Nat Nat) :=
  let terminals := ["a", "b", "c", "d", "e", "f", "g", "h"]
  terminals.map (fun terminalId => .enqueue terminalId 1 1 ⟨true, false⟩ 0) ++
    [.enqueue "i" 2 1 ⟨true, false⟩ 0, .microtask] ++ terminals.map .cancel

/-- Nothing is on its way, no pump is scheduled and a command still waits. -/
theorem cancel_stalls :
    ∃ world, (schedulerSystem Nat Nat).Reachable world ∧ world.scheduler.scheduled = false ∧
      world.scheduler.inFlight = 0 ∧ world.scheduler.queued "i" = [2] ∧
      ¬ Conserving world.scheduler := by
  have hrpl : ((schedulerSystem Nat Nat).replay (fun _ _ => true) ⟨.empty, [], [], []⟩
      stall).any (fun world => !world.scheduler.scheduled && world.scheduler.inFlight == 0 &&
        world.scheduler.queued "i" == [2] && world.scheduler.dispatchable) = true := by
    decide
  obtain ⟨world, hworld, hends⟩ := (Option.any_eq_true _ _).mp hrpl
  simp only [Bool.and_eq_true, Bool.not_eq_true', beq_iff_eq] at hends
  obtain ⟨⟨⟨hscheduled, hidle⟩, hqueued⟩, hwaits⟩ := hends
  refine ⟨world, System.replay_run (System.Run.start rfl) (fun _ _ _ _ => trivial) hworld,
    hscheduled, hidle, hqueued, ?_⟩
  rintro (hpump | hfull | hnone)
  · rw [hscheduled] at hpump
    cases hpump
  · rw [hidle] at hfull
    cases hfull
  · rw [hwaits] at hnone
    cases hnone

end Yaade.Workers

import Yaade.Library.IndexMap
import Yaade.Library.Transition

/-!
The scheduler that shares one terminal worker among its terminals: a queue for
each terminal, served in turn by weighted deficits, with at most one command of
a terminal and eight commands in all on their way.
-/

namespace Yaade.Workers

open Yaade.Library List Option IndexMap

structure WorkerPriority where
  visible : Bool
  focused : Bool
  deriving DecidableEq

def weight (priority : WorkerPriority) : Nat :=
  if priority.visible && priority.focused then 8
  else if priority.visible then 4 else 1

def maxBytes : Nat := 32 * 1024 * 1024
def maxCommands : Nat := 8192
def maxInFlight : Nat := 8
def quantumBytes : Nat := 64 * 1024

section

variable (T κ : Type)

structure Pending where
  value : T
  bytes : Nat
  key : κ
  deriving DecidableEq

structure Lane where
  queue : List (Pending T κ)
  priority : WorkerPriority
  deficit : Nat
  inFlightKey : Option κ
  deriving DecidableEq

structure FairWorkerScheduler where
  lanes : IndexMap String (Lane T κ)
  order : List String
  cursor : Nat
  bytes : Nat
  commands : Nat
  inFlight : Nat
  scheduled : Bool

end

variable {T κ : Type}

section

def Lane.waiting (lane : Lane T κ) : Bool := lane.inFlightKey.isNone && !lane.queue.isEmpty

def Lane.bytes (lane : Lane T κ) : Nat := (lane.queue.map Pending.bytes).sum

def Lane.commands (lane : Lane T κ) : Nat := lane.queue.length

def Lane.inFlight (lane : Lane T κ) : Nat := if lane.inFlightKey.isSome then 1 else 0

namespace FairWorkerScheduler

def empty : FairWorkerScheduler T κ := ⟨.empty, [], 0, 0, 0, 0, false⟩

def schedule (scheduler : FairWorkerScheduler T κ) : FairWorkerScheduler T κ :=
  { scheduler with scheduled := true }

def enqueue (scheduler : FairWorkerScheduler T κ) (terminalId : String) (value : T) (bytes : Nat)
    (priority : WorkerPriority) (key : κ) : Except String (FairWorkerScheduler T κ) :=
  let cost := max 1 bytes
  if scheduler.bytes + cost > maxBytes ∨ scheduler.commands + 1 > maxCommands then
    .error "terminal worker scheduler is full"
  else
    let known := scheduler.lanes.get? terminalId
    let lane : Lane T κ := known.getD ⟨[], priority, 0, none⟩
    .ok { scheduler with
      lanes := scheduler.lanes.insert terminalId
        { lane with priority := priority, queue := lane.queue ++ [⟨value, cost, key⟩] }
      order := if known.isSome then scheduler.order else scheduler.order ++ [terminalId]
      bytes := scheduler.bytes + cost
      commands := scheduler.commands + 1
      scheduled := true }

def setPriority (scheduler : FairWorkerScheduler T κ) (terminalId : String)
    (priority : WorkerPriority) : FairWorkerScheduler T κ :=
  { scheduler with
    lanes := scheduler.lanes.modify terminalId fun lane => { lane with priority := priority } }

/-- The lane is gone; the cursor stays where it was, if there still is such a place. -/
def removeLane (scheduler : FairWorkerScheduler T κ) (terminalId : String) :
    FairWorkerScheduler T κ :=
  let order := scheduler.order.filter (· != terminalId)
  { scheduler with
    lanes := scheduler.lanes.shiftRemove terminalId
    order := order
    cursor := scheduler.cursor % max 1 order.length }

def cleanup (scheduler : FairWorkerScheduler T κ) (terminalId : String) (lane : Lane T κ) :
    FairWorkerScheduler T κ :=
  if lane.inFlightKey.isSome ∨ lane.queue ≠ [] then scheduler
  else scheduler.removeLane terminalId

def complete [DecidableEq κ] (scheduler : FairWorkerScheduler T κ) (terminalId : String) (key : κ) :
    FairWorkerScheduler T κ :=
  match scheduler.lanes.get? terminalId with
  | none => scheduler
  | some lane =>
    if lane.inFlightKey ≠ some key then scheduler
    else
      let lane := { lane with inFlightKey := none }
      (({ scheduler with
        lanes := scheduler.lanes.insert terminalId lane
        inFlight := scheduler.inFlight - 1 } : FairWorkerScheduler T κ).cleanup terminalId
          lane).schedule

def cancel (scheduler : FairWorkerScheduler T κ) (terminalId : String) : FairWorkerScheduler T κ :=
  match scheduler.lanes.get? terminalId with
  | none => scheduler
  | some lane =>
    ({ scheduler with
      bytes := scheduler.bytes - lane.bytes
      commands := scheduler.commands - lane.commands
      inFlight := scheduler.inFlight - lane.inFlight } : FairWorkerScheduler T κ).removeLane
        terminalId

def reset (scheduler : FairWorkerScheduler T κ) : FairWorkerScheduler T κ :=
  { empty with scheduled := scheduler.scheduled }

/-- One attempt of the pump: the lane under the cursor, and what is dispatched. -/
def attempt (scheduler : FairWorkerScheduler T κ) :
    FairWorkerScheduler T κ × List (String × T) :=
  let terminalId := (scheduler.order[scheduler.cursor]?).getD ""
  let scheduler := { scheduler with cursor := (scheduler.cursor + 1) % scheduler.order.length }
  if terminalId = "" then (scheduler, [])
  else
    match scheduler.lanes.get? terminalId with
    | none => (scheduler, [])
    | some lane =>
      if lane.inFlightKey.isSome then (scheduler, [])
      else
        match lane.queue with
        | [] => (scheduler, [])
        | pending :: rest =>
          let deficit := lane.deficit + quantumBytes * weight lane.priority
          if pending.bytes > deficit then
            ({ scheduler with
              lanes := scheduler.lanes.insert terminalId { lane with deficit := deficit } }, [])
          else
            ({ scheduler with
              lanes := scheduler.lanes.insert terminalId { lane with
                queue := rest
                deficit := deficit - pending.bytes
                inFlightKey := some pending.key }
              bytes := scheduler.bytes - pending.bytes
              commands := scheduler.commands - 1
              inFlight := scheduler.inFlight + 1 }, [(terminalId, pending.value)])

def attempts : Nat → FairWorkerScheduler T κ → FairWorkerScheduler T κ × List (String × T)
  | 0, scheduler => (scheduler, [])
  | count + 1, scheduler =>
    if scheduler.inFlight < maxInFlight then
      let (scheduler, sent) := scheduler.attempt
      let (scheduler, more) := attempts count scheduler
      (scheduler, sent ++ more)
    else (scheduler, [])

def dispatchable (scheduler : FairWorkerScheduler T κ) : Bool :=
  scheduler.lanes.values.any Lane.waiting

def pump (scheduler : FairWorkerScheduler T κ) : FairWorkerScheduler T κ × List (String × T) :=
  if scheduler.order.length = 0 ∨ scheduler.inFlight ≥ maxInFlight then (scheduler, [])
  else
    let (scheduler, sent) := attempts (scheduler.order.length * 32) scheduler
    (if scheduler.inFlight < maxInFlight ∧ scheduler.dispatchable then scheduler.schedule
      else scheduler, sent)

def runMicrotask (scheduler : FairWorkerScheduler T κ) :
    FairWorkerScheduler T κ × List (String × T) :=
  ({ scheduler with scheduled := false } : FairWorkerScheduler T κ).pump

end FairWorkerScheduler

end

/-! ## Runs -/

section

variable (T κ : Type)

/-- The scheduler, with what was enqueued, dispatched and cancelled so far. -/
structure SchedulerWorld where
  scheduler : FairWorkerScheduler T κ
  accepted : List (String × T)
  sent : List (String × T)
  cancelled : List (String × T)

inductive SchedulerAction where
  | enqueue (terminalId : String) (value : T) (bytes : Nat) (priority : WorkerPriority) (key : κ)
  | setPriority (terminalId : String) (priority : WorkerPriority)
  | complete (terminalId : String) (key : κ)
  | cancel (terminalId : String)
  | reset
  | microtask

end

def FairWorkerScheduler.queued (scheduler : FairWorkerScheduler T κ) (terminalId : String) :
    List T :=
  ((scheduler.lanes.get? terminalId).map fun lane => lane.queue.map Pending.value).getD []

def FairWorkerScheduler.allQueued (scheduler : FairWorkerScheduler T κ) : List (String × T) :=
  (scheduler.lanes.entries.map fun entry =>
    entry.2.queue.map fun pending => (entry.1, pending.value)).flatten

def forTerminal (terminalId : String) (values : List (String × T)) : List T :=
  (values.filter fun value => value.1 = terminalId).map Prod.snd

def schedulerStep [DecidableEq κ] (world : SchedulerWorld T κ) :
    SchedulerAction T κ → Option (SchedulerWorld T κ)
  | .enqueue terminalId value bytes priority key =>
    match world.scheduler.enqueue terminalId value bytes priority key with
    | .error _ => some world
    | .ok scheduler => some { world with
        scheduler := scheduler
        accepted := world.accepted ++ [(terminalId, value)] }
  | .setPriority terminalId priority =>
    some { world with scheduler := world.scheduler.setPriority terminalId priority }
  | .complete terminalId key =>
    some { world with scheduler := world.scheduler.complete terminalId key }
  | .cancel terminalId =>
    some { world with
      scheduler := world.scheduler.cancel terminalId
      cancelled := world.cancelled ++
        (world.scheduler.queued terminalId).map fun value => (terminalId, value) }
  | .reset =>
    some { world with
      scheduler := world.scheduler.reset
      cancelled := world.cancelled ++ world.scheduler.allQueued }
  | .microtask =>
    if world.scheduler.scheduled then
      let (scheduler, sent) := world.scheduler.runMicrotask
      some { world with
        scheduler := scheduler
        sent := world.sent ++ sent }
    else none

def schedulerSystem (T κ : Type) [DecidableEq κ] :
    System (SchedulerWorld T κ) (SchedulerAction T κ) where
  initial world := world = ⟨.empty, [], [], []⟩
  step := schedulerStep

/-! ## Exact counters -/

/-- The counters are the totals over the lanes, and the limits are kept. -/
structure Exact (scheduler : FairWorkerScheduler T κ) : Prop where
  order : scheduler.order = scheduler.lanes.keys
  cursor : scheduler.cursor < max 1 scheduler.order.length
  bytes : scheduler.bytes = scheduler.lanes.total Lane.bytes
  commands : scheduler.commands = scheduler.lanes.total Lane.commands
  inFlight : scheduler.inFlight = scheduler.lanes.total Lane.inFlight
  fewBytes : scheduler.bytes ≤ maxBytes
  fewCommands : scheduler.commands ≤ maxCommands
  slots : scheduler.inFlight ≤ maxInFlight
  busy : ∀ terminalId lane, scheduler.lanes.get? terminalId = some lane →
    lane.queue ≠ [] ∨ lane.inFlightKey.isSome = true

def Conserving (scheduler : FairWorkerScheduler T κ) : Prop :=
  scheduler.scheduled = true ∨ scheduler.inFlight = maxInFlight ∨ scheduler.dispatchable = false

variable {terminalId : String}

section Counters

variable {scheduler : FairWorkerScheduler T κ} {old lane : Lane T κ}

theorem Exact.rescheduled (h : Exact scheduler) (scheduled : Bool) :
    Exact { scheduler with scheduled := scheduled } :=
  { h with }

theorem exact_empty : Exact (FairWorkerScheduler.empty : FairWorkerScheduler T κ) := by
  refine ⟨rfl, Nat.zero_lt_one, rfl, rfl, rfl, Nat.zero_le _, Nat.zero_le _, Nat.zero_le _, ?_⟩
  intro terminalId lane h
  cases h

section

variable (h : Exact scheduler)
include h

theorem Exact.update
    (hold : scheduler.lanes.get? terminalId = some old) {cursor bytes commands inFlight : Nat}
    {scheduled : Bool} (hcursor : cursor < max 1 scheduler.order.length)
    (hbytes : bytes + old.bytes = scheduler.bytes + lane.bytes) (hfew : bytes ≤ maxBytes)
    (hcommands : commands + old.commands = scheduler.commands + lane.commands)
    (hfew' : commands ≤ maxCommands)
    (hinFlight : inFlight + old.inFlight = scheduler.inFlight + lane.inFlight)
    (hslots : inFlight ≤ maxInFlight) (hbusy : lane.queue ≠ [] ∨ lane.inFlightKey.isSome = true) :
    Exact ⟨scheduler.lanes.insert terminalId lane, scheduler.order, cursor, bytes, commands,
      inFlight, scheduled⟩ := by
  have htotal := fun measure => total_insert_old hold measure lane
  refine ⟨h.order.trans (keys_insert_old hold lane).symm, hcursor, ?_, ?_, ?_, hfew, hfew',
    hslots, ?_⟩
  · have hsum := htotal Lane.bytes
    have hexact := h.bytes
    simp only
    omega
  · have hsum := htotal Lane.commands
    have hexact := h.commands
    simp only
    omega
  · have hsum := htotal Lane.inFlight
    have hexact := h.inFlight
    simp only
    omega
  · intro other found hfound
    rw [get?_insert] at hfound
    split at hfound
    · cases hfound
      exact hbusy
    · exact h.busy other found hfound

theorem Exact.removeLane (hold : scheduler.lanes.get? terminalId = some old) :
    Exact (({ scheduler with
      bytes := scheduler.bytes - old.bytes
      commands := scheduler.commands - old.commands
      inFlight := scheduler.inFlight - old.inFlight } : FairWorkerScheduler T κ).removeLane
        terminalId) := by
  have htotal := fun measure => total_shiftRemove hold measure
  unfold FairWorkerScheduler.removeLane
  refine ⟨?_, Nat.mod_lt _ (by simp only; omega), ?_, ?_, ?_, ?_, ?_, ?_, ?_⟩
  · simp only
    rw [keys_shiftRemove, h.order]
  · have hsum := htotal Lane.bytes
    have hexact := h.bytes
    simp only
    omega
  · have hsum := htotal Lane.commands
    have hexact := h.commands
    simp only
    omega
  · have hsum := htotal Lane.inFlight
    have hexact := h.inFlight
    simp only
    omega
  · have hfew := h.fewBytes
    simp only
    omega
  · have hfew := h.fewCommands
    simp only
    omega
  · have hslots := h.slots
    simp only
    omega
  · intro other found hfound
    exact h.busy other found (get?_shiftRemove_eq_some.mp hfound).2

theorem Exact.enqueue {value : T} {bytes : Nat} {priority : WorkerPriority}
    {key : κ} {scheduler' : FairWorkerScheduler T κ}
    (henq : scheduler.enqueue terminalId value bytes priority key = .ok scheduler') :
    Exact scheduler' := by
  unfold FairWorkerScheduler.enqueue at henq
  simp only at henq
  split at henq
  · cases henq
  rename_i hfits
  push Not at hfits
  cases henq
  have hcursor := h.cursor
  cases hknown : scheduler.lanes.get? terminalId with
  | some old =>
    simp only [getD_some, isSome_some, if_true]
    refine Exact.update h hknown hcursor ?_ (by omega) ?_ (by omega) ?_ h.slots (.inl (by simp))
    · simp [Lane.bytes]
      omega
    · simp [Lane.commands]
      omega
    · rfl
  | none =>
    simp only [getD_none, isSome_none, Bool.false_eq_true, if_false, nil_append]
    obtain ⟨fresh, hfresh⟩ :
        ∃ fresh : Lane T κ, fresh = ⟨[⟨value, max 1 bytes, key⟩], priority, 0, none⟩ := ⟨_, rfl⟩
    have htotal := fun measure => total_insert_new hknown measure fresh
    have hcost : fresh.bytes = max 1 bytes := by simp [hfresh, Lane.bytes]
    have hone : fresh.commands = 1 := by rw [hfresh]; rfl
    have hnone : fresh.inFlight = 0 := by rw [hfresh]; rfl
    rw [← hfresh]
    refine ⟨?_, ?_, ?_, ?_, ?_, ?_, ?_, h.slots, ?_⟩
    · exact (congrArg (· ++ [terminalId]) h.order).trans (keys_insert_new hknown _).symm
    · simp only [length_append, length_singleton]
      omega
    · have hsum := htotal Lane.bytes
      have hexact := h.bytes
      simp only
      omega
    · have hsum := htotal Lane.commands
      have hexact := h.commands
      simp only
      omega
    · have hsum := htotal Lane.inFlight
      have hexact := h.inFlight
      simp only
      omega
    · simp only
      omega
    · simp only
      omega
    · intro other found hfound
      simp only [get?_insert] at hfound
      split at hfound
      · cases hfound
        exact .inl (by rw [hfresh]; exact cons_ne_nil _ _)
      · exact h.busy other found hfound

theorem Exact.setPriority (priority : WorkerPriority) :
    Exact (scheduler.setPriority terminalId priority) := by
  cases hknown : scheduler.lanes.get? terminalId with
  | none =>
    have hsame : scheduler.setPriority terminalId priority = scheduler := by
      unfold FairWorkerScheduler.setPriority
      rw [modify_absent hknown]
    rw [hsame]
    exact h
  | some lane =>
    have hmodify := modify_eq_insert hknown fun lane : Lane T κ =>
      { lane with priority := priority }
    unfold FairWorkerScheduler.setPriority
    rw [hmodify]
    exact h.update hknown h.cursor rfl h.fewBytes rfl h.fewCommands rfl h.slots
      (h.busy terminalId lane hknown)

theorem Exact.complete [DecidableEq κ] (key : κ) : Exact (scheduler.complete terminalId key) := by
  unfold FairWorkerScheduler.complete
  split
  · exact h
  rename_i lane hlane
  split
  · exact h
  rename_i hkey
  rw [not_not] at hkey
  have hin : lane.inFlight = 1 := by simp [Lane.inFlight, hkey]
  have hone := IndexMap.le_total hlane Lane.inFlight
  have hexact := h.inFlight
  have hslots := h.slots
  unfold FairWorkerScheduler.cleanup
  simp only [isSome_none, Bool.false_eq_true, false_or]
  refine Exact.rescheduled ?_ true
  by_cases hqueue : lane.queue = []
  · have hgone := h.removeLane hlane
    have hbytes : lane.bytes = 0 := by simp [Lane.bytes, hqueue]
    have hcommands : lane.commands = 0 := by simp [Lane.commands, hqueue]
    rw [hbytes, hcommands, hin] at hgone
    rw [if_neg (not_not_intro hqueue)]
    unfold FairWorkerScheduler.removeLane at hgone ⊢
    simp only at hgone ⊢
    rw [shiftRemove_insert hlane]
    exact hgone
  · rw [if_pos hqueue]
    refine h.update hlane h.cursor rfl h.fewBytes rfl h.fewCommands ?_ (by omega) (.inl hqueue)
    have hnone : ({ lane with inFlightKey := none } : Lane T κ).inFlight = 0 := rfl
    omega

theorem Exact.cancel (id : String) : Exact (scheduler.cancel id) := by
  unfold FairWorkerScheduler.cancel
  split
  · exact h
  · rename_i lane hlane
    exact h.removeLane hlane

end

/-- The lane under the cursor, if it waits. -/
theorem attempt_cases (scheduler : FairWorkerScheduler T κ) : (∃ lane pending rest id,
        scheduler.order[scheduler.cursor]? = some id ∧ id ≠ "" ∧
        scheduler.lanes.get? id = some lane ∧ lane.inFlightKey = none ∧
        lane.queue = pending :: rest ∧
        scheduler.attempt =
          if pending.bytes > lane.deficit + quantumBytes * weight lane.priority then
            ({ scheduler with
              cursor := (scheduler.cursor + 1) % scheduler.order.length
              lanes := scheduler.lanes.insert id { lane with
                deficit := lane.deficit + quantumBytes * weight lane.priority } }, [])
          else
            ({ scheduler with
              cursor := (scheduler.cursor + 1) % scheduler.order.length
              lanes := scheduler.lanes.insert id { lane with
                queue := rest
                deficit := lane.deficit + quantumBytes * weight lane.priority - pending.bytes
                inFlightKey := some pending.key }
              bytes := scheduler.bytes - pending.bytes
              commands := scheduler.commands - 1
              inFlight := scheduler.inFlight + 1 }, [(id, pending.value)])) ∨
      scheduler.attempt =
          ({ scheduler with cursor := (scheduler.cursor + 1) % scheduler.order.length }, []) ∧
        ∀ id lane, scheduler.order[scheduler.cursor]? = some id →
          id ≠ "" → scheduler.lanes.get? id = some lane →
          lane.waiting = false := by
  unfold FairWorkerScheduler.attempt
  simp only
  cases hplace : scheduler.order[scheduler.cursor]? with
  | none => exact .inr ⟨rfl, fun _ _ h => by cases h⟩
  | some id =>
    simp only [getD_some, Option.some.injEq]
    by_cases hempty : id = ""
    · right
      rw [if_pos hempty]
      refine ⟨rfl, ?_⟩
      rintro other lane rfl hother
      exact absurd hempty hother
    · rw [if_neg hempty]
      cases hlane : scheduler.lanes.get? id with
      | none =>
        right
        refine ⟨rfl, ?_⟩
        rintro other lane rfl - hfound
        rw [hlane] at hfound
        cases hfound
      | some lane =>
        simp only
        cases hkey : lane.inFlightKey with
        | some key =>
          right
          refine ⟨rfl, ?_⟩
          rintro other found rfl - hfound
          rw [hlane] at hfound
          cases hfound
          simp [Lane.waiting, hkey]
        | none =>
          simp only [isSome_none, Bool.false_eq_true, if_false]
          cases hqueue : lane.queue with
          | nil =>
            right
            refine ⟨rfl, ?_⟩
            rintro other found rfl - hfound
            rw [hlane] at hfound
            cases hfound
            simp [Lane.waiting, hqueue]
          | cons pending rest =>
            refine .inl ⟨lane, pending, rest, id, rfl, hempty, hlane, hkey, hqueue, ?_⟩
            rw [hqueue, hkey]

theorem queued_update {lanes : IndexMap String (Lane T κ)} {order : List String}
    {cursor bytes commands inFlight : Nat} {scheduled : Bool} (other : String) :
    FairWorkerScheduler.queued ⟨lanes.insert terminalId lane, order, cursor, bytes, commands,
        inFlight, scheduled⟩ other =
      if other = terminalId then lane.queue.map Pending.value
      else ((lanes.get? other).map fun lane => lane.queue.map Pending.value).getD [] := by
  unfold FairWorkerScheduler.queued
  rw [get?_insert]
  split <;> rfl

def Dispatches (scheduler : FairWorkerScheduler T κ)
    (result : FairWorkerScheduler T κ × List (String × T)) : Prop :=
  ∀ terminalId, scheduler.queued terminalId =
    forTerminal terminalId result.2 ++ result.1.queued terminalId

theorem attempt_order (scheduler : FairWorkerScheduler T κ) :
    scheduler.attempt.1.order = scheduler.order := by
  rcases attempt_cases scheduler with ⟨_, _, _, _, -, -, -, -, -, hattempt⟩ | ⟨hattempt, -⟩
  · rw [hattempt]
    split <;> rfl
  · rw [hattempt]

theorem attempt_exact (h : Exact scheduler) (hfree : scheduler.inFlight < maxInFlight)
    (hsome : 0 < scheduler.order.length) :
    Exact scheduler.attempt.1 ∧ Dispatches scheduler scheduler.attempt := by
  have hcursor : (scheduler.cursor + 1) % scheduler.order.length < max 1 scheduler.order.length := by
    have hmod := Nat.mod_lt (scheduler.cursor + 1) hsome
    omega
  rcases attempt_cases scheduler with
    ⟨lane, pending, rest, terminalId, -, -, hlane, hkey, hqueue, hattempt⟩ | ⟨hattempt, -⟩
  · have hbytes : lane.bytes = pending.bytes + (rest.map Pending.bytes).sum := by
      simp [Lane.bytes, hqueue]
    have hcommands : lane.commands = rest.length + 1 := by simp [Lane.commands, hqueue]
    have hnone : lane.inFlight = 0 := by simp [Lane.inFlight, hkey]
    have hmore := IndexMap.le_total hlane Lane.bytes
    have hmore' := IndexMap.le_total hlane Lane.commands
    have hexact := h.bytes
    have hexact' := h.commands
    have hfew := h.fewBytes
    have hfew' := h.fewCommands
    rw [hattempt]
    split
    · refine ⟨h.update hlane hcursor rfl hfew rfl hfew' rfl h.slots (h.busy terminalId lane hlane),
        ?_⟩
      intro other
      rw [queued_update]
      split
      · rename_i hother
        subst hother
        simp [FairWorkerScheduler.queued, hlane, forTerminal]
      · rfl
    · constructor
      · refine h.update hlane hcursor ?_ (by omega) ?_ (by omega) ?_ (by omega) (.inr rfl)
        · have hless : ({ lane with
            queue := rest
            deficit := lane.deficit + quantumBytes * weight lane.priority - pending.bytes
            inFlightKey := some pending.key } : Lane T κ).bytes = (rest.map Pending.bytes).sum := rfl
          omega
        · have hless : ({ lane with
            queue := rest
            deficit := lane.deficit + quantumBytes * weight lane.priority - pending.bytes
            inFlightKey := some pending.key } : Lane T κ).commands = rest.length := rfl
          omega
        · have hmore : ({ lane with
            queue := rest
            deficit := lane.deficit + quantumBytes * weight lane.priority - pending.bytes
            inFlightKey := some pending.key } : Lane T κ).inFlight = 1 := rfl
          omega
      · intro other
        rw [queued_update]
        split
        · rename_i hother
          subst hother
          simp [FairWorkerScheduler.queued, hlane, forTerminal, hqueue]
        · rename_i hother
          simp [FairWorkerScheduler.queued, forTerminal, Ne.symm hother]
  · rw [hattempt]
    refine ⟨{ h with cursor := hcursor }, fun _ => rfl⟩

theorem forTerminal_append (id : String) (first more : List (String × T)) :
    forTerminal id (first ++ more) =
      forTerminal id first ++ forTerminal id more := by
  unfold forTerminal
  rw [filter_append, map_append]

theorem attempts_exact (count : Nat) (h : Exact scheduler) (hsome : 0 < scheduler.order.length) :
    Exact (FairWorkerScheduler.attempts count scheduler).1 ∧
      Dispatches scheduler (FairWorkerScheduler.attempts count scheduler) := by
  induction count generalizing scheduler with
  | zero => exact ⟨h, fun _ => rfl⟩
  | succ count ih =>
    unfold FairWorkerScheduler.attempts
    split
    · rename_i hfree
      obtain ⟨hexact, hsent⟩ := attempt_exact h hfree hsome
      obtain ⟨hexact', hsent'⟩ := ih hexact (by rw [attempt_order]; exact hsome)
      refine ⟨hexact', fun terminalId => ?_⟩
      simp only
      rw [hsent terminalId, hsent' terminalId, forTerminal_append, append_assoc]
    · exact ⟨h, fun _ => rfl⟩

theorem pump_exact (h : Exact scheduler) :
    Exact scheduler.pump.1 ∧ Dispatches scheduler scheduler.pump := by
  unfold FairWorkerScheduler.pump
  split
  · exact ⟨h, fun _ => rfl⟩
  rename_i hready
  push Not at hready
  obtain ⟨hexact, hsent⟩ :=
    attempts_exact (scheduler.order.length * 32) h (Nat.pos_of_ne_zero hready.1)
  generalize FairWorkerScheduler.attempts (scheduler.order.length * 32) scheduler = result at *
  obtain ⟨after, sent⟩ := result
  simp only at hexact ⊢
  split
  · exact ⟨hexact.rescheduled true, hsent⟩
  · exact ⟨hexact, hsent⟩

theorem dispatchable_eq_false : scheduler.dispatchable = false ↔
    ∀ id lane, scheduler.lanes.get? id = some lane → lane.waiting = false := by
  unfold FairWorkerScheduler.dispatchable
  rw [List.any_eq_false]
  constructor
  · intro h id lane hlane
    simpa using h lane (mem_values.mpr ⟨id, hlane⟩)
  · intro h lane hmem
    obtain ⟨id, hlane⟩ := mem_values.mp hmem
    simp [h id lane hlane]

theorem Exact.no_lanes (h : Exact scheduler) (hnone : scheduler.order.length = 0) :
    scheduler.dispatchable = false := by
  rw [dispatchable_eq_false]
  intro terminalId lane hlane
  have hmem := mem_keys.mpr ⟨lane, hlane⟩
  rw [← h.order, length_eq_zero_iff.mp hnone] at hmem
  cases hmem

theorem pump_conserving (h : Exact scheduler) : Conserving scheduler.pump.1 := by
  have hexact := (pump_exact h).1
  unfold FairWorkerScheduler.pump at hexact ⊢
  split
  · rename_i hidle
    rcases hidle with hnone | hfull
    · exact .inr (.inr (h.no_lanes hnone))
    · exact .inr (.inl (Nat.le_antisymm h.slots hfull))
  rename_i hready
  rw [if_neg hready] at hexact
  generalize FairWorkerScheduler.attempts (scheduler.order.length * 32) scheduler = result at *
  obtain ⟨after, sent⟩ := result
  simp only at hexact ⊢
  split
  · exact .inl rfl
  rename_i hdone
  rw [if_neg hdone] at hexact
  have hslots := hexact.slots
  by_cases hfree : after.inFlight < maxInFlight
  · right
    right
    cases hwaits : after.dispatchable with
    | false => rfl
    | true => exact absurd ⟨hfree, hwaits⟩ hdone
  · exact .inr (.inl (by omega))

end Counters

/-! ## What every run keeps -/

/-- Terminals have names, and a cancelled command does not free a slot that
another lane waits for, unless the pump will run. -/
def Resumes (world : SchedulerWorld T κ) (action : SchedulerAction T κ) : Prop :=
  match action with
  | .enqueue terminalId _ _ _ _ => terminalId ≠ ""
  | .cancel terminalId => ∀ lane, world.scheduler.lanes.get? terminalId = some lane →
      lane.inFlightKey.isSome = true → world.scheduler.scheduled = true ∨
        ∀ other lane', other ≠ terminalId → world.scheduler.lanes.get? other = some lane' →
          lane'.waiting = false
  | _ => True

/-- The commands of a terminal are dispatched in the order in which they were
enqueued, and each of them is dispatched, waits or is cancelled. -/
structure SchedulerSound (world : SchedulerWorld T κ) : Prop where
  exact : Exact world.scheduler
  conserving : Conserving world.scheduler
  inOrder : ∀ terminalId, (forTerminal terminalId world.sent ++
    world.scheduler.queued terminalId).Sublist (forTerminal terminalId world.accepted)
  nothingLost : ∀ terminalId, (forTerminal terminalId world.accepted).Perm
    (forTerminal terminalId world.sent ++ world.scheduler.queued terminalId ++
      forTerminal terminalId world.cancelled)

section Queues

variable {scheduler : FairWorkerScheduler T κ}

theorem forTerminal_tagged (id other : String) (values : List T) :
    forTerminal other (values.map fun value => (id, value)) =
      if other = id then values else [] := by
  induction values with
  | nil => simp [forTerminal]
  | cons value rest ih =>
    have hcons : forTerminal other ((id, value) :: rest.map fun value =>
        (id, value)) = forTerminal other [(id, value)] ++
          forTerminal other (rest.map fun value => (id, value)) :=
      forTerminal_append other [(id, value)] _
    rw [map_cons, hcons, ih]
    by_cases hother : other = id
    · simp [forTerminal, hother]
    · simp [forTerminal, hother, Ne.symm hother]

theorem forTerminal_allQueued (scheduler : FairWorkerScheduler T κ) (terminalId : String) :
    forTerminal terminalId scheduler.allQueued = scheduler.queued terminalId := by
  unfold FairWorkerScheduler.allQueued FairWorkerScheduler.queued IndexMap.get?
  have hnodup := scheduler.lanes.nodup
  generalize scheduler.lanes.entries = entries at *
  induction entries with
  | nil => rfl
  | cons entry rest ih =>
    obtain ⟨key, lane⟩ := entry
    rw [map_cons, nodup_cons] at hnodup
    rw [map_cons, flatten_cons, forTerminal_append, ih hnodup.2]
    have htagged := forTerminal_tagged key terminalId (lane.queue.map Pending.value)
    rw [List.map_map] at htagged
    simp only [Function.comp_def] at htagged
    have hlookup : row? Prod.fst terminalId ((key, lane) :: rest) =
        if key = terminalId then some (key, lane) else row? Prod.fst terminalId rest := rfl
    rw [htagged, hlookup]
    by_cases hkey : key = terminalId
    · subst hkey
      have habsent : row? Prod.fst key rest = none :=
        (row?_eq_none Prod.fst).mpr fun other hmem heq =>
          hnodup.1 (List.mem_map.mpr ⟨other, hmem, heq⟩)
      simp [habsent]
    · simp [hkey, Ne.symm hkey]

theorem queued_enqueue {scheduler' : FairWorkerScheduler T κ} {value : T} {bytes : Nat}
    {priority : WorkerPriority} {key : κ}
    (henq : scheduler.enqueue terminalId value bytes priority key = .ok scheduler')
    (other : String) : scheduler'.queued other =
      scheduler.queued other ++ forTerminal other [(terminalId, value)] := by
  unfold FairWorkerScheduler.enqueue at henq
  simp only at henq
  split at henq
  · cases henq
  cases henq
  rw [queued_update]
  by_cases hother : other = terminalId
  · subst hother
    cases hknown : scheduler.lanes.get? other with
    | none | some => simp [FairWorkerScheduler.queued, hknown, forTerminal]
  · simp [FairWorkerScheduler.queued, hother, forTerminal, Ne.symm hother]

theorem queued_setPriority (priority : WorkerPriority) (other : String) :
    (scheduler.setPriority terminalId priority).queued other = scheduler.queued other := by
  unfold FairWorkerScheduler.setPriority FairWorkerScheduler.queued
  rw [get?_modify]
  split
  · cases scheduler.lanes.get? other <;> rfl
  · rfl

theorem queued_removeLane (other : String) : (scheduler.removeLane terminalId).queued other =
      if other = terminalId then [] else scheduler.queued other := by
  unfold FairWorkerScheduler.removeLane FairWorkerScheduler.queued
  rw [get?_shiftRemove]
  split <;> rfl

theorem queued_complete [DecidableEq κ] (key : κ) (other : String) :
    (scheduler.complete terminalId key).queued other = scheduler.queued other := by
  unfold FairWorkerScheduler.complete
  split
  · rfl
  rename_i lane hlane
  split
  · rfl
  have hsame : ∀ scheduler' : FairWorkerScheduler T κ,
      scheduler'.schedule.queued other = scheduler'.queued other := fun _ => rfl
  rw [hsame]
  unfold FairWorkerScheduler.cleanup
  split
  · rw [queued_update]
    split
    · rename_i hother
      subst hother
      simp [FairWorkerScheduler.queued, hlane]
    · rfl
  · rename_i hidle
    push Not at hidle
    rw [queued_removeLane, queued_update]
    split
    · rename_i hother
      subst hother
      have hempty : lane.queue = [] := hidle.2
      simp [FairWorkerScheduler.queued, hlane, hempty]
    · rfl

theorem queued_cancel (other : String) : (scheduler.cancel terminalId).queued other =
      if other = terminalId then [] else scheduler.queued other := by
  unfold FairWorkerScheduler.cancel
  split
  · rename_i habsent
    split
    · rename_i hother
      subst hother
      simp [FairWorkerScheduler.queued, habsent]
    · rfl
  · rw [queued_removeLane]
    rfl

end Queues

section Step

variable {world world' : SchedulerWorld T κ} {action : SchedulerAction T κ}
  {scheduler : FairWorkerScheduler T κ} {id : String}

theorem Conserving.setPriority (h : Conserving scheduler) (priority : WorkerPriority) :
    Conserving (scheduler.setPriority id priority) := by
  rcases h with hscheduled | hfull | hnone
  · exact .inl hscheduled
  · exact .inr (.inl hfull)
  right
  right
  rw [dispatchable_eq_false] at hnone ⊢
  intro other lane hlane
  unfold FairWorkerScheduler.setPriority at hlane
  rw [get?_modify] at hlane
  split at hlane
  · obtain ⟨old, hold, rfl⟩ := map_eq_some_iff.mp hlane
    exact hnone other old hold
  · exact hnone other lane hlane

theorem Conserving.complete [DecidableEq κ] (h : Conserving scheduler) (key : κ) :
    Conserving (scheduler.complete id key) := by
  unfold FairWorkerScheduler.complete
  split
  · exact h
  split
  · exact h
  · exact .inl rfl

theorem Conserving.cancel (h : Conserving scheduler)
    (hresumes : ∀ lane, scheduler.lanes.get? id = some lane →
      lane.inFlightKey.isSome = true → scheduler.scheduled = true ∨
        ∀ other lane', other ≠ id → scheduler.lanes.get? other = some lane' →
          lane'.waiting = false) : Conserving (scheduler.cancel id) := by
  unfold FairWorkerScheduler.cancel
  split
  · exact h
  rename_i lane hlane
  have hothers : (∀ other lane', other ≠ id →
      scheduler.lanes.get? other = some lane' → lane'.waiting = false) →
      (({ scheduler with
        bytes := scheduler.bytes - lane.bytes
        commands := scheduler.commands - lane.commands
        inFlight := scheduler.inFlight - lane.inFlight } : FairWorkerScheduler T κ).removeLane
          id).dispatchable = false := by
    intro hidle
    rw [dispatchable_eq_false]
    intro other lane' hfound
    unfold FairWorkerScheduler.removeLane at hfound
    obtain ⟨hother, hfound⟩ := get?_shiftRemove_eq_some.mp hfound
    exact hidle other lane' hother hfound
  rcases h with hscheduled | hfull | hnone
  · exact .inl hscheduled
  · cases hkey : lane.inFlightKey with
    | none =>
      right
      left
      have hzero : lane.inFlight = 0 := by simp [Lane.inFlight, hkey]
      unfold FairWorkerScheduler.removeLane
      simp only
      omega
    | some key =>
      rcases hresumes lane hlane (by rw [hkey]; rfl) with hscheduled | hidle
      · exact .inl hscheduled
      · exact .inr (.inr (hothers hidle))
  · right
    right
    apply hothers
    intro other lane' _ hfound
    exact (dispatchable_eq_false.mp hnone) other lane' hfound

variable [DecidableEq κ]

theorem scheduler_step (h : SchedulerSound world) (hresumes : Resumes world action)
    (hstep : (schedulerSystem T κ).step world action = some world') : SchedulerSound world' := by
  cases action with
  | enqueue id value bytes priority key =>
    simp only [schedulerSystem, schedulerStep] at hstep
    split at hstep
    · cases hstep
      exact h
    rename_i scheduler henq
    cases hstep
    refine ⟨h.exact.enqueue henq, .inl ?_, ?_, ?_⟩
    · unfold FairWorkerScheduler.enqueue at henq
      simp only at henq
      split at henq
      · cases henq
      · cases henq
        rfl
    · intro other
      simp only
      rw [queued_enqueue henq, forTerminal_append, ← append_assoc]
      exact (h.inOrder other).append (.refl _)
    · intro other
      simp only
      rw [queued_enqueue henq, forTerminal_append]
      have hlost := (h.nothingLost other).append_right (forTerminal other [(id, value)])
      refine hlost.trans ?_
      simp only [append_assoc]
      exact List.Perm.append_left _ (List.Perm.append_left _ perm_append_comm)
  | setPriority id priority =>
    cases hstep
    refine ⟨h.exact.setPriority priority, h.conserving.setPriority priority, ?_, ?_⟩
    · intro other
      simp only
      rw [queued_setPriority]
      exact h.inOrder other
    · intro other
      simp only
      rw [queued_setPriority]
      exact h.nothingLost other
  | complete id key =>
    cases hstep
    refine ⟨h.exact.complete key, h.conserving.complete key, ?_, ?_⟩
    · intro other
      simp only
      rw [queued_complete]
      exact h.inOrder other
    · intro other
      simp only
      rw [queued_complete]
      exact h.nothingLost other
  | cancel id =>
    cases hstep
    refine ⟨h.exact.cancel id, h.conserving.cancel hresumes, ?_, ?_⟩
    · intro other
      simp only
      rw [queued_cancel]
      refine List.Sublist.trans ?_ (h.inOrder other)
      refine List.Sublist.append (.refl _) ?_
      split
      · exact nil_sublist _
      · exact .refl _
    · intro other
      simp only
      rw [queued_cancel, forTerminal_append, forTerminal_tagged]
      refine (h.nothingLost other).trans ?_
      split
      · rename_i hother
        subst hother
        simp only [append_nil, append_assoc]
        exact List.Perm.append_left _ perm_append_comm
      · rw [append_nil]
  | reset =>
    cases hstep
    refine ⟨exact_empty.rescheduled _, .inr (.inr rfl), ?_, ?_⟩
    · intro other
      exact List.Sublist.trans (List.Sublist.append (.refl _) (nil_sublist _)) (h.inOrder other)
    · intro other
      simp only
      rw [forTerminal_append, forTerminal_allQueued]
      refine (h.nothingLost other).trans ?_
      have hnone : (world.scheduler.reset).queued other = [] := rfl
      rw [hnone, append_nil, append_assoc]
      exact List.Perm.append_left _ perm_append_comm
  | microtask =>
    obtain ⟨-, hstep⟩ := ite_none_right_eq_some.mp hstep
    obtain ⟨hexact, hsent⟩ := pump_exact (h.exact.rescheduled false)
    have hconserving := pump_conserving (h.exact.rescheduled false)
    cases hstep
    have hqueued : ∀ other, world.scheduler.queued other =
        forTerminal other world.scheduler.runMicrotask.2 ++
          (world.scheduler.runMicrotask.1).queued other := fun other => hsent other
    refine ⟨hexact, hconserving, ?_, ?_⟩
    · intro other
      have horder := h.inOrder other
      rw [hqueued, ← append_assoc, ← forTerminal_append] at horder
      exact horder
    · intro other
      have hlost := h.nothingLost other
      rw [hqueued, ← append_assoc, ← forTerminal_append] at hlost
      exact hlost

theorem scheduler_sound (hrun : (schedulerSystem T κ).Run Resumes world) :
    SchedulerSound world := by
  apply hrun.invariant
  · rintro start rfl
    exact ⟨exact_empty, .inr (.inr rfl), fun _ => .refl _, fun _ => List.Perm.refl _⟩
  · exact fun _ _ _ h hresumes hstep => scheduler_step h hresumes hstep

end Step

end Yaade.Workers

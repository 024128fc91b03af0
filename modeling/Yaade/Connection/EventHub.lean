import Yaade.Connection.Mailbox
import Yaade.Runtime.Effects

/-!
The event hub: one sequence for all output of the host, a bounded ring of the
events a reconnect can replay, and a broadcast channel that subscribers drain.
-/

namespace Yaade.Connection

open Yaade.Library Yaade.Runtime List

structure ServerIdentity where
  serverId : String
  serverEpoch : String
  deriving DecidableEq

/-- The arguments of the events the host emits. -/
inductive EventArg where
  | mux (event : MuxEvent)
  | text (value : String)
  | number (value : Int)
  deriving DecidableEq

def EventArg.asStr? : EventArg → Option String
  | .text value => some value
  | _ => none

structure HostEvent where
  protocolVersion : Nat
  serverId : Option String
  serverEpoch : Option String
  sequence : Nat
  channel : String
  args : List EventArg
  deriving DecidableEq

def HostEvent.modern (identity : ServerIdentity) (sequence : Nat) (channel : String)
    (args : List EventArg) : HostEvent :=
  ⟨2, some identity.serverId, some identity.serverEpoch, sequence, channel, args⟩

def HostEvent.legacy (event : HostEvent) : HostEvent :=
  { event with protocolVersion := 1, serverId := none, serverEpoch := none }

def isEphemeral (channel : String) : Bool :=
  channel == "terminal:semantic" || channel == "security:device-revoked"

def HostEvent.lasting (event : HostEvent) : Bool := !isEphemeral event.channel

structure RetainedEvent where
  event : HostEvent
  bytes : Nat
  deriving DecidableEq

structure EventHub where
  identity : ServerIdentity
  capacity : Nat
  maxHistoryBytes : Nat
  sequence : Nat
  history : List RetainedEvent
  historyBytes : Nat
  historyDroppedThrough : Nat
  deriving DecidableEq

structure ReplayWindow where
  events : List HostEvent
  replayFloor : Nat
  lastSequence : Nat
  historyEvicted : Bool

/-- The receiving end of the broadcast channel. A receiver that is more than a
channel behind loses the oldest messages and learns of it at its next turn. -/
structure Receiver where
  capacity : Nat
  pending : List HostEvent
  lagged : Bool
  deriving DecidableEq

inductive Received where
  | event (event : HostEvent)
  | lagged
  deriving DecidableEq

namespace Receiver

def send (receiver : Receiver) (event : HostEvent) : Receiver :=
  if receiver.pending.length < receiver.capacity then
    { receiver with pending := receiver.pending ++ [event] }
  else { receiver with pending := (receiver.pending ++ [event]).tail, lagged := true }

def recv (receiver : Receiver) : Option (Received × Receiver) :=
  if receiver.lagged then some (.lagged, { receiver with lagged := false })
  else match receiver.pending with
    | [] => none
    | event :: rest => some (.event event, { receiver with pending := rest })

end Receiver

namespace EventHub

def withLimits (identity : ServerIdentity) (capacity maxHistoryBytes : Nat) : EventHub where
  identity := identity
  capacity := capacity
  maxHistoryBytes := maxHistoryBytes
  sequence := 0
  history := []
  historyBytes := 0
  historyDroppedThrough := 0

def evict (capacity maxHistoryBytes : Nat) :
    List RetainedEvent → Nat → Nat → List RetainedEvent × Nat × Nat
  | [], bytes, droppedThrough => ([], bytes, droppedThrough)
  | oldest :: rest, bytes, droppedThrough =>
    if (oldest :: rest).length > capacity || bytes > maxHistoryBytes then
      evict capacity maxHistoryBytes rest (bytes - oldest.bytes)
        (max droppedThrough oldest.event.sequence)
    else (oldest :: rest, bytes, droppedThrough)

/-- `lengths` gives the bytes an argument counts for: the length of a string,
or of the JSON of another value. -/
def estimateEventBytes (lengths : EventArg → Nat) (event : HostEvent) : Nat :=
  64 + event.channel.utf8ByteSize + (event.args.map lengths).sum

def retain (hub : EventHub) (event : HostEvent) (bytes : Nat) : EventHub :=
  let (history, historyBytes, droppedThrough) :=
    evict hub.capacity hub.maxHistoryBytes (hub.history ++ [⟨event, bytes⟩])
      (hub.historyBytes + bytes) hub.historyDroppedThrough
  { hub with
    history := history
    historyBytes := historyBytes
    historyDroppedThrough := droppedThrough }

def nextEvent (hub : EventHub) (channel : String) (args : List EventArg) : HostEvent :=
  .modern hub.identity (hub.sequence + 1) channel args

/-- The event is broadcast by the caller of this function: the hub itself has
the ring and the sequence only. -/
def emit (lengths : EventArg → Nat) (hub : EventHub) (channel : String)
    (args : List EventArg) : HostEvent × EventHub :=
  let event := hub.nextEvent channel args
  let hub := { hub with sequence := hub.sequence + 1 }
  (event,
    if isEphemeral channel then hub
    else hub.retain event (estimateEventBytes lengths event))

def emitTerminal (hub : EventHub) : Nat × EventHub :=
  (hub.sequence + 1, { hub with sequence := hub.sequence + 1 })

def lastSequence (hub : EventHub) : Nat := hub.sequence

def replayWindow (hub : EventHub) (since : Nat) : ReplayWindow :=
  let oldest := hub.history.head?.map fun retained => retained.event.sequence
  { events := (hub.history.filter fun retained => retained.event.sequence > since).map
      RetainedEvent.event
    replayFloor := oldest.getD (hub.sequence + 1)
    lastSequence := hub.sequence
    historyEvicted := since > 0 &&
      match oldest with
      | none => hub.historyDroppedThrough > since
      | some oldest => since < oldest - 1 }

/-! ## What the ring retains -/

/-- Against the list of all events emitted so far: they are in order, and the
ring holds the lasting ones but for a first part that `historyDroppedThrough`
bounds. -/
structure Retains (hub : EventHub) (emitted : List HostEvent) : Prop where
  ordered : emitted.Pairwise fun a b => a.sequence < b.sequence
  within : ∀ event ∈ emitted, event.sequence ≤ hub.sequence
  retained : ∃ dropped, emitted.filter HostEvent.lasting =
    dropped ++ hub.history.map RetainedEvent.event ∧
    ∀ event ∈ dropped, event.sequence ≤ hub.historyDroppedThrough

theorem evict_suffix (capacity maxHistoryBytes : Nat) (history : List RetainedEvent)
    (bytes droppedThrough : Nat) :
    let result := evict capacity maxHistoryBytes history bytes droppedThrough
    droppedThrough ≤ result.2.2 ∧ ∃ dropped, history = dropped ++ result.1 ∧
      ∀ retained ∈ dropped, retained.event.sequence ≤ result.2.2 := by
  induction history generalizing bytes droppedThrough with
  | nil => exact ⟨le_rfl, [], rfl, by simp⟩
  | cons oldest rest ih =>
    unfold evict
    split
    · obtain ⟨hle, dropped, hsplit, hdropped⟩ :=
        ih (bytes - oldest.bytes) (max droppedThrough oldest.event.sequence)
      refine ⟨(le_max_left _ _).trans hle, oldest :: dropped, ?_, ?_⟩
      · rw [cons_append]
        exact congrArg (oldest :: ·) hsplit
      · intro retained hmem
        rcases mem_cons.mp hmem with rfl | hrest
        · exact (le_max_right _ _).trans hle
        · exact hdropped retained hrest
    · exact ⟨le_rfl, [], rfl, by simp⟩

theorem withLimits_retains (identity : ServerIdentity) (capacity maxHistoryBytes : Nat) :
    (withLimits identity capacity maxHistoryBytes).Retains [] where
  ordered := List.Pairwise.nil
  within := by simp
  retained := ⟨[], rfl, by simp⟩

@[simp] theorem emit_sequence (lengths : EventArg → Nat) (hub : EventHub) (channel : String)
    (args : List EventArg) : (hub.emit lengths channel args).2.sequence = hub.sequence + 1 := by
  unfold emit
  simp only
  split <;> rfl

theorem emit_event (lengths : EventArg → Nat) (hub : EventHub) (channel : String)
    (args : List EventArg) : (hub.emit lengths channel args).1 = hub.nextEvent channel args := rfl

variable {hub : EventHub} {emitted : List HostEvent}

section

variable (h : hub.Retains emitted)
include h

theorem Retains.emitTerminal : hub.emitTerminal.2.Retains emitted where
  ordered := h.ordered
  within event hev := (h.within event hev).trans (Nat.le_succ _)
  retained := h.retained

theorem Retains.emit (lengths : EventArg → Nat) (channel : String) (args : List EventArg) :
    (hub.emit lengths channel args).2.Retains (emitted ++ [hub.nextEvent channel args]) := by
  refine ⟨?_, ?_, ?_⟩
  · apply pairwise_append.mpr
    refine ⟨h.ordered, pairwise_singleton _ _, ?_⟩
    intro a ha b hb
    rw [mem_singleton.mp hb]
    exact Nat.lt_succ_of_le (h.within a ha)
  · intro event hev
    rw [emit_sequence]
    rcases mem_append.mp hev with hold | hnew
    · exact (h.within event hold).trans (Nat.le_succ _)
    · rw [mem_singleton.mp hnew]
      exact le_rfl
  · obtain ⟨dropped, hsplit, hdropped⟩ := h.retained
    unfold EventHub.emit
    simp only
    by_cases hephemeral : isEphemeral channel = true
    · refine ⟨dropped, ?_, ?_⟩
      · simp [hephemeral, filter_append, HostEvent.lasting, nextEvent, HostEvent.modern, hsplit]
      · rw [if_pos hephemeral]
        exact hdropped
    · rw [if_neg hephemeral]
      obtain ⟨hle, gone, hgone, hbound⟩ := evict_suffix hub.capacity hub.maxHistoryBytes
        (hub.history ++ [⟨hub.nextEvent channel args,
          estimateEventBytes lengths (hub.nextEvent channel args)⟩])
        (hub.historyBytes + estimateEventBytes lengths (hub.nextEvent channel args))
        hub.historyDroppedThrough
      refine ⟨dropped ++ gone.map RetainedEvent.event, ?_, ?_⟩
      · have hnew : [hub.nextEvent channel args].filter HostEvent.lasting =
            [hub.nextEvent channel args] := by
          simp [HostEvent.lasting, nextEvent, HostEvent.modern, hephemeral]
        have hhistory := congrArg (List.map RetainedEvent.event) hgone
        rw [map_append, map_append] at hhistory
        rw [filter_append, hnew, hsplit, append_assoc, append_assoc]
        exact congrArg (dropped ++ ·) hhistory
      · intro event hev
        rcases mem_append.mp hev with hold | hnew
        · exact (hdropped event hold).trans hle
        · obtain ⟨retained, hretained, rfl⟩ := mem_map.mp hnew
          exact hbound retained hretained

theorem Retains.replayWindow {since : Nat} (hsince : 0 < since)
    (hevicted : (hub.replayWindow since).historyEvicted = false) : (hub.replayWindow since).events =
      emitted.filter fun event => event.lasting && decide (since < event.sequence) := by
  obtain ⟨dropped, hsplit, hdropped⟩ := h.retained
  have hordered := h.ordered.filter HostEvent.lasting
  rw [hsplit, pairwise_append] at hordered
  -- what the ring gave up is not after `since`
  have hgone : dropped.filter (fun event => decide (since < event.sequence)) = [] := by
    apply filter_eq_nil_iff.mpr
    intro event hev
    rw [decide_eq_true_eq, not_lt]
    have hbound := hdropped event hev
    cases hhistory : hub.history with
    | nil =>
      simp only [EventHub.replayWindow, hhistory, head?_nil, Option.map_none, hsince,
        decide_true, Bool.true_and, decide_eq_false_iff_not] at hevicted
      omega
    | cons oldest rest =>
      simp only [EventHub.replayWindow, hhistory, head?_cons, Option.map_some, hsince,
        decide_true, Bool.true_and, decide_eq_false_iff_not] at hevicted
      have hbef := hordered.2.2 event hev oldest.event (by simp [hhistory])
      omega
  calc (hub.replayWindow since).events
      = (hub.history.map RetainedEvent.event).filter
          (fun event => decide (since < event.sequence)) := by
        rw [filter_map]
        rfl
    _ = (emitted.filter HostEvent.lasting).filter
          (fun event => decide (since < event.sequence)) := by
        rw [hsplit, filter_append, hgone, nil_append]
    _ = emitted.filter fun event => event.lasting && decide (since < event.sequence) := by
        rw [filter_filter]
        apply filter_congr
        intro event _
        exact Bool.and_comm _ _

theorem Retains.evicted {since : Nat} (hsince : 0 < since)
    {event : HostEvent} (hemitted : event ∈ emitted) (hlasting : event.lasting = true)
    (hafter : since < event.sequence) (hgone : event ∉ hub.history.map RetainedEvent.event) :
    (hub.replayWindow since).historyEvicted = true := by
  by_contra hevicted
  rw [Bool.not_eq_true] at hevicted
  have hmem : event ∈ (hub.replayWindow since).events := by
    rw [h.replayWindow hsince hevicted]
    exact mem_filter.mpr ⟨hemitted, by simp [hlasting, hafter]⟩
  obtain ⟨retained, hretained, rfl⟩ := mem_map.mp hmem
  exact hgone (mem_map_of_mem (mem_of_mem_filter hretained))

end

end EventHub

end Yaade.Connection

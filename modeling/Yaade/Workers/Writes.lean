import Yaade.Library.Transition
import Yaade.Library.Utf16

/-!
What is written to a terminal, on the main thread and through a worker.
-/

namespace Yaade.Workers.Writes

open Yaade.Library Option List

inductive WriteData where
  | text (value : Utf16.Units)
  | bytes (value : List UInt8)
  deriving DecidableEq

def WriteData.encode : WriteData → List UInt8
  | .text value => Utf16.encode value
  | .bytes value => value

def WriteData.isEmpty : WriteData → Bool
  | .text value => value.isEmpty
  | .bytes value => value.isEmpty

/-! ## The core -/

/-- A call of the terminal library. Queries in replayed output are not answered. -/
inductive LibraryCall where
  | vtWrite (data : List UInt8) (answers : Bool)
  | reset
  deriving DecidableEq

namespace GhosttyTerminalCore

def write (data : WriteData) (answers : Bool) : List LibraryCall :=
  if data.encode = [] then [] else [.vtWrite data.encode answers]

def writeReplay (chunks : List WriteData) : List LibraryCall :=
  chunks.flatMap fun chunk => write chunk false

def resetAndWrite (data : WriteData) : List LibraryCall :=
  .reset :: if data.isEmpty then [] else writeReplay [data]

end GhosttyTerminalCore

/-- A call of `TerminalCoreRuntime`. -/
inductive WriteCall where
  | write (data : WriteData)
  | writeReplay (chunks : List (List UInt8))
  | resetAndWrite (data : WriteData)
  deriving DecidableEq

def WriteCall.effects : WriteCall → List LibraryCall
  | .write data => GhosttyTerminalCore.write data true
  | .writeReplay chunks => GhosttyTerminalCore.writeReplay (chunks.map .bytes)
  | .resetAndWrite data => GhosttyTerminalCore.resetAndWrite data

/-! ## The worker -/

inductive TerminalWorkerPayload where
  | writeBytes (data : List UInt8)
  | writeReplayBytes (chunks : List (List UInt8))
  | resetAndWriteBytes (data : List UInt8)
  deriving DecidableEq

namespace TerminalWorkerPayload

def valid : TerminalWorkerPayload → Bool
  | .writeBytes data | .resetAndWriteBytes data => !data.isEmpty
  | .writeReplayBytes chunks => !chunks.isEmpty && chunks.all fun chunk => !chunk.isEmpty

def size : TerminalWorkerPayload → Nat
  | .writeBytes data | .resetAndWriteBytes data => data.length
  | .writeReplayBytes chunks => (chunks.map List.length).sum

def effects : TerminalWorkerPayload → List LibraryCall
  | .writeBytes data => GhosttyTerminalCore.write (.bytes data) true
  | .writeReplayBytes chunks => GhosttyTerminalCore.writeReplay (chunks.map .bytes)
  | .resetAndWriteBytes data => GhosttyTerminalCore.resetAndWrite (.bytes data)

end TerminalWorkerPayload

def WriteCall.payload : WriteCall → Option TerminalWorkerPayload
  | .write data => some (.writeBytes data.encode)
  | .writeReplay chunks =>
    let owned := chunks.filter fun chunk => !chunk.isEmpty
    if owned.isEmpty then none else some (.writeReplayBytes owned)
  | .resetAndWrite data => some (.resetAndWriteBytes data.encode)

structure TerminalWorkerCommand where
  sequence : Nat
  payload : TerminalWorkerPayload
  deriving DecidableEq

inductive TerminalWorkerEvent where
  | parsed (sequence : Nat)
  | completed (sequence : Nat)
  deriving DecidableEq

def TerminalWorkerEvent.sequence : TerminalWorkerEvent → Nat
  | .parsed sequence | .completed sequence => sequence

def TerminalWorkerEvent.parsed? : TerminalWorkerEvent → Option Nat
  | .parsed sequence => some sequence
  | .completed _ => none

def schedulerMaxBytes : Nat := 32 * 1024 * 1024
def schedulerMaxCommands : Nat := 8192

/-- A terminal that is neither disposed nor recovering, its lane of the
scheduler, and the messages from and to its worker. Callbacks are numbered in
the order in which they are given. `main` is what the main thread does with the
same calls. -/
structure World where
  sequence : Nat
  lastEventSequence : Nat
  parsed : List (Nat × Nat)
  lane : List TerminalWorkerCommand
  inFlight : Option Nat
  posted : List TerminalWorkerCommand
  events : List TerminalWorkerEvent
  worker : List LibraryCall
  main : List LibraryCall
  given : Nat
  invoked : List Nat
  thrown : Nat
  deriving DecidableEq

/-- A call comes with a callback or without, and with what the other terminals
of the worker have in its queue. -/
inductive Action where
  | call (call : WriteCall) (callback : Bool) (otherBytes otherCommands : Nat)
  | dispatch
  | process
  | receive
  deriving DecidableEq

namespace World

def ready : World where
  sequence := 1
  lastEventSequence := 1
  parsed := []
  lane := []
  inFlight := none
  posted := []
  events := []
  worker := []
  main := []
  given := 0
  invoked := []
  thrown := 0

def laneBytes (world : World) : Nat :=
  (world.lane.map fun command => max 1 command.payload.size).sum

def accepts (world : World) (payload : TerminalWorkerPayload) (otherBytes otherCommands : Nat) :
    Bool :=
  world.laneBytes + otherBytes + max 1 payload.size ≤ schedulerMaxBytes &&
    world.lane.length + otherCommands + 1 ≤ schedulerMaxCommands

def command (world : World) (payload : TerminalWorkerPayload) (callback : Option Nat)
    (otherBytes otherCommands : Nat) : World :=
  let sequence := world.sequence + 1
  if payload.valid && world.accepts payload otherBytes otherCommands then
    { world with
      sequence := sequence
      lane := world.lane ++ [⟨sequence, payload⟩]
      parsed := world.parsed ++ (callback.map (Prod.mk sequence)).toList }
  else { world with sequence := sequence, thrown := world.thrown + 1 }

def perform (world : World) (call : WriteCall) (callback : Bool)
    (otherBytes otherCommands : Nat) : World :=
  let number := if callback then some world.given else none
  let called := { world with
    main := world.main ++ call.effects
    given := world.given + number.toList.length }
  match call.payload with
  | none => { called with invoked := called.invoked ++ number.toList }
  | some payload => called.command payload number otherBytes otherCommands

def receiveEvent (world : World) (event : TerminalWorkerEvent) : World :=
  let world := if event = .completed event.sequence ∧ world.inFlight = some event.sequence then
    { world with inFlight := none } else world
  if event.sequence < world.lastEventSequence then world
  else
    let world := { world with lastEventSequence := event.sequence }
    match event with
    | .parsed sequence =>
      { world with
        invoked := world.invoked ++
          (world.parsed.filter fun entry => entry.1 = sequence).map Prod.snd
        parsed := world.parsed.filter fun entry => entry.1 ≠ sequence }
    | .completed _ => world

def step (world : World) : Action → Option World
  | .call call callback otherBytes otherCommands =>
    some (world.perform call callback otherBytes otherCommands)
  | .dispatch =>
    match world.inFlight, world.lane with
    | none, command :: rest => some { world with
        lane := rest
        inFlight := some command.sequence
        posted := world.posted ++ [command] }
    | _, _ => none
  | .process =>
    match world.posted with
    | command :: rest => some { world with
        posted := rest
        worker := world.worker ++ command.payload.effects
        events := world.events ++ [.parsed command.sequence, .completed command.sequence] }
    | [] => none
  | .receive =>
    match world.events with
    | event :: rest => some ({ world with events := rest }.receiveEvent event)
    | [] => none

end World

def writeSystem : System World Action where
  initial world := world = .ready
  step := World.step

def World.Idle (world : World) : Prop :=
  world.step .dispatch = none ∧ world.step .process = none ∧ world.step .receive = none

/-- No call has thrown, callbacks run once and in order, and when nothing is on
the way all have run and the worker's core has done what the main thread's has. -/
structure World.Faithful (world : World) : Prop where
  accepted : world.thrown = 0
  ordered : world.invoked <+: List.range world.given
  settled : world.Idle → world.invoked = List.range world.given ∧ world.worker = world.main

/-- There is something to write and room for it in the queue; or there is
nothing to replay, and no earlier callback waits if one is given. -/
def Admits (world : World) : Action → Prop
  | .call call callback otherBytes otherCommands =>
    match call.payload with
    | some payload => payload.valid = true ∧
        world.accepts payload otherBytes otherCommands = true
    | none => callback = true → world.parsed = []
  | _ => True

/-! ## The effects of a command are those of its call -/

theorem write_encode (data : WriteData) (answers : Bool) :
    GhosttyTerminalCore.write (.bytes data.encode) answers =
      GhosttyTerminalCore.write data answers := rfl

theorem isEmpty_encode (data : WriteData) : data.encode.isEmpty = data.isEmpty := by
  cases data with
  | bytes value => rfl
  | text value =>
    rw [Bool.eq_iff_iff, List.isEmpty_iff]
    exact Utf16.encode_eq_nil.trans List.isEmpty_iff.symm

theorem writeReplay_filter (chunks : List (List UInt8)) : GhosttyTerminalCore.writeReplay
        ((chunks.filter fun chunk => !chunk.isEmpty).map WriteData.bytes) =
      GhosttyTerminalCore.writeReplay (chunks.map .bytes) := by
  induction chunks with
  | nil => rfl
  | cons chunk rest ih =>
    cases chunk with
    | nil => exact ih
    | cons byte more => exact congrArg (_ ++ ·) ih

def effectsOf (payload : Option TerminalWorkerPayload) : List LibraryCall :=
  (payload.map TerminalWorkerPayload.effects).getD []

theorem effects_payload (call : WriteCall) : effectsOf call.payload = call.effects := by
  cases call with
  | write data => exact write_encode data true
  | resetAndWrite data =>
    simp only [effectsOf, WriteCall.payload, map_some, getD_some,
      TerminalWorkerPayload.effects, WriteCall.effects, GhosttyTerminalCore.resetAndWrite,
      ← isEmpty_encode data]
    rfl
  | writeReplay chunks =>
    have hsame := writeReplay_filter chunks
    simp only [effectsOf, WriteCall.payload, WriteCall.effects]
    split
    · rename_i hnone
      rw [← hsame, List.isEmpty_iff.mp hnone]
      rfl
    · exact hsame

/-! ## The invariant -/

namespace World

/-- The commands that are not parsed yet, in the order in which they will be
heard of. -/
def unparsed (world : World) : List Nat :=
  world.events.filterMap TerminalWorkerEvent.parsed? ++
    (world.posted ++ world.lane).map TerminalWorkerCommand.sequence

def numbers (world : World) : List Nat :=
  world.events.map TerminalWorkerEvent.sequence ++
    (world.posted ++ world.lane).map TerminalWorkerCommand.sequence

structure Sound (world : World) : Prop where
  accepted : world.thrown = 0
  callbacks : world.invoked ++ world.parsed.map Prod.snd = List.range world.given
  waiting : (world.parsed.map Prod.fst).Sublist world.unparsed
  increasing : world.unparsed.Pairwise (· < ·)
  ordered : world.numbers.Pairwise (· ≤ ·)
  later : ∀ number ∈ world.numbers, world.lastEventSequence ≤ number ∧ number ≤ world.sequence
  heard : world.lastEventSequence ≤ world.sequence
  effects : world.main = world.worker ++
    (world.posted ++ world.lane).flatMap fun command => command.payload.effects
  busy : ∀ sequence, world.inFlight = some sequence →
    (∃ command ∈ world.posted, command.sequence = sequence) ∨
      .completed sequence ∈ world.events

section Steps

variable {world world' : World}

theorem sound_ready : Sound ready where
  accepted := rfl
  callbacks := rfl
  waiting := .refl _
  increasing := List.Pairwise.nil
  ordered := List.Pairwise.nil
  later _ hnumber := absurd hnumber not_mem_nil
  heard := le_rfl
  effects := rfl
  busy _ hbusy := nomatch hbusy

theorem mem_numbers {number : Nat} (h : number ∈ world.unparsed) : number ∈ world.numbers := by
  rcases mem_append.mp h with hev | hcommand
  · obtain ⟨event, hmem, hparsed⟩ := mem_filterMap.mp hev
    cases event with
    | completed sequence => cases hparsed
    | parsed sequence =>
      cases hparsed
      exact mem_append_left _ (List.mem_map_of_mem hmem)
  · exact mem_append_right _ hcommand

/-- The command takes a number above all that are on the way. -/
theorem Sound.command (h : Sound world) {call : WriteCall} {payload : TerminalWorkerPayload}
    {callback : Bool} {bytes commands : Nat} (hpay : call.payload = some payload)
    (hvalid : payload.valid = true) (haccepts : world.accepts payload bytes commands = true) :
    Sound (world.perform call callback bytes commands) := by
  have heffects : call.effects = payload.effects := by
    rw [← effects_payload, hpay]
    rfl
  have hperf : world.perform call callback bytes commands = { world with
      sequence := world.sequence + 1
      lane := world.lane ++ [⟨world.sequence + 1, payload⟩]
      parsed := world.parsed ++
        ((if callback then some world.given else none).map (Prod.mk (world.sequence + 1))).toList
      main := world.main ++ payload.effects
      given := world.given + (if callback then some world.given else none).toList.length } := by
    simp only [perform, hpay, World.command, heffects]
    exact if_pos (Bool.and_eq_true_iff.mpr ⟨hvalid, haccepts⟩)
  have hbelow : ∀ number ∈ world.numbers, number < world.sequence + 1 := fun number hnumber =>
    Nat.lt_succ_of_le (h.later number hnumber).2
  rw [hperf]
  refine ⟨h.accepted, ?_, ?_, ?_, ?_, ?_, ?_, ?_, h.busy⟩
  · cases callback with
    | false => simpa using h.callbacks
    | true =>
      have hnext := congrArg (· ++ [world.given]) h.callbacks
      simpa [range_succ] using hnext
  · have hunparsed : (world.parsed.map Prod.fst ++ [world.sequence + 1]).Sublist
        (world.unparsed ++ [world.sequence + 1]) := h.waiting.append (.refl _)
    cases callback with
    | false =>
      have hwaiting := (sublist_append_left _ _).trans hunparsed
      simpa [unparsed] using hwaiting
    | true => simpa [unparsed] using hunparsed
  · have hincreasing : (world.unparsed ++ [world.sequence + 1]).Pairwise (· < ·) := by
      refine pairwise_append.mpr ⟨h.increasing, pairwise_singleton _ _, ?_⟩
      intro number hnumber last hlast
      rw [mem_singleton.mp hlast]
      exact hbelow number (mem_numbers hnumber)
    simpa [unparsed] using hincreasing
  · have hordered : (world.numbers ++ [world.sequence + 1]).Pairwise (· ≤ ·) := by
      refine pairwise_append.mpr ⟨h.ordered, pairwise_singleton _ _, ?_⟩
      intro number hnumber last hlast
      rw [mem_singleton.mp hlast]
      exact (hbelow number hnumber).le
    simpa [numbers] using hordered
  · intro number hnumber
    have hcases : number ∈ world.numbers ++ [world.sequence + 1] := by
      simpa [numbers] using hnumber
    rcases mem_snoc.mp hcases with hold | rfl
    · exact ⟨(h.later number hold).1, (hbelow number hold).le⟩
    · exact ⟨Nat.le_succ_of_le h.heard, le_rfl⟩
  · exact Nat.le_succ_of_le h.heard
  · simp [h.effects]

theorem Sound.nothing (h : Sound world) {call : WriteCall} {callback : Bool}
    {bytes commands : Nat} (hpay : call.payload = none)
    (hwaiting : callback = true → world.parsed = []) :
    Sound (world.perform call callback bytes commands) := by
  have heffects : call.effects = [] := by
    rw [← effects_payload, hpay]
    rfl
  have hperf : world.perform call callback bytes commands = { world with
      given := world.given + (if callback then some world.given else none).toList.length
      invoked := world.invoked ++ (if callback then some world.given else none).toList } := by
    simp only [perform, hpay, heffects, append_nil]
  rw [hperf]
  refine { h with callbacks := ?_ }
  cases callback with
  | false => simpa using h.callbacks
  | true =>
    have hcallbacks := h.callbacks
    rw [hwaiting rfl, map_nil, append_nil] at hcallbacks
    simp [hwaiting rfl, hcallbacks, range_succ]

theorem Sound.dispatch (h : Sound world) (hstep : world.step .dispatch = some world') :
    Sound world' := by
  simp only [World.step] at hstep
  split at hstep
  · rename_i command rest hfree hlane
    cases hstep
    have hqueue : world.posted ++ [command] ++ rest = world.posted ++ world.lane := by
      rw [hlane, append_assoc]
      rfl
    refine ⟨h.accepted, h.callbacks, ?_, ?_, ?_, ?_, h.heard, ?_, ?_⟩
    · rw [unparsed, hqueue]
      exact h.waiting
    · rw [unparsed, hqueue]
      exact h.increasing
    · rw [numbers, hqueue]
      exact h.ordered
    · rw [numbers, hqueue]
      exact h.later
    · rw [hqueue]
      exact h.effects
    · rintro sequence ⟨⟩
      exact .inl ⟨command, mem_concat_self, rfl⟩
  · cases hstep

/-- The command of a message to the worker becomes its two answers. -/
theorem Sound.process (h : Sound world) (hstep : world.step .process = some world') :
    Sound world' := by
  simp only [World.step] at hstep
  split at hstep
  · rename_i command rest hposted
    cases hstep
    have hunparsed : unparsed { world with
        posted := rest
        worker := world.worker ++ command.payload.effects
        events := world.events ++ [.parsed command.sequence, .completed command.sequence] } =
        world.unparsed := by
      simp [unparsed, hposted, TerminalWorkerEvent.parsed?]
    obtain ⟨hevs, hcommands, hafter⟩ := pairwise_append.mp h.ordered
    rw [hposted, cons_append, map_cons] at hcommands hafter
    obtain ⟨hfirst, hrest⟩ := pairwise_cons.mp hcommands
    refine ⟨h.accepted, h.callbacks, ?_, ?_, ?_, ?_, h.heard, ?_, ?_⟩
    · rw [hunparsed]
      exact h.waiting
    · rw [hunparsed]
      exact h.increasing
    · have hanswers : ([command.sequence, command.sequence] ++
          (rest ++ world.lane).map TerminalWorkerCommand.sequence).Pairwise (· ≤ ·) :=
        pairwise_cons.mpr ⟨forall_mem_cons.mpr ⟨le_rfl, hfirst⟩, pairwise_cons.mpr ⟨hfirst, hrest⟩⟩
      have hordered : (world.events.map TerminalWorkerEvent.sequence ++
          ([command.sequence, command.sequence] ++
            (rest ++ world.lane).map TerminalWorkerCommand.sequence)).Pairwise (· ≤ ·) := by
        refine pairwise_append.mpr ⟨hevs, hanswers, fun number hnumber next hnext => ?_⟩
        rcases mem_cons.mp hnext with rfl | hnext
        · exact hafter number hnumber _ mem_cons_self
        · exact hafter number hnumber next hnext
      simpa [numbers, TerminalWorkerEvent.sequence] using hordered
    · intro number hnumber
      apply h.later
      simp only [numbers, hposted, map_append, map_cons, map_nil,
        TerminalWorkerEvent.sequence, mem_append, mem_cons, not_mem_nil,
        or_false] at hnumber ⊢
      tauto
    · rw [h.effects, hposted]
      simp
    · intro sequence hbusy
      rcases h.busy sequence hbusy with ⟨other, hother, rfl⟩ | hev
      · rw [hposted] at hother
        rcases mem_cons.mp hother with rfl | hother
        · right
          simp
        · exact .inl ⟨other, hother, rfl⟩
      · exact .inr (mem_append_left _ hev)
  · cases hstep

theorem filter_waiting {parsed : List (Nat × Nat)} {sequence : Nat} {rest : List Nat}
    (hwaiting : (parsed.map Prod.fst).Sublist (sequence :: rest))
    (hincreasing : (sequence :: rest).Pairwise (· < ·)) :
    (parsed.filter fun entry => entry.1 = sequence) ++
        (parsed.filter fun entry => entry.1 ≠ sequence) = parsed ∧
      ((parsed.filter fun entry => entry.1 ≠ sequence).map Prod.fst).Sublist rest := by
  obtain ⟨hafter, -⟩ := pairwise_cons.mp hincreasing
  have hothers : ∀ {entries : List (Nat × Nat)}, (entries.map Prod.fst).Sublist rest →
      (entries.filter fun entry => entry.1 = sequence) = [] ∧
        (entries.filter fun entry => entry.1 ≠ sequence) = entries := by
    intro entries hsublist
    have hne : ∀ entry ∈ entries, entry.1 ≠ sequence := fun entry hentry =>
      (hafter _ (hsublist.subset (List.mem_map_of_mem hentry))).ne'
    constructor
    · exact filter_eq_nil_iff.mpr fun entry hentry => by simpa using hne entry hentry
    · exact filter_eq_self.mpr fun entry hentry => by simpa using hne entry hentry
  cases parsed with
  | nil => exact ⟨rfl, nil_sublist _⟩
  | cons entry entries =>
    rw [map_cons] at hwaiting
    by_cases hfirst : entry.1 = sequence
    · rw [hfirst] at hwaiting
      obtain ⟨hnone, hall⟩ := hothers (cons_sublist_cons.mp hwaiting)
      rw [filter_cons_of_pos (by simpa using hfirst),
        filter_cons_of_neg (by simpa using hfirst), hnone, hall]
      exact ⟨rfl, cons_sublist_cons.mp hwaiting⟩
    · have hsublist : ((entry :: entries).map Prod.fst).Sublist rest := by
        rcases sublist_cons_iff.mp hwaiting with hrest | ⟨tail, htail, -⟩
        · exact hrest
        · exact absurd (List.cons.inj htail).1 hfirst
      obtain ⟨hnone, hall⟩ := hothers hsublist
      rw [hnone, hall]
      exact ⟨rfl, hsublist⟩

section

variable (h : Sound world)
include h

theorem Sound.front {event : TerminalWorkerEvent} {rest : List TerminalWorkerEvent}
    (hevs : world.events = event :: rest) :
    (∀ number ∈ numbers { world with events := rest }, event.sequence ≤ number) ∧
      (numbers { world with events := rest }).Pairwise (· ≤ ·) ∧ event.sequence ∈ world.numbers := by
  have hall := h.ordered
  simp only [numbers, hevs, map_cons, cons_append] at hall
  obtain ⟨hnext, hordered⟩ := pairwise_cons.mp hall
  exact ⟨hnext, hordered, by simp [numbers, hevs]⟩

theorem Sound.complete {sequence : Nat} {rest : List TerminalWorkerEvent}
    (hevs : world.events = .completed sequence :: rest) :
    Sound ({ world with events := rest }.receiveEvent (.completed sequence)) := by
  obtain ⟨hnext, hordered, hmem⟩ := h.front hevs
  have hfresh : ¬ sequence < world.lastEventSequence := Nat.not_lt.mpr (h.later _ hmem).1
  have hunparsed : unparsed { world with events := rest } = world.unparsed := by
    rw [unparsed, unparsed, hevs]
    rfl
  have hreceive : { world with events := rest }.receiveEvent (.completed sequence) =
      { world with
        events := rest
        inFlight := if world.inFlight = some sequence then none else world.inFlight
        lastEventSequence := sequence } := by
    unfold receiveEvent
    by_cases hbusy : world.inFlight = some sequence
    · simp [TerminalWorkerEvent.sequence, hbusy, hfresh]
    · simp [TerminalWorkerEvent.sequence, hbusy, hfresh]
  rw [hreceive]
  refine ⟨h.accepted, h.callbacks, hunparsed ▸ h.waiting, hunparsed ▸ h.increasing, hordered,
    ?_, (h.later _ hmem).2, h.effects, ?_⟩
  · intro number hnumber
    refine ⟨hnext number hnumber, (h.later number ?_).2⟩
    simp only [numbers, hevs, map_cons, cons_append]
    exact mem_cons_of_mem _ hnumber
  · intro other hother
    obtain ⟨hne, hbusy⟩ : world.inFlight ≠ some sequence ∧ world.inFlight = some other := by
      split at hother
      · cases hother
      · rename_i hne
        exact ⟨hne, hother⟩
    refine (h.busy other hbusy).imp id fun hev => ?_
    rw [hevs] at hev
    rcases mem_cons.mp hev with heq | hrest
    · cases heq
      exact absurd hbusy hne
    · exact hrest

theorem Sound.parse {sequence : Nat} {rest : List TerminalWorkerEvent}
    (hevs : world.events = .parsed sequence :: rest) :
    Sound ({ world with events := rest }.receiveEvent (.parsed sequence)) := by
  obtain ⟨hnext, hordered, hmem⟩ := h.front hevs
  have hfresh : ¬ sequence < world.lastEventSequence := Nat.not_lt.mpr (h.later _ hmem).1
  have hunparsed : world.unparsed = sequence :: unparsed { world with events := rest } := by
    simp [unparsed, hevs, TerminalWorkerEvent.parsed?]
  have hwaiting := h.waiting
  have hincreasing := h.increasing
  rw [hunparsed] at hwaiting hincreasing
  obtain ⟨hsplit, hleft⟩ := filter_waiting hwaiting hincreasing
  have hreceive : { world with events := rest }.receiveEvent (.parsed sequence) =
      { world with
        events := rest
        lastEventSequence := sequence
        invoked := world.invoked ++
          (world.parsed.filter fun entry => entry.1 = sequence).map Prod.snd
        parsed := world.parsed.filter fun entry => entry.1 ≠ sequence } := by
    unfold receiveEvent
    simp [TerminalWorkerEvent.sequence, hfresh]
  rw [hreceive]
  refine ⟨h.accepted, ?_, hleft, (pairwise_cons.mp hincreasing).2, hordered,
    ?_, (h.later _ hmem).2, h.effects, ?_⟩
  · calc world.invoked ++ (world.parsed.filter fun entry => entry.1 = sequence).map Prod.snd ++
          (world.parsed.filter fun entry => entry.1 ≠ sequence).map Prod.snd
        = world.invoked ++ world.parsed.map Prod.snd := by
          rw [append_assoc, ← map_append, hsplit]
      _ = List.range world.given := h.callbacks
  · intro number hnumber
    refine ⟨hnext number hnumber, (h.later number ?_).2⟩
    simp only [numbers, hevs, map_cons, cons_append]
    exact mem_cons_of_mem _ hnumber
  · intro other hother
    refine (h.busy other hother).imp id fun hev => ?_
    rw [hevs] at hev
    rcases mem_cons.mp hev with heq | hrest
    · cases heq
    · exact hrest

theorem Sound.step {action : Action} (hadmits : Admits world action)
    (hstep : world.step action = some world') : Sound world' := by
  cases action with
  | dispatch => exact h.dispatch hstep
  | process => exact h.process hstep
  | call call callback bytes commands =>
    cases hstep
    simp only [Admits] at hadmits
    split at hadmits
    · rename_i payload hpay
      exact h.command hpay hadmits.1 hadmits.2
    · rename_i hpay
      exact h.nothing hpay hadmits
  | receive =>
    simp only [World.step] at hstep
    split at hstep
    · rename_i event rest hevs
      cases hstep
      cases event with
      | completed sequence => exact h.complete hevs
      | parsed sequence => exact h.parse hevs
    · cases hstep

theorem Sound.idle (hidle : world.Idle) :
    world.lane = [] ∧ world.posted = [] ∧ world.events = [] := by
  obtain ⟨hdispatch, hprocess, hreceive⟩ := hidle
  have hposted : world.posted = [] := by
    simp only [World.step] at hprocess
    split at hprocess
    · cases hprocess
    · assumption
  have hevs : world.events = [] := by
    simp only [World.step] at hreceive
    split at hreceive
    · cases hreceive
    · assumption
  refine ⟨?_, hposted, hevs⟩
  cases hlane : world.lane with
  | nil => rfl
  | cons command rest =>
    cases hbusy : world.inFlight with
    | none =>
      simp only [World.step] at hdispatch
      rw [hbusy, hlane] at hdispatch
      cases hdispatch
    | some sequence =>
      rcases h.busy sequence hbusy with ⟨command, hmem, -⟩ | hmem
      · exact absurd hmem (hposted ▸ not_mem_nil)
      · exact absurd hmem (hevs ▸ not_mem_nil)

theorem Sound.faithful : world.Faithful where
  accepted := h.accepted
  ordered := ⟨_, h.callbacks⟩
  settled hidle := by
    obtain ⟨hlane, hposted, hevs⟩ := h.idle hidle
    have hparsed : world.parsed = [] := by
      have hwaiting := h.waiting
      rw [unparsed, hlane, hposted, hevs] at hwaiting
      exact map_eq_nil_iff.mp (sublist_nil.mp hwaiting)
    have hcallbacks := h.callbacks
    have heffects := h.effects
    rw [hparsed, map_nil, append_nil] at hcallbacks
    rw [hlane, hposted, append_nil, flatMap_nil, append_nil] at heffects
    exact ⟨hcallbacks, heffects.symm⟩

end

end Steps

end World

/-- In every run in which each call has something to write and room in the
queue, or nothing to replay and no callback that earlier ones wait for, no call
throws, callbacks run once and in order, and the worker's core does what the
main thread's does. -/
theorem writes_faithful {world : World} (hrun : writeSystem.Run Admits world) : world.Faithful :=
  World.Sound.faithful <| hrun.invariant
    (fun _ hinitial => hinitial ▸ World.sound_ready)
    fun _ _ _ hsound hadmits hstep => World.Sound.step hsound hadmits hstep

theorem writes_faithful_once :
    World.Faithful { World.ready with
      sequence := 2
      lastEventSequence := 2
      worker := [.vtWrite [97] true]
      main := [.vtWrite [97] true]
      given := 1
      invoked := [0] } :=
  writes_faithful <| by
    have hcall : writeSystem.Run Admits
        (World.ready.perform (.write (.bytes [97])) true 0 0) :=
      System.Run.next (a := Action.call (.write (.bytes [97])) true 0 0) (.start rfl)
        ⟨by decide, by decide⟩ rfl
    have hdispatch := hcall.next (a := Action.dispatch) trivial rfl
    have hprocess := hdispatch.next (a := Action.process) trivial rfl
    have hparsed := hprocess.next (a := Action.receive) trivial rfl
    exact hparsed.next (a := Action.receive) trivial rfl

/-- Resetting to no text throws. -/
theorem unfaithful_reset : ¬ ∀ world, writeSystem.Reachable world → world.Faithful := by
  intro h
  have hrun : writeSystem.Reachable (World.ready.perform (.resetAndWrite (.text [])) true 0 0) :=
    System.Run.next (a := Action.call (.resetAndWrite (.text [])) true 0 0) (.start rfl) trivial rfl
  exact absurd (h _ hrun).accepted (by decide)

end Yaade.Workers.Writes

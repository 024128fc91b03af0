import Yaade.Workers.Scheduler

/-!
The pool of terminal workers.
-/

namespace Yaade.Workers

open Yaade.Library

/-! ## Messages -/

/-- The commands that are neither of the first three all are `other`. -/
inductive CommandKind where
  | create (presentation : WorkerPriority)
  | setPresentationState (presentation : WorkerPriority)
  | dispose
  | other
  deriving DecidableEq

def CommandKind.presentation : CommandKind → Option WorkerPriority
  | .create presentation | .setPresentationState presentation => some presentation
  | .dispose | .other => none

def CommandKind.isCreate : CommandKind → Bool
  | .create _ => true
  | _ => false

structure WorkerCommand where
  terminalId : String
  generation : Nat
  sequence : Nat
  kind : CommandKind
  deriving DecidableEq

/-- The events that the pool reacts to. -/
inductive EventKind where
  | ready
  | completed
  | recoverableError
  | fatalError
  deriving DecidableEq

structure WorkerEvent where
  terminalId : String
  generation : Nat
  sequence : Nat
  kind : EventKind
  deriving DecidableEq

abbrev CompletionKey := Nat × Nat

def WorkerCommand.key (command : WorkerCommand) : CompletionKey :=
  (command.generation, command.sequence)

def WorkerEvent.key (event : WorkerEvent) : CompletionKey := (event.generation, event.sequence)

def WorkerCommand.reply (command : WorkerCommand) (kind : EventKind) : WorkerEvent :=
  ⟨command.terminalId, command.generation, command.sequence, kind⟩

/-! ## The worker -/

/-- A create that waits for its core is in `building`. -/
structure PoolWorker where
  runtimes : IndexMap String Nat
  inbox : List WorkerCommand
  building : List WorkerCommand
  outbox : List WorkerEvent

inductive BuildOutcome where
  | failed
  | ready
  | readyThenFailed
  deriving DecidableEq

namespace PoolWorker

def empty : PoolWorker := ⟨.empty, [], [], []⟩

def handle (worker : PoolWorker) (command : WorkerCommand) (throws : Bool) : PoolWorker :=
  if command.kind.isCreate then { worker with building := worker.building ++ [command] }
  else if worker.runtimes.get? command.terminalId ≠ some command.generation then worker
  else if throws then
    { worker with outbox := worker.outbox ++ [command.reply .recoverableError] }
  else
    { worker with
      runtimes := if command.kind = .dispose then worker.runtimes.shiftRemove command.terminalId
        else worker.runtimes
      outbox := worker.outbox ++ [command.reply .completed] }

def built (worker : PoolWorker) (command : WorkerCommand) : BuildOutcome → PoolWorker
  | .failed => { worker with outbox := worker.outbox ++ [command.reply .fatalError] }
  | .ready =>
    { worker with
      runtimes := worker.runtimes.insert command.terminalId command.generation
      outbox := worker.outbox ++ [command.reply .ready] }
  | .readyThenFailed =>
    { worker with
      runtimes := worker.runtimes.insert command.terminalId command.generation
      outbox := worker.outbox ++ [command.reply .ready, command.reply .fatalError] }

end PoolWorker

/-! ## Cores -/

/-- The first listener takes any `ready` of its terminal, the one of a recovery
that of the core's generation. -/
inductive ReadyListener where
  | initialization
  | recovery
  deriving DecidableEq

structure WorkerTerminalCore where
  sequence : Nat
  generation : Nat
  lastEventSequence : Nat
  presentation : WorkerPriority
  disposed : Bool
  recovering : Bool
  initializationReject : Bool
  initializationTimeout : Bool
  readyListener : Option ReadyListener
  resolved : Bool
  deriving DecidableEq

def WorkerTerminalCore.start (presentation : WorkerPriority) : WorkerTerminalCore :=
  ⟨0, 1, 0, presentation, false, false, true, true, some .initialization, false⟩

def WorkerTerminalCore.listen (core : WorkerTerminalCore) (event : WorkerEvent) :
    WorkerTerminalCore :=
  match core.readyListener with
  | some .initialization =>
    if event.kind = .ready then
      { core with
        initializationTimeout := false, readyListener := none
        initializationReject := false, resolved := true }
    else core
  | some .recovery =>
    if event.kind = .ready ∧ event.generation = core.generation then
      { core with readyListener := none, recovering := false }
    else core
  | none => core

def WorkerTerminalCore.recover (core : WorkerTerminalCore) : WorkerTerminalCore :=
  { core with
    recovering := true, generation := core.generation + 1, sequence := 0
    lastEventSequence := 0, readyListener := some .recovery }

/-- A slot of the pool. `terminals` are the registered listeners in order. -/
structure Slot where
  worker : PoolWorker
  scheduler : FairWorkerScheduler WorkerCommand CompletionKey
  priorities : IndexMap String WorkerPriority
  terminals : List String
  cores : IndexMap String WorkerTerminalCore

namespace Slot

def empty : Slot := ⟨.empty, .empty, .empty, [], .empty⟩

variable (slot : Slot)

def setCore (terminalId : String) (core : WorkerTerminalCore) : Slot :=
  { slot with cores := slot.cores.insert terminalId core }

def prioritized (command : WorkerCommand) : Slot :=
  match command.kind.presentation with
  | some presentation =>
    { slot with
      priorities := slot.priorities.insert command.terminalId presentation
      scheduler := slot.scheduler.setPriority command.terminalId presentation }
  | none => slot

def post (command : WorkerCommand) (bytes : Nat) : Slot × Bool :=
  let slot := slot.prioritized command
  let priority := (slot.priorities.get? command.terminalId).getD ⟨true, false⟩
  match slot.scheduler.enqueue command.terminalId command bytes priority command.key with
  | .ok scheduler => ({ slot with scheduler := scheduler }, true)
  | .error _ => (slot, false)

def send (terminalId : String) (core : WorkerTerminalCore) (kind : CommandKind) (bytes : Nat) :
    Slot × Bool :=
  let core := { core with sequence := core.sequence + 1 }
  (slot.setCore terminalId core).post ⟨terminalId, core.generation, core.sequence, kind⟩ bytes

def release (terminalId : String) : Slot :=
  { slot with
    scheduler := slot.scheduler.cancel terminalId
    priorities := slot.priorities.shiftRemove terminalId
    terminals := slot.terminals.erase terminalId }

def create (terminalId : String) (presentation : WorkerPriority) : Slot :=
  (({ slot with terminals := slot.terminals ++ [terminalId] } : Slot).send terminalId
    (.start presentation) (.create presentation) 256).1

def command (terminalId : String) (core : WorkerTerminalCore) (kind : CommandKind) (bytes : Nat) :
    Slot × Bool :=
  if core.disposed ∨ core.recovering then (slot.setCore terminalId core, true)
  else slot.send terminalId core kind bytes

def setPresentationState (terminalId : String) (core : WorkerTerminalCore)
    (presentation : WorkerPriority) : Slot :=
  if core.presentation = presentation then slot
  else (slot.command terminalId { core with presentation := presentation }
    (.setPresentationState presentation) 256).1

def dispose (terminalId : String) (core : WorkerTerminalCore) : Slot :=
  if core.disposed then slot.setCore terminalId core
  else
    let (sent, accepted) := slot.command terminalId core .dispose 256
    if !accepted then sent
    else ({ sent with
      cores := sent.cores.modify terminalId fun core => { core with disposed := true } } :
        Slot).release terminalId

def fail (terminalId : String) (core : WorkerTerminalCore) : Slot × Bool :=
  if core.disposed ∨ core.recovering then (slot.setCore terminalId core, true)
  else if core.initializationReject then
    ((slot.setCore terminalId { core with
      initializationReject := false, readyListener := none, disposed := true }).release terminalId,
      true)
  else slot.send terminalId core.recover (.create core.presentation) 256

def receive (terminalId : String) (core : WorkerTerminalCore) (event : WorkerEvent) : Slot :=
  let core := core.listen event
  if core.disposed ∨ event.generation ≠ core.generation ∨
      event.sequence < core.lastEventSequence then slot.setCore terminalId core
  else
    let core := { core with lastEventSequence := event.sequence }
    if event.kind = .fatalError ∨ event.kind = .recoverableError then
      (slot.fail terminalId core).1
    else slot.setCore terminalId core

def onMessage (event : WorkerEvent) : Slot :=
  let slot := { slot with scheduler := slot.scheduler.complete event.terminalId event.key }
  if event.terminalId ∈ slot.terminals then
    match slot.cores.get? event.terminalId with
    | some core => slot.receive event.terminalId core event
    | none => slot
  else slot

def failAll : List String → Slot → Slot
  | [], slot => slot
  | terminalId :: rest, slot =>
    match slot.cores.get? terminalId with
    | some core =>
      let (failed, completed) := slot.fail terminalId core
      if completed then failAll rest failed else failed
    | none => failAll rest slot

def crash : Slot :=
  failAll slot.terminals { slot with worker := .empty, scheduler := slot.scheduler.reset }

end Slot

/-! ## The pool -/

def maxTerminalWorkers : Nat := 4

def workerLimit (hardwareConcurrency : Nat) : Nat :=
  max 1 (min maxTerminalWorkers (hardwareConcurrency / 2))

def hash (value : String) : UInt32 :=
  value.toList.foldl (fun result char => (result ^^^ char.val) * 16777619) 2166136261

structure TerminalWorkerPool where
  slots : List Slot

namespace TerminalWorkerPool

def terminalCount (pool : TerminalWorkerPool) : Nat :=
  (pool.slots.map fun slot => slot.terminals.length).sum

/-- New slots while there are fewer than the limit and no more than terminals. -/
def grow (limit : Nat) (pool : TerminalWorkerPool) : TerminalWorkerPool :=
  let wanted := min limit (pool.terminalCount + 1)
  ⟨pool.slots ++ List.replicate (wanted - pool.slots.length) .empty⟩

def slotOf (pool : TerminalWorkerPool) (terminalId : String) : Nat :=
  (hash terminalId).toNat % pool.slots.length

end TerminalWorkerPool

inductive SlotAction where
  | command (terminalId : String) (bytes : Nat)
  | setPresentationState (terminalId : String) (presentation : WorkerPriority)
  | dispose (terminalId : String)
  | initializationTimeout (terminalId : String)
  | microtask
  | workerReceive (throws : Bool)
  | built (index : Nat) (outcome : BuildOutcome)
  | receive
  | crash

inductive PoolAction where
  | create (terminalId : String) (presentation : WorkerPriority)
  | slot (index : Nat) (action : SlotAction)

def slotStep (slot : Slot) : SlotAction → Option Slot
  | .command terminalId bytes => (slot.cores.get? terminalId).bind fun core =>
    if core.resolved then some (slot.command terminalId core .other bytes).1 else none
  | .setPresentationState terminalId presentation => (slot.cores.get? terminalId).bind fun core =>
    if core.resolved then some (slot.setPresentationState terminalId core presentation) else none
  | .dispose terminalId => (slot.cores.get? terminalId).bind fun core =>
    if core.resolved then some (slot.dispose terminalId core) else none
  | .initializationTimeout terminalId => (slot.cores.get? terminalId).bind fun core =>
    if core.initializationTimeout then some (slot.dispose terminalId { core with
      initializationTimeout := false, initializationReject := false }) else none
  | .microtask =>
    if slot.scheduler.scheduled then
      let (scheduler, sent) := slot.scheduler.runMicrotask
      some { slot with
        scheduler := scheduler
        worker := { slot.worker with inbox := slot.worker.inbox ++ sent.map Prod.snd } }
    else none
  | .workerReceive throws => match slot.worker.inbox with
      | [] => none
      | command :: rest => some { slot with
          worker := { slot.worker with inbox := rest }.handle command throws }
  | .built index outcome => (slot.worker.building[index]?).bind fun command =>
    if outcome = .readyThenFailed ∧ !command.kind.presentation.any WorkerPriority.visible then none
    else some { slot with
      worker := { slot.worker with building := slot.worker.building.eraseIdx index }.built command
        outcome }
  | .receive => match slot.worker.outbox with
      | [] => none
      | event :: rest =>
        some (({ slot with worker := { slot.worker with outbox := rest } } : Slot).onMessage event)
  | .crash => some slot.crash

def poolSystem (hardwareConcurrency : Nat) : System TerminalWorkerPool PoolAction where
  initial := (· = ⟨[]⟩)
  step pool
    | .create terminalId presentation =>
      if pool.slots.any fun slot => slot.cores.contains terminalId then none
      else
        let grown := pool.grow (workerLimit hardwareConcurrency)
        some ⟨grown.slots.modify (grown.slotOf terminalId) fun slot =>
          slot.create terminalId presentation⟩
    | .slot index action => (pool.slots[index]?).bind fun slot =>
      (slotStep slot action).map fun next => ⟨pool.slots.set index next⟩

end Yaade.Workers

import Yaade.Library.IndexMap

/-!
The lease registry of the terminal runtimes.
-/

namespace Yaade.Terminal

open Yaade.Library

inductive TerminalLeaseMode where
  | writer
  | observer
  deriving DecidableEq

structure RuntimeTerminalLease where
  terminalId : String
  terminalEpoch : String
  leaseId : String
  leaseGeneration : Nat
  principalId : String
  connectionId : String
  mode : TerminalLeaseMode
  acquiredAt : String
  expiresAt : String
  expiresAtMs : Int
  deriving DecidableEq

structure TerminalLeaseRequest where
  terminalId : String
  terminalEpoch : String
  principalId : String
  connectionId : String
  mode : TerminalLeaseMode
  deriving DecidableEq

structure TerminalMutationFence where
  terminalId : String
  terminalEpoch : String
  leaseId : String
  leaseGeneration : Nat
  principalId : String
  connectionId : String
  commandId : String
  deriving DecidableEq

inductive TerminalControlErrorCode where
  | terminalNotFound
  | terminalEpochStale
  | writerLeaseRequired
  | writerLeaseStale
  | leaseNotHeld
  | commandDuplicate
  deriving DecidableEq

structure TerminalControlError where
  code : TerminalControlErrorCode
  terminalId : String
  message : String
  leaseId : Option String
  deriving DecidableEq

def RuntimeTerminalLease.heldBy (lease : RuntimeTerminalLease)
    (principalId connectionId : String) : Bool :=
  lease.principalId == principalId && lease.connectionId == connectionId

def maxCommandIds : Nat := 1024

def saturatingAdd (a b : Int) : Int := max (-2 ^ 63) (min (a + b) (2 ^ 63 - 1))

def nextGeneration (generation : Nat) : Nat :=
  if generation < 2 ^ 64 - 1 then generation + 1 else generation

/-- What an operation reads from the registry: the time, the time to live of a
lease and the rendering of times. -/
structure LeaseTerms where
  now : Int
  ttl : Int
  iso : Int → String

def LeaseTerms.expiresAtMs (terms : LeaseTerms) : Int := saturatingAdd terms.now terms.ttl

structure TerminalControlState where
  terminalEpoch : String
  leaseGeneration : Nat
  primaryWriterId : Option String
  writers : IndexMap String RuntimeTerminalLease
  observers : IndexMap String RuntimeTerminalLease
  commandIds : IndexMap String Int
  deriving DecidableEq

namespace TerminalControlState

def registered (terminalEpoch : String) : TerminalControlState where
  terminalEpoch := terminalEpoch
  leaseGeneration := 0
  primaryWriterId := none
  writers := .empty
  observers := .empty
  commandIds := .empty

def firstWriterId (state : TerminalControlState) : Option String :=
  state.writers.first?.map Prod.fst

def purge (state : TerminalControlState) (now : Int) : TerminalControlState :=
  let writers := state.writers.retain fun _ lease => lease.expiresAtMs > now
  { state with
    writers := writers
    primaryWriterId :=
      if state.primaryWriterId.all fun id => !writers.contains id then writers.first?.map Prod.fst
      else state.primaryWriterId
    observers := state.observers.retain fun _ lease => lease.expiresAtMs > now }

def findLease (state : TerminalControlState) (leaseId : String) : Option RuntimeTerminalLease :=
  (state.writers.get? leaseId).or (state.observers.get? leaseId)

def renewed (terms : LeaseTerms) (lease : RuntimeTerminalLease) : RuntimeTerminalLease :=
  { lease with expiresAtMs := terms.expiresAtMs, expiresAt := terms.iso terms.expiresAtMs }

def controlError (code : TerminalControlErrorCode) (terminalId message : String)
    (leaseId : Option String) : TerminalControlError :=
  ⟨code, terminalId, message, leaseId⟩

def renewLease (state : TerminalControlState) (leaseId : String) (terms : LeaseTerms) :
    Except TerminalControlError RuntimeTerminalLease × TerminalControlState :=
  match state.writers.get? leaseId, state.observers.get? leaseId with
  | some lease, _ =>
    (.ok (renewed terms lease),
      { state with writers := state.writers.modify leaseId (renewed terms) })
  | none, some lease =>
    (.ok (renewed terms lease),
      { state with observers := state.observers.modify leaseId (renewed terms) })
  | none, none =>
    (.error (controlError .writerLeaseStale "" "terminal lease is missing or expired"
      (some leaseId)), state)

def newLease (state : TerminalControlState) (request : TerminalLeaseRequest)
    (leaseGeneration : Nat) (terms : LeaseTerms) (leaseId : String) : RuntimeTerminalLease where
  terminalId := request.terminalId
  terminalEpoch := state.terminalEpoch
  leaseId := "lease-" ++ leaseId
  leaseGeneration := leaseGeneration
  principalId := request.principalId
  connectionId := request.connectionId
  mode := request.mode
  acquiredAt := terms.iso terms.now
  expiresAt := terms.iso terms.expiresAtMs
  expiresAtMs := terms.expiresAtMs

def heldLease (leases : IndexMap String RuntimeTerminalLease)
    (principalId connectionId : String) : Option RuntimeTerminalLease :=
  leases.values.find? fun lease => lease.heldBy principalId connectionId

/-- The result of an operation on one terminal, and whether it used an id. -/
structure Outcome (α : Type) where
  result : Except TerminalControlError α
  state : TerminalControlState
  usedId : Bool

def stopObserving (state : TerminalControlState) (principalId connectionId : String) :
    TerminalControlState :=
  match heldLease state.observers principalId connectionId with
  | some observer => { state with observers := state.observers.shiftRemove observer.leaseId }
  | none => state

def openGeneration (state : TerminalControlState) : TerminalControlState :=
  if state.primaryWriterId.isNone then
    { state with leaseGeneration := nextGeneration state.leaseGeneration }
  else state

def acquireWriter (state : TerminalControlState) (request : TerminalLeaseRequest)
    (terms : LeaseTerms) (nextId : String) : Outcome RuntimeTerminalLease :=
  match heldLease state.writers request.principalId request.connectionId with
  | some existing =>
    let (result, state) := state.renewLease existing.leaseId terms
    ⟨result, state, false⟩
  | none =>
    let state := (state.stopObserving request.principalId request.connectionId).openGeneration
    let lease := state.newLease request state.leaseGeneration terms nextId
    ⟨.ok lease,
      { state with
        writers := state.writers.insert lease.leaseId lease
        primaryWriterId :=
          if state.primaryWriterId.isNone then some lease.leaseId else state.primaryWriterId },
      true⟩

def acquireObserver (state : TerminalControlState) (request : TerminalLeaseRequest)
    (terms : LeaseTerms) (nextId : String) : Outcome RuntimeTerminalLease :=
  match heldLease state.observers request.principalId request.connectionId with
  | some existing =>
    let (result, state) := state.renewLease existing.leaseId terms
    ⟨result, state, false⟩
  | none =>
    let lease := state.newLease request state.leaseGeneration terms nextId
    ⟨.ok lease, { state with observers := state.observers.insert lease.leaseId lease }, true⟩

def acquire (state : TerminalControlState) (request : TerminalLeaseRequest)
    (terms : LeaseTerms) (nextId : String) : Outcome RuntimeTerminalLease :=
  let state := state.purge terms.now
  match request.mode with
  | .writer => state.acquireWriter request terms nextId
  | .observer => state.acquireObserver request terms nextId

def renew (state : TerminalControlState) (terminalId leaseId principalId connectionId : String)
    (terms : LeaseTerms) : Outcome RuntimeTerminalLease :=
  let state := state.purge terms.now
  match state.findLease leaseId with
  | none => ⟨.error (controlError .writerLeaseStale terminalId
      "terminal lease is missing or expired" (some leaseId)), state, false⟩
  | some lease =>
    if !lease.heldBy principalId connectionId then
      ⟨.error (controlError .writerLeaseStale terminalId
        "terminal lease belongs to another connection" (some leaseId)), state, false⟩
    else
      let (result, state) := state.renewLease leaseId terms
      ⟨result, state, false⟩

def release (state : TerminalControlState)
    (terminalId leaseId principalId connectionId : String) : Outcome Unit :=
  match state.findLease leaseId with
  | none => ⟨.ok (), state, false⟩
  | some lease =>
    if !lease.heldBy principalId connectionId then
      ⟨.error (controlError .leaseNotHeld terminalId
        "terminal lease belongs to another connection" (some leaseId)), state, false⟩
    else
      let writers := state.writers.shiftRemove leaseId
      ⟨.ok (),
        { state with
          writers := writers
          primaryWriterId :=
            if state.writers.contains leaseId && state.primaryWriterId == some leaseId then
              writers.first?.map Prod.fst
            else state.primaryWriterId
          observers := state.observers.shiftRemove leaseId },
        false⟩

/-- A terminal without the leases of a connection that is gone, and whether it wrote. -/
def withoutConnection (state : TerminalControlState) (connectionId : String) :
    TerminalControlState × Bool :=
  let gone := state.writers.retain fun _ lease => lease.connectionId == connectionId
  let writers := state.writers.retain fun _ lease => lease.connectionId != connectionId
  let primaryWriterId := state.primaryWriterId.filter fun id => !gone.contains id
  ({ state with
      writers := writers
      observers := state.observers.retain fun _ lease => lease.connectionId != connectionId
      primaryWriterId := primaryWriterId.or (writers.first?.map Prod.fst) },
    !gone.isEmpty)

def promoteObserver (state : TerminalControlState) (observer : RuntimeTerminalLease)
    (terms : LeaseTerms) (nextId : String) : TerminalControlState :=
  let state := { state with
    observers := state.observers.dropFirst
    leaseGeneration := nextGeneration state.leaseGeneration }
  let promoted := state.newLease ⟨observer.terminalId, observer.terminalEpoch,
    observer.principalId, observer.connectionId, .writer⟩ state.leaseGeneration terms nextId
  { state with
    writers := state.writers.insert promoted.leaseId promoted
    primaryWriterId := some promoted.leaseId }

def promote (state : TerminalControlState) (terms : LeaseTerms) (nextId : String) :
    TerminalControlState × Bool :=
  match state.observers.first? with
  | none => (state, false)
  | some (_, observer) => (state.promoteObserver observer terms nextId, true)

def releaseConnection (state : TerminalControlState) (connectionId : String)
    (terms : LeaseTerms) (nextId : String) : TerminalControlState × Bool :=
  let (state, writerDisconnected) := (state.purge terms.now).withoutConnection connectionId
  if writerDisconnected && state.writers.isEmpty then state.promote terms nextId
  else (state, false)

def forceTakeover (state : TerminalControlState)
    (terminalId terminalEpoch principalId connectionId : String) (terms : LeaseTerms)
    (leaseId : String) : RuntimeTerminalLease × TerminalControlState :=
  let state := { state with primaryWriterId := none, writers := .empty }
  let state := { state with
    observers := state.observers.retain fun _ lease => !lease.heldBy principalId connectionId
    leaseGeneration := nextGeneration state.leaseGeneration }
  let lease := state.newLease ⟨terminalId, terminalEpoch, principalId, connectionId, .writer⟩
    state.leaseGeneration terms leaseId
  (lease, { state with
    writers := state.writers.insert lease.leaseId lease
    primaryWriterId := some lease.leaseId })

def transferable (state : TerminalControlState)
    (terminalId leaseId principalId connectionId : String) : Except TerminalControlError Unit :=
  match state.writers.get? leaseId with
  | none => .error (controlError .writerLeaseStale terminalId
      "only the active writer can transfer control" (some leaseId))
  | some writer =>
    if !writer.heldBy principalId connectionId then
      .error (controlError .leaseNotHeld terminalId
        "terminal lease belongs to another connection" (some leaseId))
    else .ok ()

/-- A new command id goes to the end; the oldest ones leave while the window
is too long. -/
def acceptCommand (commandIds : IndexMap String Int) (commandId : String) (now : Int) :
    IndexMap String Int :=
  (commandIds.insert commandId now).keepLast maxCommandIds

def matchesFence (writer : RuntimeTerminalLease) (fence : TerminalMutationFence) : Bool :=
  writer.terminalEpoch == fence.terminalEpoch &&
    writer.leaseGeneration == fence.leaseGeneration &&
    writer.heldBy fence.principalId fence.connectionId

def authorizeMutation (state : TerminalControlState) (fence : TerminalMutationFence)
    (terms : LeaseTerms) : Outcome RuntimeTerminalLease :=
  let state := state.purge terms.now
  match state.writers.get? fence.leaseId with
  | none =>
    let hasWriter := state.primaryWriterId.isSome || !state.writers.isEmpty
    ⟨.error (if hasWriter then
        controlError .writerLeaseStale fence.terminalId "terminal mutation fence is stale"
          (some fence.leaseId)
      else controlError .writerLeaseRequired fence.terminalId
        "an active writer lease is required" (some fence.leaseId)), state, false⟩
  | some writer =>
    if !matchesFence writer fence then
      ⟨.error (controlError .writerLeaseStale fence.terminalId
        "terminal mutation fence is stale" (some fence.leaseId)), state, false⟩
    else if state.commandIds.contains fence.commandId then
      ⟨.error (controlError .commandDuplicate fence.terminalId
        "terminal command ID was already accepted" (some fence.leaseId)), state, false⟩
    else
      let state := { state with
        commandIds := acceptCommand state.commandIds fence.commandId terms.now }
      let (result, state) := state.renewLease fence.leaseId terms
      ⟨result, state, false⟩

def writer (state : TerminalControlState) : Option RuntimeTerminalLease :=
  state.primaryWriterId.bind state.writers.get?

def list (state : TerminalControlState) : List RuntimeTerminalLease :=
  state.writers.values ++ state.observers.values

end TerminalControlState

/-! ## The registry -/

structure TerminalControlRegistry where
  terminals : IndexMap String TerminalControlState
  leaseTtlMs : Int
  /-- the clock, and how often it was read -/
  clock : Nat → Int
  reads : Nat
  /-- the source of ids, and how many it gave -/
  makeId : Nat → String
  made : Nat
  iso : Int → String

namespace TerminalControlRegistry

open TerminalControlState (controlError)

def defaultLeaseTtlMs : Int := 15000

def new (clock : Nat → Int) (makeId : Nat → String) (iso : Int → String) :
    TerminalControlRegistry where
  terminals := .empty
  leaseTtlMs := defaultLeaseTtlMs
  clock := clock
  reads := 0
  makeId := makeId
  made := 0
  iso := iso

variable (registry : TerminalControlRegistry)

def terms : LeaseTerms := ⟨registry.clock registry.reads, registry.leaseTtlMs, registry.iso⟩

def nextId : String := registry.makeId registry.made

def tick : TerminalControlRegistry := { registry with reads := registry.reads + 1 }

def commit (terminalId : String) (state : TerminalControlState) (usedId : Bool) :
    TerminalControlRegistry :=
  { registry with
    terminals := registry.terminals.insert terminalId state
    made := if usedId then registry.made + 1 else registry.made }

def registerTerminal (terminalId terminalEpoch : String) :
    Except TerminalControlError Unit × TerminalControlRegistry :=
  if terminalId.isEmpty || terminalEpoch.isEmpty then
    (.error (controlError .terminalNotFound terminalId "terminal ID and epoch are required" none),
      registry)
  else match registry.terminals.get? terminalId with
    | some existing =>
      if existing.terminalEpoch != terminalEpoch then
        (.error (controlError .terminalEpochStale terminalId
          "terminal ID is already registered to another epoch" none), registry)
      else (.ok (), registry)
    | none => (.ok (), registry.commit terminalId (.registered terminalEpoch) false)

def unregisterTerminal (terminalId : String) (terminalEpoch : Option String) :
    TerminalControlRegistry :=
  match registry.terminals.get? terminalId with
  | some state =>
    if terminalEpoch.all fun epoch => state.terminalEpoch == epoch then
      { registry with terminals := registry.terminals.shiftRemove terminalId }
    else registry
  | none => registry

def stateOf (terminalId : String) : Except TerminalControlError TerminalControlState :=
  match registry.terminals.get? terminalId with
  | some state => .ok state
  | none => .error (controlError .terminalNotFound terminalId
      "terminal control state is not registered" none)

def stateForEpoch (terminalId terminalEpoch : String) :
    Except TerminalControlError TerminalControlState :=
  match registry.stateOf terminalId with
  | .error error => .error error
  | .ok state =>
    if state.terminalEpoch != terminalEpoch then
      .error (controlError .terminalEpochStale terminalId
        "terminal epoch does not match the owner state" none)
    else .ok state

def operate {α : Type} (terminalId terminalEpoch : String)
    (operation : TerminalControlState → TerminalControlState.Outcome α) :
    Except TerminalControlError α × TerminalControlRegistry :=
  match registry.stateForEpoch terminalId terminalEpoch with
  | .error error => (.error error, registry)
  | .ok state =>
    let outcome := operation state
    (outcome.result, registry.commit terminalId outcome.state outcome.usedId)

def acquire (request : TerminalLeaseRequest) :
    Except TerminalControlError RuntimeTerminalLease × TerminalControlRegistry :=
  registry.tick.operate request.terminalId request.terminalEpoch fun state =>
    state.acquire request registry.terms registry.nextId

def renew (terminalId terminalEpoch leaseId principalId connectionId : String) :
    Except TerminalControlError RuntimeTerminalLease × TerminalControlRegistry :=
  registry.tick.operate terminalId terminalEpoch fun state =>
    state.renew terminalId leaseId principalId connectionId registry.terms

def release (terminalId terminalEpoch leaseId principalId connectionId : String) :
    Except TerminalControlError Unit × TerminalControlRegistry :=
  registry.operate terminalId terminalEpoch fun state =>
    state.release terminalId leaseId principalId connectionId

def releaseEach (connectionId : String) (terms : LeaseTerms) :
    List String → TerminalControlRegistry → TerminalControlRegistry
  | [], registry => registry
  | terminalId :: rest, registry =>
    match registry.terminals.get? terminalId with
    | none => releaseEach connectionId terms rest registry
    | some state =>
      let (state, usedId) := state.releaseConnection connectionId terms registry.nextId
      releaseEach connectionId terms rest (registry.commit terminalId state usedId)

def releaseConnection (connectionId : String) : TerminalControlRegistry :=
  releaseEach connectionId registry.terms (registry.terminals.entries.map Prod.fst) registry.tick

def forceTakeover (terminalId terminalEpoch principalId connectionId : String) :
    Except TerminalControlError RuntimeTerminalLease × TerminalControlRegistry :=
  let leaseId := registry.nextId
  let after := { registry.tick with made := registry.made + 1 }
  after.operate terminalId terminalEpoch fun state =>
    let (lease, state) :=
      state.forceTakeover terminalId terminalEpoch principalId connectionId registry.terms leaseId
    ⟨.ok lease, state, false⟩

def transfer (terminalId terminalEpoch leaseId principalId connectionId
    targetPrincipalId targetConnectionId : String) :
    Except TerminalControlError RuntimeTerminalLease × TerminalControlRegistry :=
  match registry.tick.operate terminalId terminalEpoch fun state =>
      let state := state.purge registry.terms.now
      ⟨state.transferable terminalId leaseId principalId connectionId, state, false⟩ with
  | (.error error, registry) => (.error error, registry)
  | (.ok (), registry) =>
    registry.forceTakeover terminalId terminalEpoch targetPrincipalId targetConnectionId

def authorizeMutation (fence : TerminalMutationFence) :
    Except TerminalControlError RuntimeTerminalLease × TerminalControlRegistry :=
  registry.tick.operate fence.terminalId fence.terminalEpoch fun state =>
    state.authorizeMutation fence registry.terms

def inspect {α : Type} (terminalId : String) (read : TerminalControlState → α) :
    Except TerminalControlError α × TerminalControlRegistry :=
  match registry.stateOf terminalId with
  | .error error => (.error error, registry.tick)
  | .ok state =>
    let state := state.purge registry.terms.now
    (.ok (read state), registry.tick.commit terminalId state false)

def writer (terminalId : String) :
    Except TerminalControlError (Option RuntimeTerminalLease) × TerminalControlRegistry :=
  registry.inspect terminalId TerminalControlState.writer

def list (terminalId : String) :
    Except TerminalControlError (List RuntimeTerminalLease) × TerminalControlRegistry :=
  registry.inspect terminalId TerminalControlState.list

end TerminalControlRegistry

end Yaade.Terminal

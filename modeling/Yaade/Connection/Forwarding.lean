import Yaade.Connection.EventHub
import Yaade.Runtime.Dispatch
import Yaade.Library.Transition

/-!
The start of a connection and what it forwards, beside requests that mutate
the store and emit.
-/

namespace Yaade.Connection

open Yaade.Library Yaade.Store Yaade.Runtime

/-! ## The client's filter and the server's -/

/-- Whether a client takes an event: nothing at or below the last sequence it
took, and nothing of another server. -/
def acceptHostEvent (lastSequence : Nat) (message : HostEvent)
    (identity : Option ServerIdentity) : Bool :=
  if message.sequence ≤ lastSequence then false
  else if message.protocolVersion = 1 then true
  else match identity with
    | some identity => message.serverId == some identity.serverId &&
        message.serverEpoch == some identity.serverEpoch
    | none => false

/-- A client with the events it took. -/
structure EventClient where
  identity : Option ServerIdentity
  lastSequence : Nat
  kept : List HostEvent
  deriving DecidableEq

def EventClient.receive (client : EventClient) (message : HostEvent) : EventClient :=
  if acceptHostEvent client.lastSequence message client.identity then
    { client with lastSequence := message.sequence, kept := client.kept ++ [message] }
  else client

/-- What the connection does with a broadcast event. -/
inductive Forwarding where
  | skip
  | revoked
  | send (event : HostEvent)
  deriving DecidableEq

def forwarding (protocol snapshotSequence : Nat) (deviceId : Option String)
    (event : HostEvent) : Forwarding :=
  if protocol = 2 ∧ event.sequence ≤ snapshotSequence then .skip
  else if event.channel = "security:device-revoked" then
    let revoked := event.args.head?.bind EventArg.asStr?
    if revoked = deviceId then .revoked else .skip
  else if event.channel = "terminal:semantic" then .skip
  else .send (if protocol = 1 then event.legacy else event)

/-! ## The world -/

/-- What is fixed for a connection. -/
structure ConnectionSetup where
  protocol : Nat
  since : Nat
  deviceId : Option String
  channelCapacity : Nat

/-- An emitted event, with the number of catalogs there had been by then: the
mutations its operation made before are among those that led to them. -/
structure Emission where
  event : HostEvent
  catalogs : Nat

/-- `seen` is the number of catalogs up to the one the sessions were read of. -/
structure RuntimeSnapshot where
  cursor : Nat
  sessions : List SessionSnapshot
  seen : Nat

inductive StartPhase where
  | connecting
  | subscribed
  | cursorRead (cursor : Nat)
  | serving
  | closed
  deriving DecidableEq

/-- `catalogs` lists the catalog at the start and after each store call. -/
structure EventWorld : Type 1 where
  hub : EventHub
  catalog : PersistedState
  catalogs : List PersistedState
  requests : Nat → Program HostEffect (Except RuntimeError MuxReply)
  emissions : List Emission
  phase : StartPhase
  receiver : Option Receiver
  snapshot : Option RuntimeSnapshot
  gap : Option HostEvent
  sent : List HostEvent
  client : EventClient

/-- How the surroundings answer the next call of a request. -/
structure CallAnswers where
  env : StoreEnv
  created : Except TerminalError TerminalCreateResult
  disposed : Except TerminalError Unit

inductive WorldAction where
  | call (request : Nat) (answers : CallAnswers)
  | emit (channel : String) (args : List EventArg)
  | emitTerminal
  | subscribe
  | readCursor
  | readSessions
  | replay
  | receive (accepted : Bool)
  | disconnect

namespace EventWorld

def publish (lengths : EventArg → Nat) (world : EventWorld) (channel : String)
    (args : List EventArg) : EventWorld :=
  let (event, hub) := world.hub.emit lengths channel args
  { world with
    hub := hub
    emissions := world.emissions ++ [⟨event, world.catalogs.length⟩]
    receiver := world.receiver.map fun receiver => receiver.send event }

def resume (world : EventWorld) (request : Nat)
    (rest : Program HostEffect (Except RuntimeError MuxReply)) : EventWorld :=
  { world with requests := Function.update world.requests request rest }

def call (lengths : EventArg → Nat) (world : EventWorld) (request : Nat)
    (answers : CallAnswers) : Option EventWorld :=
  match world.requests request with
  | .done _ => none
  | .call (.store call) k =>
    let (answer, catalog) := call.perform answers.env world.catalog
    some ({ world with catalog, catalogs := world.catalogs ++ [catalog] }.resume request
      (k answer))
  | .call (.emit event) k =>
    some ((world.publish lengths "mux:event" [.mux event]).resume request (k ()))
  | .call (.create _) k => some (world.resume request (k answers.created))
  | .call (.dispose _) k => some (world.resume request (k answers.disposed))

def deliver (world : EventWorld) (messages : List HostEvent) : EventWorld :=
  { world with
    sent := world.sent ++ messages
    client := messages.foldl EventClient.receive world.client }

def close (world : EventWorld) : EventWorld := { world with phase := .closed }

def gapNotice (window : ReplayWindow) : HostEvent :=
  ⟨1, none, none, window.replayFloor - 1, "protocol:replay-gap",
    [.number window.replayFloor, .number window.lastSequence]⟩

def replay (setup : ConnectionSetup) (world : EventWorld) : EventWorld :=
  let window := world.hub.replayWindow setup.since
  let gap := if window.historyEvicted then some (gapNotice window) else none
  { world with phase := .serving, gap := gap }.deliver
    (gap.toList ++ window.events.map HostEvent.legacy)

/-- One turn of the forwarding loop. `accepted` is the answer of the outbound
lane, which is full at times. -/
def receive (setup : ConnectionSetup) (world : EventWorld) (accepted : Bool) :
    Option EventWorld :=
  match world.receiver.bind Receiver.recv with
  | none => none
  | some (.lagged, receiver) => some { world with receiver := some receiver }.close
  | some (.event event, receiver) =>
    let world := { world with receiver := some receiver }
    match forwarding setup.protocol (world.snapshot.elim 0 RuntimeSnapshot.cursor)
        setup.deviceId event with
    | .skip => some world
    | .revoked => some world.close
    | .send event => some (if accepted then world.deliver [event] else world.close)

def step (lengths : EventArg → Nat) (setup : ConnectionSetup) (world : EventWorld) :
    WorldAction → Option EventWorld
  | .call request answers => world.call lengths request answers
  | .emit channel args => some (world.publish lengths channel args)
  | .emitTerminal => some { world with hub := world.hub.emitTerminal.2 }
  | .subscribe =>
    if world.phase = .connecting then
      some { world with
        phase := .subscribed, receiver := some ⟨setup.channelCapacity, [], false⟩ }
    else none
  | .readCursor =>
    if setup.protocol = 2 ∧ world.phase = .subscribed then
      some { world with phase := .cursorRead world.hub.lastSequence }
    else none
  | .readSessions =>
    match world.phase with
    | .cursorRead cursor =>
      some { world with
        phase := .serving
        snapshot := some ⟨cursor, listSnapshots world.catalog false, world.catalogs.length⟩
        client := { world.client with lastSequence := cursor } }
    | _ => none
  | .replay =>
    if setup.protocol = 1 ∧ world.phase = .subscribed then some (world.replay setup) else none
  | .receive accepted =>
    if world.phase = .serving then world.receive setup accepted else none
  | .disconnect => some world.close

end EventWorld

/-- Before anybody connects. The requests may be any programs of calls. -/
structure EventWorld.Started (setup : ConnectionSetup) (world : EventWorld) : Prop where
  hub : ∃ identity capacity maxHistoryBytes,
    world.hub = .withLimits identity capacity maxHistoryBytes
  catalogs : world.catalogs = [world.catalog]
  emissions : world.emissions = []
  phase : world.phase = .connecting
  receiver : world.receiver = none
  snapshot : world.snapshot = none
  gap : world.gap = none
  sent : world.sent = []
  client : world.client = ⟨some world.hub.identity, setup.since, []⟩

def connectionSystem (lengths : EventArg → Nat) (setup : ConnectionSetup) :
    System EventWorld WorldAction where
  initial := EventWorld.Started setup
  step := EventWorld.step lengths setup

end Yaade.Connection

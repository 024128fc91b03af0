import Yaade.Library.IndexMap
import Yaade.Terminal.Owner
import Yaade.Library.Transition

/-!
The desktop client: a socket thread that attaches to the PTYs of the host and
records how far it has read each of them, and a UI thread that keeps a view of
each terminal of the last snapshot.
-/

namespace Yaade.Desktop

open Library Terminal

structure MuxTerminal where
  id : String
  position : Nat
  ptyId : Option String
  archivedAt : Option String
  deriving DecidableEq

structure SessionSnapshot where
  position : Nat
  archivedAt : Option String
  muxTerminals : List MuxTerminal
  deriving DecidableEq

inductive SocketAction where
  | attach (ptyId : String)
  | input (ptyId : String) (bytes : List UInt8)
  | resize (ptyId : String) (cols rows : Nat)
  deriving DecidableEq

/-- What the threads tell the UI thread. A replay remembers whether its attach
asked for all the output; the client does not look at that. -/
inductive HostEvent where
  | connecting
  | connected
  | offline (error : String)
  | snapshots (snapshots : List SessionSnapshot)
  | refreshRequested
  | terminalReplay (ptyId : String) (chunks : List (List UInt8)) (cols rows : Nat) (whole : Bool)
  | terminalOutput (ptyId : String) (bytes : List UInt8)
  | actionFailed (error : String)
  deriving DecidableEq

/-- A view with what was queued to it since it was created. The last two fields
are the proof's own: whether a replay of all the output reached the view, and
whether an attach that asked for it failed while the view was there. -/
structure NativeTerminal where
  ptyId : String
  queued : List (List UInt8)
  cols : Nat
  rows : Nat
  replayed : Bool
  failed : Bool
  deriving DecidableEq

/-- Requests are numbered within a connection; those of a replay notice have a
fresh uuid, of which no two are equal. -/
inductive RequestId where
  | numbered (sequence : Nat)
  | reattach (uuid : Nat)
  deriving DecidableEq

/-- The PTY of a request and the sequence after which it asks. The client
remembers only the PTY; the host reads both. -/
structure AttachRequest where
  ptyId : String
  lastSequence : Nat
  deriving DecidableEq

structure World where
  terminals : IndexMap String NativeTerminal
  attachedPtys : List String
  actions : List SocketAction
  events : List HostEvent
  connected : Bool
  sequence : Nat
  uuids : Nat
  pendingAttach : IndexMap RequestId AttachRequest
  subscriptions : IndexMap String Nat
  deriving DecidableEq

def liveTerminals (snapshots : List SessionSnapshot) : List (String × String) :=
  (sortBy SessionSnapshot.position
    (snapshots.filter fun snapshot => snapshot.archivedAt.isNone)).flatMap fun snapshot =>
      (sortBy MuxTerminal.position
        (snapshot.muxTerminals.filter fun terminal => terminal.archivedAt.isNone)).filterMap
          fun terminal => terminal.ptyId.map fun ptyId => (terminal.id, ptyId)

def replayChunks (attach : TerminalAttach) : List (List UInt8) :=
  (attach.checkpoint.map TerminalCheckpoint.syntheticBytes).toList ++ attach.outputChunks ++
    if attach.output.isEmpty then [] else [attach.output]

namespace World

def start : World :=
  ⟨.empty, [], [], [], false, 0, 0, .empty, .empty⟩

variable (world : World)

def recorded (ptyId : String) : Nat :=
  (world.subscriptions.get? ptyId).getD 0

def emit (event : HostEvent) : World :=
  { world with events := world.events ++ [event] }

/-! ## The UI thread -/

/-- A terminal that shows the PTY. The client's map has no order, so which one
it finds is open where several do. -/
def terminalForPty (ptyId : String) : Option (String × NativeTerminal) :=
  world.terminals.entries.find? fun entry => entry.2.ptyId = ptyId

def updateTerminal (ptyId : String) (f : NativeTerminal → NativeTerminal) : World :=
  match world.terminalForPty ptyId with
  | some entry => { world with terminals := world.terminals.modify entry.1 f }
  | none => world

def isShown (terminal : String × String) : Bool :=
  match world.terminals.get? terminal.1 with
  | some shown => shown.ptyId = terminal.2
  | none => false

def openTerminal (terminal : String × String) : World :=
  if world.isShown terminal then world
  else
    { world with
      terminals := world.terminals.insert terminal.1 ⟨terminal.2, [], 80, 24, false, false⟩
      attachedPtys :=
        if terminal.2 ∈ world.attachedPtys then world.attachedPtys
        else terminal.2 :: world.attachedPtys
      actions :=
        if terminal.2 ∈ world.attachedPtys then world.actions
        else world.actions ++ [.attach terminal.2] }

def retainTerminals (live : List (String × String)) : World :=
  { world with terminals := world.terminals.retain fun id _ => id ∈ live.map Prod.fst }

def openTerminals (terminals : List (String × String)) : World :=
  terminals.foldl openTerminal world

def applySnapshots (snapshots : List SessionSnapshot) : World :=
  (world.retainTerminals (liveTerminals snapshots)).openTerminals (liveTerminals snapshots)

def handleEvent : HostEvent → World
  | .snapshots snapshots => world.applySnapshots snapshots
  | .terminalReplay ptyId chunks cols rows whole =>
    world.updateTerminal ptyId fun terminal =>
      { terminal with
        queued := terminal.queued ++ chunks
        cols := cols
        rows := rows
        replayed := terminal.replayed || whole }
  | .terminalOutput ptyId bytes =>
    world.updateTerminal ptyId fun terminal =>
      { terminal with queued := terminal.queued ++ [bytes] }
  | _ => world

/-! ## The socket thread -/

def request (ptyId : String) (lastSequence : Nat) : World :=
  { world with
    sequence := world.sequence + 1
    pendingAttach := world.pendingAttach.insert (.numbered (world.sequence + 1))
      ⟨ptyId, lastSequence⟩ }

def requestAll (subscriptions : List (String × Nat)) : World :=
  subscriptions.foldl (fun world entry => world.request entry.1 entry.2) world

def connect : World :=
  ({ world with connected := true, sequence := 0, pendingAttach := .empty } : World).requestAll
    world.subscriptions.entries

/-- The views of a PTY learn that an attach that asked for all its output is
lost. -/
def lose (request : AttachRequest) : World :=
  if request.lastSequence = 0 then
    { world with
      terminals := world.terminals.mapValues fun terminal =>
        if terminal.ptyId = request.ptyId then { terminal with failed := true } else terminal }
  else world

def loseAll (requests : List AttachRequest) : World :=
  requests.foldl lose world

def disconnect : World :=
  ({ world with connected := false, pendingAttach := .empty } : World).loseAll
    world.pendingAttach.values

def handleAction : SocketAction → World
  | .attach ptyId =>
    ({ world with
      subscriptions :=
        if world.subscriptions.contains ptyId then world.subscriptions
        else world.subscriptions.insert ptyId 0 } : World).request ptyId (world.recorded ptyId)
  | .input _ _ => { world with sequence := world.sequence + 1 }
  | .resize _ _ _ => { world with sequence := world.sequence + 1 }

/-- A `terminal:result` that is ok: the truncation and the archive of the
answer are not looked at. -/
def attached (id : RequestId) (attach : TerminalAttach) : World :=
  match world.pendingAttach.get? id with
  | some request =>
    ({ world with
      pendingAttach := world.pendingAttach.shiftRemove id
      subscriptions := world.subscriptions.insert request.ptyId attach.lastSequence } :
      World).emit (.terminalReplay attach.id (replayChunks attach) attach.cols attach.rows
        (request.lastSequence = 0))
  | none => world

def refused (id : RequestId) (message : String) : World :=
  match world.pendingAttach.get? id with
  | some request =>
    (({ world with pendingAttach := world.pendingAttach.shiftRemove id } : World).lose
      request).emit (.actionFailed message)
  | none => world

def frame (ptyId : String) (terminalSequence : Nat) (payload : List UInt8) : World :=
  ({ world with
    subscriptions :=
      match world.subscriptions.get? ptyId with
      | some sequence => world.subscriptions.insert ptyId (max sequence terminalSequence)
      | none => world.subscriptions.insert ptyId terminalSequence } : World).emit
    (.terminalOutput ptyId payload)

def replayRequired (ptyId : String) : World :=
  { world with
    uuids := world.uuids + 1
    pendingAttach := world.pendingAttach.insert (.reattach world.uuids)
      ⟨ptyId, world.recorded ptyId⟩ }

end World

/-- What the host is when it answers an attach. -/
structure Host (Screen : Type) where
  entry : TerminalEntry
  state : EntryState Screen
  archiveAvailable : Bool
  clientId : String

inductive Action (Screen : Type) where
  | notify (event : HostEvent)
  | handleEvent
  | write (action : SocketAction)
  | connect
  | disconnect
  | takeAction
  | attached (id : RequestId) (host : Host Screen)
  | refused (id : RequestId) (message : String)
  | frame (ptyId : String) (terminalSequence : Nat)
  | replayRequired (ptyId : String)

def World.answer {Screen : Type} (world : World) (id : RequestId) (host : Host Screen) :
    TerminalAttach :=
  attachReply host.entry host.state host.archiveAvailable host.clientId
    (UInt64.ofNat (((world.pendingAttach.get? id).map AttachRequest.lastSequence).getD 0))

/-- The bytes of a replay or a frame come from the host alone, and an attach
from a snapshot alone. -/
def Action.isOutside {Screen : Type} : Action Screen → Bool
  | .notify (.terminalReplay _ _ _ _ _) | .notify (.terminalOutput _ _) | .write (.attach _) => false
  | _ => true

/-- The two threads against a host whose PTYs put out `output`. The messages
of the host arrive in any order. -/
def desktopSystem (Screen : Type) (output : String → Nat → List UInt8) :
    System World (Action Screen) where
  initial world := world = .start
  step world action :=
    if action.isOutside then
      match action with
      | .notify event => some (world.emit event)
      | .handleEvent =>
        match world.events with
        | [] => none
        | event :: rest => some (({ world with events := rest } : World).handleEvent event)
      | .write action => some { world with actions := world.actions ++ [action] }
      | .connect => if world.connected then none else some world.connect
      | .disconnect => if world.connected then some world.disconnect else none
      | .takeAction =>
        match world.actions with
        | [] => none
        | action :: rest =>
          if world.connected then
            some (({ world with actions := rest } : World).handleAction action)
          else none
      | .attached id host =>
        if world.connected then some (world.attached id (world.answer id host)) else none
      | .refused id message => if world.connected then some (world.refused id message) else none
      | .frame ptyId terminalSequence =>
        if world.connected then
          some (world.frame ptyId terminalSequence (output ptyId terminalSequence))
        else none
      | .replayRequired ptyId =>
        if world.connected then some (world.replayRequired ptyId) else none
    else none

end Yaade.Desktop

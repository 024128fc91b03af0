import Yaade.Terminal.Control
import Yaade.Store.Model

/-!
The owner of one terminal: its state, the commands it is sent and what one
command does to the state, to the lease registry and to the PTY.
-/

namespace Yaade.Terminal

open Yaade.Library

def maxReplayBytes : Nat := 2 * 1024 * 1024
def exitedReplayBytes : Nat := 256 * 1024
def checkpointBytes : Nat := 512 * 1024

structure TerminalColor where
  r : UInt8
  g : UInt8
  b : UInt8
  deriving DecidableEq

structure TerminalTheme where
  foreground : TerminalColor
  background : TerminalColor
  cursor : TerminalColor
  deriving DecidableEq

inductive TerminalProcessStatus where
  | running
  | exited
  deriving DecidableEq

structure TerminalCheckpoint where
  checkpointVersion : Nat
  terminalEpoch : String
  sequence : Nat
  cols : Nat
  rows : Nat
  createdAt : String
  syntheticBytes : List UInt8
  deriving DecidableEq

structure TerminalInspect where
  id : String
  title : Option String
  status : TerminalProcessStatus
  exitCode : Option Int
  signal : Option Int
  spawnCommand : Option String
  spawnCwd : String
  osPid : Option Nat
  processIdentity : Option Store.ProcessIdentity
  terminalEpoch : String
  deriving DecidableEq

structure TerminalAttach where
  id : String
  title : Option String
  terminalEpoch : String
  checkpoint : Option TerminalCheckpoint
  replayQuality : String
  outputChunks : List (List UInt8)
  output : List UInt8
  replayTruncated : Bool
  replayNeedsQueryResponses : Bool
  archiveAvailable : Bool
  lastSequence : Nat
  cols : Nat
  rows : Nat
  status : TerminalProcessStatus
  exitCode : Option Int
  signal : Option Int
  deriving DecidableEq

inductive TerminalError where
  | notFound (id : String)
  | invalid (message : String)
  | runtime (message : String)
  | control (error : TerminalControlError)
  deriving DecidableEq

structure ReplayChunk where
  sequence : Nat
  data : List UInt8
  deriving DecidableEq

/-- The state of a terminal whose recorder, if it has one, shows a `Screen`. -/
structure EntryState (Screen : Type) where
  status : TerminalProcessStatus
  exitCode : Option Int
  signal : Option Int
  sequence : Nat
  replay : List ReplayChunk
  replayBytes : Nat
  replayTruncated : Bool
  cols : Nat
  rows : Nat
  disposed : Bool
  replayReadyClients : List String
  terminalTheme : TerminalTheme
  themeUpdatesEnabled : Bool
  liveCwd : Option String
  recorder : Option Screen
  checkpoint : Option TerminalCheckpoint
  bytesSinceCheckpoint : Nat
  deriving DecidableEq

structure TerminalEntry where
  id : String
  title : Option String
  terminalEpoch : String
  spawnCommand : Option String
  spawnCwd : String
  osPid : Option Nat
  processIdentity : Option Store.ProcessIdentity
  deriving DecidableEq

/-- A command and the channel its reply goes to. -/
inductive TerminalCommand where
  | inspect (reply : Nat)
  | write (data : List UInt8) (reply : Nat)
  | authorize (principalId connectionId : String) (fence : Option TerminalMutationFence)
      (reply : Nat)
  | authorizeAndWrite (principalId connectionId : String) (fence : Option TerminalMutationFence)
      (data : List UInt8) (reply : Nat)
  | setTheme (theme : TerminalTheme) (reply : Nat)
  | resize (cols rows : Nat) (reply : Nat)
  | authorizeAndResize (principalId connectionId : String) (fence : Option TerminalMutationFence)
      (cols rows : Nat) (reply : Nat)
  | attach (clientId : String) (afterSequence : UInt64) (reply : Nat)
  | markReplayReady (clientId : String) (reply : Nat)
  | detach (clientId : String) (reply : Nat)
  | dispose (reply : Nat)
  | authorizeAndDispose (principalId connectionId : String) (fence : Option TerminalMutationFence)
      (reply : Nat)
  | getLiveCwd (reply : Nat)
  | acquireLease (request : TerminalLeaseRequest) (reply : Nat)
  | renewLease (leaseId principalId connectionId : String) (reply : Nat)
  | releaseLease (leaseId principalId connectionId : String) (reply : Nat)
  | takeover (principalId connectionId : String) (reply : Nat)
  | transfer (leaseId principalId connectionId targetConnectionId : String) (reply : Nat)
  | listLeases (reply : Nat)
  | releaseConnection (connectionId : String)
  deriving DecidableEq

/-- Who asks for a mutation, and the fence that came with it. -/
structure Caller where
  principalId : String
  connectionId : String
  fence : Option TerminalMutationFence
  deriving DecidableEq

def TerminalCommand.caller : TerminalCommand → Option Caller
  | .authorize principalId connectionId fence _
  | .authorizeAndWrite principalId connectionId fence _ _
  | .authorizeAndResize principalId connectionId fence _ _ _
  | .authorizeAndDispose principalId connectionId fence _ =>
    some ⟨principalId, connectionId, fence⟩
  | _ => none

inductive TerminalReply where
  | inspect (result : Except TerminalError TerminalInspect)
  | done (result : Except TerminalError Unit)
  | lease (result : Except TerminalError RuntimeTerminalLease)
  | attach (result : Except TerminalError TerminalAttach)
  | liveCwd (result : Except TerminalError (Option String))
  | leases (result : Except TerminalError (List RuntimeTerminalLease))
  deriving DecidableEq

/-! ## The surroundings -/

/-- The terminal emulator that records the screen. -/
structure Vt100 (Screen : Type) where
  setSize : (rows cols : Nat) → Screen → Screen
  process : List UInt8 → Screen → Screen
  cursorPosition : Screen → Nat × Nat
  alternateScreen : Screen → Bool
  contentsFormatted : Screen → List UInt8

/-- A write that failed after so many bytes. -/
structure WriteFailure where
  taken : Nat
  message : String

/-- What the PTY, the host and the child process answer when they are asked
for the n-th time, and the time after so many calls of the PTY. -/
structure Surroundings where
  writeFails : Nat → Option WriteFailure
  resizeFails : Nat → Option String
  hostAlive : Nat → Bool
  historyAvailable : Nat → Bool
  childExited : Nat → Bool
  killFails : Nat → Option String
  nowIso : Nat → String

structure Pty where
  written : List UInt8
  calls : Nat
  deriving DecidableEq

structure TerminalOwner (Screen : Type) where
  entry : TerminalEntry
  state : EntryState Screen
  control : TerminalControlRegistry
  pty : Pty
  /-- how often the host and the child were asked -/
  asked : Nat
  /-- the terminals whose history was asked to close -/
  closedHistory : List String

def defaultTheme : TerminalTheme := ⟨⟨238, 242, 247⟩, ⟨14, 21, 27⟩, ⟨0, 106, 222⟩⟩

def EntryState.new {Screen : Type} (cols rows : Nat) (terminalTheme : TerminalTheme)
    (recorder : Option Screen) : EntryState Screen where
  status := .running
  exitCode := none
  signal := none
  sequence := 0
  replay := []
  replayBytes := 0
  replayTruncated := false
  cols := cols
  rows := rows
  disposed := false
  replayReadyClients := []
  terminalTheme := terminalTheme
  themeUpdatesEnabled := false
  liveCwd := none
  recorder := recorder
  checkpoint := none
  bytesSinceCheckpoint := 0

def TerminalOwner.start {Screen : Type} (entry : TerminalEntry) (state : EntryState Screen)
    (control : TerminalControlRegistry) : TerminalOwner Screen where
  entry := entry
  state := state
  control := (control.registerTerminal entry.id entry.terminalEpoch).2
  pty := ⟨[], 0⟩
  asked := 0
  closedHistory := []

/-! ## Authorisation -/

def liftControl {α : Type} : Except TerminalControlError α → Except TerminalError α
  | .ok value => .ok value
  | .error error => .error (.control error)

def TerminalMutationFence.asCaller (fence : TerminalMutationFence)
    (principalId connectionId : String) : TerminalMutationFence :=
  { fence with principalId := principalId, connectionId := connectionId }

/-- With a fence the mutation has to pass it. Without one the connection keeps
its writer lease or acquires one. -/
def authorizeTerminal (control : TerminalControlRegistry) (entry : TerminalEntry)
    (principalId connectionId : String) (supplied : Option TerminalMutationFence) :
    Except TerminalError RuntimeTerminalLease × TerminalControlRegistry :=
  match supplied with
  | some fence =>
    (control.authorizeMutation (fence.asCaller principalId connectionId)).map liftControl id
  | none =>
    match control.list entry.id with
    | (.error error, control) => (.error (.control error), control)
    | (.ok leases, control) =>
      match leases.find? fun lease =>
          lease.mode == .writer && lease.heldBy principalId connectionId with
      | some existing => (.ok existing, control)
      | none =>
        (control.acquire ⟨entry.id, entry.terminalEpoch, principalId, connectionId,
          .writer⟩).map liftControl id

/-! ## The parts of a command -/

section

variable {Screen : Type} (vt : Vt100 Screen) (env : Surroundings)

def ascii (text : String) : List UInt8 := text.toList.map fun c => c.toNat.toUInt8

def clampSize (size : Nat) : Nat := max 1 (min size 1000)

def syntheticBytes (screen : Screen) : List UInt8 :=
  let (row, column) := vt.cursorPosition screen
  ascii "\x1b[0m\x1b[2J\x1b[H" ++
    ascii (if vt.alternateScreen screen then "\x1b[?1049h" else "\x1b[?1049l") ++
    vt.contentsFormatted screen ++
    ascii ("\x1b[" ++ toString (row + 1) ++ ";" ++ toString (column + 1) ++ "H")

def storeCheckpoint (terminalEpoch nowIso : String) (state : EntryState Screen) :
    EntryState Screen :=
  match state.recorder with
  | none => state
  | some screen =>
    { state with
      checkpoint := some
        { checkpointVersion := 1
          terminalEpoch := terminalEpoch
          sequence := state.sequence
          cols := state.cols
          rows := state.rows
          createdAt := nowIso
          syntheticBytes := syntheticBytes vt screen }
      bytesSinceCheckpoint := 0 }

def Pty.write (pty : Pty) (data : List UInt8) : Option String × Pty :=
  match env.writeFails pty.calls with
  | none => (none, ⟨pty.written ++ data, pty.calls + 1⟩)
  | some failure =>
    (some failure.message, ⟨pty.written ++ data.take failure.taken, pty.calls + 1⟩)

def ptyResult : Option String → Except TerminalError Unit
  | none => .ok ()
  | some message => .error (.runtime message)

def writeTerminal (owner : TerminalOwner Screen) (data : List UInt8) :
    Except TerminalError Unit × TerminalOwner Screen :=
  let (failure, pty) := owner.pty.write env data
  (ptyResult failure, { owner with pty := pty })

def resizeTerminal (owner : TerminalOwner Screen) (cols rows : Nat) :
    Except TerminalError Unit × TerminalOwner Screen :=
  let cols := clampSize cols
  let rows := clampSize rows
  let pty := { owner.pty with calls := owner.pty.calls + 1 }
  match env.resizeFails owner.pty.calls with
  | some message => (.error (.runtime message), { owner with pty := pty })
  | none =>
    let state := { owner.state with
      cols := cols
      rows := rows
      recorder := owner.state.recorder.map (vt.setSize rows cols) }
    (.ok (), { owner with
      pty := pty
      state := storeCheckpoint vt owner.entry.terminalEpoch (env.nowIso pty.calls) state })

def boundedReplayTail (chunks : List (List UInt8)) (maxBytes : Nat) : List (List UInt8) :=
  let rec keep (total : Nat) (kept : List (List UInt8)) : List (List UInt8) → List (List UInt8)
    | [] => kept
    | chunk :: earlier =>
      if !kept.isEmpty && total + chunk.length > maxBytes then kept
      else keep (total + chunk.length) (chunk :: kept) earlier
  keep 0 [] chunks.reverse

def attachCheckpoint (state : EntryState Screen) (afterSequence : UInt64) :
    Option TerminalCheckpoint :=
  state.checkpoint.filter fun checkpoint =>
    state.replayTruncated && decide (afterSequence.toNat < checkpoint.sequence)

def attachRawAfter (checkpoint : Option TerminalCheckpoint) (afterSequence : UInt64) : Nat :=
  match checkpoint with
  | some checkpoint => max afterSequence.toNat checkpoint.sequence
  | none => afterSequence.toNat

def replayFloor (state : EntryState Screen) : Nat :=
  match state.replay.head? with
  | some chunk => chunk.sequence
  | none => state.sequence + 1

def attachReply (entry : TerminalEntry) (state : EntryState Screen) (archiveAvailable : Bool)
    (clientId : String) (afterSequence : UInt64) : TerminalAttach :=
  let checkpoint := attachCheckpoint state afterSequence
  let rawAfter := attachRawAfter checkpoint afterSequence
  let behind := decide ((afterSequence + 1).toNat < replayFloor state)
  let truncated := state.replayTruncated && checkpoint.isNone && behind
  let outputChunks := (state.replay.filter fun chunk => chunk.sequence > rawAfter).map
    ReplayChunk.data
  { id := entry.id
    title := entry.title
    terminalEpoch := entry.terminalEpoch
    checkpoint := checkpoint
    replayQuality :=
      if checkpoint.isSome then "checkpoint" else if truncated then "degraded" else "exact"
    outputChunks :=
      if archiveAvailable && decide (rawAfter < state.sequence) then
        boundedReplayTail outputChunks exitedReplayBytes
      else outputChunks
    output := []
    replayTruncated := state.replayTruncated && behind
    replayNeedsQueryResponses := !state.replayReadyClients.contains clientId
    archiveAvailable := archiveAvailable
    lastSequence := state.sequence
    cols := state.cols
    rows := state.rows
    status := state.status
    exitCode := state.exitCode
    signal := state.signal }

def terminalThemePreference (theme : TerminalTheme) : Nat :=
  let luma := theme.background.r.toNat * 299 + theme.background.g.toNat * 587 +
    theme.background.b.toNat * 114
  if luma ≥ 128000 then 2 else 1

def themePreferenceBytes (theme : TerminalTheme) : List UInt8 :=
  ascii ("\x1b[?997;" ++ toString (terminalThemePreference theme) ++ "n")

def killChild (asked : Nat) : Except TerminalError Unit :=
  if env.childExited asked then .ok () else ptyResult (env.killFails asked)

/-! ## One command -/

/-- What is left after a command: whether the owner goes on, and its replies. -/
structure Turn (Screen : Type) where
  continues : Bool
  owner : TerminalOwner Screen
  sent : List (Nat × TerminalReply)

def TerminalOwner.replies (owner : TerminalOwner Screen) (reply : Nat) (message : TerminalReply) :
    Turn Screen :=
  ⟨true, owner, [(reply, message)]⟩

def TerminalOwner.leaseReply (owner : TerminalOwner Screen) (reply : Nat)
    (outcome : Except TerminalError RuntimeTerminalLease × TerminalControlRegistry) :
    Turn Screen :=
  { owner with control := outcome.2 }.replies reply (.lease outcome.1)

def TerminalOwner.closeHistory (owner : TerminalOwner Screen) : TerminalOwner Screen :=
  { owner with
    closedHistory :=
      if env.hostAlive owner.asked then owner.closedHistory ++ [owner.entry.id]
      else owner.closedHistory
    asked := owner.asked + 1 }

def TerminalOwner.unregister (owner : TerminalOwner Screen) : TerminalOwner Screen :=
  { owner with
    state := { owner.state with disposed := true }
    control := owner.control.unregisterTerminal owner.entry.id (some owner.entry.terminalEpoch) }

def handleTerminalCommand (owner : TerminalOwner Screen) (command : TerminalCommand) :
    Turn Screen :=
  let entry := owner.entry
  let state := owner.state
  match command with
  | .inspect reply =>
    owner.replies reply (.inspect (.ok
      { id := entry.id
        title := entry.title
        status := state.status
        exitCode := state.exitCode
        signal := state.signal
        spawnCommand := entry.spawnCommand
        spawnCwd := entry.spawnCwd
        osPid := entry.osPid
        processIdentity := entry.processIdentity
        terminalEpoch := entry.terminalEpoch }))
  | .write data reply =>
    let (result, owner) := writeTerminal env owner data
    owner.replies reply (.done result)
  | .authorize principalId connectionId fence reply =>
    owner.leaseReply reply
      (authorizeTerminal owner.control entry principalId connectionId fence)
  | .authorizeAndWrite principalId connectionId fence data reply =>
    match authorizeTerminal owner.control entry principalId connectionId fence with
    | (.error error, control) => owner.leaseReply reply (.error error, control)
    | (.ok lease, control) =>
      let (result, owner) := writeTerminal env { owner with control := control } data
      owner.replies reply (.lease (result.map fun _ => lease))
  | .setTheme theme reply =>
    let changed := decide (state.terminalTheme ≠ theme)
    let pty := if changed && state.themeUpdatesEnabled then
        (owner.pty.write env (themePreferenceBytes theme)).2
      else owner.pty
    { owner with pty := pty, state := { state with terminalTheme := theme } }.replies reply
      (.done (.ok ()))
  | .resize cols rows reply =>
    let (result, owner) := resizeTerminal vt env owner cols rows
    owner.replies reply (.done result)
  | .authorizeAndResize principalId connectionId fence cols rows reply =>
    match authorizeTerminal owner.control entry principalId connectionId fence with
    | (.error error, control) => owner.leaseReply reply (.error error, control)
    | (.ok lease, control) =>
      let (result, owner) := resizeTerminal vt env { owner with control := control } cols rows
      owner.replies reply (.lease (result.map fun _ => lease))
  | .attach clientId afterSequence reply =>
    let archiveAvailable := env.hostAlive owner.asked && env.historyAvailable owner.asked
    { owner with asked := owner.asked + 1 }.replies reply
      (.attach (.ok (attachReply entry state archiveAvailable clientId afterSequence)))
  | .markReplayReady clientId reply =>
    { owner with state := { state with
      replayReadyClients := state.replayReadyClients.insert clientId } }.replies reply
      (.done (.ok ()))
  | .detach clientId reply =>
    { owner with state := { state with
      replayReadyClients := state.replayReadyClients.filter (· != clientId) } }.replies reply
      (.done (.ok ()))
  | .getLiveCwd reply => owner.replies reply (.liveCwd (.ok state.liveCwd))
  | .acquireLease request reply =>
    owner.leaseReply reply ((owner.control.acquire request).map liftControl id)
  | .renewLease leaseId principalId connectionId reply =>
    owner.leaseReply reply ((owner.control.renew entry.id entry.terminalEpoch leaseId
      principalId connectionId).map liftControl id)
  | .releaseLease leaseId principalId connectionId reply =>
    let (result, control) := owner.control.release entry.id entry.terminalEpoch leaseId
      principalId connectionId
    { owner with control := control }.replies reply (.done (liftControl result))
  | .takeover principalId connectionId reply =>
    owner.leaseReply reply ((owner.control.forceTakeover entry.id entry.terminalEpoch
      principalId connectionId).map liftControl id)
  | .transfer leaseId principalId connectionId targetConnectionId reply =>
    owner.leaseReply reply ((owner.control.transfer entry.id entry.terminalEpoch leaseId
      principalId connectionId principalId targetConnectionId).map liftControl id)
  | .listLeases reply =>
    let (result, control) := owner.control.list entry.id
    { owner with control := control }.replies reply (.leases (liftControl result))
  | .releaseConnection connectionId =>
    ⟨true, { owner with control := owner.control.releaseConnection connectionId }, []⟩
  | .authorizeAndDispose principalId connectionId fence reply =>
    match authorizeTerminal owner.control entry principalId connectionId fence with
    | (.error error, control) => owner.leaseReply reply (.error error, control)
    | (.ok lease, control) =>
      let owner := { owner with control := control }.unregister
      match killChild env owner.asked with
      | .error error =>
        { owner with asked := owner.asked + 1 }.replies reply (.lease (.error error))
      | .ok () => ⟨false, owner.closeHistory env, [(reply, .lease (.ok lease))]⟩
  | .dispose reply =>
    let owner := owner.unregister
    ⟨false, owner.closeHistory env, [(reply, .done (killChild env owner.asked))]⟩

def Turn.andThen (turn after : Turn Screen) : Turn Screen :=
  { after with sent := turn.sent ++ after.sent }

def handleTerminalCommands (owner : TerminalOwner Screen) : List TerminalCommand → Turn Screen
  | [] => ⟨true, owner, []⟩
  | command :: rest =>
    let turn := handleTerminalCommand vt env owner command
    if turn.continues then turn.andThen (handleTerminalCommands turn.owner rest) else turn

end

/-! ## A terminal for examples -/

def blankVt100 : Vt100 Unit where
  setSize _ _ screen := screen
  process _ screen := screen
  cursorPosition _ := (0, 0)
  alternateScreen _ := false
  contentsFormatted _ := []

def quietSurroundings : Surroundings where
  writeFails _ := none
  resizeFails _ := none
  hostAlive _ := true
  historyAvailable _ := false
  childExited _ := false
  killFails _ := none
  nowIso _ := ""

def sampleEntry : TerminalEntry := ⟨"t", none, "e", none, "/", none, none⟩

def sampleOwner : TerminalOwner Unit :=
  .start sampleEntry (.new 80 24 defaultTheme (some ()))
    (.new (fun reading => reading) (fun count => String.ofList (List.replicate count 'x'))
      fun _ => "")

end Yaade.Terminal

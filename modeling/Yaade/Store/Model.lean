import Yaade.Library.Table

/-!
The catalog records of the host: sessions own tabs, tabs own terminals, and
each record carries a revision that every mutation of it raises.
-/

namespace Yaade.Store

structure AppSession where
  id : String
  title : String
  position : Nat
  activeTabId : Option String
  activeMuxTerminalId : Option String
  revision : Nat
  createdAt : String
  updatedAt : String
  archivedAt : Option String
  deriving DecidableEq, Repr

structure SessionTab where
  id : String
  sessionId : String
  title : String
  position : Nat
  activeMuxTerminalId : Option String
  layoutJson : Option String
  revision : Nat
  createdAt : String
  updatedAt : String
  archivedAt : Option String
  deriving DecidableEq, Repr

structure TerminalInput where
  tag : String := "TerminalInput"
  kind : String := "terminal"
  shellArgs : Option (List String) := none
  deriving DecidableEq, Repr

inductive ProcessState where
  | starting
  | running
  | exited
  | failed
  | disconnected
  | interrupted
  | restoring
  | orphaned
  deriving DecidableEq, Repr

inductive ActivityState where
  | starting
  | working
  | runningCommand
  | waitingForInput
  | idle
  | failed
  deriving DecidableEq, Repr

structure ProcessIdentity where
  pid : Nat
  platform : String
  bootId : Option String
  startToken : String
  executablePath : Option String
  deriving DecidableEq, Repr

structure TerminalOutput where
  tag : String := "TerminalOutput"
  kind : String := "process"
  terminalInstanceId : String
  ptyId : Option String
  historyId : Option String
  processIdentity : Option ProcessIdentity
  generation : Nat
  processState : ProcessState
  activityState : ActivityState
  replayAvailable : Bool
  exitCode : Option Int
  truncated : Bool
  deriving DecidableEq, Repr

def TerminalOutput.pending : TerminalOutput :=
  { terminalInstanceId := "pending", ptyId := none, historyId := none,
    processIdentity := none, generation := 1, processState := .starting,
    activityState := .starting, replayAvailable := false, exitCode := none,
    truncated := false }

def TerminalOutput.running (terminalInstance ptyId : String) (generation : Nat)
    (processIdentity : Option ProcessIdentity) : TerminalOutput :=
  { terminalInstanceId := terminalInstance, historyId := some ptyId,
    ptyId := some ptyId, processIdentity, generation, processState := .running,
    activityState := .working, replayAvailable := true, exitCode := none,
    truncated := false }

inductive TerminalStatus where
  | created
  | starting
  | running
  | waiting
  | succeeded
  | failed
  | cancelled
  | disconnected
  deriving DecidableEq, Repr

def TerminalStatus.isLive : TerminalStatus → Bool
  | .created | .starting | .running | .waiting => true
  | .succeeded | .failed | .cancelled | .disconnected => false

structure MuxTerminal where
  id : String
  sessionId : String
  tabId : Option String
  kind : String
  title : String
  position : Nat
  status : TerminalStatus
  input : TerminalInput
  inputRevision : Nat
  output : TerminalOutput
  error : Option String
  revision : Nat
  createdAt : String
  updatedAt : String
  startedAt : Option String
  finishedAt : Option String
  archivedAt : Option String
  deriving DecidableEq, Repr

structure SessionSnapshot where
  session : AppSession
  tabs : List SessionTab
  muxTerminals : List MuxTerminal
  deriving DecidableEq, Repr

inductive StoreError where
  | notFound (what : String)
  | conflict (what : String)
  | invalid (what : String)
  | storage (what : String)
  deriving DecidableEq, Repr

def StoreError.wireCode : StoreError → String
  | .notFound _ => "NOT_FOUND"
  | .conflict _ => "CONFLICT"
  | .invalid _ => "OPERATION_FAILED"
  | .storage _ => "OPERATION_FAILED"

structure HostRestartMetadata where
  reason : String
  previousServerEpoch : Option String
  newServerEpoch : String
  occurredAt : String
  interruptedTerminalIds : List String
  deriving DecidableEq, Repr

structure StartupReconciliation where
  previousServerEpoch : Option String
  newServerEpoch : String
  interruptedTerminalIds : List String
  deriving DecidableEq, Repr

/-- The whole persisted catalog. Every store method replaces it as one value. -/
structure PersistedState where
  schemaVersion : Nat
  machine : String
  lastServerEpoch : Option String
  lastRestart : Option HostRestartMetadata
  sessions : List AppSession
  tabs : List SessionTab
  terminals : List MuxTerminal
  deriving DecidableEq, Repr

structure CloseTerminalResult where
  terminal : MuxTerminal
  tab : Option SessionTab
  session : AppSession

structure CloseTabResult where
  terminals : List MuxTerminal
  tab : SessionTab
  session : AppSession
  createdTabs : List SessionTab

end Yaade.Store

import Yaade.Runtime.Effects

/-!
The mux commands of the runtime, as programs over the host's calls.
-/

namespace Yaade.Runtime

open Yaade.Library Yaade.Store

/-! ## Edits of a terminal record -/

def startingEdit : TerminalEdit where
  apply _ terminal := { terminal with status := .starting }
  only _ _ := rfl

def restartEdit : TerminalEdit where
  apply _ terminal := { terminal with status := .starting, error := none }
  only _ _ := rfl

def runningEdit (pty : TerminalCreateResult) (generations : Nat) : TerminalEdit where
  apply uuid terminal :=
    { terminal with
      status := .running
      output := .running uuid pty.id (terminal.output.generation + generations)
        pty.processIdentity }
  only _ _ := rfl

def failedEdit (error : TerminalError) : TerminalEdit where
  apply _ terminal :=
    { terminal with
      status := .failed
      error := some error.message
      output := { terminal.output with processState := .failed, activityState := .failed } }
  only _ _ := rfl

def cancelledEdit : TerminalEdit where
  apply _ terminal :=
    { terminal with
      status := .cancelled
      output := { terminal.output with
        processState := .exited, activityState := .idle, replayAvailable := false } }
  only _ _ := rfl

def exitedEdit (exitCode : Int) : TerminalEdit where
  apply _ terminal :=
    { terminal with
      status := if exitCode = 0 then .succeeded else .failed
      output := { terminal.output with
        processState := .exited, activityState := .idle, exitCode := some exitCode }
      error :=
        if exitCode ≠ 0 then some ("process exited with " ++ toString exitCode)
        else terminal.error }
  only _ _ := rfl

/-! ## Announcing what moved -/

def unknownOrMoved (previous : Option Nat) (revision : Nat) : Bool :=
  previous.all (· != revision)

def knownAndMoved (previous : Option Nat) (revision : Nat) : Bool :=
  previous.any (· != revision)

def sessionUpdates (moved : Nat → Bool) (session : Option AppSession) : List MuxEvent :=
  (session.filter fun session => moved session.revision).toList.map (.session .updated)

def tabUpdates (moved : Nat → Bool) (tab : Option SessionTab) : List MuxEvent :=
  (tab.filter fun tab => moved tab.revision).toList.map (.tab .updated)

def readTab : Option String → HostM (Option SessionTab)
  | some tabId => read (.getTab tabId)
  | none => pure none

/-! ## Terminal requests -/

structure CreateTerminalCommand where
  kind : Option String
  input : Except String TerminalInput
  sessionId : String
  tabId : Option String
  title : Option String

def CreateTerminalCommand.checked (command : CreateTerminalCommand) : HostM TerminalInput :=
  if command.kind = some "terminal" then
    match command.input with
    | .ok input => pure input
    | .error message => throw (.invalid message)
  else throw (.invalid "terminal kind is required")

def storeRunning (starting : MuxTerminal) (generations : Nat) (pty : TerminalCreateResult) :
    HostM MuxTerminal := do
  let running ← write (.updateTerminal starting.id (some starting.revision)
    (runningEdit pty generations))
  emitTerminalUpdated running
  return running

def storeFailed (starting : MuxTerminal) (error : TerminalError) : HostM MuxTerminal := do
  let failed ← write (.updateTerminal starting.id (some starting.revision) (failedEdit error))
  emitTerminalUpdated failed
  throw (.terminal error)

def launch (starting : MuxTerminal) (generations : Nat) : HostM MuxTerminal :=
  .call (.create (starting.input.shellArgs.getD [])) fun
    | .ok pty => storeRunning starting generations pty
    | .error error => storeFailed starting error

def addMuxTerminal (command : CreateTerminalCommand) (input : TerminalInput) :
    HostM MuxTerminal := do
  let previousSession ← read (.getSession command.sessionId)
  let previousTab ← readTab (command.tabId.or (previousSession.bind (·.activeTabId)))
  let created ← write (.createTerminal command.sessionId command.tabId
    (command.title.getD "Terminal") input)
  emitTerminal .created created
  let tab ← readTab created.tabId
  emitAll (tabUpdates (unknownOrMoved (previousTab.map (·.revision))) tab)
  let session ← read (.getSession command.sessionId)
  emitAll (sessionUpdates (unknownOrMoved (previousSession.map (·.revision))) session)
  return created

def createMuxTerminal (command : CreateTerminalCommand) : HostM MuxTerminal := do
  let input ← command.checked
  let created ← addMuxTerminal command input
  let starting ← write (.updateTerminal created.id (some created.revision) startingEdit)
  emitTerminalUpdated starting
  launch starting 0

def checkRevision (terminal : MuxTerminal) (expectedRevision : Nat) : HostM Unit :=
  if terminal.revision = expectedRevision then pure ()
  else throw (.store (.conflict ("terminal revision " ++ terminal.id)))

def cancelMuxTerminal (terminal : MuxTerminal) (expectedRevision : Nat) :
    HostM MuxTerminal := do
  checkRevision terminal expectedRevision
  disposeOutput terminal
  let cancelled ← write (.updateTerminal terminal.id (some expectedRevision) cancelledEdit)
  emitTerminalUpdated cancelled
  return cancelled

def knownTerminal (id : String) : HostM MuxTerminal :=
  .call (.store (.getTerminal id)) fun
    | some terminal => .done (.ok terminal)
    | none => .done (.error (.store (.notFound ("terminal " ++ id))))

def restartMuxTerminal (id : String) (expectedRevision : Nat) : HostM MuxTerminal := do
  let current ← knownTerminal id
  checkRevision current expectedRevision
  disposeOutput current
  let starting ← write (.updateTerminal id (some expectedRevision) restartEdit)
  emitTerminalUpdated starting
  launch starting 1

def disposeLive (terminal : MuxTerminal) : HostM Unit :=
  if terminal.status.isLive then disposeOutput terminal else pure ()

def whenStopping (stop : Bool) (p : HostM Unit) : HostM Unit :=
  if stop then p else pure ()

def closeMuxTerminal (terminal : MuxTerminal) (stop : Bool) : HostM MuxTerminal := do
  let previousSession ← read (.getSession terminal.sessionId)
  let previousTab ← readTab terminal.tabId
  whenStopping stop (disposeLive terminal)
  let result ← write (.closeTerminal terminal.id stop)
  emitTerminalArchived result.terminal
  emitAll (tabUpdates (knownAndMoved (previousTab.map (·.revision))) result.tab)
  emitAll (sessionUpdates (knownAndMoved (previousSession.map (·.revision)))
    (some result.session))
  return result.terminal

/-! ## Commands -/

/-- The `mux:*` channels with their decoded arguments. `stop` is the mode
`stop-terminals`. -/
inductive MuxCommand where
  | listSessions (includeArchived : Bool)
  | createSession (title : Option String)
  | renameSession (sessionId title : String)
  | reorderSessions (sessionIds : List String)
  | createTab (sessionId : String) (title : Option String)
  | renameTab (tabId title : String)
  | saveTabLayout (tabId layoutJson : String) (revision : Option Nat)
  | reorderTabs (sessionId : String) (tabIds : List String)
  | archiveTab (tabId : String) (stop : Bool)
  | selectTab (sessionId : String) (tabId : Option String)
  | archiveSession (sessionId : String) (stop : Bool)
  | restoreSession (sessionId : String)
  | getSession (sessionId : String)
  | getTerminal (muxTerminalId : String)
  | createTerminal (command : CreateTerminalCommand)
  | reorderTerminals (sessionId : String) (tabId : Option String) (muxTerminalIds : List String)
  | moveTerminal (muxTerminalId targetTabId : String)
  | selectTerminal (sessionId : String) (muxTerminalId : Option String)
  | stopTerminal (muxTerminalId : String) (revision : Nat)
  | restartTerminal (muxTerminalId : String) (revision : Nat)
  | closeTerminal (muxTerminalId : String)
  | renameTerminal (muxTerminalId title : String)

inductive MuxReply where
  | snapshots (snapshots : List SessionSnapshot)
  | snapshot (snapshot : Option SessionSnapshot)
  | session (session : AppSession)
  | sessions (sessions : List AppSession)
  | tab (tab : SessionTab)
  | tabs (tabs : List SessionTab)
  | terminal (terminal : MuxTerminal)
  | terminals (terminals : List MuxTerminal)
  | found (terminal : Option MuxTerminal)

def cancelLive : List MuxTerminal → HostM Unit
  | [] => pure ()
  | terminal :: rest => do
      whenStopping terminal.status.isLive
        (Program.ignore (cancelMuxTerminal terminal terminal.revision))
      cancelLive rest

def cancelSession (sessionId : String) : HostM Unit := do
  let terminals ← read (.terminalsForSession sessionId false)
  cancelLive terminals

def disposeAll : List MuxTerminal → HostM Unit
  | [] => pure ()
  | terminal :: rest => do
      disposeLive terminal
      disposeAll rest

def createdEvents (snapshot : SessionSnapshot) : List MuxEvent :=
  .session .created snapshot.session :: snapshot.tabs.map (.tab .created)

def moveUpdates : Option SessionSnapshot → Option SessionSnapshot → List MuxEvent
  | some before, some after =>
    after.tabs.flatMap (fun tab =>
      tabUpdates (knownAndMoved ((row? SessionTab.id tab.id before.tabs).map (·.revision)))
        (some tab)) ++
    sessionUpdates (knownAndMoved (some before.session.revision)) (some after.session)
  | _, _ => []

def adoptionUpdates (previous next : Option AppSession) : List MuxEvent :=
  sessionUpdates (knownAndMoved (previous.map (·.revision))) next

def dispatchMux : MuxCommand → HostM MuxReply
  | .listSessions includeArchived => do
      let snapshots ← read (.listSnapshots includeArchived)
      return .snapshots snapshots
  | .createSession title => do
      let session ← write (.createSession (title.getD "New session"))
      emitSession .created session
      let snapshot ← read (.getSnapshot session.id)
      emitAll ((snapshot.elim [] (·.tabs)).map (.tab .created))
      return .session session
  | .renameSession sessionId title => do
      let session ← write (.renameSession sessionId title)
      emitSession .updated session
      return .session session
  | .reorderSessions sessionIds => do
      let sessions ← write (.reorderSessions sessionIds)
      emitAll (sessions.map (.session .updated))
      return .sessions sessions
  | .createTab sessionId title => do
      let previousSession ← read (.getSession sessionId)
      let tab ← write (.createTab sessionId (title.getD "New tab"))
      emitTab .created tab
      let next ← read (.getSession sessionId)
      emitAll (adoptionUpdates previousSession next)
      return .tab tab
  | .renameTab tabId title => do
      let tab ← write (.renameTab tabId title)
      emitTab .updated tab
      return .tab tab
  | .saveTabLayout tabId layoutJson revision => do
      let tab ← write (.saveTabLayout tabId layoutJson revision)
      emitTab .updated tab
      return .tab tab
  | .reorderTabs sessionId tabIds => do
      let tabs ← write (.reorderTabs sessionId tabIds)
      emitAll (tabs.map (.tab .updated))
      return .tabs tabs
  | .archiveTab tabId stop => do
      let terminals ← read (.terminalsForTab tabId false)
      whenStopping stop (disposeAll terminals)
      let result ← write (.closeTab tabId stop)
      emitAll (result.terminals.map archivedEvent)
      emitTab .archived result.tab
      emitAll (result.createdTabs.map (.tab .created))
      emitSession .updated result.session
      return .tab result.tab
  | .selectTab sessionId tabId => do
      let session ← write (.selectTab sessionId tabId)
      emitSession .updated session
      return .session session
  | .archiveSession sessionId stop => do
      let previous ← read (.listSnapshots false)
      whenStopping stop (cancelSession sessionId)
      let session ← write (.archiveSession sessionId)
      emitSession .archived session
      let current ← read (.listSnapshots false)
      emitAll ((current.filter fun snapshot =>
        !(previous.map (·.session.id)).contains snapshot.session.id).flatMap createdEvents)
      return .session session
  | .restoreSession sessionId => do
      let session ← write (.restoreSession sessionId)
      emitSession .restored session
      return .session session
  | .getSession sessionId => do
      let snapshot ← read (.getSnapshot sessionId)
      return .snapshot snapshot
  | .getTerminal muxTerminalId => do
      let terminal ← read (.getTerminal muxTerminalId)
      return .found terminal
  | .createTerminal command => do
      let terminal ← createMuxTerminal command
      return .terminal terminal
  | .reorderTerminals sessionId tabId muxTerminalIds => do
      let terminals ← write (.reorderTerminals sessionId tabId muxTerminalIds)
      emitAll (terminals.map (.terminal .updated))
      return .terminals terminals
  | .moveTerminal muxTerminalId targetTabId => do
      let current ← knownTerminal muxTerminalId
      let before ← read (.getSnapshot current.sessionId)
      let terminal ← write (.moveTerminal muxTerminalId targetTabId)
      emitTerminalUpdated terminal
      let after ← read (.getSnapshot terminal.sessionId)
      emitAll (moveUpdates before after)
      return .terminal terminal
  | .selectTerminal sessionId muxTerminalId => do
      let previous ← read (.getSession sessionId)
      let previousTab ← readTab (previous.bind (·.activeTabId))
      let session ← write (.selectTerminal sessionId muxTerminalId)
      let tab ← readTab session.activeTabId
      emitAll (tabUpdates (unknownOrMoved (previousTab.map (·.revision))) tab)
      emitAll (sessionUpdates (unknownOrMoved (previous.map (·.revision))) (some session))
      return .session session
  | .stopTerminal muxTerminalId revision => do
      let terminal ← knownTerminal muxTerminalId
      let cancelled ← cancelMuxTerminal terminal revision
      return .terminal cancelled
  | .restartTerminal muxTerminalId revision => do
      let terminal ← restartMuxTerminal muxTerminalId revision
      return .terminal terminal
  | .closeTerminal muxTerminalId => do
      let terminal ← knownTerminal muxTerminalId
      let closed ← closeMuxTerminal terminal true
      return .terminal closed
  | .renameTerminal muxTerminalId title => do
      let terminal ← write (.renameTerminal muxTerminalId title)
      emitTerminalUpdated terminal
      return .terminal terminal

end Yaade.Runtime

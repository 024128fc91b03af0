import Yaade.Store.State

/-!
The mutations of the state store.
-/

namespace Yaade.Store

open Yaade.Library

abbrev Operation (α : Type) := PersistedState → Except StoreError (α × PersistedState)

/-- A store mutation: the new catalog is kept only if the operation and the
database write both succeed. -/
def mutate {α : Type} (env : StoreEnv) (operation : Operation α)
    (state : PersistedState) : Except StoreError α × PersistedState :=
  match operation state with
  | .error error => (.error error, state)
  | .ok (result, next) =>
    match env.database with
    | some error => (.error error, state)
    | none => (.ok result, next)

/-! ## Session operations -/

def createSession (env : StoreEnv) (title : String) : Operation AppSession := fun state =>
  let timestamp := env.now 0
  let sessionId := sessionKey (env.uuid 0)
  let tabId := tabKey (env.uuid 1)
  let position := (state.sessions.filter fun session => session.archivedAt.isNone).length
  let session := newSession timestamp sessionId tabId (nonempty title "New session") position
  .ok (session, (state.pushSession session).pushTab
    (newTab timestamp tabId sessionId "Window 1" 0))

def retitleSession (now title : String) (session : AppSession) : AppSession :=
  touchSession now { session with title := nonempty title session.title }

def renameSession (env : StoreEnv) (sessionId title : String) : Operation AppSession :=
  fun state => do
    let session ← findSession state sessionId
    let session := retitleSession (env.now 0) title session
    return (session, state.putSession session)

def placeSession (timestamp : String) (position : Nat) (session : AppSession) : AppSession :=
  { session with position, updatedAt := timestamp, revision := session.revision + 1 }

def placeSessions (timestamp : String) (state : PersistedState) :
    List (String × Nat) → Except StoreError PersistedState
  | [] => .ok state
  | (id, position) :: rest => do
      let session ← findSession state id
      placeSessions timestamp (state.putSession (placeSession timestamp position session)) rest

def visibleSessionIds (state : PersistedState) : List String :=
  (state.sessions.filter fun session => session.archivedAt.isNone).map (·.id)

def reorderSessions (env : StoreEnv) (ids : List String) : Operation (List AppSession) :=
  fun state => do
    assertPermutation ids (visibleSessionIds state) "sessions"
    let next ← placeSessions (env.now 0) state ids.zipIdx
    return (orderedSessions next false, next)

def archivedSession (env : StoreEnv) (session : AppSession) : AppSession :=
  if session.archivedAt.isNone then
    touchSession (env.now 1) { session with archivedAt := some (env.now 0) }
  else session

def StoreEnv.later (env : StoreEnv) (count : Nat) : StoreEnv :=
  { env with now := fun k => env.now (k + count) }

def archiveSession (env : StoreEnv) (sessionId : String) : Operation AppSession :=
  fun state => do
    let session ← findSession state sessionId
    let session := archivedSession env session
    return (session, ensureVisibleSession (env.later 2) (state.putSession session))

def restoredSession (now : String) (session : AppSession) : AppSession :=
  touchSession now { session with archivedAt := none }

def restoreSession (env : StoreEnv) (sessionId : String) : Operation AppSession :=
  fun state => do
    let session ← findSession state sessionId
    let session := restoredSession (env.now 0) session
    return (session, state.putSession session)

/-! ## Tab operations -/

def adoptTab (now tabId : String) (session : AppSession) : AppSession :=
  if session.activeTabId.isNone then
    touchSession now { session with activeTabId := some tabId }
  else session

def createTab (env : StoreEnv) (sessionId title : String) : Operation SessionTab :=
  fun state => do
    ensure (visibleSession state sessionId) (.notFound ("session " ++ sessionId))
    let tab := newTab (env.now 0) (tabKey (env.uuid 0)) sessionId (nonempty title "New tab")
      (openTabCount state sessionId)
    let session ← findSession (state.pushTab tab) sessionId
    return (tab, (state.pushTab tab).putSession (adoptTab (env.now 1) tab.id session))

def retitleTab (now title : String) (tab : SessionTab) : SessionTab :=
  touchTab now { tab with title := takeChars 160 (nonempty title tab.title) }

def renameTab (env : StoreEnv) (tabId title : String) : Operation SessionTab := fun state => do
  let tab ← findTab state tabId
  let tab := retitleTab (env.now 0) title tab
  return (tab, state.putTab tab)

def relayoutTab (now layoutJson : String) (tab : SessionTab) : SessionTab :=
  touchTab now { tab with layoutJson := some layoutJson }

def saveTabLayout (env : StoreEnv) (tabId layoutJson : String)
    (expectedRevision : Option Nat) : Operation SessionTab := fun state => do
  ensure (layoutJson.utf8ByteSize ≤ 65536) (.invalid "layout exceeds 65536 bytes")
  let tab ← findTab state tabId
  ensure tab.archivedAt.isNone (.notFound ("tab " ++ tabId))
  ensure (!expectedRevision.any fun revision => revision != tab.revision)
    (.conflict ("tab revision " ++ tabId))
  let tab := relayoutTab (env.now 0) layoutJson tab
  return (tab, state.putTab tab)

def placeTab (timestamp : String) (position : Nat) (tab : SessionTab) : SessionTab :=
  { tab with position, updatedAt := timestamp, revision := tab.revision + 1 }

def placeTabs (timestamp : String) (state : PersistedState) :
    List (String × Nat) → Except StoreError PersistedState
  | [] => .ok state
  | (id, position) :: rest => do
      let tab ← findTab state id
      placeTabs timestamp (state.putTab (placeTab timestamp position tab)) rest

def reorderTabs (env : StoreEnv) (sessionId : String) (ids : List String) :
    Operation (List SessionTab) := fun state => do
  assertPermutation ids ((orderedTabs state sessionId false).map (·.id)) "tabs"
  let next ← placeTabs (env.now 0) state ids.zipIdx
  return (orderedTabs next sessionId false, next)

def selectableTab (state : PersistedState) (sessionId : String) :
    Option String → Except StoreError (Option SessionTab)
  | none => .ok none
  | some tabId =>
    match state.tabs.find? fun tab =>
        tab.id = tabId && tab.sessionId = sessionId && tab.archivedAt.isNone with
    | some tab => .ok (some tab)
    | none => .error (.invalid "active tab does not belong to session")

def showTab (now : String) (tab : Option SessionTab) (session : AppSession) : AppSession :=
  touchSession now
    { session with
      activeTabId := tab.map (·.id)
      activeMuxTerminalId := tab.bind (·.activeMuxTerminalId) }

def selectTab (env : StoreEnv) (sessionId : String) (tabId : Option String) :
    Operation AppSession := fun state => do
  let selected ← selectableTab state sessionId tabId
  let session ← findSession state sessionId
  let session := showTab (env.now 0) selected session
  return (session, state.putSession session)

/-! ## Terminal operations -/

def selectableTerminalTab (state : PersistedState) (sessionId : String) :
    Option String → Except StoreError (Option String)
  | none => .ok none
  | some id =>
    match (state.terminals.find? fun terminal =>
        terminal.id = id && terminal.sessionId = sessionId &&
          terminal.archivedAt.isNone).bind (·.tabId) with
    | some tabId => .ok (some tabId)
    | none => .error (.invalid "active terminal does not belong to session")

def showTerminalInTab (now : String) (terminalId : Option String) (tab : SessionTab) :
    SessionTab :=
  touchTab now { tab with activeMuxTerminalId := terminalId }

def activateInTab (now : String) (state : PersistedState) (terminalId : Option String) :
    Option String → Except StoreError PersistedState
  | none => .ok state
  | some tabId => do
      let tab ← findTab state tabId
      return state.putTab (showTerminalInTab now terminalId tab)

def showTerminal (now : String) (tabId terminalId : Option String) (session : AppSession) :
    AppSession :=
  touchSession now
    { session with
      activeTabId := if tabId.isSome then tabId else session.activeTabId
      activeMuxTerminalId := terminalId }

def selectTerminalInState (now : Nat → String) (state : PersistedState)
    (sessionId : String) (terminalId : Option String) :
    Except StoreError (AppSession × PersistedState) := do
  let tabId ← selectableTerminalTab state sessionId terminalId
  let state ← activateInTab (now 0) state terminalId tabId
  let session ← findSession state sessionId
  let session := showTerminal (now 1) tabId terminalId session
  return (session, state.putSession session)

def selectTerminal (env : StoreEnv) (sessionId : String) (terminalId : Option String) :
    Operation AppSession := fun state =>
  selectTerminalInState env.now state sessionId terminalId

/-- The tab a terminal command means: the named one, or the session's active
tab. -/
def namedTab (state : PersistedState) (sessionId : String) (tabId : Option String)
    (missing : String) : Except StoreError String :=
  match tabId.or ((state.session? sessionId).bind (·.activeTabId)) with
  | some tabId => .ok tabId
  | none => .error (.notFound missing)

def targetTab (state : PersistedState) (sessionId : String) (tabId : Option String)
    (missing : String) : Except StoreError String := do
  let selected ← namedTab state sessionId tabId missing
  ensure (openTab state sessionId selected)
    (.invalid "terminal tab does not belong to session")
  return selected

def newTerminal (timestamp terminalId sessionId tabId title : String) (position : Nat)
    (input : TerminalInput) : MuxTerminal :=
  { id := terminalId, sessionId, tabId := some tabId, kind := "terminal", title, position,
    status := .created, input, inputRevision := 1, output := .pending, error := none,
    revision := 1, createdAt := timestamp, updatedAt := timestamp, startedAt := none,
    finishedAt := none, archivedAt := none }

def createTerminal (env : StoreEnv) (sessionId : String) (tabId : Option String)
    (title : String) (input : TerminalInput) : Operation MuxTerminal := fun state => do
  ensure (visibleSession state sessionId) (.notFound ("session " ++ sessionId))
  let selectedTab ← targetTab state sessionId tabId ("tab for " ++ sessionId)
  let terminal := newTerminal (env.now 0) (terminalKey (env.uuid 0)) sessionId selectedTab
    (nonempty title "Terminal") (openTerminalCount state selectedTab) input
  let (_, next) ← selectTerminalInState (env.later 1).now (state.pushTerminal terminal)
    sessionId (some terminal.id)
  return (terminal, next)

/-- An edit of a terminal record that leaves its place in the catalog alone:
the closures given to `update_terminal` change status, output, title or error.
A closure may draw a UUID. -/
structure TerminalEdit where
  apply : String → MuxTerminal → MuxTerminal
  only : ∀ uuid terminal, apply uuid terminal =
    { terminal with
      status := (apply uuid terminal).status
      output := (apply uuid terminal).output
      title := (apply uuid terminal).title
      error := (apply uuid terminal).error }

/-- Bookkeeping of `update_terminal` after the edit: the next revision, the
time, and the first start and finish times. -/
def stampTerminal (now : String) (terminal : MuxTerminal) : MuxTerminal :=
  { terminal with
    revision := terminal.revision + 1
    updatedAt := now
    startedAt :=
      match terminal.status with
      | .starting | .running | .waiting => terminal.startedAt.or (some now)
      | _ => terminal.startedAt
    finishedAt :=
      match terminal.status with
      | .succeeded | .failed | .cancelled | .disconnected => terminal.finishedAt.or (some now)
      | _ => terminal.finishedAt }

def updateTerminal (env : StoreEnv) (terminalId : String) (expectedRevision : Option Nat)
    (update : TerminalEdit) : Operation MuxTerminal := fun state => do
  let terminal ← findTerminal state terminalId
  ensure (!expectedRevision.any fun revision => terminal.revision != revision)
    (.conflict ("terminal revision " ++ terminalId))
  let terminal := stampTerminal (env.now 0) (update.apply (env.uuid 0) terminal)
  return (terminal, state.putTerminal terminal)

def renameEdit (title : String) : TerminalEdit where
  apply _ terminal := { terminal with title := takeChars 160 (nonempty title terminal.title) }
  only _ _ := rfl

def renameTerminal (env : StoreEnv) (terminalId title : String) : Operation MuxTerminal :=
  updateTerminal env terminalId none (renameEdit title)

def placeTerminal (timestamp : String) (position : Nat) (terminal : MuxTerminal) :
    MuxTerminal :=
  { terminal with position, revision := terminal.revision + 1, updatedAt := timestamp }

def placeTerminals (timestamp : String) (state : PersistedState) :
    List (String × Nat) → Except StoreError PersistedState
  | [] => .ok state
  | (id, position) :: rest => do
      let terminal ← findTerminal state id
      placeTerminals timestamp (state.putTerminal (placeTerminal timestamp position terminal))
        rest

def reorderTerminals (env : StoreEnv) (sessionId : String) (tabId : Option String)
    (ids : List String) : Operation (List MuxTerminal) := fun state => do
  let selectedTab ← targetTab state sessionId tabId "active tab"
  assertPermutation ids ((orderedTerminals state selectedTab false).map (·.id)) "terminals"
  let next ← placeTerminals (env.now 0) state ids.zipIdx
  return (orderedTerminals next selectedTab false, next)

/-! ## Moving and closing -/

def openTerminal (state : PersistedState) (terminalId : String) :
    Except StoreError MuxTerminal :=
  match state.terminals.find? fun terminal =>
      terminal.id = terminalId && terminal.archivedAt.isNone with
  | some terminal => .ok terminal
  | none => .error (.notFound ("terminal " ++ terminalId))

def leaveTab (now terminalId : String) (replacement : Option String) (source : SessionTab) :
    SessionTab :=
  touchTab now
    { source with
      activeMuxTerminalId :=
        if source.activeMuxTerminalId = some terminalId then replacement
        else source.activeMuxTerminalId }

def leaveSource (now : String) (state : PersistedState) (terminalId : String)
    (replacement : Option String) : Option String → Except StoreError PersistedState
  | none => .ok state
  | some sourceTabId => do
      let source ← findTab state sourceTabId
      return state.putTab (leaveTab now terminalId replacement source)

def sourceReplacement (state : PersistedState) (terminalId : String) (tabId : Option String) :
    Option String :=
  tabId.bind fun sourceTabId =>
    ((orderedTerminals state sourceTabId false).find? fun terminal =>
      terminal.id != terminalId).map (·.id)

def relocate (now targetTabId : String) (position : Nat) (terminal : MuxTerminal) :
    MuxTerminal :=
  { terminal with
    tabId := some targetTabId, position, revision := terminal.revision + 1, updatedAt := now }

def moveToTab (env : StoreEnv) (current : MuxTerminal) (targetTabId : String) :
    Operation MuxTerminal := fun state => do
  let terminal ← findTerminal state current.id
  let moved := relocate (env.now 0) targetTabId (openTerminalCount state targetTabId) terminal
  let next ← leaveSource (env.now 1) (state.putTerminal moved) current.id
    (sourceReplacement state current.id current.tabId) current.tabId
  let (_, next) ← selectTerminalInState (env.later 2).now next current.sessionId
    (some current.id)
  return (moved, next)

def moveTerminal (env : StoreEnv) (terminalId targetTabId : String) :
    Operation MuxTerminal := fun state => do
  let current ← openTerminal state terminalId
  ensure (openTab state current.sessionId targetTabId)
    (.invalid "target tab does not belong to session")
  if current.tabId = some targetTabId then return (current, state)
  else moveToTab env current targetTabId state

def stopClosed (timestamp : String) (stop : Bool) (terminal : MuxTerminal) : MuxTerminal :=
  if stop && terminal.status.isLive then
    { terminal with
      status := .cancelled
      output := { terminal.output with
        processState := .exited, activityState := .idle, replayAvailable := false }
      finishedAt := some timestamp }
  else terminal

def archiveClosed (timestamp : String) (stop : Bool) (terminal : MuxTerminal) : MuxTerminal :=
  { stopClosed timestamp stop terminal with
    archivedAt := some timestamp, updatedAt := timestamp, revision := terminal.revision + 1 }

/-- The open terminal of a tab with the least position, other than `terminalId`. -/
def nextTerminal (state : PersistedState) (terminalId : String) (tabId : Option String) :
    Option String :=
  tabId.bind fun tabId =>
    ((state.terminals.filter fun terminal =>
      terminal.tabId = some tabId && terminal.id != terminalId &&
        terminal.archivedAt.isNone).argmin (·.position)).map (·.id)

def dropFromTab (timestamp terminalId : String) (next : Option String) (tab : SessionTab) :
    SessionTab :=
  if tab.activeMuxTerminalId = some terminalId then
    touchTab timestamp { tab with activeMuxTerminalId := next }
  else tab

def closeInTab (timestamp : String) (state : PersistedState) (terminalId : String)
    (next : Option String) :
    Option String → Except StoreError (Option SessionTab × PersistedState)
  | none => .ok (none, state)
  | some tabId => do
      let tab ← findTab state tabId
      let tab := dropFromTab timestamp terminalId next tab
      return (some tab, state.putTab tab)

def dropFromSession (timestamp terminalId : String) (next : Option String)
    (session : AppSession) : AppSession :=
  if session.activeMuxTerminalId = some terminalId then
    touchSession timestamp { session with activeMuxTerminalId := next }
  else session

def closedAlready (state : PersistedState) (current : MuxTerminal) :
    Except StoreError (CloseTerminalResult × PersistedState) := do
  let session ← findSession state current.sessionId
  return (⟨current, current.tabId.bind state.tab?, session⟩, state)

def closeOpen (env : StoreEnv) (current : MuxTerminal) (stop : Bool) :
    Operation CloseTerminalResult := fun state => do
  let timestamp := env.now 0
  let next := nextTerminal state current.id current.tabId
  let archived := archiveClosed timestamp stop current
  let (tab, state) ← closeInTab timestamp (state.putTerminal archived) current.id next
    current.tabId
  let session ← findSession state current.sessionId
  let session := dropFromSession timestamp current.id next session
  return (⟨archived, tab, session⟩, state.putSession session)

def closeTerminal (env : StoreEnv) (terminalId : String) (stop : Bool) :
    Operation CloseTerminalResult := fun state => do
  let current ← findTerminal state terminalId
  if current.archivedAt.isSome then closedAlready state current
  else closeOpen env current stop state

def closedWith (tabId : String) (terminal : MuxTerminal) : Bool :=
  terminal.tabId = some tabId && terminal.archivedAt.isNone

def closeTerminals (timestamp : String) (stop : Bool) (tabId : String)
    (state : PersistedState) : PersistedState :=
  { state with
    terminals := state.terminals.map fun terminal =>
      if closedWith tabId terminal then archiveClosed timestamp stop terminal else terminal }

def archivedTab (timestamp : String) (tab : SessionTab) : SessionTab :=
  if tab.archivedAt.isNone then touchTab timestamp { tab with archivedAt := some timestamp }
  else tab

def fallbackTabs (timestamp tabId sessionId : String) (state : PersistedState) :
    List SessionTab :=
  if state.tabs.any fun tab => tab.sessionId = sessionId && tab.archivedAt.isNone then []
  else [newTab timestamp tabId sessionId "Window 1" 0]

def nextTab (state : PersistedState) (sessionId : String) : Option SessionTab :=
  (state.tabs.filter fun tab =>
    tab.sessionId = sessionId && tab.archivedAt.isNone).argmin (·.position)

def leaveClosedTab (timestamp tabId : String) (next : Option SessionTab)
    (session : AppSession) : AppSession :=
  if session.activeTabId = some tabId then showTab timestamp next session else session

def closeTab (env : StoreEnv) (tabId : String) (stop : Bool) :
    Operation CloseTabResult := fun state => do
  let current ← findTab state tabId
  let timestamp := env.now 0
  let terminals := (state.terminals.filter (closedWith tabId)).map (archiveClosed timestamp stop)
  let archived := archivedTab timestamp current
  let state := (closeTerminals timestamp stop tabId state).putTab archived
  let created := fallbackTabs timestamp (tabKey (env.uuid 0)) current.sessionId state
  let state := { state with tabs := state.tabs ++ created }
  let session ← findSession state current.sessionId
  let session := leaveClosedTab timestamp tabId (nextTab state current.sessionId) session
  return (⟨terminals, archived, session, created⟩, state.putSession session)

/-! ## Startup -/

def interruptTerminal (timestamp : String) (available : List String)
    (terminal : MuxTerminal) : MuxTerminal :=
  let historyId := terminal.output.historyId.or terminal.output.ptyId
  { terminal with
    status := .disconnected
    output := { terminal.output with
      processState := .interrupted, activityState := .idle, ptyId := none, historyId,
      processIdentity := none, replayAvailable := historyId.any (available.contains ·) }
    revision := terminal.revision + 1
    updatedAt := timestamp }

def interruptLive (env : StoreEnv) (serverEpoch : String) (available : List String) :
    Operation StartupReconciliation := fun state =>
  let timestamp := env.now 0
  let interrupted := (state.terminals.filter (·.status.isLive)).map (·.id)
  .ok (⟨state.lastServerEpoch, serverEpoch, interrupted⟩,
    { state with
      terminals := state.terminals.map fun terminal =>
        if terminal.status.isLive then interruptTerminal timestamp available terminal
        else terminal
      lastServerEpoch := some serverEpoch
      lastRestart := some
        { reason := "host_restart", previousServerEpoch := state.lastServerEpoch,
          newServerEpoch := serverEpoch, occurredAt := timestamp,
          interruptedTerminalIds := interrupted } })

def reconcileStartup (env : StoreEnv) (serverEpoch : String) (available : List String)
    (state : PersistedState) : Except StoreError StartupReconciliation × PersistedState :=
  if state.lastServerEpoch = some serverEpoch then
    (.ok ⟨state.lastServerEpoch, serverEpoch, []⟩, state)
  else mutate env (interruptLive env serverEpoch available) state

/-! ## The interface -/

/-- The calls other modules make on the store, with their result types. -/
inductive StoreCall : Type → Type where
  | listSnapshots (includeArchived : Bool) : StoreCall (List SessionSnapshot)
  | getSnapshot (sessionId : String) : StoreCall (Option SessionSnapshot)
  | getSession (sessionId : String) : StoreCall (Option AppSession)
  | getTab (tabId : String) : StoreCall (Option SessionTab)
  | getTerminal (terminalId : String) : StoreCall (Option MuxTerminal)
  | terminalForPty (ptyId : String) : StoreCall (Option MuxTerminal)
  | terminalsForSession (sessionId : String) (includeArchived : Bool) :
      StoreCall (List MuxTerminal)
  | terminalsForTab (tabId : String) (includeArchived : Bool) : StoreCall (List MuxTerminal)
  | createSession (title : String) : StoreCall (Except StoreError AppSession)
  | renameSession (sessionId title : String) : StoreCall (Except StoreError AppSession)
  | reorderSessions (ids : List String) : StoreCall (Except StoreError (List AppSession))
  | archiveSession (sessionId : String) : StoreCall (Except StoreError AppSession)
  | restoreSession (sessionId : String) : StoreCall (Except StoreError AppSession)
  | createTab (sessionId title : String) : StoreCall (Except StoreError SessionTab)
  | renameTab (tabId title : String) : StoreCall (Except StoreError SessionTab)
  | saveTabLayout (tabId layoutJson : String) (expectedRevision : Option Nat) :
      StoreCall (Except StoreError SessionTab)
  | reorderTabs (sessionId : String) (ids : List String) :
      StoreCall (Except StoreError (List SessionTab))
  | selectTab (sessionId : String) (tabId : Option String) :
      StoreCall (Except StoreError AppSession)
  | closeTab (tabId : String) (stop : Bool) : StoreCall (Except StoreError CloseTabResult)
  | createTerminal (sessionId : String) (tabId : Option String) (title : String)
      (input : TerminalInput) : StoreCall (Except StoreError MuxTerminal)
  | updateTerminal (terminalId : String) (expectedRevision : Option Nat)
      (update : TerminalEdit) : StoreCall (Except StoreError MuxTerminal)
  | renameTerminal (terminalId title : String) : StoreCall (Except StoreError MuxTerminal)
  | selectTerminal (sessionId : String) (terminalId : Option String) :
      StoreCall (Except StoreError AppSession)
  | reorderTerminals (sessionId : String) (tabId : Option String) (ids : List String) :
      StoreCall (Except StoreError (List MuxTerminal))
  | moveTerminal (terminalId targetTabId : String) : StoreCall (Except StoreError MuxTerminal)
  | closeTerminal (terminalId : String) (stop : Bool) :
      StoreCall (Except StoreError CloseTerminalResult)
  | reconcileStartup (serverEpoch : String) (available : List String) :
      StoreCall (Except StoreError StartupReconciliation)

def StoreCall.perform {α : Type} (env : StoreEnv) (state : PersistedState) :
    StoreCall α → α × PersistedState
  | .listSnapshots includeArchived => (Store.listSnapshots state includeArchived, state)
  | .getSnapshot id => (Store.getSnapshot state id, state)
  | .getSession id => (state.session? id, state)
  | .getTab id => (state.tab? id, state)
  | .getTerminal id => (state.terminal? id, state)
  | .terminalForPty id => (Store.terminalForPty state id, state)
  | .terminalsForSession id includeArchived => (sessionTerminals state id includeArchived, state)
  | .terminalsForTab id includeArchived => (orderedTerminals state id includeArchived, state)
  | .createSession title => mutate env (Store.createSession env title) state
  | .renameSession id title => mutate env (Store.renameSession env id title) state
  | .reorderSessions ids => mutate env (Store.reorderSessions env ids) state
  | .archiveSession id => mutate env (Store.archiveSession env id) state
  | .restoreSession id => mutate env (Store.restoreSession env id) state
  | .createTab id title => mutate env (Store.createTab env id title) state
  | .renameTab id title => mutate env (Store.renameTab env id title) state
  | .saveTabLayout id layout revision =>
    mutate env (Store.saveTabLayout env id layout revision) state
  | .reorderTabs id ids => mutate env (Store.reorderTabs env id ids) state
  | .selectTab id tabId => mutate env (Store.selectTab env id tabId) state
  | .closeTab id stop => mutate env (Store.closeTab env id stop) state
  | .createTerminal id tabId title input =>
    mutate env (Store.createTerminal env id tabId title input) state
  | .updateTerminal id revision update =>
    mutate env (Store.updateTerminal env id revision update) state
  | .renameTerminal id title => mutate env (Store.renameTerminal env id title) state
  | .selectTerminal id terminalId => mutate env (Store.selectTerminal env id terminalId) state
  | .reorderTerminals id tabId ids => mutate env (Store.reorderTerminals env id tabId ids) state
  | .moveTerminal id target => mutate env (Store.moveTerminal env id target) state
  | .closeTerminal id stop => mutate env (Store.closeTerminal env id stop) state
  | .reconcileStartup epoch available => Store.reconcileStartup env epoch available state

end Yaade.Store

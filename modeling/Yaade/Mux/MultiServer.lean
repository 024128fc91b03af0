import Yaade.Library.Except
import Yaade.Library.IndexMap
import Yaade.Library.Transition
import Yaade.Mux.Ids
import Yaade.Mux.Layout

/-!
A client of several servers.
-/

namespace Yaade.Mux

open Yaade.Library

structure Owner (kind : EntityKind) where
  serverId : ServerId
  localId : EntityId kind
  deriving DecidableEq

abbrev Owners := (kind : EntityKind) → IndexMap (EntityId kind) (Owner kind)

def Owners.empty : Owners := fun _ => .empty

def Owners.set (owners : Owners) {kind : EntityKind} (id : EntityId kind) (owner : Owner kind) :
    Owners :=
  Function.update owners kind ((owners kind).insert id owner)

structure AppSession where
  id : SessionId
  title : String
  position : Nat
  activeTabId : Option SessionTabId
  activeMuxTerminalId : Option MuxTerminalId

structure SessionTab where
  id : SessionTabId
  sessionId : SessionId
  title : String
  position : Nat
  activeMuxTerminalId : Option MuxTerminalId
  layoutJson : Option LayoutJson
  revision : Option Nat

structure TerminalOutput where
  terminalInstanceId : String
  ptyId : Option PtyId
  generation : Nat

structure MuxTerminal where
  id : MuxTerminalId
  sessionId : SessionId
  tabId : Option SessionTabId
  title : String
  position : Nat
  output : TerminalOutput
  revision : Nat

structure MuxSessionSnapshot where
  session : AppSession
  tabs : Option (List SessionTab)
  muxTerminals : List MuxTerminal

inductive SessionEvent where
  | created
  | updated
  | archived
  | restored
  deriving DecidableEq

inductive EntityEvent where
  | created
  | updated
  | archived
  deriving DecidableEq

inductive MuxEvent where
  | session (event : SessionEvent) (session : AppSession)
  | tab (event : EntityEvent) (tab : SessionTab)
  | muxTerminal (created : Bool) (muxTerminalId : MuxTerminalId) (muxTerminal : MuxTerminal)
  | terminalOutputChanged (muxTerminalId : MuxTerminalId) (output : TerminalOutput)
  | muxTerminalArchived (muxTerminalId : MuxTerminalId)

/-! ## Scoping -/

section Scope

variable (current serverId : ServerId)

def keepLocalIds : Bool := serverId = current

def scopingOf : Scoping := if keepLocalIds current serverId then .current else .remote serverId

def publicId {kind : EntityKind} (id : EntityId kind) : EntityId kind :=
  (scopingOf current serverId).publicId id

/-- What scoping an entity records: the local id for any server, and the public
one for another server than the client's own. -/
def recordOwner (owners : Owners) {kind : EntityKind} (id : EntityId kind) : Owners :=
  let owners := owners.set id ⟨serverId, id⟩
  if keepLocalIds current serverId then owners
  else owners.set (id.scoped serverId) ⟨serverId, id⟩

def scopePtyId (id : PtyId) : PtyId := if serverId = current then id else id.scoped serverId

def scopeSession (owners : Owners) (session : AppSession) : Owners × AppSession :=
  (recordOwner current serverId owners session.id,
    if keepLocalIds current serverId then session
    else { session with
      id := session.id.scoped serverId
      activeTabId := session.activeTabId.map (EntityId.scoped serverId)
      activeMuxTerminalId := session.activeMuxTerminalId.map (EntityId.scoped serverId) })

def scopeTab (owners : Owners) (tab : SessionTab) : Owners × SessionTab :=
  let owners := recordOwner current serverId owners tab.id
  (recordOwner current serverId owners tab.sessionId,
    if keepLocalIds current serverId then tab
    else { tab with
      id := tab.id.scoped serverId
      sessionId := tab.sessionId.scoped serverId
      activeMuxTerminalId := tab.activeMuxTerminalId.map (EntityId.scoped serverId) })

def scopeProcessOutput (output : TerminalOutput) : TerminalOutput :=
  { output with
    terminalInstanceId := scopedTerminalId serverId.value output.terminalInstanceId
    ptyId := output.ptyId.map (scopePtyId current serverId) }

def scopeMuxTerminal (owners : Owners) (terminal : MuxTerminal) : Owners × MuxTerminal :=
  let owners := recordOwner current serverId owners terminal.id
  let owners := recordOwner current serverId owners terminal.sessionId
  let owners := terminal.output.ptyId.elim owners (recordOwner current serverId owners)
  (owners,
    if keepLocalIds current serverId then terminal
    else { terminal with
      id := terminal.id.scoped serverId
      sessionId := terminal.sessionId.scoped serverId
      tabId := terminal.tabId.map (EntityId.scoped serverId)
      output := scopeProcessOutput current serverId terminal.output })

def scopeList {α : Type} (scope : Owners → α → Owners × α) (owners : Owners) :
    List α → Owners × List α
  | [] => (owners, [])
  | value :: rest =>
    let (owners, first) := scope owners value
    let (owners, others) := scopeList scope owners rest
    (owners, first :: others)

def scopeSnapshot (owners : Owners) (snapshot : MuxSessionSnapshot) :
    Owners × MuxSessionSnapshot :=
  let (owners, session) := scopeSession current serverId owners snapshot.session
  let (owners, tabs) := match snapshot.tabs with
    | none => (owners, none)
    | some tabs => (scopeList (scopeTab current serverId) owners tabs).map id some
  let (owners, muxTerminals) :=
    scopeList (scopeMuxTerminal current serverId) owners snapshot.muxTerminals
  (owners, ⟨session, tabs, muxTerminals⟩)

def scopeEvent (owners : Owners) : MuxEvent → Owners × MuxEvent
  | .session event session =>
    (scopeSession current serverId owners session).map id (.session event)
  | .tab event tab => (scopeTab current serverId owners tab).map id (.tab event)
  | .muxTerminal created muxTerminalId muxTerminal =>
    (scopeMuxTerminal current serverId owners muxTerminal).map id
      (.muxTerminal created (publicId current serverId muxTerminalId))
  | .terminalOutputChanged muxTerminalId output =>
    (match output.ptyId with
      | none => owners
      | some ptyId => owners.set (scopePtyId current serverId ptyId) ⟨serverId, ptyId⟩,
      .terminalOutputChanged (publicId current serverId muxTerminalId)
        (if keepLocalIds current serverId then output
        else scopeProcessOutput current serverId output))
  | .muxTerminalArchived muxTerminalId =>
    (owners, .muxTerminalArchived (publicId current serverId muxTerminalId))

end Scope

/-! ## Commands -/

inductive MuxCommand where
  | listSessions (includeArchived : Bool)
  | createSession (title : Option String)
  | reorderSessions (sessionIds : List SessionId)
  | createTab (sessionId : SessionId) (title : Option String)
  | renameTab (tabId : SessionTabId) (title : String)
  | saveTabLayout (tabId : SessionTabId) (layoutJson : LayoutJson) (revision : Option Nat)
  | archiveTab (tabId : SessionTabId) (stopTerminals : Bool)
  | reorderTabs (sessionId : SessionId) (tabIds : List SessionTabId)
  | selectTab (sessionId : SessionId) (tabId : Option SessionTabId)
  | archiveSession (sessionId : SessionId) (stopTerminals : Bool)
  | restoreSession (sessionId : SessionId)
  | renameSession (sessionId : SessionId) (title : String)
  | getSession (sessionId : SessionId)
  | createTerminal (sessionId : SessionId) (tabId : Option SessionTabId) (title : Option String)
  | getTerminal (muxTerminalId : MuxTerminalId)
  | reorderTerminals (sessionId : SessionId) (tabId : Option SessionTabId)
      (muxTerminalIds : List MuxTerminalId)
  | moveTerminal (muxTerminalId : MuxTerminalId) (targetTabId : SessionTabId)
  | selectTerminal (sessionId : SessionId) (muxTerminalId : Option MuxTerminalId)
  | stopTerminal (muxTerminalId : MuxTerminalId) (revision : Nat)
  | restartTerminal (muxTerminalId : MuxTerminalId) (revision : Nat)
  | closeTerminal (muxTerminalId : MuxTerminalId)
  | renameTerminal (muxTerminalId : MuxTerminalId) (title : String)

abbrev AnyId := (kind : EntityKind) × EntityId kind

def anyId {kind : EntityKind} (id : EntityId kind) : AnyId := ⟨kind, id⟩

def MuxCommand.names : MuxCommand → List AnyId
  | .listSessions _ | .createSession _ => []
  | .reorderSessions sessionIds => sessionIds.map anyId
  | .createTab sessionId _ | .archiveSession sessionId _ | .restoreSession sessionId
  | .renameSession sessionId _ | .getSession sessionId => [anyId sessionId]
  | .renameTab tabId _ | .saveTabLayout tabId _ _ | .archiveTab tabId _ => [anyId tabId]
  | .reorderTabs sessionId tabIds => anyId sessionId :: tabIds.map anyId
  | .selectTab sessionId tabId | .createTerminal sessionId tabId _ =>
    anyId sessionId :: tabId.toList.map anyId
  | .getTerminal muxTerminalId | .stopTerminal muxTerminalId _ | .restartTerminal muxTerminalId _
  | .closeTerminal muxTerminalId | .renameTerminal muxTerminalId _ => [anyId muxTerminalId]
  | .reorderTerminals sessionId tabId muxTerminalIds =>
    anyId sessionId :: (tabId.toList.map anyId ++ muxTerminalIds.map anyId)
  | .moveTerminal muxTerminalId targetTabId => [anyId muxTerminalId, anyId targetTabId]
  | .selectTerminal sessionId muxTerminalId => anyId sessionId :: muxTerminalId.toList.map anyId

inductive RoutingError where
  | message (text : String)
  deriving DecidableEq

def notAvailable : EntityKind → String
  | .session => "Session is not available on a connected server"
  | .tab => "Window is not available on a connected server"
  | .terminal | .pty => "Terminal is not available on a connected server"

def ownerFor (owners : Owners) {kind : EntityKind} (id : EntityId kind) :
    Except RoutingError (Owner kind) :=
  match (owners kind).get? id with
  | some owner => .ok owner
  | none => .error (.message (notAvailable kind))

def ownerForPty (owners : Owners) (activeServer : ServerId) (id : PtyId) : Owner .pty :=
  ((owners .pty).get? id).getD ⟨activeServer, id⟩

def toLocalId (owners : Owners) {kind : EntityKind} (id : EntityId kind) :
    Except RoutingError (EntityId kind) := do
  return (← ownerFor owners id).localId

def toLocalIds (owners : Owners) {kind : EntityKind} :
    List (EntityId kind) → Except RoutingError (List (EntityId kind))
  | [] => return []
  | id :: rest => do
      let localId ← toLocalId owners id
      return localId :: (← toLocalIds owners rest)

def toLocalOption (owners : Owners) {kind : EntityKind} :
    Option (EntityId kind) → Except RoutingError (Option (EntityId kind))
  | none => return none
  | some id => do return some (← toLocalId owners id)

/-- `toLocalCommand`; the methods that do not call it translate their ids the
same way. -/
def toLocalCommand (owners : Owners) : MuxCommand → Except RoutingError MuxCommand
  | .listSessions includeArchived => return .listSessions includeArchived
  | .createSession title => return .createSession title
  | .reorderSessions sessionIds => return .reorderSessions (← toLocalIds owners sessionIds)
  | .createTab sessionId title => return .createTab (← toLocalId owners sessionId) title
  | .renameTab tabId title => return .renameTab (← toLocalId owners tabId) title
  | .saveTabLayout tabId layoutJson revision =>
    return .saveTabLayout (← toLocalId owners tabId) layoutJson revision
  | .archiveTab tabId stopTerminals => return .archiveTab (← toLocalId owners tabId) stopTerminals
  | .reorderTabs sessionId tabIds =>
    return .reorderTabs (← toLocalId owners sessionId) (← toLocalIds owners tabIds)
  | .selectTab sessionId tabId =>
    return .selectTab (← toLocalId owners sessionId) (← toLocalOption owners tabId)
  | .archiveSession sessionId stopTerminals =>
    return .archiveSession (← toLocalId owners sessionId) stopTerminals
  | .restoreSession sessionId => return .restoreSession (← toLocalId owners sessionId)
  | .renameSession sessionId title => return .renameSession (← toLocalId owners sessionId) title
  | .getSession sessionId => return .getSession (← toLocalId owners sessionId)
  | .createTerminal sessionId tabId title =>
    return .createTerminal (← toLocalId owners sessionId) (← toLocalOption owners tabId) title
  | .getTerminal muxTerminalId => return .getTerminal (← toLocalId owners muxTerminalId)
  | .reorderTerminals sessionId tabId muxTerminalIds =>
    return .reorderTerminals (← toLocalId owners sessionId) (← toLocalOption owners tabId)
      (← toLocalIds owners muxTerminalIds)
  | .moveTerminal muxTerminalId targetTabId => do
      let terminalOwner ← ownerFor owners muxTerminalId
      let tabOwner ← ownerFor owners targetTabId
      if terminalOwner.serverId ≠ tabOwner.serverId then
        throw (.message "A terminal cannot move between YAADE servers")
      return .moveTerminal terminalOwner.localId tabOwner.localId
  | .selectTerminal sessionId muxTerminalId =>
    return .selectTerminal (← toLocalId owners sessionId) (← toLocalOption owners muxTerminalId)
  | .stopTerminal muxTerminalId revision =>
    return .stopTerminal (← toLocalId owners muxTerminalId) revision
  | .restartTerminal muxTerminalId revision =>
    return .restartTerminal (← toLocalId owners muxTerminalId) revision
  | .closeTerminal muxTerminalId => return .closeTerminal (← toLocalId owners muxTerminalId)
  | .renameTerminal muxTerminalId title =>
    return .renameTerminal (← toLocalId owners muxTerminalId) title

/-- A request that was sent to a server. -/
structure Request where
  serverId : ServerId
  command : MuxCommand

/-- The sessions of a list grouped by their server, in the order in which the
servers occur first. -/
def groupSessions (owners : Owners) : List SessionId →
    IndexMap ServerId (List SessionId) → Except RoutingError (IndexMap ServerId (List SessionId))
  | [], grouped => return grouped
  | id :: rest, grouped => do
      let owner ← ownerFor owners id
      groupSessions owners rest (grouped.insert owner.serverId
        ((grouped.get? owner.serverId).getD [] ++ [owner.localId]))

structure RoutingConfig where
  current : ServerId
  servers : List ServerId
  current_mem : current ∈ servers
  distinct : servers.Nodup

def routeTo (config : RoutingConfig) (owners : Owners) {kind : EntityKind} (id : EntityId kind)
    (command : MuxCommand) : Except RoutingError (List Request) := do
  let owner ← ownerFor owners id
  if owner.serverId ∉ config.servers then
    throw (.message "YAADE server is no longer connected")
  return [⟨owner.serverId, ← toLocalCommand owners command⟩]

def route (config : RoutingConfig) (owners : Owners) (activeServer : ServerId) :
    MuxCommand → Except RoutingError (List Request)
  | .listSessions includeArchived =>
    return config.servers.map fun server => ⟨server, .listSessions includeArchived⟩
  | .createSession title => return [⟨activeServer, .createSession title⟩]
  | .reorderSessions sessionIds => do
      let grouped ← groupSessions owners sessionIds .empty
      return (grouped.entries.filter fun entry => entry.1 ∈ config.servers).map
        fun entry => ⟨entry.1, .reorderSessions entry.2⟩
  | .createTab sessionId title => routeTo config owners sessionId (.createTab sessionId title)
  | .renameTab tabId title => routeTo config owners tabId (.renameTab tabId title)
  | .saveTabLayout tabId layoutJson revision =>
    routeTo config owners tabId (.saveTabLayout tabId layoutJson revision)
  | .archiveTab tabId stopTerminals => routeTo config owners tabId (.archiveTab tabId stopTerminals)
  | .reorderTabs sessionId tabIds =>
    routeTo config owners sessionId (.reorderTabs sessionId tabIds)
  | .selectTab sessionId tabId => routeTo config owners sessionId (.selectTab sessionId tabId)
  | .archiveSession sessionId stopTerminals =>
    routeTo config owners sessionId (.archiveSession sessionId stopTerminals)
  | .restoreSession sessionId => routeTo config owners sessionId (.restoreSession sessionId)
  | .renameSession sessionId title =>
    routeTo config owners sessionId (.renameSession sessionId title)
  | .getSession sessionId => routeTo config owners sessionId (.getSession sessionId)
  | .createTerminal sessionId tabId title =>
    routeTo config owners sessionId (.createTerminal sessionId tabId title)
  | .getTerminal muxTerminalId =>
    routeTo config owners muxTerminalId (.getTerminal muxTerminalId)
  | .reorderTerminals sessionId tabId muxTerminalIds =>
    routeTo config owners sessionId (.reorderTerminals sessionId tabId muxTerminalIds)
  | .moveTerminal muxTerminalId targetTabId =>
    routeTo config owners muxTerminalId (.moveTerminal muxTerminalId targetTabId)
  | .selectTerminal sessionId muxTerminalId =>
    routeTo config owners sessionId (.selectTerminal sessionId muxTerminalId)
  | .stopTerminal muxTerminalId revision =>
    routeTo config owners muxTerminalId (.stopTerminal muxTerminalId revision)
  | .restartTerminal muxTerminalId revision =>
    routeTo config owners muxTerminalId (.restartTerminal muxTerminalId revision)
  | .closeTerminal muxTerminalId =>
    routeTo config owners muxTerminalId (.closeTerminal muxTerminalId)
  | .renameTerminal muxTerminalId title =>
    routeTo config owners muxTerminalId (.renameTerminal muxTerminalId title)

/-- The session whose server becomes the active one before the command is
translated. -/
def MuxCommand.selects : MuxCommand → Option SessionId
  | .selectTab sessionId _ | .createTerminal sessionId _ _ | .selectTerminal sessionId _ =>
    some sessionId
  | _ => none

end Yaade.Mux

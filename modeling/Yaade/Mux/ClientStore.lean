import Yaade.Library.StableSort
import Yaade.Library.Transition
import Yaade.Mux.Ids
import Yaade.Mux.SessionStore

/-!
The client's store with the records it keeps, the lists by which they are
shown, the closes under way and the selection.
-/

namespace Yaade.Mux.Client

open Yaade.Library List

/-! ## Records -/

def truthy (text : Option String) : Bool := text.any (· ≠ "")

structure AppSession where
  id : SessionId
  title : String
  position : Int
  activeTabId : Option SessionTabId
  activeMuxTerminalId : Option MuxTerminalId
  revision : Option Nat
  createdAt : String
  updatedAt : String
  archivedAt : Option String
  deriving DecidableEq

structure SessionTab where
  id : SessionTabId
  sessionId : SessionId
  title : String
  position : Int
  activeMuxTerminalId : Option MuxTerminalId
  layoutJson : Option String
  revision : Option Nat
  createdAt : String
  updatedAt : String
  archivedAt : Option String
  deriving DecidableEq

/-- The input and the output are the JSON values that they are sent as. -/
structure MuxTerminal where
  id : MuxTerminalId
  sessionId : SessionId
  tabId : Option SessionTabId
  kind : String
  title : String
  position : Int
  status : String
  input : String
  inputRevision : Nat
  output : String
  error : Option String
  revision : Nat
  createdAt : String
  updatedAt : String
  startedAt : Option String
  finishedAt : Option String
  archivedAt : Option String
  deriving DecidableEq

def AppSession.archived (session : AppSession) : Bool := truthy session.archivedAt
def SessionTab.archived (tab : SessionTab) : Bool := truthy tab.archivedAt
def MuxTerminal.archived (terminal : MuxTerminal) : Bool := truthy terminal.archivedAt

theorem accepts_fallback (id : SessionId) :
    EntityKind.tab.accepts ("tab-" ++ String.ofList (id.value.toList.drop 4)) = true := by
  have hvalid := id.valid
  unfold EntityKind.accepts EntityKind.tag? matchesTag at hvalid ⊢
  simp only [Bool.and_eq_true] at hvalid ⊢
  have hdrop : ("tab-" ++ String.ofList (id.value.toList.drop 4)).toList.drop 4 =
      id.value.toList.drop 4 := by
    simp only [String.toList_append, String.toList_ofList]
    rfl
  refine ⟨⟨?_, ?_⟩, ?_⟩
  · rw [ isPrefixOf_iff_prefix, String.toList_append]
    exact prefix_append _ _
  · show (!(("tab-" ++ String.ofList (id.value.toList.drop 4)).toList.drop 4).isEmpty) = true
    rw [hdrop]
    exact hvalid.1.2
  · show (("tab-" ++ String.ofList (id.value.toList.drop 4)).toList.drop 4).all idCharacter = true
    rw [hdrop]
    exact hvalid.2

def fallbackTabId (id : SessionId) : SessionTabId := ⟨_, accepts_fallback id⟩

def fallbackTab (session : AppSession) : SessionTab where
  id := fallbackTabId session.id
  sessionId := session.id
  title := "Window 1"
  position := 0
  activeMuxTerminalId := none
  layoutJson := none
  revision := none
  createdAt := session.createdAt
  updatedAt := session.updatedAt
  archivedAt := none

def SessionTab.shownIn (sessionId : SessionId) (tab : SessionTab) : Bool :=
  tab.sessionId = sessionId && !tab.archived

/-! ## Maps and their lists -/

section Lists

variable {κ α : Type} [DecidableEq κ]

def mapOf (idOf : α → κ) (items : List α) : IndexMap κ α :=
  items.foldl (fun map item => map.insert (idOf item) item) .empty

def listAt (lists : IndexMap κ (List α)) (key : κ) : List α := (lists.get? key).getD []

def push (lists : IndexMap κ (List α)) (entry : κ × α) : IndexMap κ (List α) :=
  lists.insert entry.1 (listAt lists entry.1 ++ [entry.2])

def pushAll (lists : IndexMap κ (List α)) (entries : List (κ × α)) : IndexMap κ (List α) :=
  entries.foldl push lists

def emptyLists (keys : List κ) : IndexMap κ (List α) :=
  keys.foldl (fun lists key => lists.insert key []) .empty

/-- The merge of one map: the snapshot's items unless those here are newer, and
items here that have changed since the baseline. -/
def mergeMap (idOf : α → κ) (revisionOf : α → Nat) (current : IndexMap κ α) (incoming : List α)
    (baseline : IndexMap κ Nat) : IndexMap κ α :=
  let incomingMap := mapOf idOf incoming
  let merged := incomingMap.mapValues fun item =>
    match current.get? (idOf item) with
    | some old => if revisionOf old > revisionOf item then old else item
    | none => item
  current.entries.foldl (fun next entry =>
    if incomingMap.contains entry.1 then next
    else if revisionOf entry.2 > (baseline.get? entry.1).getD 0 then next.insert entry.1 entry.2
    else next) merged

end Lists

/-! ## Local keys -/

def untagged : List Char → List Char
  | 's' :: 'e' :: 's' :: '-' :: rest => rest
  | 't' :: 'a' :: 'b' :: '-' :: rest => rest
  | 't' :: 'e' :: 'r' :: 'm' :: '-' :: rest => rest
  | chars => chars

def afterDashes : List Char → Option (List Char)
  | [] => none
  | '-' :: '-' :: rest => some rest
  | _ :: rest => afterDashes rest

def localResourceKey (id : String) : List Char :=
  let rest := untagged id.toList
  (afterDashes rest).getD rest

def findByLocalKey {κ α : Type} [DecidableEq κ] (items : IndexMap κ α) (textOf : α → String)
    (requested : κ) (text : String) : Option α :=
  items.get? requested <|>
    items.values.find? fun item => localResourceKey (textOf item) = localResourceKey text

/-! ## The store -/

structure MuxStoreRevisionSnapshot where
  sessions : IndexMap SessionId Nat
  tabs : IndexMap SessionTabId Nat
  terminals : IndexMap MuxTerminalId Nat

structure MuxSessionStore where
  sessionsById : IndexMap SessionId AppSession
  visibleSessionIds : List SessionId
  tabsById : IndexMap SessionTabId SessionTab
  visibleTabIdsBySession : IndexMap SessionId (List SessionTabId)
  terminalsById : IndexMap MuxTerminalId MuxTerminal
  terminalIdsBySession : IndexMap SessionId (List MuxTerminalId)
  terminalIdsByTab : IndexMap SessionTabId (List MuxTerminalId)
  activeSessionId : Option SessionId
  activeTabId : Option SessionTabId
  activeMuxTerminalId : Option MuxTerminalId
  revisions : IndexMap EntityKey Nat
  pendingTerminalCloses : IndexMap MuxTerminalId Nat
  pendingTabCloses : IndexMap SessionTabId Nat
  nextCloseMutationId : Nat
  deriving DecidableEq

/-- The tags of one family are handled alike. -/
inductive MuxEvent where
  | session (revision : Nat) (session : AppSession)
  | tab (revision : Nat) (tab : SessionTab)
  | terminal (revision : Nat) (muxTerminalId : MuxTerminalId) (muxTerminal : MuxTerminal)
  | outputChanged (revision : Nat) (muxTerminalId : MuxTerminalId) (occurredAt output : String)
  | terminalArchived (revision : Nat) (muxTerminalId : MuxTerminalId) (occurredAt : String)
  deriving DecidableEq

def sessionKey (id : SessionId) : EntityKey := ⟨.session, id.value⟩
def tabKey (id : SessionTabId) : EntityKey := ⟨.tab, id.value⟩
def terminalKey (id : MuxTerminalId) : EntityKey := ⟨.muxTerminal, id.value⟩

def MuxEvent.revision : MuxEvent → Nat
  | .session revision _ | .tab revision _ | .terminal revision _ _ | .outputChanged revision _ _ _
  | .terminalArchived revision _ _ => revision

def MuxEvent.key : MuxEvent → EntityKey
  | .session _ record => sessionKey record.id
  | .tab _ record => tabKey record.id
  | .terminal _ muxTerminalId _ | .outputChanged _ muxTerminalId _ _
  | .terminalArchived _ muxTerminalId _ => terminalKey muxTerminalId

def sessionRevisions (sessions : List AppSession) : List (EntityKey × Nat) :=
  sessions.map fun session => (sessionKey session.id, session.revision.getD 0)

def tabRevisions (tabs : List SessionTab) : List (EntityKey × Nat) :=
  tabs.map fun tab => (tabKey tab.id, tab.revision.getD 0)

def terminalRevisions (terminals : List MuxTerminal) : List (EntityKey × Nat) :=
  terminals.map fun terminal => (terminalKey terminal.id, terminal.revision)

def MuxStoreRevisionSnapshot.revisions (baseline : MuxStoreRevisionSnapshot) :
    List (EntityKey × Nat) :=
  (baseline.sessions.entries.map fun entry => (sessionKey entry.1, entry.2)) ++
    (baseline.tabs.entries.map fun entry => (tabKey entry.1, entry.2)) ++
    (baseline.terminals.entries.map fun entry => (terminalKey entry.1, entry.2))

namespace MuxSessionStore

def empty : MuxSessionStore :=
  ⟨.empty, [], .empty, .empty, .empty, .empty, .empty, none, none, none, .empty, .empty, .empty, 1⟩

variable (store : MuxSessionStore)

def captureRevisions : MuxStoreRevisionSnapshot where
  sessions := store.sessionsById.entries.foldl (fun map entry =>
    map.insert entry.1 (entry.2.revision.getD 0)) .empty
  tabs := store.tabsById.entries.foldl (fun map entry =>
    map.insert entry.1 (entry.2.revision.getD 0)) .empty
  terminals := store.terminalsById.entries.foldl (fun map entry =>
    map.insert entry.1 entry.2.revision) .empty

/-! ### Indexes -/

def tabPosition (id : SessionTabId) : Int := ((store.tabsById.get? id).map SessionTab.position).getD 0

def terminalPosition (id : MuxTerminalId) : Int :=
  ((store.terminalsById.get? id).map MuxTerminal.position).getD 0

def tabVisible (tab : SessionTab) : Bool := !tab.archived && !store.pendingTabCloses.contains tab.id

def tabIdForTerminal (terminal : MuxTerminal) : Option SessionTabId :=
  terminal.tabId.filter (store.tabsById.contains ·) <|>
    (listAt store.visibleTabIdsBySession terminal.sessionId).head?

def listedIn (terminal : MuxTerminal) : Option SessionTabId :=
  if terminal.archived || store.pendingTerminalCloses.contains terminal.id then none
  else (store.tabIdForTerminal terminal).filter fun tabId =>
    !(store.tabsById.get? tabId).any SessionTab.archived && !store.pendingTabCloses.contains tabId

def rebuildTerminalIndexes : MuxSessionStore :=
  let listed := store.terminalsById.values.filterMap fun terminal =>
    (store.listedIn terminal).map fun tabId => (terminal, tabId)
  let bySession := pushAll (emptyLists store.visibleSessionIds)
    (listed.map fun entry => (entry.1.sessionId, entry.1.id))
  let byTab := pushAll
    (emptyLists ((store.tabsById.values.filter store.tabVisible).map SessionTab.id))
    (listed.map fun entry => (entry.2, entry.1.id))
  { store with
    terminalIdsBySession := bySession.mapValues (orderBy store.terminalPosition)
    terminalIdsByTab := byTab.mapValues (orderBy store.terminalPosition) }

def rebuildVisibleSessions : MuxSessionStore :=
  { store with
    visibleSessionIds := (orderBy AppSession.position
      (store.sessionsById.values.filter fun session => !session.archived)).map AppSession.id }

def visibleTabs (tabs : List SessionTab) : IndexMap SessionId (List SessionTabId) :=
  (pushAll .empty ((tabs.filter store.tabVisible).map fun tab =>
    (tab.sessionId, tab.id))).mapValues (orderBy store.tabPosition)

def rebuildVisibleTabs : MuxSessionStore :=
  { store with
    visibleTabIdsBySession := store.visibleTabs store.tabsById.values }.rebuildTerminalIndexes

def updateTerminalIndexes (previous : Option MuxTerminal) (next : MuxTerminal) : MuxSessionStore :=
  let removed := previous.filter fun terminal => !terminal.archived
  let removedTab := removed.bind store.tabIdForTerminal
  let without (id : MuxTerminalId) (ids : List MuxTerminalId) := ids.filter (· ≠ id)
  let sessionIndexes := match removed with
    | some terminal => store.terminalIdsBySession.insert terminal.sessionId
        (without terminal.id (listAt store.terminalIdsBySession terminal.sessionId))
    | none => store.terminalIdsBySession
  let tabIndexes := match removed, removedTab with
    | some terminal, some tabId => store.terminalIdsByTab.insert tabId
        (without terminal.id (listAt store.terminalIdsByTab tabId))
    | _, _ => store.terminalIdsByTab
  let inserted := store.listedIn next
  let sessionIndexes := match inserted with
    | some _ => push sessionIndexes (next.sessionId, next.id)
    | none => sessionIndexes
  let tabIndexes := match inserted with
    | some tabId => push tabIndexes (tabId, next.id)
    | none => tabIndexes
  let touchedSessions := (removed.map MuxTerminal.sessionId).toList ++
    (inserted.map fun _ => next.sessionId).toList
  let touchedTabs := removedTab.toList ++ inserted.toList
  { store with
    terminalIdsBySession := touchedSessions.foldl (fun indexes sessionId =>
      indexes.modify sessionId (orderBy store.terminalPosition)) sessionIndexes
    terminalIdsByTab := touchedTabs.foldl (fun indexes tabId =>
      indexes.modify tabId (orderBy store.terminalPosition)) tabIndexes }

def indexChanged (previous : Option MuxTerminal) (terminal : MuxTerminal) : Bool :=
  !previous.any fun old => old.sessionId = terminal.sessionId && old.tabId = terminal.tabId &&
    old.archivedAt = terminal.archivedAt && old.position = terminal.position

def upsertTerminal (terminal : MuxTerminal) : MuxSessionStore :=
  let previous := store.terminalsById.get? terminal.id
  let next := { store with terminalsById := store.terminalsById.insert terminal.id terminal }
  if indexChanged previous terminal then next.updateTerminalIndexes previous terminal else next

/-! ### Selection -/

def selectedTabForSession (id : SessionId) : Option SessionTabId :=
  let ids := listAt store.visibleTabIdsBySession id
  (((store.sessionsById.get? id).bind AppSession.activeTabId).filter (· ∈ ids)) <|> ids.head?

def selectedTerminalForTab (id : SessionTabId) : Option MuxTerminalId :=
  let ids := listAt store.terminalIdsByTab id
  (((store.tabsById.get? id).bind SessionTab.activeMuxTerminalId).filter (· ∈ ids)) <|> ids.head?

def reconcileSelection : MuxSessionStore :=
  let activeSessionId := store.activeSessionId.filter (fun id =>
    store.sessionsById.contains id && decide (id ∈ store.visibleSessionIds)) <|>
      store.visibleSessionIds.head?
  match activeSessionId with
  | none => { store with activeSessionId := none, activeTabId := none, activeMuxTerminalId := none }
  | some sessionId =>
    let tabIds := listAt store.visibleTabIdsBySession sessionId
    let activeTabId := store.activeTabId.filter (· ∈ tabIds) <|>
      store.selectedTabForSession sessionId
    { store with
      activeSessionId := activeSessionId
      activeTabId := activeTabId
      activeMuxTerminalId := activeTabId.bind fun tabId =>
        store.activeMuxTerminalId.filter (· ∈ listAt store.terminalIdsByTab tabId) <|>
          store.selectedTerminalForTab tabId }

def resolveSessionId (id : SessionId) : Option SessionId :=
  if store.sessionsById.contains id then some id
  else (findByLocalKey store.sessionsById (fun session => session.id.value) id id.value).map
    AppSession.id

def selectSession (id : SessionId) : MuxSessionStore :=
  match store.resolveSessionId id with
  | none => store
  | some resolved =>
    if store.activeSessionId = some resolved then store
    else
      let activeTabId := store.selectedTabForSession resolved
      { store with
        activeSessionId := some resolved
        activeTabId := activeTabId
        activeMuxTerminalId := activeTabId.bind store.selectedTerminalForTab }

def selectableTab (id : SessionTabId) : Option SessionTab :=
  (findByLocalKey store.tabsById (fun tab => tab.id.value) id id.value).filter fun tab =>
    !(tab.archived || store.pendingTabCloses.contains tab.id)

def selectTab (id : SessionTabId) : MuxSessionStore :=
  match store.selectableTab id with
  | none => store
  | some tab => { store with
      activeSessionId := some tab.sessionId
      activeTabId := some id
      activeMuxTerminalId := store.selectedTerminalForTab id }

/-- The terminal that `selectMuxTerminal` finds, and its tab, if it selects one. -/
def selectableTerminal (id : MuxTerminalId) : Option (MuxTerminal × SessionTabId) :=
  ((findByLocalKey store.terminalsById (fun terminal => terminal.id.value) id id.value).filter
    fun terminal => !(terminal.archived || store.pendingTerminalCloses.contains terminal.id)).bind
      fun terminal => (store.tabIdForTerminal terminal).map fun tabId => (terminal, tabId)

def selectMuxTerminal (id : MuxTerminalId) : MuxSessionStore :=
  match store.selectableTerminal id with
  | none => store
  | some (terminal, tabId) => { store with
      activeSessionId := some terminal.sessionId
      activeTabId := some tabId
      activeMuxTerminalId := some id }

/-! ### Snapshots and replies -/

def clearAuthoritativelyFinishedCloses : MuxSessionStore :=
  { store with
    pendingTerminalCloses := store.pendingTerminalCloses.retain fun id _ =>
      (store.terminalsById.get? id).any fun terminal => !terminal.archived
    pendingTabCloses := store.pendingTabCloses.retain fun id _ =>
      (store.tabsById.get? id).any fun tab => !tab.archived }

def addFallbacks (sessions : List AppSession) (tabs : IndexMap SessionTabId SessionTab) :
    IndexMap SessionTabId SessionTab :=
  sessions.foldl (fun tabs session =>
    if tabs.values.any (SessionTab.shownIn session.id) then tabs
    else tabs.insert (fallbackTab session).id (fallbackTab session)) tabs

def mergeSnapshot (sessions : List AppSession) (terminals : List MuxTerminal)
    (tabs : List SessionTab) (hasTabs : Bool) (baseline : MuxStoreRevisionSnapshot) :
    MuxSessionStore :=
  let nextSessions := mergeMap AppSession.id (fun session => session.revision.getD 0)
    store.sessionsById sessions baseline.sessions
  let mergedTabs := if hasTabs then mergeMap SessionTab.id (fun tab => tab.revision.getD 0)
    store.tabsById tabs baseline.tabs else store.tabsById
  let nextTabs := addFallbacks nextSessions.values mergedTabs
  let nextTerminals := mergeMap MuxTerminal.id MuxTerminal.revision store.terminalsById terminals
    baseline.terminals
  let merged := { store with
    sessionsById := nextSessions, tabsById := nextTabs, terminalsById := nextTerminals
  }.clearAuthoritativelyFinishedCloses
  let revisions := raiseRevisions store.revisions (sessionRevisions nextSessions.values ++
    tabRevisions nextTabs.values ++ terminalRevisions nextTerminals.values ++ baseline.revisions)
  { merged with revisions := revisions
  }.rebuildVisibleSessions.rebuildVisibleTabs.reconcileSelection

def withFallbacks (sessions : List AppSession) (tabs : List SessionTab) : List SessionTab :=
  sessions.foldl (fun tabs session =>
    if tabs.any (SessionTab.shownIn session.id) then tabs else tabs ++ [fallbackTab session]) tabs

def replace (sessions : List AppSession) (terminals : List MuxTerminal) (tabs : List SessionTab) :
    MuxSessionStore :=
  let nextTabs := withFallbacks sessions tabs
  let replaced := { store with
    sessionsById := mapOf AppSession.id sessions
    visibleSessionIds := (orderBy AppSession.position
      (sessions.filter fun session => !session.archived)).map AppSession.id
    tabsById := mapOf SessionTab.id nextTabs
    terminalsById := mapOf MuxTerminal.id terminals }
  let listed := { replaced with visibleTabIdsBySession := replaced.visibleTabs nextTabs
    }.clearAuthoritativelyFinishedCloses
  let revisions := raiseRevisions store.revisions
    (sessionRevisions sessions ++ tabRevisions tabs ++ terminalRevisions terminals)
  { listed with revisions := revisions
  }.rebuildTerminalIndexes.reconcileSelection

def sessionReplacement (session : AppSession) (terminals : List MuxTerminal)
    (tabs : Option (List SessionTab)) :
    List AppSession × List MuxTerminal × List SessionTab :=
  let nextSession := match store.sessionsById.get? session.id with
    | some current =>
      if current.revision.getD 0 > session.revision.getD 0 then current else session
    | none => session
  let sessions := store.sessionsById.values.filter fun candidate => candidate.id ≠ session.id
  let existingTerminals := store.terminalsById.values.filter fun candidate =>
    candidate.sessionId ≠ session.id
  let incomingTerminals := mapOf MuxTerminal.id terminals
  let incomingTerminals := store.terminalsById.values.foldl (fun incoming current =>
    if current.sessionId = session.id && !incoming.contains current.id && current.archived then
      incoming.insert current.id current
    else incoming) incomingTerminals
  let incomingTerminals := terminals.foldl (fun incoming terminal =>
    match store.terminalsById.get? terminal.id with
    | some current =>
      if current.revision > terminal.revision then incoming.insert terminal.id current
      else incoming
    | none => incoming) incomingTerminals
  let existingTabs := store.tabsById.values.filter fun candidate =>
    candidate.sessionId ≠ session.id
  let incomingTabs := mapOf SessionTab.id (tabs.getD [])
  let incomingTabs := store.tabsById.values.foldl (fun incoming current =>
    if current.sessionId ≠ session.id then incoming
    else if tabs.isNone || !incoming.contains current.id && current.archived then
      incoming.insert current.id current
    else incoming) incomingTabs
  let incomingTabs := (tabs.getD []).foldl (fun incoming tab =>
    match store.tabsById.get? tab.id with
    | some current =>
      if current.revision.getD 0 > tab.revision.getD 0 then incoming.insert tab.id current
      else incoming
    | none => incoming) incomingTabs
  (sessions ++ [nextSession], existingTerminals ++ incomingTerminals.values,
    existingTabs ++ incomingTabs.values)

def replaceSession (session : AppSession) (terminals : List MuxTerminal)
    (tabs : Option (List SessionTab)) : MuxSessionStore :=
  let lists := store.sessionReplacement session terminals tabs
  store.replace lists.1 lists.2.1 lists.2.2

def replaceTab (tab : SessionTab) : MuxSessionStore :=
  if (store.tabsById.get? tab.id).any fun current =>
      current.revision.getD 0 > tab.revision.getD 0 ||
        current.revision.getD 0 = tab.revision.getD 0 && current.updatedAt > tab.updatedAt then store
  else { store with
    tabsById := store.tabsById.insert tab.id tab
    pendingTabCloses := if tab.archived then store.pendingTabCloses.shiftRemove tab.id
      else store.pendingTabCloses }.rebuildVisibleTabs.reconcileSelection

def terminalIsNewer (terminal : MuxTerminal) : Bool :=
  (store.terminalsById.get? terminal.id).any fun current => current.revision > terminal.revision ||
    current.revision = terminal.revision && current.updatedAt > terminal.updatedAt

def terminalReplacement (terminal : MuxTerminal) :
    List AppSession × List MuxTerminal × List SessionTab :=
  (store.sessionsById.values,
    (store.terminalsById.values.filter fun candidate => candidate.id ≠ terminal.id) ++ [terminal],
    store.tabsById.values)

def replaceMuxTerminal (terminal : MuxTerminal) : MuxSessionStore :=
  if store.terminalIsNewer terminal then store
  else
    let lists := store.terminalReplacement terminal
    store.replace lists.1 lists.2.1 lists.2.2

def replaceMuxTerminalIfNewer (terminal : MuxTerminal) : MuxSessionStore :=
  if (store.terminalsById.get? terminal.id).any fun current =>
      current.revision > terminal.revision then store
  else store.replaceMuxTerminal terminal

/-! ### Closes -/

def stageTerminalClose (id : MuxTerminalId) : MuxSessionStore :=
  if !((store.terminalsById.get? id).any fun terminal => !terminal.archived) ||
      store.pendingTerminalCloses.contains id then store
  else { store with
    nextCloseMutationId := store.nextCloseMutationId + 1
    pendingTerminalCloses := store.pendingTerminalCloses.insert id store.nextCloseMutationId
  }.rebuildTerminalIndexes.reconcileSelection

def stageTabClose (id : SessionTabId) : MuxSessionStore :=
  if !((store.tabsById.get? id).any fun tab => !tab.archived) ||
      store.pendingTabCloses.contains id then store
  else { store with
    nextCloseMutationId := store.nextCloseMutationId + 1
    pendingTabCloses := store.pendingTabCloses.insert id store.nextCloseMutationId
  }.rebuildVisibleTabs.reconcileSelection

def clearPendingCloses : MuxSessionStore :=
  if store.pendingTerminalCloses.isEmpty && store.pendingTabCloses.isEmpty then store
  else { store with pendingTerminalCloses := .empty, pendingTabCloses := .empty
    }.rebuildVisibleTabs.reconcileSelection

def confirmTerminalClose (id : MuxTerminalId) (mutationId : Nat) : MuxSessionStore :=
  if store.pendingTerminalCloses.get? id = some mutationId then
    { store with pendingTerminalCloses := store.pendingTerminalCloses.shiftRemove id }
  else store

def confirmTabClose (id : SessionTabId) (mutationId : Nat) : MuxSessionStore :=
  if store.pendingTabCloses.get? id = some mutationId then
    { store with pendingTabCloses := store.pendingTabCloses.shiftRemove id }
  else store

def rollbackTerminalClose (id : MuxTerminalId) (mutationId : Nat) : MuxSessionStore :=
  if store.pendingTerminalCloses.get? id = some mutationId then
    { store with pendingTerminalCloses := store.pendingTerminalCloses.shiftRemove id
      }.rebuildVisibleTabs.reconcileSelection
  else store

def rollbackTabClose (id : SessionTabId) (mutationId : Nat) : MuxSessionStore :=
  if store.pendingTabCloses.get? id = some mutationId then
    { store with pendingTabCloses := store.pendingTabCloses.shiftRemove id
      }.rebuildVisibleTabs.reconcileSelection
  else store

/-! ### Events -/

def recordRevision : MuxEvent → Option Nat
  | .session _ session => (store.sessionsById.get? session.id).bind AppSession.revision
  | .tab _ tab => (store.tabsById.get? tab.id).bind SessionTab.revision
  | .terminal _ muxTerminalId _ | .outputChanged _ muxTerminalId _ _
  | .terminalArchived _ muxTerminalId _ =>
    (store.terminalsById.get? muxTerminalId).map MuxTerminal.revision

def knownRevision (event : MuxEvent) : Nat :=
  max ((store.revisions.get? event.key).getD 0) ((store.recordRevision event).getD 0)

def followSession (session : AppSession) : MuxSessionStore :=
  if store.activeSessionId = some session.id then
    let tabIds := listAt store.visibleTabIdsBySession session.id
    let nextTabId := store.activeTabId.filter (· ∈ tabIds) <|>
      session.activeTabId.filter (· ∈ tabIds) <|> store.selectedTabForSession session.id
    let terminalIds := (nextTabId.map (listAt store.terminalIdsByTab ·)).getD []
    { store with
      activeTabId := nextTabId
      activeMuxTerminalId := store.activeMuxTerminalId.filter (· ∈ terminalIds) <|>
        nextTabId.bind store.selectedTerminalForTab }
  else store

def followTab (id : SessionTabId) : MuxSessionStore :=
  if store.activeTabId = some id then
    { store with activeMuxTerminalId :=
        store.activeMuxTerminalId.filter (· ∈ listAt store.terminalIdsByTab id) <|>
          store.selectedTerminalForTab id }
  else store

def applyChange : MuxEvent → MuxSessionStore
  | .session _ session =>
    ({ store with sessionsById := store.sessionsById.insert session.id session } :
      MuxSessionStore).rebuildVisibleSessions.followSession session
  | .tab _ tab =>
    ({ store with
      tabsById := store.tabsById.insert tab.id tab
      pendingTabCloses := if tab.archived then store.pendingTabCloses.shiftRemove tab.id
        else store.pendingTabCloses } : MuxSessionStore).rebuildVisibleTabs.followTab tab.id
  | .terminal _ _ muxTerminal =>
    if (store.terminalsById.get? muxTerminal.id).any MuxTerminal.archived &&
        !muxTerminal.archived then store
    else store.upsertTerminal muxTerminal
  | .outputChanged revision muxTerminalId occurredAt output =>
    match store.terminalsById.get? muxTerminalId with
    | some terminal => store.upsertTerminal { terminal with
        output := output, revision := revision, updatedAt := occurredAt }
    | none => store
  | .terminalArchived revision muxTerminalId occurredAt =>
    match store.terminalsById.get? muxTerminalId with
    | some terminal => { store with
        pendingTerminalCloses := store.pendingTerminalCloses.shiftRemove muxTerminalId
      }.upsertTerminal { terminal with
        archivedAt := some occurredAt, revision := revision, updatedAt := occurredAt }
    | none => store

def apply (event : MuxEvent) : MuxSessionStore :=
  if store.knownRevision event ≥ event.revision then store
  else ({ store with revisions := store.revisions.insert event.key event.revision }.applyChange
    event).reconcileSelection

end MuxSessionStore

inductive StoreAction where
  | replace (sessions : List AppSession) (terminals : List MuxTerminal) (tabs : List SessionTab)
  | mergeSnapshot (sessions : List AppSession) (terminals : List MuxTerminal)
      (tabs : List SessionTab) (hasTabs : Bool) (baseline : MuxStoreRevisionSnapshot)
  | replaceSession (session : AppSession) (terminals : List MuxTerminal)
      (tabs : Option (List SessionTab))
  | replaceTab (tab : SessionTab)
  | replaceMuxTerminal (terminal : MuxTerminal)
  | replaceMuxTerminalIfNewer (terminal : MuxTerminal)
  | apply (event : MuxEvent)
  | stageTerminalClose (id : MuxTerminalId)
  | stageTabClose (id : SessionTabId)
  | clearPendingCloses
  | confirmTerminalClose (id : MuxTerminalId) (mutationId : Nat)
  | confirmTabClose (id : SessionTabId) (mutationId : Nat)
  | rollbackTerminalClose (id : MuxTerminalId) (mutationId : Nat)
  | rollbackTabClose (id : SessionTabId) (mutationId : Nat)
  | selectSession (id : SessionId)
  | selectTab (id : SessionTabId)
  | selectMuxTerminal (id : MuxTerminalId)

def StoreAction.run (store : MuxSessionStore) : StoreAction → MuxSessionStore
  | .replace sessions terminals tabs => store.replace sessions terminals tabs
  | .mergeSnapshot sessions terminals tabs hasTabs baseline =>
    store.mergeSnapshot sessions terminals tabs hasTabs baseline
  | .replaceSession session terminals tabs => store.replaceSession session terminals tabs
  | .replaceTab tab => store.replaceTab tab
  | .replaceMuxTerminal terminal => store.replaceMuxTerminal terminal
  | .replaceMuxTerminalIfNewer terminal => store.replaceMuxTerminalIfNewer terminal
  | .apply event => store.apply event
  | .stageTerminalClose id => store.stageTerminalClose id
  | .stageTabClose id => store.stageTabClose id
  | .clearPendingCloses => store.clearPendingCloses
  | .confirmTerminalClose id mutationId => store.confirmTerminalClose id mutationId
  | .confirmTabClose id mutationId => store.confirmTabClose id mutationId
  | .rollbackTerminalClose id mutationId => store.rollbackTerminalClose id mutationId
  | .rollbackTabClose id mutationId => store.rollbackTabClose id mutationId
  | .selectSession id => store.selectSession id
  | .selectTab id => store.selectTab id
  | .selectMuxTerminal id => store.selectMuxTerminal id

def storeSystem : System MuxSessionStore StoreAction where
  initial := (· = .empty)
  step store action := some (action.run store)

end Yaade.Mux.Client

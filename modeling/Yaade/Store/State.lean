import Yaade.Store.Model

/-!
The catalog of the state store: how a method finds, replaces and adds a
record, what a read returns, and the catalog after opening.
-/

namespace Yaade.Store

open Yaade.Library

/-- What one store call takes from outside the store: the successive readings
of the clock, the successive UUIDs, and the error of the database write. -/
structure StoreEnv where
  now : Nat → String
  uuid : Nat → String
  database : Option StoreError

def StoreEnv.constant (time uuid : String) : StoreEnv :=
  { now := fun _ => time, uuid := fun _ => uuid, database := none }

def sessionKey (uuid : String) : String := "ses-" ++ uuid
def tabKey (uuid : String) : String := "tab-" ++ uuid
def terminalKey (uuid : String) : String := "term-" ++ uuid

namespace PersistedState

def session? (state : PersistedState) (id : String) : Option AppSession :=
  row? AppSession.id id state.sessions

def tab? (state : PersistedState) (id : String) : Option SessionTab :=
  row? SessionTab.id id state.tabs

def terminal? (state : PersistedState) (id : String) : Option MuxTerminal :=
  row? MuxTerminal.id id state.terminals

def putSession (state : PersistedState) (session : AppSession) : PersistedState :=
  { state with sessions := updateRow AppSession.id session.id (fun _ => session) state.sessions }

def putTab (state : PersistedState) (tab : SessionTab) : PersistedState :=
  { state with tabs := updateRow SessionTab.id tab.id (fun _ => tab) state.tabs }

def putTerminal (state : PersistedState) (terminal : MuxTerminal) : PersistedState :=
  { state with
    terminals := updateRow MuxTerminal.id terminal.id (fun _ => terminal) state.terminals }

def pushSession (state : PersistedState) (session : AppSession) : PersistedState :=
  { state with sessions := state.sessions ++ [session] }

def pushTab (state : PersistedState) (tab : SessionTab) : PersistedState :=
  { state with tabs := state.tabs ++ [tab] }

def pushTerminal (state : PersistedState) (terminal : MuxTerminal) : PersistedState :=
  { state with terminals := state.terminals ++ [terminal] }

end PersistedState

def isWhitespace (c : Char) : Bool :=
  let n := c.toNat
  (9 ≤ n && n ≤ 13) || n == 32 || n == 0x85 || n == 0xA0 || n == 0x1680 ||
    (0x2000 ≤ n && n ≤ 0x200A) || n == 0x2028 || n == 0x2029 || n == 0x202F ||
    n == 0x205F || n == 0x3000

def trim (value : String) : String :=
  String.ofList (((value.toList.dropWhile isWhitespace).reverse.dropWhile isWhitespace).reverse)

def nonempty (value fallback : String) : String :=
  let trimmed := trim value
  if trimmed = "" then fallback else trimmed

def takeChars (count : Nat) (value : String) : String :=
  String.ofList (value.toList.take count)

def ensure (condition : Bool) (error : StoreError) : Except StoreError Unit :=
  if condition then .ok () else .error error

def findSession (state : PersistedState) (id : String) : Except StoreError AppSession :=
  match state.session? id with
  | some session => .ok session
  | none => .error (.notFound ("session " ++ id))

def findTab (state : PersistedState) (id : String) : Except StoreError SessionTab :=
  match state.tab? id with
  | some tab => .ok tab
  | none => .error (.notFound ("tab " ++ id))

def findTerminal (state : PersistedState) (id : String) : Except StoreError MuxTerminal :=
  match state.terminal? id with
  | some terminal => .ok terminal
  | none => .error (.notFound ("terminal " ++ id))

def touchSession (now : String) (session : AppSession) : AppSession :=
  { session with revision := session.revision + 1, updatedAt := now }

def touchTab (now : String) (tab : SessionTab) : SessionTab :=
  { tab with revision := tab.revision + 1, updatedAt := now }

def assertPermutation (actual expected : List String) (label : String) :
    Except StoreError Unit :=
  if isPermutation actual expected then .ok ()
  else .error (.invalid ("invalid " ++ label ++ " order"))

def shown (includeArchived : Bool) (archivedAt : Option String) : Bool :=
  includeArchived || archivedAt.isNone

def visibleSession (state : PersistedState) (sessionId : String) : Bool :=
  state.sessions.any fun session => session.id = sessionId && session.archivedAt.isNone

def openTab (state : PersistedState) (sessionId tabId : String) : Bool :=
  state.tabs.any fun tab =>
    tab.id = tabId && tab.sessionId = sessionId && tab.archivedAt.isNone

def openTabCount (state : PersistedState) (sessionId : String) : Nat :=
  (state.tabs.filter fun tab => tab.sessionId = sessionId && tab.archivedAt.isNone).length

def openTerminalCount (state : PersistedState) (tabId : String) : Nat :=
  (state.terminals.filter fun terminal =>
    terminal.tabId = some tabId && terminal.archivedAt.isNone).length

def orderedSessions (state : PersistedState) (includeArchived : Bool) : List AppSession :=
  sortBy AppSession.position
    (state.sessions.filter fun session => shown includeArchived session.archivedAt)

def orderedTabs (state : PersistedState) (sessionId : String) (includeArchived : Bool) :
    List SessionTab :=
  sortBy SessionTab.position
    (state.tabs.filter fun tab =>
      tab.sessionId = sessionId && shown includeArchived tab.archivedAt)

def orderedTerminals (state : PersistedState) (tabId : String) (includeArchived : Bool) :
    List MuxTerminal :=
  sortBy MuxTerminal.position
    (state.terminals.filter fun terminal =>
      terminal.tabId = some tabId && shown includeArchived terminal.archivedAt)

def sessionTerminals (state : PersistedState) (sessionId : String) (includeArchived : Bool) :
    List MuxTerminal :=
  sortBy MuxTerminal.position
    (state.terminals.filter fun terminal =>
      terminal.sessionId = sessionId && shown includeArchived terminal.archivedAt)

def snapshot (state : PersistedState) (session : AppSession) (includeArchived : Bool) :
    SessionSnapshot :=
  { session
    tabs := orderedTabs state session.id includeArchived
    muxTerminals := sessionTerminals state session.id includeArchived }

/-! ## Reads -/

def listSnapshots (state : PersistedState) (includeArchived : Bool) : List SessionSnapshot :=
  (orderedSessions state includeArchived).map fun session =>
    snapshot state session includeArchived

def getSnapshot (state : PersistedState) (sessionId : String) : Option SessionSnapshot :=
  (state.session? sessionId).map fun session => snapshot state session false

def terminalForPty (state : PersistedState) (ptyId : String) : Option MuxTerminal :=
  state.terminals.find? fun terminal => terminal.output.ptyId = some ptyId

/-! ## Opening -/

def newSession (timestamp sessionId tabId title : String) (position : Nat) : AppSession :=
  { id := sessionId, title, position, activeTabId := some tabId,
    activeMuxTerminalId := none, revision := 2, createdAt := timestamp,
    updatedAt := timestamp, archivedAt := none }

def newTab (timestamp tabId sessionId title : String) (position : Nat) : SessionTab :=
  { id := tabId, sessionId, title, position, activeMuxTerminalId := none,
    layoutJson := none, revision := 1, createdAt := timestamp, updatedAt := timestamp,
    archivedAt := none }

def ensureVisibleSession (env : StoreEnv) (state : PersistedState) : PersistedState :=
  if state.sessions.any fun session => session.archivedAt.isNone then state
  else
    let timestamp := env.now 0
    let sessionId := sessionKey (env.uuid 0)
    let tabId := tabKey (env.uuid 1)
    (state.pushSession (newSession timestamp sessionId tabId "Session 1" 0)).pushTab
      (newTab timestamp tabId sessionId "Window 1" 0)

def stateSchemaVersion : Nat := 1

def PersistedState.new (env : StoreEnv) (machine : String) : PersistedState :=
  ensureVisibleSession env
    { schemaVersion := stateSchemaVersion, machine, lastServerEpoch := none,
      lastRestart := none, sessions := [], tabs := [], terminals := [] }

/-- The catalog after opening a database that holds `persisted`; a database
without a readable catalog of this schema and machine starts a new one. -/
def openStore (env : StoreEnv) (machine : String) (persisted : Option PersistedState) :
    PersistedState :=
  match persisted.filter fun state =>
      state.schemaVersion = stateSchemaVersion && state.machine = machine with
  | some state => ensureVisibleSession env state
  | none => ensureVisibleSession env (.new env machine)

end Yaade.Store

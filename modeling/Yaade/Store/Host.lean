import Yaade.Store.Revisions

/-!
The store of a host over its runs.
-/

namespace Yaade.Store

open Yaade.Library List Option

/-! ## Mutations -/

/-- The public mutations of the store. -/
inductive StoreMutation where
  | reconcileStartup (serverEpoch : String) (available : List String)
  | createSession (title : String)
  | renameSession (sessionId title : String)
  | reorderSessions (ids : List String)
  | createTab (sessionId title : String)
  | renameTab (tabId title : String)
  | saveTabLayout (tabId layoutJson : String) (expectedRevision : Option Nat)
  | reorderTabs (sessionId : String) (ids : List String)
  | selectTab (sessionId : String) (tabId : Option String)
  | archiveTab (tabId : String)
  | archiveSession (sessionId : String)
  | restoreSession (sessionId : String)
  | createTerminal (sessionId : String) (tabId : Option String) (title : String)
      (input : TerminalInput)
  | updateTerminal (terminalId : String) (expectedRevision : Option Nat) (update : TerminalEdit)
  | renameTerminal (terminalId title : String)
  | selectTerminal (sessionId : String) (terminalId : Option String)
  | reorderTerminals (sessionId : String) (tabId : Option String) (ids : List String)
  | moveTerminal (terminalId targetTabId : String)
  | closeTerminal (terminalId : String) (stop : Bool)
  | closeTab (tabId : String) (stop : Bool)
  | archiveTerminal (terminalId : String)

def Operation.catalog {α : Type} (operation : Operation α) (state : PersistedState) :
    Except StoreError PersistedState :=
  (operation state).map Prod.snd

def StoreMutation.catalog (env : StoreEnv) (state : PersistedState) :
    StoreMutation → Except StoreError PersistedState
  | .reconcileStartup epoch available => (interruptLive env epoch available).catalog state
  | .createSession title => (Store.createSession env title).catalog state
  | .renameSession id title => (Store.renameSession env id title).catalog state
  | .reorderSessions ids => (Store.reorderSessions env ids).catalog state
  | .createTab id title => (Store.createTab env id title).catalog state
  | .renameTab id title => (Store.renameTab env id title).catalog state
  | .saveTabLayout id layout revision => (Store.saveTabLayout env id layout revision).catalog state
  | .reorderTabs id ids => (Store.reorderTabs env id ids).catalog state
  | .selectTab id tabId => (Store.selectTab env id tabId).catalog state
  | .archiveTab id => (Store.archiveTab env id).catalog state
  | .archiveSession id => (Store.archiveSession env id).catalog state
  | .restoreSession id => (Store.restoreSession env id).catalog state
  | .createTerminal id tabId title input =>
    (Store.createTerminal env id tabId title input).catalog state
  | .updateTerminal id revision update =>
    (Store.updateTerminal env id revision update).catalog state
  | .renameTerminal id title => (Store.renameTerminal env id title).catalog state
  | .selectTerminal id terminalId => (Store.selectTerminal env id terminalId).catalog state
  | .reorderTerminals id tabId ids => (Store.reorderTerminals env id tabId ids).catalog state
  | .moveTerminal id target => (Store.moveTerminal env id target).catalog state
  | .closeTerminal id stop => (Store.closeTerminal env id stop).catalog state
  | .closeTab id stop => (Store.closeTab env id stop).catalog state
  | .archiveTerminal id => (Store.archiveTerminal env id).catalog state

def StoreMutation.settled (state : PersistedState) : StoreMutation → Bool
  | .reconcileStartup epoch _ => state.lastServerEpoch = some epoch
  | _ => false

theorem Operation.catalog_ok {α : Type} {operation : Operation α} {state next : PersistedState}
    (h : operation.catalog state = .ok next) : ∃ result, operation state = .ok (result, next) := by
  obtain ⟨⟨result, found⟩, hok, rfl⟩ := map_ok.mp h
  exact ⟨result, hok⟩

theorem StoreMutation.catalog_revises {env : StoreEnv} {state next : PersistedState}
    (hfresh : env.Fresh state) {mutation : StoreMutation}
    (h : mutation.catalog env state = .ok next) : Revises state next := by
  cases mutation <;> obtain ⟨result, hok⟩ := Operation.catalog_ok h
  case reconcileStartup => exact interruptLive_revises hok
  case createSession => exact createSession_revises hfresh hok
  case renameSession => exact renameSession_revises hok
  case reorderSessions => exact reorderSessions_revises hok
  case createTab => exact createTab_revises hfresh hok
  case renameTab => exact renameTab_revises hok
  case saveTabLayout => exact saveTabLayout_revises hok
  case reorderTabs => exact reorderTabs_revises hok
  case selectTab => exact selectTab_revises hok
  case archiveTab => exact archiveTab_revises hfresh hok
  case archiveSession => exact archiveSession_revises hfresh hok
  case restoreSession => exact restoreSession_revises hok
  case createTerminal => exact createTerminal_revises hfresh hok
  case updateTerminal => exact updateTerminal_revises hok
  case renameTerminal => exact updateTerminal_revises hok
  case selectTerminal => exact selectTerminalInState_revises hok
  case reorderTerminals => exact reorderTerminals_revises hok
  case moveTerminal => exact moveTerminal_revises hok
  case closeTerminal => exact closeTerminal_revises hok
  case closeTab => exact closeTab_revises hfresh hok
  case archiveTerminal => exact archiveTerminal_revises hok

/-! ## The host -/

/-- The catalog in memory, which every snapshot shows, and the one in the
database file. -/
structure StoreHost where
  memory : PersistedState
  file : PersistedState
  deriving DecidableEq

/-- A mutation, or a restart that opens the file again. A mutation whose write
fails may have `landed` in the file all the same. -/
inductive HostAction where
  | mutate (env : StoreEnv) (mutation : StoreMutation) (landed : Bool)
  | reopen (env : StoreEnv)

def HostAction.env : HostAction → StoreEnv
  | .mutate env _ _ => env
  | .reopen env => env

def StoreHost.write (host : StoreHost) (next : PersistedState) (database : Option StoreError)
    (landed : Bool) : StoreHost :=
  match database with
  | none => { memory := next, file := next }
  | some _ => { host with file := if landed then next else host.file }

def StoreHost.mutate (host : StoreHost) (env : StoreEnv) (mutation : StoreMutation)
    (landed : Bool) : StoreHost :=
  if mutation.settled host.memory then host
  else
    match mutation.catalog env host.memory with
    | .ok next => host.write next env.database landed
    | .error _ => host

def StoreHost.reopen (host : StoreHost) (env : StoreEnv) (machine : String) : StoreHost :=
  let opened := openStore env machine (some host.file)
  { memory := opened, file := opened }

def hostSystem (machine : String) : System StoreHost HostAction where
  initial host := ∃ env,
    host = { memory := openStore env machine none, file := openStore env machine none }
  step host
    | .mutate env mutation landed => some (host.mutate env mutation landed)
    | .reopen env => some (host.reopen env machine)

def DrawsFresh (host : StoreHost) (action : HostAction) : Prop :=
  action.env.Fresh host.memory ∧ action.env.Fresh host.file

/-- What holds of a host in every run. -/
structure StoreHost.Lined (machine : String) (host : StoreHost) : Prop where
  keyed : Keyed host.memory
  ahead : Revises host.memory host.file
  schema : host.memory.schemaVersion = stateSchemaVersion
  machine : host.memory.machine = machine

section Host

variable {machine : String} {host next : StoreHost} {env : StoreEnv}

theorem StoreHost.Lined.openStore_file (h : host.Lined machine) (env : StoreEnv) :
    openStore env machine (some host.file) = ensureVisibleSession env host.file := by
  have hschema := h.ahead.schema.trans h.schema
  have hmachine := h.ahead.machine.trans h.machine
  rw [openStore, filter_some, if_pos (by simp [hschema, hmachine])]

theorem StoreHost.Lined.of_settled {before : StoreHost} {catalog : PersistedState}
    (h : before.Lined machine) (hahead : Revises before.memory catalog) :
    StoreHost.Lined machine { memory := catalog, file := catalog } where
  keyed := hahead.keyed h.keyed
  ahead := Revises.refl catalog
  schema := hahead.schema.trans h.schema
  machine := hahead.machine.trans h.machine

theorem StoreHost.Lined.step (h : host.Lined machine) {action : HostAction}
    (hfresh : DrawsFresh host action) (hstep : (hostSystem machine).step host action = some next) :
    next.Lined machine ∧ Revises host.memory next.memory := by
  cases action with
  | mutate env mutation landed =>
    cases hstep
    unfold StoreHost.mutate
    split
    · exact ⟨h, Revises.refl _⟩
    split
    · rename_i catalog hcatalog
      have hrevises : Revises host.memory catalog := StoreMutation.catalog_revises hfresh.1 hcatalog
      unfold StoreHost.write
      split
      · exact ⟨h.of_settled hrevises, hrevises⟩
      refine ⟨⟨h.keyed, ?_, h.schema, h.machine⟩, Revises.refl _⟩
      show Revises host.memory (if landed then catalog else host.file)
      split
      · exact hrevises
      · exact h.ahead
    · exact ⟨h, Revises.refl _⟩
  | reopen env =>
    cases hstep
    have hrevises : Revises host.memory (openStore env machine (some host.file)) := by
      rw [h.openStore_file env]
      exact h.ahead.ensureVisible hfresh.2
    exact ⟨h.of_settled hrevises, hrevises⟩

theorem openStore_new (env : StoreEnv) (machine : String) :
    (openStore env machine none).schemaVersion = stateSchemaVersion ∧
      (openStore env machine none).machine = machine := by
  have hkept : ∀ state : PersistedState,
      (ensureVisibleSession env state).schemaVersion = state.schemaVersion ∧
        (ensureVisibleSession env state).machine = state.machine := by
    intro state
    unfold ensureVisibleSession
    split <;> exact ⟨rfl, rfl⟩
  exact ⟨((hkept _).1.trans (hkept _).1), ((hkept _).2.trans (hkept _).2)⟩

theorem hostSystem_lined (h : (hostSystem machine).Run DrawsFresh host) : host.Lined machine := by
  refine h.invariant ?_ fun s action s' hs hfresh hstep => (hs.step hfresh hstep).1
  rintro _ ⟨env, rfl⟩
  have hnew := openStore_new env machine
  exact ⟨(Sound.openEmpty env machine).keyed, Revises.refl _, hnew.1, hnew.2⟩

theorem StoreHost.Lined.path (h : host.Lined machine)
    (hpath : (hostSystem machine).Path DrawsFresh host next) :
    next.Lined machine ∧ Revises host.memory next.memory := by
  refine hpath.invariant (P := fun s => s.Lined machine ∧ Revises host.memory s.memory)
    ⟨h, Revises.refl _⟩ ?_
  intro s action s' hs hfresh hstep
  obtain ⟨hlined, hrevises⟩ := hs.1.step hfresh hstep
  exact ⟨hlined, hs.2.trans hrevises⟩

end Host

/-! ## Revisions identify content -/

/-- Records of one id carry a revision that does not decrease, and that rises
with every change. -/
def Identified {α : Type} (key : α → String) (revision : α → Nat) (before after : List α) : Prop :=
  ∀ a ∈ before, ∀ b ∈ after, key a = key b →
    revision a ≤ revision b ∧ (revision a = revision b → a = b)

/-- The three tables of a catalog and of a later one. -/
structure PersistedState.Identified (before after : PersistedState) : Prop where
  sessions : Store.Identified AppSession.id AppSession.revision before.sessions after.sessions
  tabs : Store.Identified SessionTab.id SessionTab.revision before.tabs after.tabs
  terminals :
    Store.Identified MuxTerminal.id MuxTerminal.revision before.terminals after.terminals

def Shows (state : PersistedState) (shown : SessionSnapshot) : Prop :=
  (∃ includeArchived, shown ∈ listSnapshots state includeArchived) ∨
    ∃ sessionId, getSnapshot state sessionId = some shown

/-- Two snapshots have the same record wherever they have the same id and
revision. -/
structure SessionSnapshot.Agrees (first second : SessionSnapshot) : Prop where
  session : first.session.id = second.session.id →
    first.session.revision = second.session.revision → first.session = second.session
  tabs : ∀ tab ∈ first.tabs, ∀ tab' ∈ second.tabs, tab.id = tab'.id →
    tab.revision = tab'.revision → tab = tab'
  muxTerminals : ∀ terminal ∈ first.muxTerminals, ∀ terminal' ∈ second.muxTerminals,
    terminal.id = terminal'.id → terminal.revision = terminal'.revision → terminal = terminal'

theorem Advances.identified {α : Type} {key : α → String} {revision : α → Nat}
    {before after : List α} (h : Advances key revision before after)
    (hbef : (before.map key).Nodup) (hafter : (after.map key).Nodup) :
    Identified key revision before after := by
  intro a ha b hb hkey
  have hrow := h.of_mem hbef hafter ha hb hkey
  exact ⟨hrow.le, hrow.eq_of_version⟩

theorem Revises.identified {before after : PersistedState} (h : Revises before after)
    (hkeyed : Keyed before) : before.Identified after where
  sessions := Advances.identified h.sessions hkeyed.sessions (h.keyed hkeyed).sessions
  tabs := Advances.identified h.tabs hkeyed.tabs (h.keyed hkeyed).tabs
  terminals := Advances.identified h.terminals hkeyed.terminals (h.keyed hkeyed).terminals

theorem Shows.mem {state : PersistedState} {shown : SessionSnapshot} (h : Shows state shown) :
    shown.session ∈ state.sessions ∧ (∀ tab ∈ shown.tabs, tab ∈ state.tabs) ∧
      ∀ terminal ∈ shown.muxTerminals, terminal ∈ state.terminals := by
  have hpart : ∀ session ∈ state.sessions, ∀ includeArchived,
      (snapshot state session includeArchived).session ∈ state.sessions ∧
        (∀ tab ∈ (snapshot state session includeArchived).tabs, tab ∈ state.tabs) ∧
        ∀ terminal ∈ (snapshot state session includeArchived).muxTerminals,
          terminal ∈ state.terminals := by
    intro session hsess includeArchived
    refine ⟨hsess, fun tab htab => ?_, fun terminal hterm => ?_⟩
    · exact (mem_filter.mp (mem_sortBy.mp htab)).1
    · exact (mem_filter.mp (mem_sortBy.mp hterm)).1
  rcases h with ⟨includeArchived, hlist⟩ | ⟨sessionId, hget⟩
  · obtain ⟨session, hsess, rfl⟩ := List.mem_map.mp hlist
    exact hpart session (mem_filter.mp (mem_sortBy.mp hsess)).1 includeArchived
  · obtain ⟨session, hsess, rfl⟩ := map_eq_some_iff.mp hget
    exact hpart session (row?_mem AppSession.id hsess).1 false

theorem PersistedState.Identified.agrees {before after : PersistedState}
    (h : before.Identified after) {first second : SessionSnapshot} (hfirst : Shows before first)
    (hsecond : Shows after second) : first.Agrees second where
  session hid := (h.sessions _ hfirst.mem.1 _ hsecond.mem.1 hid).2
  tabs tab htab tab' htab' hid :=
    (h.tabs tab (hfirst.mem.2.1 tab htab) tab' (hsecond.mem.2.1 tab' htab') hid).2
  muxTerminals terminal hterm terminal' hterm' hid :=
    (h.terminals terminal (hfirst.mem.2.2 terminal hterm) terminal'
      (hsecond.mem.2.2 terminal' hterm') hid).2

/-- Along every run of a host, mutations and restarts in any order: records
present at two moments have a revision that does not decrease, an unchanged
revision means an unchanged record, and the snapshots shown at the two moments
agree. -/
theorem revisions_identify {machine : String} {before after : StoreHost}
    (hrun : (hostSystem machine).Run DrawsFresh before)
    (hpath : (hostSystem machine).Path DrawsFresh before after) :
    before.memory.Identified after.memory ∧
      ∀ first second, Shows before.memory first → Shows after.memory second →
        first.Agrees second := by
  have hlined := hostSystem_lined hrun
  have hidentified := (hlined.path hpath).2.identified hlined.keyed
  exact ⟨hidentified, fun _ _ hfirst hsecond => hidentified.agrees hfirst hsecond⟩

/-- The first session of a new host before and after it gets a title. -/
theorem revisions_identify_renamed :
    let opened := openStore (.constant "t" "a") "host" none
    let named := (StoreHost.mk opened opened).mutate (.constant "u" "b")
      (.renameSession "ses-a" "Work") false
    opened.Identified named.memory ∧
      ∀ first second, Shows opened first → Shows named.memory second → first.Agrees second := by
  intro opened named
  have hrun : (hostSystem "host").Run DrawsFresh ⟨opened, opened⟩ :=
    System.Run.start ⟨.constant "t" "a", rfl⟩
  have hfresh : (StoreEnv.constant "u" "b").Fresh opened :=
    StoreEnv.constant_fresh (by decide) (by decide) (by decide)
  have hpath : (hostSystem "host").Path DrawsFresh ⟨opened, opened⟩ named :=
    System.Path.refl.next (a := .mutate (.constant "u" "b") (.renameSession "ses-a" "Work") false)
      ⟨hfresh, hfresh⟩ rfl
  exact revisions_identify hrun hpath

/-- A write that names the revision of a record seen earlier in the run goes
through exactly if the record is still the one that was seen. -/
theorem fenced_writes {machine : String} {before after : StoreHost}
    (hrun : (hostSystem machine).Run DrawsFresh before)
    (hpath : (hostSystem machine).Path DrawsFresh before after) (env : StoreEnv) (id : String) :
    (∀ tab layoutJson, before.memory.tab? id = some tab →
      ((∃ result, saveTabLayout env id layoutJson (some tab.revision) after.memory = .ok result) ↔
        after.memory.tab? id = some tab ∧ tab.archivedAt = none ∧
          layoutJson.utf8ByteSize ≤ 65536)) ∧
    ∀ terminal edit, before.memory.terminal? id = some terminal →
      ((∃ result, updateTerminal env id (some terminal.revision) edit after.memory = .ok result) ↔
        after.memory.terminal? id = some terminal) := by
  have hlined := hostSystem_lined hrun
  have hidentified := (hlined.path hpath).2.identified hlined.keyed
  constructor
  · intro tab layoutJson htab
    obtain ⟨hmem, hid⟩ := row?_mem SessionTab.id htab
    simp only [saveTabLayout, bind_ok, ensure_ok, findTab_ok, pure_ok]
    constructor
    · rintro ⟨_, _, hsize, found, hfound, _, hopen, _, hfence, -⟩
      obtain ⟨hmem', hid'⟩ := row?_mem SessionTab.id hfound
      have hsame : tab.revision = found.revision := by simpa using hfence
      obtain rfl := (hidentified.tabs tab hmem found hmem' (hid.trans hid'.symm)).2 hsame
      exact ⟨hfound, by simpa using hopen, by simpa using hsize⟩
    · rintro ⟨hfound, hopen, hsize⟩
      exact ⟨_, (), by simpa using hsize, tab, hfound, (), by simp [hopen], (), by simp, rfl⟩
  · intro terminal edit hterm
    obtain ⟨hmem, hid⟩ := row?_mem MuxTerminal.id hterm
    simp only [updateTerminal, bind_ok, ensure_ok, findTerminal_ok, pure_ok]
    constructor
    · rintro ⟨_, found, hfound, _, hfence, -⟩
      obtain ⟨hmem', hid'⟩ := row?_mem MuxTerminal.id hfound
      have hsame : found.revision = terminal.revision := by simpa using hfence
      obtain rfl :=
        (hidentified.terminals terminal hmem found hmem' (hid.trans hid'.symm)).2 hsame.symm
      exact hfound
    · intro hfound
      exact ⟨_, terminal, hfound, (), by simp, rfl⟩

/-- A layout for the first tab of a new host. -/
theorem fenced_writes_layout :
    let opened := openStore (.constant "t" "a") "host" none
    ∀ tab, opened.tab? "tab-a" = some tab → ∃ result,
      saveTabLayout (.constant "u" "b") "tab-a" "{}" (some tab.revision) opened = .ok result := by
  intro opened tab htab
  have hrun : (hostSystem "host").Run DrawsFresh ⟨opened, opened⟩ :=
    System.Run.start ⟨.constant "t" "a", rfl⟩
  have hopen : tab.archivedAt = none := by cases htab; rfl
  exact ((fenced_writes hrun .refl (.constant "u" "b") "tab-a").1 tab "{}" htab).2
    ⟨htab, hopen, by decide⟩

end Yaade.Store

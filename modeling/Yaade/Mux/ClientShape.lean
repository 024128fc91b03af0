import Yaade.Mux.ClientStore

/-!
Which parts of the client's store an operation touches, and that each record
stands under its own id.
-/

namespace Yaade.Mux.Client

open Yaade.Library List Option IndexMap MuxSessionStore

/-! ## Shapes -/

namespace MuxSessionStore

variable (store : MuxSessionStore)

theorem reconcileSelection_shape : ∃ activeSessionId activeTabId activeMuxTerminalId,
    store.reconcileSelection = { store with
      activeSessionId := activeSessionId
      activeTabId := activeTabId
      activeMuxTerminalId := activeMuxTerminalId } := by
  unfold reconcileSelection
  extract_lets activeSessionId
  cases activeSessionId with
  | none | some => exact ⟨_, _, _, rfl⟩

theorem followSession_shape (session : AppSession) : ∃ activeTabId activeMuxTerminalId,
    store.followSession session = { store with
      activeTabId := activeTabId, activeMuxTerminalId := activeMuxTerminalId } := by
  unfold followSession
  split
  · exact ⟨_, _, rfl⟩
  · exact ⟨_, _, rfl⟩

theorem followTab_shape (id : SessionTabId) : ∃ activeMuxTerminalId,
    store.followTab id = { store with activeMuxTerminalId := activeMuxTerminalId } := by
  unfold followTab
  split
  · exact ⟨_, rfl⟩
  · exact ⟨_, rfl⟩

theorem upsertTerminal_shape (terminal : MuxTerminal) : ∃ bySession byTab,
    store.upsertTerminal terminal = { store with
      terminalsById := store.terminalsById.insert terminal.id terminal
      terminalIdsBySession := bySession
      terminalIdsByTab := byTab } := by
  unfold upsertTerminal
  extract_lets previous next
  split
  · exact ⟨_, _, rfl⟩
  · exact ⟨_, _, rfl⟩

theorem reconcileSelection_records : store.reconcileSelection.sessionsById = store.sessionsById ∧
    store.reconcileSelection.tabsById = store.tabsById ∧
    store.reconcileSelection.terminalsById = store.terminalsById ∧
    store.reconcileSelection.revisions = store.revisions := by
  obtain ⟨_, _, _, hshape⟩ := store.reconcileSelection_shape
  rw [hshape]
  exact ⟨rfl, rfl, rfl, rfl⟩

/-! ### Events -/

def sessionsAfter : MuxEvent → IndexMap SessionId AppSession
  | .session _ record => store.sessionsById.insert record.id record
  | _ => store.sessionsById

def tabsAfter : MuxEvent → IndexMap SessionTabId SessionTab
  | .tab _ record => store.tabsById.insert record.id record
  | _ => store.tabsById

def terminalAfter : MuxEvent → Option MuxTerminal
  | .terminal _ _ muxTerminal =>
    if (store.terminalsById.get? muxTerminal.id).any MuxTerminal.archived &&
        !muxTerminal.archived then none
    else some muxTerminal
  | .outputChanged revision muxTerminalId occurredAt output =>
    (store.terminalsById.get? muxTerminalId).map fun terminal => { terminal with
      output := output, revision := revision, updatedAt := occurredAt }
  | .terminalArchived revision muxTerminalId occurredAt =>
    (store.terminalsById.get? muxTerminalId).map fun terminal => { terminal with
      archivedAt := some occurredAt, revision := revision, updatedAt := occurredAt }
  | .session _ _ | .tab _ _ => none

def terminalsAfter (event : MuxEvent) : IndexMap MuxTerminalId MuxTerminal :=
  match store.terminalAfter event with
  | some terminal => store.terminalsById.insert terminal.id terminal
  | none => store.terminalsById

theorem applyChange_records (event : MuxEvent) :
    (store.applyChange event).sessionsById = store.sessionsAfter event ∧
      (store.applyChange event).tabsById = store.tabsAfter event ∧
      (store.applyChange event).terminalsById = store.terminalsAfter event ∧
      (store.applyChange event).revisions = store.revisions := by
  cases event with
  | session revision record =>
    simp only [applyChange]
    obtain ⟨_, _, hshape⟩ := ({ store with
      sessionsById := store.sessionsById.insert record.id record } :
        MuxSessionStore).rebuildVisibleSessions.followSession_shape record
    rw [hshape]
    exact ⟨rfl, rfl, rfl, rfl⟩
  | tab revision record =>
    simp only [applyChange]
    obtain ⟨_, hshape⟩ := ({ store with
      tabsById := store.tabsById.insert record.id record
      pendingTabCloses := if record.archived then store.pendingTabCloses.shiftRemove record.id
        else store.pendingTabCloses } : MuxSessionStore).rebuildVisibleTabs.followTab_shape record.id
    rw [hshape]
    exact ⟨rfl, rfl, rfl, rfl⟩
  | terminal revision muxTerminalId muxTerminal =>
    simp only [applyChange, terminalsAfter, terminalAfter]
    split
    · exact ⟨rfl, rfl, rfl, rfl⟩
    obtain ⟨_, _, hshape⟩ := store.upsertTerminal_shape muxTerminal
    rw [hshape]
    exact ⟨rfl, rfl, rfl, rfl⟩
  | outputChanged revision muxTerminalId occurredAt output =>
    simp only [applyChange, terminalsAfter, terminalAfter]
    cases store.terminalsById.get? muxTerminalId with
    | none => exact ⟨rfl, rfl, rfl, rfl⟩
    | some terminal =>
      obtain ⟨_, _, hshape⟩ := store.upsertTerminal_shape { terminal with
        output := output, revision := revision, updatedAt := occurredAt }
      dsimp only [Option.map]
      rw [hshape]
      exact ⟨rfl, rfl, rfl, rfl⟩
  | terminalArchived revision muxTerminalId occurredAt =>
    simp only [applyChange, terminalsAfter, terminalAfter]
    cases store.terminalsById.get? muxTerminalId with
    | none => exact ⟨rfl, rfl, rfl, rfl⟩
    | some terminal =>
      obtain ⟨_, _, hshape⟩ := ({ store with
        pendingTerminalCloses := store.pendingTerminalCloses.shiftRemove muxTerminalId } :
          MuxSessionStore).upsertTerminal_shape { terminal with
        archivedAt := some occurredAt, revision := revision, updatedAt := occurredAt }
      dsimp only [Option.map]
      rw [hshape]
      exact ⟨rfl, rfl, rfl, rfl⟩

theorem apply_records {event : MuxEvent} (h : ¬ store.knownRevision event ≥ event.revision) :
    (store.apply event).sessionsById = store.sessionsAfter event ∧
      (store.apply event).tabsById = store.tabsAfter event ∧
      (store.apply event).terminalsById = store.terminalsAfter event ∧
      (store.apply event).revisions = store.revisions.insert event.key event.revision := by
  unfold apply
  rw [if_neg h]
  generalize hraised : ({ store with
    revisions := store.revisions.insert event.key event.revision } : MuxSessionStore) = raised
  obtain ⟨hsessions, htabs, hterms, hrevisions⟩ := raised.applyChange_records event
  obtain ⟨hsessions', htabs', hterms', hrevisions'⟩ :=
    (raised.applyChange event).reconcileSelection_records
  rw [hsessions', htabs', hterms', hrevisions', hsessions, htabs, hterms, hrevisions, ← hraised]
  cases event <;> exact ⟨rfl, rfl, rfl, rfl⟩

theorem apply_dropped {event : MuxEvent} (h : store.knownRevision event ≥ event.revision) :
    store.apply event = store := if_pos h

end MuxSessionStore

/-! ## Records under their ids -/

section Keys

variable {κ α : Type} [DecidableEq κ] {idOf : α → κ} {items : IndexMap κ α}

def KeyedBy (idOf : α → κ) (items : IndexMap κ α) : Prop :=
  ∀ key item, items.get? key = some item → idOf item = key

theorem keyedBy_empty : KeyedBy idOf (.empty : IndexMap κ α) := nofun

theorem KeyedBy.insert (h : KeyedBy idOf items) (item : α) :
    KeyedBy idOf (items.insert (idOf item) item) := by
  intro key other hget
  rw [get?_insert] at hget
  split at hget
  · rename_i hkey
    cases hget
    exact hkey.symm
  · exact h key other hget

theorem KeyedBy.insertAt (h : KeyedBy idOf items) {key : κ} {item : α} (hkey : idOf item = key) :
    KeyedBy idOf (items.insert key item) := by
  rw [← hkey]
  exact h.insert item

theorem KeyedBy.fold {β : Type} {f : IndexMap κ α → β → IndexMap κ α} (entries : List β)
    (hstep : ∀ items, ∀ entry ∈ entries, KeyedBy idOf items → KeyedBy idOf (f items entry))
    (h : KeyedBy idOf items) : KeyedBy idOf (entries.foldl f items) := by
  induction entries generalizing items with
  | nil => exact h
  | cons first rest ih =>
    rw [foldl_cons]
    exact ih (fun items entry hentry => hstep items entry (mem_cons_of_mem first hentry))
      (hstep items first mem_cons_self h)

theorem keyedBy_mapOf (idOf : α → κ) (list : List α) : KeyedBy idOf (mapOf idOf list) :=
  keyedBy_empty.fold list fun _ item _ h => h.insert item

theorem KeyedBy.mapValues (h : KeyedBy idOf items) {f : α → α}
    (hid : ∀ item ∈ items.values, idOf (f item) = idOf item) : KeyedBy idOf (items.mapValues f) := by
  intro key item hget
  rw [get?_mapValues] at hget
  obtain ⟨old, hold, rfl⟩ := map_eq_some_iff.mp hget
  rw [hid old (mem_values.mpr ⟨key, hold⟩)]
  exact h key old hold

theorem KeyedBy.mergeMap (h : KeyedBy idOf items) (revisionOf : α → Nat) (incoming : List α)
    (baseline : IndexMap κ Nat) : KeyedBy idOf (mergeMap idOf revisionOf items incoming baseline) := by
  unfold Client.mergeMap
  apply KeyedBy.fold
  · intro next entry hentry hnext
    have hkey : idOf entry.2 = entry.1 := by
      apply h
      exact get?_eq_some.mpr hentry
    split
    · exact hnext
    split
    · exact hnext.insertAt hkey
    · exact hnext
  · apply (keyedBy_mapOf idOf incoming).mapValues
    intro item _
    split
    · rename_i old hold
      split
      · exact h _ _ hold
      · rfl
    · rfl

end Keys

structure Keyed (store : MuxSessionStore) : Prop where
  sessions : KeyedBy AppSession.id store.sessionsById
  tabs : KeyedBy SessionTab.id store.tabsById
  terminals : KeyedBy MuxTerminal.id store.terminalsById

namespace Keyed

variable {store : MuxSessionStore}

theorem of_records {other : MuxSessionStore} (h : Keyed store)
    (hsessions : other.sessionsById = store.sessionsById) (htabs : other.tabsById = store.tabsById)
    (hterms : other.terminalsById = store.terminalsById) : Keyed other :=
  ⟨hsessions ▸ h.sessions, htabs ▸ h.tabs, hterms ▸ h.terminals⟩

theorem reconcileSelection (h : Keyed store) : Keyed store.reconcileSelection := by
  obtain ⟨hsessions, htabs, hterms, -⟩ := store.reconcileSelection_records
  exact h.of_records hsessions htabs hterms

theorem reconciled {other : MuxSessionStore} (h : Keyed store)
    (hsessions : other.sessionsById = store.sessionsById) (htabs : other.tabsById = store.tabsById)
    (hterms : other.terminalsById = store.terminalsById) : Keyed other.reconcileSelection :=
  (h.of_records hsessions htabs hterms).reconcileSelection

theorem rebuildVisibleTabs (h : Keyed store) : Keyed store.rebuildVisibleTabs :=
  h.of_records rfl rfl rfl

theorem addFallbacks {tabs : IndexMap SessionTabId SessionTab} (h : KeyedBy SessionTab.id tabs)
    (sessions : List AppSession) :
    KeyedBy SessionTab.id (MuxSessionStore.addFallbacks sessions tabs) := by
  apply h.fold
  intro items session _ hitems
  split
  · exact hitems
  · exact hitems.insert (fallbackTab session)

theorem replace (store : MuxSessionStore) (sessions : List AppSession)
    (terminals : List MuxTerminal) (tabs : List SessionTab) :
    Keyed (store.replace sessions terminals tabs) := by
  apply Keyed.reconcileSelection
  exact ⟨keyedBy_mapOf _ _, keyedBy_mapOf _ _, keyedBy_mapOf _ _⟩

section

variable (h : Keyed store)
include h

theorem mergeSnapshot (sessions : List AppSession) (terminals : List MuxTerminal)
    (tabs : List SessionTab) (hasTabs : Bool) (baseline : MuxStoreRevisionSnapshot) :
    Keyed (store.mergeSnapshot sessions terminals tabs hasTabs baseline) := by
  apply Keyed.reconcileSelection
  apply Keyed.rebuildVisibleTabs
  refine ⟨h.sessions.mergeMap _ _ _, Keyed.addFallbacks ?_ _, h.terminals.mergeMap _ _ _⟩
  split
  · exact h.tabs.mergeMap _ _ _
  · exact h.tabs

theorem replaceTab (tab : SessionTab) : Keyed (store.replaceTab tab) := by
  unfold MuxSessionStore.replaceTab
  split
  · exact h
  apply Keyed.reconcileSelection
  apply Keyed.rebuildVisibleTabs
  exact ⟨h.sessions, h.tabs.insert tab, h.terminals⟩

theorem replaceMuxTerminal (terminal : MuxTerminal) :
    Keyed (store.replaceMuxTerminal terminal) := by
  unfold MuxSessionStore.replaceMuxTerminal
  split
  · exact h
  · exact Keyed.replace _ _ _ _

theorem terminalAfter_id {event : MuxEvent} {terminal : MuxTerminal}
    (hafter : store.terminalAfter event = some terminal) :
    event.key = terminalKey terminal.id ∨ ∃ revision id, event = .terminal revision id terminal := by
  cases event with
  | session | tab => cases hafter
  | terminal revision muxTerminalId muxTerminal =>
    obtain ⟨-, hsome⟩ := ite_none_left_eq_some.mp hafter
    cases hsome
    exact .inr ⟨revision, muxTerminalId, rfl⟩
  | outputChanged | terminalArchived =>
    obtain ⟨old, hold, rfl⟩ := map_eq_some_iff.mp hafter
    exact .inl (congrArg terminalKey (h.terminals _ _ hold).symm)

theorem apply (event : MuxEvent) : Keyed (store.apply event) := by
  by_cases hdropped : store.knownRevision event ≥ event.revision
  · rw [store.apply_dropped hdropped]
    exact h
  obtain ⟨hsessions, htabs, hterms, -⟩ := store.apply_records hdropped
  refine ⟨?_, ?_, ?_⟩
  · rw [hsessions]
    unfold sessionsAfter
    split
    · exact h.sessions.insert _
    · exact h.sessions
  · rw [htabs]
    unfold tabsAfter
    split
    · exact h.tabs.insert _
    · exact h.tabs
  · rw [hterms]
    unfold terminalsAfter
    split
    · exact h.terminals.insert _
    · exact h.terminals

theorem step (action : StoreAction) : Keyed (action.run store) := by
  cases action with
  | replace | replaceSession => exact Keyed.replace _ _ _ _
  | mergeSnapshot sessions terminals tabs hasTabs baseline =>
    exact h.mergeSnapshot sessions terminals tabs hasTabs baseline
  | replaceTab tab => exact h.replaceTab tab
  | replaceMuxTerminal terminal => exact h.replaceMuxTerminal terminal
  | replaceMuxTerminalIfNewer terminal =>
    exact iteInduction (fun _ => h) fun _ => h.replaceMuxTerminal terminal
  | apply event => exact h.apply event
  | stageTerminalClose id | stageTabClose id =>
    exact iteInduction (fun _ => h) fun _ => h.reconciled rfl rfl rfl
  | clearPendingCloses =>
    exact iteInduction (fun _ => h) fun _ => h.reconciled rfl rfl rfl
  | confirmTerminalClose id mutationId | confirmTabClose id mutationId =>
    exact iteInduction (fun _ => h.of_records rfl rfl rfl) fun _ => h
  | rollbackTerminalClose id mutationId | rollbackTabClose id mutationId =>
    exact iteInduction (fun _ => h.reconciled rfl rfl rfl) fun _ => h
  | selectSession id =>
    show Keyed (store.selectSession id)
    unfold selectSession
    split
    · exact h
    split
    · exact h
    · exact h.of_records rfl rfl rfl
  | selectTab id =>
    show Keyed (store.selectTab id)
    unfold selectTab
    split
    · exact h
    · exact h.of_records rfl rfl rfl
  | selectMuxTerminal id =>
    show Keyed (store.selectMuxTerminal id)
    unfold selectMuxTerminal
    split
    · exact h
    · exact h.of_records rfl rfl rfl

end

theorem run {allowed : MuxSessionStore → StoreAction → Prop} (hrun : storeSystem.Run allowed store) :
    Keyed store := by
  apply hrun.invariant
  · rintro _ rfl
    exact ⟨keyedBy_empty, keyedBy_empty, keyedBy_empty⟩
  · intro s action s' h _ hstep
    cases hstep
    exact h.step action

end Keyed

end Yaade.Mux.Client

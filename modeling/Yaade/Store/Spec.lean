import Yaade.Library.Except
import Yaade.Store.Operations

/-!
What the store's methods do, read off a successful call: how a write shows in
later lookups, and for each mutation the records it wrote.
-/

namespace Yaade.Store

open Yaade.Library List Option PersistedState

/-! ## Edits of one record -/

section Edits

variable (now title : String) (position : Nat) (session : AppSession) (tab : SessionTab)
  (terminal : MuxTerminal)

@[simp] theorem retitleSession_id : (retitleSession now title session).id = session.id := rfl

@[simp] theorem placeSession_id : (placeSession now position session).id = session.id := rfl

@[simp] theorem restoredSession_id : (restoredSession now session).id = session.id := rfl

@[simp] theorem archivedSession_id (env : StoreEnv) :
    (archivedSession env session).id = session.id := by
  unfold archivedSession
  split <;> rfl

@[simp] theorem adoptTab_id (tabId : String) : (adoptTab now tabId session).id = session.id := by
  unfold adoptTab
  split <;> rfl

@[simp] theorem showTab_id (shown : Option SessionTab) :
    (showTab now shown session).id = session.id := rfl

@[simp] theorem showTerminal_id (tabId id : Option String) :
    (showTerminal now tabId id session).id = session.id := rfl

@[simp] theorem dropFromSession_id (id : String) (next : Option String) :
    (dropFromSession now id next session).id = session.id := by
  unfold dropFromSession
  split <;> rfl

@[simp] theorem leaveClosedTab_id (tabId : String) (next : Option SessionTab) :
    (leaveClosedTab now tabId next session).id = session.id := by
  unfold leaveClosedTab
  split <;> rfl

@[simp] theorem retitleTab_id : (retitleTab now title tab).id = tab.id := by
  unfold retitleTab touchTab
  dsimp only

@[simp] theorem relayoutTab_id (layout : String) : (relayoutTab now layout tab).id = tab.id := rfl

@[simp] theorem placeTab_id : (placeTab now position tab).id = tab.id := rfl

@[simp] theorem showTerminalInTab_id (id : Option String) :
    (showTerminalInTab now id tab).id = tab.id := rfl

@[simp] theorem leaveTab_id (id : String) (replacement : Option String) :
    (leaveTab now id replacement tab).id = tab.id := rfl

@[simp] theorem dropFromTab_id (id : String) (next : Option String) :
    (dropFromTab now id next tab).id = tab.id := by
  unfold dropFromTab
  split <;> rfl

@[simp] theorem archivedTab_id : (archivedTab now tab).id = tab.id := by
  unfold archivedTab
  split <;> rfl

@[simp] theorem stampTerminal_id : (stampTerminal now terminal).id = terminal.id := rfl

@[simp] theorem placeTerminal_id : (placeTerminal now position terminal).id = terminal.id := rfl

@[simp] theorem relocate_id (target : String) :
    (relocate now target position terminal).id = terminal.id := rfl

@[simp] theorem archiveClosed_id (stop : Bool) :
    (archiveClosed now stop terminal).id = terminal.id := by
  unfold archiveClosed stopClosed
  split <;> rfl

@[simp] theorem interruptTerminal_id (available : List String) :
    (interruptTerminal now available terminal).id = terminal.id := rfl

@[simp] theorem TerminalEdit.apply_id (edit : TerminalEdit) (uuid : String) :
    (edit.apply uuid terminal).id = terminal.id := by
  rw [edit.only]

end Edits

/-! ## Lookups after writes -/

namespace PersistedState

variable (state : PersistedState) (session : AppSession) (tab : SessionTab)
  (terminal : MuxTerminal) (id : String)

@[simp] theorem session?_putSession : (state.putSession session).session? id =
    if id = session.id then (state.session? id).map (fun _ => session) else state.session? id :=
  row?_updateRow AppSession.id (fun _ _ => rfl) id state.sessions

@[simp] theorem session?_putTab : (state.putTab tab).session? id = state.session? id := rfl

@[simp] theorem session?_putTerminal : (state.putTerminal terminal).session? id = state.session? id := rfl

@[simp] theorem tab?_putSession : (state.putSession session).tab? id = state.tab? id := rfl

@[simp] theorem tab?_putTab : (state.putTab tab).tab? id =
    if id = tab.id then (state.tab? id).map (fun _ => tab) else state.tab? id :=
  row?_updateRow SessionTab.id (fun _ _ => rfl) id state.tabs

@[simp] theorem tab?_putTerminal : (state.putTerminal terminal).tab? id = state.tab? id := rfl

@[simp] theorem terminal?_putSession : (state.putSession session).terminal? id = state.terminal? id := rfl

@[simp] theorem terminal?_putTab : (state.putTab tab).terminal? id = state.terminal? id := rfl

@[simp] theorem terminal?_putTerminal : (state.putTerminal terminal).terminal? id =
    if id = terminal.id then (state.terminal? id).map (fun _ => terminal) else state.terminal? id :=
  row?_updateRow MuxTerminal.id (fun _ _ => rfl) id state.terminals

@[simp] theorem session?_pushSession : (state.pushSession session).session? id =
    (state.session? id).or (if session.id = id then some session else none) :=
  row?_push AppSession.id id state.sessions session

@[simp] theorem session?_pushTab : (state.pushTab tab).session? id = state.session? id := rfl

@[simp] theorem session?_pushTerminal : (state.pushTerminal terminal).session? id = state.session? id := rfl

@[simp] theorem tab?_pushSession : (state.pushSession session).tab? id = state.tab? id := rfl

@[simp] theorem tab?_pushTab : (state.pushTab tab).tab? id =
    (state.tab? id).or (if tab.id = id then some tab else none) :=
  row?_push SessionTab.id id state.tabs tab

@[simp] theorem tab?_pushTerminal : (state.pushTerminal terminal).tab? id = state.tab? id := rfl

@[simp] theorem terminal?_pushSession : (state.pushSession session).terminal? id = state.terminal? id := rfl

@[simp] theorem terminal?_pushTab : (state.pushTab tab).terminal? id = state.terminal? id := rfl

@[simp] theorem terminal?_pushTerminal : (state.pushTerminal terminal).terminal? id =
    (state.terminal? id).or (if terminal.id = id then some terminal else none) :=
  row?_push MuxTerminal.id id state.terminals terminal

theorem session?_id {state : PersistedState} {id : String} {session : AppSession}
    (h : state.session? id = some session) : session.id = id :=
  (row?_mem AppSession.id h).2

theorem tab?_id {state : PersistedState} {id : String} {tab : SessionTab}
    (h : state.tab? id = some tab) : tab.id = id :=
  (row?_mem SessionTab.id h).2

theorem terminal?_id {state : PersistedState} {id : String} {terminal : MuxTerminal}
    (h : state.terminal? id = some terminal) : terminal.id = id :=
  (row?_mem MuxTerminal.id h).2

end PersistedState

/-! ## Steps of an operation -/

@[simp] theorem ensure_ok {condition : Bool} {error : StoreError} {u : Unit} :
    ensure condition error = .ok u ↔ condition = true := by
  cases condition with
  | false | true => simp [ensure]

@[simp] theorem findSession_ok {state : PersistedState} {id : String} {session : AppSession} :
    findSession state id = .ok session ↔ state.session? id = some session := by
  unfold findSession
  cases state.session? id with
  | none => simp
  | some found => simp

@[simp] theorem findTab_ok {state : PersistedState} {id : String} {tab : SessionTab} :
    findTab state id = .ok tab ↔ state.tab? id = some tab := by
  unfold findTab
  cases state.tab? id with
  | none => simp
  | some found => simp

@[simp] theorem findTerminal_ok {state : PersistedState} {id : String} {terminal : MuxTerminal} :
    findTerminal state id = .ok terminal ↔ state.terminal? id = some terminal := by
  unfold findTerminal
  cases state.terminal? id with
  | none => simp
  | some found => simp

@[simp] theorem assertPermutation_ok {actual expected : List String} {label : String} {u : Unit} :
    assertPermutation actual expected label = .ok u ↔ isPermutation actual expected = true := by
  unfold assertPermutation
  cases isPermutation actual expected with
  | false => simp
  | true => simp

@[simp] theorem pure_ok {α : Type} {a b : α} : (pure a : Except StoreError α) = .ok b ↔ a = b := by
  simp [pure, Except.pure]

variable {sessionId : String} {tabId : Option String}

theorem openTab_iff {state : PersistedState} {tabId : String} :
    openTab state sessionId tabId = true ↔
      ∃ tab ∈ state.tabs, tab.id = tabId ∧ tab.sessionId = sessionId ∧ tab.archivedAt = none := by
  simp [openTab, and_assoc]

theorem selectableTab_ok {state : PersistedState} {tabId : String} {selected : Option SessionTab}
    (h : selectableTab state sessionId (some tabId) = .ok selected) :
    ∃ tab ∈ state.tabs, selected = some tab ∧ tab.id = tabId ∧ tab.sessionId = sessionId ∧
      tab.archivedAt = none := by
  simp only [selectableTab] at h
  split at h
  · rename_i tab hfound
    cases h
    have hmem := mem_of_find?_eq_some hfound
    have hprop := find?_some hfound
    simp only [Bool.and_eq_true, decide_eq_true_eq, isNone_iff_eq_none] at hprop
    exact ⟨tab, hmem, rfl, hprop.1.1, hprop.1.2, hprop.2⟩
  · cases h

theorem selectableTerminalTab_ok {state : PersistedState} {id : String}
    (h : selectableTerminalTab state sessionId (some id) = .ok tabId) :
    ∃ terminal ∈ state.terminals, tabId.isSome ∧ terminal.tabId = tabId ∧ terminal.id = id ∧
      terminal.sessionId = sessionId ∧ terminal.archivedAt = none := by
  simp only [selectableTerminalTab] at h
  split at h
  · rename_i found hbind
    cases h
    obtain ⟨terminal, hfound, htab⟩ := bind_eq_some_iff.mp hbind
    have hmem := mem_of_find?_eq_some hfound
    have hprop := find?_some hfound
    simp only [Bool.and_eq_true, decide_eq_true_eq, isNone_iff_eq_none] at hprop
    exact ⟨terminal, hmem, rfl, htab, hprop.1.1, hprop.1.2, hprop.2⟩
  · cases h

theorem openTerminal_ok {state : PersistedState} {id : String} {terminal : MuxTerminal}
    (h : openTerminal state id = .ok terminal) :
    terminal ∈ state.terminals ∧ terminal.id = id ∧ terminal.archivedAt = none := by
  unfold openTerminal at h
  split at h
  · rename_i found hfound
    cases h
    have hprop := find?_some hfound
    simp only [Bool.and_eq_true, decide_eq_true_eq, isNone_iff_eq_none] at hprop
    exact ⟨mem_of_find?_eq_some hfound, hprop⟩
  · cases h

theorem targetTab_ok {state : PersistedState} {missing selected : String}
    (h : targetTab state sessionId tabId missing = .ok selected) :
    openTab state sessionId selected = true := by
  simp only [targetTab, bind_ok, ensure_ok, pure_ok] at h
  obtain ⟨found, -, -, hopen, rfl⟩ := h
  exact hopen

theorem targetTab_named {state : PersistedState} {missing selected : String}
    (h : targetTab state sessionId tabId missing = .ok selected) :
    tabId.or ((state.session? sessionId).bind (·.activeTabId)) = some selected := by
  simp only [targetTab, bind_ok, ensure_ok, pure_ok] at h
  obtain ⟨found, hfound, -, -, rfl⟩ := h
  unfold namedTab at hfound
  split at hfound
  · rename_i hor
    cases hfound
    exact hor
  · cases hfound

/-! ## What each mutation writes -/

variable {state next : PersistedState}

section Mutations

variable {env : StoreEnv}

theorem renameSession_ok {id title : String} {session : AppSession}
    (h : renameSession env id title state = .ok (session, next)) :
    ∃ old, state.session? id = some old ∧ session = retitleSession (env.now 0) title old ∧
      next = state.putSession session := by
  simp only [renameSession, bind_ok, findSession_ok, pure_ok, Prod.mk.injEq] at h
  obtain ⟨old, hold, rfl, rfl⟩ := h
  exact ⟨old, hold, rfl, rfl⟩

theorem archiveSession_ok {id : String} {session : AppSession}
    (h : archiveSession env id state = .ok (session, next)) :
    ∃ old, state.session? id = some old ∧ session = archivedSession env old ∧
      next = ensureVisibleSession (env.later 2) (state.putSession session) := by
  simp only [archiveSession, bind_ok, findSession_ok, pure_ok, Prod.mk.injEq] at h
  obtain ⟨old, hold, rfl, rfl⟩ := h
  exact ⟨old, hold, rfl, rfl⟩

theorem restoreSession_ok {id : String} {session : AppSession}
    (h : restoreSession env id state = .ok (session, next)) :
    ∃ old, state.session? id = some old ∧ session = restoredSession (env.now 0) old ∧
      next = state.putSession session := by
  simp only [restoreSession, bind_ok, findSession_ok, pure_ok, Prod.mk.injEq] at h
  obtain ⟨old, hold, rfl, rfl⟩ := h
  exact ⟨old, hold, rfl, rfl⟩

variable {ids : List String} {current : MuxTerminal} {stop : Bool} {result : CloseTerminalResult}

theorem reorderSessions_ok {sessions : List AppSession}
    (h : reorderSessions env ids state = .ok (sessions, next)) :
    isPermutation ids (visibleSessionIds state) = true ∧
      placeSessions (env.now 0) state ids.zipIdx = .ok next ∧
      sessions = orderedSessions next false := by
  simp only [reorderSessions, bind_ok, assertPermutation_ok, pure_ok, Prod.mk.injEq] at h
  obtain ⟨-, hperm, placed, hplaced, rfl, rfl⟩ := h
  exact ⟨hperm, hplaced, rfl⟩

theorem createTab_ok {title : String} {tab : SessionTab}
    (h : createTab env sessionId title state = .ok (tab, next)) :
    visibleSession state sessionId = true ∧
      tab = newTab (env.now 0) (tabKey (env.uuid 0)) sessionId (nonempty title "New tab")
        (openTabCount state sessionId) ∧
      ∃ session, state.session? sessionId = some session ∧
        next = (state.pushTab tab).putSession (adoptTab (env.now 1) tab.id session) := by
  simp only [createTab, bind_ok, ensure_ok, findSession_ok, pure_ok, Prod.mk.injEq] at h
  obtain ⟨-, hvis, session, hsess, rfl, rfl⟩ := h
  exact ⟨hvis, rfl, session, hsess, rfl⟩

theorem renameTab_ok {id title : String} {tab : SessionTab}
    (h : renameTab env id title state = .ok (tab, next)) :
    ∃ old, state.tab? id = some old ∧ tab = retitleTab (env.now 0) title old ∧
      next = state.putTab tab := by
  simp only [renameTab, bind_ok, findTab_ok, pure_ok, Prod.mk.injEq] at h
  obtain ⟨old, hold, rfl, rfl⟩ := h
  exact ⟨old, hold, rfl, rfl⟩

theorem saveTabLayout_ok {id layout : String} {revision : Option Nat} {tab : SessionTab}
    (h : saveTabLayout env id layout revision state = .ok (tab, next)) :
    ∃ old, state.tab? id = some old ∧ tab = relayoutTab (env.now 0) layout old ∧
      next = state.putTab tab := by
  simp only [saveTabLayout, bind_ok, ensure_ok, findTab_ok, pure_ok, Prod.mk.injEq] at h
  obtain ⟨-, -, old, hold, -, -, -, -, rfl, rfl⟩ := h
  exact ⟨old, hold, rfl, rfl⟩

theorem reorderTabs_ok {tabs : List SessionTab}
    (h : reorderTabs env sessionId ids state = .ok (tabs, next)) :
    isPermutation ids ((orderedTabs state sessionId false).map (·.id)) = true ∧
      placeTabs (env.now 0) state ids.zipIdx = .ok next ∧
      tabs = orderedTabs next sessionId false := by
  simp only [reorderTabs, bind_ok, assertPermutation_ok, pure_ok, Prod.mk.injEq] at h
  obtain ⟨-, hperm, placed, hplaced, rfl, rfl⟩ := h
  exact ⟨hperm, hplaced, rfl⟩

theorem selectTab_ok {session : AppSession}
    (h : selectTab env sessionId tabId state = .ok (session, next)) :
    ∃ selected old, selectableTab state sessionId tabId = .ok selected ∧
      state.session? sessionId = some old ∧ session = showTab (env.now 0) selected old ∧
      next = state.putSession session := by
  simp only [selectTab, bind_ok, findSession_ok, pure_ok, Prod.mk.injEq] at h
  obtain ⟨selected, hselected, old, hold, rfl, rfl⟩ := h
  exact ⟨selected, old, hselected, hold, rfl, rfl⟩

theorem selectTerminalInState_ok {now : Nat → String}
    {terminalId : Option String} {session : AppSession}
    (h : selectTerminalInState now state sessionId terminalId = .ok (session, next)) :
    ∃ old, state.session? sessionId = some old ∧
      ((terminalId = none ∧ session = showTerminal (now 1) none none old ∧
          next = state.putSession session) ∨
        ∃ id tabId tab terminal, terminalId = some id ∧
          terminal ∈ state.terminals ∧ terminal.id = id ∧
          terminal.sessionId = sessionId ∧ terminal.archivedAt = none ∧
          terminal.tabId = some tabId ∧ state.tab? tabId = some tab ∧
          session = showTerminal (now 1) (some tabId) terminalId old ∧
          next = (state.putTab (showTerminalInTab (now 0) terminalId tab)).putSession session) := by
  simp only [selectTerminalInState, bind_ok, findSession_ok, pure_ok, Prod.mk.injEq] at h
  obtain ⟨tabId, htab, middle, hmiddle, old, hold, rfl, rfl⟩ := h
  cases terminalId with
  | none =>
    cases htab
    cases hmiddle
    exact ⟨old, hold, .inl ⟨rfl, rfl, rfl⟩⟩
  | some id =>
    obtain ⟨terminal, hmem, hsome, hterm, hid, hsess, hopen⟩ := selectableTerminalTab_ok htab
    obtain ⟨tabId, rfl⟩ := isSome_iff_exists.mp hsome
    simp only [activateInTab, bind_ok, findTab_ok, pure_ok] at hmiddle
    obtain ⟨tab, hfound, rfl⟩ := hmiddle
    exact ⟨old, hold, .inr
      ⟨id, tabId, tab, terminal, rfl, hmem, hid, hsess, hopen, hterm, hfound, rfl, rfl⟩⟩

theorem createTerminal_ok {title : String} {input : TerminalInput} {terminal : MuxTerminal}
    (h : createTerminal env sessionId tabId title input state = .ok (terminal, next)) :
    ∃ selectedTab session, visibleSession state sessionId = true ∧
      targetTab state sessionId tabId ("tab for " ++ sessionId) = .ok selectedTab ∧
      terminal = newTerminal (env.now 0) (terminalKey (env.uuid 0)) sessionId selectedTab
        (nonempty title "Terminal") (openTerminalCount state selectedTab) input ∧
      selectTerminalInState (env.later 1).now (state.pushTerminal terminal) sessionId
        (some terminal.id) = .ok (session, next) := by
  simp only [createTerminal, bind_ok, ensure_ok, pure_ok, Prod.mk.injEq] at h
  obtain ⟨-, hvis, selectedTab, htgt, ⟨session, chosen⟩, hselect, rfl, rfl⟩ := h
  exact ⟨selectedTab, session, hvis, htgt, rfl, hselect⟩

theorem updateTerminal_ok {id : String} {revision : Option Nat} {edit : TerminalEdit}
    {terminal : MuxTerminal}
    (h : updateTerminal env id revision edit state = .ok (terminal, next)) :
    ∃ old, state.terminal? id = some old ∧ (∀ r, revision = some r → old.revision = r) ∧
      terminal = stampTerminal (env.now 0) (edit.apply (env.uuid 0) old) ∧
      next = state.putTerminal terminal := by
  simp only [updateTerminal, bind_ok, ensure_ok, findTerminal_ok, pure_ok, Prod.mk.injEq] at h
  obtain ⟨old, hold, -, hfence, rfl, rfl⟩ := h
  refine ⟨old, hold, ?_, rfl, rfl⟩
  rintro r rfl
  simpa using hfence

theorem reorderTerminals_ok {terminals : List MuxTerminal}
    (h : reorderTerminals env sessionId tabId ids state = .ok (terminals, next)) :
    ∃ selectedTab, targetTab state sessionId tabId "active tab" = .ok selectedTab ∧
      isPermutation ids ((orderedTerminals state selectedTab false).map (·.id)) = true ∧
      placeTerminals (env.now 0) state ids.zipIdx = .ok next ∧
      terminals = orderedTerminals next selectedTab false := by
  simp only [reorderTerminals, bind_ok, assertPermutation_ok, pure_ok, Prod.mk.injEq] at h
  obtain ⟨selectedTab, htgt, -, hperm, placed, hplaced, rfl, rfl⟩ := h
  exact ⟨selectedTab, htgt, hperm, hplaced, rfl⟩

theorem moveTerminal_ok {id target : String} {terminal : MuxTerminal}
    (h : moveTerminal env id target state = .ok (terminal, next)) :
    ∃ current ∈ state.terminals, current.id = id ∧ current.archivedAt = none ∧
      openTab state current.sessionId target = true ∧
      ((current.tabId = some target ∧ terminal = current ∧ next = state) ∨
        (current.tabId ≠ some target ∧
          moveToTab env current target state = .ok (terminal, next))) := by
  simp only [moveTerminal, bind_ok, ensure_ok] at h
  obtain ⟨current, hcur, -, hopen, h⟩ := h
  obtain ⟨hmem, hid, hactive⟩ := openTerminal_ok hcur
  refine ⟨current, hmem, hid, hactive, hopen, ?_⟩
  split at h
  · simp only [pure_ok, Prod.mk.injEq] at h
    exact .inl ⟨‹_›, h.1.symm, h.2.symm⟩
  · exact .inr ⟨‹_›, h⟩

theorem moveToTab_ok {terminal : MuxTerminal} {target : String}
    (h : moveToTab env current target state = .ok (terminal, next)) :
    ∃ old left session, state.terminal? current.id = some old ∧
      terminal = relocate (env.now 0) target (openTerminalCount state target) old ∧
      leaveSource (env.now 1) (state.putTerminal terminal) current.id
        (sourceReplacement state current.id current.tabId) current.tabId = .ok left ∧
      selectTerminalInState (env.later 2).now left current.sessionId (some current.id) =
        .ok (session, next) := by
  simp only [moveToTab, bind_ok, findTerminal_ok, pure_ok, Prod.mk.injEq] at h
  obtain ⟨old, hold, left, hleft, ⟨session, chosen⟩, hselect, rfl, rfl⟩ := h
  exact ⟨old, left, session, hold, rfl, hleft, hselect⟩

theorem closeTerminal_ok {id : String} (h : closeTerminal env id stop state = .ok (result, next)) :
    ∃ current, state.terminal? id = some current ∧
      ((current.archivedAt ≠ none ∧ closedAlready state current = .ok (result, next)) ∨
        (current.archivedAt = none ∧ closeOpen env current stop state = .ok (result, next))) := by
  simp only [closeTerminal, bind_ok, findTerminal_ok] at h
  obtain ⟨current, hcur, h⟩ := h
  refine ⟨current, hcur, ?_⟩
  split at h
  · rename_i hsome
    exact .inl ⟨by simpa [isSome_iff_ne_none] using hsome, h⟩
  · rename_i hnone
    exact .inr ⟨by simpa using hnone, h⟩

theorem closedAlready_ok (h : closedAlready state current = .ok (result, next)) :
    ∃ session, state.session? current.sessionId = some session ∧
      result = ⟨current, current.tabId.bind state.tab?, session⟩ ∧ next = state := by
  simp only [closedAlready, bind_ok, findSession_ok, pure_ok, Prod.mk.injEq] at h
  obtain ⟨session, hsess, rfl, rfl⟩ := h
  exact ⟨session, hsess, rfl, rfl⟩

theorem closeOpen_ok (h : closeOpen env current stop state = .ok (result, next)) :
    ∃ archived after old session,
      archived = archiveClosed (env.now 0) stop current ∧
      closeInTab (env.now 0) (state.putTerminal archived) current.id
        (nextTerminal state current.id current.tabId) current.tabId = .ok (result.tab, after) ∧
      after.session? current.sessionId = some old ∧
      session = dropFromSession (env.now 0) current.id
        (nextTerminal state current.id current.tabId) old ∧
      result.terminal = archived ∧ result.session = session ∧
      next = after.putSession session := by
  simp only [closeOpen, bind_ok, findSession_ok, pure_ok, Prod.mk.injEq] at h
  obtain ⟨⟨tab, after⟩, hafter, old, hold, rfl, rfl⟩ := h
  exact ⟨_, after, old, _, rfl, hafter, hold, rfl, rfl, rfl, rfl⟩

theorem closeTab_ok {id : String} {result : CloseTabResult}
    (h : closeTab env id stop state = .ok (result, next)) : ∃ current closed added old,
      state.tab? id = some current ∧
      result.terminals =
        (state.terminals.filter (closedWith id)).map (archiveClosed (env.now 0) stop) ∧
      result.tab = archivedTab (env.now 0) current ∧
      closed = (closeTerminals (env.now 0) stop id state).putTab result.tab ∧
      result.createdTabs =
        fallbackTabs (env.now 0) (tabKey (env.uuid 0)) current.sessionId closed ∧
      added = { closed with tabs := closed.tabs ++ result.createdTabs } ∧
      added.session? current.sessionId = some old ∧
      result.session = leaveClosedTab (env.now 0) id (nextTab added current.sessionId) old ∧
      next = added.putSession result.session := by
  simp only [closeTab, bind_ok, findTab_ok, findSession_ok, pure_ok, Prod.mk.injEq] at h
  obtain ⟨current, hcur, old, hold, rfl, rfl⟩ := h
  exact ⟨current, _, _, old, hcur, rfl, rfl, rfl, rfl, rfl, hold, rfl, rfl⟩

end Mutations

/-! ## The reorder loops -/

section Place

variable {timestamp : String} {P : PersistedState → Prop}

variable {places : List (String × Nat)}

theorem placeSessions_keeps (hround : ∀ s position session, (session.id, position) ∈ places → P s →
      s.session? session.id = some session →
        P (s.putSession (placeSession timestamp position session)))
    (h : placeSessions timestamp state places = .ok next) (hstart : P state) : P next := by
  induction places generalizing state with
  | nil =>
    cases h
    exact hstart
  | cons place rest ih =>
    simp only [placeSessions, bind_ok, findSession_ok] at h
    obtain ⟨session, hsess, h⟩ := h
    have hid := session?_id hsess
    refine ih (fun s position other hplace => ?_) h ?_
    · exact hround s position other (mem_cons_of_mem _ hplace)
    · exact hround state place.2 session (by rw [hid]; exact mem_cons_self) hstart
        (by rw [hid, hsess])

theorem placeTabs_keeps (hround : ∀ s position tab, (tab.id, position) ∈ places → P s →
      s.tab? tab.id = some tab → P (s.putTab (placeTab timestamp position tab)))
    (h : placeTabs timestamp state places = .ok next) (hstart : P state) : P next := by
  induction places generalizing state with
  | nil =>
    cases h
    exact hstart
  | cons place rest ih =>
    simp only [placeTabs, bind_ok, findTab_ok] at h
    obtain ⟨tab, htab, h⟩ := h
    have hid := tab?_id htab
    refine ih (fun s position other hplace => ?_) h ?_
    · exact hround s position other (mem_cons_of_mem _ hplace)
    · exact hround state place.2 tab (by rw [hid]; exact mem_cons_self) hstart
        (by rw [hid, htab])

theorem placeTerminals_keeps
    (hround : ∀ s position terminal, (terminal.id, position) ∈ places → P s →
      s.terminal? terminal.id = some terminal →
        P (s.putTerminal (placeTerminal timestamp position terminal)))
    (h : placeTerminals timestamp state places = .ok next) (hstart : P state) : P next := by
  induction places generalizing state with
  | nil =>
    cases h
    exact hstart
  | cons place rest ih =>
    simp only [placeTerminals, bind_ok, findTerminal_ok] at h
    obtain ⟨terminal, hterm, h⟩ := h
    have hid := terminal?_id hterm
    refine ih (fun s position other hplace => ?_) h ?_
    · exact hround s position other (mem_cons_of_mem _ hplace)
    · exact hround state place.2 terminal (by rw [hid]; exact mem_cons_self) hstart
        (by rw [hid, hterm])

theorem mem_of_mem_zipIdx {ids : List String} {id : String} {position : Nat}
    (h : (id, position) ∈ ids.zipIdx) : id ∈ ids := by
  rw [mem_zipIdx_iff_getElem?] at h
  exact mem_of_getElem? h

end Place

theorem mutate_ok {α : Type} {env : StoreEnv} {operation : Operation α}
    {state next : PersistedState} {result : α} : mutate env operation state = (.ok result, next) ↔
      operation state = .ok (result, next) ∧ env.database = none := by
  unfold mutate
  cases operation state with
  | error error => simp
  | ok outcome =>
    cases env.database with
    | some error => simp
    | none => simp [Prod.ext_iff]

theorem mutate_error {α : Type} {env : StoreEnv} {operation : Operation α}
    {state next : PersistedState} {error : StoreError}
    (h : mutate env operation state = (.error error, next)) : next = state := by
  unfold mutate at h
  cases hres : operation state with
  | error error =>
    rw [hres] at h
    exact (congrArg Prod.snd h).symm
  | ok outcome =>
    rw [hres] at h
    cases hdatabase : env.database with
    | some error =>
      rw [hdatabase] at h
      exact (congrArg Prod.snd h).symm
    | none =>
      rw [hdatabase] at h
      cases congrArg Prod.fst h

end Yaade.Store

import Yaade.Library.FocusForest
import Yaade.Library.Transition
import Yaade.Store.Spec

/-!
The focus pointers of the catalog.
-/

namespace Yaade.Store

open Yaade.Library List Option PersistedState

/-- No two rows of a table share an identifier. -/
structure Keyed (state : PersistedState) : Prop where
  sessions : (state.sessions.map AppSession.id).Nodup
  tabs : (state.tabs.map SessionTab.id).Nodup
  terminals : (state.terminals.map MuxTerminal.id).Nodup

/-- The UUIDs drawn in this call name no record yet. -/
structure StoreEnv.Fresh (env : StoreEnv) (state : PersistedState) : Prop where
  session : ∀ k, state.session? (sessionKey (env.uuid k)) = none
  tab : ∀ k, state.tab? (tabKey (env.uuid k)) = none
  terminal : ∀ k, state.terminal? (terminalKey (env.uuid k)) = none

theorem StoreEnv.constant_fresh {state : PersistedState} {time uuid : String}
    (hsess : state.session? (sessionKey uuid) = none) (htab : state.tab? (tabKey uuid) = none)
    (hterm : state.terminal? (terminalKey uuid) = none) :
    (StoreEnv.constant time uuid).Fresh state :=
  ⟨fun _ => hsess, fun _ => htab, fun _ => hterm⟩

/-- The pointers of a catalog, as a client follows them. -/
structure CatalogFocus (state : PersistedState) : Prop where
  visible : ∃ session ∈ state.sessions, session.archivedAt = none
  ownsTab : ∀ session ∈ state.sessions, ∃ tab ∈ state.tabs,
    tab.sessionId = session.id ∧ tab.archivedAt = none
  placed : ∀ terminal ∈ state.terminals, terminal.archivedAt = none → ∃ tab ∈ state.tabs,
    terminal.tabId = some tab.id ∧ tab.sessionId = terminal.sessionId ∧ tab.archivedAt = none
  activeTab : ∀ session ∈ state.sessions, ∀ id, session.activeTabId = some id →
    ∃ tab ∈ state.tabs, tab.id = id ∧ tab.sessionId = session.id ∧ tab.archivedAt = none
  activeInTab : ∀ tab ∈ state.tabs, tab.archivedAt = none →
    ∀ id, tab.activeMuxTerminalId = some id → ∃ terminal ∈ state.terminals,
      terminal.id = id ∧ terminal.tabId = some tab.id ∧ terminal.archivedAt = none
  activeInSession : ∀ session ∈ state.sessions,
    ∀ id, session.activeMuxTerminalId = some id → ∃ terminal ∈ state.terminals,
      terminal.id = id ∧ terminal.archivedAt = none ∧ terminal.tabId = session.activeTabId ∧
        session.activeTabId.isSome

/-! ## The catalog as a forest -/

def AppSession.focus (session : AppSession) : RootNode String String :=
  ⟨session.archivedAt.isSome, session.activeTabId, session.activeMuxTerminalId⟩

def SessionTab.focus (tab : SessionTab) : GroupNode String String :=
  ⟨tab.sessionId, tab.archivedAt.isSome, tab.activeMuxTerminalId⟩

def MuxTerminal.focus (terminal : MuxTerminal) : ItemNode String String :=
  ⟨terminal.sessionId, terminal.tabId, terminal.archivedAt.isSome⟩

def focus (state : PersistedState) : FocusForest String String String where
  root id := (state.session? id).map AppSession.focus
  group id := (state.tab? id).map SessionTab.focus
  item id := (state.terminal? id).map MuxTerminal.focus

/-- A catalog with distinct identifiers whose forest is focused has sound
pointers. -/
theorem catalogFocus_of_focused {state : PersistedState} (hkeyed : Keyed state)
    (h : (focus state).Focused) : CatalogFocus state := by
  have hroot : ∀ session ∈ state.sessions,
      (focus state).root session.id = some session.focus := by
    intro session hsess
    simp [focus, PersistedState.session?, row?_of_mem AppSession.id hkeyed.sessions hsess]
  have hgroup : ∀ tab ∈ state.tabs, (focus state).group tab.id = some tab.focus := by
    intro tab htab
    simp [focus, PersistedState.tab?, row?_of_mem SessionTab.id hkeyed.tabs htab]
  have hitem : ∀ terminal ∈ state.terminals,
      (focus state).item terminal.id = some terminal.focus := by
    intro terminal hterm
    simp [focus, PersistedState.terminal?, row?_of_mem MuxTerminal.id hkeyed.terminals hterm]
  have howned : ∀ sessionId id, (focus state).Owned sessionId id → ∃ tab ∈ state.tabs,
      tab.id = id ∧ tab.sessionId = sessionId ∧ tab.archivedAt = none := by
    rintro sessionId id ⟨w, hw, hsess, hopen⟩
    obtain ⟨tab, htab, rfl⟩ := map_eq_some_iff.mp hw
    obtain ⟨hmem, hid⟩ := row?_mem SessionTab.id htab
    exact ⟨tab, hmem, hid, hsess, by simpa [SessionTab.focus] using hopen⟩
  have hheld : ∀ tabId id, (focus state).Held tabId id → ∃ terminal ∈ state.terminals,
      terminal.id = id ∧ terminal.tabId = some tabId ∧ terminal.archivedAt = none := by
    rintro tabId id ⟨x, hx, htab, hopen⟩
    obtain ⟨terminal, hterm, rfl⟩ := map_eq_some_iff.mp hx
    obtain ⟨hmem, hid⟩ := row?_mem MuxTerminal.id hterm
    exact ⟨terminal, hmem, hid, htab, by simpa [MuxTerminal.focus] using hopen⟩
  constructor
  · obtain ⟨id, v, hv, hopen⟩ := h.visible
    obtain ⟨session, hsess, rfl⟩ := map_eq_some_iff.mp hv
    exact ⟨session, (row?_mem AppSession.id hsess).1, by simpa [AppSession.focus] using hopen⟩
  · intro session hsess
    obtain ⟨id, hid⟩ := h.owns session.id session.focus (hroot session hsess)
    obtain ⟨tab, htab, -, howner, hopen⟩ := howned session.id id hid
    exact ⟨tab, htab, howner, hopen⟩
  · intro terminal hterm hopen
    obtain ⟨id, hid, htab⟩ := h.placed terminal.id terminal.focus (hitem terminal hterm)
      (by simp [MuxTerminal.focus, hopen])
    obtain ⟨tab, hmem, rfl, howner, htabOpen⟩ := howned _ id htab
    exact ⟨tab, hmem, hid, howner, htabOpen⟩
  · intro session hsess id hid
    exact howned session.id id (h.rootGroup session.id session.focus id (hroot session hsess) hid)
  · intro tab htab hopen id hid
    exact hheld tab.id id (h.groupItem tab.id tab.focus id (hgroup tab htab)
      (by simp [SessionTab.focus, hopen]) hid)
  · intro session hsess id hid
    obtain ⟨tabId, htabId, hterm⟩ :=
      h.rootItem session.id session.focus id (hroot session hsess) hid
    have hactive : session.activeTabId = some tabId := htabId
    obtain ⟨terminal, hmem, hterminalId, htab, hopen⟩ := hheld tabId id hterm
    exact ⟨terminal, hmem, hterminalId, hopen, htab.trans hactive.symm, by simp [hactive]⟩

/-! ## Writes seen in the forest -/

variable {state : PersistedState} {terminal : MuxTerminal} {session : AppSession} {tab : SessionTab}

section Writes

variable {id : String}

theorem focus_putSession {o : AppSession} (h : state.session? session.id = some o) :
    focus (state.putSession session) = (focus state).setRoot session.id session.focus := by
  refine FocusForest.mk.injEq .. |>.mpr ⟨?_, rfl, rfl⟩
  funext id
  by_cases hid : id = session.id
  · simp [hid, h]
  · simp [hid, focus]

theorem focus_putTab {o : SessionTab} (h : state.tab? tab.id = some o) :
    focus (state.putTab tab) = (focus state).setGroup tab.id tab.focus := by
  refine FocusForest.mk.injEq .. |>.mpr ⟨rfl, ?_, rfl⟩
  funext id
  by_cases hid : id = tab.id
  · simp [hid, h]
  · simp [hid, focus]

theorem focus_putTerminal {o : MuxTerminal} (h : state.terminal? terminal.id = some o) :
    focus (state.putTerminal terminal) = (focus state).setItem terminal.id terminal.focus := by
  refine FocusForest.mk.injEq .. |>.mpr ⟨rfl, rfl, ?_⟩
  funext id
  by_cases hid : id = terminal.id
  · simp [hid, h]
  · simp [hid, focus]

theorem focus_pushSession (h : state.session? session.id = none) :
    focus (state.pushSession session) = (focus state).setRoot session.id session.focus := by
  refine FocusForest.mk.injEq .. |>.mpr ⟨?_, rfl, rfl⟩
  funext id
  by_cases hid : id = session.id
  · simp [hid, h]
  · simp [hid, focus, Ne.symm hid]

theorem focus_pushTab (h : state.tab? tab.id = none) :
    focus (state.pushTab tab) = (focus state).setGroup tab.id tab.focus := by
  refine FocusForest.mk.injEq .. |>.mpr ⟨rfl, ?_, rfl⟩
  funext id
  by_cases hid : id = tab.id
  · simp [hid, h]
  · simp [hid, focus, Ne.symm hid]

theorem focus_pushTerminal (h : state.terminal? terminal.id = none) :
    focus (state.pushTerminal terminal) =
      (focus state).setItem terminal.id terminal.focus := by
  refine FocusForest.mk.injEq .. |>.mpr ⟨rfl, rfl, ?_⟩
  funext id
  by_cases hid : id = terminal.id
  · simp [hid, h]
  · simp [hid, focus, Ne.symm hid]

theorem root_focus (h : state.session? id = some session) :
    (focus state).root id = some session.focus := by
  simp [focus, h]

theorem group_focus (h : state.tab? id = some tab) : (focus state).group id = some tab.focus := by
  simp [focus, h]

theorem item_focus (h : state.terminal? id = some terminal) :
    (focus state).item id = some terminal.focus := by
  simp [focus, h]

theorem focus_putSession_same {o : AppSession}
    (h : state.session? session.id = some o) (hsame : session.focus = o.focus) :
    focus (state.putSession session) = focus state := by
  rw [focus_putSession h, hsame]
  exact FocusForest.setRoot_self _ (root_focus h)

theorem focus_putTab_same {o : SessionTab} (h : state.tab? tab.id = some o)
    (hsame : tab.focus = o.focus) : focus (state.putTab tab) = focus state := by
  rw [focus_putTab h, hsame]
  exact FocusForest.setGroup_self _ (group_focus h)

theorem focus_putTerminal_same {o : MuxTerminal}
    (h : state.terminal? terminal.id = some o) (hsame : terminal.focus = o.focus) :
    focus (state.putTerminal terminal) = focus state := by
  rw [focus_putTerminal h, hsame]
  exact FocusForest.setItem_self _ (item_focus h)

namespace Keyed

section

variable (h : Keyed state)
include h

theorem putSession (session : AppSession) : Keyed (state.putSession session) where
  sessions := by
    rw [PersistedState.putSession, map_key_updateRow AppSession.id (fun _ _ => rfl)]
    exact h.sessions
  tabs := h.tabs
  terminals := h.terminals

theorem putTab (tab : SessionTab) : Keyed (state.putTab tab) where
  sessions := h.sessions
  tabs := by
    rw [PersistedState.putTab, map_key_updateRow SessionTab.id (fun _ _ => rfl)]
    exact h.tabs
  terminals := h.terminals

theorem putTerminal (terminal : MuxTerminal) : Keyed (state.putTerminal terminal) where
  sessions := h.sessions
  tabs := h.tabs
  terminals := by
    rw [PersistedState.putTerminal, map_key_updateRow MuxTerminal.id (fun _ _ => rfl)]
    exact h.terminals

theorem pushSession {session : AppSession}
    (hfresh : state.session? session.id = none) : Keyed (state.pushSession session) where
  sessions := nodup_push AppSession.id h.sessions hfresh
  tabs := h.tabs
  terminals := h.terminals

theorem pushTab {tab : SessionTab} (hfresh : state.tab? tab.id = none) :
    Keyed (state.pushTab tab) where
  sessions := h.sessions
  tabs := nodup_push SessionTab.id h.tabs hfresh
  terminals := h.terminals

theorem pushTerminal {terminal : MuxTerminal}
    (hfresh : state.terminal? terminal.id = none) : Keyed (state.pushTerminal terminal) where
  sessions := h.sessions
  tabs := h.tabs
  terminals := nodup_push MuxTerminal.id h.terminals hfresh

theorem session?_of_mem {session : AppSession}
    (hmem : session ∈ state.sessions) : state.session? session.id = some session :=
  row?_of_mem AppSession.id h.sessions hmem

theorem tab?_of_mem {tab : SessionTab} (hmem : tab ∈ state.tabs) : state.tab? tab.id = some tab :=
  row?_of_mem SessionTab.id h.tabs hmem

theorem terminal?_of_mem {terminal : MuxTerminal}
    (hmem : terminal ∈ state.terminals) : state.terminal? terminal.id = some terminal :=
  row?_of_mem MuxTerminal.id h.terminals hmem

end

end Keyed

end Writes

/-! ## Every mutation keeps the pointers sound -/

/-- The invariant of the catalog. -/
structure Sound (state : PersistedState) : Prop where
  keyed : Keyed state
  focused : (focus state).Focused

section Steps

variable {env : StoreEnv} {state next : PersistedState}

variable {sessionId tabId title id : String} {ids : List String} {stop : Bool}

theorem Sound.putSession_same (h : Sound state) {o : AppSession}
    (hold : state.session? session.id = some o) (hsame : session.focus = o.focus) :
    Sound (state.putSession session) :=
  ⟨h.keyed.putSession session, by rw [focus_putSession_same hold hsame]; exact h.focused⟩

theorem Sound.putTab_same (h : Sound state) {o : SessionTab}
    (hold : state.tab? tab.id = some o) (hsame : tab.focus = o.focus) : Sound (state.putTab tab) :=
  ⟨h.keyed.putTab tab, by rw [focus_putTab_same hold hsame]; exact h.focused⟩

theorem Sound.putTerminal_same (h : Sound state) {o : MuxTerminal}
    (hold : state.terminal? terminal.id = some o) (hsame : terminal.focus = o.focus) :
    Sound (state.putTerminal terminal) :=
  ⟨h.keyed.putTerminal terminal,
    by rw [focus_putTerminal_same hold hsame]; exact h.focused⟩

theorem Sound.addSession (hkeyed : Keyed state) (hfocus : (focus state).Anchored)
    {timestamp : String} {position : Nat}
    (hsess : state.session? sessionId = none) (htab : state.tab? tabId = none) :
    Sound ((state.pushSession (newSession timestamp sessionId tabId title position)).pushTab
      (newTab timestamp tabId sessionId "Window 1" 0)) := by
  refine ⟨(hkeyed.pushSession hsess).pushTab htab, ?_⟩
  rw [focus_pushTab (by exact htab), focus_pushSession (by exact hsess)]
  exact hfocus.plant (by simp [focus, htab])

theorem Sound.ensureVisibleSession (hkeyed : Keyed state) (hfocus : (focus state).Anchored)
    (hfresh : env.Fresh state) : Sound (ensureVisibleSession env state) := by
  unfold Store.ensureVisibleSession
  split
  · rename_i hany
    obtain ⟨session, hmem, hopen⟩ := List.any_eq_true.mp hany
    refine ⟨hkeyed, hfocus, session.id, session.focus, root_focus (hkeyed.session?_of_mem hmem), ?_⟩
    simpa [AppSession.focus] using hopen
  · exact Sound.addSession hkeyed hfocus (hfresh.session 0) (hfresh.tab 1)

section

variable (h : Sound state)
include h

theorem Sound.createSession (hfresh : env.Fresh state)
    (hok : createSession env title state = .ok (session, next)) : Sound next := by
  cases hok
  exact Sound.addSession h.keyed h.focused.toAnchored (hfresh.session 0) (hfresh.tab 1)

theorem Sound.renameSession
    (hok : renameSession env id title state = .ok (session, next)) : Sound next := by
  obtain ⟨old, hold, rfl, rfl⟩ := renameSession_ok hok
  have hid := session?_id hold
  exact h.putSession_same (o := old) (by simp [hid, hold]) rfl

theorem Sound.reorderSessions {sessions : List AppSession}
    (hok : reorderSessions env ids state = .ok (sessions, next)) : Sound next := by
  obtain ⟨-, hplaced, -⟩ := reorderSessions_ok hok
  refine placeSessions_keeps (P := Sound) ?_ hplaced h
  intro s position session _ hs hsess
  exact hs.putSession_same (o := session) hsess rfl

theorem Sound.archiveSession (hfresh : env.Fresh state)
    (hok : archiveSession env id state = .ok (session, next)) : Sound next := by
  obtain ⟨old, hold, rfl, rfl⟩ := archiveSession_ok hok
  have hid := session?_id hold
  have hsess : (archivedSession env old).id = id := by simp [hid]
  have hfocus : (archivedSession env old).focus = { old.focus with hidden := true } := by
    unfold archivedSession
    split
    · rfl
    rename_i harch
    have hsome : old.archivedAt.isSome = true := by
      simpa [isSome_iff_ne_none] using harch
    simp [AppSession.focus, hsome]
  have hfound : state.session? (archivedSession env old).id = some old := hsess ▸ hold
  refine Sound.ensureVisibleSession (h.keyed.putSession _) ?_ ?_
  · rw [focus_putSession hfound, hfocus]
    exact h.focused.setHidden (hsess ▸ root_focus hold) true
  · refine ⟨fun k => ?_, hfresh.tab, hfresh.terminal⟩
    rw [session?_putSession]
    have hnone := hfresh.session k
    split
    · simpa [StoreEnv.later] using hnone
    · exact hnone

theorem Sound.restoreSession
    (hok : restoreSession env id state = .ok (session, next)) : Sound next := by
  obtain ⟨old, hold, rfl, rfl⟩ := restoreSession_ok hok
  have hid := session?_id hold
  have hfound : state.session? (restoredSession (env.now 0) old).id = some old := hid.symm ▸ hold
  refine ⟨h.keyed.putSession _, ?_⟩
  rw [focus_putSession hfound]
  exact h.focused.reveal (root_focus hfound)

theorem Sound.createTab (hfresh : env.Fresh state)
    (hok : createTab env sessionId title state = .ok (tab, next)) : Sound next := by
  obtain ⟨-, htab, old, hold, rfl⟩ := createTab_ok hok
  have hid := session?_id hold
  have htabId : tab.id = tabKey (env.uuid 0) := by rw [htab]; rfl
  have htabFocus : tab.focus = ⟨sessionId, false, none⟩ := by rw [htab]; rfl
  have hnone : state.tab? tab.id = none := htabId ▸ hfresh.tab 0
  have hadopted : (adoptTab (env.now 1) tab.id old).id = sessionId := by simp [hid]
  have hfocus : (adoptTab (env.now 1) tab.id old).focus =
      ⟨old.focus.hidden, old.focus.group.or (some tab.id), old.focus.item⟩ := by
    unfold adoptTab
    split
    · rename_i hnone
      have hnone : old.activeTabId = none := by simpa using hnone
      simp [AppSession.focus, touchSession, hnone]
    · rename_i hsome
      obtain ⟨active, hactive⟩ := ne_none_iff_exists'.mp (by simpa using hsome)
      simp [AppSession.focus, hactive]
  have hgroup : (focus state).group tab.id = none := by
    simp only [focus, hnone, map_none]
  refine ⟨(h.keyed.pushTab hnone).putSession _, ?_⟩
  rw [focus_putSession (o := old) (by rw [hadopted]; exact hold), focus_pushTab hnone, hfocus,
    htabFocus, hadopted]
  exact h.focused.graft (root_focus hold) hgroup

theorem Sound.renameTab (hok : renameTab env id title state = .ok (tab, next)) : Sound next := by
  obtain ⟨old, hold, rfl, rfl⟩ := renameTab_ok hok
  have hid := tab?_id hold
  have hfocus : (retitleTab (env.now 0) title old).focus = old.focus := by
    simp only [SessionTab.focus, retitleTab, touchTab]
  exact h.putTab_same (o := old) (by simp [hid, hold]) hfocus

theorem Sound.saveTabLayout {layout : String} {revision : Option Nat}
    (hok : saveTabLayout env id layout revision state = .ok (tab, next)) : Sound next := by
  obtain ⟨old, hold, rfl, rfl⟩ := saveTabLayout_ok hok
  have hid := tab?_id hold
  exact h.putTab_same (o := old) (by simp [hid, hold]) rfl

theorem Sound.reorderTabs
    {tabs : List SessionTab} (hok : reorderTabs env sessionId ids state = .ok (tabs, next)) :
    Sound next := by
  obtain ⟨-, hplaced, -⟩ := reorderTabs_ok hok
  refine placeTabs_keeps (P := Sound) ?_ hplaced h
  intro s position tab _ hs htab
  exact hs.putTab_same (o := tab) htab rfl

theorem Sound.selectTab {tabId : Option String}
    (hok : selectTab env sessionId tabId state = .ok (session, next)) : Sound next := by
  obtain ⟨selected, old, hselected, hold, rfl, rfl⟩ := selectTab_ok hok
  have hid := session?_id hold
  refine ⟨h.keyed.putSession _, ?_⟩
  rw [focus_putSession (o := old) (by simp [hid, hold]), showTab_id, hid]
  cases tabId with
  | none =>
    cases hselected
    exact h.focused.blur (root_focus hold) (.inl rfl)
  | some id =>
    obtain ⟨tab, hmem, rfl, -, howner, hopen⟩ := selectableTab_ok hselected
    exact h.focused.focusGroup (root_focus hold)
      (group_focus (h.keyed.tab?_of_mem hmem)) howner (by simp [SessionTab.focus, hopen])

end

theorem focus_selectTerminal {now now' : String} (htab : state.tab? tabId = some tab)
    (hsess : state.session? sessionId = some session) :
    focus ((state.putTab (showTerminalInTab now (some id) tab)).putSession
        (showTerminal now' (some tabId) (some id) session)) =
      ((focus state).setGroup tabId { tab.focus with item := some id }).setRoot sessionId
        ⟨session.focus.hidden, some tabId, some id⟩ := by
  have htabId := tab?_id htab
  have hid := session?_id hsess
  rw [focus_putSession (o := session) (by simp [hid, hsess]),
    focus_putTab (o := tab) (by simp [htabId, htab]), showTerminalInTab_id, showTerminal_id,
    htabId, hid]
  rfl

theorem Sound.selectTerminal (h : Sound state) {terminalId : Option String} {now : Nat → String}
    (hok : selectTerminalInState now state sessionId terminalId = .ok (session, next)) :
    Sound next := by
  obtain ⟨old, hold, hcase⟩ := selectTerminalInState_ok hok
  have hid := session?_id hold
  rcases hcase with ⟨rfl, rfl, rfl⟩ |
    ⟨id, tabId, tab, terminal, rfl, hmem, rfl, rfl, hopen, hterminalTab, htab, rfl, rfl⟩
  · refine ⟨h.keyed.putSession _, ?_⟩
    rw [focus_putSession (o := old) (by simp [hid, hold]), showTerminal_id, hid]
    exact h.focused.blur (root_focus hold) (.inr rfl)
  refine ⟨(h.keyed.putTab _).putSession _, ?_⟩
  have hitem := item_focus (h.keyed.terminal?_of_mem hmem)
  have hshown : terminal.focus.hidden = false := by simp [MuxTerminal.focus, hopen]
  obtain ⟨g, hg, howned⟩ := h.focused.placed terminal.id terminal.focus hitem hshown
  have heq : g = tabId := Option.some.inj (hg.symm.trans hterminalTab)
  subst heq
  rw [focus_selectTerminal htab hold]
  exact h.focused.focusItem (root_focus hold) (group_focus htab) howned
    ⟨terminal.focus, hitem, hterminalTab, hshown⟩

theorem createTerminal_writes (h : Keyed state) (hfresh : env.Fresh state)
    {tabId : Option String} {input : TerminalInput}
    (hok : createTerminal env sessionId tabId title input state = .ok (terminal, next)) :
    ∃ selected tab session,
      tabId.or ((state.session? sessionId).bind (·.activeTabId)) = some selected ∧
      terminal.focus = ⟨sessionId, some selected, false⟩ ∧
      terminal.id = terminalKey (env.uuid 0) ∧ state.terminal? terminal.id = none ∧
      state.tab? selected = some tab ∧ tab.sessionId = sessionId ∧ tab.archivedAt = none ∧
      state.session? sessionId = some session ∧
      next = ((state.pushTerminal terminal).putTab
        (showTerminalInTab (env.now 1) (some terminal.id) tab)).putSession
        (showTerminal (env.now 2) (some selected) (some terminal.id) session) := by
  obtain ⟨selected, session, -, htgt, hterm, hselect⟩ := createTerminal_ok hok
  obtain ⟨tab, htabMem, htabId, howner, hopen⟩ := openTab_iff.mp (targetTab_ok htgt)
  have htab : state.tab? selected = some tab := htabId ▸ h.tab?_of_mem htabMem
  have hid : terminal.id = terminalKey (env.uuid 0) := by rw [hterm]; rfl
  have hplace : terminal.tabId = some selected := by rw [hterm]; rfl
  have hnone : state.terminal? terminal.id = none := hid ▸ hfresh.terminal 0
  obtain ⟨old, hold, hcase⟩ := selectTerminalInState_ok hselect
  rcases hcase with ⟨habs, -⟩ |
    ⟨id, place, tab', found, heq, hmem, hfoundId, -, -, hfoundTab, htab', rfl, rfl⟩
  · cases habs
  cases heq
  have hsame : found = terminal := by
    have hrow := (h.pushTerminal hnone).terminal?_of_mem hmem
    simp only [hfoundId, terminal?_pushTerminal, hnone, none_or, if_true, Option.some.injEq] at hrow
    exact hrow.symm
  have hselected : place = selected := by
    rw [hsame, hplace] at hfoundTab
    exact (Option.some.inj hfoundTab).symm
  subst hselected
  cases Option.some.inj (htab.symm.trans htab')
  exact ⟨place, tab, old, targetTab_named htgt, by rw [hterm]; rfl, hid, hnone, htab,
    howner, hopen, hold, rfl⟩

section

variable (h : Sound state)
include h

theorem Sound.createTerminal (hfresh : env.Fresh state)
    {tabId : Option String} {input : TerminalInput}
    (hok : createTerminal env sessionId tabId title input state = .ok (terminal, next)) :
    Sound next := by
  obtain ⟨selected, tab, session, -, hfocus, -, hnone, htab, howner, hopen, hsess, rfl⟩ :=
    createTerminal_writes h.keyed hfresh hok
  have hitem : (focus state).item terminal.id = none := by
    simp only [focus, hnone, map_none]
  have hshown : (state.pushTerminal terminal).tab? selected = some tab := htab
  refine ⟨((h.keyed.pushTerminal hnone).putTab _).putSession _, ?_⟩
  rw [focus_selectTerminal hshown hsess, focus_pushTerminal hnone, hfocus]
  exact h.focused.addItem (root_focus hsess) (group_focus htab)
    ⟨_, group_focus htab, howner, by simp [SessionTab.focus, hopen]⟩ hitem

theorem Sound.updateTerminal {revision : Option Nat} {edit : TerminalEdit}
    (hok : updateTerminal env id revision edit state = .ok (terminal, next)) : Sound next := by
  obtain ⟨old, hold, -, rfl, rfl⟩ := updateTerminal_ok hok
  have hid := terminal?_id hold
  have hfocus : (stampTerminal (env.now 0) (edit.apply (env.uuid 0) old)).focus = old.focus := by
    rw [edit.only]
    rfl
  exact h.putTerminal_same (o := old) (by simp [hid, hold]) hfocus

theorem Sound.reorderTerminals {tabId : Option String} {terminals : List MuxTerminal}
    (hok : reorderTerminals env sessionId tabId ids state = .ok (terminals, next)) :
    Sound next := by
  obtain ⟨-, -, -, hplaced, -⟩ := reorderTerminals_ok hok
  refine placeTerminals_keeps (P := Sound) ?_ hplaced h
  intro s position terminal _ hs hterm
  exact hs.putTerminal_same (o := terminal) hterm rfl

theorem Sound.holders (hmem : terminal ∈ state.terminals) (hopen : terminal.archivedAt = none) :
    ∃ tabId tab, terminal.tabId = some tabId ∧ state.tab? tabId = some tab ∧
      tab.sessionId = terminal.sessionId ∧ tab.archivedAt = none ∧
      (focus state).Held tabId terminal.id := by
  have hitem := item_focus (h.keyed.terminal?_of_mem hmem)
  have hshown : terminal.focus.hidden = false := by simp [MuxTerminal.focus, hopen]
  obtain ⟨tabId, htabId, w, hw, howner, htabOpen⟩ :=
    h.focused.placed terminal.id terminal.focus hitem hshown
  obtain ⟨tab, htab, rfl⟩ := map_eq_some_iff.mp hw
  exact ⟨tabId, tab, htabId, htab, howner, by simpa [SessionTab.focus] using htabOpen,
    terminal.focus, hitem, htabId, hshown⟩

theorem Sound.held_of_mem (hmem : terminal ∈ state.terminals) (htab : terminal.tabId = some tabId)
    (hopen : terminal.archivedAt = none) : (focus state).Held tabId terminal.id :=
  ⟨terminal.focus, item_focus (h.keyed.terminal?_of_mem hmem), htab,
    by simp [MuxTerminal.focus, hopen]⟩

theorem Sound.sourceReplacement_held {j : String}
    (hj : sourceReplacement state id (some tabId) = some j) :
    j ≠ id ∧ (focus state).Held tabId j := by
  obtain ⟨terminal, hfound, rfl⟩ := map_eq_some_iff.mp hj
  have hmem := mem_sortBy.mp (mem_of_find?_eq_some hfound)
  have hne := find?_some hfound
  simp only [mem_filter, Bool.and_eq_true, decide_eq_true_eq, shown, Bool.false_or,
    isNone_iff_eq_none] at hmem
  exact ⟨by simpa using hne, h.held_of_mem hmem.1 hmem.2.1 hmem.2.2⟩

theorem Sound.nextTerminal_held {j : String}
    (hj : nextTerminal state id (some tabId) = some j) : j ≠ id ∧ (focus state).Held tabId j := by
  obtain ⟨terminal, hfound, rfl⟩ := map_eq_some_iff.mp hj
  have hmem := argmin_mem hfound
  simp only [mem_filter, Bool.and_eq_true, decide_eq_true_eq, bne_iff_ne, ne_eq,
    isNone_iff_eq_none] at hmem
  exact ⟨hmem.2.1.2, h.held_of_mem hmem.1 hmem.2.1.1 hmem.2.2⟩

end

theorem leaveTab_focus (now id : String) (replacement : Option String) (tab : SessionTab) :
    (leaveTab now id replacement tab).focus =
      { tab.focus with
        item := if tab.focus.item = some id then replacement else tab.focus.item } := rfl

theorem dropFromTab_focus (now id : String) (next : Option String) (tab : SessionTab) :
    (dropFromTab now id next tab).focus =
      { tab.focus with item := if tab.focus.item = some id then next else tab.focus.item } := by
  unfold dropFromTab
  by_cases hactive : tab.activeMuxTerminalId = some id
  · simp [hactive, SessionTab.focus, touchTab]
  · simp [hactive, SessionTab.focus]

theorem dropFromSession_focus (now id : String) (next : Option String) (session : AppSession) :
    (dropFromSession now id next session).focus =
      ⟨session.focus.hidden, session.focus.group,
        if session.focus.item = some id then next else session.focus.item⟩ := by
  unfold dropFromSession
  by_cases hactive : session.activeMuxTerminalId = some id
  · simp [hactive, AppSession.focus, touchSession]
  · simp [hactive, AppSession.focus]

theorem archiveClosed_focus (now : String) (stop : Bool) (terminal : MuxTerminal) :
    (archiveClosed now stop terminal).focus = { terminal.focus with hidden := true } := by
  unfold archiveClosed stopClosed
  split <;> rfl

/-- The records a move writes: the terminal, the tab it leaves, the tab that
takes it and the session, where the terminal is then shown. -/
theorem Sound.moveTerminal_writes (h : Sound state) {target : String}
    (hok : moveTerminal env id target state = .ok (terminal, next)) :
    ∃ current, state.terminal? id = some current ∧ current.archivedAt = none ∧
      ((terminal = current ∧ next = state) ∨
        ∃ sourceId source targetTab session position replacement,
          current.tabId = some sourceId ∧ target ≠ sourceId ∧
          state.tab? sourceId = some source ∧ source.sessionId = current.sessionId ∧
          source.archivedAt = none ∧
          replacement = sourceReplacement state id (some sourceId) ∧
          state.tab? target = some targetTab ∧ targetTab.sessionId = current.sessionId ∧
          targetTab.archivedAt = none ∧
          state.session? current.sessionId = some session ∧
          terminal = relocate (env.now 0) target position current ∧
          next = (((state.putTerminal terminal).putTab
              (leaveTab (env.now 1) id replacement source)).putTab
              (showTerminalInTab (env.now 2) (some id) targetTab)).putSession
              (showTerminal (env.now 3) (some target) (some id) session)) := by
  obtain ⟨current, hmem, rfl, hopen, htgt, hcase⟩ := moveTerminal_ok hok
  have hcur := h.keyed.terminal?_of_mem hmem
  refine ⟨current, hcur, hopen, ?_⟩
  rcases hcase with ⟨-, rfl, rfl⟩ | ⟨hmoved, hmove⟩
  · exact .inl ⟨rfl, rfl⟩
  obtain ⟨old, left, session, hold, rfl, hleave, hselect⟩ := moveToTab_ok hmove
  cases Option.some.inj (hcur.symm.trans hold)
  obtain ⟨sourceId, source, hsourceId, hsource, howner, hsourceOpen, -⟩ := h.holders hmem hopen
  obtain ⟨targetTab, htargetMem, htargetId, htargetOwner, htargetOpen⟩ := openTab_iff.mp htgt
  have htargetTab : state.tab? target = some targetTab := htargetId ▸ h.keyed.tab?_of_mem htargetMem
  have hne : target ≠ sourceId := fun heq => hmoved (heq ▸ hsourceId)
  rw [hsourceId] at hleave
  simp only [leaveSource, bind_ok, findTab_ok, pure_ok] at hleave
  obtain ⟨source', hsource', rfl⟩ := hleave
  cases Option.some.inj (hsource.symm.trans hsource')
  have hsourceTab := tab?_id hsource
  have hkeyed := (h.keyed.putTerminal
    (relocate (env.now 0) target (openTerminalCount state target) current)).putTab
    (leaveTab (env.now 1) current.id (sourceReplacement state current.id (some sourceId)) source)
  obtain ⟨root, hroot, hcase⟩ := selectTerminalInState_ok hselect
  rcases hcase with ⟨habs, -⟩ |
    ⟨id, place, tab, found, heq, hfoundMem, hid, -, -, hplace, htab, rfl, rfl⟩
  · cases habs
  cases heq
  have hsame : found = relocate (env.now 0) target (openTerminalCount state target) current := by
    have hrow := hkeyed.terminal?_of_mem hfoundMem
    simp only [hid, terminal?_putTab, terminal?_putTerminal,
      relocate_id, if_true, hcur, map_some, Option.some.injEq] at hrow
    exact hrow.symm
  have hplaced : place = target := by
    rw [hsame] at hplace
    exact (Option.some.inj hplace).symm
  subst hplaced
  have htabSame : tab = targetTab := by
    simp only [tab?_putTab, leaveTab_id, hsourceTab, if_neg hne,
      tab?_putTerminal, htargetTab, Option.some.injEq] at htab
    exact htab.symm
  subst htabSame
  exact .inr ⟨sourceId, source, tab, root, openTerminalCount state place, _, hsourceId, hne,
    hsource, howner, hsourceOpen, rfl, htargetTab, htargetOwner, htargetOpen, hroot, rfl, rfl⟩

theorem Sound.moveTerminal (h : Sound state) {target : String}
    (hok : moveTerminal env id target state = .ok (terminal, next)) : Sound next := by
  obtain ⟨current, hcur, hopen, hcase⟩ := h.moveTerminal_writes hok
  rcases hcase with ⟨-, rfl⟩ |
    ⟨sourceId, source, targetTab, session, position, replacement, hsourceId, hne, hsource, howner,
      -, rfl, htgt, htargetOwner, htargetOpen, hsess, rfl, rfl⟩
  · exact h
  obtain ⟨hmem, rfl⟩ := row?_mem MuxTerminal.id hcur
  have hsourceTab := tab?_id hsource
  have htargetTab : ((state.putTerminal (relocate (env.now 0) target position current)).putTab
      (leaveTab (env.now 1) current.id (sourceReplacement state current.id (some sourceId))
        source)).tab? target = some targetTab := by
    simp [hsourceTab, hne, htgt]
  have hheld := h.held_of_mem hmem hsourceId hopen
  have hmoved : (relocate (env.now 0) target position current).focus =
      ⟨current.sessionId, some target, false⟩ := by
    simp [MuxTerminal.focus, relocate, hopen]
  refine ⟨(((h.keyed.putTerminal _).putTab _).putTab _).putSession _, ?_⟩
  rw [focus_selectTerminal htargetTab hsess,
    focus_putTab (o := source) (by simp [hsourceTab, hsource]),
    focus_putTerminal (o := current) (by simp [hcur]), leaveTab_focus, leaveTab_id,
    hsourceTab, hmoved]
  exact h.focused.moveItem (root_focus hsess) (group_focus hsource) howner hheld
    (fun j hj => h.sourceReplacement_held hj) hne (group_focus htgt)
    ⟨targetTab.focus, group_focus htgt, htargetOwner, by simp [SessionTab.focus, htargetOpen]⟩

theorem Sound.closeTerminal_writes (h : Sound state) {result : CloseTerminalResult}
    (hok : closeTerminal env id stop state = .ok (result, next)) :
    (∃ current, state.terminal? id = some current ∧
      state.session? current.sessionId = some result.session ∧ next = state ∧
      result.terminal = current ∧ result.tab = current.tabId.bind state.tab?) ∨
    (∃ current tabId tab session replacement, state.terminal? id = some current ∧
      current.archivedAt = none ∧ current.tabId = some tabId ∧
      replacement = nextTerminal state id (some tabId) ∧
      state.tab? tabId = some tab ∧ tab.sessionId = current.sessionId ∧
      state.session? current.sessionId = some session ∧
      result.terminal = archiveClosed (env.now 0) stop current ∧
      result.tab = some (dropFromTab (env.now 0) id replacement tab) ∧
      result.session = dropFromSession (env.now 0) id replacement session ∧
      next = ((state.putTerminal result.terminal).putTab
        (dropFromTab (env.now 0) id replacement tab)).putSession result.session) := by
  obtain ⟨current, hcur, hcase⟩ := closeTerminal_ok hok
  obtain ⟨hmem, rfl⟩ := row?_mem MuxTerminal.id hcur
  rcases hcase with ⟨-, hread⟩ | ⟨hopen, hclose⟩
  · obtain ⟨session, hsess, rfl, rfl⟩ := closedAlready_ok hread
    exact .inl ⟨current, hcur, hsess, rfl, rfl, rfl⟩
  obtain ⟨archived, after, old, session, harch, hafter, hold, hsess, hterm, hres,
    rfl⟩ := closeOpen_ok hclose
  obtain ⟨tabId, tab, htabId, htab, howner, -, -⟩ := h.holders hmem hopen
  rw [htabId] at hafter hsess
  simp only [closeInTab, bind_ok, findTab_ok, pure_ok, Prod.mk.injEq] at hafter
  obtain ⟨tab', htab', hshown, rfl⟩ := hafter
  cases Option.some.inj (htab.symm.trans htab')
  refine .inr ⟨current, tabId, tab, old, _, hcur, hopen, htabId, rfl, htab, howner,
    hold, hterm.trans harch, hshown.symm, hres.trans hsess, ?_⟩
  rw [hterm, hres]

theorem Sound.closeTerminal (h : Sound state) {result : CloseTerminalResult}
    (hok : closeTerminal env id stop state = .ok (result, next)) : Sound next := by
  rcases h.closeTerminal_writes hok with ⟨current, -, -, rfl, -⟩ |
    ⟨current, tabId, tab, session, replacement, hcur, hopen, htabId, rfl, htab, howner,
      hsess, hterm, -, hres, rfl⟩
  · exact h
  obtain ⟨hmem, rfl⟩ := row?_mem MuxTerminal.id hcur
  have htabRow := tab?_id htab
  have hsessionRow := session?_id hsess
  have hheld := h.held_of_mem hmem htabId hopen
  refine ⟨((h.keyed.putTerminal _).putTab _).putSession _, ?_⟩
  rw [hres, hterm, focus_putSession (o := session) (by simp [hsessionRow, hsess]),
    focus_putTab (o := tab) (by simp [htabRow, htab]),
    focus_putTerminal (o := current) (by simp [hcur]),
    dropFromSession_focus, dropFromTab_focus, dropFromSession_id, dropFromTab_id,
    archiveClosed_id, htabRow, hsessionRow]
  exact h.focused.closeItem (root_focus hsess) (group_focus htab) howner hheld
    (fun j hj => h.nextTerminal_held hj) (by rw [archiveClosed_focus])

theorem archivedTab_focus (now : String) (tab : SessionTab) :
    (archivedTab now tab).focus = { tab.focus with hidden := true } := by
  unfold archivedTab
  by_cases hopen : tab.archivedAt = none
  · simp [hopen, SessionTab.focus, touchTab]
  · obtain ⟨time, htime⟩ := ne_none_iff_exists'.mp hopen
    simp [htime, SessionTab.focus]

theorem leaveClosedTab_focus (now id : String) (tab : SessionTab) (session : AppSession) :
    (leaveClosedTab now id (some tab) session).focus =
      if session.focus.group = some id then
        ⟨session.focus.hidden, some tab.id, tab.focus.item⟩
      else session.focus := by
  unfold leaveClosedTab
  by_cases hactive : session.activeTabId = some id
  · simp [hactive, AppSession.focus, SessionTab.focus, showTab, touchSession]
  · simp [hactive, AppSession.focus]

theorem Keyed.mapTerminals (h : Keyed state) {f : MuxTerminal → MuxTerminal}
    (hid : ∀ terminal, (f terminal).id = terminal.id) :
    Keyed { state with terminals := state.terminals.map f } where
  sessions := h.sessions
  tabs := h.tabs
  terminals := by
    have hids := h.terminals
    simpa only [List.map_map, Function.comp_def, hid] using hids

theorem focus_mapTerminals {f : MuxTerminal → MuxTerminal}
    (hid : ∀ terminal, (f terminal).id = terminal.id)
    {g : ItemNode String String → ItemNode String String}
    (hfocus : ∀ terminal, (f terminal).focus = g terminal.focus) :
    focus { state with terminals := state.terminals.map f } =
      { focus state with item := fun id => ((focus state).item id).map g } := by
  refine FocusForest.mk.injEq .. |>.mpr ⟨rfl, rfl, ?_⟩
  funext id
  have hrow := row?_map MuxTerminal.id f hid id state.terminals
  calc ((row? MuxTerminal.id id (state.terminals.map f)).map MuxTerminal.focus)
      = ((state.terminal? id).map f).map MuxTerminal.focus := by
        rw [hrow]
        rfl
    _ = ((focus state).item id).map g := by
      simp only [Option.map_map, focus]
      congr 1
      funext terminal
      exact hfocus terminal

theorem closeTerminals_id (now id : String) (stop : Bool) (terminal : MuxTerminal) :
    (if closedWith id terminal then archiveClosed now stop terminal else terminal).id =
      terminal.id := by
  split <;> simp

theorem focus_closeTerminals (now id : String) (stop : Bool) :
    focus (closeTerminals now stop id state) = (focus state).hideItems id := by
  refine focus_mapTerminals (closeTerminals_id now id stop) ?_
  intro terminal
  by_cases htab : terminal.tabId = some id
  · by_cases hopen : terminal.archivedAt = none
    · simp only [closedWith, htab, hopen, isNone_none, decide_true, Bool.and_self,
        if_true, archiveClosed_focus]
      simp [MuxTerminal.focus, htab]
    · obtain ⟨time, htime⟩ := ne_none_iff_exists'.mp hopen
      simp [closedWith, htab, htime, MuxTerminal.focus]
  · simp [closedWith, htab, MuxTerminal.focus]

theorem nextTab_mem (h : nextTab state sessionId = some tab) :
    tab ∈ state.tabs ∧ tab.sessionId = sessionId ∧ tab.archivedAt = none := by
  have hmem := argmin_mem h
  simp only [mem_filter, Bool.and_eq_true, decide_eq_true_eq, isNone_iff_eq_none] at hmem
  exact hmem

theorem nextTab_isSome (hmem : tab ∈ state.tabs)
    (howner : tab.sessionId = sessionId) (hopen : tab.archivedAt = none) :
    ∃ found, nextTab state sessionId = some found := by
  refine ne_none_iff_exists'.mp ?_
  intro hnone
  have hempty := argmin_eq_none.mp hnone
  have hin : tab ∈ state.tabs.filter fun tab =>
      tab.sessionId = sessionId && tab.archivedAt.isNone := by
    simp [hmem, howner, hopen]
  rw [hempty] at hin
  cases hin

/-- The windows of a session after one of them was closed: they are keyed, the
forest is a focused one with that window hidden, and some window is open. -/
theorem Sound.fallback (h : Sound state) {current closed' : SessionTab} {fresh now : String}
    {closed added : PersistedState} (hcur : state.tab? id = some current)
    (hfresh : state.tab? fresh = none) (hclosedTab : closed' = archivedTab now current)
    (hclosed : closed = (closeTerminals now stop id state).putTab closed')
    (hadded : added = { closed with
      tabs := closed.tabs ++ fallbackTabs now fresh current.sessionId closed }) :
    Keyed added ∧ (∃ tab, nextTab added current.sessionId = some tab) ∧
      ∃ forest : FocusForest String String String, forest.Focused ∧
        forest.root = (focus state).root ∧ forest.group id = some current.focus ∧
        focus added = (forest.hideItems id).setGroup id { current.focus with hidden := true } := by
  have hid := tab?_id hcur
  have hclosedId : closed'.id = id := by rw [hclosedTab, archivedTab_id, hid]
  have hkeyed : Keyed closed := by
    rw [hclosed]
    exact (h.keyed.mapTerminals (closeTerminals_id now id stop)).putTab closed'
  have hfocus : focus closed =
      ((focus state).hideItems id).setGroup id { current.focus with hidden := true } := by
    rw [hclosed, focus_putTab (o := current) (by rw [hclosedId]; exact hcur),
      focus_closeTerminals, hclosedId, hclosedTab, archivedTab_focus]
  unfold fallbackTabs at hadded
  split at hadded
  · rename_i hany
    obtain ⟨tab, hmem, hprop⟩ := List.any_eq_true.mp hany
    simp only [Bool.and_eq_true, decide_eq_true_eq, isNone_iff_eq_none] at hprop
    have hsame : added = closed := by rw [hadded, append_nil]
    rw [hsame]
    exact ⟨hkeyed, nextTab_isSome hmem hprop.1 hprop.2, focus state, h.focused, rfl,
      group_focus hcur, hfocus⟩
  · have hpush : added = closed.pushTab (newTab now fresh current.sessionId "Window 1" 0) := hadded
    have hne : id ≠ fresh := by
      rintro rfl
      rw [hcur] at hfresh
      cases hfresh
    have hnone : closed.tab? fresh = none := by
      rw [hclosed, tab?_putTab, hclosedId, if_neg (Ne.symm hne)]
      exact hfresh
    have hgroup : (focus state).group fresh = none := by
      simp only [focus, hfresh, map_none]
    rw [hpush]
    refine ⟨hkeyed.pushTab hnone, nextTab_isSome mem_concat_self
      rfl rfl, (focus state).setGroup fresh ⟨current.sessionId, false, none⟩,
      h.focused.addGroup hgroup, rfl, ?_, ?_⟩
    · rw [FocusForest.group_setGroup, if_neg hne]
      exact group_focus hcur
    · rw [focus_pushTab (by exact hnone), hfocus]
      refine FocusForest.mk.injEq .. |>.mpr ⟨rfl, ?_, rfl⟩
      exact Function.update_comm hne _ _ _

theorem Sound.closeTab (h : Sound state) (hfresh : env.Fresh state)
    {result : CloseTabResult} (hok : closeTab env id stop state = .ok (result, next)) :
    Sound next := by
  obtain ⟨current, closed, added, old, hcur, -, htab, hclosed, hcrd, hadded, hold,
    hsess, rfl⟩ := closeTab_ok hok
  rw [hcrd] at hadded
  obtain ⟨hkeyed, ⟨shown, hshown⟩, forest, hforest, hroot, hgroup, hfocus⟩ :=
    h.fallback hcur (hfresh.tab 0) htab hclosed hadded
  obtain ⟨hshownMem, hshownOwner, hshownOpen⟩ := nextTab_mem hshown
  have holdRow := session?_id hold
  have hshownGroup : (focus added).group shown.id = some shown.focus :=
    group_focus (hkeyed.tab?_of_mem hshownMem)
  rw [hfocus, FocusForest.group_setGroup, FocusForest.group_hideItems] at hshownGroup
  have hne : shown.id ≠ id := by
    intro heq
    simp only [heq, if_true, Option.some.injEq] at hshownGroup
    have hhidden := congrArg GroupNode.hidden hshownGroup
    simp [SessionTab.focus, hshownOpen] at hhidden
  rw [if_neg hne] at hshownGroup
  have holdState : state.session? current.sessionId = some old := by
    rw [hadded, hclosed] at hold
    exact hold
  refine ⟨hkeyed.putSession _, ?_⟩
  rw [hsess, hshown, focus_putSession (o := old) (by simp [holdRow, hold]), hfocus,
    leaveClosedTab_focus, leaveClosedTab_id, holdRow]
  exact hforest.closeGroup (by rw [hroot]; exact root_focus holdState) hgroup rfl hshownGroup hne
    hshownOwner (by simp [SessionTab.focus, hshownOpen]) rfl

theorem Sound.interruptLive (h : Sound state) {epoch : String} {available : List String}
    {result : StartupReconciliation}
    (hok : interruptLive env epoch available state = .ok (result, next)) : Sound next := by
  cases hok
  have hid : ∀ terminal : MuxTerminal, (if terminal.status.isLive then
      interruptTerminal (env.now 0) available terminal else terminal).id = terminal.id := by
    intro terminal
    split <;> simp
  have hfocus : ∀ terminal : MuxTerminal, (if terminal.status.isLive then
      interruptTerminal (env.now 0) available terminal else terminal).focus =
        id terminal.focus := by
    intro terminal
    split <;> rfl
  have hkeyed := h.keyed.mapTerminals hid
  have hforest := @focus_mapTerminals state _ hid _ hfocus
  simp only [Option.map_id_fun, id_eq] at hforest
  exact ⟨⟨hkeyed.sessions, hkeyed.tabs, hkeyed.terminals⟩, hforest ▸ h.focused⟩

end Steps

/-! ## Every reachable catalog -/

theorem Sound.perform {α : Type} {env : StoreEnv} (h : Sound state)
    (hfresh : env.Fresh state) (call : StoreCall α) : Sound (call.perform env state).2 := by
  have hmutate : ∀ {β : Type} {operation : Operation β},
      (∀ result next, operation state = .ok (result, next) → Sound next) →
        Sound (mutate env operation state).2 := by
    intro β operation hoperation
    unfold mutate
    cases hres : operation state with
    | error error => exact h
    | ok outcome =>
      cases env.database with
      | some error => exact h
      | none => exact hoperation outcome.1 outcome.2 hres
  cases call with
  | listSnapshots | getSnapshot | getSession | getTab | getTerminal | terminalForPty
  | terminalsForSession | terminalsForTab => exact h
  | createSession => exact hmutate fun _ _ hok => h.createSession hfresh hok
  | renameSession => exact hmutate fun _ _ hok => h.renameSession hok
  | reorderSessions => exact hmutate fun _ _ hok => h.reorderSessions hok
  | archiveSession => exact hmutate fun _ _ hok => h.archiveSession hfresh hok
  | restoreSession => exact hmutate fun _ _ hok => h.restoreSession hok
  | createTab => exact hmutate fun _ _ hok => h.createTab hfresh hok
  | renameTab => exact hmutate fun _ _ hok => h.renameTab hok
  | saveTabLayout => exact hmutate fun _ _ hok => h.saveTabLayout hok
  | reorderTabs => exact hmutate fun _ _ hok => h.reorderTabs hok
  | selectTab => exact hmutate fun _ _ hok => h.selectTab hok
  | closeTab => exact hmutate fun _ _ hok => h.closeTab hfresh hok
  | createTerminal => exact hmutate fun _ _ hok => h.createTerminal hfresh hok
  | updateTerminal => exact hmutate fun _ _ hok => h.updateTerminal hok
  | renameTerminal => exact hmutate fun _ _ hok => h.updateTerminal hok
  | selectTerminal => exact hmutate fun _ _ hok => h.selectTerminal hok
  | reorderTerminals => exact hmutate fun _ _ hok => h.reorderTerminals hok
  | moveTerminal => exact hmutate fun _ _ hok => h.moveTerminal hok
  | closeTerminal => exact hmutate fun _ _ hok => h.closeTerminal hok
  | reconcileStartup =>
    simp only [StoreCall.perform, reconcileStartup]
    split
    · exact h
    · exact hmutate fun _ _ hok => h.interruptLive hok

theorem Sound.ensured (h : Sound state) (env : StoreEnv) :
    Store.ensureVisibleSession env state = state := by
  obtain ⟨session, hmem, hopen⟩ := (catalogFocus_of_focused h.keyed h.focused).visible
  have hany : (state.sessions.any fun session => session.archivedAt.isNone) = true :=
    List.any_eq_true.mpr ⟨session, hmem, by simp [hopen]⟩
  rw [Store.ensureVisibleSession, if_pos hany]

theorem Sound.openEmpty (env : StoreEnv) (machine : String) :
    Sound (openStore env machine none) := by
  have hnew : Sound (.new env machine) := by
    refine Sound.ensureVisibleSession ⟨?_, ?_, ?_⟩ ⟨?_, ?_, ?_, ?_, ?_⟩ ⟨?_, ?_, ?_⟩ <;>
      simp [focus, PersistedState.session?, PersistedState.tab?, PersistedState.terminal?]
  have hopen : openStore env machine none = .new env machine := hnew.ensured env
  exact hopen ▸ hnew

/-- The store as a transition system: it is opened on an empty database and
every action is one call on it. -/
def storeSystem (machine : String) : System PersistedState (StoreEnv × Σ α, StoreCall α) where
  initial state := ∃ env, state = openStore env machine none
  step state action := some (action.2.2.perform action.1 state).2

theorem storeSystem_sound {machine : String}
    (h : (storeSystem machine).Run (fun state action => action.1.Fresh state) state) :
    Sound state := by
  refine h.invariant ?_ ?_
  · rintro _ ⟨env, rfl⟩
    exact Sound.openEmpty env machine
  · rintro s ⟨env, α, call⟩ s' hs hfresh hstep
    cases hstep
    exact hs.perform hfresh call

theorem catalog_focus {machine : String}
    (h : (storeSystem machine).Run (fun state action => action.1.Fresh state) state) :
    CatalogFocus state :=
  have hsound := storeSystem_sound h
  catalogFocus_of_focused hsound.keyed hsound.focused

/-- A terminal in the first window of a new catalog, and its focus. -/
theorem catalog_focus_first_terminal :
    CatalogFocus ((StoreCall.createTerminal "ses-a" none "Terminal" {}).perform
      (.constant "t" "b") (openStore (.constant "t" "a") "host" none)).2 := by
  have hopened : (storeSystem "host").Run (fun state action => action.1.Fresh state)
      (openStore (.constant "t" "a") "host" none) := System.Run.start ⟨.constant "t" "a", rfl⟩
  refine catalog_focus (hopened.next (a := (.constant "t" "b",
    ⟨_, .createTerminal "ses-a" none "Terminal" {}⟩)) ?_ rfl)
  exact StoreEnv.constant_fresh (by decide) (by decide) (by decide)

end Yaade.Store

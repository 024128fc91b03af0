import Yaade.Store.Focus

/-!
The footprint of a mutation: which records it may have written.
-/

namespace Yaade.Store

open Yaade.Library List Option PersistedState

/-- Between `before` and `after`, only the listed records were written. -/
structure Frame (before after : PersistedState) (sessions : List AppSession)
    (tabs : List SessionTab) (terminals : List MuxTerminal) : Prop where
  session : ∀ id session, after.session? id = some session →
    before.session? id = some session ∨ session ∈ sessions
  tab : ∀ id tab, after.tab? id = some tab → before.tab? id = some tab ∨ tab ∈ tabs
  terminal : ∀ id terminal, after.terminal? id = some terminal →
    before.terminal? id = some terminal ∨ terminal ∈ terminals
  sessionIds : before.sessions.map AppSession.id <+: after.sessions.map AppSession.id
  tabIds : before.tabs.map SessionTab.id <+: after.tabs.map SessionTab.id
  terminalIds : before.terminals.map MuxTerminal.id <+: after.terminals.map MuxTerminal.id

namespace Frame

variable {before after : PersistedState} {sessions : List AppSession} {tabs : List SessionTab}
  {terminals : List MuxTerminal}

theorem refl (state : PersistedState) : Frame state state [] [] [] where
  session _ _ h := .inl h
  tab _ _ h := .inl h
  terminal _ _ h := .inl h
  sessionIds := prefix_rfl
  tabIds := prefix_rfl
  terminalIds := prefix_rfl

section

variable (h : Frame before after sessions tabs terminals)
include h

theorem putSession (session : AppSession) :
    Frame before (after.putSession session) (session :: sessions) tabs terminals := by
  refine { h with session := ?_, sessionIds := ?_ }
  · intro id found hfound
    rw [session?_putSession] at hfound
    split at hfound
    · obtain ⟨_, -, rfl⟩ := map_eq_some_iff.mp hfound
      exact .inr mem_cons_self
    · exact (h.session id found hfound).imp_right (mem_cons_of_mem _)
  · rw [PersistedState.putSession, map_key_updateRow AppSession.id (fun _ _ => rfl)]
    exact h.sessionIds

theorem putTab (tab : SessionTab) :
    Frame before (after.putTab tab) sessions (tab :: tabs) terminals := by
  refine { h with tab := ?_, tabIds := ?_ }
  · intro id found hfound
    rw [tab?_putTab] at hfound
    split at hfound
    · obtain ⟨_, -, rfl⟩ := map_eq_some_iff.mp hfound
      exact .inr mem_cons_self
    · exact (h.tab id found hfound).imp_right (mem_cons_of_mem _)
  · rw [PersistedState.putTab, map_key_updateRow SessionTab.id (fun _ _ => rfl)]
    exact h.tabIds

theorem putTerminal (terminal : MuxTerminal) :
    Frame before (after.putTerminal terminal) sessions tabs (terminal :: terminals) := by
  refine { h with terminal := ?_, terminalIds := ?_ }
  · intro id found hfound
    rw [terminal?_putTerminal] at hfound
    split at hfound
    · obtain ⟨_, -, rfl⟩ := map_eq_some_iff.mp hfound
      exact .inr mem_cons_self
    · exact (h.terminal id found hfound).imp_right (mem_cons_of_mem _)
  · rw [PersistedState.putTerminal, map_key_updateRow MuxTerminal.id (fun _ _ => rfl)]
    exact h.terminalIds

theorem pushSession (session : AppSession) :
    Frame before (after.pushSession session) (session :: sessions) tabs terminals := by
  refine { h with session := ?_, sessionIds := ?_ }
  · intro id found hfound
    rw [session?_pushSession, or_eq_some_iff] at hfound
    rcases hfound with hold | ⟨-, hnew⟩
    · exact (h.session id found hold).imp_right (mem_cons_of_mem _)
    obtain ⟨-, hnew⟩ := ite_none_right_eq_some.mp hnew
    cases hnew
    exact .inr mem_cons_self
  · rw [PersistedState.pushSession, map_append]
    exact h.sessionIds.trans (prefix_append _ _)

theorem pushTab (tab : SessionTab) :
    Frame before (after.pushTab tab) sessions (tab :: tabs) terminals := by
  refine { h with tab := ?_, tabIds := ?_ }
  · intro id found hfound
    rw [tab?_pushTab, or_eq_some_iff] at hfound
    rcases hfound with hold | ⟨-, hnew⟩
    · exact (h.tab id found hold).imp_right (mem_cons_of_mem _)
    obtain ⟨-, hnew⟩ := ite_none_right_eq_some.mp hnew
    cases hnew
    exact .inr mem_cons_self
  · rw [PersistedState.pushTab, map_append]
    exact h.tabIds.trans (prefix_append _ _)

theorem pushTerminal (terminal : MuxTerminal) :
    Frame before (after.pushTerminal terminal) sessions tabs (terminal :: terminals) := by
  refine { h with terminal := ?_, terminalIds := ?_ }
  · intro id found hfound
    rw [terminal?_pushTerminal, or_eq_some_iff] at hfound
    rcases hfound with hold | ⟨-, hnew⟩
    · exact (h.terminal id found hold).imp_right (mem_cons_of_mem _)
    obtain ⟨-, hnew⟩ := ite_none_right_eq_some.mp hnew
    cases hnew
    exact .inr mem_cons_self
  · rw [PersistedState.pushTerminal, map_append]
    exact h.terminalIds.trans (prefix_append _ _)

theorem mono {sessions' : List AppSession}
    {tabs' : List SessionTab} {terminals' : List MuxTerminal} (hsessions : sessions ⊆ sessions')
    (htabs : tabs ⊆ tabs') (hterms : terminals ⊆ terminals') :
    Frame before after sessions' tabs' terminals' :=
  ⟨fun id s hs => (h.session id s hs).imp_right fun hmem => hsessions hmem,
    fun id t ht => (h.tab id t ht).imp_right fun hmem => htabs hmem,
    fun id m hm => (h.terminal id m hm).imp_right fun hmem => hterms hmem,
    h.sessionIds, h.tabIds, h.terminalIds⟩

theorem trans {last : PersistedState}
    {sessions' : List AppSession} {tabs' : List SessionTab} {terminals' : List MuxTerminal}
    (h' : Frame after last sessions' tabs' terminals') :
    Frame before last (sessions ++ sessions') (tabs ++ tabs') (terminals ++ terminals') := by
  refine ⟨?_, ?_, ?_, h.sessionIds.trans h'.sessionIds, h.tabIds.trans h'.tabIds,
    h.terminalIds.trans h'.terminalIds⟩
  · intro id session hsess
    rcases h'.session id session hsess with hmiddle | hmem
    · exact (h.session id session hmiddle).imp_right (mem_append_left _)
    · exact .inr (mem_append_right _ hmem)
  · intro id tab htab
    rcases h'.tab id tab htab with hmiddle | hmem
    · exact (h.tab id tab hmiddle).imp_right (mem_append_left _)
    · exact .inr (mem_append_right _ hmem)
  · intro id terminal hterm
    rcases h'.terminal id terminal hterm with hmiddle | hmem
    · exact (h.terminal id terminal hmiddle).imp_right (mem_append_left _)
    · exact .inr (mem_append_right _ hmem)

end

end Frame

/-! ## The footprint of each mutation -/

section Mutations

variable {env : StoreEnv} {state next : PersistedState}

variable {title id sessionId : String} {session : AppSession} {tabId : Option String}
  {tab : SessionTab} {terminal : MuxTerminal} (now : String) {ids : List String}

theorem createSession_frame (h : createSession env title state = .ok (session, next)) :
    Frame state next [session]
      [newTab (env.now 0) (tabKey (env.uuid 1)) session.id "Window 1" 0] [] := by
  cases h
  exact ((Frame.refl state).pushSession _).pushTab _

theorem createSession_found (hfresh : env.Fresh state)
    (h : createSession env title state = .ok (session, next)) :
    next.session? session.id = some session := by
  cases h
  simp [newSession, hfresh.session 0]

theorem renameSession_frame (h : renameSession env id title state = .ok (session, next)) :
    Frame state next [session] [] [] := by
  obtain ⟨old, -, -, rfl⟩ := renameSession_ok h
  exact (Frame.refl state).putSession session

theorem restoreSession_frame (h : restoreSession env id state = .ok (session, next)) :
    Frame state next [session] [] [] := by
  obtain ⟨old, -, -, rfl⟩ := restoreSession_ok h
  exact (Frame.refl state).putSession session

theorem selectTab_frame (h : selectTab env id tabId state = .ok (session, next)) :
    Frame state next [session] [] [] := by
  obtain ⟨-, -, -, -, -, rfl⟩ := selectTab_ok h
  exact (Frame.refl state).putSession session

theorem createTab_frame (h : createTab env sessionId title state = .ok (tab, next)) :
    ∃ session, next.session? sessionId = some session ∧ Frame state next [session] [tab] [] := by
  obtain ⟨-, -, old, hold, rfl⟩ := createTab_ok h
  have hid := session?_id hold
  refine ⟨adoptTab (env.now 1) tab.id old, by simp [hid, hold], ?_⟩
  exact ((Frame.refl state).pushTab tab).putSession _

theorem renameTab_frame
    (h : renameTab env id title state = .ok (tab, next)) : Frame state next [] [tab] [] := by
  obtain ⟨old, -, -, rfl⟩ := renameTab_ok h
  exact (Frame.refl state).putTab tab

theorem saveTabLayout_frame {layout : String} {revision : Option Nat}
    (h : saveTabLayout env id layout revision state = .ok (tab, next)) :
    Frame state next [] [tab] [] := by
  obtain ⟨old, -, -, rfl⟩ := saveTabLayout_ok h
  exact (Frame.refl state).putTab tab

theorem updateTerminal_frame {revision : Option Nat} {edit : TerminalEdit}
    (h : updateTerminal env id revision edit state = .ok (terminal, next)) :
    Frame state next [] [] [terminal] := by
  obtain ⟨old, -, -, -, rfl⟩ := updateTerminal_ok h
  exact (Frame.refl state).putTerminal terminal

theorem selectTerminalInState_frame (hkeyed : Keyed state) {now : Nat → String}
    {terminalId : Option String}
    (h : selectTerminalInState now state sessionId terminalId = .ok (session, next)) :
    next.session? sessionId = some session ∧
      ((terminalId = none ∧ Frame state next [session] [] []) ∨
        ∃ id tab, terminalId = some id ∧
          ((state.terminal? id).bind (·.tabId)).bind state.tab? = some tab ∧
          session.activeTabId = some tab.id ∧
          next.tab? tab.id = some (showTerminalInTab (now 0) (some id) tab) ∧
          Frame state next [session] [showTerminalInTab (now 0) (some id) tab] []) := by
  obtain ⟨old, hold, hcase⟩ := selectTerminalInState_ok h
  have hid := session?_id hold
  rcases hcase with ⟨rfl, rfl, rfl⟩ |
    ⟨id, tabId, tab, terminal, rfl, hmem, rfl, -, -, hplace, htab, rfl, rfl⟩
  · exact ⟨by simp [hid, hold], .inl ⟨rfl, (Frame.refl state).putSession _⟩⟩
  have htabId := tab?_id htab
  refine ⟨by simp [hid, hold], .inr ⟨terminal.id, tab, rfl, ?_, ?_, by simp [htabId, htab],
    ((Frame.refl state).putTab _).putSession _⟩⟩
  · rw [hkeyed.terminal?_of_mem hmem, bind_some, hplace, bind_some, htab]
  · simp [showTerminal, touchSession, htabId]

theorem mem_orderedSessions : session ∈ orderedSessions state false ↔
      session ∈ state.sessions ∧ session.archivedAt = none := by
  simp [orderedSessions, shown]

theorem mem_orderedTabs : tab ∈ orderedTabs state sessionId false ↔
      tab ∈ state.tabs ∧ tab.sessionId = sessionId ∧ tab.archivedAt = none := by
  simp [orderedTabs, shown]

theorem mem_orderedTerminals {tabId : String} : terminal ∈ orderedTerminals state tabId false ↔
      terminal ∈ state.terminals ∧ terminal.tabId = some tabId ∧
        terminal.archivedAt = none := by
  simp [orderedTerminals, shown]

theorem reorderSessions_frame (hkeyed : Keyed state) {sessions : List AppSession}
    (h : reorderSessions env ids state = .ok (sessions, next)) :
    Frame state next sessions [] [] := by
  obtain ⟨hperm, hplaced, rfl⟩ := reorderSessions_ok h
  have hvis : ∀ session, state.session? session.id = some session → session.id ∈ ids →
      session.archivedAt = none := by
    intro session hsess hid
    have hmem := (isPermutation_perm hperm).mem_iff.mp hid
    simp only [visibleSessionIds, List.mem_map, mem_filter, isNone_iff_eq_none] at hmem
    obtain ⟨other, ⟨hother, hopen⟩, hsame⟩ := hmem
    rw [← hsame, hkeyed.session?_of_mem hother] at hsess
    cases hsess
    exact hopen
  have hres := placeSessions_keeps (P := fun s => ∃ written,
    Frame state s written [] [] ∧ ∀ w ∈ written, w.archivedAt = none) ?_ hplaced
    ⟨[], Frame.refl state, by simp⟩
  · obtain ⟨written, hframe, hwrt⟩ := hres
    refine { hframe with session := fun id session hsess => ?_ }
    exact (hframe.session id session hsess).imp_right fun hmem =>
      mem_orderedSessions.mpr ⟨(row?_mem AppSession.id hsess).1, hwrt session hmem⟩
  · rintro s position session hplace ⟨written, hframe, hwrt⟩ hsess
    refine ⟨_, hframe.putSession _, forall_mem_cons.mpr ⟨?_, hwrt⟩⟩
    exact (hframe.session _ _ hsess).elim (hvis session · (mem_of_mem_zipIdx hplace)) (hwrt session)

theorem reorderTabs_frame (hkeyed : Keyed state) {tabs : List SessionTab}
    (h : reorderTabs env sessionId ids state = .ok (tabs, next)) : Frame state next [] tabs [] := by
  obtain ⟨hperm, hplaced, rfl⟩ := reorderTabs_ok h
  have hopen : ∀ tab, state.tab? tab.id = some tab → tab.id ∈ ids →
      tab.sessionId = sessionId ∧ tab.archivedAt = none := by
    intro tab htab hid
    obtain ⟨other, hother, hsame⟩ := List.mem_map.mp ((isPermutation_perm hperm).mem_iff.mp hid)
    obtain ⟨hmem, hplace⟩ := mem_orderedTabs.mp hother
    rw [← hsame, hkeyed.tab?_of_mem hmem] at htab
    cases htab
    exact hplace
  have hres := placeTabs_keeps (P := fun s => ∃ written,
    Frame state s [] written [] ∧ ∀ w ∈ written, w.sessionId = sessionId ∧ w.archivedAt = none)
    ?_ hplaced ⟨[], Frame.refl state, by simp⟩
  · obtain ⟨written, hframe, hwrt⟩ := hres
    refine { hframe with tab := fun id tab htab => ?_ }
    exact (hframe.tab id tab htab).imp_right fun hmem =>
      mem_orderedTabs.mpr ⟨(row?_mem SessionTab.id htab).1, hwrt tab hmem⟩
  · rintro s position tab hplace ⟨written, hframe, hwrt⟩ htab
    refine ⟨_, hframe.putTab _, forall_mem_cons.mpr ⟨?_, hwrt⟩⟩
    exact (hframe.tab _ _ htab).elim (hopen tab · (mem_of_mem_zipIdx hplace)) (hwrt tab)

theorem reorderTerminals_frame (hkeyed : Keyed state) {terminals : List MuxTerminal}
    (h : reorderTerminals env sessionId tabId ids state = .ok (terminals, next)) :
    Frame state next [] [] terminals := by
  obtain ⟨selected, -, hperm, hplaced, rfl⟩ := reorderTerminals_ok h
  have hopen : ∀ terminal, state.terminal? terminal.id = some terminal → terminal.id ∈ ids →
      terminal.tabId = some selected ∧ terminal.archivedAt = none := by
    intro terminal hterm hid
    obtain ⟨other, hother, hsame⟩ := List.mem_map.mp ((isPermutation_perm hperm).mem_iff.mp hid)
    obtain ⟨hmem, hplace⟩ := mem_orderedTerminals.mp hother
    rw [← hsame, hkeyed.terminal?_of_mem hmem] at hterm
    cases hterm
    exact hplace
  have hres := placeTerminals_keeps (P := fun s => ∃ written,
    Frame state s [] [] written ∧ ∀ w ∈ written, w.tabId = some selected ∧ w.archivedAt = none)
    ?_ hplaced ⟨[], Frame.refl state, by simp⟩
  · obtain ⟨written, hframe, hwrt⟩ := hres
    refine { hframe with terminal := fun id terminal hterm => ?_ }
    exact (hframe.terminal id terminal hterm).imp_right fun hmem =>
      mem_orderedTerminals.mpr ⟨(row?_mem MuxTerminal.id hterm).1, hwrt terminal hmem⟩
  · rintro s position terminal hplace ⟨written, hframe, hwrt⟩ hterm
    refine ⟨_, hframe.putTerminal _, forall_mem_cons.mpr ⟨?_, hwrt⟩⟩
    exact (hframe.terminal _ _ hterm).elim (hopen terminal · (mem_of_mem_zipIdx hplace))
      (hwrt terminal)

theorem archiveSession_frame (h : archiveSession env id state = .ok (session, next)) :
    Frame state next [session] [] [] ∨
      ∃ added tab, Frame state next [added, session] [tab] [] ∧
        added ∈ next.sessions ∧ added.archivedAt = none ∧ added.id = sessionKey (env.uuid 0) ∧
        tab ∈ next.tabs ∧ tab.sessionId = added.id ∧ tab.archivedAt = none := by
  obtain ⟨old, hold, -, rfl⟩ := archiveSession_ok h
  unfold ensureVisibleSession
  split
  · exact .inl ((Frame.refl state).putSession session)
  refine .inr ⟨_, _, (((Frame.refl state).putSession session).pushSession _).pushTab _,
    ?_, rfl, rfl, ?_, rfl, rfl⟩
  · exact mem_concat_self
  · exact mem_concat_self

theorem createTerminal_frame (hkeyed : Keyed state) (hfresh : env.Fresh state)
    {input : TerminalInput}
    (h : createTerminal env sessionId tabId title input state = .ok (terminal, next)) :
    ∃ selected session tab old,
      tabId.or ((state.session? sessionId).bind (·.activeTabId)) = some selected ∧
      terminal.tabId = some selected ∧
      state.tab? selected = some old ∧ tab.revision = old.revision + 1 ∧
      next.session? sessionId = some session ∧ next.tab? selected = some tab ∧
      Frame state next [session] [tab] [terminal] := by
  obtain ⟨selected, tab, session, hnamed, hfocus, -, -, htab, -, -, hsess, rfl⟩ :=
    createTerminal_writes hkeyed hfresh h
  have hid := session?_id hsess
  have htabId := tab?_id htab
  refine ⟨selected, _, _, tab, hnamed, congrArg ItemNode.group hfocus, htab, ?_, ?_, ?_,
    (((Frame.refl state).pushTerminal _).putTab _).putSession _⟩
  · rfl
  · simp [hid, hsess]
  · simp [htabId, htab]

theorem moveTerminal_frame (hsound : Sound state) {target : String}
    (h : moveTerminal env id target state = .ok (terminal, next)) :
    ∃ current, state.terminal? id = some current ∧ terminal.sessionId = current.sessionId ∧
      (Frame state next [] [] [terminal] ∨
        ∃ session session' tabs, state.session? current.sessionId = some session ∧
          next.session? current.sessionId = some session' ∧
          Frame state next [session'] tabs [terminal] ∧
          ∀ tab ∈ tabs, tab.sessionId = current.sessionId ∧ tab.archivedAt = none ∧
            ∃ old, state.tab? tab.id = some old ∧ old.sessionId = tab.sessionId ∧
              old.archivedAt = none) := by
  obtain ⟨current, hcur, hopen, hcase⟩ := hsound.moveTerminal_writes h
  rcases hcase with ⟨rfl, rfl⟩ |
    ⟨sourceId, source, targetTab, session, position, replacement, -, -, hsource, howner,
      hsourceOpen, -, htgt, htargetOwner, htargetOpen, hsess, rfl, rfl⟩
  · refine ⟨terminal, hcur, rfl, .inl ((Frame.refl next).mono ?_ ?_ ?_)⟩ <;> simp
  have hid := session?_id hsess
  have hsourceId := tab?_id hsource
  have htargetId := tab?_id htgt
  refine ⟨current, hcur, rfl, .inr ⟨session, _, _, hsess, ?_,
    ((((Frame.refl state).putTerminal _).putTab _).putTab _).putSession _, ?_⟩⟩
  · simp [hid, hsess]
  · intro written hwrt
    simp only [mem_cons, not_mem_nil, or_false] at hwrt
    rcases hwrt with rfl | rfl
    · exact ⟨htargetOwner, htargetOpen, targetTab, by simp [htargetId, htgt], rfl,
        htargetOpen⟩
    · exact ⟨howner, hsourceOpen, source, by simp [hsourceId, hsource], rfl, hsourceOpen⟩

theorem closeTerminal_frame (hsound : Sound state) {stop : Bool} {result : CloseTerminalResult}
    (h : closeTerminal env id stop state = .ok (result, next)) :
    ∃ current, state.terminal? id = some current ∧
      result.session.id = current.sessionId ∧
      (∃ old, state.session? current.sessionId = some old) ∧
      (∀ tab, result.tab = some tab →
        current.tabId = some tab.id ∧ ∃ old, state.tab? tab.id = some old) ∧
      Frame state next [result.session] result.tab.toList [result.terminal] := by
  rcases hsound.closeTerminal_writes h with ⟨current, hcur, hsess, rfl, -, htab⟩ |
    ⟨current, tabId, tab, session, replacement, hcur, -, htabId, -, htab, -, hsess,
      hterm, hresultTab, hres, rfl⟩
  · refine ⟨current, hcur, session?_id hsess, ⟨_, hsess⟩, ?_,
      (Frame.refl next).mono (by simp) (by simp) (by simp)⟩
    intro tab hshown
    rw [htab] at hshown
    obtain ⟨tabId, htabId, hfound⟩ := bind_eq_some_iff.mp hshown
    rw [tab?_id hfound]
    exact ⟨htabId, tab, hfound⟩
  · have htabRow := tab?_id htab
    refine ⟨current, hcur, ?_, ⟨session, hsess⟩, ?_, ?_⟩
    · rw [hres, dropFromSession_id, session?_id hsess]
    · intro shown hshown
      rw [hresultTab] at hshown
      cases hshown
      rw [dropFromTab_id, htabRow]
      exact ⟨htabId, tab, htab⟩
    · rw [hresultTab]
      exact (((Frame.refl state).putTerminal _).putTab _).putSession _

theorem closeTab_frame {stop : Bool} {result : CloseTabResult}
    (h : closeTab env id stop state = .ok (result, next)) :
    Frame state next [result.session] (result.createdTabs ++ [result.tab])
      result.terminals := by
  obtain ⟨current, closed, added, old, -, hterms, -, hclosed, hcrd, hadded, -, -, rfl⟩ :=
    closeTab_ok h
  have hterminalFrame : Frame state (closeTerminals (env.now 0) stop id state) [] []
      result.terminals := by
    refine ⟨fun _ _ hs => .inl hs, fun _ _ ht => .inl ht, ?_, prefix_rfl, prefix_rfl, ?_⟩
    · intro other terminal hterm
      have hrow := row?_map MuxTerminal.id _ (closeTerminals_id (env.now 0) id stop) other
        state.terminals
      rw [PersistedState.terminal?, closeTerminals, hrow] at hterm
      obtain ⟨old, hold, heq⟩ := map_eq_some_iff.mp hterm
      by_cases hclosed : closedWith id old = true
      · rw [if_pos hclosed] at heq
        refine .inr ?_
        rw [hterms, ← heq]
        exact mem_map_of_mem (mem_filter.mpr ⟨(row?_mem MuxTerminal.id hold).1, hclosed⟩)
      · rw [if_neg hclosed] at heq
        exact .inl (heq ▸ hold)
    · have hids : (closeTerminals (env.now 0) stop id state).terminals.map MuxTerminal.id =
          state.terminals.map MuxTerminal.id := by
        simp only [closeTerminals, List.map_map]
        apply List.map_congr_left
        intro terminal _
        exact closeTerminals_id (env.now 0) id stop terminal
      rw [hids]
  have hclosedFrame : Frame state closed [] [result.tab] result.terminals := by
    rw [hclosed]
    exact hterminalFrame.putTab result.tab
  have haddedFrame : Frame state added [] (result.createdTabs ++ [result.tab])
      result.terminals := by
    unfold fallbackTabs at hcrd
    split at hcrd
    · rw [hcrd, append_nil] at hadded
      rw [hadded, hcrd]
      exact hclosedFrame
    · rw [hcrd] at hadded
      have hpush : added = closed.pushTab
          (newTab (env.now 0) (tabKey (env.uuid 0)) current.sessionId "Window 1" 0) := hadded
      rw [hpush, hcrd]
      exact hclosedFrame.pushTab _
  exact haddedFrame.putSession result.session

end Mutations

end Yaade.Store

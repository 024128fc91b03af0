import Yaade.Library.Versions
import Yaade.Store.Focus

/-!
What a mutation does to revisions: every write keeps a record or raises its
revision, no mutation drops a record, and new records have new ids.
-/

namespace Yaade.Store

open Yaade.Library List Option

/-! ## Archiving -/

/-- `archive_tab` reads the clock once for the time of archiving and again when
it touches the record. -/
def shutTab (env : StoreEnv) (tab : SessionTab) : SessionTab :=
  touchTab (env.now 1) { tab with archivedAt := some (env.now 0) }

def archiveOpenTab (env : StoreEnv) (current : SessionTab) : Operation SessionTab :=
  fun state => do
    let archived := shutTab env current
    let state := state.putTab archived
    let created := fallbackTabs (env.now 0) (tabKey (env.uuid 0)) current.sessionId state
    let state := { state with tabs := state.tabs ++ created }
    let next := (orderedTabs state current.sessionId false).head?
    let session ← findSession state current.sessionId
    let session := leaveClosedTab (env.now 2) current.id next session
    return (archived, state.putSession session)

def archiveTab (env : StoreEnv) (tabId : String) : Operation SessionTab := fun state => do
  let current ← findTab state tabId
  if current.archivedAt.isSome then return (current, state)
  else archiveOpenTab env current state

def shutTerminal (env : StoreEnv) (terminal : MuxTerminal) : MuxTerminal :=
  { terminal with
    archivedAt := some (env.now 0), revision := terminal.revision + 1, updatedAt := env.now 1 }

def dropFromFoundTab (now : String) (state : PersistedState) (terminalId : String)
    (next tabId : Option String) : PersistedState :=
  match tabId.bind state.tab? with
  | some tab => state.putTab (dropFromTab now terminalId next tab)
  | none => state

def archiveOpenTerminal (env : StoreEnv) (current : MuxTerminal) : Operation MuxTerminal :=
  fun state => do
    let archived := shutTerminal env current
    let state := state.putTerminal archived
    let next := current.tabId.bind fun tabId =>
      (orderedTerminals state tabId false).head?.map (·.id)
    let state := dropFromFoundTab (env.now 2) state current.id next current.tabId
    let session ← findSession state current.sessionId
    let session := dropFromSession (env.now 3) current.id next session
    return (archived, state.putSession session)

def archiveTerminal (env : StoreEnv) (terminalId : String) : Operation MuxTerminal :=
  fun state => do
    let current ← findTerminal state terminalId
    if current.archivedAt.isSome then return (current, state)
    else archiveOpenTerminal env current state

variable {state next : PersistedState} {env : StoreEnv}

section Archiving

theorem archiveTab_ok {id : String} {tab : SessionTab}
    (h : archiveTab env id state = .ok (tab, next)) : ∃ current, state.tab? id = some current ∧
      ((current.archivedAt ≠ none ∧ tab = current ∧ next = state) ∨
        (current.archivedAt = none ∧ archiveOpenTab env current state = .ok (tab, next))) := by
  simp only [archiveTab, bind_ok, findTab_ok] at h
  obtain ⟨current, hcur, h⟩ := h
  refine ⟨current, hcur, ?_⟩
  split at h
  · rename_i hsome
    simp only [pure_ok, Prod.mk.injEq] at h
    exact .inl ⟨by simpa [isSome_iff_ne_none] using hsome, h.1.symm, h.2.symm⟩
  · rename_i hnone
    exact .inr ⟨by simpa using hnone, h⟩

theorem archiveOpenTab_ok {current tab : SessionTab}
    (h : archiveOpenTab env current state = .ok (tab, next)) : ∃ closed created added old,
      closed = state.putTab (shutTab env current) ∧
      created = fallbackTabs (env.now 0) (tabKey (env.uuid 0)) current.sessionId closed ∧
      added = { closed with tabs := closed.tabs ++ created } ∧
      added.session? current.sessionId = some old ∧
      next = added.putSession (leaveClosedTab (env.now 2) current.id
        (orderedTabs added current.sessionId false).head? old) := by
  simp only [archiveOpenTab, bind_ok, findSession_ok, pure_ok, Prod.mk.injEq] at h
  obtain ⟨old, hold, -, rfl⟩ := h
  exact ⟨_, _, _, old, rfl, rfl, rfl, hold, rfl⟩

theorem archiveTerminal_ok {id : String} {terminal : MuxTerminal}
    (h : archiveTerminal env id state = .ok (terminal, next)) :
    ∃ current, state.terminal? id = some current ∧
      ((current.archivedAt ≠ none ∧ terminal = current ∧ next = state) ∨
        (current.archivedAt = none ∧
          archiveOpenTerminal env current state = .ok (terminal, next))) := by
  simp only [archiveTerminal, bind_ok, findTerminal_ok] at h
  obtain ⟨current, hcur, h⟩ := h
  refine ⟨current, hcur, ?_⟩
  split at h
  · rename_i hsome
    simp only [pure_ok, Prod.mk.injEq] at h
    exact .inl ⟨by simpa [isSome_iff_ne_none] using hsome, h.1.symm, h.2.symm⟩
  · rename_i hnone
    exact .inr ⟨by simpa using hnone, h⟩

theorem archiveOpenTerminal_ok {current terminal : MuxTerminal}
    (h : archiveOpenTerminal env current state = .ok (terminal, next)) : ∃ follower after old,
      after = dropFromFoundTab (env.now 2) (state.putTerminal (shutTerminal env current))
        current.id follower current.tabId ∧
      after.session? current.sessionId = some old ∧
      next = after.putSession (dropFromSession (env.now 3) current.id follower old) := by
  simp only [archiveOpenTerminal, bind_ok, findSession_ok, pure_ok, Prod.mk.injEq] at h
  obtain ⟨old, hold, -, rfl⟩ := h
  exact ⟨_, _, old, rfl, hold, rfl⟩

end Archiving

/-! ## Edits raise revisions -/

section Edits

variable (now title : String) (position : Nat) (session : AppSession) (tab : SessionTab)
  (terminal : MuxTerminal)

theorem touchSession_revised {old new : AppSession} (h : new.revision = old.revision) :
    Revised AppSession.revision old (touchSession now new) :=
  .inr (h ▸ Nat.lt_succ_self new.revision)

theorem touchTab_revised {old new : SessionTab} (h : new.revision = old.revision) :
    Revised SessionTab.revision old (touchTab now new) :=
  .inr (h ▸ Nat.lt_succ_self new.revision)

theorem archivedSession_revised (env : StoreEnv) :
    Revised AppSession.revision session (archivedSession env session) := by
  unfold archivedSession
  split
  · exact touchSession_revised _ rfl
  · exact Revised.refl _ _

theorem adoptTab_revised (tabId : String) :
    Revised AppSession.revision session (adoptTab now tabId session) := by
  unfold adoptTab
  split
  · exact touchSession_revised _ rfl
  · exact Revised.refl _ _

theorem dropFromSession_revised (id : String) (next : Option String) :
    Revised AppSession.revision session (dropFromSession now id next session) := by
  unfold dropFromSession
  split
  · exact touchSession_revised _ rfl
  · exact Revised.refl _ _

theorem leaveClosedTab_revised (tabId : String) (next : Option SessionTab) :
    Revised AppSession.revision session (leaveClosedTab now tabId next session) := by
  unfold leaveClosedTab
  split
  · exact touchSession_revised _ rfl
  · exact Revised.refl _ _

theorem dropFromTab_revised (id : String) (next : Option String) :
    Revised SessionTab.revision tab (dropFromTab now id next tab) := by
  unfold dropFromTab
  split
  · exact touchTab_revised _ rfl
  · exact Revised.refl _ _

theorem archivedTab_revised : Revised SessionTab.revision tab (archivedTab now tab) := by
  unfold archivedTab
  split
  · exact touchTab_revised _ rfl
  · exact Revised.refl _ _

theorem archiveClosed_revised (stop : Bool) :
    Revised MuxTerminal.revision terminal (archiveClosed now stop terminal) :=
  .inr (Nat.lt_succ_self terminal.revision)

theorem stampTerminal_revised (edit : TerminalEdit) (uuid : String) :
    Revised MuxTerminal.revision terminal (stampTerminal now (edit.apply uuid terminal)) := by
  have hrev : (edit.apply uuid terminal).revision = terminal.revision := by rw [edit.only]
  exact .inr (hrev ▸ Nat.lt_succ_self _)

end Edits

/-! ## Every mutation revises the catalog -/

/-- The catalog after some writes: its records are those before, revised, and
perhaps new ones under new ids. -/
structure Revises (before after : PersistedState) : Prop where
  schema : after.schemaVersion = before.schemaVersion
  machine : after.machine = before.machine
  keyed : Keyed before → Keyed after
  sessions : Advances AppSession.id AppSession.revision before.sessions after.sessions
  tabs : Advances SessionTab.id SessionTab.revision before.tabs after.tabs
  terminals : Advances MuxTerminal.id MuxTerminal.revision before.terminals after.terminals

namespace Revises

variable {before after last : PersistedState}

theorem refl (state : PersistedState) : Revises state state where
  schema := rfl
  machine := rfl
  keyed := id
  sessions := Advances.refl _ _ _
  tabs := Advances.refl _ _ _
  terminals := Advances.refl _ _ _

section

variable (h : Revises before after)
include h

theorem trans (h' : Revises after last) : Revises before last where
  schema := h'.schema.trans h.schema
  machine := h'.machine.trans h.machine
  keyed hkeyed := h'.keyed (h.keyed hkeyed)
  sessions := h.sessions.trans h'.sessions
  tabs := h.tabs.trans h'.tabs
  terminals := h.terminals.trans h'.terminals

theorem putSession {id : String} {old session : AppSession}
    (hfound : after.session? id = some old) (hid : session.id = old.id)
    (hrow : Revised AppSession.revision old session) :
    Revises before (after.putSession session) where
  __ := h
  keyed hkeyed := (h.keyed hkeyed).putSession session
  sessions := h.sessions.trans (Advances.put hfound hid hrow)

theorem putTab {id : String} {old tab : SessionTab}
    (hfound : after.tab? id = some old) (hid : tab.id = old.id)
    (hrow : Revised SessionTab.revision old tab) : Revises before (after.putTab tab) where
  __ := h
  keyed hkeyed := (h.keyed hkeyed).putTab tab
  tabs := h.tabs.trans (Advances.put hfound hid hrow)

theorem putTerminal {id : String} {old terminal : MuxTerminal}
    (hfound : after.terminal? id = some old) (hid : terminal.id = old.id)
    (hrow : Revised MuxTerminal.revision old terminal) :
    Revises before (after.putTerminal terminal) where
  __ := h
  keyed hkeyed := (h.keyed hkeyed).putTerminal terminal
  terminals := h.terminals.trans (Advances.put hfound hid hrow)

theorem pushSession {session : AppSession}
    (hfresh : after.session? session.id = none) : Revises before (after.pushSession session) where
  __ := h
  keyed hkeyed := (h.keyed hkeyed).pushSession hfresh
  sessions := h.sessions.trans (Advances.append _ _ _ _)

theorem pushTab {tab : SessionTab}
    (hfresh : after.tab? tab.id = none) : Revises before (after.pushTab tab) where
  __ := h
  keyed hkeyed := (h.keyed hkeyed).pushTab hfresh
  tabs := h.tabs.trans (Advances.append _ _ _ _)

theorem pushTerminal {terminal : MuxTerminal} (hfresh : after.terminal? terminal.id = none) :
    Revises before (after.pushTerminal terminal) where
  __ := h
  keyed hkeyed := (h.keyed hkeyed).pushTerminal hfresh
  terminals := h.terminals.trans (Advances.append _ _ _ _)

theorem mapTerminals {f : MuxTerminal → MuxTerminal}
    (hid : ∀ terminal, (f terminal).id = terminal.id)
    (hrow : ∀ terminal, Revised MuxTerminal.revision terminal (f terminal)) :
    Revises before { after with terminals := after.terminals.map f } where
  __ := h
  keyed hkeyed := (h.keyed hkeyed).mapTerminals hid
  terminals := h.terminals.trans (Advances.map hid fun terminal _ => hrow terminal)

theorem fallback {timestamp tabId sessionId : String}
    (hfresh : after.tab? tabId = none) : Revises before
      { after with tabs := after.tabs ++ fallbackTabs timestamp tabId sessionId after } := by
  unfold fallbackTabs
  split
  · simpa using h
  · exact h.pushTab hfresh

theorem ensureVisible {env : StoreEnv} (hfresh : env.Fresh after) :
    Revises before (ensureVisibleSession env after) := by
  unfold ensureVisibleSession
  split
  · exact h
  · exact (h.pushSession (hfresh.session 0)).pushTab (hfresh.tab 1)

end

end Revises

section Mutations

theorem createSession_revises (hfresh : env.Fresh state) {title : String} {session : AppSession}
    (h : createSession env title state = .ok (session, next)) : Revises state next := by
  cases h
  exact ((Revises.refl state).pushSession (hfresh.session 0)).pushTab (hfresh.tab 1)

variable {id sessionId : String} {ids : List String} {tabId : Option String}

theorem renameSession_revises {title : String} {session : AppSession}
    (h : renameSession env id title state = .ok (session, next)) : Revises state next := by
  obtain ⟨old, hold, rfl, rfl⟩ := renameSession_ok h
  exact (Revises.refl state).putSession hold rfl (touchSession_revised _ rfl)

theorem reorderSessions_revises {sessions : List AppSession}
    (h : reorderSessions env ids state = .ok (sessions, next)) : Revises state next := by
  obtain ⟨-, hplaced, -⟩ := reorderSessions_ok h
  refine placeSessions_keeps (P := Revises state) ?_ hplaced (Revises.refl state)
  intro s position session _ hs hfound
  exact hs.putSession hfound rfl (.inr (Nat.lt_succ_self session.revision))

theorem archiveSession_revises (hfresh : env.Fresh state) {session : AppSession}
    (h : archiveSession env id state = .ok (session, next)) : Revises state next := by
  obtain ⟨old, hold, rfl, rfl⟩ := archiveSession_ok h
  have hput : Revises state (state.putSession (archivedSession env old)) :=
    (Revises.refl state).putSession hold (archivedSession_id old env)
      (archivedSession_revised old env)
  refine hput.ensureVisible ⟨fun k => ?_, hfresh.tab, hfresh.terminal⟩
  have hnone : state.session? (sessionKey (env.uuid k)) = none := hfresh.session k
  simp [StoreEnv.later, hnone]

theorem restoreSession_revises {session : AppSession}
    (h : restoreSession env id state = .ok (session, next)) : Revises state next := by
  obtain ⟨old, hold, rfl, rfl⟩ := restoreSession_ok h
  exact (Revises.refl state).putSession hold rfl (touchSession_revised _ rfl)

theorem createTab_revises (hfresh : env.Fresh state) {title : String} {tab : SessionTab}
    (h : createTab env sessionId title state = .ok (tab, next)) : Revises state next := by
  obtain ⟨-, htab, session, hsess, rfl⟩ := createTab_ok h
  subst htab
  have hpush : Revises state (state.pushTab (newTab (env.now 0) (tabKey (env.uuid 0)) sessionId
      (nonempty title "New tab") (openTabCount state sessionId))) :=
    (Revises.refl state).pushTab (hfresh.tab 0)
  exact hpush.putSession hsess (adoptTab_id _ session _) (adoptTab_revised _ session _)

theorem renameTab_revises {title : String} {tab : SessionTab}
    (h : renameTab env id title state = .ok (tab, next)) : Revises state next := by
  obtain ⟨old, hold, rfl, rfl⟩ := renameTab_ok h
  exact (Revises.refl state).putTab hold (retitleTab_id _ _ old) (touchTab_revised _ rfl)

theorem saveTabLayout_revises {layout : String} {revision : Option Nat} {tab : SessionTab}
    (h : saveTabLayout env id layout revision state = .ok (tab, next)) : Revises state next := by
  obtain ⟨old, hold, rfl, rfl⟩ := saveTabLayout_ok h
  exact (Revises.refl state).putTab hold rfl (touchTab_revised _ rfl)

theorem reorderTabs_revises {tabs : List SessionTab}
    (h : reorderTabs env sessionId ids state = .ok (tabs, next)) : Revises state next := by
  obtain ⟨-, hplaced, -⟩ := reorderTabs_ok h
  refine placeTabs_keeps (P := Revises state) ?_ hplaced (Revises.refl state)
  intro s position tab _ hs hfound
  exact hs.putTab hfound rfl (.inr (Nat.lt_succ_self tab.revision))

theorem selectTab_revises {session : AppSession}
    (h : selectTab env sessionId tabId state = .ok (session, next)) : Revises state next := by
  obtain ⟨selected, old, -, hold, rfl, rfl⟩ := selectTab_ok h
  exact (Revises.refl state).putSession hold rfl (touchSession_revised _ rfl)

theorem selectTerminalInState_revises {now : Nat → String}
    {terminalId : Option String} {session : AppSession}
    (h : selectTerminalInState now state sessionId terminalId = .ok (session, next)) :
    Revises state next := by
  obtain ⟨old, hold, hcase⟩ := selectTerminalInState_ok h
  rcases hcase with ⟨-, rfl, rfl⟩ | ⟨id, tabId, tab, -, -, -, -, -, -, -, htab, rfl, rfl⟩
  · exact (Revises.refl state).putSession hold rfl (touchSession_revised _ rfl)
  have hput : Revises state (state.putTab (showTerminalInTab (now 0) terminalId tab)) :=
    (Revises.refl state).putTab htab rfl (touchTab_revised _ rfl)
  exact hput.putSession hold rfl (touchSession_revised _ rfl)

theorem createTerminal_revises (hfresh : env.Fresh state) {title : String}
    {input : TerminalInput} {terminal : MuxTerminal}
    (h : createTerminal env sessionId tabId title input state = .ok (terminal, next)) :
    Revises state next := by
  obtain ⟨selectedTab, session, -, -, hterm, hselect⟩ := createTerminal_ok h
  subst hterm
  have hpush : Revises state (state.pushTerminal (newTerminal (env.now 0)
      (terminalKey (env.uuid 0)) sessionId selectedTab (nonempty title "Terminal")
      (openTerminalCount state selectedTab) input)) :=
    (Revises.refl state).pushTerminal (hfresh.terminal 0)
  exact hpush.trans (selectTerminalInState_revises hselect)

theorem updateTerminal_revises {revision : Option Nat} {edit : TerminalEdit}
    {terminal : MuxTerminal}
    (h : updateTerminal env id revision edit state = .ok (terminal, next)) :
    Revises state next := by
  obtain ⟨old, hold, -, rfl, rfl⟩ := updateTerminal_ok h
  exact (Revises.refl state).putTerminal hold (TerminalEdit.apply_id old edit _)
    (stampTerminal_revised _ old edit _)

theorem reorderTerminals_revises {terminals : List MuxTerminal}
    (h : reorderTerminals env sessionId tabId ids state = .ok (terminals, next)) :
    Revises state next := by
  obtain ⟨-, -, -, hplaced, -⟩ := reorderTerminals_ok h
  refine placeTerminals_keeps (P := Revises state) ?_ hplaced (Revises.refl state)
  intro s position terminal _ hs hfound
  exact hs.putTerminal hfound rfl (.inr (Nat.lt_succ_self terminal.revision))

theorem leaveSource_revises {now id : String} {replacement : Option String}
    (h : leaveSource now state id replacement tabId = .ok next) : Revises state next := by
  cases tabId with
  | none =>
    cases h
    exact Revises.refl state
  | some tabId =>
    simp only [leaveSource, bind_ok, findTab_ok, pure_ok] at h
    obtain ⟨tab, htab, rfl⟩ := h
    exact (Revises.refl state).putTab htab rfl (touchTab_revised _ rfl)

theorem moveTerminal_revises {target : String} {terminal : MuxTerminal}
    (h : moveTerminal env id target state = .ok (terminal, next)) : Revises state next := by
  obtain ⟨current, -, -, -, -, hcase⟩ := moveTerminal_ok h
  rcases hcase with ⟨-, -, rfl⟩ | ⟨-, hmove⟩
  · exact Revises.refl next
  obtain ⟨old, left, session, hold, rfl, hleft, hselect⟩ := moveToTab_ok hmove
  have hput : Revises state (state.putTerminal
      (relocate (env.now 0) target (openTerminalCount state target) old)) :=
    (Revises.refl state).putTerminal hold rfl (.inr (Nat.lt_succ_self old.revision))
  exact (hput.trans (leaveSource_revises hleft)).trans (selectTerminalInState_revises hselect)

theorem closeInTab_revises {timestamp id : String} {replacement : Option String}
    {tab : Option SessionTab}
    (h : closeInTab timestamp state id replacement tabId = .ok (tab, next)) :
    Revises state next := by
  cases tabId with
  | none =>
    cases h
    exact Revises.refl state
  | some tabId =>
    simp only [closeInTab, bind_ok, findTab_ok, pure_ok, Prod.mk.injEq] at h
    obtain ⟨found, hfound, -, rfl⟩ := h
    exact (Revises.refl state).putTab hfound (dropFromTab_id _ found _ _)
      (dropFromTab_revised _ found _ _)

theorem closeTerminal_revises {stop : Bool} {result : CloseTerminalResult}
    (h : closeTerminal env id stop state = .ok (result, next)) : Revises state next := by
  obtain ⟨current, hcur, hcase⟩ := closeTerminal_ok h
  rcases hcase with ⟨-, halready⟩ | ⟨-, hclose⟩
  · obtain ⟨-, -, -, rfl⟩ := closedAlready_ok halready
    exact Revises.refl next
  obtain ⟨archived, after, old, session, rfl, hafter, hold, rfl, -, -, rfl⟩ := closeOpen_ok hclose
  have hput : Revises state (state.putTerminal (archiveClosed (env.now 0) stop current)) :=
    (Revises.refl state).putTerminal hcur (archiveClosed_id _ current _)
      (archiveClosed_revised _ current _)
  exact (hput.trans (closeInTab_revises hafter)).putSession hold
    (dropFromSession_id _ old _ _) (dropFromSession_revised _ old _ _)

theorem closeTab_revises (hfresh : env.Fresh state) {stop : Bool}
    {result : CloseTabResult} (h : closeTab env id stop state = .ok (result, next)) :
    Revises state next := by
  obtain ⟨current, closed, added, old, hcur, -, htab, rfl, hcrd, rfl, hold, hsess,
    rfl⟩ := closeTab_ok h
  rw [htab] at hcrd hold hsess ⊢
  rw [hcrd] at hold hsess ⊢
  rw [hsess]
  have hterms : Revises state (closeTerminals (env.now 0) stop id state) := by
    refine (Revises.refl state).mapTerminals (closeTerminals_id _ id stop) fun terminal => ?_
    split
    · exact archiveClosed_revised _ terminal stop
    · exact Revised.refl _ _
  have htabs : Revises state ((closeTerminals (env.now 0) stop id state).putTab
      (archivedTab (env.now 0) current)) :=
    hterms.putTab hcur (archivedTab_id _ current) (archivedTab_revised _ current)
  have hnone : state.tab? (tabKey (env.uuid 0)) = none := hfresh.tab 0
  have hkept : (closeTerminals (env.now 0) stop id state).tab? (tabKey (env.uuid 0)) = none := hnone
  refine (htabs.fallback ?_).putSession hold (leaveClosedTab_id _ old _ _)
    (leaveClosedTab_revised _ old _ _)
  rw [PersistedState.tab?_putTab, hkept]
  split <;> rfl

theorem archiveTab_revises (hfresh : env.Fresh state) {tab : SessionTab}
    (h : archiveTab env id state = .ok (tab, next)) : Revises state next := by
  obtain ⟨current, hcur, hcase⟩ := archiveTab_ok h
  rcases hcase with ⟨-, -, rfl⟩ | ⟨-, hopen⟩
  · exact Revises.refl next
  obtain ⟨closed, created, added, old, rfl, rfl, rfl, hold, rfl⟩ := archiveOpenTab_ok hopen
  have hput : Revises state (state.putTab (shutTab env current)) :=
    (Revises.refl state).putTab hcur rfl (touchTab_revised _ rfl)
  have hnone : state.tab? (tabKey (env.uuid 0)) = none := hfresh.tab 0
  refine (hput.fallback ?_).putSession hold (leaveClosedTab_id _ old _ _)
    (leaveClosedTab_revised _ old _ _)
  rw [PersistedState.tab?_putTab, hnone]
  split <;> rfl

theorem dropFromFoundTab_revises (now terminalId : String) (follower tabId : Option String) :
    Revises state (dropFromFoundTab now state terminalId follower tabId) := by
  unfold dropFromFoundTab
  split
  · rename_i tab hfound
    obtain ⟨id, -, htab⟩ := bind_eq_some_iff.mp hfound
    exact (Revises.refl state).putTab htab (dropFromTab_id _ tab _ _)
      (dropFromTab_revised _ tab _ _)
  · exact Revises.refl state

theorem archiveTerminal_revises {terminal : MuxTerminal}
    (h : archiveTerminal env id state = .ok (terminal, next)) : Revises state next := by
  obtain ⟨current, hcur, hcase⟩ := archiveTerminal_ok h
  rcases hcase with ⟨-, -, rfl⟩ | ⟨-, hopen⟩
  · exact Revises.refl next
  obtain ⟨follower, after, old, rfl, hold, rfl⟩ := archiveOpenTerminal_ok hopen
  have hput : Revises state (state.putTerminal (shutTerminal env current)) :=
    (Revises.refl state).putTerminal hcur rfl (.inr (Nat.lt_succ_self current.revision))
  exact (hput.trans (dropFromFoundTab_revises _ _ _ _)).putSession hold
    (dropFromSession_id _ old _ _) (dropFromSession_revised _ old _ _)

theorem interruptLive_revises {epoch : String} {available : List String}
    {result : StartupReconciliation}
    (h : interruptLive env epoch available state = .ok (result, next)) : Revises state next := by
  cases h
  have hterms := (Revises.refl state).mapTerminals
    (f := fun terminal => if terminal.status.isLive then
      interruptTerminal (env.now 0) available terminal else terminal)
    (fun terminal => by split <;> rfl)
    (fun terminal => by
      split
      · exact .inr (Nat.lt_succ_self terminal.revision)
      · exact Revised.refl _ _)
  exact { hterms with
    keyed := fun hkeyed => ⟨hkeyed.sessions, hkeyed.tabs, (hterms.keyed hkeyed).terminals⟩ }

end Mutations

end Yaade.Store

import Yaade.Mux.ClientStore

/-!
The selection of the client is among what it shows.
-/

namespace Yaade.Mux.Client

open Yaade.Library List Option MuxSessionStore

/-- The selected session, tab and terminal are each listed where they are shown. -/
structure Selected (store : MuxSessionStore) : Prop where
  session : ∀ id, store.activeSessionId = some id → id ∈ store.visibleSessionIds
  tab : ∀ id, store.activeTabId = some id → ∃ sessionId, store.activeSessionId = some sessionId ∧
    id ∈ listAt store.visibleTabIdsBySession sessionId
  terminal : ∀ id, store.activeMuxTerminalId = some id → ∃ tabId, store.activeTabId = some tabId ∧
    id ∈ listAt store.terminalIdsByTab tabId

def Shown (store : MuxSessionStore) : StoreAction → Prop
  | .selectSession id => ∀ resolved, store.resolveSessionId id = some resolved →
      resolved ∈ store.visibleSessionIds
  | .selectTab id => ∀ tab, store.selectableTab id = some tab →
      tab.sessionId ∈ store.visibleSessionIds ∧
        id ∈ listAt store.visibleTabIdsBySession tab.sessionId
  | .selectMuxTerminal id => ∀ found, store.selectableTerminal id = some found →
      found.1.sessionId ∈ store.visibleSessionIds ∧
        found.2 ∈ listAt store.visibleTabIdsBySession found.1.sessionId ∧
        id ∈ listAt store.terminalIdsByTab found.2
  | _ => True

section Selection

variable {store : MuxSessionStore}

theorem mem_of_preferred {α : Type} [DecidableEq α] {preferred : Option α} {ids : List α} {id : α}
    (h : (preferred.filter (· ∈ ids) <|> ids.head?) = some id) : id ∈ ids := by
  rcases (orElse_eq_some _ _ _).mp h with hpreferred | ⟨-, hhead⟩
  · exact of_decide_eq_true (filter_eq_some_iff.mp hpreferred).2
  · exact mem_of_head? hhead

theorem mem_of_kept {α : Type} [DecidableEq α] {kept other : Option α} {ids : List α} {id : α}
    (h : (kept.filter (· ∈ ids) <|> other) = some id) (hother : other = some id → id ∈ ids) :
    id ∈ ids := by
  rcases (orElse_eq_some _ _ _).mp h with hkept | ⟨-, hsecond⟩
  · exact of_decide_eq_true (filter_eq_some_iff.mp hkept).2
  · exact hother hsecond

theorem selectedTabForSession_mem {id : SessionId} {tabId : SessionTabId}
    (h : store.selectedTabForSession id = some tabId) :
    tabId ∈ listAt store.visibleTabIdsBySession id :=
  mem_of_preferred h

theorem selectedTerminalForTab_mem {id : SessionTabId} {terminalId : MuxTerminalId}
    (h : store.selectedTerminalForTab id = some terminalId) :
    terminalId ∈ listAt store.terminalIdsByTab id :=
  mem_of_preferred h

theorem reconcileSelection_selected (store : MuxSessionStore) : Selected store.reconcileSelection := by
  unfold reconcileSelection
  extract_lets activeSessionId
  cases hactive : activeSessionId with
  | none =>
    exact ⟨(fun id hid => by cases hid), (fun id hid => by cases hid), fun id hid => by cases hid⟩
  | some sessionId =>
    refine ⟨?_, ?_, ?_⟩
    · intro id hid
      cases hid
      rcases (orElse_eq_some _ _ _).mp hactive with hkept | ⟨-, hhead⟩
      · have hvis := (filter_eq_some_iff.mp hkept).2
        rw [Bool.and_eq_true] at hvis
        exact of_decide_eq_true hvis.2
      · exact mem_of_head? hhead
    · intro id hid
      exact ⟨sessionId, rfl, mem_of_kept hid selectedTabForSession_mem⟩
    · intro id hid
      obtain ⟨tabId, htab, hterm⟩ := bind_eq_some_iff.mp hid
      exact ⟨tabId, htab, mem_of_kept hterm selectedTerminalForTab_mem⟩

section

variable (h : Selected store)
include h

theorem Selected.selectSession (id : SessionId) :
    Selected (store.selectSession id) ↔ Shown store (.selectSession id) := by
  unfold MuxSessionStore.selectSession Shown
  cases hrslv : store.resolveSessionId id with
  | none =>
    exact ⟨fun _ _ hcontra => (by cases hrslv.symm.trans hcontra), fun _ => h⟩
  | some resolved =>
    simp only
    split
    · rename_i hactive
      refine ⟨fun _ other hother => ?_, fun _ => h⟩
      cases hrslv.symm.trans hother
      exact h.session resolved hactive
    constructor
    · intro hselected other hother
      cases hrslv.symm.trans hother
      exact hselected.session resolved rfl
    · intro hshown
      refine ⟨?_, ?_, ?_⟩
      · intro other hother
        cases hother
        exact hshown resolved hrslv
      · intro tabId htab
        exact ⟨resolved, rfl, selectedTabForSession_mem htab⟩
      · intro terminalId hterm
        obtain ⟨tabId, htab, hfound⟩ := bind_eq_some_iff.mp hterm
        exact ⟨tabId, htab, selectedTerminalForTab_mem hfound⟩

theorem Selected.selectTab (id : SessionTabId) :
    Selected (store.selectTab id) ↔ Shown store (.selectTab id) := by
  unfold MuxSessionStore.selectTab Shown
  cases hfound : store.selectableTab id with
  | none =>
    exact ⟨fun _ _ hcontra => (by cases hfound.symm.trans hcontra), fun _ => h⟩
  | some tab =>
    constructor
    · intro hselected other hother
      cases hfound.symm.trans hother
      obtain ⟨sessionId, hsess, hlisted⟩ := hselected.tab id rfl
      cases hsess
      exact ⟨hselected.session tab.sessionId rfl, hlisted⟩
    · intro hshown
      obtain ⟨hsess, hlisted⟩ := hshown tab hfound
      refine ⟨?_, ?_, ?_⟩
      · intro other hother
        cases hother
        exact hsess
      · intro other hother
        cases hother
        exact ⟨tab.sessionId, rfl, hlisted⟩
      · intro terminalId hterm
        exact ⟨id, rfl, selectedTerminalForTab_mem hterm⟩

theorem Selected.selectMuxTerminal (id : MuxTerminalId) :
    Selected (store.selectMuxTerminal id) ↔ Shown store (.selectMuxTerminal id) := by
  unfold MuxSessionStore.selectMuxTerminal Shown
  cases hfound : store.selectableTerminal id with
  | none =>
    exact ⟨fun _ _ hcontra => (by cases hfound.symm.trans hcontra), fun _ => h⟩
  | some found =>
    obtain ⟨terminal, tabId⟩ := found
    constructor
    · intro hselected other hother
      cases hfound.symm.trans hother
      obtain ⟨sessionId, hsess, htab⟩ := hselected.tab tabId rfl
      obtain ⟨activeTab, hactive, hlisted⟩ := hselected.terminal id rfl
      cases hsess
      cases hactive
      exact ⟨hselected.session terminal.sessionId rfl, htab, hlisted⟩
    · intro hshown
      obtain ⟨hsess, htab, hlisted⟩ := hshown (terminal, tabId) hfound
      refine ⟨?_, ?_, ?_⟩
      · intro other hother
        cases hother
        exact hsess
      · intro other hother
        cases hother
        exact ⟨terminal.sessionId, rfl, htab⟩
      · intro other hother
        cases hother
        exact ⟨tabId, rfl, hlisted⟩

theorem Selected.confirm {terminals : IndexMap MuxTerminalId Nat}
    {tabs : IndexMap SessionTabId Nat} :
    Selected { store with pendingTerminalCloses := terminals, pendingTabCloses := tabs } :=
  ⟨h.session, h.tab, h.terminal⟩

end

theorem replace_selected (store : MuxSessionStore) (sessions : List AppSession)
    (terminals : List MuxTerminal) (tabs : List SessionTab) :
    Selected (store.replace sessions terminals tabs) :=
  reconcileSelection_selected _

theorem Selected.replaceMuxTerminal (h : Selected store) (terminal : MuxTerminal) :
    Selected (store.replaceMuxTerminal terminal) := by
  unfold MuxSessionStore.replaceMuxTerminal
  split
  · exact h
  · exact replace_selected _ _ _ _

/-- A step keeps the selection among what is shown if and only if what it
selects is shown. -/
theorem Selected.step_iff (h : Selected store) (action : StoreAction) :
    Selected (action.run store) ↔ Shown store action := by
  cases action with
  | selectSession id => exact h.selectSession id
  | selectTab id => exact h.selectTab id
  | selectMuxTerminal id => exact h.selectMuxTerminal id
  | replace sessions terminals tabs =>
    exact iff_of_true (replace_selected store sessions terminals tabs) trivial
  | mergeSnapshot sessions terminals tabs hasTabs baseline =>
    exact iff_of_true (reconcileSelection_selected _) trivial
  | replaceSession session terminals tabs =>
    exact iff_of_true (replace_selected _ _ _ _) trivial
  | replaceTab tab =>
    exact iff_of_true (iteInduction (fun _ => h) fun _ => reconcileSelection_selected _) trivial
  | replaceMuxTerminal terminal => exact iff_of_true (h.replaceMuxTerminal terminal) trivial
  | replaceMuxTerminalIfNewer terminal =>
    exact iff_of_true (iteInduction (fun _ => h) fun _ => h.replaceMuxTerminal terminal) trivial
  | apply event =>
    exact iff_of_true (iteInduction (fun _ => h) fun _ => reconcileSelection_selected _) trivial
  | stageTerminalClose id | stageTabClose id =>
    exact iff_of_true (iteInduction (fun _ => h) fun _ => reconcileSelection_selected _) trivial
  | clearPendingCloses =>
    exact iff_of_true (iteInduction (fun _ => h) fun _ => reconcileSelection_selected _) trivial
  | confirmTerminalClose id mutationId | confirmTabClose id mutationId =>
    exact iff_of_true (iteInduction (fun _ => h.confirm) fun _ => h) trivial
  | rollbackTerminalClose id mutationId | rollbackTabClose id mutationId =>
    exact iff_of_true (iteInduction (fun _ => reconcileSelection_selected _) fun _ => h) trivial

theorem empty_selected : Selected .empty :=
  ⟨(fun id hid => by cases hid), (fun id hid => by cases hid), fun id hid => by cases hid⟩

theorem selected_run (hrun : storeSystem.Run Shown store) : Selected store := by
  apply hrun.invariant
  · rintro _ rfl
    exact empty_selected
  · intro s action s' hselected hshown hstep
    cases hstep
    exact (hselected.step_iff action).mpr hshown

/-- In a run whose selections are all of what is shown the selection is among
it; and the next step keeps it there exactly if it is such a step. -/
theorem selection_shown (hrun : storeSystem.Run Shown store) :
    Selected store ∧ ∀ action, Selected (action.run store) ↔ Shown store action :=
  ⟨selected_run hrun, fun action => (selected_run hrun).step_iff action⟩

/-! ## A run -/

theorem idA_accepted : EntityKind.session.accepts "ses-a" = true := by decide

def idA : SessionId := ⟨"ses-a", idA_accepted⟩
def idB : SessionId := ⟨"ses-b", by decide⟩

def sampleSession (id : SessionId) (archivedAt : Option String) : AppSession :=
  ⟨id, "A", 0, none, none, some 1, "2026-01-01", "2026-01-01", archivedAt⟩

def sampleReplace : StoreAction :=
  .replace [sampleSession idA none, sampleSession idB (some "2026-01-02")] [] []

theorem selection_shown_sample : ∃ store, storeSystem.Run Shown store ∧
    (store.activeSessionId = some idA ∧ store.activeTabId = some (fallbackTabId idA)) ∧
      Selected store ∧ ∀ action, Selected (action.run store) ↔ Shown store action := by
  have hrun : storeSystem.Run Shown (StoreAction.run (sampleReplace.run .empty) (.selectSession idA)) := by
    refine .next (.next (a := sampleReplace) (.start rfl) trivial rfl) ?_ rfl
    intro resolved hrslv
    have hsame : resolved = idA := Option.some.inj (hrslv.symm.trans (by decide))
    rw [hsame]
    decide
  exact ⟨_, hrun, by decide, selection_shown hrun⟩

/-- An archived session can be selected. -/
theorem hidden_selected : ∃ store, storeSystem.Reachable store ∧ ¬ Selected store := by
  refine ⟨StoreAction.run (sampleReplace.run .empty) (.selectSession idB),
    .next (.next (.start rfl) trivial rfl) trivial rfl, fun hselected => ?_⟩
  have hlisted := hselected.session idB (by decide)
  revert hlisted
  decide

end Selection

end Yaade.Mux.Client

import Yaade.Store.Frame

/-!
The processes that terminal records name.
-/

namespace Yaade.Store

open Yaade.Library List Option PersistedState

/-- A record that names a PTY names the one it named before, with the status it
had unless it has ended. -/
def Continues (before : PersistedState) (terminal : MuxTerminal) : Prop :=
  terminal.output.ptyId = none ∨ ∃ old, before.terminal? terminal.id = some old ∧
    terminal.output.ptyId = old.output.ptyId ∧
      (terminal.status = old.status ∨ terminal.status.isLive = false)

def Quiet (before after : PersistedState) : Prop :=
  ∀ id terminal, after.terminal? id = some terminal → Continues before terminal

theorem continues_of_found {state : PersistedState} {id : String} {terminal : MuxTerminal}
    (h : state.terminal? id = some terminal) : Continues state terminal := by
  refine .inr ⟨terminal, ?_, rfl, .inl rfl⟩
  rw [terminal?_id h, h]

namespace Quiet

variable {before middle after : PersistedState}

theorem refl (state : PersistedState) : Quiet state state := fun _ _ h => continues_of_found h

theorem trans (h : Quiet before middle) (h' : Quiet middle after) : Quiet before after := by
  intro id terminal hterm
  rcases h' id terminal hterm with hnone | ⟨old, hold, hpty, hstatus⟩
  · exact .inl hnone
  rcases h _ old hold with hnone | ⟨first, hfirst, hpty', hstatus'⟩
  · exact .inl (hpty.trans hnone)
  refine .inr ⟨first, ?_, hpty.trans hpty', ?_⟩
  · rw [← terminal?_id hold]
    exact hfirst
  · rcases hstatus with hsame | hended
    · rw [hsame]
      exact hstatus'
    · exact .inr hended

theorem of_frame {sessions : List AppSession} {tabs : List SessionTab}
    {terminals : List MuxTerminal} (h : Frame before after sessions tabs terminals)
    (hterms : ∀ terminal ∈ terminals, Continues before terminal) : Quiet before after := by
  intro id terminal hterm
  rcases h.terminal id terminal hterm with hsame | hmem
  · exact continues_of_found hsame
  · exact hterms terminal hmem

end Quiet

/-! ## Edits of one record -/

section Edits

variable {state : PersistedState} {old : MuxTerminal}

section

variable (h : state.terminal? old.id = some old)
include h

theorem continues_placeTerminal (now : String)
    (position : Nat) : Continues state (placeTerminal now position old) :=
  .inr ⟨old, h, rfl, .inl rfl⟩

theorem continues_relocate (now target : String)
    (position : Nat) : Continues state (relocate now target position old) :=
  .inr ⟨old, h, rfl, .inl rfl⟩

theorem continues_archiveClosed (now : String)
    (stop : Bool) : Continues state (archiveClosed now stop old) := by
  refine .inr ⟨old, by rw [archiveClosed_id, h], ?_⟩
  unfold archiveClosed stopClosed
  split
  · exact ⟨rfl, .inr rfl⟩
  · exact ⟨rfl, .inl rfl⟩

theorem continues_renamed (now uuid title : String) :
    Continues state (stampTerminal now ((renameEdit title).apply uuid old)) := by
  refine .inr ⟨old, by rw [stampTerminal_id, TerminalEdit.apply_id, h], ?_⟩
  unfold stampTerminal renameEdit
  dsimp only
  exact ⟨rfl, .inl rfl⟩

end

end Edits

/-! ## Store calls -/

def StoreCall.edits {α : Type} : StoreCall α → Bool
  | .updateTerminal .. => true
  | _ => false

section Calls

variable {env : StoreEnv} {state next : PersistedState}

variable {sessionId : String} {terminal : MuxTerminal}

theorem createTerminal_quiet (h : Sound state) (hfresh : env.Fresh state)
    {title : String} {tabId : Option String} {input : TerminalInput}
    (hok : createTerminal env sessionId tabId title input state = .ok (terminal, next)) :
    Quiet state next := by
  obtain ⟨_, _, -, -, hterm, -⟩ := createTerminal_ok hok
  obtain ⟨_, _, _, _, -, -, -, -, -, -, hframe⟩ := createTerminal_frame h.keyed hfresh hok
  refine Quiet.of_frame hframe fun found hfound => .inl ?_
  obtain rfl := mem_singleton.mp hfound
  rw [hterm]
  rfl

theorem renameTerminal_quiet {id title : String}
    (hok : renameTerminal env id title state = .ok (terminal, next)) : Quiet state next := by
  have hframe := updateTerminal_frame hok
  obtain ⟨old, hold, -, rfl, -⟩ := updateTerminal_ok hok
  refine Quiet.of_frame hframe fun found hfound => ?_
  obtain rfl := mem_singleton.mp hfound
  have hid := terminal?_id hold
  exact continues_renamed (hid ▸ hold) _ _ _

theorem reorderTerminals_quiet {tabId : Option String}
    {ids : List String} {terminals : List MuxTerminal}
    (hok : reorderTerminals env sessionId tabId ids state = .ok (terminals, next)) :
    Quiet state next := by
  obtain ⟨_, -, -, hplaced, -⟩ := reorderTerminals_ok hok
  refine placeTerminals_keeps (P := Quiet state) ?_ hplaced (Quiet.refl state)
  intro s position terminal _ hquiet hterm
  refine hquiet.trans (Quiet.of_frame ((Frame.refl s).putTerminal _) fun found hfound => ?_)
  obtain rfl := mem_singleton.mp hfound
  exact continues_placeTerminal hterm _ _

theorem moveTerminal_quiet (h : Sound state) {id target : String}
    (hok : moveTerminal env id target state = .ok (terminal, next)) : Quiet state next := by
  obtain ⟨current, hcur, -, hcase⟩ := h.moveTerminal_writes hok
  have hid := terminal?_id hcur
  rcases hcase with ⟨-, rfl⟩ | ⟨_, _, _, _, position, _, -, -, -, -, -, -, -, -, -, -, rfl, rfl⟩
  · exact Quiet.refl _
  refine Quiet.of_frame
    (((((Frame.refl state).putTerminal _).putTab _).putTab _).putSession _) fun found hfound => ?_
  obtain rfl := mem_singleton.mp hfound
  exact continues_relocate (hid ▸ hcur) _ _ _

theorem closeTerminal_quiet (h : Sound state) {id : String} {stop : Bool}
    {result : CloseTerminalResult}
    (hok : closeTerminal env id stop state = .ok (result, next)) : Quiet state next := by
  rcases h.closeTerminal_writes hok with ⟨_, -, -, rfl, -⟩ |
    ⟨current, _, _, _, _, hcur, -, -, -, -, -, -, hterm, -, -, rfl⟩
  · exact Quiet.refl _
  have hid := terminal?_id hcur
  refine Quiet.of_frame ((((Frame.refl state).putTerminal _).putTab _).putSession _)
    fun found hfound => ?_
  obtain rfl := mem_singleton.mp hfound
  rw [hterm]
  exact continues_archiveClosed (hid ▸ hcur) _ _

theorem closeTab_quiet (h : Sound state) {id : String} {stop : Bool} {result : CloseTabResult}
    (hok : closeTab env id stop state = .ok (result, next)) : Quiet state next := by
  refine Quiet.of_frame (closeTab_frame hok) fun found hfound => ?_
  obtain ⟨_, _, _, _, -, hterms, -⟩ := closeTab_ok hok
  rw [hterms] at hfound
  obtain ⟨old, hold, rfl⟩ := List.mem_map.mp hfound
  have hmem := (mem_filter.mp hold).1
  exact continues_archiveClosed (h.keyed.terminal?_of_mem hmem) _ _

theorem interruptLive_quiet {epoch : String} {available : List String}
    {result : StartupReconciliation}
    (hok : interruptLive env epoch available state = .ok (result, next)) : Quiet state next := by
  cases hok
  intro id terminal hterm
  have hrow := row?_map MuxTerminal.id
    (fun terminal : MuxTerminal =>
      if terminal.status.isLive then interruptTerminal (env.now 0) available terminal
      else terminal)
    (fun terminal => by split <;> rfl) id state.terminals
  rw [PersistedState.terminal?, hrow] at hterm
  obtain ⟨old, hold, rfl⟩ := map_eq_some_iff.mp hterm
  by_cases hlive : old.status.isLive = true
  · rw [if_pos hlive]
    exact .inl rfl
  · rw [if_neg hlive]
    exact continues_of_found hold

theorem archiveSession_quiet {id : String} {session : AppSession}
    (hok : archiveSession env id state = .ok (session, next)) : Quiet state next := by
  rcases archiveSession_frame hok with hframe | ⟨_, _, hframe, -⟩
  · exact Quiet.of_frame hframe (by simp)
  · exact Quiet.of_frame hframe (by simp)

theorem selectTerminal_quiet (h : Sound state) {id : Option String} {session : AppSession}
    (hok : selectTerminal env sessionId id state = .ok (session, next)) : Quiet state next := by
  obtain ⟨-, ⟨-, hframe⟩ | ⟨_, _, -, -, -, -, hframe⟩⟩ := selectTerminalInState_frame h.keyed hok
  · exact Quiet.of_frame hframe (by simp)
  · exact Quiet.of_frame hframe (by simp)

/-- A call that takes no closure leaves the processes of the records alone. -/
theorem StoreCall.perform_quiet {α : Type} (h : Sound state) (hfresh : env.Fresh state)
    {call : StoreCall α} (hcall : call.edits = false) : Quiet state (call.perform env state).2 := by
  have hmutate : ∀ {β : Type} {operation : Operation β},
      (∀ result next, operation state = .ok (result, next) → Quiet state next) →
        Quiet state (mutate env operation state).2 := by
    intro β operation hoperation
    cases hres : (mutate env operation state) with
    | mk outcome next =>
      cases outcome with
      | ok result => exact hoperation result next (mutate_ok.mp hres).1
      | error error =>
        rw [mutate_error hres]
        exact Quiet.refl state
  cases call with
  | listSnapshots | getSnapshot | getSession | getTab | getTerminal | terminalForPty
  | terminalsForSession | terminalsForTab => exact Quiet.refl state
  | createSession =>
    exact hmutate fun _ _ hok => Quiet.of_frame (createSession_frame hok) (by simp)
  | renameSession =>
    exact hmutate fun _ _ hok => Quiet.of_frame (renameSession_frame hok) (by simp)
  | reorderSessions =>
    exact hmutate fun _ _ hok => Quiet.of_frame (reorderSessions_frame h.keyed hok) (by simp)
  | archiveSession => exact hmutate fun _ _ hok => archiveSession_quiet hok
  | restoreSession =>
    exact hmutate fun _ _ hok => Quiet.of_frame (restoreSession_frame hok) (by simp)
  | createTab =>
    refine hmutate fun _ _ hok => ?_
    obtain ⟨_, -, hframe⟩ := createTab_frame hok
    exact Quiet.of_frame hframe (by simp)
  | renameTab => exact hmutate fun _ _ hok => Quiet.of_frame (renameTab_frame hok) (by simp)
  | saveTabLayout =>
    exact hmutate fun _ _ hok => Quiet.of_frame (saveTabLayout_frame hok) (by simp)
  | reorderTabs =>
    exact hmutate fun _ _ hok => Quiet.of_frame (reorderTabs_frame h.keyed hok) (by simp)
  | selectTab => exact hmutate fun _ _ hok => Quiet.of_frame (selectTab_frame hok) (by simp)
  | closeTab => exact hmutate fun _ _ hok => closeTab_quiet h hok
  | createTerminal => exact hmutate fun _ _ hok => createTerminal_quiet h hfresh hok
  | updateTerminal => cases hcall
  | renameTerminal => exact hmutate fun _ _ hok => renameTerminal_quiet hok
  | selectTerminal => exact hmutate fun _ _ hok => selectTerminal_quiet h hok
  | reorderTerminals => exact hmutate fun _ _ hok => reorderTerminals_quiet hok
  | moveTerminal => exact hmutate fun _ _ hok => moveTerminal_quiet h hok
  | closeTerminal => exact hmutate fun _ _ hok => closeTerminal_quiet h hok
  | reconcileStartup =>
    simp only [StoreCall.perform, Store.reconcileStartup]
    split
    · exact Quiet.refl state
    · exact hmutate fun _ _ hok => interruptLive_quiet hok

/-! ## The fenced write -/

/-- An update of a record goes through: the record has the revision that was
asked for, and the database takes the write. -/
def fenceHolds (env : StoreEnv) (state : PersistedState) (id : String)
    (revision : Option Nat) : Bool :=
  env.database.isNone && (state.terminal? id).any fun terminal =>
    revision.all (terminal.revision == ·)

variable {id : String} {revision : Option Nat}

theorem updateTerminal_held (edit : TerminalEdit) (h : fenceHolds env state id revision = true) :
    ∃ old, state.terminal? id = some old ∧
      (StoreCall.updateTerminal id revision edit).perform env state =
        (.ok (stampTerminal (env.now 0) (edit.apply (env.uuid 0) old)),
          state.putTerminal (stampTerminal (env.now 0) (edit.apply (env.uuid 0) old))) := by
  simp only [fenceHolds, Bool.and_eq_true, isNone_iff_eq_none, Option.any_eq_true] at h
  obtain ⟨hdatabase, old, hold, hfence⟩ := h
  refine ⟨old, hold, ?_⟩
  refine mutate_ok.mpr ⟨?_, hdatabase⟩
  simp only [updateTerminal, bind_ok, ensure_ok, findTerminal_ok, pure_ok, Prod.mk.injEq]
  refine ⟨old, hold, (), ?_, rfl, rfl⟩
  cases revision with
  | none => rfl
  | some revision => simpa using hfence

theorem updateTerminal_refused (edit : TerminalEdit)
    (h : fenceHolds env state id revision = false) :
    ∃ error, (StoreCall.updateTerminal id revision edit).perform env state =
      (.error error, state) := by
  cases hres : (StoreCall.updateTerminal id revision edit).perform env state with
  | mk outcome next =>
    cases outcome with
    | error error => exact ⟨error, by rw [mutate_error hres]⟩
    | ok terminal =>
      obtain ⟨hok, hdatabase⟩ := mutate_ok.mp hres
      obtain ⟨old, hold, hrev, -, -⟩ := updateTerminal_ok hok
      refine absurd ?_ (Bool.eq_false_iff.mp h)
      simp only [fenceHolds, hdatabase, hold, isNone_none, any_some, Bool.true_and]
      cases revision with
      | none => rfl
      | some revision => simpa using hrev revision rfl

end Calls

end Yaade.Store

import Yaade.Store.Focus

/-!
Where new records stand among their siblings.
-/

namespace Yaade.Store

open Yaade.Library List Option

def Packed {α : Type} (position : α → Nat) (rows : List α) : Prop :=
  (rows.map position).Nodup ∧ ∀ row ∈ rows, position row < rows.length

def SortsLast {α : Type} (position : α → Nat) (row : α) (rows : List α) : Prop :=
  rows.getLast? = some row ∧ (rows.map position).Nodup

section Sorting

variable {α : Type} {position : α → Nat} {rows siblings : List α} {row : α}

theorem Packed.perm (h : Packed position rows) (hperm : rows.Perm siblings) :
    Packed position siblings :=
  ⟨(hperm.map position).nodup_iff.mp h.1,
    fun row hrow => hperm.length_eq ▸ h.2 row (hperm.mem_iff.mpr hrow)⟩

theorem packed_sortBy : Packed position (sortBy position rows) ↔ Packed position rows :=
  ⟨fun h => h.perm (sortBy_perm position rows), fun h => h.perm (sortBy_perm position rows).symm⟩

theorem sorted_sortBy (position : α → Nat) (rows : List α) :
    (sortBy position rows).Pairwise fun a b => position a ≤ position b :=
  haveI : Std.Total fun a b : α => position a ≤ position b :=
    ⟨fun a b => le_total (position a) (position b)⟩
  haveI : IsTrans α fun a b => position a ≤ position b := ⟨fun _ _ _ => le_trans⟩
  pairwise_insertionSort _ rows

theorem le_last_sortBy (hlast : (sortBy position rows).getLast? = some row) {other : α}
    (hother : other ∈ rows) : position other ≤ position row := by
  obtain ⟨before, hbef⟩ := getLast?_eq_some_iff.mp hlast
  have hsorted := sorted_sortBy position rows
  rw [hbef] at hsorted
  have hmem : other ∈ before ++ [row] := hbef ▸ mem_sortBy.mpr hother
  rcases mem_snoc.mp hmem with hearlier | rfl
  · exact (pairwise_append.mp hsorted).2.2 other hearlier row mem_cons_self
  · rfl

theorem sortsLast_iff (hrows : rows.Perm (row :: siblings))
    (hposn : position row = siblings.length) :
    SortsLast position row (sortBy position rows) ↔ Packed position siblings := by
  have hsorted : (sortBy position rows).Perm (row :: siblings) :=
    (sortBy_perm position rows).trans hrows
  have hnodup : ((sortBy position rows).map position).Nodup ↔
      position row ∉ siblings.map position ∧ (siblings.map position).Nodup :=
    ((hsorted.map position).nodup_iff).trans nodup_cons
  constructor
  · rintro ⟨hlast, hdist⟩
    obtain ⟨hnew, hsiblings⟩ := hnodup.mp hdist
    refine ⟨hsiblings, fun sibling hsibling => ?_⟩
    have hle : position sibling ≤ position row :=
      le_last_sortBy hlast (hrows.mem_iff.mpr (mem_cons_of_mem row hsibling))
    have hne : position sibling ≠ position row := fun heq =>
      hnew (heq ▸ mem_map_of_mem hsibling)
    omega
  · rintro ⟨hsiblings, hbelow⟩
    have hnew : position row ∉ siblings.map position := by
      intro hmem
      obtain ⟨sibling, hsibling, heq⟩ := List.mem_map.mp hmem
      have hless := hbelow sibling hsibling
      omega
    refine ⟨?_, hnodup.mpr ⟨hnew, hsiblings⟩⟩
    obtain ⟨last, hlast⟩ : ∃ last, (sortBy position rows).getLast? = some last := by
      cases hlast : (sortBy position rows).getLast? with
      | some last => exact ⟨last, rfl⟩
      | none =>
        rw [getLast?_eq_none_iff.mp hlast] at hsorted
        exact absurd hsorted.length_eq (by simp)
    -- no sibling reaches the number of siblings, so the last row is none of them
    have hbehind := le_last_sortBy hlast (hrows.mem_iff.mpr mem_cons_self)
    have hmem := hsorted.mem_iff.mp (mem_of_getLast? hlast)
    rcases mem_cons.mp hmem with rfl | hsibling
    · exact hlast
    · have hless := hbelow last hsibling
      omega

theorem filter_updateRow {key : α → String} {keep : α → Bool} {old : α}
    (hkeys : (rows.map key).Nodup) (hold : row? key (key row) rows = some old)
    (hdropped : keep old = false) (hkept : keep row = true) :
    ((updateRow key (key row) (fun _ => row) rows).filter keep).Perm (row :: rows.filter keep) := by
  induction rows with
  | nil => cases hold
  | cons first rest ih =>
    obtain ⟨hfirst, hrest⟩ := nodup_cons.mp hkeys
    unfold row? at hold
    unfold updateRow
    split
    · rename_i hsame
      rw [if_pos hsame] at hold
      cases hold
      rw [filter_cons_of_pos hkept, filter_cons_of_neg (by simp [hdropped])]
    rename_i hother
    rw [if_neg hother] at hold
    have hperm := ih hrest hold
    cases hkeep : keep first with
    | true =>
      rw [filter_cons_of_pos hkeep, filter_cons_of_pos hkeep]
      exact (hperm.cons first).trans (List.Perm.swap row first _)
    | false =>
      rw [filter_cons_of_neg (by simp [hkeep]),
        filter_cons_of_neg (by simp [hkeep])]
      exact hperm

theorem filter_push {keep : α → Bool} (hkept : keep row = true) :
    ((rows ++ [row]).filter keep).Perm (row :: rows.filter keep) := by
  rw [filter_append, filter_cons_of_pos hkept, List.filter_nil]
  exact perm_append_singleton row _

end Sorting

/-! ## The four methods that place a record -/

section Methods

variable {env : StoreEnv} {state next : PersistedState}

variable {sessionId title : String}

theorem selectTerminalInState_terminals {now : Nat → String}
    {id : Option String} {session : AppSession}
    (h : selectTerminalInState now state sessionId id = .ok (session, next)) :
    next.terminals = state.terminals := by
  obtain ⟨old, -, hcase⟩ := selectTerminalInState_ok h
  rcases hcase with ⟨-, -, rfl⟩ | ⟨_, _, _, _, -, -, -, -, -, -, -, -, rfl⟩ <;> rfl

theorem leaveSource_terminals {now id : String} {replacement source : Option String}
    (h : leaveSource now state id replacement source = .ok next) :
    next.terminals = state.terminals := by
  cases source with
  | none =>
    cases h
    rfl
  | some sourceTabId =>
    simp only [leaveSource, bind_ok, findTab_ok, pure_ok] at h
    obtain ⟨_, _, rfl⟩ := h
    rfl

theorem createSession_last {session : AppSession}
    (h : createSession env title state = .ok (session, next)) :
    SortsLast AppSession.position session (orderedSessions next false) ↔
      Packed AppSession.position (orderedSessions state false) := by
  cases h
  refine (sortsLast_iff (filter_push rfl) ?_).trans packed_sortBy.symm
  rfl

theorem createTab_last {tab : SessionTab}
    (h : createTab env sessionId title state = .ok (tab, next)) :
    SortsLast SessionTab.position tab (orderedTabs next sessionId false) ↔
      Packed SessionTab.position (orderedTabs state sessionId false) := by
  obtain ⟨-, htab, session, -, rfl⟩ := createTab_ok h
  refine (sortsLast_iff (filter_push ?_) ?_).trans packed_sortBy.symm
  · rw [htab]
    simp [newTab, shown]
  · rw [htab]
    rfl

theorem createTerminal_last {tabId : Option String} {input : TerminalInput} {terminal : MuxTerminal}
    (h : createTerminal env sessionId tabId title input state = .ok (terminal, next)) :
    ∃ selected, terminal.tabId = some selected ∧
      (SortsLast MuxTerminal.position terminal (orderedTerminals next selected false) ↔
        Packed MuxTerminal.position (orderedTerminals state selected false)) := by
  obtain ⟨selected, session, -, -, hterm, hselect⟩ := createTerminal_ok h
  refine ⟨selected, by rw [hterm]; rfl, ?_⟩
  unfold orderedTerminals
  rw [selectTerminalInState_terminals hselect]
  refine (sortsLast_iff (filter_push ?_) ?_).trans packed_sortBy.symm
  · rw [hterm]
    simp [newTerminal, shown]
  · rw [hterm]
    rfl

theorem moveTerminal_last (hkeyed : Keyed state) {id target : String}
    {current terminal : MuxTerminal} (hcur : state.terminal? id = some current)
    (hother : current.tabId ≠ some target)
    (h : moveTerminal env id target state = .ok (terminal, next)) :
    SortsLast MuxTerminal.position terminal (orderedTerminals next target false) ↔
      Packed MuxTerminal.position (orderedTerminals state target false) := by
  obtain ⟨found, hmem, rfl, hopen, -, hcase⟩ := moveTerminal_ok h
  have hfound := hkeyed.terminal?_of_mem hmem
  cases Option.some.inj (hcur.symm.trans hfound)
  rcases hcase with ⟨hsame, -⟩ | ⟨-, hmove⟩
  · exact absurd hsame hother
  obtain ⟨old, left, session, hold, hterm, hleave, hselect⟩ := moveToTab_ok hmove
  cases Option.some.inj (hcur.symm.trans hold)
  have hid : terminal.id = current.id := by rw [hterm]; rfl
  unfold orderedTerminals
  rw [selectTerminalInState_terminals hselect, leaveSource_terminals hleave]
  have hrow : row? MuxTerminal.id terminal.id state.terminals = some current := by
    rw [hid]
    exact hcur
  refine (sortsLast_iff (filter_updateRow hkeyed.terminals hrow ?_ ?_) ?_).trans packed_sortBy.symm
  · simp [hother]
  · rw [hterm]
    simp [relocate, shown, hopen]
  · rw [hterm]
    rfl

end Methods

/-- In every catalog the store reaches, a created session, tab or terminal, or a
terminal moved to another tab, sorts last among siblings with positions of their
own exactly when the visible siblings had the positions below their number. -/
theorem sorts_last_iff {machine : String} {state : PersistedState} {env : StoreEnv}
    (hrun : (storeSystem machine).Run (fun state action => action.1.Fresh state) state) :
    (∀ title session next, createSession env title state = .ok (session, next) →
      (SortsLast AppSession.position session (orderedSessions next false) ↔
        Packed AppSession.position (orderedSessions state false))) ∧
    (∀ sessionId title tab next, createTab env sessionId title state = .ok (tab, next) →
      (SortsLast SessionTab.position tab (orderedTabs next sessionId false) ↔
        Packed SessionTab.position (orderedTabs state sessionId false))) ∧
    (∀ sessionId tabId title input terminal next,
      createTerminal env sessionId tabId title input state = .ok (terminal, next) →
      ∃ selected, terminal.tabId = some selected ∧
        (SortsLast MuxTerminal.position terminal (orderedTerminals next selected false) ↔
          Packed MuxTerminal.position (orderedTerminals state selected false))) ∧
    (∀ id target current terminal next, state.terminal? id = some current →
      current.tabId ≠ some target → moveTerminal env id target state = .ok (terminal, next) →
      (SortsLast MuxTerminal.position terminal (orderedTerminals next target false) ↔
        Packed MuxTerminal.position (orderedTerminals state target false))) :=
  ⟨fun _ _ _ h => createSession_last h, fun _ _ _ _ h => createTab_last h,
    fun _ _ _ _ _ _ h => createTerminal_last h,
    fun _ _ _ _ _ hcur hother h =>
      moveTerminal_last (storeSystem_sound hrun).keyed hcur hother h⟩

/-! ## Sessions that come and go -/

def numberedCalls (calls : List (String × Σ α, StoreCall α)) :
    List (StoreEnv × Σ α, StoreCall α) :=
  calls.map fun call => (.constant "t" call.1, call.2)

def drawsUnused (state : PersistedState) (action : StoreEnv × Σ α, StoreCall α) : Bool :=
  (state.session? (sessionKey (action.1.uuid 0))).isNone &&
    (state.tab? (tabKey (action.1.uuid 0))).isNone &&
    (state.terminal? (terminalKey (action.1.uuid 0))).isNone

theorem fresh_of_drawsUnused {state : PersistedState} {time uuid : String}
    {call : Σ α, StoreCall α} (h : drawsUnused state (.constant time uuid, call) = true) :
    (StoreEnv.constant time uuid).Fresh state := by
  simp only [drawsUnused, Bool.and_eq_true, isNone_iff_eq_none] at h
  exact StoreEnv.constant_fresh h.1.1 h.1.2 h.2

theorem numberedCalls_run {calls : List (String × Σ α, StoreCall α)} {state next : PersistedState}
    (hrun : (storeSystem "host").Run (fun state action => action.1.Fresh state) state)
    (hrpl : (storeSystem "host").replay drawsUnused state (numberedCalls calls) = some next) :
    (storeSystem "host").Run (fun state action => action.1.Fresh state) next := by
  refine System.replay_run hrun (fun s action hmem hcheck => ?_) hrpl
  obtain ⟨call, -, rfl⟩ := List.mem_map.mp hmem
  exact fresh_of_drawsUnused hcheck

def openedStore : PersistedState := openStore (.constant "t" "a") "host" none

theorem openedStore_run :
    (storeSystem "host").Run (fun state action => action.1.Fresh state) openedStore :=
  System.Run.start ⟨.constant "t" "a", rfl⟩

/-- The second session of a new store is the last one. -/
theorem sorts_last_second : ∃ session next,
    createSession (.constant "t" "b") "Second" openedStore = .ok (session, next) ∧
      SortsLast AppSession.position session (orderedSessions next false) := by
  refine ⟨_, _, rfl, ((sorts_last_iff openedStore_run).1 "Second" _ _ rfl).mpr ⟨?_, ?_⟩⟩
  · decide
  · decide

/-- Of three sessions the first two are archived; the next one has the place
before the third. -/
theorem sorts_before_third : ¬ ∀ state env title session next,
      (storeSystem "host").Run (fun state action => action.1.Fresh state) state →
        env.Fresh state → createSession env title state = .ok (session, next) →
          SortsLast AppSession.position session (orderedSessions next false) := by
  intro hall
  let calls : List (String × Σ α, StoreCall α) :=
    [("b", ⟨_, .createSession "Second"⟩), ("c", ⟨_, .createSession "Third"⟩),
      ("x", ⟨_, .archiveSession "ses-a"⟩), ("y", ⟨_, .archiveSession "ses-b"⟩)]
  have hrpl : ((storeSystem "host").replay drawsUnused openedStore (numberedCalls calls)).any
      (fun state => drawsUnused state (.constant "t" "d", ⟨_, .createSession "Fourth"⟩) &&
        match createSession (.constant "t" "d") "Fourth" state with
        | .ok (session, next) =>
          decide ((orderedSessions next false).getLast? ≠ some session)
        | .error _ => false) = true := by
    decide
  obtain ⟨state, hstate, hchecks⟩ := (Option.any_eq_true _ _).mp hrpl
  obtain ⟨hunused, hplaced⟩ := Bool.and_eq_true_iff.mp hchecks
  have hlast := hall state _ "Fourth" _ _ (numberedCalls_run openedStore_run hstate)
    (fresh_of_drawsUnused hunused) rfl
  exact of_decide_eq_true hplaced hlast.1

end Yaade.Store

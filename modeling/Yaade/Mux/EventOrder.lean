import Yaade.Library.LastWriter
import Yaade.Mux.ClientShape

/-!
Concurrent requests of the server announce their changes in any order.
-/

namespace Yaade.Mux.Client

open Yaade.Library List IndexMap MuxSessionStore
open Option hiding or_self

/-! ## Events of the server -/

namespace MuxEvent

/-- What the server sends: whole records under their own revision, and archivals
with the time of the change; it sends no `TerminalOutputChanged`. -/
def Emitted : MuxEvent → Prop
  | .session revision record => record.revision = some revision
  | .tab revision record => record.revision = some revision
  | .terminal revision muxTerminalId muxTerminal =>
    muxTerminal.id = muxTerminalId ∧ muxTerminal.revision = revision
  | .outputChanged _ _ _ _ => False
  | .terminalArchived _ _ occurredAt => occurredAt ≠ ""

def archives : MuxEvent → Bool
  | .terminal _ _ muxTerminal => muxTerminal.archived
  | .terminalArchived _ _ _ => true
  | _ => false

instance (event : MuxEvent) : Decidable event.Emitted :=
  match event with
  | .session revision record => inferInstanceAs (Decidable (record.revision = some revision))
  | .tab revision record => inferInstanceAs (Decidable (record.revision = some revision))
  | .terminal revision muxTerminalId muxTerminal =>
    inferInstanceAs (Decidable (muxTerminal.id = muxTerminalId ∧ muxTerminal.revision = revision))
  | .outputChanged _ _ _ _ => inferInstanceAs (Decidable False)
  | .terminalArchived _ _ occurredAt => inferInstanceAs (Decidable (occurredAt ≠ ""))

inductive Content where
  | session (record : AppSession)
  | tab (record : SessionTab)
  | terminal (record : Option MuxTerminal)
  | output (text : String)
  deriving DecidableEq

def content : MuxEvent → Content
  | .session _ record => .session record
  | .tab _ record => .tab record
  | .terminal _ _ muxTerminal => .terminal (if muxTerminal.archived then none else some muxTerminal)
  | .outputChanged _ _ _ output => .output output
  | .terminalArchived _ _ _ => .terminal none

end MuxEvent

/-! ## Registers -/

section Records

variable {α β : Type} {revisions : IndexMap EntityKey Nat} {key other : EntityKey}
  {record : Option α} {revisionOf : α → Nat} {view : α → Option β}

def recordRegister (revisions : IndexMap EntityKey Nat) (key : EntityKey) (record : Option α)
    (revisionOf : α → Nat) (view : α → Option β) : Register (Option β) :=
  ⟨max ((revisions.get? key).getD 0) ((record.map revisionOf).getD 0), record.bind view⟩

theorem recordRegister_other (hkey : key ≠ other) (revision : Nat) :
    recordRegister (revisions.insert other revision) key record revisionOf view =
      recordRegister revisions key record revisionOf view := by
  unfold recordRegister
  rw [get?_insert, if_neg hkey]

theorem recordRegister_written {item : α} {revision : Nat} (hrev : revisionOf item = revision)
    (hnew : ¬ revision ≤ (recordRegister revisions key record revisionOf view).known) :
    recordRegister (revisions.insert key revision) key (some item) revisionOf view =
      (recordRegister revisions key record revisionOf view).write (revision, view item) := by
  unfold Register.write
  rw [if_neg hnew]
  unfold recordRegister
  rw [get?_insert, if_pos rfl, map_some, hrev]
  simp

theorem recordRegister_missing {revision : Nat}
    (hnew : ¬ revision ≤ (recordRegister revisions key (none : Option α) revisionOf view).known) :
    recordRegister (revisions.insert key revision) key none revisionOf view =
      (recordRegister revisions key none revisionOf view).write (revision, none) := by
  unfold Register.write
  rw [if_neg hnew]
  unfold recordRegister
  rw [get?_insert, if_pos rfl]
  simp

theorem write_dropped {register : Register β} {entry : Nat × β} (h : entry.1 ≤ register.known) :
    register.write entry = register := if_pos h

end Records

theorem sessionKey_inj {first second : SessionId} (h : sessionKey first = sessionKey second) :
    first = second := by
  cases first
  cases second
  cases h
  rfl

theorem tabKey_inj {first second : SessionTabId} (h : tabKey first = tabKey second) :
    first = second := by
  cases first
  cases second
  cases h
  rfl

theorem terminalKey_inj {first second : MuxTerminalId} (h : terminalKey first = terminalKey second) :
    first = second := by
  cases first
  cases second
  cases h
  rfl

namespace MuxSessionStore

variable (store : MuxSessionStore)

def sessionRegister (id : SessionId) : Register (Option AppSession) :=
  recordRegister store.revisions (sessionKey id) (store.sessionsById.get? id)
    (fun record => record.revision.getD 0) some

def tabRegister (id : SessionTabId) : Register (Option SessionTab) :=
  recordRegister store.revisions (tabKey id) (store.tabsById.get? id)
    (fun record => record.revision.getD 0) some

def terminalRegister (id : MuxTerminalId) : Register (Option MuxTerminal) :=
  recordRegister store.revisions (terminalKey id) (store.terminalsById.get? id) MuxTerminal.revision
    fun terminal => if terminal.archived then none else some terminal

end MuxSessionStore

def sessionWrites (id : SessionId) (events : List MuxEvent) : List (Nat × Option AppSession) :=
  events.filterMap fun
    | .session revision record => if record.id = id then some (revision, some record) else none
    | _ => none

def tabWrites (id : SessionTabId) (events : List MuxEvent) : List (Nat × Option SessionTab) :=
  events.filterMap fun
    | .tab revision record => if record.id = id then some (revision, some record) else none
    | _ => none

def terminalWrites (id : MuxTerminalId) (events : List MuxEvent) : List (Nat × Option MuxTerminal) :=
  events.filterMap fun
    | .terminal revision muxTerminalId muxTerminal => if muxTerminalId = id then
        some (revision, if muxTerminal.archived then none else some muxTerminal) else none
    | .terminalArchived revision muxTerminalId _ =>
      if muxTerminalId = id then some (revision, none) else none
    | _ => none

/-! ## One event -/

variable {store : MuxSessionStore}

section Events

variable {event : MuxEvent}

theorem knownRevision_session (store : MuxSessionStore) (revision : Nat) (record : AppSession) :
    store.knownRevision (.session revision record) = (store.sessionRegister record.id).known := by
  simp only [knownRevision, sessionRegister, recordRegister, recordRevision, MuxEvent.key]
  cases store.sessionsById.get? record.id <;> rfl

theorem knownRevision_tab (store : MuxSessionStore) (revision : Nat) (record : SessionTab) :
    store.knownRevision (.tab revision record) = (store.tabRegister record.id).known := by
  simp only [knownRevision, tabRegister, recordRegister, recordRevision, MuxEvent.key]
  cases store.tabsById.get? record.id <;> rfl

theorem apply_session (hemitted : event.Emitted) (id : SessionId) :
    (store.apply event).sessionRegister id =
      (store.sessionRegister id).writes (sessionWrites id [event]) := by
  by_cases hdropped : store.knownRevision event ≥ event.revision
  · rw [store.apply_dropped hdropped]
    cases event with
    | session revision record =>
      by_cases hid : record.id = id
      · rw [knownRevision_session, hid] at hdropped
        simp only [sessionWrites, filterMap_cons, filterMap_nil, hid, if_true]
        exact (write_dropped hdropped).symm
      · simp only [sessionWrites, filterMap_cons, filterMap_nil, hid, if_false]
        rfl
    | _ => rfl
  · obtain ⟨hsessions, -, -, hrevisions⟩ := store.apply_records hdropped
    unfold sessionRegister
    rw [hsessions, hrevisions]
    cases event with
    | session revision record =>
      by_cases hid : record.id = id
      · rw [knownRevision_session, hid] at hdropped
        simp only [sessionWrites, filterMap_cons, filterMap_nil, hid, if_true,
          sessionsAfter, get?_insert]
        have hkey : MuxEvent.key (.session revision record) = sessionKey id := by
          rw [← hid]
          rfl
        rw [hkey]
        apply recordRegister_written
        · rw [hemitted]
          rfl
        · exact hdropped
      · simp only [sessionWrites, filterMap_cons, filterMap_nil, hid, if_false,
          sessionsAfter, get?_insert, if_neg (Ne.symm hid)]
        exact recordRegister_other (fun hkey => hid (sessionKey_inj hkey.symm)) _
    | _ => exact recordRegister_other (fun hkey => by cases hkey) _

theorem apply_tab (hemitted : event.Emitted) (id : SessionTabId) :
    (store.apply event).tabRegister id =
      (store.tabRegister id).writes (tabWrites id [event]) := by
  by_cases hdropped : store.knownRevision event ≥ event.revision
  · rw [store.apply_dropped hdropped]
    cases event with
    | tab revision record =>
      by_cases hid : record.id = id
      · rw [knownRevision_tab, hid] at hdropped
        simp only [tabWrites, filterMap_cons, filterMap_nil, hid, if_true]
        exact (write_dropped hdropped).symm
      · simp only [tabWrites, filterMap_cons, filterMap_nil, hid, if_false]
        rfl
    | _ => rfl
  · obtain ⟨-, htabs, -, hrevisions⟩ := store.apply_records hdropped
    unfold tabRegister
    rw [htabs, hrevisions]
    cases event with
    | tab revision record =>
      by_cases hid : record.id = id
      · rw [knownRevision_tab, hid] at hdropped
        simp only [tabWrites, filterMap_cons, filterMap_nil, hid, if_true, tabsAfter, get?_insert]
        have hkey : MuxEvent.key (.tab revision record) = tabKey id := by
          rw [← hid]
          rfl
        rw [hkey]
        apply recordRegister_written
        · rw [hemitted]
          rfl
        · exact hdropped
      · simp only [tabWrites, filterMap_cons, filterMap_nil, hid, if_false,
          tabsAfter, get?_insert, if_neg (Ne.symm hid)]
        exact recordRegister_other (fun hkey => hid (tabKey_inj hkey.symm)) _
    | _ => exact recordRegister_other (fun hkey => by cases hkey) _

variable {id : MuxTerminalId}

theorem knownRevision_terminal (store : MuxSessionStore) (hkey : event.key = terminalKey id) :
    store.knownRevision event = (store.terminalRegister id).known := by
  cases event with
  | session revision record => cases hkey
  | tab revision record => cases hkey
  | terminal | outputChanged | terminalArchived =>
    cases terminalKey_inj hkey
    rfl

def ArchivedForGood (store : MuxSessionStore) (events : List MuxEvent) : Prop :=
  ∀ id terminal, store.terminalsById.get? id = some terminal → terminal.archived = true →
    ∀ event ∈ events, event.key = terminalKey id →
      (store.terminalRegister id).known < event.revision → event.archives = true

theorem terminalsAfter_other (hkeyed : Keyed store) (hemitted : event.Emitted)
    (hkey : event.key ≠ terminalKey id) :
    (store.terminalsAfter event).get? id = store.terminalsById.get? id := by
  unfold terminalsAfter
  split
  · rename_i terminal hafter
    rw [get?_insert, if_neg]
    rintro rfl
    rcases hkeyed.terminalAfter_id hafter with hsame | ⟨revision, muxTerminalId, rfl⟩
    · exact hkey hsame
    · exact hkey (congrArg terminalKey hemitted.1.symm)
  · rfl

theorem terminalsAfter_put {revision : Nat} {muxTerminal : MuxTerminal}
    (hemitted : MuxEvent.Emitted (.terminal revision id muxTerminal))
    (hnew : (store.terminalRegister id).known < revision)
    (hgood : ArchivedForGood store [.terminal revision id muxTerminal]) :
    (store.terminalsAfter (.terminal revision id muxTerminal)).get? id =
      some muxTerminal := by
  obtain ⟨rfl, -⟩ := hemitted
  have hput : store.terminalAfter (.terminal revision muxTerminal.id muxTerminal) =
      some muxTerminal := by
    apply if_neg
    intro hsticky
    rw [Bool.and_eq_true, Option.any_eq_true] at hsticky
    obtain ⟨⟨old, hold, harch⟩, hlive⟩ := hsticky
    have hcontra := hgood muxTerminal.id old hold harch _ (mem_singleton.mpr rfl) rfl hnew
    rw [MuxEvent.archives] at hcontra
    rw [hcontra] at hlive
    cases hlive
  unfold terminalsAfter
  rw [hput]
  simp only
  rw [get?_insert, if_pos rfl]

theorem terminalsAfter_archived (hkeyed : Keyed store) (revision : Nat)
    (id : MuxTerminalId) (occurredAt : String) :
    (store.terminalsAfter (.terminalArchived revision id occurredAt)).get? id =
      (store.terminalsById.get? id).map fun terminal => { terminal with
        archivedAt := some occurredAt, revision := revision, updatedAt := occurredAt } := by
  unfold terminalsAfter terminalAfter
  simp only
  cases hold : store.terminalsById.get? id with
  | none => exact hold
  | some old =>
    have hid := hkeyed.terminals _ _ hold
    simp only [map_some]
    rw [hid, get?_insert, if_pos rfl]

theorem apply_terminal (hkeyed : Keyed store) (hemitted : event.Emitted)
    (hgood : ArchivedForGood store [event]) (id : MuxTerminalId) :
    (store.apply event).terminalRegister id =
      (store.terminalRegister id).writes (terminalWrites id [event]) := by
  by_cases hkey : event.key = terminalKey id
  · have hknown := knownRevision_terminal store hkey
    have hwrites : ∃ view, terminalWrites id [event] = [(event.revision, view)] := by
      cases event with
      | session revision record => cases hkey
      | tab revision record => cases hkey
      | terminal | terminalArchived =>
        cases terminalKey_inj hkey
        exact ⟨_, by simp only [terminalWrites, filterMap_cons, if_true]; rfl⟩
      | outputChanged revision muxTerminalId occurredAt output => cases hemitted
    by_cases hdropped : store.knownRevision event ≥ event.revision
    · obtain ⟨view, hview⟩ := hwrites
      rw [store.apply_dropped hdropped, hview]
      rw [hknown] at hdropped
      exact (write_dropped hdropped).symm
    obtain ⟨-, -, hterms, hrevisions⟩ := store.apply_records hdropped
    unfold terminalRegister
    rw [hterms, hrevisions, hkey]
    rw [hknown] at hdropped
    cases event with
    | session revision record => cases hkey
    | tab revision record => cases hkey
    | terminal revision muxTerminalId muxTerminal =>
      cases terminalKey_inj hkey
      rw [terminalsAfter_put hemitted (Nat.lt_of_not_le hdropped) hgood]
      simp only [terminalWrites, filterMap_cons, filterMap_nil, if_true]
      exact recordRegister_written hemitted.2 hdropped
    | outputChanged revision muxTerminalId occurredAt output => cases hemitted
    | terminalArchived revision muxTerminalId occurredAt =>
      cases terminalKey_inj hkey
      rw [terminalsAfter_archived hkeyed]
      simp only [terminalWrites, filterMap_cons, filterMap_nil, if_true]
      unfold terminalRegister at hdropped
      cases hold : store.terminalsById.get? id with
      | none =>
        rw [hold] at hdropped
        exact recordRegister_missing hdropped
      | some old =>
        rw [hold] at hdropped
        rw [map_some]
        have harch : MuxTerminal.archived { old with
            archivedAt := some occurredAt, revision := revision, updatedAt := occurredAt } =
              true := decide_eq_true hemitted
        have hrev : MuxTerminal.revision { old with
            archivedAt := some occurredAt, revision := revision, updatedAt := occurredAt } =
              revision := rfl
        refine (recordRegister_written hrev hdropped).trans ?_
        simp only [harch, if_true]
        rfl
  · have hwrites : terminalWrites id [event] = [] := by
      cases event with
      | terminal revision muxTerminalId | terminalArchived revision muxTerminalId =>
        have hid : muxTerminalId ≠ id := fun hid => hkey (congrArg terminalKey hid)
        simp only [terminalWrites, filterMap_cons, filterMap_nil, if_neg hid]
      | _ => rfl
    rw [hwrites]
    by_cases hdropped : store.knownRevision event ≥ event.revision
    · rw [store.apply_dropped hdropped]
      rfl
    obtain ⟨-, -, hterms, hrevisions⟩ := store.apply_records hdropped
    unfold terminalRegister
    rw [hterms, hrevisions, terminalsAfter_other hkeyed hemitted hkey]
    exact recordRegister_other (Ne.symm hkey) _

/-- Each entity's record has at least the revision that it had. -/
structure Advances (before after : MuxSessionStore) : Prop where
  sessions : ∀ id, ((before.sessionsById.get? id).bind AppSession.revision).getD 0 ≤
    ((after.sessionsById.get? id).bind AppSession.revision).getD 0
  tabs : ∀ id, ((before.tabsById.get? id).bind SessionTab.revision).getD 0 ≤
    ((after.tabsById.get? id).bind SessionTab.revision).getD 0
  terminals : ∀ id, ((before.terminalsById.get? id).map MuxTerminal.revision).getD 0 ≤
    ((after.terminalsById.get? id).map MuxTerminal.revision).getD 0

theorem Advances.refl (store : MuxSessionStore) : Advances store store :=
  ⟨fun _ => le_rfl, fun _ => le_rfl, fun _ => le_rfl⟩

theorem Advances.trans {first second third : MuxSessionStore} (h : Advances first second)
    (hmore : Advances second third) : Advances first third :=
  ⟨fun id => Nat.le_trans (h.sessions id) (hmore.sessions id),
    fun id => Nat.le_trans (h.tabs id) (hmore.tabs id),
    fun id => Nat.le_trans (h.terminals id) (hmore.terminals id)⟩

theorem recordRevision_le (store : MuxSessionStore) (event : MuxEvent) :
    (store.recordRevision event).getD 0 ≤ store.knownRevision event :=
  Nat.le_max_right _ _

theorem apply_advances (hkeyed : Keyed store) (hemitted : event.Emitted)
    (hgood : ArchivedForGood store [event]) : Advances store (store.apply event) := by
  by_cases hdropped : store.knownRevision event ≥ event.revision
  · rw [store.apply_dropped hdropped]
    exact Advances.refl store
  obtain ⟨hsessions, htabs, hterms, -⟩ := store.apply_records hdropped
  have hnew := Nat.lt_of_le_of_lt (recordRevision_le store event) (Nat.lt_of_not_le hdropped)
  refine ⟨fun id => ?_, fun id => ?_, fun id => ?_⟩
  · rw [hsessions]
    cases event with
    | session revision record =>
      rw [sessionsAfter, get?_insert]
      split
      · rename_i hid
        rw [hid, bind_some, hemitted]
        exact Nat.le_of_lt hnew
      · exact le_rfl
    | _ => exact le_rfl
  · rw [htabs]
    cases event with
    | tab revision record =>
      rw [tabsAfter, get?_insert]
      split
      · rename_i hid
        rw [hid, bind_some, hemitted]
        exact Nat.le_of_lt hnew
      · exact le_rfl
    | _ => exact le_rfl
  · rw [hterms]
    by_cases hkey : event.key = terminalKey id
    · cases event with
      | session revision record => cases hkey
      | tab revision record => cases hkey
      | terminal revision muxTerminalId muxTerminal =>
        cases terminalKey_inj hkey
        rw [knownRevision_terminal store hkey] at hdropped
        rw [terminalsAfter_put hemitted (Nat.lt_of_not_le hdropped) hgood, map_some, hemitted.2]
        exact Nat.le_of_lt hnew
      | outputChanged revision muxTerminalId occurredAt output => cases hemitted
      | terminalArchived revision muxTerminalId occurredAt =>
        cases terminalKey_inj hkey
        rw [terminalsAfter_archived hkeyed]
        cases hold : store.terminalsById.get? id with
        | none => exact le_rfl
        | some old =>
          simp only [recordRevision, hold] at hnew
          exact Nat.le_of_lt hnew
    · rw [terminalsAfter_other hkeyed hemitted hkey]

theorem ArchivedForGood.apply {events : List MuxEvent} (h : ArchivedForGood store events)
    (hkeyed : Keyed store) (hemitted : event.Emitted) (hmem : event ∈ events)
    (hgood : event.archives = true → ∀ later ∈ events, later.key = event.key →
      event.revision < later.revision → later.archives = true) :
    ArchivedForGood (store.apply event) events := by
  have hone : ArchivedForGood store [event] := fun id terminal hget harch other hother =>
    h id terminal hget harch other (mem_singleton.mp hother ▸ hmem)
  intro id terminal hget harch later hlater hkey hnew
  by_cases hdropped : store.knownRevision event ≥ event.revision
  · rw [store.apply_dropped hdropped] at hget hnew
    exact h id terminal hget harch later hlater hkey hnew
  rw [apply_terminal hkeyed hemitted hone] at hnew
  obtain ⟨-, -, hterms, -⟩ := store.apply_records hdropped
  rw [hterms] at hget
  have hbef := Register.known_le_writes (store.terminalRegister id) (terminalWrites id [event])
  by_cases hsame : event.key = terminalKey id
  · rw [knownRevision_terminal store hsame] at hdropped
    cases event with
    | session revision record => cases hsame
    | tab revision record => cases hsame
    | terminal revision muxTerminalId muxTerminal =>
      cases terminalKey_inj hsame
      rw [terminalsAfter_put hemitted (Nat.lt_of_not_le hdropped) hone] at hget
      cases hget
      apply hgood harch later hlater hkey
      simp only [terminalWrites, filterMap_cons, filterMap_nil, if_true] at hnew
      exact Nat.lt_of_le_of_lt (Register.le_writes (@mem_cons_self _
        (revision, if terminal.archived then none else some terminal) [])) hnew
    | outputChanged revision muxTerminalId occurredAt output => cases hemitted
    | terminalArchived revision muxTerminalId occurredAt =>
      cases terminalKey_inj hsame
      apply hgood rfl later hlater hkey
      simp only [terminalWrites, filterMap_cons, filterMap_nil, if_true] at hnew
      exact Nat.lt_of_le_of_lt (Register.le_writes (@mem_cons_self _ (revision, none) [])) hnew
  · rw [terminalsAfter_other hkeyed hemitted hsame] at hget
    exact h id terminal hget harch later hlater hkey (Nat.lt_of_le_of_lt hbef hnew)

end Events

/-! ## Deliveries -/

/-- Events of one server history after a store was hydrated: each revision of an
entity has one content, and what is archived stays so. -/
structure ServerHistory (store : MuxSessionStore) (events : List MuxEvent) : Prop where
  emitted : ∀ event ∈ events, event.Emitted
  once : ∀ event ∈ events, ∀ other ∈ events, event.key = other.key →
    event.revision = other.revision → event.content = other.content
  forGood : ∀ event ∈ events, event.archives = true → ∀ later ∈ events, later.key = event.key →
    event.revision < later.revision → later.archives = true
  hydrated : ArchivedForGood store events

def deliver (store : MuxSessionStore) (events : List MuxEvent) : MuxSessionStore :=
  events.foldl apply store

/-- The same sessions, the same tabs and the same terminals that are not archived. -/
structure Converged (first second : MuxSessionStore) : Prop where
  sessions : ∀ id, first.sessionsById.get? id = second.sessionsById.get? id
  tabs : ∀ id, first.tabsById.get? id = second.tabsById.get? id
  terminals : ∀ id, (first.terminalsById.get? id).filter (fun terminal => !terminal.archived) =
    (second.terminalsById.get? id).filter fun terminal => !terminal.archived

section Deliveries

variable {events delivered : List MuxEvent}

theorem sessionRegister_value (store : MuxSessionStore) (id : SessionId) :
    (store.sessionRegister id).value = store.sessionsById.get? id :=
  bind_fun_some _

theorem tabRegister_value (store : MuxSessionStore) (id : SessionTabId) :
    (store.tabRegister id).value = store.tabsById.get? id :=
  bind_fun_some _

theorem terminalRegister_value (store : MuxSessionStore) (id : MuxTerminalId) :
    (store.terminalRegister id).value =
      (store.terminalsById.get? id).filter fun terminal => !terminal.archived := by
  unfold terminalRegister recordRegister
  cases store.terminalsById.get? id with
  | none => rfl
  | some terminal =>
    cases harch : terminal.archived with
    | false | true => simp [harch, Option.filter]

theorem ServerHistory.next (h : ServerHistory store events) (hkeyed : Keyed store)
    {event : MuxEvent} (hev : event ∈ events) : ServerHistory (store.apply event) events :=
  ⟨h.emitted, h.once, h.forGood,
    h.hydrated.apply hkeyed (h.emitted event hev) hev (h.forGood event hev)⟩

theorem ServerHistory.kept (h : ServerHistory store events) (hkeyed : Keyed store)
    (hdeliv : ∀ event ∈ delivered, event ∈ events) :
    Keyed (deliver store delivered) ∧ ServerHistory (deliver store delivered) events := by
  induction delivered generalizing store with
  | nil => exact ⟨hkeyed, h⟩
  | cons first rest ih =>
    exact ih (h.next hkeyed (hdeliv first mem_cons_self)) (hkeyed.apply first)
      fun event hev => hdeliv event (mem_cons_of_mem first hev)

theorem deliver_registers (hkeyed : Keyed store) (hhistory : ServerHistory store events)
    (hdeliv : ∀ event ∈ delivered, event ∈ events) :
    (∀ id, (deliver store delivered).sessionRegister id =
        (store.sessionRegister id).writes (sessionWrites id delivered)) ∧
      (∀ id, (deliver store delivered).tabRegister id =
        (store.tabRegister id).writes (tabWrites id delivered)) ∧
      (∀ id, (deliver store delivered).terminalRegister id =
        (store.terminalRegister id).writes (terminalWrites id delivered)) ∧
      Advances store (deliver store delivered) := by
  induction delivered generalizing store with
  | nil => exact ⟨fun _ => rfl, fun _ => rfl, fun _ => rfl, Advances.refl store⟩
  | cons first rest ih =>
    have hfirst := hdeliv first mem_cons_self
    have hemitted := hhistory.emitted first hfirst
    have hone : ArchivedForGood store [first] := fun id terminal hget harch other hother =>
      hhistory.hydrated id terminal hget harch other (mem_singleton.mp hother ▸ hfirst)
    obtain ⟨hsessions, htabs, hterms, hadvances⟩ := ih (hkeyed.apply first)
      (hhistory.next hkeyed hfirst) fun event hev => hdeliv event (mem_cons_of_mem first hev)
    refine ⟨fun id => ?_, fun id => ?_, fun id => ?_, ?_⟩
    · rw [deliver, foldl_cons, ← deliver, hsessions id, apply_session hemitted]
      unfold Register.writes
      rw [← foldl_append]
      unfold sessionWrites
      rw [← filterMap_append]
      rfl
    · rw [deliver, foldl_cons, ← deliver, htabs id, apply_tab hemitted]
      unfold Register.writes
      rw [← foldl_append]
      unfold tabWrites
      rw [← filterMap_append]
      rfl
    · rw [deliver, foldl_cons, ← deliver, hterms id, apply_terminal hkeyed hemitted hone]
      unfold Register.writes
      rw [← foldl_append]
      unfold terminalWrites
      rw [← filterMap_append]
      rfl
    · exact (apply_advances hkeyed hemitted hone).trans hadvances

theorem filterMap_mem_congr {α β : Type} {first second : List α} (f : α → Option β)
    (h : ∀ item, item ∈ first ↔ item ∈ second) (value : β) :
    value ∈ first.filterMap f ↔ value ∈ second.filterMap f := by
  rw [mem_filterMap, mem_filterMap]
  simp only [h]

/-- Two deliveries of one set of events bring the store to the same records. -/
theorem deliveries_converge (hkeyed : Keyed store) (hhistory : ServerHistory store events)
    {other : List MuxEvent} (hdeliv : ∀ event, event ∈ delivered ↔ event ∈ events)
    (hother : ∀ event, event ∈ other ↔ event ∈ events) :
    Converged (deliver store delivered) (deliver store other) := by
  have hsame : ∀ event, event ∈ delivered ↔ event ∈ other := fun event =>
    (hdeliv event).trans (hother event).symm
  obtain ⟨hsessions, htabs, hterms, -⟩ :=
    deliver_registers hkeyed hhistory fun event => (hdeliv event).mp
  obtain ⟨hsessions', htabs', hterms', -⟩ :=
    deliver_registers hkeyed hhistory fun event => (hother event).mp
  refine ⟨fun id => ?_, fun id => ?_, fun id => ?_⟩
  · rw [← sessionRegister_value, ← sessionRegister_value, hsessions, hsessions']
    congr 1
    apply Register.writes_congr (filterMap_mem_congr _ hsame)
    intro write hwrite write' hwrite' hrev
    obtain ⟨event, hev, hsome⟩ := mem_filterMap.mp hwrite
    obtain ⟨event', hev', hsome'⟩ := mem_filterMap.mp hwrite'
    have honce := hhistory.once event ((hdeliv event).mp hev) event' ((hdeliv event').mp hev')
    cases event <;> cases event' <;> simp at hsome hsome'
    obtain ⟨hid, rfl⟩ := hsome
    obtain ⟨hid', rfl⟩ := hsome'
    have hcontent := honce (congrArg sessionKey (hid.trans hid'.symm)) hrev
    cases hcontent
    rfl
  · rw [← tabRegister_value, ← tabRegister_value, htabs, htabs']
    congr 1
    apply Register.writes_congr (filterMap_mem_congr _ hsame)
    intro write hwrite write' hwrite' hrev
    obtain ⟨event, hev, hsome⟩ := mem_filterMap.mp hwrite
    obtain ⟨event', hev', hsome'⟩ := mem_filterMap.mp hwrite'
    have honce := hhistory.once event ((hdeliv event).mp hev) event' ((hdeliv event').mp hev')
    cases event <;> cases event' <;> simp at hsome hsome'
    obtain ⟨hid, rfl⟩ := hsome
    obtain ⟨hid', rfl⟩ := hsome'
    have hcontent := honce (congrArg tabKey (hid.trans hid'.symm)) hrev
    cases hcontent
    rfl
  · rw [← terminalRegister_value, ← terminalRegister_value, hterms, hterms']
    congr 1
    apply Register.writes_congr (filterMap_mem_congr _ hsame)
    intro write hwrite write' hwrite' hrev
    obtain ⟨event, hev, hsome⟩ := mem_filterMap.mp hwrite
    obtain ⟨event', hev', hsome'⟩ := mem_filterMap.mp hwrite'
    have honce := hhistory.once event ((hdeliv event).mp hev) event' ((hdeliv event').mp hev')
    cases event <;> cases event' <;> simp at hsome hsome'
    all_goals
      obtain ⟨hid, rfl⟩ := hsome
      obtain ⟨hid', rfl⟩ := hsome'
      have hcontent := honce (congrArg terminalKey (hid.trans hid'.symm)) hrev
      exact MuxEvent.Content.terminal.inj hcontent

/-- The order and the repetition of the events of one history do not show; and
on the way no entity moves to a lower revision. -/
theorem order_hidden {store : MuxSessionStore} (hreachable : storeSystem.Reachable store)
    {events first second : List MuxEvent} (hhistory : ServerHistory store events)
    (hfirst : ∀ event, event ∈ first ↔ event ∈ events)
    (hsecond : ∀ event, event ∈ second ↔ event ∈ events) :
    Converged (deliver store first) (deliver store second) ∧
      ∀ taken next rest, first = taken ++ next ++ rest →
        Advances (deliver store taken) (deliver store (taken ++ next)) := by
  have hkeyed := Keyed.run hreachable
  refine ⟨deliveries_converge hkeyed hhistory hfirst hsecond, fun taken next rest hsplit => ?_⟩
  have hmem : ∀ event ∈ taken ++ next, event ∈ events := fun event hev =>
    (hfirst event).mp (hsplit ▸ mem_append_left rest hev)
  obtain ⟨hkeyed', hhistory'⟩ := hhistory.kept hkeyed fun event hev =>
    hmem event (mem_append_left next hev)
  obtain ⟨-, -, -, hadvances⟩ := deliver_registers hkeyed' hhistory' fun event hev =>
    hmem event (mem_append_right taken hev)
  unfold deliver at hadvances ⊢
  rw [foldl_append]
  exact hadvances

/-! ## A history -/

def orderSession : SessionId := ⟨"ses-a", by decide⟩
def orderTerminal : MuxTerminalId := ⟨"term-a", by decide⟩

def orderRecord (revision : Nat) (title : String) : MuxTerminal :=
  ⟨orderTerminal, orderSession, none, "terminal", title, 0, "running", "", 1, "", none, revision,
    "2026-01-01", "2026-01-01", none, none, none⟩

def orderSessionRecord (revision : Nat) (title : String) : AppSession :=
  ⟨orderSession, title, 0, none, none, some revision, "2026-01-01", "2026-01-01", none⟩

def orderAction : StoreAction := .replace [orderSessionRecord 1 "A"] [] []

def orderEvents : List MuxEvent :=
  [.terminal 1 orderTerminal (orderRecord 1 "Shell"), .terminal 2 orderTerminal (orderRecord 2 "top"),
    .session 2 (orderSessionRecord 2 "B"), .terminalArchived 3 orderTerminal "2026-01-02"]

theorem orderEvents_history : ServerHistory (orderAction.run .empty) orderEvents := by
  refine ⟨by decide, by decide, by decide, ?_⟩
  intro id terminal hget
  have hnone : (orderAction.run .empty).terminalsById.entries = [] := by decide
  have hmem := get?_eq_some.mp hget
  rw [hnone] at hmem
  cases hmem

theorem order_hidden_sample : Converged (deliver (orderAction.run .empty) orderEvents)
        (deliver (orderAction.run .empty) (orderEvents ++ orderEvents.reverse)) ∧
      ∀ taken next rest, orderEvents = taken ++ next ++ rest →
        Advances (deliver (orderAction.run .empty) taken)
          (deliver (orderAction.run .empty) (taken ++ next)) := by
  apply order_hidden (.next (a := orderAction) (.start rfl) trivial rfl) orderEvents_history
  · exact fun event => Iff.rfl
  · intro event
    rw [mem_append, mem_reverse, or_self]

end Deliveries

end Yaade.Mux.Client

import Yaade.History.Slots
import Yaade.History.Crash

/-!
Closes of terminals.
-/

namespace Yaade.History

open Yaade.Library List Option

/-! ## One terminal -/

/-- A terminal whose close will be served: its archive opens, a directory has an
index, a flush can encode what is there and what is queued, and what was
accepted is in memory or on its way. -/
structure Closable (terminalId : String) (slot : Slot) (queued : List HistoryRecord)
    (through : Nat) : Prop where
  indexed : slot.dir.isSome = true → slot.index.isSome = true
  opens : ∀ now, ∃ state, (stateFor terminalId now slot).result = .ok state ∧
    state.pending.length + queued.length ≤ maxBlockRecords ∧
    (through = 0 ∨ (slot.state = some state ∧ through ≤ state.lastSequence) ∨
      ((∃ record ∈ queued, record.sequence = through) ∧
        (state.manifest.closedAt = none ∨ through ≤ state.lastSequence)))

/-- A terminal that is closed on disk and in memory, if there is anything of it. -/
structure Shut (slot : Slot) : Prop where
  disk : ∀ dir, slot.dir = some dir →
    ∃ manifest, dir.index = some (.manifest manifest) ∧ manifest.closedAt.isSome = true
  memory : ∀ state, slot.state = some state → state.manifest.closedAt.isSome = true

def Slot.Sound (slot : Slot) : Prop :=
  ∀ state, slot.state = some state → Chronological state.pending

variable {gzip : Gzip} {limits : Limits} {record : HistoryRecord}

section Terminal

variable {id : String} {slot slot' : Slot} {queued rest : List HistoryRecord} {through : Nat}
  {state : ArchiveState}

theorem stateFor_open (h : slot.state = some state) (now : Nat) :
    (stateFor id now slot).slot slot = slot := by
  rw [stateFor_warm h]
  unfold Effect.slot
  rw [runSteps_nil, ← h]

theorem Slot.Sound.opened (h : slot.Sound) {now : Nat}
    (hres : (stateFor id now slot).result = .ok state) : Chronological state.pending := by
  cases hstate : slot.state with
  | some open' =>
    rw [stateFor_warm hstate] at hres
    cases hres
    exact h state hstate
  | none =>
    obtain ⟨_, -, -, -, hopened⟩ := stateFor_cold hstate id now
    exact (hopened state hres).2.1

theorem flushTerminal_open (h : slot.state = some state) (now : Nat) :
    ∃ work : Work, work.Upkeep state ∧
      (flushTerminal gzip now slot).slot slot =
        ⟨runSteps FsStep.apply slot.dir work.steps, some work.state⟩ := by
  refine ⟨(flushState gzip now state).andThen enforceTerminalQuota,
    (flush_upkeep now state).andThen quota_upkeep, ?_⟩
  unfold Effect.slot flushTerminal Slot.work
  rw [h]

theorem flushTerminal_cold (h : slot.state = none) (now : Nat) :
    (flushTerminal gzip now slot).slot slot = slot := by
  unfold Effect.slot flushTerminal Slot.work
  rw [h]
  simp only [runSteps_nil, ← h]

theorem Slot.Sound.tends (h : slot.Sound) (htends : Tends gzip id slot slot') : slot'.Sound := by
  cases htends with
  | opened now hknown =>
    intro state hstate
    have hopened : (stateFor id now slot).result.toOption = some state := by
      rw [← stateFor_state]
      exact hstate
    cases hres : (stateFor id now slot).result with
    | error error =>
      rw [hres] at hopened
      cases hopened
    | ok opened =>
      rw [hres] at hopened
      cases hopened
      exact h.opened hres
  | flushed now =>
    cases hstate : slot.state with
    | none =>
      rw [flushTerminal_cold hstate]
      exact h
    | some state =>
      obtain ⟨work, hwork, hslot⟩ := @flushTerminal_open gzip slot state hstate now
      rw [hslot]
      intro after hafter
      cases hafter
      exact (h state hstate).sublist hwork.pending
  | evicted hcold =>
    intro state hstate
    cases hstate

theorem Reindexes.keeps {closedAt : Option Nat} {steps : List FsStep} {dir : Option ArchiveDir}
    {after : ArchiveDir} (h : Reindexes closedAt steps)
    (hrun : runSteps FsStep.apply dir steps = some after)
    (hindexed : dir.isSome = true → (dir.bind ArchiveDir.index).isSome = true) :
    after.index.isSome = true := by
  obtain ⟨before, rfl, hsame | ⟨manifest, hnew, -⟩⟩ := h dir after hrun
  · rw [hsame]
    exact hindexed rfl
  · rw [hnew]
    rfl

theorem Closable.tends (h : Closable id slot queued through)
    (htends : Tends gzip id slot slot') : Closable id slot' queued through := by
  cases htends with
  | opened now hknown =>
    cases hstate : slot.state with
    | some state =>
      rw [stateFor_open hstate]
      exact h
    | none =>
      obtain ⟨state, hres, hfew, hreach⟩ := h.opens now
      obtain ⟨after, hafter, hindex, -, -⟩ := stateFor_cold hstate id now
      have hopen : ((stateFor id now slot).slot slot).state = some state := by
        unfold Effect.slot
        rw [stateFor_state, hres]
        rfl
      constructor
      · intro _
        unfold Slot.index
        rw [hafter]
        exact hindex
      · intro now'
        rw [stateFor_warm hopen]
        refine ⟨state, rfl, hfew, ?_⟩
        rcases hreach with hzero | ⟨hwarm, -⟩ | hqueued
        · exact .inl hzero
        · rw [hstate] at hwarm
          cases hwarm
        · exact .inr (.inr hqueued)
  | flushed now =>
    cases hstate : slot.state with
    | none =>
      rw [flushTerminal_cold hstate]
      exact h
    | some state =>
      obtain ⟨work, hwork, hslot⟩ := @flushTerminal_open gzip slot state hstate now
      obtain ⟨state', hres, hfew, hreach⟩ := h.opens now
      rw [stateFor_warm hstate] at hres
      cases hres
      rw [hslot]
      constructor
      · intro hsome
        obtain ⟨after, hafter⟩ := isSome_iff_exists.mp hsome
        unfold Slot.index
        rw [hafter]
        exact hwork.index.keeps hafter h.indexed
      · intro now'
        rw [stateFor_warm rfl]
        have hshorter := hwork.pending.length_le
        refine ⟨work.state, rfl, by omega, ?_⟩
        rw [hwork.last, hwork.closedAt]
        rcases hreach with hzero | ⟨-, hlast⟩ | hqueued
        · exact .inl hzero
        · exact .inr (.inl ⟨rfl, hlast⟩)
        · exact .inr (.inr hqueued)
  | evicted hcold =>
    constructor
    · intro hsome
      cases hsome
    · intro now
      obtain ⟨state, hres, hfew, hreach⟩ := h.opens now
      refine ⟨⟨newManifest id now, [], 0⟩, ?_, ?_, ?_⟩
      · simp [stateFor, openManifest, readManifest, newManifest, openActiveSegment, payloadBytes]
      · simp only [length_nil]
        omega
      · rcases hreach with hzero | ⟨hwarm, -⟩ | ⟨hqueued, -⟩
        · exact .inl hzero
        · rw [hcold] at hwarm
          cases hwarm
        · exact .inr (.inr ⟨hqueued, .inl rfl⟩)

theorem Shut.tends (h : Shut slot) (htends : Tends gzip id slot slot') : Shut slot' := by
  cases htends with
  | opened now hknown =>
    cases hstate : slot.state with
    | some state =>
      rw [stateFor_open hstate]
      exact h
    | none =>
      obtain ⟨before, hbef⟩ : ∃ before, slot.dir = some before := by
        simpa [Slot.known, hstate, isSome_iff_exists] using hknown
      obtain ⟨manifest, hindex, hclosed⟩ := h.disk before hbef
      obtain ⟨after, hafter, -, hkept, hopened⟩ := stateFor_cold hstate id now
      have hindex' := hkept (.manifest manifest) (by rw [Slot.index, hbef]; exact hindex)
      constructor
      · intro dir hdir
        rw [hafter] at hdir
        cases hdir
        exact ⟨manifest, hindex', hclosed⟩
      · intro state hopen
        have hres : (stateFor id now slot).result.toOption = some state := by
          rw [← stateFor_state]
          exact hopen
        cases hcase : (stateFor id now slot).result with
        | error error =>
          rw [hcase] at hres
          cases hres
        | ok opened =>
          rw [hcase] at hres
          cases hres
          rw [(hopened state hcase).1] at hindex'
          cases hindex'
          exact hclosed
  | flushed now =>
    cases hstate : slot.state with
    | none =>
      rw [flushTerminal_cold hstate]
      exact h
    | some state =>
      obtain ⟨work, hwork, hslot⟩ := @flushTerminal_open gzip slot state hstate now
      have hclosed := h.memory state hstate
      rw [hslot]
      constructor
      · intro dir hdir
        obtain ⟨before, hbef, hsame | ⟨manifest, hnew, hsame⟩⟩ := hwork.index _ _ hdir
        · rw [hsame]
          exact h.disk before hbef
        · exact ⟨manifest, hnew, by rw [hsame]; exact hclosed⟩
      · intro after hafter
        cases hafter
        rw [hwork.closedAt]
        exact hclosed
  | evicted hcold =>
    constructor
    · intro dir hdir
      cases hdir
    · intro state hstate
      cases hstate

/-! ### Appends -/

/-- What an append does to an open archive. -/
structure Work.Appends (state : ArchiveState) (record : HistoryRecord) (work : Work) : Prop where
  last : state.lastSequence ≤ work.state.lastSequence
  takes : state.manifest.closedAt = none → record.sequence ≤ work.state.lastSequence
  closedAt : work.state.manifest.closedAt = state.manifest.closedAt
  pending : work.state.pending.Sublist (state.pending ++ [record])
  order : Chronological state.pending → record.Valid → Chronological work.state.pending
  index : Reindexes state.manifest.closedAt work.steps

theorem settle_upkeep (limits : Limits) (now : Nat) (state : ArchiveState) :
    (state.settle gzip limits now).Upkeep state := by
  unfold ArchiveState.settle
  split
  · exact (flush_upkeep now state).andThen quota_upkeep
  · exact upkeep_idle state _

theorem append_appends (limits : Limits) (id : String) (now : Nat) (record : HistoryRecord)
    (state : ArchiveState) : (state.append gzip limits id now record).Appends state record := by
  cases haccepts : state.accepts record with
  | false =>
    obtain ⟨error, hrefused⟩ := @append_refused gzip id state record haccepts limits now
    rw [hrefused]
    refine ⟨le_rfl, fun hopen => ?_, rfl, sublist_append_left _ _, fun h _ => h, reindexes_nil⟩
    simp only [ArchiveState.accepts, hopen, isNone_none, Bool.true_and,
      decide_eq_false_iff_not] at haccepts
    exact Nat.le_of_not_lt haccepts
  | true =>
    obtain ⟨hopen, hlater⟩ := Bool.and_eq_true_iff.mp haccepts
    have hlater := of_decide_eq_true hlater
    have hsettle := @settle_upkeep gzip limits now (state.appended now record)
    have hlast : (state.appended now record).lastSequence = record.sequence := by
      simp [ArchiveState.lastSequence, ArchiveState.newest?, ArchiveState.appended]
    have hsettl := hsettle.last.trans hlast
    rw [append_accepted haccepts, Work.andThen_ok]
    refine ⟨by simp only; omega, fun _ => hsettl.ge, hsettle.closedAt, hsettle.pending, ?_, ?_⟩
    · intro horder hvalid
      refine Chronological.sublist (horder.snoc hvalid ?_) hsettle.pending
      intro newest hnewest
      have hnewer : state.lastSequence = newest.sequence := by
        simp [ArchiveState.lastSequence, ArchiveState.newest?, hnewest]
      omega
    · refine (reindexes_quiet ?_).append hsettle.index
      intro step hstep
      obtain ⟨bytes, -, rfl⟩ := List.mem_map.mp hstep
      rfl

theorem appendOwned_opened {now : Nat} (hres : (stateFor id now slot).result = .ok state) :
    (appendOwned gzip limits id now record slot).slot slot =
      ⟨runSteps FsStep.apply ((stateFor id now slot).slot slot).dir
          (state.append gzip limits id now record).steps,
        some (state.append gzip limits id now record).state⟩ := by
  unfold appendOwned Effect.work Effect.slot
  rw [hres]
  simp only [runSteps_append]

theorem Closable.appended (h : Closable id slot (record :: rest) through) (now : Nat) :
    Closable id ((appendOwned gzip limits id now record slot).slot slot) rest
      through := by
  obtain ⟨state, hres, hfew, hreach⟩ := h.opens now
  have happend := @append_appends gzip limits id now record state
  rw [appendOwned_opened hres]
  constructor
  · intro hsome
    obtain ⟨after, hafter⟩ := isSome_iff_exists.mp hsome
    unfold Slot.index
    rw [hafter]
    refine happend.index.keeps hafter ?_
    cases hstate : slot.state with
    | some open' =>
      rw [stateFor_open hstate]
      exact h.indexed
    | none =>
      obtain ⟨made, hmade, hindex, -, -⟩ := stateFor_cold hstate id now
      rw [hmade]
      exact fun _ => hindex
  · intro now'
    rw [stateFor_warm rfl]
    have hlonger := happend.pending.length_le
    rw [length_append, length_singleton] at hlonger
    rw [length_cons] at hfew
    refine ⟨_, rfl, by omega, ?_⟩
    rcases hreach with hzero | ⟨-, hlast⟩ | ⟨⟨wanted, hmem, hwanted⟩, hfree⟩
    · exact .inl hzero
    · exact .inr (.inl ⟨rfl, hlast.trans happend.last⟩)
    rcases hfree with hopen | hlast
    · rcases mem_cons.mp hmem with rfl | hmem
      · exact .inr (.inl ⟨rfl, hwanted ▸ happend.takes hopen⟩)
      · exact .inr (.inr ⟨⟨wanted, hmem, hwanted⟩, .inl (happend.closedAt.trans hopen)⟩)
    · exact .inr (.inl ⟨rfl, hlast.trans happend.last⟩)

theorem Shut.appended (h : Shut slot) (hknown : slot.known = true) (now : Nat) :
    Shut ((appendOwned gzip limits id now record slot).slot slot) := by
  have hopened := h.tends (@Tends.opened gzip id slot now hknown)
  cases hres : (stateFor id now slot).result with
  | error error =>
    have hsame : (appendOwned gzip limits id now record slot).slot slot =
        (stateFor id now slot).slot slot := by
      unfold appendOwned Effect.work Effect.slot
      rw [hres]
    rw [hsame]
    exact hopened
  | ok state =>
    have hstate : ((stateFor id now slot).slot slot).state = some state := by
      unfold Effect.slot
      rw [stateFor_state, hres]
      rfl
    have hclosed := hopened.memory state hstate
    have hrefuses : state.accepts record = false := by
      simp [ArchiveState.accepts, isNone_eq_false_iff.mpr hclosed]
    obtain ⟨error, hrefused⟩ := @append_refused gzip id state record hrefuses limits now
    rw [appendOwned_opened hres, hrefused, runSteps_nil, ← hstate]
    exact hopened

theorem Slot.Sound.appended (h : slot.Sound) (hvalid : record.Valid) (now : Nat) :
    ((appendOwned gzip limits id now record slot).slot slot).Sound := by
  cases hres : (stateFor id now slot).result with
  | error error =>
    intro state hstate
    have hnone : (appendOwned gzip limits id now record slot).state = none := by
      unfold appendOwned Effect.work
      rw [hres]
      simp only
      rw [stateFor_state, hres]
      rfl
    rw [Effect.slot, hnone] at hstate
    cases hstate
  | ok state =>
    rw [appendOwned_opened hres]
    intro after hafter
    cases hafter
    exact (append_appends limits id now record state).order (h.opened hres) hvalid

/-! ### Closing -/

theorem flushState_ok (horder : Chronological state.pending)
    (hfew : state.pending.length ≤ maxBlockRecords) (now : Nat) :
    (flushState gzip now state).result = .ok () := by
  unfold flushState
  split
  · rfl
  rename_i hpend
  obtain ⟨encoded, henc⟩ := @encodeEach_ok _ 0 horder
    fun record hmem => (horder.valid record hmem).positive
  have hrecords : encodeRecords state.pending =
      .ok (blockHeader state.pending.length ++ encoded) := by
    unfold encodeRecords
    rw [if_neg (by push Not; exact ⟨hpend, hfew⟩), henc]
    rfl
  rw [hrecords]

theorem Work.andThen_steps {work : Work} (h : work.result = .ok ()) (next : ArchiveState → Work) :
    (work.andThen next).steps = work.steps ++ (next work.state).steps := by
  unfold Work.andThen
  rw [h]

theorem closeManifest_index {now : Nat} {dir : Option ArchiveDir} {after : ArchiveDir}
    (hrun : runSteps FsStep.apply dir
      ((enforceTerminalQuota state).andThen (closeManifest now)).steps = some after) :
    ∃ manifest, after.index = some (.manifest manifest) ∧ manifest.closedAt.isSome = true := by
  unfold enforceTerminalQuota at hrun
  simp only [Work.andThen_ok] at hrun
  unfold closeManifest at hrun
  split at hrun
  · rw [runSteps_append] at hrun
    exact ⟨_, (writeManifest_index hrun).2, rfl⟩
  rename_i hclosed
  rw [append_nil, runSteps_append] at hrun
  refine ⟨_, (writeManifest_index hrun).2, isSome_iff_ne_none.mpr ?_⟩
  simpa using hclosed

/-- A close that is served shuts the terminal. -/
theorem Closable.finalized (h : Closable id slot queued through) (hsound : slot.Sound)
    (now : Nat) : Shut ((finalizeTerminal gzip now slot).slot slot) := by
  obtain ⟨state, hres, hfew, -⟩ := h.opens now
  cases hstate : slot.state with
  | some open' =>
    rw [stateFor_warm hstate] at hres
    cases hres
    have hok := @flushState_ok gzip state (hsound state hstate) (by omega) now
    have hsteps : (finalizeTerminal gzip now slot).steps = (flushState gzip now state).steps ++
        ((enforceTerminalQuota (flushState gzip now state).state).andThen
          (closeManifest now)).steps := by
      unfold finalizeTerminal
      rw [hstate]
      simp only
      rw [Work.andThen_assoc, Work.andThen_steps hok]
    constructor
    · intro dir hdir
      unfold Effect.slot at hdir
      simp only [hsteps, runSteps_append] at hdir
      exact closeManifest_index hdir
    · intro after hafter
      unfold Effect.slot finalizeTerminal at hafter
      rw [hstate] at hafter
      cases hafter
  | none =>
    obtain ⟨opened, hopened, -, hkept, hread⟩ := stateFor_cold hstate id now
    have hmanifest := (hread state hres).1
    cases hdir : slot.dir with
    | none =>
      have hnothing : (finalizeTerminal gzip now slot).slot slot = ⟨none, none⟩ := by
        unfold Effect.slot finalizeTerminal
        rw [hstate]
        simp [readManifest, hdir]
      rw [hnothing]
      constructor
      · intro dir hdir
        cases hdir
      · intro state hstate
        cases hstate
    | some dir =>
      obtain ⟨index, hindex⟩ := isSome_iff_exists.mp (h.indexed (by rw [hdir]; rfl))
      have hsame := hkept index hindex
      rw [hmanifest] at hsame
      cases hsame
      have hread' : readManifest slot.dir = .ok (some state.manifest) := by
        unfold readManifest
        rw [show slot.dir.bind ArchiveDir.index = _ from hindex]
      have hslot : (finalizeTerminal gzip now slot).slot slot =
          ⟨runSteps FsStep.apply slot.dir (if state.manifest.closedAt.isNone then
            writeManifest { state.manifest with closedAt := some now } else []), none⟩ := by
        unfold Effect.slot finalizeTerminal
        rw [hstate]
        simp only [hread']
      rw [hslot]
      constructor
      · intro after hafter
        simp only at hafter
        split at hafter
        · exact ⟨_, (writeManifest_index hafter).2, rfl⟩
        rename_i hclosed
        rw [runSteps_nil] at hafter
        refine ⟨state.manifest, ?_, isSome_iff_ne_none.mpr (by simpa using hclosed)⟩
        rw [Slot.index, hafter] at hindex
        exact hindex
      · intro after hafter
        cases hafter

end Terminal

/-! ## Finalizing what is ready -/

namespace HistoryShared

section Finalize

variable {shared : HistoryShared} {entries : List (String × Nat)} {now : Nat}

@[simp] theorem slot_finalizeTerminal (shared : HistoryShared) (id other : String) :
    (shared.finalizeTerminal gzip now id).slot other =
      if other = id then
        (History.finalizeTerminal gzip now (shared.slot id)).slot (shared.slot id)
      else shared.slot other := by
  have hslot : (shared.finalizeTerminal gzip now id).slot other =
      (shared.perform id (History.finalizeTerminal gzip now (shared.slot id))).slot other := rfl
  rw [hslot]
  unfold perform
  rw [slot_recordResult, slot_setSlot]

@[simp] theorem pendingCloses_finalizeTerminal (shared : HistoryShared) (id : String) :
    (shared.finalizeTerminal gzip now id).pendingCloses =
      shared.pendingCloses.filter (· ≠ id) := by
  unfold finalizeTerminal perform
  simp [setSlot]

theorem writtenSequence_eq {shared shared' : HistoryShared} {terminalId : String}
    (h : shared'.slot terminalId = shared.slot terminalId) :
    shared'.writtenSequence terminalId = shared.writtenSequence terminalId := by
  unfold writtenSequence
  rw [h]

/-- Only the terminals of ready closes change, and each of them is finalized. -/
theorem finalizeReady_slot (hnodup : (entries.map Prod.fst).Nodup) (terminalId : String) :
    (shared.finalizeReady gzip now entries).1.slot terminalId = shared.slot terminalId ∧
        (∀ through, (terminalId, through) ∈ entries →
          shared.writtenSequence terminalId < through) ∨
      (shared.finalizeReady gzip now entries).1.slot terminalId =
          (History.finalizeTerminal gzip now (shared.slot terminalId)).slot
            (shared.slot terminalId) ∧
        ∃ through, (terminalId, through) ∈ entries ∧
          through ≤ shared.writtenSequence terminalId := by
  induction entries generalizing shared with
  | nil => exact .inl ⟨rfl, fun _ h => absurd h not_mem_nil⟩
  | cons entry rest ih =>
    obtain ⟨first, throughSequence⟩ := entry
    rw [map_cons, nodup_cons] at hnodup
    obtain ⟨hfirst, hrest⟩ := hnodup
    unfold finalizeReady
    split
    · rename_i hwaits
      rcases @ih shared hrest with ⟨hsame, hwait⟩ | ⟨hdone, through, hmem, hready⟩
      · refine .inl ⟨hsame, fun through hmem => ?_⟩
        rcases mem_cons.mp hmem with heq | hmem
        · cases heq
          exact hwaits
        · exact hwait through hmem
      · exact .inr ⟨hdone, through, mem_cons_of_mem _ hmem, hready⟩
    · rename_i hready
      have hafter := @ih (shared.finalizeTerminal gzip now first) hrest
      by_cases hsame : terminalId = first
      · subst hsame
        have hnone : ∀ through, (terminalId, through) ∉ rest := fun through hmem =>
          hfirst (List.mem_map.mpr ⟨_, hmem, rfl⟩)
        right
        rw [slot_finalizeTerminal, if_pos rfl] at hafter
        refine ⟨?_, throughSequence, mem_cons_self, Nat.le_of_not_lt hready⟩
        rcases hafter with ⟨hdone, -⟩ | ⟨-, through, hmem, -⟩
        · exact hdone
        · exact absurd hmem (hnone through)
      · have hslot : (shared.finalizeTerminal gzip now first).slot terminalId =
            shared.slot terminalId := by
          rw [slot_finalizeTerminal, if_neg hsame]
        rw [hslot, writtenSequence_eq hslot] at hafter
        rcases hafter with ⟨hdone, hwait⟩ | ⟨hdone, through, hmem, hready'⟩
        · refine .inl ⟨hdone, fun through hmem => hwait through ?_⟩
          rcases mem_cons.mp hmem with heq | hmem
          · cases heq
            exact absurd rfl hsame
          · exact hmem
        · exact .inr ⟨hdone, through, mem_cons_of_mem _ hmem, hready'⟩

theorem finalizeReady_waiting (hnodup : (entries.map Prod.fst).Nodup) :
    (shared.finalizeReady gzip now entries).2 =
      entries.filter fun entry => shared.writtenSequence entry.1 < entry.2 := by
  induction entries generalizing shared with
  | nil => rfl
  | cons entry rest ih =>
    obtain ⟨first, throughSequence⟩ := entry
    rw [map_cons, nodup_cons] at hnodup
    obtain ⟨hfirst, hrest⟩ := hnodup
    unfold finalizeReady
    split
    · rename_i hwaits
      rw [filter_cons_of_pos (by simpa using hwaits)]
      exact congrArg _ (@ih shared hrest)
    rename_i hready
    rw [filter_cons_of_neg (by simpa using hready), ih hrest]
    apply filter_congr
    intro entry hmem
    have hother : entry.1 ≠ first := fun heq =>
      hfirst (List.mem_map.mpr ⟨entry, hmem, heq⟩)
    have hslot : (shared.finalizeTerminal gzip now first).slot entry.1 = shared.slot entry.1 := by
      rw [slot_finalizeTerminal, if_neg hother]
    rw [writtenSequence_eq hslot]

theorem finalizeReady_pending {before : List String}
    (hnamed : shared.pendingCloses = before ++ entries.map Prod.fst)
    (hnodup : shared.pendingCloses.Nodup) :
    (shared.finalizeReady gzip now entries).1.pendingCloses =
      before ++ (shared.finalizeReady gzip now entries).2.map Prod.fst := by
  induction entries generalizing shared before with
  | nil => exact hnamed
  | cons entry rest ih =>
    obtain ⟨first, throughSequence⟩ := entry
    unfold finalizeReady
    split
    · have hrest := @ih shared (before ++ [first]) (by rw [hnamed]; simp) hnodup
      rw [hrest, append_assoc]
      rfl
    rw [hnamed, map_cons] at hnodup
    refine ih ?_ ?_
    · rw [pendingCloses_finalizeTerminal, hnamed]
      obtain ⟨-, hafter, hacross⟩ := nodup_append.mp hnodup
      have hrest := (nodup_cons.mp hafter).1
      rw [map_cons, filter_append, filter_cons_of_neg (by simp),
        filter_eq_self.mpr, filter_eq_self.mpr]
      · intro other hmem
        simpa using fun heq : other = first => hrest (heq ▸ hmem)
      · intro other hmem
        simpa using hacross other hmem first mem_cons_self
    · rw [pendingCloses_finalizeTerminal, hnamed]
      exact hnodup.filter _

end Finalize

end HistoryShared

/-! ## Runs -/

def IngestCommand.recordOf (terminalId : String) : IngestCommand → Option HistoryRecord
  | append target record => if target = terminalId then some record else none
  | _ => none

def queuedRecords (ingest : List IngestCommand) (terminalId : String) : List HistoryRecord :=
  ingest.filterMap (IngestCommand.recordOf terminalId)

/-- A new close is of a terminal whose close will be served, and an append that
comes after a close was served finds the archive that was closed. -/
def ClosesServed (archive : TerminalHistoryArchive) (action : Nat × HistoryAction) : Prop :=
  match action.2 with
  | .closeTerminal terminalId => archive.newClose terminalId = true →
      Closable terminalId (archive.shared.slot terminalId)
        (queuedRecords archive.ingest terminalId) (archive.shared.accepted terminalId)
  | .receive => ∀ terminalId record rest, archive.ingest = .append terminalId record :: rest →
      terminalId ∈ archive.closed → terminalId ∉ archive.shared.pendingCloses →
      (archive.shared.slot terminalId).known = true
  | _ => True

def NoNewClose (archive : TerminalHistoryArchive) (action : Nat × HistoryAction) : Prop :=
  match action.2 with
  | .closeTerminal terminalId => archive.newClose terminalId = false
  | _ => True

/-- What is so between two steps: every close that waits will be served, and
what was closed and does not wait is shut. -/
structure ClosesSound (shared : HistoryShared) (ingest : List IngestCommand)
    (entries : List (String × Nat)) (closed : List String) : Prop where
  named : shared.pendingCloses = entries.map Prod.fst
  distinct : shared.pendingCloses.Nodup
  closable : ∀ terminalId through, (terminalId, through) ∈ entries →
    Closable terminalId (shared.slot terminalId) (queuedRecords ingest terminalId) through
  shut : ∀ terminalId ∈ closed, terminalId ∉ shared.pendingCloses → Shut (shared.slot terminalId)
  sound : ∀ terminalId, (shared.slot terminalId).Sound
  valid : ∀ terminalId record, .append terminalId record ∈ ingest → record.Valid

def TerminalHistoryArchive.ClosesSound (archive : TerminalHistoryArchive) : Prop :=
  History.ClosesSound archive.shared archive.ingest (archive.closes ++ archive.finalize)
    archive.closed

variable {archive archive' : TerminalHistoryArchive}

section Sound

variable {shared shared' : HistoryShared} {ingest : List IngestCommand}
  {entries : List (String × Nat)} {closed : List String} {terminalId : String}

theorem upkeep_keeps {P : Slot → Prop} {slot slot' : Slot}
    (htended : Relation.ReflTransGen (Tends gzip terminalId) slot slot')
    (hstep : ∀ slot slot', Tends gzip terminalId slot slot' → P slot → P slot') (h : P slot) :
    P slot' := by
  induction htended with
  | refl => exact h
  | tail _ hnext ih => exact hstep _ _ hnext ih

section

variable (h : ClosesSound shared ingest entries closed)
include h

theorem ClosesSound.tended
    (htended : shared.Tended gzip shared') : ClosesSound shared' ingest entries closed := by
  refine ⟨htended.pendingCloses.trans h.named, htended.pendingCloses ▸ h.distinct, ?_, ?_, ?_,
    h.valid⟩
  · intro terminalId through hmem
    refine upkeep_keeps
      (P := fun slot => Closable terminalId slot (queuedRecords ingest terminalId) through)
      (htended.slots terminalId) ?_ (h.closable terminalId through hmem)
    exact fun _ _ htends hclosable => hclosable.tends htends
  · intro terminalId hclosed hpend
    rw [htended.pendingCloses] at hpend
    refine upkeep_keeps (htended.slots terminalId) ?_ (h.shut terminalId hclosed hpend)
    exact fun _ _ htends hshut => hshut.tends htends
  · intro terminalId
    refine upkeep_keeps (htended.slots terminalId) ?_ (h.sound terminalId)
    exact fun _ _ htends hsound => hsound.tends htends

theorem ClosesSound.frame (hpend : shared'.pendingCloses = shared.pendingCloses)
    (hslots : ∀ id, shared'.slot id = shared.slot id) :
    ClosesSound shared' ingest entries closed := by
  refine ⟨hpend.trans h.named, hpend ▸ h.distinct, ?_, ?_, ?_, h.valid⟩
  · intro id through hmem
    rw [hslots]
    exact h.closable id through hmem
  · intro id hclosed hpend'
    rw [hslots]
    exact h.shut id hclosed (hpend ▸ hpend')
  · intro id
    rw [hslots]
    exact h.sound id

theorem ClosesSound.requeue {ingest' : List IngestCommand} (hqueued : ∀ id ∈ shared.pendingCloses,
      queuedRecords ingest' id = queuedRecords ingest id)
    (hvalid : ∀ id record, .append id record ∈ ingest' → record.Valid) :
    ClosesSound shared ingest' entries closed := by
  refine { h with closable := ?_, valid := hvalid }
  intro id through hmem
  have hpend : id ∈ shared.pendingCloses := h.named ▸ List.mem_map.mpr ⟨_, hmem, rfl⟩
  rw [hqueued id hpend]
  exact h.closable id through hmem

end

/-- Finalizing what is ready. -/
theorem ClosesSound.finalizeReady (h : ClosesSound shared ingest entries closed) (now : Nat) :
    ClosesSound (shared.finalizeReady gzip now entries).1 ingest
      (shared.finalizeReady gzip now entries).2 closed := by
  have hnodup : (entries.map Prod.fst).Nodup := h.named ▸ h.distinct
  have hwaiting := @HistoryShared.finalizeReady_waiting gzip shared entries now hnodup
  have hpend := @HistoryShared.finalizeReady_pending gzip shared entries now []
    (by rw [h.named]; rfl) h.distinct
  rw [nil_append] at hpend
  have hslot := @HistoryShared.finalizeReady_slot gzip shared entries now hnodup
  refine ⟨hpend, ?_, ?_, ?_, ?_, h.valid⟩
  · rw [hpend, hwaiting]
    exact hnodup.sublist (filter_sublist.map _)
  · intro terminalId through hmem
    rw [hwaiting, mem_filter] at hmem
    obtain ⟨hmem, hwaits⟩ := hmem
    have hwaits := of_decide_eq_true hwaits
    rcases hslot terminalId with ⟨hsame, -⟩ | ⟨-, through', hmem', hready⟩
    · rw [hsame]
      exact h.closable terminalId through hmem
    have hthrough := inj_on_of_nodup_map hnodup hmem hmem' rfl
    simp only [Prod.mk.injEq, true_and] at hthrough
    simp only at hwaits
    omega
  · intro terminalId hclosed hgone
    rcases hslot terminalId with ⟨hsame, hwait⟩ | ⟨hdone, through, hmem, -⟩
    · rw [hsame]
      refine h.shut terminalId hclosed fun hpend' => hgone ?_
      rw [h.named] at hpend'
      obtain ⟨⟨id, through⟩, hmem, rfl⟩ := List.mem_map.mp hpend'
      rw [hpend, hwaiting]
      exact List.mem_map.mpr ⟨(id, through), mem_filter.mpr
        ⟨hmem, by simpa using hwait through hmem⟩, rfl⟩
    · rw [hdone]
      exact (h.closable terminalId through hmem).finalized (h.sound terminalId) now
  · intro terminalId
    rcases hslot terminalId with ⟨hsame, -⟩ | ⟨hdone, through, hmem, -⟩
    · rw [hsame]
      exact h.sound terminalId
    rw [hdone]
    intro state hstate
    unfold Effect.slot History.finalizeTerminal at hstate
    split at hstate
    · cases hstate
    · split at hstate <;> cases hstate

theorem TerminalHistoryArchive.ClosesSound.drain (h : archive.ClosesSound) (now : Nat) :
    (archive.drain gzip now).ClosesSound := by
  have hready := @ClosesSound.finalizeReady gzip _ _ _ _ h now
  unfold TerminalHistoryArchive.ClosesSound TerminalHistoryArchive.drain
  rw [append_nil]
  exact hready

theorem settleAll_tended (archive : TerminalHistoryArchive) (now : Nat) :
    (archive.drain gzip now).shared.Tended gzip (archive.settleAll gzip now).shared := by
  have hflushed := @HistoryShared.tended_flushLive gzip now (archive.drain gzip now).shared
  unfold TerminalHistoryArchive.settleAll
  simp only
  exact ((hflushed.trans (HistoryShared.tended_recordResult _ _)).trans
    (HistoryShared.tended_enforceTotalQuota _)).trans (HistoryShared.tended_recordResult _ _)

theorem TerminalHistoryArchive.ClosesSound.settleAll (h : archive.ClosesSound) (now : Nat) :
    (archive.settleAll gzip now).ClosesSound :=
  ClosesSound.tended (h.drain now) (settleAll_tended archive now)

theorem TerminalHistoryArchive.ClosesSound.reply (h : archive.ClosesSound) (call : HistoryCall) :
    (archive.reply call).ClosesSound :=
  ClosesSound.frame h rfl fun _ => rfl

theorem TerminalHistoryArchive.ClosesSound.finish (h : archive.ClosesSound) {call : HistoryCall} {now : Nat}
    (hstep : archive.finish gzip limits now call = some archive') : archive'.ClosesSound := by
  unfold TerminalHistoryArchive.finish at hstep
  split at hstep
  · cases hstep
  simp only at hstep
  split at hstep
  · cases hstep
    exact h
  · cases hstep
    exact ClosesSound.tended h (HistoryShared.tended_read limits now archive.shared _ _)
  · cases hstep
    exact h
  · cases hstep
    exact ClosesSound.tended h (HistoryShared.tended_flushLive now archive.shared)

/-- The owner appends to a terminal. -/
theorem ClosesSound.appendOwned {rest : List IngestCommand}
    (h : ClosesSound shared (.append terminalId record :: rest) entries closed)
    (hknown : terminalId ∈ closed → terminalId ∉ shared.pendingCloses →
      (shared.slot terminalId).known = true) (now : Nat) :
    ClosesSound (shared.appendOwned gzip limits now terminalId record) rest entries closed := by
  have hslot : ∀ other, (shared.appendOwned gzip limits now terminalId record).slot other =
      if other = terminalId then
        (History.appendOwned gzip limits terminalId now record (shared.slot terminalId)).slot
          (shared.slot terminalId)
      else shared.slot other := by
    intro other
    unfold HistoryShared.appendOwned HistoryShared.perform
    simp
  have hpend : (shared.appendOwned gzip limits now terminalId record).pendingCloses =
      shared.pendingCloses := by
    unfold HistoryShared.appendOwned HistoryShared.perform
    simp [HistoryShared.setSlot]
  refine ⟨hpend.trans h.named, hpend ▸ h.distinct, ?_, ?_, ?_, ?_⟩
  · intro other through hmem
    have hclosable := h.closable other through hmem
    rw [hslot]
    split
    · rename_i hother
      subst hother
      have hqueued : queuedRecords (.append other record :: rest) other =
          record :: queuedRecords rest other := by
        simp [queuedRecords, IngestCommand.recordOf]
      rw [hqueued] at hclosable
      exact hclosable.appended now
    · rename_i hother
      have hqueued : queuedRecords (.append terminalId record :: rest) other =
          queuedRecords rest other := by
        simp [queuedRecords, IngestCommand.recordOf, Ne.symm hother]
      rw [hqueued] at hclosable
      exact hclosable
  · intro other hclosed hgone
    rw [hpend] at hgone
    rw [hslot]
    split
    · rename_i hother
      subst hother
      exact (h.shut other hclosed hgone).appended (hknown hclosed hgone) now
    · exact h.shut other hclosed hgone
  · intro other
    rw [hslot]
    split
    · exact (h.sound terminalId).appended (h.valid terminalId record mem_cons_self) now
    · exact h.sound other
  · exact fun other record' hmem => h.valid other record' (mem_cons_of_mem _ hmem)

theorem queuedRecords_append (ingest : List IngestCommand) (command : IngestCommand) (id : String) :
    queuedRecords (ingest ++ [command]) id =
      queuedRecords ingest id ++ (command.recordOf id).toList := by
  unfold queuedRecords
  rw [filterMap_append]
  cases hrecord : command.recordOf id <;> simp [hrecord]

theorem takes_spec (h : archive.takes terminalId record = true) :
    record.Valid ∧ terminalId ∉ archive.shared.pendingCloses ∧
      archive.shared.accepted terminalId < record.sequence := by
  simp only [TerminalHistoryArchive.takes, Bool.and_eq_true, Bool.not_eq_true',
    contains_eq_mem, decide_eq_false_iff_not, decide_eq_true_eq] at h
  exact ⟨HistoryRecord.ingested_valid h.1.1, h.1.2, h.2⟩

section

variable (h : archive.ClosesSound)
include h

theorem TerminalHistoryArchive.ClosesSound.append
    (hstep : archive.append terminalId record = some archive') : archive'.ClosesSound := by
  unfold TerminalHistoryArchive.append at hstep
  split at hstep
  · rename_i htakes
    obtain ⟨hvalid, hfree, -⟩ := takes_spec htakes
    obtain ⟨-, hstep⟩ := ite_none_right_eq_some.mp hstep
    cases hstep
    have hacc : History.ClosesSound (archive.shared.accept terminalId record.sequence)
        archive.ingest (archive.closes ++ archive.finalize) archive.closed :=
      ClosesSound.frame h rfl fun _ => rfl
    refine ClosesSound.requeue hacc ?_ ?_
    · intro other hpend
      have hother : terminalId ≠ other := fun heq => hfree (heq ▸ hpend)
      rw [queuedRecords_append]
      simp [IngestCommand.recordOf, hother]
    · intro other record' hmem
      rcases mem_append.mp hmem with hmem | hmem
      · exact h.valid other record' hmem
      · cases mem_singleton.mp hmem
        exact hvalid
  · cases hstep
    exact h

theorem TerminalHistoryArchive.ClosesSound.send {call : HistoryCall}
    (hstep : archive.send call.command = some archive') : archive'.ClosesSound := by
  obtain ⟨-, hstep⟩ := ite_none_right_eq_some.mp hstep
  cases hstep
  refine ClosesSound.requeue h ?_ ?_
  · intro other _
    rw [queuedRecords_append]
    cases call <;> simp [HistoryCall.command, IngestCommand.recordOf]
  · intro other record hmem
    rcases mem_append.mp hmem with hmem | hmem
    · exact h.valid other record hmem
    · cases call <;> cases mem_singleton.mp hmem

theorem TerminalHistoryArchive.ClosesSound.closeTerminal
    (hserved : archive.newClose terminalId = true →
      Closable terminalId (archive.shared.slot terminalId)
        (queuedRecords archive.ingest terminalId) (archive.shared.accepted terminalId)) :
    (archive.closeTerminal terminalId).ClosesSound := by
  unfold TerminalHistoryArchive.closeTerminal
  split
  · rename_i hnew
    have hclosable := hserved hnew
    have hfree : terminalId ∉ archive.shared.pendingCloses := by
      simp only [TerminalHistoryArchive.newClose, Bool.and_eq_true, Bool.not_eq_true',
        contains_eq_mem, decide_eq_false_iff_not] at hnew
      exact hnew.1
    refine ⟨?_, ?_, ?_, ?_, h.sound, h.valid⟩
    · simp only [h.named, map_append, append_assoc]
      rfl
    · exact h.distinct.append (nodup_singleton _) (by simpa using hfree)
    · intro other through hmem
      simp only at hmem
      rw [← append_assoc] at hmem
      rcases mem_append.mp hmem with hmem | hmem
      · exact h.closable other through hmem
      · cases mem_singleton.mp hmem
        exact hclosable
    · intro other hclosed hgone
      simp only [mem_append, mem_singleton, not_or] at hclosed hgone
      rcases hclosed with hclosed | rfl
      · exact h.shut other hclosed hgone.1
      · exact absurd rfl hgone.2
  · exact h

theorem closes_step {action : Nat × HistoryAction} (hserved : ClosesServed archive action)
    (hstep : (archiveSystem gzip limits).step archive action = some archive') :
    archive'.ClosesSound := by
  obtain ⟨now, action⟩ := action
  cases action with
  | append terminalId record => exact h.append hstep
  | closeTerminal terminalId =>
    cases hstep
    exact h.closeTerminal hserved
  | call call => exact h.send hstep
  | finish call => exact h.finish hstep
  | drain =>
    cases hstep
    exact h.drain now
  | receive =>
    simp only [archiveSystem, archiveStep] at hstep
    split at hstep
    · cases hstep
    rename_i command rest hingest
    have hsound : History.ClosesSound archive.shared (command :: rest)
        (archive.closes ++ archive.finalize) archive.closed := hingest ▸ h
    cases hstep
    cases command with
    | append terminalId record =>
      exact hsound.appendOwned (fun hclosed hfree =>
        hserved terminalId record rest hingest hclosed hfree) now
    | snapshot call =>
      have hrest : History.ClosesSound archive.shared rest
          (archive.closes ++ archive.finalize) archive.closed :=
        hsound.requeue (fun _ _ => rfl) fun other record hmem =>
          hsound.valid other record (mem_cons_of_mem _ hmem)
      exact @TerminalHistoryArchive.ClosesSound.reply { archive with ingest := rest } hrest call
    | barrier call =>
      have hrest : History.ClosesSound archive.shared rest
          (archive.closes ++ archive.finalize) archive.closed :=
        hsound.requeue (fun _ _ => rfl) fun other record hmem =>
          hsound.valid other record (mem_cons_of_mem _ hmem)
      have hsettl := @TerminalHistoryArchive.ClosesSound.settleAll gzip
        { archive with ingest := rest } hrest now
      exact hsettl.reply call

end

theorem closes_reachable (hrun : (archiveSystem gzip limits).Run ClosesServed archive) :
    archive.ClosesSound := by
  apply hrun.invariant
  · rintro start ⟨slots, hcold, rfl⟩
    refine ⟨rfl, nodup_nil, ?_, ?_, ?_, ?_⟩
    · intro terminalId through hmem
      cases hmem
    · intro terminalId hclosed
      cases hclosed
    · intro terminalId state hstate
      have hnone : (TerminalHistoryArchive.opened slots).shared.slot terminalId =
          (slots.get? terminalId).getD ⟨none, none⟩ := rfl
      rw [hnone] at hstate
      cases hslot : slots.get? terminalId with
      | none =>
        rw [hslot] at hstate
        cases hstate
      | some slot =>
        rw [hslot] at hstate
        rw [getD_some, hcold terminalId slot hslot] at hstate
        cases hstate
    · intro terminalId record hmem
      cases hmem
  · exact fun _ _ _ h hserved hstep => closes_step h hserved hstep

end Sound

/-! ## Barriers -/

/-- No close is left anywhere, and what was closed is shut. -/
structure TerminalHistoryArchive.Finalized (archive : TerminalHistoryArchive) : Prop where
  pendingCloses : archive.shared.pendingCloses = []
  waiting : archive.closes = [] ∧ archive.finalize = []
  shut : ∀ terminalId ∈ archive.closed, Shut (archive.shared.slot terminalId)

/-- The barrier of a call is in the mailbox, and nothing behind it is an append
to a terminal that is closing. -/
def TerminalHistoryArchive.Awaits (archive : TerminalHistoryArchive) (call : HistoryCall) : Prop :=
  ∃ before after, archive.ingest = before ++ .barrier call :: after ∧
    ∀ terminalId record, .append terminalId record ∈ after →
      terminalId ∉ archive.shared.pendingCloses

section Barriers

variable {call : HistoryCall} {now : Nat}

theorem queuedRecords_eq_nil {ingest : List IngestCommand} {terminalId : String} :
    queuedRecords ingest terminalId = [] ↔ ∀ record, .append terminalId record ∉ ingest := by
  unfold queuedRecords
  rw [filterMap_eq_nil_iff]
  constructor
  · intro h record hmem
    have hnone := h _ hmem
    simp [IngestCommand.recordOf] at hnone
  · intro h command hmem
    cases command with
    | append target record =>
      have htgt : target ≠ terminalId := fun heq => h record (heq ▸ hmem)
      simp [IngestCommand.recordOf, htgt]
    | _ => rfl

theorem Closable.written {shared : HistoryShared} {terminalId : String} {through : Nat}
    (h : Closable terminalId (shared.slot terminalId) [] through) :
    through ≤ shared.writtenSequence terminalId := by
  obtain ⟨state, -, -, hzero | ⟨hwarm, hlast⟩ | ⟨⟨record, hmem, -⟩, -⟩⟩ := h.opens 0
  · omega
  · unfold HistoryShared.writtenSequence
    rw [hwarm]
    exact hlast
  · cases hmem

theorem barrier_finalizes (h : archive.ClosesSound)
    (hfree : ∀ terminalId record, .append terminalId record ∈ archive.ingest →
      terminalId ∉ archive.shared.pendingCloses) :
    (archive.settleAll gzip now).closes = [] ∧ (archive.settleAll gzip now).finalize = [] := by
  have hnodup : ((archive.closes ++ archive.finalize).map Prod.fst).Nodup := h.named ▸ h.distinct
  have hwaiting := @HistoryShared.finalizeReady_waiting gzip archive.shared _ now hnodup
  have hcloses : (archive.settleAll gzip now).closes = (archive.shared.finalizeReady gzip now
      (archive.closes ++ archive.finalize)).2 := rfl
  refine ⟨?_, rfl⟩
  rw [hcloses, hwaiting, filter_eq_nil_iff]
  rintro ⟨terminalId, through⟩ hmem
  have hclosable := h.closable terminalId through hmem
  have hnone : queuedRecords archive.ingest terminalId = [] := by
    rw [queuedRecords_eq_nil]
    intro record hmem'
    exact hfree terminalId record hmem' (h.named ▸ List.mem_map.mpr ⟨_, hmem, rfl⟩)
  rw [hnone] at hclosable
  have hready := hclosable.written
  simp only [decide_eq_true_eq]
  omega

theorem drain_pending (h : archive.ClosesSound) {id : String}
    (hpend : id ∈ (archive.drain gzip now).shared.pendingCloses) :
    id ∈ archive.shared.pendingCloses := by
  have hnodup : ((archive.closes ++ archive.finalize).map Prod.fst).Nodup := h.named ▸ h.distinct
  have hafter := @HistoryShared.finalizeReady_pending gzip archive.shared _ now []
    (by rw [h.named]; rfl) h.distinct
  have hwaiting := @HistoryShared.finalizeReady_waiting gzip archive.shared _ now hnodup
  rw [nil_append, hwaiting] at hafter
  have hmem : id ∈ (archive.shared.finalizeReady gzip now
      (archive.closes ++ archive.finalize)).1.pendingCloses := hpend
  rw [hafter] at hmem
  rw [h.named]
  exact (filter_sublist.map Prod.fst).subset hmem

theorem settleAll_pending (h : archive.ClosesSound) {id : String}
    (hpend : id ∈ (archive.settleAll gzip now).shared.pendingCloses) :
    id ∈ archive.shared.pendingCloses := by
  rw [(@settleAll_tended gzip archive now).pendingCloses] at hpend
  exact drain_pending h hpend

/-- A step moves the mailbox on, and no close becomes pending in it. -/
structure Advances (archive archive' : TerminalHistoryArchive) : Prop where
  pending : ∀ terminalId ∈ archive'.shared.pendingCloses,
    terminalId ∈ archive.shared.pendingCloses
  ingest : archive'.ingest = archive.ingest ∨
    (∃ command, archive'.ingest = archive.ingest ++ [command] ∧
      ∀ terminalId record, command = .append terminalId record →
        terminalId ∉ archive.shared.pendingCloses) ∨
    ∃ command, archive.ingest = command :: archive'.ingest ∧
      ∀ call, command = .barrier call →
        (∀ terminalId record, .append terminalId record ∈ archive'.ingest →
          terminalId ∉ archive.shared.pendingCloses) → archive'.closes = [] ∧ archive'.finalize = []

theorem finish_advances
    (hstep : archive.finish gzip limits now call = some archive') : Advances archive archive' := by
  unfold TerminalHistoryArchive.finish at hstep
  split at hstep
  · cases hstep
  simp only at hstep
  split at hstep
  · cases hstep
    exact ⟨fun _ h => h, .inl rfl⟩
  · cases hstep
    refine ⟨fun _ h => ?_, .inl rfl⟩
    simp only at h
    rw [(@HistoryShared.tended_read gzip limits now archive.shared _ _).pendingCloses] at h
    exact h
  · cases hstep
    exact ⟨fun _ h => h, .inl rfl⟩
  · cases hstep
    refine ⟨fun _ h => ?_, .inl rfl⟩
    simp only at h
    rw [(@HistoryShared.tended_flushLive gzip now archive.shared).pendingCloses] at h
    exact h

theorem appendOwned_pending (shared : HistoryShared) (id : String) (record : HistoryRecord) :
    (shared.appendOwned gzip limits now id record).pendingCloses =
      shared.pendingCloses := by
  unfold HistoryShared.appendOwned HistoryShared.perform
  simp [HistoryShared.setSlot]

theorem step_advances (h : archive.ClosesSound) {action : Nat × HistoryAction}
    (hnone : NoNewClose archive action)
    (hstep : (archiveSystem gzip limits).step archive action = some archive') :
    Advances archive archive' := by
  obtain ⟨now, action⟩ := action
  cases action with
  | append terminalId record =>
    unfold archiveSystem archiveStep TerminalHistoryArchive.append at hstep
    simp only at hstep
    split at hstep
    · rename_i htakes
      obtain ⟨-, hstep⟩ := ite_none_right_eq_some.mp hstep
      cases hstep
      refine ⟨fun _ h => h, .inr (.inl ⟨_, rfl, ?_⟩)⟩
      intro target record' heq
      cases heq
      exact (takes_spec htakes).2.1
    · cases hstep
      exact ⟨fun _ h => h, .inl rfl⟩
  | closeTerminal terminalId =>
    cases hstep
    have hsame : archive.closeTerminal terminalId = archive := by
      unfold TerminalHistoryArchive.closeTerminal
      rw [if_neg (by rw [show archive.newClose terminalId = false from hnone]; decide)]
    rw [hsame]
    exact ⟨fun _ h => h, .inl rfl⟩
  | call call =>
    obtain ⟨-, hstep⟩ := ite_none_right_eq_some.mp hstep
    cases hstep
    refine ⟨fun _ h => h, .inr (.inl ⟨_, rfl, ?_⟩)⟩
    intro target record heq
    cases call <;> cases heq
  | finish call => exact finish_advances hstep
  | drain =>
    cases hstep
    exact ⟨fun _ hpend => drain_pending h hpend, .inl rfl⟩
  | receive =>
    simp only [archiveSystem, archiveStep] at hstep
    split at hstep
    · cases hstep
    rename_i command rest hingest
    cases hstep
    cases command with
    | append terminalId record =>
      refine ⟨fun _ hpend => ?_, .inr (.inr ⟨_, hingest, fun call heq => by cases heq⟩)⟩
      exact appendOwned_pending archive.shared terminalId record ▸ hpend
    | snapshot call =>
      exact ⟨fun _ h => h, .inr (.inr ⟨_, hingest, fun call heq => by cases heq⟩)⟩
    | barrier call =>
      have hrest : ({ archive with ingest := rest } : TerminalHistoryArchive).ClosesSound :=
        ClosesSound.requeue h (fun other _ => by rw [hingest]; rfl) fun other record hmem =>
          h.valid other record (hingest ▸ mem_cons_of_mem _ hmem)
      refine ⟨fun _ hpend => settleAll_pending hrest hpend,
        .inr (.inr ⟨_, hingest, fun _ _ hfree => ?_⟩)⟩
      exact barrier_finalizes hrest hfree

theorem awaits_step {action : Nat × HistoryAction}
    (h : archive.ClosesSound ∧ (archive.Awaits call ∨ archive.shared.pendingCloses = []))
    (hallow : ClosesServed archive action ∧ NoNewClose archive action)
    (hstep : (archiveSystem gzip limits).step archive action = some archive') :
    archive'.ClosesSound ∧ (archive'.Awaits call ∨ archive'.shared.pendingCloses = []) := by
  obtain ⟨hsound, hwhere⟩ := h
  have hsound' := closes_step hsound hallow.1 hstep
  have hadvances := step_advances hsound hallow.2 hstep
  refine ⟨hsound', ?_⟩
  rcases hwhere with ⟨before, after, hingest, hfree⟩ | hnone
  · have hfree' : ∀ terminalId record, .append terminalId record ∈ after →
        terminalId ∉ archive'.shared.pendingCloses := fun terminalId record hmem hpend =>
      hfree terminalId record hmem (hadvances.pending terminalId hpend)
    rcases hadvances.ingest with hsame | ⟨command, hsent, hclosing⟩ | ⟨command, htaken, hbarrier⟩
    · exact .inl ⟨before, after, hsame.trans hingest, hfree'⟩
    · refine .inl ⟨before, after ++ [command], by rw [hsent, hingest]; simp, ?_⟩
      intro terminalId record hmem hpend
      rcases mem_append.mp hmem with hmem | hmem
      · exact hfree' terminalId record hmem hpend
      · exact hclosing terminalId record (mem_singleton.mp hmem).symm
          (hadvances.pending terminalId hpend)
    · cases before with
      | nil =>
        rw [hingest, nil_append] at htaken
        cases htaken
        obtain ⟨hcloses, hfinalize⟩ := hbarrier call rfl hfree
        right
        rw [hsound'.named, hcloses, hfinalize]
        rfl
      | cons first before =>
        rw [hingest, cons_append] at htaken
        exact .inl ⟨before, after, (cons_eq_cons.mp htaken).2.symm, hfree'⟩
  · right
    rw [eq_nil_iff_forall_not_mem]
    intro terminalId hpend
    have hold := hadvances.pending terminalId hpend
    rw [hnone] at hold
    cases hold

/-- Once the barrier of a flush is served that was called after every close,
nothing is left of the closes, whatever came between. -/
theorem closes_finalized {called : TerminalHistoryArchive} {ticket : Nat}
    (hrun : (archiveSystem gzip limits).Run ClosesServed archive)
    (hcall : (archiveSystem gzip limits).step archive (now, .call (.flushAll ticket)) =
      some called)
    (hpath : (archiveSystem gzip limits).Path
      (fun archive action => ClosesServed archive action ∧ NoNewClose archive action) called
      archive')
    (hserved : .barrier (.flushAll ticket) ∉ archive'.ingest) : archive'.Finalized := by
  have hsound := closes_reachable (hrun.next (a := (now, .call (.flushAll ticket))) trivial hcall)
  have hstart : called.Awaits (.flushAll ticket) := by
    obtain ⟨-, hcall⟩ := ite_none_right_eq_some.mp hcall
    cases hcall
    exact ⟨archive.ingest, [], rfl, fun _ _ hmem => absurd hmem not_mem_nil⟩
  have hend : archive'.ClosesSound ∧
      (archive'.Awaits (.flushAll ticket) ∨ archive'.shared.pendingCloses = []) := by
    refine hpath.invariant (P := fun archive => archive.ClosesSound ∧
      (archive.Awaits (.flushAll ticket) ∨ archive.shared.pendingCloses = []))
      ⟨hsound, .inl hstart⟩ ?_
    exact fun _ _ _ h hallow hstep => awaits_step h hallow hstep
  obtain ⟨hsound', hwhere⟩ := hend
  have hnone : archive'.shared.pendingCloses = [] := by
    rcases hwhere with ⟨before, after, hingest, -⟩ | hnone
    · refine absurd ?_ hserved
      rw [hingest]
      exact mem_append_right _ mem_cons_self
    · exact hnone
  have hnamed := hsound'.named
  rw [hnone] at hnamed
  refine ⟨hnone, append_eq_nil_iff.mp (map_eq_nil_iff.mp hnamed.symm), ?_⟩
  intro terminalId hclosed
  refine hsound'.shut terminalId hclosed ?_
  rw [hnone]
  exact not_mem_nil

end Barriers

/-! ## A terminal that is closed twice -/

/-- A terminal is closed when it exits and again when it is disposed; in between
the first close is served. -/
def closedTwice : List (Nat × HistoryAction) :=
  [(0, .append "t" sampleRecord), (0, .receive), (0, .closeTerminal "t"), (0, .drain),
    (0, .closeTerminal "t")]

def flushServed : List (Nat × HistoryAction) := [(0, .receive), (0, .finish (.flushAll 0))]

/-- The second close is never served. -/
theorem close_stranded :
    ∃ archive called archive', (archiveSystem plainGzip ⟨4, 4⟩).Reachable archive ∧
      (archiveSystem plainGzip ⟨4, 4⟩).step archive (0, .call (.flushAll 0)) = some called ∧
      (archiveSystem plainGzip ⟨4, 4⟩).Path NoNewClose called archive' ∧
      archive'.ingest = [] ∧ archive'.flushes.length = 1 ∧
      archive'.shared.pendingCloses = ["t"] ∧ archive'.closes = [("t", 1)] := by
  let sys := archiveSystem plainGzip ⟨4, 4⟩
  have hrun : ((sys.replay (fun _ _ => true) (.opened .empty)
      (closedTwice ++ (0, .call (.flushAll 0)) :: flushServed)).map fun archive =>
        (archive.closes, archive.shared.pendingCloses, archive.flushes.length,
          archive.ingest.length)) = some ([("t", 1)], ["t"], 1, 0) := by
    decide +kernel
  obtain ⟨archive', hrpl, hends⟩ := map_eq_some_iff.mp hrun
  rw [System.replay_append] at hrpl
  obtain ⟨archive, hbef, hafter⟩ := bind_eq_some_iff.mp hrpl
  obtain ⟨-, hcall⟩ := ite_none_right_eq_some.mp hafter
  obtain ⟨called, hcalled, hserved⟩ := bind_eq_some_iff.mp hcall
  have hstart : sys.Reachable (.opened .empty) :=
    System.Run.start ⟨.empty, (fun _ _ h => by cases h), rfl⟩
  have hpath : sys.Path NoNewClose called archive' := by
    refine System.replay_path ?_ hserved
    intro s a hmem _
    simp only [flushServed, mem_cons, not_mem_nil, or_false] at hmem
    rcases hmem with rfl | rfl <;> trivial
  simp only [Prod.mk.injEq] at hends
  refine ⟨archive, called, archive', System.replay_run hstart (fun _ _ _ _ => trivial) hbef,
    hcalled, hpath, ?_, hends.2.2.1, hends.2.1, hends.1⟩
  exact length_eq_zero_iff.mp hends.2.2.2

/-- A terminal that is closed while it is in memory. -/
theorem closes_finalized_sample :
    ∃ archive, archive.closed = ["t"] ∧ TerminalHistoryArchive.Finalized archive := by
  have hstart : (archiveSystem plainGzip ⟨4, 4⟩).Run ClosesServed (.opened .empty) :=
    System.Run.start ⟨.empty, (fun _ _ h => by cases h), rfl⟩
  have happended := @System.Run.next _ _ _ _ _ _ ((0, .append "t" sampleRecord) :
    Nat × HistoryAction) hstart (by trivial) rfl
  have hwrt := @System.Run.next _ _ _ _ _ _ ((0, .receive) : Nat × HistoryAction) happended
    (by intro _ _ _ _ hclosed; cases hclosed) rfl
  have hclosed := @System.Run.next _ _ _ _ _ _ ((0, .closeTerminal "t") : Nat × HistoryAction)
    hwrt (by
      intro _
      exact ⟨fun _ => by decide, fun _ => ⟨_, rfl, by decide, .inr (.inl ⟨rfl, by decide⟩)⟩⟩) rfl
  have hfinalized := @closes_finalized _ _ _ _ 0 _ 0 hclosed rfl
    (System.Path.next (a := ((0, .receive) : Nat × HistoryAction)) .refl
      (by
        refine ⟨?_, trivial⟩
        intro _ _ _ hingest
        cases hingest) rfl) (by decide)
  exact ⟨_, rfl, hfinalized⟩

end Yaade.History

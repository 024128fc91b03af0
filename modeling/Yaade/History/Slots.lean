import Yaade.History.Stored
import Yaade.History.Owner

/-!
What the operations of the owner do to one terminal: to the sequences and the
records in memory, and to the index on disk.
-/

namespace Yaade.History

open Yaade.Library List Option

/-! ## The index on disk -/

def Slot.index (slot : Slot) : Option IndexFile := slot.dir.bind ArchiveDir.index

/-- Steps in a directory that is there; they leave its index alone, or end with
an index that is closed as said. -/
def Reindexes (closedAt : Option Nat) (steps : List FsStep) : Prop :=
  ∀ dir after, runSteps FsStep.apply dir steps = some after →
    ∃ before, dir = some before ∧ (after.index = before.index ∨
      ∃ manifest, after.index = some (.manifest manifest) ∧ manifest.closedAt = closedAt)

def FsStep.quiet : FsStep → Bool
  | .createDir | .renameIndex => false
  | _ => true

section Index

variable {closedAt : Option Nat} {steps more : List FsStep} {dir : Option ArchiveDir}
  {after : ArchiveDir}

theorem reindexes_nil : Reindexes closedAt [] := by
  intro dir after hrun
  exact ⟨after, hrun, .inl rfl⟩

theorem Reindexes.append (h : Reindexes closedAt steps) (hmore : Reindexes closedAt more) :
    Reindexes closedAt (steps ++ more) := by
  intro dir after hrun
  rw [runSteps_append] at hrun
  obtain ⟨between, hbetween, hafter⟩ := hmore _ _ hrun
  obtain ⟨before, hbef, hindex⟩ := h _ _ hbetween
  refine ⟨before, hbef, ?_⟩
  rcases hafter with hsame | hnew
  · rw [hsame]
    exact hindex
  · exact .inr hnew

theorem FsStep.quiet_index {step : FsStep} (h : step.quiet = true) (dir : ArchiveDir) :
    (dir.apply step).index = dir.index := by
  cases step with
  | createDir => cases h
  | renameIndex => cases h
  | renameFile source target =>
    unfold ArchiveDir.apply
    simp only
    split <;> rfl
  | _ => rfl

theorem runSteps_quiet (h : ∀ step ∈ steps, step.quiet = true)
    (hrun : runSteps FsStep.apply dir steps = some after) :
    ∃ before, dir = some before ∧ after.index = before.index := by
  induction steps generalizing dir with
  | nil => exact ⟨after, hrun, rfl⟩
  | cons step rest ih =>
    have hquiet := h step mem_cons_self
    obtain ⟨next, hnext, hindex⟩ := ih (fun s hs => h s (mem_cons_of_mem step hs)) hrun
    have hmap : FsStep.apply dir step = dir.map fun dir => dir.apply step := by
      cases step with
      | createDir => cases hquiet
      | _ => rfl
    obtain ⟨before, hbef, happly⟩ := map_eq_some_iff.mp (hmap ▸ hnext)
    exact ⟨before, hbef, by rw [hindex, ← happly, FsStep.quiet_index hquiet]⟩

theorem runSteps_some (before : ArchiveDir) (steps : List FsStep) :
    ∃ after, runSteps FsStep.apply (some before) steps = some after := by
  induction steps generalizing before with
  | nil => exact ⟨before, rfl⟩
  | cons step rest ih =>
    cases step with
    | createDir => exact ih before
    | _ => exact ih _

theorem reindexes_quiet (h : ∀ step ∈ steps, step.quiet = true) : Reindexes closedAt steps := by
  intro dir after hrun
  obtain ⟨before, hbef, hindex⟩ := runSteps_quiet h hrun
  exact ⟨before, hbef, .inl hindex⟩

theorem writeManifest_index {manifest : ArchiveManifest}
    (hrun : runSteps FsStep.apply dir (writeManifest manifest) = some after) :
    dir.isSome = true ∧ after.index = some (.manifest manifest) := by
  cases dir with
  | none => cases hrun
  | some before =>
    cases hrun
    exact ⟨rfl, rfl⟩

theorem reindexes_writeManifest (manifest : ArchiveManifest) :
    Reindexes manifest.closedAt (writeManifest manifest) := by
  intro dir after hrun
  obtain ⟨hsome, hindex⟩ := writeManifest_index hrun
  obtain ⟨before, hbef⟩ := isSome_iff_exists.mp hsome
  exact ⟨before, hbef, .inr ⟨manifest, hindex, rfl⟩⟩

end Index

/-! ## The state in memory -/

/-- Upkeep of an open archive. -/
structure Work.Upkeep (state : ArchiveState) (work : Work) : Prop where
  last : work.state.lastSequence = state.lastSequence
  closedAt : work.state.manifest.closedAt = state.manifest.closedAt
  pending : work.state.pending.Sublist state.pending
  index : Reindexes state.manifest.closedAt work.steps

variable {state : ArchiveState} {gzip : Gzip}

section Upkeep

variable {work : Work}

theorem upkeep_idle (state : ArchiveState) (result : Except HistoryError Unit) :
    (⟨result, state, []⟩ : Work).Upkeep state :=
  ⟨rfl, rfl, .refl _, reindexes_nil⟩

theorem Work.Upkeep.andThen {next : ArchiveState → Work} (h : work.Upkeep state)
    (hnext : ∀ state, (next state).Upkeep state) : (work.andThen next).Upkeep state := by
  unfold Work.andThen
  split
  · exact { h with }
  have hafter := hnext work.state
  refine ⟨hafter.last.trans h.last, hafter.closedAt.trans h.closedAt,
    hafter.pending.trans h.pending, h.index.append ?_⟩
  rw [← h.closedAt]
  exact hafter.index

theorem flush_upkeep (now : Nat) (state : ArchiveState) :
    (flushState gzip now state).Upkeep state := by
  unfold flushState
  split
  · exact upkeep_idle state _
  rename_i hpend
  split
  · exact upkeep_idle state _
  obtain ⟨last, hlast, -⟩ := lastOf_mem hpend
  refine ⟨?_, rfl, nil_sublist _, ?_⟩
  · unfold ArchiveState.lastSequence ArchiveState.newest?
    simp [hlast]
  · refine ((reindexes_quiet ?_).append (reindexes_writeManifest _)).append
      (reindexes_quiet ?_) <;> simp [resetActive, FsStep.quiet]

theorem quota_upkeep (state : ArchiveState) : (enforceTerminalQuota state).Upkeep state := by
  obtain ⟨hblocks, hkept⟩ :=
    overQuota_append (storedBytes state.manifest.blocks) state.manifest.blocks
  unfold enforceTerminalQuota
  generalize overQuota (storedBytes state.manifest.blocks) state.manifest.blocks = split at *
  obtain ⟨evicted, kept⟩ := split
  simp only at hblocks hkept ⊢
  refine ⟨?_, rfl, .refl _, ?_⟩
  · unfold ArchiveState.lastSequence ArchiveState.newest?
    simp only
    cases hnone : state.manifest.blocks with
    | nil =>
      rw [hnone] at hblocks
      rw [(append_eq_nil_iff.mp hblocks).2]
    | cons block rest =>
      rw [← hnone, ← hblocks, getLast?_append_of_ne_nil _ (hkept (by simp [hnone]))]
  · refine (reindexes_quiet ?_).append (reindexes_writeManifest _)
    intro step hstep
    obtain ⟨block, -, rfl⟩ := List.mem_map.mp hstep
    rfl

end Upkeep

/-! ## Opening -/

section Opening

variable {id : String} {slot : Slot} {now : Nat}

theorem nextActive_valid {previous : Nat} {bytes after : List UInt8} {record : HistoryRecord}
    (h : nextActive previous bytes = some (record, after)) :
    record.Valid ∧ previous < record.sequence := by
  unfold nextActive at h
  obtain ⟨hlength, h⟩ := ite_none_left_eq_some.mp h
  obtain ⟨hfields, h⟩ := ite_none_left_eq_some.mp h
  simp only [Option.some.injEq, Prod.mk.injEq] at h
  obtain ⟨rfl, -⟩ := h
  push Not at hfields
  obtain ⟨hpositive, hprev, hnonem, hshort, hthere, -⟩ := hfields
  have hbound := ofBytes_lt (bytes.take 8)
  have hwidth : (bytes.take 8).length = 8 := by
    rw [length_take]
    unfold activeRecordHeaderBytes at hlength
    omega
  rw [hwidth] at hbound
  have hpay : ((bytes.drop activeRecordHeaderBytes).take
      (ofBytes ((bytes.drop 8).take 4))).length = ofBytes ((bytes.drop 8).take 4) := by
    rw [length_take]
    omega
  refine ⟨⟨by simp only; omega, by simp only; omega, ?_, by simp only; omega⟩, hprev⟩
  intro hnil
  simp only at hnil
  rw [hnil] at hpay
  exact hnonem hpay.symm

theorem scanActive_chronological (fuel previous : Nat) (bytes : List UInt8) :
    Chronological (scanActive fuel previous bytes).1 ∧
      ∀ record ∈ (scanActive fuel previous bytes).1, previous < record.sequence := by
  induction fuel generalizing previous bytes with
  | zero => exact ⟨chronological_nil, fun _ h => absurd h not_mem_nil⟩
  | succ fuel ih =>
    unfold scanActive
    split
    · exact ⟨chronological_nil, fun _ h => absurd h not_mem_nil⟩
    rename_i record after hnext
    obtain ⟨hvalid, hprev⟩ := nextActive_valid hnext
    obtain ⟨hrest, hafter⟩ := ih record.sequence after
    refine ⟨⟨?_, pairwise_cons.mpr ⟨hafter, hrest.increasing⟩⟩, ?_⟩
    · intro other hother
      rcases mem_cons.mp hother with rfl | hother
      · exact hvalid
      · exact hrest.valid other hother
    · intro other hother
      rcases mem_cons.mp hother with rfl | hother
      · exact hprev
      · have hlater := hafter other hother
        omega

theorem Chronological.sublist {records some : List HistoryRecord} (h : Chronological records)
    (hsome : some.Sublist records) : Chronological some :=
  ⟨fun record hmem => h.valid record (hsome.subset hmem), h.increasing.sublist hsome⟩

theorem openActiveSegment_spec (active : Option (List UInt8)) (blockSequence : Nat) :
    (∀ step ∈ (openActiveSegment active blockSequence).2, step.quiet = true) ∧
      ∀ pending, (openActiveSegment active blockSequence).1 = .ok pending →
        Chronological pending := by
  unfold openActiveSegment
  split
  · refine ⟨by simp [FsStep.quiet], ?_⟩
    intro pending h
    cases h
    exact chronological_nil
  split
  · exact ⟨by simp [FsStep.quiet], fun pending h => by cases h⟩
  simp only
  refine ⟨?_, ?_⟩
  · split <;> simp [FsStep.quiet]
  · intro pending h
    cases h
    exact (scanActive_chronological _ _ _).1.sublist filter_sublist

theorem openManifest_spec (id : String) (now : Nat) (dir : Option ArchiveDir) :
    match openManifest id now dir with
    | (.error _, steps) => (dir.bind ArchiveDir.index).isSome = true ∧ steps = []
    | (.ok manifest, steps) =>
      (dir.bind ArchiveDir.index = some (.manifest manifest) ∧ steps = []) ∨
        (dir.bind ArchiveDir.index = none ∧ manifest.closedAt = none ∧
          steps = writeManifest manifest) := by
  unfold openManifest readManifest
  cases hindex : dir.bind ArchiveDir.index with
  | none => exact .inr ⟨rfl, rfl, rfl⟩
  | some index =>
    cases index with
    | corrupt message => exact ⟨rfl, rfl⟩
    | manifest manifest =>
      simp only
      split
      · rename_i hversion
        split at hversion <;> cases hversion
        exact ⟨rfl, rfl⟩
      · rename_i hversion
        split at hversion <;> cases hversion
        exact .inl ⟨rfl, rfl⟩

theorem stateFor_state (id : String) (now : Nat) (slot : Slot) :
    (stateFor id now slot).state = (stateFor id now slot).result.toOption := by
  unfold stateFor
  split
  · rfl
  split
  · rfl
  split
  · rfl
  · split <;> rfl

theorem openManifest_index (id : String) (now : Nat) (dir : Option ArchiveDir) :
    ∃ after, runSteps FsStep.apply dir (.createDir :: (openManifest id now dir).2) =
        some after ∧ after.index.isSome = true ∧
      (∀ index, dir.bind ArchiveDir.index = some index → after.index = some index) ∧
      ∀ manifest, (openManifest id now dir).1 = .ok manifest →
        after.index = some (.manifest manifest) ∧
          (dir.bind ArchiveDir.index = none → manifest.closedAt = none) := by
  have hmade : ∀ steps, runSteps FsStep.apply dir (.createDir :: steps) =
      runSteps FsStep.apply (some (dir.getD .empty)) steps := fun _ => rfl
  have hindex : (dir.getD .empty).index = dir.bind ArchiveDir.index := by
    cases dir <;> rfl
  have hspec := openManifest_spec id now dir
  generalize openManifest id now dir = found at *
  obtain ⟨result, steps⟩ := found
  cases result with
  | error error =>
    obtain ⟨hsome, rfl⟩ := hspec
    refine ⟨_, hmade [], by rw [hindex]; exact hsome, fun index h => by rw [hindex, h], ?_⟩
    intro manifest h
    cases h
  | ok manifest =>
    rcases hspec with ⟨hread, rfl⟩ | ⟨hnone, hopen, rfl⟩
    · refine ⟨_, hmade [], by rw [hindex, hread]; rfl, fun index h => by rw [hindex, h], ?_⟩
      intro manifest' h
      cases h
      refine ⟨by rw [hindex, hread], fun hnone => ?_⟩
      rw [hnone] at hread
      cases hread
    · obtain ⟨after, hafter⟩ := runSteps_some (dir.getD .empty) (writeManifest manifest)
      have hwrt := (writeManifest_index hafter).2
      refine ⟨after, (hmade _).trans hafter, by rw [hwrt]; rfl, fun index h => ?_, ?_⟩
      · rw [hnone] at h
        cases h
      · intro manifest' h
        cases h
        exact ⟨hwrt, fun _ => hopen⟩

/-- The directory of a terminal once it is opened. -/
theorem stateFor_cold (hcold : slot.state = none) (id : String) (now : Nat) :
    ∃ after, ((stateFor id now slot).slot slot).dir = some after ∧
      after.index.isSome = true ∧ (∀ index, slot.index = some index → after.index = some index) ∧
      ∀ state, (stateFor id now slot).result = .ok state →
        after.index = some (.manifest state.manifest) ∧ Chronological state.pending ∧
          (slot.index = none → state.manifest.closedAt = none) := by
  obtain ⟨after, hrun, hsome, hkept, hnew⟩ := openManifest_index id now slot.dir
  unfold Effect.slot stateFor
  rw [hcold]
  simp only
  generalize openManifest id now slot.dir = found at *
  obtain ⟨result, steps⟩ := found
  simp only at hrun hnew ⊢
  cases result with
  | error error =>
    refine ⟨after, hrun, hsome, hkept, ?_⟩
    intro state h
    cases h
  | ok manifest =>
    simp only
    split
    · refine ⟨after, hrun, hsome, hkept, ?_⟩
      intro state h
      cases h
    obtain ⟨hquiet, hpend⟩ :=
      openActiveSegment_spec (slot.dir.bind ArchiveDir.active) manifest.blockSequence
    generalize openActiveSegment (slot.dir.bind ArchiveDir.active) manifest.blockSequence =
      segment at *
    obtain ⟨read, more⟩ := segment
    simp only at hquiet hpend
    obtain ⟨last, hlast⟩ := runSteps_some after more
    obtain ⟨before, hbef, hindex⟩ := runSteps_quiet hquiet hlast
    cases hbef
    have hall : runSteps FsStep.apply slot.dir (.createDir :: steps ++ more) = some last := by
      rw [runSteps_append, hrun, hlast]
    cases read with
    | error error =>
      refine ⟨last, hall, by rw [hindex]; exact hsome, fun index h => ?_, ?_⟩
      · rw [hindex, hkept index h]
      · intro state h
        cases h
    | ok pending =>
      refine ⟨last, hall, by rw [hindex]; exact hsome, fun index h => ?_, ?_⟩
      · rw [hindex, hkept index h]
      · intro state h
        cases h
        exact ⟨by rw [hindex]; exact (hnew manifest rfl).1, hpend pending rfl,
          (hnew manifest rfl).2⟩

theorem stateFor_warm (hwarm : slot.state = some state) (id : String) (now : Nat) :
    stateFor id now slot = ⟨.ok state, some state, []⟩ := by
  unfold stateFor
  rw [hwarm]

end Opening

/-! ## Upkeep of a terminal -/

/-- What happens to a terminal apart from appends and closes. -/
inductive Tends (gzip : Gzip) (terminalId : String) : Slot → Slot → Prop where
  | opened {slot : Slot} (now : Nat) (hknown : slot.known = true) :
      Tends gzip terminalId slot ((stateFor terminalId now slot).slot slot)
  | flushed {slot : Slot} (now : Nat) :
      Tends gzip terminalId slot ((flushTerminal gzip now slot).slot slot)
  | evicted {slot : Slot} (hcold : slot.state = none) : Tends gzip terminalId slot ⟨none, none⟩

/-- Nothing but upkeep of the terminals, and no close. -/
structure HistoryShared.Tended (gzip : Gzip) (shared shared' : HistoryShared) : Prop where
  pendingCloses : shared'.pendingCloses = shared.pendingCloses
  slots : ∀ terminalId, Relation.ReflTransGen (Tends gzip terminalId) (shared.slot terminalId)
    (shared'.slot terminalId)

namespace HistoryShared

section Tended

variable {shared shared' shared'' : HistoryShared} {terminalId : String}

section

variable (shared : HistoryShared)

@[simp] theorem slot_setSlot (id other : String) (slot : Slot) :
    (shared.setSlot id slot).slot other =
      if other = id then slot else shared.slot other := by
  unfold setSlot HistoryShared.slot
  rw [IndexMap.get?_insert]
  split <;> rfl

@[simp] theorem slot_recordResult (result : Except HistoryError Unit)
    (terminalId : String) : (shared.recordResult result).slot terminalId = shared.slot terminalId := by
  cases result <;> rfl

@[simp] theorem pendingCloses_recordResult (result : Except HistoryError Unit) :
    (shared.recordResult result).pendingCloses = shared.pendingCloses := by
  cases result <;> rfl

@[simp] theorem slot_learn (opened : String) (now : Nat)
    (terminalId : String) : (shared.learn opened now).slot terminalId = shared.slot terminalId := by
  unfold learn
  simp only
  split
  · rfl
  split
  · rfl
  · split <;> rfl

@[simp] theorem pendingCloses_learn (opened : String) (now : Nat) :
    (shared.learn opened now).pendingCloses = shared.pendingCloses := by
  unfold learn
  simp only
  split
  · rfl
  split
  · rfl
  · split <;> rfl

theorem Tended.refl : shared.Tended gzip shared :=
  ⟨rfl, fun _ => .refl⟩

end

theorem Tended.trans (h : Tended gzip shared shared') (h' : Tended gzip shared' shared'') :
    Tended gzip shared shared'' :=
  ⟨h'.pendingCloses.trans h.pendingCloses, fun terminalId => (h.slots terminalId).trans
    (h'.slots terminalId)⟩

theorem tended_recordResult (shared : HistoryShared) (result : Except HistoryError Unit) :
    shared.Tended gzip (shared.recordResult result) := by
  refine ⟨pendingCloses_recordResult shared result, fun terminalId => ?_⟩
  rw [slot_recordResult]

theorem tended_setSlot {slot : Slot} (h : Tends gzip terminalId (shared.slot terminalId) slot) :
    shared.Tended gzip (shared.setSlot terminalId slot) := by
  refine ⟨rfl, fun other => ?_⟩
  rw [slot_setSlot]
  split
  · rename_i hother
    rw [hother]
    exact .single h
  · exact .refl

theorem tended_flushEach (now : Nat) (shared : HistoryShared) (ids : List String) :
    shared.Tended gzip (shared.flushEach gzip now ids).2 := by
  induction ids generalizing shared with
  | nil => exact .refl shared
  | cons terminalId rest ih =>
    have hflushed := tended_setSlot (@Tends.flushed gzip terminalId (shared.slot terminalId) now)
    unfold flushEach
    simp only
    split
    · exact hflushed
    · exact hflushed.trans (ih _)

theorem tended_evictArchives (shared : HistoryShared) (total : Nat)
    (archives : List StoredArchive) : shared.Tended gzip (shared.evictArchives total archives) := by
  induction archives generalizing shared total with
  | nil => exact .refl shared
  | cons archive rest ih =>
    unfold evictArchives
    split
    · exact .refl shared
    split
    · exact ih shared total
    · rename_i hcold
      exact (tended_setSlot (.evicted (by simpa using hcold))).trans (ih _ _)

theorem tended_enforceTotalQuota (shared : HistoryShared) :
    shared.Tended gzip shared.enforceTotalQuota.2 := by
  unfold enforceTotalQuota
  split
  · exact .refl shared
  · exact tended_evictArchives shared _ _

theorem tended_flushLive (now : Nat) (shared : HistoryShared) :
    shared.Tended gzip (shared.flushLive gzip now).2 := by
  have hflushed := @tended_flushEach gzip now shared (shared.slots.entries.map Prod.fst)
  unfold flushLive
  split
  · rename_i heq
    rw [heq] at hflushed
    exact hflushed
  · rename_i after heq
    rw [heq] at hflushed
    exact hflushed.trans (tended_enforceTotalQuota after)

theorem tended_read (limits : Limits) (now : Nat) (shared : HistoryShared) (id : String)
    (query : HistoryQuery) : shared.Tended gzip (shared.read gzip limits now id query).2 := by
  unfold read
  simp only
  split
  · rename_i hknown
    have hlearned : shared.Tended gzip (shared.learn id now) :=
      ⟨pendingCloses_learn shared id now, fun other => by rw [slot_learn]⟩
    refine hlearned.trans (tended_setSlot ?_)
    rw [slot_learn]
    exact .opened now hknown
  · exact .refl shared

end Tended

end HistoryShared

end Yaade.History

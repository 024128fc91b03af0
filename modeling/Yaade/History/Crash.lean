import Yaade.History.Stored
import Yaade.Library.Transition

/-!
Runs of one archive with crashes after any file system step.
-/

namespace Yaade.History

open Yaade.Library List Option

inductive ArchiveCall where
  | stateFor
  | appendOwned (record : HistoryRecord)
  | flushState
  | enforceTerminalQuota
  | finalizeTerminal

section

variable (gzip : Gzip) (limits : Limits) (terminalId : String)

def ArchiveCall.effect (now : Nat) (slot : Slot) : ArchiveCall → Effect Unit
  | stateFor => (History.stateFor terminalId now slot).work fun state => ⟨.ok (), state, []⟩
  | appendOwned record => History.appendOwned gzip limits terminalId now record slot
  | flushState => slot.work (History.flushState gzip now)
  | enforceTerminalQuota => slot.work History.enforceTerminalQuota
  | finalizeTerminal => History.finalizeTerminal gzip now slot

def ArchiveCall.writes (now : Nat) (slot : Slot) (done : List FsStep) :
    ArchiveCall → List HistoryRecord
  | appendOwned record =>
    let opened := History.stateFor terminalId now slot
    match opened.result with
    | .error _ => []
    | .ok state =>
      if state.accepts record ∧ opened.steps.length + 4 ≤ done.length then [record] else []
  | _ => []

def ArchiveCall.completes (now : Nat) (slot : Slot) : ArchiveCall → List HistoryRecord
  | appendOwned record =>
    match (History.appendOwned gzip limits terminalId now record slot).result with
    | .ok () => [record]
    | .error _ => []
  | _ => []

/-- The terminal, the records that were written, those whose append ended
well, and the files that the quota removed. -/
structure CrashWorld where
  slot : Slot
  written : List HistoryRecord
  completed : List HistoryRecord
  removed : List String

/-- A call that is done, or cut short after some steps. -/
structure CrashAction where
  call : ArchiveCall
  now : Nat
  crash : Option Nat

def ArchiveCall.enabled : ArchiveCall → Bool
  | appendOwned record => record.ingested
  | _ => true

def CrashAction.done (slot : Slot) (action : CrashAction) : List FsStep :=
  let steps := (action.call.effect gzip limits terminalId action.now slot).steps
  match action.crash with
  | none => steps
  | some count => steps.take count

def crashSystem : System CrashWorld CrashAction where
  initial world := world = ⟨⟨none, none⟩, [], [], []⟩
  step world action :=
    if action.call.enabled then
      let effect := action.call.effect gzip limits terminalId action.now world.slot
      let done := action.done gzip limits terminalId world.slot
      some
        { slot := ⟨runSteps FsStep.apply world.slot.dir done,
            if action.crash.isNone then effect.state else none⟩
          written := world.written ++ action.call.writes terminalId action.now world.slot done
          completed := world.completed ++ if action.crash.isNone then
            action.call.completes gzip limits terminalId action.now world.slot else []
          removed := world.removed ++ removedFiles done }
    else none

/-- No crash between the removal of a block and the index that does not list it. -/
def IndexFollows (world : CrashWorld) (action : CrashAction) : Prop :=
  PublishesRemovals (action.done gzip limits terminalId world.slot)

end

def IndexListed (dir : Option ArchiveDir) : Prop :=
  ∀ d manifest, dir = some d → d.index = some (.manifest manifest) →
    ∀ block ∈ manifest.blocks, d.files.contains block.file = true

def readRecords (gzip : Gzip) (dir : Option ArchiveDir) (state : ArchiveState) :
    Except HistoryError (List HistoryRecord) := do
  let groups ← state.manifest.blocks.mapM (readBlock gzip dir)
  .ok (groups.flatten ++ state.pending)

def readAgain (gzip : Gzip) (terminalId : String) (now : Nat) (dir : Option ArchiveDir) :
    Except HistoryError (List HistoryRecord) := do
  let opened := stateFor terminalId now ⟨dir, none⟩
  let state ← opened.result
  readRecords gzip (runSteps FsStep.apply dir opened.steps) state

/-! ## What a run keeps -/

variable {gzip : Gzip} {limits : Limits} {id : String} {kept : List HistoryRecord}

section Kept

variable {dir : ArchiveDir} {state : ArchiveState} {groups : List (List HistoryRecord)}
  {slot : Slot}

/-- The records of a terminal, open or not. -/
inductive SlotHolds (gzip : Gzip) (terminalId : String) (kept : List HistoryRecord) :
    Slot → Prop where
  | cold {dir : Option ArchiveDir} (h : Holds gzip terminalId kept dir) :
      SlotHolds gzip terminalId kept ⟨dir, none⟩
  | warm {dir : ArchiveDir} {state : ArchiveState} {groups : List (List HistoryRecord)}
      (h : Live gzip terminalId dir state groups) (hkept : kept = groups.flatten ++ state.pending) :
      SlotHolds gzip terminalId kept ⟨some dir, some state⟩

/-- An effect on a terminal keeps its records, with those that the steps done
have added, wherever it is cut short. -/
structure Effect.Keeps (gzip : Gzip) (terminalId : String) (slot : Slot)
    (kept : List HistoryRecord) (added : List FsStep → List HistoryRecord)
    (effect : Effect Unit) : Prop where
  survives : Survives FsStep.apply PublishesRemovals
    (fun done => Sheds gzip terminalId (kept ++ added done) done) slot.dir effect.steps
  ends : ∃ (gone : List (List HistoryRecord)) (rest : List HistoryRecord),
    removedFiles effect.steps = gone.map groupFile ∧
    kept ++ added effect.steps = gone.flatten ++ rest ∧
    SlotHolds gzip terminalId rest (effect.slot slot)

theorem SlotHolds.holds (h : SlotHolds gzip id kept slot) : Holds gzip id kept slot.dir := by
  cases h with
  | cold h => exact h
  | warm h hkept => exact hkept ▸ h.holds

theorem SlotHolds.opened (h : SlotHolds gzip id kept slot) (now : Nat) :
    Survives FsStep.apply PublishesRemovals (Sheds gzip id kept) slot.dir
        (stateFor id now slot).steps ∧
      removedFiles (stateFor id now slot).steps = [] ∧
      ∃ state after groups, (stateFor id now slot).result = .ok state ∧
        runSteps FsStep.apply slot.dir (stateFor id now slot).steps = some after ∧
        Live gzip id after state groups ∧ kept = groups.flatten ++ state.pending := by
  cases h with
  | cold h =>
    obtain ⟨hsurvives, hnone, state, after, groups, hres, -, hafter, hlive, hkept⟩ :=
      stateFor_holds h now
    exact ⟨hsurvives, hnone, state, after, groups, hres, hafter, hlive, hkept⟩
  | warm h hkept =>
    refine ⟨.nil ((hkept ▸ h.holds).sheds rfl), rfl, _, _, _, rfl, rfl, h, hkept⟩

theorem Effect.work_keeps {opened : Effect ArchiveState} {operation : ArchiveState → Work}
    (hsurvives : Survives FsStep.apply PublishesRemovals (Sheds gzip id kept) slot.dir
      opened.steps) (hnone : removedFiles opened.steps = []) (hres : opened.result = .ok state)
    (hafter : runSteps FsStep.apply slot.dir opened.steps = some dir)
    (hwork : (operation state).Keeps gzip id dir kept) :
    (opened.work operation).Keeps gzip id slot kept fun _ => [] := by
  obtain ⟨gone, last, groups, hgone, hlast, hlive, hall⟩ := hwork.live
  unfold Effect.work
  rw [hres]
  constructor
  · simp only [append_nil]
    refine Survives.append publishesRemovals_tailed hsurvives ?_
    rw [hafter]
    refine hwork.survives.mono ?_
    rintro done d - ⟨more, rest, hmore, hrest, hholds⟩
    refine ⟨more, rest, ?_, hrest, hholds⟩
    rw [removedFiles_append, hnone, nil_append, hmore]
  · refine ⟨gone, groups.flatten ++ (operation state).state.pending, ?_, ?_, ?_⟩
    · rw [removedFiles_append, hnone, nil_append, hgone]
    · rw [append_nil, hall]
    · unfold Effect.slot
      simp only
      rw [runSteps_append, hafter, hlast]
      exact .warm hlive rfl

section

variable (h : SlotHolds gzip id kept slot)
include h

theorem stateFor_keeps (now : Nat) :
    (ArchiveCall.stateFor.effect gzip limits id now slot).Keeps gzip id slot kept
      fun _ => [] := by
  obtain ⟨hsurvives, hnone, state, after, groups, hres, hafter, hlive, hkept⟩ := h.opened now
  apply Effect.work_keeps hsurvives hnone hres hafter
  rw [hkept]
  exact hlive.idle _

theorem appendOwned_keeps (now : Nat) {record : HistoryRecord} (hvalid : record.Valid) :
    (appendOwned gzip limits id now record slot).Keeps gzip id slot kept
      fun done => (ArchiveCall.appendOwned record).writes id now slot done := by
  obtain ⟨hsurvives, hnone, state, after, groups, hres, hafter, hlive, hkept⟩ := h.opened now
  have hwrites : ∀ done, (ArchiveCall.appendOwned record).writes id now slot done =
      if state.accepts record = true ∧
        (stateFor id now slot).steps.length + 4 ≤ done.length then [record] else [] := by
    intro done
    unfold ArchiveCall.writes
    simp only [hres]
  simp only [hwrites]
  unfold appendOwned
  cases haccepts : state.accepts record with
  | false =>
    obtain ⟨error, hrefused⟩ := @append_refused gzip id state record haccepts limits now
    simp only [Bool.false_eq_true, false_and, if_false]
    apply Effect.work_keeps hsurvives hnone hres hafter
    rw [hrefused, hkept]
    exact hlive.idle _
  | true =>
    obtain ⟨happend, hlength, gone, last, groups', hgone, hlast, hlive', hall⟩ :=
      append_keeps hlive haccepts hvalid limits now
    rw [← hkept] at happend hall
    simp only [true_and]
    unfold Effect.work
    rw [hres]
    constructor
    · refine Survives.append publishesRemovals_tailed ?_ ?_
      · refine hsurvives.mono ?_
        intro done d hprefix hsheds
        rw [if_neg (by have := hprefix.length_le; omega), append_nil]
        exact hsheds
      · rw [hafter]
        refine happend.mono ?_
        rintro done d - ⟨more, rest, hmore, hrest, hholds⟩
        refine ⟨more, rest, ?_, ?_, hholds⟩
        · rw [removedFiles_append, hnone, nil_append, hmore]
        · rw [← hrest, length_append]
          simp only [Nat.add_le_add_iff_left]
    · refine ⟨gone, groups'.flatten ++
        (state.append gzip limits id now record).state.pending, ?_, ?_, ?_⟩
      · rw [removedFiles_append, hnone, nil_append, hgone]
      · rw [if_pos (by rw [length_append]; omega), hall]
      · unfold Effect.slot
        simp only
        rw [runSteps_append, hafter, hlast]
        exact .warm hlive' rfl

theorem slotWork_keeps {operation : ArchiveState → Work} (hwork : ∀ after state groups,
      Live gzip id after state groups → (operation state).Keeps gzip id after
        (groups.flatten ++ state.pending)) :
    (slot.work operation).Keeps gzip id slot kept fun _ => [] := by
  cases h with
  | cold h =>
    constructor
    · rw [append_nil]
      exact .nil (h.sheds rfl)
    · exact ⟨[], kept, rfl, append_nil kept, .cold h⟩
  | warm h hkept =>
    rename_i dir state groups
    have hrest := hwork dir state groups h
    rw [← hkept] at hrest
    obtain ⟨gone, last, groups', hgone, hlast, hlive', hall⟩ := hrest.live
    constructor
    · simp only [append_nil]
      exact hrest.survives
    · refine ⟨gone, groups'.flatten ++ (operation state).state.pending, hgone, ?_, ?_⟩
      · rw [append_nil, hall]
      · unfold Effect.slot Slot.work
        simp only
        rw [hlast]
        exact .warm hlive' rfl

theorem finalizeTerminal_keeps (now : Nat) :
    (finalizeTerminal gzip now slot).Keeps gzip id slot kept fun _ => [] := by
  cases h with
  | cold h =>
    rename_i d
    have hidle : (⟨.ok (), none, []⟩ : Effect Unit).Keeps gzip id ⟨d, none⟩ kept
        fun _ => [] := by
      constructor
      · rw [append_nil]
        exact .nil (h.sheds rfl)
      · exact ⟨[], kept, rfl, append_nil kept, .cold h⟩
    rcases h with ⟨hnil, hblank⟩ |
      ⟨dir, manifest, groups, pending, stale, torn, rfl, hstored, hkept⟩
    · have hindex : d.bind ArchiveDir.index = none := by
        cases d with
        | none => rfl
        | some dir => exact (hblank dir rfl).1
      unfold finalizeTerminal readManifest
      simp only [hindex]
      exact hidle
    · unfold finalizeTerminal readManifest
      simp only [bind_some, hstored.index]
      split
      · obtain ⟨hsurvives, after, hafter, hclosed, -⟩ :=
          @Stored.reindex _ _ _ _ _ _ _ _ hstored { manifest with closedAt := some now } rfl rfl rfl
        rw [← hkept] at hsurvives
        constructor
        · simp only [append_nil]
          exact sheds_survive hsurvives rfl
        · refine ⟨[], kept, rfl, append_nil kept, ?_⟩
          unfold Effect.slot
          simp only
          rw [hafter]
          exact .cold (hkept ▸ hclosed.holds)
      · exact hidle
  | warm h hkept =>
    rename_i dir state groups
    have hwork := ((flush_keeps h now).andThen fun _ _ hlive => quota_keeps hlive).andThen
      fun _ _ hlive => close_keeps hlive now
    rw [← hkept] at hwork
    obtain ⟨gone, last, groups', hgone, hlast, hlive', hall⟩ := hwork.live
    constructor
    · simp only [append_nil]
      exact hwork.survives
    · refine ⟨gone, _, hgone, by rw [append_nil]; exact hall, ?_⟩
      unfold Effect.slot finalizeTerminal
      simp only
      rw [hlast]
      exact .cold hlive'.holds

end

theorem effect_keeps (h : SlotHolds gzip id kept slot) {call : ArchiveCall}
    (henabled : call.enabled = true) (now : Nat) :
    (call.effect gzip limits id now slot).Keeps gzip id slot kept
      fun done => call.writes id now slot done := by
  cases call with
  | stateFor => exact stateFor_keeps h now
  | appendOwned record => exact appendOwned_keeps h now (HistoryRecord.ingested_valid henabled)
  | flushState => exact slotWork_keeps h fun _ _ _ hlive => flush_keeps hlive now
  | enforceTerminalQuota => exact slotWork_keeps h fun _ _ _ hlive => quota_keeps hlive
  | finalizeTerminal => exact finalizeTerminal_keeps h now

theorem completes_writes (h : SlotHolds gzip id kept slot) (call : ArchiveCall) (now : Nat) :
    (call.completes gzip limits id now slot).Sublist
      (call.writes id now slot (call.effect gzip limits id now slot).steps) := by
  cases call with
  | appendOwned record =>
    obtain ⟨-, -, state, after, groups, hres, -, hlive, -⟩ := h.opened now
    unfold ArchiveCall.completes ArchiveCall.writes ArchiveCall.effect appendOwned Effect.work
    simp only [hres]
    cases haccepts : state.accepts record with
    | false =>
      obtain ⟨error, hrefused⟩ := @append_refused gzip id state record haccepts limits now
      rw [hrefused]
      exact nil_sublist _
    | true =>
      have hlength : 4 ≤ (state.append gzip limits id now record).steps.length := by
        rw [append_accepted haccepts, Work.andThen_ok, length_append, List.length_map]
        simp [activeWrites]
      rw [if_pos ⟨rfl, by rw [length_append]; omega⟩]
      split
      · exact .refl _
      · exact nil_sublist _
  | _ => exact nil_sublist _

end Kept

/-! ## Runs with crashes -/

section Runs

variable {world world' : CrashWorld}

structure CrashSound (gzip : Gzip) (terminalId : String) (world : CrashWorld) : Prop where
  kept : ∃ (gone : List (List HistoryRecord)) (kept : List HistoryRecord),
    world.removed = gone.map groupFile ∧ world.written = gone.flatten ++ kept ∧
      SlotHolds gzip terminalId kept world.slot
  completed : world.completed.Sublist world.written

theorem crash_step {action : CrashAction} (h : CrashSound gzip id world)
    (hallow : IndexFollows gzip limits id world action)
    (hstep : (crashSystem gzip limits id).step world action = some world') :
    CrashSound gzip id world' := by
  obtain ⟨henabled, hstep⟩ := ite_none_right_eq_some.mp hstep
  cases hstep
  obtain ⟨gone, kept, hrem, hwrt, hslot⟩ := h.kept
  obtain ⟨call, now, crash⟩ := action
  have heffect := @effect_keeps gzip limits id _ _ hslot call henabled now
  cases crash with
  | none =>
    obtain ⟨more, rest, hmore, hall, hrest⟩ := heffect.ends
    constructor
    · refine ⟨gone ++ more, rest, ?_, ?_, hrest⟩
      · rw [map_append, ← hmore, ← hrem]
        rfl
      · rw [flatten_append, append_assoc, ← hall, ← append_assoc, ← hwrt]
        rfl
    · exact h.completed.append (completes_writes hslot call now)
  | some count =>
    obtain ⟨more, rest, hmore, hall, hrest⟩ := heffect.survives count hallow
    constructor
    · refine ⟨gone ++ more, rest, ?_, ?_, .cold hrest⟩
      · rw [map_append, ← hmore, ← hrem]
        rfl
      · rw [flatten_append, append_assoc, ← hall, ← append_assoc, ← hwrt]
        rfl
    · exact h.completed.append (nil_sublist _)

theorem crash_reachable
    (hrun : (crashSystem gzip limits id).Run (IndexFollows gzip limits id) world) :
    CrashSound gzip id world := by
  apply hrun.invariant
  · rintro start rfl
    refine ⟨⟨[], [], rfl, rfl, .cold (.inl ⟨rfl, ?_⟩)⟩, .refl _⟩
    intro d hd
    cases hd
  · exact fun _ _ _ h hallow hstep => crash_step h hallow hstep

end Runs

/-! ## What is read after a crash -/

/-- After a crash now the terminal opens, its index lists what is there, and
what is read are these records but those in the blocks that were removed. -/
structure Recovers (gzip : Gzip) (terminalId : String) (records : List HistoryRecord)
    (world : CrashWorld) : Prop where
  opens : ∀ now, (stateFor terminalId now ⟨world.slot.dir, none⟩).result.isOk = true
  listed : IndexListed world.slot.dir
  reads : ∀ now, ∃ (gone : List (List HistoryRecord)) (readable : List HistoryRecord),
    readAgain gzip terminalId now world.slot.dir = .ok readable ∧
      world.removed = gone.map groupFile ∧ records = gone.flatten ++ readable ∧
      Chronological readable

section Recovers

variable {terminalId : String} {world : CrashWorld} {d : Option ArchiveDir}

theorem Holds.indexListed (h : Holds gzip terminalId kept d) : IndexListed d := by
  intro dir manifest hdir hindex block hmem
  rcases h with ⟨-, hblank⟩ | ⟨dir', manifest', groups, pending, stale, torn, hdir', hstored, -⟩
  · rw [(hblank dir hdir).1] at hindex
    cases hindex
  rw [hdir'] at hdir
  cases hdir
  rw [hstored.index] at hindex
  cases hindex
  obtain ⟨group, -, hblock⟩ := stored_mem hstored.blocks hmem
  obtain ⟨encoded, -, hfile⟩ := hblock.stored
  exact IndexMap.contains_iff.mpr ⟨_, hfile⟩

theorem Holds.readAgain (hgzip : gzip.Lossless) (h : Holds gzip terminalId kept d) (now : Nat) :
    (stateFor terminalId now ⟨d, none⟩).result.isOk = true ∧
      readAgain gzip terminalId now d = .ok kept ∧ Chronological kept := by
  obtain ⟨-, -, state, after, groups, hres, -, hafter, hlive, rfl⟩ := stateFor_holds h now
  obtain ⟨updatedAt, stale, hstored⟩ := hlive.stored
  refine ⟨by rw [hres]; rfl, ?_, hstored.order⟩
  unfold History.readAgain readRecords
  simp only [hres, hafter, bind, Except.bind]
  rw [readBlocks_stored hgzip hstored.blocks hstored.valid]

/-- Whatever is cut short, all records that were written are there again, in
order and once each, but those in the blocks that the quota removed. -/
theorem crash_consistent (hgzip : gzip.Lossless)
    (hrun : (crashSystem gzip limits terminalId).Run (IndexFollows gzip limits terminalId) world) :
    Recovers gzip terminalId world.written world ∧ world.completed.Sublist world.written := by
  have hsound := crash_reachable hrun
  obtain ⟨gone, kept, hrem, hwrt, hslot⟩ := hsound.kept
  have hholds := hslot.holds
  refine ⟨⟨fun now => (hholds.readAgain hgzip now).1, hholds.indexListed, ?_⟩, hsound.completed⟩
  intro now
  obtain ⟨-, hread, horder⟩ := hholds.readAgain hgzip now
  exact ⟨gone, kept, hread, hrem, hwrt, horder⟩

theorem quota_cut_short
    (hrun : (crashSystem gzip limits terminalId).Run (IndexFollows gzip limits terminalId) world)
    {state : ArchiveState} (hstate : world.slot.state = some state)
    (hover : (overQuota (storedBytes state.manifest.blocks) state.manifest.blocks).1 ≠ [])
    (now : Nat) : ∃ world', (crashSystem gzip limits terminalId).step world
        ⟨.enforceTerminalQuota, now, some 1⟩ = some world' ∧
      ¬ IndexListed world'.slot.dir := by
  obtain ⟨-, kept, -, -, hslot⟩ := (crash_reachable hrun).kept
  refine ⟨_, rfl, ?_⟩
  generalize hworld : world.slot = slot at *
  cases hslot with
  | cold _ => cases hstate
  | warm hlive hkept =>
    rename_i dir state' groups
    cases hstate
    obtain ⟨updatedAt, stale, hstored⟩ := hlive.stored
    obtain ⟨hblocks, -⟩ := overQuota_append (storedBytes state.manifest.blocks)
      state.manifest.blocks
    generalize hsplit : overQuota (storedBytes state.manifest.blocks) state.manifest.blocks =
      split at *
    obtain ⟨evicted, rest⟩ := split
    cases evicted with
    | nil => exact absurd rfl hover
    | cons block more =>
      have hdone : CrashAction.done gzip limits terminalId ⟨some dir, some state⟩
          ⟨.enforceTerminalQuota, now, some 1⟩ = [.removeFile block.file] := by
        simp [CrashAction.done, ArchiveCall.effect, Slot.work, History.enforceTerminalQuota, hsplit]
      simp only [hdone]
      intro hlisted
      have hmem : block ∈ state.manifest.blocks := by
        rw [← hblocks]
        exact mem_append_left rest mem_cons_self
      have hpresent := hlisted { dir with files := dir.files.shiftRemove block.file } _ rfl
        hstored.index block hmem
      obtain ⟨bytes, hbytes⟩ := IndexMap.contains_iff.mp hpresent
      rw [IndexMap.get?_shiftRemove, if_pos rfl] at hbytes
      cases hbytes

end Recovers

def plainGzip : Gzip := ⟨fun bytes => bytes, .ok⟩

def sampleRecord : HistoryRecord := ⟨1, [104, 105]⟩

def interruptedAppend : CrashAction := ⟨.appendOwned sampleRecord, 0, some 10⟩

/-- Such an append has not ended, and its record is read; and a quota pass that
is cut short leaves an index that lists what is gone. -/
theorem interrupted_append : (∃ world, (crashSystem plainGzip ⟨1, 1⟩ "t").Reachable world ∧
        ¬ Recovers plainGzip "t" world.completed world) ∧
      ∀ (gzip : Gzip) (limits : Limits) (terminalId : String) (world : CrashWorld)
        (state : ArchiveState) (now : Nat),
        (crashSystem gzip limits terminalId).Run (IndexFollows gzip limits terminalId) world →
        world.slot.state = some state →
        (overQuota (storedBytes state.manifest.blocks) state.manifest.blocks).1 ≠ [] →
        ∃ world', (crashSystem gzip limits terminalId).step world
          ⟨.enforceTerminalQuota, now, some 1⟩ = some world' ∧
            ¬ IndexListed world'.slot.dir := by
  constructor
  · have hstart : (crashSystem plainGzip ⟨1, 1⟩ "t").Reachable ⟨⟨none, none⟩, [], [], []⟩ :=
      System.Run.start rfl
    refine ⟨_, @System.Run.next _ _ _ _ _ _ interruptedAppend hstart trivial rfl, ?_⟩
    intro hrecovers
    obtain ⟨gone, readable, hread, -, hall, -⟩ := hrecovers.reads 0
    obtain ⟨-, hnil⟩ := append_eq_nil_iff.mp hall.symm
    rw [hnil] at hread
    revert hread
    decide
  · intro gzip limits terminalId world state now hrun hstate hover
    exact quota_cut_short hrun hstate hover now

theorem publishes_unremoved {steps : List FsStep} (hnone : removedFiles steps = []) :
    PublishesRemovals steps := by
  intro before file after hsteps
  rw [hsteps, removedFiles_append, append_eq_nil_iff] at hnone
  cases hnone.2

/-- One append that ends, and one that is cut short once it is written. -/
theorem crash_consistent_sample :
    ∃ world, (crashSystem plainGzip ⟨4, 4⟩ "t").Run (IndexFollows plainGzip ⟨4, 4⟩ "t") world ∧
      world.completed.length = 1 ∧ world.written.length = 2 ∧
      Recovers plainGzip "t" world.written world := by
  have hstart : (crashSystem plainGzip ⟨4, 4⟩ "t").Run (IndexFollows plainGzip ⟨4, 4⟩ "t")
      ⟨⟨none, none⟩, [], [], []⟩ := System.Run.start rfl
  have hfirst := @System.Run.next _ _ _ _ _ _ ⟨.appendOwned sampleRecord, 0, none⟩ hstart
    (publishes_unremoved (by decide)) rfl
  have hsecond := @System.Run.next _ _ _ _ _ _ ⟨.appendOwned ⟨2, [33, 34]⟩, 1, some 6⟩ hfirst
    (publishes_unremoved (by decide)) rfl
  exact ⟨_, hsecond, by decide, by decide, (crash_consistent (fun _ => rfl) hsecond).1⟩

end Yaade.History

import Yaade.History.Crash
import Yaade.History.Segment
import Yaade.History.Blocks

/-!
Appends of which a write to the active segment fails.
-/

namespace Yaade.History

open Yaade.Library Option List

/-- The write that fails, and how many of its bytes are written. -/
structure WriteFailure where
  write : Fin 4
  bytes : Nat
  deriving DecidableEq

def WriteFailure.written (failure : WriteFailure) (record : HistoryRecord) : List (List UInt8) :=
  (activeWrites record).take failure.write ++
    ((activeWrites record)[failure.write.val]?.map fun bytes => bytes.take failure.bytes).toList

def appendActiveRecord (failure : Option WriteFailure) (record : HistoryRecord) :
    Except HistoryError Unit × List FsStep :=
  match failure with
  | none => (.ok (), (activeWrites record).map FsStep.appendActive)
  | some failure =>
    (.error (.io "write failed"), (failure.written record).map FsStep.appendActive)

def ArchiveState.appendWith (gzip : Gzip) (limits : Limits) (terminalId : String) (now : Nat)
    (failure : Option WriteFailure) (record : HistoryRecord) (state : ArchiveState) : Work :=
  if state.manifest.closedAt.isSome then
    ⟨.error (.corrupt ("append after completed close for " ++ terminalId)), state, []⟩
  else if record.sequence ≤ state.lastSequence then
    ⟨.error (.corrupt ("history sequence " ++ toString record.sequence ++ " does not follow " ++
      toString state.lastSequence)), state, []⟩
  else
    match appendActiveRecord failure record with
    | (.error error, steps) => ⟨.error error, state, steps⟩
    | (.ok (), steps) =>
      let appended : ArchiveState :=
        { manifest := { state.manifest with updatedAt := now }
          pending := state.pending ++ [record]
          pendingBytes := state.pendingBytes + record.data.length }
      let written : Work := ⟨.ok (), appended, steps⟩
      if appended.pendingBytes ≥ limits.blockBytes then
        (written.andThen (flushState gzip now)).andThen enforceTerminalQuota
      else written

def appendOwnedWith (gzip : Gzip) (limits : Limits) (terminalId : String) (now : Nat)
    (failure : Option WriteFailure) (record : HistoryRecord) (slot : Slot) : Effect Unit :=
  (stateFor terminalId now slot).work
    (ArchiveState.appendWith gzip limits terminalId now failure record)

variable {gzip : Gzip} {limits : Limits} {id : String} {record : HistoryRecord}
  {state : ArchiveState}

section Appending

variable {now : Nat} {failure : WriteFailure}

theorem appendWith_none : state.appendWith gzip limits id now none record =
    state.append gzip limits id now record := rfl

theorem appendWith_refused (h : state.accepts record = false) (failure : Option WriteFailure) :
    ∃ error, state.appendWith gzip limits id now failure record =
      ⟨.error error, state, []⟩ := by
  unfold ArchiveState.appendWith
  split
  · exact ⟨_, rfl⟩
  rename_i hopen
  rw [if_pos]
  · exact ⟨_, rfl⟩
  by_contra hlast
  simp [ArchiveState.accepts] at h hopen
  have hle := h hopen
  omega

theorem appendWith_failed (h : state.accepts record = true) :
    state.appendWith gzip limits id now (some failure) record =
      ⟨.error (.io "write failed"), state,
        (failure.written record).map FsStep.appendActive⟩ := by
  obtain ⟨hopen, hlast⟩ := (Bool.and_eq_true_iff).mp h
  have hlast := of_decide_eq_true hlast
  unfold ArchiveState.appendWith
  rw [if_neg (by simpa using hopen), if_neg (by omega)]
  rfl

end Appending

/-! ## Runs -/

/-- A terminal, and the records whose append has returned. -/
structure FailWorld where
  slot : Slot
  completed : List HistoryRecord

inductive FailAction where
  | append (record : HistoryRecord) (now : Nat) (failure : Option WriteFailure)
  | crash

section System

variable (gzip : Gzip) (limits : Limits) (terminalId : String)

def failSystem : System FailWorld FailAction where
  initial world := SlotHolds gzip terminalId world.completed world.slot
  step world action :=
    match action with
    | .crash => some { world with slot := ⟨world.slot.dir, none⟩ }
    | .append record now failure =>
      if record.ingested then
        let effect := appendOwnedWith gzip limits terminalId now failure record world.slot
        some
          { slot := effect.slot world.slot
            completed := world.completed ++
              match effect.result with
              | .ok () => [record]
              | .error _ => [] }
      else none

def ArchiveDir.ready (record : HistoryRecord) (dir : ArchiveDir) : Bool :=
  let body := (dir.active.getD []).drop activeMagic.length
  let (records, rest) := scanActive body.length 0 body
  rest.isEmpty && decide (lastOf records < record.sequence)

def ArchiveState.flushes (state : ArchiveState) : Bool :=
  decide (state.pendingBytes ≥ limits.blockBytes) &&
    decide (state.pending.length ≤ maxBlockRecords)

def ArchiveState.WithinQuota (state : ArchiveState) : Prop :=
  ∀ encoded, encodeRecords state.pending = .ok encoded →
    storedBytes state.manifest.blocks + (gzip.compress encoded).length ≤ maxTerminalBytes

/-- An append that does not fail finds a segment that is ready for it, unless
all that is pending is published, for which there is room. -/
def FailAction.Sound (world : FailWorld) : FailAction → Prop
  | .crash => True
  | .append record now failure => failure = none →
      ∀ state dir, (stateFor terminalId now world.slot).result = .ok state →
        runSteps FsStep.apply world.slot.dir (stateFor terminalId now world.slot).steps =
          some dir →
        if (state.appended now record).flushes limits then
          (state.appended now record).WithinQuota gzip
        else dir.ready record = true

def FailWorld.Endures (world : FailWorld) : Prop :=
  ∀ now, ∃ readable, readAgain gzip terminalId now world.slot.dir = .ok readable ∧
    world.completed.Sublist readable

end System

/-! ## Segments that are worn -/

section Scan

variable {records : List HistoryRecord} {previous fuel : Nat} {bytes rest : List UInt8}

theorem nextActive_exact (h : nextActive previous bytes = some (record, rest)) :
    bytes = (activeWrites record).flatten ++ rest ∧ record.Valid ∧ previous < record.sequence := by
  unfold nextActive at h
  split at h
  · cases h
  rename_i hheader
  simp only at h
  split at h
  · cases h
  rename_i hfields
  cases h
  push Not at hheader hfields
  obtain ⟨hpositive, hprev, hnonem, hshort, hpay, hchecksum⟩ := hfields
  unfold activeRecordHeaderBytes at *
  have height : (bytes.take 8).length = 8 := by
    rw [length_take]
    omega
  have hfour : ((bytes.drop 8).take 4).length = 4 := by
    rw [length_take, length_drop]
    omega
  have hfour' : ((bytes.drop 12).take 4).length = 4 := by
    rw [length_take, length_drop]
    omega
  have hfits := ofBytes_lt (bytes.take 8)
  rw [height] at hfits
  have hdata : ((bytes.drop 16).take (ofBytes ((bytes.drop 8).take 4))).length =
      ofBytes ((bytes.drop 8).take 4) := by
    rw [length_take]
    omega
  refine ⟨?_, ⟨Nat.pos_of_ne_zero hpositive, by omega, ?_, by rw [hdata]; exact hshort⟩,
    hprev⟩
  · rw [activeWrites_flatten]
    simp only
    rw [hdata, hchecksum, toBytes_ofBytes height, toBytes_ofBytes hfour,
      toBytes_ofBytes hfour', take_append_drop,
      show bytes.drop 16 = (bytes.drop 12).drop 4 by rw [drop_drop],
      take_append_drop, show bytes.drop 12 = (bytes.drop 8).drop 4 by rw [drop_drop],
      take_append_drop, take_append_drop]
  · intro hnil
    exact hnonem (hdata.symm.trans (length_eq_zero_iff.mpr hnil))

theorem scanActive_exact (h : scanActive fuel previous bytes = (records, rest)) :
    bytes = encodeActive records ++ rest ∧ Chronological records ∧
      ∀ record ∈ records, previous < record.sequence := by
  induction fuel generalizing previous bytes records with
  | zero =>
    cases h
    exact ⟨rfl, chronological_nil, forall_mem_nil _⟩
  | succ fuel ih =>
    unfold scanActive at h
    split at h
    · cases h
      exact ⟨rfl, chronological_nil, forall_mem_nil _⟩
    rename_i record after hnext
    generalize hscan : scanActive fuel record.sequence after = scanned at h
    obtain ⟨more, rest'⟩ := scanned
    cases h
    obtain ⟨hbytes, hvalid, hprev⟩ := nextActive_exact hnext
    obtain ⟨hafter, hmore, hlater⟩ := ih hscan
    refine ⟨?_, ⟨?_, pairwise_cons.mpr ⟨hlater, hmore.increasing⟩⟩, ?_⟩
    · rw [hbytes, hafter, ← append_assoc]
      rfl
    · intro member hmem
      rcases mem_cons.mp hmem with rfl | hmem
      · exact hvalid
      · exact hmore.valid member hmem
    · intro member hmem
      rcases mem_cons.mp hmem with rfl | hmem
      · exact hprev
      · exact hprev.trans (hlater member hmem)

theorem scanActive_worn (h : Chronological records)
    (hprev : ∀ record ∈ records, previous < record.sequence) (garbage : List UInt8)
    (hfuel : records.length ≤ fuel) :
    ∃ extra rest, scanActive fuel previous (encodeActive records ++ garbage) =
      (records ++ extra, rest) := by
  induction records generalizing previous fuel with
  | nil => exact ⟨_, _, rfl⟩
  | cons record more ih =>
    cases fuel with
    | zero => simp at hfuel
    | succ fuel =>
      have hnext := nextActive_written (h.valid record mem_cons_self)
        (hprev record mem_cons_self) (encodeActive more ++ garbage)
      have hsplit : encodeActive (record :: more) ++ garbage =
          (activeWrites record).flatten ++ (encodeActive more ++ garbage) := by
        simp [encodeActive]
      obtain ⟨extra, rest, hrest⟩ := ih h.tail h.head_lt (Nat.le_of_succ_le_succ hfuel)
      refine ⟨extra, rest, ?_⟩
      rw [hsplit, scanActive, hnext]
      simp only [hrest, cons_append]

theorem Chronological.parted (h : Chronological records) (blockSequence : Nat) :
    records = (records.filter fun record => !decide (record.sequence > blockSequence)) ++
      records.filter fun record => decide (record.sequence > blockSequence) := by
  induction records with
  | nil => rfl
  | cons record rest ih =>
    by_cases hnew : record.sequence > blockSequence
    · have hall : ∀ later ∈ record :: rest, later.sequence > blockSequence := by
        intro later hmem
        rcases mem_cons.mp hmem with rfl | hmem
        · exact hnew
        · exact hnew.trans (h.head_lt later hmem)
      rw [filter_eq_nil_iff.mpr fun later hmem => by simpa using hall later hmem,
        filter_eq_self.mpr fun later hmem => by simpa using hall later hmem]
      rfl
    · rw [filter_cons_of_pos (by simpa using hnew), filter_cons_of_neg (by simpa using hnew),
        cons_append, ← ih h.tail]

end Scan

def ArchiveDir.pristine (pending : List HistoryRecord) (dir : ArchiveDir) : ArchiveDir :=
  { dir with active := some (activeMagic ++ encodeActive pending) }

/-- An open archive whose segment holds the pending records and more: records
that were written although their append failed, and parts of records. -/
structure Worn (gzip : Gzip) (terminalId : String) (dir : ArchiveDir) (state : ArchiveState)
    (groups : List (List HistoryRecord)) (held : List HistoryRecord) (garbage : List UInt8) :
    Prop where
  live : Live gzip terminalId (dir.pristine state.pending) state groups
  active : dir.active = some (activeMagic ++ (encodeActive held ++ garbage))
  order : Chronological held
  contains : state.pending.Sublist held

variable {dir : ArchiveDir} {groups : List (List HistoryRecord)}

section Worn

variable {held : List HistoryRecord} {garbage : List UInt8}

theorem Live.worn (h : Live gzip id dir state groups) :
    ∃ held, Worn gzip id dir state groups held [] := by
  obtain ⟨updatedAt, stale, hstored⟩ := h.stored
  have hpend : Chronological state.pending := (chronological_append.mp hstored.order).2.1
  rcases hstored.active.bytes with hbytes | ⟨hblank, -⟩
  · refine ⟨stale ++ state.pending, ⟨⟨updatedAt, [], ?_⟩, ?_, h.counted⟩, ?_, hstored.segment,
      sublist_append_right stale state.pending⟩
    · exact { hstored with
        active := ⟨.inl (by simp [ArchiveDir.pristine]), fun _ => rfl⟩
        staleOrder := chronological_nil
        staleOld := forall_mem_nil _ }
    · simp [ArchiveDir.pristine, activeMagic, ascii]
    · rw [hbytes, append_assoc]
  · exact absurd hblank h.begun

theorem Worn.scan (h : Worn gzip id dir state groups held garbage) :
    ∃ extra rest, scanActive (encodeActive held ++ garbage).length 0
        (encodeActive held ++ garbage) = (held ++ extra, rest) ∧
      encodeActive held ++ garbage = encodeActive (held ++ extra) ++ rest ∧
      Chronological (held ++ extra) := by
  obtain ⟨extra, rest, hscan⟩ := scanActive_worn h.order
    (fun record hmem => (h.order.valid record hmem).positive) garbage
    (Nat.le_trans (length_encodeActive held) (by simp :
      (encodeActive held).length ≤ (encodeActive held ++ garbage).length))
  obtain ⟨hbytes, horder, -⟩ := scanActive_exact hscan
  exact ⟨extra, rest, hscan, hbytes, horder⟩

theorem runSteps_dir (dir : ArchiveDir) (steps : List FsStep) :
    runSteps FsStep.apply (some dir) steps = some (steps.foldl ArchiveDir.apply dir) := by
  induction steps generalizing dir with
  | nil => rfl
  | cons step rest ih =>
    have hstep : FsStep.apply (some dir) step = some (dir.apply step) := by
      cases step <;> rfl
    rw [runSteps_cons, hstep, ih, foldl_cons]

section

variable (h : Worn gzip id dir state groups held garbage)
include h

/-- A worn archive that is opened again has its pending records, and perhaps more. -/
theorem Worn.reopened (now : Nat) :
    ∃ again after, (stateFor id now ⟨some dir, none⟩).result = .ok again ∧
      runSteps FsStep.apply (some dir) (stateFor id now ⟨some dir, none⟩).steps =
        some after ∧ Live gzip id after again groups ∧
      state.pending.Sublist again.pending := by
  obtain ⟨updatedAt, stale, hstored⟩ := h.live.stored
  obtain ⟨extra, rest, hscan, hbytes, horder⟩ := h.scan
  generalize hmanifest : { state.manifest with updatedAt := updatedAt } = manifest at hstored
  have hactive := h.active
  rw [hbytes] at hscan hactive
  have hopened := openActive_scanned hactive hscan manifest.blockSequence
  have hread : openManifest id now (some dir) = (.ok manifest, []) := by
    have hindex : dir.index = some (.manifest manifest) := hstored.index
    unfold openManifest readManifest
    rw [bind_some, hindex]
    simp only [hstored.version, ne_eq, not_true_eq_false, if_false]
  have hstate : stateFor id now ⟨some dir, none⟩ =
      ⟨.ok ⟨manifest, pendingAfter manifest.blockSequence (held ++ extra),
          payloadBytes (pendingAfter manifest.blockSequence (held ++ extra))⟩,
        some ⟨manifest, pendingAfter manifest.blockSequence (held ++ extra),
          payloadBytes (pendingAfter manifest.blockSequence (held ++ extra))⟩,
        .createDir :: (openActiveSegment dir.active manifest.blockSequence).2⟩ := by
    have hres := congrArg Prod.fst hopened
    unfold ArchiveDir.openActive at hres
    unfold stateFor
    simp only [hread, bind_some]
    rw [if_neg (by simp [hstored.terminal])]
    generalize openActiveSegment dir.active manifest.blockSequence = segment at hres
    obtain ⟨result, steps⟩ := segment
    cases hres
    rfl
  have hrun : runSteps FsStep.apply (some dir)
      (.createDir :: (openActiveSegment dir.active manifest.blockSequence).2) =
      some { dir with active := some (activeMagic ++ encodeActive (held ++ extra)) } := by
    have hafter := congrArg Prod.snd hopened
    rw [runSteps_dir]
    exact congrArg some hafter
  have hold : ∀ record ∈ state.pending, record.sequence > manifest.blockSequence := by
    intro record hmem
    rw [hstored.blockSequence]
    exact hstored.order.lastOf_lt hmem
  have hparted := horder.parted manifest.blockSequence
  have hsegment := horder
  rw [hparted, chronological_append] at hsegment
  rw [hstate]
  refine ⟨_, _, rfl, hrun, ⟨⟨manifest.updatedAt, _, { hstored with
    order := ?_
    active := ⟨.inl ?_, fun _ => rfl⟩
    staleOrder := hsegment.1
    staleOld := ?_ }⟩, ?_, rfl⟩, ?_⟩
  · refine chronological_append.mpr ⟨(chronological_append.mp hstored.order).1, hsegment.2.1, ?_⟩
    intro a ha b hb
    have hbef := (chronological_append.mp hstored.order).1.le_lastOf ha
    have hafter := of_decide_eq_true (mem_filter.mp hb).2
    rw [hstored.blockSequence] at hafter
    omega
  · rw [append_nil]
    exact congrArg (fun records => some (activeMagic ++ encodeActive records)) hparted
  · intro record hmem
    have hbef := (mem_filter.mp hmem).2
    rw [hstored.blockSequence] at hbef
    simpa using hbef
  · simp [activeMagic, ascii]
  · have hall : state.pending.filter (fun record =>
        decide (record.sequence > manifest.blockSequence)) = state.pending :=
      filter_eq_self.mpr fun record hmem => by simpa using hold record hmem
    rw [← hall]
    exact (h.contains.trans (sublist_append_left held extra)).filter _

theorem Worn.failed (chunks : List (List UInt8)) :
    ∃ after, runSteps FsStep.apply (some dir) (chunks.map FsStep.appendActive) = some after ∧
      Worn gzip id after state groups held (garbage ++ chunks.flatten) := by
  refine ⟨_, appendActive_run chunks h.active, h.live, ?_, h.order, h.contains⟩
  simp only [append_assoc]

theorem Worn.appended (haccepts : state.accepts record = true) (hvalid : record.Valid) (now : Nat) :
    Live gzip id (dir.pristine (state.pending ++ [record])) (state.appended now record)
      groups := by
  obtain ⟨bytes, hbytes, -, hwrt⟩ := h.live.writing haccepts hvalid
  have hlive := hwrt now
  cases hbytes
  have hsame : activeMagic ++ encodeActive state.pending ++ (activeWrites record).flatten =
      activeMagic ++ encodeActive (state.pending ++ [record]) := by
    rw [encodeActive_append, append_assoc]
    simp [encodeActive]
  rw [hsame] at hlive
  exact hlive

theorem Worn.ready (haccepts : state.accepts record = true) (hvalid : record.Valid)
    (hready : dir.ready record = true) (now : Nat) : ∃ after held', runSteps FsStep.apply (some dir)
        ((activeWrites record).map FsStep.appendActive) = some after ∧
      Worn gzip id after (state.appended now record) groups held' [] := by
  obtain ⟨extra, rest, hscan, hbytes, horder⟩ := h.scan
  unfold ArchiveDir.ready at hready
  rw [h.active, getD_some, drop_left] at hready
  simp only [hscan, Bool.and_eq_true, List.isEmpty_iff, decide_eq_true_eq] at hready
  obtain ⟨rfl, hlast⟩ := hready
  refine ⟨_, held ++ extra ++ [record], appendActive_run _ h.active,
    h.appended haccepts hvalid now, ?_, ?_, ?_⟩
  · rw [hbytes, encodeActive_append (held ++ extra)]
    simp [encodeActive]
  · apply horder.snoc hvalid
    intro last hgetLast
    have hle := horder.le_lastOf (mem_of_getLast? hgetLast)
    omega
  · exact (h.contains.trans (sublist_append_left held extra)).append (.refl _)

end

end Worn

/-! ## Publishing from a worn segment -/

section Publishing

def FsStep.spares : FsStep → Bool
  | .createActive | .appendActive _ | .setActiveLen _ => false
  | _ => true

theorem apply_spares {step : FsStep} (h : step.spares = true) (active : Option (List UInt8)) :
    ({ dir with active := active } : ArchiveDir).apply step =
      { dir.apply step with active := active } := by
  cases step with
  | renameFile source target =>
    unfold ArchiveDir.apply
    cases hfile : dir.files.get? source with
    | none | some => simp only [hfile]
  | createActive => cases h
  | appendActive bytes => cases h
  | setActiveLen length => cases h
  | createDir | writeFile | removeFile | writeIndexTmp | renameIndex => rfl

theorem foldl_spares {steps : List FsStep} (h : ∀ step ∈ steps, step.spares = true)
    (active : Option (List UInt8)) :
    steps.foldl ArchiveDir.apply { dir with active := active } =
      { steps.foldl ArchiveDir.apply dir with active := active } := by
  induction steps generalizing dir with
  | nil => rfl
  | cons step rest ih =>
    rw [foldl_cons, apply_spares (h step mem_cons_self),
      ih fun later hmem => h later (mem_cons_of_mem step hmem), foldl_cons]

theorem runSteps_emptied {before after : List FsStep} (h : ∀ step ∈ before, step.spares = true)
    (first second : List UInt8) :
    runSteps FsStep.apply (some { dir with active := some first })
        (before ++ .setActiveLen 0 :: after) =
      runSteps FsStep.apply (some { dir with active := some second })
        (before ++ .setActiveLen 0 :: after) := by
  rw [runSteps_dir, runSteps_dir, foldl_append, foldl_append,
    foldl_spares h (some first), foldl_spares h (some second)]
  rfl

theorem flushState_steps (hpend : state.pending ≠ []) {encoded : List UInt8}
    (henc : encodeRecords state.pending = .ok encoded) (now : Nat) :
    ∃ (before : List FsStep) (block : ArchiveBlock),
      (flushState gzip now state).result = .ok () ∧
      (flushState gzip now state).steps =
        before ++ .setActiveLen 0 :: [.appendActive activeMagic] ∧
      (∀ step ∈ before, step.spares = true) ∧ removedFiles before = [] ∧
      (flushState gzip now state).state.manifest.blocks = state.manifest.blocks ++ [block] ∧
      block.storedBytes = (gzip.compress encoded).length := by
  unfold flushState
  rw [if_neg hpend, henc]
  refine ⟨_, _, rfl, rfl, ?_, rfl, rfl, rfl⟩
  intro step hmem
  simp only [writeManifest, cons_append, nil_append, mem_cons, not_mem_nil, or_false] at hmem
  rcases hmem with rfl | rfl | rfl | rfl <;> rfl

theorem overQuota_within {bytes : Nat} (h : bytes ≤ maxTerminalBytes)
    (blocks : List ArchiveBlock) : overQuota bytes blocks = ([], blocks) := by
  fun_cases overQuota bytes blocks with
  | case1 block next rest hover => omega
  | case2 block next rest => rfl
  | case3 => rfl

/-- What is pending is published, whatever the segment holds. -/
theorem settle_published (hlive : Live gzip id (dir.pristine state.pending) state groups)
    {bytes : List UInt8} (hactive : dir.active = some bytes)
    (hpend : state.pending ≠ []) (hflushes : state.flushes limits = true)
    (hquota : state.WithinQuota gzip) (now : Nat) : (state.settle gzip limits now).result = .ok () ∧
      ∃ after groups', runSteps FsStep.apply (some dir) (state.settle gzip limits now).steps =
          some after ∧
        Live gzip id after (state.settle gzip limits now).state groups' ∧
        groups.flatten ++ state.pending =
          groups'.flatten ++ (state.settle gzip limits now).state.pending := by
  obtain ⟨updatedAt, stale, hstored⟩ := hlive.stored
  have horder := (chronological_append.mp hstored.order).2.1
  simp only [ArchiveState.flushes, Bool.and_eq_true, decide_eq_true_eq] at hflushes
  obtain ⟨encoded, henc⟩ := (encodeRecords_ok_iff fun record hmem =>
    (horder.valid record hmem).fits).mpr ⟨hpend, hflushes.2, horder⟩
  obtain ⟨before, block, hres, hsteps, hquiet, hrem, hblocks, hsize⟩ :=
    @flushState_steps gzip state hpend encoded henc now
  have hsettle : state.settle gzip limits now =
      (flushState gzip now state).andThen enforceTerminalQuota := if_pos hflushes.1
  have hkeeps := settle_keeps hlive limits now
  obtain ⟨gone, after, groups', hgone, hafter, hlive', hall⟩ := hkeeps.live
  have hwithin : storedBytes (flushState gzip now state).state.manifest.blocks ≤
      maxTerminalBytes := by
    have hroom := hquota encoded henc
    rw [hblocks]
    unfold storedBytes at hroom ⊢
    rw [map_append, sum_append, map_singleton, sum_singleton, hsize]
    exact hroom
  have hevicted := overQuota_within hwithin (flushState gzip now state).state.manifest.blocks
  have hwork : ∃ more, (state.settle gzip limits now).result = .ok () ∧
      (state.settle gzip limits now).steps = before ++ .setActiveLen 0 :: more ∧
      removedFiles more = [] := by
    rw [hsettle]
    unfold Work.andThen
    simp only [hres, hsteps]
    unfold enforceTerminalQuota
    rw [hevicted]
    exact ⟨_, rfl, by rw [append_assoc, cons_append], rfl⟩
  obtain ⟨more, hok, hsteps', hnone⟩ := hwork
  have hkept : gone = [] := by
    rw [hsteps', removedFiles_append, hrem, nil_append] at hgone
    exact map_eq_nil_iff.mp (hgone.symm.trans hnone)
  refine ⟨hok, after, groups', ?_, hlive', ?_⟩
  · have hdir : dir = { dir with active := some bytes } := by rw [← hactive]
    rw [hsteps'] at hafter ⊢
    rw [hdir, runSteps_emptied hquiet bytes (activeMagic ++ encodeActive state.pending)]
    exact hafter
  · rw [hall, hkept]
    rfl

end Publishing

/-! ## What a run keeps -/

/-- A terminal in which the records of all completed appends are found again. -/
inductive FailSlot (gzip : Gzip) (terminalId : String) (completed : List HistoryRecord) :
    Slot → Prop where
  | cold {d : Option ArchiveDir} {kept : List HistoryRecord} (h : Holds gzip terminalId kept d)
      (hkept : completed.Sublist kept) : FailSlot gzip terminalId completed ⟨d, none⟩
  | lost {dir : ArchiveDir} {state : ArchiveState} {groups : List (List HistoryRecord)}
      {held : List HistoryRecord} {garbage : List UInt8}
      (h : Worn gzip terminalId dir state groups held garbage)
      (hkept : completed.Sublist (groups.flatten ++ state.pending)) :
      FailSlot gzip terminalId completed ⟨some dir, none⟩
  | warm {dir : ArchiveDir} {state : ArchiveState} {groups : List (List HistoryRecord)}
      {held : List HistoryRecord} {garbage : List UInt8}
      (h : Worn gzip terminalId dir state groups held garbage)
      (hkept : completed.Sublist (groups.flatten ++ state.pending)) :
      FailSlot gzip terminalId completed ⟨some dir, some state⟩

section Runs

variable {terminalId : String} {slot : Slot} {completed : List HistoryRecord}
  {world world' : FailWorld} {action : FailAction}

section

variable (h : FailSlot gzip terminalId completed slot)
include h

theorem FailSlot.opened (now : Nat) :
    ∃ state after groups held garbage, (stateFor terminalId now slot).result = .ok state ∧
      runSteps FsStep.apply slot.dir (stateFor terminalId now slot).steps = some after ∧
      Worn gzip terminalId after state groups held garbage ∧
      completed.Sublist (groups.flatten ++ state.pending) := by
  cases h with
  | cold h hkept =>
    obtain ⟨-, -, state, after, groups, hres, -, hafter, hlive, rfl⟩ := stateFor_holds h now
    obtain ⟨held, hworn⟩ := hlive.worn
    exact ⟨state, after, groups, held, [], hres, hafter, hworn, hkept⟩
  | lost h hkept =>
    obtain ⟨again, after, hres, hafter, hlive, hmore⟩ := h.reopened now
    obtain ⟨held, hworn⟩ := hlive.worn
    exact ⟨again, after, _, held, [], hres, hafter, hworn,
      hkept.trans ((List.Sublist.refl _).append hmore)⟩
  | warm h hkept => exact ⟨_, _, _, _, _, rfl, rfl, h, hkept⟩

theorem FailSlot.crash : FailSlot gzip terminalId completed ⟨slot.dir, none⟩ := by
  cases h with
  | cold h hkept => exact .cold h hkept
  | lost h hkept | warm h hkept => exact .lost h hkept

theorem FailSlot.endures (hgzip : gzip.Lossless)
    (now : Nat) : ∃ readable, readAgain gzip terminalId now slot.dir = .ok readable ∧
      completed.Sublist readable := by
  obtain ⟨state, after, groups, held, garbage, hres, hafter, hworn, hkept⟩ := h.crash.opened now
  obtain ⟨updatedAt, stale, hstored⟩ := hworn.live.stored
  have hblocks : List.Forall₂ (StoredBlock gzip after.files) state.manifest.blocks groups :=
    hstored.blocks
  refine ⟨groups.flatten ++ state.pending, ?_, hkept⟩
  unfold readAgain readRecords
  simp only [hres, hafter, bind, Except.bind]
  rw [readBlocks_stored hgzip hblocks hstored.valid]

end

theorem Effect.work_slot {opened : Effect ArchiveState} {state : ArchiveState} {dir : ArchiveDir}
    (hres : opened.result = .ok state)
    (hrun : runSteps FsStep.apply slot.dir opened.steps = some dir)
    (operation : ArchiveState → Work) : (opened.work operation).result = (operation state).result ∧
      (opened.work operation).slot slot =
        ⟨runSteps FsStep.apply (some dir) (operation state).steps, some (operation state).state⟩ := by
  unfold Effect.work Effect.slot
  rw [hres]
  simp only [runSteps_append, hrun, and_self]

/-- An append keeps the records that were completed, and its own if it ends well. -/
theorem appendWith_keeps {dir : ArchiveDir} {state : ArchiveState}
    {groups : List (List HistoryRecord)} {held : List HistoryRecord} {garbage : List UInt8}
    (h : Worn gzip terminalId dir state groups held garbage)
    (hkept : completed.Sublist (groups.flatten ++ state.pending)) {record : HistoryRecord}
    (hvalid : record.Valid) {failure : Option WriteFailure} {now : Nat}
    (hsound : failure = none → if (state.appended now record).flushes limits then
      (state.appended now record).WithinQuota gzip else dir.ready record = true) :
    FailSlot gzip terminalId
      (completed ++ match (state.appendWith gzip limits terminalId now failure record).result with
        | .ok () => [record]
        | .error _ => [])
      ⟨runSteps FsStep.apply (some dir)
          (state.appendWith gzip limits terminalId now failure record).steps,
        some (state.appendWith gzip limits terminalId now failure record).state⟩ := by
  cases haccepts : state.accepts record with
  | false =>
    obtain ⟨error, hrefused⟩ := @appendWith_refused gzip limits terminalId record state now
      haccepts failure
    rw [hrefused]
    simp only [append_nil, runSteps_nil]
    exact .warm h hkept
  | true =>
    cases failure with
    | some failure =>
      obtain ⟨after, hafter, hworn⟩ := h.failed (failure.written record)
      rw [appendWith_failed haccepts]
      simp only [append_nil, hafter]
      exact .warm hworn hkept
    | none =>
      have hchosen := hsound rfl
      have hall : (completed ++ [record]).Sublist
          (groups.flatten ++ (state.appended now record).pending) := by
        have hboth := hkept.append (List.Sublist.refl [record])
        rwa [append_assoc] at hboth
      rw [appendWith_none, append_accepted haccepts, Work.andThen_ok]
      simp only [runSteps_append]
      split at hchosen
      · rename_i hflushes
        have hlive := h.appended haccepts hvalid now
        rw [appendActive_run _ h.active]
        obtain ⟨hok, after, groups', hafter, hlive', hsame⟩ :=
          @settle_published gzip limits terminalId _
            { dir with active := some (activeMagic ++ (encodeActive held ++ garbage) ++
              (activeWrites record).flatten) } _ hlive _ rfl
            (by simp [ArchiveState.appended]) hflushes hchosen now
        obtain ⟨held', hworn⟩ := hlive'.worn
        rw [hok, hafter]
        exact .warm hworn (hsame ▸ hall)
      · rename_i hflushes
        obtain ⟨after, held', hafter, hworn⟩ := h.ready haccepts hvalid hchosen now
        rw [hafter]
        -- nothing is published: there is not enough, or it is too many for a block
        have hidle : ∃ result, (state.appended now record).settle gzip limits now =
            ⟨result, state.appended now record, []⟩ := by
          unfold ArchiveState.settle
          split
          · rename_i hbytes
            have hmany : (state.appended now record).pending.length > maxBlockRecords := by
              simpa [ArchiveState.flushes, hbytes] using hflushes
            unfold flushState
            rw [if_neg (by simp [ArchiveState.appended])]
            have herror : encodeRecords (state.appended now record).pending =
                .error (.corrupt "invalid history block record count") := if_pos (.inr hmany)
            rw [herror]
            exact ⟨_, rfl⟩
          · exact ⟨_, rfl⟩
        obtain ⟨result, hsettle⟩ := hidle
        rw [hsettle]
        simp only [runSteps_nil]
        apply FailSlot.warm hworn
        cases result with
        | ok done => exact hall
        | error error =>
          rw [append_nil]
          exact (sublist_append_left completed [record]).trans hall

theorem fail_step (h : FailSlot gzip terminalId world.completed world.slot)
    (hsound : action.Sound gzip limits terminalId world)
    (hstep : (failSystem gzip limits terminalId).step world action = some world') :
    FailSlot gzip terminalId world'.completed world'.slot := by
  cases action with
  | crash =>
    cases hstep
    exact h.crash
  | append record now failure =>
    obtain ⟨hingested, hworld⟩ := ite_none_right_eq_some.mp hstep
    cases hworld
    obtain ⟨state, dir, groups, held, garbage, hres, hafter, hworn, hkept⟩ := h.opened now
    obtain ⟨hsame, hslot⟩ := Effect.work_slot hres hafter
      (ArchiveState.appendWith gzip limits terminalId now failure record)
    unfold appendOwnedWith
    rw [hsame, hslot]
    exact appendWith_keeps hworn hkept (HistoryRecord.ingested_valid hingested)
      fun hnone => hsound hnone state dir hres hafter

/-- In every run in which appends find a segment that is ready for them, or
publish what is pending, all records whose append has returned are read after
a crash, whatever writes of other appends have failed. -/
theorem failed_writes_endured (hgzip : gzip.Lossless)
    (hrun : (failSystem gzip limits terminalId).Run
      (fun world action => action.Sound gzip limits terminalId world) world) :
    world.Endures gzip terminalId := by
  have hslot : FailSlot gzip terminalId world.completed world.slot := by
    apply @System.Run.invariant _ _ _ _
      (fun world => FailSlot gzip terminalId world.completed world.slot) _ _ _ hrun
    · rintro ⟨slot, completed⟩ hinitial
      cases hinitial with
      | cold h => exact .cold h (.refl _)
      | warm h hkept =>
        obtain ⟨held, hworn⟩ := h.worn
        exact .warm hworn (hkept ▸ .refl _)
    · exact fun _ _ _ h hsound hstep => fail_step h hsound hstep
  exact hslot.endures hgzip

end Runs

/-! ## Failures that are not endured -/

def tornAppends : List FailAction :=
  [.append ⟨1, [104, 105]⟩ 0 none, .append ⟨2, [33]⟩ 1 (some ⟨1, 0⟩), .append ⟨2, [33]⟩ 2 none]

theorem failSystem_starts (gzip : Gzip) (limits : Limits) (id : String) :
    (failSystem gzip limits id).initial ⟨⟨none, none⟩, []⟩ := by
  apply SlotHolds.cold
  refine .inl ⟨rfl, ?_⟩
  intro dir hdir
  cases hdir

/-- The last append returns, and its record is lost behind half a header. -/
theorem failed_write_lost : ∃ world, (failSystem plainGzip defaultLimits "t").Reachable world ∧
      world.completed = [⟨1, [104, 105]⟩, ⟨2, [33]⟩] ∧ ¬ world.Endures plainGzip "t" := by
  have hstart : (failSystem plainGzip defaultLimits "t").Reachable ⟨⟨none, none⟩, []⟩ :=
    .start (failSystem_starts _ _ _)
  have hrpl : ((failSystem plainGzip defaultLimits "t").replay (fun _ _ => true)
      ⟨⟨none, none⟩, []⟩ tornAppends).isSome = true := by decide
  obtain ⟨world, hworld⟩ := isSome_iff_exists.mp hrpl
  refine ⟨world, System.replay_run hstart (fun _ _ _ _ => trivial) hworld, ?_⟩
  cases hworld
  refine ⟨rfl, ?_⟩
  intro hendures
  obtain ⟨readable, hread, hsub⟩ := hendures 0
  cases hread
  exact absurd hsub.length_le (by decide)

/-- One append that succeeds and one whose last write fails. -/
theorem failed_writes_endured_sample : ∃ world, (failSystem plainGzip defaultLimits "t").Run
        (fun world action => action.Sound plainGzip defaultLimits "t" world) world ∧
      world.completed = [⟨1, [104, 105]⟩] ∧ world.Endures plainGzip "t" := by
  have hstart : (failSystem plainGzip defaultLimits "t").Run
      (fun world action => action.Sound plainGzip defaultLimits "t" world) ⟨⟨none, none⟩, []⟩ :=
    .start (failSystem_starts _ _ _)
  have hfirst := @System.Run.next _ _ _ _ _ _ (.append ⟨1, [104, 105]⟩ 0 none) hstart (by
    intro _ state dir hstate hdir
    cases hstate
    cases hdir
    rw [if_neg (by decide)]
    decide) rfl
  have hsecond := @System.Run.next _ _ _ _ _ _ (.append ⟨2, [33]⟩ 1 (some ⟨3, 0⟩)) hfirst (by
    intro hnone
    cases hnone) rfl
  exact ⟨_, hsecond, rfl, failed_writes_endured (fun _ => rfl) hsecond⟩

end Yaade.History

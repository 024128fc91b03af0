import Yaade.History.Stored

/-!
What an active segment gives back after any tear.
-/

namespace Yaade.History

open Yaade.Library List Option

/-- The segment is opened: what is pending in it, and the directory after that. -/
def ArchiveDir.openActive (blockSequence : Nat) (dir : ArchiveDir) :
    Except HistoryError (List HistoryRecord) × ArchiveDir :=
  let (result, steps) := openActiveSegment dir.active blockSequence
  (result, steps.foldl ArchiveDir.apply dir)

def ArchiveDir.appendRecords (records : List HistoryRecord) (dir : ArchiveDir) : ArchiveDir :=
  (records.flatMap fun record => (activeWrites record).map FsStep.appendActive).foldl
    ArchiveDir.apply dir

def ArchiveDir.tear (length : Nat) (dir : ArchiveDir) : ArchiveDir :=
  { dir with active := dir.active.map fun bytes => bytes.take length }

def wholeRecords : Nat → List HistoryRecord → List HistoryRecord
  | _, [] => []
  | length, record :: rest =>
    let size := (activeWrites record).flatten.length
    if size ≤ length then record :: wholeRecords (length - size) rest else []

def pendingAfter (blockSequence : Nat) (records : List HistoryRecord) : List HistoryRecord :=
  records.filter fun record => record.sequence > blockSequence

/-- The segment opens with these records and is cut behind them, so that it can
be extended: records that are appended to it are read back behind them. -/
structure ArchiveDir.Recovers (blockSequence : Nat) (records : List HistoryRecord)
    (dir : ArchiveDir) : Prop where
  opens : (dir.openActive blockSequence).1 = .ok (pendingAfter blockSequence records)
  mended : (dir.openActive blockSequence).2.active = some (activeMagic ++ encodeActive records)
  extended : ∀ more, Chronological (records ++ more) →
    (((dir.openActive blockSequence).2.appendRecords more).openActive blockSequence).1 =
      .ok (pendingAfter blockSequence records ++ pendingAfter blockSequence more)

section Opening

variable {dir : ArchiveDir} {records : List HistoryRecord} {torn bytes : List UInt8}

theorem openActive_blank (h : dir.active.getD [] = []) (blockSequence : Nat) :
    dir.openActive blockSequence = (.ok [], { dir with active := some activeMagic }) := by
  unfold ArchiveDir.openActive openActiveSegment
  simp only [h, foldl_cons, foldl_nil, ArchiveDir.apply, map_some, nil_append]

theorem openActive_headless (h : dir.active = some bytes) (hbegun : bytes ≠ [])
    (hshort : bytes.length < activeMagic.length) (blockSequence : Nat) :
    (dir.openActive blockSequence).1 = .error (.corrupt "invalid active history header") := by
  unfold ArchiveDir.openActive openActiveSegment
  rw [h, getD_some]
  cases bytes with
  | nil => exact absurd rfl hbegun
  | cons byte rest =>
    simp only
    rw [if_pos (.inl hshort)]

section

variable (h : dir.active = some (activeMagic ++ (encodeActive records ++ torn)))
include h

theorem openActive_scanned
    (hscan : scanActive (encodeActive records ++ torn).length 0 (encodeActive records ++ torn) =
      (records, torn)) (blockSequence : Nat) :
    dir.openActive blockSequence = (.ok (pendingAfter blockSequence records),
      { dir with active := some (activeMagic ++ encodeActive records) }) := by
  have hopened : openActiveSegment dir.active blockSequence =
      (.ok (pendingAfter blockSequence records), .createActive :: if torn = [] then [] else
        [.setActiveLen (activeMagic ++ encodeActive records).length]) := by
    unfold openActiveSegment
    rw [h, getD_some]
    split
    · rename_i hempty
      simp [activeMagic, ascii] at hempty
    rw [if_neg (by simp), drop_left]
    simp only [hscan]
    have hlength : (activeMagic ++ (encodeActive records ++ torn)).length - torn.length =
        (activeMagic ++ encodeActive records).length := by
      simp only [length_append]
      omega
    rw [hlength]
    rfl
  have hcreate : dir.apply .createActive = dir := by
    cases dir
    simp only at h
    simp [ArchiveDir.apply, h]
  unfold ArchiveDir.openActive
  rw [hopened]
  simp only [foldl_cons, hcreate]
  by_cases hnil : torn = []
  · rw [if_pos hnil, foldl_nil]
    rw [hnil, append_nil] at h
    rw [← h]
  · rw [if_neg hnil, foldl_cons, foldl_nil]
    simp only [ArchiveDir.apply, h, map_some, ← append_assoc, take_left]

theorem openActive_begun
    (hrecords : Chronological records) (htorn : ∀ previous, nextActive previous torn = none)
    (blockSequence : Nat) :
    dir.openActive blockSequence = (.ok (pendingAfter blockSequence records),
      { dir with active := some (activeMagic ++ encodeActive records) }) := by
  apply openActive_scanned h
  apply scanActive_encoded hrecords _ htorn
  · exact Nat.le_trans (length_encodeActive records) (by simp)
  · exact fun record hmem => (hrecords.valid record hmem).positive

end

theorem openActive_whole (h : dir.active = some (activeMagic ++ encodeActive records))
    (hrecords : Chronological records) (blockSequence : Nat) :
    (dir.openActive blockSequence).1 = .ok (pendingAfter blockSequence records) := by
  rw [← append_nil (encodeActive records)] at h
  rw [openActive_begun h hrecords (fun _ => rfl)]

theorem appendRecords_active (h : dir.active = some bytes) (records : List HistoryRecord) :
    dir.appendRecords records = { dir with active := some (bytes ++ encodeActive records) } := by
  unfold ArchiveDir.appendRecords encodeActive
  have hwrites : ∀ (chunks : List (List UInt8)) (dir : ArchiveDir) (bytes : List UInt8),
      dir.active = some bytes → (chunks.map FsStep.appendActive).foldl ArchiveDir.apply dir =
        { dir with active := some (bytes ++ chunks.flatten) } := by
    intro chunks
    induction chunks with
    | nil =>
      intro dir bytes h
      rw [List.map_nil, foldl_nil, flatten_nil, append_nil, ← h]
    | cons chunk rest ih =>
      intro dir bytes h
      rw [map_cons, foldl_cons, ih (dir.apply (.appendActive chunk)) (bytes ++ chunk)]
      · rw [flatten_cons, append_assoc]
        rfl
      · simp only [ArchiveDir.apply, h, map_some]
  have hflat : (records.flatMap fun record => (activeWrites record).map FsStep.appendActive) =
      (records.flatMap activeWrites).map FsStep.appendActive := map_flatMap.symm
  rw [hflat, hwrites _ dir bytes h, flatMap_def, flatten_flatten, List.map_map, flatMap_def]
  rfl

end Opening

/-! ## Every cut of the file -/

section Cut

variable {record : HistoryRecord} {records : List HistoryRecord}

theorem nextActive_cut (hvalid : record.Valid) {length : Nat}
    (hlength : length < (activeWrites record).flatten.length) (previous : Nat) :
    nextActive previous ((activeWrites record).flatten.take length) = none := by
  have hsize : (activeWrites record).flatten.length = 16 + record.data.length := by
    simp [activeWrites]
    omega
  unfold nextActive
  by_cases hheader : length < activeRecordHeaderBytes
  · rw [if_pos]
    rw [length_take]
    omega
  unfold activeRecordHeaderBytes at hheader
  have hwrt : (activeWrites record).flatten.take length = toBytes 8 record.sequence ++
      (toBytes 4 record.data.length ++
        (toBytes 4 (activeChecksum record.sequence record.data).toNat ++
          record.data.take (length - 16))) := by
    rw [← append_nil (activeWrites record).flatten, activeWrites_flatten, append_nil]
    rw [take_append, take_of_length_le (by rw [length_toBytes]; omega),
      take_append, take_of_length_le (by simp only [length_toBytes]; omega),
      take_append, take_of_length_le (by simp only [length_toBytes]; omega)]
    simp only [length_toBytes]
    congr 4
  obtain ⟨hseq, hfield, hchecksum, hpay⟩ :=
    activeHeader_fields hvalid (record.data.take (length - 16))
  rw [hwrt, if_neg]
  · simp only [hseq, hfield, hpay]
    rw [if_pos]
    simp only [length_take]
    omega
  · simp only [length_append, length_toBytes, activeRecordHeaderBytes]
    omega

theorem encodeActive_take (hvalid : ∀ record ∈ records, record.Valid) (length : Nat) :
    ∃ torn, (encodeActive records).take length =
        encodeActive (wholeRecords length records) ++ torn ∧
      ∀ previous, nextActive previous torn = none := by
  induction records generalizing length with
  | nil => exact ⟨[], take_nil, fun _ => rfl⟩
  | cons record rest ih =>
    have hsplit : ∀ records, encodeActive (record :: records) =
        (activeWrites record).flatten ++ encodeActive records := fun _ => flatMap_cons
    unfold wholeRecords
    simp only
    by_cases hsize : (activeWrites record).flatten.length ≤ length
    · obtain ⟨torn, htake, htorn⟩ := ih (fun later hmem =>
        hvalid later (mem_cons_of_mem record hmem))
        (length - (activeWrites record).flatten.length)
      refine ⟨torn, ?_, htorn⟩
      rw [if_pos hsize, hsplit, hsplit, take_append, take_of_length_le hsize, htake, append_assoc]
    · refine ⟨(activeWrites record).flatten.take length, ?_, ?_⟩
      · rw [if_neg hsize, hsplit, take_append_of_le_length (by omega)]
        rfl
      · exact nextActive_cut (hvalid record mem_cons_self) (by omega)

theorem wholeRecords_start (length : Nat) : wholeRecords length records <+: records := by
  induction records generalizing length with
  | nil => exact prefix_refl []
  | cons record rest ih =>
    unfold wholeRecords
    simp only
    split
    · exact cons_prefix_cons.mpr ⟨rfl, ih _⟩
    · exact nil_prefix

theorem wholeRecords_chronological (h : Chronological records) (length : Nat) :
    Chronological (wholeRecords length records) := by
  obtain ⟨rest, hrest⟩ := @wholeRecords_start records length
  rw [← hrest] at h
  exact (chronological_append.mp h).1

end Cut

/-- A fresh segment to which records were appended and of which only the first
bytes are left gives back the records that are whole, and can be extended,
unless the cut is inside the magic. -/
theorem torn_tail_recovered {dir : ArchiveDir} {records : List HistoryRecord}
    (hfresh : dir.active.getD [] = []) (hrecords : Chronological records)
    (opened blockSequence length : Nat) :
    ((((dir.openActive opened).2.appendRecords records).tear length).Recovers blockSequence
        (wholeRecords (length - activeMagic.length) records)) ↔
      length = 0 ∨ activeMagic.length ≤ length := by
  have hwrt : ((dir.openActive opened).2.appendRecords records).tear length =
      { dir with active := some ((activeMagic ++ encodeActive records).take length) } := by
    rw [openActive_blank hfresh, appendRecords_active rfl]
    rfl
  have hwhole := wholeRecords_chronological hrecords (length - activeMagic.length)
  rw [hwrt]
  constructor
  · intro h
    by_contra hinside
    push Not at hinside
    have hopens := h.opens
    rw [openActive_headless rfl] at hopens
    · cases hopens
    · rw [ne_eq, take_eq_nil_iff, not_or]
      exact ⟨hinside.1, by simp [activeMagic, ascii]⟩
    · exact Nat.lt_of_le_of_lt (length_take_le _ _) hinside.2
  · rintro (rfl | hlength)
    · rw [Nat.zero_sub, take_zero] at *
      have hnone : wholeRecords 0 records = [] := by
        cases records with
        | nil => rfl
        | cons record rest =>
          unfold wholeRecords
          simp [activeWrites]
      rw [hnone]
      have hblank := @openActive_blank { dir with active := some [] } rfl blockSequence
      refine ⟨?_, ?_, ?_⟩
      · rw [hblank]
        rfl
      · rw [hblank]
        rfl
      · intro more hmore
        rw [hblank, appendRecords_active rfl, openActive_whole rfl hmore]
        rfl
    · obtain ⟨torn, htake, htorn⟩ := encodeActive_take hrecords.valid (length - activeMagic.length)
      rw [take_append, take_of_length_le hlength, htake]
      have hbegun := @openActive_begun { dir with active := some (activeMagic ++
        (encodeActive (wholeRecords (length - activeMagic.length) records) ++ torn)) } _ torn rfl
        hwhole htorn blockSequence
      refine ⟨?_, ?_, ?_⟩
      · rw [hbegun]
      · rw [hbegun]
      · intro more hmore
        rw [hbegun, appendRecords_active rfl, append_assoc, ← encodeActive_append,
          openActive_whole rfl hmore]
        simp only [pendingAfter, filter_append]

/-- Two records, the second of them torn. -/
theorem torn_tail_recovered_sample :
    let records : List HistoryRecord := [⟨1, [104, 105]⟩, ⟨2, [33]⟩]
    (((ArchiveDir.empty.openActive 0).2.appendRecords records).tear 30).Recovers 0
      [⟨1, [104, 105]⟩] := by
  have hrecords : Chronological [⟨1, [104, 105]⟩, ⟨2, [33]⟩] := by
    apply @Chronological.snoc [⟨1, [104, 105]⟩]
    · apply chronological_nil.snoc
      · exact ⟨by decide, by decide, by decide, by decide⟩
      · exact fun _ h => (nomatch h)
    · exact ⟨by decide, by decide, by decide, by decide⟩
    · decide
  exact (torn_tail_recovered rfl hrecords 0 0 30).mpr (by decide)

/-- A segment that is torn inside its magic is refused, with all that could be
recovered from it: nothing. -/
theorem torn_magic_refused :
    ∃ (records : List HistoryRecord) (length : Nat), Chronological records ∧
      ¬ (((ArchiveDir.empty.openActive 0).2.appendRecords records).tear length).Recovers 0
        (wholeRecords (length - activeMagic.length) records) := by
  refine ⟨[], 3, chronological_nil, ?_⟩
  intro h
  have hopens := h.opens
  revert hopens
  decide

end Yaade.History

import Yaade.Library.Bytes
import Yaade.Library.Except

/-!
How records of a terminal's output are kept as bytes: the blocks that are
compressed, and the active segment to which records are appended one by one.
-/

namespace Yaade.History

open Yaade.Library List Option

inductive HistoryError where
  | io (message : String)
  | json (message : String)
  | corrupt (message : String)
  deriving DecidableEq

def HistoryError.text : HistoryError → String
  | io message | json message => "terminal history failure: " ++ message
  | corrupt message => "terminal history is corrupt: " ++ message

structure HistoryRecord where
  sequence : Nat
  data : List UInt8
  deriving DecidableEq

def archiveVersion : UInt8 := 2

def ascii (text : String) : List UInt8 := text.toList.map fun c => UInt8.ofNat c.toNat

def blockMagic : List UInt8 := ascii "YAADEH02"
def activeMagic : List UInt8 := ascii "YAADEA02"

def blockHeaderBytes : Nat := 16
def recordHeaderBytes : Nat := 12
def activeRecordHeaderBytes : Nat := 16
def maxRecordBytes : Nat := 64 * 1024
def maxBlockRecords : Nat := 1000000

/-! ## Blocks -/

def blockHeader (count : Nat) : List UInt8 :=
  blockMagic ++ [archiveVersion] ++ List.replicate 3 0 ++ toBytes 4 count

def encodeEach (previous : Nat) : List HistoryRecord → Except HistoryError (List UInt8)
  | [] => .ok []
  | record :: rest =>
    if record.sequence = 0 ∨ record.sequence ≤ previous then
      .error (.corrupt "non-increasing history sequence")
    else if record.data = [] ∨ record.data.length > maxRecordBytes then
      .error (.corrupt "invalid history payload length")
    else do
      let encoded ← encodeEach record.sequence rest
      .ok (toBytes 8 record.sequence ++ toBytes 4 record.data.length ++ record.data ++ encoded)

def encodeRecords (records : List HistoryRecord) : Except HistoryError (List UInt8) :=
  if records = [] ∨ records.length > maxBlockRecords then
    .error (.corrupt "invalid history block record count")
  else do
    let encoded ← encodeEach 0 records
    .ok (blockHeader records.length ++ encoded)

def decodeRecord (previous : Nat) (bytes : List UInt8) :
    Except HistoryError (HistoryRecord × List UInt8) :=
  if bytes.length < recordHeaderBytes then
    .error (.corrupt "truncated history record header")
  else
    let sequence := ofBytes (bytes.take 8)
    let length := ofBytes ((bytes.drop 8).take 4)
    let payload := bytes.drop recordHeaderBytes
    if sequence = 0 ∨ sequence ≤ previous ∨ length = 0 ∨ length > maxRecordBytes then
      .error (.corrupt "invalid history record")
    else if payload.length < length then
      .error (.corrupt "truncated history payload")
    else .ok (⟨sequence, payload.take length⟩, payload.drop length)

def decodeEach : Nat → Nat → List UInt8 → Except HistoryError (List HistoryRecord × List UInt8)
  | 0, _, bytes => .ok ([], bytes)
  | count + 1, previous, bytes => do
      let (record, after) ← decodeRecord previous bytes
      let (records, rest) ← decodeEach count record.sequence after
      .ok (record :: records, rest)

def decodeRecords (encoded : List UInt8) : Except HistoryError (List HistoryRecord) :=
  if encoded.length < blockHeaderBytes ∨ encoded.take 8 ≠ blockMagic then
    .error (.corrupt "invalid history block header")
  else if (encoded.drop 8).take 4 ≠ archiveVersion :: List.replicate 3 0 then
    .error (.corrupt "unsupported history block version")
  else
    let count := ofBytes ((encoded.drop 12).take 4)
    if count = 0 ∨ count > maxBlockRecords then
      .error (.corrupt "invalid history block record count")
    else do
      let (records, rest) ← decodeEach count 0 (encoded.drop blockHeaderBytes)
      if rest = [] then .ok records else .error (.corrupt "trailing history block bytes")

/-! ## The active segment -/

def activeChecksum (sequence : Nat) (data : List UInt8) : UInt32 :=
  (toBytes 8 sequence ++ data).foldl (fun hash byte => (hash ^^^ byte.toUInt32) * 16777619)
    2166136261

def activeWrites (record : HistoryRecord) : List (List UInt8) :=
  [toBytes 8 record.sequence, toBytes 4 record.data.length,
    toBytes 4 (activeChecksum record.sequence record.data).toNat, record.data]

def nextActive (previous : Nat) (bytes : List UInt8) : Option (HistoryRecord × List UInt8) :=
  if bytes.length < activeRecordHeaderBytes then none
  else
    let sequence := ofBytes (bytes.take 8)
    let length := ofBytes ((bytes.drop 8).take 4)
    let checksum := ofBytes ((bytes.drop 12).take 4)
    let payload := bytes.drop activeRecordHeaderBytes
    if sequence = 0 ∨ sequence ≤ previous ∨ length = 0 ∨ length > maxRecordBytes ∨
        payload.length < length ∨
        (activeChecksum sequence (payload.take length)).toNat ≠ checksum then none
    else some (⟨sequence, payload.take length⟩, payload.drop length)

/-- The records of the segment, and what is left behind the last of them. Each
record takes at least one byte. -/
def scanActive : Nat → Nat → List UInt8 → List HistoryRecord × List UInt8
  | 0, _, bytes => ([], bytes)
  | fuel + 1, previous, bytes =>
    match nextActive previous bytes with
    | none => ([], bytes)
    | some (record, after) =>
      let (records, rest) := scanActive fuel record.sequence after
      (record :: records, rest)

/-! ## What is written is read back -/

/-- What the writers of records promise: a `u64` sequence that is not zero and
1 to 65536 bytes. -/
structure HistoryRecord.Valid (record : HistoryRecord) : Prop where
  positive : 0 < record.sequence
  fits : record.sequence < 2 ^ 64
  nonempty : record.data ≠ []
  short : record.data.length ≤ maxRecordBytes

/-- Valid records in the order of their sequences. -/
structure Chronological (records : List HistoryRecord) : Prop where
  valid : ∀ record ∈ records, record.Valid
  increasing : Increasing HistoryRecord.sequence records

section Chronological

variable {records more : List HistoryRecord} {record : HistoryRecord}

theorem chronological_nil : Chronological [] :=
  ⟨fun _ h => absurd h not_mem_nil, List.Pairwise.nil⟩

theorem chronological_append : Chronological (records ++ more) ↔
    Chronological records ∧ Chronological more ∧
      ∀ a ∈ records, ∀ b ∈ more, a.sequence < b.sequence := by
  constructor
  · rintro ⟨hvalid, hincreasing⟩
    obtain ⟨hfirst, hrest, hacross⟩ := increasing_append.mp hincreasing
    exact ⟨⟨fun a ha => hvalid a (mem_append_left more ha), hfirst⟩,
      ⟨fun b hb => hvalid b (mem_append_right records hb), hrest⟩, hacross⟩
  · rintro ⟨hfirst, hrest, hacross⟩
    constructor
    · intro record hmem
      rcases mem_append.mp hmem with h | h
      · exact hfirst.valid record h
      · exact hrest.valid record h
    · exact increasing_append.mpr ⟨hfirst.increasing, hrest.increasing, hacross⟩

theorem Chronological.tail (h : Chronological (record :: more)) : Chronological more :=
  ((@chronological_append [record] more).mp h).2.1

theorem Chronological.head_lt (h : Chronological (record :: more)) :
    ∀ later ∈ more, record.sequence < later.sequence :=
  (pairwise_cons.mp h.increasing).1

theorem Chronological.snoc (h : Chronological records) (hvalid : record.Valid)
    (hlast : ∀ last, records.getLast? = some last → last.sequence < record.sequence) :
    Chronological (records ++ [record]) where
  valid := by
    intro other hmem
    rcases mem_append.mp hmem with h' | h'
    · exact h.valid other h'
    · rw [mem_singleton.mp h']
      exact hvalid
  increasing := h.increasing.snoc hlast

end Chronological

theorem HistoryRecord.Valid.length_fits {record : HistoryRecord} (h : record.Valid) :
    record.data.length < 256 ^ 4 := by
  have hshort := h.short
  unfold maxRecordBytes at hshort
  omega

theorem take_toBytes (width n : Nat) (rest : List UInt8) :
    (toBytes width n ++ rest).take width = toBytes width n :=
  take_left' (length_toBytes width n)

theorem drop_toBytes (width n : Nat) (rest : List UInt8) :
    (toBytes width n ++ rest).drop width = rest :=
  drop_left' (length_toBytes width n)

section Blocks

variable {record : HistoryRecord} {records : List HistoryRecord} {previous : Nat}
  {bytes : List UInt8}

theorem encodeEach_ok (h : Chronological records)
    (hprev : ∀ record ∈ records, previous < record.sequence) :
    ∃ encoded, encodeEach previous records = .ok encoded := by
  induction records generalizing previous with
  | nil => exact ⟨[], rfl⟩
  | cons record rest ih =>
    obtain ⟨encoded, henc⟩ := ih h.tail h.head_lt
    have hvalid := h.valid record mem_cons_self
    have hpositive := hvalid.positive
    have hfirst := hprev record mem_cons_self
    have hshort := hvalid.short
    refine ⟨toBytes 8 record.sequence ++ toBytes 4 record.data.length ++ record.data ++ encoded, ?_⟩
    rw [encodeEach, if_neg (by omega), if_neg (by simp [hvalid.nonempty]; omega), henc]
    rfl

theorem decodeRecord_encoded (hvalid : record.Valid) (hprev : previous < record.sequence)
    (rest : List UInt8) :
    decodeRecord previous (toBytes 8 record.sequence ++ toBytes 4 record.data.length ++
      record.data ++ rest) = .ok (record, rest) := by
  have hseq : ofBytes (toBytes 8 record.sequence) = record.sequence :=
    ofBytes_toBytes (by have := hvalid.fits; omega)
  have hlength : ofBytes (toBytes 4 record.data.length) = record.data.length :=
    ofBytes_toBytes hvalid.length_fits
  have hpay : ((toBytes 8 record.sequence ++ (toBytes 4 record.data.length ++
      (record.data ++ rest))).drop recordHeaderBytes) = record.data ++ rest := by
    rw [show recordHeaderBytes = 8 + 4 from rfl, ← drop_drop, drop_toBytes, drop_toBytes]
  have hnonem : 0 < record.data.length := length_pos_iff.mpr hvalid.nonempty
  have hshort := hvalid.short
  have hpositive := hvalid.positive
  simp only [append_assoc]
  unfold decodeRecord
  rw [if_neg]
  · simp only [take_toBytes, drop_toBytes, hseq, hlength, hpay]
    rw [if_neg (by omega), if_neg (by rw [length_append]; omega), take_left,
      drop_left]
  · simp only [length_append, length_toBytes, recordHeaderBytes]
    omega

theorem decodeEach_encodeEach (h : encodeEach previous records = .ok bytes)
    (hvalid : ∀ record ∈ records, record.Valid)  (rest : List UInt8) :
    decodeEach records.length previous (bytes ++ rest) = .ok (records, rest) := by
  induction records generalizing previous bytes with
  | nil =>
    cases h
    rfl
  | cons record more ih =>
    rw [encodeEach] at h
    split at h
    · cases h
    rename_i hfirst
    split at h
    · cases h
    obtain ⟨encoded, henc, h⟩ := bind_ok.mp h
    cases h
    have hrest := ih henc fun later hlater =>
      hvalid later (mem_cons_of_mem record hlater)
    rw [length_cons, decodeEach, append_assoc _ encoded rest,
      decodeRecord_encoded (hvalid record mem_cons_self) (by omega)]
    simp only [bind, Except.bind, hrest]

theorem blockHeader_length (count : Nat) : (blockHeader count).length = blockHeaderBytes := by
  have hmagic : blockMagic.length = 8 := by decide
  simp [blockHeader, hmagic, blockHeaderBytes]

theorem blockHeader_fields (count : Nat) (body : List UInt8) :
    (blockHeader count ++ body).take 8 = blockMagic ∧
      ((blockHeader count ++ body).drop 8).take 4 = archiveVersion :: List.replicate 3 0 ∧
      ((blockHeader count ++ body).drop 12).take 4 = toBytes 4 count ∧
      (blockHeader count ++ body).drop blockHeaderBytes = body := by
  have hmagic : blockMagic.length = 8 := by decide
  have hheader : blockHeader count ++ body =
      blockMagic ++ ((archiveVersion :: List.replicate 3 0) ++ (toBytes 4 count ++ body)) := by
    simp [blockHeader]
  have hafter : (blockHeader count ++ body).drop 8 =
      (archiveVersion :: List.replicate 3 0) ++ (toBytes 4 count ++ body) := by
    rw [hheader, drop_left' hmagic]
  have hcount : (blockHeader count ++ body).drop 12 = toBytes 4 count ++ body := by
    rw [show 12 = 8 + 4 from rfl, ← drop_drop, hafter]
    rfl
  refine ⟨?_, ?_, ?_, ?_⟩
  · rw [hheader, take_left' hmagic]
  · rw [hafter]
    rfl
  · rw [hcount, take_toBytes]
  · rw [← blockHeader_length count, drop_left]

theorem decodeRecords_encodeRecords (h : encodeRecords records = .ok bytes)
    (hvalid : ∀ record ∈ records, record.Valid) : decodeRecords bytes = .ok records := by
  unfold encodeRecords at h
  split at h
  · cases h
  rename_i hcount
  push Not at hcount
  obtain ⟨encoded, henc, h⟩ := bind_ok.mp h
  cases h
  have hpositive : 0 < records.length := length_pos_iff.mpr hcount.1
  have hfew : records.length ≤ maxBlockRecords := hcount.2
  have hfits : records.length < 256 ^ 4 := by
    unfold maxBlockRecords at hfew
    omega
  have hcounted : ofBytes (toBytes 4 records.length) = records.length := ofBytes_toBytes hfits
  have hrest := decodeEach_encodeEach henc hvalid []
  rw [append_nil] at hrest
  obtain ⟨htake, hversion, hcount', hbody⟩ := blockHeader_fields records.length encoded
  unfold decodeRecords
  rw [if_neg (by simp [blockHeader_length, htake, blockHeaderBytes]), if_neg (by simp [hversion])]
  simp only [hcount', hcounted, hbody, hrest]
  rw [if_neg (by omega)]
  rfl

end Blocks

section Segment

variable {record : HistoryRecord} {records : List HistoryRecord} {previous : Nat}

def encodeActive (records : List HistoryRecord) : List UInt8 :=
  records.flatMap fun record => (activeWrites record).flatten

theorem activeWrites_flatten (record : HistoryRecord) (rest : List UInt8) :
    (activeWrites record).flatten ++ rest = toBytes 8 record.sequence ++
      (toBytes 4 record.data.length ++
        (toBytes 4 (activeChecksum record.sequence record.data).toNat ++ (record.data ++ rest))) := by
  simp [activeWrites]

theorem activeHeader_fields (hvalid : record.Valid) (payload : List UInt8) :
    ofBytes ((toBytes 8 record.sequence ++ (toBytes 4 record.data.length ++
        (toBytes 4 (activeChecksum record.sequence record.data).toNat ++ payload))).take 8) =
        record.sequence ∧
      ofBytes (((toBytes 8 record.sequence ++ (toBytes 4 record.data.length ++
        (toBytes 4 (activeChecksum record.sequence record.data).toNat ++ payload))).drop 8).take
          4) = record.data.length ∧
      ofBytes (((toBytes 8 record.sequence ++ (toBytes 4 record.data.length ++
        (toBytes 4 (activeChecksum record.sequence record.data).toNat ++ payload))).drop 12).take
          4) = (activeChecksum record.sequence record.data).toNat ∧
      (toBytes 8 record.sequence ++ (toBytes 4 record.data.length ++
        (toBytes 4 (activeChecksum record.sequence record.data).toNat ++ payload))).drop
          activeRecordHeaderBytes = payload := by
  have hchecksum : (activeChecksum record.sequence record.data).toNat < 256 ^ 4 := UInt32.toNat_lt _
  have hfits := hvalid.fits
  refine ⟨?_, ?_, ?_, ?_⟩
  · rw [take_toBytes, ofBytes_toBytes (by omega)]
  · rw [drop_toBytes, take_toBytes, ofBytes_toBytes hvalid.length_fits]
  · rw [show 12 = 8 + 4 from rfl, ← drop_drop, drop_toBytes, drop_toBytes, take_toBytes,
      ofBytes_toBytes hchecksum]
  · rw [show activeRecordHeaderBytes = 8 + (4 + 4) from rfl, ← drop_drop, drop_toBytes,
      ← drop_drop, drop_toBytes, drop_toBytes]

theorem nextActive_written (hvalid : record.Valid) (hprev : previous < record.sequence)
    (rest : List UInt8) :
    nextActive previous ((activeWrites record).flatten ++ rest) = some (record, rest) := by
  obtain ⟨hseq, hlength, hchecksum, hpay⟩ := activeHeader_fields hvalid (record.data ++ rest)
  have hnonem : 0 < record.data.length := length_pos_iff.mpr hvalid.nonempty
  have hshort := hvalid.short
  have hpositive := hvalid.positive
  rw [activeWrites_flatten]
  unfold nextActive
  rw [if_neg]
  · simp only [hseq, hlength, hchecksum, hpay, take_left, drop_left]
    rw [if_neg]
    simp only [length_append]
    omega
  · simp only [length_append, length_toBytes, activeRecordHeaderBytes]
    omega

theorem nextActive_torn (hvalid : record.Valid) {count : Nat} (hcount : count < 4) :
    nextActive previous ((activeWrites record).take count).flatten = none := by
  have hshort : count < 3 → ((activeWrites record).take count).flatten.length <
      activeRecordHeaderBytes := by
    intro hcount
    interval_cases count <;> simp [activeWrites, activeRecordHeaderBytes]
  unfold nextActive
  by_cases hheader : count < 3
  · rw [if_pos (hshort hheader)]
  obtain rfl : count = 3 := by omega
  obtain ⟨hseq, hlength, hchecksum, hpay⟩ := activeHeader_fields hvalid []
  have hnonem : 0 < record.data.length := length_pos_iff.mpr hvalid.nonempty
  have hwrites : ((activeWrites record).take 3).flatten = toBytes 8 record.sequence ++
      (toBytes 4 record.data.length ++
        (toBytes 4 (activeChecksum record.sequence record.data).toNat ++ [])) := by
    simp [activeWrites]
  rw [hwrites, if_neg]
  · simp only [hseq, hlength, hpay]
    rw [if_pos]
    simp only [length_nil]
    omega
  · simp [activeRecordHeaderBytes]

theorem scanActive_encoded (h : Chronological records)
    (hprev : ∀ record ∈ records, previous < record.sequence) {torn : List UInt8}
    (htorn : ∀ previous, nextActive previous torn = none) {fuel : Nat}
    (hfuel : records.length ≤ fuel) :
    scanActive fuel previous (encodeActive records ++ torn) = (records, torn) := by
  induction records generalizing previous fuel with
  | nil =>
    cases fuel with
    | zero => rfl
    | succ fuel =>
      unfold scanActive
      simp only [encodeActive, flatMap_nil, nil_append, htorn]
  | cons record rest ih =>
    cases fuel with
    | zero => simp at hfuel
    | succ fuel =>
      have hnext := nextActive_written (h.valid record mem_cons_self)
        (hprev record mem_cons_self) (encodeActive rest ++ torn)
      have hrest := ih h.tail h.head_lt (Nat.le_of_succ_le_succ hfuel)
      have hsplit : encodeActive (record :: rest) ++ torn =
          (activeWrites record).flatten ++ (encodeActive rest ++ torn) := by
        simp [encodeActive]
      rw [hsplit, scanActive, hnext]
      simp only [hrest]

theorem encodeActive_append (records more : List HistoryRecord) :
    encodeActive (records ++ more) = encodeActive records ++ encodeActive more :=
  flatMap_append

theorem length_encodeActive (records : List HistoryRecord) :
    records.length ≤ (encodeActive records).length := by
  induction records with
  | nil => exact Nat.le_refl 0
  | cons record rest ih =>
    have hhead : (encodeActive (record :: rest)).length =
        ((activeWrites record).flatten).length + (encodeActive rest).length := by
      simp [encodeActive]
    have hwrites : 0 < ((activeWrites record).flatten).length := by
      simp [activeWrites]
    rw [length_cons, hhead]
    omega

end Segment

end Yaade.History

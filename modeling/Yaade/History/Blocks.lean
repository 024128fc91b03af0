import Yaade.History.Codec

/-!
The block format is exact: the records that are encoded are those that the
decoder gives back, and a block that is accepted is the encoding of its
records and of nothing else.
-/

namespace Yaade.History

open Yaade.Library List Option

variable {records other : List HistoryRecord} {previous : Nat}

section Encoding

variable {bytes : List UInt8}

theorem encodeEach_chronological (h : encodeEach previous records = .ok bytes)
    (hfits : ∀ record ∈ records, record.sequence < 2 ^ 64) :
    Chronological records ∧ ∀ record ∈ records, previous < record.sequence := by
  induction records generalizing previous bytes with
  | nil => exact ⟨chronological_nil, forall_mem_nil _⟩
  | cons record rest ih =>
    rw [encodeEach] at h
    split at h
    · cases h
    rename_i hseq
    split at h
    · cases h
    rename_i hdata
    push Not at hseq hdata
    obtain ⟨encoded, henc, -⟩ := bind_ok.mp h
    obtain ⟨hrest, hlater⟩ := ih henc fun later hmem =>
      hfits later (mem_cons_of_mem record hmem)
    have hvalid : record.Valid :=
      ⟨Nat.pos_of_ne_zero hseq.1, hfits record mem_cons_self, hdata.1, hdata.2⟩
    constructor
    · refine ⟨?_, pairwise_cons.mpr ⟨hlater, hrest.increasing⟩⟩
      intro member hmem
      rcases mem_cons.mp hmem with rfl | hmem
      · exact hvalid
      · exact hrest.valid member hmem
    · intro member hmem
      rcases mem_cons.mp hmem with rfl | hmem
      · exact hseq.2
      · exact hseq.2.trans (hlater member hmem)

theorem encodeRecords_ok_iff (hfits : ∀ record ∈ records, record.sequence < 2 ^ 64) :
    (∃ encoded, encodeRecords records = .ok encoded) ↔
      records ≠ [] ∧ records.length ≤ maxBlockRecords ∧ Chronological records := by
  unfold encodeRecords
  constructor
  · rintro ⟨encoded, h⟩
    split at h
    · cases h
    rename_i hcount
    push Not at hcount
    obtain ⟨body, hbody, -⟩ := bind_ok.mp h
    exact ⟨hcount.1, hcount.2, (encodeEach_chronological hbody hfits).1⟩
  · rintro ⟨hnonem, hfew, hrecords⟩
    obtain ⟨body, hbody⟩ := encodeEach_ok hrecords fun record hmem =>
      (hrecords.valid record hmem).positive
    rw [if_neg (by push Not; exact ⟨hnonem, hfew⟩), hbody]
    exact ⟨_, rfl⟩

theorem encodeRecords_block (h : encodeRecords records = .ok bytes) :
    ∃ body, encodeEach 0 records = .ok body ∧ bytes = blockHeader records.length ++ body ∧
      records.length < 256 ^ 4 := by
  unfold encodeRecords at h
  split at h
  · cases h
  rename_i hcount
  push Not at hcount
  obtain ⟨body, hbody, h⟩ := bind_ok.mp h
  cases h
  refine ⟨body, hbody, rfl, ?_⟩
  have hfew := hcount.2
  unfold maxBlockRecords at hfew
  omega

end Encoding

section Decoding

variable {record : HistoryRecord} {records : List HistoryRecord} {previous count : Nat}
  {bytes rest : List UInt8}

theorem decodeRecord_exact (h : decodeRecord previous bytes = .ok (record, rest)) :
    bytes = toBytes 8 record.sequence ++ toBytes 4 record.data.length ++ record.data ++ rest ∧
      record.Valid ∧ previous < record.sequence := by
  unfold decodeRecord at h
  split at h
  · cases h
  rename_i hheader
  simp only at h
  split at h
  · cases h
  rename_i hfields
  split at h
  · cases h
  rename_i hpay
  cases h
  push Not at hheader hfields hpay
  unfold recordHeaderBytes at *
  have height : (bytes.take 8).length = 8 := by
    rw [length_take]
    omega
  have hfour : ((bytes.drop 8).take 4).length = 4 := by
    rw [length_take, length_drop]
    omega
  have hseq := toBytes_ofBytes height
  have hlength := toBytes_ofBytes hfour
  have hfits := ofBytes_lt (bytes.take 8)
  rw [height] at hfits
  have hdata : ((bytes.drop 12).take (ofBytes ((bytes.drop 8).take 4))).length =
      ofBytes ((bytes.drop 8).take 4) := by
    rw [length_take]
    omega
  refine ⟨?_, ⟨Nat.pos_of_ne_zero hfields.1, by omega, ?_, by rw [hdata]; exact hfields.2.2.2⟩,
    hfields.2.1⟩
  · simp only
    rw [hdata, hseq, hlength, append_assoc, take_append_drop,
      append_assoc, show bytes.drop 12 = (bytes.drop 8).drop 4 by rw [drop_drop],
      take_append_drop, take_append_drop]
  · intro hnil
    exact hfields.2.2.1 (hdata.symm.trans (length_eq_zero_iff.mpr hnil))

theorem decodeEach_exact (h : decodeEach count previous bytes = .ok (records, rest)) :
    ∃ encoded, encodeEach previous records = .ok encoded ∧ bytes = encoded ++ rest ∧
      records.length = count ∧ Chronological records ∧
      ∀ record ∈ records, previous < record.sequence := by
  induction count generalizing previous bytes records with
  | zero =>
    cases h
    exact ⟨[], rfl, rfl, rfl, chronological_nil, forall_mem_nil _⟩
  | succ count ih =>
    rw [decodeEach] at h
    obtain ⟨⟨record, after⟩, hrecord, h⟩ := bind_ok.mp h
    obtain ⟨⟨more, rest'⟩, hmore, h⟩ := bind_ok.mp h
    cases h
    obtain ⟨hbytes, hvalid, hprev⟩ := decodeRecord_exact hrecord
    obtain ⟨encoded, henc, hafter, hcount, hchronological, hlater⟩ := ih hmore
    have hpositive := hvalid.positive
    have hshort := hvalid.short
    refine ⟨toBytes 8 record.sequence ++ toBytes 4 record.data.length ++ record.data ++ encoded,
      ?_, ?_, ?_, ⟨?_, pairwise_cons.mpr ⟨hlater, hchronological.increasing⟩⟩, ?_⟩
    · rw [encodeEach, if_neg (by omega), if_neg (by simp [hvalid.nonempty]; omega), henc]
      rfl
    · rw [hbytes, hafter, append_assoc _ encoded]
    · rw [length_cons, hcount]
    · intro member hmem
      rcases mem_cons.mp hmem with rfl | hmem
      · exact hvalid
      · exact hchronological.valid member hmem
    · intro member hmem
      rcases mem_cons.mp hmem with rfl | hmem
      · exact hprev
      · exact hprev.trans (hlater member hmem)

/-- An accepted block is its own encoding. -/
theorem decodeRecords_exact (h : decodeRecords bytes = .ok records) :
    encodeRecords records = .ok bytes ∧ Chronological records := by
  unfold decodeRecords at h
  split at h
  · cases h
  rename_i hmagic
  split at h
  · cases h
  rename_i hversion
  simp only at h
  split at h
  · cases h
  rename_i hcount
  obtain ⟨⟨decoded, rest⟩, hdecoded, h⟩ := bind_ok.mp h
  simp only at h
  split at h
  · rename_i hrest
    cases h
    push Not at hmagic hversion hcount
    unfold blockHeaderBytes at *
    obtain ⟨body, hbody, hdrop, hlength, hchronological, -⟩ := decodeEach_exact hdecoded
    rw [hrest, append_nil] at hdrop
    have hfour : ((bytes.drop 12).take 4).length = 4 := by
      rw [length_take, length_drop]
      omega
    have hfield := toBytes_ofBytes hfour
    have hnonem : records ≠ [] := by
      rintro rfl
      exact hcount.1 hlength.symm
    refine ⟨?_, hchronological⟩
    unfold encodeRecords
    rw [if_neg (by push Not; exact ⟨hnonem, by omega⟩), hbody]
    have hheader : bytes = blockHeader records.length ++ body := by
      unfold blockHeader
      rw [hlength, hfield, ← hmagic.2, ← hdrop, append_assoc (bytes.take 8),
        singleton_append, ← hversion]
      have hparts : bytes = bytes.take 8 ++ ((bytes.drop 8).take 4 ++
          ((bytes.drop 12).take 4 ++ bytes.drop 16)) := by
        rw [show bytes.drop 16 = (bytes.drop 12).drop 4 by rw [drop_drop],
          take_append_drop,
          show bytes.drop 12 = (bytes.drop 8).drop 4 by rw [drop_drop],
          take_append_drop, take_append_drop]
      simpa only [append_assoc] using hparts
    rw [hheader]
    rfl
  · cases h

end Decoding

/-! ## A block is read as one list of records only -/

section Distinct

variable {bytes extra : List UInt8}

theorem blockHeader_inj {first second : Nat} {body rest : List UInt8}
    (h : blockHeader first ++ body = blockHeader second ++ rest) (hfirst : first < 256 ^ 4)
    (hsecond : second < 256 ^ 4) : first = second ∧ body = rest := by
  obtain ⟨-, -, hcount, hbody⟩ := blockHeader_fields first body
  obtain ⟨-, -, hcount', hbody'⟩ := blockHeader_fields second rest
  rw [h] at hcount hbody
  have hfield : toBytes 4 first = toBytes 4 second := hcount.symm.trans hcount'
  refine ⟨?_, hbody.symm.trans hbody'⟩
  rw [← ofBytes_toBytes hfirst, hfield, ofBytes_toBytes hsecond]

theorem encodeEach_inj (h : encodeEach previous records = .ok bytes)
    (hother : encodeEach previous other = .ok bytes) (hvalid : ∀ record ∈ records, record.Valid)
    (hothers : ∀ record ∈ other, record.Valid) : records = other := by
  have hread := decodeEach_encodeEach h hvalid []
  have hread' := decodeEach_encodeEach hother hothers []
  rw [append_nil] at hread hread'
  generalize records.length = count at hread
  generalize other.length = count' at hread'
  clear h hother hvalid hothers
  induction count generalizing count' records other previous bytes with
  | zero =>
    cases hread
    cases count' with
    | zero =>
      cases hread'
      rfl
    | succ count' => cases hread'
  | succ count ih =>
    cases count' with
    | zero =>
      cases hread'
      cases hread
    | succ count' =>
      rw [decodeEach] at hread hread'
      obtain ⟨⟨record, after⟩, hrecord, hread⟩ := bind_ok.mp hread
      obtain ⟨⟨record', after'⟩, hrecord', hread'⟩ := bind_ok.mp hread'
      rw [hrecord] at hrecord'
      cases hrecord'
      obtain ⟨⟨more, rest⟩, hmore, hread⟩ := bind_ok.mp hread
      obtain ⟨⟨more', rest'⟩, hmore', hread'⟩ := bind_ok.mp hread'
      cases hread
      cases hread'
      rw [ih hmore count' hmore']

theorem decodeRecords_start (h : decodeRecords bytes = .ok records)
    (hlonger : decodeRecords (bytes ++ extra) = .ok other) : extra = [] := by
  obtain ⟨hencode, hrecords⟩ := decodeRecords_exact h
  obtain ⟨hencode', hothers⟩ := decodeRecords_exact hlonger
  obtain ⟨body, hbody, hbytes, hcount⟩ := encodeRecords_block hencode
  obtain ⟨body', hbody', hbytes', hcount'⟩ := encodeRecords_block hencode'
  rw [hbytes, append_assoc] at hbytes'
  obtain ⟨hlength, htail⟩ := blockHeader_inj hbytes' hcount hcount'
  have hread := decodeEach_encodeEach hbody hrecords.valid extra
  have hread' := decodeEach_encodeEach hbody' hothers.valid []
  rw [append_nil, ← htail, ← hlength, hread] at hread'
  cases hread'
  rfl

theorem decodeRecords_count {count : Nat} (h : encodeRecords records = .ok bytes)
    (hrecords : ∀ record ∈ records, record.Valid) (hcount : count < 256 ^ 4)
    (hread : decodeRecords (blockHeader count ++ bytes.drop blockHeaderBytes) = .ok other) :
    count = records.length := by
  obtain ⟨body, hbody, rfl, -⟩ := encodeRecords_block h
  obtain ⟨-, -, -, hdrop⟩ := blockHeader_fields records.length body
  rw [hdrop] at hread
  obtain ⟨hencode, hothers⟩ := decodeRecords_exact hread
  obtain ⟨body', hbody', hbytes, hfew⟩ := encodeRecords_block hencode
  obtain ⟨hlength, htail⟩ := blockHeader_inj hbytes hcount hfew
  rw [← htail] at hbody'
  rw [hlength, encodeEach_inj hbody' hbody hothers.valid hrecords]

end Distinct

/-- Blocks and lists of records in order are the same thing: all such lists and
no others are encoded, each is read back as it was, and what is accepted is the
encoding of what is read; so no block is accepted that is cut short, goes on
after its end or has another count. -/
theorem block_codec : (∀ records, (∀ record ∈ records, record.sequence < 2 ^ 64) →
      ((∃ bytes, encodeRecords records = .ok bytes) ↔
        records ≠ [] ∧ records.length ≤ maxBlockRecords ∧ Chronological records) ∧
      ∀ bytes, encodeRecords records = .ok bytes → decodeRecords bytes = .ok records) ∧
    ∀ bytes records, decodeRecords bytes = .ok records →
      encodeRecords records = .ok bytes ∧
      (∀ length < bytes.length, ∃ error, decodeRecords (bytes.take length) = .error error) ∧
      (∀ extra, extra ≠ [] → ∃ error, decodeRecords (bytes ++ extra) = .error error) ∧
      ∀ count < 2 ^ 32, count ≠ records.length →
        ∃ error, decodeRecords (blockHeader count ++ bytes.drop blockHeaderBytes) =
          .error error := by
  constructor
  · intro records hfits
    refine ⟨encodeRecords_ok_iff hfits, fun bytes h => decodeRecords_encodeRecords h ?_⟩
    exact ((encodeRecords_ok_iff hfits).mp ⟨bytes, h⟩).2.2.valid
  · intro bytes records h
    obtain ⟨hencode, hrecords⟩ := decodeRecords_exact h
    refine ⟨hencode, ?_, ?_, ?_⟩
    · intro length hlength
      cases hread : decodeRecords (bytes.take length) with
      | error error => exact ⟨error, rfl⟩
      | ok other =>
        have hwhole := decodeRecords_start hread ((take_append_drop length bytes).symm ▸ h)
        rw [drop_eq_nil_iff] at hwhole
        omega
    · intro extra hextra
      cases hread : decodeRecords (bytes ++ extra) with
      | error error => exact ⟨error, rfl⟩
      | ok other => exact absurd (decodeRecords_start h hread) hextra
    · intro count hcount hother
      cases hread : decodeRecords (blockHeader count ++ bytes.drop blockHeaderBytes) with
      | error error => exact ⟨error, rfl⟩
      | ok other =>
        exact absurd (decodeRecords_count hencode hrecords.valid (by omega) hread) hother

end Yaade.History

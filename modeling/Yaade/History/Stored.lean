import Yaade.History.Archive

/-!
What a directory holds: records in published blocks, records that are pending
in the active segment, and what may be left there of records that are
published.
-/

namespace Yaade.History

open Yaade.Library List Option IndexMap

/-! ## Names of blocks -/

theorem padLeft_value (n : Nat) : Nat.ofDigitChars 10 (padLeft 12 (Nat.toDigits 10 n)) 0 = n := by
  unfold padLeft
  rw [Nat.ofDigitChars_append, Nat.ofDigitChars_replicate_zero, Nat.mul_zero,
    Nat.ofDigitChars_toDigits (by decide) (by decide)]

theorem dash_notMem_padLeft (n : Nat) : '-' ∉ padLeft 12 (Nat.toDigits 10 n) := by
  unfold padLeft
  intro hmem
  rcases mem_append.mp hmem with hzero | hdigit
  · have hdash := eq_of_mem_replicate hzero
    revert hdash
    decide
  · have hdash := Nat.isDigit_of_mem_toDigits (by decide) (by decide) hdigit
    revert hdash
    decide

theorem blockFile_first {first last first' last' : Nat}
    (h : blockFile first last = blockFile first' last') : first = first' := by
  have hchars := String.ofList_injective h
  rw [append_assoc, append_assoc, cons_append, cons_append] at hchars
  have hrest : '-' ∉ padLeft 12 (Nat.toDigits 10 last) ++ ".bin.gz".toList := by
    rw [mem_append, not_or]
    exact ⟨dash_notMem_padLeft last, by decide⟩
  have hfirst := (append_cons_inj_of_notMem (dash_notMem_padLeft first) hrest).mp hchars
  rw [← padLeft_value first, hfirst.1, padLeft_value]

theorem blockFile_ne_tmp (first last first' last' : Nat) :
    blockFile first last ≠ blockFile first' last' ++ ".tmp" := by
  intro h
  have hlast := congrArg (fun name => name.toList.getLast?) h
  simp [blockFile, getLast?_cons, getLast?_append] at hlast

/-! ## The reading of a directory -/

def firstOf (records : List HistoryRecord) : Nat :=
  (records.head?.map HistoryRecord.sequence).getD 0

def lastOf (records : List HistoryRecord) : Nat :=
  (records.getLast?.map HistoryRecord.sequence).getD 0

def groupFile (group : List HistoryRecord) : String := blockFile (firstOf group) (lastOf group)

structure StoredBlock (gzip : Gzip) (files : IndexMap String (List UInt8)) (block : ArchiveBlock)
    (group : List HistoryRecord) : Prop where
  nonempty : group ≠ []
  first : block.firstSequence = firstOf group
  last : block.lastSequence = lastOf group
  file : block.file = groupFile group
  stored : ∃ encoded, encodeRecords group = .ok encoded ∧
    files.get? block.file = some (gzip.compress encoded)

/-- The active segment: records that are published already, records that are
pending, and the start of a record whose last write is missing. A segment that
was not begun holds nothing. -/
structure StoredActive (active : Option (List UInt8)) (stale pending : List HistoryRecord)
    (torn : List UInt8) : Prop where
  bytes : active = some (activeMagic ++ encodeActive (stale ++ pending) ++ torn) ∨
    (active.getD [] = [] ∧ stale = [] ∧ pending = [] ∧ torn = [])
  torn : ∀ previous, nextActive previous torn = none

structure Stored (gzip : Gzip) (terminalId : String) (dir : ArchiveDir)
    (manifest : ArchiveManifest) (groups : List (List HistoryRecord))
    (pending stale : List HistoryRecord) (torn : List UInt8) : Prop where
  index : dir.index = some (.manifest manifest)
  version : manifest.version = archiveVersion.toNat
  terminal : manifest.terminalId = terminalId
  blocks : List.Forall₂ (StoredBlock gzip dir.files) manifest.blocks groups
  order : Chronological (groups.flatten ++ pending)
  active : StoredActive dir.active stale pending torn
  staleOrder : Chronological stale
  staleOld : ∀ record ∈ stale, record.sequence ≤ lastOf groups.flatten

/-- An archive that is open: its directory is as the state in memory says,
but for the time of the last update, and nothing in it is torn. -/
structure Live (gzip : Gzip) (terminalId : String) (dir : ArchiveDir) (state : ArchiveState)
    (groups : List (List HistoryRecord)) : Prop where
  stored : ∃ updatedAt stale, Stored gzip terminalId dir
    { state.manifest with updatedAt := updatedAt } groups state.pending stale []
  begun : dir.active.getD [] ≠ []
  counted : state.pendingBytes = payloadBytes state.pending

section Sequences

variable {records more : List HistoryRecord}

theorem lastOf_append (hmore : more ≠ []) : lastOf (records ++ more) = lastOf more := by
  unfold lastOf
  rw [getLast?_append_of_ne_nil records hmore]

theorem lastOf_mem (h : records ≠ []) :
    ∃ last, records.getLast? = some last ∧ last ∈ records ∧ lastOf records = last.sequence := by
  refine ⟨records.getLast h, getLast?_eq_some_getLast h, getLast_mem h, ?_⟩
  unfold lastOf
  rw [getLast?_eq_some_getLast h]
  rfl

theorem firstOf_mem (h : records ≠ []) :
    ∃ first, records.head? = some first ∧ first ∈ records ∧ firstOf records = first.sequence := by
  refine ⟨records.head h, head?_eq_some_head h, head_mem h, ?_⟩
  unfold firstOf
  rw [head?_eq_some_head h]
  rfl

theorem Chronological.le_lastOf (h : Chronological records) {record : HistoryRecord}
    (hmem : record ∈ records) : record.sequence ≤ lastOf records := by
  obtain ⟨last, hlast, -, hseq⟩ := lastOf_mem (ne_nil_of_mem hmem)
  rw [hseq]
  exact h.increasing.last_max hlast record hmem

theorem Chronological.lastOf_lt (h : Chronological (records ++ more)) {record : HistoryRecord}
    (hmem : record ∈ more) : lastOf records < record.sequence := by
  obtain ⟨-, hmore, hacross⟩ := chronological_append.mp h
  by_cases hrecords : records = []
  · subst hrecords
    exact (hmore.valid record hmem).positive
  obtain ⟨last, -, hlast, hseq⟩ := lastOf_mem hrecords
  rw [hseq]
  exact hacross last hlast record hmem

end Sequences

variable {gzip : Gzip} {pending stale : List HistoryRecord} {groups : List (List HistoryRecord)}
  {torn : List UInt8} {id : String} {blocks : List ArchiveBlock} {manifest : ArchiveManifest}

section Stored

variable {dir dir' : ArchiveDir} {files files' : IndexMap String (List UInt8)}

section

variable (h : List.Forall₂ (StoredBlock gzip files) blocks groups)
include h

theorem stored_mono (hfiles : ∀ block ∈ blocks, files'.get? block.file = files.get? block.file) :
    List.Forall₂ (StoredBlock gzip files') blocks groups := by
  induction h with
  | nil => exact .nil
  | cons hblock _ ih =>
    apply List.Forall₂.cons
    · refine { hblock with stored := ?_ }
      rw [hfiles _ mem_cons_self]
      exact hblock.stored
    · exact ih fun block hmem => hfiles block (mem_cons_of_mem _ hmem)

theorem stored_mem {block : ArchiveBlock} (hmem : block ∈ blocks) :
    ∃ group ∈ groups, StoredBlock gzip files block group := by
  induction h with
  | nil => cases hmem
  | cons hblock _ ih =>
    rcases mem_cons.mp hmem with rfl | hrest
    · exact ⟨_, mem_cons_self, hblock⟩
    · obtain ⟨group, hgroup, hstored⟩ := ih hrest
      exact ⟨group, mem_cons_of_mem _ hgroup, hstored⟩

theorem stored_mem_group {group : List HistoryRecord} (hmem : group ∈ groups) :
    ∃ block ∈ blocks, StoredBlock gzip files block group := by
  induction h with
  | nil => cases hmem
  | cons hblock _ ih =>
    rcases mem_cons.mp hmem with rfl | hrest
    · exact ⟨_, mem_cons_self, hblock⟩
    · obtain ⟨block, hblock, hstored⟩ := ih hrest
      exact ⟨block, mem_cons_of_mem _ hblock, hstored⟩

theorem stored_files : blocks.map ArchiveBlock.file = groups.map groupFile := by
  induction h with
  | nil => rfl
  | cons hblock _ ih => rw [map_cons, map_cons, hblock.file, ih]

end

theorem blockSequence_eq (h : List.Forall₂ (StoredBlock gzip files) manifest.blocks groups) :
    manifest.blocks.getLast?.map ArchiveBlock.lastSequence =
      groups.flatten.getLast?.map HistoryRecord.sequence := by
  rcases eq_nil_or_concat groups with hnil | ⟨front, group, hgroups⟩
  · rw [hnil, List.forall₂_nil_right_iff] at h
    rw [h, hnil]
    rfl
  rw [concat_eq_append] at hgroups
  subst hgroups
  have hlast := List.forall₂_drop_append _ _ _ h
  have hsplit := take_append_drop front.length manifest.blocks
  cases hdrop : manifest.blocks.drop front.length with
  | nil =>
    rw [hdrop] at hlast
    cases hlast
  | cons block rest =>
    rw [hdrop] at hlast hsplit
    cases hlast with
    | cons hblock hrest =>
      cases hrest
      rw [← hsplit, getLast?_concat, flatten_concat, getLast?_append_of_ne_nil _ hblock.nonempty]
      rw [map_some, hblock.last]
      obtain ⟨last, hlast, -, hseq⟩ := lastOf_mem hblock.nonempty
      rw [hlast, map_some, hseq]

theorem Stored.frame (h : Stored gzip id dir manifest groups pending stale torn)
    (hindex : dir'.index = dir.index) (hactive : dir'.active = dir.active)
    (hfiles : ∀ block ∈ manifest.blocks, dir'.files.get? block.file = dir.files.get? block.file) :
    Stored gzip id dir' manifest groups pending stale torn where
  __ := h
  index := by rw [hindex, h.index]
  blocks := stored_mono h.blocks hfiles
  active := by rw [hactive]; exact h.active

theorem Stored.fresh (h : Stored gzip id dir manifest groups pending stale torn)
    {block : ArchiveBlock} (hmem : block ∈ manifest.blocks) {first last : Nat}
    (hnew : lastOf groups.flatten < first) : block.file ≠ blockFile first last := by
  obtain ⟨group, hgroup, hstored⟩ := stored_mem h.blocks hmem
  intro hfile
  rw [hstored.file] at hfile
  have hfirst := blockFile_first hfile
  obtain ⟨record, -, hrecord, hseq⟩ := firstOf_mem hstored.nonempty
  have hflat : record ∈ groups.flatten := mem_flatten.mpr ⟨group, hgroup, hrecord⟩
  have hle := (chronological_append.mp h.order).1.le_lastOf hflat
  omega

theorem Stored.publish (h : Stored gzip id dir manifest groups pending stale [])
    (hpend : pending ≠ []) {encoded : List UInt8} (henc : encodeRecords pending = .ok encoded)
    {block : ArchiveBlock} (hblock : block.firstSequence = firstOf pending ∧
      block.lastSequence = lastOf pending ∧ block.file = groupFile pending)
    (hfile : dir.files.get? block.file = some (gzip.compress encoded)) {updatedAt : Nat}
    (hindex : dir'.index = some (.manifest { manifest with
      blocks := manifest.blocks ++ [block]
      updatedAt := updatedAt }))
    (hactive : dir'.active = dir.active) (hfiles : dir'.files = dir.files) :
    Stored gzip id dir' { manifest with
      blocks := manifest.blocks ++ [block]
      updatedAt := updatedAt } (groups ++ [pending]) [] (stale ++ pending) [] := by
  obtain ⟨hpublished, hnew, hacross⟩ := chronological_append.mp h.order
  have hflat : (groups ++ [pending]).flatten = groups.flatten ++ pending := by simp
  have holder : ∀ a ∈ stale, ∀ b ∈ pending, a.sequence < b.sequence := by
    intro a ha b hb
    have hold := h.staleOld a ha
    have hlt := h.order.lastOf_lt hb
    omega
  refine ⟨hindex, h.version, h.terminal, ?_, ?_, ?_, ?_, ?_⟩
  · rw [hfiles]
    apply rel_append h.blocks
    exact .cons ⟨hpend, hblock.1, hblock.2.1, hblock.2.2, encoded, henc, hfile⟩ .nil
  · rw [hflat, append_nil]
    exact h.order
  · rw [hactive]
    rcases h.active.bytes with hbytes | ⟨-, -, hnil, -⟩
    · refine ⟨.inl ?_, h.active.torn⟩
      rw [hbytes, append_nil (stale ++ pending)]
    · exact absurd hnil hpend
  · exact chronological_append.mpr ⟨h.staleOrder, hnew, holder⟩
  · intro record hmem
    rw [hflat, lastOf_append hpend]
    rcases mem_append.mp hmem with hold | hrecord
    · obtain ⟨last, -, hlast, hseq⟩ := lastOf_mem hpend
      rw [hseq]
      exact Nat.le_of_lt (holder record hold last hlast)
    · exact hnew.le_lastOf hrecord

theorem Stored.reset (h : Stored gzip id dir manifest groups [] stale torn)
    (hindex : dir'.index = dir.index) (hfiles : dir'.files = dir.files)
    (hactive : dir'.active = some [] ∨ dir'.active = some activeMagic) :
    Stored gzip id dir' manifest groups [] [] [] := by
  refine ⟨hindex.trans h.index, h.version, h.terminal, ?_, h.order, ⟨?_, ?_⟩,
    chronological_nil, forall_mem_nil _⟩
  · rw [hfiles]
    exact h.blocks
  · rcases hactive with hempty | hmagic
    · exact .inr ⟨by rw [hempty]; rfl, rfl, rfl, rfl⟩
    refine .inl ?_
    rw [hmagic]
    simp [encodeActive]
  · intro previous
    rfl

end Stored

/-! ## Reading -/

variable {dir : ArchiveDir}

section Reading

theorem readBlock_stored (hgzip : gzip.Lossless) {block : ArchiveBlock}
    {group : List HistoryRecord} (h : StoredBlock gzip dir.files block group)
    (hvalid : ∀ record ∈ group, record.Valid) : readBlock gzip (some dir) block = .ok group := by
  obtain ⟨encoded, henc, hfile⟩ := h.stored
  unfold readBlock
  simp only [bind_some, hfile, hgzip encoded]
  exact decodeRecords_encodeRecords henc hvalid

theorem readBlocks_stored (hgzip : gzip.Lossless)
    (h : List.Forall₂ (StoredBlock gzip dir.files) blocks groups)
    (hvalid : ∀ record ∈ groups.flatten, record.Valid) :
    blocks.mapM (readBlock gzip (some dir)) = .ok groups := by
  induction h with
  | nil => rfl
  | cons hblock _ ih =>
    rw [flatten_cons] at hvalid
    have hfirst := readBlock_stored hgzip hblock fun record hmem =>
      hvalid record (mem_append_left _ hmem)
    have hrest := ih fun record hmem => hvalid record (mem_append_right _ hmem)
    rw [mapM_cons, hfirst, hrest]
    rfl

theorem Stored.valid (h : Stored gzip id dir manifest groups pending stale torn) :
    ∀ record ∈ groups.flatten, record.Valid :=
  fun record hmem => h.order.valid record (mem_append_left pending hmem)

end Reading

/-! ## What survives -/

/-- The records that a directory holds. Before its index is written it holds none. -/
def Holds (gzip : Gzip) (terminalId : String) (kept : List HistoryRecord)
    (dir : Option ArchiveDir) : Prop :=
  (kept = [] ∧ ∀ d, dir = some d → d.index = none ∧ d.active = none) ∨
    ∃ d manifest groups pending stale torn, dir = some d ∧
      Stored gzip terminalId d manifest groups pending stale torn ∧
      kept = groups.flatten ++ pending

variable {state : ArchiveState}

section Survival

variable {admits : List FsStep → Prop}

theorem Stored.holds {manifest : ArchiveManifest} {pending stale : List HistoryRecord}
    {torn : List UInt8} (h : Stored gzip id dir manifest groups pending stale torn) :
    Holds gzip id (groups.flatten ++ pending) (some dir) :=
  .inr ⟨dir, manifest, groups, pending, stale, torn, rfl, h, rfl⟩

/-- The pending records become a block: the block is written, then the index
that lists it, and only then the segment is emptied. -/
theorem publish_spec {manifest : ArchiveManifest} {pending stale : List HistoryRecord}
    (h : Stored gzip id dir manifest groups pending stale []) (htail : Tailed admits)
    (hpend : pending ≠ []) {encoded : List UInt8} (henc : encodeRecords pending = .ok encoded)
    {block : ArchiveBlock} (hblock : block.firstSequence = firstOf pending ∧
      block.lastSequence = lastOf pending ∧ block.file = groupFile pending)
    {updatedAt : Nat} {published : ArchiveManifest} (hpublished : published = { manifest with
      blocks := manifest.blocks ++ [block]
      updatedAt := updatedAt }) :
    Survives FsStep.apply admits (fun _ => Holds gzip id (groups.flatten ++ pending))
        (some dir) ([.writeFile (block.file ++ ".tmp") (gzip.compress encoded),
          .renameFile (block.file ++ ".tmp") block.file] ++ writeManifest published ++
            resetActive) ∧
      ∃ after, runSteps FsStep.apply (some dir)
          ([.writeFile (block.file ++ ".tmp") (gzip.compress encoded),
            .renameFile (block.file ++ ".tmp") block.file] ++ writeManifest published ++
              resetActive) = some after ∧
        Stored gzip id after published (groups ++ [pending]) [] [] [] ∧
        after.active.getD [] ≠ [] := by
  obtain ⟨first, -, hfirst, hseq⟩ := firstOf_mem hpend
  have hnew : lastOf groups.flatten < firstOf pending := by
    rw [hseq]
    exact h.order.lastOf_lt hfirst
  have hnames : ∀ other ∈ manifest.blocks, other.file ≠ block.file ++ ".tmp" ∧
      other.file ≠ block.file := by
    intro other hmem
    obtain ⟨group, -, hother⟩ := stored_mem h.blocks hmem
    rw [hblock.2.2]
    refine ⟨?_, h.fresh hmem hnew⟩
    rw [hother.file]
    exact blockFile_ne_tmp _ _ _ _
  have hbytes : ∃ bytes, dir.active = some bytes := by
    rcases h.active.bytes with hbytes | ⟨-, -, hnil, -⟩
    · exact ⟨_, hbytes⟩
    · exact absurd hnil hpend
  obtain ⟨bytes, hbytes⟩ := hbytes
  -- the directory after each of the six steps
  let written : ArchiveDir :=
    { dir with files := dir.files.insert (block.file ++ ".tmp") (gzip.compress encoded) }
  let renamed : ArchiveDir := { dir with
    files := (written.files.shiftRemove (block.file ++ ".tmp")).insert block.file
      (gzip.compress encoded) }
  let listed : ArchiveDir := { renamed with indexTmp := some (.manifest published) }
  let indexed : ArchiveDir := { renamed with
    index := some (.manifest published)
    indexTmp := none }
  let emptied : ArchiveDir := { indexed with active := some [] }
  let begun : ArchiveDir := { indexed with active := some activeMagic }
  have hwrite : FsStep.apply (some dir)
      (.writeFile (block.file ++ ".tmp") (gzip.compress encoded)) = some written := rfl
  have hrename : FsStep.apply (some written) (.renameFile (block.file ++ ".tmp") block.file) =
      some renamed := by
    simp [FsStep.apply, ArchiveDir.apply, written, renamed, get?_insert]
  have hlist : FsStep.apply (some renamed) (.writeIndexTmp published) = some listed := rfl
  have hpoint : FsStep.apply (some listed) .renameIndex = some indexed := rfl
  have hempty : FsStep.apply (some indexed) (.setActiveLen 0) = some emptied := by
    simp [FsStep.apply, ArchiveDir.apply, indexed, emptied, renamed, hbytes]
  have hbegin : FsStep.apply (some emptied) (.appendActive activeMagic) = some begun := rfl
  have hwrt : Stored gzip id written manifest groups pending stale [] := by
    refine h.frame rfl rfl ?_
    intro other hmem
    rw [get?_insert, if_neg (hnames other hmem).1]
  have hrenamed : Stored gzip id renamed manifest groups pending stale [] := by
    refine hwrt.frame rfl rfl ?_
    intro other hmem
    rw [get?_insert, if_neg (hnames other hmem).2, get?_shiftRemove, if_neg (hnames other hmem).1]
  have hlisted : Stored gzip id listed manifest groups pending stale [] :=
    hrenamed.frame rfl rfl fun _ _ => rfl
  have hfile : renamed.files.get? block.file = some (gzip.compress encoded) := by
    rw [get?_insert, if_pos rfl]
  have hindexed : Stored gzip id indexed published (groups ++ [pending]) []
      (stale ++ pending) [] := by
    subst hpublished
    exact hrenamed.publish hpend henc hblock hfile rfl rfl rfl
  have hemptied : Stored gzip id emptied published (groups ++ [pending]) [] [] [] :=
    hindexed.reset rfl rfl (.inl rfl)
  have hbegun : Stored gzip id begun published (groups ++ [pending]) [] [] [] :=
    hindexed.reset rfl rfl (.inr rfl)
  have hkept : groups.flatten ++ pending = (groups ++ [pending]).flatten ++ [] := by simp
  have hsteps : [.writeFile (block.file ++ ".tmp") (gzip.compress encoded),
      .renameFile (block.file ++ ".tmp") block.file] ++ writeManifest published ++ resetActive =
      [.writeFile (block.file ++ ".tmp") (gzip.compress encoded),
        .renameFile (block.file ++ ".tmp") block.file, .writeIndexTmp published, .renameIndex,
        .setActiveLen 0, .appendActive activeMagic] := rfl
  rw [hsteps]
  constructor
  · refine Survives.step htail h.holds hwrite ?_
    refine Survives.step htail hwrt.holds hrename ?_
    refine Survives.step htail hrenamed.holds hlist ?_
    refine Survives.step htail hlisted.holds hpoint ?_
    rw [hkept]
    refine Survives.step htail hindexed.holds hempty ?_
    refine Survives.step htail hemptied.holds hbegin ?_
    exact Survives.nil hbegun.holds
  · refine ⟨begun, ?_, hbegun, by simp [begun, activeMagic, ascii]⟩
    simp only [runSteps_cons, runSteps_nil]
    rw [hwrite, hrename, hlist, hpoint, hempty, hbegin]

end Survival

/-! ## What work keeps -/

def removedFiles (steps : List FsStep) : List String :=
  steps.filterMap fun
    | .removeFile file => some file
    | _ => none

def PublishesRemovals (steps : List FsStep) : Prop :=
  ∀ before file after, steps = before ++ .removeFile file :: after → .renameIndex ∈ after

theorem publishesRemovals_tailed : Tailed PublishesRemovals := by
  intro step rest h before file after hrest
  apply h (step :: before) file after
  rw [hrest, cons_append]

theorem removedFiles_append (first rest : List FsStep) :
    removedFiles (first ++ rest) = removedFiles first ++ removedFiles rest :=
  filterMap_append

/-- All records, but those in the blocks that were removed, are in the directory. -/
def Sheds (gzip : Gzip) (terminalId : String) (all : List HistoryRecord) (done : List FsStep)
    (dir : Option ArchiveDir) : Prop :=
  ∃ (gone : List (List HistoryRecord)) (kept : List HistoryRecord),
    removedFiles done = gone.map groupFile ∧ all = gone.flatten ++ kept ∧
      Holds gzip terminalId kept dir

/-- Work on an open archive keeps its records wherever it is cut short, and
leaves an open archive. -/
structure Work.Keeps (gzip : Gzip) (terminalId : String) (dir : ArchiveDir)
    (all : List HistoryRecord) (work : Work) : Prop where
  survives : Survives FsStep.apply PublishesRemovals (Sheds gzip terminalId all) (some dir)
    work.steps
  live : ∃ (gone : List (List HistoryRecord)) (after : ArchiveDir)
      (groups : List (List HistoryRecord)), removedFiles work.steps = gone.map groupFile ∧
    runSteps FsStep.apply (some dir) work.steps = some after ∧
    Live gzip terminalId after work.state groups ∧
    all = gone.flatten ++ (groups.flatten ++ work.state.pending)

section Keeps

variable {all : List HistoryRecord} {done : List FsStep}

theorem Holds.sheds {d : Option ArchiveDir} (h : Holds gzip id all d)
    (hdone : removedFiles done = []) : Sheds gzip id all done d :=
  ⟨[], all, hdone, rfl, h⟩

theorem removedFiles_part {steps : List FsStep} (hdone : done <+: steps)
    (hnone : removedFiles steps = []) : removedFiles done = [] := by
  obtain ⟨rest, rfl⟩ := hdone
  rw [removedFiles_append, append_eq_nil_iff] at hnone
  exact hnone.1

theorem sheds_survive {d : Option ArchiveDir} {steps : List FsStep}
    (h : Survives FsStep.apply PublishesRemovals (fun _ => Holds gzip id all) d steps)
    (hnone : removedFiles steps = []) :
    Survives FsStep.apply PublishesRemovals (Sheds gzip id all) d steps :=
  h.mono fun _ _ hprefix hholds => hholds.sheds (removedFiles_part hprefix hnone)

theorem Live.holds (h : Live gzip id dir state groups) :
    Holds gzip id (groups.flatten ++ state.pending) (some dir) := by
  obtain ⟨updatedAt, stale, hstored⟩ := h.stored
  exact hstored.holds

theorem Live.idle (h : Live gzip id dir state groups) (result : Except HistoryError Unit) :
    Work.Keeps gzip id dir (groups.flatten ++ state.pending) ⟨result, state, []⟩ where
  survives := .nil (h.holds.sheds rfl)
  live := ⟨[], dir, groups, rfl, rfl, h, rfl⟩

theorem Work.Keeps.andThen {work : Work} (h : work.Keeps gzip id dir all)
    {next : ArchiveState → Work} (hnext : ∀ after groups, Live gzip id after work.state
      groups → (next work.state).Keeps gzip id after
        (groups.flatten ++ work.state.pending)) : (work.andThen next).Keeps gzip id dir all := by
  unfold Work.andThen
  split
  · rename_i error herror
    exact ⟨h.survives, h.live⟩
  obtain ⟨gone, after, groups, hgone, hafter, hlive, hall⟩ := h.live
  have hrest := hnext after groups hlive
  constructor
  · apply Survives.append publishesRemovals_tailed h.survives
    rw [hafter]
    refine hrest.survives.mono ?_
    rintro done d - ⟨more, kept, hmore, hkept, hholds⟩
    refine ⟨gone ++ more, kept, ?_, ?_, hholds⟩
    · rw [removedFiles_append, hgone, hmore, map_append]
    · rw [hall, hkept, flatten_append, append_assoc]
  · obtain ⟨more, last, groups', hmore, hlast, hlive', hkept⟩ := hrest.live
    refine ⟨gone ++ more, last, groups', ?_, ?_, hlive', ?_⟩
    · rw [removedFiles_append, hgone, hmore, map_append]
    · rw [runSteps_append, hafter, hlast]
    · rw [hall, hkept, flatten_append, append_assoc]

theorem flush_keeps (h : Live gzip id dir state groups) (now : Nat) :
    (flushState gzip now state).Keeps gzip id dir (groups.flatten ++ state.pending) := by
  unfold flushState
  split
  · exact h.idle _
  rename_i hpend
  split
  · exact h.idle _
  rename_i encoded henc
  obtain ⟨updatedAt, stale, hstored⟩ := h.stored
  have hlast : (state.pending.getLast?.map HistoryRecord.sequence).getD (firstOf state.pending) =
      lastOf state.pending := by
    obtain ⟨last, hlast, -, hseq⟩ := lastOf_mem hpend
    rw [hseq, hlast]
    rfl
  have hblock : (⟨blockFile (firstOf state.pending) (lastOf state.pending),
      firstOf state.pending, lastOf state.pending, state.pendingBytes,
      (gzip.compress encoded).length⟩ : ArchiveBlock).firstSequence = firstOf state.pending ∧
      lastOf state.pending = lastOf state.pending ∧
      blockFile (firstOf state.pending) (lastOf state.pending) = groupFile state.pending :=
    ⟨rfl, rfl, rfl⟩
  obtain ⟨hsurvives, after, hafter, hpublished, hbegun⟩ :=
    publish_spec hstored publishesRemovals_tailed hpend henc hblock rfl
  simp only [show (state.pending.head?.map HistoryRecord.sequence).getD 0 =
    firstOf state.pending from rfl, hlast]
  exact ⟨sheds_survive hsurvives rfl, [], after, groups ++ [state.pending], rfl, hafter,
    ⟨⟨now, [], hpublished⟩, hbegun, rfl⟩, by simp⟩

end Keeps

/-! ## Quota -/

section Quota

theorem overQuota_append (bytes : Nat) (blocks : List ArchiveBlock) :
    (overQuota bytes blocks).1 ++ (overQuota bytes blocks).2 = blocks ∧
      (blocks ≠ [] → (overQuota bytes blocks).2 ≠ []) := by
  fun_induction overQuota bytes blocks with
  | case1 bytes block next rest _ evicted kept hrest ih =>
    rw [hrest] at ih
    refine ⟨by rw [cons_append, ih.1], fun _ => ih.2 (cons_ne_nil next rest)⟩
  | case2 bytes block next rest => exact ⟨rfl, fun h => h⟩
  | case3 bytes blocks => exact ⟨rfl, fun h => h⟩

theorem removedFiles_evict (evicted : List ArchiveBlock) :
    removedFiles (evicted.map fun block => .removeFile block.file) =
      evicted.map ArchiveBlock.file := by
  unfold removedFiles
  rw [List.filterMap_map]
  exact congrFun filterMap_eq_map' evicted

theorem overQuota_minimal {bytes : Nat} {blocks : List ArchiveBlock}
    (hbytes : bytes = storedBytes blocks) :
    (storedBytes (overQuota bytes blocks).2 ≤ maxTerminalBytes ∨
        (overQuota bytes blocks).2.length ≤ 1) ∧
      ∀ fewer rest, blocks = fewer ++ rest → fewer.length < (overQuota bytes blocks).1.length →
        maxTerminalBytes < storedBytes rest := by
  fun_induction overQuota bytes blocks with
  | case1 bytes block next rest hover evicted kept hrest ih =>
    rw [hrest] at ih
    obtain ⟨hwithin, hfewest⟩ := ih (by simp [hbytes, storedBytes])
    refine ⟨hwithin, fun fewer others hsplit hshort => ?_⟩
    cases fewer with
    | nil =>
      obtain rfl : _ = others := hsplit
      exact hbytes ▸ hover
    | cons first fewer =>
      obtain ⟨-, hsplit⟩ := cons.inj hsplit
      exact hfewest fewer others hsplit (Nat.lt_of_succ_lt_succ hshort)
  | case2 bytes block next rest hwithin => exact ⟨.inl (hbytes ▸ Nat.not_lt.mp hwithin), nofun⟩
  | case3 bytes blocks hfew =>
    refine ⟨.inr ?_, nofun⟩
    match blocks with
    | [] | [_] => simp
    | first :: next :: rest => exact absurd rfl (hfew first next rest)

/-- The quota takes the oldest blocks, no more than bring the rest within the
limit, and removes their files and no other. -/
theorem quota_takes_fewest (state : ArchiveState) : ∃ evicted,
    let work := enforceTerminalQuota state
    let kept := work.state.manifest.blocks
    state.manifest.blocks = evicted ++ kept ∧
      removedFiles work.steps = evicted.map ArchiveBlock.file ∧
      (storedBytes kept ≤ maxTerminalBytes ∨ kept.length ≤ 1) ∧
      ∀ fewer rest, state.manifest.blocks = fewer ++ rest → fewer.length < evicted.length →
        maxTerminalBytes < storedBytes rest := by
  have hblocks := (overQuota_append (storedBytes state.manifest.blocks) state.manifest.blocks).1
  refine ⟨_, hblocks.symm, ?_, overQuota_minimal rfl⟩
  exact (removedFiles_append _ _).trans ((append_nil _).trans (removedFiles_evict _))

theorem evict_frame (evicted : List ArchiveBlock) (dir : ArchiveDir) :
    ∃ after, runSteps FsStep.apply (some dir)
        (evicted.map fun block => .removeFile block.file) = some after ∧
      after.index = dir.index ∧ after.active = dir.active ∧
      ∀ file, file ∉ evicted.map ArchiveBlock.file → after.files.get? file = dir.files.get? file := by
  induction evicted generalizing dir with
  | nil => exact ⟨dir, rfl, rfl, rfl, fun _ _ => rfl⟩
  | cons block rest ih =>
    obtain ⟨after, hafter, hindex, hactive, hfiles⟩ :=
      ih { dir with files := dir.files.shiftRemove block.file }
    refine ⟨after, hafter, hindex, hactive, ?_⟩
    intro file hfile
    rw [map_cons, mem_cons, not_or] at hfile
    rw [hfiles file hfile.2, get?_shiftRemove, if_neg hfile.1]

/-- The blocks that are left still hold what they held. -/
theorem Stored.evict {manifest : ArchiveManifest} {pending stale : List HistoryRecord}
    {torn : List UInt8} (h : Stored gzip id dir manifest groups pending stale torn)
    {evicted kept : List ArchiveBlock} (hblocks : evicted ++ kept = manifest.blocks)
    (hkept : manifest.blocks ≠ [] → kept ≠ []) {after : ArchiveDir} {updatedAt : Nat}
    (hindex : after.index = some (.manifest { manifest with
      blocks := kept
      updatedAt := updatedAt })) (hactive : after.active = dir.active)
    (hfiles : ∀ file, file ∉ evicted.map ArchiveBlock.file →
      after.files.get? file = dir.files.get? file) :
    ∃ gone rest, groups = gone ++ rest ∧ evicted.map ArchiveBlock.file = gone.map groupFile ∧
      Stored gzip id after { manifest with
        blocks := kept
        updatedAt := updatedAt } rest pending stale torn := by
  have hgone : List.Forall₂ (StoredBlock gzip dir.files) evicted (groups.take evicted.length) := by
    have htake := List.forall₂_take evicted.length h.blocks
    rwa [← hblocks, take_left] at htake
  have hrest : List.Forall₂ (StoredBlock gzip dir.files) kept (groups.drop evicted.length) := by
    have hdrop := List.forall₂_drop evicted.length h.blocks
    rwa [← hblocks, drop_left] at hdrop
  have hsplit := (take_append_drop evicted.length groups).symm
  generalize groups.take evicted.length = gone at hgone hsplit
  generalize groups.drop evicted.length = rest at hrest hsplit
  have hnames := stored_files hgone
  have horder := h.order
  rw [hsplit, flatten_append, append_assoc] at horder
  refine ⟨gone, rest, hsplit, hnames, hindex, h.version, h.terminal, ?_, ?_, ?_, h.staleOrder, ?_⟩
  · apply stored_mono hrest
    intro block hmem
    apply hfiles
    rw [hnames]
    intro hfile
    obtain ⟨old, hold, hsame⟩ := List.mem_map.mp hfile
    obtain ⟨group, hgroup, hstored⟩ := stored_mem hrest hmem
    obtain ⟨block', -, hstored'⟩ := stored_mem_group hgone hold
    rw [hstored.file] at hsame
    have hfirst := blockFile_first hsame
    obtain ⟨a, -, ha, hseq⟩ := firstOf_mem hstored'.nonempty
    obtain ⟨b, -, hb, hseq'⟩ := firstOf_mem hstored.nonempty
    have hbef := (chronological_append.mp horder).2.2 a (mem_flatten.mpr ⟨old, hold, ha⟩) b
      (mem_append_left pending (mem_flatten.mpr ⟨group, hgroup, hb⟩))
    omega
  · exact (chronological_append.mp horder).2.1
  · rw [hactive]
    exact h.active
  · intro record hmem
    have hold := h.staleOld record hmem
    rw [hsplit, flatten_append] at hold
    by_cases hnil : rest.flatten = []
    · have hempty : kept = [] := by
        cases hrest with
        | nil => rfl
        | cons hblock _ => simp [hblock.nonempty] at hnil
      have hall : manifest.blocks = [] := by
        by_contra hsome
        exact hkept hsome hempty
      rw [hall, hempty, append_nil] at hblocks
      rw [hblocks, List.forall₂_nil_left_iff] at hgone
      rwa [hgone, flatten_nil, nil_append] at hold
    · rwa [lastOf_append hnil] at hold

/-- A pass over the quota. Between its first removal and the new index the
old index lists blocks that are gone. -/
theorem quota_keeps (h : Live gzip id dir state groups) :
    (enforceTerminalQuota state).Keeps gzip id dir (groups.flatten ++ state.pending) := by
  obtain ⟨updatedAt, stale, hstored⟩ := h.stored
  obtain ⟨hblocks, hkept⟩ :=
    overQuota_append (storedBytes state.manifest.blocks) state.manifest.blocks
  unfold enforceTerminalQuota
  generalize overQuota (storedBytes state.manifest.blocks) state.manifest.blocks = split at *
  obtain ⟨evicted, kept⟩ := split
  simp only at hblocks hkept ⊢
  obtain ⟨emptied, hemptied, hindex, hactive, hfiles⟩ := evict_frame evicted dir
  let listed : ArchiveDir := { emptied with
    indexTmp := some (.manifest { state.manifest with blocks := kept }) }
  let after : ArchiveDir := { emptied with
    index := some (.manifest { state.manifest with blocks := kept })
    indexTmp := none }
  have hindex' : after.index = some (.manifest { state.manifest with blocks := kept }) := rfl
  obtain ⟨gone, rest, hgroups, hnames, hafter⟩ := hstored.evict hblocks hkept hindex' hactive hfiles
  have hall : groups.flatten ++ state.pending =
      gone.flatten ++ (rest.flatten ++ state.pending) := by
    rw [hgroups, flatten_append, append_assoc]
  have hrem : removedFiles (evicted.map (fun block => FsStep.removeFile block.file) ++
      writeManifest { state.manifest with blocks := kept }) = gone.map groupFile := by
    rw [removedFiles_append, removedFiles_evict, hnames]
    simp [writeManifest, removedFiles]
  have hrun : runSteps FsStep.apply (some dir)
      (evicted.map (fun block => FsStep.removeFile block.file) ++
        writeManifest { state.manifest with blocks := kept }) = some after := by
    rw [runSteps_append, hemptied]
    rfl
  constructor
  · intro count hadmits
    by_cases hcount : evicted.length + 2 ≤ count
    · rw [take_of_length_le (by simpa [writeManifest] using hcount), hrun]
      exact ⟨gone, rest.flatten ++ state.pending, hrem, hall, hafter.holds⟩
    cases evicted with
    | nil =>
      have hnone : gone = [] := map_eq_nil_iff.mp hnames.symm
      have hsame : rest = groups := by rw [hgroups, hnone, nil_append]
      have hlisted : Stored gzip id listed
          { state.manifest with updatedAt := updatedAt } groups state.pending stale [] :=
        hstored.frame hindex hactive fun block _ => hfiles block.file not_mem_nil
      rw [hsame] at hafter
      have hholds : Survives FsStep.apply PublishesRemovals
          (fun _ => Holds gzip id (groups.flatten ++ state.pending)) (some dir)
          (writeManifest { state.manifest with blocks := kept }) := by
        cases hemptied
        refine Survives.step publishesRemovals_tailed hstored.holds rfl ?_
        refine Survives.step publishesRemovals_tailed hlisted.holds rfl ?_
        exact Survives.nil hafter.holds
      exact sheds_survive hholds rfl count hadmits
    | cons block more =>
      cases count with
      | zero => exact h.holds.sheds rfl
      | succ count =>
        rw [map_cons, cons_append, take_succ_cons] at hadmits
        have hpublished := hadmits [] block.file _ rfl
        have hlast : more.map (fun block => FsStep.removeFile block.file) ++
            writeManifest { state.manifest with blocks := kept } =
            (more.map (fun block => FsStep.removeFile block.file) ++
              [.writeIndexTmp { state.manifest with blocks := kept }]) ++ [.renameIndex] := by
          simp [writeManifest]
        rw [length_cons] at hcount
        rw [hlast, take_append_of_le_length (by simp; omega)] at hpublished
        have hmem := mem_of_mem_take hpublished
        simp at hmem
  · exact ⟨gone, after, rest, hrem, hrun,
      ⟨⟨state.manifest.updatedAt, stale, hafter⟩, by rw [show after.active = _ from hactive]; exact h.begun,
        h.counted⟩, hall⟩

theorem Stored.reindex {manifest : ArchiveManifest} {pending stale : List HistoryRecord}
    {torn : List UInt8} (h : Stored gzip id dir manifest groups pending stale torn)
    {renewed : ArchiveManifest} (hversion : renewed.version = manifest.version)
    (hterm : renewed.terminalId = manifest.terminalId)
    (hblocks : renewed.blocks = manifest.blocks) : Survives FsStep.apply PublishesRemovals
        (fun _ => Holds gzip id (groups.flatten ++ pending)) (some dir)
        (writeManifest renewed) ∧
      ∃ after, runSteps FsStep.apply (some dir) (writeManifest renewed) = some after ∧
        Stored gzip id after renewed groups pending stale torn ∧
        after.active = dir.active := by
  let listed : ArchiveDir := { dir with indexTmp := some (.manifest renewed) }
  let after : ArchiveDir := { dir with
    index := some (.manifest renewed)
    indexTmp := none }
  have hlisted : Stored gzip id listed manifest groups pending stale torn :=
    h.frame rfl rfl fun _ _ => rfl
  have hafter : Stored gzip id after renewed groups pending stale torn :=
    ⟨rfl, hversion.trans h.version, hterm.trans h.terminal, hblocks ▸ h.blocks, h.order,
      h.active, h.staleOrder, h.staleOld⟩
  refine ⟨?_, after, rfl, hafter, rfl⟩
  refine Survives.step publishesRemovals_tailed h.holds rfl ?_
  refine Survives.step publishesRemovals_tailed hlisted.holds rfl ?_
  exact Survives.nil hafter.holds

theorem close_keeps (h : Live gzip id dir state groups) (now : Nat) :
    (closeManifest now state).Keeps gzip id dir (groups.flatten ++ state.pending) := by
  unfold closeManifest
  split
  · obtain ⟨updatedAt, stale, hstored⟩ := h.stored
    have hclosed : Stored gzip id dir { state.manifest with updatedAt := updatedAt }
        groups state.pending stale [] := hstored
    obtain ⟨hsurvives, after, hafter, hclosed, hactive⟩ :=
      @Stored.reindex _ _ _ _ _ _ _ _ hclosed { state.manifest with closedAt := some now }
        rfl rfl rfl
    exact ⟨sheds_survive hsurvives rfl, [], after, groups, rfl, hafter,
      ⟨⟨state.manifest.updatedAt, stale, hclosed⟩, hactive ▸ h.begun, h.counted⟩, rfl⟩
  · exact h.idle _

end Quota

/-! ## Opening -/

section Open

variable {pending stale kept : List HistoryRecord} {d : Option ArchiveDir}

section

variable (h : Stored gzip id dir manifest groups pending stale torn)
include h

theorem Stored.segment : Chronological (stale ++ pending) := by
  apply chronological_append.mpr
  refine ⟨h.staleOrder, (chronological_append.mp h.order).2.1, ?_⟩
  intro a ha b hb
  have hold := h.staleOld a ha
  have hlt := h.order.lastOf_lt hb
  omega

theorem Stored.blockSequence : manifest.blockSequence = lastOf groups.flatten := by
  unfold ArchiveManifest.blockSequence
  rw [blockSequence_eq h.blocks]
  rfl

theorem Stored.pending_filter :
    (stale ++ pending).filter (fun record => decide (record.sequence > manifest.blockSequence)) =
      pending := by
  rw [h.blockSequence, filter_append]
  have hstale : stale.filter (fun record => decide (record.sequence > lastOf groups.flatten)) =
      [] := by
    apply filter_eq_nil_iff.mpr
    intro record hmem
    have hold := h.staleOld record hmem
    simpa using hold
  have hpend : pending.filter (fun record => decide (record.sequence > lastOf groups.flatten)) =
      pending := by
    apply filter_eq_self.mpr
    intro record hmem
    have hlt := h.order.lastOf_lt hmem
    simpa using hlt
  rw [hstale, hpend, nil_append]

/-- The segment of a directory is read back, and what is torn is cut off. -/
theorem openActiveSegment_stored :
    (openActiveSegment dir.active manifest.blockSequence).1 = .ok pending ∧
      Survives FsStep.apply PublishesRemovals
        (fun _ => Holds gzip id (groups.flatten ++ pending)) (some dir)
        (openActiveSegment dir.active manifest.blockSequence).2 ∧
      removedFiles (openActiveSegment dir.active manifest.blockSequence).2 = [] ∧
      ∃ after stale, runSteps FsStep.apply (some dir)
          (openActiveSegment dir.active manifest.blockSequence).2 = some after ∧
        Stored gzip id after manifest groups pending stale [] ∧
        after.active.getD [] ≠ [] := by
  rcases h.active.bytes with hbytes | ⟨hblank, rfl, rfl, rfl⟩
  · have hscan : scanActive (encodeActive (stale ++ pending) ++ torn).length 0
        (encodeActive (stale ++ pending) ++ torn) = (stale ++ pending, torn) := by
      apply scanActive_encoded h.segment _ h.active.torn
      · exact Nat.le_trans (length_encodeActive _) (by simp)
      · exact fun record hmem => (h.segment.valid record hmem).positive
    have hopened : openActiveSegment dir.active manifest.blockSequence = (.ok pending,
        .createActive :: if torn = [] then [] else
          [.setActiveLen (activeMagic ++ encodeActive (stale ++ pending)).length]) := by
      unfold openActiveSegment
      rw [hbytes, getD_some, append_assoc]
      split
      · rename_i hempty
        simp [activeMagic, ascii] at hempty
      rw [if_neg (by simp), drop_left]
      simp only [hscan, h.pending_filter]
      have hlength : (activeMagic ++ (encodeActive (stale ++ pending) ++ torn)).length -
          torn.length = (activeMagic ++ encodeActive (stale ++ pending)).length := by
        simp only [length_append]
        omega
      rw [hlength]
    have hcreate : FsStep.apply (some dir) .createActive = some dir := by
      cases dir
      simp only at hbytes
      simp [FsStep.apply, ArchiveDir.apply, hbytes]
    rw [hopened]
    by_cases htorn : torn = []
    · rw [if_pos htorn]
      subst htorn
      refine ⟨rfl, ?_, rfl, dir, stale, hcreate, h, ?_⟩
      · refine Survives.step publishesRemovals_tailed h.holds hcreate ?_
        exact Survives.nil h.holds
      · rw [hbytes]
        simp [activeMagic, ascii]
    · rw [if_neg htorn]
      let mended : ArchiveDir := { dir with
        active := some (activeMagic ++ encodeActive (stale ++ pending)) }
      have hmend : FsStep.apply (some dir)
          (.setActiveLen (activeMagic ++ encodeActive (stale ++ pending)).length) = some mended := by
        simp only [FsStep.apply, ArchiveDir.apply, map_some, hbytes, take_left, mended]
      have hmended : Stored gzip id mended manifest groups pending stale [] := by
        refine { h with active := ⟨.inl ?_, fun _ => rfl⟩ }
        rw [append_nil]
      refine ⟨rfl, ?_, rfl, mended, stale, ?_, hmended, ?_⟩
      · refine Survives.step publishesRemovals_tailed h.holds hcreate ?_
        refine Survives.step publishesRemovals_tailed h.holds hmend ?_
        exact Survives.nil hmended.holds
      · rw [runSteps_cons, hcreate, runSteps_cons, hmend, runSteps_nil]
      · simp [mended, activeMagic, ascii]
  · let created : ArchiveDir := { dir with active := some [] }
    let begun : ArchiveDir := { dir with active := some activeMagic }
    have hopened : openActiveSegment dir.active manifest.blockSequence =
        (.ok [], [.createActive, .appendActive activeMagic]) := by
      unfold openActiveSegment
      rw [hblank]
    have hcreate : FsStep.apply (some dir) .createActive = some created := by
      simp only [FsStep.apply, ArchiveDir.apply, map_some, hblank, created]
    have hbegin : FsStep.apply (some created) (.appendActive activeMagic) = some begun := rfl
    have hcrd : Stored gzip id created manifest groups [] [] [] := h.reset rfl rfl (.inl rfl)
    have hbegun : Stored gzip id begun manifest groups [] [] [] := h.reset rfl rfl (.inr rfl)
    rw [hopened]
    refine ⟨rfl, ?_, rfl, begun, [], ?_, hbegun, ?_⟩
    · refine Survives.step publishesRemovals_tailed h.holds hcreate ?_
      refine Survives.step publishesRemovals_tailed hcrd.holds hbegin ?_
      exact Survives.nil hbegun.holds
    · rw [runSteps_cons, hcreate, runSteps_cons, hbegin, runSteps_nil]
    · simp [begun, activeMagic, ascii]

end

/-- Any directory that survived opens, with all records that it holds. -/
theorem stateFor_holds (h : Holds gzip id kept d) (now : Nat) :
    Survives FsStep.apply PublishesRemovals (Sheds gzip id kept) d
        (stateFor id now ⟨d, none⟩).steps ∧
      removedFiles (stateFor id now ⟨d, none⟩).steps = [] ∧
      ∃ state after groups, (stateFor id now ⟨d, none⟩).result = .ok state ∧
        (stateFor id now ⟨d, none⟩).state = some state ∧
        runSteps FsStep.apply d (stateFor id now ⟨d, none⟩).steps = some after ∧
        Live gzip id after state groups ∧ kept = groups.flatten ++ state.pending := by
  rcases h with ⟨rfl, hblank⟩ | ⟨dir, manifest, groups, pending, stale, torn, rfl, hstored, rfl⟩
  · have hbase : (d.getD .empty).index = none ∧ (d.getD .empty).active = none := by
      cases d with
      | none => exact ⟨rfl, rfl⟩
      | some dir => exact hblank dir rfl
    have hnothing : d.bind ArchiveDir.index = none ∧ d.bind ArchiveDir.active = none := by
      cases d with
      | none => exact ⟨rfl, rfl⟩
      | some dir => exact hblank dir rfl
    have hopened : stateFor id now ⟨d, none⟩ =
        ⟨.ok ⟨newManifest id now, [], 0⟩, some ⟨newManifest id now, [], 0⟩,
          [.createDir, .writeIndexTmp (newManifest id now), .renameIndex, .createActive,
            .appendActive activeMagic]⟩ := by
      have hmanifest : openManifest id now d =
          (.ok (newManifest id now), writeManifest (newManifest id now)) := by
        unfold openManifest readManifest
        rw [hnothing.1]
      unfold stateFor
      simp only [hmanifest, hnothing.2]
      rw [if_neg (by simp [newManifest])]
      rfl
    let base := d.getD .empty
    let listed : ArchiveDir := { base with
      indexTmp := some (.manifest (newManifest id now)) }
    let indexed : ArchiveDir := { base with
      index := some (.manifest (newManifest id now))
      indexTmp := none }
    let created : ArchiveDir := { indexed with active := some [] }
    let begun : ArchiveDir := { indexed with active := some activeMagic }
    have hcreate : FsStep.apply (some indexed) .createActive = some created := by
      simp [FsStep.apply, ArchiveDir.apply, indexed, created, base, hbase.2]
    have hblank' : ∀ dir : ArchiveDir, dir.index = none → dir.active = none →
        Holds gzip id [] (some dir) := by
      intro dir hindex hactive
      refine .inl ⟨rfl, ?_⟩
      intro other hother
      cases hother
      exact ⟨hindex, hactive⟩
    have hindexed : Stored gzip id indexed (newManifest id now) [] [] [] [] :=
      ⟨rfl, rfl, rfl, .nil, chronological_nil,
        ⟨.inr ⟨by simp [indexed, base, hbase.2], rfl, rfl, rfl⟩, fun _ => rfl⟩,
        chronological_nil, forall_mem_nil _⟩
    have hcrd : Stored gzip id created (newManifest id now) [] [] [] [] :=
      hindexed.reset rfl rfl (.inl rfl)
    have hbegun : Stored gzip id begun (newManifest id now) [] [] [] [] :=
      hindexed.reset rfl rfl (.inr rfl)
    rw [hopened]
    refine ⟨sheds_survive ?_ rfl, rfl, _, begun, [], rfl, rfl, ?_,
      ⟨⟨now, [], hbegun⟩, by simp [begun, activeMagic, ascii], rfl⟩, rfl⟩
    · refine Survives.step publishesRemovals_tailed (.inl ⟨rfl, hblank⟩) rfl ?_
      refine Survives.step publishesRemovals_tailed (hblank' base hbase.1 hbase.2) rfl ?_
      refine Survives.step publishesRemovals_tailed (hblank' listed hbase.1 hbase.2) rfl ?_
      refine Survives.step publishesRemovals_tailed hindexed.holds hcreate ?_
      refine Survives.step publishesRemovals_tailed hcrd.holds rfl ?_
      exact Survives.nil hbegun.holds
    · have hfirst : runSteps FsStep.apply d [.createDir,
          .writeIndexTmp (newManifest id now), .renameIndex] = some indexed := rfl
      rw [show [FsStep.createDir, .writeIndexTmp (newManifest id now), .renameIndex,
        .createActive, .appendActive activeMagic] = [.createDir,
          .writeIndexTmp (newManifest id now), .renameIndex] ++
            [.createActive, .appendActive activeMagic] from rfl, runSteps_append, hfirst,
        runSteps_cons, hcreate]
      rfl
  · obtain ⟨hpend, hsurvives, hrem, after, stale', hrun, hafter, hbegun⟩ :=
      openActiveSegment_stored hstored
    have hmanifest : openManifest id now (some dir) = (.ok manifest, []) := by
      unfold openManifest readManifest
      rw [bind_some, hstored.index]
      simp only [hstored.version, ne_eq, not_true_eq_false, if_false]
    have hopened : stateFor id now ⟨some dir, none⟩ =
        ⟨.ok ⟨manifest, pending, payloadBytes pending⟩,
          some ⟨manifest, pending, payloadBytes pending⟩,
          .createDir :: (openActiveSegment dir.active manifest.blockSequence).2⟩ := by
      unfold stateFor
      simp only [hmanifest, bind_some]
      rw [if_neg (by simp [hstored.terminal])]
      generalize openActiveSegment dir.active manifest.blockSequence = segment at hpend
      obtain ⟨result, steps⟩ := segment
      cases hpend
      rfl
    rw [hopened]
    have hcreate : FsStep.apply (some dir) .createDir = some dir := rfl
    refine ⟨?_, hrem, _, after, groups, rfl, rfl, ?_,
      ⟨⟨manifest.updatedAt, stale', hafter⟩, hbegun, rfl⟩, rfl⟩
    · refine sheds_survive ?_ hrem
      exact Survives.step publishesRemovals_tailed hstored.holds hcreate hsurvives
    · rw [runSteps_cons, hcreate, hrun]

end Open

/-! ## Appending -/

section Append

variable {record : HistoryRecord}

theorem Work.andThen_assoc (work : Work) (f g : ArchiveState → Work) :
    (work.andThen f).andThen g = work.andThen fun state => (f state).andThen g := by
  unfold Work.andThen
  cases hwork : work.result with
  | error error => simp only
  | ok done =>
    simp only
    cases hf : (f work.state).result with
    | error error => simp only
    | ok done => simp only [append_assoc]

theorem Work.andThen_ok (state : ArchiveState) (steps : List FsStep) (next : ArchiveState → Work) :
    (⟨.ok (), state, steps⟩ : Work).andThen next =
      ⟨(next state).result, (next state).state, steps ++ (next state).steps⟩ := rfl

theorem Live.newest (h : Live gzip id dir state groups) :
    state.newest? = (groups.flatten ++ state.pending).getLast?.map HistoryRecord.sequence := by
  obtain ⟨updatedAt, stale, hstored⟩ := h.stored
  have hblocks := blockSequence_eq hstored.blocks
  unfold ArchiveState.newest?
  by_cases hpend : state.pending = []
  · rw [hpend, append_nil, ← hblocks]
    rfl
  rw [getLast?_append_of_ne_nil _ hpend]
  obtain ⟨last, hlast, -⟩ := lastOf_mem hpend
  rw [hlast]
  rfl

theorem Live.lastSequence (h : Live gzip id dir state groups) :
    state.lastSequence = lastOf (groups.flatten ++ state.pending) := by
  unfold ArchiveState.lastSequence
  rw [h.newest]
  rfl

theorem appendActive_run (chunks : List (List UInt8)) {bytes : List UInt8}
    (hbytes : dir.active = some bytes) :
    runSteps FsStep.apply (some dir) (chunks.map FsStep.appendActive) =
      some { dir with active := some (bytes ++ chunks.flatten) } := by
  induction chunks generalizing dir bytes with
  | nil =>
    cases dir
    simp only at hbytes
    simp [hbytes]
  | cons chunk rest ih =>
    have hstep : FsStep.apply (some dir) (.appendActive chunk) =
        some { dir with active := some (bytes ++ chunk) } := by
      simp [FsStep.apply, ArchiveDir.apply, hbytes]
    rw [map_cons, runSteps_cons, hstep, @ih { dir with active := some (bytes ++ chunk) } _ rfl]
    simp

def ArchiveState.accepts (state : ArchiveState) (record : HistoryRecord) : Bool :=
  state.manifest.closedAt.isNone && decide (state.lastSequence < record.sequence)

theorem append_refused (h : state.accepts record = false) (limits : Limits) (now : Nat) :
    ∃ error, state.append gzip limits id now record = ⟨.error error, state, []⟩ := by
  unfold ArchiveState.append
  split
  · exact ⟨_, rfl⟩
  rename_i hopen
  rw [if_pos]
  · exact ⟨_, rfl⟩
  by_contra hlast
  simp [ArchiveState.accepts] at h hopen
  have hle := h hopen
  omega

def ArchiveState.appended (state : ArchiveState) (now : Nat) (record : HistoryRecord) :
    ArchiveState where
  manifest := { state.manifest with updatedAt := now }
  pending := state.pending ++ [record]
  pendingBytes := state.pendingBytes + record.data.length

def ArchiveState.settle (gzip : Gzip) (limits : Limits) (now : Nat) (state : ArchiveState) : Work :=
  if state.pendingBytes ≥ limits.blockBytes then
    (flushState gzip now state).andThen enforceTerminalQuota
  else ⟨.ok (), state, []⟩

theorem append_accepted (h : state.accepts record = true) (limits : Limits) (now : Nat) :
    state.append gzip limits id now record =
      (⟨.ok (), state.appended now record, (activeWrites record).map FsStep.appendActive⟩ :
        Work).andThen (ArchiveState.settle gzip limits now) := by
  obtain ⟨hopen, hlast⟩ := (Bool.and_eq_true_iff).mp h
  have hlast := of_decide_eq_true hlast
  unfold ArchiveState.append
  rw [if_neg (by simpa using hopen), if_neg (by omega), Work.andThen_ok]
  by_cases hbytes : (state.appended now record).pendingBytes ≥ limits.blockBytes
  · have hsettle : (state.appended now record).settle gzip limits now =
        (flushState gzip now (state.appended now record)).andThen enforceTerminalQuota :=
      if_pos hbytes
    rw [hsettle]
    exact (if_pos hbytes).trans (Work.andThen_assoc ⟨.ok (), state.appended now record, _⟩ _ _)
  · have hsettle : (state.appended now record).settle gzip limits now =
        ⟨.ok (), state.appended now record, []⟩ := if_neg hbytes
    rw [hsettle, append_nil]
    exact if_neg hbytes

section

variable (h : Live gzip id dir state groups)
include h

theorem settle_keeps (limits : Limits) (now : Nat) :
    (state.settle gzip limits now).Keeps gzip id dir
      (groups.flatten ++ state.pending) := by
  unfold ArchiveState.settle
  split
  · apply (flush_keeps h now).andThen
    exact fun after groups hlive => quota_keeps hlive
  · exact h.idle _

theorem Live.writing (haccepts : state.accepts record = true) (hvalid : record.Valid) :
    ∃ bytes, dir.active = some bytes ∧
      (∀ count, count < 4 → Holds gzip id (groups.flatten ++ state.pending)
        (some { dir with active := some (bytes ++ ((activeWrites record).take count).flatten) })) ∧
      ∀ now, Live gzip id
        { dir with active := some (bytes ++ (activeWrites record).flatten) }
        (state.appended now record) groups := by
  obtain ⟨updatedAt, stale, hstored⟩ := h.stored
  have hlast := of_decide_eq_true ((Bool.and_eq_true_iff).mp haccepts).2
  rw [h.lastSequence] at hlast
  rcases hstored.active.bytes with hbytes | ⟨hblank, -⟩
  · rw [append_nil] at hbytes
    have horder : Chronological (groups.flatten ++ (state.pending ++ [record])) := by
      rw [← append_assoc]
      apply hstored.order.snoc hvalid
      intro last hgetLast
      have hle := hstored.order.le_lastOf (mem_of_getLast? hgetLast)
      omega
    refine ⟨_, hbytes, ?_, ?_⟩
    · intro count hcount
      have htorn : Stored gzip id { dir with
          active := some (activeMagic ++ encodeActive (stale ++ state.pending) ++
            ((activeWrites record).take count).flatten) }
          { state.manifest with updatedAt := updatedAt } groups state.pending stale
          ((activeWrites record).take count).flatten :=
        { hstored with active := ⟨.inl rfl, fun _ => nextActive_torn hvalid hcount⟩ }
      exact htorn.holds
    · intro now
      refine ⟨⟨updatedAt, stale, hstored.index, hstored.version, hstored.terminal,
        hstored.blocks, horder, ⟨.inl ?_, fun _ => rfl⟩, hstored.staleOrder, hstored.staleOld⟩,
        by simp [activeMagic, ascii], ?_⟩
      · simp only [ArchiveState.appended, ← append_assoc, encodeActive_append, append_nil]
        simp [encodeActive]
      · simp [ArchiveState.appended, payloadBytes, h.counted]
  · exact absurd hblank h.begun

/-- An append that is done or cut short: the record counts once its four
writes are made. -/
theorem append_keeps
    (haccepts : state.accepts record = true) (hvalid : record.Valid) (limits : Limits) (now : Nat) :
    Survives FsStep.apply PublishesRemovals
        (fun done => Sheds gzip id (groups.flatten ++ state.pending ++
          if 4 ≤ done.length then [record] else []) done) (some dir)
        (state.append gzip limits id now record).steps ∧
      4 ≤ (state.append gzip limits id now record).steps.length ∧
      ∃ (gone : List (List HistoryRecord)) (after : ArchiveDir)
          (groups' : List (List HistoryRecord)),
        removedFiles (state.append gzip limits id now record).steps = gone.map groupFile ∧
        runSteps FsStep.apply (some dir) (state.append gzip limits id now record).steps =
          some after ∧
        Live gzip id after (state.append gzip limits id now record).state groups' ∧
        groups.flatten ++ state.pending ++ [record] = gone.flatten ++ (groups'.flatten ++
          (state.append gzip limits id now record).state.pending) := by
  obtain ⟨bytes, hbytes, htorn, hwrt⟩ := h.writing haccepts hvalid
  have hlive := hwrt now
  have hsettle := settle_keeps hlive limits now
  have hall : groups.flatten ++ (state.appended now record).pending =
      groups.flatten ++ state.pending ++ [record] := (append_assoc ..).symm
  rw [hall] at hsettle
  have hrun := appendActive_run (activeWrites record) hbytes
  have hlength : ((activeWrites record).map FsStep.appendActive).length = 4 := by
    simp [activeWrites]
  have hnone : removedFiles ((activeWrites record).map FsStep.appendActive) = [] := rfl
  rw [append_accepted haccepts, Work.andThen_ok]
  refine ⟨?_, ?_, ?_⟩
  · refine Survives.append publishesRemovals_tailed ?_ ?_
    · intro count _
      rw [← map_take, appendActive_run _ hbytes]
      by_cases hcount : count < 4
      · rw [if_neg (by simp [activeWrites]; omega), append_nil]
        exact (htorn count hcount).sheds (removedFiles_part (map_take ▸ take_prefix count _) hnone)
      · rw [take_of_length_le (by simpa [activeWrites] using hcount), if_pos (by
          rw [hlength])]
        have hholds := hlive.holds
        rw [hall] at hholds
        exact hholds.sheds hnone
    · rw [hrun]
      refine hsettle.survives.mono ?_
      rintro done d - ⟨gone, kept, hgone, hkept, hholds⟩
      rw [if_pos (by rw [length_append, hlength]; omega)]
      refine ⟨gone, kept, ?_, hkept, hholds⟩
      rw [removedFiles_append, hnone, nil_append, hgone]
  · rw [length_append, hlength]
    omega
  · obtain ⟨gone, after, groups', hgone, hafter, hlive', hkept⟩ := hsettle.live
    refine ⟨gone, after, groups', ?_, ?_, hlive', hkept⟩
    · rw [removedFiles_append, hnone, nil_append, hgone]
    · rw [runSteps_append, hrun, hafter]

end

end Append

end Yaade.History

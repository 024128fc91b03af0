import Yaade.History.Codec
import Yaade.Library.IndexMap
import Yaade.Library.Journal

/-!
The archive of one terminal: its directory, the state that is kept in memory
while it is open, and the operations of the history owner, with the file
system steps each of them takes.
-/

namespace Yaade.History

open Yaade.Library

/-! ## The directory of a terminal -/

structure ArchiveBlock where
  file : String
  firstSequence : Nat
  lastSequence : Nat
  uncompressedBytes : Nat
  storedBytes : Nat
  deriving DecidableEq

structure ArchiveManifest where
  version : Nat
  terminalId : String
  createdAt : Nat
  updatedAt : Nat
  closedAt : Option Nat
  blocks : List ArchiveBlock
  deriving DecidableEq

/-- What `index.json` holds: a manifest, or something that does not parse. -/
inductive IndexFile where
  | manifest (manifest : ArchiveManifest)
  | corrupt (message : String)
  deriving DecidableEq

structure ArchiveDir where
  index : Option IndexFile
  indexTmp : Option IndexFile
  active : Option (List UInt8)
  /-- the blocks and the temporary files they are written to -/
  files : IndexMap String (List UInt8)
  deriving DecidableEq

def ArchiveDir.empty : ArchiveDir := ⟨none, none, none, .empty⟩

inductive FsStep where
  | createDir
  | writeFile (file : String) (bytes : List UInt8)
  | renameFile (source target : String)
  /-- removes the file if it exists -/
  | removeFile (file : String)
  | writeIndexTmp (manifest : ArchiveManifest)
  | renameIndex
  | createActive
  | appendActive (bytes : List UInt8)
  | setActiveLen (length : Nat)
  deriving DecidableEq

def ArchiveDir.apply (dir : ArchiveDir) : FsStep → ArchiveDir
  | .createDir => dir
  | .writeFile file bytes => { dir with files := dir.files.insert file bytes }
  | .renameFile source target =>
    match dir.files.get? source with
    | none => dir
    | some bytes => { dir with files := (dir.files.shiftRemove source).insert target bytes }
  | .removeFile file => { dir with files := dir.files.shiftRemove file }
  | .writeIndexTmp manifest => { dir with indexTmp := some (.manifest manifest) }
  | .renameIndex => { dir with index := dir.indexTmp, indexTmp := none }
  | .createActive => { dir with active := some (dir.active.getD []) }
  | .appendActive bytes => { dir with active := dir.active.map (· ++ bytes) }
  | .setActiveLen length => { dir with active := dir.active.map fun bytes => bytes.take length }

def FsStep.apply (dir : Option ArchiveDir) : FsStep → Option ArchiveDir
  | .createDir => some (dir.getD .empty)
  | step => dir.map fun dir => dir.apply step

def readManifest (dir : Option ArchiveDir) : Except HistoryError (Option ArchiveManifest) :=
  match dir.bind ArchiveDir.index with
  | none => .ok none
  | some (.corrupt message) => .error (.json message)
  | some (.manifest manifest) => .ok (some manifest)

def writeManifest (manifest : ArchiveManifest) : List FsStep :=
  [.writeIndexTmp manifest, .renameIndex]

def newManifest (terminalId : String) (now : Nat) : ArchiveManifest :=
  ⟨archiveVersion.toNat, terminalId, now, now, none, []⟩

/-! ## Surroundings -/

/-- The gzip of the blocks. -/
structure Gzip where
  compress : List UInt8 → List UInt8
  decompress : List UInt8 → Except String (List UInt8)

def Gzip.Lossless (gzip : Gzip) : Prop :=
  ∀ bytes, gzip.decompress (gzip.compress bytes) = .ok bytes

structure Limits where
  blockBytes : Nat
  pageBytes : Nat

def defaultLimits : Limits := ⟨512 * 1024, 256 * 1024⟩

def maxTerminalBytes : Nat := 256 * 1024 * 1024
def maxTotalBytes : Nat := 2 * 1024 * 1024 * 1024

/-! ## The open archive -/

structure ArchiveState where
  manifest : ArchiveManifest
  pending : List HistoryRecord
  pendingBytes : Nat
  deriving DecidableEq

def ArchiveState.newest? (state : ArchiveState) : Option Nat :=
  (state.pending.getLast?.map HistoryRecord.sequence).or
    (state.manifest.blocks.getLast?.map ArchiveBlock.lastSequence)

def ArchiveState.lastSequence (state : ArchiveState) : Nat := state.newest?.getD 0

/-- The end of an operation on an open archive, with the steps it took. -/
structure Work where
  result : Except HistoryError Unit
  state : ArchiveState
  steps : List FsStep

def Work.andThen (work : Work) (next : ArchiveState → Work) : Work :=
  match work.result with
  | .error error => ⟨.error error, work.state, work.steps⟩
  | .ok () =>
    let after := next work.state
    ⟨after.result, after.state, work.steps ++ after.steps⟩

def padLeft (width : Nat) (digits : List Char) : List Char :=
  List.replicate (width - digits.length) '0' ++ digits

def blockFile (first last : Nat) : String :=
  String.ofList (padLeft 12 (Nat.toDigits 10 first) ++ '-' :: padLeft 12 (Nat.toDigits 10 last) ++
    ".bin.gz".toList)

def payloadBytes (records : List HistoryRecord) : Nat :=
  (records.map fun record => record.data.length).sum

def resetActive : List FsStep := [.setActiveLen 0, .appendActive activeMagic]

def flushState (gzip : Gzip) (now : Nat) (state : ArchiveState) : Work :=
  if state.pending = [] then ⟨.ok (), state, []⟩
  else
    match encodeRecords state.pending with
    | .error error => ⟨.error error, state, []⟩
    | .ok encoded =>
      let first := (state.pending.head?.map HistoryRecord.sequence).getD 0
      let last := (state.pending.getLast?.map HistoryRecord.sequence).getD first
      let file := blockFile first last
      let compressed := gzip.compress encoded
      let block := ⟨file, first, last, state.pendingBytes, compressed.length⟩
      let manifest := { state.manifest with
        blocks := state.manifest.blocks ++ [block]
        updatedAt := now }
      ⟨.ok (), ⟨manifest, [], 0⟩,
        [.writeFile (file ++ ".tmp") compressed, .renameFile (file ++ ".tmp") file] ++
          writeManifest manifest ++ resetActive⟩

/-- The oldest blocks, while there are too many bytes, but never the last block. -/
def overQuota (bytes : Nat) : List ArchiveBlock → List ArchiveBlock × List ArchiveBlock
  | block :: next :: rest =>
    if bytes > maxTerminalBytes then
      let (evicted, kept) := overQuota (bytes - block.storedBytes) (next :: rest)
      (block :: evicted, kept)
    else ([], block :: next :: rest)
  | blocks => ([], blocks)

def storedBytes (blocks : List ArchiveBlock) : Nat := (blocks.map ArchiveBlock.storedBytes).sum

def enforceTerminalQuota (state : ArchiveState) : Work :=
  let (evicted, kept) := overQuota (storedBytes state.manifest.blocks) state.manifest.blocks
  let manifest := { state.manifest with blocks := kept }
  ⟨.ok (), { state with manifest := manifest },
    evicted.map (fun block => .removeFile block.file) ++ writeManifest manifest⟩

/-! ## Operations of the owner -/

/-- What there is of a terminal: its directory, and its archive if it is open. -/
structure Slot where
  dir : Option ArchiveDir
  state : Option ArchiveState
  deriving DecidableEq

/-- The end of an operation on a terminal. -/
structure Effect (α : Type) where
  result : Except HistoryError α
  state : Option ArchiveState
  steps : List FsStep

def Effect.slot {α : Type} (effect : Effect α) (slot : Slot) : Slot :=
  ⟨runSteps FsStep.apply slot.dir effect.steps, effect.state⟩

/-- The active segment: what to do before it is used, and what is pending in it. -/
def openActiveSegment (active : Option (List UInt8)) (blockSequence : Nat) :
    Except HistoryError (List HistoryRecord) × List FsStep :=
  match active.getD [] with
  | [] => (.ok [], [.createActive, .appendActive activeMagic])
  | encoded =>
    if encoded.length < activeMagic.length ∨ encoded.take activeMagic.length ≠ activeMagic then
      (.error (.corrupt "invalid active history header"), [.createActive])
    else
      let body := encoded.drop activeMagic.length
      let (records, torn) := scanActive body.length 0 body
      (.ok (records.filter fun record => record.sequence > blockSequence),
        .createActive :: if torn = [] then [] else [.setActiveLen (encoded.length - torn.length)])

def openManifest (terminalId : String) (now : Nat) (dir : Option ArchiveDir) :
    Except HistoryError ArchiveManifest × List FsStep :=
  match readManifest dir with
  | .error error => (.error error, [])
  | .ok none => (.ok (newManifest terminalId now), writeManifest (newManifest terminalId now))
  | .ok (some manifest) =>
    if manifest.version ≠ archiveVersion.toNat then
      (.error (.corrupt ("unsupported history version " ++ toString manifest.version ++ " for " ++
        terminalId)), [])
    else (.ok manifest, [])

def ArchiveManifest.blockSequence (manifest : ArchiveManifest) : Nat :=
  (manifest.blocks.getLast?.map ArchiveBlock.lastSequence).getD 0

def stateFor (terminalId : String) (now : Nat) (slot : Slot) : Effect ArchiveState :=
  match slot.state with
  | some state => ⟨.ok state, some state, []⟩
  | none =>
    match openManifest terminalId now slot.dir with
    | (.error error, steps) => ⟨.error error, none, .createDir :: steps⟩
    | (.ok manifest, steps) =>
      if manifest.terminalId ≠ terminalId then
        ⟨.error (.corrupt terminalId), none, .createDir :: steps⟩
      else
        match openActiveSegment (slot.dir.bind ArchiveDir.active) manifest.blockSequence with
        | (.error error, more) => ⟨.error error, none, .createDir :: steps ++ more⟩
        | (.ok pending, more) =>
          let state := ⟨manifest, pending, payloadBytes pending⟩
          ⟨.ok state, some state, .createDir :: steps ++ more⟩

def ArchiveState.append (gzip : Gzip) (limits : Limits) (terminalId : String) (now : Nat)
    (record : HistoryRecord) (state : ArchiveState) : Work :=
  if state.manifest.closedAt.isSome then
    ⟨.error (.corrupt ("append after completed close for " ++ terminalId)), state, []⟩
  else if record.sequence ≤ state.lastSequence then
    ⟨.error (.corrupt ("history sequence " ++ toString record.sequence ++ " does not follow " ++
      toString state.lastSequence)), state, []⟩
  else
    let appended : ArchiveState :=
      { manifest := { state.manifest with updatedAt := now }
        pending := state.pending ++ [record]
        pendingBytes := state.pendingBytes + record.data.length }
    let written : Work := ⟨.ok (), appended, (activeWrites record).map FsStep.appendActive⟩
    if appended.pendingBytes ≥ limits.blockBytes then
      (written.andThen (flushState gzip now)).andThen enforceTerminalQuota
    else written

def Effect.work (opened : Effect ArchiveState) (operation : ArchiveState → Work) : Effect Unit :=
  match opened.result with
  | .error error => ⟨.error error, opened.state, opened.steps⟩
  | .ok state =>
    let work := operation state
    ⟨work.result, some work.state, opened.steps ++ work.steps⟩

def appendOwned (gzip : Gzip) (limits : Limits) (terminalId : String) (now : Nat)
    (record : HistoryRecord) (slot : Slot) : Effect Unit :=
  (stateFor terminalId now slot).work (ArchiveState.append gzip limits terminalId now record)

def closeManifest (now : Nat) (state : ArchiveState) : Work :=
  if state.manifest.closedAt.isNone then
    let manifest := { state.manifest with closedAt := some now }
    ⟨.ok (), { state with manifest := manifest }, writeManifest manifest⟩
  else ⟨.ok (), state, []⟩

def finalizeTerminal (gzip : Gzip) (now : Nat) (slot : Slot) : Effect Unit :=
  match slot.state with
  | some state =>
    let work := ((flushState gzip now state).andThen enforceTerminalQuota).andThen
      (closeManifest now)
    ⟨work.result, none, work.steps⟩
  | none =>
    match readManifest slot.dir with
    | .error error => ⟨.error error, none, []⟩
    | .ok none => ⟨.ok (), none, []⟩
    | .ok (some manifest) =>
      ⟨.ok (), none, if manifest.closedAt.isNone then
        writeManifest { manifest with closedAt := some now } else []⟩

def Slot.work (slot : Slot) (operation : ArchiveState → Work) : Effect Unit :=
  match slot.state with
  | none => ⟨.ok (), none, []⟩
  | some state =>
    let work := operation state
    ⟨work.result, some work.state, work.steps⟩

def flushTerminal (gzip : Gzip) (now : Nat) (slot : Slot) : Effect Unit :=
  slot.work fun state => (flushState gzip now state).andThen enforceTerminalQuota

/-- What `append` lets into the mailbox: a `u64` sequence that is not zero and
1 to 65536 bytes. -/
def HistoryRecord.ingested (record : HistoryRecord) : Bool :=
  decide (0 < record.sequence) && decide (record.sequence < 2 ^ 64) &&
    !record.data.isEmpty && decide (record.data.length ≤ maxRecordBytes)

theorem HistoryRecord.ingested_valid {record : HistoryRecord} (h : record.ingested = true) :
    record.Valid := by
  simp only [HistoryRecord.ingested, Bool.and_eq_true, decide_eq_true_eq, Bool.not_eq_true',
    List.isEmpty_eq_false_iff] at h
  exact ⟨h.1.1.1, h.1.1.2, h.1.2, h.2⟩

/-! ## Reads -/

def readBlock (gzip : Gzip) (dir : Option ArchiveDir) (block : ArchiveBlock) :
    Except HistoryError (List HistoryRecord) :=
  match dir.bind fun dir => dir.files.get? block.file with
  | none => .error (.io "No such file or directory (os error 2)")
  | some bytes =>
    match gzip.decompress bytes with
    | .error message => .error (.io message)
    | .ok encoded => decodeRecords encoded

structure TerminalHistoryMetadata where
  lastSequence : Nat
  closed : Bool
  deriving DecidableEq

structure TerminalHistoryPage where
  chunks : List (List UInt8)
  firstSequence : Nat
  lastSequence : Nat
  nextSequence : Nat
  complete : Bool
  deriving DecidableEq

def Slot.known (slot : Slot) : Bool := slot.dir.isSome || slot.state.isSome

def inspectState (terminalId : String) (dir : Option ArchiveDir) (state : ArchiveState) :
    Except HistoryError TerminalHistoryMetadata :=
  match state.manifest.blocks.find? fun block =>
      !(dir.any fun dir => dir.files.contains block.file) with
  | some block =>
    .error (.corrupt ("history block " ++ block.file ++ " is missing for " ++ terminalId))
  | none => .ok ⟨state.lastSequence, state.manifest.closedAt.isSome⟩

/-- Records in order of reading, until one does not fit any more. The first
one always fits. -/
structure Cut where
  page : List HistoryRecord
  bytes : Nat
  cut : Bool

def cutPage (limit : Nat) (chosen : Bool) (bytes : Nat) : List HistoryRecord → Cut
  | [] => ⟨[], bytes, false⟩
  | record :: rest =>
    let size := record.data.length
    if chosen && bytes + size > limit then ⟨[], bytes, true⟩
    else
      let after := cutPage limit true (bytes + size) rest
      { after with page := record :: after.page }

def Limits.page (limits : Limits) (maxBytes : Option Nat) : Nat :=
  max 1 (min (maxBytes.getD limits.pageBytes) limits.pageBytes)

def forwardPage (limit afterSequence newest : Nat) (records : List HistoryRecord) :
    TerminalHistoryPage :=
  let found := cutPage limit false 0
    (records.filter fun record => record.sequence > afterSequence)
  let last := (found.page.getLast?.map HistoryRecord.sequence).getD afterSequence
  { chunks := found.page.map HistoryRecord.data
    firstSequence := (found.page.head?.map HistoryRecord.sequence).getD 0
    lastSequence := last
    nextSequence := last
    complete := if found.cut then false else decide (last ≥ newest) }

def readPage (gzip : Gzip) (limits : Limits) (afterSequence : Nat) (maxBytes : Option Nat)
    (dir : Option ArchiveDir) (state : ArchiveState) : Except HistoryError TerminalHistoryPage := do
  let blocks ← (state.manifest.blocks.filter fun block =>
    block.lastSequence > afterSequence).mapM (readBlock gzip dir)
  .ok (forwardPage (limits.page maxBytes) afterSequence (state.newest?.getD afterSequence)
    (blocks.flatten ++ state.pending))

def cutBlocks (gzip : Gzip) (dir : Option ArchiveDir) (limit ceiling : Nat) (chosen : Bool)
    (bytes : Nat) : List ArchiveBlock → Except HistoryError Cut
  | [] => .ok ⟨[], bytes, false⟩
  | block :: older =>
    if block.firstSequence > ceiling then cutBlocks gzip dir limit ceiling chosen bytes older
    else do
      let records ← readBlock gzip dir block
      let found := cutPage limit chosen bytes
        (records.reverse.filter fun record => record.sequence ≤ ceiling)
      if found.cut then .ok found
      else do
        let rest ← cutBlocks gzip dir limit ceiling (chosen || !found.page.isEmpty) found.bytes
          older
        .ok { rest with page := found.page ++ rest.page }

def reversePage (found : Cut) : TerminalHistoryPage :=
  let selected := found.page.reverse
  let first := (selected.head?.map HistoryRecord.sequence).getD 0
  { chunks := selected.map HistoryRecord.data
    firstSequence := first
    lastSequence := (selected.getLast?.map HistoryRecord.sequence).getD 0
    nextSequence := first
    complete := !found.cut }

def readPageReverse (gzip : Gzip) (limits : Limits) (beforeSequence : Nat) (maxBytes : Option Nat)
    (dir : Option ArchiveDir) (state : ArchiveState) : Except HistoryError TerminalHistoryPage := do
  let newest := state.lastSequence
  let ceiling := if beforeSequence = 0 then newest else min (beforeSequence - 1) newest
  let limit := limits.page maxBytes
  let pending := cutPage limit false 0
    (state.pending.reverse.filter fun record => record.sequence ≤ ceiling)
  if pending.cut then .ok (reversePage pending)
  else do
    let rest ← cutBlocks gzip dir limit ceiling (!pending.page.isEmpty) pending.bytes
      state.manifest.blocks.reverse
    .ok (reversePage { rest with page := pending.page ++ rest.page })

end Yaade.History

import Yaade.History.Archive
import Yaade.Library.Transition

/-!
The history archive of all terminals: what its callers and its owner thread
share, the two mailboxes between them, and the loop of the owner.
-/

namespace Yaade.History

open Yaade.Library

def ingestMaxMessages : Nat := 1024
def ingestMaxBytes : Nat := 32 * 1024 * 1024
def finalizeMaxMessages : Nat := 1024

/-! ## Shared state -/

structure HistoryShared where
  slots : IndexMap String Slot
  pendingCloses : List String
  backgroundErrors : List String
  acceptedSequences : IndexMap String Nat

namespace HistoryShared

def slot (shared : HistoryShared) (terminalId : String) : Slot :=
  (shared.slots.get? terminalId).getD ⟨none, none⟩

def setSlot (shared : HistoryShared) (terminalId : String) (slot : Slot) : HistoryShared :=
  { shared with slots := shared.slots.insert terminalId slot }

def accepted (shared : HistoryShared) (terminalId : String) : Nat :=
  (shared.acceptedSequences.get? terminalId).getD 0

def accept (shared : HistoryShared) (terminalId : String) (sequence : Nat) : HistoryShared :=
  { shared with acceptedSequences := shared.acceptedSequences.insert terminalId sequence }

def recordError (shared : HistoryShared) (error : HistoryError) : HistoryShared :=
  { shared with backgroundErrors := shared.backgroundErrors ++ [error.text] }

def recordResult (shared : HistoryShared) : Except HistoryError Unit → HistoryShared
  | .ok () => shared
  | .error error => shared.recordError error

def takeErrors (shared : HistoryShared) : Except String Unit × HistoryShared :=
  (if shared.backgroundErrors.isEmpty then .ok ()
    else .error ("; ".intercalate shared.backgroundErrors),
    { shared with backgroundErrors := [] })

/-- The sequences that were accepted reach up to what is found when an archive
is opened. -/
def learn (shared : HistoryShared) (terminalId : String) (now : Nat) : HistoryShared :=
  let slot := shared.slot terminalId
  if slot.state.isSome then shared
  else
    match (stateFor terminalId now slot).result with
    | .error _ => shared
    | .ok state =>
      if state.lastSequence > 0 then
        shared.accept terminalId (max (shared.accepted terminalId) state.lastSequence)
      else shared

def writtenSequence (shared : HistoryShared) (terminalId : String) : Nat :=
  ((shared.slot terminalId).state.map ArchiveState.lastSequence).getD 0

def perform (shared : HistoryShared) (terminalId : String) (effect : Effect Unit) :
    HistoryShared :=
  (shared.setSlot terminalId (effect.slot (shared.slot terminalId))).recordResult effect.result

variable (gzip : Gzip) (limits : Limits) (now : Nat)

def appendOwned (shared : HistoryShared) (terminalId : String) (record : HistoryRecord) :
    HistoryShared :=
  (shared.learn terminalId now).perform terminalId
    (History.appendOwned gzip limits terminalId now record (shared.slot terminalId))

def finalizeTerminal (shared : HistoryShared) (terminalId : String) : HistoryShared :=
  let shared := shared.perform terminalId
    (History.finalizeTerminal gzip now (shared.slot terminalId))
  { shared with pendingCloses := shared.pendingCloses.filter (· ≠ terminalId) }

def finalizeReady (shared : HistoryShared) :
    List (String × Nat) → HistoryShared × List (String × Nat)
  | [] => (shared, [])
  | (terminalId, throughSequence) :: rest =>
    if shared.writtenSequence terminalId < throughSequence then
      let (shared, waiting) := shared.finalizeReady rest
      (shared, (terminalId, throughSequence) :: waiting)
    else (shared.finalizeTerminal gzip now terminalId).finalizeReady rest

def flushEach (shared : HistoryShared) : List String → Except HistoryError Unit × HistoryShared
  | [] => (.ok (), shared)
  | terminalId :: rest =>
    let effect := flushTerminal gzip now (shared.slot terminalId)
    let shared := shared.setSlot terminalId (effect.slot (shared.slot terminalId))
    match effect.result with
    | .error error => (.error error, shared)
    | .ok () => shared.flushEach rest

/-- An archive on disk: when it was updated, its bytes, and its terminal. -/
structure StoredArchive where
  updatedAt : Nat
  bytes : Nat
  terminalId : String

def storedArchives : List (String × Slot) → Except HistoryError (List StoredArchive)
  | [] => .ok []
  | (terminalId, slot) :: rest =>
    match readManifest slot.dir with
    | .error error => .error error
    | .ok none => storedArchives rest
    | .ok (some manifest) => do
        let archives ← storedArchives rest
        .ok (⟨manifest.updatedAt, storedBytes manifest.blocks, terminalId⟩ :: archives)

/-- Removes archives that are not open, the oldest first, while there are too
many bytes. -/
def evictArchives (shared : HistoryShared) (total : Nat) : List StoredArchive → HistoryShared
  | [] => shared
  | archive :: rest =>
    if total ≤ maxTotalBytes then shared
    else if (shared.slot archive.terminalId).state.isSome then shared.evictArchives total rest
    else (shared.setSlot archive.terminalId ⟨none, none⟩).evictArchives (total - archive.bytes)
      rest

def totalBytes (archives : List StoredArchive) : Nat := (archives.map StoredArchive.bytes).sum

def enforceTotalQuota (shared : HistoryShared) : Except HistoryError Unit × HistoryShared :=
  match storedArchives shared.slots.entries with
  | .error error => (.error error, shared)
  | .ok archives =>
    (.ok (), shared.evictArchives (totalBytes archives)
      (archives.mergeSort fun a b => decide (a.updatedAt ≤ b.updatedAt)))

def flushLive (shared : HistoryShared) : Except HistoryError Unit × HistoryShared :=
  match shared.flushEach gzip now (shared.slots.entries.map Prod.fst) with
  | (.error error, shared) => (.error error, shared)
  | (.ok (), shared) => shared.enforceTotalQuota

end HistoryShared

/-! ## Reads -/

inductive HistoryQuery where
  | inspect
  | readPage (afterSequence : Nat) (maxBytes : Option Nat)
  | readPageReverse (beforeSequence : Nat) (maxBytes : Option Nat)
  | available
  deriving DecidableEq

inductive HistoryAnswer where
  | metadata (result : Except HistoryError (Option TerminalHistoryMetadata))
  | page (result : Except HistoryError (Option TerminalHistoryPage))
  | available (result : Bool)

def HistoryQuery.nothing : HistoryQuery → HistoryAnswer
  | inspect => .metadata (.ok none)
  | readPage _ _ | readPageReverse _ _ => .page (.ok none)
  | available => .available false

def HistoryQuery.failed (error : HistoryError) : HistoryQuery → HistoryAnswer
  | inspect => .metadata (.error error)
  | readPage _ _ | readPageReverse _ _ => .page (.error error)
  | available => .available false

def HistoryQuery.answer (gzip : Gzip) (limits : Limits) (terminalId : String)
    (dir : Option ArchiveDir) (state : ArchiveState) : HistoryQuery → HistoryAnswer
  | inspect => .metadata ((inspectState terminalId dir state).map some)
  | readPage afterSequence maxBytes =>
    .page ((History.readPage gzip limits afterSequence maxBytes dir state).map some)
  | readPageReverse beforeSequence maxBytes =>
    .page ((History.readPageReverse gzip limits beforeSequence maxBytes dir state).map some)
  | available =>
    .available (match inspectState terminalId dir state with
      | .ok metadata => decide (metadata.lastSequence > 0)
      | .error _ => false)

def HistoryShared.read (gzip : Gzip) (limits : Limits) (now : Nat) (shared : HistoryShared)
    (terminalId : String) (query : HistoryQuery) : HistoryAnswer × HistoryShared :=
  let slot := shared.slot terminalId
  if slot.known then
    let opened := stateFor terminalId now slot
    let after := opened.slot slot
    (match opened.result with
      | .error error => query.failed error
      | .ok state => query.answer gzip limits terminalId after.dir state,
      (shared.learn terminalId now).setSlot terminalId after)
  else (query.nothing, shared)

/-! ## Callers and the owner -/

/-- A call that waits for the owner: a query of one terminal, or a flush of all. -/
inductive HistoryCall where
  | query (ticket : Nat) (terminalId : String) (query : HistoryQuery)
  | flushAll (ticket : Nat)
  deriving DecidableEq

inductive IngestCommand where
  | append (terminalId : String) (record : HistoryRecord)
  | snapshot (call : HistoryCall)
  | barrier (call : HistoryCall)
  deriving DecidableEq

def IngestCommand.bytes : IngestCommand → Nat
  | append _ record => record.data.length
  | _ => 0

/-- The archive: what is shared, the mailboxes, the closes the owner waits
for, the replies that callers have not picked up, and what calls returned. The
terminals whose close was accepted are kept in `closed`. -/
structure TerminalHistoryArchive where
  shared : HistoryShared
  ingest : List IngestCommand
  finalize : List (String × Nat)
  closes : List (String × Nat)
  replies : List (HistoryCall × Except String Unit)
  answers : List (HistoryCall × HistoryAnswer)
  flushes : List (HistoryCall × Except HistoryError Unit)
  closed : List String

namespace TerminalHistoryArchive

variable (gzip : Gzip) (limits : Limits) (now : Nat)

/-- What `append` checks before the mailbox: the terminal is not about to
close, and the sequence follows the one before. -/
def takes (archive : TerminalHistoryArchive) (terminalId : String) (record : HistoryRecord) :
    Bool :=
  record.ingested && !archive.shared.pendingCloses.contains terminalId &&
    decide (archive.shared.accepted terminalId < record.sequence)

def ingestReady (archive : TerminalHistoryArchive) (bytes : Nat) : Bool :=
  decide (archive.ingest.length < ingestMaxMessages) &&
    decide ((archive.ingest.map IngestCommand.bytes).sum + bytes ≤ ingestMaxBytes)

def send (archive : TerminalHistoryArchive) (command : IngestCommand) :
    Option TerminalHistoryArchive :=
  if archive.ingestReady command.bytes then
    some { archive with ingest := archive.ingest ++ [command] }
  else none

def append (archive : TerminalHistoryArchive) (terminalId : String) (record : HistoryRecord) :
    Option TerminalHistoryArchive :=
  if archive.takes terminalId record then
    ({ archive with shared := archive.shared.accept terminalId record.sequence }).send
      (.append terminalId record)
  else some archive

def newClose (archive : TerminalHistoryArchive) (terminalId : String) : Bool :=
  !archive.shared.pendingCloses.contains terminalId &&
    decide (archive.finalize.length < finalizeMaxMessages)

def closeTerminal (archive : TerminalHistoryArchive) (terminalId : String) :
    TerminalHistoryArchive :=
  if archive.newClose terminalId then
    { archive with
      shared := { archive.shared with
        pendingCloses := archive.shared.pendingCloses ++ [terminalId] }
      finalize := archive.finalize ++ [(terminalId, archive.shared.accepted terminalId)]
      closed := archive.closed ++ [terminalId] }
  else archive

/-- The owner takes the closes from their mailbox and finalizes what is ready. -/
def drain (archive : TerminalHistoryArchive) : TerminalHistoryArchive :=
  let (shared, waiting) :=
    archive.shared.finalizeReady gzip now (archive.closes ++ archive.finalize)
  { archive with
    shared := shared
    finalize := []
    closes := waiting }

def reply (archive : TerminalHistoryArchive) (call : HistoryCall) : TerminalHistoryArchive :=
  let (result, shared) := archive.shared.takeErrors
  { archive with
    shared := shared
    replies := archive.replies ++ [(call, result)] }

def settleAll (archive : TerminalHistoryArchive) : TerminalHistoryArchive :=
  let archive := archive.drain gzip now
  let (flushed, shared) := archive.shared.flushLive gzip now
  let (enforced, shared) := (shared.recordResult flushed).enforceTotalQuota
  { archive with shared := shared.recordResult enforced }

def handle (archive : TerminalHistoryArchive) : IngestCommand → TerminalHistoryArchive
  | .append terminalId record =>
    { archive with shared := archive.shared.appendOwned gzip limits now terminalId record }
  | .snapshot call => archive.reply call
  | .barrier call => (archive.settleAll gzip now).reply call

def finish (archive : TerminalHistoryArchive) (call : HistoryCall) :
    Option TerminalHistoryArchive :=
  match archive.replies.find? fun reply => reply.1 == call with
  | none => none
  | some (_, result) =>
    let archive := { archive with
      replies := archive.replies.eraseP fun reply => reply.1 == call }
    match call, result with
    | .query _ _ query, .error message =>
      some { archive with
        answers := archive.answers ++ [(call, query.failed (.corrupt message))] }
    | .query _ terminalId query, .ok () =>
      let (answer, shared) := archive.shared.read gzip limits now terminalId query
      some { archive with
        shared := shared
        answers := archive.answers ++ [(call, answer)] }
    | .flushAll _, .error message =>
      some { archive with
        flushes := archive.flushes ++ [(call, .error (.corrupt message))] }
    | .flushAll _, .ok () =>
      let (result, shared) := archive.shared.flushLive gzip now
      some { archive with
        shared := shared
        flushes := archive.flushes ++ [(call, result)] }

end TerminalHistoryArchive

inductive HistoryAction where
  | append (terminalId : String) (record : HistoryRecord)
  | closeTerminal (terminalId : String)
  | call (call : HistoryCall)
  | finish (call : HistoryCall)
  /-- the owner looks at the closes -/
  | drain
  /-- the owner takes the next command of the mailbox -/
  | receive

def HistoryCall.command : HistoryCall → IngestCommand
  | .query ticket terminalId asked => .snapshot (.query ticket terminalId asked)
  | .flushAll ticket => .barrier (.flushAll ticket)

def archiveStep (gzip : Gzip) (limits : Limits) (archive : TerminalHistoryArchive) (now : Nat) :
    HistoryAction → Option TerminalHistoryArchive
  | .append terminalId record => archive.append terminalId record
  | .closeTerminal terminalId => some (archive.closeTerminal terminalId)
  | .call call => archive.send call.command
  | .finish call => archive.finish gzip limits now call
  | .drain => some (archive.drain gzip now)
  | .receive =>
    match archive.ingest with
    | [] => none
    | command :: rest =>
      some (({ archive with ingest := rest } : TerminalHistoryArchive).handle gzip limits now
        command)

def TerminalHistoryArchive.opened (slots : IndexMap String Slot) : TerminalHistoryArchive :=
  ⟨⟨slots, [], [], .empty⟩, [], [], [], [], [], [], []⟩

def archiveSystem (gzip : Gzip) (limits : Limits) :
    System TerminalHistoryArchive (Nat × HistoryAction) where
  initial archive := ∃ slots : IndexMap String Slot,
    (∀ terminalId slot, slots.get? terminalId = some slot → slot.state = none) ∧
      archive = .opened slots
  step archive action := archiveStep gzip limits archive action.1 action.2

end Yaade.History

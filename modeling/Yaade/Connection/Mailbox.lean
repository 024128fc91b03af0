import Yaade.Library.IndexMap
import Mathlib.Data.Finset.Sort
import Mathlib.Data.String.Basic

/-!
The outbound mailbox of one connection.
-/

namespace Yaade.Connection

open Yaade.Library

structure MailboxLimits where
  reliableMaxFrames : Nat := 256
  reliableMaxBytes : Nat := 2 * 1024 * 1024
  legacyMaxFrames : Nat := 8192
  legacyMaxBytes : Nat := 32 * 1024 * 1024
  semanticMaxTerminals : Nat := 64
  semanticMaxBytes : Nat := 16 * 1024 * 1024 + 6

inductive Overflow where
  | reliable
  | legacy
  | semantic
  deriving DecidableEq

structure EnqueueResult where
  accepted : Bool
  replaced : Bool
  requiresResync : Bool
  overflow : Option Overflow
  deriving DecidableEq

inductive OutboundFrameKind where
  | text
  | binary
  deriving DecidableEq

/-- Lengths of what a frame carries. -/
class ByteLength (δ : Type) where
  byteLength : δ → Nat

instance : ByteLength (List UInt8) := ⟨List.length⟩

structure OutboundFrame (δ : Type) where
  data : δ
  kind : OutboundFrameKind
  terminalId : Option String
  terminalSequence : Option Nat
  deriving DecidableEq

namespace OutboundFrame

variable {δ : Type}

def text (data : δ) : OutboundFrame δ := ⟨data, .text, none, none⟩

def terminal (terminalId : String) (sequence : Nat) (data : δ) : OutboundFrame δ :=
  ⟨data, .binary, some terminalId, some sequence⟩

def bytes [ByteLength δ] (frame : OutboundFrame δ) : Nat := ByteLength.byteLength frame.data

end OutboundFrame

structure QueuedFrame (δ : Type) where
  frame : OutboundFrame δ
  order : Nat
  deriving DecidableEq

structure OutboundMailbox (δ : Type) where
  limits : MailboxLimits
  priority : List (QueuedFrame δ)
  reliable : List (QueuedFrame δ)
  reliableBytes : Nat
  legacy : List (QueuedFrame δ)
  legacyBytes : Nat
  semantic : IndexMap String (QueuedFrame δ)
  semanticBytes : Nat
  nextOrder : Nat
  resync : Finset String

def accepted (replaced requiresResync : Bool) : EnqueueResult :=
  ⟨true, replaced, requiresResync, none⟩

def rejected (overflow : Overflow) (requiresResync : Bool) : EnqueueResult :=
  ⟨false, false, requiresResync, some overflow⟩

/-- Where a queued frame waits. -/
inductive Lane where
  | priority
  | reliable
  | legacy
  | semantic (terminalId : String)
  deriving DecidableEq

namespace OutboundMailbox

variable {δ : Type}

def new (limits : MailboxLimits) : OutboundMailbox δ where
  limits := limits
  priority := []
  reliable := []
  reliableBytes := 0
  legacy := []
  legacyBytes := 0
  semantic := .empty
  semanticBytes := 0
  nextOrder := 0
  resync := ∅

def queued (mailbox : OutboundMailbox δ) (frame : OutboundFrame δ) : QueuedFrame δ :=
  ⟨frame, mailbox.nextOrder⟩

def requireResync (mailbox : OutboundMailbox δ) (terminalId : String) : OutboundMailbox δ :=
  { mailbox with resync := insert terminalId mailbox.resync }

variable [ByteLength δ]

def reliableFull (mailbox : OutboundMailbox δ) (bytes : Nat) : Bool :=
  bytes > mailbox.limits.reliableMaxBytes ||
    mailbox.priority.length + mailbox.reliable.length >= mailbox.limits.reliableMaxFrames ||
    mailbox.reliableBytes + bytes > mailbox.limits.reliableMaxBytes

def enqueueReliablePriority (mailbox : OutboundMailbox δ) (frame : OutboundFrame δ) :
    EnqueueResult × OutboundMailbox δ :=
  if mailbox.reliableFull frame.bytes then (rejected .reliable false, mailbox)
  else (accepted false false,
    { mailbox with
      priority := mailbox.priority ++ [mailbox.queued frame]
      nextOrder := mailbox.nextOrder + 1
      reliableBytes := mailbox.reliableBytes + frame.bytes })

variable (mailbox : OutboundMailbox δ)

theorem enqueueReliablePriority_cases (frame : OutboundFrame δ) :
    mailbox.enqueueReliablePriority frame = (rejected .reliable false, mailbox) ∨
    mailbox.enqueueReliablePriority frame = (accepted false false,
      { mailbox with
        priority := mailbox.priority ++ [mailbox.queued frame]
        nextOrder := mailbox.nextOrder + 1
        reliableBytes := mailbox.reliableBytes + frame.bytes }) := by
  unfold enqueueReliablePriority
  split
  · exact .inl rfl
  · exact .inr rfl

def enqueueReliable (mailbox : OutboundMailbox δ) (frame : OutboundFrame δ) :
    EnqueueResult × OutboundMailbox δ :=
  if mailbox.reliableFull frame.bytes then (rejected .reliable false, mailbox)
  else (accepted false false,
    { mailbox with
      reliable := mailbox.reliable ++ [mailbox.queued frame]
      nextOrder := mailbox.nextOrder + 1
      reliableBytes := mailbox.reliableBytes + frame.bytes })

theorem enqueueReliable_cases (frame : OutboundFrame δ) :
    mailbox.enqueueReliable frame = (rejected .reliable false, mailbox) ∨
    mailbox.enqueueReliable frame = (accepted false false,
      { mailbox with
        reliable := mailbox.reliable ++ [mailbox.queued frame]
        nextOrder := mailbox.nextOrder + 1
        reliableBytes := mailbox.reliableBytes + frame.bytes }) := by
  unfold enqueueReliable
  split
  · exact .inl rfl
  · exact .inr rfl

def enqueueLegacy (mailbox : OutboundMailbox δ) (terminalId : String)
    (frame : OutboundFrame δ) : EnqueueResult × OutboundMailbox δ :=
  if terminalId.isEmpty || frame.bytes > mailbox.limits.legacyMaxBytes ||
      mailbox.legacy.length >= mailbox.limits.legacyMaxFrames ||
      mailbox.legacyBytes + frame.bytes > mailbox.limits.legacyMaxBytes then
    (rejected .legacy false, mailbox)
  else (accepted false false,
    { mailbox with
      legacy := mailbox.legacy ++ [mailbox.queued { frame with terminalId := some terminalId }]
      nextOrder := mailbox.nextOrder + 1
      legacyBytes := mailbox.legacyBytes + frame.bytes })

theorem enqueueLegacy_cases (id : String) (frame : OutboundFrame δ) :
    mailbox.enqueueLegacy id frame = (rejected .legacy false, mailbox) ∨
    mailbox.enqueueLegacy id frame = (accepted false false,
      { mailbox with
        legacy := mailbox.legacy ++ [mailbox.queued { frame with terminalId := some id }]
        nextOrder := mailbox.nextOrder + 1
        legacyBytes := mailbox.legacyBytes + frame.bytes }) := by
  unfold enqueueLegacy
  split
  · exact .inl rfl
  · exact .inr rfl

def enqueueSemantic (mailbox : OutboundMailbox δ) (terminalId : String)
    (frame : OutboundFrame δ) : EnqueueResult × OutboundMailbox δ :=
  if terminalId.isEmpty || frame.bytes > mailbox.limits.semanticMaxBytes then
    (rejected .semantic true, mailbox.requireResync terminalId)
  else
    let stored : OutboundFrame δ := { frame with terminalId := some terminalId }
    match mailbox.semantic.get? terminalId with
    | some previous =>
      let nextBytes := mailbox.semanticBytes - previous.frame.bytes + frame.bytes
      if nextBytes > mailbox.limits.semanticMaxBytes then
        (rejected .semantic true, mailbox.requireResync terminalId)
      else (accepted true true,
        { mailbox.requireResync terminalId with
          semanticBytes := nextBytes
          semantic := mailbox.semantic.modify terminalId fun previous =>
            { previous with frame := stored } })
    | none =>
      if mailbox.semantic.length >= mailbox.limits.semanticMaxTerminals ||
          mailbox.semanticBytes + frame.bytes > mailbox.limits.semanticMaxBytes then
        (rejected .semantic true, mailbox.requireResync terminalId)
      else (accepted false false,
        { mailbox with
          semantic := mailbox.semantic.insert terminalId (mailbox.queued stored)
          nextOrder := mailbox.nextOrder + 1
          semanticBytes := mailbox.semanticBytes + frame.bytes })

omit [ByteLength δ] in
def better (selected : Option (Nat × Lane)) (order : Nat) (lane : Lane) : Option (Nat × Lane) :=
  if selected.all fun s => order < s.1 then some (order, lane) else selected

omit [ByteLength δ] in
def select (mailbox : OutboundMailbox δ) : Option (Nat × Lane) :=
  let selected := mailbox.reliable.head?.map fun frame => (frame.order, Lane.reliable)
  let selected := match mailbox.legacy.head? with
    | some frame => better selected frame.order .legacy
    | none => selected
  mailbox.semantic.entries.foldl
    (fun selected entry => better selected entry.2.order (.semantic entry.1)) selected

def popQueued (mailbox : OutboundMailbox δ) :
    Option (Lane × QueuedFrame δ × OutboundMailbox δ) :=
  match mailbox.priority with
  | queued :: rest => some (.priority, queued,
      { mailbox with
        priority := rest
        reliableBytes := mailbox.reliableBytes - queued.frame.bytes })
  | [] =>
    match mailbox.select with
    | none | some (_, .priority) => none
    | some (_, .reliable) =>
      match mailbox.reliable with
      | [] => none
      | queued :: rest => some (.reliable, queued,
          { mailbox with
            reliable := rest
            reliableBytes := mailbox.reliableBytes - queued.frame.bytes })
    | some (_, .legacy) =>
      match mailbox.legacy with
      | [] => none
      | queued :: rest => some (.legacy, queued,
          { mailbox with
            legacy := rest
            legacyBytes := mailbox.legacyBytes - queued.frame.bytes })
    | some (_, .semantic id) =>
      match mailbox.semantic.get? id with
      | none => none
      | some queued => some (.semantic id, queued,
          { mailbox with
            semantic := mailbox.semantic.shiftRemove id
            semanticBytes := mailbox.semanticBytes - queued.frame.bytes })

def popNext (mailbox : OutboundMailbox δ) : Option (OutboundFrame δ) × OutboundMailbox δ :=
  match mailbox.popQueued with
  | none => (none, mailbox)
  | some (_, queued, rest) => (some queued.frame, rest)

omit [ByteLength δ] in
def pendingFrames (mailbox : OutboundMailbox δ) : Nat :=
  mailbox.priority.length + mailbox.reliable.length + mailbox.legacy.length +
    mailbox.semantic.length

omit [ByteLength δ] in
def pendingBytes (mailbox : OutboundMailbox δ) : Nat :=
  mailbox.reliableBytes + mailbox.legacyBytes + mailbox.semanticBytes

omit [ByteLength δ] in
def isThrough (terminalId : String) (sequence : Nat) (queued : QueuedFrame δ) : Bool :=
  queued.frame.terminalId == some terminalId &&
    queued.frame.terminalSequence.any fun value => value <= sequence

def queuedBytes (frames : List (QueuedFrame δ)) : Nat :=
  (frames.map fun queued => queued.frame.bytes).sum

def discardTerminalThrough (mailbox : OutboundMailbox δ) (terminalId : String)
    (sequence : Nat) : OutboundMailbox δ :=
  let removed := mailbox.legacy.filter (isThrough terminalId sequence)
  { mailbox with
    legacy := mailbox.legacy.filter fun queued => !isThrough terminalId sequence queued
    legacyBytes := mailbox.legacyBytes - queuedBytes removed }

omit [ByteLength δ] in
def consumeResyncRequired (mailbox : OutboundMailbox δ) : List String × OutboundMailbox δ :=
  (mailbox.resync.sort (· ≤ ·), { mailbox with resync := ∅ })

end OutboundMailbox

end Yaade.Connection

import Yaade.Connection.Outbox
import Yaade.Connection.Forwarding
import Yaade.Connection.TerminalFrame

/-!
What a connection sends.
-/

namespace Yaade.Connection

open Yaade.Library List

/-- The messages of a connection. Answers that are not to an attach, and pongs,
are all alike here. -/
inductive WireMessage where
  | event (event : HostEvent)
  | attachResult (terminalId : String) (lastSequence : Option Nat)
  | replayRequired (terminalId : String) (sequence : Nat)
  | terminal (eventSequence terminalSequence : Nat) (terminalId : String) (data : List UInt8)
  | answer
  deriving DecidableEq

/-- Output with the number the hub gave it. -/
structure TerminalOutput where
  eventSequence : Nat
  terminalId : String
  sequence : Nat
  data : List UInt8
  deriving DecidableEq

structure TerminalFlow where
  acknowledged : Nat
  sent : List (Nat × Nat)
  unacknowledgedBytes : Nat
  deriving DecidableEq

namespace TerminalFlow

def new (acknowledged : Nat) : TerminalFlow := ⟨acknowledged, [], 0⟩

def reserve (flow : TerminalFlow) (sequence bytes limit : Nat) : Bool × TerminalFlow :=
  if sequence ≤ flow.acknowledged then (false, flow)
  else if flow.unacknowledgedBytes + bytes > limit then (false, flow)
  else (true,
    { flow with
      sent := flow.sent ++ [(sequence, bytes)]
      unacknowledgedBytes := flow.unacknowledgedBytes + bytes })

def acknowledge (flow : TerminalFlow) (sequence : Nat) : TerminalFlow :=
  if sequence ≤ flow.acknowledged then flow
  else
    let settled := flow.sent.takeWhile fun entry => entry.1 ≤ sequence
    { acknowledged := sequence
      sent := flow.sent.dropWhile fun entry => entry.1 ≤ sequence
      unacknowledgedBytes := flow.unacknowledgedBytes - (settled.map Prod.snd).sum }

end TerminalFlow

structure ConnectionOutbound where
  protocol : Nat
  flowLimit : Nat
  mailbox : OutboundMailbox WireMessage
  flow : IndexMap String TerminalFlow
  replayRequired : Finset String
  attaching : Finset String
  close : Option (Nat × String)
  stopped : Bool

inductive NextOutbound where
  | frame (frame : OutboundFrame WireMessage)
  | close (code : Nat) (reason : String)
  | stopped
  deriving DecidableEq

namespace ConnectionOutbound

def new (protocol flowLimit : Nat) (limits : MailboxLimits) : ConnectionOutbound where
  protocol := protocol
  flowLimit := flowLimit
  mailbox := .new limits
  flow := .empty
  replayRequired := ∅
  attaching := ∅
  close := none
  stopped := false

variable (outbound : ConnectionOutbound)

def closeWith (code : Nat) (reason : String) : ConnectionOutbound :=
  { outbound with close := some (outbound.close.getD (code, reason)) }

def stop : ConnectionOutbound := { outbound with stopped := true }

def attach (terminalId : String) (acknowledged : Nat) : ConnectionOutbound :=
  { outbound with
    flow := outbound.flow.insert terminalId (.new acknowledged)
    replayRequired := outbound.replayRequired.erase terminalId
    attaching := insert terminalId outbound.attaching }

def detach (terminalId : String) : ConnectionOutbound :=
  { outbound with
    flow := outbound.flow.shiftRemove terminalId
    replayRequired := outbound.replayRequired.erase terminalId
    attaching := outbound.attaching.erase terminalId }

def acknowledge (terminalId : String) (sequence : Nat) : ConnectionOutbound :=
  { outbound with flow := outbound.flow.modify terminalId fun flow => flow.acknowledge sequence }

variable [ByteLength WireMessage]

def enqueueReliable (message : WireMessage) : Bool × ConnectionOutbound :=
  if outbound.stopped || outbound.close.isSome then (false, outbound)
  else
    let (result, mailbox) := outbound.mailbox.enqueueReliable (.text message)
    if result.accepted then (true, { outbound with mailbox := mailbox })
    else (false, { outbound with close := some (1013, "reliable outbound mailbox overflow") })

/-- The answer to an attach goes ahead of what waits, and output that its
snapshot contains is taken out. -/
def enqueueAttachResult (terminalId : String) (snapshotSequence : Option Nat) :
    Bool × ConnectionOutbound :=
  let (result, mailbox) := outbound.mailbox.enqueueReliablePriority
    (.text (.attachResult terminalId snapshotSequence))
  if result.accepted then
    match snapshotSequence with
    | some sequence => (true,
        { outbound with
          mailbox := mailbox.discardTerminalThrough terminalId sequence
          flow := outbound.flow.modify terminalId fun flow => flow.acknowledge sequence
          attaching := outbound.attaching.erase terminalId })
    | none => (true,
        { outbound with
          mailbox := mailbox
          flow := outbound.flow.shiftRemove terminalId
          replayRequired := outbound.replayRequired.erase terminalId
          attaching := outbound.attaching.erase terminalId })
  else (false, { outbound with close := some (1013, "attach result mailbox overflow") })

/-- Output is no longer sent until the terminal is attached again, and the
client is told so. -/
def requireReplay (terminalId : String) (acknowledged : Nat) : ConnectionOutbound :=
  let (result, mailbox) := outbound.mailbox.enqueueReliable
    (.text (.replayRequired terminalId acknowledged))
  if result.accepted then
    { outbound with
      mailbox := mailbox
      replayRequired := insert terminalId outbound.replayRequired }
  else
    { outbound with
      close := some (1013, "replay fence mailbox overflow")
      replayRequired := insert terminalId outbound.replayRequired }

def listens (terminalId : String) : Bool :=
  !outbound.stopped && outbound.close.isNone && decide (terminalId ∉ outbound.replayRequired) &&
    outbound.flow.contains terminalId

def reserve (flow : TerminalFlow) (output : TerminalOutput) : Bool × TerminalFlow :=
  if outbound.protocol ≠ 2 then (true, flow)
  else flow.reserve output.sequence output.data.length outbound.flowLimit

def enqueueTerminal (output : TerminalOutput) : ConnectionOutbound :=
  if outbound.stopped || outbound.close.isSome ||
      decide (output.terminalId ∈ outbound.replayRequired) then outbound
  else match outbound.flow.get? output.terminalId with
    | none => outbound
    | some flow =>
      let (reserved, flow) := outbound.reserve flow output
      let outbound := { outbound with flow := outbound.flow.insert output.terminalId flow }
      if reserved then
        match Server.encodeTerminalDataFrame (UInt64.ofNat output.eventSequence)
            (UInt64.ofNat output.sequence) output.terminalId output.data with
        | .error _ => outbound
        | .ok _ =>
          let (result, mailbox) := outbound.mailbox.enqueueLegacy output.terminalId
            (.terminal output.terminalId output.sequence (.terminal output.eventSequence
              output.sequence output.terminalId output.data))
          if result.accepted then { outbound with mailbox := mailbox }
          else outbound.requireReplay output.terminalId flow.acknowledged
      else outbound.requireReplay output.terminalId flow.acknowledged

/-- What the writer does next, if anything: nothing is sent while an attach is
under way. -/
def next : Option (NextOutbound × ConnectionOutbound) :=
  match if outbound.attaching = ∅ then outbound.mailbox.popQueued else none with
  | some (_, queued, rest) => some (.frame queued.frame, { outbound with mailbox := rest })
  | none =>
    match outbound.close with
    | some (code, reason) =>
      some (.close code reason, { outbound with close := none, stopped := true })
    | none => if outbound.stopped then some (.stopped, outbound) else none

end ConnectionOutbound

/-! ## The messages that wait -/

def WireMessage.isThrough (terminalId : String) (sequence : Nat) : WireMessage → Bool
  | .terminal _ terminalSequence other _ => other = terminalId && terminalSequence ≤ sequence
  | _ => false

def WireMessage.isTerminal : WireMessage → Bool
  | .terminal _ _ _ _ => true
  | _ => false

namespace Slot

def message (slot : Slot WireMessage) : WireMessage := slot.queued.frame.data

/-- Output waits in the legacy lane under the name of its terminal, and all
else in the reliable lane. -/
def Fits (slot : Slot WireMessage) : Prop :=
  match slot.message with
  | .terminal _ terminalSequence terminalId _ => slot.lane = .legacy ∧
      slot.queued.frame.terminalId = some terminalId ∧
      slot.queued.frame.terminalSequence = some terminalSequence
  | _ => slot.lane = .reliable

theorem Fits.isThrough {slot : Slot WireMessage} (h : slot.Fits) (id : String)
    (sequence : Nat) : slot.isThrough id sequence =
      slot.message.isThrough id sequence := by
  unfold Fits at h
  unfold Slot.isThrough OutboundMailbox.isThrough
  cases hmsg : slot.message with
  | terminal eventSequence terminalSequence other data =>
    rw [hmsg] at h
    obtain ⟨hlane, hid, hseq⟩ := h
    rw [hlane, hid, hseq]
    simp only [WireMessage.isThrough, decide_true, Bool.true_and, Option.any_some]
    rfl
  | _ =>
    rw [hmsg] at h
    simp [show slot.lane = .reliable from h, WireMessage.isThrough]

end Slot

namespace OutboundMailbox

def Carries (mailbox : OutboundMailbox WireMessage) (urgent waiting : List WireMessage) : Prop :=
  ∃ box, mailbox.Holds box ∧ (box.urgent.map fun queued => queued.frame.data) = urgent ∧
    box.waiting.map Slot.message = waiting ∧ ∀ slot ∈ box.waiting, slot.Fits

variable {mailbox : OutboundMailbox WireMessage} {urgent waiting : List WireMessage}

theorem Carries.new (limits : MailboxLimits) : (new limits).Carries [] [] :=
  ⟨⟨[], []⟩, Holds.new limits, rfl, rfl, nofun⟩

variable [ByteLength WireMessage]

section

variable (h : mailbox.Carries urgent waiting)
include h

theorem Carries.enqueueReliable {message : WireMessage} (hmsg : message.isTerminal = false)
    (hacc : (mailbox.enqueueReliable (.text message)).1.accepted = true) :
    (mailbox.enqueueReliable (.text message)).2.Carries urgent (waiting ++ [message]) := by
  obtain ⟨box, hholds, hurgent, hwaiting, hfits⟩ := h
  rcases enqueueReliable_cases mailbox (.text message) with heq | heq
  · rw [heq] at hacc
    cases hacc
  rw [heq]
  refine ⟨box.push ⟨.reliable, mailbox.queued (.text message)⟩, hholds.push rfl
    (show Lane.reliable ≠ .priority from nofun) rfl rfl rfl (append_nil _).symm (append_nil _).symm, hurgent, ?_, fun slot hmem => ?_⟩
  · rw [Outbox.push, map_append, hwaiting]
    rfl
  · rcases mem_snoc.mp hmem with hold | rfl
    · exact hfits slot hold
    · cases message <;> first | rfl | cases hmsg

theorem Carries.enqueueReliablePriority {message : WireMessage}
    (hacc : (mailbox.enqueueReliablePriority (.text message)).1.accepted = true) :
    (mailbox.enqueueReliablePriority (.text message)).2.Carries (urgent ++ [message]) waiting := by
  obtain ⟨box, hholds, hurgent, hwaiting, hfits⟩ := h
  rcases enqueueReliablePriority_cases mailbox (.text message) with heq | heq
  · rw [heq] at hacc
    cases hacc
  rw [heq]
  refine ⟨box.pushUrgent (mailbox.queued (.text message)),
    hholds.pushUrgent _ rfl rfl rfl rfl rfl, ?_, hwaiting, hfits⟩
  rw [Outbox.pushUrgent, map_append, hurgent]
  rfl

theorem Carries.enqueueLegacy
    (eventSequence terminalSequence : Nat) (id : String) (data : List UInt8)
    (hacc : (mailbox.enqueueLegacy id (.terminal id terminalSequence
      (.terminal eventSequence terminalSequence id data))).1.accepted = true) :
    (mailbox.enqueueLegacy id (.terminal id terminalSequence
      (.terminal eventSequence terminalSequence id data))).2.Carries urgent
        (waiting ++ [.terminal eventSequence terminalSequence id data]) := by
  obtain ⟨box, hholds, hurgent, hwaiting, hfits⟩ := h
  rcases enqueueLegacy_cases mailbox id (.terminal id terminalSequence
    (.terminal eventSequence terminalSequence id data)) with heq | heq
  · rw [heq] at hacc
    cases hacc
  rw [heq]
  refine ⟨box.push ⟨.legacy, mailbox.queued (.terminal id terminalSequence
    (.terminal eventSequence terminalSequence id data))⟩, hholds.push rfl
    (show Lane.legacy ≠ .priority from nofun) rfl rfl (append_nil _).symm rfl (append_nil _).symm, hurgent, ?_, fun slot hmem => ?_⟩
  · rw [Outbox.push, map_append, hwaiting]
    rfl
  · rcases mem_snoc.mp hmem with hold | rfl
    · exact hfits slot hold
    · exact ⟨rfl, rfl, rfl⟩

theorem Carries.discard (id : String)
    (sequence : Nat) : (mailbox.discardTerminalThrough id sequence).Carries urgent
      (waiting.filter fun message => !message.isThrough id sequence) := by
  obtain ⟨box, hholds, hurgent, rfl, hfits⟩ := h
  refine ⟨box.discard id sequence, hholds.discard id sequence, hurgent, ?_,
    fun slot hmem => hfits slot (mem_of_mem_filter hmem)⟩
  rw [filter_map, Outbox.discard]
  refine congrArg (List.map Slot.message) (filter_congr fun slot hmem => ?_)
  rw [Function.comp_apply, (hfits slot hmem).isThrough]

theorem Carries.pop {lane : Lane}
    {queued : QueuedFrame WireMessage} {rest : OutboundMailbox WireMessage}
    (hpop : mailbox.popQueued = some (lane, queued, rest)) :
    (∃ others, urgent = queued.frame.data :: others ∧ rest.Carries others waiting) ∨
      (urgent = [] ∧ ∃ others, waiting = queued.frame.data :: others ∧ rest.Carries [] others) := by
  obtain ⟨⟨urgentSlots, waitingSlots⟩, hholds, rfl, rfl, hfits⟩ := h
  obtain ⟨restBox, hbox, hrest⟩ := hholds.popQueued_some hpop
  cases urgentSlots with
  | cons first others =>
    cases hbox
    exact .inl ⟨_, rfl, _, hrest, rfl, rfl, hfits⟩
  | nil =>
    cases waitingSlots with
    | nil => cases hbox
    | cons slot others =>
      cases hbox
      exact .inr ⟨rfl, _, rfl, _, hrest, rfl, rfl,
        fun other hmem => hfits other (mem_cons_of_mem _ hmem)⟩

end

end OutboundMailbox

/-! ## What the operations do to them -/

namespace ConnectionOutbound

variable [ByteLength WireMessage] {outbound : ConnectionOutbound} {urgent waiting : List WireMessage}

theorem enqueueReliable_carries (h : outbound.mailbox.Carries urgent waiting) {message : WireMessage}
    (hmsg : message.isTerminal = false) : ((outbound.enqueueReliable message).1 = true ∧
        (outbound.enqueueReliable message).2.mailbox.Carries urgent (waiting ++ [message])) ∨
      ((outbound.enqueueReliable message).1 = false ∧
        (outbound.enqueueReliable message).2.mailbox = outbound.mailbox) := by
  unfold enqueueReliable
  split
  · exact .inr ⟨rfl, rfl⟩
  dsimp only
  split
  · rename_i hacc
    exact .inl ⟨rfl, h.enqueueReliable hmsg hacc⟩
  · exact .inr ⟨rfl, rfl⟩

/-- What becomes of output: it is not looked at, or its name is too long for a
frame, or it is sent, or a fence is, or the connection closes. -/
inductive Takes (outbound : ConnectionOutbound) (urgent waiting : List WireMessage)
    (output : TerminalOutput) : ConnectionOutbound → Prop where
  | ignored (hlistens : outbound.listens output.terminalId = false) :
      Takes outbound urgent waiting output outbound
  | unencodable {flow : TerminalFlow} (hlistens : outbound.listens output.terminalId = true)
      (hlong : 0xFFFF < (Utf8.encode output.terminalId).length) :
      Takes outbound urgent waiting output
        { outbound with flow := outbound.flow.insert output.terminalId flow }
  | sent {flow : TerminalFlow} {mailbox : OutboundMailbox WireMessage}
      (hlistens : outbound.listens output.terminalId = true)
      (hcarr : mailbox.Carries urgent (waiting ++
        [.terminal output.eventSequence output.sequence output.terminalId output.data])) :
      Takes outbound urgent waiting output
        { outbound with
          flow := outbound.flow.insert output.terminalId flow
          mailbox := mailbox }
  | fenced {flow : TerminalFlow} {mailbox : OutboundMailbox WireMessage} {acknowledged : Nat}
      (hlistens : outbound.listens output.terminalId = true)
      (hcarr : mailbox.Carries urgent
        (waiting ++ [.replayRequired output.terminalId acknowledged])) :
      Takes outbound urgent waiting output
        { outbound with
          flow := outbound.flow.insert output.terminalId flow
          mailbox := mailbox
          replayRequired := insert output.terminalId outbound.replayRequired }
  | closed {flow : TerminalFlow} {reason : Nat × String}
      (hlistens : outbound.listens output.terminalId = true) :
      Takes outbound urgent waiting output
        { outbound with
          flow := outbound.flow.insert output.terminalId flow
          close := some reason
          replayRequired := insert output.terminalId outbound.replayRequired }

theorem requireReplay_takes (h : outbound.mailbox.Carries urgent waiting) {output : TerminalOutput}
    (hlistens : outbound.listens output.terminalId = true) (flow : TerminalFlow)
    (acknowledged : Nat) : outbound.Takes urgent waiting output
      (({ outbound with flow := outbound.flow.insert output.terminalId flow } :
        ConnectionOutbound).requireReplay output.terminalId acknowledged) := by
  unfold requireReplay
  dsimp only
  split
  · rename_i hacc
    exact .fenced hlistens (h.enqueueReliable rfl hacc)
  · exact .closed hlistens

theorem enqueueTerminal_takes (h : outbound.mailbox.Carries urgent waiting)
    (output : TerminalOutput) :
    outbound.Takes urgent waiting output (outbound.enqueueTerminal output) := by
  unfold enqueueTerminal
  split
  · rename_i hclosed
    refine .ignored ?_
    simp only [Bool.or_eq_true, decide_eq_true_eq] at hclosed
    unfold listens
    rcases hclosed with (hstopped | hclose) | hrequired
    · simp [hstopped]
    · simp [Option.isSome_iff_ne_none.mp hclose]
    · simp [hrequired]
  · rename_i hopen
    cases hflow : outbound.flow.get? output.terminalId with
    | none =>
      refine .ignored ?_
      simp [listens, IndexMap.contains, hflow]
    | some flow =>
      have hlistens : outbound.listens output.terminalId = true := by
        simp only [Bool.or_eq_true, decide_eq_true_eq, not_or, Bool.not_eq_true] at hopen
        simp [listens, IndexMap.contains, hflow, hopen.1.1, hopen.2,
          Option.isSome_eq_false_iff.mp hopen.1.2]
      dsimp only
      split
      · cases hencode : Server.encodeTerminalDataFrame (UInt64.ofNat output.eventSequence)
            (UInt64.ofNat output.sequence) output.terminalId output.data with
        | error _ =>
          refine .unencodable hlistens ?_
          unfold Server.encodeTerminalDataFrame at hencode
          dsimp only at hencode
          split at hencode
          · assumption
          · cases hencode
        | ok _ =>
          dsimp only
          split
          · rename_i hacc
            exact .sent hlistens (h.enqueueLegacy _ _ _ _ hacc)
          · exact requireReplay_takes h hlistens _ _
      · exact requireReplay_takes h hlistens _ _

/-- What becomes of the answer to an attach. -/
inductive Answers (outbound : ConnectionOutbound) (urgent waiting : List WireMessage)
    (terminalId : String) : Option Nat → Bool → ConnectionOutbound → Prop where
  | attached {sequence : Nat} {mailbox : OutboundMailbox WireMessage}
      (hcarr : mailbox.Carries (urgent ++ [.attachResult terminalId (some sequence)])
        (waiting.filter fun message => !message.isThrough terminalId sequence)) :
      Answers outbound urgent waiting terminalId (some sequence) true
        { outbound with
          mailbox := mailbox
          flow := outbound.flow.modify terminalId fun flow => flow.acknowledge sequence
          attaching := outbound.attaching.erase terminalId }
  | failed {mailbox : OutboundMailbox WireMessage}
      (hcarr : mailbox.Carries (urgent ++ [.attachResult terminalId none]) waiting) :
      Answers outbound urgent waiting terminalId none true
        { outbound with
          mailbox := mailbox
          flow := outbound.flow.shiftRemove terminalId
          replayRequired := outbound.replayRequired.erase terminalId
          attaching := outbound.attaching.erase terminalId }
  | closed {snapshotSequence : Option Nat} {reason : Nat × String} :
      Answers outbound urgent waiting terminalId snapshotSequence false
        { outbound with close := some reason }

theorem enqueueAttachResult_answers (h : outbound.mailbox.Carries urgent waiting)
    (id : String) (snapshotSequence : Option Nat) :
    outbound.Answers urgent waiting id snapshotSequence
      (outbound.enqueueAttachResult id snapshotSequence).1
      (outbound.enqueueAttachResult id snapshotSequence).2 := by
  unfold enqueueAttachResult
  dsimp only
  split
  · rename_i hacc
    have hurgent := h.enqueueReliablePriority hacc
    cases snapshotSequence with
    | some sequence => exact .attached (hurgent.discard id sequence)
    | none => exact .failed hurgent
  · exact .closed

/-- What the writer does: it takes a message when no attach is under way, and
closes or ends when there is none. -/
inductive Writes (outbound : ConnectionOutbound) (urgent waiting : List WireMessage) :
    NextOutbound → ConnectionOutbound → Prop where
  | urgent {frame : OutboundFrame WireMessage} {others : List WireMessage}
      {mailbox : OutboundMailbox WireMessage} (hattaching : outbound.attaching = ∅)
      (hurgent : urgent = frame.data :: others) (hcarr : mailbox.Carries others waiting) :
      Writes outbound urgent waiting (.frame frame) { outbound with mailbox := mailbox }
  | waiting {frame : OutboundFrame WireMessage} {others : List WireMessage}
      {mailbox : OutboundMailbox WireMessage} (hattaching : outbound.attaching = ∅)
      (hurgent : urgent = []) (hwaiting : waiting = frame.data :: others)
      (hcarr : mailbox.Carries [] others) :
      Writes outbound urgent waiting (.frame frame) { outbound with mailbox := mailbox }
  | close {code : Nat} {reason : String} (hclose : outbound.close = some (code, reason)) :
      Writes outbound urgent waiting (.close code reason)
        { outbound with
          close := none
          stopped := true }
  | stopped (hstopped : outbound.stopped = true) : Writes outbound urgent waiting .stopped outbound

theorem next_writes (h : outbound.mailbox.Carries urgent waiting) {action : NextOutbound}
    {outbound' : ConnectionOutbound} (hnext : outbound.next = some (action, outbound')) :
    outbound.Writes urgent waiting action outbound' := by
  unfold next at hnext
  cases hpop : if outbound.attaching = ∅ then outbound.mailbox.popQueued else none with
  | some popped =>
    obtain ⟨lane, queued, rest⟩ := popped
    rw [hpop] at hnext
    cases hnext
    obtain ⟨hattaching, hqueued⟩ := Option.ite_none_right_eq_some.mp hpop
    rcases h.pop hqueued with ⟨others, hurgent, hrest⟩ | ⟨hurgent, others, hwaiting, hrest⟩
    · exact .urgent hattaching hurgent hrest
    · exact .waiting hattaching hurgent hwaiting hrest
  | none =>
    rw [hpop] at hnext
    dsimp only at hnext
    cases hclose : outbound.close with
    | some reason =>
      rw [hclose] at hnext
      cases hnext
      exact .close hclose
    | none =>
      rw [hclose] at hnext
      obtain ⟨hstopped, hsame⟩ := Option.ite_none_right_eq_some.mp hnext
      cases hsame
      exact .stopped hstopped

end ConnectionOutbound

end Yaade.Connection

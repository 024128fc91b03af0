import Yaade.Desktop.Client
import Yaade.Terminal.Replay

/-!
What is queued to a view is the output of its PTY, and the replay of the output
before it was created is on its way, as long as the messages keep an order that
the client does not check.
-/

namespace Yaade.Desktop

open Library Terminal Option List IndexMap

/-! ## Streams -/

variable {output : Nat → List UInt8}

section Streams

variable {last : Nat} {bytes : List (List UInt8)}

/-- The payloads of consecutive sequences, from a checkpoint or a truncated
tail on. -/
def StreamOf (output : Nat → List UInt8) (queued : List (List UInt8)) : Prop :=
  ∃ (checkpoint : Option (List UInt8)) (first count : Nat), 0 < first ∧
    queued = checkpoint.toList ++ (List.range' first count).map output

def ReadUpTo (output : Nat → List UInt8) (last : Nat) (bytes : List (List UInt8)) : Prop :=
  ∃ (checkpoint : Option (List UInt8)) (first count : Nat), 0 < first ∧ first + count = last + 1 ∧
    bytes = checkpoint.toList ++ (List.range' first count).map output ∧ (last = 0 → bytes = [])

theorem ReadUpTo.nil : ReadUpTo output last [] :=
  ⟨none, last + 1, 0, Nat.succ_pos _, rfl, rfl, fun _ => rfl⟩

theorem ReadUpTo.empty (h : ReadUpTo output 0 bytes) : bytes = [] := by
  obtain ⟨_, _, _, _, _, _, hempty⟩ := h
  exact hempty rfl

theorem ReadUpTo.extend (h : ReadUpTo output last bytes) (count : Nat) :
    ReadUpTo output (last + count) (bytes ++ (List.range' (last + 1) count).map output) := by
  obtain ⟨checkpoint, first, before, hfirst, hlast, hbytes, hempty⟩ := h
  refine ⟨checkpoint, first, before + count, hfirst, by omega, ?_, ?_⟩
  · rw [hbytes, append_assoc, ← map_append, ← hlast, range'_append_1]
  · intro hzero
    obtain ⟨rfl, rfl⟩ : last = 0 ∧ count = 0 := by omega
    simp [hempty rfl]

theorem ReadUpTo.tail {first : List UInt8} (h : ReadUpTo output last (first :: bytes)) :
    ReadUpTo output last bytes := by
  obtain ⟨checkpoint, start, count, hstart, hlast, hbytes, hempty⟩ := h
  have hpositive : last ≠ 0 := fun hzero => by cases hempty hzero
  cases checkpoint with
  | some checkpoint =>
    obtain ⟨-, hrest⟩ := List.cons.inj hbytes
    exact ⟨none, start, count, hstart, hlast, hrest, fun hzero => absurd hzero hpositive⟩
  | none =>
    cases count with
    | zero => cases hbytes
    | succ count =>
      obtain ⟨-, hrest⟩ := List.cons.inj hbytes
      exact ⟨none, start + 1, count, Nat.succ_pos _, by omega, hrest,
        fun hzero => absurd hzero hpositive⟩

theorem ReadUpTo.drop {before : List (List UInt8)} (h : ReadUpTo output last (before ++ bytes)) :
    ReadUpTo output last bytes := by
  induction before with
  | nil => exact h
  | cons first rest ih => exact ih h.tail

theorem ReadUpTo.stream {queued : List (List UInt8)} (h : ReadUpTo output last (queued ++ bytes)) :
    StreamOf output queued := by
  obtain ⟨checkpoint, first, count, hfirst, -, hbytes, -⟩ := h
  cases checkpoint with
  | none =>
    obtain ⟨front, back, hsplit, hfront, -⟩ := map_eq_append_iff.mp hbytes.symm
    obtain ⟨taken, -, hrange, -⟩ := range'_eq_append_iff.mp hsplit
    exact ⟨none, first, taken, hfirst, by rw [← hfront, hrange]; rfl⟩
  | some checkpoint =>
    cases queued with
    | nil => exact ⟨none, first, 0, hfirst, rfl⟩
    | cons head rest =>
      obtain ⟨hhead, hrest⟩ := List.cons.inj hbytes
      obtain ⟨front, back, hsplit, hfront, -⟩ := map_eq_append_iff.mp hrest.symm
      obtain ⟨taken, -, hrange, -⟩ := range'_eq_append_iff.mp hsplit
      exact ⟨some checkpoint, first, taken, hfirst, by rw [← hfront, hrange, hhead]; rfl⟩

end Streams

/-! ## The answers of the host -/

variable {Screen : Type}

section Answers

variable {host : Host Screen} {ptyId : String}

/-- A host that runs the PTY: its ring is sound and holds what the PTY put
out. -/
structure Host.Serves (output : Nat → List UInt8) (host : Host Screen) (ptyId : String) : Prop where
  id : host.entry.id = ptyId
  sound : ReplaySound host.state
  data : ∀ chunk ∈ host.state.replay, chunk.data = output chunk.sequence

theorem map_data {run : List ReplayChunk} {last : Nat} (hrun : EndsAt last run)
    (hdata : ∀ chunk ∈ run, chunk.data = output chunk.sequence) :
    run.map ReplayChunk.data = (List.range' (last + 1 - run.length) run.length).map output := by
  induction run with
  | nil => rfl
  | cons chunk rest ih =>
    obtain ⟨hchunk, hrest⟩ := hrun
    have hfirst : last + 1 - (chunk :: rest).length = chunk.sequence := by
      rw [length_cons]
      omega
    have hsecond : last + 1 - rest.length = chunk.sequence + 1 := by omega
    rw [hfirst, length_cons, range'_succ, map_cons, map_cons,
      hdata chunk mem_cons_self,
      ih hrest fun other hmem => hdata other (mem_cons_of_mem chunk hmem), hsecond]

theorem Host.Serves.chunks (h : host.Serves output ptyId) (afterSequence : UInt64) :
    let attach := attachReply host.entry host.state host.archiveAvailable host.clientId afterSequence
    attach.outputChunks.length ≤ attach.lastSequence ∧
      attach.outputChunks = (List.range' (attach.lastSequence + 1 - attach.outputChunks.length)
        attach.outputChunks.length).map output := by
  intro attach
  obtain ⟨run, hsuffix, hchunks, -⟩ := attach_run h.sound.toRingSound host.entry
    host.archiveAvailable host.clientId afterSequence
  have hlength : attach.outputChunks.length = run.length := by
    rw [hchunks, length_map]
  have hshort := hsuffix.length_le.trans h.sound.short
  have hrun := map_data (h.sound.chain.suffix hsuffix)
    fun chunk hmem => h.data chunk (hsuffix.subset hmem)
  rw [hlength]
  exact ⟨hshort, hchunks.trans hrun⟩

theorem Host.Serves.nothing (h : host.Serves output ptyId) (hzero : host.state.sequence = 0)
    (afterSequence : UInt64) : attachCheckpoint host.state afterSequence = none := by
  cases hckpt : attachCheckpoint host.state afterSequence with
  | none => rfl
  | some checkpoint =>
    obtain ⟨hstored, hlater⟩ := filter_eq_some_iff.mp hckpt
    have hle := (h.sound.checkpoint checkpoint hstored).1
    rw [Bool.and_eq_true, decide_eq_true_eq] at hlater
    omega

theorem replayChunks_reply (host : Host Screen) (afterSequence : UInt64) :
    let attach := attachReply host.entry host.state host.archiveAvailable host.clientId afterSequence
    replayChunks attach = (attach.checkpoint.map TerminalCheckpoint.syntheticBytes).toList ++
      attach.outputChunks := by
  unfold replayChunks attachReply
  simp

theorem Host.Serves.read (h : host.Serves output ptyId) (afterSequence : UInt64) :
    let attach := attachReply host.entry host.state host.archiveAvailable host.clientId afterSequence
    ReadUpTo output attach.lastSequence (replayChunks attach) := by
  intro attach
  obtain ⟨hshort, hchunks⟩ := h.chunks afterSequence
  refine ⟨attach.checkpoint.map TerminalCheckpoint.syntheticBytes, _, attach.outputChunks.length,
    ?_, ?_, (replayChunks_reply host afterSequence).trans (congrArg _ hchunks), ?_⟩
  · exact Nat.sub_pos_of_lt (Nat.lt_succ_of_le hshort)
  · exact Nat.sub_add_cancel (Nat.le_succ_of_le hshort)
  · intro hzero
    have hckpt : attach.checkpoint = none := h.nothing hzero afterSequence
    have hempty : attach.outputChunks = [] :=
      eq_nil_of_length_eq_zero (Nat.le_zero.mp (hzero ▸ hshort))
    rw [replayChunks_reply host afterSequence, hckpt, hempty]
    rfl

end Answers

/-! ## What is promised -/

/-- An attach that asks for all the output is to be sent, waits for its answer,
or was answered and its replay is on the way. -/
def Awaited (world : World) (ptyId : String) : Prop :=
  (.attach ptyId ∈ world.actions ∧ world.recorded ptyId = 0) ∨
    (∃ id, world.pendingAttach.get? id = some ⟨ptyId, 0⟩) ∨
    ∃ chunks cols rows, .terminalReplay ptyId chunks cols rows true ∈ world.events

/-- The views hold streams, and the replay of all the output came, comes or has
failed. -/
structure StreamExact (output : String → Nat → List UInt8) (world : World) : Prop where
  exact : ∀ id terminal, world.terminals.get? id = some terminal →
    StreamOf (output terminal.ptyId) terminal.queued
  covered : ∀ id terminal, world.terminals.get? id = some terminal →
    terminal.failed = true ∨ terminal.replayed = true ∨ Awaited world terminal.ptyId

def FromHost {Screen : Type} (output : String → Nat → List UInt8) (world : World) :
    Action Screen → Prop
  | .attached id host => ∀ request, world.pendingAttach.get? id = some request →
      host.Serves (output request.ptyId) request.ptyId
  | _ => True

/-- Each view that is created is the first of its PTY, or a replay of all the
output is awaited. -/
def Opens (world : World) : List (String × String) → Prop
  | [] => True
  | terminal :: rest =>
    (world.isShown terminal = true ∨
      (terminal.2 ∉ world.attachedPtys ∧ world.recorded terminal.2 = 0) ∨
        Awaited world terminal.2) ∧
      Opens (world.openTerminal terminal) rest

def Continues (world : World) (ptyId : String) (attach : TerminalAttach) : Prop :=
  world.recorded ptyId = 0 ∨
    (attach.checkpoint = none ∧
      world.recorded ptyId + attach.outputChunks.length = attach.lastSequence)

/-- The order the client relies on: a snapshot has one terminal for a PTY and
opens no view too late, an answer continues what was read, and a frame is the
next of its PTY, whose attach was sent. -/
def Orderly {Screen : Type} (world : World) : Action Screen → Prop
  | .handleEvent => ∀ snapshots rest, world.events = .snapshots snapshots :: rest →
      ((liveTerminals snapshots).map Prod.snd).Nodup ∧
        Opens (({ world with events := rest } : World).retainTerminals (liveTerminals snapshots))
          (liveTerminals snapshots)
  | .attached id host => ∀ request, world.pendingAttach.get? id = some request →
      Continues world request.ptyId (world.answer id host)
  | .frame ptyId terminalSequence =>
    .attach ptyId ∉ world.actions ∧ terminalSequence = world.recorded ptyId + 1
  | _ => True

/-! ## Events in flight -/

def HostEvent.carries (ptyId : String) : HostEvent → List (List UInt8)
  | .terminalReplay other chunks _ _ _ => if other = ptyId then chunks else []
  | .terminalOutput other bytes => if other = ptyId then [bytes] else []
  | _ => []

def flight (ptyId : String) (events : List HostEvent) : List (List UInt8) :=
  events.flatMap (HostEvent.carries ptyId)

@[simp] theorem flight_cons (ptyId : String) (event : HostEvent) (rest : List HostEvent) :
    flight ptyId (event :: rest) = event.carries ptyId ++ flight ptyId rest :=
  flatMap_cons

@[simp] theorem flight_push (ptyId : String) (events : List HostEvent) (event : HostEvent) :
    flight ptyId (events ++ [event]) = flight ptyId events ++ event.carries ptyId := by
  simp [flight]

/-- What was queued and what is in flight is a stream up to the sequence
recorded. -/
def Takes (output : String → Nat → List UInt8) (world : World) (ptyId : String)
    (queued : List (List UInt8)) : Prop :=
  ReadUpTo (output ptyId) (world.recorded ptyId) (queued ++ flight ptyId world.events)

def World.Used (world : World) : RequestId → Prop
  | .numbered sequence => sequence ≤ world.sequence
  | .reattach uuid => uuid < world.uuids

/-- The invariant of the streams. -/
structure Flowing (output : String → Nat → List UInt8) (world : World) : Prop where
  fresh : ∀ ptyId, Takes output world ptyId []
  shown : ∀ id terminal, world.terminals.get? id = some terminal →
    Takes output world terminal.ptyId terminal.queued
  covered : ∀ id terminal, world.terminals.get? id = some terminal →
    terminal.failed = true ∨ terminal.replayed = true ∨ Awaited world terminal.ptyId
  pending : ∀ id request, world.pendingAttach.get? id = some request →
    request.lastSequence ≤ world.recorded request.ptyId ∧ world.Used id
  offline : world.connected = false → ∀ id, world.pendingAttach.get? id = none

def Distinct (world : World) : Prop :=
  ∀ id other terminal found, world.terminals.get? id = some terminal →
    world.terminals.get? other = some found → terminal.ptyId = found.ptyId → id = other

variable {world world' : World} {output : String → Nat → List UInt8}

section Steps

theorem Flowing.exact (h : Flowing output world) : StreamExact output world :=
  ⟨fun id terminal hterm => (h.shown id terminal hterm).stream, h.covered⟩

theorem Flowing.quiet (h : Flowing output world) (hterms : world'.terminals = world.terminals)
    (htakes : ∀ ptyId queued, Takes output world ptyId queued → Takes output world' ptyId queued)
    (hawait : ∀ ptyId, Awaited world ptyId → Awaited world' ptyId)
    (hpend : ∀ id request, world'.pendingAttach.get? id = some request →
      request.lastSequence ≤ world'.recorded request.ptyId ∧ world'.Used id)
    (hoffline : world'.connected = false → ∀ id, world'.pendingAttach.get? id = none) :
    Flowing output world' where
  fresh ptyId := htakes ptyId [] (h.fresh ptyId)
  shown id terminal hterm :=
    htakes _ _ (h.shown id terminal (hterms ▸ hterm))
  covered id terminal hterm :=
    (h.covered id terminal (hterms ▸ hterm)).imp_right (Or.imp_right (hawait _))
  pending := hpend
  offline := hoffline

theorem Awaited.emit {ptyId : String} (h : Awaited world ptyId) (event : HostEvent) :
    Awaited (world.emit event) ptyId := by
  obtain hsend | hpend | ⟨chunks, cols, rows, hmem⟩ := h
  · exact .inl hsend
  · exact .inr (.inl hpend)
  · exact .inr (.inr ⟨chunks, cols, rows, mem_append_left _ hmem⟩)

variable {event : HostEvent}

section

variable (h : Flowing output world)
include h

theorem Flowing.emit (hev : ∀ ptyId, event.carries ptyId = []) :
    Flowing output (world.emit event) := by
  refine h.quiet rfl (fun ptyId queued htakes => ?_) (fun ptyId hawait => hawait.emit event)
    h.pending h.offline
  unfold Takes World.emit
  rw [flight_push, hev, append_nil]
  exact htakes

theorem Flowing.write (action : SocketAction) :
    Flowing output { world with actions := world.actions ++ [action] } := by
  refine h.quiet rfl (fun _ _ htakes => htakes) (fun ptyId hawait => ?_) h.pending h.offline
  exact hawait.imp_left fun hsend => ⟨mem_append_left _ hsend.1, hsend.2⟩

theorem Flowing.request (hconn : world.connected = true)
    {ptyId : String} {lastSequence : Nat} (hle : lastSequence ≤ world.recorded ptyId) :
    Flowing output (world.request ptyId lastSequence) := by
  refine h.quiet rfl (fun _ _ htakes => htakes) (fun other hawait => ?_) ?_
    fun hoff => by cases hconn.symm.trans hoff
  · refine hawait.imp_right (Or.imp_left ?_)
    rintro ⟨id, hid⟩
    have hused := (h.pending id _ hid).2
    refine ⟨id, ?_⟩
    unfold World.request
    rw [get?_insert, if_neg, hid]
    rintro rfl
    exact Nat.not_succ_le_self _ hused
  · intro id request hreq
    unfold World.request at hreq
    rw [get?_insert] at hreq
    split at hreq
    · rename_i hid
      cases hreq
      exact ⟨hle, hid ▸ le_rfl⟩
    · obtain ⟨hbehind, hused⟩ := h.pending id request hreq
      refine ⟨hbehind, ?_⟩
      cases id with
      | numbered sequence => exact Nat.le_succ_of_le hused
      | reattach uuid => exact hused

theorem Flowing.requestAll (hconn : world.connected = true)
    {entries : List (String × Nat)} (hle : ∀ entry ∈ entries, entry.2 ≤ world.recorded entry.1) :
    Flowing output (world.requestAll entries) := by
  induction entries generalizing world with
  | nil => exact h
  | cons entry rest ih =>
    exact ih (h.request hconn (hle entry mem_cons_self)) hconn
      fun other hmem => hle other (mem_cons_of_mem entry hmem)

theorem Flowing.connect (hoff : world.connected = false) :
    Flowing output world.connect := by
  have hempty : Flowing output
      { world with connected := true, sequence := 0, pendingAttach := .empty } := by
    refine h.quiet rfl (fun _ _ htakes => htakes) (fun ptyId hawait => ?_)
      (fun id request hreq => ?_) nofun
    · refine hawait.imp_right (Or.imp_left ?_)
      rintro ⟨id, hid⟩
      rw [h.offline hoff id] at hid
      cases hid
    · cases hreq
  refine hempty.requestAll rfl fun entry hmem => ?_
  have hget : world.subscriptions.get? entry.1 = some entry.2 := get?_eq_some.mpr hmem
  show entry.2 ≤ (world.subscriptions.get? entry.1).getD 0
  rw [hget]
  exact le_rfl

end

theorem recorded_entry (world : World) (ptyId other : String) :
    ((if world.subscriptions.contains ptyId then world.subscriptions
      else world.subscriptions.insert ptyId 0).get? other).getD 0 = world.recorded other := by
  split
  · rfl
  rename_i habsent
  rw [get?_insert]
  split
  · rename_i hother
    subst hother
    have hnone : world.subscriptions.get? other = none := by
      simpa [IndexMap.contains] using habsent
    unfold World.recorded
    rw [hnone]
    rfl
  · rfl

/-- The first action of the channel is handled. -/
theorem Flowing.take (h : Flowing output world) (hconn : world.connected = true)
    {action : SocketAction} {rest : List SocketAction} (hactions : world.actions = action :: rest) :
    Flowing output (({ world with actions := rest } : World).handleAction action) := by
  have hrest : ∀ ptyId, action ≠ .attach ptyId → .attach ptyId ∈ world.actions →
      SocketAction.attach ptyId ∈ rest := by
    intro ptyId hother hmem
    rw [hactions] at hmem
    exact (mem_cons.mp hmem).resolve_left (Ne.symm hother)
  have hnumber : ∀ id request, world.pendingAttach.get? id = some request →
      request.lastSequence ≤ world.recorded request.ptyId ∧
        World.Used { world with actions := rest, sequence := world.sequence + 1 } id := by
    intro id request hreq
    obtain ⟨hbehind, hused⟩ := h.pending id request hreq
    refine ⟨hbehind, ?_⟩
    cases id with
    | numbered sequence => exact Nat.le_succ_of_le hused
    | reattach uuid => exact hused
  cases action with
  | input | resize =>
    refine h.quiet rfl (fun _ _ htakes => htakes) (fun other hawait => ?_) hnumber h.offline
    exact hawait.imp_left fun hsend => ⟨hrest other nofun hsend.1, hsend.2⟩
  | attach ptyId =>
    have hentry : Flowing output { world with
        subscriptions :=
          if world.subscriptions.contains ptyId then world.subscriptions
          else world.subscriptions.insert ptyId 0 } := by
      have hrecorded := recorded_entry world ptyId
      refine h.quiet rfl (fun other queued htakes => ?_) (fun other hawait => ?_)
        (fun id request hreq => ?_) h.offline
      · unfold Takes World.recorded
        rw [hrecorded]
        exact htakes
      · exact hawait.imp_left fun hsend => ⟨hsend.1, (hrecorded other).trans hsend.2⟩
      · obtain ⟨hbehind, hused⟩ := h.pending id request hreq
        exact ⟨hbehind.trans_eq (hrecorded request.ptyId).symm, hused⟩
    have hrequested := hentry.request hconn (recorded_entry world ptyId ptyId).ge
    -- what the action stood for is now a pending request
    refine hrequested.quiet rfl (fun _ _ htakes => htakes) (fun other hawait => ?_)
      hrequested.pending hrequested.offline
    rcases hawait with ⟨hsend, hzero⟩ | hlater
    · by_cases hother : other = ptyId
      · subst hother
        refine .inr (.inl ⟨.numbered (world.sequence + 1), ?_⟩)
        have hnothing : world.recorded other = 0 := (recorded_entry world other other).symm.trans hzero
        show (world.pendingAttach.insert _ ⟨other, world.recorded other⟩).get? _ = _
        rw [get?_insert, if_pos rfl, hnothing]
      · exact .inl ⟨hrest other (fun heq => hother (SocketAction.attach.inj heq).symm) hsend, hzero⟩
    · exact .inr hlater

theorem Flowing.replayRequired (h : Flowing output world) (hconn : world.connected = true)
    (ptyId : String) : Flowing output (world.replayRequired ptyId) := by
  refine h.quiet rfl (fun _ _ htakes => htakes) (fun other hawait => ?_) ?_
    fun hoff => by cases hconn.symm.trans hoff
  · refine hawait.imp_right (Or.imp_left ?_)
    rintro ⟨id, hid⟩
    have hused := (h.pending id _ hid).2
    refine ⟨id, ?_⟩
    unfold World.replayRequired
    rw [get?_insert, if_neg, hid]
    rintro rfl
    exact Nat.lt_irrefl _ hused
  · intro id request hreq
    unfold World.replayRequired at hreq
    rw [get?_insert] at hreq
    split at hreq
    · rename_i hid
      cases hreq
      exact ⟨le_rfl, hid ▸ Nat.lt_succ_self _⟩
    · obtain ⟨hbehind, hused⟩ := h.pending id request hreq
      refine ⟨hbehind, ?_⟩
      cases id with
      | numbered sequence => exact hused
      | reattach uuid => exact Nat.lt_succ_of_lt hused

/-! ## Answers and frames -/

theorem Takes.grow {ptyId : String} {last : Nat} (bytes : List (List UInt8))
    (hflight : flight ptyId world'.events = flight ptyId world.events ++ bytes)
    (hlast : world'.recorded ptyId = last)
    (hbytes : (world.recorded ptyId = 0 ∧ ReadUpTo (output ptyId) last bytes) ∨
      ∃ count, last = world.recorded ptyId + count ∧
        bytes = (List.range' (world.recorded ptyId + 1) count).map (output ptyId))
    {queued : List (List UInt8)} (h : Takes output world ptyId queued) :
    Takes output world' ptyId queued := by
  unfold Takes at h ⊢
  rw [hflight, hlast, ← append_assoc]
  rcases hbytes with ⟨hzero, hread⟩ | ⟨count, rfl, rfl⟩
  · rw [hzero] at h
    rw [h.empty]
    exact hread
  · exact h.extend count

/-- The answer to a pending attach. -/
theorem Flowing.attached (h : Flowing output world) (hconn : world.connected = true)
    {id : RequestId} {host : Host Screen} {request : AttachRequest}
    (hreq : world.pendingAttach.get? id = some request)
    (hserves : host.Serves (output request.ptyId) request.ptyId)
    (hcontinues : Continues world request.ptyId (world.answer id host)) :
    Flowing output (world.attached id (world.answer id host)) := by
  have hbehind := (h.pending id request hreq).1
  have hid : (world.answer id host).id = request.ptyId := hserves.id
  have hread : ReadUpTo (output request.ptyId) (world.answer id host).lastSequence
      (replayChunks (world.answer id host)) := hserves.read _
  have hchunks : (world.answer id host).outputChunks.length ≤ (world.answer id host).lastSequence ∧
      (world.answer id host).outputChunks = (List.range' ((world.answer id host).lastSequence + 1 -
        (world.answer id host).outputChunks.length)
          (world.answer id host).outputChunks.length).map (output request.ptyId) :=
    hserves.chunks _
  have hreply : replayChunks (world.answer id host) =
      ((world.answer id host).checkpoint.map TerminalCheckpoint.syntheticBytes).toList ++
        (world.answer id host).outputChunks := replayChunks_reply host _
  generalize world.answer id host = attach at *
  have hworld : world.attached id attach = ({ world with
      pendingAttach := world.pendingAttach.shiftRemove id
      subscriptions := world.subscriptions.insert request.ptyId attach.lastSequence } :
        World).emit (.terminalReplay request.ptyId (replayChunks attach) attach.cols attach.rows
          (request.lastSequence = 0)) := by
    unfold World.attached
    rw [hreq, hid]
  rw [hworld]
  have hrecorded : ∀ ptyId, ((world.subscriptions.insert request.ptyId attach.lastSequence).get?
      ptyId).getD 0 = if ptyId = request.ptyId then attach.lastSequence
        else world.recorded ptyId := by
    intro ptyId
    rw [get?_insert]
    split <;> rfl
  have hgrows : (world.recorded request.ptyId = 0 ∧
        ReadUpTo (output request.ptyId) attach.lastSequence (replayChunks attach)) ∨
      ∃ count, attach.lastSequence = world.recorded request.ptyId + count ∧
        replayChunks attach =
          (List.range' (world.recorded request.ptyId + 1) count).map (output request.ptyId) := by
    refine hcontinues.imp (fun hzero => ⟨hzero, hread⟩) fun hgrown => ?_
    obtain ⟨hckpt, hcount⟩ := hgrown
    refine ⟨attach.outputChunks.length, hcount.symm, ?_⟩
    rw [hreply, hckpt, hchunks.2, length_map, length_range']
    have hfirst : attach.lastSequence + 1 - attach.outputChunks.length =
        world.recorded request.ptyId + 1 := by omega
    rw [hfirst]
    rfl
  have hlater : world.recorded request.ptyId ≤ attach.lastSequence := by
    rcases hgrows with ⟨hzero, -⟩ | ⟨count, hcount, -⟩
    · exact hzero ▸ Nat.zero_le _
    · exact hcount ▸ Nat.le_add_right _ _
  refine h.quiet rfl (fun ptyId queued htakes => ?_) (fun ptyId hawait => ?_)
    (fun other found hfound => ?_) fun hoff => by cases hconn.symm.trans hoff
  · by_cases hsame : ptyId = request.ptyId
    · subst hsame
      refine Takes.grow (replayChunks attach) ?_ ?_ hgrows htakes
      · rw [World.emit, flight_push, HostEvent.carries, if_pos rfl]
      · exact (hrecorded _).trans (if_pos rfl)
    · show ReadUpTo (output ptyId) (((world.subscriptions.insert request.ptyId
        attach.lastSequence).get? ptyId).getD 0) (queued ++ flight ptyId (world.events ++ [_]))
      rw [hrecorded, if_neg hsame, flight_push, HostEvent.carries, if_neg (Ne.symm hsame),
        append_nil]
      exact htakes
  · by_cases hwhole : ptyId = request.ptyId ∧ request.lastSequence = 0
    · obtain ⟨rfl, hzero⟩ := hwhole
      refine .inr (.inr ⟨replayChunks attach, attach.cols, attach.rows, ?_⟩)
      exact mem_append_right _ (by rw [decide_eq_true hzero]; exact mem_singleton_self _)
    rcases hawait with ⟨hsend, hzero⟩ | ⟨other, hother⟩ | ⟨chunks, cols, rows, hmem⟩
    · refine .inl ⟨hsend, (hrecorded ptyId).trans ?_⟩
      rw [if_neg, hzero]
      rintro rfl
      exact hwhole ⟨rfl, Nat.le_zero.mp (hzero ▸ hbehind)⟩
    · refine .inr (.inl ⟨other, ?_⟩)
      show (world.pendingAttach.shiftRemove id).get? other = _
      rw [get?_shiftRemove, if_neg, hother]
      rintro rfl
      cases hreq.symm.trans hother
      exact hwhole ⟨rfl, rfl⟩
    · exact .inr (.inr ⟨chunks, cols, rows, mem_append_left _ hmem⟩)
  · replace hfound : (world.pendingAttach.shiftRemove id).get? other = some found := hfound
    rw [get?_shiftRemove] at hfound
    split at hfound
    · cases hfound
    obtain ⟨hle, hused⟩ := h.pending other found hfound
    refine ⟨?_, hused⟩
    have hcase := hrecorded found.ptyId
    split at hcase
    · rename_i hsame
      rw [hsame] at hle
      exact (hle.trans hlater).trans_eq hcase.symm
    · exact hle.trans_eq hcase.symm

/-- The next frame of a PTY. -/
theorem Flowing.frame (h : Flowing output world) {ptyId : String}
    (hsent : .attach ptyId ∉ world.actions) :
    Flowing output (world.frame ptyId (world.recorded ptyId + 1)
      (output ptyId (world.recorded ptyId + 1))) := by
  have hrecorded : ∀ other, ((world.frame ptyId (world.recorded ptyId + 1)
      (output ptyId (world.recorded ptyId + 1))).recorded other) =
        if other = ptyId then world.recorded ptyId + 1 else world.recorded other := by
    intro other
    unfold World.frame World.emit World.recorded
    cases hget : world.subscriptions.get? ptyId with
    | none =>
      simp only
      rw [get?_insert]
      split <;> rfl
    | some sequence =>
      simp only
      rw [get?_insert]
      split
      · exact Nat.max_eq_right (Nat.le_succ sequence)
      · rfl
  refine h.quiet rfl (fun other queued htakes => ?_) (fun other hawait => ?_)
    (fun id request hreq => ?_) h.offline
  · by_cases hsame : other = ptyId
    · subst hsame
      refine Takes.grow [output other (world.recorded other + 1)] ?_
        ((hrecorded other).trans (if_pos rfl)) (.inr ⟨1, rfl, rfl⟩) htakes
      rw [World.frame, World.emit, flight_push, HostEvent.carries, if_pos rfl]
    · unfold Takes
      rw [(hrecorded other).trans (if_neg hsame), World.frame, World.emit, flight_push,
        HostEvent.carries, if_neg (Ne.symm hsame), append_nil]
      exact htakes
  · rcases hawait with ⟨hsend, hzero⟩ | hpend | ⟨chunks, cols, rows, hmem⟩
    · refine .inl ⟨hsend, (hrecorded other).trans ((if_neg ?_).trans hzero)⟩
      rintro rfl
      exact hsent hsend
    · exact .inr (.inl hpend)
    · exact .inr (.inr ⟨chunks, cols, rows, mem_append_left _ hmem⟩)
  · obtain ⟨hle, hused⟩ := h.pending id request hreq
    refine ⟨hle.trans ?_, hused⟩
    rw [hrecorded]
    split
    · rename_i hsame
      rw [hsame]
      exact Nat.le_succ _
    · exact le_rfl

/-! ## Lost attaches -/

def NativeTerminal.lost (terminal : NativeTerminal) (request : AttachRequest) : NativeTerminal :=
  if request.lastSequence = 0 ∧ terminal.ptyId = request.ptyId then
    { terminal with failed := true }
  else terminal

theorem lost_kept (terminal : NativeTerminal) (request : AttachRequest) :
    (terminal.lost request).ptyId = terminal.ptyId ∧
      (terminal.lost request).queued = terminal.queued ∧
      (terminal.lost request).replayed = terminal.replayed ∧
      (terminal.failed = true → (terminal.lost request).failed = true) := by
  unfold NativeTerminal.lost
  split
  · exact ⟨rfl, rfl, rfl, fun _ => rfl⟩
  · exact ⟨rfl, rfl, rfl, id⟩

theorem lose_get? (world : World) (request : AttachRequest) (id : String) :
    (world.lose request).terminals.get? id =
      (world.terminals.get? id).map fun terminal => terminal.lost request := by
  unfold World.lose NativeTerminal.lost
  split
  · rename_i hzero
    rw [get?_mapValues]
    simp only [hzero, true_and]
  · rename_i hlater
    simp only [hlater, false_and, if_false, Option.map_id']

theorem loseAll_get? (world : World) (requests : List AttachRequest) (id : String) :
    (world.loseAll requests).terminals.get? id =
      (world.terminals.get? id).map fun terminal => requests.foldl NativeTerminal.lost terminal := by
  induction requests generalizing world with
  | nil => exact Option.map_id'.symm
  | cons request rest ih =>
    refine (ih (world.lose request)).trans ?_
    rw [lose_get?, Option.map_map]
    rfl

theorem loseAll_kept (world : World) (requests : List AttachRequest) :
    ∃ terminals, world.loseAll requests = { world with terminals := terminals } := by
  induction requests generalizing world with
  | nil => exact ⟨world.terminals, rfl⟩
  | cons request rest ih =>
    obtain ⟨first, hfirst⟩ :
        ∃ terminals, world.lose request = { world with terminals := terminals } := by
      unfold World.lose
      split
      · exact ⟨_, rfl⟩
      · exact ⟨world.terminals, rfl⟩
    obtain ⟨terminals, hrest⟩ := ih { world with terminals := first }
    exact ⟨terminals, (congrArg (fun next => next.loseAll rest) hfirst).trans hrest⟩

theorem lostAll_kept (requests : List AttachRequest) (terminal : NativeTerminal) :
    (requests.foldl NativeTerminal.lost terminal).ptyId = terminal.ptyId ∧
      (requests.foldl NativeTerminal.lost terminal).queued = terminal.queued ∧
      (requests.foldl NativeTerminal.lost terminal).replayed = terminal.replayed ∧
      (terminal.failed = true → (requests.foldl NativeTerminal.lost terminal).failed = true) := by
  induction requests generalizing terminal with
  | nil => exact ⟨rfl, rfl, rfl, id⟩
  | cons request rest ih =>
    obtain ⟨hptyId, hqueued, hreplayed, hfailed⟩ := ih (terminal.lost request)
    obtain ⟨hptyId', hqueued', hreplayed', hfailed'⟩ := lost_kept terminal request
    exact ⟨hptyId.trans hptyId', hqueued.trans hqueued', hreplayed.trans hreplayed',
      fun h => hfailed (hfailed' h)⟩

theorem lostAll_failed {requests : List AttachRequest} {terminal : NativeTerminal}
    (hmem : ⟨terminal.ptyId, 0⟩ ∈ requests) :
    (requests.foldl NativeTerminal.lost terminal).failed = true := by
  induction requests generalizing terminal with
  | nil => cases hmem
  | cons request rest ih =>
    rcases mem_cons.mp hmem with rfl | hrest
    · refine (lostAll_kept rest _).2.2.2 ?_
      unfold NativeTerminal.lost
      rw [if_pos ⟨rfl, rfl⟩]
    · exact ih ((lost_kept terminal request).1.symm ▸ hrest)

theorem Flowing.losing (h : Flowing output world) {requests : List AttachRequest}
    (hterms : ∀ id, world'.terminals.get? id =
      (world.terminals.get? id).map fun terminal => requests.foldl NativeTerminal.lost terminal)
    (htakes : ∀ ptyId queued, Takes output world ptyId queued → Takes output world' ptyId queued)
    (hawait : ∀ ptyId, Awaited world ptyId → Awaited world' ptyId ∨ ⟨ptyId, 0⟩ ∈ requests)
    (hpend : ∀ id request, world'.pendingAttach.get? id = some request →
      request.lastSequence ≤ world'.recorded request.ptyId ∧ world'.Used id)
    (hoffline : world'.connected = false → ∀ id, world'.pendingAttach.get? id = none) :
    Flowing output world' := by
  refine ⟨fun ptyId => htakes ptyId [] (h.fresh ptyId), fun id terminal hterm => ?_,
    fun id terminal hterm => ?_, hpend, hoffline⟩
  · obtain ⟨before, hbef, rfl⟩ := map_eq_some_iff.mp ((hterms id).symm.trans hterm)
    obtain ⟨hptyId, hqueued, -, -⟩ := lostAll_kept requests before
    rw [hptyId, hqueued]
    exact htakes _ _ (h.shown id before hbef)
  · obtain ⟨before, hbef, rfl⟩ := map_eq_some_iff.mp ((hterms id).symm.trans hterm)
    obtain ⟨hptyId, -, hreplayed, hfailed⟩ := lostAll_kept requests before
    rcases h.covered id before hbef with hold | hold | hold
    · exact .inl (hfailed hold)
    · exact .inr (.inl (hreplayed.trans hold))
    rcases hawait _ hold with hkept | hlost
    · exact .inr (.inr (hptyId.symm ▸ hkept))
    · exact .inl (lostAll_failed hlost)

theorem Flowing.disconnect (h : Flowing output world) : Flowing output world.disconnect := by
  obtain ⟨terminals, hkept⟩ := loseAll_kept
    { world with connected := false, pendingAttach := .empty } world.pendingAttach.values
  have hlost := loseAll_get? { world with connected := false, pendingAttach := .empty }
    world.pendingAttach.values
  unfold World.disconnect
  rw [hkept] at hlost ⊢
  refine h.losing hlost (fun _ _ htakes => htakes) (fun ptyId hawait => ?_) nofun fun _ _ => rfl
  rcases hawait with hsend | ⟨id, hid⟩ | hrpl
  · exact .inl (.inl hsend)
  · exact .inr (mem_values.mpr ⟨id, hid⟩)
  · exact .inl (.inr (.inr hrpl))

theorem Flowing.refused (h : Flowing output world) (id : RequestId) (message : String) :
    Flowing output (world.refused id message) := by
  unfold World.refused
  cases hreq : world.pendingAttach.get? id with
  | none => exact h
  | some request =>
    refine Flowing.emit ?_ fun _ => rfl
    obtain ⟨terminals, hkept⟩ := loseAll_kept
      { world with pendingAttach := world.pendingAttach.shiftRemove id } [request]
    have hlost := loseAll_get? { world with pendingAttach := world.pendingAttach.shiftRemove id }
      [request]
    show Flowing output (World.loseAll _ [request])
    rw [hkept] at hlost ⊢
    have hold : ∀ other found, (world.pendingAttach.shiftRemove id).get? other = some found →
        world.pendingAttach.get? other = some found := by
      intro other found hfound
      exact (get?_shiftRemove_eq_some.mp hfound).2
    refine h.losing hlost (fun _ _ htakes => htakes) (fun ptyId hawait => ?_)
      (fun other found hfound => h.pending other found (hold other found hfound)) fun hoff => ?_
    · rcases hawait with hsend | ⟨other, hother⟩ | hrpl
      · exact .inl (.inl hsend)
      · by_cases hsame : other = id
        · subst hsame
          cases hreq.symm.trans hother
          exact .inr (mem_singleton_self _)
        · refine .inl (.inr (.inl ⟨other, ?_⟩))
          show (world.pendingAttach.shiftRemove id).get? other = _
          rw [get?_shiftRemove, if_neg hsame, hother]
      · exact .inl (.inr (.inr hrpl))
    · intro other
      have hnone := h.offline hoff id
      rw [hreq] at hnone
      cases hnone

/-! ## The UI thread -/

theorem Distinct.map (h : Distinct world) {f : NativeTerminal → NativeTerminal}
    (hterms : ∀ id, world'.terminals.get? id = (world.terminals.get? id).map f)
    (hf : ∀ terminal, (f terminal).ptyId = terminal.ptyId) : Distinct world' := by
  intro id other terminal found hterm hfound hsame
  obtain ⟨first, hfirst, rfl⟩ := map_eq_some_iff.mp ((hterms id).symm.trans hterm)
  obtain ⟨second, hsecond, rfl⟩ := map_eq_some_iff.mp ((hterms other).symm.trans hfound)
  rw [hf, hf] at hsame
  exact h id other first second hfirst hsecond hsame

theorem updateTerminal_kept (world : World) (ptyId : String) (f : NativeTerminal → NativeTerminal) :
    ∃ terminals, world.updateTerminal ptyId f = { world with terminals := terminals } := by
  unfold World.updateTerminal
  split
  · exact ⟨_, rfl⟩
  · exact ⟨world.terminals, rfl⟩

theorem Distinct.update (h : Distinct world) (ptyId : String) (f : NativeTerminal → NativeTerminal)
    (id : String) : (world.updateTerminal ptyId f).terminals.get? id =
      (world.terminals.get? id).map fun terminal =>
        if terminal.ptyId = ptyId then f terminal else terminal := by
  unfold World.updateTerminal
  cases hfind : world.terminalForPty ptyId with
  | none =>
    cases hget : world.terminals.get? id with
    | none => rfl
    | some terminal =>
      have hother := find?_eq_none.mp hfind (id, terminal) (get?_eq_some.mp hget)
      rw [decide_eq_true_eq] at hother
      rw [map_some, if_neg hother]
  | some entry =>
    have hshown := find?_some hfind
    rw [decide_eq_true_eq] at hshown
    have hentry : world.terminals.get? entry.1 = some entry.2 :=
      get?_eq_some.mpr (mem_of_find?_eq_some hfind)
    show (world.terminals.modify entry.1 f).get? id = _
    rw [get?_modify]
    cases hget : world.terminals.get? id with
    | none => split <;> rfl
    | some terminal =>
      rw [map_some, map_some]
      by_cases hid : id = entry.1
      · subst hid
        cases hentry.symm.trans hget
        rw [if_pos rfl, if_pos hshown]
      · rw [if_neg hid, if_neg fun hsame =>
          hid (h id entry.1 terminal entry.2 hget hentry (hsame.trans hshown.symm))]

variable {rest : List HostEvent}

theorem Awaited.next {ptyId : String} (h : Awaited world ptyId)
    (hevs : world.events = event :: rest)
    (hev : ∀ chunks cols rows, event ≠ .terminalReplay ptyId chunks cols rows true) :
    Awaited { world with events := rest } ptyId := by
  refine h.imp_right (Or.imp_right ?_)
  rintro ⟨chunks, cols, rows, hmem⟩
  rw [hevs] at hmem
  exact ⟨chunks, cols, rows, (mem_cons.mp hmem).resolve_left (Ne.symm (hev chunks cols rows))⟩

theorem Takes.next {ptyId : String} {queued : List (List UInt8)}
    (hevs : world.events = event :: rest)
    (h : Takes output world ptyId queued) :
    Takes output { world with events := rest } ptyId (queued ++ event.carries ptyId) := by
  unfold Takes at h ⊢
  rw [hevs, flight_cons, ← append_assoc] at h
  exact h

section

variable (h : Flowing output world)
include h

theorem Flowing.next {event : HostEvent} {rest : List HostEvent}
    (hevs : world.events = event :: rest) (hcarr : ∀ ptyId, event.carries ptyId = [])
    (hev : ∀ ptyId chunks cols rows, event ≠ .terminalReplay ptyId chunks cols rows true) :
    Flowing output { world with events := rest } := by
  refine h.quiet rfl (fun ptyId queued htakes => ?_)
    (fun ptyId hawait => hawait.next hevs (hev ptyId)) h.pending h.offline
  have hnext := htakes.next hevs
  rw [hcarr, append_nil] at hnext
  exact hnext

/-- An event for a PTY reaches its view. -/
theorem Flowing.deliver (hdist : Distinct world) {event : HostEvent}
    {rest : List HostEvent} (hevs : world.events = event :: rest) {ptyId : String}
    {f : NativeTerminal → NativeTerminal} (hf : ∀ terminal, (f terminal).ptyId = terminal.ptyId ∧
      (f terminal).queued = terminal.queued ++ event.carries ptyId ∧
      (f terminal).failed = terminal.failed ∧
      (terminal.replayed = true → (f terminal).replayed = true))
    (hothers : ∀ other, other ≠ ptyId → event.carries other = [])
    (hwhole : ∀ other chunks cols rows, event = .terminalReplay other chunks cols rows true →
      other = ptyId ∧ ∀ terminal, (f terminal).replayed = true) :
    Flowing output (({ world with events := rest } : World).updateTerminal ptyId f) := by
  have hupdate := (show Distinct { world with events := rest } from hdist).update ptyId f
  obtain ⟨terminals, hkept⟩ := updateTerminal_kept { world with events := rest } ptyId f
  rw [hkept] at hupdate ⊢
  refine ⟨fun other => ?_, fun id terminal hterm => ?_, fun id terminal hterm => ?_,
    h.pending, h.offline⟩
  · exact ((h.fresh other).next hevs).drop
  · obtain ⟨before, hbef, rfl⟩ := map_eq_some_iff.mp ((hupdate id).symm.trans hterm)
    have hnext := (h.shown id before hbef).next hevs
    split
    · rename_i hsame
      obtain ⟨hptyId, hqueued, -, -⟩ := hf before
      rw [hptyId, hqueued]
      rw [hsame] at hnext ⊢
      exact hnext
    · rename_i hother
      rw [hothers _ hother, append_nil] at hnext
      exact hnext
  · obtain ⟨before, hbef, rfl⟩ := map_eq_some_iff.mp ((hupdate id).symm.trans hterm)
    have hold := h.covered id before hbef
    split
    · rename_i hsame
      obtain ⟨hptyId, -, hfailed, hreplayed⟩ := hf before
      rw [hptyId, hfailed]
      by_cases hev : ∃ chunks cols rows, event = .terminalReplay ptyId chunks cols rows true
      · obtain ⟨chunks, cols, rows, hev⟩ := hev
        exact .inr (.inl ((hwhole ptyId chunks cols rows hev).2 before))
      refine hold.imp_right (Or.imp hreplayed fun hawait => hawait.next hevs ?_)
      intro chunks cols rows heq
      exact hev ⟨chunks, cols, rows, hsame ▸ heq⟩
    · rename_i hother
      refine hold.imp_right (Or.imp_right fun hawait => hawait.next hevs ?_)
      intro chunks cols rows heq
      exact hother (hwhole _ chunks cols rows heq).1

/-! ## Snapshots -/

theorem Flowing.retain (live : List (String × String)) :
    Flowing output (world.retainTerminals live) where
  __ := h
  shown id terminal hterm :=
    h.shown id terminal (get?_retain_eq_some.mp hterm).1
  covered id terminal hterm :=
    h.covered id terminal (get?_retain_eq_some.mp hterm).1

/-- A view that is created waits for the replay. -/
theorem Flowing.openTerminal {terminal : String × String} (hopens : world.isShown terminal = true ∨
      (terminal.2 ∉ world.attachedPtys ∧ world.recorded terminal.2 = 0) ∨
        Awaited world terminal.2) : Flowing output (world.openTerminal terminal) := by
  unfold World.openTerminal
  split
  · exact h
  rename_i hnew
  have hactions : ∀ action, action ∈ world.actions → action ∈
      if terminal.2 ∈ world.attachedPtys then world.actions
      else world.actions ++ [.attach terminal.2] := by
    intro action hmem
    split
    · exact hmem
    · exact mem_append_left _ hmem
  have hgrows : ∀ ptyId, Awaited world ptyId → Awaited { world with
      terminals := world.terminals.insert terminal.1 ⟨terminal.2, [], 80, 24, false, false⟩
      attachedPtys :=
        if terminal.2 ∈ world.attachedPtys then world.attachedPtys
        else terminal.2 :: world.attachedPtys
      actions :=
        if terminal.2 ∈ world.attachedPtys then world.actions
        else world.actions ++ [.attach terminal.2] } ptyId :=
    fun ptyId hawait => hawait.imp_left fun hsend => ⟨hactions _ hsend.1, hsend.2⟩
  refine ⟨h.fresh, fun id shown hshown => ?_, fun id shown hshown => ?_, h.pending, h.offline⟩
  · replace hshown : (world.terminals.insert _ _).get? id = some shown := hshown
    rw [get?_insert] at hshown
    split at hshown
    · cases hshown
      exact h.fresh terminal.2
    · exact h.shown id shown hshown
  · replace hshown : (world.terminals.insert _ _).get? id = some shown := hshown
    rw [get?_insert] at hshown
    split at hshown
    · cases hshown
      refine .inr (.inr ?_)
      rcases hopens with hshown | ⟨hfirst, hzero⟩ | hawait
      · exact absurd hshown hnew
      · refine .inl ⟨?_, hzero⟩
        show _ ∈ if terminal.2 ∈ world.attachedPtys then _ else _
        rw [if_neg hfirst]
        exact mem_concat_self
      · exact hgrows _ hawait
    · exact (h.covered id shown hshown).imp_right (Or.imp_right (hgrows _))

theorem Flowing.openTerminals {live : List (String × String)}
    (hopens : Opens world live) : Flowing output (world.openTerminals live) := by
  induction live generalizing world with
  | nil => exact h
  | cons terminal rest ih => exact ih (h.openTerminal hopens.1) hopens.2

end

theorem openTerminal_get? {terminal : String × String} {id : String} {shown : NativeTerminal}
    (h : (world.openTerminal terminal).terminals.get? id = some shown) :
    (id, shown.ptyId) = terminal ∨ (id ≠ terminal.1 ∧ world.terminals.get? id = some shown) := by
  unfold World.openTerminal at h
  split at h
  · rename_i hshown
    by_cases hid : id = terminal.1
    · subst hid
      unfold World.isShown at hshown
      rw [h, decide_eq_true_eq] at hshown
      exact .inl (Prod.ext rfl hshown)
    · exact .inr ⟨hid, h⟩
  · replace h : (world.terminals.insert _ _).get? id = some shown := h
    rw [get?_insert] at h
    split at h
    · rename_i hid
      cases h
      exact .inl (Prod.ext hid rfl)
    · exact .inr ⟨by assumption, h⟩

theorem openTerminals_get? {live : List (String × String)} {id : String} {shown : NativeTerminal}
    (h : (world.openTerminals live).terminals.get? id = some shown) :
    (id, shown.ptyId) ∈ live ∨ (id ∉ live.map Prod.fst ∧ world.terminals.get? id = some shown) := by
  induction live generalizing world with
  | nil => exact .inr ⟨not_mem_nil, h⟩
  | cons terminal rest ih =>
    rcases ih h with hmem | ⟨hlater, hget⟩
    · exact .inl (mem_cons_of_mem _ hmem)
    rcases openTerminal_get? hget with rfl | ⟨hid, hold⟩
    · exact .inl mem_cons_self
    refine .inr ⟨?_, hold⟩
    rw [map_cons, mem_cons, not_or]
    exact ⟨hid, hlater⟩

theorem snapshot_distinct {live : List (String × String)} (hlive : (live.map Prod.snd).Nodup) :
    Distinct ((world.retainTerminals live).openTerminals live) := by
  have hshown : ∀ id shown,
      ((world.retainTerminals live).openTerminals live).terminals.get? id = some shown →
        (id, shown.ptyId) ∈ live := by
    intro id shown hget
    rcases openTerminals_get? hget with hmem | ⟨hgone, hold⟩
    · exact hmem
    · exact absurd (of_decide_eq_true (get?_retain_eq_some.mp hold).2) hgone
  intro id other terminal found hterm hfound hsame
  have hfirst := hshown id terminal hterm
  have hsecond := hshown other found hfound
  exact congrArg Prod.fst (inj_on_of_nodup_map hlive hfirst hsecond hsame)

theorem Flowing.snapshots (h : Flowing output world) {snapshots : List SessionSnapshot}
    (hevs : world.events = .snapshots snapshots :: rest)
    (hopens : Opens (({ world with events := rest } : World).retainTerminals
      (liveTerminals snapshots)) (liveTerminals snapshots)) :
    Flowing output (({ world with events := rest } : World).applySnapshots snapshots) :=
  ((h.next hevs (fun _ => rfl) nofun).retain _).openTerminals hopens

theorem handleEvent_kept (hdist : Distinct world) (h : Flowing output world)
    (hevs : world.events = event :: rest)
    (horder : ∀ snapshots rest, world.events = .snapshots snapshots :: rest →
      ((liveTerminals snapshots).map Prod.snd).Nodup ∧
        Opens (({ world with events := rest } : World).retainTerminals (liveTerminals snapshots))
          (liveTerminals snapshots)) :
    Distinct (({ world with events := rest } : World).handleEvent event) ∧
      Flowing output (({ world with events := rest } : World).handleEvent event) := by
  have hupdated : ∀ ptyId (f : NativeTerminal → NativeTerminal),
      (∀ terminal, (f terminal).ptyId = terminal.ptyId) →
        Distinct (({ world with events := rest } : World).updateTerminal ptyId f) := by
    intro ptyId f hf
    refine Distinct.map hdist
      ((show Distinct { world with events := rest } from hdist).update ptyId f) fun terminal => ?_
    split
    · exact hf terminal
    · rfl
  cases event with
  | snapshots snapshots =>
    obtain ⟨hlive, hopens⟩ := horder snapshots rest hevs
    exact ⟨snapshot_distinct hlive, h.snapshots hevs hopens⟩
  | terminalReplay ptyId chunks cols rows whole =>
    refine ⟨hupdated ptyId _ fun _ => rfl, h.deliver hdist hevs (fun terminal => ?_)
      (fun other hother => if_neg (Ne.symm hother)) fun other _ _ _ heq => ?_⟩
    · refine ⟨rfl, ?_, rfl, fun hreplayed => ?_⟩
      · rw [HostEvent.carries, if_pos rfl]
      · exact Bool.or_eq_true_iff.mpr (.inl hreplayed)
    · cases heq
      exact ⟨rfl, fun terminal => Bool.or_true _⟩
  | terminalOutput ptyId bytes =>
    refine ⟨hupdated ptyId _ fun _ => rfl, h.deliver hdist hevs (fun terminal => ?_)
      (fun other hother => if_neg (Ne.symm hother)) nofun⟩
    refine ⟨rfl, ?_, rfl, id⟩
    rw [HostEvent.carries, if_pos rfl]
  | _ => exact ⟨hdist, h.next hevs (fun _ => rfl) nofun⟩

end Steps

/-! ## Runs -/

section Runs

theorem requestAll_terminals (world : World) (entries : List (String × Nat)) :
    (world.requestAll entries).terminals = world.terminals := by
  induction entries generalizing world with
  | nil => rfl
  | cons entry rest ih => exact ih (world.request entry.1 entry.2)

theorem handleAction_terminals (world : World) (action : SocketAction) :
    (world.handleAction action).terminals = world.terminals := by
  cases action <;> rfl

theorem attached_terminals (world : World) (id : RequestId) (attach : TerminalAttach) :
    (world.attached id attach).terminals = world.terminals := by
  unfold World.attached
  split <;> rfl

theorem Distinct.same (h : Distinct world) (hterms : world'.terminals = world.terminals) :
    Distinct world' := by
  unfold Distinct
  rw [hterms]
  exact h

theorem Distinct.lost (h : Distinct world) (requests : List AttachRequest) :
    Distinct (world.loseAll requests) :=
  h.map (loseAll_get? world requests) fun terminal => (lostAll_kept requests terminal).1

theorem stream_step {action : Action Screen} (h : Distinct world ∧ Flowing output world)
    (hhost : FromHost output world action) (horder : Orderly world action)
    (hstep : (desktopSystem Screen output).step world action = some world') :
    Distinct world' ∧ Flowing output world' := by
  obtain ⟨hdist, hflowing⟩ := h
  obtain ⟨houtside, hstep⟩ := ite_none_right_eq_some.mp hstep
  cases action with
  | notify event =>
    cases hstep
    refine ⟨hdist, hflowing.emit fun ptyId => ?_⟩
    cases event <;> first | rfl | cases houtside
  | handleEvent =>
    cases hevs : world.events with
    | nil =>
      simp only [hevs] at hstep
      cases hstep
    | cons event rest =>
      simp only [hevs] at hstep
      cases hstep
      exact handleEvent_kept hdist hflowing hevs horder
  | write action =>
    cases hstep
    exact ⟨hdist, hflowing.write action⟩
  | connect =>
    simp only at hstep
    split at hstep
    · cases hstep
    rename_i hoff
    cases hstep
    exact ⟨hdist.same (requestAll_terminals _ _), hflowing.connect (Bool.eq_false_iff.mpr hoff)⟩
  | disconnect =>
    obtain ⟨hconn, hstep⟩ := ite_none_right_eq_some.mp hstep
    cases hstep
    exact ⟨Distinct.lost (show Distinct { world with
      connected := false
      pendingAttach := .empty } from hdist) _, hflowing.disconnect⟩
  | takeAction =>
    cases hactions : world.actions with
    | nil =>
      simp only [hactions] at hstep
      cases hstep
    | cons action rest =>
      simp only [hactions] at hstep
      obtain ⟨hconn, hstep⟩ := ite_none_right_eq_some.mp hstep
      cases hstep
      exact ⟨hdist.same (handleAction_terminals _ action), hflowing.take hconn hactions⟩
  | attached id host =>
    obtain ⟨hconn, hstep⟩ := ite_none_right_eq_some.mp hstep
    cases hstep
    refine ⟨hdist.same (attached_terminals world id _), ?_⟩
    cases hreq : world.pendingAttach.get? id with
    | none =>
      unfold World.attached
      rw [hreq]
      exact hflowing
    | some request =>
      exact hflowing.attached hconn hreq (hhost request hreq) (horder request hreq)
  | refused id message =>
    obtain ⟨-, hstep⟩ := ite_none_right_eq_some.mp hstep
    cases hstep
    refine ⟨?_, hflowing.refused id message⟩
    unfold World.refused
    split
    · rename_i request hreq
      exact Distinct.lost (show Distinct { world with
        pendingAttach := world.pendingAttach.shiftRemove id } from hdist) [request]
    · exact hdist
  | frame ptyId terminalSequence =>
    obtain ⟨-, hstep⟩ := ite_none_right_eq_some.mp hstep
    cases hstep
    obtain ⟨hsent, rfl⟩ := horder
    exact ⟨hdist, hflowing.frame hsent⟩
  | replayRequired ptyId =>
    obtain ⟨hconn, hstep⟩ := ite_none_right_eq_some.mp hstep
    cases hstep
    exact ⟨hdist, hflowing.replayRequired hconn ptyId⟩

end Runs

def countedOutput (_ : String) (sequence : Nat) : List UInt8 := [sequence.toUInt8]

def sampleHost : Host Unit :=
  ⟨⟨"p", none, "e", none, "/", none, none⟩,
    { EntryState.new 80 24 defaultTheme none with
      sequence := 1
      replay := [⟨1, [1]⟩]
      replayBytes := 1 }, false, "c"⟩

theorem sampleHost_serves : sampleHost.Serves (countedOutput "p") "p" where
  id := rfl
  sound :=
    { chain := ⟨rfl, trivial⟩
      bytes := rfl
      short := le_rfl
      complete := fun _ => rfl
      few := by decide
      unrecorded := fun _ => ⟨rfl, rfl⟩
      checkpoint := nofun }
  data := by
    intro chunk hmem
    cases mem_singleton.mp hmem
    rfl

def sampleSnapshot : List SessionSnapshot :=
  [⟨0, none, [⟨"t", 0, some "p", none⟩]⟩]

def SampleRun (world : World) : Prop :=
  (desktopSystem Unit countedOutput).Run
    (fun world action => FromHost countedOutput world action ∧ Orderly world action) world

theorem SampleRun.next {world world' : World} (h : SampleRun world) (action : Action Unit)
    (hhost : FromHost countedOutput world action) (horder : Orderly world action)
    (hstep : (desktopSystem Unit countedOutput).step world action = some world') :
    SampleRun world' :=
  System.Run.next h ⟨hhost, horder⟩ hstep

def reopeningActions : List (Action Unit) :=
  [.notify (.snapshots sampleSnapshot), .handleEvent, .connect, .takeAction,
    .attached (.numbered 1) sampleHost, .handleEvent, .notify (.snapshots []), .handleEvent,
    .notify (.snapshots sampleSnapshot), .handleEvent]

def requestsSample (world : World) : Action Unit → Bool
  | .attached id _ => (world.pendingAttach.get? id).all fun request => request.ptyId = "p"
  | _ => true

theorem reopening_fromHost {world : World} {action : Action Unit} (hmem : action ∈ reopeningActions)
    (hcheck : requestsSample world action = true) : FromHost countedOutput world action := by
  cases action with
  | attached id host =>
    have hhost : host = sampleHost := by
      simp only [reopeningActions, mem_cons, not_mem_nil, reduceCtorEq, or_false,
        false_or, Action.attached.injEq] at hmem
      exact hmem.2
    intro request hreq
    have hptyId : request.ptyId = "p" := by
      simpa [requestsSample, hreq] using hcheck
    rw [hptyId, hhost]
    exact sampleHost_serves
  | _ => trivial

end Yaade.Desktop

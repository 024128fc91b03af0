import Yaade.Connection.Outbox

/-!
Runs of mailbox operations.
-/

namespace Yaade.Connection

open Yaade.Library List IndexMap

variable {δ : Type} [ByteLength δ]

namespace OutboundMailbox

/-! ## Accounting -/

/-- The counters are the bytes queued in their lanes. -/
structure Accounted (mailbox : OutboundMailbox δ) : Prop where
  reliable : mailbox.reliableBytes =
    queuedBytes mailbox.priority + queuedBytes mailbox.reliable
  legacy : mailbox.legacyBytes = queuedBytes mailbox.legacy
  semantic : mailbox.semanticBytes = queuedBytes mailbox.semantic.values

/-- Every lane is within its frame and byte limits. -/
structure WithinLimits (mailbox : OutboundMailbox δ) : Prop where
  reliableFrames : mailbox.priority.length + mailbox.reliable.length ≤
    mailbox.limits.reliableMaxFrames
  reliableBytes : mailbox.reliableBytes ≤ mailbox.limits.reliableMaxBytes
  legacyFrames : mailbox.legacy.length ≤ mailbox.limits.legacyMaxFrames
  legacyBytes : mailbox.legacyBytes ≤ mailbox.limits.legacyMaxBytes
  semanticTerminals : mailbox.semantic.length ≤ mailbox.limits.semanticMaxTerminals
  semanticBytes : mailbox.semanticBytes ≤ mailbox.limits.semanticMaxBytes

/-- What is subtracted from a counter was counted in it. -/
structure NoUnderflow (mailbox : OutboundMailbox δ) : Prop where
  priority : ∀ queued ∈ mailbox.priority, queued.frame.bytes ≤ mailbox.reliableBytes
  reliable : ∀ queued ∈ mailbox.reliable, queued.frame.bytes ≤ mailbox.reliableBytes
  legacy : ∀ queued ∈ mailbox.legacy, queued.frame.bytes ≤ mailbox.legacyBytes
  semantic : ∀ queued ∈ mailbox.semantic.values, queued.frame.bytes ≤ mailbox.semanticBytes
  discarded : ∀ terminalId sequence,
    queuedBytes (mailbox.legacy.filter (isThrough terminalId sequence)) ≤ mailbox.legacyBytes

omit [ByteLength δ] in
@[simp] theorem queuedBytes_nil [ByteLength δ] : queuedBytes ([] : List (QueuedFrame δ)) = 0 := rfl

@[simp] theorem queuedBytes_cons (queued : QueuedFrame δ) (rest : List (QueuedFrame δ)) :
    queuedBytes (queued :: rest) = queued.frame.bytes + queuedBytes rest := rfl

@[simp] theorem queuedBytes_append (first second : List (QueuedFrame δ)) :
    queuedBytes (first ++ second) = queuedBytes first + queuedBytes second := by
  simp [queuedBytes]

theorem queuedBytes_mem {frames : List (QueuedFrame δ)} {queued : QueuedFrame δ}
    (h : queued ∈ frames) : queued.frame.bytes ≤ queuedBytes frames :=
  single_le_sum (fun _ _ => Nat.zero_le _) _ (mem_map_of_mem h)

theorem queuedBytes_filter (p : QueuedFrame δ → Bool) (frames : List (QueuedFrame δ)) :
    queuedBytes (frames.filter p) + queuedBytes (frames.filter fun queued => !p queued) =
      queuedBytes frames := by
  rw [← queuedBytes_append]
  unfold queuedBytes
  exact ((filter_append_perm p frames).map _).sum_eq

theorem Accounted.noUnderflow {mailbox : OutboundMailbox δ} (h : mailbox.Accounted) :
    mailbox.NoUnderflow where
  priority queued hqueued := by
    have := queuedBytes_mem hqueued
    rw [h.reliable]
    omega
  reliable queued hqueued := by
    have := queuedBytes_mem hqueued
    rw [h.reliable]
    omega
  legacy queued hqueued := h.legacy ▸ queuedBytes_mem hqueued
  semantic queued hqueued := h.semantic ▸ queuedBytes_mem hqueued
  discarded terminalId sequence := by
    have := queuedBytes_filter (isThrough terminalId sequence) mailbox.legacy
    rw [h.legacy]
    omega

/-- The counters are exact and the limits kept. -/
structure Exact (mailbox : OutboundMailbox δ) : Prop extends
  mailbox.Accounted, mailbox.WithinLimits

namespace Exact

variable {mailbox : OutboundMailbox δ}

theorem new (limits : MailboxLimits) : (new limits : OutboundMailbox δ).Exact := by
  constructor <;> constructor <;> simp [OutboundMailbox.new, IndexMap.length, IndexMap.empty,
    IndexMap.values]

section

variable (h : mailbox.Exact)
include h

theorem requireResync (id : String) : (mailbox.requireResync id).Exact :=
  ⟨⟨h.reliable, h.legacy, h.semantic⟩, { h with }⟩

theorem enqueueReliablePriority (frame : OutboundFrame δ) :
    (mailbox.enqueueReliablePriority frame).2.Exact := by
  unfold OutboundMailbox.enqueueReliablePriority
  split
  · exact h
  rename_i hroom
  simp only [reliableFull, Bool.or_eq_true, decide_eq_true_eq, not_or, not_lt] at hroom
  have hbytes := h.reliable
  constructor
  · refine ⟨?_, h.legacy, h.semantic⟩
    simp only [queuedBytes_append, queuedBytes_cons, queuedBytes_nil, queued]
    omega
  · refine { h with reliableFrames := ?_, reliableBytes := hroom.2 }
    simp only [length_append, length_singleton]
    omega

theorem enqueueReliable (frame : OutboundFrame δ) : (mailbox.enqueueReliable frame).2.Exact := by
  unfold OutboundMailbox.enqueueReliable
  split
  · exact h
  rename_i hroom
  simp only [reliableFull, Bool.or_eq_true, decide_eq_true_eq, not_or, not_lt] at hroom
  have hbytes := h.reliable
  constructor
  · refine ⟨?_, h.legacy, h.semantic⟩
    simp only [queuedBytes_append, queuedBytes_cons, queuedBytes_nil, queued]
    omega
  · refine { h with reliableFrames := ?_, reliableBytes := hroom.2 }
    simp only [length_append, length_singleton]
    omega

theorem enqueueLegacy (id : String) (frame : OutboundFrame δ) :
    (mailbox.enqueueLegacy id frame).2.Exact := by
  unfold OutboundMailbox.enqueueLegacy
  split
  · exact h
  rename_i hroom
  simp only [Bool.or_eq_true, decide_eq_true_eq, not_or, not_lt] at hroom
  have hbytes := h.legacy
  constructor
  · refine ⟨h.reliable, ?_, h.semantic⟩
    simp only [queuedBytes_append, queuedBytes_cons, queuedBytes_nil, queued, OutboundFrame.bytes]
    omega
  · refine { h with legacyFrames := ?_, legacyBytes := hroom.2 }
    simp only [length_append, length_singleton]
    omega

theorem enqueueSemantic (id : String) (frame : OutboundFrame δ) :
    (mailbox.enqueueSemantic id frame).2.Exact := by
  have hbytes := h.semantic
  unfold OutboundMailbox.enqueueSemantic
  split
  · exact h.requireResync id
  split
  · rename_i previous hprev
    have hrow := row?_of_get? hprev
    have hmem := queuedBytes_mem (mem_values.mpr ⟨id, hprev⟩)
    simp only
    split
    · exact h.requireResync id
    rename_i hroom
    constructor
    · refine ⟨h.reliable, h.legacy, ?_⟩
      have hsum := sum_updateRow Prod.fst (fun entry => entry.2.frame.bytes)
        (f := fun entry => (entry.1, { entry.2 with
          frame := { frame with terminalId := some id } })) hrow
      have hsame : ({ frame with terminalId := some id } : OutboundFrame δ).bytes =
        frame.bytes := rfl
      simp only [queuedBytes, IndexMap.values, IndexMap.modify, map_map,
        Function.comp_def, hsame] at hsum hbytes hmem ⊢
      omega
    · exact { h with
        semanticTerminals := (IndexMap.length_modify _ _ _).trans_le h.semanticTerminals
        semanticBytes := not_lt.mp hroom }
  · rename_i habsent
    split
    · exact h.requireResync id
    rename_i hroom
    simp only [Bool.or_eq_true, decide_eq_true_eq, not_or, not_lt] at hroom
    have hentries := insert_entries habsent (mailbox.queued { frame with terminalId := some id })
    constructor
    · refine ⟨h.reliable, h.legacy, ?_⟩
      have hsame : (mailbox.queued
        { frame with terminalId := some id }).frame.bytes = frame.bytes := rfl
      simp only [IndexMap.values, hentries, map_append, map_cons, map_nil,
        queuedBytes_append, queuedBytes_cons, queuedBytes_nil, hsame] at hbytes ⊢
      omega
    · refine { h with semanticTerminals := ?_, semanticBytes := hroom.2 }
      simp only [IndexMap.length, hentries, length_append, length_singleton] at hroom ⊢
      omega

theorem popQueued {lane : Lane} {queued : QueuedFrame δ}
    {rest : OutboundMailbox δ} (hpop : mailbox.popQueued = some (lane, queued, rest)) :
    rest.Exact := by
  have hrel := h.reliable
  have hlegacy := h.legacy
  have hsem := h.semantic
  have hframes := h.reliableFrames
  have hbytes := h.reliableBytes
  have hlegacyFrames := h.legacyFrames
  have hlegacyBytes := h.legacyBytes
  have hterms := h.semanticTerminals
  have hsemanticBytes := h.semanticBytes
  unfold OutboundMailbox.popQueued at hpop
  split at hpop
  · rename_i hcons
    cases hpop
    simp only [hcons, queuedBytes_cons, length_cons] at hrel hframes
    exact ⟨⟨by simp only; omega, h.legacy, h.semantic⟩, { h with
      reliableFrames := by simp only; omega
      reliableBytes := by simp only; omega }⟩
  · split at hpop
    · cases hpop
    · cases hpop
    · split at hpop
      · cases hpop
      rename_i hcons
      cases hpop
      simp only [hcons, queuedBytes_cons, length_cons] at hrel hframes
      exact ⟨⟨by simp only; omega, h.legacy, h.semantic⟩, { h with
        reliableFrames := by simp only; omega
        reliableBytes := by simp only; omega }⟩
    · split at hpop
      · cases hpop
      rename_i hcons
      cases hpop
      simp only [hcons, queuedBytes_cons, length_cons] at hlegacy hlegacyFrames
      exact ⟨⟨h.reliable, by simp only; omega, h.semantic⟩, { h with
        legacyFrames := by simp only; omega
        legacyBytes := by simp only; omega }⟩
    · split at hpop
      · cases hpop
      rename_i id _ _ _ hget
      cases hpop
      have hperm := shiftRemove_perm hget
      have hvalues : queuedBytes mailbox.semantic.values =
          queued.frame.bytes + queuedBytes (mailbox.semantic.shiftRemove id).values := by
        unfold queuedBytes IndexMap.values
        rw [((hperm.map Prod.snd).map _).sum_eq]
        rfl
      have hlength := hperm.length_eq
      simp only [length_cons] at hlength
      unfold IndexMap.length at hterms
      refine ⟨⟨h.reliable, h.legacy, by simp only; omega⟩, { h with
        semanticTerminals := ?_
        semanticBytes := by simp only; omega }⟩
      simp only [IndexMap.length]
      omega

theorem discardTerminalThrough (id : String) (sequence : Nat) :
    (mailbox.discardTerminalThrough id sequence).Exact := by
  have hsplit := queuedBytes_filter (isThrough id sequence) mailbox.legacy
  have hlegacy := h.legacy
  have hframes := length_filter_le (fun queued => !isThrough id sequence queued) mailbox.legacy
  have hlimit := h.legacyFrames
  have hbytes := h.legacyBytes
  unfold OutboundMailbox.discardTerminalThrough
  refine ⟨⟨h.reliable, ?_, h.semantic⟩, { h with legacyFrames := ?_, legacyBytes := ?_ }⟩
  · simp only
    omega
  · simp only
    omega
  · simp only
    omega

end

end Exact

end OutboundMailbox

/-! ## Records of runs -/

/-- A mailbox with what it accepted, gave out and discarded so far. A frame is
recorded as accepted with its lane and the order number it was given; a
semantic frame that replaces another is no new frame. -/
structure MailboxRun (δ : Type) where
  mailbox : OutboundMailbox δ
  accepted : List (Slot δ)
  popped : List (Slot δ)
  discarded : List (Slot δ)

inductive MailboxCall (δ : Type) where
  | enqueueReliable (frame : OutboundFrame δ)
  | enqueueReliablePriority (frame : OutboundFrame δ)
  | enqueueLegacy (terminalId : String) (frame : OutboundFrame δ)
  | enqueueSemantic (terminalId : String) (frame : OutboundFrame δ)
  | popNext
  | discardTerminalThrough (terminalId : String) (sequence : Nat)
  | consumeResyncRequired

def onLane (lane : Lane) (slots : List (Slot δ)) : List (Slot δ) :=
  slots.filter fun slot => slot.lane = lane

namespace MailboxRun

def start (limits : MailboxLimits) : MailboxRun δ := ⟨.new limits, [], [], []⟩

omit [ByteLength δ] in
def enqueued (run : MailboxRun δ) (lane : Lane) (frame : OutboundFrame δ)
    (outcome : EnqueueResult × OutboundMailbox δ) : MailboxRun δ :=
  { run with
    mailbox := outcome.2
    accepted := if outcome.1.accepted && !outcome.1.replaced then
        run.accepted ++ [⟨lane, run.mailbox.queued frame⟩]
      else run.accepted }

def step (run : MailboxRun δ) : MailboxCall δ → MailboxRun δ
  | .enqueueReliable frame => run.enqueued .reliable frame (run.mailbox.enqueueReliable frame)
  | .enqueueReliablePriority frame =>
    run.enqueued .priority frame (run.mailbox.enqueueReliablePriority frame)
  | .enqueueLegacy terminalId frame =>
    run.enqueued .legacy { frame with terminalId := some terminalId }
      (run.mailbox.enqueueLegacy terminalId frame)
  | .enqueueSemantic terminalId frame =>
    run.enqueued (.semantic terminalId) { frame with terminalId := some terminalId }
      (run.mailbox.enqueueSemantic terminalId frame)
  | .popNext =>
    match run.mailbox.popQueued with
    | none => run
    | some (lane, queued, rest) =>
      { run with mailbox := rest, popped := run.popped ++ [⟨lane, queued⟩] }
  | .discardTerminalThrough terminalId sequence =>
    { run with
      mailbox := run.mailbox.discardTerminalThrough terminalId sequence
      discarded := run.discarded ++ (run.mailbox.legacy.filter
        (OutboundMailbox.isThrough terminalId sequence)).map (Slot.mk .legacy) }
  | .consumeResyncRequired => { run with mailbox := run.mailbox.consumeResyncRequired.2 }

/-- Every frame a FIFO lane accepted was given out, or is still queued, or was
discarded as terminal output; the reliable lanes keep their order. -/
structure NothingLost (run : MailboxRun δ) : Prop where
  priority : onLane .priority run.accepted =
    onLane .priority run.popped ++ run.mailbox.priority.map (Slot.mk .priority)
  reliable : onLane .reliable run.accepted =
    onLane .reliable run.popped ++ run.mailbox.reliable.map (Slot.mk .reliable)
  legacy : (onLane .legacy run.accepted).Perm
    (onLane .legacy run.popped ++ run.discarded ++ run.mailbox.legacy.map (Slot.mk .legacy))

def left (run : MailboxRun δ) : List (Slot δ) := run.popped.filter fun slot => slot.lane ≠ .priority

end MailboxRun

def mailboxSystem (limits : MailboxLimits) : System (MailboxRun δ) (MailboxCall δ) where
  initial run := run = .start limits
  step run call := some (run.step call)

section Lanes

omit [ByteLength δ]

@[simp] theorem onLane_append (lane : Lane) (first second : List (Slot δ)) :
    onLane lane (first ++ second) = onLane lane first ++ onLane lane second :=
  filter_append ..

theorem onLane_singleton (lane : Lane) (slot : Slot δ) :
    onLane lane [slot] = if slot.lane = lane then [slot] else [] := by
  simp [onLane, filter_cons]

theorem map_filterMap_onLane {f : Slot δ → Option (QueuedFrame δ)} {lane : Lane}
    (hf : ∀ slot queued, f slot = some queued ↔ slot = ⟨lane, queued⟩) (slots : List (Slot δ)) :
    (slots.filterMap f).map (Slot.mk lane) = onLane lane slots := by
  induction slots with
  | nil => rfl
  | cons slot rest ih =>
    unfold onLane at ih ⊢
    cases hslot : f slot with
    | none =>
      have hne : slot.lane ≠ lane := by
        rintro rfl
        exact absurd ((hf slot slot.queued).mpr rfl) (by simp [hslot])
      rw [filterMap_cons_none hslot, filter_cons_of_neg (by simpa using hne)]
      exact ih
    | some queued =>
      have heq := (hf slot queued).mp hslot
      subst heq
      rw [filterMap_cons_some hslot, filter_cons_of_pos (by simp), map_cons, ih]

theorem onLane_replace {lane : Lane} (hlane : ∀ id, lane ≠ .semantic id) (terminalId : String)
    (frame : OutboundFrame δ) (slots : List (Slot δ)) :
    onLane lane (slots.map (Slot.replaced terminalId frame)) = onLane lane slots := by
  unfold onLane
  rw [filter_map]
  have hkept : ∀ slot ∈ slots.filter ((fun slot => decide (slot.lane = lane)) ∘
      Slot.replaced terminalId frame), slot.replaced terminalId frame = slot := by
    intro slot hslot
    have hslotLane : slot.lane = lane := by simpa using (mem_filter.mp hslot).2
    unfold Slot.replaced
    rw [if_neg (hslotLane ▸ hlane terminalId)]
  rw [map_congr_left hkept, map_id']
  apply filter_congr
  intro slot _
  simp

variable {mailbox : OutboundMailbox δ} {box : Outbox δ}

theorem OutboundMailbox.Holds.reliable_slots (h : mailbox.Holds box) :
    mailbox.reliable.map (Slot.mk .reliable) = onLane .reliable box.waiting := by
  rw [h.reliable]
  exact map_filterMap_onLane (fun _ _ => Slot.reliable?_eq_some) _

theorem OutboundMailbox.Holds.legacy_slots (h : mailbox.Holds box) :
    mailbox.legacy.map (Slot.mk .legacy) = onLane .legacy box.waiting := by
  rw [h.legacy]
  exact map_filterMap_onLane (fun _ _ => Slot.legacy?_eq_some) _

end Lanes

theorem OutboundMailbox.popQueued_nextOrder {mailbox rest : OutboundMailbox δ} {lane : Lane}
    {queued : QueuedFrame δ} (h : mailbox.popQueued = some (lane, queued, rest)) :
    rest.nextOrder = mailbox.nextOrder := by
  unfold OutboundMailbox.popQueued at h
  repeat' split at h
  all_goals cases h
  all_goals rfl

theorem OutboundMailbox.popQueued_limits {mailbox rest : OutboundMailbox δ} {lane : Lane}
    {queued : QueuedFrame δ} (h : mailbox.popQueued = some (lane, queued, rest)) :
    rest.limits = mailbox.limits := by
  unfold OutboundMailbox.popQueued at h
  repeat' split at h
  all_goals cases h
  all_goals rfl

namespace MailboxRun

/-- The invariant of recorded runs, over the queue the lanes hold. -/
structure Kept (run : MailboxRun δ) (box : Outbox δ) : Prop where
  holds : run.mailbox.Holds box
  exact : run.mailbox.Exact
  priority : onLane .priority run.accepted =
    onLane .priority run.popped ++ box.urgent.map (Slot.mk .priority)
  reliable : onLane .reliable run.accepted =
    onLane .reliable run.popped ++ onLane .reliable box.waiting
  legacy : (onLane .legacy run.accepted).Perm
    (onLane .legacy run.popped ++ run.discarded ++ onLane .legacy box.waiting)
  ordered : run.left.Pairwise fun a b => a.order < b.order
  passed : ∀ slot ∈ run.left, slot.order < run.mailbox.nextOrder ∧
    ∀ other ∈ box.waiting, slot.order < other.order

variable {run : MailboxRun δ} {box : Outbox δ}

theorem Kept.nothingLost (h : run.Kept box) : run.NothingLost where
  priority := by rw [h.holds.priority]; exact h.priority
  reliable := by rw [h.holds.reliable_slots]; exact h.reliable
  legacy := by rw [h.holds.legacy_slots]; exact h.legacy

theorem Kept.start (limits : MailboxLimits) : (start limits : MailboxRun δ).Kept ⟨[], []⟩ where
  holds := .new limits
  exact := .new limits
  priority := rfl
  reliable := rfl
  legacy := .refl _
  ordered := .nil
  passed := by simp [left, MailboxRun.start]

section

variable (h : run.Kept box)
include h

theorem Kept.unrecorded {mailbox : OutboundMailbox δ} {box' : Outbox δ}
    (hholds : mailbox.Holds box') (hexact : mailbox.Exact) (hurgent : box'.urgent = box.urgent)
    (hnext : run.mailbox.nextOrder ≤ mailbox.nextOrder)
    (hlane : ∀ lane, (∀ id, lane ≠ .semantic id) →
      onLane lane box'.waiting = onLane lane box.waiting)
    (horder : box'.waiting.map Slot.order = box.waiting.map Slot.order) :
    ({ run with mailbox := mailbox } : MailboxRun δ).Kept box' where
  holds := hholds
  exact := hexact
  priority := by rw [hurgent]; exact h.priority
  reliable := by rw [hlane _ (by simp)]; exact h.reliable
  legacy := by rw [hlane _ (by simp)]; exact h.legacy
  ordered := h.ordered
  passed := by
    intro slot hslot
    obtain ⟨hbelow, hwaiting⟩ := h.passed slot hslot
    refine ⟨hbelow.trans_le hnext, ?_⟩
    intro other hother
    have hmem : other.order ∈ box.waiting.map Slot.order := horder ▸ mem_map_of_mem hother
    obtain ⟨old, hold, heq⟩ := mem_map.mp hmem
    rw [← heq]
    exact hwaiting old hold

theorem Kept.pushed (slot : Slot δ) (hlane : slot.lane ≠ .priority)
    (horder : slot.order = run.mailbox.nextOrder) {mailbox : OutboundMailbox δ}
    (hholds : mailbox.Holds (box.push slot)) (hexact : mailbox.Exact)
    (hnext : mailbox.nextOrder = run.mailbox.nextOrder + 1) :
    ({ run with mailbox := mailbox, accepted := run.accepted ++ [slot] } : MailboxRun δ).Kept
      (box.push slot) where
  holds := hholds
  exact := hexact
  priority := by
    simp only [onLane_append, onLane_singleton, hlane, if_false, append_nil]
    exact h.priority
  reliable := by
    simp only [onLane_append, h.reliable, Outbox.push, append_assoc]
  legacy := by
    simp only [onLane_append, Outbox.push]
    rw [← append_assoc]
    exact h.legacy.append_right _
  ordered := h.ordered
  passed := by
    intro other hother
    obtain ⟨hbelow, hwaiting⟩ := h.passed other hother
    refine ⟨by simp only [hnext]; omega, ?_⟩
    intro next hmem
    rcases mem_append.mp hmem with hold | hnew
    · exact hwaiting next hold
    · rw [mem_singleton.mp hnew, horder]
      exact hbelow

theorem Kept.pushedUrgent {queued : QueuedFrame δ}
    {mailbox : OutboundMailbox δ} (hholds : mailbox.Holds (box.pushUrgent queued))
    (hexact : mailbox.Exact) (hnext : mailbox.nextOrder = run.mailbox.nextOrder + 1) :
    ({ run with mailbox := mailbox, accepted := run.accepted ++ [⟨.priority, queued⟩] } :
      MailboxRun δ).Kept (box.pushUrgent queued) where
  holds := hholds
  exact := hexact
  priority := by
    simp only [onLane_append, onLane_singleton, if_true, h.priority, Outbox.pushUrgent,
      map_append, map_cons, map_nil, append_assoc]
  reliable := by
    simp only [onLane_append, onLane_singleton, reduceCtorEq, if_false, append_nil]
    exact h.reliable
  legacy := by
    simp only [onLane_append, onLane_singleton, reduceCtorEq, if_false, append_nil]
    exact h.legacy
  ordered := h.ordered
  passed := by
    intro other hother
    obtain ⟨hbelow, hwaiting⟩ := h.passed other hother
    exact ⟨by simp only [hnext]; omega, hwaiting⟩

/-- What a pop takes out is recorded; a frame of the queue is younger than
what left it before and older than what stays. -/
theorem Kept.pop {lane : Lane} {queued : QueuedFrame δ}
    {rest : OutboundMailbox δ} (hpop : run.mailbox.popQueued = some (lane, queued, rest)) :
    ∃ box', ({ run with mailbox := rest, popped := run.popped ++ [⟨lane, queued⟩] } :
      MailboxRun δ).Kept box' := by
  obtain ⟨box', hbox, hholds⟩ := h.holds.popQueued_some hpop
  have hexact := h.exact.popQueued hpop
  have hnext : rest.nextOrder = run.mailbox.nextOrder := OutboundMailbox.popQueued_nextOrder hpop
  refine ⟨box', ?_⟩
  unfold Outbox.pop at hbox
  split at hbox
  · rename_i first others hurgent
    cases hbox
    have hpriority := h.priority
    rw [hurgent] at hpriority
    refine ⟨hholds, hexact, ?_, ?_, ?_, ?_, ?_⟩
    · simp [onLane_singleton, hpriority]
    · simp [onLane_singleton, h.reliable]
    · simpa [onLane_singleton] using h.legacy
    · simpa [left] using h.ordered
    · intro slot hslot
      simp only [hnext]
      apply h.passed slot
      simpa [left] using hslot
  · rename_i slot others hurgent hwaiting
    cases hbox
    have hpriority := h.priority
    have hrel := h.reliable
    have hlegacy := h.legacy
    have hordered := h.holds.ordered
    have hmem : (⟨lane, queued⟩ : Slot δ) ∈ box.waiting := by simp [hwaiting]
    have hlane : lane ≠ .priority := h.holds.lanes _ hmem
    have hleft : ({ run with mailbox := rest, popped := run.popped ++ [⟨lane, queued⟩] } :
        MailboxRun δ).left = run.left ++ [⟨lane, queued⟩] := by
      simp [left, hlane]
    rw [hurgent] at hpriority
    rw [hwaiting] at hrel hlegacy hordered
    rw [pairwise_cons] at hordered
    refine ⟨hholds, hexact, ?_, ?_, ?_, ?_, ?_⟩
    · simp [onLane_singleton, hpriority, hlane, hurgent]
    · rw [← singleton_append, onLane_append] at hrel
      simp only [onLane_append, hrel, append_assoc]
    · rw [← singleton_append, onLane_append] at hlegacy
      refine hlegacy.trans ?_
      simp only [onLane_append, append_assoc]
      apply List.Perm.append_left
      rw [← append_assoc, ← append_assoc]
      exact perm_append_comm.append_right _
    · rw [hleft]
      apply pairwise_append.mpr
      refine ⟨h.ordered, pairwise_singleton _ _, ?_⟩
      intro a ha b hb
      rw [mem_singleton.mp hb]
      exact (h.passed a ha).2 _ hmem
    · rw [hleft]
      intro a ha
      simp only [hnext]
      rcases mem_snoc.mp ha with hold | rfl
      · obtain ⟨hbelow, hlater⟩ := h.passed a hold
        refine ⟨hbelow, ?_⟩
        intro other hother
        exact hlater other (by rw [hwaiting]; exact mem_cons_of_mem _ hother)
      · exact ⟨h.holds.below _ hmem, hordered.1⟩
  · cases hbox

theorem Kept.discard (id : String) (sequence : Nat) :
    (run.step (.discardTerminalThrough id sequence)).Kept
      (box.discard id sequence) := by
  have hholds := h.holds.discard id sequence
  have hlane : ∀ lane, lane ≠ .legacy →
      onLane lane (box.discard id sequence).waiting = onLane lane box.waiting := by
    intro lane hne
    unfold onLane Outbox.discard
    rw [filter_filter]
    apply filter_congr
    intro slot _
    by_cases hslot : slot.lane = lane
    · simp [hslot, Slot.isThrough, hne]
    · simp [hslot]
  refine ⟨hholds, h.exact.discardTerminalThrough _ _, h.priority, ?_, ?_, h.ordered, ?_⟩
  · rw [hlane _ (by simp)]
    exact h.reliable
  · have hlegacy := h.legacy
    rw [← h.holds.legacy_slots] at hlegacy
    rw [← hholds.legacy_slots]
    refine hlegacy.trans ?_
    simp only [step, OutboundMailbox.discardTerminalThrough, append_assoc]
    apply List.Perm.append_left
    apply List.Perm.append_left
    rw [← map_append]
    exact ((filter_append_perm _ _).map _).symm
  · intro slot hslot
    obtain ⟨hbelow, hwaiting⟩ := h.passed slot hslot
    exact ⟨hbelow, fun other hother => hwaiting other (mem_of_mem_filter hother)⟩

theorem Kept.enqueueSemantic (id : String) (frame : OutboundFrame δ) :
    ∃ box', (run.step (.enqueueSemantic id frame)).Kept box' := by
  have hexact := h.exact.enqueueSemantic id frame
  have hresync : (run.mailbox.requireResync id).Holds box :=
    ⟨h.holds.priority, h.holds.reliable, h.holds.legacy, h.holds.semantic, h.holds.lanes,
      h.holds.ordered, h.holds.below⟩
  have hrefused : ({ run with mailbox := run.mailbox.requireResync id } :
      MailboxRun δ).Kept box :=
    h.unrecorded hresync (h.exact.requireResync _) rfl le_rfl (fun _ _ => rfl) rfl
  unfold MailboxRun.step enqueued OutboundMailbox.enqueueSemantic at *
  by_cases hlarge : (id.isEmpty || frame.bytes > run.mailbox.limits.semanticMaxBytes) = true
  · simp only [hlarge, if_true]
    exact ⟨box, hrefused⟩
  simp only [hlarge, Bool.false_eq_true, if_false] at hexact ⊢
  cases hget : run.mailbox.semantic.get? id with
  | some previous =>
    simp only [hget] at hexact ⊢
    split
    · exact ⟨box, hrefused⟩
    rename_i hroom
    rw [if_neg hroom] at hexact
    refine ⟨box.replace id { frame with terminalId := some id },
      h.unrecorded (h.holds.replace id _ rfl rfl rfl rfl rfl) hexact rfl le_rfl ?_ ?_⟩
    · intro lane hlane
      exact onLane_replace hlane _ _ _
    · simp [Outbox.replace, map_map, Function.comp_def]
  | none =>
    simp only [hget] at hexact ⊢
    split
    · exact ⟨box, hrefused⟩
    rename_i hroom
    rw [if_neg hroom] at hexact
    exact ⟨_, h.pushed ⟨.semantic id, run.mailbox.queued _⟩ (by simp) rfl
      (h.holds.push rfl (by simp) rfl rfl (by simp [Slot.reliable?])
        (by simp [Slot.legacy?])
        (by simp [Slot.semantic?, insert_entries hget])) hexact rfl⟩

/-- Every operation keeps the invariant. -/
theorem Kept.step (call : MailboxCall δ) : ∃ box', (run.step call).Kept box' := by
  cases call with
  | enqueueReliable frame =>
    have hexact := h.exact.enqueueReliable frame
    change ∃ box', (run.enqueued .reliable frame (run.mailbox.enqueueReliable frame)).Kept box'
    rcases run.mailbox.enqueueReliable_cases frame with hfull | hroom
    · rw [hfull]
      exact ⟨box, h⟩
    rw [hroom] at hexact ⊢
    exact ⟨_, h.pushed ⟨.reliable, run.mailbox.queued frame⟩ (by simp) rfl
      (h.holds.push rfl (by simp) rfl rfl (by simp [Slot.reliable?])
        (by simp [Slot.legacy?]) (by simp [Slot.semantic?])) hexact rfl⟩
  | enqueueReliablePriority frame =>
    have hexact := h.exact.enqueueReliablePriority frame
    change ∃ box', (run.enqueued .priority frame
      (run.mailbox.enqueueReliablePriority frame)).Kept box'
    rcases run.mailbox.enqueueReliablePriority_cases frame with hfull | hroom
    · rw [hfull]
      exact ⟨box, h⟩
    · rw [hroom] at hexact ⊢
      exact ⟨_, h.pushedUrgent (h.holds.pushUrgent _ rfl rfl rfl rfl rfl) hexact rfl⟩
  | enqueueLegacy terminalId frame =>
    have hexact := h.exact.enqueueLegacy terminalId frame
    change ∃ box', (run.enqueued .legacy { frame with terminalId := some terminalId }
      (run.mailbox.enqueueLegacy terminalId frame)).Kept box'
    rcases run.mailbox.enqueueLegacy_cases terminalId frame with hfull | hroom
    · rw [hfull]
      exact ⟨box, h⟩
    rw [hroom] at hexact ⊢
    exact ⟨_, h.pushed ⟨.legacy, run.mailbox.queued _⟩ (by simp) rfl
      (h.holds.push rfl (by simp) rfl rfl (by simp [Slot.reliable?])
        (by simp [Slot.legacy?]) (by simp [Slot.semantic?])) hexact rfl⟩
  | enqueueSemantic terminalId frame => exact h.enqueueSemantic terminalId frame
  | popNext =>
    unfold MailboxRun.step
    simp only
    split
    · exact ⟨box, h⟩
    · rename_i hpop
      exact h.pop hpop
  | discardTerminalThrough terminalId sequence => exact ⟨_, h.discard terminalId sequence⟩
  | consumeResyncRequired =>
    exact ⟨box, ⟨h.holds.priority, h.holds.reliable, h.holds.legacy, h.holds.semantic,
      h.holds.lanes, h.holds.ordered, h.holds.below⟩, ⟨⟨h.exact.reliable, h.exact.legacy,
      h.exact.semantic⟩, ⟨h.exact.reliableFrames, h.exact.reliableBytes, h.exact.legacyFrames,
      h.exact.legacyBytes, h.exact.semanticTerminals, h.exact.semanticBytes⟩⟩, h.priority,
      h.reliable, h.legacy, h.ordered, h.passed⟩

end

theorem kept_of_reachable {limits : MailboxLimits} {run : MailboxRun δ}
    (h : (mailboxSystem limits).Reachable run) : ∃ box, run.Kept box := by
  induction h with
  | start hinitial =>
    rw [hinitial]
    exact ⟨_, .start limits⟩
  | next _ _ hstep ih =>
    obtain ⟨box, hkept⟩ := ih
    cases hstep
    exact hkept.step _

end MailboxRun

/-! ## The claims of the mailbox -/

namespace MailboxRun

/-- The order in which frames leave: priority frames first, in the order they
came; the others by order number; none while frames are pending is kept back;
and a semantic frame that replaces another takes over its order number. -/
structure InOrder (run : MailboxRun δ) : Prop where
  priorityFirst : ∀ queued rest, run.mailbox.priority = queued :: rest →
    run.mailbox.popNext.1 = some queued.frame
  increasing : run.left.Pairwise fun a b => a.order < b.order
  exhausted : run.mailbox.popNext.1 = none ↔ run.mailbox.pendingFrames = 0
  replaced : ∀ terminalId frame previous, run.mailbox.semantic.get? terminalId = some previous →
    (run.mailbox.enqueueSemantic terminalId frame).1.accepted = true →
    (run.mailbox.enqueueSemantic terminalId frame).2.semantic.get? terminalId =
      some ⟨{ frame with terminalId := some terminalId }, previous.order⟩

end MailboxRun

theorem OutboundMailbox.enqueueSemantic_replaced {mailbox : OutboundMailbox δ}
    {id : String} {frame : OutboundFrame δ} {previous : QueuedFrame δ}
    (hget : mailbox.semantic.get? id = some previous)
    (hacc : (mailbox.enqueueSemantic id frame).1.accepted = true) :
    (mailbox.enqueueSemantic id frame).2.semantic.get? id =
      some ⟨{ frame with terminalId := some id }, previous.order⟩ := by
  unfold OutboundMailbox.enqueueSemantic at hacc ⊢
  simp only [hget] at hacc ⊢
  split
  · rename_i hlarge
    rw [if_pos hlarge] at hacc
    cases hacc
  rename_i hsmall
  rw [if_neg hsmall] at hacc
  split
  · rename_i hfull
    rw [if_pos hfull] at hacc
    cases hacc
  · simp [hget]

theorem OutboundMailbox.Holds.pendingFrames {mailbox : OutboundMailbox δ} {box : Outbox δ}
    (h : mailbox.Holds box) : mailbox.pendingFrames = 0 ↔ box.pending = [] := by
  unfold OutboundMailbox.pendingFrames Outbox.pending IndexMap.length
  rw [h.priority, h.reliable, h.legacy, h.semantic]
  constructor
  · intro hzero
    simp only [Nat.add_eq_zero_iff, length_eq_zero_iff] at hzero
    obtain ⟨⟨⟨hurgent, hrel⟩, hlegacy⟩, hsem⟩ := hzero
    rw [hurgent, map_nil, nil_append, eq_nil_iff_forall_not_mem]
    rintro ⟨lane, queued⟩ hmem
    cases lane with
    | priority => exact h.lanes _ hmem rfl
    | reliable => simpa [Slot.reliable?] using filterMap_eq_nil_iff.mp hrel _ hmem
    | legacy => simpa [Slot.legacy?] using filterMap_eq_nil_iff.mp hlegacy _ hmem
    | semantic id => simpa [Slot.semantic?] using filterMap_eq_nil_iff.mp hsem _ hmem
  · intro hnil
    obtain ⟨hurgent, hwaiting⟩ := append_eq_nil_iff.mp hnil
    simp [map_eq_nil_iff.mp hurgent, hwaiting]

theorem MailboxRun.Kept.inOrder {run : MailboxRun δ} {box : Outbox δ} (h : run.Kept box) :
    run.InOrder where
  priorityFirst := by
    intro queued rest hpriority
    simp [OutboundMailbox.popNext, OutboundMailbox.popQueued, hpriority]
  increasing := h.ordered
  exhausted := by
    rw [h.holds.pendingFrames, ← h.holds.popQueued_none]
    unfold OutboundMailbox.popNext
    cases run.mailbox.popQueued <;> simp
  replaced := fun _ _ _ hget hacc =>
    OutboundMailbox.enqueueSemantic_replaced hget hacc

theorem MailboxRun.step_limits (run : MailboxRun δ) (call : MailboxCall δ) :
    (run.step call).mailbox.limits = run.mailbox.limits := by
  cases call with
  | enqueueReliable frame =>
    rcases run.mailbox.enqueueReliable_cases frame with h | h <;>
      simp [MailboxRun.step, enqueued, h]
  | enqueueReliablePriority frame =>
    rcases run.mailbox.enqueueReliablePriority_cases frame with h | h <;>
      simp [MailboxRun.step, enqueued, h]
  | enqueueLegacy terminalId frame =>
    rcases run.mailbox.enqueueLegacy_cases terminalId frame with h | h <;>
      simp [MailboxRun.step, enqueued, h]
  | enqueueSemantic terminalId frame =>
    simp only [MailboxRun.step, enqueued, OutboundMailbox.enqueueSemantic]
    repeat' split
    all_goals rfl
  | popNext =>
    simp only [MailboxRun.step]
    split
    · rfl
    · rename_i hpop
      exact OutboundMailbox.popQueued_limits hpop
  | discardTerminalThrough terminalId sequence => rfl
  | consumeResyncRequired => rfl

/-- Whatever the limits and the operations: the counters are the bytes queued,
every lane is within its limits and no subtraction is cut off; no frame of a
FIFO lane is lost but by a discard; and frames leave in order. -/
theorem mailbox_exact (limits : MailboxLimits) {run : MailboxRun δ}
    (h : (mailboxSystem limits).Reachable run) :
    run.mailbox.limits = limits ∧ run.mailbox.Accounted ∧ run.mailbox.WithinLimits ∧
      run.mailbox.NoUnderflow ∧ run.NothingLost ∧ run.InOrder := by
  have hlimits : run.mailbox.limits = limits := by
    induction h with
    | start hinitial =>
      rw [hinitial]
      rfl
    | next _ _ hstep ih =>
      cases hstep
      exact (MailboxRun.step_limits _ _).trans ih
  obtain ⟨box, hkept⟩ := MailboxRun.kept_of_reachable h
  exact ⟨hlimits, hkept.exact.toAccounted, hkept.exact.toWithinLimits,
    hkept.exact.toAccounted.noUnderflow, hkept.nothingLost, hkept.inOrder⟩

/-- Terminal output, an event and an attach result, popped in the other order. -/
def resultFirst : List (MailboxCall (List UInt8)) :=
  [.enqueueLegacy "t" (.terminal "t" 1 [7]), .enqueueReliable (.text [1]),
    .enqueueReliablePriority (.text [2, 3]), .popNext, .popNext, .popNext]

theorem mailbox_exact_resultFirst :
    ∃ run : MailboxRun (List UInt8), (mailboxSystem {}).Reachable run ∧
      run.popped.map Slot.order = [2, 0, 1] ∧ run.NothingLost ∧ run.InOrder := by
  have hrpl : ((mailboxSystem {}).replay (fun _ _ => true) (.start {}) resultFirst).isSome := by
    decide
  obtain ⟨run, hrun⟩ := Option.isSome_iff_exists.mp hrpl
  have hreachable : (mailboxSystem {}).Reachable run :=
    System.replay_run (System.Run.start rfl) (fun _ _ _ _ => trivial) hrun
  obtain ⟨-, -, -, -, hlost, horder⟩ := mailbox_exact {} hreachable
  refine ⟨run, hreachable, ?_, hlost, horder⟩
  have hpopped : ((mailboxSystem {}).replay (fun _ _ => true) (.start {}) resultFirst).map
      (fun run => run.popped.map Slot.order) = some [2, 0, 1] := by
    decide
  rw [hrun] at hpopped
  exact Option.some.inj hpopped

end Yaade.Connection

import Yaade.Connection.Mailbox
import Yaade.Library.Transition

/-!
What the mailbox is for: a queue that keeps its frames in the order they were
accepted, except that some jump it, that terminal output a snapshot contains
can be taken out of it, and that a newer render state takes the place of an
older one.
-/

namespace Yaade.Connection

open Yaade.Library List Option

/-- A queued frame with its lane. -/
structure Slot (δ : Type) where
  lane : Lane
  queued : QueuedFrame δ
  deriving DecidableEq

namespace Slot

variable {δ : Type}

def order (slot : Slot δ) : Nat := slot.queued.order

def reliable? (slot : Slot δ) : Option (QueuedFrame δ) :=
  if slot.lane = .reliable then some slot.queued else none

def legacy? (slot : Slot δ) : Option (QueuedFrame δ) :=
  if slot.lane = .legacy then some slot.queued else none

def semantic? (slot : Slot δ) : Option (String × QueuedFrame δ) :=
  match slot.lane with
  | .semantic id => some (id, slot.queued)
  | _ => none

def isThrough (terminalId : String) (sequence : Nat) (slot : Slot δ) : Bool :=
  slot.lane = .legacy && OutboundMailbox.isThrough terminalId sequence slot.queued

def replaced (terminalId : String) (frame : OutboundFrame δ) (slot : Slot δ) : Slot δ :=
  if slot.lane = .semantic terminalId then
    { slot with queued := { slot.queued with frame := frame } }
  else slot

theorem reliable?_eq_some {slot : Slot δ} {queued : QueuedFrame δ} :
    slot.reliable? = some queued ↔ slot = ⟨.reliable, queued⟩ := by
  cases slot
  simp [reliable?]

theorem legacy?_eq_some {slot : Slot δ} {queued : QueuedFrame δ} :
    slot.legacy? = some queued ↔ slot = ⟨.legacy, queued⟩ := by
  cases slot
  simp [legacy?]

theorem semantic?_eq_some {slot : Slot δ} {entry : String × QueuedFrame δ} :
    slot.semantic? = some entry ↔ slot = ⟨.semantic entry.1, entry.2⟩ := by
  obtain ⟨lane, queued⟩ := slot
  obtain ⟨id, q⟩ := entry
  cases lane <;> simp [semantic?]

@[simp] theorem replaced_order (id : String) (frame : OutboundFrame δ) (slot : Slot δ) :
    (slot.replaced id frame).order = slot.order := by
  unfold replaced
  split <;> rfl

@[simp] theorem replaced_lane (id : String) (frame : OutboundFrame δ) (slot : Slot δ) :
    (slot.replaced id frame).lane = slot.lane := by
  unfold replaced
  split <;> rfl

end Slot

/-- The frames that jump the queue, and the queue. -/
structure Outbox (δ : Type) where
  urgent : List (QueuedFrame δ)
  waiting : List (Slot δ)

namespace Outbox

variable {δ : Type}

def pending (box : Outbox δ) : List (Slot δ) :=
  box.urgent.map (Slot.mk .priority) ++ box.waiting

def pop (box : Outbox δ) : Option (Slot δ × Outbox δ) :=
  match box.urgent, box.waiting with
  | queued :: rest, _ => some (⟨.priority, queued⟩, { box with urgent := rest })
  | [], slot :: rest => some (slot, { box with waiting := rest })
  | [], [] => none

def push (box : Outbox δ) (slot : Slot δ) : Outbox δ :=
  { box with waiting := box.waiting ++ [slot] }

def pushUrgent (box : Outbox δ) (queued : QueuedFrame δ) : Outbox δ :=
  { box with urgent := box.urgent ++ [queued] }

def discard (box : Outbox δ) (terminalId : String) (sequence : Nat) : Outbox δ :=
  { box with waiting := box.waiting.filter fun slot => !slot.isThrough terminalId sequence }

def replace (box : Outbox δ) (terminalId : String) (frame : OutboundFrame δ) : Outbox δ :=
  { box with waiting := box.waiting.map (Slot.replaced terminalId frame) }

end Outbox

namespace OutboundMailbox

variable {δ : Type}

/-- The lanes hold the queue: each is the queue restricted to it, order
numbers grow along the queue, and the next one is above them all. -/
structure Holds (mailbox : OutboundMailbox δ) (box : Outbox δ) : Prop where
  priority : mailbox.priority = box.urgent
  reliable : mailbox.reliable = box.waiting.filterMap Slot.reliable?
  legacy : mailbox.legacy = box.waiting.filterMap Slot.legacy?
  semantic : mailbox.semantic.entries = box.waiting.filterMap Slot.semantic?
  lanes : ∀ slot ∈ box.waiting, slot.lane ≠ .priority
  ordered : box.waiting.Pairwise fun a b => a.order < b.order
  below : ∀ slot ∈ box.waiting, slot.order < mailbox.nextOrder

theorem Holds.new (limits : MailboxLimits) : (new limits : OutboundMailbox δ).Holds ⟨[], []⟩ where
  priority := rfl
  reliable := rfl
  legacy := rfl
  semantic := rfl
  lanes := by simp
  ordered := List.Pairwise.nil
  below := by simp

/-! ## Taking out the oldest frame -/

theorem better_of_lt {selected : Option (Nat × Lane)} {order : Nat} {lane : Lane}
    (h : ∀ s, selected = some s → order < s.1) :
    better selected order lane = some (order, lane) := by
  unfold better
  rw [if_pos]
  rw [Option.all_eq_true]
  intro s hs
  exact decide_eq_true (h s hs)

theorem better_of_le {order order' : Nat} {lane lane' : Lane} (h : order ≤ order') :
    better (some (order, lane)) order' lane' = some (order, lane) := by
  unfold better
  rw [if_neg]
  simp only [all_some, decide_eq_true_eq]
  omega

theorem foldl_better {entries : List (String × QueuedFrame δ)} {order : Nat} {lane : Lane}
    (h : ∀ entry ∈ entries, order ≤ entry.2.order) :
    entries.foldl (fun selected entry => better selected entry.2.order (.semantic entry.1))
      (some (order, lane)) = some (order, lane) := by
  induction entries with
  | nil => rfl
  | cons entry rest ih =>
    rw [foldl_cons, better_of_le (h entry mem_cons_self)]
    exact ih fun e he => h e (mem_cons_of_mem _ he)

variable {mailbox : OutboundMailbox δ} {box : Outbox δ}

namespace Holds

variable {queued : QueuedFrame δ} {m : OutboundMailbox δ}

section

variable (h : mailbox.Holds box)
include h

theorem mem_reliable : queued ∈ mailbox.reliable ↔ ⟨.reliable, queued⟩ ∈ box.waiting := by
  rw [h.reliable, mem_filterMap]
  simp [Slot.reliable?_eq_some]

theorem mem_legacy : queued ∈ mailbox.legacy ↔ ⟨.legacy, queued⟩ ∈ box.waiting := by
  rw [h.legacy, mem_filterMap]
  simp [Slot.legacy?_eq_some]

theorem mem_semantic {entry : String × QueuedFrame δ} :
    entry ∈ mailbox.semantic.entries ↔ ⟨.semantic entry.1, entry.2⟩ ∈ box.waiting := by
  rw [h.semantic, mem_filterMap]
  simp [Slot.semantic?_eq_some]

/-- The lane selected is the lane of the head of the queue. -/
theorem select : mailbox.select = box.waiting.head?.map fun slot => (slot.order, slot.lane) := by
  cases hwaiting : box.waiting with
  | nil =>
    have hrel := h.reliable
    have hlegacy := h.legacy
    have hsem := h.semantic
    rw [hwaiting] at hrel hlegacy hsem
    simp [OutboundMailbox.select, hrel, hlegacy, hsem]
  | cons slot rest =>
    have hordered := h.ordered
    rw [hwaiting, pairwise_cons] at hordered
    -- the head is older than everything else that waits
    have holdest : ∀ other ∈ box.waiting, slot.order ≤ other.order := by
      intro other hother
      rw [hwaiting] at hother
      rcases mem_cons.mp hother with rfl | hrest
      · exact le_rfl
      · exact (hordered.1 other hrest).le
    have hyounger : ∀ other ∈ box.waiting, other.lane ≠ slot.lane →
        slot.order < other.order := by
      intro other hother hlane
      rw [hwaiting] at hother
      rcases mem_cons.mp hother with rfl | hrest
      · exact absurd rfl hlane
      · exact hordered.1 other hrest
    have hentries : ∀ entry ∈ mailbox.semantic.entries, slot.order ≤ entry.2.order := by
      intro entry hentry
      exact holdest _ (h.mem_semantic.mp hentry)
    obtain ⟨lane, queued⟩ := slot
    unfold OutboundMailbox.select
    cases lane with
    | priority => exact absurd rfl (h.lanes ⟨.priority, queued⟩ (by simp [hwaiting]))
    | reliable =>
      have hhead : mailbox.reliable.head? = some queued := by
        rw [h.reliable, hwaiting]
        simp [Slot.reliable?]
      rw [hhead]
      cases hlegacy : mailbox.legacy.head? with
      | none => exact foldl_better hentries
      | some frame =>
        have hmem := h.mem_legacy.mp (mem_of_head? hlegacy)
        simp only [map_some]
        have hle : queued.order ≤ frame.order := (hyounger _ hmem (by simp)).le
        rw [better_of_le hle]
        exact foldl_better hentries
    | legacy =>
      have hhead : mailbox.legacy.head? = some queued := by
        rw [h.legacy, hwaiting]
        simp [Slot.legacy?]
      rw [hhead]
      simp only
      rw [better_of_lt]
      · exact foldl_better hentries
      intro s hs
      obtain ⟨frame, hframe, rfl⟩ := map_eq_some_iff.mp hs
      exact hyounger _ (h.mem_reliable.mp (mem_of_head? hframe)) (by simp)
    | semantic id =>
      have hhead : mailbox.semantic.entries =
          (id, queued) :: rest.filterMap Slot.semantic? := by
        rw [h.semantic, hwaiting]
        simp [Slot.semantic?]
      rw [hhead, foldl_cons]
      rw [better_of_lt]
      · apply foldl_better
        intro entry hentry
        exact hentries entry (by rw [hhead]; exact mem_cons_of_mem _ hentry)
      -- what the first two lanes offer is younger
      have hrel : ∀ s, mailbox.reliable.head?.map
          (fun frame => (frame.order, Lane.reliable)) = some s → queued.order < s.1 := by
        intro s hs
        obtain ⟨frame, hframe, rfl⟩ := map_eq_some_iff.mp hs
        exact hyounger _ (h.mem_reliable.mp (mem_of_head? hframe)) (by simp)
      intro s hs
      cases hlegacy : mailbox.legacy.head? with
      | none =>
        rw [hlegacy] at hs
        exact hrel s hs
      | some frame =>
        have hframe : queued.order < frame.order :=
          hyounger _ (h.mem_legacy.mp (mem_of_head? hlegacy)) (by simp)
        rw [hlegacy] at hs
        unfold better at hs
        simp only at hs
        split at hs
        · cases hs
          exact hframe
        · exact hrel s hs

theorem popQueued_some [ByteLength δ] {lane : Lane}
    {rest : OutboundMailbox δ} (hpop : mailbox.popQueued = some (lane, queued, rest)) :
    ∃ restBox, box.pop = some (⟨lane, queued⟩, restBox) ∧ rest.Holds restBox := by
  have hpriority := h.priority
  unfold OutboundMailbox.popQueued at hpop
  unfold Outbox.pop
  cases hurgent : mailbox.priority with
  | cons first others =>
    rw [hurgent] at hpop hpriority
    cases hpop
    rw [← hpriority]
    exact ⟨_, rfl, { h with priority := rfl }⟩
  | nil =>
    rw [hurgent] at hpop hpriority
    rw [← hpriority]
    simp only [h.select] at hpop
    cases hwaiting : box.waiting with
    | nil => simp [hwaiting] at hpop
    | cons slot others =>
      have hrel := h.reliable
      have hlegacy := h.legacy
      have hsem := h.semantic
      have hlanes := h.lanes
      have hordered := h.ordered
      have hbelow := h.below
      rw [hwaiting] at hrel hlegacy hsem hlanes hordered hbelow hpop
      -- the queue without its head, whatever the lane of the head is
      have hrest : ∀ m : OutboundMailbox δ, m.priority = [] →
          m.nextOrder = mailbox.nextOrder →
          m.reliable = others.filterMap Slot.reliable? →
          m.legacy = others.filterMap Slot.legacy? →
          m.semantic.entries = others.filterMap Slot.semantic? →
          m.Holds ⟨[], others⟩ := by
        intro m hp hn hr hl hs
        refine ⟨hp, hr, hl, hs, ?_, (pairwise_cons.mp hordered).2, ?_⟩
        · intro s hmem
          exact hlanes s (mem_cons_of_mem _ hmem)
        · intro s hmem
          rw [hn]
          exact hbelow s (mem_cons_of_mem _ hmem)
      obtain ⟨slotLane, slotQueued⟩ := slot
      cases slotLane with
      | priority => exact absurd rfl (hlanes _ mem_cons_self)
      | reliable =>
        simp only [Slot.reliable?, filterMap_cons, if_true] at hrel
        simp only [head?_cons, map_some, hrel] at hpop
        cases hpop
        exact ⟨_, rfl, hrest _ rfl rfl rfl
          (by simpa [Slot.legacy?, filterMap_cons] using hlegacy) (by simpa [Slot.semantic?, filterMap_cons] using hsem)⟩
      | legacy =>
        simp only [Slot.legacy?, filterMap_cons, if_true] at hlegacy
        simp only [head?_cons, map_some, hlegacy] at hpop
        cases hpop
        exact ⟨_, rfl, hrest _ rfl rfl (by simpa [Slot.reliable?, filterMap_cons] using hrel)
          rfl (by simpa [Slot.semantic?, filterMap_cons] using hsem)⟩
      | semantic id =>
        simp only [Slot.semantic?, filterMap_cons] at hsem
        have hget : mailbox.semantic.get? id = some slotQueued := by
          rw [IndexMap.get?_eq_some, hsem]
          exact mem_cons_self
        simp only [head?_cons, map_some, hget] at hpop
        cases hpop
        exact ⟨_, rfl, hrest _ rfl rfl (by simpa [Slot.reliable?, filterMap_cons] using hrel)
          (by simpa [Slot.legacy?, filterMap_cons] using hlegacy) (IndexMap.shiftRemove_entries hsem)⟩

theorem popQueued_none [ByteLength δ] : mailbox.popQueued = none ↔ box.pending = [] := by
  unfold OutboundMailbox.popQueued Outbox.pending
  rw [← h.priority]
  cases hurgent : mailbox.priority with
  | cons first others => simp
  | nil =>
    cases hwaiting : box.waiting with
    | nil => simp [h.select, hwaiting]
    | cons slot others =>
      have hmem : slot ∈ box.waiting := by simp [hwaiting]
      obtain ⟨lane, queued⟩ := slot
      cases lane with
      | priority => exact absurd rfl (h.lanes _ hmem)
      | reliable =>
        obtain ⟨first, rest, hcons⟩ := exists_cons_of_ne_nil
          (ne_nil_of_mem (h.mem_reliable.mpr hmem))
        simp [h.select, hwaiting, hcons]
      | legacy =>
        obtain ⟨first, rest, hcons⟩ := exists_cons_of_ne_nil
          (ne_nil_of_mem (h.mem_legacy.mpr hmem))
        simp [h.select, hwaiting, hcons]
      | semantic id =>
        have hentry : (id, queued) ∈ mailbox.semantic.entries := h.mem_semantic.mpr hmem
        have hget := IndexMap.get?_eq_some.mpr hentry
        simp [h.select, hwaiting, hget]

/-! ## Putting frames in and taking them out -/

theorem pushUrgent (queued : QueuedFrame δ) (hpriority : m.priority = mailbox.priority ++ [queued])
    (hnext : m.nextOrder = mailbox.nextOrder + 1) (hrel : m.reliable = mailbox.reliable)
    (hlegacy : m.legacy = mailbox.legacy) (hsem : m.semantic = mailbox.semantic) :
    m.Holds (box.pushUrgent queued) := by
  refine ⟨?_, hrel.trans h.reliable, hlegacy.trans h.legacy, ?_, h.lanes, h.ordered, ?_⟩
  · rw [hpriority, h.priority]
    rfl
  · rw [hsem]
    exact h.semantic
  · intro slot hslot
    rw [hnext]
    exact (h.below slot hslot).trans (Nat.lt_succ_self _)

theorem push {slot : Slot δ} (horder : slot.order = mailbox.nextOrder)
    (hlane : slot.lane ≠ .priority)
    (hpriority : m.priority = mailbox.priority) (hnext : m.nextOrder = mailbox.nextOrder + 1)
    (hrel : m.reliable = mailbox.reliable ++ slot.reliable?.toList)
    (hlegacy : m.legacy = mailbox.legacy ++ slot.legacy?.toList)
    (hsem : m.semantic.entries = mailbox.semantic.entries ++ slot.semantic?.toList) :
    m.Holds (box.push slot) := by
  have hfilterMap : ∀ {β : Type} (f : Slot δ → Option β),
      (box.waiting ++ [slot]).filterMap f = box.waiting.filterMap f ++ (f slot).toList := by
    intro β f
    rw [filterMap_append]
    cases hf : f slot <;> simp [hf]
  refine ⟨hpriority.trans h.priority, ?_, ?_, ?_, ?_, ?_, ?_⟩
  · rw [hrel, h.reliable]
    exact (hfilterMap _).symm
  · rw [hlegacy, h.legacy]
    exact (hfilterMap _).symm
  · rw [hsem, h.semantic]
    exact (hfilterMap _).symm
  · intro s hs
    rcases mem_snoc.mp hs with hold | rfl
    · exact h.lanes s hold
    · exact hlane
  · apply pairwise_append.mpr
    refine ⟨h.ordered, pairwise_singleton _ _, ?_⟩
    intro s hs t ht
    rw [mem_singleton.mp ht, horder]
    exact h.below s hs
  · intro s hs
    rw [hnext]
    rcases mem_append.mp hs with hold | hnew
    · exact (h.below s hold).trans (Nat.lt_succ_self _)
    · rw [mem_singleton.mp hnew, horder]
      exact Nat.lt_succ_self _

theorem discard [ByteLength δ] (id : String) (sequence : Nat) :
    (mailbox.discardTerminalThrough id sequence).Holds
      (box.discard id sequence) := by
  have hkept : ∀ {β : Type} (f : Slot δ → Option β),
      (∀ slot, slot.isThrough id sequence = true → f slot = none) →
      (box.waiting.filter fun slot => !slot.isThrough id sequence).filterMap f =
        box.waiting.filterMap f := by
    intro β f hf
    rw [filterMap_filter]
    apply filterMap_congr
    intro slot _
    cases hthrough : slot.isThrough id sequence with
    | true => simp [hf slot hthrough]
    | false => simp
  have hlane : ∀ slot : Slot δ, slot.isThrough id sequence = true →
      slot.lane = .legacy := by
    intro slot hslot
    unfold Slot.isThrough at hslot
    exact of_decide_eq_true (Bool.and_eq_true_iff.mp hslot).1
  refine ⟨h.priority, ?_, ?_, ?_, ?_, h.ordered.filter _, ?_⟩
  · exact h.reliable.trans (hkept _ fun slot hslot => by simp [Slot.reliable?, hlane slot hslot]).symm
  · unfold discardTerminalThrough Outbox.discard
    simp only
    rw [h.legacy, filter_filterMap, filterMap_filter]
    apply filterMap_congr
    rintro ⟨lane, queued⟩ _
    by_cases hlegacy : lane = .legacy
    · subst hlegacy
      cases hthrough : OutboundMailbox.isThrough id sequence queued <;>
        simp [Slot.isThrough, Slot.legacy?, hthrough]
    · simp [Slot.isThrough, Slot.legacy?, hlegacy]
  · refine h.semantic.trans (hkept _ fun slot hslot => ?_).symm
    simp [Slot.semantic?, hlane slot hslot]
  · intro slot hslot
    exact h.lanes slot (mem_of_mem_filter hslot)
  · intro slot hslot
    exact h.below slot (mem_of_mem_filter hslot)

/-- A newer render state takes the place, and the order number, of the older
one of its terminal. -/
theorem replace (terminalId : String) (frame : OutboundFrame δ)
    (hpriority : m.priority = mailbox.priority)
    (hnext : m.nextOrder = mailbox.nextOrder) (hrel : m.reliable = mailbox.reliable)
    (hlegacy : m.legacy = mailbox.legacy)
    (hsem : m.semantic = mailbox.semantic.modify terminalId fun previous =>
      { previous with frame := frame }) : m.Holds (box.replace terminalId frame) := by
  have hother : ∀ {β : Type} (f : Slot δ → Option β),
      (∀ slot, f (slot.replaced terminalId frame) = f slot) →
      (box.waiting.map (Slot.replaced terminalId frame)).filterMap f = box.waiting.filterMap f := by
    intro β f hf
    rw [List.filterMap_map]
    exact filterMap_congr fun slot _ => hf slot
  have hlane : ∀ (slot : Slot δ) (lane : Lane), lane ≠ .semantic terminalId →
      slot.lane = lane → slot.replaced terminalId frame = slot := by
    intro slot lane hne hslot
    unfold Slot.replaced
    rw [if_neg (hslot ▸ hne)]
  refine ⟨hpriority.trans h.priority, ?_, ?_, ?_, ?_, ?_, ?_⟩
  · rw [hrel, h.reliable]
    refine (hother _ fun slot => ?_).symm
    by_cases hslot : slot.lane = .reliable
    · rw [hlane slot _ (by simp) hslot]
    · simp [Slot.reliable?, hslot]
  · rw [hlegacy, h.legacy]
    refine (hother _ fun slot => ?_).symm
    by_cases hslot : slot.lane = .legacy
    · rw [hlane slot _ (by simp) hslot]
    · simp [Slot.legacy?, hslot]
  · rw [hsem]
    unfold IndexMap.modify Outbox.replace
    simp only
    rw [updateRow_eq_map Prod.fst _ _ _ mailbox.semantic.nodup, h.semantic,
      map_filterMap, List.filterMap_map]
    apply filterMap_congr
    rintro ⟨lane, queued⟩ _
    cases lane with
    | semantic id =>
      by_cases hid : id = terminalId
      · subst hid
        simp [Slot.semantic?, Slot.replaced]
      · simp [Slot.semantic?, Slot.replaced, hid]
    | priority | reliable | legacy => simp [Slot.semantic?, Slot.replaced]
  · intro slot hslot
    obtain ⟨old, hold, rfl⟩ := List.mem_map.mp hslot
    rw [Slot.replaced_lane]
    exact h.lanes old hold
  · apply pairwise_map.mpr
    simpa using h.ordered
  · intro slot hslot
    obtain ⟨old, hold, rfl⟩ := List.mem_map.mp hslot
    rw [Slot.replaced_order, hnext]
    exact h.below old hold

end

end Holds

end OutboundMailbox

end Yaade.Connection

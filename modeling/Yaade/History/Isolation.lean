import Yaade.History.Closes

/-!
Two runs of the archives, one with the operations of a terminal and one
without them.
-/

namespace Yaade.History

open Yaade.Library List Option

/-- All that is kept for the terminals other than `terminalId` is the same. -/
structure HistoryShared.Alike (terminalId : String) (full spare : HistoryShared) : Prop where
  slot : ∀ other, other ≠ terminalId → spare.slot other = full.slot other
  accepted : ∀ other, other ≠ terminalId → spare.accepted other = full.accepted other
  pendingCloses : spare.pendingCloses = full.pendingCloses.filter (· ≠ terminalId)

namespace HistoryShared

section Alike

variable {gzip : Gzip} {limits : Limits} {now : Nat} {terminalId other : String}
  {full spare full' spare' : HistoryShared} {record : HistoryRecord}

theorem Alike.frame (h : Alike terminalId full spare)
    (hslot : ∀ other, full'.slot other = full.slot other)
    (hacc : ∀ other, full'.accepted other = full.accepted other)
    (hpend : full'.pendingCloses = full.pendingCloses)
    (hslot' : ∀ other, spare'.slot other = spare.slot other)
    (hacc' : ∀ other, spare'.accepted other = spare.accepted other)
    (hpend' : spare'.pendingCloses = spare.pendingCloses) : Alike terminalId full' spare' where
  slot other hother := by rw [hslot, hslot', h.slot other hother]
  accepted other hother := by rw [hacc, hacc', h.accepted other hother]
  pendingCloses := by rw [hpend, hpend', h.pendingCloses]

@[simp] theorem accepted_recordResult (shared : HistoryShared) (result : Except HistoryError Unit) :
    (shared.recordResult result).accepted = shared.accepted := by
  cases result <;> rfl

@[simp] theorem accepted_accept (shared : HistoryShared) (target : String) (sequence : Nat)
    (other : String) : (shared.accept target sequence).accepted other =
      if other = target then sequence else shared.accepted other := by
  unfold accepted accept
  rw [IndexMap.get?_insert]
  split <;> rfl

section

variable (h : Alike terminalId full spare)
include h

theorem Alike.recordResult (result result' : Except HistoryError Unit) :
    Alike terminalId (full.recordResult result) (spare.recordResult result') :=
  h.frame (fun _ => slot_recordResult _ _ _) (fun _ => by rw [accepted_recordResult])
    (pendingCloses_recordResult _ _) (fun _ => slot_recordResult _ _ _)
    (fun _ => by rw [accepted_recordResult]) (pendingCloses_recordResult _ _)

theorem Alike.recordApart (result : Except HistoryError Unit) :
    Alike terminalId (full.recordResult result) spare :=
  h.frame (fun _ => slot_recordResult _ _ _) (fun _ => by rw [accepted_recordResult])
    (pendingCloses_recordResult _ _) (fun _ => rfl) (fun _ => rfl) rfl

theorem Alike.setSlot (target : String) (slot : Slot) :
    Alike terminalId (full.setSlot target slot) (spare.setSlot target slot) where
  slot other hother := by
    rw [slot_setSlot, slot_setSlot, h.slot other hother]
  accepted := h.accepted
  pendingCloses := h.pendingCloses

theorem Alike.setApart (slot : Slot) : Alike terminalId (full.setSlot terminalId slot) spare where
  slot other hother := by
    rw [slot_setSlot, if_neg hother, h.slot other hother]
  accepted := h.accepted
  pendingCloses := h.pendingCloses

theorem Alike.accept (target : String) (sequence : Nat) :
    Alike terminalId (full.accept target sequence) (spare.accept target sequence) where
  slot := h.slot
  accepted other hother := by rw [accepted_accept, accepted_accept, h.accepted other hother]
  pendingCloses := h.pendingCloses

theorem Alike.acceptApart (sequence : Nat) :
    Alike terminalId (full.accept terminalId sequence) spare where
  slot := h.slot
  accepted other hother := by rw [accepted_accept, if_neg hother, h.accepted other hother]
  pendingCloses := h.pendingCloses

end

def learned (target : String) (now : Nat) (slot : Slot) (accepted : Nat) : Option Nat :=
  if slot.state.isSome then none
  else match (stateFor target now slot).result with
    | .error _ => none
    | .ok state => if state.lastSequence > 0 then some (max accepted state.lastSequence) else none

theorem learn_eq (shared : HistoryShared) (target : String) (now : Nat) : shared.learn target now =
      (learned target now (shared.slot target) (shared.accepted target)).elim shared
        (shared.accept target) := by
  unfold learned
  unfold learn
  dsimp only
  split
  · rfl
  cases (stateFor target now (shared.slot target)).result with
  | error error => rfl
  | ok state =>
    dsimp only
    split <;> rfl

section

variable (h : Alike terminalId full spare)
include h

theorem Alike.learn (hother : other ≠ terminalId) :
    Alike terminalId (full.learn other now) (spare.learn other now) := by
  rw [learn_eq, learn_eq, h.slot other hother, h.accepted other hother]
  cases learned other now (full.slot other) (full.accepted other)
  · exact h
  · exact h.accept other _

theorem Alike.learnApart : Alike terminalId (full.learn terminalId now) spare := by
  rw [learn_eq]
  cases learned terminalId now (full.slot terminalId) (full.accepted terminalId)
  · exact h
  · exact h.acceptApart _

/-! ### The owner -/

theorem Alike.appendOwned (hother : other ≠ terminalId)
    (record : HistoryRecord) : Alike terminalId (full.appendOwned gzip limits now other record)
      (spare.appendOwned gzip limits now other record) := by
  unfold HistoryShared.appendOwned perform
  rw [slot_learn, slot_learn, h.slot other hother]
  exact ((h.learn hother).setSlot other _).recordResult _ _

theorem Alike.appendApart (record : HistoryRecord) :
    Alike terminalId (full.appendOwned gzip limits now terminalId record) spare := by
  unfold HistoryShared.appendOwned perform
  exact (h.learnApart.setApart _).recordApart _

theorem Alike.finalizeTerminal (hother : other ≠ terminalId) :
    Alike terminalId (full.finalizeTerminal gzip now other)
      (spare.finalizeTerminal gzip now other) := by
  have hperformed : Alike terminalId
      (full.perform other (History.finalizeTerminal gzip now (full.slot other)))
      (spare.perform other (History.finalizeTerminal gzip now (spare.slot other))) := by
    unfold perform
    rw [h.slot other hother]
    exact (h.setSlot other _).recordResult _ _
  refine ⟨hperformed.slot, hperformed.accepted, ?_⟩
  rw [pendingCloses_finalizeTerminal, pendingCloses_finalizeTerminal, h.pendingCloses,
    List.filter_filter, List.filter_filter]
  exact filter_congr fun _ _ => Bool.and_comm _ _

theorem Alike.finalizeApart :
    Alike terminalId (full.finalizeTerminal gzip now terminalId) spare := by
  have hperformed : Alike terminalId
      (full.perform terminalId (History.finalizeTerminal gzip now (full.slot terminalId))) spare :=
    (h.setApart _).recordApart _
  refine ⟨hperformed.slot, hperformed.accepted, ?_⟩
  rw [pendingCloses_finalizeTerminal, h.pendingCloses, List.filter_filter]
  refine filter_congr fun _ _ => ?_
  rw [Bool.and_self]

end

theorem finalizeReady_cons (shared : HistoryShared) (target : String) (throughSequence : Nat)
    (rest : List (String × Nat)) :
    shared.finalizeReady gzip now ((target, throughSequence) :: rest) =
      if shared.writtenSequence target < throughSequence then
        ((shared.finalizeReady gzip now rest).1,
          (target, throughSequence) :: (shared.finalizeReady gzip now rest).2)
      else (shared.finalizeTerminal gzip now target).finalizeReady gzip now rest := rfl

section

variable (h : Alike terminalId full spare)
include h

theorem Alike.finalizeReady (entries : List (String × Nat)) :
    Alike terminalId (full.finalizeReady gzip now entries).1
        (spare.finalizeReady gzip now (entries.filter fun entry => entry.1 ≠ terminalId)).1 ∧
      (spare.finalizeReady gzip now (entries.filter fun entry => entry.1 ≠ terminalId)).2 =
        (full.finalizeReady gzip now entries).2.filter fun entry => entry.1 ≠ terminalId := by
  induction entries generalizing full spare with
  | nil => exact ⟨h, rfl⟩
  | cons entry rest ih =>
    obtain ⟨target, throughSequence⟩ := entry
    by_cases htgt : target = terminalId
    · subst htgt
      rw [filter_cons_of_neg (by simp), finalizeReady_cons]
      split
      · obtain ⟨halike, hwaiting⟩ := ih h
        rw [filter_cons_of_neg (by simp)]
        exact ⟨halike, hwaiting⟩
      · exact ih h.finalizeApart
    · rw [filter_cons_of_pos (by simpa using htgt), finalizeReady_cons,
        finalizeReady_cons, writtenSequence_eq (h.slot target htgt)]
      split
      · obtain ⟨halike, hwaiting⟩ := ih h
        rw [filter_cons_of_pos (by simpa using htgt), hwaiting]
        exact ⟨halike, rfl⟩
      · exact ih (h.finalizeTerminal htgt)

theorem Alike.read (hother : other ≠ terminalId)
    (query : HistoryQuery) :
    (spare.read gzip limits now other query).1 = (full.read gzip limits now other query).1 ∧
      Alike terminalId (full.read gzip limits now other query).2
        (spare.read gzip limits now other query).2 := by
  unfold HistoryShared.read
  dsimp only
  rw [h.slot other hother]
  split
  · exact ⟨rfl, (h.learn hother).setSlot other _⟩
  · exact ⟨rfl, h⟩

theorem Alike.readApart (query : HistoryQuery) :
    Alike terminalId (full.read gzip limits now terminalId query).2 spare := by
  unfold HistoryShared.read
  dsimp only
  split
  · exact h.learnApart.setApart _
  · exact h

end

/-! ### Flushes -/

/-- What is kept for all terminals is the same. -/
structure Same (shared shared' : HistoryShared) : Prop where
  slots : shared'.slots = shared.slots
  accepted : shared'.acceptedSequences = shared.acceptedSequences
  pendingCloses : shared'.pendingCloses = shared.pendingCloses

theorem Same.trans {first second third : HistoryShared} (h : Same first second)
    (h' : Same second third) : Same first third :=
  ⟨h'.slots.trans h.slots, h'.accepted.trans h.accepted, h'.pendingCloses.trans h.pendingCloses⟩

theorem same_recordResult (shared : HistoryShared) (result : Except HistoryError Unit) :
    Same shared (shared.recordResult result) := by
  cases result <;> exact ⟨rfl, rfl, rfl⟩

theorem Alike.same (h : Alike terminalId full spare) (hfull : Same full full')
    (hspare : Same spare spare') : Alike terminalId full' spare' := by
  refine h.frame (fun other => ?_) (fun other => ?_) hfull.pendingCloses (fun other => ?_)
    (fun other => ?_) hspare.pendingCloses
  · exact congrArg (fun slots => (slots.get? other).getD ⟨none, none⟩) hfull.slots
  · exact congrArg (fun sequences => (sequences.get? other).getD 0) hfull.accepted
  · exact congrArg (fun slots => (slots.get? other).getD ⟨none, none⟩) hspare.slots
  · exact congrArg (fun sequences => (sequences.get? other).getD 0) hspare.accepted

theorem evictArchives_frame (shared : HistoryShared) (total : Nat) (archives : List StoredArchive) :
    (shared.evictArchives total archives).acceptedSequences = shared.acceptedSequences ∧
      (shared.evictArchives total archives).pendingCloses = shared.pendingCloses := by
  induction archives generalizing shared total with
  | nil => exact ⟨rfl, rfl⟩
  | cons archive rest ih =>
    unfold evictArchives
    split
    · exact ⟨rfl, rfl⟩
    split
    · exact ih shared total
    · exact ih _ _

variable {shared : HistoryShared}

theorem evictArchives_slots {shared' : HistoryShared} (h : shared'.slots = shared.slots)
    (total : Nat) (archives : List StoredArchive) :
    (shared'.evictArchives total archives).slots = (shared.evictArchives total archives).slots := by
  induction archives generalizing shared shared' total with
  | nil => exact h
  | cons archive rest ih =>
    have hslot : shared'.slot archive.terminalId = shared.slot archive.terminalId :=
      congrArg (fun slots => (slots.get? archive.terminalId).getD ⟨none, none⟩) h
    unfold evictArchives
    rw [hslot]
    split
    · exact h
    split
    · exact ih h total
    · exact ih (congrArg (fun slots => slots.insert archive.terminalId ⟨none, none⟩) h) _

theorem enforceTotalQuota_slots {shared' : HistoryShared} (h : shared'.slots = shared.slots) :
    shared'.enforceTotalQuota.2.slots = shared.enforceTotalQuota.2.slots := by
  unfold enforceTotalQuota
  rw [h]
  split
  · exact h
  · exact evictArchives_slots h _ _

theorem same_enforceTotalQuota (h : shared.enforceTotalQuota.2.slots = shared.slots) :
    Same shared shared.enforceTotalQuota.2 := by
  have hframe : shared.enforceTotalQuota.2.acceptedSequences = shared.acceptedSequences ∧
      shared.enforceTotalQuota.2.pendingCloses = shared.pendingCloses := by
    unfold enforceTotalQuota
    split
    · exact ⟨rfl, rfl⟩
    · exact evictArchives_frame shared _ _
  exact ⟨h, hframe.1, hframe.2⟩

theorem flushEach_frame (shared : HistoryShared) (ids : List String) :
    (shared.flushEach gzip now ids).2.acceptedSequences = shared.acceptedSequences ∧
      (shared.flushEach gzip now ids).2.pendingCloses = shared.pendingCloses := by
  induction ids generalizing shared with
  | nil => exact ⟨rfl, rfl⟩
  | cons target rest ih =>
    unfold flushEach
    dsimp only
    split
    · exact ⟨rfl, rfl⟩
    · exact ih _

theorem flushEach_slot {ids : List String}
    (hok : (shared.flushEach gzip now ids).1 = .ok ()) (hnodup : ids.Nodup) (other : String) :
    (shared.flushEach gzip now ids).2.slot other =
      if other ∈ ids then (flushTerminal gzip now (shared.slot other)).slot (shared.slot other)
      else shared.slot other := by
  induction ids generalizing shared with
  | nil => rfl
  | cons target rest ih =>
    obtain ⟨hfirst, hrest⟩ := nodup_cons.mp hnodup
    unfold flushEach at hok ⊢
    dsimp only at hok ⊢
    split at hok
    · cases hok
    rw [ih hok hrest, slot_setSlot]
    by_cases hother : other = target
    · subst hother
      rw [if_neg hfirst, if_pos rfl, if_pos mem_cons_self]
    · rw [if_neg hother]
      simp [hother]

def Settles (gzip : Gzip) (now : Nat) (shared : HistoryShared) : Prop :=
  (shared.flushEach gzip now shared.slots.keys).1 = .ok () ∧
    (shared.flushEach gzip now shared.slots.keys).2.enforceTotalQuota.2.slots =
      (shared.flushEach gzip now shared.slots.keys).2.slots

theorem Settles.slot (h : shared.Settles gzip now) (other : String) :
    (shared.flushEach gzip now shared.slots.keys).2.slot other =
      (flushTerminal gzip now (shared.slot other)).slot (shared.slot other) := by
  rw [flushEach_slot h.1 shared.slots.nodup]
  split
  · rfl
  rename_i habsent
  have hnone : shared.slot other = ⟨none, none⟩ := by
    have hget : shared.slots.get? other = none := by
      cases hget : shared.slots.get? other with
      | none => rfl
      | some slot => exact absurd (IndexMap.mem_keys.mpr ⟨slot, hget⟩) habsent
    unfold HistoryShared.slot
    rw [hget]
    rfl
  rw [hnone]
  exact (flushTerminal_cold rfl now).symm

theorem Settles.same (h : shared.Settles gzip now) :
    Same (shared.flushEach gzip now shared.slots.keys).2 (shared.flushLive gzip now).2 := by
  obtain ⟨hok, hroomy⟩ := h
  unfold IndexMap.keys at *
  have hquota := same_enforceTotalQuota hroomy
  unfold flushLive
  split
  · rename_i heq
    rw [heq] at hok
    cases hok
  · rename_i heq
    rw [heq] at hquota
    rw [heq]
    exact hquota

theorem Alike.flushEach (h : Alike terminalId full spare) (hfull : full.Settles gzip now)
    (hspare : spare.Settles gzip now) : Alike terminalId (full.flushEach gzip now full.slots.keys).2
      (spare.flushEach gzip now spare.slots.keys).2 := by
  obtain ⟨hacc, hpend⟩ := @flushEach_frame gzip now full full.slots.keys
  obtain ⟨hacc', hpend'⟩ := @flushEach_frame gzip now spare spare.slots.keys
  refine ⟨fun other hother => ?_, fun other hother => ?_, ?_⟩
  · rw [hfull.slot, hspare.slot, h.slot other hother]
  · unfold HistoryShared.accepted
    rw [hacc, hacc']
    exact h.accepted other hother
  · rw [hpend, hpend', h.pendingCloses]

theorem Alike.flushLive (h : Alike terminalId full spare) (hfull : full.Settles gzip now)
    (hspare : spare.Settles gzip now) :
    Alike terminalId (full.flushLive gzip now).2 (spare.flushLive gzip now).2 :=
  (h.flushEach hfull hspare).same hfull.same hspare.same

end Alike

end HistoryShared

/-! ## Two runs -/

def HistoryCall.addresses (terminalId : String) : HistoryCall → Bool
  | query _ target _ => target = terminalId
  | flushAll _ => false

def IngestCommand.addresses (terminalId : String) : IngestCommand → Bool
  | append target _ => target = terminalId
  | snapshot call | barrier call => call.addresses terminalId

def HistoryAction.addresses (terminalId : String) : HistoryAction → Bool
  | append target _ | closeTerminal target => target = terminalId
  | call asked | finish asked => asked.addresses terminalId
  | drain | receive => false

/-- The action is of a caller of the terminal, or the owner carries out what
such a caller sent. -/
def TerminalHistoryArchive.serves (archive : TerminalHistoryArchive) (terminalId : String) :
    HistoryAction → Bool
  | .receive => archive.ingest.head?.any fun command => command.addresses terminalId
  | action => action.addresses terminalId

/-- The archives with and without the operations of a terminal. -/
structure Twin where
  full : TerminalHistoryArchive
  spare : TerminalHistoryArchive

def twinSystem (gzip : Gzip) (limits : Limits) (terminalId : String) :
    System Twin (Nat × HistoryAction) where
  initial twin := (archiveSystem gzip limits).initial twin.full ∧ twin.spare = twin.full
  step twin action := do
    let full ← archiveStep gzip limits twin.full action.1 action.2
    if twin.full.serves terminalId action.2 then some ⟨full, twin.spare⟩
    else
      let spare ← archiveStep gzip limits twin.spare action.1 action.2
      some ⟨full, spare⟩

namespace Twin

def Agrees (terminalId : String) (twin : Twin) : Prop :=
  twin.spare.answers = twin.full.answers.filter fun answer => !answer.1.addresses terminalId

/-- What is kept, and what is on its way, is the same for the other terminals. -/
structure Alike (terminalId : String) (twin : Twin) : Prop where
  shared : twin.full.shared.Alike terminalId twin.spare.shared
  ingest : twin.spare.ingest =
    twin.full.ingest.filter fun command => !command.addresses terminalId
  finalize : twin.spare.finalize = twin.full.finalize.filter fun entry => entry.1 ≠ terminalId
  closes : twin.spare.closes = twin.full.closes.filter fun entry => entry.1 ≠ terminalId
  replies : twin.spare.replies =
    twin.full.replies.filter fun reply => !reply.1.addresses terminalId
  answers : twin.Agrees terminalId
  barriers : ∀ call, .barrier call ∈ twin.full.ingest → call.addresses terminalId = false

def Settling (gzip : Gzip) (twin : Twin) (action : Nat × HistoryAction) : Prop :=
  match action.2 with
  | .receive => ∀ call rest, twin.full.ingest = .barrier call :: rest →
      (twin.full.drain gzip action.1).shared.Settles gzip action.1 ∧
        (twin.spare.drain gzip action.1).shared.Settles gzip action.1
  | .finish (.flushAll _) => twin.full.shared.Settles gzip action.1 ∧
      twin.spare.shared.Settles gzip action.1
  | _ => True

/-- When the owner answers a call of another terminal, or of all, the errors on
record are those that would be on record anyway; and another terminal's close
finds room if it would find room anyway. -/
def Unleaked (gzip : Gzip) (terminalId : String) (twin : Twin) (action : Nat × HistoryAction) :
    Prop :=
  match action.2 with
  | .closeTerminal other => other ≠ terminalId →
      (twin.full.finalize.length < finalizeMaxMessages ↔
        twin.spare.finalize.length < finalizeMaxMessages)
  | .receive =>
    match twin.full.ingest.head? with
    | some (.snapshot call) => call.addresses terminalId = false →
        twin.full.shared.backgroundErrors = twin.spare.shared.backgroundErrors
    | some (.barrier call) => call.addresses terminalId = false →
        (twin.full.settleAll gzip action.1).shared.backgroundErrors =
          (twin.spare.settleAll gzip action.1).shared.backgroundErrors
    | _ => True
  | _ => True

end Twin

section Lists

variable {α : Type} {p q : α → Bool}

theorem filter_eraseP_of_not (h : ∀ a, p a = true → q a = false) (l : List α) :
    (l.eraseP p).filter q = l.filter q := by
  induction l with
  | nil => rfl
  | cons a l ih =>
    by_cases hp : p a = true
    · rw [eraseP_cons_of_pos hp, filter_cons_of_neg (by simp [h a hp])]
    · rw [eraseP_cons_of_neg hp, filter_cons, filter_cons, ih]

theorem filter_eraseP_of (h : ∀ a, p a = true → q a = true) (l : List α) :
    (l.eraseP p).filter q = (l.filter q).eraseP p := by
  rw [eraseP_filter]
  have hsame : (fun a => p a && q a) = p := by
    funext a
    cases hp : p a with
    | false => rfl
    | true => rw [h a hp, Bool.and_true]
  rw [hsame]

theorem find?_filter_of (h : ∀ a, p a = true → q a = true) (l : List α) :
    (l.filter q).find? p = l.find? p := by
  rw [find?_filter]
  refine congrArg (fun r => l.find? r) (funext fun a => ?_)
  cases hp : p a with
  | false => simp
  | true => simp [h a hp]

end Lists

section Steps

variable {gzip : Gzip} {limits : Limits} {now : Nat} {terminalId other : String} {twin : Twin}
  {full' : TerminalHistoryArchive} {record : HistoryRecord} {call : HistoryCall}

namespace Twin

theorem Alike.ready (h : twin.Alike terminalId) {bytes : Nat}
    (hready : twin.full.ingestReady bytes = true) : twin.spare.ingestReady bytes = true := by
  unfold TerminalHistoryArchive.ingestReady at *
  rw [Bool.and_eq_true, decide_eq_true_eq, decide_eq_true_eq] at *
  have hfewer : twin.spare.ingest.Sublist twin.full.ingest := h.ingest ▸ filter_sublist
  have hlength := hfewer.length_le
  have hbytes := (hfewer.map IngestCommand.bytes).sum_le_sum fun _ _ => Nat.zero_le _
  omega

theorem Alike.takes (h : twin.Alike terminalId) (hother : other ≠ terminalId) :
    twin.spare.takes other record = twin.full.takes other record := by
  have hcont : twin.spare.shared.pendingCloses.contains other =
      twin.full.shared.pendingCloses.contains other := by
    rw [h.shared.pendingCloses, contains_eq_mem, contains_eq_mem]
    simp [mem_filter, hother]
  unfold TerminalHistoryArchive.takes
  rw [hcont, h.shared.accepted other hother]

variable {command : IngestCommand}

section

variable (h : twin.Alike terminalId)
include h

theorem Alike.send (hcommand : command.addresses terminalId = false)
    (hbarrier : ∀ call, command = .barrier call → call.addresses terminalId = false)
    (hstep : twin.full.send command = some full') :
    ∃ spare', twin.spare.send command = some spare' ∧ (⟨full', spare'⟩ : Twin).Alike terminalId := by
  obtain ⟨hready, hfull⟩ := ite_none_right_eq_some.mp hstep
  cases hfull
  refine ⟨_, if_pos (h.ready hready), { h with ingest := ?_, barriers := ?_ }⟩
  · simp only [filter_append, h.ingest, filter_cons, List.filter_nil, hcommand]
    rfl
  · intro call hmem
    rcases mem_append.mp hmem with hold | hnew
    · exact h.barriers call hold
    · exact hbarrier call (mem_singleton.mp hnew).symm

theorem Alike.sendApart (hcommand : command.addresses terminalId = true)
    (hbarrier : ∀ call, command ≠ .barrier call) (hstep : twin.full.send command = some full') :
    (⟨full', twin.spare⟩ : Twin).Alike terminalId := by
  obtain ⟨-, hfull⟩ := ite_none_right_eq_some.mp hstep
  cases hfull
  refine { h with ingest := ?_, barriers := ?_ }
  · simp only [filter_append, filter_cons, List.filter_nil, hcommand]
    exact h.ingest.trans (append_nil _).symm
  · intro call hmem
    rcases mem_append.mp hmem with hold | hnew
    · exact h.barriers call hold
    · exact absurd (mem_singleton.mp hnew).symm (hbarrier call)

theorem Alike.append (hother : other ≠ terminalId)
    (hstep : twin.full.append other record = some full') :
    ∃ spare', twin.spare.append other record = some spare' ∧
      (⟨full', spare'⟩ : Twin).Alike terminalId := by
  unfold TerminalHistoryArchive.append at hstep ⊢
  rw [h.takes hother]
  split at hstep
  · have hacc : (⟨{ twin.full with shared := twin.full.shared.accept other record.sequence },
        { twin.spare with shared := twin.spare.shared.accept other record.sequence }⟩ : Twin).Alike
          terminalId := { h with shared := h.shared.accept other record.sequence }
    rename_i htakes
    rw [if_pos htakes]
    exact hacc.send (decide_eq_false hother) nofun hstep
  · rename_i htakes
    cases hstep
    rw [if_neg htakes]
    exact ⟨_, rfl, h⟩

theorem Alike.appendApart (hstep : twin.full.append terminalId record = some full') :
    (⟨full', twin.spare⟩ : Twin).Alike terminalId := by
  unfold TerminalHistoryArchive.append at hstep
  split at hstep
  · have hacc : (⟨{ twin.full with
        shared := twin.full.shared.accept terminalId record.sequence }, twin.spare⟩ : Twin).Alike
          terminalId := { h with shared := h.shared.acceptApart record.sequence }
    have htgt : (IngestCommand.append terminalId record).addresses terminalId = true :=
      decide_eq_true rfl
    exact hacc.sendApart htgt (fun _ => nofun) hstep
  · cases hstep
    exact h

theorem Alike.closeTerminal (hother : other ≠ terminalId)
    (hroom : twin.full.finalize.length < finalizeMaxMessages ↔
      twin.spare.finalize.length < finalizeMaxMessages) :
    (⟨twin.full.closeTerminal other, twin.spare.closeTerminal other⟩ : Twin).Alike terminalId := by
  have hnew : twin.spare.newClose other = twin.full.newClose other := by
    unfold TerminalHistoryArchive.newClose
    have hsame : decide (twin.full.finalize.length < finalizeMaxMessages) =
        decide (twin.spare.finalize.length < finalizeMaxMessages) := decide_eq_decide.mpr hroom
    rw [hsame, h.shared.pendingCloses, contains_eq_mem, contains_eq_mem]
    simp [mem_filter, hother]
  unfold TerminalHistoryArchive.closeTerminal
  rw [hnew]
  split
  · refine { h with shared := ⟨h.shared.slot, h.shared.accepted, ?_⟩, finalize := ?_ }
    · simp [h.shared.pendingCloses, hother]
    · simp [h.finalize, h.shared.accepted other hother, hother]
  · exact h

theorem Alike.closeApart :
    (⟨twin.full.closeTerminal terminalId, twin.spare⟩ : Twin).Alike terminalId := by
  unfold TerminalHistoryArchive.closeTerminal
  split
  · refine { h with shared := ⟨h.shared.slot, h.shared.accepted, ?_⟩, finalize := ?_ }
    · simp [h.shared.pendingCloses]
    · simp [h.finalize]
  · exact h

end

theorem Alike.drain (h : twin.Alike terminalId) (now : Nat) :
    (⟨twin.full.drain gzip now, twin.spare.drain gzip now⟩ : Twin).Alike terminalId := by
  obtain ⟨halike, hwaiting⟩ := @HistoryShared.Alike.finalizeReady gzip now _ _ _ h.shared
    (twin.full.closes ++ twin.full.finalize)
  rw [filter_append, ← h.closes, ← h.finalize] at halike hwaiting
  unfold TerminalHistoryArchive.drain
  exact { h with shared := halike, finalize := rfl, closes := hwaiting }

theorem Alike.reply (h : twin.Alike terminalId) (hcall : call.addresses terminalId = false)
    (herrors : twin.full.shared.backgroundErrors = twin.spare.shared.backgroundErrors) :
    (⟨twin.full.reply call, twin.spare.reply call⟩ : Twin).Alike terminalId := by
  have hres : twin.spare.shared.takeErrors.1 = twin.full.shared.takeErrors.1 := by
    unfold HistoryShared.takeErrors
    rw [herrors]
  unfold TerminalHistoryArchive.reply
  refine { h with shared := ?_, replies := ?_ }
  · exact h.shared.frame (fun _ => rfl) (fun _ => rfl) rfl (fun _ => rfl) (fun _ => rfl) rfl
  · simp only [filter_append, h.replies, filter_cons, List.filter_nil, hcall, hres]
    rfl

theorem Alike.replyApart (h : twin.Alike terminalId) (hcall : call.addresses terminalId = true) :
    (⟨twin.full.reply call, twin.spare⟩ : Twin).Alike terminalId := by
  unfold TerminalHistoryArchive.reply
  refine { h with shared := ?_, replies := ?_ }
  · exact h.shared.frame (fun _ => rfl) (fun _ => rfl) rfl (fun _ => rfl) (fun _ => rfl) rfl
  · simp only [filter_append, filter_cons, List.filter_nil, hcall]
    exact h.replies.trans (append_nil _).symm

theorem settled_same {shared : HistoryShared} (h : shared.Settles gzip now)
    (flushed enforced : Except HistoryError Unit) : HistoryShared.Same (shared.flushLive gzip now).2
      ((((shared.flushLive gzip now).2.recordResult flushed).enforceTotalQuota.2).recordResult
        enforced) := by
  have hrecorded := HistoryShared.same_recordResult (shared.flushLive gzip now).2 flushed
  refine (hrecorded.trans (HistoryShared.same_enforceTotalQuota ?_)).trans
    (HistoryShared.same_recordResult _ _)
  rw [HistoryShared.enforceTotalQuota_slots (hrecorded.slots.trans h.same.slots), h.2,
    hrecorded.slots, h.same.slots]

section

variable (h : twin.Alike terminalId)
include h

theorem Alike.settleAll (hfull : (twin.full.drain gzip now).shared.Settles gzip now)
    (hspare : (twin.spare.drain gzip now).shared.Settles gzip now) :
    (⟨twin.full.settleAll gzip now, twin.spare.settleAll gzip now⟩ : Twin).Alike terminalId := by
  have hdrained := @Alike.drain gzip _ _ h now
  have hflushed := hdrained.shared.flushLive hfull hspare
  exact { hdrained with
    shared := hflushed.same (settled_same hfull _ _) (settled_same hspare _ _) }

/-- A caller that goes on goes on in both runs. -/
theorem Alike.finish (hcall : call.addresses terminalId = false)
    (hsettles : ∀ ticket, call = .flushAll ticket →
      twin.full.shared.Settles gzip now ∧ twin.spare.shared.Settles gzip now)
    (hstep : twin.full.finish gzip limits now call = some full') :
    ∃ spare', twin.spare.finish gzip limits now call = some spare' ∧
      (⟨full', spare'⟩ : Twin).Alike terminalId := by
  have hkept : ∀ reply : HistoryCall × Except String Unit, (reply.1 == call) = true →
      (!reply.1.addresses terminalId) = true := by
    intro reply hreply
    rw [beq_iff_eq.mp hreply, hcall]
    rfl
  have hreplies : twin.spare.replies.eraseP (fun reply => reply.1 == call) =
      (twin.full.replies.eraseP fun reply => reply.1 == call).filter
        fun reply => !reply.1.addresses terminalId := by
    rw [h.replies, filter_eraseP_of hkept]
  have hanswers : ∀ answer, twin.spare.answers ++ [(call, answer)] =
      (twin.full.answers ++ [(call, answer)]).filter fun answer =>
        !answer.1.addresses terminalId := by
    intro answer
    rw [filter_append, ← h.answers, filter_cons_of_pos (by rw [hcall]; rfl)]
    rfl
  unfold TerminalHistoryArchive.finish at hstep ⊢
  rw [h.replies, find?_filter_of hkept, ← h.replies]
  cases hfind : twin.full.replies.find? fun reply => reply.1 == call with
  | none =>
    rw [hfind] at hstep
    cases hstep
  | some reply =>
    obtain ⟨asked, result⟩ := reply
    rw [hfind] at hstep
    dsimp only at hstep ⊢
    cases call with
    | query ticket target query =>
      have htgt : target ≠ terminalId := of_decide_eq_false hcall
      cases result with
      | error message =>
        cases hstep
        exact ⟨_, rfl, { h with replies := hreplies, answers := hanswers _ }⟩
      | ok done =>
        cases hstep
        obtain ⟨hanswer, hshared⟩ := @HistoryShared.Alike.read gzip limits now _ _ _ _
          h.shared htgt query
        refine ⟨_, rfl, { h with shared := hshared, replies := hreplies, answers := ?_ }⟩
        show _ ++ [(_, _)] = _
        rw [hanswer]
        exact hanswers _
    | flushAll ticket =>
      obtain ⟨hfull, hspare⟩ := hsettles ticket rfl
      cases result with
      | error message =>
        cases hstep
        exact ⟨_, rfl, { h with replies := hreplies }⟩
      | ok done =>
        cases hstep
        exact ⟨_, rfl, { h with
          shared := h.shared.flushLive hfull hspare
          replies := hreplies }⟩

theorem Alike.finishApart (hcall : call.addresses terminalId = true)
    (hstep : twin.full.finish gzip limits now call = some full') :
    (⟨full', twin.spare⟩ : Twin).Alike terminalId := by
  have hreplies : twin.spare.replies =
      (twin.full.replies.eraseP fun reply => reply.1 == call).filter
        fun reply => !reply.1.addresses terminalId := by
    rw [h.replies, filter_eraseP_of_not]
    intro reply hreply
    rw [beq_iff_eq.mp hreply, hcall]
    rfl
  have hanswers : ∀ answer, twin.spare.answers =
      (twin.full.answers ++ [(call, answer)]).filter fun answer =>
        !answer.1.addresses terminalId := by
    intro answer
    rw [filter_append, ← h.answers, filter_cons_of_neg (by rw [hcall]; simp)]
    exact (append_nil _).symm
  unfold TerminalHistoryArchive.finish at hstep
  split at hstep
  · cases hstep
  dsimp only at hstep
  cases call with
  | flushAll ticket => cases hcall
  | query ticket target query =>
    obtain rfl : target = terminalId := of_decide_eq_true hcall
    split at hstep
    · rename_i heq _
      cases heq
      cases hstep
      exact { h with replies := hreplies, answers := hanswers _ }
    · rename_i heq _
      cases heq
      cases hstep
      exact { h with
        shared := h.shared.readApart query
        replies := hreplies
        answers := hanswers _ }
    · rename_i heq _
      cases heq
    · rename_i heq _
      cases heq

theorem Alike.rest {rest : List IngestCommand} (hingest : twin.full.ingest = command :: rest) :
    (command.addresses terminalId = true →
      (⟨{ twin.full with ingest := rest }, twin.spare⟩ : Twin).Alike terminalId) ∧
    (command.addresses terminalId = false → ∃ others, twin.spare.ingest = command :: others ∧
      (⟨{ twin.full with ingest := rest }, { twin.spare with ingest := others }⟩ : Twin).Alike
        terminalId) := by
  have hbarriers : ∀ call, .barrier call ∈ rest → call.addresses terminalId = false :=
    fun call hmem => h.barriers call (hingest ▸ mem_cons_of_mem _ hmem)
  have hspare := h.ingest
  rw [hingest] at hspare
  constructor
  · intro hcommand
    rw [filter_cons_of_neg (by rw [hcommand]; simp)] at hspare
    exact { h with ingest := hspare, barriers := hbarriers }
  · intro hcommand
    rw [filter_cons_of_pos (by rw [hcommand]; rfl)] at hspare
    exact ⟨_, hspare, { h with ingest := rfl, barriers := hbarriers }⟩

theorem Alike.handle (hcommand : command.addresses terminalId = false)
    (hsettles : ∀ call, command = .barrier call →
      (twin.full.drain gzip now).shared.Settles gzip now ∧
        (twin.spare.drain gzip now).shared.Settles gzip now)
    (herrors : match command with
      | .append _ _ => True
      | .snapshot _ => twin.full.shared.backgroundErrors = twin.spare.shared.backgroundErrors
      | .barrier _ => (twin.full.settleAll gzip now).shared.backgroundErrors =
          (twin.spare.settleAll gzip now).shared.backgroundErrors) :
    (⟨twin.full.handle gzip limits now command,
      twin.spare.handle gzip limits now command⟩ : Twin).Alike terminalId := by
  cases command with
  | append target record =>
    have htgt : target ≠ terminalId := of_decide_eq_false hcommand
    exact { h with shared := h.shared.appendOwned htgt record }
  | snapshot call => exact h.reply hcommand herrors
  | barrier call =>
    obtain ⟨hfull, hspare⟩ := hsettles call rfl
    exact (h.settleAll hfull hspare).reply hcommand herrors

theorem Alike.handleApart (hcommand : command.addresses terminalId = true)
    (hbarrier : ∀ call, command ≠ .barrier call) :
    (⟨twin.full.handle gzip limits now command, twin.spare⟩ : Twin).Alike terminalId := by
  cases command with
  | append target record =>
    obtain rfl : target = terminalId := of_decide_eq_true hcommand
    exact { h with shared := h.shared.appendApart record }
  | snapshot call => exact h.replyApart hcommand
  | barrier call => exact absurd rfl (hbarrier call)

/-- A step of the full run is one of the other run, or is not seen there. -/
theorem Alike.step {action : HistoryAction}
    (hsettling : twin.Settling gzip (now, action))
    (hunleaked : twin.Unleaked gzip terminalId (now, action))
    (hstep : archiveStep gzip limits twin.full now action = some full') :
    (twin.full.serves terminalId action = true →
      (⟨full', twin.spare⟩ : Twin).Alike terminalId) ∧
    (twin.full.serves terminalId action = false →
      ∃ spare', archiveStep gzip limits twin.spare now action = some spare' ∧
        (⟨full', spare'⟩ : Twin).Alike terminalId) := by
  cases action with
  | append target record =>
    constructor
    · intro hserves
      obtain rfl : target = terminalId := of_decide_eq_true hserves
      exact h.appendApart hstep
    · exact fun hserves => h.append (of_decide_eq_false hserves) hstep
  | closeTerminal target =>
    cases hstep
    constructor
    · intro hserves
      obtain rfl : target = terminalId := of_decide_eq_true hserves
      exact h.closeApart
    · intro hserves
      have htgt : target ≠ terminalId := of_decide_eq_false hserves
      exact ⟨_, rfl, h.closeTerminal htgt (hunleaked htgt)⟩
  | call call =>
    constructor
    · intro hserves
      cases call with
      | query ticket target query =>
        have hcommand : (IngestCommand.snapshot (.query ticket target query)).addresses
            terminalId = true := hserves
        exact h.sendApart hcommand (fun _ => nofun) hstep
      | flushAll ticket => cases hserves
    · intro hserves
      cases call with
      | query ticket target query => exact h.send hserves nofun hstep
      | flushAll ticket =>
        refine h.send rfl (fun call heq => ?_) hstep
        cases heq
        rfl
  | finish call =>
    constructor
    · exact fun hserves => h.finishApart hserves hstep
    · refine fun hserves => h.finish hserves (fun ticket heq => ?_) hstep
      subst heq
      exact hsettling
  | drain =>
    cases hstep
    exact ⟨nofun, fun _ => ⟨_, rfl, h.drain now⟩⟩
  | receive =>
    unfold archiveStep at hstep ⊢
    cases hingest : twin.full.ingest with
    | nil =>
      rw [hingest] at hstep
      cases hstep
    | cons command rest =>
      rw [hingest] at hstep
      cases hstep
      obtain ⟨hapart, hboth⟩ := h.rest hingest
      have hserves : twin.full.serves terminalId .receive = command.addresses terminalId := by
        unfold TerminalHistoryArchive.serves
        rw [hingest]
        rfl
      rw [hserves]
      constructor
      · intro hcommand
        refine (hapart hcommand).handleApart hcommand fun call heq => ?_
        subst heq
        have hnone := h.barriers call (hingest ▸ mem_cons_self)
        cases hnone.symm.trans hcommand
      · intro hcommand
        obtain ⟨others, hothers, halike⟩ := hboth hcommand
        rw [hothers]
        refine ⟨_, rfl, halike.handle hcommand (fun call heq => ?_) ?_⟩
        · subst heq
          exact hsettling call rest hingest
        · unfold Unleaked at hunleaked
          dsimp only at hunleaked
          rw [hingest] at hunleaked
          cases command with
          | append target record => trivial
          | snapshot | barrier => exact hunleaked hcommand

end

end Twin

end Steps

section Runs

variable {gzip : Gzip} {limits : Limits} {terminalId : String} {twin twin' : Twin}

def Twin.Follows (gzip : Gzip) (limits : Limits) (terminalId : String) (twin : Twin) : Prop :=
  twin.Alike terminalId ∧
    (archiveSystem gzip limits).Run (fun _ action => action.2.addresses terminalId = false)
      twin.spare

theorem serves_addresses {archive : TerminalHistoryArchive} {action : HistoryAction}
    (h : archive.serves terminalId action = false) : action.addresses terminalId = false := by
  cases action <;> first | exact h | rfl

theorem twin_step {action : Nat × HistoryAction} (h : twin.Follows gzip limits terminalId)
    (hsettling : twin.Settling gzip action) (hunleaked : twin.Unleaked gzip terminalId action)
    {full' : TerminalHistoryArchive}
    (hfull : archiveStep gzip limits twin.full action.1 action.2 = some full') :
    ∃ spare', (twinSystem gzip limits terminalId).step twin action = some ⟨full', spare'⟩ ∧
      (⟨full', spare'⟩ : Twin).Follows gzip limits terminalId := by
  obtain ⟨halike, hrun⟩ := h
  obtain ⟨hapart, hboth⟩ := halike.step hsettling hunleaked hfull
  simp only [twinSystem, hfull, bind_eq_bind, bind_some]
  cases hserves : twin.full.serves terminalId action.2 with
  | true => exact ⟨_, rfl, hapart hserves, hrun⟩
  | false =>
    obtain ⟨spare', hspare, halike'⟩ := hboth hserves
    refine ⟨spare', ?_, halike', hrun.next (serves_addresses hserves) hspare⟩
    rw [hspare]
    rfl

/-- Without the operations of a terminal the others read the same: in every run
in which only what would be on record anyway is on record when another's call is
answered, the run without those operations can follow step by step, and answers
the same. -/
theorem reads_isolated (hrun : (twinSystem gzip limits terminalId).Run
      (fun twin action => twin.Settling gzip action ∧ twin.Unleaked gzip terminalId action) twin) :
    twin.Agrees terminalId ∧
    (archiveSystem gzip limits).Run (fun _ action => action.2.addresses terminalId = false)
      twin.spare ∧
    ∀ action full', twin.Settling gzip action → twin.Unleaked gzip terminalId action →
      archiveStep gzip limits twin.full action.1 action.2 = some full' →
      ∃ spare', (twinSystem gzip limits terminalId).step twin action = some ⟨full', spare'⟩ := by
  have hfoll : twin.Follows gzip limits terminalId := by
    apply hrun.invariant
    · rintro twin ⟨hinitial, hsame⟩
      refine ⟨?_, .start (hsame ▸ hinitial)⟩
      obtain ⟨slots, -, hopened⟩ := hinitial
      obtain ⟨full, spare⟩ := twin
      obtain rfl : spare = full := hsame
      obtain rfl : spare = .opened slots := hopened
      exact ⟨⟨fun _ _ => rfl, fun _ _ => rfl, rfl⟩, rfl, rfl, rfl, rfl, rfl, nofun⟩
    · intro twin action twin' h hallow hstep
      obtain ⟨full', hfull, -⟩ := bind_eq_some_iff.mp hstep
      obtain ⟨spare', hspare, hfoll⟩ := twin_step h hallow.1 hallow.2 hfull
      rw [hspare] at hstep
      cases hstep
      exact hfoll
  refine ⟨hfoll.1.answers, hfoll.2, fun action full' hsettling hunleaked hfull => ?_⟩
  obtain ⟨spare', hspare, -⟩ := twin_step hfoll hsettling hunleaked hfull
  exact ⟨spare', hspare⟩

end Runs

section Sample

def corruptSlots : IndexMap String Slot :=
  IndexMap.empty.insert "a" ⟨some ⟨some (.corrupt "EOF"), none, none, .empty⟩, none⟩

def sampleTwin : Twin := ⟨.opened corruptSlots, .opened corruptSlots⟩

theorem sampleTwin_initial : (twinSystem plainGzip ⟨4, 4⟩ "a").initial sampleTwin := by
  refine ⟨⟨corruptSlots, fun terminalId slot hslot => ?_, rfl⟩, rfl⟩
  unfold corruptSlots at hslot
  rw [IndexMap.get?_insert] at hslot
  split at hslot
  · cases hslot
    rfl
  · cases hslot

/-- An append to the archive that does not open, one to another, and a read of
the other. -/
def readAfterFailure : List (Nat × HistoryAction) :=
  [(0, .append "a" ⟨1, [65]⟩), (0, .receive), (0, .append "b" ⟨1, [66]⟩), (0, .receive),
    (0, .call (.query 0 "b" .inspect)), (0, .receive), (0, .finish (.query 0 "b" .inspect))]

def readBetween : List (Nat × HistoryAction) :=
  [(0, .append "a" ⟨1, [65]⟩), (0, .receive), (0, .append "b" ⟨1, [66]⟩), (0, .receive),
    (0, .call (.query 1 "a" .inspect)), (0, .receive),
    (0, .call (.query 0 "b" .inspect)), (0, .receive), (0, .finish (.query 0 "b" .inspect))]

def HistoryAnswer.isMetadata : HistoryAnswer → Bool
  | .metadata (.ok (some _)) => true
  | _ => false

def plainCheck (twin : Twin) (action : Nat × HistoryAction) : Bool :=
  match action.2, twin.full.ingest with
  | .receive, .barrier _ :: _ => false
  | .append _ _, _ | .call _, _ | .receive, _ | .finish (.query _ _ _), _ => true
  | _, _ => false

def evenCheck (twin : Twin) (action : Nat × HistoryAction) : Bool :=
  plainCheck twin action && match action.2, twin.full.ingest with
    | .receive, .snapshot call :: _ => call.addresses "a" ||
        decide (twin.full.shared.backgroundErrors = twin.spare.shared.backgroundErrors)
    | _, _ => true

theorem plainCheck_settling {twin : Twin} {action : Nat × HistoryAction}
    (h : plainCheck twin action = true) : twin.Settling plainGzip action := by
  obtain ⟨now, action⟩ := action
  cases action with
  | receive =>
    intro call rest hingest
    unfold plainCheck at h
    rw [hingest] at h
    cases h
  | finish call =>
    cases call with
    | query ticket terminalId query => trivial
    | flushAll ticket => cases h
  | _ => trivial

theorem evenCheck_unleaked {twin : Twin} {action : Nat × HistoryAction}
    (h : evenCheck twin action = true) : twin.Unleaked plainGzip "a" action := by
  obtain ⟨hplain, heven⟩ := Bool.and_eq_true_iff.mp h
  obtain ⟨now, action⟩ := action
  cases action with
  | closeTerminal terminalId => cases hplain
  | receive =>
    unfold Twin.Unleaked
    dsimp only at heven ⊢
    unfold plainCheck at hplain
    cases hingest : twin.full.ingest with
    | nil => trivial
    | cons command rest =>
      rw [hingest] at heven hplain
      cases command with
      | append terminalId record => trivial
      | snapshot call =>
        intro hcall
        rcases Bool.or_eq_true_iff.mp heven with hown | hsame
        · cases hcall.symm.trans hown
        · exact of_decide_eq_true hsame
      | barrier call => cases hplain
  | _ => trivial

theorem reads_isolated_sample : ∃ twin,
    (twinSystem plainGzip ⟨4, 4⟩ "a").Run
      (fun twin action => twin.Settling plainGzip action ∧ twin.Unleaked plainGzip "a" action)
      twin ∧ twin.full.answers.length = 1 ∧ twin.Agrees "a" := by
  have hany : ((twinSystem plainGzip ⟨4, 4⟩ "a").replay evenCheck sampleTwin readBetween).any
      (fun twin => twin.full.answers.length == 1) = true := by decide
  obtain ⟨twin, htwin, hlength⟩ := (Option.any_eq_true _ _).mp hany
  have hrun := System.replay_run (System.Run.start sampleTwin_initial)
    (fun twin action _ hcheck => And.intro
      (plainCheck_settling (Bool.and_eq_true_iff.mp hcheck).1) (evenCheck_unleaked hcheck)) htwin
  exact ⟨twin, hrun, beq_iff_eq.mp hlength, (reads_isolated hrun).1⟩

/-- The error of one terminal is what the caller of another gets. -/
theorem reads_leak : ¬ ∀ twin, (twinSystem plainGzip ⟨4, 4⟩ "a").Run
    (fun twin action => twin.Settling plainGzip action) twin → twin.Agrees "a" := by
  intro hall
  have hany : ((twinSystem plainGzip ⟨4, 4⟩ "a").replay plainCheck sampleTwin
      readAfterFailure).any (fun twin => twin.spare.answers.any (fun answer =>
        answer.2.isMetadata) && !twin.full.answers.any fun answer => answer.2.isMetadata) =
      true := by decide
  obtain ⟨twin, htwin, hanswers⟩ := (Option.any_eq_true _ _).mp hany
  have hrun := System.replay_run (System.Run.start sampleTwin_initial)
    (fun twin action _ hcheck => plainCheck_settling hcheck) htwin
  obtain ⟨hspare, hfull⟩ := Bool.and_eq_true_iff.mp hanswers
  rw [hall twin hrun] at hspare
  obtain ⟨answer, hmem, hread⟩ := List.any_eq_true.mp hspare
  have hmany : (twin.full.answers.any fun answer => answer.2.isMetadata) = true :=
    List.any_eq_true.mpr ⟨answer, mem_of_mem_filter hmem, hread⟩
  rw [hmany] at hfull
  cases hfull

end Sample

end Yaade.History

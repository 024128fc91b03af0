import Yaade.Workers.Presentation

/-!
The slots of a worker that are in flight.
-/

namespace Yaade.Workers

open Yaade.Library Yaade.Render Option List

/-- Each lease is that of a slot in flight, and no slot is leased twice. -/
structure Leased (slots : List BuilderSlot) (leases : List (Nat × Nat)) : Prop where
  flight : ∀ lease ∈ leases, slots[lease.1]? = some ⟨true, lease.2⟩
  distinct : (leases.map Prod.fst).Nodup

theorem takeSlot_free {slots : List BuilderSlot} {taken : Nat × Nat × List BuilderSlot}
    (h : takeSlot slots = some taken) :
    (∃ slot, slots[taken.1]? = some slot ∧ slot.inFlight = false) ∧
      taken.2.2 = slots.set taken.1 ⟨true, taken.2.1⟩ := by
  induction slots generalizing taken with
  | nil => cases h
  | cons first rest ih =>
    rw [takeSlot] at h
    split at h
    · obtain ⟨later, hlater, rfl⟩ := map_eq_some_iff.mp h
      obtain ⟨hfree, hslots⟩ := ih hlater
      exact ⟨hfree, congrArg (first :: ·) hslots⟩
    · rename_i hfirst
      cases h
      exact ⟨⟨first, rfl, Bool.eq_false_iff.mpr hfirst⟩, rfl⟩

namespace Leased

variable {slots : List BuilderSlot} {leases more : List (Nat × Nat)}

theorem take (h : Leased slots leases) {taken : Nat × Nat × List BuilderSlot}
    (htake : takeSlot slots = some taken) : Leased taken.2.2 ((taken.1, taken.2.1) :: leases) := by
  obtain ⟨⟨slot, hget, hfree⟩, hslots⟩ := takeSlot_free htake
  have hother : ∀ lease ∈ leases, lease.1 ≠ taken.1 := by
    intro lease hmem hsame
    have hflight := h.flight lease hmem
    rw [hsame, hget] at hflight
    cases hflight
    cases hfree
  refine ⟨fun lease hmem => ?_, ?_⟩
  · rw [hslots]
    rcases mem_cons.mp hmem with rfl | hold
    · obtain ⟨hbound, -⟩ := List.getElem?_eq_some_iff.mp hget
      rw [getElem?_set_self hbound]
    · rw [getElem?_set_ne (hother lease hold).symm]
      exact h.flight lease hold
  · rw [map_cons, nodup_cons]
    refine ⟨fun hmem => ?_, h.distinct⟩
    obtain ⟨lease, hlease, hsame⟩ := List.mem_map.mp hmem
    exact hother lease hlease hsame

theorem perm (h : Leased slots leases) (hperm : leases.Perm more) : Leased slots more :=
  ⟨fun lease hmem => h.flight lease (hperm.mem_iff.mpr hmem),
    (hperm.map Prod.fst).nodup_iff.mp h.distinct⟩

theorem reclaim {lease : Nat × Nat} (h : Leased slots (lease :: leases)) (slot : BuilderSlot) :
    Leased (slots.set lease.1 slot) leases := by
  obtain ⟨hnew, hdist⟩ := nodup_cons.mp h.distinct
  refine ⟨fun other hmem => ?_, hdist⟩
  have hne : lease.1 ≠ other.1 := fun hsame => hnew (hsame ▸ List.mem_map_of_mem hmem)
  rw [getElem?_set_ne hne]
  exact h.flight other (mem_cons_of_mem _ hmem)

theorem length_le (h : Leased slots leases) : leases.length ≤ slots.length := by
  have hbound : leases.map Prod.fst ⊆ List.range slots.length := by
    intro index hmem
    obtain ⟨lease, hlease, rfl⟩ := List.mem_map.mp hmem
    obtain ⟨hlt, -⟩ := List.getElem?_eq_some_iff.mp (h.flight lease hlease)
    exact mem_range.mpr hlt
  have hle := (subperm_of_subset h.distinct hbound).length_le
  rwa [length_map, length_range] at hle

end Leased

/-! ## What a step posts -/

section Steps

variable {lib : Libghostty} {worker worker' : TerminalWorker lib}

def PackedUpdate.held (message : PackedUpdate) : Nat × Nat :=
  (message.lease.slotId, message.lease.leaseToken)

def Emits (worker worker' : TerminalWorker lib) : Prop :=
  worker'.core.slots = worker.core.slots ∧ worker'.posted = worker.posted ∨
    ∃ message taken, takeSlot worker.core.slots = some taken ∧ worker'.core.slots = taken.2.2 ∧
      worker'.posted = worker.posted ++ [message] ∧ message.held = (taken.1, taken.2.1)

theorem emitUpdate_emits {command : Nat} {forceFull : Bool}
    (hemit : worker.emitUpdate command forceFull = some worker') : Emits worker worker' := by
  obtain ⟨built, hbuilt, rfl⟩ := map_eq_some_iff.mp hemit
  obtain ⟨taken, htaken, rfl⟩ := map_eq_some_iff.mp hbuilt
  exact .inr ⟨_, taken, htaken, rfl, rfl, rfl⟩

section

variable (worker : TerminalWorker lib)

theorem emitOrSchedule_emits (command : Nat) (forceFull : Bool) :
    Emits worker (worker.emitOrSchedule command forceFull) := by
  unfold TerminalWorker.emitOrSchedule
  cases hemit : worker.emitUpdate command forceFull with
  | none => exact .inl ⟨rfl, rfl⟩
  | some next => exact emitUpdate_emits hemit

theorem requestPresentation_emits (command : Nat) (forceFull : Bool) :
    Emits worker (worker.requestPresentation command forceFull) := by
  unfold TerminalWorker.requestPresentation
  split
  · dsimp only
    split
    · exact .inl ⟨rfl, rfl⟩
    · split <;> exact .inl ⟨rfl, rfl⟩
  · split
    · dsimp only
      split <;> exact .inl ⟨rfl, rfl⟩
    split
    · exact emitOrSchedule_emits _ _ _
    · exact emitOrSchedule_emits _ _ _

theorem synchronizedTimeout_emits (command : Nat) :
    Emits worker (worker.synchronizedTimeout command) := by
  unfold TerminalWorker.synchronizedTimeout
  split
  · exact .inl ⟨rfl, rfl⟩
  split
  · exact .inl ⟨rfl, rfl⟩
  · exact emitOrSchedule_emits _ _ _

theorem updateTimeout_emits (pending : PendingUpdate) :
    Emits worker (worker.updateTimeout pending) := by
  unfold TerminalWorker.updateTimeout
  dsimp only
  split
  · exact .inl ⟨rfl, rfl⟩
  cases hemit : worker.cancelPendingUpdate.emitUpdate pending.command pending.forceFull with
  | none => exact .inl ⟨rfl, rfl⟩
  | some next => exact @emitUpdate_emits lib worker.cancelPendingUpdate _ _ _ hemit

theorem process_emits {command : TerminalWorkerCommand lib}
    (hown : command.payload.recycled = none) : Emits worker (worker.process command) := by
  obtain ⟨sequence, payload⟩ := command
  cases payload with
  | write input => exact requestPresentation_emits (worker.feed input) _ _
  | resetAndWriteBytes data => exact requestPresentation_emits { worker with core := _ } _ _
  | resize input | setTheme input =>
    exact requestPresentation_emits (worker.cancelPendingUpdate.feed input) _ _
  | setPresentationState visible focused =>
    unfold TerminalWorker.process
    dsimp only
    split
    · exact .inl ⟨rfl, rfl⟩
    split
    · exact .inl ⟨rfl, rfl⟩
    split
    · exact requestPresentation_emits { worker with visible := visible, focused := focused } _ _
    · exact .inl ⟨rfl, rfl⟩
  | requestFullFrame => exact requestPresentation_emits { worker with notes := _ } _ _
  | recycleRenderUpdate slotId leaseToken => cases hown

end

theorem create_emits (terminal : lib.Terminal) (visible focused : Bool) :
    Emits (⟨.create terminal, visible, focused, .inactive, none, !visible,
      if visible then none else some 1, none, [], []⟩ : TerminalWorker lib)
      (.create terminal visible focused) := by
  unfold TerminalWorker.create
  dsimp only
  split
  · exact emitOrSchedule_emits _ _ _
  · exact .inl ⟨rfl, rfl⟩

/-! ## Updates on the way -/

variable {model : GhosttyViewportModel} {others : List (Nat × Nat)}

def TerminalWorker.sent (worker : TerminalWorker lib) : TerminalWorker lib :=
  { worker with posted := [], notes := [] }

/-- A model that shows what the worker has sent; each slot in flight is with one
of the others, and there is nothing to send. -/
structure Abreast (model : GhosttyViewportModel) (others : List (Nat × Nat))
    (worker : TerminalWorker lib) : Prop where
  sound : WorkerSound model others worker
  leased : Leased worker.core.slots others
  slots : worker.core.slots.length = 3
  posted : worker.posted = []
  notes : worker.notes = []

theorem WorkerSound.sent (h : WorkerSound model others worker) :
    ∃ shown, applyAll model worker.posted = some shown ∧
      WorkerSound shown (others ++ worker.posted.map PackedUpdate.held) worker.sent := by
  obtain ⟨⟨⟨shown, happl, hsynced⟩, hleases, hslots, hunarmed⟩, hwaiting, hsync, hfull, -,
    hcur⟩ := h
  refine ⟨shown, happl, ⟨⟨shown, rfl, hsynced⟩, ?_, hslots, hunarmed⟩, hwaiting, hsync, hfull,
    (fun hnotes => absurd hnotes Bool.false_ne_true), ?_⟩
  · intro index slot hget hflight
    rcases hleases index slot hget hflight with hother | ⟨message, hmem, hslot, htoken⟩
    · exact .inl (mem_append_left _ hother)
    refine .inl (mem_append_right _ (List.mem_map.mpr ⟨message, hmem, ?_⟩))
    unfold PackedUpdate.held
    rw [hslot, htoken]
  · intro hvis hoff hnone
    obtain ⟨last, hlast, hsnap⟩ := hcur hvis hoff hnone
    rw [happl] at hlast
    cases hlast
    exact ⟨shown, rfl, hsnap⟩

theorem Abreast.perm {more : List (Nat × Nat)} (h : Abreast model others worker)
    (hperm : others.Perm more) : Abreast model more worker :=
  ⟨h.sound.mono fun _ hmem => hperm.mem_iff.mp hmem, h.leased.perm hperm, h.slots, h.posted, h.notes⟩

theorem Abreast.few {updates : List PackedUpdate}
    (h : Abreast model (updates.map PackedUpdate.held ++ others) worker) : updates.length ≤ 3 := by
  have hle := h.leased.length_le
  rw [length_append, length_map, h.slots] at hle
  omega

theorem Abreast.step (h : Abreast model others worker) (hemits : Emits worker worker')
    (hsound : WorkerSound model others worker') :
    ∃ shown, applyAll model worker'.posted = some shown ∧
      Abreast shown (others ++ worker'.posted.map PackedUpdate.held) worker'.sent := by
  obtain ⟨shown, happl, hsent⟩ := hsound.sent
  refine ⟨shown, happl, hsent, ?_, ?_, rfl, rfl⟩
  · rcases hemits with ⟨hslots, hposted⟩ | ⟨message, taken, htaken, hslots, hposted, hheld⟩
    · rw [hposted, h.posted, map_nil, append_nil]
      exact hslots ▸ h.leased
    rw [hposted, h.posted, nil_append, map_singleton, hheld]
    have hleased : Leased worker'.core.slots ((taken.1, taken.2.1) :: others) :=
      hslots ▸ h.leased.take htaken
    exact hleased.perm (perm_append_singleton _ _).symm
  · rcases hemits with ⟨hslots, -⟩ | ⟨message, taken, htaken, hslots, -, -⟩
    · exact (congrArg List.length hslots).trans h.slots
    · exact (congrArg List.length hslots).trans ((takeSlot_some htaken).1.trans h.slots)

theorem Abreast.process (h : Abreast model others worker) {command : TerminalWorkerCommand lib}
    (hlimit : worker.core.renderUpdateFrameId < maxSafeInteger)
    (hown : command.payload.recycled = none) :
    ∃ shown, applyAll model (worker.process command).posted = some shown ∧
      Abreast shown (others ++ (worker.process command).posted.map PackedUpdate.held)
        (worker.process command).sent := by
  refine h.step (process_emits worker hown) (process_sound h.sound hlimit ?_ hown)
  unfold KeepsFull
  split
  · intro hnotes
    rw [h.notes] at hnotes
    cases hnotes
  · trivial

theorem Abreast.recycle {lease : Nat × Nat} (h : Abreast model (lease :: others) worker)
    (sequence : Nat) : (worker.process ⟨sequence, .recycleRenderUpdate lease.1 lease.2⟩).posted = [] ∧
      Abreast model others
        (worker.process ⟨sequence, .recycleRenderUpdate lease.1 lease.2⟩).sent := by
  have hsound := recycle_sound sequence h.sound
  have hget := h.leased.flight lease mem_cons_self
  have hreclaim : worker.core.reclaimRenderUpdate lease.1 lease.2 =
      some { worker.core with slots := worker.core.slots.set lease.1 ⟨false, lease.2⟩ } := by
    unfold GhosttyTerminalCore.reclaimRenderUpdate
    rw [hget, bind_some, if_pos ⟨rfl, rfl⟩]
  have hprocess : worker.process ⟨sequence, .recycleRenderUpdate lease.1 lease.2⟩ =
      worker.reclaimed { worker.core with
        slots := worker.core.slots.set lease.1 ⟨false, lease.2⟩ } := by
    unfold TerminalWorker.process
    dsimp only
    rw [hreclaim]
  obtain ⟨shown, happl, hsent⟩ := hsound.sent
  rw [hprocess] at happl hsent ⊢
  have hposted : (worker.reclaimed { worker.core with
      slots := worker.core.slots.set lease.1 ⟨false, lease.2⟩ }).posted = [] := h.posted
  rw [hposted] at happl hsent
  cases happl
  rw [map_nil, append_nil] at hsent
  refine ⟨hposted, hsent, ?_, ?_, rfl, rfl⟩
  · exact h.leased.reclaim ⟨false, lease.2⟩
  · exact (length_set ..).trans h.slots

theorem Abreast.updateTimeout (h : Abreast model others worker) {pending : PendingUpdate}
    (hpend : worker.pendingUpdate = some pending)
    (hlimit : worker.core.renderUpdateFrameId < maxSafeInteger) :
    ∃ shown, applyAll model (worker.updateTimeout pending).posted = some shown ∧
      Abreast shown (others ++ (worker.updateTimeout pending).posted.map PackedUpdate.held)
        (worker.updateTimeout pending).sent :=
  h.step (updateTimeout_emits worker pending) (updateTimeout_sound h.sound hpend hlimit)

theorem Abreast.synchronizedTimeout (h : Abreast model others worker) (command : Nat)
    (hlimit : worker.core.renderUpdateFrameId < maxSafeInteger) :
    ∃ shown, applyAll model (worker.synchronizedTimeout command).posted = some shown ∧
      Abreast shown (others ++ (worker.synchronizedTimeout command).posted.map PackedUpdate.held)
        (worker.synchronizedTimeout command).sent :=
  h.step (synchronizedTimeout_emits worker command) (synchronizedTimeout_sound h.sound command hlimit)

theorem abreast_create {terminal : lib.Terminal} (h : lib.Dirtied terminal) (visible focused : Bool) :
    ∃ shown, applyAll .empty (TerminalWorker.create terminal visible focused).posted = some shown ∧
      Abreast shown ((TerminalWorker.create terminal visible focused).posted.map PackedUpdate.held)
        (TerminalWorker.create terminal visible focused).sent := by
  obtain ⟨shown, happl, hsent⟩ := (create_sound h visible focused).sent
  refine ⟨shown, happl, hsent, ?_, ?_, rfl, rfl⟩
  · rcases create_emits terminal visible focused with
      ⟨hslots, hposted⟩ | ⟨message, taken, htaken, hslots, hposted, hheld⟩
    · rw [hposted]
      exact ⟨forall_mem_nil _, nodup_nil⟩
    rw [hposted, nil_append, map_singleton, hheld]
    have hempty : Leased (@GhosttyTerminalCore.create lib terminal).slots [] :=
      ⟨forall_mem_nil _, nodup_nil⟩
    have hleased : Leased (TerminalWorker.create terminal visible focused).core.slots
        [(taken.1, taken.2.1)] := hslots ▸ hempty.take htaken
    exact hleased
  · rcases create_emits terminal visible focused with
      ⟨hslots, -⟩ | ⟨message, taken, htaken, hslots, -, -⟩
    · exact congrArg List.length hslots
    · exact (congrArg List.length hslots).trans (takeSlot_some htaken).1

theorem Abreast.rested {shown : GhosttyViewportModel} (h : Abreast shown [] worker)
    (htimers : ∀ pending, worker.pendingUpdate = some pending → pending.armed = false)
    (hvis : worker.visible = true) (hoff : worker.synchronized = false) :
    shown.snapshot = worker.core.snapshot.1 := by
  have hnone : worker.pendingUpdate = none := by
    rw [eq_none_iff_forall_ne_some]
    intro pending hpend
    have hflight := h.sound.base.unarmed pending hpend (htimers pending hpend)
    obtain ⟨slot, hslot⟩ := exists_mem_of_length_pos h.sound.base.slots
    obtain ⟨index, hget⟩ := mem_iff_getElem?.mp hslot
    rcases h.sound.base.leases index slot hget (hflight slot hslot) with hother | ⟨message, hmem, -⟩
    · cases hother
    · rw [h.posted] at hmem
      cases hmem
  obtain ⟨synced, happl, hsynced⟩ := h.sound.base.synced
  obtain ⟨last, hlast, hsnap⟩ := h.sound.current hvis hoff hnone
  rw [h.posted] at happl hlast
  cases happl
  cases hlast
  rw [hsnap, (snapshot_synced hsynced).1]

end Steps

end Yaade.Workers

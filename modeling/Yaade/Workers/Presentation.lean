import Yaade.Library.Transition
import Yaade.Render.Core

/-!
How a terminal worker presents one terminal.
-/

namespace Yaade.Workers

open Yaade.Library Yaade.Render List Option Bool

inductive SyncState where
  | inactive
  | suppressing
  | timedOut
  deriving DecidableEq

/-- `write` stands for all commands that are presented without force: the
writes but `resetAndWriteBytes`, the selections and the scrolls. -/
inductive TerminalWorkerPayload (lib : Libghostty) where
  | write (input : lib.Input)
  | resetAndWriteBytes (data : lib.Input)
  | resize (size : lib.Input)
  | setTheme (theme : lib.Input)
  | setPresentationState (visible focused : Bool)
  | requestFullFrame
  | recycleRenderUpdate (slotId leaseToken : Nat)

structure TerminalWorkerCommand (lib : Libghostty) where
  sequence : Nat
  payload : TerminalWorkerPayload lib

/-- The event `packedUpdate`. -/
structure PackedUpdate where
  sequence : Nat
  lease : GhosttyRenderUpdateLease
  deriving DecidableEq

/-- An update that waits for a slot; unarmed it waits for buffers to come back. -/
structure PendingUpdate where
  command : Nat
  forceFull : Bool
  armed : Bool
  deriving DecidableEq

/-- What is remembered for the statements only. -/
inductive PresentationNote where
  | requested
  | presented (full : Bool)
  deriving DecidableEq

structure TerminalWorker (lib : Libghostty) where
  core : GhosttyTerminalCore lib
  visible : Bool
  focused : Bool
  sync : SyncState
  syncTimer : Option Nat
  pendingFull : Bool
  pendingCommand : Option Nat
  pendingUpdate : Option PendingUpdate
  posted : List PackedUpdate
  notes : List PresentationNote

namespace TerminalWorker

variable {lib : Libghostty} (worker : TerminalWorker lib)

def synchronized : Bool := lib.synchronizedOutput worker.core.terminal

def cancelPendingUpdate : TerminalWorker lib := { worker with pendingUpdate := none }

def markSuppressed (command : Nat) (forceFull : Bool) : TerminalWorker lib :=
  { worker with
    pendingUpdate := none
    pendingCommand := some command
    pendingFull := worker.pendingFull || forceFull }

def emitUpdate (command : Nat) (forceFull : Bool) : Option (TerminalWorker lib) :=
  (worker.core.tryRenderUpdate forceFull).map fun built =>
    { worker with
      core := built.2
      posted := worker.posted ++ [⟨command, built.1⟩]
      notes := .presented built.1.update.full :: worker.notes }

def scheduleUpdate (command : Nat) (forceFull : Bool) : TerminalWorker lib :=
  { worker with
    pendingUpdate := some ⟨command,
      (worker.pendingUpdate.any PendingUpdate.forceFull) || forceFull, true⟩ }

def emitOrSchedule (command : Nat) (forceFull : Bool) : TerminalWorker lib :=
  (worker.emitUpdate command forceFull).getD (worker.scheduleUpdate command forceFull)

def armSynchronizedTimeout (command : Nat) : TerminalWorker lib :=
  { worker with syncTimer := worker.syncTimer <|> some command }

def requestPresentation (command : Nat) (forceFull : Bool) : TerminalWorker lib :=
  if !worker.visible then
    let suppressed := worker.markSuppressed command true
    if worker.synchronized && worker.sync = .inactive then
      { suppressed with sync := .suppressing }.armSynchronizedTimeout command
    else if !worker.synchronized && worker.sync ≠ .inactive then
      { suppressed with syncTimer := none, sync := .inactive }
    else suppressed
  else if worker.synchronized then
    let armed := if worker.sync = .inactive || worker.sync = .timedOut then
      { worker with sync := .suppressing }.armSynchronizedTimeout command else worker
    armed.markSuppressed command forceFull
  else if worker.sync = .suppressing then
    { worker with
      syncTimer := none, sync := .inactive, pendingCommand := none, pendingFull := false
    }.emitOrSchedule (worker.pendingCommand.getD command) (worker.pendingFull || forceFull)
  else
    { worker with
      sync := if worker.sync = SyncState.timedOut then .inactive else worker.sync
      pendingCommand := none, pendingFull := false
    }.emitOrSchedule command (worker.pendingFull || forceFull)

def synchronizedTimeout (command : Nat) : TerminalWorker lib :=
  if worker.sync ≠ .suppressing then { worker with syncTimer := none }
  else if !worker.visible then
    { worker with syncTimer := none, sync := .timedOut, pendingFull := true }
  else
    { worker with
      syncTimer := none, sync := .timedOut, pendingCommand := none, pendingFull := false
    }.emitOrSchedule (worker.pendingCommand.getD command) worker.pendingFull

def updateTimeout (pending : PendingUpdate) : TerminalWorker lib :=
  let idle := worker.cancelPendingUpdate
  if !worker.visible || worker.sync = .suppressing then
    { idle with
      pendingCommand := some pending.command
      pendingFull := worker.pendingFull || (pending.forceFull || !worker.visible) }
  else (idle.emitUpdate pending.command pending.forceFull).getD
    { worker with pendingUpdate := some { pending with armed := false } }

def feed (input : lib.Input) : TerminalWorker lib := { worker with core := worker.core.feed input }

def reclaimed (core : GhosttyTerminalCore lib) : TerminalWorker lib :=
  { worker with
    core := core
    pendingUpdate := worker.pendingUpdate.map fun pending =>
      if !pending.armed && worker.visible && worker.sync ≠ .suppressing then
        { pending with armed := true } else pending }

def process (command : TerminalWorkerCommand lib) : TerminalWorker lib :=
  match command.payload with
  | .write input => (worker.feed input).requestPresentation command.sequence false
  | .resetAndWriteBytes data =>
    { worker with core := worker.core.resetAndWrite data }.requestPresentation command.sequence true
  | .resize input | .setTheme input =>
    (worker.cancelPendingUpdate.feed input).requestPresentation command.sequence true
  | .setPresentationState visible focused =>
    if worker.visible = visible && worker.focused = focused then worker
    else if !visible then
      { worker with
        visible := visible, focused := focused
        pendingUpdate := none, pendingCommand := some command.sequence, pendingFull := true }
    else
      let shown := { worker with visible := visible, focused := focused }
      if !worker.visible then shown.requestPresentation command.sequence true else shown
  | .requestFullFrame =>
    { worker with
      notes := if worker.visible then .requested :: worker.notes else worker.notes
    }.requestPresentation command.sequence true
  | .recycleRenderUpdate slotId leaseToken =>
    match worker.core.reclaimRenderUpdate slotId leaseToken with
    | some core => worker.reclaimed core
    | none => worker

def create (terminal : lib.Terminal) (visible focused : Bool) : TerminalWorker lib :=
  let worker : TerminalWorker lib :=
    ⟨.create terminal, visible, focused, .inactive, none, !visible, if visible then none else some 1,
      none, [], []⟩
  if visible then worker.emitOrSchedule 1 false else worker

end TerminalWorker

/-! ## The worker and its client -/

/-- The client holds buffers that it has not returned yet. -/
structure PresentationWorld (lib : Libghostty) where
  worker : TerminalWorker lib
  inbox : List (TerminalWorkerCommand lib)
  sequence : Nat
  model : GhosttyViewportModel
  held : List (Nat × Nat)

inductive PresentationAction (lib : Libghostty) where
  | post (payload : TerminalWorkerPayload lib)
  | receive
  | updateTimer
  | syncTimer
  | apply
  | giveBack (lease : Nat × Nat)

def TerminalWorkerPayload.recycled {lib : Libghostty} :
    TerminalWorkerPayload lib → Option (Nat × Nat)
  | .recycleRenderUpdate slotId leaseToken => some (slotId, leaseToken)
  | _ => none

namespace PresentationWorld

variable {lib : Libghostty}

def start (terminal : lib.Terminal) (visible focused : Bool) : PresentationWorld lib :=
  ⟨.create terminal visible focused, [], 1, .empty, []⟩

def send (world : PresentationWorld lib) (payload : TerminalWorkerPayload lib) :
    PresentationWorld lib :=
  { world with
    inbox := world.inbox ++ [⟨world.sequence + 1, payload⟩]
    sequence := world.sequence + 1 }

def applyFirst (world : PresentationWorld lib) : Option (PresentationWorld lib) :=
  match world.worker.posted with
  | [] => none
  | message :: rest => some { world with
      worker := { world.worker with posted := rest }
      model := (world.model.apply message.lease.update).getD world.model
      held := (message.lease.slotId, message.lease.leaseToken) :: world.held }

end PresentationWorld

def presentationSystem (lib : Libghostty) :
    System (PresentationWorld lib) (PresentationAction lib) where
  initial world := ∃ terminal visible focused, lib.Dirtied terminal ∧
    world = .start terminal visible focused
  step world
    | .post payload => if payload.recycled.isNone then some (world.send payload) else none
    | .receive => match world.inbox with
        | [] => none
        | command :: rest =>
          some { world with worker := world.worker.process command, inbox := rest }
    | .updateTimer => (world.worker.pendingUpdate.filter PendingUpdate.armed).map fun pending =>
      { world with worker := world.worker.updateTimeout pending }
    | .syncTimer => world.worker.syncTimer.map fun command =>
      { world with worker := world.worker.synchronizedTimeout command }
    | .apply => world.applyFirst
    | .giveBack lease => if lease ∈ world.held then
        some ({ world with held := world.held.erase lease }.send
          (.recycleRenderUpdate lease.1 lease.2)) else none

/-- Nothing is under way: no message, no timer, no buffers. -/
structure PresentationWorld.Quiescent {lib : Libghostty} (world : PresentationWorld lib) : Prop where
  inbox : world.inbox = []
  posted : world.worker.posted = []
  held : world.held = []
  syncTimer : world.worker.syncTimer = none
  updateTimer : ∀ pending, world.worker.pendingUpdate = some pending → pending.armed = false

def FullFramesFollowed (notes : List PresentationNote) : Prop :=
  ∀ later earlier, notes = later ++ .requested :: earlier → .presented true ∈ later

def owesFull : List PresentationNote → Bool
  | [] => false
  | .requested :: _ => true
  | .presented full :: rest => !full && owesFull rest

theorem owesFull_iff {notes : List PresentationNote} :
    owesFull notes = false ↔ FullFramesFollowed notes := by
  induction notes with
  | nil =>
    refine ⟨fun _ later earlier hnotes => ?_, fun _ => rfl⟩
    exact absurd (congrArg List.length hnotes) (by simp)
  | cons note rest ih =>
    cases note with
    | requested =>
      refine ⟨(nofun), fun hfollowed => ?_⟩
      exact absurd (hfollowed [] rest rfl) not_mem_nil
    | presented full =>
      constructor
      · intro h later earlier hnotes
        cases later with
        | nil => cases hnotes
        | cons first later =>
          rw [cons_append, List.cons.injEq] at hnotes
          obtain ⟨rfl, hrest⟩ := hnotes
          cases full with
          | true => exact mem_cons_self
          | false => exact mem_cons_of_mem _ (ih.mp h later earlier hrest)
      · intro hfollowed
        cases full with
        | true => rfl
        | false =>
          refine ih.mpr fun later earlier hrest => ?_
          have hmem := hfollowed (.presented false :: later) earlier (by rw [hrest]; rfl)
          exact (mem_cons.mp hmem).resolve_left nofun

/-! ## Invariants -/

section Worker

variable {lib : Libghostty} {worker worker' : TerminalWorker lib} {model : GhosttyViewportModel}
  {others : List (Nat × Nat)}

def applyAll (model : GhosttyViewportModel) : List PackedUpdate → Option GhosttyViewportModel
  | [] => some model
  | message :: rest => (model.apply message.lease.update).bind fun shown => applyAll shown rest

theorem applyAll_append (model : GhosttyViewportModel) (posted : List PackedUpdate)
    (message : PackedUpdate) : applyAll model (posted ++ [message]) =
      (applyAll model posted).bind fun shown => shown.apply message.lease.update := by
  induction posted generalizing model with
  | nil =>
    cases hshown : model.apply message.lease.update with
    | none | some => simp [applyAll, hshown]
  | cons first rest ih =>
    rw [cons_append, applyAll, applyAll]
    cases model.apply first.lease.update with
    | none => rfl
    | some shown => exact ih shown

def Presents (model : GhosttyViewportModel) (worker : TerminalWorker lib) : Prop :=
  ∃ shown, applyAll model worker.posted = some shown ∧
    shown.snapshot = lib.picture worker.core.terminal

/-- What every transition of the worker keeps, whatever it presents: the posted
updates will be accepted, each slot in flight is accounted for, and an update
waits for buffers only while no slot is free. -/
structure WorkerBase (model : GhosttyViewportModel) (others : List (Nat × Nat))
    (worker : TerminalWorker lib) : Prop where
  synced : ∃ shown, applyAll model worker.posted = some shown ∧ Synced worker.core shown
  leases : ∀ (index : Nat) slot, worker.core.slots[index]? = some slot → slot.inFlight = true →
    (index, slot.leaseToken) ∈ others ∨ ∃ message ∈ worker.posted,
      message.lease.slotId = index ∧ message.lease.leaseToken = slot.leaseToken
  slots : 0 < worker.core.slots.length
  unarmed : ∀ pending, worker.pendingUpdate = some pending → pending.armed = false →
    ∀ slot ∈ worker.core.slots, slot.inFlight = true

def Remembered (worker : TerminalWorker lib) : Prop :=
  owesFull worker.notes = true → worker.pendingFull = true ∨
    ∃ pending, worker.pendingUpdate = some pending ∧ pending.forceFull = true

structure WorkerSound (model : GhosttyViewportModel) (others : List (Nat × Nat))
    (worker : TerminalWorker lib) : Prop where
  base : WorkerBase model others worker
  waiting : ∀ pending, worker.pendingUpdate = some pending →
    worker.visible = true ∧ worker.sync ≠ .suppressing
  sync : worker.sync ≠ .inactive → worker.synchronized = true
  pendingFull : worker.pendingFull = true → worker.visible = true → worker.synchronized = true
  remembered : Remembered worker
  current : worker.visible = true → worker.synchronized = false → worker.pendingUpdate = none →
    Presents model worker

theorem WorkerBase.congr (h : WorkerBase model others worker) (hcore : worker'.core = worker.core)
    (hposted : worker'.posted = worker.posted)
    (hpend : worker'.pendingUpdate = none ∨ worker'.pendingUpdate = worker.pendingUpdate) :
    WorkerBase model others worker' := by
  obtain ⟨hsynced, hleases, hslots, hunarmed⟩ := h
  refine ⟨?_, ?_, ?_, ?_⟩
  · rw [hcore, hposted]
    exact hsynced
  · rw [hcore, hposted]
    exact hleases
  · rw [hcore]
    exact hslots
  · intro pending hsome
    rw [hcore]
    rcases hpend with hnone | hsame
    · rw [hnone] at hsome
      cases hsome
    · rw [hsame] at hsome
      exact hunarmed pending hsome

variable {command : Nat} {forceFull : Bool}

/-- What a built update changes. -/
theorem emitUpdate_spec (h : WorkerBase model others worker)
    (hlimit : worker.core.renderUpdateFrameId < maxSafeInteger)
    (hemit : worker.emitUpdate command forceFull = some worker') :
    WorkerBase model others worker' ∧ Presents model worker' ∧
      worker'.synchronized = worker.synchronized ∧
      (owesFull worker'.notes = true → forceFull = false ∧ owesFull worker.notes = true) ∧
      worker'.pendingUpdate = worker.pendingUpdate ∧ worker'.pendingFull = worker.pendingFull ∧
      worker'.visible = worker.visible ∧ worker'.sync = worker.sync := by
  obtain ⟨⟨lease, core⟩, hbuilt, rfl⟩ := map_eq_some_iff.mp hemit
  obtain ⟨shown, hshown, hsynced⟩ := h.synced
  obtain ⟨⟨hpicture, hmode⟩, hfull, next, happly, hnext, hsnap⟩ :=
    tryRenderUpdate_spec hsynced hlimit hbuilt
  obtain ⟨taken, htaken, hrest⟩ := map_eq_some_iff.mp hbuilt
  simp only [Prod.mk.injEq] at hrest
  obtain ⟨hlease, hcore⟩ := hrest
  have hslotId : lease.slotId = taken.1 := by rw [← hlease]
  have htoken : lease.leaseToken = taken.2.1 := by rw [← hlease]
  have hslots : core.slots = taken.2.2 := by rw [← hcore]
  obtain ⟨hlength, hchanged⟩ := takeSlot_some htaken
  have happl : applyAll model (worker.posted ++ [⟨command, lease⟩]) = some next := by
    rw [applyAll_append, hshown]
    exact happly
  refine ⟨⟨⟨next, happl, hnext⟩, ?_, ?_, ?_⟩, ⟨next, happl, hsnap⟩, hmode, ?_, rfl, rfl, rfl, rfl⟩
  · intro index slot hget hflight
    simp only [hslots] at hget
    rcases hchanged index slot hget with hold | ⟨hindex, hslot⟩
    · rcases h.leases index slot hold hflight with hother | ⟨message, hmem, hmsg⟩
      · exact .inl hother
      · exact .inr ⟨message, mem_append_left _ hmem, hmsg⟩
    · refine .inr ⟨⟨command, lease⟩, mem_concat_self, ?_, ?_⟩
      · exact hslotId.trans hindex.symm
      · rw [htoken, hslot]
  · simp only [hslots, hlength]
    exact h.slots
  · intro pending hpend harmed slot hmem
    simp only [hslots] at hmem
    obtain ⟨index, hget⟩ := mem_iff_getElem?.mp hmem
    rcases hchanged index slot hget with hold | ⟨-, hslot⟩
    · exact h.unarmed pending hpend harmed slot (mem_of_getElem? hold)
    · rw [hslot]
  · intro howed
    simp only [owesFull, and_eq_true, not_eq_true'] at howed
    refine ⟨?_, howed.2⟩
    by_contra hforce
    rw [hfull (not_eq_false _ ▸ hforce)] at howed
    cases howed.1

theorem emitUpdate_none (hemit : worker.emitUpdate command forceFull = none) :
    ∀ slot ∈ worker.core.slots, slot.inFlight = true :=
  takeSlot_none (map_eq_none_iff.mp (map_eq_none_iff.mp hemit))

section

variable (h : WorkerBase model others worker)
include h

/-- An update that is due is built, or it waits. -/
theorem emitOrSchedule_sound (hlimit : worker.core.renderUpdateFrameId < maxSafeInteger)
    (hvis : worker.visible = true)
    (hsync : worker.sync ≠ .suppressing)
    (hmode : worker.sync ≠ .inactive → worker.synchronized = true)
    (hpendingFull : worker.pendingFull = false)
    (howed : owesFull worker.notes = true → forceFull = true ∨
      ∃ pending, worker.pendingUpdate = some pending ∧ pending.forceFull = true) :
    WorkerSound model others (worker.emitOrSchedule command forceFull) := by
  unfold TerminalWorker.emitOrSchedule
  cases hemit : worker.emitUpdate command forceFull with
  | none =>
    rw [getD_none]
    refine ⟨⟨h.synced, h.leases, h.slots, ?_⟩, fun _ _ => ⟨hvis, hsync⟩, hmode, ?_, ?_, ?_⟩
    · intro pending hpend harmed
      cases hpend
      cases harmed
    · intro hfull
      rw [show (worker.scheduleUpdate command forceFull).pendingFull = false from hpendingFull] at hfull
      cases hfull
    · intro hnotes
      refine .inr ⟨_, rfl, ?_⟩
      rcases howed hnotes with rfl | ⟨pending, hpend, hforce⟩
      · exact Bool.or_true _
      · simp [hpend, hforce]
    · intro _ _ hnone
      cases hnone
  | some next =>
    rw [getD_some]
    obtain ⟨hbase, hpresents, hsame, hnotes, hpend, hfull, hnextVisible, hnextSync⟩ :=
      emitUpdate_spec h hlimit hemit
    refine ⟨hbase, ?_, ?_, ?_, ?_, fun _ _ _ => hpresents⟩
    · intro _ _
      rw [hnextVisible, hnextSync]
      exact ⟨hvis, hsync⟩
    · rw [hnextSync, hsame]
      exact hmode
    · rw [hfull, hpendingFull]
      exact fun hcontra => absurd hcontra Bool.false_ne_true
    · intro hstill
      obtain ⟨hforce, hbef⟩ := hnotes hstill
      rcases howed hbef with htrue | hwaiting
      · rw [hforce] at htrue
        cases htrue
      · rw [hpend]
        exact .inr hwaiting

/-- A presentation that is requested is built, or remembered in one of the
places; without force it must not push out a full frame that is owed. -/
theorem requestPresentation_sound (command : Nat)
    (hlimit : worker.core.renderUpdateFrameId < maxSafeInteger)
    (howed : owesFull worker.notes = true → forceFull = true ∨ worker.pendingFull = true ∨
      ∃ pending, worker.pendingUpdate = some pending ∧ pending.forceFull = true)
    (hkept : worker.visible = true → worker.synchronized = true → owesFull worker.notes = true →
      forceFull = true ∨ worker.pendingFull = true) :
    WorkerSound model others (worker.requestPresentation command forceFull) := by
  unfold TerminalWorker.requestPresentation
  split
  · -- hidden: all of the next frame is owed
    rename_i hnot
    have hvis : worker.visible = false := by simpa using hnot
    have hhidden : ∀ {sync timer}, (sync ≠ SyncState.inactive → worker.synchronized = true) →
        WorkerSound model others { worker.markSuppressed command true with
          sync := sync, syncTimer := timer } := by
      intro sync timer hmode
      refine ⟨h.congr rfl rfl (.inl rfl), (nofun), hmode, ?_,
        fun _ => .inl (Bool.or_true _), ?_⟩
      · intro _ hshown
        exact absurd (hvis.symm.trans hshown) Bool.false_ne_true
      · intro hshown
        exact absurd (hvis.symm.trans hshown) Bool.false_ne_true
    split
    · rename_i hstart
      rw [and_eq_true] at hstart
      exact hhidden fun _ => hstart.1
    · split
      · exact hhidden fun hcontra => absurd rfl hcontra
      rename_i hinactive
      refine hhidden fun hactive => ?_
      simpa [hactive] using hinactive
  · rename_i hnot
    have hvis : worker.visible = true := by simpa using hnot
    split
    · rename_i hmode
      have hsuppressed : ∀ {sync timer}, WorkerSound model others
          ({ worker with sync := sync, syncTimer := timer }.markSuppressed command forceFull) := by
        intro sync timer
        refine ⟨h.congr rfl rfl (.inl rfl), (nofun), fun _ => hmode,
          fun _ _ => hmode, ?_, ?_⟩
        · intro hnotes
          left
          rcases hkept hvis hmode hnotes with hforce | hfull
          · simp [TerminalWorker.markSuppressed, hforce]
          · simp [TerminalWorker.markSuppressed, hfull]
        · intro _ hoff
          exact absurd (hmode.symm.trans hoff) Bool.noConfusion
      split
      · exact hsuppressed
      · exact hsuppressed
    · have hdue : ∀ {sync timer after}, sync = SyncState.inactive →
          WorkerSound model others ({ worker with
            sync := sync, syncTimer := timer, pendingCommand := none, pendingFull := false
          }.emitOrSchedule after (worker.pendingFull || forceFull)) := by
        rintro sync timer after rfl
        have hbase : WorkerBase model others { worker with
            sync := .inactive, syncTimer := timer, pendingCommand := none, pendingFull := false } :=
          h.congr rfl rfl (.inr rfl)
        apply emitOrSchedule_sound hbase hlimit hvis
        · exact nofun
        · exact fun hcontra => absurd rfl hcontra
        · rfl
        · intro hnotes
          rcases howed hnotes with hforce | hfull | hpend
          · exact .inl (by rw [hforce, Bool.or_true])
          · exact .inl (by rw [hfull, Bool.true_or])
          · exact .inr hpend
      split
      · exact hdue rfl
      rename_i hsuppressing
      apply hdue
      cases hsync : worker.sync with
      | inactive => rfl
      | suppressing => exact absurd hsync hsuppressing
      | timedOut => rfl

/-! ### Commands and timers -/

theorem WorkerBase.core {core : GhosttyTerminalCore lib}
    (hslots : core.slots = worker.core.slots)
    (hsynced : ∀ shown, Synced worker.core shown → Synced core shown) :
    WorkerBase model others { worker with core := core } := by
  obtain ⟨⟨shown, happl, hshown⟩, hleases, hpositive, hunarmed⟩ := h
  refine ⟨⟨shown, happl, hsynced shown hshown⟩, ?_, ?_, ?_⟩
  · simp only [hslots]
    exact hleases
  · simp only [hslots]
    exact hpositive
  · simp only [hslots]
    exact hunarmed

theorem WorkerBase.feed (input : lib.Input) :
    WorkerBase model others (worker.feed input) := h.core rfl fun _ hshown => hshown.feed input

end

/-- A command that is presented without force leaves synchronized output off
while a full frame is owed that is remembered with a waiting update only. -/
def KeepsFull (worker : TerminalWorker lib) (payload : TerminalWorkerPayload lib) : Prop :=
  match payload with
  | .write input => owesFull worker.notes = true → worker.pendingFull = false →
      (worker.feed input).synchronized = false
  | _ => True

theorem WorkerSound.hide (h : WorkerSound model others worker) (focused : Bool) (command : Nat) :
    WorkerSound model others { worker with
      visible := false, focused := focused
      pendingUpdate := none, pendingCommand := some command, pendingFull := true } := by
  refine ⟨h.base.congr rfl rfl (.inl rfl), ?_, h.sync, ?_, fun _ => .inl rfl, ?_⟩
  · exact nofun
  · exact fun _ hshown => absurd hshown Bool.false_ne_true
  · exact fun hshown => absurd hshown Bool.false_ne_true

theorem process_sound (h : WorkerSound model others worker) {command : TerminalWorkerCommand lib}
    (hlimit : worker.core.renderUpdateFrameId < maxSafeInteger)
    (hkept : KeepsFull worker command.payload) (hown : command.payload.recycled = none) :
    WorkerSound model others (worker.process command) := by
  -- whatever is forced remembers a full frame by itself
  have hforced : ∀ {other : TerminalWorker lib}, WorkerBase model others other →
      other.core.renderUpdateFrameId < maxSafeInteger →
        WorkerSound model others (other.requestPresentation command.sequence true) :=
    fun hbase hbound => requestPresentation_sound hbase _ hbound (fun _ => .inl rfl)
      fun _ _ _ => .inl rfl
  obtain ⟨sequence, payload⟩ := command
  cases payload with
  | write input =>
    apply requestPresentation_sound (h.base.feed input) _ hlimit
    · intro hnotes
      exact .inr (h.remembered hnotes)
    · intro _ hmode hnotes
      right
      by_contra hfull
      have hoff := hkept hnotes (eq_false_iff.mpr hfull)
      exact absurd (hmode.symm.trans hoff) Bool.noConfusion
  | resetAndWriteBytes data =>
    exact hforced (h.base.core rfl fun _ hshown => hshown.resetAndWrite data) hlimit
  | resize input | setTheme input =>
    have hbase : WorkerBase model others worker.cancelPendingUpdate :=
      h.base.congr rfl rfl (.inl rfl)
    exact hforced (hbase.feed input) hlimit
  | setPresentationState visible focused =>
    unfold TerminalWorker.process
    simp only
    split
    · exact h
    cases visible with
    | false => exact h.hide focused sequence
    | true =>
      have hbase : WorkerBase model others { worker with visible := true, focused := focused } :=
        h.base.congr rfl rfl (.inr rfl)
      simp only [Bool.not_true, false_eq_true, if_false]
      split
      · exact hforced hbase hlimit
      rename_i hshown
      have hvis : worker.visible = true := by simpa using hshown
      refine ⟨hbase, fun pending hpend => ⟨rfl, (h.waiting pending hpend).2⟩, h.sync,
        fun hfull _ => h.pendingFull hfull hvis, h.remembered,
        fun _ hoff hnone => h.current hvis hoff hnone⟩
  | requestFullFrame => exact hforced (h.base.congr rfl rfl (.inr rfl)) hlimit
  | recycleRenderUpdate slotId leaseToken => cases hown

theorem recycle_sound {slotId leaseToken : Nat} (sequence : Nat)
    (h : WorkerSound model ((slotId, leaseToken) :: others) worker) : WorkerSound model others
      (worker.process ⟨sequence, .recycleRenderUpdate slotId leaseToken⟩) := by
  unfold TerminalWorker.process
  simp only
  cases hreclaim : worker.core.reclaimRenderUpdate slotId leaseToken with
  | none =>
    -- the lease was not that of a slot in flight
    refine { h with base := ⟨h.base.synced, ?_, h.base.slots, h.base.unarmed⟩ }
    intro index slot hget hflight
    refine (h.base.leases index slot hget hflight).imp_left fun hmem => ?_
    rcases mem_cons.mp hmem with hsame | hother
    · cases hsame
      unfold GhosttyTerminalCore.reclaimRenderUpdate at hreclaim
      rw [hget, bind_some, if_pos ⟨hflight, rfl⟩] at hreclaim
      cases hreclaim
    · exact hother
  | some core =>
    have hcore := hreclaim
    obtain ⟨slot, hslot, hnext⟩ := bind_eq_some_iff.mp hreclaim
    obtain ⟨⟨hflight, htoken⟩, hnext⟩ := ite_none_right_eq_some.mp hnext
    have hslots : core.slots = worker.core.slots.set slotId { slot with inFlight := false } := by
      rw [← Option.some.inj hnext]
    have hterm : core.terminal = worker.core.terminal := by
      rw [← Option.some.inj hnext]
    obtain ⟨shown, happl, hshown⟩ := h.base.synced
    have hmode : (worker.reclaimed core).synchronized = worker.synchronized := by
      simp only [TerminalWorker.synchronized, TerminalWorker.reclaimed, hterm]
    have hpend : ∀ pending, (worker.reclaimed core).pendingUpdate = some pending →
        pending.armed = true ∧ ∃ before, worker.pendingUpdate = some before ∧
          pending.forceFull = before.forceFull := by
      intro pending hsome
      obtain ⟨before, hbef, rfl⟩ := map_eq_some_iff.mp hsome
      obtain ⟨hvis, hsync⟩ := h.waiting before hbef
      split
      · exact ⟨rfl, before, hbef, rfl⟩
      rename_i harmed
      refine ⟨?_, before, hbef, rfl⟩
      simpa [hvis, hsync] using harmed
    refine ⟨⟨⟨shown, happl, hshown.reclaim hcore⟩, ?_, ?_, ?_⟩, ?_, ?_, ?_, ?_, ?_⟩
    · intro index other hget hother
      simp only [TerminalWorker.reclaimed, hslots, getElem?_set] at hget
      split at hget
      · split at hget
        · cases hget
          cases hother
        · cases hget
      · rename_i hne
        refine (h.base.leases index other hget hother).imp_left fun hmem => ?_
        exact (mem_cons.mp hmem).resolve_left fun hsame => hne (Prod.mk.inj hsame).1.symm
    · simp only [TerminalWorker.reclaimed, hslots, length_set]
      exact h.base.slots
    · intro pending hsome hunarmed
      rw [(hpend pending hsome).1] at hunarmed
      cases hunarmed
    · intro pending hsome
      obtain ⟨-, before, hbef, -⟩ := hpend pending hsome
      exact h.waiting before hbef
    · rw [hmode]
      exact h.sync
    · rw [hmode]
      exact h.pendingFull
    · intro hnotes
      refine (h.remembered hnotes).imp_right fun ⟨before, hbef, hforce⟩ => ?_
      refine ⟨_, congrArg (Option.map _) hbef, ?_⟩
      simp only
      split
      · exact hforce
      · exact hforce
    · intro hvis hoff hnone
      rw [hmode] at hoff
      obtain ⟨last, hlast, hsnap⟩ := h.current hvis hoff (map_eq_none_iff.mp hnone)
      refine ⟨last, hlast, ?_⟩
      simp only [TerminalWorker.reclaimed, hterm]
      exact hsnap

theorem updateTimeout_sound (h : WorkerSound model others worker) {pending : PendingUpdate}
    (hpend : worker.pendingUpdate = some pending)
    (hlimit : worker.core.renderUpdateFrameId < maxSafeInteger) :
    WorkerSound model others (worker.updateTimeout pending) := by
  obtain ⟨hvis, hsync⟩ := h.waiting pending hpend
  have hidle : WorkerBase model others worker.cancelPendingUpdate := h.base.congr rfl rfl (.inl rfl)
  unfold TerminalWorker.updateTimeout
  rw [if_neg (by simp [hvis, hsync])]
  cases hemit : worker.cancelPendingUpdate.emitUpdate pending.command pending.forceFull with
  | none =>
    have hnoSlot := emitUpdate_none hemit
    rw [getD_none]
    refine ⟨⟨h.base.synced, h.base.leases, h.base.slots, fun _ _ _ => hnoSlot⟩,
      fun _ _ => ⟨hvis, hsync⟩, h.sync, h.pendingFull, ?_, nofun⟩
    intro hnotes
    refine (h.remembered hnotes).imp_right fun ⟨before, hbef, hforce⟩ => ?_
    rw [hpend] at hbef
    cases hbef
    exact ⟨_, rfl, hforce⟩
  | some next =>
    rw [getD_some]
    obtain ⟨hbase, hpresents, hmode, hnotes, hnone, hfull, hnextVisible, hnextSync⟩ :=
      emitUpdate_spec hidle hlimit hemit
    have hempty : next.pendingUpdate = none := hnone
    refine ⟨hbase, ?_, ?_, ?_, ?_, fun _ _ _ => hpresents⟩
    · intro other hother
      rw [hempty] at hother
      cases hother
    · rw [hnextSync, hmode]
      exact h.sync
    · rw [hfull, hnextVisible, hmode]
      exact h.pendingFull
    · intro hstill
      obtain ⟨hforce, hbef⟩ := hnotes hstill
      rw [hfull]
      refine (h.remembered hbef).imp_right fun ⟨before, hsome, hforced⟩ => ?_
      rw [hpend] at hsome
      cases hsome
      rw [hforce] at hforced
      cases hforced

theorem synchronizedTimeout_sound (h : WorkerSound model others worker) (command : Nat)
    (hlimit : worker.core.renderUpdateFrameId < maxSafeInteger) :
    WorkerSound model others (worker.synchronizedTimeout command) := by
  unfold TerminalWorker.synchronizedTimeout
  split
  · exact { h with base := h.base.congr rfl rfl (.inr rfl) }
  rename_i hsuppressing
  have hsync : worker.sync = .suppressing := not_not.mp hsuppressing
  have hmode : worker.synchronized = true := h.sync (by rw [hsync]; exact SyncState.noConfusion)
  have hnone : worker.pendingUpdate = none := by
    rw [eq_none_iff_forall_ne_some]
    exact fun pending hpend => (h.waiting pending hpend).2 hsync
  split
  · rename_i hnot
    refine ⟨h.base.congr rfl rfl (.inr rfl), ?_, fun _ => hmode, fun _ _ => hmode,
      fun _ => .inl rfl, ?_⟩
    · intro pending hpend
      exact absurd (hnone.symm.trans hpend) nofun
    · intro _ hoff
      exact absurd (hmode.symm.trans hoff) Bool.noConfusion
  · rename_i hnot
    have hvis : worker.visible = true := by simpa using hnot
    have hbase : WorkerBase model others { worker with
        syncTimer := none, sync := .timedOut, pendingCommand := none, pendingFull := false } :=
      h.base.congr rfl rfl (.inr rfl)
    apply emitOrSchedule_sound hbase hlimit hvis
    · exact SyncState.noConfusion
    · exact fun _ => hmode
    · rfl
    · exact h.remembered

theorem create_sound {terminal : lib.Terminal} (h : lib.Dirtied terminal) (visible focused : Bool) :
    WorkerSound .empty [] (TerminalWorker.create terminal visible focused) := by
  have hbase : WorkerBase .empty [] (⟨.create terminal, visible, focused, .inactive, none, !visible,
      if visible then none else some 1, none, [], []⟩ : TerminalWorker lib) := by
    refine ⟨⟨.empty, rfl, synced_create h⟩, ?_, Nat.succ_pos 2, nofun⟩
    intro index slot hget hflight
    have hfree := eq_of_mem_replicate (mem_of_getElem? hget)
    rw [hfree] at hflight
    cases hflight
  cases visible with
  | true =>
    apply emitOrSchedule_sound hbase (by decide : 0 < maxSafeInteger) rfl
    · exact SyncState.noConfusion
    · exact fun hcontra => absurd rfl hcontra
    · rfl
    · exact fun hcontra => absurd hcontra Bool.false_ne_true
  | false =>
    refine ⟨hbase, (nofun), fun hcontra => absurd rfl hcontra, ?_, ?_, ?_⟩
    · exact fun _ hshown => absurd hshown Bool.false_ne_true
    · exact fun hcontra => absurd hcontra Bool.false_ne_true
    · exact fun hshown => absurd hshown Bool.false_ne_true

end Worker

/-! ## Runs -/

section Runs

variable {lib : Libghostty} {world world' : PresentationWorld lib} {action : PresentationAction lib}

def PresentationWorld.outstanding (world : PresentationWorld lib) : List (Nat × Nat) :=
  world.held ++ world.inbox.filterMap fun command => command.payload.recycled

def PresentationSound (world : PresentationWorld lib) : Prop :=
  WorkerSound world.model world.outstanding world.worker

theorem WorkerSound.mono {worker : TerminalWorker lib} {model : GhosttyViewportModel}
    {others more : List (Nat × Nat)} (h : WorkerSound model others worker)
    (hmore : ∀ lease ∈ others, lease ∈ more) : WorkerSound model more worker :=
  { h with
    base := ⟨h.base.synced, fun index slot hget hflight => (h.base.leases index slot hget hflight).imp_left (hmore _), h.base.slots, h.base.unarmed⟩ }

/-- Fewer updates than a safe integer counts, and no requested full frame is
pushed out of its place. -/
def Careful (lib : Libghostty) (world : PresentationWorld lib) (action : PresentationAction lib) :
    Prop :=
  world.worker.core.renderUpdateFrameId < maxSafeInteger ∧
    match action with
    | .receive => ∀ command ∈ world.inbox.head?, KeepsFull world.worker command.payload
    | _ => True

instance (worker : TerminalWorker lib) :
    (payload : TerminalWorkerPayload lib) → Decidable (KeepsFull worker payload)
  | .write input => inferInstanceAs (Decidable (owesFull worker.notes = true →
      worker.pendingFull = false → (worker.feed input).synchronized = false))
  | .resetAndWriteBytes _ | .resize _ | .setTheme _ | .setPresentationState _ _
  | .requestFullFrame | .recycleRenderUpdate _ _ => .isTrue trivial

instance (world : PresentationWorld lib) :
    (action : PresentationAction lib) → Decidable (Careful lib world action)
  | .receive => inferInstanceAs (Decidable (world.worker.core.renderUpdateFrameId < maxSafeInteger ∧
      ∀ command ∈ world.inbox.head?, KeepsFull world.worker command.payload))
  | .post _ | .updateTimer | .syncTimer | .apply | .giveBack _ =>
    inferInstanceAs (Decidable (_ ∧ True))

theorem outstanding_send (world : PresentationWorld lib) (payload : TerminalWorkerPayload lib) :
    (world.send payload).outstanding = world.outstanding ++ payload.recycled.toList := by
  simp only [PresentationWorld.outstanding, PresentationWorld.send, filterMap_append, append_assoc]
  cases hrecycled : payload.recycled with
  | none | some => simp [hrecycled]

theorem PresentationSound.receive (h : PresentationSound world)
    {command : TerminalWorkerCommand lib} {rest : List (TerminalWorkerCommand lib)}
    (hinbox : world.inbox = command :: rest)
    (hlimit : world.worker.core.renderUpdateFrameId < maxSafeInteger)
    (hkept : KeepsFull world.worker command.payload) :
    PresentationSound { world with worker := world.worker.process command, inbox := rest } := by
  have houtstanding : ∀ lease ∈ world.outstanding, lease ∈ command.payload.recycled.toList ++
      (world.held ++ rest.filterMap fun command => command.payload.recycled) := by
    intro lease hmem
    simp only [PresentationWorld.outstanding, hinbox, filterMap_cons] at hmem
    cases hrecycled : command.payload.recycled with
    | none =>
      simp only [hrecycled] at hmem
      exact hmem
    | some other =>
      simp only [hrecycled, mem_append, mem_cons] at hmem
      simp only [toList_some, singleton_append, mem_cons, mem_append]
      tauto
  have hworker := WorkerSound.mono h houtstanding
  cases hrecycled : command.payload.recycled with
  | none =>
    rw [hrecycled] at hworker
    exact process_sound hworker hlimit hkept hrecycled
  | some lease =>
    obtain ⟨sequence, payload⟩ := command
    cases payload with
    | recycleRenderUpdate slotId leaseToken =>
      cases hrecycled
      exact recycle_sound sequence hworker
    | _ => cases hrecycled

theorem PresentationSound.apply (h : PresentationSound world)
    (happly : world.applyFirst = some world') : PresentationSound world' := by
  unfold PresentationWorld.applyFirst at happly
  cases hposted : world.worker.posted with
  | nil =>
    rw [hposted] at happly
    cases happly
  | cons message rest =>
    rw [hposted] at happly
    cases happly
    obtain ⟨⟨⟨shown, happl, hshown⟩, hleases, hslots, hunarmed⟩, hwaiting, hsync, hfull,
      hremembered, hcur⟩ := h
    rw [hposted] at happl hleases
    obtain ⟨next, hnext, hrest⟩ := bind_eq_some_iff.mp happl
    have hmodel : (world.model.apply message.lease.update).getD world.model = next := by
      rw [hnext, getD_some]
    unfold PresentationSound
    rw [hmodel]
    refine ⟨⟨⟨shown, hrest, hshown⟩, ?_, hslots, hunarmed⟩, hwaiting, hsync, hfull, hremembered, ?_⟩
    · intro index slot hget hflight
      rcases hleases index slot hget hflight with hother | ⟨other, hmem, hslotId, htoken⟩
      · exact .inl (mem_cons_of_mem _ hother)
      rcases mem_cons.mp hmem with rfl | hlater
      · rw [← hslotId, ← htoken]
        exact .inl mem_cons_self
      · exact .inr ⟨other, hlater, hslotId, htoken⟩
    · intro hvis hoff hnone
      obtain ⟨last, hlast, hsnap⟩ := hcur hvis hoff hnone
      rw [hposted, applyAll, hnext, bind_some] at hlast
      exact ⟨last, hlast, hsnap⟩

theorem presentation_step (h : PresentationSound world) (hcareful : Careful lib world action)
    (hstep : (presentationSystem lib).step world action = some world') :
    PresentationSound world' := by
  obtain ⟨hlimit, hkept⟩ := hcareful
  cases action with
  | post payload =>
    obtain ⟨hrecycled, hnext⟩ := ite_none_right_eq_some.mp hstep
    cases hnext
    refine WorkerSound.mono h fun lease hmem => ?_
    rw [outstanding_send]
    exact mem_append_left _ hmem
  | receive =>
    simp only [presentationSystem] at hstep
    cases hinbox : world.inbox with
    | nil =>
      rw [hinbox] at hstep
      cases hstep
    | cons command rest =>
      rw [hinbox] at hstep
      cases hstep
      exact h.receive hinbox hlimit (hkept command (by rw [hinbox]; rfl))
  | updateTimer =>
    obtain ⟨pending, hpend, rfl⟩ := map_eq_some_iff.mp hstep
    exact updateTimeout_sound h (filter_eq_some_iff.mp hpend).1 hlimit
  | syncTimer =>
    obtain ⟨command, -, rfl⟩ := map_eq_some_iff.mp hstep
    exact synchronizedTimeout_sound h command hlimit
  | apply => exact h.apply hstep
  | giveBack lease =>
    obtain ⟨hheld, hnext⟩ := ite_none_right_eq_some.mp hstep
    cases hnext
    refine WorkerSound.mono h fun other hmem => ?_
    rw [outstanding_send]
    rcases mem_append.mp hmem with hother | hinbox
    · by_cases hsame : other = lease
      · subst hsame
        exact mem_concat_self
      · exact mem_append_left _ (mem_append_left _ ((mem_erase_of_ne hsame).mpr hother))
    · exact mem_append_left _ (mem_append_right _ hinbox)

theorem presentation_sound (hrun : (presentationSystem lib).Run (Careful lib) world) :
    PresentationSound world := by
  apply hrun.invariant
  · rintro start ⟨terminal, visible, focused, hdirtied, rfl⟩
    exact create_sound hdirtied visible focused
  · exact fun _ _ _ h hcareful hstep => presentation_step h hcareful hstep

theorem PresentationSound.noneWaits (h : PresentationSound world) (hquiescent : world.Quiescent) :
    world.worker.pendingUpdate = none := by
  rw [eq_none_iff_forall_ne_some]
  intro pending hpend
  have hflight := h.base.unarmed pending hpend (hquiescent.updateTimer pending hpend)
  obtain ⟨slot, hslot⟩ := exists_mem_of_length_pos h.base.slots
  obtain ⟨index, hget⟩ := mem_iff_getElem?.mp hslot
  rcases h.base.leases index slot hget (hflight slot hslot) with hother | ⟨message, hmem, -⟩
  · rw [PresentationWorld.outstanding, hquiescent.held, hquiescent.inbox] at hother
    cases hother
  · rw [hquiescent.posted] at hmem
    cases hmem

/-- Every update is accepted; and with nothing under way a visible terminal
outside synchronized output is shown as it is, with no full frame owed. -/
def Presented (world : PresentationWorld lib) : Prop :=
  (∀ message ∈ world.worker.posted.head?, (world.model.apply message.lease.update).isSome = true) ∧
    (world.Quiescent → world.worker.visible = true → world.worker.synchronized = false →
      world.model.snapshot = world.worker.core.snapshot.1 ∧ FullFramesFollowed world.worker.notes)

/-- No presentation is lost in a run that pushes no full frame out of its place. -/
theorem presentation_kept (lib : Libghostty) {world : PresentationWorld lib}
    (hrun : (presentationSystem lib).Run (Careful lib) world) : Presented world := by
  have h := presentation_sound hrun
  obtain ⟨shown, happl, hsynced⟩ := h.base.synced
  constructor
  · intro message hmem
    cases hposted : world.worker.posted with
    | nil =>
      rw [hposted] at hmem
      cases hmem
    | cons first rest =>
      rw [hposted] at hmem happl
      cases hmem
      obtain ⟨next, hnext, -⟩ := bind_eq_some_iff.mp happl
      rw [hnext]
      rfl
  · intro hquiescent hvis hoff
    have hnone := h.noneWaits hquiescent
    constructor
    · obtain ⟨last, hlast, hsnap⟩ := h.current hvis hoff hnone
      rw [hquiescent.posted] at hlast happl
      cases hlast
      cases happl
      rw [hsnap, (snapshot_synced hsynced).1]
    · apply owesFull_iff.mp
      by_contra howed
      rcases h.remembered (not_eq_false _ ▸ howed) with hfull | ⟨pending, hpend, -⟩
      · exact absurd (h.pendingFull hfull hvis) (eq_false_iff.mp hoff)
      · rw [hnone] at hpend
        cases hpend

/-! ### A terminal of two rows -/

/-- The rows and what they were when the marks were cleaned last. -/
structure SampleTerminal where
  first : UInt8
  second : UInt8
  synchronized : Bool
  shown : Option (UInt8 × UInt8)

def sampleFrame (first second : UInt8) : Frame :=
  let row (text : UInt8) : GhosttyRow := ⟨[⟨[text], ⟨229, 231, 235⟩, ⟨0, 0, 0⟩, 0⟩], false, false⟩
  ⟨1, ⟨229, 231, 235⟩, ⟨0, 0, 0⟩, ⟨229, 231, 235⟩, [row first, row second]⟩

namespace SampleTerminal

variable (terminal : SampleTerminal)

def dirtiness : Dirtiness :=
  match terminal.shown with
  | none => .everything
  | some shown => if shown = (terminal.first, terminal.second) then .unchanged else .someRows

def rowDirty (index : Nat) : Bool :=
  match terminal.shown with
  | none => true
  | some shown => if index = 0 then shown.1 ≠ terminal.first else shown.2 ≠ terminal.second

end SampleTerminal

def sampleApi : LibghosttyApi where
  Terminal := SampleTerminal
  Input := UInt8 × UInt8 × Bool
  feed input terminal :=
    { terminal with first := input.1, second := input.2.1, synchronized := input.2.2 }
  reset _ := ⟨32, 32, false, none⟩
  picture terminal := ⟨sampleFrame terminal.first terminal.second, ⟨0, 0, true, true, 0⟩⟩
  synchronizedOutput := SampleTerminal.synchronized
  dirtiness := SampleTerminal.dirtiness
  rowDirty := SampleTerminal.rowDirty
  clean terminal := { terminal with shown := some (terminal.first, terminal.second) }

theorem sample_shown (inputs : List sampleApi.Input) (terminal : SampleTerminal) :
    SampleTerminal.shown (sampleApi.feedAll inputs terminal) = terminal.shown := by
  induction inputs generalizing terminal with
  | nil => rfl
  | cons input rest ih => exact ih (sampleApi.feed input terminal)

theorem sample_dirtied {terminal : SampleTerminal} (h : terminal.shown = none) :
    sampleApi.Dirtied terminal := by
  intro inputs
  show SampleTerminal.dirtiness (sampleApi.feedAll inputs terminal) = .everything
  unfold SampleTerminal.dirtiness
  rw [sample_shown, h]

theorem sample_covers {terminal : SampleTerminal} {first second : UInt8}
    (h : terminal.shown = some (first, second)) :
    sampleApi.Covers (sampleFrame first second) terminal := by
  refine .inr ⟨rfl, rfl, rfl, rfl, rfl, fun index hdiffers => ?_⟩
  have hrow : SampleTerminal.rowDirty terminal index = true ∧ (first, second) ≠
      (terminal.first, terminal.second) := by
    unfold SampleTerminal.rowDirty
    rw [h]
    match index with
    | 0 =>
      have hfirst : first ≠ terminal.first := fun hsame => hdiffers (by rw [hsame]; rfl)
      exact ⟨by simp [hfirst], fun hsame => hfirst (Prod.mk.inj hsame).1⟩
    | 1 =>
      have hsecond : second ≠ terminal.second := fun hsame => hdiffers (by rw [hsame]; rfl)
      exact ⟨by simp [hsecond], fun hsame => hsecond (Prod.mk.inj hsame).2⟩
    | index + 2 => exact absurd rfl hdiffers
  refine ⟨?_, hrow.1⟩
  show SampleTerminal.dirtiness terminal = .someRows
  unfold SampleTerminal.dirtiness
  rw [h]
  exact if_neg hrow.2

def sampleLib : Libghostty where
  toLibghosttyApi := sampleApi
  sized _ := ⟨Nat.le_refl 1, (by decide : 1 ≤ 65535), (by decide : 1 ≤ 2), (by decide : 2 ≤ 65535), by
    intro row hmem
    rcases mem_cons.mp hmem with rfl | hlast
    · rfl
    · rw [mem_singleton.mp hlast]
      rfl⟩
  picture_clean _ := rfl
  synchronizedOutput_clean _ := rfl
  reset_dirtied _ := sample_dirtied rfl
  clean_marked terminal inputs := by
    apply sample_covers
    exact sample_shown inputs (sampleApi.clean terminal)

def shownWorld : PresentationWorld sampleLib := .start (⟨65, 66, false, none⟩ : SampleTerminal) true true

def sampleWrite (first second : UInt8) (synchronized : Bool) : PresentationAction sampleLib :=
  .post (.write (first, second, synchronized))

def sampleReturn (slotId leaseToken : Nat) : List (PresentationAction sampleLib) :=
  [.apply, .giveBack (slotId, leaseToken), .receive]

def samplePresentation : List (PresentationAction sampleLib) :=
  [sampleWrite 67 66 false, .receive, sampleWrite 68 66 false, .receive, .post .requestFullFrame,
    .receive, sampleWrite 69 66 false, .receive] ++ sampleReturn 0 1 ++ [.updateTimer] ++
    sampleReturn 1 1 ++ sampleReturn 2 1 ++ sampleReturn 0 2

theorem sample_initial : (presentationSystem sampleLib).initial shownWorld :=
  ⟨_, true, true, sample_dirtied rfl, rfl⟩

theorem presentation_kept_sample : ∃ world,
    (presentationSystem sampleLib).Run (Careful sampleLib) world ∧
      (world.worker.pendingUpdate = none ∧ world.worker.notes =
        [.presented true, .requested, .presented false, .presented false, .presented true]) ∧
        Presented world := by
  obtain ⟨world, hrpl, hfacts⟩ : ∃ world, (presentationSystem sampleLib).replay
      (fun world action => decide (Careful sampleLib world action)) shownWorld samplePresentation =
        some world ∧ (world.worker.pendingUpdate = none ∧ world.worker.notes =
          [.presented true, .requested, .presented false, .presented false, .presented true]) := by
    have hfacts : ((presentationSystem sampleLib).replay
        (fun world action => decide (Careful sampleLib world action)) shownWorld
        samplePresentation).any (fun world => decide (world.worker.pendingUpdate = none ∧
          world.worker.notes = [.presented true, .requested, .presented false, .presented false,
            .presented true])) = true := by decide
    obtain ⟨world, hworld, htrue⟩ := (Option.any_eq_true _ _).mp hfacts
    exact ⟨world, hworld, of_decide_eq_true htrue⟩
  have hrun := System.replay_run (.start sample_initial)
    (fun _ _ _ hpass => of_decide_eq_true hpass) hrpl
  exact ⟨world, hrun, hfacts, presentation_kept sampleLib hrun⟩

/-- While the full frame waits for a slot, synchronized output goes on and off. -/
def lostFullFrame : List (PresentationAction sampleLib) :=
  [sampleWrite 67 66 false, .receive, sampleWrite 68 66 false, .receive, .post .requestFullFrame,
    .receive, sampleWrite 69 66 true, .receive, sampleWrite 70 66 false, .receive] ++
    sampleReturn 0 1 ++ [.updateTimer] ++ sampleReturn 1 1 ++ sampleReturn 2 1 ++ sampleReturn 0 2

/-- The full frame that was requested never comes. -/
theorem full_frame_lost : ¬∀ (lib : Libghostty) (world : PresentationWorld lib),
    (presentationSystem lib).Reachable world → Presented world := by
  intro hall
  obtain ⟨world, hrpl, hfacts⟩ : ∃ world, (presentationSystem sampleLib).replay
      (fun _ _ => true) shownWorld lostFullFrame = some world ∧
        ((world.inbox.isEmpty = true ∧ world.worker.posted = [] ∧ world.held = [] ∧
          world.worker.syncTimer = none ∧ world.worker.pendingUpdate = none) ∧
            world.worker.visible = true ∧ world.worker.synchronized = false ∧
              owesFull world.worker.notes = true) := by
    have hfacts : ((presentationSystem sampleLib).replay (fun _ _ => true) shownWorld
        lostFullFrame).any (fun world => decide ((world.inbox.isEmpty = true ∧
          world.worker.posted = [] ∧ world.held = [] ∧ world.worker.syncTimer = none ∧
            world.worker.pendingUpdate = none) ∧ world.worker.visible = true ∧
              world.worker.synchronized = false ∧ owesFull world.worker.notes = true)) = true := by
      decide
    obtain ⟨world, hworld, htrue⟩ := (Option.any_eq_true _ _).mp hfacts
    exact ⟨world, hworld, of_decide_eq_true htrue⟩
  obtain ⟨⟨hinbox, hposted, hheld, htimer, hpend⟩, hvis, hoff, howed⟩ := hfacts
  have hquiescent : world.Quiescent := by
    refine ⟨List.isEmpty_iff.mp hinbox, hposted, hheld, htimer, fun pending hsome => ?_⟩
    rw [hpend] at hsome
    cases hsome
  have hreachable : (presentationSystem sampleLib).Reachable world :=
    System.replay_run (.start sample_initial) (fun _ _ _ _ => trivial) hrpl
  have hfollowed := ((hall sampleLib world hreachable).2 hquiescent hvis hoff).2
  rw [owesFull_iff.mpr hfollowed] at howed
  cases howed

end Runs

end Yaade.Workers

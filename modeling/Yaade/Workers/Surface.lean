import Yaade.Workers.Leases

/-!
A surface that renders a terminal of a worker, through failures of the worker.
-/

namespace Yaade.Workers.Surface

open Yaade.Library Yaade.Render Yaade.Workers List Bool
open Option hiding sequence

variable {lib : Libghostty}

/-- `create` asks for the terminal of the core's options. -/
inductive CorePayload (lib : Libghostty) where
  | create (visible focused : Bool)
  | command (payload : TerminalWorkerPayload lib)

structure CoreCommand (lib : Libghostty) where
  generation : Nat
  sequence : Nat
  payload : CorePayload lib

/-- `failed` is `recoverableError` or `fatalError`. The other events change
nothing here; all come in the order of their commands. -/
inductive WorkerEvent where
  | ready
  | packedUpdate (update : PackedUpdate)
  | failed
  deriving DecidableEq

structure WorkerTerminalCore where
  generation : Nat
  sequence : Nat
  visible : Bool
  focused : Bool
  recovering : Bool
  updates : List PackedUpdate

structure TerminalSurface where
  visible : Bool
  focused : Bool
  terminalStateDirty : Bool
  viewportModel : GhosttyViewportModel

/-- `options` is the terminal that is created; `thrown` tells that the rendering
of a frame has thrown. -/
structure World (lib : Libghostty) where
  options : lib.Terminal
  core : WorkerTerminalCore
  surface : TerminalSurface
  inbox : List (CoreCommand lib)
  runtime : Option (Nat × TerminalWorker lib)
  events : List (Nat × WorkerEvent)
  thrown : Bool

/-- A command that throws may have posted its update, and leaves the terminal in
any state; a create that throws leaves a terminal or none. -/
inductive Outcome (lib : Libghostty) where
  | done
  | failed (posted : Bool) (left : Option (TerminalWorker lib))

def tagged (generation : Nat) (worker : TerminalWorker lib) : List (Nat × WorkerEvent) :=
  worker.posted.map fun update => (generation, .packedUpdate update)

namespace World

def start (terminal : lib.Terminal) (visible : Bool) : World lib where
  options := terminal
  core := ⟨1, 1, visible, false, false, []⟩
  surface := ⟨visible, false, true, .empty⟩
  inbox := []
  runtime := some (1, (TerminalWorker.create terminal visible false).sent)
  events := tagged 1 (TerminalWorker.create terminal visible false)
  thrown := false

variable (world : World lib)

/-! ### The core -/

def send (payload : CorePayload lib) : World lib :=
  { world with
    core := { world.core with sequence := world.core.sequence + 1 }
    inbox := world.inbox ++ [⟨world.core.generation, world.core.sequence + 1, payload⟩] }

def command (payload : TerminalWorkerPayload lib) : World lib :=
  if world.core.recovering then world else world.send (.command payload)

def setPresentationState (visible focused : Bool) : World lib :=
  if world.core.visible = visible && world.core.focused = focused then world
  else ({ world with core := { world.core with visible := visible, focused := focused } } :
    World lib).command (.setPresentationState visible focused)

def releaseRenderUpdate (update : PackedUpdate) : World lib :=
  world.command (.recycleRenderUpdate update.lease.slotId update.lease.leaseToken)

def fail : World lib :=
  if world.core.recovering then world
  else
    ({ world with core := { world.core with
        recovering := true, updates := []
        generation := world.core.generation + 1, sequence := 0 } } : World lib).send
      (.create world.core.visible world.core.focused)

def push (update : PackedUpdate) : World lib :=
  let queued := { world with
    core := { world.core with updates := world.core.updates ++ [update] }
    surface := { world.surface with terminalStateDirty := true } }
  if queued.core.updates.length > 3 then
    match queued.core.updates with
    | [] => queued
    | discarded :: rest =>
      ({ queued with core := { queued.core with updates := rest } } : World lib).releaseRenderUpdate
        discarded
  else queued

def receive (generation : Nat) (event : WorkerEvent) : World lib :=
  let heard := if event = .ready && world.core.recovering && generation = world.core.generation then
    { world with core := { world.core with recovering := false } } else world
  if generation ≠ heard.core.generation then heard
  else match event with
    | .ready => heard
    | .packedUpdate update => heard.push update
    | .failed => heard.fail

/-! ### The worker -/

def process (message : CoreCommand lib) (outcome : Outcome lib) : World lib :=
  match message.payload with
  | .create visible focused =>
    match outcome with
    | .done =>
      let worker := TerminalWorker.create world.options visible focused
      { world with
        runtime := some (message.generation, worker.sent)
        events := world.events ++ (message.generation, .ready) ::
          tagged message.generation worker }
    | .failed _ none => { world with events := world.events ++ [(message.generation, .failed)] }
    | .failed _ (some left) => { world with
        runtime := some (message.generation, left)
        events := world.events ++ [(message.generation, .ready), (message.generation, .failed)] }
  | .command payload =>
    match world.runtime with
    | none => world
    | some (generation, worker) =>
      if generation ≠ message.generation then world
      else
        let next := worker.process ⟨message.sequence, payload⟩
        match outcome with
        | .done => { world with
            runtime := some (generation, next.sent)
            events := world.events ++ tagged generation next }
        | .failed posted left => { world with
            runtime := some (generation, left.getD worker)
            events := world.events ++ (if posted then tagged generation next else []) ++
              [(generation, .failed)] }

def ran (generation : Nat) (worker : TerminalWorker lib) : World lib :=
  { world with
    runtime := some (generation, worker.sent)
    events := world.events ++ tagged generation worker }

def crash : World lib := { world with inbox := [], runtime := none, events := [] }.fail

/-! ### The surface -/

def setVisible (visible : Bool) : World lib :=
  if world.surface.visible = visible then world
  else
    let next := ({ world with surface := { world.surface with visible := visible } } :
      World lib).setPresentationState visible world.surface.focused
    if visible then next.command .requestFullFrame else next

def setFocused (focused : Bool) : World lib :=
  ({ world with surface := { world.surface with focused := focused } } :
    World lib).setPresentationState world.surface.visible focused

def call (payload : TerminalWorkerPayload lib) (dirty : Bool) : World lib :=
  ({ world with surface := { world.surface with
      terminalStateDirty := world.surface.terminalStateDirty || dirty } } : World lib).command payload

def applyUpdates (model : GhosttyViewportModel) :
    List PackedUpdate → GhosttyViewportModel × List PackedUpdate × Bool
  | [] => (model, [], true)
  | update :: rest => match model.apply update.lease.update with
      | none => (model, [update], false)
      | some next =>
        let (last, consumed, accepted) := applyUpdates next rest
        (last, update :: consumed, accepted)

def renderFrame (drainRuntimeUpdates : Bool) : World lib :=
  if !world.surface.visible then world
  else if drainRuntimeUpdates &&
      (world.surface.terminalStateDirty || world.surface.viewportModel.frameId = 0) then
    match world.core.updates with
    | [] => world
    | updates =>
      let (model, consumed, accepted) := applyUpdates world.surface.viewportModel updates
      let rendered := { world with
        core := { world.core with updates := [] }
        surface := { world.surface with
          viewportModel := model
          terminalStateDirty := world.surface.terminalStateDirty && !accepted }
        thrown := world.thrown || !accepted }
      consumed.foldl releaseRenderUpdate rendered
  else world

end World

/-! ## Runs -/

inductive Action (lib : Libghostty) where
  | call (payload : TerminalWorkerPayload lib) (dirty : Bool)
  | setVisible (visible : Bool)
  | setFocused (focused : Bool)
  | renderFrame (drainRuntimeUpdates : Bool)
  | process (outcome : Outcome lib)
  | updateTimer
  | syncTimer
  | deliver
  | crash

/-- A call that is neither a change of the presentation nor a buffer given back. -/
def TerminalWorkerPayload.isCall : TerminalWorkerPayload lib → Bool
  | .setPresentationState _ _ | .recycleRenderUpdate _ _ => false
  | .write _ | .resetAndWriteBytes _ | .resize _ | .setTheme _ | .requestFullFrame => true

def surfaceSystem (lib : Libghostty) : System (World lib) (Action lib) where
  initial world := ∃ terminal visible, lib.Dirtied terminal ∧ world = .start terminal visible
  step world
    | .call payload dirty =>
      if TerminalWorkerPayload.isCall payload then some (world.call payload dirty) else none
    | .setVisible visible => some (world.setVisible visible)
    | .setFocused focused => some (world.setFocused focused)
    | .renderFrame drain => some (world.renderFrame drain)
    | .process outcome => match world.inbox with
        | [] => none
        | message :: rest => some ({ world with inbox := rest }.process message outcome)
    | .updateTimer => world.runtime.bind fun (generation, worker) =>
      (worker.pendingUpdate.filter PendingUpdate.armed).map fun pending =>
        world.ran generation (worker.updateTimeout pending)
    | .syncTimer => world.runtime.bind fun (generation, worker) =>
      worker.syncTimer.map fun command =>
        world.ran generation (worker.synchronizedTimeout command)
    | .deliver => match world.events with
        | [] => none
        | (generation, event) :: rest =>
          some ({ world with events := rest }.receive generation event)
    | .crash => some world.crash

/-- Nothing is on the way, no timer runs, and the updates are rendered. -/
structure Rested (world : World lib) : Prop where
  inbox : world.inbox = []
  events : world.events = []
  updates : world.core.updates = []
  timers : ∀ generation worker, world.runtime = some (generation, worker) →
    worker.syncTimer = none ∧
      ∀ pending, worker.pendingUpdate = some pending → pending.armed = false

/-- Every update is accepted, a frame that is rendered takes in all of them, and
the model shows the screen of the current terminal once all is done. -/
def Survives (world : World lib) : Prop :=
  world.thrown = false ∧ (applyAll world.surface.viewportModel world.core.updates).isSome = true ∧
    (world.surface.visible = true → (world.renderFrame true).core.updates = []) ∧
    (Rested world → world.core.recovering = false → ∃ worker,
      world.runtime = some (world.core.generation, worker) ∧
        (world.surface.visible = true → worker.synchronized = false →
          world.surface.viewportModel.snapshot = worker.core.snapshot.1))

/-- Failures come while nothing has been rendered yet, and when a recovery ends
the new terminal is as visible as the surface. -/
def Spared (world : World lib) (action : Action lib) : Prop :=
  (∀ runtime ∈ world.runtime, runtime.2.core.renderUpdateFrameId < maxSafeInteger) ∧
    match action with
    | .crash => world.core.recovering = false → world.surface.viewportModel.frameId = 0
    | .deliver => ∀ event ∈ world.events.head?, event.1 = world.core.generation →
        (event.2 = .failed → world.core.recovering = false →
          world.surface.viewportModel.frameId = 0) ∧
        (event.2 = .ready → world.core.recovering = true →
          ∀ runtime ∈ world.runtime, runtime.2.visible = world.surface.visible)
    | _ => True

/-! ## Updates on the way -/

def mine (generation : Nat) (events : List (Nat × WorkerEvent)) : List WorkerEvent :=
  events.filterMap fun event => if event.1 = generation then some event.2 else none

def orders (generation : Nat) (inbox : List (CoreCommand lib)) : List (CorePayload lib) :=
  inbox.filterMap fun message => if message.generation = generation then some message.payload else none

def arrivals : List WorkerEvent → List PackedUpdate
  | [] => []
  | .ready :: rest => arrivals rest
  | .packedUpdate update :: rest => update :: arrivals rest
  | .failed :: _ => []

def CorePayload.recycled : CorePayload lib → Option (Nat × Nat)
  | .command payload => payload.recycled
  | .create _ _ => none

def returning (orders : List (CorePayload lib)) : List (Nat × Nat) :=
  orders.filterMap CorePayload.recycled

def foreseen (visible : Bool) : List (CorePayload lib) → Bool
  | [] => visible
  | .command (.setPresentationState next _) :: rest => foreseen next rest
  | _ :: rest => foreseen visible rest

def CorePayload.isCreate : CorePayload lib → Bool
  | .create _ _ => true
  | .command _ => false

variable {model : GhosttyViewportModel}

section Lists

variable {generation : Nat} {events : List (Nat × WorkerEvent)} {inbox : List (CoreCommand lib)}

theorem mine_append (first second : List (Nat × WorkerEvent)) :
    mine generation (first ++ second) = mine generation first ++ mine generation second :=
  filterMap_append

theorem mine_cons_self (event : WorkerEvent) :
    mine generation ((generation, event) :: events) = event :: mine generation events :=
  filterMap_cons_some (if_pos rfl)

theorem mine_cons_other {other : Nat} (h : other ≠ generation) (event : WorkerEvent) :
    mine generation ((other, event) :: events) = mine generation events :=
  filterMap_cons_none (if_neg h)

theorem mine_none (h : ∀ event ∈ events, event.1 ≠ generation) : mine generation events = [] :=
  filterMap_eq_nil_iff.mpr fun event hmem => if_neg (h event hmem)

theorem mine_tagged (worker : TerminalWorker lib) :
    mine generation (tagged generation worker) = worker.posted.map .packedUpdate := by
  unfold mine tagged
  rw [filterMap_map]
  simp only [Function.comp_def, if_true]
  exact congrFun filterMap_eq_map worker.posted

theorem mine_tagged_other {other : Nat} (h : other ≠ generation) (worker : TerminalWorker lib) :
    mine generation (tagged other worker) = [] := by
  refine mine_none fun event hmem => ?_
  obtain ⟨update, -, rfl⟩ := mem_map.mp hmem
  exact h

theorem tagged_generation {other : Nat} {worker : TerminalWorker lib} {event : Nat × WorkerEvent}
    (h : event ∈ tagged other worker) : event.1 = other := by
  obtain ⟨update, -, rfl⟩ := mem_map.mp h
  rfl

theorem orders_append (first second : List (CoreCommand lib)) :
    orders generation (first ++ second) = orders generation first ++ orders generation second :=
  filterMap_append

theorem orders_cons_self (sequence : Nat) (payload : CorePayload lib) :
    orders generation (⟨generation, sequence, payload⟩ :: inbox) =
      payload :: orders generation inbox :=
  filterMap_cons_some (if_pos rfl)

theorem orders_cons_other {message : CoreCommand lib} (h : message.generation ≠ generation) :
    orders generation (message :: inbox) = orders generation inbox :=
  filterMap_cons_none (if_neg h)

theorem arrivals_append (first second : List WorkerEvent) : arrivals (first ++ second) =
      arrivals first ++ if WorkerEvent.failed ∈ first then [] else arrivals second := by
  induction first with
  | nil => simp [arrivals]
  | cons event rest ih =>
    cases event with
    | ready | packedUpdate => simpa [arrivals] using ih
    | failed => simp [arrivals]

theorem arrivals_packed (updates : List PackedUpdate) :
    arrivals (updates.map .packedUpdate) = updates := by
  induction updates with
  | nil => rfl
  | cons update rest ih => rw [map_cons, arrivals, ih]

theorem ready_packed (updates : List PackedUpdate) :
    WorkerEvent.ready ∉ updates.map WorkerEvent.packedUpdate := by
  simp

theorem applyAll_all (model : GhosttyViewportModel) (first second : List PackedUpdate) :
    applyAll model (first ++ second) =
      (applyAll model first).bind fun shown => applyAll shown second := by
  induction first generalizing model with
  | nil => rfl
  | cons update rest ih =>
    rw [cons_append, applyAll, applyAll]
    cases model.apply update.lease.update with
    | none => rfl
    | some next => exact ih next

theorem applyUpdates_accepted {shown : GhosttyViewportModel} {updates : List PackedUpdate}
    (h : applyAll model updates = some shown) :
    World.applyUpdates model updates = (shown, updates, true) := by
  induction updates generalizing model with
  | nil =>
    cases h
    rfl
  | cons update rest ih =>
    obtain ⟨next, hnext, hrest⟩ := bind_eq_some_iff.mp h
    rw [World.applyUpdates, hnext]
    simp only [ih hrest]

theorem applyAll_frame {shown : GhosttyViewportModel} {updates : List PackedUpdate}
    (h : applyAll model updates = some shown) (hsome : updates ≠ []) : shown.frameId ≠ 0 := by
  induction updates generalizing model with
  | nil => exact absurd rfl hsome
  | cons update rest ih =>
    obtain ⟨next, hnext, hrest⟩ := bind_eq_some_iff.mp h
    have hframe : next.frameId ≠ 0 := by
      unfold GhosttyViewportModel.apply at hnext
      obtain ⟨hvalid, hnext⟩ := ite_none_left_eq_some.mp hnext
      obtain ⟨-, hnext⟩ := ite_none_left_eq_some.mp hnext
      obtain ⟨-, hnext⟩ := ite_none_left_eq_some.mp hnext
      obtain ⟨-, hnext⟩ := ite_none_left_eq_some.mp hnext
      obtain ⟨-, hnext⟩ := ite_none_left_eq_some.mp hnext
      cases hnext
      simp only [validateGhosttyRenderUpdate, not_eq_true, not_eq_false',
        and_eq_true, decide_eq_true_eq] at hvalid
      show update.lease.update.frameId ≠ 0
      omega
    cases rest with
    | nil =>
      cases hrest
      exact hframe
    | cons second later => exact ih hrest (cons_ne_nil _ _)

end Lists

/-! ## Invariants -/

section Invariants

variable {world : World lib} {worker worker' : TerminalWorker lib} {updates : List PackedUpdate}
  {events : List WorkerEvent} {payloads : List (CorePayload lib)}

/-- The updates of the current terminal are accepted as far as it has not failed,
and until then the terminal is abreast of them. -/
structure Streams (model : GhosttyViewportModel) (updates : List PackedUpdate)
    (events : List WorkerEvent) (payloads : List (CorePayload lib)) (worker : TerminalWorker lib) :
    Prop where
  few : (updates ++ arrivals events).length ≤ 3
  accepted : ∃ shown, applyAll model (updates ++ arrivals events) = some shown ∧
    (WorkerEvent.failed ∉ events → Abreast shown
      ((updates ++ arrivals events).map PackedUpdate.held ++ returning payloads) worker)

section

variable (h : Streams model updates events payloads worker)
include h

theorem Streams.failed (more : List WorkerEvent)
    (hfailed : WorkerEvent.failed ∈ events) (payloads' : List (CorePayload lib))
    (worker' : TerminalWorker lib) : Streams model updates (events ++ more) payloads' worker' := by
  have hsame : arrivals (events ++ more) = arrivals events := by
    rw [arrivals_append, if_pos hfailed, append_nil]
  obtain ⟨hfew, shown, happl, -⟩ := h
  refine ⟨hsame ▸ hfew, shown, hsame ▸ happl, fun hnot => ?_⟩
  exact absurd (mem_append_left _ hfailed) hnot

theorem Streams.fail (payloads' : List (CorePayload lib)) (worker' : TerminalWorker lib) :
    Streams model updates (events ++ [.failed]) payloads' worker' := by
  by_cases hfailed : WorkerEvent.failed ∈ events
  · exact h.failed _ hfailed _ _
  have hsame : arrivals (events ++ [.failed]) = arrivals events := by
    rw [arrivals_append, if_neg hfailed, arrivals, append_nil]
  obtain ⟨hfew, shown, happl, -⟩ := h
  refine ⟨hsame ▸ hfew, shown, hsame ▸ happl, fun hnot => ?_⟩
  exact absurd mem_concat_self hnot

theorem Streams.step {payloads' : List (CorePayload lib)}
    (hstep : WorkerEvent.failed ∉ events → ∀ shown, Abreast shown
        ((updates ++ arrivals events).map PackedUpdate.held ++ returning payloads) worker →
      ∃ next, applyAll shown worker'.posted = some next ∧
        Abreast next ((updates ++ arrivals events).map PackedUpdate.held ++ returning payloads' ++
          worker'.posted.map PackedUpdate.held) worker'.sent) :
    Streams model updates (events ++ worker'.posted.map .packedUpdate) payloads' worker'.sent := by
  by_cases hfailed : WorkerEvent.failed ∈ events
  · exact h.failed _ hfailed _ _
  obtain ⟨-, shown, happl, habreast⟩ := h
  obtain ⟨next, hnext, hafter⟩ := hstep hfailed shown (habreast hfailed)
  have hsame : updates ++ arrivals (events ++ worker'.posted.map .packedUpdate) =
      updates ++ arrivals events ++ worker'.posted := by
    rw [arrivals_append, if_neg hfailed, arrivals_packed, append_assoc]
  have hleases : Abreast next ((updates ++ arrivals events ++ worker'.posted).map
      PackedUpdate.held ++ returning payloads') worker'.sent := by
    refine hafter.perm ?_
    simp only [map_append, append_assoc]
    exact (perm_append_comm.append_left _).append_left _
  refine ⟨hsame ▸ hleases.few, next, ?_, fun _ => hsame ▸ hleases⟩
  rw [hsame, applyAll_all, happl, bind_some, hnext]

end

theorem Streams.arrive {update : PackedUpdate}
    (h : Streams model updates (.packedUpdate update :: events) payloads worker) :
    Streams model (updates ++ [update]) events payloads worker := by
  have hsame : updates ++ [update] ++ arrivals events =
      updates ++ arrivals (.packedUpdate update :: events) := by
    rw [arrivals, append_assoc, singleton_append]
  obtain ⟨hfew, shown, happl, habreast⟩ := h
  refine ⟨hsame ▸ hfew, shown, hsame ▸ happl, fun hnot => hsame ▸ habreast ?_⟩
  simpa using hnot

theorem Streams.render (h : Streams model updates events payloads worker) :
    ∃ shown, applyAll model updates = some shown ∧ ∀ payloads', returning payloads' =
      returning payloads ++ updates.map PackedUpdate.held →
        Streams shown [] events payloads' worker := by
  obtain ⟨hfew, last, happl, habreast⟩ := h
  rw [applyAll_all] at happl
  obtain ⟨shown, hshown, hrest⟩ := bind_eq_some_iff.mp happl
  refine ⟨shown, hshown, fun payloads' hpayloads => ⟨?_, last, hrest, fun hnot => ?_⟩⟩
  · rw [length_append] at hfew
    rw [nil_append]
    omega
  · rw [hpayloads, nil_append]
    refine (habreast hnot).perm ?_
    rw [map_append, append_assoc, ← append_assoc (List.map _ (arrivals events))]
    exact perm_append_comm

theorem Streams.send (h : Streams model updates events payloads worker)
    {payloads' : List (CorePayload lib)} (hsame : returning payloads' = returning payloads) :
    Streams model updates events payloads' worker := by
  obtain ⟨hfew, shown, happl, habreast⟩ := h
  exact ⟨hfew, shown, happl, fun hnot => hsame ▸ habreast hnot⟩

/-! ### Visibility -/

section

variable (worker : TerminalWorker lib)

theorem emitOrSchedule_visible (command : Nat) (forceFull : Bool) :
    (worker.emitOrSchedule command forceFull).visible = worker.visible := by
  unfold TerminalWorker.emitOrSchedule
  cases hemit : worker.emitUpdate command forceFull with
  | none => rfl
  | some next =>
    obtain ⟨built, -, rfl⟩ := map_eq_some_iff.mp hemit
    rfl

theorem requestPresentation_visible (command : Nat)
    (forceFull : Bool) : (worker.requestPresentation command forceFull).visible = worker.visible := by
  unfold TerminalWorker.requestPresentation
  split
  · dsimp only
    split
    · rfl
    · split <;> rfl
  · split
    · dsimp only
      split <;> rfl
    split
    · exact emitOrSchedule_visible _ _ _
    · exact emitOrSchedule_visible _ _ _

theorem synchronizedTimeout_visible (command : Nat) :
    (worker.synchronizedTimeout command).visible = worker.visible := by
  unfold TerminalWorker.synchronizedTimeout
  split
  · rfl
  split
  · rfl
  · exact emitOrSchedule_visible _ _ _

theorem updateTimeout_visible (pending : PendingUpdate) :
    (worker.updateTimeout pending).visible = worker.visible := by
  unfold TerminalWorker.updateTimeout
  dsimp only
  split
  · rfl
  cases hemit : worker.cancelPendingUpdate.emitUpdate pending.command pending.forceFull with
  | none => rfl
  | some next =>
    obtain ⟨built, -, rfl⟩ := map_eq_some_iff.mp hemit
    rfl

theorem process_visible (sequence : Nat)
    (payload : TerminalWorkerPayload lib) (rest : List (CorePayload lib)) :
    foreseen (worker.process ⟨sequence, payload⟩).visible rest =
      foreseen worker.visible (.command payload :: rest) := by
  cases payload with
  | setPresentationState visible focused =>
    have hvis : (worker.process ⟨sequence, .setPresentationState visible focused⟩).visible =
        visible := by
      unfold TerminalWorker.process
      dsimp only
      split
      · rename_i hsame
        rw [and_eq_true] at hsame
        exact of_decide_eq_true hsame.1
      · split
        · rfl
        split
        · exact requestPresentation_visible _ _ _
        · rfl
    rw [hvis]
    rfl
  | write | resetAndWriteBytes | resize | setTheme | requestFullFrame =>
    exact congrArg (foreseen · rest) (requestPresentation_visible _ _ _)
  | recycleRenderUpdate slotId leaseToken =>
    refine congrArg (foreseen · rest) ?_
    unfold TerminalWorker.process
    dsimp only
    cases worker.core.reclaimRenderUpdate slotId leaseToken with
    | none => rfl
    | some core => rfl

end

theorem foreseen_append (visible : Bool) (first second : List (CorePayload lib)) :
    foreseen visible (first ++ second) = foreseen (foreseen visible first) second := by
  induction first generalizing visible with
  | nil => rfl
  | cons payload rest ih =>
    cases payload with
    | create _ _ => exact ih visible
    | command payload =>
      cases payload with
      | setPresentationState next _ => exact ih next
      | _ => exact ih visible

/-! ### Stages -/

/-- The terminal runs, or has failed; its create is on the way; it is created and
its `ready` on the way; or the create has failed for good. -/
inductive Stage (world : World lib) : Prop where
  | live (worker : TerminalWorker lib) (hrecov : world.core.recovering = false)
      (hrtime : world.runtime = some (world.core.generation, worker))
      (hstrs : Streams world.surface.viewportModel world.core.updates
        (mine world.core.generation world.events) (orders world.core.generation world.inbox) worker)
      (hready : WorkerEvent.ready ∉ mine world.core.generation world.events)
      (hvis : WorkerEvent.failed ∉ mine world.core.generation world.events →
        foreseen worker.visible (orders world.core.generation world.inbox) = world.core.visible)
      (hcreate : ∀ message ∈ world.inbox, message.payload.isCreate = false)
  | waiting (hrecov : world.core.recovering = true) (hupds : world.core.updates = [])
      (hmodel : world.surface.viewportModel = .empty)
      (hrtime : ∀ runtime ∈ world.runtime, runtime.1 < world.core.generation)
      (hmine : mine world.core.generation world.events = [])
      (horders : ∃ before sequence visible focused, world.inbox =
        before ++ [⟨world.core.generation, sequence, .create visible focused⟩] ∧
          ∀ message ∈ before, message.generation ≠ world.core.generation ∧
            message.payload.isCreate = false)
  | created (worker : TerminalWorker lib) (rest : List WorkerEvent)
      (hrecov : world.core.recovering = true) (hupds : world.core.updates = [])
      (hmodel : world.surface.viewportModel = .empty)
      (hrtime : world.runtime = some (world.core.generation, worker))
      (hmine : mine world.core.generation world.events = .ready :: rest)
      (hready : WorkerEvent.ready ∉ rest) (hstrs : Streams .empty [] rest [] worker)
      (horders : orders world.core.generation world.inbox = [])
      (hcreate : ∀ message ∈ world.inbox, message.payload.isCreate = false)
  | stuck (hrecov : world.core.recovering = true) (hupds : world.core.updates = [])
      (hmodel : world.surface.viewportModel = .empty)
      (hrtime : ∀ runtime ∈ world.runtime, runtime.1 < world.core.generation)
      (hmine : ∀ event ∈ mine world.core.generation world.events, event = .failed)
      (hcreate : ∀ message ∈ world.inbox, message.payload.isCreate = false)

/-- What holds in every state of a run that is spared, but for what is visible. -/
structure Fair (world : World lib) : Prop where
  dirtied : lib.Dirtied world.options
  inbox : ∀ message ∈ world.inbox, message.generation ≤ world.core.generation
  events : ∀ event ∈ world.events, event.1 ≤ world.core.generation
  model : world.surface.viewportModel.frameId = 0 → world.surface.viewportModel = .empty
  dirty : world.core.updates ≠ [] → world.surface.terminalStateDirty = true
  calm : world.thrown = false
  stage : Stage world

structure Sound (world : World lib) : Prop where
  fair : Fair world
  agreed : world.core.visible = world.surface.visible

theorem streams_create {terminal : lib.Terminal} (h : lib.Dirtied terminal)
    (visible focused : Bool) :
    Streams .empty [] ((TerminalWorker.create terminal visible focused).posted.map .packedUpdate) []
      (TerminalWorker.create terminal visible focused).sent := by
  obtain ⟨shown, happl, habreast⟩ := abreast_create h visible focused
  have harrivals := arrivals_packed (TerminalWorker.create terminal visible focused).posted
  have hleases : Abreast shown ((TerminalWorker.create terminal visible focused).posted.map
      PackedUpdate.held ++ returning ([] : List (CorePayload lib)))
        (TerminalWorker.create terminal visible focused).sent := by
    simpa [returning] using habreast
  refine ⟨?_, shown, ?_, fun _ => ?_⟩
  · rw [harrivals, nil_append]
    exact hleases.few
  · rw [harrivals]
    exact happl
  · rw [harrivals, nil_append]
    exact hleases

theorem create_visible (terminal : lib.Terminal) (visible focused : Bool) :
    (TerminalWorker.create terminal visible focused).visible = visible := by
  unfold TerminalWorker.create
  dsimp only
  split
  · exact emitOrSchedule_visible _ _ _
  · rfl

theorem sound_start {terminal : lib.Terminal} (h : lib.Dirtied terminal) (visible : Bool) :
    Sound (World.start terminal visible) := by
  refine ⟨⟨h, fun _ hmem => absurd hmem not_mem_nil, fun event hmem => ?_, fun _ => rfl,
    fun hcontra => absurd rfl hcontra, rfl, ?_⟩, rfl⟩
  · exact Nat.le_of_eq (tagged_generation hmem)
  · have hmine : mine 1 (World.start terminal visible).events =
        (TerminalWorker.create terminal visible false).posted.map .packedUpdate := mine_tagged _
    refine .live _ rfl rfl ?_ ?_ (fun _ => create_visible terminal visible false)
      fun _ hmem => absurd hmem not_mem_nil
    · exact hmine.symm ▸ streams_create h visible false
    · exact hmine.symm ▸ ready_packed _

/-! ### Calls -/

theorem Stage.surface (h : Stage world) (visible focused dirty : Bool) :
    Stage { world with surface := ⟨visible, focused, dirty, world.surface.viewportModel⟩ } := by
  cases h with
  | live worker hrecov hrtime hstrs hready hvis hcreate =>
    exact .live worker hrecov hrtime hstrs hready hvis hcreate
  | waiting hrecov hupds hmodel hrtime hmine horders =>
    exact .waiting hrecov hupds hmodel hrtime hmine horders
  | created worker rest hrecov hupds hmodel hrtime hmine hready hstrs horders hcreate =>
    exact .created worker rest hrecov hupds hmodel hrtime hmine hready hstrs horders hcreate
  | stuck hrecov hupds hmodel hrtime hmine hcreate =>
    exact .stuck hrecov hupds hmodel hrtime hmine hcreate

variable {visible focused : Bool} {payload : TerminalWorkerPayload lib}

theorem Stage.command (h : Stage world) (hown : payload.recycled = none)
    (hvis : foreseen world.core.visible [.command payload] = visible) :
    Stage (({ world with core := { world.core with visible := visible, focused := focused } } :
      World lib).command payload) := by
  unfold World.command
  cases h with
  | live worker hrecov hrtime hstrs hready hfores hcreate =>
    simp only [hrecov, false_eq_true, if_false]
    have horders : orders world.core.generation (world.inbox ++
        [⟨world.core.generation, world.core.sequence + 1, .command payload⟩]) =
          orders world.core.generation world.inbox ++ [.command payload] := by
      rw [orders_append, orders_cons_self]
      rfl
    have hnone : CorePayload.recycled (.command payload) = none := hown
    refine .live worker rfl hrtime ?_ hready (fun hnot => ?_) fun message hmem => ?_
    · refine hstrs.send ?_
      refine (congrArg returning horders).trans ?_
      unfold returning
      rw [filterMap_append, filterMap_cons_none hnone, filterMap_nil, append_nil]
    · refine (congrArg (foreseen worker.visible) horders).trans ?_
      rw [foreseen_append, hfores hnot]
      exact hvis
    · rcases mem_snoc.mp hmem with hold | rfl
      · exact hcreate message hold
      · rfl
  | waiting hrecov hupds hmodel hrtime hmine horders =>
    simp only [hrecov, if_true]
    exact .waiting rfl hupds hmodel hrtime hmine horders
  | created worker rest hrecov hupds hmodel hrtime hmine hready hstrs horders hcreate =>
    simp only [hrecov, if_true]
    exact .created worker rest rfl hupds hmodel hrtime hmine hready hstrs horders hcreate
  | stuck hrecov hupds hmodel hrtime hmine hcreate =>
    simp only [hrecov, if_true]
    exact .stuck rfl hupds hmodel hrtime hmine hcreate

theorem command_kept (world : World lib) (payload : TerminalWorkerPayload lib) :
    (world.command payload).options = world.options ∧
      (world.command payload).surface = world.surface ∧
      (world.command payload).events = world.events ∧
      (world.command payload).thrown = world.thrown ∧
      (world.command payload).core.generation = world.core.generation ∧
      (world.command payload).core.visible = world.core.visible ∧
      (world.command payload).core.updates = world.core.updates ∧
      ∀ message ∈ (world.command payload).inbox, message ∈ world.inbox ∨
        message.generation = world.core.generation := by
  unfold World.command
  split
  · exact ⟨rfl, rfl, rfl, rfl, rfl, rfl, rfl, fun _ hmem => .inl hmem⟩
  refine ⟨rfl, rfl, rfl, rfl, rfl, rfl, rfl, fun message hmem => ?_⟩
  rcases mem_snoc.mp hmem with hold | rfl
  · exact .inl hold
  · exact .inr rfl

theorem Fair.command (h : Fair world) (hown : payload.recycled = none)
    (hvis : foreseen world.core.visible [.command payload] = visible) :
    Fair (({ world with core := { world.core with visible := visible, focused := focused } } :
      World lib).command payload) := by
  obtain ⟨hoptions, hsurface, hevs, hthrown, hgen, -, hupds, hinbox⟩ := command_kept
    ({ world with core := { world.core with visible := visible, focused := focused } } : World lib)
    payload
  refine ⟨?_, fun message hmem => ?_, ?_, ?_, ?_, ?_, h.stage.command hown hvis⟩
  · rw [hoptions]
    exact h.dirtied
  · rw [hgen]
    rcases hinbox message hmem with hold | hnew
    · exact h.inbox message hold
    · exact Nat.le_of_eq hnew
  · rw [hevs, hgen]
    exact h.events
  · rw [hsurface]
    exact h.model
  · rw [hupds, hsurface]
    exact h.dirty
  · rw [hthrown]
    exact h.calm

theorem Fair.surface (h : Fair world) (visible focused dirty : Bool) :
    Fair { world with surface :=
      ⟨visible, focused, world.surface.terminalStateDirty || dirty, world.surface.viewportModel⟩ } :=
  { h with
    dirty := fun hsome => by simp [h.dirty hsome]
    stage := h.stage.surface visible focused _ }

theorem Fair.present (h : Fair world) (visible focused : Bool) :
    Fair (world.setPresentationState visible focused) ∧
      (world.setPresentationState visible focused).core.visible = visible ∧
      (world.setPresentationState visible focused).surface = world.surface := by
  unfold World.setPresentationState
  split
  · rename_i hsame
    rw [and_eq_true] at hsame
    exact ⟨h, of_decide_eq_true hsame.1, rfl⟩
  · obtain ⟨-, hsurface, -, -, -, hvis, -, -⟩ := command_kept
      ({ world with core := { world.core with visible := visible, focused := focused } } :
        World lib) (.setPresentationState visible focused)
    exact ⟨h.command rfl rfl, hvis, hsurface⟩

theorem Sound.setFocused (h : Sound world) (focused : Bool) : Sound (world.setFocused focused) := by
  have hfair := h.fair.surface world.surface.visible focused false
  rw [Bool.or_false] at hfair
  obtain ⟨hnext, hvis, hsurface⟩ := hfair.present world.surface.visible focused
  exact ⟨hnext, hvis.trans (congrArg TerminalSurface.visible hsurface).symm⟩

theorem Sound.command (h : Sound world)
    (hcall : TerminalWorkerPayload.isCall payload = true) : Sound (world.command payload) := by
  obtain ⟨-, hsurface, -, -, -, hvis, -, -⟩ := command_kept world payload
  have hown : payload.recycled = none := by
    cases payload <;> first | rfl | cases hcall
  have hfores : foreseen world.core.visible [.command payload] = world.core.visible := by
    cases payload <;> first | rfl | cases hcall
  refine ⟨@Fair.command lib world _ world.core.focused _ h.fair hown hfores, ?_⟩
  rw [hvis, hsurface]
  exact h.agreed

theorem Sound.call (h : Sound world) (dirty : Bool)
    (hcall : TerminalWorkerPayload.isCall payload = true) : Sound (world.call payload dirty) :=
  Sound.command ⟨h.fair.surface world.surface.visible world.surface.focused dirty, h.agreed⟩ hcall

theorem Sound.setVisible (h : Sound world) (visible : Bool) : Sound (world.setVisible visible) := by
  unfold World.setVisible
  split
  · exact h
  have hfair := h.fair.surface visible world.surface.focused false
  rw [Bool.or_false] at hfair
  obtain ⟨hnext, hvis, hsurface⟩ := hfair.present visible world.surface.focused
  have hsound : Sound (@World.setPresentationState lib { world with surface :=
      { world.surface with visible := visible } } visible world.surface.focused) :=
    ⟨hnext, hvis.trans (congrArg TerminalSurface.visible hsurface).symm⟩
  dsimp only
  split
  · exact hsound.command rfl
  · exact hsound

/-! ### Frames -/

def recycles (generation : Nat) : Nat → List PackedUpdate → List (CoreCommand lib)
  | _, [] => []
  | sequence, update :: rest =>
    ⟨generation, sequence + 1,
      .command (.recycleRenderUpdate update.lease.slotId update.lease.leaseToken)⟩ ::
        recycles generation (sequence + 1) rest

theorem releases (updates : List PackedUpdate) (world : World lib)
    (hrecov : world.core.recovering = false) : updates.foldl World.releaseRenderUpdate world =
      { world with
        core := { world.core with sequence := world.core.sequence + updates.length }
        inbox := world.inbox ++ recycles world.core.generation world.core.sequence updates } := by
  induction updates generalizing world with
  | nil => simp [recycles]
  | cons update rest ih =>
    have hfirst : world.releaseRenderUpdate update = world.send
        (.command (.recycleRenderUpdate update.lease.slotId update.lease.leaseToken)) := by
      unfold World.releaseRenderUpdate World.command
      rw [hrecov]
      rfl
    rw [foldl_cons, hfirst, ih (world.send _) hrecov]
    simp only [World.send, recycles, append_assoc, singleton_append, length_cons]
    congr 2
    omega

theorem orders_recycles (generation sequence : Nat) (updates : List PackedUpdate) :
    orders generation (@recycles lib generation sequence updates) =
      updates.map fun update =>
        .command (.recycleRenderUpdate update.lease.slotId update.lease.leaseToken) := by
  induction updates generalizing sequence with
  | nil => rfl
  | cons update rest ih => rw [recycles, orders_cons_self, ih, map_cons]

variable {message : CoreCommand lib}

theorem recycles_of {generation sequence : Nat}
    (h : message ∈ recycles generation sequence updates) :
    message.generation = generation ∧ message.payload.isCreate = false := by
  induction updates generalizing sequence with
  | nil => cases h
  | cons update rest ih =>
    rcases mem_cons.mp h with rfl | hrest
    · exact ⟨rfl, rfl⟩
    · exact ih hrest

theorem foreseen_recycles (visible : Bool) (updates : List PackedUpdate) :
    @foreseen lib visible (updates.map fun update =>
      .command (.recycleRenderUpdate update.lease.slotId update.lease.leaseToken)) = visible := by
  induction updates with
  | nil => rfl
  | cons update rest ih => exact ih

theorem Stage.render (h : Stage world) (hsome : world.core.updates ≠ []) :
    world.core.recovering = false ∧ ∃ shown,
      applyAll world.surface.viewportModel world.core.updates = some shown ∧ ∀ dirty,
        Stage { world with
          core := { world.core with
            updates := [], sequence := world.core.sequence + world.core.updates.length }
          surface := { world.surface with viewportModel := shown, terminalStateDirty := dirty }
          inbox := world.inbox ++
            recycles world.core.generation world.core.sequence world.core.updates } := by
  cases h with
  | live worker hrecov hrtime hstrs hready hfores hcreate =>
    obtain ⟨shown, hshown, hrest⟩ := hstrs.render
    have horders : orders world.core.generation (world.inbox ++
        recycles world.core.generation world.core.sequence world.core.updates) =
          orders world.core.generation world.inbox ++ world.core.updates.map fun update =>
            .command (.recycleRenderUpdate update.lease.slotId update.lease.leaseToken) := by
      rw [orders_append, orders_recycles]
    refine ⟨hrecov, shown, hshown, fun dirty => .live worker hrecov hrtime ?_ hready
      (fun hnot => ?_) fun message hmem => ?_⟩
    · refine hrest _ ((congrArg returning horders).trans ?_)
      unfold returning
      rw [filterMap_append, filterMap_map]
      congr 1
      exact congrFun filterMap_eq_map _
    · refine (congrArg (foreseen worker.visible) horders).trans ?_
      rw [foreseen_append, foreseen_recycles]
      exact hfores hnot
    · rcases mem_append.mp hmem with hold | hnew
      · exact hcreate message hold
      · exact (recycles_of hnew).2
  | waiting _ hupds | created _ _ _ hupds | stuck _ hupds => exact absurd hupds hsome

theorem Sound.renderFrame (h : Sound world) (drain : Bool) : Sound (world.renderFrame drain) := by
  unfold World.renderFrame
  split
  · exact h
  split
  · cases hupds : world.core.updates with
    | nil => exact h
    | cons update rest =>
      have hsome : world.core.updates ≠ [] := by
        rw [hupds]
        exact cons_ne_nil _ _
      obtain ⟨hrecov, shown, hshown, hstage⟩ := h.fair.stage.render hsome
      have hframe := applyAll_frame hshown hsome
      rw [hupds] at hshown hstage
      simp only [applyUpdates_accepted hshown, Bool.not_true, Bool.and_false, Bool.or_false]
      rw [releases]
      swap
      · exact hrecov
      refine ⟨⟨h.fair.dirtied, fun message hmem => ?_, h.fair.events,
        fun hzero => absurd hzero hframe, fun hcontra => absurd rfl hcontra, h.fair.calm,
        hstage false⟩, h.agreed⟩
      rcases mem_append.mp hmem with hold | hnew
      · exact h.fair.inbox message hold
      · exact Nat.le_of_eq (recycles_of hnew).1
  · exact h

theorem Sound.drained (h : Sound world) (hvis : world.surface.visible = true) :
    (world.renderFrame true).core.updates = [] := by
  unfold World.renderFrame
  rw [if_neg (by simp [hvis])]
  by_cases hsome : world.core.updates = []
  · split
    · rw [hsome]
      exact hsome
    · exact hsome
  obtain ⟨hrecov, shown, hshown, -⟩ := h.fair.stage.render hsome
  rw [if_pos (by simp [h.fair.dirty hsome])]
  cases hupds : world.core.updates with
  | nil => exact absurd hupds hsome
  | cons update rest =>
    rw [hupds] at hshown
    simp only [applyUpdates_accepted hshown]
    rw [releases]
    exact hrecov

/-! ### The worker -/

def Steps (worker worker' : TerminalWorker lib) : Prop :=
  worker'.visible = worker.visible ∧ ∀ shown others, Abreast shown others worker →
    ∃ next, applyAll shown worker'.posted = some next ∧
      Abreast next (others ++ worker'.posted.map PackedUpdate.held) worker'.sent

theorem Stage.ran (h : Stage world) {generation : Nat}
    (hrtime : world.runtime = some (generation, worker)) (hsteps : Steps worker worker') :
    Stage (world.ran generation worker') := by
  obtain ⟨hvis, hstep⟩ := hsteps
  have hold : generation < world.core.generation →
      mine world.core.generation (world.events ++ tagged generation worker') =
        mine world.core.generation world.events := by
    intro hlt
    rw [mine_append, mine_tagged_other (Nat.ne_of_lt hlt), append_nil]
  cases h with
  | live current hrecov hcur hstrs hready hfores hcreate =>
    rw [hrtime] at hcur
    cases hcur
    have hmine : mine world.core.generation (world.events ++ tagged world.core.generation worker') =
        mine world.core.generation world.events ++ worker'.posted.map .packedUpdate := by
      rw [mine_append, mine_tagged]
    refine .live worker'.sent hrecov rfl ?_ ?_ (fun hnot => ?_) hcreate
    · exact hmine.symm ▸ hstrs.step fun _ shown habreast => hstep shown _ habreast
    · refine fun hmem => ?_
      rcases mem_append.mp (hmine ▸ hmem) with hbef | hnew
      · exact hready hbef
      · exact ready_packed _ hnew
    · refine (congrArg (foreseen · _) hvis).trans (hfores fun hmem => hnot ?_)
      exact hmine.symm ▸ mem_append_left _ hmem
  | waiting hrecov hupds hmodel hruntimes hmine horders =>
    have hlt := hruntimes _ hrtime
    refine .waiting hrecov hupds hmodel (fun runtime hmem => ?_) ((hold hlt).trans hmine) horders
    cases hmem
    exact hlt
  | created current rest hrecov hupds hmodel hcur hmine hready hstrs horders hcreate =>
    rw [hrtime] at hcur
    cases hcur
    have hafter : mine world.core.generation (world.events ++ tagged world.core.generation worker') =
        .ready :: (rest ++ worker'.posted.map .packedUpdate) := by
      rw [mine_append, hmine, mine_tagged]
      rfl
    refine .created worker'.sent _ hrecov hupds hmodel rfl hafter (fun hmem => ?_)
      (hstrs.step fun _ shown habreast => hstep shown _ habreast) horders hcreate
    rcases mem_append.mp hmem with hbef | hnew
    · exact hready hbef
    · exact ready_packed _ hnew
  | stuck hrecov hupds hmodel hruntimes hmine hcreate =>
    have hlt := hruntimes _ hrtime
    refine .stuck hrecov hupds hmodel (fun runtime hmem => ?_)
      (fun event hmem => hmine event ((hold hlt) ▸ hmem)) hcreate
    cases hmem
    exact hlt

theorem Stage.runtime_le (h : Stage world) {generation : Nat}
    (hrtime : world.runtime = some (generation, worker)) : generation ≤ world.core.generation := by
  cases h with
  | live _ _ hcur | created _ _ _ _ _ hcur =>
    rw [hrtime] at hcur
    cases hcur
    exact le_rfl
  | waiting _ _ _ hruntimes _ _ | stuck _ _ _ hruntimes _ _ =>
    exact Nat.le_of_lt (hruntimes _ hrtime)

theorem Sound.ran (h : Sound world) {generation : Nat}
    (hrtime : world.runtime = some (generation, worker)) (hsteps : Steps worker worker') :
    Sound (world.ran generation worker') := by
  refine ⟨⟨h.fair.dirtied, h.fair.inbox, fun event hmem => ?_, h.fair.model, h.fair.dirty,
    h.fair.calm, h.fair.stage.ran hrtime hsteps⟩, h.agreed⟩
  rcases mem_append.mp hmem with hold | hnew
  · exact h.fair.events event hold
  · rw [tagged_generation hnew]
    exact h.fair.stage.runtime_le hrtime

variable {rest : List (CoreCommand lib)}

theorem Stage.pop (h : Stage world)
    (hinbox : world.inbox = message :: rest) (hcommand : message.payload.isCreate = false)
    (hother : ∀ runtime ∈ world.runtime, runtime.1 ≠ message.generation) :
    Stage { world with inbox := rest } := by
  have hrest : ∀ other ∈ rest, other ∈ world.inbox := fun other hmem =>
    hinbox ▸ mem_cons_of_mem _ hmem
  have horders : world.core.generation ≠ message.generation →
      orders world.core.generation world.inbox = orders world.core.generation rest := by
    intro hne
    rw [hinbox, orders_cons_other hne.symm]
  cases h with
  | live worker hrecov hrtime hstrs hready hfores hcreate =>
    have hsame := horders (hother _ hrtime)
    exact .live worker hrecov hrtime (hsame ▸ hstrs) hready (hsame ▸ hfores)
      fun other hmem => hcreate other (hrest other hmem)
  | waiting hrecov hupds hmodel hrtime hmine horder =>
    obtain ⟨before, sequence, visible, focused, hbef, hold⟩ := horder
    rw [hinbox] at hbef
    cases before with
    | nil =>
      cases hbef
      cases hcommand
    | cons first others =>
      obtain ⟨-, hlater⟩ := List.cons.inj hbef
      exact .waiting hrecov hupds hmodel hrtime hmine ⟨others, sequence, visible,
        focused, hlater, fun other hmem => hold other (mem_cons_of_mem _ hmem)⟩
  | created worker events hrecov hupds hmodel hrtime hmine hready hstrs hnone hcreate =>
    exact .created worker events hrecov hupds hmodel hrtime hmine hready hstrs
      ((horders (hother _ hrtime)).symm.trans hnone)
      fun other hmem => hcreate other (hrest other hmem)
  | stuck hrecov hupds hmodel hrtime hmine hcreate =>
    exact .stuck hrecov hupds hmodel hrtime hmine fun other hmem => hcreate other (hrest other hmem)

/-- A command of the terminal that runs takes it on by a step, or it fails. -/
theorem Stage.process (h : Stage world) {sequence generation : Nat}
    (hinbox : world.inbox = ⟨generation, sequence, .command payload⟩ :: rest)
    (hrtime : world.runtime = some (generation, worker))
    (hlimit : worker.core.renderUpdateFrameId < maxSafeInteger) (outcome : Outcome lib) :
    Stage (({ world with inbox := rest } : World lib).process
      ⟨generation, sequence, .command payload⟩ outcome) := by
  have hrest : ∀ other ∈ rest, other ∈ world.inbox := fun other hmem =>
    hinbox ▸ mem_cons_of_mem _ hmem
  -- what a terminal of an older generation posts is not looked at
  have hold : generation < world.core.generation → ∀ events,
      (∀ event ∈ events, event.1 = generation) → mine world.core.generation (world.events ++ events) =
        mine world.core.generation world.events := by
    intro hlt events hevs
    rw [mine_append, mine_none fun event hmem => (hevs event hmem).trans_ne (Nat.ne_of_lt hlt),
      append_nil]
  have hshape : ∃ left events, (∀ event ∈ events, event.1 = generation) ∧
      ({ world with inbox := rest } : World lib).process ⟨generation, sequence, .command payload⟩
        outcome = { world with
          inbox := rest, runtime := some (generation, left), events := world.events ++ events } := by
    unfold World.process
    simp only [hrtime, ne_eq, not_true_eq_false, if_false]
    cases outcome with
    | done => exact ⟨_, _, fun event hmem => tagged_generation hmem, rfl⟩
    | failed posted left =>
      refine ⟨left.getD worker, (if posted then
        tagged generation (worker.process ⟨sequence, payload⟩) else []) ++ [(generation, .failed)],
        fun event hmem => ?_, by simp only [append_assoc]⟩
      rcases mem_snoc.mp hmem with hfirst | rfl
      · split at hfirst
        · exact tagged_generation hfirst
        · cases hfirst
      · rfl
  cases h with
  | live current hrecov hcur hstrs hready hfores hcreate =>
    rw [hrtime] at hcur
    cases hcur
    have horders : orders world.core.generation world.inbox =
        .command payload :: orders world.core.generation rest := by
      rw [hinbox, orders_cons_self]
    rw [horders] at hstrs hfores
    have hvis := process_visible worker sequence payload (orders world.core.generation rest)
    -- the step itself: a buffer that comes back, or a command
    have hnext : Streams world.surface.viewportModel world.core.updates
        (mine world.core.generation world.events ++
          (worker.process ⟨sequence, payload⟩).posted.map .packedUpdate)
        (orders world.core.generation rest) (worker.process ⟨sequence, payload⟩).sent := by
      refine hstrs.step fun _ shown habreast => ?_
      cases hrecycled : payload.recycled with
      | none =>
        have hsame : returning (.command payload :: orders world.core.generation rest) =
            returning (orders world.core.generation rest) :=
          filterMap_cons_none hrecycled
        rw [hsame] at habreast
        exact habreast.process hlimit hrecycled
      | some lease =>
        cases payload with
        | recycleRenderUpdate slotId leaseToken =>
          obtain ⟨hposted, hafter⟩ := @Abreast.recycle lib _ _ _ (slotId, leaseToken)
            (habreast.perm perm_middle) sequence
          refine ⟨shown, ?_, ?_⟩
          · rw [hposted]
            rfl
          · rw [hposted, map_nil, append_nil]
            exact hafter
        | _ => cases hrecycled
    unfold World.process
    simp only [hrtime, ne_eq, not_true_eq_false, if_false]
    cases outcome with
    | done =>
      have hmine : mine world.core.generation (world.events ++
          tagged world.core.generation (worker.process ⟨sequence, payload⟩)) =
            mine world.core.generation world.events ++
              (worker.process ⟨sequence, payload⟩).posted.map .packedUpdate := by
        rw [mine_append, mine_tagged]
      refine .live _ hrecov rfl (hmine.symm ▸ hnext) (fun hmem => ?_) (fun hnot => ?_)
        fun other hmem => hcreate other (hrest other hmem)
      · rcases mem_append.mp (hmine ▸ hmem) with hbef | hnew
        · exact hready hbef
        · exact ready_packed _ hnew
      · refine hvis.trans (hfores fun hmem => hnot ?_)
        exact hmine.symm ▸ mem_append_left _ hmem
    | failed posted left =>
      have hmine : mine world.core.generation (world.events ++
          (if posted then tagged world.core.generation (worker.process ⟨sequence, payload⟩)
            else []) ++ [(world.core.generation, .failed)]) =
          mine world.core.generation world.events ++ (if posted then
            (worker.process ⟨sequence, payload⟩).posted.map .packedUpdate else []) ++
            [.failed] := by
        rw [mine_append, mine_append]
        cases posted with
        | true =>
          rw [if_pos rfl, if_pos rfl, mine_tagged, mine_cons_self]
          rfl
        | false =>
          rw [if_neg Bool.false_ne_true, if_neg Bool.false_ne_true, mine_cons_self]
          rfl
      refine .live _ hrecov rfl ?_ (fun hmem => ?_) (fun hnot => ?_)
        fun other hmem => hcreate other (hrest other hmem)
      · refine hmine.symm ▸ ?_
        cases posted with
        | true => exact hnext.fail _ _
        | false =>
          rw [if_neg Bool.false_ne_true, append_nil]
          exact hstrs.fail _ _
      · rcases mem_append.mp (hmine ▸ hmem) with hbef | hlast
        · rcases mem_append.mp hbef with hfirst | hnew
          · exact hready hfirst
          cases posted with
          | true => exact ready_packed _ hnew
          | false => cases hnew
        · cases mem_singleton.mp hlast
      · refine absurd ?_ hnot
        exact hmine.symm ▸ mem_concat_self
  | waiting hrecov hupds hmodel hruntimes hmine horder =>
    obtain ⟨before, number, visible, focused, hbef, hothers⟩ := horder
    have hlt := hruntimes _ hrtime
    obtain ⟨left, events, hevs, hworld⟩ := hshape
    rw [hworld]
    rw [hinbox] at hbef
    cases before with
    | nil => cases hbef
    | cons first others =>
      obtain ⟨-, hlater⟩ := List.cons.inj hbef
      refine .waiting hrecov hupds hmodel (fun runtime hmem => ?_)
        ((hold hlt events hevs).trans hmine) ⟨others, number, visible, focused, hlater,
          fun other hmem => hothers other (mem_cons_of_mem _ hmem)⟩
      cases hmem
      exact hlt
  | created current others hrecov hupds hmodel hcur hmine hready hstrs hnone hcreate =>
    rw [hrtime] at hcur
    cases hcur
    rw [hinbox, orders_cons_self] at hnone
    cases hnone
  | stuck hrecov hupds hmodel hruntimes hmine hcreate =>
    have hlt := hruntimes _ hrtime
    obtain ⟨left, events, hevs, hworld⟩ := hshape
    rw [hworld]
    refine .stuck hrecov hupds hmodel (fun runtime hmem => ?_)
      (fun event hmem => hmine event ((hold hlt events hevs) ▸ hmem))
      fun other hmem => hcreate other (hrest other hmem)
    cases hmem
    exact hlt

/-- A create is the last of the commands, and waited for. -/
theorem Stage.create (h : Stage world) (hdirtied : lib.Dirtied world.options) {generation : Nat}
    {sequence : Nat}
    (hinbox : world.inbox = ⟨generation, sequence, .create visible focused⟩ :: rest)
    (outcome : Outcome lib) :
    generation = world.core.generation ∧ Stage (({ world with inbox := rest } : World lib).process
      ⟨generation, sequence, .create visible focused⟩ outcome) := by
  have hnever : ¬∀ message ∈ world.inbox, message.payload.isCreate = false := fun hcreate =>
    absurd (hcreate _ (hinbox ▸ mem_cons_self)) (fun hcontra => by cases hcontra)
  cases h with
  | live _ _ _ _ _ _ hcreate | created _ _ _ _ _ _ _ _ _ _ hcreate | stuck _ _ _ _ _ hcreate =>
    exact absurd hcreate hnever
  | waiting hrecov hupds hmodel hruntimes hmine horder =>
    obtain ⟨before, number, shown, focus, hbef, hothers⟩ := horder
    rw [hinbox] at hbef
    cases before with
    | cons first others =>
      obtain ⟨rfl, -⟩ := List.cons.inj hbef
      exact absurd (hothers _ mem_cons_self).2 (fun hcontra => by cases hcontra)
    | nil =>
      cases hbef
      refine ⟨rfl, ?_⟩
      have hempty : ∀ message ∈ ([] : List (CoreCommand lib)),
          message.payload.isCreate = false := forall_mem_nil _
      cases outcome with
      | done =>
        have hafter : mine world.core.generation (world.events ++
            (world.core.generation, .ready) :: tagged world.core.generation
              (TerminalWorker.create world.options visible focused)) = .ready ::
                (TerminalWorker.create world.options visible focused).posted.map .packedUpdate := by
          rw [mine_append, hmine, mine_cons_self, mine_tagged]
          rfl
        exact .created _ _ hrecov hupds hmodel rfl hafter (ready_packed _)
          (streams_create hdirtied visible focused) rfl hempty
      | failed posted left =>
        cases left with
        | none =>
          refine .stuck hrecov hupds hmodel hruntimes (fun event hmem => ?_) hempty
          have hafter : mine world.core.generation (world.events ++
              [(world.core.generation, .failed)]) = [.failed] := by
            rw [mine_append, hmine, mine_cons_self]
            rfl
          exact mem_singleton.mp (hafter ▸ hmem)
        | some left =>
          have hafter : mine world.core.generation (world.events ++
              [(world.core.generation, .ready), (world.core.generation, .failed)]) =
                .ready :: [.failed] := by
            rw [mine_append, hmine, mine_cons_self, mine_cons_self]
            rfl
          refine .created left [.failed] hrecov hupds hmodel rfl hafter ?_ ?_ rfl hempty
          · exact fun hmem => by cases mem_singleton.mp hmem
          · exact ⟨Nat.zero_le 3, .empty, rfl, fun hnot => absurd mem_cons_self hnot⟩

theorem Sound.process (h : Sound world) (hinbox : world.inbox = message :: rest)
    (hlimit : ∀ runtime ∈ world.runtime, runtime.2.core.renderUpdateFrameId < maxSafeInteger)
    (outcome : Outcome lib) :
    Sound (({ world with inbox := rest } : World lib).process message outcome) := by
  obtain ⟨generation, sequence, payload⟩ := message
  have hbound := h.fair.inbox _ (hinbox ▸ mem_cons_self)
  have hrest : ∀ other ∈ rest, other.generation ≤ world.core.generation := fun other hmem =>
    h.fair.inbox other (hinbox ▸ mem_cons_of_mem _ hmem)
  -- all that a command posts carries its generation
  have hfair : ∀ runtime events, (∀ event ∈ events, event.1 = generation) →
      Stage { world with
        inbox := rest, runtime := runtime, events := world.events ++ events } →
      Sound { world with inbox := rest, runtime := runtime, events := world.events ++ events } := by
    intro runtime events hevs hstage
    refine ⟨⟨h.fair.dirtied, hrest, fun event hmem => ?_, h.fair.model, h.fair.dirty, h.fair.calm,
      hstage⟩, h.agreed⟩
    rcases mem_append.mp hmem with hold | hnew
    · exact h.fair.events event hold
    · exact (hevs event hnew).trans_le hbound
  cases payload with
  | create visible focused =>
    obtain ⟨-, hstage⟩ := h.fair.stage.create h.fair.dirtied hinbox outcome
    cases outcome with
    | done =>
      refine hfair _ _ (fun event hmem => ?_) hstage
      rcases mem_cons.mp hmem with rfl | hlater
      · rfl
      · exact tagged_generation hlater
    | failed posted left =>
      cases left with
      | none =>
        refine hfair _ _ (fun event hmem => ?_) hstage
        rw [mem_singleton.mp hmem]
      | some left =>
        refine hfair _ _ (fun event hmem => ?_) hstage
        rcases mem_cons.mp hmem with rfl | hlater
        · rfl
        · rw [mem_singleton.mp hlater]
  | command payload =>
    have hpop : (∀ runtime ∈ world.runtime, runtime.1 ≠ generation) →
        Sound { world with inbox := rest } := fun hother =>
      ⟨⟨h.fair.dirtied, hrest, h.fair.events, h.fair.model, h.fair.dirty, h.fair.calm,
        h.fair.stage.pop hinbox rfl hother⟩, h.agreed⟩
    rcases eq_none_or_eq_some world.runtime with hrtime | ⟨⟨number, worker⟩, hrtime⟩
    · have hsame : ({ world with inbox := rest } : World lib).process
          ⟨generation, sequence, .command payload⟩ outcome = { world with inbox := rest } := by
        unfold World.process
        simp only [hrtime]
      rw [hsame]
      exact hpop fun runtime hmem => by rw [hrtime] at hmem; cases hmem
    · by_cases hnumber : number = generation
      · subst hnumber
        have hstage := h.fair.stage.process hinbox hrtime (hlimit _ hrtime) outcome
        unfold World.process at hstage ⊢
        simp only [hrtime, ne_eq, not_true_eq_false, if_false] at hstage ⊢
        cases outcome with
        | done => exact hfair _ _ (fun event hmem => tagged_generation hmem) hstage
        | failed posted left =>
          simp only [append_assoc] at hstage ⊢
          refine hfair _ _ (fun event hmem => ?_) hstage
          rcases mem_snoc.mp hmem with hfirst | rfl
          · split at hfirst
            · exact tagged_generation hfirst
            · cases hfirst
          · rfl
      · have hsame : ({ world with inbox := rest } : World lib).process
            ⟨generation, sequence, .command payload⟩ outcome = { world with inbox := rest } := by
          unfold World.process
          simp only [hrtime, ne_eq, hnumber, not_false_eq_true, if_true]
        rw [hsame]
        refine hpop fun runtime hmem => ?_
        rw [hrtime] at hmem
        cases hmem
        exact hnumber

/-! ### Failures -/

theorem Stage.blank (h : Stage world) (hrecov : world.core.recovering = true) :
    world.core.updates = [] ∧ world.surface.viewportModel = .empty := by
  cases h with
  | live _ hlive _ _ _ _ _ =>
    rw [hlive] at hrecov
    cases hrecov
  | waiting _ hupds hmodel | created _ _ _ hupds hmodel | stuck _ hupds hmodel =>
    exact ⟨hupds, hmodel⟩

theorem Fair.fail (h : Fair world) (hrecov : world.core.recovering = false)
    (hmodel : world.surface.viewportModel = .empty)
    (inbox : List (CoreCommand lib)) (runtime : Option (Nat × TerminalWorker lib))
    (events : List (Nat × WorkerEvent)) (hinbox : ∀ message ∈ inbox, message ∈ world.inbox)
    (hrtime : ∀ current ∈ runtime, current ∈ world.runtime)
    (hevs : ∀ event ∈ events, event ∈ world.events) :
    Fair (World.fail { world with inbox := inbox, runtime := runtime, events := events }) := by
  unfold World.fail
  simp only [hrecov, false_eq_true, if_false]
  have hcreate : ∀ message ∈ world.inbox, message.payload.isCreate = false := by
    cases h.stage with
    | live _ _ _ _ _ _ hcreate => exact hcreate
    | waiting hcontra | stuck hcontra => exact absurd (hrecov.symm.trans hcontra) Bool.noConfusion
    | created _ _ hcontra _ _ _ _ _ _ _ _ =>
      exact absurd (hrecov.symm.trans hcontra) Bool.noConfusion
  have hlt : ∀ event ∈ events, event.1 < world.core.generation + 1 := fun event hmem =>
    Nat.lt_succ_of_le (h.events event (hevs event hmem))
  have hinbox' : ∀ message ∈ inbox, message.generation < world.core.generation + 1 :=
    fun message hmem => Nat.lt_succ_of_le (h.inbox message (hinbox message hmem))
  refine ⟨h.dirtied, fun message hmem => ?_, fun event hmem => Nat.le_of_lt (hlt event hmem),
    h.model, fun hcontra => absurd rfl hcontra, h.calm, ?_⟩
  · rcases mem_snoc.mp hmem with hold | rfl
    · exact Nat.le_of_lt (hinbox' message hold)
    · exact le_rfl
  · refine .waiting rfl rfl hmodel (fun current hmem => ?_) ?_
      ⟨inbox, 1, world.core.visible, world.core.focused, rfl, fun message hmem =>
        ⟨Nat.ne_of_lt (hinbox' message hmem), hcreate message (hinbox message hmem)⟩⟩
    · exact Nat.lt_succ_of_le (@Stage.runtime_le lib world current.2 h.stage _ (hrtime current hmem))
    · exact mine_none fun event hmem => Nat.ne_of_lt (hlt event hmem)

theorem Sound.crash (h : Sound world)
    (hspared : world.core.recovering = false → world.surface.viewportModel.frameId = 0) :
    Sound world.crash := by
  have hnone : ∀ {α : Type} {P : α → Prop}, ∀ item ∈ ([] : List α), P item := forall_mem_nil _
  unfold World.crash
  cases hrecov : world.core.recovering with
  | false =>
    have hfair := h.fair.fail hrecov (h.fair.model (hspared hrecov)) [] none [] hnone
      (fun _ hmem => by cases hmem) hnone
    refine ⟨hfair, ?_⟩
    unfold World.fail
    simp only [hrecov, false_eq_true, if_false]
    exact h.agreed
  | true =>
    obtain ⟨hupds, hmodel⟩ := h.fair.stage.blank hrecov
    unfold World.fail
    rw [if_pos hrecov]
    exact ⟨⟨h.fair.dirtied, hnone, hnone, h.fair.model, h.fair.dirty, h.fair.calm,
      .stuck hrecov hupds hmodel (fun _ hmem => by cases hmem) hnone hnone⟩, h.agreed⟩

/-! ### Events -/

theorem Stage.skip (h : Stage world) {others : List (Nat × WorkerEvent)}
    (hsame : mine world.core.generation others = mine world.core.generation world.events) :
    Stage { world with events := others } := by
  cases h with
  | live worker hrecov hrtime hstrs hready hfores hcreate =>
    exact .live worker hrecov hrtime (hsame.symm ▸ hstrs) (hsame.symm ▸ hready)
      (hsame.symm ▸ hfores) hcreate
  | waiting hrecov hupds hmodel hrtime hmine horders =>
    exact .waiting hrecov hupds hmodel hrtime (hsame.trans hmine) horders
  | created worker rest hrecov hupds hmodel hrtime hmine hready hstrs horders hcreate =>
    exact .created worker rest hrecov hupds hmodel hrtime (hsame.trans hmine) hready
      hstrs horders hcreate
  | stuck hrecov hupds hmodel hrtime hmine hcreate =>
    exact .stuck hrecov hupds hmodel hrtime (hsame.symm ▸ hmine) hcreate

variable {rest : List (Nat × WorkerEvent)}

theorem Stage.ready (h : Stage world) (hmine : mine world.core.generation world.events =
      .ready :: mine world.core.generation rest)
    (hvis : world.core.recovering = true →
      ∀ runtime ∈ world.runtime, runtime.2.visible = world.core.visible) :
    world.core.recovering = true ∧
      Stage { world with core := { world.core with recovering := false }, events := rest } := by
  cases h with
  | live _ _ _ _ hready _ _ => exact absurd (hmine ▸ mem_cons_self) hready
  | waiting _ _ _ _ hnone _ =>
    rw [hmine] at hnone
    cases hnone
  | stuck _ _ _ _ hfailed _ => cases hfailed _ (hmine ▸ mem_cons_self)
  | created worker events hrecov hupds hmodel hrtime hcrd hready hstrs horders
      hcreate =>
      rw [hmine] at hcrd
      obtain ⟨-, rfl⟩ := List.cons.inj hcrd
      refine ⟨hrecov, .live worker rfl hrtime ?_ hready (fun _ => ?_) hcreate⟩
      · have hstart : Streams world.surface.viewportModel world.core.updates
            (mine world.core.generation rest) (orders world.core.generation world.inbox) worker := by
          rw [hmodel, hupds, horders]
          exact hstrs
        exact hstart
      · have hfores : foreseen worker.visible (orders world.core.generation world.inbox) =
            world.core.visible := by
          rw [horders]
          exact hvis hrecov _ hrtime
        exact hfores

theorem Stage.push (h : Stage world) {update : PackedUpdate}
    (hmine : mine world.core.generation world.events =
      .packedUpdate update :: mine world.core.generation rest) :
    (world.core.updates ++ [update]).length ≤ 3 ∧
      Stage { world with
        core := { world.core with updates := world.core.updates ++ [update] }
        surface := { world.surface with terminalStateDirty := true }
        events := rest } := by
  cases h with
  | waiting _ _ _ _ hnone _ =>
    rw [hmine] at hnone
    cases hnone
  | created _ _ _ _ _ _ hcrd _ _ _ _ =>
    rw [hmine] at hcrd
    cases (List.cons.inj hcrd).1
  | stuck _ _ _ _ hfailed _ => cases hfailed _ (hmine ▸ mem_cons_self)
  | live worker hrecov hrtime hstrs hready hfores hcreate =>
    rw [hmine] at hstrs hready hfores
    have hnext := hstrs.arrive
    refine ⟨?_, .live worker hrecov hrtime hnext (fun hmem => ?_) (fun hnot => ?_) hcreate⟩
    · have hfew := hnext.few
      rw [length_append] at hfew
      omega
    · exact hready (mem_cons_of_mem _ hmem)
    · refine hfores fun hmem => hnot ?_
      rcases mem_cons.mp hmem with hcontra | hlater
      · cases hcontra
      · exact hlater

theorem Sound.receive (h : Sound world) {generation : Nat} {event : WorkerEvent}
    (hevs : world.events = (generation, event) :: rest)
    (hspared : generation = world.core.generation →
      (event = .failed → world.core.recovering = false →
        world.surface.viewportModel.frameId = 0) ∧
      (event = .ready → world.core.recovering = true →
        ∀ runtime ∈ world.runtime, runtime.2.visible = world.surface.visible)) :
    Sound (({ world with events := rest } : World lib).receive generation event) := by
  have hrest : ∀ other ∈ rest, other ∈ world.events := fun other hmem =>
    hevs ▸ mem_cons_of_mem _ hmem
  have hbound : ∀ other ∈ rest, other.1 ≤ world.core.generation := fun other hmem =>
    h.fair.events other (hrest other hmem)
  have hfair : Stage { world with events := rest } → Sound { world with events := rest } :=
    fun hstage => ⟨⟨h.fair.dirtied, h.fair.inbox, hbound, h.fair.model, h.fair.dirty, h.fair.calm,
      hstage⟩, h.agreed⟩
  by_cases hgen : generation = world.core.generation
  · subst hgen
    obtain ⟨hfailed, hready⟩ := hspared rfl
    have hmine : mine world.core.generation world.events =
        event :: mine world.core.generation rest := by
      rw [hevs, mine_cons_self]
    unfold World.receive
    cases event with
    | ready =>
      obtain ⟨hrecov, hstage⟩ := h.fair.stage.ready hmine fun hrecov runtime hmem =>
        (hready rfl hrecov runtime hmem).trans h.agreed.symm
      simp only [decide_true, hrecov, Bool.and_self, if_true, ne_eq, not_true_eq_false, if_false]
      exact ⟨⟨h.fair.dirtied, h.fair.inbox, hbound, h.fair.model, h.fair.dirty, h.fair.calm,
        hstage⟩, h.agreed⟩
    | packedUpdate update =>
      obtain ⟨hfew, hstage⟩ := h.fair.stage.push hmine
      simp only [reduceCtorEq, decide_false, Bool.false_and, false_eq_true, if_false, ne_eq,
        not_true_eq_false]
      unfold World.push
      rw [if_neg (Nat.not_lt_of_le hfew)]
      exact ⟨⟨h.fair.dirtied, h.fair.inbox, hbound, h.fair.model, fun _ => rfl, h.fair.calm,
        hstage⟩, h.agreed⟩
    | failed =>
      simp only [reduceCtorEq, decide_false, Bool.false_and, false_eq_true, if_false, ne_eq,
        not_true_eq_false]
      cases hrecov : world.core.recovering with
      | false =>
        have hnext := h.fair.fail hrecov (h.fair.model (hfailed rfl hrecov))
          world.inbox world.runtime rest (fun _ hmem => hmem) (fun _ hmem => hmem) hrest
        refine ⟨hnext, ?_⟩
        unfold World.fail
        simp only [hrecov, false_eq_true, if_false]
        exact h.agreed
      | true =>
        unfold World.fail
        rw [if_pos hrecov]
        refine hfair ?_
        cases h.fair.stage with
        | live _ hlive _ _ _ _ _ => exact absurd (hrecov.symm.trans hlive) Bool.noConfusion
        | waiting _ _ _ _ hnone _ =>
          rw [hmine] at hnone
          cases hnone
        | created _ _ _ _ _ _ hcrd _ _ _ _ =>
          rw [hmine] at hcrd
          cases (List.cons.inj hcrd).1
        | stuck _ hupds hmodel hrtime hall hcreate =>
          exact .stuck hrecov hupds hmodel hrtime
            (fun other hmem => hall other (hmine ▸ mem_cons_of_mem _ hmem)) hcreate
  · have hdropped : ({ world with events := rest } : World lib).receive generation event =
        { world with events := rest } := by
      unfold World.receive
      simp [hgen]
    rw [hdropped]
    refine hfair (h.fair.stage.skip ?_)
    rw [hevs, mine_cons_other hgen]

/-! ### Steps and runs -/

theorem sound_step {action : Action lib} {world' : World lib} (h : Sound world)
    (hspared : Spared world action) (hstep : (surfaceSystem lib).step world action = some world') :
    Sound world' := by
  obtain ⟨hlimit, hspared⟩ := hspared
  cases action with
  | call payload dirty =>
    obtain ⟨hcall, hnext⟩ := ite_none_right_eq_some.mp hstep
    cases hnext
    exact h.call dirty hcall
  | setVisible visible =>
    cases hstep
    exact h.setVisible visible
  | setFocused focused =>
    cases hstep
    exact h.setFocused focused
  | renderFrame drain =>
    cases hstep
    exact h.renderFrame drain
  | process outcome =>
    simp only [surfaceSystem] at hstep
    split at hstep
    · cases hstep
    rename_i message rest hinbox
    cases hstep
    exact h.process hinbox hlimit outcome
  | updateTimer =>
    obtain ⟨⟨generation, worker⟩, hrtime, hnext⟩ := bind_eq_some_iff.mp hstep
    obtain ⟨pending, hpend, rfl⟩ := map_eq_some_iff.mp hnext
    refine h.ran hrtime ⟨updateTimeout_visible worker pending, fun shown others habreast => ?_⟩
    exact habreast.updateTimeout (filter_eq_some_iff.mp hpend).1 (hlimit _ hrtime)
  | syncTimer =>
    obtain ⟨⟨generation, worker⟩, hrtime, hnext⟩ := bind_eq_some_iff.mp hstep
    obtain ⟨command, -, rfl⟩ := map_eq_some_iff.mp hnext
    refine h.ran hrtime ⟨synchronizedTimeout_visible worker command, fun shown others habreast => ?_⟩
    exact habreast.synchronizedTimeout command (hlimit _ hrtime)
  | deliver =>
    simp only [surfaceSystem] at hstep
    split at hstep
    · cases hstep
    rename_i generation event rest hevs
    cases hstep
    exact h.receive hevs (hspared _ (by rw [hevs]; rfl))
  | crash =>
    cases hstep
    exact h.crash hspared

theorem sound_run (hrun : (surfaceSystem lib).Run Spared world) : Sound world := by
  apply hrun.invariant
  · rintro start ⟨terminal, visible, hdirtied, rfl⟩
    exact sound_start hdirtied visible
  · exact fun _ _ _ h hspared hstep => sound_step h hspared hstep

/-- In a run whose failures are spared the presentation survives. -/
theorem recovery_survives (lib : Libghostty) {world : World lib}
    (hrun : (surfaceSystem lib).Run Spared world) : Survives world := by
  have h := sound_run hrun
  refine ⟨h.fair.calm, ?_, h.drained, fun hrested hrecov => ?_⟩
  · by_cases hsome : world.core.updates = []
    · rw [hsome]
      rfl
    obtain ⟨-, shown, hshown, -⟩ := h.fair.stage.render hsome
    rw [hshown]
    rfl
  · cases h.fair.stage with
    | waiting hcontra _ _ _ _ _ => exact absurd (hrecov.symm.trans hcontra) Bool.noConfusion
    | created _ _ hcontra _ _ _ _ _ _ _ _ =>
      exact absurd (hrecov.symm.trans hcontra) Bool.noConfusion
    | stuck hcontra _ _ _ _ _ => exact absurd (hrecov.symm.trans hcontra) Bool.noConfusion
    | live worker _ hrtime hstrs hready hfores hcreate =>
      refine ⟨worker, hrtime, fun hvis hoff => ?_⟩
      rw [hrested.events, hrested.inbox] at hfores
      rw [hrested.events, hrested.inbox, hrested.updates] at hstrs
      obtain ⟨-, shown, happl, habreast⟩ := hstrs
      cases happl
      have hshown : worker.visible = true := ((hfores not_mem_nil).trans h.agreed).trans hvis
      exact (habreast not_mem_nil).rested (hrested.timers _ worker hrtime).2 hshown hoff

end Invariants

/-! ### A worker that fails -/

instance (world : World lib) : (action : Action lib) → Decidable (Spared world action)
  | .crash => inferInstanceAs (Decidable (_ ∧ (world.core.recovering = false →
      world.surface.viewportModel.frameId = 0)))
  | .deliver => inferInstanceAs (Decidable (_ ∧ ∀ event ∈ world.events.head?,
      event.1 = world.core.generation →
        (event.2 = .failed → world.core.recovering = false →
          world.surface.viewportModel.frameId = 0) ∧
        (event.2 = .ready → world.core.recovering = true →
          ∀ runtime ∈ world.runtime, runtime.2.visible = world.surface.visible)))
  | .call _ _ | .setVisible _ | .setFocused _ | .renderFrame _ | .process _ | .updateTimer
  | .syncTimer => inferInstanceAs (Decidable (_ ∧ True))

def sampleWorld : World sampleLib := .start (⟨65, 66, false, none⟩ : SampleTerminal) true

theorem sampleWorld_initial : (surfaceSystem sampleLib).initial sampleWorld :=
  ⟨_, true, sample_dirtied rfl, rfl⟩

def renewed : List (Action sampleLib) :=
  [.crash, .process .done, .deliver, .deliver, .renderFrame true]

/-- The first update of a terminal is lost with it; that of the next is shown. -/
theorem recovery_survives_sample : ∃ world,
    (surfaceSystem sampleLib).Run Spared world ∧
      (world.core.generation = 2 ∧ world.core.recovering = false ∧ world.inbox.isEmpty = true ∧
        world.events = [] ∧ world.surface.viewportModel.frameId = 1) ∧ Survives world := by
  obtain ⟨world, hrpl, hfacts⟩ : ∃ world, (surfaceSystem sampleLib).replay
      (fun world action => decide (Spared world action)) sampleWorld (renewed ++ [.process .done]) =
        some world ∧ (world.core.generation = 2 ∧ world.core.recovering = false ∧
          world.inbox.isEmpty = true ∧ world.events = [] ∧
            world.surface.viewportModel.frameId = 1) := by
    have hfacts : ((surfaceSystem sampleLib).replay
        (fun world action => decide (Spared world action)) sampleWorld
        (renewed ++ [.process .done])).any (fun world => decide (world.core.generation = 2 ∧
          world.core.recovering = false ∧ world.inbox.isEmpty = true ∧ world.events = [] ∧
            world.surface.viewportModel.frameId = 1)) = true := by decide
    obtain ⟨world, hworld, htrue⟩ := (any_eq_true _ _).mp hfacts
    exact ⟨world, hworld, of_decide_eq_true htrue⟩
  have hrun := System.replay_run (.start sampleWorld_initial)
    (fun _ _ _ hpass => of_decide_eq_true hpass) hrpl
  exact ⟨world, hrun, hfacts, recovery_survives sampleLib hrun⟩

/-- Once a frame is rendered the first update of the next terminal is rejected. -/
theorem recovery_rejected : ¬∀ (lib : Libghostty) (world : World lib),
    (surfaceSystem lib).Reachable world → Survives world := by
  intro hall
  obtain ⟨world, hrpl, hthrown⟩ : ∃ world, (surfaceSystem sampleLib).replay
      (fun _ _ => true) sampleWorld ([.deliver, .renderFrame true, .process .done] ++ renewed) =
        some world ∧ world.thrown = true := by
    have hfacts : ((surfaceSystem sampleLib).replay (fun _ _ => true) sampleWorld
        ([.deliver, .renderFrame true, .process .done] ++ renewed)).any
          (fun world => world.thrown) = true := by decide
    exact (any_eq_true _ _).mp hfacts
  have hrun : (surfaceSystem sampleLib).Reachable world :=
    System.replay_run (.start sampleWorld_initial) (fun _ _ _ _ => trivial) hrpl
  have hcalm := (hall sampleLib world hrun).1
  rw [hcalm] at hthrown
  cases hthrown

end Yaade.Workers.Surface

import Yaade.Library.Transition

/-!
How the core of a terminal and its worker recover from a failure.
-/

namespace Yaade.Workers.Recovery

open Yaade.Library List Option Bool

/-- How a terminal is shown: four numbers for its size, a theme and two flags. -/
structure TerminalView (Size Theme : Type) where
  size : Size
  theme : Theme
  visible : Bool
  focused : Bool
  deriving DecidableEq

/-- `other` stands for the commands that change nothing of the view. -/
inductive TerminalWorkerPayload (Size Theme : Type) where
  | create (view : TerminalView Size Theme)
  | resize (size : Size)
  | setTheme (theme : Theme)
  | setPresentationState (visible focused : Bool)
  | other
  deriving DecidableEq

structure TerminalWorkerCommand (Size Theme : Type) where
  generation : Nat
  sequence : Nat
  payload : TerminalWorkerPayload Size Theme
  deriving DecidableEq

/-- `failed` is `recoverableError` or `fatalError`. -/
inductive EventKind where
  | ready
  | completed
  | failed
  deriving DecidableEq

structure TerminalWorkerEvent where
  generation : Nat
  sequence : Nat
  kind : EventKind
  deriving DecidableEq

structure RuntimeEntry (Size Theme : Type) where
  generation : Nat
  view : TerminalView Size Theme
  deriving DecidableEq

/-- `initializing` tells that `initializationReject` is set. -/
structure WorkerTerminalCore (Size Theme : Type) where
  options : TerminalView Size Theme
  sequence : Nat
  generation : Nat
  lastEventSequence : Nat
  visible : Bool
  focused : Bool
  disposed : Bool
  recovering : Bool
  initializing : Bool
  deriving DecidableEq

/-- The core and the worker with what is on the way between them; `requested` is
what the calls have asked for and for the statements only. -/
structure World (Size Theme : Type) where
  core : WorkerTerminalCore Size Theme
  requested : TerminalView Size Theme
  inbox : List (TerminalWorkerCommand Size Theme)
  runtime : Option (RuntimeEntry Size Theme)
  events : List TerminalWorkerEvent
  deriving DecidableEq

/-- What the worker makes of a command that throws is left open. -/
inductive Outcome (Size Theme : Type) where
  | done
  | failed (left : Option (TerminalView Size Theme))

variable {Size Theme : Type}

def TerminalView.apply (view : TerminalView Size Theme) :
    TerminalWorkerPayload Size Theme → TerminalView Size Theme
  | .resize size => { view with size := size }
  | .setTheme theme => { view with theme := theme }
  | .setPresentationState visible focused => { view with visible := visible, focused := focused }
  | .create _ | .other => view

namespace World

def start (options : TerminalView Size Theme) : World Size Theme where
  core := ⟨options, 1, 1, 0, options.visible, options.focused, false, false, true⟩
  requested := options
  inbox := [⟨1, 1, .create options⟩]
  runtime := none
  events := []

variable (world : World Size Theme)

def send (payload : TerminalWorkerPayload Size Theme) (accepted : Bool) : World Size Theme :=
  { world with
    core := { world.core with sequence := world.core.sequence + 1 }
    inbox := if accepted then
      world.inbox ++ [⟨world.core.generation, world.core.sequence + 1, payload⟩] else world.inbox }

def command (payload : TerminalWorkerPayload Size Theme) (accepted : Bool) : World Size Theme :=
  if world.core.disposed || world.core.recovering then world else world.send payload accepted

def resize (size : Size) (accepted : Bool) : World Size Theme :=
  world.command (.resize size) accepted

def setTheme (theme : Theme) (accepted : Bool) : World Size Theme :=
  world.command (.setTheme theme) accepted

def setPresentationState (visible focused accepted : Bool) : World Size Theme :=
  if world.core.visible = visible && world.core.focused = focused then world
  else ({ world with core := { world.core with visible := visible, focused := focused } } :
    World Size Theme).command (.setPresentationState visible focused) accepted

def fail (accepted : Bool) : World Size Theme :=
  if world.core.disposed || world.core.recovering then world
  else if world.core.initializing then
    { world with core := { world.core with initializing := false, disposed := true } }
  else
    ({ world with core := { world.core with
        recovering := true, generation := world.core.generation + 1
        sequence := 0, lastEventSequence := 0 } } : World Size Theme).send
      (.create ⟨world.core.options.size, world.core.options.theme, world.core.visible,
        world.core.focused⟩) accepted

/-- The listener of `create` takes the first `ready`, the one of a recovery that
of its generation. -/
def listen (event : TerminalWorkerEvent) : World Size Theme :=
  if world.core.initializing then
    if event.kind = .ready then { world with core := { world.core with initializing := false } }
    else world
  else if world.core.recovering && event.kind = .ready &&
      event.generation = world.core.generation then
    { world with core := { world.core with recovering := false } }
  else world

def receive (event : TerminalWorkerEvent) (accepted : Bool) : World Size Theme :=
  let heard := world.listen event
  if heard.core.disposed || event.generation ≠ heard.core.generation ||
      event.sequence < heard.core.lastEventSequence then heard
  else
    let received := { heard with core := { heard.core with lastEventSequence := event.sequence } }
    if event.kind = .failed then received.fail accepted else received

def process (command : TerminalWorkerCommand Size Theme) (outcome : Outcome Size Theme) :
    World Size Theme :=
  let reply (kind : EventKind) : TerminalWorkerEvent := ⟨command.generation, command.sequence, kind⟩
  match command.payload with
  | .create view => match outcome with
      | .done => { world with
          runtime := some ⟨command.generation, view⟩, events := world.events ++ [reply .ready] }
      | .failed none => { world with events := world.events ++ [reply .failed] }
      | .failed (some _) => { world with
          runtime := some ⟨command.generation, view⟩
          events := world.events ++ [reply .ready, reply .failed] }
  | payload => match world.runtime with
      | none => world
      | some entry =>
        if entry.generation ≠ command.generation then world
        else match outcome with
          | .done => { world with
              runtime := some { entry with view := entry.view.apply payload }
              events := world.events ++ [reply .completed] }
          | .failed left => { world with
              runtime := some { entry with view := left.getD entry.view }
              events := world.events ++ [reply .failed] }

def crash (accepted : Bool) : World Size Theme :=
  { world with inbox := [], runtime := none, events := [] }.fail accepted

end World

/-- The calls are those of a core that has been created. -/
inductive Action (Size Theme : Type) where
  | resize (size : Size) (accepted : Bool)
  | setTheme (theme : Theme) (accepted : Bool)
  | setPresentationState (visible focused accepted : Bool)
  | other (accepted : Bool)
  | process (outcome : Outcome Size Theme)
  | deliver (accepted : Bool)
  | crash (accepted : Bool)

def recoverySystem (Size Theme : Type) : System (World Size Theme) (Action Size Theme) where
  initial world := ∃ options, world = .start options
  step world
    | .resize size accepted => if world.core.initializing then none else some { world.resize size accepted with
        requested := { world.requested with size := size } }
    | .setTheme theme accepted => if world.core.initializing then none else
        some { world.setTheme theme accepted with
          requested := { world.requested with theme := theme } }
    | .setPresentationState visible focused accepted => if world.core.initializing then none else
        some { world.setPresentationState visible focused accepted with
          requested := { world.requested with visible := visible, focused := focused } }
    | .other accepted => if world.core.initializing then none else
        some (world.command .other accepted)
    | .process outcome => match world.inbox with
        | [] => none
        | command :: rest => some ({ world with inbox := rest }.process command outcome)
    | .deliver accepted => match world.events with
        | [] => none
        | event :: rest => some ({ world with events := rest }.receive event accepted)
    | .crash accepted => some (world.crash accepted)

def Adopted (world : World Size Theme) : Prop :=
  world.core.disposed = false → world.core.recovering = false → world.inbox = [] →
    world.events = [] → ∃ entry, world.runtime = some entry ∧ entry.view = world.requested

/-- Out of a recovery the scheduler takes each call that changes something; and
when a recovery ends nothing else is asked for than the replacement was created
with. -/
def Timely (world : World Size Theme) : Action Size Theme → Prop
  | .resize size accepted => world.core.recovering = false → accepted = true ∨
      size = world.requested.size
  | .setTheme theme accepted => world.core.recovering = false → accepted = true ∨
      theme = world.requested.theme
  | .setPresentationState visible focused accepted => world.core.recovering = false →
      accepted = true ∨ world.core.visible = visible ∧ world.core.focused = focused
  | .deliver _ => world.core.recovering = true → ∀ event ∈ world.events.head?,
      event.kind = .ready → event.generation = world.core.generation →
        world.requested.size = world.core.options.size ∧
          world.requested.theme = world.core.options.theme ∧
          ∀ entry ∈ world.runtime, entry.view.visible = world.requested.visible ∧
            entry.view.focused = world.requested.focused
  | .other _ | .process _ | .crash _ => True

/-! ## Stamps -/

abbrev Stamp := Nat × Nat

def TerminalWorkerCommand.stamp (command : TerminalWorkerCommand Size Theme) : Stamp :=
  (command.generation, command.sequence)

def TerminalWorkerEvent.stamp (event : TerminalWorkerEvent) : Stamp :=
  (event.generation, event.sequence)

def World.stamps (world : World Size Theme) : List Stamp :=
  world.events.map TerminalWorkerEvent.stamp ++ world.inbox.map TerminalWorkerCommand.stamp

/-- No message of this generation is behind the last one heard or out of order. -/
structure Fenced (generation last sequence : Nat) (stamps : List Stamp) : Prop where
  ordered : stamps.Pairwise fun first second => first.1 = generation → second.1 = generation →
    first.2 ≤ second.2
  known : ∀ stamp ∈ stamps, stamp.1 ≤ generation
  within : ∀ stamp ∈ stamps, stamp.1 = generation → last ≤ stamp.2 ∧ stamp.2 ≤ sequence
  last_le : last ≤ sequence

section Stamps

variable {generation last sequence : Nat} {stamps others : List Stamp} {stamp : Stamp}

theorem Fenced.sublist (h : Fenced generation last sequence stamps) (hsub : others.Sublist stamps) :
    Fenced generation last sequence others :=
  ⟨h.ordered.sublist hsub, fun stamp hmem => h.known stamp (hsub.subset hmem),
    fun stamp hmem => h.within stamp (hsub.subset hmem), h.last_le⟩

theorem Fenced.twice (h : Fenced generation last sequence (stamps ++ stamp :: others)) :
    Fenced generation last sequence (stamps ++ stamp :: stamp :: others) := by
  obtain ⟨hordered, hknown, hwithin, hlast⟩ := h
  have hmem : ∀ other ∈ stamps ++ stamp :: stamp :: others, other ∈ stamps ++ stamp :: others := by
    intro other hother
    simp only [mem_append, mem_cons] at hother ⊢
    tauto
  refine ⟨?_, fun other hother => hknown other (hmem other hother),
    fun other hother => hwithin other (hmem other hother), hlast⟩
  rw [pairwise_append, pairwise_cons] at hordered ⊢
  obtain ⟨hstamps, ⟨hstamp, hothers⟩, hcross⟩ := hordered
  refine ⟨hstamps, ⟨?_, pairwise_cons.mpr ⟨hstamp, hothers⟩⟩, ?_⟩
  · intro other hother
    rcases mem_cons.mp hother with rfl | hother
    · exact fun _ _ => le_rfl
    · exact hstamp other hother
  · intro first hfirst other hother
    rcases mem_cons.mp hother with rfl | hother
    · exact hcross first hfirst other mem_cons_self
    · exact hcross first hfirst other hother

theorem Fenced.send (h : Fenced generation last sequence stamps) :
    Fenced generation last (sequence + 1) (stamps ++ [(generation, sequence + 1)]) := by
  obtain ⟨hordered, hknown, hwithin, hlast⟩ := h
  refine ⟨?_, ?_, ?_, Nat.le_succ_of_le hlast⟩
  · rw [pairwise_append]
    refine ⟨hordered, pairwise_singleton _ _, fun first hfirst second hsecond hgen _ => ?_⟩
    rw [mem_singleton.mp hsecond]
    exact Nat.le_succ_of_le (hwithin first hfirst hgen).2
  · intro stamp hmem
    rcases mem_snoc.mp hmem with hold | rfl
    · exact hknown stamp hold
    · rfl
  · intro stamp hmem hgen
    rcases mem_snoc.mp hmem with hold | rfl
    · obtain ⟨hlow, hhigh⟩ := hwithin stamp hold hgen
      exact ⟨hlow, Nat.le_succ_of_le hhigh⟩
    · exact ⟨Nat.le_succ_of_le hlast, le_rfl⟩

theorem Fenced.refused (h : Fenced generation last sequence stamps) :
    Fenced generation last (sequence + 1) stamps :=
  ⟨h.ordered, h.known, fun stamp hmem hgen =>
    ⟨(h.within stamp hmem hgen).1, Nat.le_succ_of_le (h.within stamp hmem hgen).2⟩,
    Nat.le_succ_of_le h.last_le⟩

theorem Fenced.heard (h : Fenced generation last sequence (stamp :: stamps))
    (hgen : stamp.1 = generation) : last ≤ stamp.2 ∧ Fenced generation stamp.2 sequence stamps := by
  obtain ⟨hordered, hknown, hwithin, -⟩ := h
  rw [pairwise_cons] at hordered
  obtain ⟨hlow, hhigh⟩ := hwithin stamp mem_cons_self hgen
  refine ⟨hlow, hordered.2, fun other hother => hknown other (mem_cons_of_mem _ hother),
    fun other hother hsame => ⟨hordered.1 other hother hgen hsame,
      (hwithin other (mem_cons_of_mem _ hother) hsame).2⟩, hhigh⟩

theorem Fenced.renewed (h : Fenced generation last sequence stamps) :
    Fenced (generation + 1) 0 0 stamps := by
  have hold : ∀ stamp ∈ stamps, stamp.1 ≠ generation + 1 := fun stamp hmem => by
    have := h.known stamp hmem
    omega
  refine ⟨?_, fun stamp hmem => Nat.le_succ_of_le (h.known stamp hmem),
    fun stamp hmem hsame => absurd hsame (hold stamp hmem), Nat.le_refl 0⟩
  exact h.ordered.imp_of_mem fun hfirst _ _ hsame => absurd hsame (hold _ hfirst)

end Stamps

/-! ## The invariant -/

def TerminalWorkerPayload.isCreate : TerminalWorkerPayload Size Theme → Bool
  | .create _ => true
  | _ => false

def World.foreseen (world : World Size Theme) (view : TerminalView Size Theme) :
    TerminalView Size Theme :=
  (world.inbox.map TerminalWorkerCommand.payload).foldl TerminalView.apply view

/-- A core that works has its entry; what was asked for is there or on the way,
or a failure is. -/
structure Live (world : World Size Theme) : Prop where
  inbox : ∀ command ∈ world.inbox, command.generation = world.core.generation ∧
    command.payload.isCreate = false
  runtime : ∃ entry, world.runtime = some entry ∧ entry.generation = world.core.generation ∧
    ((∃ event ∈ world.events, event.generation = world.core.generation ∧ event.kind = .failed) ∨
      world.foreseen entry.view = world.requested)

/-- The view that a core is created with in this world. -/
structure Created (world : World Size Theme) (view : TerminalView Size Theme) : Prop where
  size : view.size = world.core.options.size
  theme : view.theme = world.core.options.theme
  initial : world.core.initializing = true → view = world.requested

/-- A core that waits for its entry: it is to be created, or it has been. -/
structure Awaiting (world : World Size Theme) : Prop where
  create : ∀ command ∈ world.inbox, command.generation = world.core.generation →
    (∃ before, world.inbox = before ++ [command] ∧
      ∀ other ∈ before, other.generation < world.core.generation) ∧
    (∀ event ∈ world.events, event.generation < world.core.generation) ∧
    ∃ view, command.payload = .create view ∧ Created world view
  ready : ∀ event ∈ world.events, event.generation = world.core.generation →
    event.kind = .ready → world.inbox = [] ∧
      ∃ view, world.runtime = some ⟨world.core.generation, view⟩ ∧ Created world view
  initial : world.core.initializing = true → world.core.recovering = false ∧
    (∀ command ∈ world.inbox, command.generation = world.core.generation) ∧
    (∀ event ∈ world.events, event.generation = world.core.generation ∧ event.kind ≠ .completed) ∧
    (world.inbox ≠ [] ∨ world.events ≠ [])

structure Sound (world : World Size Theme) : Prop where
  flags : world.core.visible = world.requested.visible ∧
    world.core.focused = world.requested.focused
  fenced : Fenced world.core.generation world.core.lastEventSequence world.core.sequence world.stamps
  live : world.core.disposed = false → world.core.recovering = false →
    world.core.initializing = false → Live world
  awaiting : world.core.disposed = false → world.core.recovering = true ∨
    world.core.initializing = true → Awaiting world

section Steps

variable {world world' : World Size Theme} {action : Action Size Theme}

theorem sound_start (options : TerminalView Size Theme) : Sound (World.start options) := by
  refine ⟨⟨rfl, rfl⟩, ⟨pairwise_singleton _ _, ?_, ?_, Nat.zero_le 1⟩, ?_, ?_⟩
  · intro stamp hmem
    rw [mem_singleton.mp hmem]
    exact Nat.le_refl 1
  · intro stamp hmem _
    rw [mem_singleton.mp hmem]
    exact ⟨Nat.zero_le 1, Nat.le_refl 1⟩
  · intro _ _ hcontra
    cases hcontra
  · intro _ _
    refine ⟨?_, (fun event hmem => by cases hmem), fun _ => ⟨rfl, ?_, (fun event hmem => by cases hmem),
      .inl (cons_ne_nil _ _)⟩⟩
    · intro command hmem _
      rw [mem_singleton.mp hmem]
      exact ⟨⟨[], rfl, (fun other hother => by cases hother)⟩, (fun event hev => by cases hev),
        options, rfl, rfl, rfl, fun _ => rfl⟩
    · intro command hmem
      rw [mem_singleton.mp hmem]
      rfl

theorem Awaiting.requested (h : Awaiting world) (hcrd : world.core.initializing = false)
    (requested : TerminalView Size Theme) (visible focused : Bool) :
    Awaiting { world with
      core := { world.core with visible := visible, focused := focused }
      requested := requested } := by
  have hview : ∀ {view}, Created world view → Created { world with
      core := { world.core with visible := visible, focused := focused }
      requested := requested } view := fun hview =>
    ⟨hview.size, hview.theme, fun hinitial => by
      have hcontra : world.core.initializing = true := hinitial
      rw [hcrd] at hcontra
      cases hcontra⟩
  refine ⟨fun command hmem hgen => ?_, fun event hmem hgen hkind => ?_, fun hinitial => ?_⟩
  · obtain ⟨hlast, hevs, view, hpay, hmade⟩ := h.create command hmem hgen
    exact ⟨hlast, hevs, view, hpay, hview hmade⟩
  · obtain ⟨hinbox, view, hrtime, hmade⟩ := h.ready event hmem hgen hkind
    exact ⟨hinbox, view, hrtime, hview hmade⟩
  · have hcontra : world.core.initializing = true := hinitial
    rw [hcrd] at hcontra
    cases hcontra

theorem Live.send (h : Live world) {payload : TerminalWorkerPayload Size Theme}
    (hpay : payload.isCreate = false) {requested : TerminalView Size Theme} {accepted : Bool}
    (hrequested : requested = world.requested.apply payload)
    (htaken : accepted = true ∨ requested = world.requested) (visible focused : Bool) :
    Live { ({ world with core := { world.core with visible := visible, focused := focused } } :
      World Size Theme).send payload accepted with requested := requested } := by
  obtain ⟨hinbox, entry, hrtime, hgen, hstate⟩ := h
  cases accepted with
  | true =>
    refine ⟨?_, entry, hrtime, hgen, hstate.imp id fun hfores => ?_⟩
    · intro command hmem
      rcases mem_snoc.mp hmem with hold | rfl
      · exact hinbox command hold
      · exact ⟨rfl, hpay⟩
    · show ((world.inbox ++ [_]).map TerminalWorkerCommand.payload).foldl _ _ = requested
      rw [map_append, foldl_append, ← World.foreseen, hfores, hrequested]
      rfl
  | false =>
    refine ⟨hinbox, entry, hrtime, hgen, hstate.imp id fun hfores => ?_⟩
    exact hfores.trans (htaken.resolve_left Bool.false_ne_true).symm

variable (world) in
theorem fenced_send (h : Fenced world.core.generation world.core.lastEventSequence
      world.core.sequence world.stamps) (payload : TerminalWorkerPayload Size Theme) (accepted : Bool) :
    Fenced world.core.generation world.core.lastEventSequence (world.core.sequence + 1)
      (world.send payload accepted).stamps := by
  cases accepted with
  | true =>
    have hstamps : (world.send payload true).stamps =
        world.stamps ++ [(world.core.generation, world.core.sequence + 1)] := by
      show world.events.map _ ++ (world.inbox ++ [_]).map _ = _
      rw [map_append, ← append_assoc]
      rfl
    rw [hstamps]
    exact h.send
  | false => exact h.refused

theorem sound_command (h : Sound world) (hcrd : world.core.initializing = false)
    (payload : TerminalWorkerPayload Size Theme) (hpay : payload.isCreate = false)
    (requested : TerminalView Size Theme) {visible focused accepted : Bool}
    (hflags : visible = requested.visible ∧ focused = requested.focused)
    (hrequested : requested = world.requested.apply payload)
    (htaken : world.core.recovering = false → accepted = true ∨ requested = world.requested) :
    Sound { ({ world with core := { world.core with visible := visible, focused := focused } } :
      World Size Theme).command payload accepted with requested := requested } := by
  unfold World.command
  by_cases hidle : (world.core.disposed || world.core.recovering) = true
  · rw [if_pos hidle]
    refine ⟨hflags, h.fenced, fun hdisp hrecov _ => ?_, fun hdisp hwaits => ?_⟩
    · rw [or_eq_true] at hidle
      rcases hidle with hcontra | hcontra
      · exact absurd (hcontra.symm.trans hdisp) Bool.noConfusion
      · exact absurd (hcontra.symm.trans hrecov) Bool.noConfusion
    · exact (h.awaiting hdisp hwaits).requested hcrd requested visible focused
  · rw [if_neg hidle]
    rw [not_eq_true, or_eq_false_iff] at hidle
    refine ⟨hflags, fenced_send world h.fenced payload accepted, fun _ _ _ => ?_, fun _ hwaits => ?_⟩
    · exact (h.live hidle.1 hidle.2 hcrd).send hpay hrequested (htaken hidle.2) visible focused
    · rcases hwaits with hcontra | hcontra
      · exact absurd (hidle.2.symm.trans hcontra) Bool.noConfusion
      · exact absurd (hcrd.symm.trans hcontra) Bool.noConfusion

variable (world) in
/-- A failure is reported to a core, or its worker is gone. -/
theorem sound_fail (hflags : world.core.visible = world.requested.visible ∧
      world.core.focused = world.requested.focused)
    (hfenced : Fenced world.core.generation world.core.lastEventSequence world.core.sequence
      world.stamps)
    (hidle : (world.core.disposed || world.core.recovering) = true → Sound world)
    (accepted : Bool) : Sound (world.fail accepted) := by
  unfold World.fail
  split
  · rename_i hignored
    exact hidle hignored
  rename_i hworks
  rw [not_eq_true, or_eq_false_iff] at hworks
  split
  · exact ⟨hflags, hfenced, fun hcontra => (by cases hcontra), fun hcontra => (by cases hcontra)⟩
  rename_i hcrd
  have hcommands : ∀ command ∈ world.inbox, command.generation ≤ world.core.generation :=
    fun command hmem => hfenced.known command.stamp (mem_append_right _ (mem_map_of_mem hmem))
  have hevs : ∀ event ∈ world.events, event.generation ≤ world.core.generation :=
    fun event hmem => hfenced.known event.stamp (mem_append_left _ (mem_map_of_mem hmem))
  refine ⟨hflags, ?_, fun _ hcontra => (by cases hcontra),
    fun _ _ => ⟨?_, ?_, fun hinitial => absurd hinitial hcrd⟩⟩
  · exact fenced_send { world with core := { world.core with
      recovering := true, generation := world.core.generation + 1
      sequence := 0, lastEventSequence := 0 } } hfenced.renewed _ accepted
  · intro command hmem hgen
    have hgen' : command.generation = world.core.generation + 1 := hgen
    have hnew : command ∉ world.inbox := fun hold => by
      have := hcommands command hold
      omega
    cases accepted with
    | false => exact absurd hmem hnew
    | true =>
      have hlast := (mem_append.mp hmem).resolve_left hnew
      rw [mem_singleton.mp hlast]
      exact ⟨⟨world.inbox, rfl, fun other hother => Nat.lt_succ_of_le (hcommands other hother)⟩,
        fun event hev => Nat.lt_succ_of_le (hevs event hev),
        _, rfl, rfl, rfl, fun hinitial => absurd hinitial hcrd⟩
  · intro event hmem hgen
    have hgen' : event.generation = world.core.generation + 1 := hgen
    have := hevs event hmem
    omega

theorem sound_crash (h : Sound world) (accepted : Bool) : Sound (world.crash accepted) := by
  have hfenced : Fenced world.core.generation world.core.lastEventSequence world.core.sequence [] :=
    h.fenced.sublist (nil_sublist _)
  apply sound_fail { world with inbox := [], runtime := none, events := [] } h.flags hfenced
  intro hignored
  refine ⟨h.flags, hfenced, fun hdisp hrecov => ?_, fun hdisp hwaits => ?_⟩
  · rw [or_eq_true] at hignored
    rcases hignored with hcontra | hcontra
    · exact absurd (hcontra.symm.trans hdisp) Bool.noConfusion
    · exact absurd (hcontra.symm.trans hrecov) Bool.noConfusion
  · refine ⟨(fun command hmem => by cases hmem), (fun event hmem => by cases hmem), fun hinitial => ?_⟩
    have hrecov := ((h.awaiting hdisp hwaits).initial hinitial).1
    rw [or_eq_true] at hignored
    rcases hignored with hcontra | hcontra
    · exact absurd (hcontra.symm.trans hdisp) Bool.noConfusion
    · exact absurd (hcontra.symm.trans hrecov) Bool.noConfusion

theorem Live.heard (h : Live world) {event : TerminalWorkerEvent} {rest : List TerminalWorkerEvent}
    (hevs : world.events = event :: rest)
    (hfailed : event.generation = world.core.generation → event.kind ≠ .failed) (last : Nat) :
    Live { world with core := { world.core with lastEventSequence := last }, events := rest } := by
  obtain ⟨hinbox, entry, hrtime, hgen, hstate⟩ := h
  refine ⟨hinbox, entry, hrtime, hgen, hstate.imp ?_ id⟩
  rintro ⟨other, hmem, hsame, hkind⟩
  rw [hevs] at hmem
  rcases mem_cons.mp hmem with rfl | hrest
  · exact absurd hkind (hfailed hsame)
  · exact ⟨other, hrest, hsame, hkind⟩

theorem Awaiting.heard (h : Awaiting world) (hcrd : world.core.initializing = false)
    {event : TerminalWorkerEvent} {rest : List TerminalWorkerEvent}
    (hevs : world.events = event :: rest) (last : Nat) :
    Awaiting { world with
      core := { world.core with lastEventSequence := last }, events := rest } := by
  have hrest : ∀ other ∈ rest, other ∈ world.events := fun other hmem => by
    rw [hevs]
    exact mem_cons_of_mem event hmem
  have hcreates : ∀ {view}, Created world view → Created { world with
      core := { world.core with lastEventSequence := last }, events := rest } view :=
    fun hview => ⟨hview.size, hview.theme, hview.initial⟩
  refine ⟨fun command hmem hgen => ?_, fun other hmem hgen hkind => ?_, fun hinitial => ?_⟩
  · obtain ⟨hlast, hold, view, hpay, hview⟩ := h.create command hmem hgen
    exact ⟨hlast, fun other hother => hold other (hrest other hother), view, hpay, hcreates hview⟩
  · obtain ⟨hinbox, view, hrtime, hview⟩ := h.ready other (hrest other hmem) hgen hkind
    exact ⟨hinbox, view, hrtime, hcreates hview⟩
  · have hcontra : world.core.initializing = true := hinitial
    rw [hcrd] at hcontra
    cases hcontra

theorem sound_ready (h : Sound world) (hdisp : world.core.disposed = false)
    (hwaits : world.core.recovering = true ∨ world.core.initializing = true)
    {event : TerminalWorkerEvent} {rest : List TerminalWorkerEvent}
    (hevs : world.events = event :: rest) (hgen : event.generation = world.core.generation)
    (hkind : event.kind = .ready)
    (hview : ∀ view, world.runtime = some ⟨world.core.generation, view⟩ → Created world view →
      view = world.requested) :
    Sound { world with
      core := { world.core with
        initializing := false, recovering := false, lastEventSequence := event.sequence }
      events := rest } := by
  obtain ⟨hinbox, view, hrtime, hcrd⟩ := (h.awaiting hdisp hwaits).ready event
    (by rw [hevs]; exact mem_cons_self) hgen hkind
  have hfenced := h.fenced
  unfold World.stamps at hfenced
  rw [hevs] at hfenced
  refine ⟨h.flags, (hfenced.heard hgen).2, fun _ _ _ => ⟨?_, _, hrtime, rfl, .inr ?_⟩, ?_⟩
  · intro command hmem
    have hnone : command ∈ world.inbox := hmem
    rw [hinbox] at hnone
    cases hnone
  · unfold World.foreseen
    simp only [hinbox]
    exact hview view hrtime hcrd
  · rintro - (hcontra | hcontra)
    · cases hcontra
    · cases hcontra

theorem sound_ignored (h : Sound world) (hcrd : world.core.initializing = false)
    {event : TerminalWorkerEvent} {rest : List TerminalWorkerEvent}
    (hevs : world.events = event :: rest)
    (hfailed : event.generation = world.core.generation → event.kind = .failed →
      world.core.recovering = true) {last : Nat}
    (hfenced : Fenced world.core.generation last world.core.sequence
      ({ world with events := rest } : World Size Theme).stamps) :
    Sound { world with core := { world.core with lastEventSequence := last }, events := rest } := by
  refine ⟨h.flags, hfenced, fun hdisp hrecov _ => ?_, fun hdisp hwaits => ?_⟩
  · apply (h.live hdisp hrecov hcrd).heard hevs
    intro hgen hkind
    exact absurd ((hfailed hgen hkind).symm.trans hrecov) Bool.noConfusion
  · exact (h.awaiting hdisp hwaits).heard hcrd hevs last

variable (world) in
theorem receive_disposed (hdisp : world.core.disposed = true) (event : TerminalWorkerEvent)
    (accepted : Bool) : ∃ initializing recovering, world.receive event accepted = { world with
      core := { world.core with initializing := initializing, recovering := recovering } } := by
  have hstill : ∃ initializing recovering, world.listen event = { world with
      core := { world.core with initializing := initializing, recovering := recovering } } := by
    unfold World.listen
    split
    · split
      · exact ⟨false, world.core.recovering, rfl⟩
      · exact ⟨world.core.initializing, world.core.recovering, rfl⟩
    · split
      · exact ⟨world.core.initializing, false, rfl⟩
      · exact ⟨world.core.initializing, world.core.recovering, rfl⟩
  obtain ⟨initializing, recovering, hlisten⟩ := hstill
  refine ⟨initializing, recovering, ?_⟩
  unfold World.receive
  rw [hlisten]
  exact if_pos (by simp [hdisp])

section Receive

variable (world) {event : TerminalWorkerEvent} (hdisp : world.core.disposed = false)

include hdisp

theorem receive_ready (hgen : event.generation = world.core.generation)
    (hlast : world.core.lastEventSequence ≤ event.sequence) (hkind : event.kind = .ready)
    (hlistens : world.core.recovering ≠ world.core.initializing) (accepted : Bool) :
    world.receive event accepted = { world with core := { world.core with
      initializing := false, recovering := false, lastEventSequence := event.sequence } } := by
  have hlisten : world.listen event = { world with core := { world.core with
      initializing := false, recovering := false } } := by
    unfold World.listen
    cases hinitial : world.core.initializing with
    | true =>
      have hrecov : world.core.recovering = false := by
        rw [hinitial] at hlistens
        simpa using hlistens
      rw [if_pos rfl, if_pos hkind]
      simp only [hrecov]
    | false =>
      have hrecov : world.core.recovering = true := by
        rw [hinitial] at hlistens
        simpa using hlistens
      rw [if_neg Bool.false_ne_true, if_pos (by simp [hrecov, hkind, hgen])]
      simp only [hinitial]
  unfold World.receive
  rw [hlisten]
  simp only
  rw [if_neg (by simp [hdisp, hgen, Nat.not_lt.mpr hlast]), if_neg (by simp [hkind])]

theorem receive_other (hlast : event.generation = world.core.generation →
      world.core.lastEventSequence ≤ event.sequence)
    (hinitial : world.core.initializing = true → event.kind ≠ .ready)
    (hrecov : world.core.recovering = true →
      ¬(event.kind = .ready ∧ event.generation = world.core.generation)) (accepted : Bool) :
    world.receive event accepted =
      if event.generation ≠ world.core.generation then world
      else
        let received := { world with core := { world.core with lastEventSequence := event.sequence } }
        if event.kind = .failed then received.fail accepted else received := by
  have hlisten : world.listen event = world := by
    unfold World.listen
    split
    · rename_i hinitializing
      exact if_neg (hinitial hinitializing)
    apply if_neg
    simp only [and_eq_true, decide_eq_true_eq]
    exact fun h => hrecov h.1.1 ⟨h.1.2, h.2⟩
  unfold World.receive
  rw [hlisten]
  simp only
  by_cases hgen : event.generation = world.core.generation
  · rw [if_neg (by simp [hdisp, hgen, Nat.not_lt.mpr (hlast hgen)]),
      if_neg (not_not.mpr hgen)]
  · rw [if_pos (by simp [hgen]), if_pos hgen]

end Receive

/-- The core hears of an event. -/
theorem sound_receive {event : TerminalWorkerEvent} {rest : List TerminalWorkerEvent}
    (h : Sound world) (hevs : world.events = event :: rest) (accepted : Bool)
    (htimely : Timely world (.deliver accepted)) :
    Sound ({ world with events := rest }.receive event accepted) := by
  have hfenced := h.fenced
  unfold World.stamps at hfenced
  rw [hevs] at hfenced
  have htail : Fenced world.core.generation world.core.lastEventSequence world.core.sequence
      ({ world with events := rest } : World Size Theme).stamps :=
    hfenced.sublist (sublist_cons_self _ _)
  have hhead : event ∈ world.events := by
    rw [hevs]
    exact mem_cons_self
  cases hdisp : world.core.disposed with
  | true =>
    obtain ⟨initializing, recovering, hreceive⟩ :=
      receive_disposed { world with events := rest } hdisp event accepted
    rw [hreceive]
    exact ⟨h.flags, htail, fun hcontra => absurd (hdisp.symm.trans hcontra) Bool.noConfusion,
      fun hcontra => absurd (hdisp.symm.trans hcontra) Bool.noConfusion⟩
  | false =>
    by_cases hready : event.kind = .ready ∧ event.generation = world.core.generation ∧
        (world.core.recovering = true ∨ world.core.initializing = true)
    · -- the entry that was waited for
      obtain ⟨hkind, hgen, hwaits⟩ := hready
      have hlistens : world.core.recovering ≠ world.core.initializing := by
        rcases hwaits with hrecov | hinitial
        · intro hsame
          have hinitial := hsame.symm.trans hrecov
          rw [((h.awaiting hdisp (.inr hinitial)).initial hinitial).1] at hrecov
          cases hrecov
        · rw [((h.awaiting hdisp (.inr hinitial)).initial hinitial).1, hinitial]
          exact Bool.noConfusion
      rw [receive_ready { world with events := rest } hdisp hgen
        (hfenced.heard hgen).1 hkind hlistens]
      apply sound_ready h hdisp hwaits hevs hgen hkind
      intro view hrtime hcrd
      rcases hwaits with hrecov | hinitial
      · obtain ⟨hsize, htheme, hentry⟩ := htimely hrecov event (by rw [hevs]; rfl) hkind hgen
        obtain ⟨hvis, hfocused⟩ := hentry _ hrtime
        obtain ⟨size, theme, visible, focused⟩ := view
        cases hcrd.size.trans hsize.symm
        cases hcrd.theme.trans htheme.symm
        cases hvis
        cases hfocused
        rfl
      · exact hcrd.initial hinitial
    · have hinitial : world.core.initializing = true → event.kind ≠ .ready := fun hinitial hkind =>
        hready ⟨hkind, (((h.awaiting hdisp (.inr hinitial)).initial hinitial).2.2.1 event
          hhead).1, .inr hinitial⟩
      rw [receive_other { world with events := rest } hdisp
        (fun hgen => (hfenced.heard hgen).1) hinitial
        (fun hrecov hboth => hready ⟨hboth.1, hboth.2, .inl hrecov⟩)]
      have hwaiting : world.core.initializing = true → event.kind = .failed := by
        intro hwaits
        have hkind := (((h.awaiting hdisp (.inr hwaits)).initial hwaits).2.2.1 event hhead).2
        cases hev : event.kind with
        | ready => exact absurd hev (hinitial hwaits)
        | completed => exact absurd hev hkind
        | failed => rfl
      by_cases hgen : event.generation = world.core.generation
      · obtain ⟨-, hheard⟩ := hfenced.heard hgen
        rw [if_neg (not_not.mpr hgen)]
        simp only
        by_cases hfailed : event.kind = .failed
        · rw [if_pos hfailed]
          refine sound_fail { world with
            core := { world.core with lastEventSequence := event.sequence }, events := rest }
            h.flags hheard (fun hignored => ?_) accepted
          have hrecov : world.core.recovering = true := by
            have hignored' : (world.core.disposed || world.core.recovering) = true := hignored
            rwa [hdisp, Bool.false_or] at hignored'
          have hcrd : world.core.initializing = false := by
            by_contra hwaits
            rw [not_eq_false] at hwaits
            rw [((h.awaiting hdisp (.inr hwaits)).initial hwaits).1] at hrecov
            cases hrecov
          exact sound_ignored h hcrd hevs (fun _ _ => hrecov) hheard
        · rw [if_neg hfailed]
          have hcrd : world.core.initializing = false :=
            eq_false_iff.mpr fun hwaits => hfailed (hwaiting hwaits)
          exact sound_ignored h hcrd hevs (fun _ hkind => absurd hkind hfailed) hheard
      · rw [if_pos hgen]
        have hcrd : world.core.initializing = false := eq_false_iff.mpr fun hwaits =>
          hgen (((h.awaiting hdisp (.inr hwaits)).initial hwaits).2.2.1 event hhead).1
        exact sound_ignored h hcrd hevs (fun hsame => absurd hsame hgen) htail

def TerminalWorkerCommand.reply (command : TerminalWorkerCommand Size Theme) (kind : EventKind) :
    TerminalWorkerEvent :=
  ⟨command.generation, command.sequence, kind⟩

theorem process_shape (world : World Size Theme) (command : TerminalWorkerCommand Size Theme)
    (outcome : Outcome Size Theme) : ∃ runtime, ∃ replies : List EventKind, replies.length ≤ 2 ∧
      world.process command outcome = { world with
        runtime := runtime, events := world.events ++ replies.map command.reply } := by
  unfold World.process
  split
  · split
    · exact ⟨_, [.ready], by simp, rfl⟩
    · exact ⟨world.runtime, [.failed], by simp, rfl⟩
    · exact ⟨_, [.ready, .failed], by simp, rfl⟩
  split
  · exact ⟨world.runtime, [], by simp, by simp⟩
  split
  · exact ⟨world.runtime, [], by simp, by simp⟩
  split
  · exact ⟨_, [.completed], by simp, rfl⟩
  · exact ⟨_, [.failed], by simp, rfl⟩

section Process

variable {command : TerminalWorkerCommand Size Theme}
  {rest : List (TerminalWorkerCommand Size Theme)}

theorem fenced_process (h : Sound world) (hinbox : world.inbox = command :: rest)
    {replies : List EventKind} (hlength : replies.length ≤ 2)
    (runtime : Option (RuntimeEntry Size Theme)) :
    Fenced world.core.generation world.core.lastEventSequence world.core.sequence
      ({ world with
        inbox := rest, runtime := runtime
        events := world.events ++ replies.map command.reply } : World Size Theme).stamps := by
  have hfenced := h.fenced
  unfold World.stamps at hfenced ⊢
  rw [hinbox, map_cons] at hfenced
  have hreply : ∀ kind, (command.reply kind).stamp = command.stamp := fun _ => rfl
  match replies with
  | [] =>
    rw [List.map_nil, append_nil]
    exact hfenced.sublist (List.Sublist.append_left (sublist_cons_self _ _) _)
  | [kind] =>
    rw [map_append, append_assoc]
    exact hfenced
  | [first, second] =>
    rw [map_append, append_assoc]
    exact hfenced.twice
  | first :: second :: third :: others =>
    simp only [length_cons] at hlength
    omega

variable (world) in
theorem process_command (hcreate : command.payload.isCreate = false)
    {entry : RuntimeEntry Size Theme} (hrtime : world.runtime = some entry)
    (hsame : entry.generation = command.generation) (outcome : Outcome Size Theme) :
    world.process command outcome = match outcome with
      | .done => { world with
          runtime := some { entry with view := entry.view.apply command.payload }
          events := world.events ++ [command.reply .completed] }
      | .failed left => { world with
          runtime := some { entry with view := left.getD entry.view }
          events := world.events ++ [command.reply .failed] } := by
  unfold World.process
  cases hpay : command.payload with
  | create view =>
    rw [hpay] at hcreate
    cases hcreate
  | resize | setTheme | other => simp only [hrtime, hsame, ne_eq, not_true_eq_false, if_false]; rfl
  | setPresentationState visible focused =>
    simp only [hrtime, hsame, ne_eq, not_true_eq_false, if_false]; rfl

theorem Live.process (h : Live world) (hinbox : world.inbox = command :: rest)
    (outcome : Outcome Size Theme) :
    Live ({ world with inbox := rest }.process command outcome) := by
  obtain ⟨hcommands, entry, hrtime, hgen, hstate⟩ := h
  obtain ⟨hcur, hcreate⟩ := hcommands command (by rw [hinbox]; exact mem_cons_self)
  have hrest : ∀ other ∈ rest, other.generation = world.core.generation ∧
      other.payload.isCreate = false := fun other hmem =>
    hcommands other (by rw [hinbox]; exact mem_cons_of_mem command hmem)
  rw [process_command { world with inbox := rest } hcreate hrtime (hgen.trans hcur.symm)]
  cases outcome with
  | done =>
    refine ⟨hrest, _, rfl, hgen, hstate.imp ?_ fun hview => ?_⟩
    · rintro ⟨event, hmem, hev⟩
      exact ⟨event, mem_append_left _ hmem, hev⟩
    · rw [← hview]
      unfold World.foreseen
      rw [hinbox]
      rfl
  | failed left =>
    exact ⟨hrest, _, rfl, hgen, .inl ⟨command.reply .failed, mem_concat_self, hcur, rfl⟩⟩

theorem Awaiting.processOld (h : Awaiting world) (hinbox : world.inbox = command :: rest)
    (hold : command.generation < world.core.generation) (replies : List EventKind)
    (runtime : Option (RuntimeEntry Size Theme)) : Awaiting { world with
      inbox := rest, runtime := runtime, events := world.events ++ replies.map command.reply } := by
  have hevs : ∀ event ∈ world.events ++ replies.map command.reply,
      event ∈ world.events ∨ event.generation < world.core.generation := by
    intro event hmem
    rcases mem_append.mp hmem with hbef | hreply
    · exact .inl hbef
    · obtain ⟨kind, -, rfl⟩ := List.mem_map.mp hreply
      exact .inr hold
  refine ⟨fun other hmem hgen => ?_, fun event hmem hgen hkind => ?_, fun hinitial => ?_⟩
  · obtain ⟨⟨before, hsplit, hbef⟩, hall, view, hpay, hview⟩ := h.create other
      (by rw [hinbox]; exact mem_cons_of_mem command hmem) hgen
    refine ⟨?_, fun event hev => (hevs event hev).elim (hall event) id, view, hpay,
      hview.size, hview.theme, hview.initial⟩
    rw [hinbox] at hsplit
    cases before with
    | nil =>
      rw [nil_append, List.cons.injEq] at hsplit
      rw [hsplit.1] at hold
      exact absurd hgen (Nat.ne_of_lt hold)
    | cons first others =>
      rw [cons_append, List.cons.injEq] at hsplit
      exact ⟨others, hsplit.2, fun earlier hearlier =>
        hbef earlier (mem_cons_of_mem first hearlier)⟩
  · have hgen' : event.generation = world.core.generation := hgen
    rcases hevs event hmem with hbef | hreply
    · have hnil := (h.ready event hbef hgen hkind).1
      rw [hinbox] at hnil
      cases hnil
    · omega
  · have hcur := (h.initial hinitial).2.1 command (by rw [hinbox]; exact mem_cons_self)
    omega

/-- The command that creates the entry is handled. -/
theorem Awaiting.processCreate (h : Awaiting world) (hinbox : world.inbox = command :: rest)
    (hcur : command.generation = world.core.generation) (outcome : Outcome Size Theme) :
    Awaiting ({ world with inbox := rest }.process command outcome) := by
  obtain ⟨⟨before, hsplit, hbef⟩, hold, view, hpay, hview⟩ :=
    h.create command (by rw [hinbox]; exact mem_cons_self) hcur
  have hrest : rest = [] := by
    rw [hinbox] at hsplit
    cases before with
    | nil =>
      rw [nil_append, List.cons.injEq] at hsplit
      exact hsplit.2
    | cons first others =>
      rw [cons_append, List.cons.injEq] at hsplit
      have hfirst := hbef first mem_cons_self
      rw [← hsplit.1] at hfirst
      exact absurd hcur (Nat.ne_of_lt hfirst)
  subst hrest
  have hcrd : Created { world with inbox := [] } view := ⟨hview.size, hview.theme, hview.initial⟩
  have hkinds : ∀ (replies : List EventKind) {runtime}, (∀ kind ∈ replies, kind ≠ .completed) →
      replies ≠ [] → (.ready ∈ replies → runtime = some ⟨command.generation, view⟩) →
      Awaiting { world with
        inbox := [], runtime := runtime, events := world.events ++ replies.map command.reply } := by
    intro replies runtime hcompl hnonem hready
    have hevs : ∀ event ∈ world.events ++ replies.map command.reply,
        event.generation < world.core.generation ∨ ∃ kind ∈ replies, event = command.reply kind := by
      intro event hmem
      rcases mem_append.mp hmem with hbef | hreply
      · exact .inl (hold event hbef)
      · obtain ⟨kind, hkind, rfl⟩ := List.mem_map.mp hreply
        exact .inr ⟨kind, hkind, rfl⟩
    refine ⟨(fun other hmem => by cases hmem), fun event hmem hgen hkind => ⟨rfl, view, ?_,
      hview.size, hview.theme, hview.initial⟩, fun hinitial => ?_⟩
    · have hgen' : event.generation = world.core.generation := hgen
      rcases hevs event hmem with hbef | ⟨kind, hreply, rfl⟩
      · omega
      cases hkind
      rw [← hcur]
      exact hready hreply
    · obtain ⟨hrecov, -, hcurrents, -⟩ := h.initial hinitial
      refine ⟨hrecov, (fun other hmem => by cases hmem), fun event hmem => ?_, .inr ?_⟩
      · rcases mem_append.mp hmem with hbef | hreply
        · exact hcurrents event hbef
        · obtain ⟨kind, hkind, rfl⟩ := List.mem_map.mp hreply
          exact ⟨hcur, hcompl kind hkind⟩
      · simpa using fun _ => hnonem
  unfold World.process
  simp only [hpay]
  match outcome with
  | .done => exact hkinds [.ready] (by simp) (by simp) fun _ => rfl
  | .failed none => exact hkinds [.failed] (by simp) (by simp) (by simp)
  | .failed (some _) => exact hkinds [.ready, .failed] (by simp) (by simp) fun _ => rfl

end Process

theorem sound_process {command : TerminalWorkerCommand Size Theme}
    {rest : List (TerminalWorkerCommand Size Theme)} (h : Sound world)
    (hinbox : world.inbox = command :: rest) (outcome : Outcome Size Theme) :
    Sound ({ world with inbox := rest }.process command outcome) := by
  obtain ⟨runtime, replies, hlength, hprocess⟩ :=
    process_shape { world with inbox := rest } command outcome
  have hlive := fun hworks : Live world => hworks.process hinbox outcome
  have hawaiting : Awaiting world → Awaiting ({ world with inbox := rest }.process command outcome) := by
    intro hwaits
    by_cases hcur : command.generation = world.core.generation
    · exact hwaits.processCreate hinbox hcur outcome
    rw [hprocess]
    apply hwaits.processOld hinbox
    exact Nat.lt_of_le_of_ne (h.fenced.known command.stamp (mem_append_right _
      (mem_map_of_mem (by rw [hinbox]; exact mem_cons_self)))) hcur
  rw [hprocess] at hlive hawaiting ⊢
  exact ⟨h.flags, fenced_process h hinbox hlength runtime,
    fun hdisp hrecov hcrd => hlive (h.live hdisp hrecov hcrd),
    fun hdisp hwaits => hawaiting (h.awaiting hdisp hwaits)⟩

theorem sound_step (h : Sound world) (htimely : Timely world action)
    (hstep : (recoverySystem Size Theme).step world action = some world') : Sound world' := by
  cases action with
  | resize size accepted =>
    obtain ⟨hcrd, hnext⟩ := ite_none_left_eq_some.mp hstep
    cases hnext
    refine sound_command h (eq_false_iff.mpr hcrd) (.resize size) rfl
      { world.requested with size := size } h.flags rfl fun hrecov => ?_
    refine (htimely hrecov).imp id fun hsame => ?_
    rw [hsame]
  | setTheme theme accepted =>
    obtain ⟨hcrd, hnext⟩ := ite_none_left_eq_some.mp hstep
    cases hnext
    refine sound_command h (eq_false_iff.mpr hcrd) (.setTheme theme) rfl
      { world.requested with theme := theme } h.flags rfl fun hrecov => ?_
    refine (htimely hrecov).imp id fun hsame => ?_
    rw [hsame]
  | setPresentationState visible focused accepted =>
    obtain ⟨hcrd, hnext⟩ := ite_none_left_eq_some.mp hstep
    cases hnext
    unfold World.setPresentationState
    by_cases hsame : world.core.visible = visible ∧ world.core.focused = focused
    · rw [if_pos (by simp [hsame.1, hsame.2])]
      have hrequested : ({ world.requested with visible := visible, focused := focused } :
          TerminalView Size Theme) = world.requested := by
        rw [← hsame.1, ← hsame.2, h.flags.1, h.flags.2]
      rw [hrequested]
      exact h
    · rw [if_neg (by simpa using hsame)]
      refine sound_command h (eq_false_iff.mpr hcrd)
        (.setPresentationState visible focused) rfl
        { world.requested with visible := visible, focused := focused } ⟨rfl, rfl⟩ rfl
        fun hrecov => ?_
      exact .inl ((htimely hrecov).resolve_right hsame)
  | other accepted =>
    obtain ⟨hcrd, hnext⟩ := ite_none_left_eq_some.mp hstep
    cases hnext
    have hsame : world.command .other accepted = { world.command .other accepted with
        requested := world.requested } := by
      unfold World.command
      split
      · rfl
      · rfl
    rw [hsame]
    exact sound_command h (eq_false_iff.mpr hcrd) .other rfl world.requested h.flags rfl
      fun _ => .inr rfl
  | process outcome =>
    simp only [recoverySystem] at hstep
    cases hinbox : world.inbox with
    | nil =>
      rw [hinbox] at hstep
      cases hstep
    | cons command rest =>
      rw [hinbox] at hstep
      cases hstep
      exact sound_process h hinbox outcome
  | deliver accepted =>
    simp only [recoverySystem] at hstep
    cases hevs : world.events with
    | nil =>
      rw [hevs] at hstep
      cases hstep
    | cons event rest =>
      rw [hevs] at hstep
      cases hstep
      exact sound_receive h hevs accepted htimely
  | crash accepted =>
    cases hstep
    exact sound_crash h accepted

theorem sound_run (hrun : (recoverySystem Size Theme).Run Timely world) : Sound world := by
  apply hrun.invariant
  · rintro _ ⟨options, rfl⟩
    exact sound_start options
  · exact fun _ _ _ h htimely hstep => sound_step h htimely hstep

/-- In such a run the worker has what was asked for last whenever nothing is on
the way. -/
theorem recovery_adopts (hrun : (recoverySystem Size Theme).Run Timely world) : Adopted world := by
  intro hdisp hrecov hinbox hevs
  have h := sound_run hrun
  have hcrd : world.core.initializing = false := by
    by_contra hinitial
    rw [not_eq_false] at hinitial
    rcases ((h.awaiting hdisp (.inr hinitial)).initial hinitial).2.2.2 with hcontra | hcontra
    · exact hcontra hinbox
    · exact hcontra hevs
  obtain ⟨-, entry, hrtime, -, hstate⟩ := h.live hdisp hrecov hcrd
  refine ⟨entry, hrtime, ?_⟩
  rcases hstate with ⟨event, hmem, -⟩ | hview
  · rw [hevs] at hmem
    cases hmem
  unfold World.foreseen at hview
  rw [hinbox] at hview
  exact hview

end Steps

/-! ### Runs -/

instance [DecidableEq Size] [DecidableEq Theme] (world : World Size Theme) :
    (action : Action Size Theme) → Decidable (Timely world action)
  | .resize _ _ => inferInstanceAs (Decidable (_ → _ ∨ _))
  | .setTheme _ _ => inferInstanceAs (Decidable (_ → _ ∨ _))
  | .setPresentationState _ _ _ => inferInstanceAs (Decidable (_ → _ ∨ _ ∧ _))
  | .deliver _ => inferInstanceAs (Decidable (_ → ∀ event ∈ world.events.head?, _ → _ → _))
  | .other _ | .process _ | .crash _ => isTrue trivial

def sampleOptions : TerminalView Nat Nat := ⟨80, 0, true, false⟩

def handled : List (Action Nat Nat) := [.process .done, .deliver true]

def sampleRun : List (Action Nat Nat) :=
  handled ++ [.crash true] ++ handled ++ [.resize 100 true, .setTheme 1 true,
    .setPresentationState false false true] ++ handled ++ handled ++ handled

theorem recovery_adopts_sample : ∃ world, (recoverySystem Nat Nat).Run Timely world ∧
    world.runtime = some ⟨2, ⟨100, 1, false, false⟩⟩ ∧ Adopted world := by
  obtain ⟨world, hrpl, hrtime⟩ : ∃ world, (recoverySystem Nat Nat).replay
      (fun world action => decide (Timely world action)) (.start sampleOptions) sampleRun =
        some world ∧ world.runtime = some ⟨2, ⟨100, 1, false, false⟩⟩ := by
    refine ⟨_, rfl, ?_⟩
    decide
  have hstart : (recoverySystem Nat Nat).Run Timely (.start sampleOptions) :=
    .start ⟨sampleOptions, rfl⟩
  have hrun := System.replay_run hstart (fun _ _ _ hpass => of_decide_eq_true hpass) hrpl
  exact ⟨world, hrun, hrtime, recovery_adopts hrun⟩

def lostSize : List (Action Nat Nat) :=
  handled ++ [.resize 100 true] ++ handled ++ [.crash true] ++ handled

/-- The replacement has the size of the creation. -/
theorem size_lost : ∃ world, (recoverySystem Nat Nat).Reachable world ∧ ¬ Adopted world := by
  obtain ⟨world, hrpl, hfacts⟩ : ∃ world, (recoverySystem Nat Nat).replay
      (fun _ _ => true) (.start sampleOptions) lostSize = some world ∧
        (world.core.disposed = false ∧ world.core.recovering = false ∧ world.inbox = [] ∧
          world.events = []) ∧ world.runtime.map RuntimeEntry.view ≠ some world.requested := by
    refine ⟨_, rfl, ?_⟩
    decide
  have hstart : (recoverySystem Nat Nat).Reachable (.start sampleOptions) :=
    .start ⟨sampleOptions, rfl⟩
  refine ⟨world, System.replay_run hstart (fun _ _ _ _ => trivial) hrpl,
    fun hadopted => hfacts.2 ?_⟩
  obtain ⟨⟨hdisp, hrecov, hinbox, hevs⟩, -⟩ := hfacts
  obtain ⟨entry, hrtime, hview⟩ := hadopted hdisp hrecov hinbox hevs
  rw [hrtime, map_some, hview]

end Yaade.Workers.Recovery

import Yaade.Library.Discipline
import Yaade.Library.Transition
import Yaade.Runtime.Dispatch
import Yaade.Store.Processes

/-!
The host with several requests under way.
-/

namespace Yaade.Runtime

open Yaade.Library Yaade.Store

/-- The requests that start or stop the process of a terminal. -/
inductive LifecycleCall where
  | create (command : CreateTerminalCommand)
  | restart (muxTerminalId : String) (revision : Nat)
  | cancel (muxTerminalId : String) (revision : Nat)

def LifecycleCall.program : LifecycleCall → HostM MuxTerminal
  | .create command => createMuxTerminal command
  | .restart id revision => restartMuxTerminal id revision
  | .cancel id revision => do
      let terminal ← knownTerminal id
      cancelMuxTerminal terminal revision

/-! ## Phases of a request -/

/-- How far a request is: no record yet; the record it works on; that record
with its old process stopped; the record stored as starting; a new process not
stored yet; and the last write made, where `stored` tells that a new process is
in the catalog. -/
inductive Phase where
  | opening
  | chosen (terminal : MuxTerminal)
  | stopped (terminal : MuxTerminal)
  | launching (terminalId : String)
  | holding (terminalId ptyId : String)
  | settled (stored : Bool)

def Phase.Launches (id : String) : Phase → Prop
  | .launching terminalId => terminalId = id
  | .holding terminalId _ => terminalId = id
  | _ => False

def Phase.Reads : Phase → Prop
  | .opening => True
  | .chosen _ => True
  | _ => False

def firstEdit (edit : TerminalEdit) : Prop :=
  edit = startingEdit ∨ edit = restartEdit ∨ edit = cancelledEdit

def Phase.mayStore {α : Type} (phase : Phase) : StoreCall α → Prop
  | .getTerminal _ => phase = .opening
  | .createTerminal .. => phase = .opening
  | .updateTerminal id _ edit =>
    match phase with
    | .chosen terminal => id = terminal.id ∧ firstEdit edit
    | .stopped terminal => id = terminal.id ∧ firstEdit edit
    | .launching terminalId => id = terminalId ∧ ∃ error, edit = failedEdit error
    | .holding terminalId ptyId =>
      id = terminalId ∧ ∃ pty generations, edit = runningEdit pty generations ∧ pty.id = ptyId
    | _ => False
  | _ => phase.Reads

def Phase.may {β : Type} (phase : Phase) : HostEffect β → Prop
  | .store call => phase.mayStore call
  | .emit _ => True
  | .create _ => ∃ terminalId, phase = .launching terminalId
  | .dispose ptyId => ∃ terminal, phase = .chosen terminal ∧ terminal.output.ptyId = some ptyId

def Phase.afterFound (phase : Phase) : Option MuxTerminal → Phase
  | some terminal =>
    match phase with
    | .opening => .chosen terminal
    | _ => phase
  | none => .settled false

def Phase.afterCreated : Except StoreError MuxTerminal → Phase
  | .ok terminal => .chosen terminal
  | .error _ => .settled false

def Phase.afterUpdate (phase : Phase) : Except StoreError MuxTerminal → Phase
  | .ok terminal =>
    match phase with
    | .holding _ _ => .settled true
    | .launching _ => .settled false
    | _ => if terminal.status = .starting then .launching terminal.id else .settled false
  | .error _ => .settled false

def Phase.afterStore {α : Type} (phase : Phase) : StoreCall α → α → Phase
  | .getTerminal _, found => phase.afterFound found
  | .createTerminal .., outcome => .afterCreated outcome
  | .updateTerminal .., outcome => phase.afterUpdate outcome
  | _, _ => phase

def Phase.afterCreate (phase : Phase) : Except TerminalError TerminalCreateResult → Phase
  | .ok pty =>
    match phase with
    | .launching terminalId => .holding terminalId pty.id
    | _ => phase
  | .error _ => phase

def Phase.afterDispose (phase : Phase) : Except TerminalError Unit → Phase
  | .ok () | .error (.notFound _) =>
    match phase with
    | .chosen terminal => .stopped terminal
    | _ => phase
  | .error _ => .settled false

def Phase.after {β : Type} (phase : Phase) : HostEffect β → β → Phase
  | .store call, answer => phase.afterStore call answer
  | .emit _, _ => phase
  | .create _, answer => phase.afterCreate answer
  | .dispose _, answer => phase.afterDispose answer

/-- A record comes back with the id that was asked for, an updated one also with
the status of the edit. -/
def storeAnswers {α : Type} : StoreCall α → α → Prop
  | .getTerminal id, some terminal => terminal.id = id
  | .updateTerminal id _ edit, .ok terminal =>
    terminal.id = id ∧ ∃ uuid old, terminal.status = (edit.apply uuid old).status
  | _, _ => True

def hostAnswers {β : Type} : HostEffect β → β → Prop
  | .store call, answer => storeAnswers call answer
  | _, _ => True

def lifecycle : Discipline HostEffect Phase where
  may := Phase.may
  answers := hostAnswers
  after := Phase.after

/-- A request ends before it has stopped or stored anything, or after its last
write; with a process stored it succeeds. -/
def Phase.Final (phase : Phase) (outcome : Except RuntimeError MuxTerminal) : Prop :=
  match phase with
  | .opening => True
  | .chosen _ => True
  | .settled stored => stored = true → ∃ terminal, outcome = .ok terminal
  | _ => False

abbrev FollowsLifecycle (phase : Phase) (p : HostM MuxTerminal) : Prop :=
  lifecycle.Follows (α := Except RuntimeError MuxTerminal) Phase.Final phase p

section Follow

open Discipline

variable {phase : Phase}

theorem keeps_emit (event : MuxEvent) : lifecycle.Keeps phase (emit event) :=
  keeps_lift_perform trivial fun _ => rfl

theorem keeps_emitAll (events : List MuxEvent) : lifecycle.Keeps phase (emitAll events) := by
  apply keeps_lift_performAll
  intro e he
  obtain ⟨event, -, rfl⟩ := List.mem_map.mp he
  exact ⟨trivial, fun _ => rfl⟩

theorem keeps_getSession (h : phase.Reads) (id : String) :
    lifecycle.Keeps phase (read (.getSession id)) :=
  keeps_lift_perform h fun _ => rfl

theorem keeps_readTab (h : phase.Reads) (id : Option String) :
    lifecycle.Keeps phase (readTab id) := by
  cases id with
  | none => exact keeps_pure none
  | some id => exact keeps_lift_perform h fun _ => rfl

theorem follows_announced {stored : Bool} {p : HostM Unit}
    (hp : lifecycle.Keeps (.settled stored) p) (terminal : MuxTerminal) :
    FollowsLifecycle (.settled stored) (p >>= fun _ => pure terminal) :=
  hp.bind fun _ _ => ⟨terminal, rfl⟩

theorem follows_launch {starting : MuxTerminal} {generations : Nat} :
    FollowsLifecycle (.launching starting.id) (launch starting generations) := by
  refine ⟨⟨starting.id, rfl⟩, fun answer _ => ?_⟩
  cases answer with
  | ok pty =>
    refine follows_attempt_bind ⟨rfl, pty, generations, rfl, rfl⟩ ?_ ?_
    · exact fun running _ => follows_announced (keeps_emit _) running
    · intro error habs
      cases habs
  | error error =>
    refine follows_attempt_bind ⟨rfl, error, rfl⟩ ?_ ?_
    · refine fun failed _ => (keeps_emit _).bind fun _ habs => ?_
      cases habs
    · intro failure habs
      cases habs

theorem follows_started {id : String} {revision : Option Nat} {edit : TerminalEdit}
    {generations : Nat} (hmay : phase.mayStore (.updateTerminal id revision edit))
    (hedit : ∀ uuid old, (edit.apply uuid old).status = .starting)
    (hnext : ∀ terminal : MuxTerminal, terminal.status = .starting →
      phase.afterUpdate (.ok terminal) = .launching terminal.id) :
    FollowsLifecycle phase (do
      let starting ← write (.updateTerminal id revision edit)
      emitTerminalUpdated starting
      launch starting generations) := by
  refine follows_attempt_bind hmay ?_ ?_
  · rintro starting ⟨-, uuid, old, hstatus⟩
    have hafter : lifecycle.after phase (.store (.updateTerminal id revision edit)) (.ok starting) =
        .launching starting.id := hnext starting (hstatus.trans (hedit uuid old))
    rw [hafter]
    exact (keeps_emit _).bind fun _ => follows_launch
  · intro error habs
    cases habs

theorem follows_addMuxTerminal (command : CreateTerminalCommand) (input : TerminalInput) :
    lifecycle.Follows (α := Except RuntimeError MuxTerminal) (fun phase outcome =>
      match outcome with
      | .ok created => phase = .chosen created
      | .error _ => phase = .settled false) .opening (addMuxTerminal command input) := by
  have hopening : Phase.opening.Reads := trivial
  refine (keeps_getSession hopening _).bind fun previousSession => ?_
  refine (keeps_readTab hopening _).bind fun previousTab => ?_
  refine follows_attempt_bind rfl ?_ fun error => rfl
  intro created _
  have hchosen : (Phase.chosen created).Reads := trivial
  refine (keeps_emit _).bind fun _ => ?_
  refine (keeps_readTab hchosen _).bind fun tab => ?_
  refine (keeps_emitAll _).bind fun _ => ?_
  refine (keeps_getSession hchosen _).bind fun session => ?_
  exact (keeps_emitAll _).bind fun _ => rfl

theorem follows_createMuxTerminal (command : CreateTerminalCommand) :
    FollowsLifecycle .opening (createMuxTerminal command) := by
  apply follows_fallible_bind
  unfold CreateTerminalCommand.checked
  split
  · split
    · apply follows_fallible_bind
      refine (follows_addMuxTerminal command _).mono ?_
      intro phase outcome hphase
      cases outcome with
      | error error =>
        subst hphase
        intro habs
        cases habs
      | ok created =>
        subst hphase
        refine follows_started ⟨rfl, .inl rfl⟩ (fun _ _ => rfl) ?_
        exact fun terminal hstatus => if_pos hstatus
    · trivial
  · trivial

theorem follows_knownTerminal {id : String} {f : MuxTerminal → HostM MuxTerminal}
    (hf : ∀ terminal, terminal.id = id → FollowsLifecycle (.chosen terminal) (f terminal)) :
    FollowsLifecycle .opening (knownTerminal id >>= f) := by
  apply follows_fallible_bind
  refine ⟨rfl, fun found hanswer => ?_⟩
  cases found with
  | some terminal => exact hf terminal hanswer
  | none =>
    intro habs
    cases habs

variable {terminal : MuxTerminal}

theorem follows_checkRevision {revision : Nat}
    {f : Unit → HostM MuxTerminal} (hf : FollowsLifecycle (.chosen terminal) (f ())) :
    FollowsLifecycle (.chosen terminal) (checkRevision terminal revision >>= f) := by
  apply follows_fallible_bind
  unfold checkRevision
  split
  · exact hf
  · trivial

theorem follows_disposeOutput {f : Unit → HostM MuxTerminal}
    (hchosen : FollowsLifecycle (.chosen terminal) (f ()))
    (hstopped : FollowsLifecycle (.stopped terminal) (f ())) :
    FollowsLifecycle (.chosen terminal) (disposeOutput terminal >>= f) := by
  apply follows_fallible_bind
  unfold disposeOutput
  split
  · rename_i ptyId hpty
    refine ⟨⟨terminal, rfl, hpty⟩, fun answer _ => ?_⟩
    match answer with
    | .ok () => exact hstopped
    | .error (.notFound _) => exact hstopped
    | .error .limit | .error (.invalid _) | .error (.runtime _) | .error (.control _)
    | .error (.history _) =>
      intro habs
      cases habs
  · exact hchosen

theorem follows_restartMuxTerminal (id : String) (revision : Nat) :
    FollowsLifecycle .opening (restartMuxTerminal id revision) := by
  refine follows_knownTerminal fun terminal hid => ?_
  subst hid
  apply follows_checkRevision
  apply follows_disposeOutput
  · refine follows_started ⟨rfl, .inr (.inl rfl)⟩ (fun _ _ => rfl) ?_
    exact fun found hstatus => if_pos hstatus
  · refine follows_started ⟨rfl, .inr (.inl rfl)⟩ (fun _ _ => rfl) ?_
    exact fun found hstatus => if_pos hstatus

theorem follows_cancelled {revision : Option Nat}
    (hmay : phase.mayStore (.updateTerminal terminal.id revision cancelledEdit))
    (hnext : ∀ found : MuxTerminal, found.status = .cancelled →
      phase.afterUpdate (.ok found) = .settled false) :
    FollowsLifecycle phase (do
      let cancelled ← write (.updateTerminal terminal.id revision cancelledEdit)
      emitTerminalUpdated cancelled
      return cancelled) := by
  refine follows_attempt_bind hmay ?_ ?_
  · rintro cancelled ⟨-, uuid, old, hstatus⟩
    have hafter : lifecycle.after phase
        (.store (.updateTerminal terminal.id revision cancelledEdit)) (.ok cancelled) =
          .settled false := hnext cancelled hstatus
    rw [hafter]
    exact follows_announced (keeps_emit _) cancelled
  · intro error habs
    cases habs

theorem follows_cancel (id : String) (revision : Nat) :
    FollowsLifecycle .opening (LifecycleCall.cancel id revision).program := by
  refine follows_knownTerminal fun terminal _ => ?_
  apply follows_checkRevision
  apply follows_disposeOutput
  · refine follows_cancelled ⟨rfl, .inr (.inr rfl)⟩ fun found hstatus => if_neg ?_
    simp [hstatus]
  · refine follows_cancelled ⟨rfl, .inr (.inr rfl)⟩ fun found hstatus => if_neg ?_
    simp [hstatus]

theorem LifecycleCall.follows (call : LifecycleCall) : FollowsLifecycle .opening call.program := by
  cases call with
  | create command => exact follows_createMuxTerminal command
  | restart id revision => exact follows_restartMuxTerminal id revision
  | cancel id revision => exact follows_cancel id revision

end Follow

end Yaade.Runtime

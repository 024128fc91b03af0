import Yaade.Terminal.Fences

/-!
The host's map of terminals and the threads that own them.
-/

namespace Yaade.Terminal

open Yaade.Library TerminalControlState Option List IndexMap

/-! ## Registrations that stay -/

def SameEpochs (before after : TerminalControlRegistry) : Prop :=
  ∀ terminalId, (after.terminals.get? terminalId).map terminalEpoch =
    (before.terminals.get? terminalId).map terminalEpoch

section SameEpochs

variable {before middle after : TerminalControlRegistry}

theorem SameEpochs.refl (registry : TerminalControlRegistry) : SameEpochs registry registry :=
  fun _ => rfl

theorem SameEpochs.trans (h : SameEpochs before middle) (h' : SameEpochs middle after) :
    SameEpochs before after :=
  fun terminalId => (h' terminalId).trans (h terminalId)

theorem SameField.epochs (h : SameField kept before after) : SameEpochs before after :=
  h.project Prod.fst

theorem authorizeMutation_epoch (state : TerminalControlState) (fence : TerminalMutationFence)
    (terms : LeaseTerms) :
    (state.authorizeMutation fence terms).state.terminalEpoch = state.terminalEpoch := by
  unfold authorizeMutation
  simp only
  split
  · rfl
  split
  · rfl
  split
  · rfl
  · exact congrArg Prod.fst (renewLease_kept _ _ terms)

theorem authorizeTerminal_epochs (control : TerminalControlRegistry) (entry : TerminalEntry)
    (principalId connectionId : String) (supplied : Option TerminalMutationFence) :
    SameEpochs control (authorizeTerminal control entry principalId connectionId supplied).2 := by
  cases supplied with
  | some fence =>
    exact @operate_same _ terminalEpoch control.tick _ _ _ _ fun state =>
      authorizeMutation_epoch state _ _
  | none => exact (authorizeTerminal_same control entry _ _).epochs

end SameEpochs

/-! ## A terminal that can still be used -/

variable {Screen : Type} {owner : TerminalOwner Screen} {vt : Vt100 Screen} {env : Surroundings}

section Usable

variable (vt : Vt100 Screen) (env : Surroundings)

def Enrolled (entry : TerminalEntry) (control : TerminalControlRegistry) : Prop :=
  (control.terminals.get? entry.id).map terminalEpoch = some entry.terminalEpoch

def emitTerminal (owner : TerminalOwner Screen) (output : ProcessOutput) :
    Option (String × Nat × List UInt8) :=
  if owner.state.disposed then none
  else if env.hostAlive owner.asked then
    some (owner.entry.id, owner.state.sequence + 1, output.data)
  else none

/-- The terminal is registered, its output is recorded and forwarded, and it can
be disposed of if the process has exited or can be killed. -/
structure Usable (owner : TerminalOwner Screen) : Prop where
  enrolled : Enrolled owner.entry owner.control
  records : ∀ output, (processTerminalOutput vt env owner output).state.sequence =
      owner.state.sequence + 1 ∧
    (processTerminalOutput vt env owner output).state.replay.getLast? =
      some ⟨owner.state.sequence + 1, output.data⟩
  forwards : ∀ output, env.hostAlive owner.asked = true → emitTerminal env owner output =
    some (owner.entry.id, owner.state.sequence + 1, output.data)
  disposable : ∀ reply, killChild env owner.asked = .ok () →
    (handleTerminalCommand vt env owner (.dispose reply)).continues = false ∧
      (handleTerminalCommand vt env owner (.dispose reply)).sent = [(reply, .done (.ok ()))]

theorem trim_getLast (limit : Nat) (chunks : List ReplayChunk) (bytes : Nat) (truncated : Bool) :
    (trim limit chunks bytes truncated).chunks.getLast? = chunks.getLast? := by
  induction chunks generalizing bytes truncated with
  | nil => rfl
  | cons dropped rest ih =>
    cases rest with
    | nil => rfl
    | cons next rest =>
      unfold trim
      split
      · rw [ih, getLast?_cons_cons]
      · rfl

theorem usable_iff : Usable vt env owner ↔
    Enrolled owner.entry owner.control ∧ owner.state.disposed = false := by
  constructor
  · intro h
    refine ⟨h.enrolled, ?_⟩
    have hrecords := (h.records ⟨[], [], none, none, false⟩).1
    cases hdisp : owner.state.disposed with
    | false => rfl
    | true =>
      rw [processTerminalOutput, if_pos hdisp] at hrecords
      omega
  · rintro ⟨henrolled, hdisp⟩
    constructor
    · exact henrolled
    · intro output
      simp only [processTerminalOutput, hdisp, Bool.false_eq_true, if_false]
      obtain ⟨hseq, hrpl⟩ := @record_sequence _ vt owner.entry.terminalEpoch
        (env.nowIso (owner.pty.write env output.responses).2.calls) output
        (((owner.state.push output.data).trimReplay maxReplayBytes).scanned output)
      rw [hseq, hrpl]
      refine ⟨rfl, (trim_getLast _ _ _ _).trans ?_⟩
      simp [EntryState.push]
    · intro output halive
      rw [emitTerminal, hdisp, halive]
      rfl
    · intro reply hkilled
      refine ⟨rfl, ?_⟩
      show [(reply, TerminalReply.done (killChild env owner.asked))] = _
      rw [hkilled]

end Usable

/-! ## Steps of the owner -/

/-- What the owner does in one go: a command, a run of writes or of resizes that
it takes from a batch, a chunk of output, or the end of the process. -/
inductive OwnerStep where
  | command (given : TerminalCommand)
  | writes (requests : List (Grouped (List UInt8)))
  | resizes (requests : List (Grouped (Nat × Nat)))
  | output (chunk : ProcessOutput)
  | exit (ended : ProcessExit)

def TerminalCommand.disposes : TerminalCommand → Bool
  | .dispose _ | .authorizeAndDispose _ _ _ _ => true
  | _ => false

def OwnerStep.disposes : OwnerStep → Bool
  | .command given => given.disposes
  | _ => false

section Steps

variable (vt : Vt100 Screen) (env : Surroundings)

def OwnerStep.turn (owner : TerminalOwner Screen) : OwnerStep → Turn Screen
  | .command given => handleTerminalCommand vt env owner given
  | .writes requests => writeGroup env owner requests
  | .resizes requests => resizeGroup vt env owner requests
  | .output chunk => ⟨true, processTerminalOutput vt env owner chunk, []⟩
  | .exit ended => ⟨true, observeTerminalExit vt env owner ended, []⟩

end Steps

section Serves

variable {owner before middle after : TerminalOwner Screen}

/-- What every step but a disposal leaves as it is. -/
structure Serves (before after : TerminalOwner Screen) : Prop where
  entry : after.entry = before.entry
  epochs : SameEpochs before.control after.control
  disposed : after.state.disposed = before.state.disposed

theorem Serves.refl (owner : TerminalOwner Screen) : Serves owner owner := ⟨rfl, .refl _, rfl⟩

theorem Serves.trans (h : Serves before middle) (h' : Serves middle after) : Serves before after :=
  ⟨h'.entry.trans h.entry, h.epochs.trans h'.epochs, h'.disposed.trans h.disposed⟩

theorem Serves.usable (h : Serves before after) (husable : Usable vt env before) :
    Usable vt env after := by
  rw [usable_iff] at husable ⊢
  constructor
  · unfold Enrolled
    rw [h.entry]
    exact (h.epochs _).trans husable.1
  · exact h.disposed.trans husable.2

theorem serves_control {control : TerminalControlRegistry}
    (hepochs : SameEpochs owner.control control) : Serves owner { owner with control := control } :=
  ⟨rfl, hepochs, rfl⟩

theorem serves_call (owner : TerminalOwner Screen) {call : LeaseCall}
    (hkeeps : call.KeepsCommands) :
    Serves owner { owner with control := (call.run owner.control).2 } :=
  serves_control (LeaseCall.run_same _ hkeeps).epochs

theorem storeCheckpoint_disposed (epoch nowIso : String) (state : EntryState Screen) :
    (storeCheckpoint vt epoch nowIso state).disposed = state.disposed := by
  unfold storeCheckpoint
  split <;> rfl

section

variable (owner : TerminalOwner Screen)

theorem writeTerminal_serves (data : List UInt8) :
    Serves owner (writeTerminal env owner data).2 := ⟨rfl, .refl _, rfl⟩

theorem resizeTerminal_serves (cols rows : Nat) :
    Serves owner (resizeTerminal vt env owner cols rows).2 := by
  unfold resizeTerminal
  simp only
  split
  · exact ⟨rfl, .refl _, rfl⟩
  · exact ⟨rfl, .refl _, storeCheckpoint_disposed _ _ _⟩

theorem processTerminalOutput_serves (output : ProcessOutput) :
    Serves owner (processTerminalOutput vt env owner output) := by
  unfold processTerminalOutput
  split
  · exact .refl owner
  refine ⟨rfl, .refl _, ?_⟩
  simp only [record]
  split
  · rfl
  split
  · exact storeCheckpoint_disposed _ _ _
  · rfl

theorem observeTerminalExit_serves (exit : ProcessExit) :
    Serves owner (observeTerminalExit vt env owner exit) := by
  unfold observeTerminalExit
  split
  · exact .refl owner
  · exact ⟨rfl, .refl _, storeCheckpoint_disposed _ _ _⟩

theorem authorizeTerminal_serves
    (principalId connectionId : String) (supplied : Option TerminalMutationFence) :
    Serves owner { owner with control :=
      (authorizeTerminal owner.control owner.entry principalId connectionId supplied).2 } :=
  serves_control (authorizeTerminal_epochs _ _ _ _ _)

end

theorem authorizeGroup_epochs {α : Type} (entry : TerminalEntry) (requests : List (Grouped α))
    (control : TerminalControlRegistry) :
    SameEpochs control (authorizeGroup entry requests control).control := by
  induction requests generalizing control with
  | nil => exact .refl control
  | cons request rest ih =>
    cases authorized_cases entry request control rest with
    | direct hcaller hgroup =>
      rw [hgroup]
      exact ih control
    | granted caller hcaller lease control' hauth hgroup
    | refused caller hcaller error control' hauth hgroup =>
      rw [hgroup]
      have hsame := authorizeTerminal_epochs control entry caller.principalId
        caller.connectionId caller.fence
      rw [hauth] at hsame
      exact hsame.trans (ih control')

/-- A command that is no disposal leaves the owner running and the terminal usable. -/
theorem handle_serves (owner : TerminalOwner Screen) {command : TerminalCommand}
    (hother : command.disposes = false) :
    (handleTerminalCommand vt env owner command).continues = true ∧
      Serves owner (handleTerminalCommand vt env owner command).owner := by
  cases command with
  | dispose | authorizeAndDispose => cases hother
  | write data reply => exact ⟨rfl, writeTerminal_serves owner data⟩
  | resize cols rows reply => exact ⟨rfl, resizeTerminal_serves owner cols rows⟩
  | authorize principalId connectionId fence reply =>
    exact ⟨rfl, authorizeTerminal_serves owner _ _ _⟩
  | authorizeAndWrite principalId connectionId fence data reply =>
    have hauthorized := authorizeTerminal_serves owner principalId connectionId fence
    simp only [handleTerminalCommand]
    split
    · rename_i error control hauth
      rw [hauth] at hauthorized
      exact ⟨rfl, hauthorized⟩
    · rename_i lease control hauth
      rw [hauth] at hauthorized
      exact ⟨rfl, hauthorized.trans (writeTerminal_serves _ data)⟩
  | authorizeAndResize principalId connectionId fence cols rows reply =>
    have hauthorized := authorizeTerminal_serves owner principalId connectionId fence
    simp only [handleTerminalCommand]
    split
    · rename_i error control hauth
      rw [hauth] at hauthorized
      exact ⟨rfl, hauthorized⟩
    · rename_i lease control hauth
      rw [hauth] at hauthorized
      exact ⟨rfl, hauthorized.trans (resizeTerminal_serves _ cols rows)⟩
  | acquireLease request reply =>
    exact ⟨rfl, @serves_call _ owner (.acquire request) trivial⟩
  | renewLease leaseId principalId connectionId reply =>
    exact ⟨rfl, @serves_call _ owner (.renew _ _ leaseId principalId connectionId) trivial⟩
  | releaseLease leaseId principalId connectionId reply =>
    exact ⟨rfl, @serves_call _ owner (.release _ _ leaseId principalId connectionId) trivial⟩
  | takeover principalId connectionId reply =>
    exact ⟨rfl, @serves_call _ owner (.forceTakeover _ _ principalId connectionId) trivial⟩
  | transfer leaseId principalId connectionId targetConnectionId reply =>
    exact ⟨rfl, @serves_call _ owner (.transfer _ _ leaseId principalId connectionId _
      targetConnectionId) trivial⟩
  | listLeases reply => exact ⟨rfl, @serves_call _ owner (.list _) trivial⟩
  | releaseConnection connectionId =>
    exact ⟨rfl, @serves_call _ owner (.releaseConnection connectionId) trivial⟩
  | _ => exact ⟨rfl, ⟨rfl, .refl _, rfl⟩⟩

theorem turn_serves (owner : TerminalOwner Screen) {step : OwnerStep}
    (hother : step.disposes = false) :
    (step.turn vt env owner).continues = true ∧ Serves owner (step.turn vt env owner).owner := by
  cases step with
  | command given => exact handle_serves owner hother
  | writes requests =>
    exact ⟨rfl, ⟨rfl, authorizeGroup_epochs owner.entry requests owner.control, rfl⟩⟩
  | resizes requests =>
    refine ⟨resizeGroup_continues owner requests, ?_⟩
    have hgroup := serves_control (authorizeGroup_epochs owner.entry requests owner.control)
    simp only [OwnerStep.turn, resizeGroup]
    split
    · exact hgroup
    · exact hgroup.trans (resizeTerminal_serves _ _ _)
  | output chunk => exact ⟨rfl, processTerminalOutput_serves owner chunk⟩
  | exit ended => exact ⟨rfl, observeTerminalExit_serves owner ended⟩

end Serves

/-! ## Disposals -/

/-- A disposal by the host itself, or one by a caller who has to be authorised. -/
def disposal (caller : Option Caller) (reply : Nat) : TerminalCommand :=
  match caller with
  | none => .dispose reply
  | some caller => .authorizeAndDispose caller.principalId caller.connectionId caller.fence reply

def TerminalReply.disposed : TerminalReply → Except TerminalError Unit
  | .done result => result
  | .lease result => result.map fun _ => ()
  | _ => .ok ()

def Turn.answer {Screen : Type} (turn : Turn Screen) (reply : Nat) : Option TerminalReply :=
  (turn.sent.find? fun sent => sent.1 == reply).map Prod.snd

section Disposals

variable (vt : Vt100 Screen) (env : Surroundings)

def KillRefused (owner : TerminalOwner Screen) (caller : Option Caller) : Prop :=
  (∀ asking, caller = some asking → (authorizeTerminal owner.control owner.entry
      asking.principalId asking.connectionId asking.fence).1.isOk = true) ∧
    ∃ error, killChild env owner.asked = .error error

/-- What a disposal comes to: it is refused, the terminal is gone, or the
process is still there. -/
inductive Disposed (owner : TerminalOwner Screen) (caller : Option Caller) (reply : Nat) : Prop where
  | refused (error : TerminalError) (control : TerminalControlRegistry)
      (hspared : ¬ KillRefused env owner caller)
      (hepochs : SameEpochs owner.control control)
      (hturn : handleTerminalCommand vt env owner (disposal caller reply) =
        ⟨true, { owner with control := control }, [(reply, .lease (.error error))]⟩)
  | gone (message : TerminalReply) (hspared : ¬ KillRefused env owner caller)
      (hmsg : message.disposed = .ok ())
      (hstops : (handleTerminalCommand vt env owner (disposal caller reply)).continues = false)
      (hsent : (handleTerminalCommand vt env owner (disposal caller reply)).sent =
        [(reply, message)])
  | left (message : TerminalReply) (error : TerminalError)
      (hrefused : KillRefused env owner caller)
      (hmsg : message.disposed = .error error)
      (hdisp : (handleTerminalCommand vt env owner
        (disposal caller reply)).owner.state.disposed = true)
      (hsent : (handleTerminalCommand vt env owner (disposal caller reply)).sent =
        [(reply, message)])

theorem disposed_cases (owner : TerminalOwner Screen) (caller : Option Caller) (reply : Nat) :
    Disposed vt env owner caller reply := by
  cases caller with
  | none =>
    cases hkill : killChild env owner.asked with
    | ok =>
      apply Disposed.gone (.done (.ok ()))
      · rintro ⟨-, error, herror⟩
        rw [hkill] at herror
        cases herror
      · rfl
      · rfl
      · show [(reply, TerminalReply.done (killChild env owner.asked))] = _
        rw [hkill]
    | error error =>
      apply Disposed.left (.done (.error error)) error
      · refine ⟨?_, error, hkill⟩
        rintro asking ⟨⟩
      · rfl
      · rfl
      · show [(reply, TerminalReply.done (killChild env owner.asked))] = _
        rw [hkill]
  | some asking =>
    cases hauth : authorizeTerminal owner.control owner.entry asking.principalId
        asking.connectionId asking.fence with
    | mk result control =>
      have hepochs := authorizeTerminal_epochs owner.control owner.entry asking.principalId
        asking.connectionId asking.fence
      rw [hauth] at hepochs
      cases result with
      | error error =>
        apply Disposed.refused error control
        · rintro ⟨hauthorized, -⟩
          have hok := hauthorized asking rfl
          rw [hauth] at hok
          cases hok
        · exact hepochs
        · simp only [disposal, handleTerminalCommand, hauth]
          rfl
      | ok lease =>
        cases hkill : killChild env owner.asked with
        | ok =>
          apply Disposed.gone (.lease (.ok lease))
          · rintro ⟨-, error, herror⟩
            rw [hkill] at herror
            cases herror
          · rfl
          · simp only [disposal, handleTerminalCommand, hauth, TerminalOwner.unregister, hkill]
          · simp only [disposal, handleTerminalCommand, hauth, TerminalOwner.unregister, hkill]
        | error error =>
          apply Disposed.left (.lease (.error error)) error
          · refine ⟨?_, error, hkill⟩
            rintro other ⟨⟩
            rw [hauth]
            rfl
          · rfl
          · simp only [disposal, handleTerminalCommand, hauth, TerminalOwner.unregister, hkill]
            rfl
          · simp only [disposal, handleTerminalCommand, hauth, TerminalOwner.unregister, hkill]
            rfl

def FailsSafely (owner : TerminalOwner Screen) (caller : Option Caller) (reply : Nat) : Prop :=
  let turn := handleTerminalCommand vt env owner (disposal caller reply)
  ∀ message error, turn.answer reply = some message → message.disposed = .error error →
    turn.continues = true ∧ Usable vt env turn.owner

variable {vt env}

theorem answer_sent {turn : Turn Screen} {reply : Nat} {message : TerminalReply}
    (hsent : turn.sent = [(reply, message)]) : turn.answer reply = some message := by
  simp [Turn.answer, hsent]

theorem failsSafely_iff (husable : Usable vt env owner) (caller : Option Caller) (reply : Nat) :
    FailsSafely vt env owner caller reply ↔ ¬ KillRefused env owner caller := by
  unfold FailsSafely
  cases disposed_cases vt env owner caller reply with
  | refused error control hspared hepochs hturn =>
    refine ⟨fun _ => hspared, fun _ message found _ _ => ?_⟩
    rw [hturn]
    exact ⟨rfl, (serves_control hepochs).usable husable⟩
  | gone message hspared hmsg hstops hsent =>
    refine ⟨fun _ => hspared, fun _ other found hanswer hfound => ?_⟩
    rw [answer_sent hsent] at hanswer
    cases hanswer
    rw [hmsg] at hfound
    cases hfound
  | left message error hrefused hmsg hdisp hsent =>
    constructor
    · intro hsafe
      have husable := (hsafe message error (answer_sent hsent) hmsg).2
      rw [usable_iff, hdisp] at husable
      cases husable.2
    · exact fun hspared => (hspared hrefused).elim

end Disposals

/-! ## The host -/

/-- What a new terminal is made from. -/
structure Launch (Screen : Type) where
  millis : Int
  title : Option String
  terminalEpoch : String
  drawn : terminalEpoch.isEmpty = false
  spawnCommand : Option String
  spawnCwd : String
  osPid : Option Nat
  processIdentity : Option Store.ProcessIdentity
  cols : Nat
  rows : Nat
  theme : TerminalTheme
  recorder : Option Screen
  clock : Nat → Int
  makeId : Nat → String
  iso : Int → String

def terminalId (millis : Int) (number : Nat) : String :=
  "term-" ++ toString millis ++ "-" ++ toString number

def Launch.entry {Screen : Type} (launch : Launch Screen) (number : Nat) : TerminalEntry where
  id := terminalId launch.millis number
  title := launch.title
  terminalEpoch := launch.terminalEpoch
  spawnCommand := launch.spawnCommand
  spawnCwd := launch.spawnCwd
  osPid := launch.osPid
  processIdentity := launch.processIdentity

/-- The thread of an owner. A thread that could not be spawned never runs. -/
structure OwnerThread (Screen : Type) where
  owner : TerminalOwner Screen
  running : Bool

/-- A caller that waits for a disposal: whether its command is still in the
mailbox of the owner, the reply, and what the call returned. -/
structure DisposalCall where
  id : String
  thread : Nat
  caller : Option Caller
  queued : Bool
  reply : Option (Except TerminalError Unit)
  result : Option (Except TerminalError Unit)

/-- The entries of the host, each with the thread that owns it. -/
structure TerminalHost (Screen : Type) where
  nextId : Nat
  entries : IndexMap String Nat
  threads : List (OwnerThread Screen)
  calls : List DisposalCall

inductive HostAction (Screen : Type) where
  | create (launch : Launch Screen) (spawned : Bool)
  | dispose (id : String) (caller : Option Caller) (full : Bool)
  | advance (thread : Nat) (step : OwnerStep)
  | handle (call : Nat)
  | receive (call : Nat)
  | giveUp (call : Nat)

section Host

variable (vt : Vt100 Screen) (env : Nat → Surroundings)

def OwnerThread.start (launch : Launch Screen) (number : Nat) (spawned : Bool) :
    OwnerThread Screen where
  owner := .start (launch.entry number)
    (.new (clampSize launch.cols) (clampSize launch.rows) launch.theme launch.recorder)
    (.new launch.clock launch.makeId launch.iso)
  running := spawned &&
    ((TerminalControlRegistry.new launch.clock launch.makeId launch.iso).registerTerminal
      (launch.entry number).id launch.terminalEpoch).1.isOk

namespace TerminalHost

def create (host : TerminalHost Screen) (launch : Launch Screen) (spawned : Bool) :
    TerminalHost Screen where
  nextId := host.nextId + 1
  entries := host.entries.insert (terminalId launch.millis (host.nextId + 1)) host.threads.length
  threads := host.threads ++ [.start launch (host.nextId + 1) spawned]
  calls := host.calls

/-- A disposal is sent to the owner unless the terminal is unknown, the mailbox
is full, or the owner has stopped. -/
def request (host : TerminalHost Screen) (id : String) (caller : Option Caller) (full : Bool) :
    TerminalHost Screen :=
  match host.entries.get? id with
  | none => host
  | some number =>
    match host.threads[number]? with
    | none => host
    | some thread =>
      if full || !thread.running then host
      else { host with calls := host.calls ++ [⟨id, number, caller, true, none, none⟩] }

def dropMailbox (number : Nat) (call : DisposalCall) : DisposalCall :=
  if call.thread = number then { call with queued := false } else call

def handled (host : TerminalHost Screen) (index : Nat) (call : DisposalCall)
    (thread : OwnerThread Screen) : TerminalHost Screen :=
  let turn := handleTerminalCommand vt (env call.thread) thread.owner (disposal call.caller index)
  let calls := host.calls.set index { call with
    queued := false
    reply := (turn.answer index).map TerminalReply.disposed }
  { host with
    threads := host.threads.set call.thread ⟨turn.owner, turn.continues⟩
    calls := if turn.continues then calls else calls.map (dropMailbox call.thread) }

def received (host : TerminalHost Screen) (index : Nat) (call : DisposalCall)
    (reply : Except TerminalError Unit) : TerminalHost Screen :=
  { host with
    entries := if reply.isOk then host.entries.shiftRemove call.id else host.entries
    calls := host.calls.set index { call with result := some reply } }

def gaveUp (host : TerminalHost Screen) (index : Nat) (call : DisposalCall) :
    TerminalHost Screen :=
  { host with
    calls := host.calls.set index { call with
      result := some (.error (.runtime "terminal owner reply timed out")) } }

end TerminalHost

def disposalSystem : System (TerminalHost Screen) (HostAction Screen) where
  initial host := host = ⟨0, .empty, [], []⟩
  step host action :=
    match action with
    | .create launch spawned => some (host.create launch spawned)
    | .dispose id caller full => some (host.request id caller full)
    | .advance number step => do
        let thread ← host.threads[number]?
        if thread.running && !step.disposes then
          let turn := step.turn vt (env number) thread.owner
          some { host with threads := host.threads.set number ⟨turn.owner, turn.continues⟩ }
        else none
    | .handle index => do
        let call ← host.calls[index]?
        let thread ← host.threads[call.thread]?
        if call.queued && thread.running then some (host.handled vt env index call thread)
        else none
    | .receive index => do
        let call ← host.calls[index]?
        let reply ← call.reply
        if call.result.isNone then some (host.received index call reply) else none
    | .giveUp index => do
        let call ← host.calls[index]?
        if call.reply.isNone && call.result.isNone then some (host.gaveUp index call) else none

/-- Every owner thread can be spawned, a process is killed when a disposal gets
that far, and no caller gives up on a disposal that the owner will still handle. -/
def Unhindered (host : TerminalHost Screen) : HostAction Screen → Prop
  | .create _ spawned => spawned = true
  | .handle index => ∀ call thread, host.calls[index]? = some call →
      host.threads[call.thread]? = some thread →
      ¬ KillRefused (env call.thread) thread.owner call.caller
  | .giveUp index => ∀ call, host.calls[index]? = some call → call.queued = false
  | _ => True

end Host

section Sound

variable {env : Nat → Surroundings} {host host' : TerminalHost Screen}

/-- The next step of the caller takes this entry out of the map. -/
structure DisposalCall.Removes (id : String) (number : Nat) (call : DisposalCall) : Prop where
  id : call.id = id
  thread : call.thread = number
  reply : call.reply = some (.ok ())
  result : call.result = none

structure HostSound (vt : Vt100 Screen) (env : Nat → Surroundings) (host : TerminalHost Screen) :
    Prop where
  usable : ∀ number thread, host.threads[number]? = some thread → thread.running = true →
    Usable vt (env number) thread.owner
  named : ∀ id number, host.entries.get? id = some number →
    ∃ thread, host.threads[number]? = some thread ∧ thread.owner.entry.id = id
  addressed : ∀ call ∈ host.calls, ∃ thread, host.threads[call.thread]? = some thread ∧
    thread.owner.entry.id = call.id
  waiting : ∀ call ∈ host.calls, call.queued = true → call.reply = none ∧ call.result = none
  removed : ∀ id number thread, host.entries.get? id = some number →
    host.threads[number]? = some thread → thread.running = false →
    ∃ call ∈ host.calls, call.Removes id number

theorem terminalId_nonempty (millis : Int) (number : Nat) :
    (terminalId millis number).isEmpty = false := by
  rw [Bool.eq_false_iff, ne_eq, String.isEmpty_iff]
  intro hempty
  have hlist := congrArg String.toList hempty
  simp [terminalId] at hlist

theorem registered_new (launch : Launch Screen) (number : Nat) :
    (TerminalControlRegistry.new launch.clock launch.makeId launch.iso).registerTerminal
        (launch.entry number).id launch.terminalEpoch =
      (.ok (), (TerminalControlRegistry.new launch.clock launch.makeId launch.iso).commit
        (launch.entry number).id (.registered launch.terminalEpoch) false) := by
  unfold TerminalControlRegistry.registerTerminal
  rw [launch.drawn, show (launch.entry number).id.isEmpty = false from terminalId_nonempty _ _]
  rfl

theorem start_running (launch : Launch Screen) (number : Nat) (spawned : Bool) :
    (OwnerThread.start launch number spawned).running = spawned := by
  unfold OwnerThread.start
  rw [registered_new]
  exact Bool.and_true spawned

theorem start_usable (vt : Vt100 Screen) (env : Surroundings) (launch : Launch Screen)
    (number : Nat) (spawned : Bool) :
    Usable vt env (OwnerThread.start launch number spawned).owner := by
  rw [usable_iff]
  refine ⟨?_, rfl⟩
  show ((TerminalControlRegistry.registerTerminal _ (launch.entry number).id
    launch.terminalEpoch).2.terminals.get? _).map _ = _
  rw [registered_new]
  simp only [TerminalControlRegistry.commit, get?_insert]
  exact congrArg (Option.map _) (if_pos rfl)

variable {index number : Nat} {id : String} {thread : OwnerThread Screen} {call : DisposalCall}

theorem mem_set_other {α : Type} {items : List α} {old item : α}
    (hold : items[index]? = some old) (hmem : item ∈ items) (hother : item ≠ old) (new : α) :
    item ∈ items.set index new := by
  obtain ⟨place, hplace⟩ := mem_iff_getElem?.mp hmem
  have hne : index ≠ place := by
    rintro rfl
    rw [hold] at hplace
    exact hother (Option.some.inj hplace).symm
  exact mem_iff_getElem?.mpr ⟨place, by rw [getElem?_set_ne hne]; exact hplace⟩

theorem threads_set {threads : List (OwnerThread Screen)}
    {old new : OwnerThread Screen} (hold : threads[number]? = some old)
    (hentry : new.owner.entry = old.owner.entry) {other : Nat}
    (hother : ∃ thread, threads[other]? = some thread ∧ thread.owner.entry.id = id) :
    ∃ thread, (threads.set number new)[other]? = some thread ∧ thread.owner.entry.id = id := by
  obtain ⟨thread, hthr, hid⟩ := hother
  rw [getElem?_set]
  split
  · rename_i hsame
    subst hsame
    rw [hold] at hthr
    cases hthr
    have hlength := (List.getElem?_eq_some_iff.mp hold).1
    exact ⟨new, if_pos hlength, by rw [hentry]; exact hid⟩
  · exact ⟨thread, hthr, hid⟩

section

variable (h : HostSound vt env host)
include h

theorem HostSound.create (launch : Launch Screen) : HostSound vt env (host.create launch true) := by
  have hold : ∀ (number : Nat) (thread : OwnerThread Screen),
      host.threads[number]? = some thread →
      (host.threads ++ [OwnerThread.start launch (host.nextId + 1) true])[number]? =
        some thread := by
    intro number thread hthr
    rw [getElem?_append_left (List.getElem?_eq_some_iff.mp hthr).1]
    exact hthr
  have hnew : ∀ (number : Nat) (thread : OwnerThread Screen),
      (host.threads ++ [OwnerThread.start launch (host.nextId + 1) true])[number]? = some thread →
      host.threads[number]? = some thread ∨
        thread = OwnerThread.start launch (host.nextId + 1) true := by
    intro number thread hthr
    rcases Nat.lt_or_ge number host.threads.length with hlt | hge
    · rw [getElem?_append_left hlt] at hthr
      exact .inl hthr
    rw [getElem?_append_right hge] at hthr
    have hmem := mem_of_getElem? hthr
    exact .inr (mem_singleton.mp hmem)
  constructor
  · intro number thread hthr hrunn
    rcases hnew number thread hthr with hbef | rfl
    · exact h.usable number thread hbef hrunn
    · exact start_usable vt (env number) launch _ true
  · intro id number hentry
    rw [TerminalHost.create, get?_insert] at hentry
    split at hentry
    · rename_i hid
      cases hentry
      exact ⟨_, getElem?_concat_length, hid.symm⟩
    · obtain ⟨thread, hthr, hid⟩ := h.named id number hentry
      exact ⟨thread, hold number thread hthr, hid⟩
  · intro call hcall
    obtain ⟨thread, hthr, hid⟩ := h.addressed call hcall
    exact ⟨thread, hold _ thread hthr, hid⟩
  · exact h.waiting
  · intro id number thread hentry hthr hstopped
    rw [TerminalHost.create, get?_insert] at hentry
    rcases hnew number thread hthr with hbef | rfl
    · split at hentry
      · cases hentry
        rw [getElem?_eq_none le_rfl] at hbef
        cases hbef
      · exact h.removed id number thread hentry hbef hstopped
    · rw [start_running] at hstopped
      cases hstopped

theorem HostSound.request (id : String) (caller : Option Caller)
    (full : Bool) : HostSound vt env (host.request id caller full) := by
  unfold TerminalHost.request
  split
  · exact h
  rename_i number hentry
  split
  · exact h
  rename_i thread hthr
  split
  · exact h
  obtain ⟨owned, howned, hid⟩ := h.named id number hentry
  constructor
  · exact h.usable
  · exact h.named
  · intro call hcall
    rcases mem_append.mp hcall with hbef | hnew
    · exact h.addressed call hbef
    · cases mem_singleton.mp hnew
      exact ⟨owned, howned, hid⟩
  · intro call hcall hqueued
    rcases mem_append.mp hcall with hbef | hnew
    · exact h.waiting call hbef hqueued
    · cases mem_singleton.mp hnew
      exact ⟨rfl, rfl⟩
  · intro other number' thread' hother hthr' hstopped
    obtain ⟨call, hcall, hremoves⟩ := h.removed other number' thread' hother hthr' hstopped
    exact ⟨call, mem_append_left _ hcall, hremoves⟩

theorem HostSound.proceed
    (hthr : host.threads[number]? = some thread) {owner : TerminalOwner Screen}
    (hentry : owner.entry = thread.owner.entry) (husable : Usable vt (env number) owner) :
    HostSound vt env { host with threads := host.threads.set number ⟨owner, true⟩ } := by
  constructor
  · intro other found hfound hrunn
    rw [getElem?_set] at hfound
    split at hfound
    · rename_i hsame
      subst hsame
      obtain ⟨-, hfound⟩ := ite_none_right_eq_some.mp hfound
      cases hfound
      exact husable
    · exact h.usable other found hfound hrunn
  · exact fun id other hother => threads_set hthr hentry (h.named id other hother)
  · exact fun call hcall => threads_set hthr hentry (h.addressed call hcall)
  · exact h.waiting
  · intro id other found hother hfound hstopped
    rw [getElem?_set] at hfound
    split at hfound
    · obtain ⟨-, hfound⟩ := ite_none_right_eq_some.mp hfound
      cases hfound
      cases hstopped
    · exact h.removed id other found hother hfound hstopped

theorem HostSound.settle {call' : DisposalCall}
    (hcall : host.calls[index]? = some call) (hid : call'.id = call.id)
    (hthr : call'.thread = call.thread)
    (hwaiting : call'.queued = true → call'.reply = none ∧ call'.result = none)
    (hkeeps : ∀ id number, host.entries.get? id = some number → call.Removes id number →
      call'.Removes id number) :
    HostSound vt env { host with calls := host.calls.set index call' } := by
  have hmem : call' ∈ host.calls.set index call' :=
    mem_iff_getElem?.mpr ⟨index, getElem?_set_self (List.getElem?_eq_some_iff.mp hcall).1⟩
  constructor
  · exact h.usable
  · exact h.named
  · intro other hother
    rcases mem_or_eq_of_mem_set hother with hbef | rfl
    · exact h.addressed other hbef
    · rw [hid, hthr]
      exact h.addressed call (mem_of_getElem? hcall)
  · intro other hother hqueued
    rcases mem_or_eq_of_mem_set hother with hbef | rfl
    · exact h.waiting other hbef hqueued
    · exact hwaiting hqueued
  · intro id number thread hentry hfound hstopped
    obtain ⟨other, hother, hremoves⟩ := h.removed id number thread hentry hfound hstopped
    by_cases hsame : other = call
    · subst hsame
      exact ⟨call', hmem, hkeeps id number hentry hremoves⟩
    · exact ⟨other, mem_set_other hcall hother hsame call', hremoves⟩

end

@[simp] theorem dropMailbox_id (number : Nat) (call : DisposalCall) :
    (TerminalHost.dropMailbox number call).id = call.id := by
  unfold TerminalHost.dropMailbox
  split <;> rfl

@[simp] theorem dropMailbox_thread (number : Nat) (call : DisposalCall) :
    (TerminalHost.dropMailbox number call).thread = call.thread := by
  unfold TerminalHost.dropMailbox
  split <;> rfl

@[simp] theorem dropMailbox_reply (number : Nat) (call : DisposalCall) :
    (TerminalHost.dropMailbox number call).reply = call.reply := by
  unfold TerminalHost.dropMailbox
  split <;> rfl

@[simp] theorem dropMailbox_result (number : Nat) (call : DisposalCall) :
    (TerminalHost.dropMailbox number call).result = call.result := by
  unfold TerminalHost.dropMailbox
  split <;> rfl

theorem dropMailbox_queued
    (h : (TerminalHost.dropMailbox number call).queued = true) : call.queued = true := by
  unfold TerminalHost.dropMailbox at h
  split at h
  · cases h
  · exact h

theorem DisposalCall.Removes.drop (h : call.Removes id number) (stopped : Nat) :
    (TerminalHost.dropMailbox stopped call).Removes id number :=
  ⟨by simpa using h.id, by simpa using h.thread, by simpa using h.reply, by simpa using h.result⟩

section

variable (h : HostSound vt env host)
include h

section

variable (hcall : host.calls[index]? = some call)
include hcall

/-- The owner stops, and the caller that is told so will take the entry out. -/
theorem HostSound.stop {call' : DisposalCall} {owner : TerminalOwner Screen}
    (hthr : host.threads[call.thread]? = some thread)
    (hentry : owner.entry = thread.owner.entry) (hwaits : call.reply = none)
    (hremoves : call'.Removes call.id call.thread) (hqueued : call'.queued = false) :
    HostSound vt env { host with
      threads := host.threads.set call.thread ⟨owner, false⟩
      calls := (host.calls.set index call').map (TerminalHost.dropMailbox call.thread) } := by
  have howned := h.addressed call (mem_of_getElem? hcall)
  constructor
  · intro other found hfound hrunn
    rw [getElem?_set] at hfound
    split at hfound
    · obtain ⟨-, hfound⟩ := ite_none_right_eq_some.mp hfound
      cases hfound
      cases hrunn
    · exact h.usable other found hfound hrunn
  · exact fun id other hother => threads_set hthr hentry (h.named id other hother)
  · intro dropped hdropped
    obtain ⟨other, hother, rfl⟩ := List.mem_map.mp hdropped
    rw [dropMailbox_thread, dropMailbox_id]
    apply threads_set hthr hentry
    rcases mem_or_eq_of_mem_set hother with hbef | rfl
    · exact h.addressed other hbef
    · rw [hremoves.id, hremoves.thread]
      exact howned
  · intro dropped hdropped hstill
    obtain ⟨other, hother, rfl⟩ := List.mem_map.mp hdropped
    rw [dropMailbox_reply, dropMailbox_result]
    rcases mem_or_eq_of_mem_set hother with hbef | rfl
    · exact h.waiting other hbef (dropMailbox_queued hstill)
    · rw [dropMailbox_queued hstill] at hqueued
      cases hqueued
  · intro id number found hfound hset hstopped
    rw [getElem?_set] at hset
    split at hset
    · rename_i hsame
      subst hsame
      -- the entry is known under the id the call was made with
      obtain ⟨named, hnamed, hid⟩ := h.named id call.thread hfound
      obtain ⟨addressed, haddressed, hid'⟩ := howned
      rw [hnamed] at haddressed
      cases haddressed
      rw [← hid, hid']
      have hmem : call' ∈ host.calls.set index call' := mem_iff_getElem?.mpr
        ⟨index, getElem?_set_self (List.getElem?_eq_some_iff.mp hcall).1⟩
      exact ⟨_, List.mem_map_of_mem hmem, hremoves.drop call.thread⟩
    · obtain ⟨other, hother, hbef⟩ := h.removed id number found hfound hset hstopped
      have hne : other ≠ call := by
        rintro rfl
        cases hwaits.symm.trans hbef.reply
      exact ⟨_, List.mem_map_of_mem (mem_set_other hcall hother hne call'), hbef.drop call.thread⟩

theorem HostSound.handled
    (hthr : host.threads[call.thread]? = some thread) (hqueued : call.queued = true)
    (hrunn : thread.running = true)
    (hspared : ¬ KillRefused (env call.thread) thread.owner call.caller) :
    HostSound vt env (host.handled vt env index call thread) := by
  have husable := h.usable call.thread thread hthr hrunn
  obtain ⟨hreply, hres⟩ := h.waiting call (mem_of_getElem? hcall) hqueued
  cases disposed_cases vt (env call.thread) thread.owner call.caller index with
  | refused error control hspared hepochs hturn =>
    have hserves := serves_control hepochs
    have hproceeds := h.proceed hthr hserves.entry (hserves.usable husable)
    simp only [TerminalHost.handled, hturn, if_true]
    apply hproceeds.settle hcall
    · rfl
    · rfl
    · exact nofun
    · intro id number _ hremoves
      cases hreply.symm.trans hremoves.reply
  | gone message hspared hmsg hstops hsent =>
    simp only [TerminalHost.handled, hstops, Bool.false_eq_true, if_false]
    apply h.stop hcall hthr (handle_entry _ _) hreply
    · refine ⟨rfl, rfl, ?_, hres⟩
      rw [answer_sent hsent, map_some, hmsg]
    · rfl
  | left message error hrefused hmsg hdisp hsent => exact (hspared hrefused).elim

theorem HostSound.received {reply : Except TerminalError Unit}
    (hreply : call.reply = some reply) : HostSound vt env (host.received index call reply) := by
  have hmem := mem_of_getElem? hcall
  have hanswered : ∀ call' : DisposalCall, call'.queued = call.queued →
      call'.queued = true → call'.reply = none ∧ call'.result = none := by
    intro call' hsame hqueued
    rw [hsame] at hqueued
    have hnone := (h.waiting call hmem hqueued).1
    rw [hreply] at hnone
    cases hnone
  cases reply with
  | error error =>
    apply h.settle hcall
    · rfl
    · rfl
    · exact hanswered _ rfl
    · intro id number _ hremoves
      cases hreply.symm.trans hremoves.reply
  | ok =>
    have hfewer : ∀ id number, (host.entries.shiftRemove call.id).get? id = some number →
        host.entries.get? id = some number ∧ id ≠ call.id := by
      intro id number hentry
      obtain ⟨hother, hentry⟩ := get?_shiftRemove_eq_some.mp hentry
      exact ⟨hentry, hother⟩
    -- the entry that goes is the only one the call was to remove
    have hshrunk : HostSound vt env
        { host with entries := host.entries.shiftRemove call.id } := by
      constructor
      · exact h.usable
      · exact fun id number hentry => h.named id number (hfewer id number hentry).1
      · exact h.addressed
      · exact h.waiting
      · exact fun id number thread hentry => h.removed id number thread (hfewer id number hentry).1
    apply hshrunk.settle hcall
    · rfl
    · rfl
    · exact hanswered _ rfl
    · intro id number hentry hremoves
      exact ((hfewer id number hentry).2 hremoves.id.symm).elim

end

theorem disposal_step {action : HostAction Screen} (hallow : Unhindered env host action)
    (hstep : (disposalSystem vt env).step host action = some host') : HostSound vt env host' := by
  cases action with
  | create launch spawned =>
    cases hallow
    cases hstep
    exact h.create launch
  | dispose id caller full =>
    cases hstep
    exact h.request id caller full
  | advance number step =>
    obtain ⟨thread, hthr, hstep⟩ := bind_eq_some_iff.mp hstep
    obtain ⟨hruns, hstep⟩ := ite_none_right_eq_some.mp hstep
    rw [Bool.and_eq_true, Bool.not_eq_true'] at hruns
    obtain ⟨hcontinues, hserves⟩ := @turn_serves _ vt (env number) thread.owner step hruns.2
    cases hstep
    rw [hcontinues]
    exact h.proceed hthr hserves.entry (hserves.usable (h.usable number thread hthr hruns.1))
  | handle index =>
    obtain ⟨call, hcall, hstep⟩ := bind_eq_some_iff.mp hstep
    obtain ⟨thread, hthr, hstep⟩ := bind_eq_some_iff.mp hstep
    obtain ⟨hwaits, hstep⟩ := ite_none_right_eq_some.mp hstep
    rw [Bool.and_eq_true] at hwaits
    cases hstep
    exact h.handled hcall hthr hwaits.1 hwaits.2 (hallow call thread hcall hthr)
  | receive index =>
    obtain ⟨call, hcall, hstep⟩ := bind_eq_some_iff.mp hstep
    obtain ⟨reply, hreply, hstep⟩ := bind_eq_some_iff.mp hstep
    obtain ⟨-, hstep⟩ := ite_none_right_eq_some.mp hstep
    cases hstep
    exact h.received hcall hreply
  | giveUp index =>
    obtain ⟨call, hcall, hstep⟩ := bind_eq_some_iff.mp hstep
    obtain ⟨hsilent, hstep⟩ := ite_none_right_eq_some.mp hstep
    rw [Bool.and_eq_true, isNone_iff_eq_none, isNone_iff_eq_none] at hsilent
    cases hstep
    have hdropped := hallow call hcall
    apply h.settle hcall
    · rfl
    · rfl
    · intro hqueued
      cases hdropped.symm.trans hqueued
    · intro id number _ hremoves
      cases hsilent.1.symm.trans hremoves.reply

end

theorem disposal_reachable (hrun : (disposalSystem vt env).Run (Unhindered env) host) :
    HostSound vt env host := by
  apply hrun.invariant
  · rintro start rfl
    constructor
    · intro number thread hthr
      cases hthr
    · intro id number hentry
      cases hentry
    · intro call hcall
      cases hcall
    · intro call hcall
      cases hcall
    · intro id number thread hentry
      cases hentry
  · exact fun _ _ _ h hallow hstep => disposal_step h hallow hstep

/-! ## Failed disposals -/

/-- The owner of an entry runs and its terminal is usable, or the owner stopped
and the entry is gone or about to go. -/
def Settled (vt : Vt100 Screen) (env : Nat → Surroundings) (host : TerminalHost Screen)
    (id : String) (number : Nat) : Prop :=
  ∃ thread, host.threads[number]? = some thread ∧
    (thread.running = true ∧ Usable vt (env number) thread.owner ∨
      thread.running = false ∧ (host.entries.get? id ≠ some number ∨
        ∃ call ∈ host.calls, call.Removes id number))

/-- An entry has an owner that runs, and so has a terminal whose disposal
failed, unless a disposal that succeeded takes the entry out. -/
structure DisposalsSafe (vt : Vt100 Screen) (env : Nat → Surroundings)
    (host : TerminalHost Screen) : Prop where
  owned : ∀ id number, host.entries.get? id = some number → Settled vt env host id number
  failed : ∀ call ∈ host.calls, ∀ error, call.reply = some (.error error) →
    Settled vt env host call.id call.thread

theorem HostSound.settled (h : HostSound vt env host) (hthr : host.threads[number]? = some thread) :
    Settled vt env host id number := by
  refine ⟨thread, hthr, ?_⟩
  cases hrunn : thread.running with
  | true => exact .inl ⟨rfl, h.usable number thread hthr hrunn⟩
  | false =>
    by_cases hentry : host.entries.get? id = some number
    · exact .inr ⟨rfl, .inr (h.removed id number thread hentry hthr hrunn)⟩
    · exact .inr ⟨rfl, .inl hentry⟩

theorem HostSound.safe (h : HostSound vt env host) : DisposalsSafe vt env host where
  owned id number hentry := by
    obtain ⟨thread, hthr, -⟩ := h.named id number hentry
    exact h.settled hthr
  failed call hcall error hreply := by
    obtain ⟨thread, hthr, -⟩ := h.addressed call hcall
    exact h.settled hthr

/-- As long as owners can be spawned, processes can be killed and replies come
in time, a disposal that fails leaves a terminal that can be used, and once all
disposals have returned every entry has an owner that runs. The next disposal
fails safely exactly if it does not get to a process that cannot be killed. -/
theorem disposal_leaves_usable (hrun : (disposalSystem vt env).Run (Unhindered env) host) :
    DisposalsSafe vt env host ∧
      ((∀ call ∈ host.calls, call.result ≠ none) → ∀ id number,
        host.entries.get? id = some number → ∃ thread, host.threads[number]? = some thread ∧
          thread.running = true ∧ Usable vt (env number) thread.owner) ∧
      ∀ (index : Nat) (call : DisposalCall) (thread : OwnerThread Screen),
        host.calls[index]? = some call → host.threads[call.thread]? = some thread →
        thread.running = true →
        (FailsSafely vt (env call.thread) thread.owner call.caller index ↔
          ¬ KillRefused (env call.thread) thread.owner call.caller) := by
  have hsound := disposal_reachable hrun
  refine ⟨hsound.safe, fun hreturned id number hentry => ?_, ?_⟩
  · obtain ⟨thread, hthr, ⟨hrunn, husable⟩ | ⟨-, hgone | ⟨call, hcall, hremoves⟩⟩⟩ :=
      hsound.safe.owned id number hentry
    · exact ⟨thread, hthr, hrunn, husable⟩
    · exact (hgone hentry).elim
    · exact (hreturned call hcall hremoves.result).elim
  · intro index call thread _ hthr hrunn
    exact failsSafely_iff (hsound.usable call.thread thread hthr hrunn) call.caller index

end Sound

/-! ## A process that cannot be killed -/

def stubbornSurroundings : Surroundings :=
  { quietSurroundings with killFails := fun _ => some "Operation not permitted (os error 1)" }

def sampleLaunch : Launch Unit where
  millis := 0
  title := none
  terminalEpoch := "e"
  drawn := by decide
  spawnCommand := none
  spawnCwd := "/"
  osPid := none
  processIdentity := none
  cols := 80
  rows := 24
  theme := defaultTheme
  recorder := none
  clock reading := reading
  makeId count := String.ofList (List.replicate count 'x')
  iso _ := ""

def sampleDisposal (caller : Option Caller) : List (HostAction Unit) :=
  [.create sampleLaunch true, .dispose "term-0-1" caller false, .handle 0, .receive 0]

def idleHost : TerminalHost Unit := ⟨0, .empty, [], []⟩

/-- The disposal returns the error of the kill, the owner has stopped, and the
entry stays. -/
theorem disposal_strands : ¬ ∀ host,
    (disposalSystem blankVt100 fun _ => stubbornSurroundings).Reachable host →
    DisposalsSafe blankVt100 (fun _ => stubbornSurroundings) host := by
  intro hsafe
  have hrpl : ((disposalSystem blankVt100 fun _ => stubbornSurroundings).replay
      (fun _ _ => true) idleHost (sampleDisposal none)).any
      (fun host => host.entries.get? "term-0-1" == some 0 &&
        host.threads.map OwnerThread.running == [false] &&
        decide (host.calls.map DisposalCall.result =
          [some (.error (.runtime "Operation not permitted (os error 1)"))])) = true := by
    decide
  obtain ⟨host, hhost, hend⟩ := (any_eq_true _ _).mp hrpl
  simp only [Bool.and_eq_true, beq_iff_eq, decide_eq_true_eq] at hend
  obtain ⟨⟨hentry, hthreads⟩, hcalls⟩ := hend
  have hreachable : (disposalSystem blankVt100 fun _ => stubbornSurroundings).Reachable host :=
    System.replay_run (System.Run.start rfl) (fun _ _ _ _ => trivial) hhost
  obtain ⟨thread, hthr, hsettl⟩ := (hsafe host hreachable).owned "term-0-1" 0 hentry
  have hstopped : thread.running = false := by
    have hmap := congrArg (·[0]?) hthreads
    simpa [hthr] using hmap
  rcases hsettl with ⟨hrunn, -⟩ | ⟨-, hgone | ⟨call, hcall, hremoves⟩⟩
  · cases hstopped.symm.trans hrunn
  · exact hgone hentry
  have hmem : call.result ∈ host.calls.map DisposalCall.result := List.mem_map_of_mem hcall
  rw [hcalls, hremoves.result] at hmem
  cases mem_singleton.mp hmem

/-- A terminal that is disposed of in quiet surroundings. -/
theorem disposal_leaves_usable_sample :
    ∃ host, (disposalSystem blankVt100 fun _ => quietSurroundings).Run
        (Unhindered fun _ => quietSurroundings) host ∧
      host.calls.map DisposalCall.result = [some (.ok ())] ∧
      DisposalsSafe blankVt100 (fun _ => quietSurroundings) host := by
  have hrpl : ((disposalSystem blankVt100 fun _ => quietSurroundings).replay
      (fun _ _ => true) idleHost (sampleDisposal none)).any
      (fun host => decide (host.calls.map DisposalCall.result = [some (.ok ())])) = true := by
    decide
  obtain ⟨host, hhost, hend⟩ := (any_eq_true _ _).mp hrpl
  have hrun : (disposalSystem blankVt100 fun _ => quietSurroundings).Run
      (Unhindered fun _ => quietSurroundings) host := by
    refine System.replay_run (System.Run.start rfl) ?_ hhost
    intro s action hmem _
    simp only [sampleDisposal, mem_cons, not_mem_nil, or_false] at hmem
    rcases hmem with rfl | rfl | rfl | rfl
    · rfl
    · trivial
    · rintro call thread - - ⟨-, error, herror⟩
      cases herror
    · trivial
  exact ⟨host, hrun, of_decide_eq_true hend, (disposal_leaves_usable hrun).1⟩

end Yaade.Terminal

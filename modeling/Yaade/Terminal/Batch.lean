import Yaade.Terminal.Owner

/-!
Commands are handled in batches.
-/

namespace Yaade.Terminal

open Yaade.Library List Option

def ownerCommandBatchMessages : Nat := 64
def ownerWriteBatchBytes : Nat := 256 * 1024

/-! ## Groups of commands -/

/-- A command that can be grouped: what it carries, who has to be authorised
for it, and its reply channel. -/
structure Grouped (α : Type) where
  caller : Option Caller
  payload : α
  reply : Nat

def TerminalCommand.asWrite : TerminalCommand → Option (Grouped (List UInt8))
  | .write data reply => some ⟨none, data, reply⟩
  | .authorizeAndWrite principalId connectionId fence data reply =>
    some ⟨some ⟨principalId, connectionId, fence⟩, data, reply⟩
  | _ => none

def TerminalCommand.asResize : TerminalCommand → Option (Grouped (Nat × Nat))
  | .resize cols rows reply => some ⟨none, (cols, rows), reply⟩
  | .authorizeAndResize principalId connectionId fence cols rows reply =>
    some ⟨some ⟨principalId, connectionId, fence⟩, (cols, rows), reply⟩
  | _ => none

/-- The writes that join a group of so many messages and bytes, and the
commands after them. -/
def takeWrites (messages batchBytes : Nat) :
    List TerminalCommand → List (Grouped (List UInt8)) × List TerminalCommand
  | [] => ([], [])
  | command :: rest =>
    match command.asWrite with
    | none => ([], command :: rest)
    | some write =>
      let nextBytes := write.payload.length
      if messages < ownerCommandBatchMessages &&
          !(batchBytes > 0 && batchBytes + nextBytes > ownerWriteBatchBytes) then
        let (group, after) := takeWrites (messages + 1) (batchBytes + nextBytes) rest
        (write :: group, after)
      else ([], command :: rest)

def takeResizes (messages : Nat) :
    List TerminalCommand → List (Grouped (Nat × Nat)) × List TerminalCommand
  | [] => ([], [])
  | command :: rest =>
    match command.asResize with
    | none => ([], command :: rest)
    | some resize =>
      if messages < ownerCommandBatchMessages then
        let (group, after) := takeResizes (messages + 1) rest
        (resize :: group, after)
      else ([], command :: rest)

/-- A reply that waits for the PTY. -/
inductive BatchedReply where
  | direct (reply : Nat)
  | authorized (reply : Nat) (lease : RuntimeTerminalLease)

def BatchedReply.settle (failure : Option String) : BatchedReply → Nat × TerminalReply
  | direct reply => (reply, .done (ptyResult failure))
  | authorized reply lease => (reply, .lease ((ptyResult failure).map fun _ => lease))

/-- A group after its authorisation: what is granted, and the replies to what is not. -/
structure Admitted (α : Type) where
  control : TerminalControlRegistry
  granted : List (α × BatchedReply)
  refused : List (Nat × TerminalReply)

def Admitted.grant {α : Type} (payload : α) (reply : BatchedReply) (after : Admitted α) :
    Admitted α :=
  { after with granted := (payload, reply) :: after.granted }

def Admitted.refuse {α : Type} (reply : Nat) (error : TerminalError) (after : Admitted α) :
    Admitted α :=
  { after with refused := (reply, .lease (.error error)) :: after.refused }

def authorizeGroup {α : Type} (entry : TerminalEntry) :
    List (Grouped α) → TerminalControlRegistry → Admitted α
  | [], control => ⟨control, [], []⟩
  | request :: rest, control =>
    match request.caller with
    | none => (authorizeGroup entry rest control).grant request.payload (.direct request.reply)
    | some caller =>
      match authorizeTerminal control entry caller.principalId caller.connectionId
          caller.fence with
      | (.ok lease, control) =>
        (authorizeGroup entry rest control).grant request.payload (.authorized request.reply lease)
      | (.error error, control) => (authorizeGroup entry rest control).refuse request.reply error

def Admitted.payloads {α : Type} (admitted : Admitted α) : List α := admitted.granted.map Prod.fst

def Admitted.settled {α : Type} (admitted : Admitted α) (failure : Option String) :
    List (Nat × TerminalReply) :=
  admitted.refused ++ admitted.granted.map fun granted => granted.2.settle failure

/-! ## The batch -/

variable {Screen : Type}

section

variable (vt : Vt100 Screen) (env : Surroundings)

def writeGroup (owner : TerminalOwner Screen) (requests : List (Grouped (List UInt8))) :
    Turn Screen :=
  let admitted := authorizeGroup owner.entry requests owner.control
  let scratch := admitted.payloads.flatten
  let (failure, pty) := if scratch.isEmpty then (none, owner.pty) else owner.pty.write env scratch
  ⟨true, { owner with control := admitted.control, pty := pty }, admitted.settled failure⟩

def resizeFailure : Except TerminalError Unit → Option String
  | .error (.runtime message) => some ("terminal runtime failure: " ++ message)
  | _ => none

def resizeGroup (owner : TerminalOwner Screen) (requests : List (Grouped (Nat × Nat))) :
    Turn Screen :=
  let admitted := authorizeGroup owner.entry requests owner.control
  let owner := { owner with control := admitted.control }
  match admitted.payloads.getLast? with
  | none => ⟨true, owner, admitted.settled none⟩
  | some (cols, rows) =>
    let (result, owner) := resizeTerminal vt env owner cols rows
    ⟨true, owner, admitted.settled (resizeFailure result)⟩

theorem takeWrites_length (messages batchBytes : Nat) (commands : List TerminalCommand) :
    (takeWrites messages batchBytes commands).2.length ≤ commands.length := by
  induction commands generalizing messages batchBytes with
  | nil => exact le_rfl
  | cons command rest ih =>
    unfold takeWrites
    split
    · exact le_rfl
    simp only
    split
    · exact Nat.le_succ_of_le (ih _ _)
    · exact le_rfl

theorem takeResizes_length (messages : Nat) (commands : List TerminalCommand) :
    (takeResizes messages commands).2.length ≤ commands.length := by
  induction commands generalizing messages with
  | nil => exact le_rfl
  | cons command rest ih =>
    unfold takeResizes
    split
    · exact le_rfl
    split
    · exact Nat.le_succ_of_le (ih _)
    · exact le_rfl

def handleTerminalCommandBatch (owner : TerminalOwner Screen) (commands : List TerminalCommand) :
    Turn Screen :=
  match commands with
  | [] => ⟨true, owner, []⟩
  | command :: rest =>
    match command.asWrite with
    | some write =>
      let turn := writeGroup env owner
        (write :: (takeWrites 1 write.payload.length rest).1)
      turn.andThen (handleTerminalCommandBatch turn.owner
        (takeWrites 1 write.payload.length rest).2)
    | none =>
      match command.asResize with
      | some resize =>
        let turn := resizeGroup vt env owner (resize :: (takeResizes 1 rest).1)
        turn.andThen (handleTerminalCommandBatch turn.owner (takeResizes 1 rest).2)
      | none =>
        let turn := handleTerminalCommand vt env owner command
        if turn.continues then
          turn.andThen (handleTerminalCommandBatch turn.owner rest)
        else turn
  termination_by commands.length
  decreasing_by
    · exact Nat.lt_succ_of_le (takeWrites_length 1 write.payload.length rest)
    · exact Nat.lt_succ_of_le (takeResizes_length 1 rest)
    · exact Nat.lt_succ_self _

def handleTerminalCommandBatches (owner : TerminalOwner Screen) :
    List (List TerminalCommand) → Turn Screen
  | [] => ⟨true, owner, []⟩
  | batch :: rest =>
    let turn := handleTerminalCommandBatch vt env owner batch
    if turn.continues then turn.andThen (handleTerminalCommandBatches turn.owner rest) else turn

end

/-! ## What does not depend on the picture -/

def TerminalCheckpoint.forget (checkpoint : TerminalCheckpoint) : TerminalCheckpoint :=
  { checkpoint with createdAt := "", syntheticBytes := [] }

def TerminalAttach.forget (attach : TerminalAttach) : TerminalAttach :=
  { attach with checkpoint := attach.checkpoint.map TerminalCheckpoint.forget }

def TerminalReply.forget : TerminalReply → TerminalReply
  | .attach result => .attach (result.map TerminalAttach.forget)
  | reply => reply

def forgetReply (sent : Nat × TerminalReply) : Nat × TerminalReply := (sent.1, sent.2.forget)

variable {vt : Vt100 Screen} {env : Surroundings}

section Forget

def EntryState.forget (state : EntryState Screen) : EntryState Unit :=
  { state with
    recorder := state.recorder.map fun _ => ()
    checkpoint := state.checkpoint.map TerminalCheckpoint.forget }

def TerminalOwner.forget (owner : TerminalOwner Screen) : TerminalOwner Unit where
  entry := owner.entry
  state := owner.state.forget
  control := owner.control
  pty := ⟨owner.pty.written, 0⟩
  asked := owner.asked
  closedHistory := owner.closedHistory

/-- Two turns that differ only in pictures and in the order of the replies. -/
structure Turn.Alike (turn turn' : Turn Screen) : Prop where
  continues : turn.continues = turn'.continues
  owner : turn.owner.forget = turn'.owner.forget
  sent : (turn.sent.map forgetReply).Perm (turn'.sent.map forgetReply)

variable {turn turn' turn'' : Turn Screen}

theorem Turn.Alike.refl (turn : Turn Screen) : turn.Alike turn := ⟨rfl, rfl, .refl _⟩

theorem Turn.Alike.trans (h : turn.Alike turn') (h' : turn'.Alike turn'') : turn.Alike turn'' :=
  ⟨h.continues.trans h'.continues, h.owner.trans h'.owner, h.sent.trans h'.sent⟩

theorem Turn.Alike.andThen {after after' : Turn Screen}
    (hsent : (turn.sent.map forgetReply).Perm (turn'.sent.map forgetReply))
    (hafter : after.Alike after') : (turn.andThen after).Alike (turn'.andThen after') := by
  constructor
  · exact hafter.continues
  · exact hafter.owner
  · simp only [Turn.andThen, map_append]
    exact hsent.append hafter.sent

/-- A PTY that takes every write and every size. -/
structure Surroundings.PtySucceeds (env : Surroundings) : Prop where
  writes : ∀ count, env.writeFails count = none
  resizes : ∀ count, env.resizeFails count = none

def Turn.forget (turn : Turn Screen) : Turn Unit :=
  ⟨turn.continues, turn.owner.forget, turn.sent.map forgetReply⟩

theorem forget_attachCheckpoint (state : EntryState Screen) (afterSequence : UInt64) :
    attachCheckpoint state.forget afterSequence =
      (attachCheckpoint state afterSequence).map TerminalCheckpoint.forget := by
  unfold attachCheckpoint EntryState.forget
  cases state.checkpoint with
  | none => rfl
  | some checkpoint =>
    have hsame : checkpoint.forget.sequence = checkpoint.sequence := rfl
    simp only [map_some, filter_some, hsame]
    split <;> rfl

theorem forget_attachRawAfter (checkpoint : Option TerminalCheckpoint) (afterSequence : UInt64) :
    attachRawAfter (checkpoint.map TerminalCheckpoint.forget) afterSequence =
      attachRawAfter checkpoint afterSequence := by
  cases checkpoint <;> rfl

theorem forget_attachReply (entry : TerminalEntry) (state : EntryState Screen)
    (archiveAvailable : Bool) (clientId : String) (afterSequence : UInt64) :
    (attachReply entry state archiveAvailable clientId afterSequence).forget =
      attachReply entry state.forget archiveAvailable clientId afterSequence := by
  unfold attachReply TerminalAttach.forget
  simp only [forget_attachCheckpoint, forget_attachRawAfter, isSome_map, isNone_map]
  rfl

theorem forget_writeTerminal (hpty : env.PtySucceeds) (owner : TerminalOwner Screen)
    (data : List UInt8) : (writeTerminal env owner data).1 = .ok () ∧
      (writeTerminal env owner data).2.forget =
        { owner.forget with pty := ⟨owner.pty.written ++ data, 0⟩ } := by
  simp [writeTerminal, Pty.write, hpty.writes, ptyResult, TerminalOwner.forget]

def EntryState.resized (terminalEpoch : String) (cols rows : Nat) (state : EntryState Unit) :
    EntryState Unit :=
  { state with
    cols := clampSize cols
    rows := clampSize rows
    checkpoint := if state.recorder.isSome then
        some ⟨1, terminalEpoch, state.sequence, clampSize cols, clampSize rows, "", []⟩
      else state.checkpoint
    bytesSinceCheckpoint := if state.recorder.isSome then 0 else state.bytesSinceCheckpoint }

theorem forget_resizeTerminal (hpty : env.PtySucceeds) (owner : TerminalOwner Screen)
    (cols rows : Nat) : (resizeTerminal vt env owner cols rows).1 = .ok () ∧
      (resizeTerminal vt env owner cols rows).2.forget =
        { owner.forget with
          state := owner.state.forget.resized owner.entry.terminalEpoch cols rows } := by
  unfold resizeTerminal
  simp only [hpty.resizes, true_and]
  unfold TerminalOwner.forget EntryState.resized EntryState.forget storeCheckpoint
  cases owner.state.recorder with
  | none => rfl
  | some screen => rfl

section Alike

variable {owner owner' : TerminalOwner Screen}

theorem forget_eq_iff : owner.forget = owner'.forget ↔
      owner.entry = owner'.entry ∧ owner.state.forget = owner'.state.forget ∧
        owner.control = owner'.control ∧ owner.pty.written = owner'.pty.written ∧
        owner.asked = owner'.asked ∧ owner.closedHistory = owner'.closedHistory := by
  simp [TerminalOwner.forget]

section

variable (h : owner.forget = owner'.forget)
include h

theorem forget_replies (reply : Nat) (message : TerminalReply) :
    (owner.replies reply message).forget = (owner'.replies reply message).forget := by
  simp only [Turn.forget, TerminalOwner.replies, h]

theorem forget_control (control : TerminalControlRegistry) :
    ({ owner with control := control } : TerminalOwner Screen).forget =
      ({ owner' with control := control } : TerminalOwner Screen).forget := by
  obtain ⟨hentry, hstate, -, hwrt, hasked, hclosed⟩ := forget_eq_iff.mp h
  exact forget_eq_iff.mpr ⟨hentry, hstate, rfl, hwrt, hasked, hclosed⟩

theorem forget_leaseReply (reply : Nat)
    (outcome : Except TerminalError RuntimeTerminalLease × TerminalControlRegistry) :
    (owner.leaseReply reply outcome).forget = (owner'.leaseReply reply outcome).forget :=
  forget_replies (forget_control h outcome.2) reply _

theorem forget_state {state state' : EntryState Screen} (hstate : state.forget = state'.forget) :
    ({ owner with state := state } : TerminalOwner Screen).forget =
      ({ owner' with state := state' } : TerminalOwner Screen).forget := by
  obtain ⟨hentry, -, hctl, hwrt, hasked, hclosed⟩ := forget_eq_iff.mp h
  exact forget_eq_iff.mpr ⟨hentry, hstate, hctl, hwrt, hasked, hclosed⟩

end

theorem forget_write (hpty : env.PtySucceeds) (h : owner.forget = owner'.forget)
    (data : List UInt8) :
    (writeTerminal env owner data).2.forget = (writeTerminal env owner' data).2.forget := by
  have hwrt := (forget_eq_iff.mp h).2.2.2.1
  rw [(forget_writeTerminal hpty owner data).2, (forget_writeTerminal hpty owner' data).2, h, hwrt]

theorem forget_resize (hpty : env.PtySucceeds) (h : owner.forget = owner'.forget)
    (cols rows : Nat) : (resizeTerminal vt env owner cols rows).2.forget =
      (resizeTerminal vt env owner' cols rows).2.forget := by
  obtain ⟨hentry, hstate, -⟩ := forget_eq_iff.mp h
  rw [(forget_resizeTerminal hpty owner cols rows).2,
    (forget_resizeTerminal hpty owner' cols rows).2, h, hstate, hentry]

section

variable (h : owner.forget = owner'.forget)
include h

theorem forget_unregister : owner.unregister.forget = owner'.unregister.forget := by
  obtain ⟨hentry, hstate, hctl, hwrt, hasked, hclosed⟩ := forget_eq_iff.mp h
  have hdisp : ({ owner.state with disposed := true } : EntryState Screen).forget =
      ({ owner'.state with disposed := true } : EntryState Screen).forget :=
    congrArg (fun state : EntryState Unit => { state with disposed := true }) hstate
  refine forget_eq_iff.mpr ⟨hentry, hdisp, ?_, hwrt, hasked, hclosed⟩
  simp only [TerminalOwner.unregister, hentry, hctl]

theorem forget_closeHistory :
    (owner.closeHistory env).forget = (owner'.closeHistory env).forget := by
  obtain ⟨hentry, hstate, hctl, hwrt, hasked, hclosed⟩ := forget_eq_iff.mp h
  apply forget_eq_iff.mpr
  simp only [TerminalOwner.closeHistory, hentry, hasked, hclosed, hstate, hctl, hwrt, and_self]

theorem forget_asked {asked asked' : Nat} (hasked : asked = asked') :
    ({ owner with asked := asked } : TerminalOwner Screen).forget =
      ({ owner' with asked := asked' } : TerminalOwner Screen).forget := by
  obtain ⟨hentry, hstate, hctl, hwrt, -, hclosed⟩ := forget_eq_iff.mp h
  exact forget_eq_iff.mpr ⟨hentry, hstate, hctl, hwrt, hasked, hclosed⟩

end

theorem forget_setTheme (hpty : env.PtySucceeds) (h : owner.forget = owner'.forget)
    (theme : TerminalTheme) (reply : Nat) :
    (handleTerminalCommand vt env owner (.setTheme theme reply)).forget =
      (handleTerminalCommand vt env owner' (.setTheme theme reply)).forget := by
  obtain ⟨hentry, hstate, hctl, hwrt, hasked, hclosed⟩ := forget_eq_iff.mp h
  have htheme : owner.state.terminalTheme = owner'.state.terminalTheme :=
    (congrArg EntryState.terminalTheme hstate :)
  have hupds : owner.state.themeUpdatesEnabled = owner'.state.themeUpdatesEnabled :=
    (congrArg EntryState.themeUpdatesEnabled hstate :)
  have hset : ({ owner.state with terminalTheme := theme } : EntryState Screen).forget =
      ({ owner'.state with terminalTheme := theme } : EntryState Screen).forget :=
    congrArg (fun state : EntryState Unit => { state with terminalTheme := theme }) hstate
  apply forget_replies
  apply forget_eq_iff.mpr
  refine ⟨hentry, hset, hctl, ?_, hasked, hclosed⟩
  simp only [htheme, hupds, Pty.write, hpty.writes, apply_ite Pty.written, hwrt]

end Alike

/-- Owners alike take a command alike. -/
theorem handle_forget (hpty : env.PtySucceeds) {owner owner' : TerminalOwner Screen}
    (h : owner.forget = owner'.forget) (command : TerminalCommand) :
    (handleTerminalCommand vt env owner command).forget =
      (handleTerminalCommand vt env owner' command).forget := by
  obtain ⟨hentry, hstate, hctl, -, hasked, -⟩ := forget_eq_iff.mp h
  have hauth : authorizeTerminal owner.control owner.entry =
      authorizeTerminal owner'.control owner'.entry := by
    rw [hctl, hentry]
  have hclients : owner.state.replayReadyClients = owner'.state.replayReadyClients :=
    (congrArg EntryState.replayReadyClients hstate :)
  cases command with
  | setTheme theme reply => exact forget_setTheme hpty h theme reply
  | inspect reply =>
    have hstatus : owner.state.status = owner'.state.status := (congrArg EntryState.status hstate :)
    have hexit : owner.state.exitCode = owner'.state.exitCode :=
      (congrArg EntryState.exitCode hstate :)
    have hsignal : owner.state.signal = owner'.state.signal := (congrArg EntryState.signal hstate :)
    simp only [handleTerminalCommand, hentry, hstatus, hexit, hsignal]
    exact forget_replies h reply _
  | write data reply =>
    simp only [handleTerminalCommand, (forget_writeTerminal hpty owner data).1,
      (forget_writeTerminal hpty owner' data).1]
    exact forget_replies (forget_write hpty h data) reply _
  | resize cols rows reply =>
    simp only [handleTerminalCommand, (forget_resizeTerminal hpty owner cols rows).1,
      (forget_resizeTerminal hpty owner' cols rows).1]
    exact forget_replies (forget_resize hpty h cols rows) reply _
  | authorizeAndWrite principalId connectionId fence data reply =>
    simp only [handleTerminalCommand, hauth]
    split
    · exact forget_leaseReply h reply _
    rename_i lease control _
    have hgrant := forget_control h control
    simp only [(forget_writeTerminal hpty _ data).1]
    exact forget_replies (forget_write hpty hgrant data) reply _
  | authorizeAndResize principalId connectionId fence cols rows reply =>
    simp only [handleTerminalCommand, hauth]
    split
    · exact forget_leaseReply h reply _
    rename_i lease control _
    have hgrant := forget_control h control
    simp only [(forget_resizeTerminal hpty _ cols rows).1]
    exact forget_replies (forget_resize hpty hgrant cols rows) reply _
  | attach clientId afterSequence reply =>
    have hreply : ∀ archiveAvailable,
        (attachReply owner.entry owner.state archiveAvailable clientId afterSequence).forget =
          (attachReply owner'.entry owner'.state archiveAvailable clientId
            afterSequence).forget := by
      intro archiveAvailable
      rw [forget_attachReply, forget_attachReply, hstate, hentry]
    have havailable : (env.hostAlive owner.asked && env.historyAvailable owner.asked) =
        (env.hostAlive owner'.asked && env.historyAvailable owner'.asked) := by
      rw [hasked]
    have hnext : owner.asked + 1 = owner'.asked + 1 := by rw [hasked]
    simp only [handleTerminalCommand, Turn.forget, TerminalOwner.replies, forget_asked h hnext,
      forgetReply, TerminalReply.forget, Except.map, map_cons, List.map_nil, hreply,
      havailable]
  | markReplayReady clientId reply =>
    simp only [handleTerminalCommand, hclients]
    exact forget_replies (forget_state h (congrArg (fun state : EntryState Unit =>
      { state with replayReadyClients := owner'.state.replayReadyClients.insert clientId })
      hstate)) reply _
  | detach clientId reply =>
    simp only [handleTerminalCommand, hclients]
    exact forget_replies (forget_state h (congrArg (fun state : EntryState Unit =>
      { state with
        replayReadyClients := owner'.state.replayReadyClients.filter (· != clientId) })
      hstate)) reply _
  | getLiveCwd reply =>
    have hcwd : owner.state.liveCwd = owner'.state.liveCwd := (congrArg EntryState.liveCwd hstate :)
    simp only [handleTerminalCommand, hcwd]
    exact forget_replies h reply _
  | authorizeAndDispose principalId connectionId fence reply =>
    simp only [handleTerminalCommand, hauth]
    split
    · exact forget_leaseReply h reply _
    rename_i lease control _
    have hgone := forget_unregister (forget_control h control)
    have hasked' : ({ owner with control := control } : TerminalOwner Screen).unregister.asked =
        ({ owner' with control := control } : TerminalOwner Screen).unregister.asked := hasked
    rw [hasked']
    split
    · exact forget_replies (forget_asked hgone rfl) reply _
    · simp only [Turn.forget, forget_closeHistory hgone]
  | dispose reply =>
    have hgone := forget_unregister h
    have hasked' : owner.unregister.asked = owner'.unregister.asked := hasked
    simp only [handleTerminalCommand, Turn.forget, forget_closeHistory hgone, hasked']
  | releaseLease leaseId principalId connectionId reply =>
    have hrelease : owner.control.release owner.entry.id owner.entry.terminalEpoch leaseId
        principalId connectionId = owner'.control.release owner'.entry.id
          owner'.entry.terminalEpoch leaseId principalId connectionId := by
      rw [hctl, hentry]
    simp only [handleTerminalCommand, hrelease]
    exact forget_replies (forget_control h _) reply _
  | listLeases reply =>
    have hlist : owner.control.list owner.entry.id = owner'.control.list owner'.entry.id := by
      rw [hctl, hentry]
    simp only [handleTerminalCommand, hlist]
    exact forget_replies (forget_control h _) reply _
  | releaseConnection connectionId =>
    simp only [handleTerminalCommand, Turn.forget, hctl, forget_control h]
  | _ =>
    simp only [handleTerminalCommand, hentry, hctl]
    exact forget_leaseReply h _ _

theorem Turn.alike_of_forget {turn turn' : Turn Screen} (h : turn.forget = turn'.forget) :
    turn.Alike turn' := by
  unfold Turn.forget at h
  injection h with hcontinues howner hsent
  exact ⟨hcontinues, howner, hsent ▸ .refl _⟩

theorem handleAll_forget (hpty : env.PtySucceeds) (commands : List TerminalCommand)
    {owner owner' : TerminalOwner Screen} (h : owner.forget = owner'.forget) :
    (handleTerminalCommands vt env owner commands).Alike
      (handleTerminalCommands vt env owner' commands) := by
  induction commands generalizing owner owner' with
  | nil => exact ⟨rfl, h, .refl _⟩
  | cons command rest ih =>
    have hturn := Turn.alike_of_forget (@handle_forget _ vt _ hpty _ _ h command)
    unfold handleTerminalCommands
    simp only [hturn.continues]
    split
    · exact .andThen hturn.sent (ih hturn.owner)
    · exact hturn

theorem handleAll_append (owner : TerminalOwner Screen) (first second : List TerminalCommand) :
    handleTerminalCommands vt env owner (first ++ second) =
      if (handleTerminalCommands vt env owner first).continues then
        (handleTerminalCommands vt env owner first).andThen
          (handleTerminalCommands vt env (handleTerminalCommands vt env owner first).owner second)
      else handleTerminalCommands vt env owner first := by
  induction first generalizing owner with
  | nil => rfl
  | cons command rest ih =>
    simp only [cons_append, handleTerminalCommands]
    split
    · rw [ih]
      cases hrest : (handleTerminalCommands vt env
          (handleTerminalCommand vt env owner command).owner rest).continues with
      | true => simp [Turn.andThen, hrest]
      | false => simp [Turn.andThen, hrest]
    · rfl

end Forget

/-! ## Groups against single commands -/

section Groups

def Grouped.writeCommand (request : Grouped (List UInt8)) : TerminalCommand :=
  match request.caller with
  | none => .write request.payload request.reply
  | some caller => .authorizeAndWrite caller.principalId caller.connectionId caller.fence
      request.payload request.reply

def Grouped.resizeCommand (request : Grouped (Nat × Nat)) : TerminalCommand :=
  match request.caller with
  | none => .resize request.payload.1 request.payload.2 request.reply
  | some caller => .authorizeAndResize caller.principalId caller.connectionId caller.fence
      request.payload.1 request.payload.2 request.reply

theorem asWrite_eq_some {command : TerminalCommand} {write : Grouped (List UInt8)}
    (h : command.asWrite = some write) : command = write.writeCommand := by
  cases command <;> simp only [TerminalCommand.asWrite, reduceCtorEq, Option.some.injEq] at h <;>
    subst h <;> rfl

theorem asResize_eq_some {command : TerminalCommand} {resize : Grouped (Nat × Nat)}
    (h : command.asResize = some resize) : command = resize.resizeCommand := by
  cases command <;> simp only [TerminalCommand.asResize, reduceCtorEq, Option.some.injEq] at h <;>
    subst h <;> rfl

theorem takeWrites_append (messages batchBytes : Nat) (commands : List TerminalCommand) :
    (takeWrites messages batchBytes commands).1.map Grouped.writeCommand ++
      (takeWrites messages batchBytes commands).2 = commands := by
  induction commands generalizing messages batchBytes with
  | nil => rfl
  | cons command rest ih =>
    unfold takeWrites
    split
    · rfl
    rename_i write hwrite
    simp only
    split
    · rw [asWrite_eq_some hwrite]
      simpa using ih (messages + 1) (batchBytes + write.payload.length)
    · rfl

theorem takeResizes_append (messages : Nat) (commands : List TerminalCommand) :
    (takeResizes messages commands).1.map Grouped.resizeCommand ++
      (takeResizes messages commands).2 = commands := by
  induction commands generalizing messages with
  | nil => rfl
  | cons command rest ih =>
    unfold takeResizes
    split
    · rfl
    rename_i resize hresize
    split
    · rw [asResize_eq_some hresize]
      simpa using ih (messages + 1)
    · rfl

variable {α : Type} (reply : Nat)

@[simp] theorem payloads_grant (payload : α) (reply : BatchedReply)
    (after : Admitted α) : (after.grant payload reply).payloads = payload :: after.payloads := rfl

@[simp] theorem control_grant (payload : α) (reply : BatchedReply)
    (after : Admitted α) : (after.grant payload reply).control = after.control := rfl

@[simp] theorem control_refuse (error : TerminalError)
    (after : Admitted α) : (after.refuse reply error).control = after.control := rfl

theorem settled_grant (payload : α) (reply : BatchedReply) (after : Admitted α)
    (failure : Option String) : (reply.settle failure :: after.settled failure).Perm
      ((after.grant payload reply).settled failure) :=
  perm_middle.symm

theorem settled_refuse (error : TerminalError) (after : Admitted α) (failure : Option String) :
    (after.refuse reply error).settled failure =
      (reply, .lease (.error error)) :: after.settled failure := rfl

theorem writeGroup_owner (hpty : env.PtySucceeds) (owner : TerminalOwner Screen)
    (requests : List (Grouped (List UInt8))) : (writeGroup env owner requests).owner.forget =
      { owner.forget with
        control := (authorizeGroup owner.entry requests owner.control).control
        pty := ⟨owner.pty.written ++
          (authorizeGroup owner.entry requests owner.control).payloads.flatten, 0⟩ } := by
  unfold writeGroup TerminalOwner.forget
  simp only
  split
  · rename_i hempty
    simp [List.isEmpty_iff.mp hempty]
  · simp [Pty.write, hpty.writes]

theorem writeGroup_sent (hpty : env.PtySucceeds) (owner : TerminalOwner Screen)
    (requests : List (Grouped (List UInt8))) : (writeGroup env owner requests).sent =
      (authorizeGroup owner.entry requests owner.control).settled none := by
  unfold writeGroup
  simp only
  split
  · rfl
  · simp [Pty.write, hpty.writes]

/-- The first request of a group and the others. -/
inductive Authorized {α : Type} (entry : TerminalEntry) (request : Grouped α)
    (control : TerminalControlRegistry) (rest : List (Grouped α)) : Prop where
  | direct (hcaller : request.caller = none)
      (hgroup : authorizeGroup entry (request :: rest) control =
        (authorizeGroup entry rest control).grant request.payload (.direct request.reply))
  | granted (caller : Caller) (hcaller : request.caller = some caller)
      (lease : RuntimeTerminalLease) (control' : TerminalControlRegistry)
      (hauth : authorizeTerminal control entry caller.principalId caller.connectionId
        caller.fence = (.ok lease, control'))
      (hgroup : authorizeGroup entry (request :: rest) control =
        (authorizeGroup entry rest control').grant request.payload
          (.authorized request.reply lease))
  | refused (caller : Caller) (hcaller : request.caller = some caller)
      (error : TerminalError) (control' : TerminalControlRegistry)
      (hauth : authorizeTerminal control entry caller.principalId caller.connectionId
        caller.fence = (.error error, control'))
      (hgroup : authorizeGroup entry (request :: rest) control =
        (authorizeGroup entry rest control').refuse request.reply error)

theorem authorized_cases (entry : TerminalEntry) (request : Grouped α)
    (control : TerminalControlRegistry) (rest : List (Grouped α)) :
    Authorized entry request control rest := by
  cases hcaller : request.caller with
  | none => exact .direct hcaller (by simp [authorizeGroup, hcaller])
  | some caller =>
    cases hauth : authorizeTerminal control entry caller.principalId caller.connectionId
        caller.fence with
    | mk result control' =>
      cases result with
      | ok lease =>
        exact .granted caller hcaller lease control' hauth
          (by simp [authorizeGroup, hcaller, hauth])
      | error error =>
        exact .refused caller hcaller error control' hauth
          (by simp [authorizeGroup, hcaller, hauth])

theorem writeTerminal_entry (owner : TerminalOwner Screen) (data : List UInt8) :
    (writeTerminal env owner data).2.entry = owner.entry := rfl

theorem writeTerminal_control (owner : TerminalOwner Screen) (data : List UInt8) :
    (writeTerminal env owner data).2.control = owner.control := rfl

section

variable (hpty : env.PtySucceeds)
include hpty

section

variable (owner : TerminalOwner Screen)

theorem writeTerminal_written (data : List UInt8) :
    (writeTerminal env owner data).2.pty.written = owner.pty.written ++ data := by
  simp [writeTerminal, Pty.write, hpty.writes]

theorem write_then_group (control : TerminalControlRegistry) (request : Grouped (List UInt8))
    (rest : List (Grouped (List UInt8))) (waiting : BatchedReply)
    (hgroup : authorizeGroup owner.entry (request :: rest) owner.control =
      (authorizeGroup owner.entry rest control).grant request.payload waiting) :
    (Turn.andThen ⟨true, (writeTerminal env { owner with control := control } request.payload).2,
        [waiting.settle none]⟩
      (writeGroup env (writeTerminal env { owner with control := control } request.payload).2
        rest)).Alike (writeGroup env owner (request :: rest)) := by
  constructor
  · rfl
  · simp only [Turn.andThen]
    rw [writeGroup_owner hpty, writeGroup_owner hpty, hgroup, writeTerminal_entry,
      writeTerminal_control, writeTerminal_written hpty, (forget_writeTerminal hpty _ _).2]
    simp [TerminalOwner.forget]
  · simp only [Turn.andThen]
    rw [writeGroup_sent hpty, writeGroup_sent hpty, hgroup, writeTerminal_entry,
      writeTerminal_control]
    exact (settled_grant request.payload waiting _ none).map forgetReply

theorem refused_then_writes (control : TerminalControlRegistry) (request : Grouped (List UInt8))
    (rest : List (Grouped (List UInt8))) (error : TerminalError)
    (hgroup : authorizeGroup owner.entry (request :: rest) owner.control =
      (authorizeGroup owner.entry rest control).refuse request.reply error) :
    ((owner.leaseReply request.reply (.error error, control)).andThen
      (writeGroup env { owner with control := control } rest)).Alike
        (writeGroup env owner (request :: rest)) := by
  constructor
  · rfl
  · simp only [Turn.andThen]
    rw [writeGroup_owner hpty, writeGroup_owner hpty, hgroup]
    rfl
  · simp only [Turn.andThen]
    rw [writeGroup_sent hpty, writeGroup_sent hpty, hgroup, settled_refuse]
    rfl

end

theorem writes_alike (requests : List (Grouped (List UInt8))) (owner : TerminalOwner Screen) :
    (handleTerminalCommands vt env owner (requests.map Grouped.writeCommand)).Alike
      (writeGroup env owner requests) := by
  induction requests generalizing owner with
  | nil =>
    constructor
    · rfl
    · rw [writeGroup_owner hpty]
      simp [authorizeGroup, Admitted.payloads, handleTerminalCommands, TerminalOwner.forget]
    · exact .refl _
  | cons request rest ih =>
    rw [map_cons, handleTerminalCommands]
    cases authorized_cases owner.entry request owner.control rest with
    | direct hcaller hgroup =>
      simp only [Grouped.writeCommand, hcaller, handleTerminalCommand,
        (forget_writeTerminal hpty owner request.payload).1, TerminalOwner.replies, if_true]
      apply Turn.Alike.trans (.andThen (.refl _) (ih _))
      exact write_then_group hpty owner owner.control request rest _ hgroup
    | granted caller hcaller lease control hauth hgroup =>
      simp only [Grouped.writeCommand, hcaller, handleTerminalCommand, hauth,
        (forget_writeTerminal hpty _ request.payload).1, TerminalOwner.replies, if_true]
      apply Turn.Alike.trans (.andThen (.refl _) (ih _))
      exact write_then_group hpty owner control request rest _ hgroup
    | refused caller hcaller error control hauth hgroup =>
      simp only [Grouped.writeCommand, hcaller, handleTerminalCommand, hauth]
      apply Turn.Alike.trans (.andThen (.refl _) (ih _))
      exact refused_then_writes hpty owner control request rest error hgroup

end

def EntryState.resizedLast (terminalEpoch : String) (state : EntryState Unit)
    (sizes : List (Nat × Nat)) : EntryState Unit :=
  match sizes.getLast? with
  | none => state
  | some (cols, rows) => state.resized terminalEpoch cols rows

theorem resizedLast_resized (epoch : String) (state : EntryState Unit)
    (size : Nat × Nat) (sizes : List (Nat × Nat)) :
    (state.resized epoch size.1 size.2).resizedLast epoch sizes =
      state.resizedLast epoch (size :: sizes) := by
  unfold EntryState.resizedLast
  rw [getLast?_cons]
  cases sizes.getLast? with
  | none => rfl
  | some last =>
    simp only [getD_some, EntryState.resized]
    by_cases hrecorder : state.recorder.isSome = true <;> simp [hrecorder]

theorem resizeGroup_owner (hpty : env.PtySucceeds) (owner : TerminalOwner Screen)
    (requests : List (Grouped (Nat × Nat))) : (resizeGroup vt env owner requests).owner.forget =
      { owner.forget with
        control := (authorizeGroup owner.entry requests owner.control).control
        state := owner.state.forget.resizedLast owner.entry.terminalEpoch
          (authorizeGroup owner.entry requests owner.control).payloads } := by
  unfold resizeGroup EntryState.resizedLast
  simp only
  split
  · rfl
  · exact (forget_resizeTerminal hpty _ _ _).2

theorem resizeGroup_sent (hpty : env.PtySucceeds) (owner : TerminalOwner Screen)
    (requests : List (Grouped (Nat × Nat))) : (resizeGroup vt env owner requests).sent =
      (authorizeGroup owner.entry requests owner.control).settled none := by
  unfold resizeGroup
  simp only
  split
  · rfl
  · simp only [(forget_resizeTerminal hpty _ _ _).1, resizeFailure]

section

variable (owner : TerminalOwner Screen)

theorem resizeGroup_continues (requests : List (Grouped (Nat × Nat))) :
    (resizeGroup vt env owner requests).continues = true := by
  unfold resizeGroup
  simp only
  split <;> rfl

theorem resizeTerminal_entry (cols rows : Nat) :
    (resizeTerminal vt env owner cols rows).2.entry = owner.entry := by
  unfold resizeTerminal
  simp only
  split <;> rfl

theorem resizeTerminal_control (cols rows : Nat) :
    (resizeTerminal vt env owner cols rows).2.control = owner.control := by
  unfold resizeTerminal
  simp only
  split <;> rfl

end

section

variable (hpty : env.PtySucceeds)
include hpty

section

variable (owner : TerminalOwner Screen)

theorem resizeTerminal_state
    (cols rows : Nat) : (resizeTerminal vt env owner cols rows).2.state.forget =
      owner.state.forget.resized owner.entry.terminalEpoch cols rows :=
  congrArg TerminalOwner.state (forget_resizeTerminal hpty owner cols rows).2

theorem resize_then_group (control : TerminalControlRegistry) (request : Grouped (Nat × Nat))
    (rest : List (Grouped (Nat × Nat))) (waiting : BatchedReply)
    (hgroup : authorizeGroup owner.entry (request :: rest) owner.control =
      (authorizeGroup owner.entry rest control).grant request.payload waiting) :
    (Turn.andThen ⟨true, (resizeTerminal vt env { owner with control := control }
        request.payload.1 request.payload.2).2, [waiting.settle none]⟩
      (resizeGroup vt env (resizeTerminal vt env { owner with control := control }
        request.payload.1 request.payload.2).2 rest)).Alike
          (resizeGroup vt env owner (request :: rest)) := by
  constructor
  · exact (resizeGroup_continues _ _).trans (resizeGroup_continues _ _).symm
  · simp only [Turn.andThen]
    rw [resizeGroup_owner hpty, resizeGroup_owner hpty, hgroup, resizeTerminal_entry,
      resizeTerminal_control, resizeTerminal_state hpty, (forget_resizeTerminal hpty _ _ _).2]
    simp only [payloads_grant, control_grant, resizedLast_resized]
    rfl
  · simp only [Turn.andThen]
    rw [resizeGroup_sent hpty, resizeGroup_sent hpty, hgroup, resizeTerminal_entry,
      resizeTerminal_control]
    exact (settled_grant request.payload waiting _ none).map forgetReply

theorem refused_then_resizes (control : TerminalControlRegistry) (request : Grouped (Nat × Nat))
    (rest : List (Grouped (Nat × Nat))) (error : TerminalError)
    (hgroup : authorizeGroup owner.entry (request :: rest) owner.control =
      (authorizeGroup owner.entry rest control).refuse request.reply error) :
    ((owner.leaseReply request.reply (.error error, control)).andThen
      (resizeGroup vt env { owner with control := control } rest)).Alike
        (resizeGroup vt env owner (request :: rest)) := by
  constructor
  · exact (resizeGroup_continues _ _).trans (resizeGroup_continues _ _).symm
  · simp only [Turn.andThen]
    rw [resizeGroup_owner hpty, resizeGroup_owner hpty, hgroup]
    rfl
  · simp only [Turn.andThen]
    rw [resizeGroup_sent hpty, resizeGroup_sent hpty, hgroup, settled_refuse]
    rfl

end

theorem resizes_alike (requests : List (Grouped (Nat × Nat))) (owner : TerminalOwner Screen) :
    (handleTerminalCommands vt env owner (requests.map Grouped.resizeCommand)).Alike
      (resizeGroup vt env owner requests) := by
  induction requests generalizing owner with
  | nil =>
    constructor
    · exact (resizeGroup_continues _ _).symm
    · rw [resizeGroup_owner hpty]
      rfl
    · rw [resizeGroup_sent hpty]
      exact .refl _
  | cons request rest ih =>
    rw [map_cons, handleTerminalCommands]
    cases authorized_cases owner.entry request owner.control rest with
    | direct hcaller hgroup =>
      simp only [Grouped.resizeCommand, hcaller, handleTerminalCommand,
        (forget_resizeTerminal hpty owner request.payload.1 request.payload.2).1,
        TerminalOwner.replies, if_true]
      apply Turn.Alike.trans (.andThen (.refl _) (ih _))
      exact resize_then_group hpty owner owner.control request rest _ hgroup
    | granted caller hcaller lease control hauth hgroup =>
      simp only [Grouped.resizeCommand, hcaller, handleTerminalCommand, hauth,
        (forget_resizeTerminal hpty _ request.payload.1 request.payload.2).1,
        TerminalOwner.replies, if_true]
      apply Turn.Alike.trans (.andThen (.refl _) (ih _))
      exact resize_then_group hpty owner control request rest _ hgroup
    | refused caller hcaller error control hauth hgroup =>
      simp only [Grouped.resizeCommand, hcaller, handleTerminalCommand, hauth]
      apply Turn.Alike.trans (.andThen (.refl _) (ih _))
      exact refused_then_resizes hpty owner control request rest error hgroup

/-! ## The batch against single commands -/

theorem group_then_batch {owner : TerminalOwner Screen}
    {group : Turn Screen} {commands rest : List TerminalCommand}
    (hgroup : (handleTerminalCommands vt env owner commands).Alike group)
    (hcontinues : group.continues = true)
    (hrest : (handleTerminalCommands vt env group.owner rest).Alike
      (handleTerminalCommandBatch vt env group.owner rest)) :
    (handleTerminalCommands vt env owner (commands ++ rest)).Alike
      (group.andThen (handleTerminalCommandBatch vt env group.owner rest)) := by
  rw [handleAll_append, hgroup.continues, hcontinues, if_pos rfl]
  exact .andThen hgroup.sent ((handleAll_forget hpty rest hgroup.owner).trans hrest)

end

theorem batch_alike (hpty : env.PtySucceeds) (owner : TerminalOwner Screen)
    (commands : List TerminalCommand) : (handleTerminalCommands vt env owner commands).Alike
      (handleTerminalCommandBatch vt env owner commands) := by
  fun_induction handleTerminalCommandBatch vt env owner commands with
  | case1 owner => exact .refl _
  | case2 owner command rest write hwrite turn ih =>
    have hcommands : command :: rest =
        (write :: (takeWrites 1 write.payload.length rest).1).map Grouped.writeCommand ++
          (takeWrites 1 write.payload.length rest).2 := by
      rw [map_cons, cons_append, takeWrites_append, ← asWrite_eq_some hwrite]
    rw [hcommands]
    exact group_then_batch hpty (writes_alike hpty _ owner) rfl ih
  | case3 owner command rest _ resize hresize turn ih =>
    have hcommands : command :: rest =
        (resize :: (takeResizes 1 rest).1).map Grouped.resizeCommand ++ (takeResizes 1 rest).2 := by
      rw [map_cons, cons_append, takeResizes_append, ← asResize_eq_some hresize]
    rw [hcommands]
    exact group_then_batch hpty (resizes_alike hpty _ owner) (resizeGroup_continues _ _) ih
  | case4 owner command rest _ _ turn hcontinues ih =>
    rw [handleTerminalCommands]
    simp only [turn] at hcontinues ih ⊢
    rw [if_pos hcontinues]
    exact .andThen (.refl _) ih
  | case5 owner command rest _ _ turn hstops =>
    rw [handleTerminalCommands]
    simp only [turn] at hstops ⊢
    rw [if_neg hstops]
    exact .refl _

theorem batches_alike (hpty : env.PtySucceeds) (batches : List (List TerminalCommand))
    (owner : TerminalOwner Screen) : (handleTerminalCommands vt env owner batches.flatten).Alike
      (handleTerminalCommandBatches vt env owner batches) := by
  induction batches generalizing owner with
  | nil => exact .refl _
  | cons batch rest ih =>
    have hbatch := @batch_alike _ vt env hpty owner batch
    rw [flatten_cons, handleAll_append, handleTerminalCommandBatches]
    simp only [hbatch.continues]
    split
    · exact .andThen hbatch.sent ((handleAll_forget hpty _ hbatch.owner).trans (ih _))
    · exact hbatch

/-- However commands are cut into batches, the owner writes the same bytes,
ends with the same size, leases and decision to stop, and gives every command
the same reply, but for the picture and the time of a checkpoint. -/
theorem batches_refine (vt : Vt100 Screen) (hpty : env.PtySucceeds)
    (batches : List (List TerminalCommand)) (owner : TerminalOwner Screen) :
    let single := handleTerminalCommands vt env owner batches.flatten
    let batched := handleTerminalCommandBatches vt env owner batches
    batched.owner.pty.written = single.owner.pty.written ∧
      batched.owner.state.cols = single.owner.state.cols ∧
      batched.owner.state.rows = single.owner.state.rows ∧
      batched.owner.control = single.owner.control ∧
      batched.continues = single.continues ∧
      batched.owner.forget = single.owner.forget ∧
      (batched.sent.map forgetReply).Perm (single.sent.map forgetReply) := by
  have halike := @batches_alike _ vt env hpty batches owner
  obtain ⟨-, hstate, hctl, hwrt, -⟩ := forget_eq_iff.mp halike.owner
  have hcols : (handleTerminalCommands vt env owner batches.flatten).owner.state.cols =
      (handleTerminalCommandBatches vt env owner batches).owner.state.cols :=
    (congrArg EntryState.cols hstate :)
  have hrows : (handleTerminalCommands vt env owner batches.flatten).owner.state.rows =
      (handleTerminalCommandBatches vt env owner batches).owner.state.rows :=
    (congrArg EntryState.rows hstate :)
  exact ⟨hwrt.symm, hcols.symm, hrows.symm, hctl.symm, halike.continues.symm,
    halike.owner.symm, halike.sent.symm⟩

end Groups

/-! Two writes and two resizes of two connections, cut in the middle. -/

theorem quiet_succeeds : quietSurroundings.PtySucceeds := ⟨fun _ => rfl, fun _ => rfl⟩

def sampleBatches : List (List TerminalCommand) :=
  [[.authorizeAndWrite "ann" "c1" none [104, 105] 0, .write [33] 1,
      .authorizeAndResize "ann" "c1" none 100 30 2],
    [.authorizeAndResize "bob" "c2" none 120 40 3, .attach "c2" 0 4]]

theorem batches_refine_sample :
    (handleTerminalCommandBatches blankVt100 quietSurroundings sampleOwner
        sampleBatches).owner.pty.written =
      (handleTerminalCommands blankVt100 quietSurroundings sampleOwner
        sampleBatches.flatten).owner.pty.written :=
  (batches_refine blankVt100 quiet_succeeds sampleBatches sampleOwner).1

end Yaade.Terminal

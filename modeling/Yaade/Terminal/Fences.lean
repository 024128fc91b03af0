import Yaade.Terminal.Batch
import Yaade.Terminal.Leases
import Yaade.Terminal.Replay
import Yaade.Terminal.Requests

/-!
Runs of a terminal owner that takes requests in batches, and a log of every
authorisation it makes.
-/

namespace Yaade.Terminal

open Yaade.Library TerminalControlState List Option IndexMap

/-! ## What the registry depends on -/

variable {Screen : Type} {vt : Vt100 Screen} {env : Surroundings}

section Steered

/-- Owners with the same leases that got the same answers from the host. -/
structure Steered (owner owner' : TerminalOwner Screen) : Prop where
  entry : owner.entry = owner'.entry
  control : owner.control = owner'.control
  asked : owner.asked = owner'.asked

structure Turn.Steered (turn turn' : Turn Screen) : Prop where
  continues : turn.continues = turn'.continues
  owner : Terminal.Steered turn.owner turn'.owner

theorem Steered.refl (owner : TerminalOwner Screen) : Steered owner owner := ⟨rfl, rfl, rfl⟩

theorem Steered.trans {owner owner' owner'' : TerminalOwner Screen} (h : Steered owner owner')
    (h' : Steered owner' owner'') : Steered owner owner'' :=
  ⟨h.entry.trans h'.entry, h.control.trans h'.control, h.asked.trans h'.asked⟩

theorem Turn.Steered.trans {turn turn' turn'' : Turn Screen} (h : turn.Steered turn')
    (h' : turn'.Steered turn'') : turn.Steered turn'' :=
  ⟨h.continues.trans h'.continues, h.owner.trans h'.owner⟩

theorem resizeTerminal_asked (owner : TerminalOwner Screen) (cols rows : Nat) :
    (resizeTerminal vt env owner cols rows).2.asked = owner.asked := by
  unfold resizeTerminal
  simp only
  split <;> rfl

/-- The PTY and the state of the terminal have no say in who is authorised. -/
theorem handle_steered {owner owner' : TerminalOwner Screen} (h : Steered owner owner')
    (command : TerminalCommand) : (handleTerminalCommand vt env owner command).Steered
      (handleTerminalCommand vt env owner' command) := by
  obtain ⟨hentry, hctl, hasked⟩ := h
  cases command with
  | resize cols rows reply =>
    refine ⟨rfl, ?_, ?_, ?_⟩
    · simpa only [handleTerminalCommand, TerminalOwner.replies, resizeTerminal_entry] using hentry
    · simpa only [handleTerminalCommand, TerminalOwner.replies, resizeTerminal_control] using hctl
    · simpa only [handleTerminalCommand, TerminalOwner.replies, resizeTerminal_asked] using hasked
  | authorizeAndWrite principalId connectionId fence data reply =>
    simp only [handleTerminalCommand, hentry, hctl]
    split
    · exact ⟨rfl, hentry, rfl, hasked⟩
    · exact ⟨rfl, rfl, rfl, hasked⟩
  | authorizeAndResize principalId connectionId fence cols rows reply =>
    simp only [handleTerminalCommand, hentry, hctl]
    split
    · exact ⟨rfl, hentry, rfl, hasked⟩
    refine ⟨rfl, ?_, ?_, ?_⟩
    · simp only [TerminalOwner.replies, resizeTerminal_entry]
    · simp only [TerminalOwner.replies, resizeTerminal_control]
    · simpa only [TerminalOwner.replies, resizeTerminal_asked] using hasked
  | authorizeAndDispose principalId connectionId fence reply =>
    simp only [handleTerminalCommand, hentry, hctl]
    split
    · exact ⟨rfl, hentry, rfl, hasked⟩
    simp only [TerminalOwner.unregister, hasked]
    split
    · exact ⟨rfl, rfl, rfl, rfl⟩
    · exact ⟨rfl, rfl, rfl, rfl⟩
  | dispose reply =>
    simp only [handleTerminalCommand, TerminalOwner.unregister, hentry, hctl]
    exact ⟨rfl, rfl, rfl, congrArg (· + 1) hasked⟩
  | attach clientId afterSequence reply =>
    exact ⟨rfl, hentry, hctl, congrArg (· + 1) hasked⟩
  | releaseLease | listLeases | releaseConnection =>
    simp only [handleTerminalCommand, hentry, hctl]
    exact ⟨rfl, rfl, rfl, hasked⟩
  | write | inspect | setTheme | markReplayReady | detach | getLiveCwd =>
    exact ⟨rfl, hentry, hctl, hasked⟩
  | _ =>
    simp only [handleTerminalCommand, hentry, hctl]
    exact ⟨rfl, hentry, rfl, hasked⟩

theorem handleAll_steered (commands : List TerminalCommand) {owner owner' : TerminalOwner Screen}
    (h : Steered owner owner') : (handleTerminalCommands vt env owner commands).Steered
      (handleTerminalCommands vt env owner' commands) := by
  induction commands generalizing owner owner' with
  | nil => exact ⟨rfl, h⟩
  | cons command rest ih =>
    have hturn := @handle_steered _ vt env _ _ h command
    unfold handleTerminalCommands
    simp only [hturn.continues]
    split
    · exact ⟨(ih hturn.owner).continues, (ih hturn.owner).owner⟩
    · exact hturn

theorem group_steered {α : Type} {toCommand : Grouped α → TerminalCommand}
    (hcommand : ∀ (owner : TerminalOwner Screen) (request : Grouped α),
      (handleTerminalCommand vt env owner (toCommand request)).Steered
        ⟨true, { owner with control := match request.caller with
          | none => owner.control
          | some caller => (authorizeTerminal owner.control owner.entry caller.principalId
              caller.connectionId caller.fence).2 }, []⟩)
    (requests : List (Grouped α)) (owner : TerminalOwner Screen) :
    (handleTerminalCommands vt env owner (requests.map toCommand)).Steered
      ⟨true, { owner with
        control := (authorizeGroup owner.entry requests owner.control).control }, []⟩ := by
  induction requests generalizing owner with
  | nil => exact ⟨rfl, rfl, rfl, rfl⟩
  | cons request rest ih =>
    have hfirst := hcommand owner request
    rw [map_cons, handleTerminalCommands]
    simp only [hfirst.continues, if_true]
    have hrest := (handleAll_steered (rest.map toCommand) hfirst.owner).trans (ih _)
    refine ⟨hrest.continues, hrest.owner.trans ⟨rfl, ?_, rfl⟩⟩
    cases authorized_cases owner.entry request owner.control rest with
    | direct hcaller hgroup => simp only [hcaller, hgroup, control_grant]
    | granted caller hcaller lease control hauth hgroup =>
      simp only [hcaller, hgroup, hauth, control_grant]
    | refused caller hcaller error control hauth hgroup =>
      simp only [hcaller, hgroup, hauth, control_refuse]

section

variable (owner : TerminalOwner Screen)

theorem writeCommand_steered (request : Grouped (List UInt8)) :
    (handleTerminalCommand vt env owner request.writeCommand).Steered
      ⟨true, { owner with control := match request.caller with
        | none => owner.control
        | some caller => (authorizeTerminal owner.control owner.entry caller.principalId
            caller.connectionId caller.fence).2 }, []⟩ := by
  unfold Grouped.writeCommand
  cases request.caller with
  | none => exact ⟨rfl, rfl, rfl, rfl⟩
  | some caller =>
    simp only [handleTerminalCommand]
    split
    · rename_i error control hauth
      exact ⟨rfl, rfl, by simp only [hauth]; rfl, rfl⟩
    · rename_i lease control hauth
      exact ⟨rfl, rfl, by simp only [hauth]; rfl, rfl⟩

theorem resizeCommand_steered (request : Grouped (Nat × Nat)) :
    (handleTerminalCommand vt env owner request.resizeCommand).Steered
      ⟨true, { owner with control := match request.caller with
        | none => owner.control
        | some caller => (authorizeTerminal owner.control owner.entry caller.principalId
            caller.connectionId caller.fence).2 }, []⟩ := by
  unfold Grouped.resizeCommand
  cases request.caller with
  | none => exact ⟨rfl, resizeTerminal_entry _ _ _, resizeTerminal_control _ _ _,
      resizeTerminal_asked _ _ _⟩
  | some caller =>
    simp only [handleTerminalCommand]
    split
    · rename_i error control hauth
      exact ⟨rfl, rfl, by simp only [hauth]; rfl, rfl⟩
    rename_i lease control hauth
    refine ⟨rfl, resizeTerminal_entry _ _ _, ?_, resizeTerminal_asked _ _ _⟩
    simp only [hauth]
    exact resizeTerminal_control _ _ _

theorem resizeGroup_steered (requests : List (Grouped (Nat × Nat))) :
    Steered (resizeGroup vt env owner requests).owner
      { owner with control := (authorizeGroup owner.entry requests owner.control).control } := by
  unfold resizeGroup
  simp only
  split
  · exact ⟨rfl, rfl, rfl⟩
  · exact ⟨resizeTerminal_entry _ _ _, resizeTerminal_control _ _ _, resizeTerminal_asked _ _ _⟩

end

theorem group_then_steered {owner : TerminalOwner Screen} {group : Turn Screen}
    {commands rest : List TerminalCommand}
    (hgroup : (handleTerminalCommands vt env owner commands).Steered group)
    (hcontinues : group.continues = true)
    (hrest : (handleTerminalCommands vt env group.owner rest).Steered
      (handleTerminalCommandBatch vt env group.owner rest)) :
    (handleTerminalCommands vt env owner (commands ++ rest)).Steered
      (group.andThen (handleTerminalCommandBatch vt env group.owner rest)) := by
  rw [handleAll_append, hgroup.continues, hcontinues, if_pos rfl]
  have hafter := (handleAll_steered rest hgroup.owner).trans hrest
  exact ⟨hafter.continues, hafter.owner⟩

theorem batch_steered (owner : TerminalOwner Screen) (commands : List TerminalCommand) :
    (handleTerminalCommands vt env owner commands).Steered
      (handleTerminalCommandBatch vt env owner commands) := by
  fun_induction handleTerminalCommandBatch vt env owner commands with
  | case1 owner => exact ⟨rfl, .refl _⟩
  | case2 owner command rest write hwrite turn ih =>
    have hcommands : command :: rest =
        (write :: (takeWrites 1 write.payload.length rest).1).map Grouped.writeCommand ++
          (takeWrites 1 write.payload.length rest).2 := by
      rw [map_cons, cons_append, takeWrites_append, ← asWrite_eq_some hwrite]
    have hgroup : (handleTerminalCommands vt env owner
        ((write :: (takeWrites 1 write.payload.length rest).1).map
          Grouped.writeCommand)).Steered turn :=
      (group_steered writeCommand_steered _ owner).trans ⟨rfl, rfl, rfl, rfl⟩
    rw [hcommands]
    exact group_then_steered hgroup rfl ih
  | case3 owner command rest _ resize hresize turn ih =>
    have hcommands : command :: rest =
        (resize :: (takeResizes 1 rest).1).map Grouped.resizeCommand ++ (takeResizes 1 rest).2 := by
      rw [map_cons, cons_append, takeResizes_append, ← asResize_eq_some hresize]
    have hsame : Steered turn.owner _ := resizeGroup_steered owner _
    have hgroup : (handleTerminalCommands vt env owner
        ((resize :: (takeResizes 1 rest).1).map Grouped.resizeCommand)).Steered turn :=
      (group_steered resizeCommand_steered _ owner).trans
        ⟨(resizeGroup_continues _ _).symm, hsame.entry.symm, hsame.control.symm, hsame.asked.symm⟩
    rw [hcommands]
    exact group_then_steered hgroup (resizeGroup_continues _ _) ih
  | case4 owner command rest _ _ turn hcontinues ih =>
    rw [handleTerminalCommands]
    simp only [turn] at hcontinues ih ⊢
    rw [if_pos hcontinues]
    exact ⟨ih.continues, ih.owner⟩
  | case5 owner command rest _ _ turn hstops =>
    rw [handleTerminalCommands]
    simp only [turn] at hstops ⊢
    rw [if_neg hstops]
    exact ⟨rfl, .refl _⟩

end Steered

/-! ## What the lease calls leave alone -/

def SameField {α : Type} (field : TerminalControlState → α)
    (before after : TerminalControlRegistry) : Prop :=
  ∀ terminalId, (after.terminals.get? terminalId).map field =
    (before.terminals.get? terminalId).map field

def SameCommands (before after : TerminalControlRegistry) : Prop :=
  ∀ terminalId, (after.terminals.get? terminalId).map commandIds =
    (before.terminals.get? terminalId).map commandIds

/-- What a call that only moves leases leaves alone in a terminal. -/
def kept (state : TerminalControlState) : String × IndexMap String Int :=
  (state.terminalEpoch, state.commandIds)

section SameField

variable {α : Type} {field : TerminalControlState → α}
  {registry before middle after : TerminalControlRegistry}

theorem SameField.refl (registry : TerminalControlRegistry) : SameField field registry registry :=
  fun _ => rfl

theorem SameField.trans (h : SameField field before middle) (h' : SameField field middle after) :
    SameField field before after :=
  fun terminalId => (h' terminalId).trans (h terminalId)

theorem SameField.project {β : Type} (project : α → β) (h : SameField field before after) :
    SameField (project ∘ field) before after := by
  intro terminalId
  rw [← Option.map_map, h terminalId, Option.map_map]

theorem SameField.commands (h : SameField kept before after) : SameCommands before after :=
  h.project Prod.snd

theorem commit_same {id : String} {state state' : TerminalControlState} {usedId : Bool}
    (hstate : registry.terminals.get? id = some state) (hsame : field state' = field state) :
    SameField field registry (registry.commit id state' usedId) := by
  intro other
  simp only [TerminalControlRegistry.commit, get?_insert]
  split
  · rename_i hother
    rw [hother, hstate, map_some, map_some, hsame]
  · rfl

theorem operate_same {β : Type} {id epoch : String} {operation : TerminalControlState → Outcome β}
    (hsame : ∀ state, field (operation state).state = field state) :
    SameField field registry (registry.operate id epoch operation).2 := by
  rcases operate_cases registry id epoch operation with
    ⟨error, hoperate⟩ | ⟨state, hstate, hoperate⟩
  · rw [hoperate]
    exact .refl registry
  · rw [hoperate]
    exact commit_same hstate (hsame state)

variable (state : TerminalControlState)

theorem renewLease_kept (leaseId : String) (terms : LeaseTerms) :
    kept (state.renewLease leaseId terms).2 = kept state := by
  unfold renewLease
  split <;> rfl

theorem acquire_kept (request : TerminalLeaseRequest) (terms : LeaseTerms) (nextId : String) :
    kept (state.acquire request terms nextId).state = kept state := by
  have hobserving : ∀ state : TerminalControlState, ∀ principalId connectionId,
      kept (state.stopObserving principalId connectionId).openGeneration = kept state := by
    intro state principalId connectionId
    unfold stopObserving openGeneration
    split <;> split <;> rfl
  unfold acquire
  simp only
  cases request.mode with
  | writer =>
    simp only [acquireWriter]
    split
    · exact renewLease_kept _ _ terms
    · exact hobserving _ _ _
  | observer =>
    simp only [acquireObserver]
    split
    · exact renewLease_kept _ _ terms
    · rfl

theorem renew_kept (id leaseId principalId connectionId : String) (terms : LeaseTerms) :
    kept (state.renew id leaseId principalId connectionId terms).state = kept state := by
  unfold renew
  simp only
  split
  · rfl
  split
  · rfl
  · exact renewLease_kept _ leaseId terms

theorem release_kept (id leaseId principalId connectionId : String) :
    kept (state.release id leaseId principalId connectionId).state = kept state := by
  unfold release
  split
  · rfl
  · split <;> rfl

theorem releaseConnection_kept (connectionId : String) (terms : LeaseTerms) (nextId : String) :
    kept (state.releaseConnection connectionId terms nextId).1 = kept state := by
  unfold releaseConnection
  simp only
  split
  · unfold promote
    split <;> rfl
  · rfl

theorem releaseEach_same (connectionId : String) (terms : LeaseTerms)
    (terminalIds : List String) (registry : TerminalControlRegistry) :
    SameField kept registry (registry.releaseEach connectionId terms terminalIds) := by
  induction terminalIds generalizing registry with
  | nil => exact .refl registry
  | cons terminalId rest ih =>
    unfold TerminalControlRegistry.releaseEach
    split
    · exact ih registry
    rename_i state hstate
    exact (commit_same hstate (releaseConnection_kept state connectionId terms _)).trans (ih _)

section

variable (registry : TerminalControlRegistry)

theorem forceTakeover_same (id epoch principalId connectionId : String) : SameField kept registry
      (registry.forceTakeover id epoch principalId connectionId).2 :=
  @operate_same _ kept { registry.tick with made := registry.made + 1 } _ _ _ _ fun _ => rfl

theorem transfer_same (terminalId terminalEpoch leaseId
    principalId connectionId targetPrincipalId targetConnectionId : String) :
    SameField kept registry (registry.transfer terminalId terminalEpoch leaseId principalId
      connectionId targetPrincipalId targetConnectionId).2 := by
  have hcheck : SameField kept registry (registry.tick.operate terminalId terminalEpoch
      fun state =>
        let state := state.purge registry.terms.now
        (⟨state.transferable terminalId leaseId principalId connectionId, state, false⟩ :
          Outcome Unit)).2 :=
    @operate_same _ kept registry.tick _ _ _ _ fun _ => rfl
  unfold TerminalControlRegistry.transfer
  split
  · rename_i error checked hoperate
    rw [hoperate] at hcheck
    exact hcheck
  · rename_i checked hoperate
    rw [hoperate] at hcheck
    exact hcheck.trans (forceTakeover_same checked _ _ _ _)

theorem inspect_same {β : Type} (id : String)
    (read : TerminalControlState → β) : SameField kept registry (registry.inspect id read).2 := by
  unfold TerminalControlRegistry.inspect
  split
  · exact .refl registry
  · rename_i state hstate
    exact commit_same (stateOf_ok hstate) rfl

end

def LeaseCall.KeepsCommands : LeaseCall → Prop
  | .registerTerminal _ _ | .authorizeMutation _ => False
  | _ => True

theorem LeaseCall.run_same (registry : TerminalControlRegistry) {call : LeaseCall}
    (hkeeps : call.KeepsCommands) : SameField kept registry (call.run registry).2 := by
  cases call with
  | registerTerminal | authorizeMutation => exact hkeeps.elim
  | acquire request =>
    exact @operate_same _ kept registry.tick _ _ _ _ fun state => acquire_kept state request _ _
  | renew terminalId terminalEpoch leaseId principalId connectionId =>
    exact @operate_same _ kept registry.tick _ _ _ _ fun state => renew_kept state _ _ _ _ _
  | release terminalId terminalEpoch leaseId principalId connectionId =>
    exact operate_same fun state => release_kept state _ _ _ _
  | releaseConnection connectionId =>
    exact releaseEach_same connectionId _ _ registry.tick
  | forceTakeover terminalId terminalEpoch principalId connectionId =>
    exact forceTakeover_same registry _ _ _ _
  | transfer terminalId terminalEpoch leaseId principalId connectionId
      targetPrincipalId targetConnectionId =>
      exact transfer_same registry _ _ _ _ _ _ _
  | writer terminalId => exact inspect_same registry terminalId _
  | list terminalId => exact inspect_same registry terminalId _

end SameField

/-! ## Decisions -/

/-- An authorisation the owner made: for whom, against which leases, and
whether the request came with a fence argument. -/
structure Decision where
  supplied : Bool
  caller : Caller
  before : TerminalControlRegistry

def Decision.outcome (entry : TerminalEntry) (decision : Decision) :
    Except TerminalError RuntimeTerminalLease × TerminalControlRegistry :=
  authorizeTerminal decision.before entry decision.caller.principalId
    decision.caller.connectionId decision.caller.fence

def Decision.granted (entry : TerminalEntry) (decision : Decision) : Bool :=
  (decision.outcome entry).1.isOk

def Decision.accepted (entry : TerminalEntry) (decision : Decision) : Option String :=
  if decision.granted entry then decision.caller.fence.map (·.commandId) else none

def acceptedIds (entry : TerminalEntry) (log : List Decision) : List String :=
  log.filterMap (Decision.accepted entry)

def recentIds (ids : List String) : List String := ids.drop (ids.length - maxCommandIds)

/-- The registry of an owner with this log: it knows no other terminal, its
leases are sound, and it remembers the commands it accepted last. -/
structure Registered (entry : TerminalEntry) (log : List Decision)
    (control : TerminalControlRegistry) : Prop where
  alone : ∀ terminalId, terminalId ≠ entry.id → control.terminals.get? terminalId = none
  sound : ∀ terminalId state, control.terminals.get? terminalId = some state →
    Sound terminalId (MadeBetween control.makeId 0 control.made) state
  recent : ∀ state, control.terminals.get? entry.id = some state →
    state.commandIds.entries.map Prod.fst = recentIds (acceptedIds entry log)

variable {entry : TerminalEntry} {log : List Decision}

section Registered

variable {control control' : TerminalControlRegistry}

theorem Registered.quiet (h : Registered entry log control) (hsame : SameCommands control control')
    (hadvances : Advances control control') : Registered entry log control' where
  alone terminalId hother := by
    have hnone := hsame terminalId
    rw [h.alone terminalId hother] at hnone
    exact map_eq_none_iff.mp hnone
  sound terminalId state hstate := hadvances.sound h.sound hstate
  recent state hstate := by
    have hcommands := hsame entry.id
    rw [hstate] at hcommands
    obtain ⟨before, hbef, hsame⟩ := map_eq_some_iff.mp hcommands.symm
    rw [← hsame]
    exact h.recent before hbef

theorem Registered.unregister (h : Registered entry log control) (id : String)
    (epoch : Option String) : Registered entry log (control.unregisterTerminal id epoch) := by
  unfold TerminalControlRegistry.unregisterTerminal
  split
  · split
    · have hfewer : ∀ other state, (control.terminals.shiftRemove id).get? other =
          some state → control.terminals.get? other = some state := by
        intro other state hstate
        exact (get?_shiftRemove_eq_some.mp hstate).2
      constructor
      · intro other hother
        rw [get?_shiftRemove, h.alone other hother, ite_self]
      · exact fun other state hstate => h.sound other state (hfewer other state hstate)
      · exact fun state hstate => h.recent state (hfewer entry.id state hstate)
    · exact h
  · exact h

theorem drop_recent (count : Nat) (ids : List String) (id : String) :
    (ids.drop (ids.length - count) ++ [id]).drop
        ((ids.drop (ids.length - count) ++ [id]).length - count) =
      (ids ++ [id]).drop ((ids ++ [id]).length - count) := by
  have hdrop : ids.drop (ids.length - count) ++ [id] = (ids ++ [id]).drop (ids.length - count) :=
    (drop_append_of_le_length (Nat.sub_le _ _)).symm
  rw [hdrop, drop_drop, length_drop, length_append, length_singleton]
  congr 1
  omega

theorem recentIds_append (ids : List String) (id : String) :
    recentIds (recentIds ids ++ [id]) = recentIds (ids ++ [id]) :=
  drop_recent maxCommandIds ids id

theorem acceptCommand_entries {commandIds : IndexMap String Int} {commandId : String}
    (hnew : commandIds.contains commandId = false) (now : Int) :
    (acceptCommand commandIds commandId now).entries.map Prod.fst =
      recentIds (commandIds.entries.map Prod.fst ++ [commandId]) := by
  have hnone : commandIds.get? commandId = none := isNone_iff_eq_none.mp
    (isSome_eq_false_iff.mp hnew)
  have hentries := insert_entries hnone now
  unfold acceptCommand IndexMap.keepLast recentIds IndexMap.length
  simp only
  rw [map_drop, hentries]
  simp

end Registered

section Authorized

variable {control : TerminalControlRegistry}

/-- The lease that a fence has to name: an unexpired one of the caller. -/
structure FenceHolds (state : TerminalControlState) (now : Int) (fence : TerminalMutationFence)
    (lease : RuntimeTerminalLease) : Prop where
  held : state.writers.get? fence.leaseId = some lease
  unexpired : now < lease.expiresAtMs
  epoch : lease.terminalEpoch = fence.terminalEpoch
  generation : lease.leaseGeneration = fence.leaseGeneration
  principal : lease.principalId = fence.principalId
  connection : lease.connectionId = fence.connectionId

theorem matchesFence_iff {writer : RuntimeTerminalLease} {fence : TerminalMutationFence} :
    matchesFence writer fence = true ↔ writer.terminalEpoch = fence.terminalEpoch ∧
      writer.leaseGeneration = fence.leaseGeneration ∧
      writer.principalId = fence.principalId ∧ writer.connectionId = fence.connectionId := by
  simp [matchesFence, RuntimeTerminalLease.heldBy, and_assoc]

theorem purge_writer {state : TerminalControlState} {now : Int} {leaseId : String}
    {lease : RuntimeTerminalLease} : (state.purge now).writers.get? leaseId = some lease ↔
      state.writers.get? leaseId = some lease ∧ now < lease.expiresAtMs := by
  unfold purge
  rw [get?_retain_eq_some]
  simp

/-- What an authorisation does to one terminal: it accepts a new command on a
fence that holds, or it accepts nothing. -/
theorem authorizeMutation_cases (state : TerminalControlState) (fence : TerminalMutationFence)
    (terms : LeaseTerms) : (∃ lease, FenceHolds state terms.now fence lease ∧
        state.commandIds.contains fence.commandId = false ∧
        (state.authorizeMutation fence terms).result.isOk = true ∧
        (state.authorizeMutation fence terms).state.commandIds =
          acceptCommand state.commandIds fence.commandId terms.now) ∨
      (∃ error, (state.authorizeMutation fence terms).result = .error error ∧
        (state.authorizeMutation fence terms).state.commandIds = state.commandIds ∧
        ∀ lease, FenceHolds state terms.now fence lease → error.code = .commandDuplicate) := by
  unfold TerminalControlState.authorizeMutation
  simp only
  split
  · rename_i hnone
    refine .inr ⟨_, rfl, rfl, ?_⟩
    intro lease hlease
    rw [purge_writer.mpr ⟨hlease.held, hlease.unexpired⟩] at hnone
    cases hnone
  · rename_i writer hwriter
    obtain ⟨hheld, hunexpired⟩ := purge_writer.mp hwriter
    split
    · rename_i hstale
      refine .inr ⟨_, rfl, rfl, ?_⟩
      intro lease hlease
      rw [hlease.held] at hheld
      cases hheld
      have hmatches := matchesFence_iff.mpr
        ⟨hlease.epoch, hlease.generation, hlease.principal, hlease.connection⟩
      rw [hmatches] at hstale
      cases hstale
    · rename_i hmatches
      rw [Bool.not_eq_true', Bool.not_eq_false] at hmatches
      obtain ⟨hepoch, hgen, hprincipal, hcnx⟩ := matchesFence_iff.mp hmatches
      split
      · exact .inr ⟨_, rfl, rfl, fun _ _ => rfl⟩
      rename_i hnew
      rw [Bool.not_eq_true] at hnew
      refine .inl ⟨writer, ⟨hheld, hunexpired, hepoch, hgen, hprincipal, hcnx⟩,
        hnew, ?_, congrArg Prod.snd (renewLease_kept _ _ _)⟩
      unfold renewLease
      simp only [hwriter]
      rfl

section

variable (control : TerminalControlRegistry)

theorem authorizeTerminal_advances (entry : TerminalEntry)
    (principalId connectionId : String) (supplied : Option TerminalMutationFence) :
    Advances control (authorizeTerminal control entry principalId connectionId supplied).2 := by
  unfold authorizeTerminal
  cases supplied with
  | some fence => exact LeaseCall.run_advances control (.authorizeMutation _)
  | none =>
    have hlist := LeaseCall.run_advances control (.list entry.id)
    simp only
    split
    · rename_i error after hres
      rw [LeaseCall.run, hres] at hlist
      exact hlist
    · rename_i leases after hres
      rw [LeaseCall.run, hres] at hlist
      split
      · exact hlist
      · exact hlist.trans (LeaseCall.run_advances after (.acquire _))

theorem authorizeTerminal_same (entry : TerminalEntry) (principalId connectionId : String) :
    SameField kept control (authorizeTerminal control entry principalId connectionId none).2 := by
  have hlist : SameField kept control (control.list entry.id).2 := inspect_same control entry.id _
  unfold authorizeTerminal
  simp only
  split
  · rename_i error after hres
    rw [hres] at hlist
    exact hlist
  · rename_i leases after hres
    rw [hres] at hlist
    split
    · exact hlist
    · exact hlist.trans (@LeaseCall.run_same after (.acquire _) trivial)

/-- A decision on a fence: a new command on a lease that holds, or an error,
which is the duplicate one if the lease holds. -/
theorem authorize_fence (entry : TerminalEntry)
    (principalId connectionId : String) (fence : TerminalMutationFence) :
    (∃ state lease state', control.terminals.get? fence.terminalId = some state ∧
        FenceHolds state control.terms.now (fence.asCaller principalId connectionId) lease ∧
        state.commandIds.contains fence.commandId = false ∧
        state'.commandIds = acceptCommand state.commandIds fence.commandId control.terms.now ∧
        (authorizeTerminal control entry principalId connectionId (some fence)).1.isOk = true ∧
        (authorizeTerminal control entry principalId connectionId (some fence)).2.terminals =
          control.terminals.insert fence.terminalId state') ∨
      (∃ error,
        (authorizeTerminal control entry principalId connectionId (some fence)).1 =
          .error (.control error) ∧
        SameCommands control
          (authorizeTerminal control entry principalId connectionId (some fence)).2 ∧
        ∀ state lease, control.terminals.get? fence.terminalId = some state →
          state.terminalEpoch = fence.terminalEpoch →
          FenceHolds state control.terms.now (fence.asCaller principalId connectionId) lease →
          error.code = .commandDuplicate) := by
  have hauth : authorizeTerminal control entry principalId connectionId (some fence) =
      (control.tick.operate fence.terminalId fence.terminalEpoch fun state =>
        state.authorizeMutation (fence.asCaller principalId connectionId)
          control.terms).map liftControl id := rfl
  rw [hauth]
  unfold TerminalControlRegistry.operate
  cases hstate : control.tick.stateForEpoch fence.terminalId fence.terminalEpoch with
  | error error =>
    refine .inr ⟨error, rfl, fun _ => rfl, ?_⟩
    intro state lease hget hepoch _
    have hget' : control.tick.terminals.get? fence.terminalId = some state := hget
    simp [TerminalControlRegistry.stateForEpoch, TerminalControlRegistry.stateOf, hget',
      hepoch] at hstate
  | ok state =>
    have hget := stateForEpoch_ok hstate
    rcases authorizeMutation_cases state (fence.asCaller principalId connectionId)
        control.terms with ⟨lease, hholds, hnew, hok, hacc⟩ | ⟨error, herror, hsame, hcode⟩
    · refine .inl ⟨state, lease, _, hget, hholds, hnew, hacc, ?_, rfl⟩
      obtain ⟨result, hres⟩ : ∃ result, (state.authorizeMutation
          (fence.asCaller principalId connectionId) control.terms).result = .ok result := by
        cases hres : (state.authorizeMutation (fence.asCaller principalId connectionId)
            control.terms).result with
        | ok result => exact ⟨result, rfl⟩
        | error error =>
          rw [hres] at hok
          cases hok
      simp only [Prod.map, hres, liftControl]
      rfl
    · refine .inr ⟨error, ?_, commit_same hget hsame, ?_⟩
      · simp only [Prod.map, herror, liftControl]
      · intro found lease hfound _ hholds
        rw [show control.terminals.get? fence.terminalId = some state from hget] at hfound
        cases hfound
        exact hcode lease hholds

end

theorem acceptedIds_append (entry : TerminalEntry) (log : List Decision) (decision : Decision) :
    acceptedIds entry (log ++ [decision]) =
      acceptedIds entry log ++ (decision.accepted entry).toList := by
  unfold acceptedIds
  rw [filterMap_append]
  cases hid : decision.accepted entry <;> simp [hid]

/-- After a decision the registry remembers what the log accepted. -/
theorem Registered.decide (h : Registered entry log control) (supplied : Bool) (caller : Caller) :
    Registered entry (log ++ [⟨supplied, caller, control⟩])
      (Decision.outcome entry ⟨supplied, caller, control⟩).2 := by
  have hadvances := authorizeTerminal_advances control entry caller.principalId
    caller.connectionId caller.fence
  have hrefused : (Decision.accepted entry ⟨supplied, caller, control⟩) = none →
      SameCommands control (Decision.outcome entry ⟨supplied, caller, control⟩).2 →
      Registered entry (log ++ [⟨supplied, caller, control⟩])
        (Decision.outcome entry ⟨supplied, caller, control⟩).2 := by
    intro hnone hsame
    have hquiet := h.quiet hsame hadvances
    refine ⟨hquiet.alone, hquiet.sound, ?_⟩
    rw [acceptedIds_append, hnone, toList_none, append_nil]
    exact hquiet.recent
  cases hfence : caller.fence with
  | none =>
    apply hrefused
    · simp [Decision.accepted, hfence]
    · unfold Decision.outcome
      rw [hfence]
      exact (authorizeTerminal_same control entry _ _).commands
  | some fence =>
    have houtcome : Decision.outcome entry ⟨supplied, caller, control⟩ =
        authorizeTerminal control entry caller.principalId caller.connectionId (some fence) := by
      rw [← hfence]
      rfl
    rcases authorize_fence control entry caller.principalId caller.connectionId fence with
      ⟨state, lease, state', hstate, -, hnew, hacc, hok, hterms⟩ |
      ⟨error, herror, hsame, -⟩
    · have hid : fence.terminalId = entry.id := by
        by_contra hother
        rw [h.alone _ hother] at hstate
        cases hstate
      have hcommand : Decision.accepted entry ⟨supplied, caller, control⟩ =
          some fence.commandId := by
        simp [Decision.accepted, Decision.granted, houtcome, hok, hfence]
      rw [hid] at hstate hterms
      constructor
      · intro terminalId hother
        rw [houtcome, hterms, get?_insert, if_neg hother]
        exact h.alone terminalId hother
      · exact fun terminalId found hfound => hadvances.sound h.sound hfound
      · intro found hfound
        rw [houtcome, hterms, get?_insert, if_pos rfl] at hfound
        cases hfound
        rw [hacc, acceptCommand_entries hnew, h.recent state hstate, recentIds_append,
          acceptedIds_append, hcommand, toList_some]
    · apply hrefused
      · simp [Decision.accepted, Decision.granted, houtcome, herror, Except.isOk, Except.toBool]
      · rw [houtcome]
        exact hsame

end Authorized

/-! ## Runs of the owner -/

/-- A command, and whether the request behind it supplied a fence argument. -/
structure Order where
  supplied : Bool
  command : TerminalCommand

def Order.decision (order : Order) (control : TerminalControlRegistry) : Option Decision :=
  order.command.caller.map fun caller => ⟨order.supplied, caller, control⟩

/-- What comes to the owner: a request over the wire, or a command of the host. -/
inductive Incoming where
  | request (mutation : MutationRequest)
  | command (direct : TerminalCommand)

def Incoming.order (decodeBase64 : String → Except String (List UInt8)) (entry : TerminalEntry) :
    Incoming → Option Order
  | .request mutation =>
    match dispatchMutation decodeBase64 entry mutation with
    | .ok sent => some ⟨mutation.fenceArgument.isSome, sent⟩
    | .error _ => none
  | .command direct => some ⟨(direct.caller.bind Caller.fence).isSome, direct⟩

inductive OwnerAction where
  | commands (incoming : List Incoming)
  | output (output : ProcessOutput)
  | exit (exit : ProcessExit)

section Runs

variable (vt : Vt100 Screen) (env : Surroundings)
  (decodeBase64 : String → Except String (List UInt8)) (entry : TerminalEntry)

/-- The authorisations that commands lead to, until one of them stops the owner. -/
def decisions (owner : TerminalOwner Screen) : List Order → List Decision
  | [] => []
  | order :: rest =>
    let turn := handleTerminalCommand vt env owner order.command
    (order.decision owner.control).toList ++
      if turn.continues then decisions turn.owner rest else []

/-- The owner, whether it still runs, and its log. -/
structure FenceWorld (Screen : Type) where
  owner : TerminalOwner Screen
  running : Bool
  log : List Decision

def FenceWorld.take (world : FenceWorld Screen) (orders : List Order) : FenceWorld Screen :=
  let turn := handleTerminalCommandBatch vt env world.owner (orders.map Order.command)
  ⟨turn.owner, turn.continues, world.log ++ decisions vt env world.owner orders⟩

def fenceSystem : System (FenceWorld Screen) OwnerAction where
  initial world := ∃ cols rows theme recorder clock makeId iso,
    world = ⟨.start entry (.new cols rows theme recorder) (.new clock makeId iso),
      ((TerminalControlRegistry.new clock makeId iso).registerTerminal entry.id
        entry.terminalEpoch).1.isOk, []⟩
  step world action :=
    if world.running then
      match action with
      | .commands incoming =>
        some (world.take vt env (incoming.filterMap (Incoming.order decodeBase64 entry)))
      | .output output =>
        some { world with owner := processTerminalOutput vt env world.owner output }
      | .exit exit => some { world with owner := observeTerminalExit vt env world.owner exit }
    else none

def FencesDecode (_world : FenceWorld Screen) (action : OwnerAction) : Prop :=
  match action with
  | .commands incoming => ∀ request, .request request ∈ incoming →
      (Incoming.order decodeBase64 entry (.request request)).isSome = true →
      ∀ json, request.fenceArgument = some json → decodeFence json ≠ none
  | _ => True

end Runs

variable {decodeBase64 : String → Except String (List UInt8)}

section Log

variable {owner : TerminalOwner Screen}

theorem handle_refused {command : TerminalCommand} {caller : Caller}
    (hcaller : command.caller = some caller) {error : TerminalError}
    {control : TerminalControlRegistry}
    (hrefused : authorizeTerminal owner.control owner.entry caller.principalId
      caller.connectionId caller.fence = (.error error, control)) :
    (handleTerminalCommand vt env owner command).owner = { owner with control := control } := by
  cases command <;> simp only [TerminalCommand.caller, reduceCtorEq, Option.some.injEq] at hcaller
    <;> subst hcaller <;>
    simp only [handleTerminalCommand, TerminalOwner.leaseReply, TerminalOwner.replies, hrefused]

theorem handle_entry (owner : TerminalOwner Screen) (command : TerminalCommand) :
    (handleTerminalCommand vt env owner command).owner.entry = owner.entry := by
  cases command with
  | resize cols rows reply => exact resizeTerminal_entry _ _ _
  | authorizeAndWrite principalId connectionId fence data reply =>
    simp only [handleTerminalCommand]
    split <;> rfl
  | authorizeAndResize principalId connectionId fence cols rows reply =>
    simp only [handleTerminalCommand]
    split
    · rfl
    · exact resizeTerminal_entry _ _ _
  | authorizeAndDispose principalId connectionId fence reply =>
    simp only [handleTerminalCommand]
    split
    · rfl
    · split <;> rfl
  | _ => rfl

/-- One command, with the decision it makes. -/
theorem Registered.handle (h : Registered owner.entry log owner.control) (order : Order) :
    Registered owner.entry (log ++ (order.decision owner.control).toList)
      (handleTerminalCommand vt env owner order.command).owner.control := by
  have hquiet : ∀ call : LeaseCall, call.KeepsCommands →
      Registered owner.entry (log ++ []) (call.run owner.control).2 := by
    intro call hkeeps
    rw [append_nil]
    exact h.quiet (LeaseCall.run_same _ hkeeps).commands (LeaseCall.run_advances _ call)
  have hsame : Registered owner.entry (log ++ []) owner.control := by
    rw [append_nil]
    exact h
  obtain ⟨supplied, command⟩ := order
  cases command with
  | authorize principalId connectionId fence reply => exact h.decide supplied _
  | authorizeAndWrite principalId connectionId fence data reply
  | authorizeAndResize principalId connectionId fence cols rows reply
  | authorizeAndDispose principalId connectionId fence reply =>
    have hdecide := h.decide supplied ⟨principalId, connectionId, fence⟩
    simp only [handleTerminalCommand]
    split <;> rename_i hauth <;> simp only [Decision.outcome, hauth] at hdecide
    · exact hdecide
    · first
      | exact hdecide
      | simp only [TerminalOwner.replies, resizeTerminal_control]; exact hdecide
      | split <;> exact hdecide.unregister _ _
  | dispose reply => exact hsame.unregister _ _
  | acquireLease request reply => exact hquiet (.acquire request) trivial
  | renewLease leaseId principalId connectionId reply =>
    exact hquiet (.renew _ _ leaseId principalId connectionId) trivial
  | releaseLease leaseId principalId connectionId reply =>
    exact hquiet (.release _ _ leaseId principalId connectionId) trivial
  | takeover principalId connectionId reply =>
    exact hquiet (.forceTakeover _ _ principalId connectionId) trivial
  | transfer leaseId principalId connectionId targetConnectionId reply =>
    exact hquiet (.transfer _ _ leaseId principalId connectionId principalId
      targetConnectionId) trivial
  | listLeases reply => exact hquiet (.list _) trivial
  | releaseConnection connectionId => exact hquiet (.releaseConnection connectionId) trivial
  | resize cols rows reply =>
    simp only [handleTerminalCommand, TerminalOwner.replies, resizeTerminal_control]
    exact hsame
  | _ => exact hsame

/-- Each decision is made against a registry that remembers the log before it. -/
def LogRegistered (entry : TerminalEntry) (log : List Decision) : Prop :=
  ∀ before decision after, log = before ++ decision :: after →
    Registered entry before decision.before

theorem LogRegistered.snoc {decision : Decision} (h : LogRegistered entry log)
    (hregd : Registered entry log decision.before) : LogRegistered entry (log ++ [decision]) := by
  intro before later after heq
  rcases append_eq_append_iff.mp heq with ⟨rest, hbef, hrest⟩ | ⟨rest, hlog, hrest⟩
  · obtain ⟨hnil, hlast⟩ : rest = [] ∧ decision = later := by
      cases rest with
      | nil =>
        cases hrest
        exact ⟨rfl, rfl⟩
      | cons first more => simp at hrest
    rw [hbef, hnil, append_nil, ← hlast]
    exact hregd
  · cases rest with
    | nil =>
      cases hrest
      rw [append_nil] at hlog
      exact hlog ▸ hregd
    | cons first more =>
      cases hrest
      exact h before later more hlog

theorem handleAll_registered (orders : List Order) (h : Registered owner.entry log owner.control)
    (hlog : LogRegistered owner.entry log) :
    Registered owner.entry (log ++ decisions vt env owner orders)
        (handleTerminalCommands vt env owner (orders.map Order.command)).owner.control ∧
      LogRegistered owner.entry (log ++ decisions vt env owner orders) := by
  induction orders generalizing owner log with
  | nil =>
    rw [decisions, append_nil]
    exact ⟨h, hlog⟩
  | cons order rest ih =>
    have hturn := @Registered.handle _ vt env _ _ h order
    have hlog' : LogRegistered owner.entry (log ++ (order.decision owner.control).toList) := by
      unfold Order.decision
      cases order.command.caller with
      | none => simpa using hlog
      | some caller => exact hlog.snoc h
    rw [decisions, map_cons, handleTerminalCommands, ← append_assoc]
    split
    · have hentry := @handle_entry _ vt env owner order.command
      rw [← hentry] at hturn hlog' ⊢
      exact ih hturn hlog'
    · rw [append_nil]
      exact ⟨hturn, hlog'⟩

end Log

/-! ## Accepted ids -/

section Accepted

variable {log before mid after : List Decision} {decision later : Decision} {id : String}

theorem mem_recentIds {pre window : List String} (hwindow : window.length ≤ maxCommandIds)
    (hid : id ∈ window) : id ∈ recentIds (pre ++ window) := by
  have hkept : (pre ++ window).length - maxCommandIds ≤ pre.length := by
    rw [length_append]
    omega
  unfold recentIds
  rw [drop_append_of_le_length hkept]
  exact mem_append_right _ hid

theorem remembered_refused {fence : TerminalMutationFence}
    (h : Registered entry before decision.before) (hfence : decision.caller.fence = some fence)
    (hrecent : fence.commandId ∈ recentIds (acceptedIds entry before)) :
    ∃ error, (decision.outcome entry).1 = .error (.control error) ∧
      ∀ state lease, decision.before.terminals.get? fence.terminalId = some state →
        state.terminalEpoch = fence.terminalEpoch →
        FenceHolds state decision.before.terms.now
          (fence.asCaller decision.caller.principalId decision.caller.connectionId) lease →
        error.code = .commandDuplicate := by
  unfold Decision.outcome
  rw [hfence]
  rcases authorize_fence decision.before entry decision.caller.principalId
      decision.caller.connectionId fence with
    ⟨state, lease, state', hstate, -, hnew, -⟩ | ⟨error, herror, -, hcode⟩
  · have hid : fence.terminalId = entry.id := by
      by_contra hother
      rw [h.alone _ hother] at hstate
      cases hstate
    rw [← h.recent state (hid ▸ hstate)] at hrecent
    obtain ⟨⟨key, stamp⟩, hmem, hkey⟩ := List.mem_map.mp hrecent
    have hknown : state.commandIds.contains fence.commandId = true :=
      contains_iff.mpr ⟨stamp, get?_eq_some.mpr (hkey ▸ hmem)⟩
    rw [hknown] at hnew
    cases hnew
  · exact ⟨error, herror, hcode⟩

theorem accepted_fence (hacc : decision.accepted entry = some id) : decision.granted entry = true ∧
      ∃ fence, decision.caller.fence = some fence ∧ fence.commandId = id := by
  unfold Decision.accepted at hacc
  split at hacc
  · rename_i hgrant
    exact ⟨hgrant, map_eq_some_iff.mp hacc⟩
  · cases hacc

theorem accepted_new (h : Registered entry before decision.before)
    (hacc : decision.accepted entry = some id) : id ∉ recentIds (acceptedIds entry before) := by
  intro hrecent
  obtain ⟨hgrant, fence, hfence, rfl⟩ := accepted_fence hacc
  obtain ⟨error, herror, -⟩ := remembered_refused h hfence hrecent
  unfold Decision.granted at hgrant
  rw [herror] at hgrant
  cases hgrant

theorem window_nodup (h : LogRegistered entry log) {pre window post : List String}
    (hids : acceptedIds entry log = pre ++ window ++ post)
    (hwindow : window.length ≤ maxCommandIds + 1) : window.Nodup := by
  induction window using List.reverseRecOn generalizing post with
  | nil => exact nodup_nil
  | append_singleton earlier id ih =>
    rw [length_append, length_singleton] at hwindow
    have hearlier : earlier.Nodup := by
      refine @ih (id :: post) ?_ ?_
      · rw [hids]
        simp
      · omega
    have hsplit : acceptedIds entry log = (pre ++ earlier) ++ id :: post := by
      rw [hids]
      simp
    obtain ⟨front, back, hlog, hfront, hback⟩ := filterMap_eq_append_iff.mp hsplit
    obtain ⟨quiet, decision, rest, hrest, hquiet, hid, -⟩ := filterMap_eq_cons_iff.mp hback
    have hregd := h (front ++ quiet) decision rest (by rw [hlog, hrest, append_assoc])
    have hbef : acceptedIds entry (front ++ quiet) = pre ++ earlier := by
      unfold acceptedIds
      rw [filterMap_append, hfront, filterMap_eq_nil_iff.mpr hquiet, append_nil]
    have hnew := accepted_new hregd hid
    rw [hbef] at hnew
    have hfresh : id ∉ earlier := fun hmem => hnew (mem_recentIds (by omega) hmem)
    exact hearlier.append (nodup_singleton id) (disjoint_singleton.mpr hfresh)

theorem accepted_remembered (h : LogRegistered entry log)
    (hlog : log = before ++ decision :: (mid ++ later :: after))
    (hacc : decision.accepted entry = some id)
    (hothers : (acceptedIds entry mid).dedup.length < maxCommandIds) :
    id ∈ recentIds (acceptedIds entry (before ++ decision :: mid)) := by
  have hids : acceptedIds entry (before ++ decision :: mid) =
      acceptedIds entry before ++ (id :: acceptedIds entry mid) := by
    unfold acceptedIds
    rw [filterMap_append, filterMap_cons_some hacc]
  have hfew : (acceptedIds entry mid).length < maxCommandIds := by
    by_contra hmany
    have hall : acceptedIds entry log = (acceptedIds entry before ++ [id]) ++
        (acceptedIds entry mid).take maxCommandIds ++
        ((acceptedIds entry mid).drop maxCommandIds ++ acceptedIds entry (later :: after)) := by
      have hsplit : acceptedIds entry (mid ++ later :: after) =
          (acceptedIds entry mid).take maxCommandIds ++
            ((acceptedIds entry mid).drop maxCommandIds ++ acceptedIds entry (later :: after)) := by
        rw [← append_assoc, take_append_drop]
        exact filterMap_append
      calc acceptedIds entry log
          = acceptedIds entry before ++ id :: acceptedIds entry (mid ++ later :: after) := by
            rw [hlog]
            unfold acceptedIds
            rw [filterMap_append, filterMap_cons_some hacc]
        _ = _ := by
            rw [hsplit]
            simp
    have hnodup := window_nodup h hall (by rw [length_take]; omega)
    have hsub : ((acceptedIds entry mid).take maxCommandIds).length ≤
        (acceptedIds entry mid).dedup.length := by
      apply List.Subperm.length_le
      apply subperm_of_subset hnodup
      exact fun other hother => mem_dedup.mpr (mem_of_mem_take hother)
    rw [length_take] at hsub
    omega
  rw [hids]
  exact mem_recentIds (by rw [length_cons]; omega) (mem_cons_self ..)

end Accepted

/-! ## The invariant of a run -/

section Safety

variable {world world' : FenceWorld Screen}

structure FenceInvariant (entry : TerminalEntry) (world : FenceWorld Screen) : Prop where
  owns : world.owner.entry = entry
  registered : Registered entry world.log world.owner.control
  log : LogRegistered entry world.log
  decoded : ∀ decision ∈ world.log, decision.supplied = true →
    decision.caller.fence.isSome = true

theorem registered_start (clock : Nat → Int) (makeId : Nat → String) (iso : Int → String) :
    Registered entry []
      ((TerminalControlRegistry.new clock makeId iso).registerTerminal entry.id
        entry.terminalEpoch).2 := by
  have hstart : ∀ terminalId,
      (TerminalControlRegistry.new clock makeId iso).terminals.get? terminalId = none :=
    fun _ => rfl
  unfold TerminalControlRegistry.registerTerminal
  split
  · refine ⟨fun _ _ => hstart _, ?_, ?_⟩
    · intro terminalId state hstate
      rw [hstart] at hstate
      cases hstate
    · intro state hstate
      rw [hstart] at hstate
      cases hstate
  · rw [hstart]
    have hget : ∀ terminalId state,
        ((TerminalControlRegistry.new clock makeId iso).commit entry.id
          (.registered entry.terminalEpoch) false).terminals.get? terminalId = some state →
        terminalId = entry.id ∧ state = .registered entry.terminalEpoch := by
      intro terminalId state hstate
      simp only [TerminalControlRegistry.commit, get?_insert, hstart] at hstate
      split at hstate
      · rename_i hid
        cases hstate
        exact ⟨hid, rfl⟩
      · cases hstate
    constructor
    · intro terminalId hother
      apply eq_none_iff_forall_ne_some.mpr
      intro state hstate
      exact hother (hget terminalId state hstate).1
    · intro terminalId state hstate
      rw [(hget terminalId state hstate).2]
      exact sound_registered _ _ _
    · intro state hstate
      rw [(hget entry.id state hstate).2]
      exact drop_nil.symm

theorem output_control (owner : TerminalOwner Screen) (output : ProcessOutput) :
    (processTerminalOutput vt env owner output).entry = owner.entry ∧
      (processTerminalOutput vt env owner output).control = owner.control := by
  unfold processTerminalOutput
  split <;> exact ⟨rfl, rfl⟩

theorem exit_control (owner : TerminalOwner Screen) (exit : ProcessExit) :
    (observeTerminalExit vt env owner exit).entry = owner.entry ∧
      (observeTerminalExit vt env owner exit).control = owner.control := by
  unfold observeTerminalExit
  split <;> exact ⟨rfl, rfl⟩

def Order.Decoded (order : Order) : Prop :=
  ∀ caller, order.command.caller = some caller → order.supplied = true →
    caller.fence.isSome = true

theorem incoming_decoded {incoming : Incoming} {order : Order}
    (hdecodes : ∀ request json, incoming = .request request → request.fenceArgument = some json →
      decodeFence json ≠ none)
    (horder : incoming.order decodeBase64 entry = some order) : order.Decoded := by
  intro caller hcaller hsupplied
  cases incoming with
  | request mutation =>
    unfold Incoming.order at horder
    simp only at horder
    split at horder
    · rename_i command hdispatch
      cases horder
      rw [dispatch_caller hdispatch] at hcaller
      cases hcaller
      obtain ⟨json, hjson⟩ := isSome_iff_exists.mp hsupplied
      have hfence := hdecodes mutation json rfl hjson
      simp only [MutationRequest.caller, mutationFence, hjson, bind_some]
      exact isSome_iff_ne_none.mpr hfence
    · cases horder
  | command direct =>
    cases horder
    simpa [hcaller] using hsupplied

theorem decisions_decoded (orders : List Order) (hdecoded : ∀ order ∈ orders, order.Decoded)
    (owner : TerminalOwner Screen) {decision : Decision}
    (hmem : decision ∈ decisions vt env owner orders) (hsupplied : decision.supplied = true) :
    decision.caller.fence.isSome = true := by
  induction orders generalizing owner with
  | nil => cases hmem
  | cons order rest ih =>
    unfold decisions at hmem
    rcases mem_append.mp hmem with hfirst | hrest
    · obtain ⟨caller, hcaller, rfl⟩ := map_eq_some_iff.mp (mem_toList.mp hfirst)
      exact hdecoded order mem_cons_self caller hcaller hsupplied
    split at hrest
    · exact ih (fun later hlater => hdecoded later (mem_cons_of_mem order hlater)) _ hrest
    · cases hrest

theorem handleAll_entry (commands : List TerminalCommand) (owner : TerminalOwner Screen) :
    (handleTerminalCommands vt env owner commands).owner.entry = owner.entry := by
  induction commands generalizing owner with
  | nil => rfl
  | cons command rest ih =>
    unfold handleTerminalCommands
    simp only
    split
    · exact (ih _).trans (handle_entry owner command)
    · exact handle_entry owner command

theorem FenceInvariant.take (h : FenceInvariant entry world) (orders : List Order)
    (hdecoded : ∀ order ∈ orders, order.Decoded) :
    FenceInvariant entry (world.take vt env orders) := by
  have hbatch := @batch_steered _ vt env world.owner (orders.map Order.command)
  have hentry : (handleTerminalCommandBatch vt env world.owner
      (orders.map Order.command)).owner.entry = entry := by
    rw [← hbatch.owner.entry, handleAll_entry]
    exact h.owns
  have hstart := h.registered
  have hlog := h.log
  rw [← h.owns] at hstart hlog
  have hall := @handleAll_registered _ vt env _ _ orders hstart hlog
  rw [hbatch.owner.control, h.owns] at hall
  refine ⟨hentry, hall.1, hall.2, ?_⟩
  intro decision hmem hsupplied
  rcases mem_append.mp hmem with hold | hnew
  · exact h.decoded decision hold hsupplied
  · exact decisions_decoded orders hdecoded world.owner hnew hsupplied

theorem fence_step {action : OwnerAction} (h : FenceInvariant entry world)
    (hallow : FencesDecode decodeBase64 entry world action)
    (hstep : (fenceSystem vt env decodeBase64 entry).step world action = some world') :
    FenceInvariant entry world' := by
  obtain ⟨-, hstep⟩ := ite_none_right_eq_some.mp hstep
  cases action with
  | commands incoming =>
    cases hstep
    apply h.take
    intro order hmem
    obtain ⟨one, hone, horder⟩ := mem_filterMap.mp hmem
    apply incoming_decoded _ horder
    rintro request json rfl hjson
    exact hallow request hone (by rw [horder]; rfl) json hjson
  | output output =>
    cases hstep
    obtain ⟨hentry, hctl⟩ := @output_control _ vt env world.owner output
    exact ⟨hentry.trans h.owns, by rw [hctl]; exact h.registered, h.log, h.decoded⟩
  | exit exit =>
    cases hstep
    obtain ⟨hentry, hctl⟩ := @exit_control _ vt env world.owner exit
    exact ⟨hentry.trans h.owns, by rw [hctl]; exact h.registered, h.log, h.decoded⟩

theorem fence_reachable
    (hrun : (fenceSystem vt env decodeBase64 entry).Run (FencesDecode decodeBase64 entry) world) :
    FenceInvariant entry world := by
  apply hrun.invariant
  · rintro start ⟨cols, rows, theme, recorder, clock, makeId, iso, rfl⟩
    refine ⟨rfl, registered_start clock makeId iso, ?_, ?_⟩
    · intro before decision after heq
      simp at heq
    · intro decision hmem
      cases hmem
  · exact fun _ _ _ h hallow hstep => fence_step h hallow hstep

end Safety

/-! ## At most once and unforgeable -/

/-- What the log of an owner shows: a granted fence names an unexpired writer
lease of the connection that called, an accepted id is refused while fewer
than 1024 others have been accepted, and a fence that was supplied was checked. -/
structure FencesSafe (entry : TerminalEntry) (log : List Decision) : Prop where
  unforgeable : ∀ decision ∈ log, ∀ fence, decision.caller.fence = some fence →
    decision.granted entry = true → fence.terminalId = entry.id ∧
      ∃ state lease, decision.before.terminals.get? entry.id = some state ∧
        lease.leaseId = fence.leaseId ∧
        FenceHolds state decision.before.terms.now
          (fence.asCaller decision.caller.principalId decision.caller.connectionId) lease
  once : ∀ before decision mid later after id fence,
    log = before ++ decision :: (mid ++ later :: after) → decision.accepted entry = some id →
    later.caller.fence = some fence → fence.commandId = id →
    (acceptedIds entry mid).dedup.length < 1024 →
    ∃ error, (later.outcome entry).1 = .error (.control error) ∧
      ∀ state lease, later.before.terminals.get? fence.terminalId = some state →
        state.terminalEpoch = fence.terminalEpoch →
        FenceHolds state later.before.terms.now
          (fence.asCaller later.caller.principalId later.caller.connectionId) lease →
        error.code = .commandDuplicate
  checked : ∀ decision ∈ log, decision.supplied = true → decision.granted entry = true →
    decision.caller.fence.isSome = true

/-- A mutation that is not granted leaves the terminal and its PTY alone, by
itself and in a group. -/
structure AppliesGranted {Screen : Type} (vt : Vt100 Screen) (env : Surroundings) : Prop where
  command : ∀ (owner : TerminalOwner Screen) command caller supplied,
    command.caller = some caller →
    Decision.granted owner.entry ⟨supplied, caller, owner.control⟩ = false →
    (handleTerminalCommand vt env owner command).owner =
      { owner with control := (Decision.outcome owner.entry ⟨supplied, caller, owner.control⟩).2 }
  group : ∀ (α : Type) entry (request : Grouped α) rest control caller supplied,
    request.caller = some caller →
    Decision.granted entry ⟨supplied, caller, control⟩ = false →
    (authorizeGroup entry (request :: rest) control).payloads =
      (authorizeGroup entry rest (Decision.outcome entry ⟨supplied, caller, control⟩).2).payloads

section Safe

theorem applies_granted (vt : Vt100 Screen) (env : Surroundings) : AppliesGranted vt env where
  command owner command caller supplied hcaller hrefused := by
    cases hauth : authorizeTerminal owner.control owner.entry caller.principalId
        caller.connectionId caller.fence with
    | mk result control =>
      cases result with
      | ok lease =>
        simp [Decision.granted, Decision.outcome, hauth, Except.isOk, Except.toBool] at hrefused
      | error error =>
        rw [handle_refused hcaller hauth]
        simp only [Decision.outcome, hauth]
  group α entry request rest control caller supplied hcaller hrefused := by
    cases hauth : authorizeTerminal control entry caller.principalId
        caller.connectionId caller.fence with
    | mk result control' =>
      cases result with
      | ok lease =>
        simp [Decision.granted, Decision.outcome, hauth, Except.isOk, Except.toBool] at hrefused
      | error error =>
        simp only [authorizeGroup, hcaller, hauth, Decision.outcome]
        rfl

theorem FenceInvariant.safe {world : FenceWorld Screen} (h : FenceInvariant entry world) :
    FencesSafe entry world.log where
  unforgeable decision hmem fence hfence hgrant := by
    obtain ⟨before, after, hlog⟩ := append_of_mem hmem
    have hregd := h.log before decision after hlog
    unfold Decision.granted Decision.outcome at hgrant
    rw [hfence] at hgrant
    rcases authorize_fence decision.before entry decision.caller.principalId
        decision.caller.connectionId fence with
      ⟨state, lease, state', hstate, hholds, -⟩ | ⟨error, herror, -⟩
    · have hid : fence.terminalId = entry.id := by
        by_contra hother
        rw [hregd.alone _ hother] at hstate
        cases hstate
      rw [hid] at hstate
      have hkey := (hregd.sound entry.id state hstate).writers
      refine ⟨hid, state, lease, hstate, ?_, hholds⟩
      exact (hkey.kept _ _ hholds.held).1
    · rw [herror] at hgrant
      cases hgrant
  once before decision mid later after id fence hlog hacc hfence hid hothers := by
    have hrecent := accepted_remembered h.log hlog hacc hothers
    have hregd := h.log (before ++ decision :: mid) later after (by rw [hlog]; simp)
    rw [← hid] at hrecent
    exact remembered_refused hregd hfence hrecent
  checked decision hmem hsupplied _ := h.decoded decision hmem hsupplied

/-- As long as every fence that is supplied decodes. -/
theorem fences_safe {world : FenceWorld Screen}
    (hrun : (fenceSystem vt env decodeBase64 entry).Run (FencesDecode decodeBase64 entry) world) :
    FencesSafe entry world.log ∧ AppliesGranted vt env :=
  ⟨(fence_reachable hrun).safe, applies_granted vt env⟩

end Safe

def sampleWrite (fence : List Json) : Incoming :=
  .request ⟨⟨"p", "c", true⟩, .write, [.string "t", .string "x"] ++ fence, 0⟩

def sampleWorld : FenceWorld Unit := ⟨sampleOwner, true, []⟩

def sampleFence : Json :=
  .object [("terminalId", .string "t"), ("terminalEpoch", .string "e"), ("leaseId", .string "lease-"),
    ("leaseGeneration", .number (.posInt 1)), ("principalId", .string "p"),
    ("connectionId", .string "c"), ("commandId", .string "k")]

/-- An object that is no fence is dropped, and the write is made without one. -/
theorem fence_dropped :
    ∃ world, (fenceSystem blankVt100 quietSurroundings (fun _ => .error "") sampleEntry).Reachable
        world ∧ ¬ FencesSafe sampleEntry world.log := by
  have hstart : (fenceSystem blankVt100 quietSurroundings (fun _ => .error "")
      sampleEntry).Reachable sampleWorld :=
    System.Run.start ⟨80, 24, defaultTheme, some (), _, _, _, rfl⟩
  refine ⟨_, @System.Run.next _ _ _ _ _ _ (.commands [sampleWrite [.object []]]) hstart trivial rfl,
    ?_⟩
  intro hsafe
  have hfence := hsafe.checked _ mem_cons_self (by decide) (by decide)
  revert hfence
  decide

def sampleBatch : List Incoming :=
  [sampleWrite [], sampleWrite [sampleFence], sampleWrite [sampleFence]]

theorem fences_safe_sample :
    ∃ world, (fenceSystem blankVt100 quietSurroundings (fun _ => .error "") sampleEntry).Run
        (FencesDecode (fun _ => .error "") sampleEntry) world ∧
      acceptedIds sampleEntry world.log = ["k"] ∧ world.log.length = 3 ∧
      FencesSafe sampleEntry world.log := by
  have hstart : (fenceSystem blankVt100 quietSurroundings (fun _ => .error "")
      sampleEntry).Run (FencesDecode (fun _ => .error "") sampleEntry) sampleWorld :=
    System.Run.start ⟨80, 24, defaultTheme, some (), _, _, _, rfl⟩
  have hdecode : FencesDecode (fun _ => .error "") sampleEntry sampleWorld
      (.commands sampleBatch) := by
    intro request hmem _ json hjson
    simp only [sampleBatch, sampleWrite, mem_cons, Incoming.request.injEq, not_mem_nil,
      or_false] at hmem
    rcases hmem with rfl | rfl | rfl
    · cases hjson
    · cases hjson
      decide
    · cases hjson
      decide
  have hrun := hstart.next hdecode rfl
  exact ⟨_, hrun, by decide, by decide, (fences_safe hrun).1⟩

end Yaade.Terminal

import Yaade.Runtime.Interleaving

/-!
Whether the exit of a process reaches the record that names it.
-/

namespace Yaade.Runtime

open Yaade.Library Yaade.Store Option PersistedState Function

def Host.Handled (host : Host) (ptyId : String) : Prop :=
  ptyId ∈ host.exited ∧ ptyId ∉ host.exits.map Prod.fst ∧
    ∀ update, host.listener = some update → update.ptyId ≠ ptyId

def Host.Stale (host : Host) (id : String) : Prop :=
  ∃ terminal ptyId, host.catalog.terminal? id = some terminal ∧
    terminal.status.isLive = true ∧ terminal.output.ptyId = some ptyId ∧ host.Handled ptyId

def LifecycleState.Relaunching (state : LifecycleState) (id : String) : Prop :=
  ∃ index request, state.requests index = some request ∧ request.phase.Launches id

def Converging (state : LifecycleState) : Prop :=
  ∀ id, state.toHost.Stale id → state.Relaunching id

/-- The races that lose an exit. A process is stored after its exit was worked
off; the write that ends a restart is refused while the record it leaves as
starting is stale; the listener's update is refused while the record is live
with the PTY that exited. In the last two cases a second restart of the record
that is under way still rescues it. -/
def ExitSafe (state : LifecycleState) : LifecycleAction → Prop
  | .advance index answers => ∀ request id revision edit,
      state.requests index = some request → request.Writes id revision edit →
        if fenceHolds answers.env state.catalog id revision then
          ∀ ptyId, request.phase = .holding id ptyId → ¬ state.toHost.Handled ptyId
        else request.phase.Launches id → state.toHost.Stale id →
          ∃ other request', other ≠ index ∧ state.requests other = some request' ∧
            request'.phase.Launches id
  | .record env => ∀ update, state.listener = some update →
      fenceHolds env state.catalog update.terminalId (some update.revision) = false →
        ∀ terminal, state.catalog.terminal? update.terminalId = some terminal →
          terminal.status.isLive = true → terminal.output.ptyId = some update.ptyId →
            state.Relaunching update.terminalId
  | _ => True

section Steps

variable {owner : String → Option String} {state : LifecycleState} {host : Host}
  {index : Nat} {request r' : Request}

theorem Host.Stale.quiet {catalog : PersistedState} {id : String}
    (h : Host.Stale { host with catalog } id) (hquiet : Quiet host.catalog catalog) :
    host.Stale id := by
  obtain ⟨terminal, ptyId, hterm, hlive, hpty, hhandled⟩ := h
  have hid := terminal?_id hterm
  rcases hquiet id terminal hterm with hnone | ⟨old, hold, hsame, hstatus⟩
  · rw [hnone] at hpty
    cases hpty
  rcases hstatus with hstatus | hended
  · exact ⟨old, ptyId, hid ▸ hold, hstatus ▸ hlive, hsame ▸ hpty, hhandled⟩
  · rw [hended] at hlive
    cases hlive

theorem LifecycleState.Relaunching.replace {id : String} (h : state.Relaunching id)
    (hr : state.requests index = some request)
    (hkeep : request.phase.Launches id → r'.phase.Launches id) : LifecycleState.Relaunching
      ⟨host, Function.update state.requests index (some r')⟩ id := by
  obtain ⟨i, r, hi, hlaun⟩ := h
  by_cases hindex : i = index
  · subst hindex
    obtain rfl : r = request := Option.some.inj (hi.symm.trans hr)
    exact ⟨i, r', update_self _ _ _, hkeep hlaun⟩
  · refine ⟨i, r, ?_, hlaun⟩
    rw [← hi]
    exact update_of_ne hindex _ _

theorem Host.Stale.putTerminal {terminal : MuxTerminal} {id : String}
    (h : Host.Stale { host with catalog := host.catalog.putTerminal terminal } id) :
    (id ≠ terminal.id ∧ host.Stale id) ∨ (id = terminal.id ∧ terminal.status.isLive = true ∧
      ∃ ptyId, terminal.output.ptyId = some ptyId ∧ host.Handled ptyId) := by
  obtain ⟨found, ptyId, hfound, hlive, hpty, hhandled⟩ := h
  simp only [terminal?_putTerminal] at hfound
  split at hfound
  · rename_i hid
    obtain ⟨_, -, rfl⟩ := map_eq_some_iff.mp hfound
    exact .inr ⟨hid, hlive, ptyId, hpty, hhandled⟩
  · rename_i hid
    exact .inl ⟨hid, found, ptyId, hfound, hlive, hpty, hhandled⟩

theorem Phase.Launches.written {phase : Phase} {id written : String} {revision : Option Nat}
    {edit : TerminalEdit} (h : phase.Launches id)
    (hmay : phase.mayStore (.updateTerminal written revision edit)) : written = id := by
  cases phase with
  | opening | chosen | stopped | settled => exact h.elim
  | launching | holding => exact hmay.1.trans h

theorem Phase.mayStore.live {phase : Phase} {written uuid now : String} {revision : Option Nat}
    {edit : TerminalEdit} {old terminal : MuxTerminal}
    (hmay : phase.mayStore (.updateTerminal written revision edit))
    (hterm : terminal = stampTerminal now (edit.apply uuid old))
    (hlive : terminal.status.isLive = true) :
    (phase.afterUpdate (.ok terminal)).Launches terminal.id ∨
      ∃ ptyId, phase = .holding written ptyId ∧ terminal.output.ptyId = some ptyId := by
  have hstatus : terminal.status = (edit.apply uuid old).status := by
    rw [hterm]
    rfl
  cases phase with
  | opening | settled => exact hmay.elim
  | chosen found | stopped found =>
    have hstarting : terminal.status = .starting := by
      rcases hmay.2 with rfl | rfl | rfl
      · exact hstatus
      · exact hstatus
      · rw [hstatus] at hlive
        cases hlive
    refine .inl ?_
    simp only [Phase.afterUpdate, hstarting, if_true]
    exact rfl
  | launching terminalId =>
    obtain ⟨-, error, rfl⟩ := hmay
    rw [hstatus] at hlive
    cases hlive
  | holding terminalId ptyId =>
    obtain ⟨rfl, pty, generations, rfl, rfl⟩ := hmay
    exact .inr ⟨pty.id, rfl, by rw [hterm]; rfl⟩

/-- One call of a request keeps every stale record on its way. -/
theorem Converging.advance (h : Converging state) (htracked : Tracked owner state)
    (hr : state.requests index = some request) {answers : Answers}
    (hfresh : answers.env.Fresh state.catalog) (hsafe : ExitSafe state (.advance index answers))
    (hstep : request.advance answers state.toHost = some (r', host)) :
    Converging ⟨host, Function.update state.requests index (some r')⟩ := by
  have hfoll := (htracked.requests index request hr).follows
  intro id hstale
  cases Request.advance_move htracked.sound hfresh hfoll hstep with
  | announce event k hrest hnext hphase
  | startRefused terminalId error hlaunching hanswer hphase
  | startOrphaned terminalId ptyId error hcreates hlaunching hanswer hunused hphase =>
    exact (h id hstale).replace hr fun hlaun => hphase ▸ hlaun
  | look catalog hquiet hsound hreads hphase =>
    exact (h id (hstale.quiet hquiet)).replace hr fun hlaun => hphase ▸ hlaun
  | choose catalog terminal hquiet hsound hopening hphase =>
    exact (h id (hstale.quiet hquiet)).replace hr fun hlaun => by
      rw [hopening] at hlaun
      exact hlaun.elim
  | giveUp catalog hquiet hsound hopening hphase =>
    exact (h id (hstale.quiet hquiet)).replace hr fun hlaun => by
      rw [hopening] at hlaun
      exact hlaun.elim
  | stop terminal ptyId hchosen hpty hanswer hphase =>
    exact (h id hstale).replace hr fun hlaun => by
      rw [hchosen] at hlaun
      exact hlaun.elim
  | stopMissing terminal hchosen hphase =>
    exact (h id hstale).replace hr fun hlaun => by
      rw [hchosen] at hlaun
      exact hlaun.elim
  | stopRefused terminal ptyId what killed hdisposes hchosen hpty hanswer hphase =>
    refine LifecycleState.Relaunching.replace (h id ?_) hr fun hlaun => by
      rw [hchosen] at hlaun
      exact hlaun.elim
    cases killed with
    | true | false => exact hstale
  | started terminalId pty hlaunching hunused hphase =>
    exact (h id hstale).replace hr fun hlaun => by
      rw [hlaunching] at hlaun
      rw [hphase]
      exact hlaun
  | update written revision edit old terminal hwrites hmay hfence hold hterm hphase =>
    have hsame : terminal.id = written := by
      rw [hterm, stampTerminal_id, TerminalEdit.apply_id, terminal?_id hold]
    rcases hstale.putTerminal with ⟨hother, hbef⟩ | ⟨rfl, hlive, ptyId, hpty, hhandled⟩
    · refine (h id hbef).replace hr fun hlaun => ?_
      exact absurd (hlaun.written hmay) (hsame ▸ hother.symm)
    rcases hmay.live hterm hlive with hlaun | ⟨ptyId', hholding, hnames⟩
    · refine ⟨index, r', update_self _ _ _, ?_⟩
      rw [hphase]
      exact hlaun
    · obtain rfl : ptyId = ptyId' := Option.some.inj (hpty.symm.trans hnames)
      have hcondition := hsafe request written revision edit hr hwrites
      rw [if_pos hfence] at hcondition
      exact absurd hhandled (hcondition ptyId hholding)
  | conflict written revision edit hwrites hmay hfence hphase =>
    obtain ⟨i, r, hi, hlaun⟩ := h id hstale
    by_cases hindex : i = index
    · subst hindex
      obtain rfl : r = request := Option.some.inj (hi.symm.trans hr)
      obtain rfl := hlaun.written hmay
      have hcondition := hsafe r written revision edit hr hwrites
      rw [if_neg (Bool.eq_false_iff.mp hfence)] at hcondition
      obtain ⟨other, r'', hother, hfound, hrescues⟩ := hcondition hlaun hstale
      exact ⟨other, r'', (update_of_ne hother _ _).trans hfound, hrescues⟩
    · exact ⟨i, r, (update_of_ne hindex _ _).trans hi, hlaun⟩

/-- Every step that avoids the races keeps every stale record on its way. -/
theorem Converging.step (h : Converging state) (htracked : Tracked owner state)
    {action : LifecycleAction} (hfresh : action.Fresh state) (hsafe : ExitSafe state action)
    {next : LifecycleState} (hstep : state.step action = some next) : Converging next := by
  cases LifecycleState.step_stepped hstep with
  | advance index answers hreq hadvance => exact h.advance htracked hreq hfresh hsafe hadvance
  | start index call hfree =>
    intro id hstale
    obtain ⟨i, r, hi, hlaun⟩ := h id hstale
    have hindex : i ≠ index := by
      rintro rfl
      rw [hfree] at hi
      cases hi
    exact ⟨i, r, (update_of_ne hindex _ _).trans hi, hlaun⟩
  | @reply index _ phase _ _ hdone =>
    intro id hstale
    obtain ⟨i, r, hi, hlaun⟩ := h id hstale
    have hindex : i ≠ index := by
      rintro rfl
      obtain rfl := Option.some.inj (hi.symm.trans hdone)
      have hfinal := (htracked.requests i _ hdone).follows
      cases phase with
      | opening | chosen | stopped | settled => exact hlaun.elim
      | launching | holding => exact hfinal.elim
    exact ⟨i, r, (update_of_ne hindex _ _).trans hi, hlaun⟩
  | mutate env call hcall =>
    have hquiet := StoreCall.perform_quiet htracked.sound hfresh (eq_false_of_ne_true hcall)
    exact fun id hstale => h id (hstale.quiet hquiet)
  | spawn ptyId => exact h
  | dispose ptyId =>
    cases hstep
    exact h
  | exit ptyId exitCode =>
    rintro id ⟨terminal, p, hterm, hlive, hpty, hexited, hqueued, hidle⟩
    refine h id ⟨terminal, p, hterm, hlive, hpty, ?_, ?_, hidle⟩
    · have hne : p ≠ ptyId := by
        rintro rfl
        simp at hqueued
      simpa [hne] using hexited
    · simp only [List.map_append, List.mem_append, not_or] at hqueued
      exact hqueued.1
  | @receive ptyId _ _ hlistener hexits =>
    rintro id ⟨terminal, p, hterm, hlive, hpty, hexited, hqueued, hidle⟩
    have hne : p ≠ ptyId := by
      rintro rfl
      cases hfound : terminalForPty state.catalog p with
      | some found => exact hidle _ (by rw [hfound]; rfl) rfl
      | none =>
        have hnone := List.find?_eq_none.mp hfound terminal (row?_mem MuxTerminal.id hterm).1
        simp [hpty] at hnone
    refine h id ⟨terminal, p, hterm, hlive, hpty, hexited, ?_, by simp [hlistener]⟩
    rw [hexits, List.map_cons, List.mem_cons, not_or]
    exact ⟨hne, hqueued⟩
  | @record env update hupdate =>
    have howner := htracked.listening update hupdate
    have hbef : ∀ ptyId, ptyId ≠ update.ptyId →
        Host.Handled { state.toHost with
          catalog := ((StoreCall.updateTerminal update.terminalId (some update.revision)
            (exitedEdit update.exitCode)).perform env state.catalog).2
          listener := none } ptyId → state.toHost.Handled ptyId := by
      rintro ptyId hne ⟨hexited, hqueued, -⟩
      refine ⟨hexited, hqueued, fun update' hupdate' => ?_⟩
      rw [hupdate] at hupdate'
      cases hupdate'
      exact hne.symm
    rintro id ⟨terminal, ptyId, hterm, hlive, hpty, hhandled⟩
    rcases record_catalog env state.catalog update with ⟨hfence, hsame⟩ | ⟨old, hold, hwrt⟩
    · simp only [hsame] at hterm
      by_cases hptyId : ptyId = update.ptyId
      · have hid : id = update.terminalId := by
          have hnamed := htracked.named id terminal ptyId hterm hpty
          rw [hptyId, howner] at hnamed
          exact (Option.some.inj hnamed).symm
        subst hid
        exact hsafe update hupdate hfence terminal hterm hlive (hptyId ▸ hpty)
      · exact h id ⟨terminal, ptyId, hterm, hlive, hpty, hbef ptyId hptyId hhandled⟩
    · have hid := terminal?_id hold
      simp only [hwrt, terminal?_putTerminal, stampTerminal_id, TerminalEdit.apply_id, hid] at hterm
      split at hterm
      · obtain ⟨_, -, rfl⟩ := map_eq_some_iff.mp hterm
        simp only [stampTerminal, exitedEdit] at hlive
        split at hlive <;> cases hlive
      · rename_i hother
        refine h id ⟨terminal, ptyId, hterm, hlive, hpty, hbef ptyId ?_ hhandled⟩
        rintro rfl
        have hnamed := htracked.named id terminal update.ptyId hterm hpty
        rw [howner] at hnamed
        exact hother (Option.some.inj hnamed).symm

theorem exits_converging
    (h : lifecycleSystem.Run (fun state action => action.Fresh state ∧ ExitSafe state action)
      state) : (∃ owner, Tracked owner state) ∧ Converging state := by
  induction h with
  | start hs =>
    refine ⟨Tracked.booted hs, ?_⟩
    rintro id ⟨_, ptyId, -, -, -, hexited, -⟩
    rw [hs.idle.2.2.1] at hexited
    cases hexited
  | next _ hallow hstep ih =>
    obtain ⟨⟨owner, htracked⟩, hconverging⟩ := ih
    obtain ⟨owner', htracked', -⟩ := htracked.step hallow.1 hstep
    exact ⟨⟨owner', htracked'⟩, hconverging.step htracked hallow.1 hallow.2 hstep⟩

end Steps

/-- All requests have returned, and the listener has worked off every exit. -/
structure Settled (state : LifecycleState) : Prop where
  returned : ∀ index request, state.requests index = some request →
    ∃ outcome, request.rest = .done outcome
  received : state.exits = []
  recorded : state.listener = none

def ExitsRecorded (state : LifecycleState) : Prop :=
  ∀ terminal ∈ state.catalog.terminals, terminal.status.isLive = true →
    ∀ ptyId, terminal.output.ptyId = some ptyId → ptyId ∉ state.exited

theorem exits_recorded {state : LifecycleState}
    (h : lifecycleSystem.Run (fun state action => action.Fresh state ∧ ExitSafe state action)
      state) (hsettl : Settled state) : ExitsRecorded state := by
  obtain ⟨⟨owner, htracked⟩, hconverging⟩ := exits_converging h
  intro terminal hmem hlive ptyId hpty hexited
  have hterm := htracked.sound.keyed.terminal?_of_mem hmem
  have hhandled : state.toHost.Handled ptyId := by
    refine ⟨hexited, by simp [hsettl.received], ?_⟩
    intro update hupdate
    rw [hsettl.recorded] at hupdate
    cases hupdate
  obtain ⟨index, request, hr, hlaun⟩ :=
    hconverging terminal.id ⟨terminal, ptyId, hterm, hlive, hpty, hhandled⟩
  obtain ⟨outcome, hdone⟩ := hsettl.returned index request hr
  have hfinal := (htracked.requests index request hr).follows
  rw [hdone] at hfinal
  cases hphase : request.phase with
  | opening | chosen | stopped | settled =>
    rw [hphase] at hlaun
    exact hlaun
  | launching | holding =>
    rw [hphase] at hfinal
    exact hfinal

/-! ## Two traces of one create request -/

def LifecycleState.isSettled (state : LifecycleState) : Bool :=
  (state.requests 0).all (·.isDone) && state.exits.isEmpty && state.listener.isNone

theorem settled_of_isSettled {check : LifecycleState → LifecycleAction → Bool}
    {actions : List LifecycleAction} {state : LifecycleState}
    (hrpl : lifecycleSystem.replay check emptyHost actions = some state)
    (honly : ∀ action ∈ actions, action.request? = none ∨ action.request? = some 0)
    (h : state.isSettled = true) : Settled state := by
  simp only [LifecycleState.isSettled, Bool.and_eq_true, List.isEmpty_iff,
    isNone_iff_eq_none, all_eq_true] at h
  obtain ⟨⟨hdone, hexits⟩, hlistener⟩ := h
  refine ⟨?_, hexits, hlistener⟩
  intro index request hr
  have hindex : index = 0 := by
    by_contra hne
    have hother : ∀ action ∈ actions, action.request? ≠ some index := by
      intro action hmem heq
      rcases honly action hmem with hnone | hzero
      · rw [hnone] at heq
        cases heq
      · rw [hzero] at heq
        exact hne (Option.some.inj heq).symm
    have hsame := replay_requests hrpl hother
    rw [hr] at hsame
    cases hsame
  subst hindex
  exact Request.isDone_iff.mp (hdone request hr)

/-- The process ends, and the listener finds no record of it, before the
request stores it. -/
def exitBeforeStore : List LifecycleAction :=
  createUntilStarted ++ (.exit "p" 0 :: .receive :: calls 2 "c")

theorem exitBeforeStore_loses : ∃ state,
    lifecycleSystem.replay freshKeys emptyHost exitBeforeStore = some state ∧
      state.isSettled = true ∧ ∃ terminal ∈ state.catalog.terminals,
        terminal.status.isLive = true ∧ terminal.output.ptyId = some "p" ∧ "p" ∈ state.exited := by
  have hrun : (lifecycleSystem.replay freshKeys emptyHost exitBeforeStore).any (fun state =>
      state.isSettled && state.catalog.terminals.any fun terminal => terminal.status.isLive &&
        terminal.output.ptyId == some "p" && state.exited.contains "p") = true := by decide
  obtain ⟨state, hrpl, hstate⟩ := (any_eq_true _ _).mp hrun
  simp only [Bool.and_eq_true, List.any_eq_true, beq_iff_eq, List.contains_iff_mem] at hstate
  obtain ⟨hsettl, terminal, hmem, ⟨hlive, hpty⟩, hexited⟩ := hstate
  exact ⟨state, hrpl, hsettl, terminal, hmem, hlive, hpty, hexited⟩

/-- Without the condition an exit can be lost for good. -/
theorem exits_lost : ¬ ∀ state : LifecycleState,
    lifecycleSystem.Run (fun state action => action.Fresh state) state → Settled state →
      ExitsRecorded state := by
  intro hall
  obtain ⟨state, hrpl, hsettl, terminal, hmem, hlive, hpty, hexited⟩ := exitBeforeStore_loses
  have hsteady : Steady exitBeforeStore :=
    steady_createUntilStarted.append (.cons rfl (.cons rfl (steady_calls 2 "c")))
  have hrun := System.replay_run (System.Run.start emptyHost_booted)
    (fun s a hmem hkeys => LifecycleAction.fresh_of_keys hsteady hmem hkeys) hrpl
  refine hall state hrun (settled_of_isSettled hrpl ?_ hsettl) terminal hmem hlive "p" hpty hexited
  decide

def exitAfterStore : List LifecycleAction :=
  createUntilStarted ++ (calls 2 "c" ++ [.exit "p" 0, .receive, .record (.constant "t" "c")])

def undisturbed (state : LifecycleState) (action : LifecycleAction) : Bool :=
  freshKeys state action &&
    match action with
    | .advance _ _ => state.exited.isEmpty
    | .record env => state.listener.all fun update =>
      fenceHolds env state.catalog update.terminalId (some update.revision)
    | _ => true

theorem exitSafe_of_undisturbed {state : LifecycleState} {action : LifecycleAction}
    (h : undisturbed state action = true) : ExitSafe state action := by
  obtain ⟨-, h⟩ := Bool.and_eq_true_iff.mp h
  cases action with
  | advance index answers =>
    have hnone : ∀ ptyId, ¬ state.toHost.Handled ptyId := by
      rintro ptyId ⟨hexited, -⟩
      rw [List.isEmpty_iff.mp h] at hexited
      cases hexited
    intro request id revision edit _ _
    split
    · exact fun ptyId _ => hnone ptyId
    · rintro _ ⟨_, ptyId, -, -, -, hhandled⟩
      exact absurd hhandled (hnone ptyId)
  | record env =>
    intro update hupdate hfence
    simp only [hupdate, all_some, hfence] at h
    cases h
  | _ => trivial

theorem exits_recorded_exitAfterStore : ∃ state,
    lifecycleSystem.replay undisturbed emptyHost exitAfterStore = some state ∧
      ExitsRecorded state := by
  have hrun : (lifecycleSystem.replay undisturbed emptyHost exitAfterStore).any
      (·.isSettled) = true := by decide
  obtain ⟨state, hrpl, hsettl⟩ := (any_eq_true _ _).mp hrun
  have hsteady : Steady exitAfterStore := by
    refine steady_createUntilStarted.append ((steady_calls 2 "c").append (.cons rfl (.cons rfl ?_)))
    intro action hmem env henv
    obtain rfl := List.mem_singleton.mp hmem
    cases henv
    exact ⟨"t", "c", rfl⟩
  refine ⟨state, hrpl, exits_recorded (System.replay_run (System.Run.start emptyHost_booted) ?_
    hrpl) (settled_of_isSettled hrpl (by decide) hsettl)⟩
  intro s a hmem hcheck
  exact ⟨LifecycleAction.fresh_of_keys hsteady hmem (Bool.and_eq_true_iff.mp hcheck).1,
    exitSafe_of_undisturbed hcheck⟩

end Yaade.Runtime

import Yaade.Workers.Traffic

/-!
The entries of the workers follow the terminals of the pool.
-/

namespace Yaade.Workers

open Yaade.Library Option List IndexMap FairWorkerScheduler
open Bool hiding and_assoc not_not not_or true_and

namespace Slot

def traffic (slot : Slot) (terminalId : String) : Traffic where
  core := slot.cores.get? terminalId
  registered := decide (terminalId ∈ slot.terminals)
  runtime := slot.worker.runtimes.get? terminalId
  queue := slot.scheduler.queued terminalId
  flight := slot.scheduler.flight terminalId
  work := (slot.worker.inbox ++ slot.worker.building).filter (·.terminalId = terminalId)
  outbox := slot.worker.outbox.filter (·.terminalId = terminalId)

structure Based (slot : Slot) : Prop where
  exact : Exact slot.scheduler
  conserving : Conserving slot.scheduler
  keyed : Keyed WorkerCommand.terminalId WorkerCommand.key slot.scheduler
  nodup : slot.terminals.Nodup
  made : ∀ command ∈ slot.worker.building, command.kind.isCreate = true

structure Sound (slot : Slot) : Prop extends Based slot where
  orderly : ∀ terminalId, Orderly (slot.traffic terminalId)

/-- The second slot holds `traffic` of one terminal, and of the others what the
first does. -/
structure Changes (slot slot' : Slot) (terminalId : String) (traffic : Traffic) : Prop where
  based : slot'.Based
  here : slot'.traffic terminalId = traffic
  others : ∀ other, other ≠ terminalId → slot'.traffic other = slot.traffic other

variable {slot slot' : Slot} {terminalId : String} {traffic : Traffic}

theorem Changes.trans {last : Slot} {traffic' : Traffic}
    (h : Changes slot slot' terminalId traffic) (hlast : Changes slot' last terminalId traffic') :
    Changes slot last terminalId traffic' :=
  ⟨hlast.based, hlast.here, fun other hother =>
    (hlast.others other hother).trans (h.others other hother)⟩

theorem Sound.changes (h : slot.Sound) (hchanges : Changes slot slot' terminalId traffic)
    (hordl : Orderly traffic) : slot'.Sound where
  toBased := hchanges.based
  orderly := fun other => by
    by_cases hother : other = terminalId
    · rw [hother, hchanges.here]
      exact hordl
    · rw [hchanges.others other hother]
      exact h.orderly other

theorem setCore_changes (h : slot.Based) (id : String) (core : WorkerTerminalCore) :
    Changes slot (slot.setCore id core) id
      { slot.traffic id with core := some core } where
  based := { h with }
  here := by
    have hcore : (slot.cores.insert id core).get? id = some core := by
      rw [get?_insert, if_pos rfl]
    exact congrArg (fun found => ({ slot.traffic id with core := found } : Traffic)) hcore
  others := fun other hother => by
    have hcore : (slot.cores.insert id core).get? other = slot.cores.get? other := by
      rw [get?_insert, if_neg hother]
    exact congrArg (fun found => ({ slot.traffic other with core := found } : Traffic)) hcore

def roomy (slot : Slot) : Prop :=
  slot.scheduler.bytes + 256 ≤ maxBytes ∧ slot.scheduler.commands + 1 ≤ maxCommands

theorem traffic_queue {scheduler : FairWorkerScheduler WorkerCommand CompletionKey}
    {priorities : IndexMap String WorkerPriority} {queue : List WorkerCommand} {other : String}
    (hflight : scheduler.flight other = slot.scheduler.flight other)
    (hqueue : scheduler.queued other = queue) :
    ({ slot with scheduler := scheduler, priorities := priorities } : Slot).traffic other =
      { slot.traffic other with queue := queue } :=
  Traffic.ext rfl rfl rfl hqueue hflight rfl rfl

theorem prioritized_changes (h : slot.Based) (command : WorkerCommand) :
    (slot.prioritized command).Based ∧
      (∀ other, (slot.prioritized command).traffic other = slot.traffic other) ∧
      (slot.prioritized command).scheduler.bytes = slot.scheduler.bytes ∧
      (slot.prioritized command).scheduler.commands = slot.scheduler.commands := by
  unfold prioritized
  split
  · rename_i presentation _
    exact ⟨⟨h.exact.setPriority presentation, h.conserving.setPriority presentation,
      h.keyed.setPriority presentation, h.nodup, h.made⟩,
      fun other => traffic_queue (flight_setPriority presentation other)
        (queued_setPriority presentation other), rfl, rfl⟩
  · exact ⟨h, fun _ => rfl, rfl, rfl⟩

/-- What a command that was sent or refused changes. -/
structure Sends (slot slot' : Slot) (accepted : Bool) (terminalId : String)
    (core : Option WorkerTerminalCore) (command : WorkerCommand) (bytes : Nat) : Prop where
  changes : Changes slot slot' terminalId
    { slot.traffic terminalId with
      core := core
      queue := (slot.traffic terminalId).queue ++ if accepted then [command] else [] }
  scheduled : accepted = true → slot'.scheduler.scheduled = true
  room : bytes = 256 → slot.roomy → accepted = true ∧
    slot'.scheduler.bytes = slot.scheduler.bytes + 256 ∧
    slot'.scheduler.commands = slot.scheduler.commands + 1
  full : bytes = 256 → accepted = true → slot.roomy

theorem post_sends (h : slot.Based) (command : WorkerCommand) (bytes : Nat) :
    ∃ slot' accepted, slot.post command bytes = (slot', accepted) ∧
      Sends slot slot' accepted command.terminalId (slot.traffic command.terminalId).core command
        bytes := by
  obtain ⟨hbased, htraffic, hbytes, hcommands⟩ := prioritized_changes h command
  cases henq : (slot.prioritized command).scheduler.enqueue command.terminalId command bytes
      (((slot.prioritized command).priorities.get? command.terminalId).getD ⟨true, false⟩)
      command.key with
  | error message =>
    refine ⟨slot.prioritized command, false, ?_, ⟨hbased, ?_, fun other _ => htraffic other⟩,
      (fun hfalse => by cases hfalse), ?_, ?_⟩
    · simp only [post, henq]
    · rw [htraffic]
      simp
    · rintro rfl ⟨hfew, hless⟩
      unfold enqueue at henq
      dsimp only at henq
      rw [hbytes, hcommands, if_neg (by
        rintro (hmany | hmany)
        · exact absurd (hmany.trans_le hfew) (by simp)
        · omega)] at henq
      cases henq
    · exact fun _ hfalse => by cases hfalse
  | ok scheduler =>
    have hqueued := queued_enqueue henq
    have hflight := flight_enqueue henq
    have hinserted : scheduler.scheduled = true ∧
        scheduler.bytes = slot.scheduler.bytes + max 1 bytes ∧
        scheduler.commands = slot.scheduler.commands + 1 ∧
        scheduler.bytes ≤ maxBytes ∧ scheduler.commands ≤ maxCommands := by
      unfold enqueue at henq
      dsimp only at henq
      split at henq
      · cases henq
      rename_i hfits
      rw [not_or, not_lt, not_lt] at hfits
      cases henq
      exact ⟨rfl, by rw [← hbytes], by rw [← hcommands], hfits.1, hfits.2⟩
    refine ⟨{ slot.prioritized command with scheduler := scheduler }, true, ?_,
      ⟨⟨hbased.exact.enqueue henq, .inl hinserted.1,
      hbased.keyed.enqueue rfl henq, hbased.nodup, hbased.made⟩, ?_, fun other hother => ?_⟩,
      fun _ => hinserted.1, ?_, ?_⟩
    · simp only [post, henq]
    · rw [← htraffic]
      refine traffic_queue (hflight _) ((hqueued _).trans ?_)
      simp [forTerminal, traffic]
    · rw [← htraffic]
      refine traffic_queue (hflight _) ((hqueued _).trans ?_)
      simp [forTerminal, Ne.symm hother]
    · rintro rfl _
      exact ⟨rfl, hinserted.2.1, hinserted.2.2.1⟩
    · rintro rfl _
      exact And.intro (hinserted.2.1.symm.trans_le hinserted.2.2.2.1)
        (hinserted.2.2.1.symm.trans_le hinserted.2.2.2.2)

theorem send_sends (h : slot.Based) (id : String) (core : WorkerTerminalCore)
    (kind : CommandKind) (bytes : Nat) :
    ∃ slot' accepted, slot.send id core kind bytes = (slot', accepted) ∧
      Sends slot slot' accepted id (some { core with sequence := core.sequence + 1 })
        ⟨id, core.generation, core.sequence + 1, kind⟩ bytes := by
  have hset := setCore_changes h id { core with sequence := core.sequence + 1 }
  obtain ⟨slot', accepted, hpost, hsends⟩ := post_sends hset.based
    ⟨id, core.generation, core.sequence + 1, kind⟩ bytes
  refine ⟨slot', accepted, hpost, ?_, hsends.scheduled, hsends.room, hsends.full⟩
  have hwhole := hset.trans hsends.changes
  rw [hset.here] at hwhole
  exact hwhole

theorem release_changes (id : String) (h : slot.Based)
    (hresumes : slot.scheduler.scheduled = true ∨ slot.scheduler.flight id = none) :
    Changes slot (slot.release id) id
      { slot.traffic id with registered := false, queue := [], flight := none } where
  based := by
    refine ⟨h.exact.cancel id, h.conserving.cancel fun lane hlane hflight => ?_,
      h.keyed.cancel, h.nodup.erase id, h.made⟩
    refine .inl (hresumes.resolve_right fun hnone => ?_)
    rw [flight, hlane] at hnone
    have hnone : lane.inFlightKey = none := hnone
    rw [hnone] at hflight
    cases hflight
  here := by
    refine Traffic.ext rfl ?_ rfl ?_ ?_ rfl rfl
    · exact decide_eq_false h.nodup.not_mem_erase
    · exact (queued_cancel id).trans (if_pos rfl)
    · exact (flight_cancel id).trans (if_pos rfl)
  others := fun other hother => by
    refine Traffic.ext rfl ?_ rfl ?_ ?_ rfl rfl
    · exact decide_eq_decide.mpr (mem_erase_of_ne hother)
    · exact (queued_cancel other).trans (if_neg hother)
    · exact (flight_cancel other).trans (if_neg hother)

/-! ## Each step -/

variable {core : WorkerTerminalCore}

theorem Sound.command (h : slot.Sound)
    (hcore : slot.cores.get? terminalId = some core) (hrslv : core.resolved = true)
    (presentation : WorkerPriority) (kind : CommandKind) (hkind : kind.isCreate = false)
    (hplain : kind ≠ .dispose) (bytes : Nat) :
    (slot.command terminalId { core with presentation := presentation } kind bytes).1.Sound := by
  have hordl := h.orderly terminalId
  unfold Slot.command
  split
  case isTrue hstops =>
    have hchanges := setCore_changes h.toBased terminalId { core with presentation := presentation }
    by_cases hdisp : core.disposed = true
    · refine h.changes hchanges (orderly_of_released rfl ?_
        ((orderly_released hordl hcore hdisp).recore _))
      exact hdisp
    · have hopen : core.disposed = false := eq_false_iff.mpr hdisp
      refine h.changes hchanges (orderly_of_live rfl ?_
        ((orderly_live hordl hcore hopen).skip presentation core.lastEventSequence le_rfl core.initializationTimeout))
      exact hopen
  case isFalse hgoes =>
    obtain ⟨hopen, hsteady⟩ : core.disposed = false ∧ core.recovering = false := by
      simpa [not_or] using hgoes
    have hlive := orderly_live hordl hcore hopen
    obtain ⟨slot', accepted, hsend, hsends⟩ := send_sends h.toBased terminalId
      { core with presentation := presentation } kind bytes
    rw [hsend]
    refine h.changes hsends.changes (orderly_of_live rfl ?_ ?_)
    · exact hopen
    cases accepted with
    | true => exact hlive.command hrslv hsteady presentation hkind hplain rfl
    | false =>
      rw [if_neg Bool.false_ne_true, append_nil]
      exact hlive.skip presentation core.lastEventSequence (Nat.le_succ _)
        core.initializationTimeout

def unheld (slot : Slot) (terminalId : String) : Prop :=
  slot.worker.runtimes.get? terminalId = none ∧
    ∀ command ∈ slot.worker.inbox ++ slot.worker.building,
      command.terminalId = terminalId → command.kind.isCreate = false

theorem Live.landed (h : Live core (slot.traffic terminalId))
    (hrecov : core.recovering = true) (hunheld : slot.unheld terminalId) :
    slot.scheduler.flight terminalId = none := by
  refine eq_none_iff_forall_ne_some.mpr fun key hkey => ?_
  have hrslv : core.resolved = true := by
    by_contra hnot
    cases hrecov.symm.trans (h.starting (eq_false_iff.mpr hnot)).steady
  rcases h.flying key hkey with ⟨command, hwork, _⟩ | ⟨_, event, hev, _⟩
  · have hmem : command ∈ (slot.traffic terminalId).work := hwork ▸ mem_cons_self
    obtain ⟨hmem, hmine⟩ := mem_filter.mp hmem
    have hplain := hunheld.2 command hmem (of_decide_eq_true hmine)
    cases hunheld.1.symm.trans (h.handle hwork hplain .completed).1
  · exact (h.running hrslv).answered (ne_nil_of_mem hev) hunheld.1

theorem Sound.disposed (h : slot.Sound)
    (hlive : Live core (slot.traffic terminalId)) (hunheld : slot.unheld terminalId)
    {core' : WorkerTerminalCore} {queue : List WorkerCommand}
    (hchanges : Changes slot slot' terminalId
      { slot.traffic terminalId with core := some core', queue := queue })
    (hresumes : slot'.scheduler.scheduled = true ∨ slot'.scheduler.flight terminalId = none) :
    (({ slot' with
      cores := slot'.cores.modify terminalId fun core => { core with disposed := true } } :
        Slot).release terminalId).Sound := by
  have hfound : slot'.cores.get? terminalId = some core' := congrArg Traffic.core hchanges.here
  have hmodify : slot'.cores.modify terminalId (fun core => { core with disposed := true }) =
      slot'.cores.insert terminalId { core' with disposed := true } :=
    modify_eq_insert hfound _
  rw [hmodify]
  have hset := setCore_changes hchanges.based terminalId { core' with disposed := true }
  have hreleased := release_changes terminalId hset.based hresumes
  have hwhole := (hchanges.trans hset).trans hreleased
  rw [hset.here, hchanges.here] at hwhole
  refine h.changes hwhole (orderly_of_released rfl rfl ⟨rfl, hunheld.1, rfl, rfl, hlive.single, ?_⟩)
  intro command hmem
  obtain ⟨hmem, hmine⟩ := mem_filter.mp hmem
  exact hunheld.2 command hmem (of_decide_eq_true hmine)

/-- A terminal is disposed of, unless the scheduler is full. -/
theorem Sound.dispose (h : slot.Sound)
    (hcore : slot.cores.get? terminalId = some core) (timeout reject : Bool)
    (hunheld : core.disposed = false → core.recovering = true ∨ slot.roomy →
      slot.unheld terminalId)
    (hroom : core.disposed = false → core.recovering = false →
      slot.roomy ∨ reject = core.initializationReject) :
    (slot.dispose terminalId { core with
      initializationTimeout := timeout
      initializationReject := reject }).Sound := by
  have hordl := h.orderly terminalId
  unfold Slot.dispose
  split
  case isTrue hdisp =>
    have hdisp : core.disposed = true := hdisp
    refine h.changes (setCore_changes h.toBased terminalId _) (orderly_of_released rfl ?_
      ((orderly_released hordl hcore hdisp).recore _))
    exact hdisp
  case isFalse hnot =>
    have hopen : core.disposed = false := by simpa using hnot
    have hlive := orderly_live hordl hcore hopen
    unfold Slot.command
    by_cases hrecov : core.recovering = true
    · rw [if_pos (by simp [hrecov])]
      have hfree := hunheld hopen (.inl hrecov)
      have hlanded := Live.landed hlive hrecov hfree
      exact h.disposed hlive hfree (setCore_changes h.toBased terminalId _) (.inr hlanded)
    have hsteady : core.recovering = false := eq_false_iff.mpr hrecov
    rw [if_neg (by simp [hopen, hsteady])]
    obtain ⟨slot', accepted, hsend, hsends⟩ := send_sends h.toBased terminalId
      { core with initializationTimeout := timeout, initializationReject := reject }
      .dispose 256
    rw [hsend]
    cases accepted with
    | true =>
      exact h.disposed hlive (hunheld hopen (.inr (hsends.full rfl rfl))) hsends.changes
        (.inl (hsends.scheduled rfl))
    | false =>
      have hsame : reject = core.initializationReject :=
        (hroom hopen hsteady).resolve_left fun hroomy => nomatch (hsends.room rfl hroomy).1
      subst hsame
      refine h.changes hsends.changes (orderly_of_live rfl ?_ ?_)
      · exact hopen
      · rw [if_neg Bool.false_ne_true, append_nil]
        exact hlive.skip core.presentation core.lastEventSequence (Nat.le_succ _) timeout

/-! ## Failures -/

theorem cancel_le (scheduler : FairWorkerScheduler WorkerCommand CompletionKey) (id : String) :
    (scheduler.cancel id).bytes ≤ scheduler.bytes ∧
      (scheduler.cancel id).commands ≤ scheduler.commands := by
  unfold cancel
  split
  · exact ⟨le_rfl, le_rfl⟩
  · exact ⟨Nat.sub_le _ _, Nat.sub_le _ _⟩

theorem fail_rejects (id : String) (core : WorkerTerminalCore) (h : slot.Based)
    (hopen : core.disposed = false)
    (hsteady : core.recovering = false) (hrejects : core.initializationReject = true)
    (hresumes : slot.scheduler.scheduled = true ∨ slot.scheduler.flight id = none) :
    ∃ slot' core', slot.fail id core = (slot', true) ∧ core'.disposed = true ∧
      Changes slot slot' id { slot.traffic id with
        core := some core', registered := false, queue := [], flight := none } ∧
      slot'.scheduler.bytes ≤ slot.scheduler.bytes ∧
      slot'.scheduler.commands ≤ slot.scheduler.commands := by
  have hset := setCore_changes h id { core with
    initializationReject := false
    readyListener := none
    disposed := true }
  have hreleased := release_changes id hset.based hresumes
  have hwhole := hset.trans hreleased
  rw [hset.here] at hwhole
  obtain ⟨hbytes, hcommands⟩ := cancel_le slot.scheduler id
  refine ⟨_, _, ?_, ?_, hwhole, hbytes, hcommands⟩
  · unfold Slot.fail
    rw [if_neg (by simp [hopen, hsteady]), if_pos hrejects]
  · rfl

theorem fail_recovers (id : String) (core : WorkerTerminalCore) (h : slot.Based)
    (hopen : core.disposed = false)
    (hsteady : core.recovering = false) (haccepts : core.initializationReject = false)
    (hroom : slot.roomy) : ∃ slot', slot.fail id core = (slot', true) ∧
      Changes slot slot' id { slot.traffic id with
        core := some { core.recover with sequence := 1 }
        queue := (slot.traffic id).queue ++
          [⟨id, core.generation + 1, 1, .create core.presentation⟩] } ∧
      slot'.scheduler.bytes = slot.scheduler.bytes + 256 ∧
      slot'.scheduler.commands = slot.scheduler.commands + 1 := by
  obtain ⟨slot', accepted, hsend, hsends⟩ := send_sends h id core.recover
    (.create core.presentation) 256
  obtain ⟨rfl, hbytes, hcommands⟩ := hsends.room rfl hroom
  refine ⟨slot', ?_, hsends.changes, hbytes, hcommands⟩
  unfold Slot.fail
  rw [if_neg (by simp [hopen, hsteady]), if_neg (by simp [haccepts])]
  exact hsend

theorem take_changes (h : slot.Based) {event : WorkerEvent} {rest : List WorkerEvent}
    (hev : slot.worker.outbox = event :: rest) :
    Changes slot { slot with
        worker := { slot.worker with outbox := rest }
        scheduler := slot.scheduler.complete event.terminalId event.key } event.terminalId
      { slot.traffic event.terminalId with
        flight := if (slot.traffic event.terminalId).flight = some event.key then none
          else (slot.traffic event.terminalId).flight
        outbox := rest.filter (·.terminalId = event.terminalId) } where
  based := ⟨h.exact.complete event.key, h.conserving.complete event.key,
    h.keyed.complete event.key, h.nodup, h.made⟩
  here := by
    refine Traffic.ext rfl rfl rfl (queued_complete event.key event.terminalId) ?_ rfl rfl
    refine (flight_complete event.key event.terminalId).trans ?_
    simp only [true_and]
    rfl
  others := fun other hother => by
    refine Traffic.ext rfl rfl rfl (queued_complete event.key other) ?_ rfl ?_
    · exact (flight_complete event.key other).trans (if_neg fun hboth => hother hboth.1)
    · have hskip : (event :: rest).filter (·.terminalId = other) =
          rest.filter (·.terminalId = other) :=
        filter_cons_of_neg (by simpa using Ne.symm hother)
      exact (hskip.symm.trans (congrArg _ hev.symm))

section

variable (h : slot.Sound)
include h

/-- A message of the worker. -/
theorem Sound.onMessage {event : WorkerEvent} {rest : List WorkerEvent}
    (hev : slot.worker.outbox = event :: rest)
    (hroom : event.kind = .fatalError ∨ event.kind = .recoverableError → slot.roomy) :
    (({ slot with worker := { slot.worker with outbox := rest } } : Slot).onMessage event).Sound := by
  have htake := take_changes h.toBased hev
  have hordl := h.orderly event.terminalId
  have houtbox : (slot.traffic event.terminalId).outbox =
      event :: rest.filter (·.terminalId = event.terminalId) := by
    refine (congrArg (List.filter _) hev).trans (filter_cons_of_pos ?_)
    exact decide_eq_true rfl
  have hscheduler : (slot.scheduler.complete event.terminalId event.key).bytes =
      slot.scheduler.bytes ∧ (slot.scheduler.complete event.terminalId event.key).commands =
        slot.scheduler.commands := by
    unfold complete
    split
    · exact ⟨rfl, rfl⟩
    split
    · exact ⟨rfl, rfl⟩
    unfold cleanup
    dsimp only [schedule]
    split <;> exact ⟨rfl, rfl⟩
  unfold Slot.onMessage
  dsimp only
  cases hcore : slot.cores.get? event.terminalId with
  | none =>
    exfalso
    unfold Orderly at hordl
    have hnone : (slot.traffic event.terminalId).core = none := hcore
    rw [hnone] at hordl
    rw [hordl] at houtbox
    cases houtbox
  | some core =>
    by_cases hdisp : core.disposed = true
    · have hreleased := orderly_released hordl hcore hdisp
      rw [if_neg (of_decide_eq_false hreleased.unregistered)]
      refine h.changes htake (orderly_of_released hcore hdisp { hreleased with landed := ?_ })
      dsimp only
      rw [hreleased.landed]
      rfl
    · have hopen : core.disposed = false := eq_false_iff.mpr hdisp
      have hlive := orderly_live hordl hcore hopen
      rw [if_pos (of_decide_eq_true hlive.registered)]
      have hnext := hlive.receive houtbox
      have hkept : (core.listen event).disposed = false := (listen_disposed core event).trans hopen
      unfold Slot.receive
      dsimp only
      split
      · have hwhole := htake.trans (setCore_changes htake.based event.terminalId
          (core.listen event))
        rw [htake.here] at hwhole
        exact h.changes hwhole (orderly_of_live rfl hkept hnext)
      have hskip := hnext.skip (core.listen event).presentation
        event.sequence le_rfl (core.listen event).initializationTimeout
      split
      case isTrue herror =>
        have hnot : event.kind ≠ .ready := by
          rintro hready
          rw [hready] at herror
          simp at herror
        by_cases hrecov : (core.listen event).recovering = true
        · unfold Slot.fail
          rw [if_pos (by simp [hrecov])]
          have hwhole := htake.trans (setCore_changes htake.based event.terminalId
            { core.listen event with lastEventSequence := event.sequence })
          rw [htake.here] at hwhole
          refine h.changes hwhole (orderly_of_live rfl ?_ hskip)
          exact hkept
        · have hsteady : (core.listen event).recovering = false := eq_false_iff.mpr hrecov
          by_cases hrslv : (core.listen event).resolved = true
          · obtain ⟨slot', hfail, hchanges, _⟩ := fail_recovers
              event.terminalId { core.listen event with lastEventSequence := event.sequence }
              htake.based hkept hsteady (hskip.running hrslv).accepts (by
                unfold roomy
                dsimp only
                rw [hscheduler.1, hscheduler.2]
                exact hroom herror)
            rw [hfail]
            have hwhole := htake.trans hchanges
            rw [htake.here] at hwhole
            refine h.changes hwhole (orderly_of_live rfl ?_ ?_)
            · exact hkept
            · exact hskip.recover hrslv rfl rfl
          · have hstart : (core.listen event).resolved = false := eq_false_iff.mpr hrslv
            have hbef : core.resolved = false :=
              eq_false_iff.mpr fun htrue => hrslv (listen_resolved htrue)
            obtain ⟨hline, hrtime, hrest⟩ := hlive.failed_start hbef houtbox hnot
            obtain ⟨hwork, hqueue⟩ := append_eq_nil_iff.mp hline
            have hflight : (slot.scheduler.complete event.terminalId event.key).flight
                event.terminalId = none := by
              refine eq_none_iff_forall_ne_some.mpr fun key hkey => ?_
              have hhere := congrArg Traffic.flight htake.here
              rcases hnext.flying key (hhere.symm.trans hkey) with
                ⟨command, hmine, _⟩ | ⟨_, other, hmem, _⟩
              · cases hwork.symm.trans hmine
              have hmem : other ∈ rest.filter (·.terminalId = event.terminalId) := hmem
              rw [hrest] at hmem
              cases hmem
            obtain ⟨slot', core', hfail, hdisp', hchanges, _⟩ := fail_rejects
              event.terminalId { core.listen event with lastEventSequence := event.sequence }
              htake.based hkept hsteady (hskip.starting hstart).rejects (.inr hflight)
            rw [hfail]
            have hwhole := htake.trans hchanges
            rw [htake.here] at hwhole
            refine h.changes hwhole (orderly_of_released rfl hdisp' ⟨rfl, hrtime, rfl,
              rfl, hlive.single, fun command hmem => ?_⟩)
            have hmem : command ∈ (slot.traffic event.terminalId).work := hmem
            rw [hwork] at hmem
            cases hmem
      case isFalse =>
        have hwhole := htake.trans (setCore_changes htake.based event.terminalId
          { core.listen event with lastEventSequence := event.sequence })
        rw [htake.here] at hwhole
        refine h.changes hwhole (orderly_of_live rfl ?_ hskip)
        exact hkept

/-! ## The worker -/

variable {command : WorkerCommand} {before after : List WorkerCommand}

section

variable (hwork : slot.worker.inbox ++ slot.worker.building = before ++ command :: after)
include hwork

theorem Sound.only :
    (slot.traffic command.terminalId).work = [command] ∧
      (before ++ after).filter (·.terminalId = command.terminalId) = [] := by
  have hsplit : (slot.traffic command.terminalId).work =
      before.filter (·.terminalId = command.terminalId) ++
        command :: after.filter (·.terminalId = command.terminalId) := by
    refine (congrArg (List.filter _) hwork).trans ?_
    rw [filter_append, filter_cons_of_pos (by simp)]
  have hsingle : (slot.traffic command.terminalId).work.length ≤ 1 := by
    have hordl := h.orderly command.terminalId
    unfold Orderly at hordl
    split at hordl
    · rw [hordl]
      exact Nat.zero_le 1
    split at hordl
    · exact hordl.single
    · exact hordl.single
  have hshort : (before.filter (·.terminalId = command.terminalId)).length +
      ((after.filter (·.terminalId = command.terminalId)).length + 1) ≤ 1 := by
    rw [hsplit, length_append, length_cons] at hsingle
    exact hsingle
  have hbef : before.filter (·.terminalId = command.terminalId) = [] :=
    eq_nil_of_length_eq_zero (by omega)
  have hafter : after.filter (·.terminalId = command.terminalId) = [] :=
    eq_nil_of_length_eq_zero (by omega)
  rw [hsplit, filter_append, hbef, hafter]
  exact ⟨rfl, rfl⟩

theorem worked_changes
    (worker : PoolWorker) (hleft : worker.inbox ++ worker.building = before ++ after)
    (hruntimes : ∀ other, other ≠ command.terminalId →
      worker.runtimes.get? other = slot.worker.runtimes.get? other)
    {events : List WorkerEvent} (houtbox : worker.outbox = slot.worker.outbox ++ events)
    (hevs : ∀ event ∈ events, event.terminalId = command.terminalId)
    (hmade : ∀ command ∈ worker.building, command.kind.isCreate = true) :
    Changes slot { slot with worker := worker } command.terminalId
      { slot.traffic command.terminalId with
        runtime := worker.runtimes.get? command.terminalId
        work := []
        outbox := (slot.traffic command.terminalId).outbox ++ events } where
  based := { h with made := hmade }
  here := by
    refine Traffic.ext rfl rfl rfl rfl rfl ?_ ?_
    · exact (congrArg (List.filter _) hleft).trans (h.only hwork).2
    · refine (congrArg (List.filter _) houtbox).trans ?_
      rw [filter_append]
      refine congrArg (_ ++ ·) (filter_eq_self.mpr fun event hev => ?_)
      exact decide_eq_true (hevs event hev)
  others := fun other hother => by
    refine Traffic.ext rfl rfl (hruntimes other hother) rfl rfl ?_ ?_
    · refine (congrArg (List.filter _) hleft).trans ?_
      refine Eq.trans ?_ (congrArg (List.filter _) hwork).symm
      rw [filter_append, filter_append, filter_cons_of_neg (by simpa using Ne.symm hother)]
    · refine (congrArg (List.filter _) houtbox).trans ?_
      rw [filter_append]
      refine (congrArg (_ ++ ·) (filter_eq_nil_iff.mpr fun event hev => ?_)).trans (append_nil _)
      rw [hevs event hev]
      simpa using Ne.symm hother

theorem Sound.created :
    ∃ core, (slot.traffic command.terminalId).core = some core ∧
      if core.disposed then Released (slot.traffic command.terminalId)
      else Live core (slot.traffic command.terminalId) := by
  have hordl := h.orderly command.terminalId
  have hmine := (h.only hwork).1
  unfold Orderly at hordl
  cases hcore : (slot.traffic command.terminalId).core with
  | none =>
    rw [hcore] at hordl
    rw [hordl] at hmine
    cases hmine
  | some core =>
    rw [hcore] at hordl
    exact ⟨core, rfl, hordl⟩

end

/-- The worker takes a command from its inbox. -/
theorem Sound.workerReceive
    {rest : List WorkerCommand} (hinbox : slot.worker.inbox = command :: rest) (throws : Bool) :
    ({ slot with worker := { slot.worker with inbox := rest }.handle command throws } :
      Slot).Sound := by
  have hwork : slot.worker.inbox ++ slot.worker.building =
      [] ++ command :: (rest ++ slot.worker.building) := by
    rw [hinbox]
    rfl
  obtain ⟨hmine, hnone⟩ := h.only hwork
  obtain ⟨core, hcore, hheld⟩ := h.created hwork
  unfold PoolWorker.handle
  split
  case isTrue hcreate =>
    have htraffic : ∀ other, ({ slot with worker := { slot.worker with
        inbox := rest
        building := slot.worker.building ++ [command] } } : Slot).traffic other =
          slot.traffic other := by
      intro other
      refine Traffic.ext rfl rfl rfl rfl rfl ?_ rfl
      have hleft : (rest ++ (slot.worker.building ++ [command])).filter (·.terminalId = other) =
          (rest ++ slot.worker.building).filter (·.terminalId = other) ++
            [command].filter (·.terminalId = other) := by
        rw [← append_assoc, filter_append]
      refine hleft.trans ?_
      by_cases hother : other = command.terminalId
      · subst hother
        rw [hmine]
        have hnone : (rest ++ slot.worker.building).filter
            (·.terminalId = command.terminalId) = [] := hnone
        rw [hnone]
        simp
      · rw [filter_cons_of_neg (by simpa using Ne.symm hother)]
        refine (append_nil _).trans ?_
        refine Eq.trans ?_ (congrArg (List.filter _) hwork).symm
        exact (filter_cons_of_neg (by simpa using Ne.symm hother)).symm
    refine ⟨{ h with made := fun made hmade => ?_ }, fun other => htraffic other ▸ h.orderly other⟩
    rcases mem_snoc.mp hmade with hold | rfl
    · exact h.made made hold
    · exact hcreate
  case isFalse hplain =>
    have hkind : command.kind.isCreate = false := eq_false_iff.mpr hplain
    split
    case isTrue hunknown =>
      have hchanges := worked_changes h hwork { slot.worker with inbox := rest } rfl
        (fun _ _ => rfl) (append_nil _).symm (fun _ hnone => by cases hnone) h.made
      refine h.changes hchanges ?_
      cases hdisp : core.disposed with
      | true =>
        rw [hdisp, if_pos rfl] at hheld
        exact orderly_of_released hcore hdisp { hheld with
          single := Nat.zero_le 1
          plain := fun _ hnone => by cases hnone }
      | false =>
        rw [hdisp, if_neg Bool.false_ne_true] at hheld
        exact absurd (hheld.handle hmine hkind .completed).1 hunknown
    case isFalse hknown =>
      rw [ne_eq, not_not] at hknown
      have hopen : core.disposed = false := by
        refine eq_false_iff.mpr fun hdisp => ?_
        rw [hdisp, if_pos rfl] at hheld
        cases hheld.removed.symm.trans hknown
      rw [hopen, if_neg Bool.false_ne_true] at hheld
      have hsettle : ∀ kind : EventKind, ({ slot with worker := { slot.worker with
          inbox := rest
          outbox := slot.worker.outbox ++ [command.reply kind] } } : Slot).Sound := by
        intro kind
        have hchanges := worked_changes h hwork { slot.worker with
            inbox := rest
            outbox := slot.worker.outbox ++ [command.reply kind] } rfl (fun _ _ => rfl) rfl
          (fun event hev => by rw [mem_singleton.mp hev]; rfl) h.made
        exact h.changes hchanges (orderly_of_live hcore hopen (hheld.handle hmine hkind kind).2)
      split
      · exact hsettle .recoverableError
      have hplain := hheld.plain command (mem_append_left _ (hmine ▸ mem_cons_self))
      rw [if_neg hplain]
      exact hsettle .completed

/-- A core for a create was made, or not. -/
theorem Sound.built {index : Nat}
    (hbuilding : slot.worker.building[index]? = some command) (outcome : BuildOutcome)
    (hfirst : outcome = .failed → command.generation = 1) :
    ({ slot with worker := { slot.worker with
      building := slot.worker.building.eraseIdx index }.built command outcome } : Slot).Sound := by
  obtain ⟨hindex, hcommand⟩ := List.getElem?_eq_some_iff.mp hbuilding
  have hkind := h.made command (mem_of_getElem? hbuilding)
  have hmade : ∀ made ∈ slot.worker.building.eraseIdx index, made.kind.isCreate = true :=
    fun made hmem => h.made made (mem_of_mem_eraseIdx hmem)
  have hdrop : slot.worker.building.drop index =
      command :: slot.worker.building.drop (index + 1) := by
    rw [drop_eq_getElem_cons hindex, hcommand]
  have hwork : slot.worker.inbox ++ slot.worker.building =
      (slot.worker.inbox ++ slot.worker.building.take index) ++
        command :: slot.worker.building.drop (index + 1) := by
    rw [append_assoc, ← hdrop, take_append_drop]
  have hleft : slot.worker.inbox ++ slot.worker.building.eraseIdx index =
      (slot.worker.inbox ++ slot.worker.building.take index) ++
        slot.worker.building.drop (index + 1) := by
    rw [eraseIdx_eq_take_drop_succ, append_assoc]
  obtain ⟨hmine, _⟩ := h.only hwork
  obtain ⟨core, hcore, hheld⟩ := h.created hwork
  have hopen : core.disposed = false := by
    refine eq_false_iff.mpr fun hdisp => ?_
    rw [hdisp, if_pos rfl] at hheld
    have hplain := hheld.plain command (hmine ▸ mem_cons_self)
    cases hkind.symm.trans hplain
  rw [hopen, if_neg Bool.false_ne_true] at hheld
  have hinserted : (slot.worker.runtimes.insert command.terminalId command.generation).get?
      command.terminalId = some command.generation := by
    rw [get?_insert, if_pos rfl]
  have hothers : ∀ other, other ≠ command.terminalId →
      (slot.worker.runtimes.insert command.terminalId command.generation).get? other =
        slot.worker.runtimes.get? other := by
    intro other hother
    rw [get?_insert, if_neg hother]
  have hready : ∀ more : List WorkerEvent, (∀ event ∈ more, event.key = command.key ∧
      event.terminalId = command.terminalId) →
      ({ slot with worker := { slot.worker with
        building := slot.worker.building.eraseIdx index
        runtimes := slot.worker.runtimes.insert command.terminalId command.generation
        outbox := slot.worker.outbox ++ command.reply .ready :: more } } : Slot).Sound := by
    intro more hmore
    have hchanges := worked_changes h hwork { slot.worker with
        building := slot.worker.building.eraseIdx index
        runtimes := slot.worker.runtimes.insert command.terminalId command.generation
        outbox := slot.worker.outbox ++ command.reply .ready :: more } hleft hothers rfl
      (fun event hev => by
        rcases mem_cons.mp hev with rfl | hlater
        · rfl
        · exact (hmore event hlater).2) hmade
    have hlive := hheld.ready hmine hkind fun event hev => (hmore event hev).1
    rw [← hinserted] at hlive
    exact h.changes hchanges (orderly_of_live hcore hopen hlive)
  cases outcome with
  | failed =>
    have hchanges := worked_changes h hwork { slot.worker with
        building := slot.worker.building.eraseIdx index
        outbox := slot.worker.outbox ++ [command.reply .fatalError] } hleft (fun _ _ => rfl) rfl
      (fun event hev => by rw [mem_singleton.mp hev]; rfl) hmade
    exact h.changes hchanges (orderly_of_live hcore hopen (hheld.unmade hmine hkind (hfirst rfl)))
  | ready => exact hready [] nofun
  | readyThenFailed =>
    refine hready [command.reply .fatalError] fun event hev => ?_
    rw [mem_singleton.mp hev]
    exact ⟨rfl, rfl⟩

/-- The microtask dispatches commands. -/
theorem Sound.microtask : ({ slot with
      scheduler := slot.scheduler.runMicrotask.1
      worker := { slot.worker with
        inbox := slot.worker.inbox ++ slot.scheduler.runMicrotask.2.map Prod.snd } } :
      Slot).Sound := by
  obtain ⟨hexact, _⟩ := pump_exact (h.exact.rescheduled false)
  have hconserving := pump_conserving (h.exact.rescheduled false)
  obtain ⟨hkeyed, hmoves, htags⟩ := runMicrotask_keyed h.keyed
  refine ⟨⟨hexact, hconserving, hkeyed, h.nodup, h.made⟩, fun terminalId => ?_⟩
  have hmine : (slot.scheduler.runMicrotask.2.map Prod.snd).filter (·.terminalId = terminalId) =
      forTerminal terminalId slot.scheduler.runMicrotask.2 := by
    generalize slot.scheduler.runMicrotask.2 = sent at htags ⊢
    clear hmoves
    induction sent with
    | nil => rfl
    | cons first rest ih =>
      have hfirst := htags first mem_cons_self
      have hrest := ih fun value hvalue => htags value (mem_cons_of_mem first hvalue)
      unfold forTerminal at hrest ⊢
      rw [map_cons, filter_cons, filter_cons, hrest, hfirst]
      split <;> rfl
  have hordl := h.orderly terminalId
  rcases hmoves terminalId with ⟨hqueue, hflight, hsent⟩ | ⟨command, hfree, hqueue, hflight, hsent⟩
  · have hsame : ({ slot with
        scheduler := slot.scheduler.runMicrotask.1
        worker := { slot.worker with
          inbox := slot.worker.inbox ++ slot.scheduler.runMicrotask.2.map Prod.snd } } :
        Slot).traffic terminalId = slot.traffic terminalId := by
      refine Traffic.ext rfl rfl rfl hqueue hflight ?_ rfl
      refine (filter_append _ _).trans ?_
      rw [filter_append, hmine, hsent, append_nil]
      exact (filter_append _ _).symm
    rw [hsame]
    exact hordl
  · have hqueue : (slot.traffic terminalId).queue =
        command :: slot.scheduler.runMicrotask.1.queued terminalId := hqueue
    have hfree : (slot.traffic terminalId).flight = none := hfree
    unfold Orderly at hordl
    have htraffic : ({ slot with
        scheduler := slot.scheduler.runMicrotask.1
        worker := { slot.worker with
          inbox := slot.worker.inbox ++ slot.scheduler.runMicrotask.2.map Prod.snd } } :
        Slot).traffic terminalId = { slot.traffic terminalId with
          queue := slot.scheduler.runMicrotask.1.queued terminalId
          flight := some command.key
          work := (slot.worker.inbox ++ slot.scheduler.runMicrotask.2.map Prod.snd ++
            slot.worker.building).filter (·.terminalId = terminalId) } :=
      Traffic.ext rfl rfl rfl rfl hflight rfl rfl
    rw [htraffic]
    split at hordl
    case h_1 =>
      rw [hordl] at hqueue
      cases hqueue
    case h_2 core hfound =>
      split at hordl
      case isTrue =>
        rw [hordl.quiet] at hqueue
        cases hqueue
      case isFalse hopen =>
        have hempty := hordl.grounded hfree
        have hwork : (slot.worker.inbox ++ slot.scheduler.runMicrotask.2.map Prod.snd ++
            slot.worker.building).filter (·.terminalId = terminalId) =
              (slot.traffic terminalId).work ++ [command] := by
          have hparts := append_eq_nil_iff.mp ((filter_append _ _).symm.trans hempty)
          rw [filter_append, filter_append, hmine, hsent, hparts.1, hparts.2, hempty]
          rfl
        rw [hwork]
        exact orderly_of_live hfound (eq_false_iff.mpr hopen) (hordl.dispatch hfree hqueue)

end

/-! ## A crash -/

/-- Each core that was not disposed of is created anew or rejected; there is
room for all of them. -/
theorem failAll_sound (ids : List String) (hnodup : ids.Nodup) (h : slot.Based)
    (hordl : ∀ other, other ∉ ids → Orderly (slot.traffic other))
    (hcrashed : ∀ terminalId ∈ ids, ∃ core traffic, core.disposed = false ∧
      core.recovering = false ∧ Live core traffic ∧
        slot.traffic terminalId = ⟨some core, true, none, [], none, [], []⟩)
    (hbytes : slot.scheduler.bytes + 256 * ids.length ≤ maxBytes)
    (hcommands : slot.scheduler.commands + ids.length ≤ maxCommands) :
    (failAll ids slot).Sound := by
  induction ids generalizing slot with
  | nil => exact ⟨h, fun other => hordl other not_mem_nil⟩
  | cons terminalId rest ih =>
    obtain ⟨hfresh, hnodup⟩ := nodup_cons.mp hnodup
    obtain ⟨core, traffic, hopen, hsteady, hlive, htraffic⟩ := hcrashed terminalId mem_cons_self
    rw [length_cons] at hbytes hcommands
    have hcore : slot.cores.get? terminalId = some core := congrArg Traffic.core htraffic
    have hflight : slot.scheduler.flight terminalId = none := congrArg Traffic.flight htraffic
    -- What is left of the loop, once this core failed.
    have hnext : ∀ {slot' : Slot} {after : Traffic}, slot.fail terminalId core = (slot', true) →
        Changes slot slot' terminalId after → Orderly after →
        slot'.scheduler.bytes ≤ slot.scheduler.bytes + 256 →
        slot'.scheduler.commands ≤ slot.scheduler.commands + 1 →
        (failAll (terminalId :: rest) slot).Sound := by
      intro slot' after hfail hchanges hafter hmore hmany
      unfold failAll
      rw [hcore]
      dsimp only
      rw [hfail]
      change (failAll rest slot').Sound
      refine ih hnodup hchanges.based (fun other hother => ?_) (fun other hother => ?_)
        (by omega) (by omega)
      · by_cases hsame : other = terminalId
        · rw [hsame, hchanges.here]
          exact hafter
        · rw [hchanges.others other hsame]
          exact hordl other fun hmem => (mem_cons.mp hmem).elim hsame hother
      · have hsame : other ≠ terminalId := fun hsame => hfresh (hsame ▸ hother)
        rw [hchanges.others other hsame]
        exact hcrashed other (mem_cons_of_mem terminalId hother)
    by_cases hrslv : core.resolved = true
    · have hroom : slot.roomy := by
        have hone : 256 ≤ 256 * (rest.length + 1) := Nat.le_mul_of_pos_right 256 (Nat.succ_pos _)
        exact And.intro ((Nat.add_le_add_left hone _).trans hbytes)
          ((Nat.add_le_add_left (Nat.succ_pos _) _).trans hcommands)
      obtain ⟨slot', hfail, hchanges, hmore, hmany⟩ := fail_recovers terminalId core h
        hopen hsteady (hlive.running hrslv).accepts hroom
      rw [htraffic] at hchanges
      refine hnext hfail hchanges (orderly_of_live rfl ?_ (hlive.crash hrslv rfl rfl))
        hmore.le hmany.le
      exact hopen
    · obtain ⟨slot', core', hfail, hdisp, hchanges, hmore, hmany⟩ := fail_rejects
        terminalId core h hopen hsteady
        (hlive.starting (eq_false_iff.mpr hrslv)).rejects (.inr hflight)
      rw [htraffic] at hchanges
      refine hnext hfail hchanges (orderly_of_released rfl hdisp ?_) (by omega) (by omega)
      exact ⟨rfl, rfl, rfl, rfl, Nat.zero_le 1, nofun⟩

theorem Sound.crash (h : slot.Sound) (hsteady : ∀ id core, slot.cores.get? id = some core →
      core.disposed = false → core.recovering = false)
    (hfew : slot.terminals.length ≤ maxCommands) : slot.crash.Sound := by
  have hempty : ∀ other, (slot.scheduler.reset).queued other = [] ∧
      (slot.scheduler.reset).flight other = none := fun _ => ⟨rfl, rfl⟩
  refine failAll_sound slot.terminals h.nodup ⟨exact_empty.rescheduled _, .inr (.inr rfl),
    fun _ _ hnone => (nomatch hnone), h.nodup, fun _ hnone => (nomatch hnone)⟩ ?_ ?_ ?_ ?_
  · intro other hother
    have hordl := h.orderly other
    have hunregistered : (slot.traffic other).registered = false := decide_eq_false hother
    unfold Orderly at hordl
    split at hordl
    case h_1 hnone =>
      unfold Orderly
      have hcore : slot.cores.get? other = none := hnone
      dsimp only [traffic]
      rw [hcore]
      exact Traffic.ext rfl hunregistered rfl rfl rfl rfl rfl
    case h_2 core hcore =>
      split at hordl
      case isTrue hdisp =>
        exact orderly_of_released hcore hdisp ⟨hunregistered, rfl, rfl, rfl, Nat.zero_le 1,
          nofun⟩
      case isFalse => cases hunregistered.symm.trans hordl.registered
  · intro id hmem
    have hordl := h.orderly id
    have hregd : (slot.traffic id).registered = true := decide_eq_true hmem
    unfold Orderly at hordl
    split at hordl
    case h_1 =>
      rw [hordl] at hregd
      cases hregd
    case h_2 core hcore =>
      split at hordl
      case isTrue => cases hregd.symm.trans hordl.unregistered
      case isFalse hopen =>
        have hopen := eq_false_iff.mpr hopen
        exact ⟨core, _, hopen, hsteady id core hcore hopen, hordl,
          Traffic.ext hcore hregd rfl rfl rfl rfl rfl⟩
  · have hreset : (slot.scheduler.reset).bytes = 0 := rfl
    have hlimit : 256 * maxCommands ≤ maxBytes := by decide
    have hmul := Nat.mul_le_mul_left 256 hfew
    dsimp only
    omega
  · have hreset : (slot.scheduler.reset).commands = 0 := rfl
    dsimp only
    omega

/-! ## A terminal of the slot -/

theorem Sound.create (h : slot.Sound) (hnew : slot.cores.get? terminalId = none)
    (presentation : WorkerPriority) : (slot.create terminalId presentation).Sound := by
  have hnone : slot.traffic terminalId = .none := by
    have hordl := h.orderly terminalId
    unfold Orderly at hordl
    have hcore : (slot.traffic terminalId).core = none := hnew
    rw [hcore] at hordl
    exact hordl
  have habsent : terminalId ∉ slot.terminals :=
    of_decide_eq_false (congrArg Traffic.registered hnone)
  have hadded : Changes slot { slot with terminals := slot.terminals ++ [terminalId] } terminalId
      { slot.traffic terminalId with registered := true } := {
    based := ⟨h.exact, h.conserving, h.keyed, by
      refine h.nodup.append (nodup_singleton _) ?_
      rwa [disjoint_singleton], h.made⟩
    here := Traffic.ext rfl (decide_eq_true (by simp)) rfl rfl rfl rfl rfl
    others := fun other hother =>
      Traffic.ext rfl (decide_eq_decide.mpr (by simp [hother])) rfl rfl rfl rfl rfl }
  obtain ⟨slot', accepted, hsend, hsends⟩ := send_sends hadded.based terminalId
    (.start presentation) (.create presentation) 256
  have hwhole := hadded.trans hsends.changes
  rw [hadded.here, hnone] at hwhole
  unfold Slot.create
  rw [hsend]
  refine h.changes hwhole (orderly_of_live rfl rfl ?_)
  cases accepted with
  | true => exact live_start presentation rfl rfl
  | false => exact live_unsent presentation

theorem empty_sound : Slot.empty.Sound where
  exact := exact_empty
  conserving := .inr (.inr rfl)
  keyed := nofun
  nodup := nodup_nil
  made := nofun
  orderly := fun _ => rfl

/-- A terminal is disposed of only where its worker holds neither an entry for
it nor a create of it; the create of a recovery does not fail; the worker does
not crash while one of its terminals recovers; there is room in the scheduler
for the commands that recover terminals or end their initialization. -/
def Tended (slot : Slot) : SlotAction → Prop
  | .dispose terminalId => ∀ core, slot.cores.get? terminalId = some core →
      core.disposed = false → core.recovering = true ∨ slot.roomy → slot.unheld terminalId
  | .initializationTimeout terminalId => ∀ core, slot.cores.get? terminalId = some core →
      core.disposed = false → slot.unheld terminalId ∧ slot.roomy
  | .built index outcome => ∀ command, slot.worker.building[index]? = some command →
      outcome = .failed → command.generation = 1
  | .receive => ∀ event rest, slot.worker.outbox = event :: rest →
      event.kind = .fatalError ∨ event.kind = .recoverableError → slot.roomy
  | .crash => slot.terminals.length ≤ maxCommands ∧
      ∀ terminalId core, slot.cores.get? terminalId = some core →
        core.disposed = false → core.recovering = false
  | .command _ _ | .setPresentationState _ _ | .microtask | .workerReceive _ => True

theorem Sound.step (h : slot.Sound) {action : SlotAction} (htended : slot.Tended action)
    (hstep : slotStep slot action = some slot') : slot'.Sound := by
  cases action with
  | command terminalId bytes =>
    obtain ⟨core, hcore, hstep⟩ := bind_eq_some_iff.mp hstep
    obtain ⟨hrslv, hstep⟩ := ite_none_right_eq_some.mp hstep
    cases hstep
    exact h.command hcore hrslv core.presentation .other rfl (nofun) bytes
  | setPresentationState terminalId presentation =>
    obtain ⟨core, hcore, hstep⟩ := bind_eq_some_iff.mp hstep
    obtain ⟨hrslv, hstep⟩ := ite_none_right_eq_some.mp hstep
    cases hstep
    unfold Slot.setPresentationState
    split
    · exact h
    · exact h.command hcore hrslv presentation (.setPresentationState presentation)
        rfl (nofun) 256
  | dispose terminalId =>
    obtain ⟨core, hcore, hstep⟩ := bind_eq_some_iff.mp hstep
    obtain ⟨hrslv, hstep⟩ := ite_none_right_eq_some.mp hstep
    cases hstep
    exact h.dispose hcore core.initializationTimeout core.initializationReject
      (htended core hcore) fun _ _ => .inr rfl
  | initializationTimeout terminalId =>
    obtain ⟨core, hcore, hstep⟩ := bind_eq_some_iff.mp hstep
    obtain ⟨_, hstep⟩ := ite_none_right_eq_some.mp hstep
    cases hstep
    exact h.dispose hcore false false
      (fun hopen _ => (htended core hcore hopen).1) fun hopen _ =>
        .inl (htended core hcore hopen).2
  | microtask =>
    obtain ⟨_, hstep⟩ := ite_none_right_eq_some.mp hstep
    cases hstep
    exact h.microtask
  | workerReceive throws =>
    simp only [slotStep] at hstep
    split at hstep
    · cases hstep
    rename_i command rest hinbox
    cases hstep
    exact h.workerReceive hinbox throws
  | built index outcome =>
    obtain ⟨command, hbuilding, hstep⟩ := bind_eq_some_iff.mp hstep
    obtain ⟨_, hstep⟩ := ite_none_left_eq_some.mp hstep
    cases hstep
    exact h.built hbuilding outcome (htended command hbuilding)
  | receive =>
    simp only [slotStep] at hstep
    split at hstep
    · cases hstep
    rename_i event rest houtbox
    cases hstep
    exact h.onMessage houtbox (htended event rest houtbox)
  | crash =>
    cases hstep
    exact h.crash htended.2 htended.1

def quiet (slot : Slot) : Prop :=
  slot.worker.inbox = [] ∧ slot.worker.building = [] ∧ slot.worker.outbox = [] ∧
    slot.scheduler.scheduled = false

theorem Sound.idle (h : slot.Sound) (hquiet : slot.quiet) (id : String) :
    slot.scheduler.flight id = none := by
  obtain ⟨hinbox, hbuilding, houtbox, _⟩ := hquiet
  refine eq_none_iff_forall_ne_some.mpr fun key hkey => ?_
  have hordl := h.orderly id
  unfold Orderly at hordl
  have hflight : (slot.traffic id).flight = some key := hkey
  have hwork : (slot.traffic id).work = [] := by
    refine (congrArg (List.filter _) ?_).trans filter_nil
    rw [hinbox, hbuilding]
    rfl
  have hnone : (slot.traffic id).outbox = [] := (congrArg (List.filter _) houtbox).trans filter_nil
  split at hordl
  · rw [hordl] at hflight
    cases hflight
  split at hordl
  · cases hordl.landed.symm.trans hflight
  rcases hordl.flying key hflight with ⟨command, hmine, _⟩ | ⟨_, event, hev, _⟩
  · cases hwork.symm.trans hmine
  · rw [hnone] at hev
    cases hev

theorem Sound.unqueued (h : slot.Sound) (hquiet : slot.quiet) (terminalId : String) :
    slot.scheduler.queued terminalId = [] := by
  have hnone : slot.scheduler.inFlight = 0 := by
    rw [h.exact.inFlight]
    refine total_eq_zero fun id lane hlane => ?_
    have hflight := h.idle hquiet id
    rw [flight, hlane] at hflight
    have hflight : lane.inFlightKey = none := hflight
    simp [Lane.inFlight, hflight]
  have hidle : slot.scheduler.dispatchable = false := by
    rcases h.conserving with hscheduled | hfull | hidle
    · cases hquiet.2.2.2.symm.trans hscheduled
    · rw [hnone] at hfull
      cases hfull
    · exact hidle
  unfold queued
  cases hlane : slot.scheduler.lanes.get? terminalId with
  | none => rfl
  | some lane =>
    have hflight := h.idle hquiet terminalId
    rw [flight, hlane] at hflight
    have hflight : lane.inFlightKey = none := hflight
    have hwaits := dispatchable_eq_false.mp hidle terminalId lane hlane
    have hempty : lane.queue = [] := by simpa [Lane.waiting, hflight] using hwaits
    simp [hempty]

theorem Sound.recovered (h : slot.Sound) (hquiet : slot.quiet)
    (hcore : slot.cores.get? terminalId = some core) (hopen : core.disposed = false)
    (hrslv : core.resolved = true) : core.recovering = false := by
  refine eq_false_iff.mpr fun hrecov => ?_
  have hlive := orderly_live (h.orderly terminalId) hcore hopen
  have hwork : (slot.traffic terminalId).work = [] := hlive.grounded (h.idle hquiet terminalId)
  have hline : (slot.traffic terminalId).line = [] :=
    append_eq_nil_iff.mpr ⟨hwork, h.unqueued hquiet terminalId⟩
  rcases ((hlive.running hrslv).recovers hrecov).2 with
    ⟨command, hmem, _⟩ | ⟨event, hmem, _⟩
  · rw [hline] at hmem
    cases hmem
  have hnone : (slot.traffic terminalId).outbox = [] :=
    (congrArg (List.filter _) hquiet.2.2.1).trans filter_nil
  rw [hnone] at hmem
  cases hmem

/-- The worker has no entry for a terminal that was disposed of, and no terminal
that was initialized is left recovering. -/
def Kept (slot : Slot) : Prop :=
  ∀ terminalId core, slot.cores.get? terminalId = some core →
    (core.disposed = true → slot.quiet → slot.worker.runtimes.get? terminalId = none) ∧
    (core.disposed = false → core.resolved = true → slot.quiet → core.recovering = false)

theorem Sound.kept (h : slot.Sound) : slot.Kept := by
  intro terminalId core hcore
  constructor
  · exact fun hdisp _ => (orderly_released (h.orderly terminalId) hcore hdisp).removed
  · exact fun hopen hrslv hquiet => h.recovered hquiet hcore hopen hrslv

end Slot

/-! ## The pool -/

namespace TerminalWorkerPool

def Tended (pool : TerminalWorkerPool) : PoolAction → Prop
  | .create _ _ => True
  | .slot index action => ∀ slot, pool.slots[index]? = some slot → slot.Tended action

def Sound (pool : TerminalWorkerPool) : Prop := ∀ slot ∈ pool.slots, slot.Sound

variable {pool pool' : TerminalWorkerPool} {hardwareConcurrency : Nat}

theorem Sound.step (h : pool.Sound) {action : PoolAction} (htended : pool.Tended action)
    (hstep : (poolSystem hardwareConcurrency).step pool action = some pool') : pool'.Sound := by
  cases action with
  | create terminalId presentation =>
    simp only [poolSystem] at hstep
    split at hstep
    · cases hstep
    rename_i hunused
    cases hstep
    have hgrown : ∀ slot ∈ (pool.grow (workerLimit hardwareConcurrency)).slots,
        slot.Sound ∧ slot.cores.get? terminalId = none := by
      intro slot hslot
      rcases mem_append.mp hslot with hold | hnew
      · refine ⟨h slot hold, ?_⟩
        have habsent : ¬slot.cores.contains terminalId = true := fun hcont =>
          hunused (List.any_eq_true.mpr ⟨slot, hold, hcont⟩)
        unfold IndexMap.contains at habsent
        exact not_isSome_iff_eq_none.mp habsent
      · rw [eq_of_mem_replicate hnew]
        exact ⟨Slot.empty_sound, rfl⟩
    intro slot hslot
    obtain ⟨index, hindex, rfl⟩ := mem_iff_getElem.mp hslot
    rw [getElem_modify]
    rw [length_modify] at hindex
    have hthere := hgrown _ (getElem_mem hindex)
    split
    · exact hthere.1.create hthere.2 presentation
    · exact hthere.1
  | slot index action =>
    obtain ⟨slot, hslot, hmap⟩ := bind_eq_some_iff.mp hstep
    obtain ⟨next, hnext, rfl⟩ := map_eq_some_iff.mp hmap
    intro other hother
    rcases mem_or_eq_of_mem_set hother with hold | rfl
    · exact h other hold
    · exact (h slot (mem_of_getElem? hslot)).step (htended slot hslot) hnext

end TerminalWorkerPool

/-- No entry of a worker outlives its terminal, and no terminal stays behind in
a recovery. -/
theorem pool_keeps {hardwareConcurrency : Nat} {pool : TerminalWorkerPool}
    (hrun : (poolSystem hardwareConcurrency).Run TerminalWorkerPool.Tended pool) :
    ∀ slot ∈ pool.slots, slot.Kept := by
  have hsound : pool.Sound := by
    refine hrun.invariant (fun start hstart => ?_) fun _ _ _ h => h.step
    cases hstart
    exact fun _ hnone => by cases hnone
  exact fun slot hslot => (hsound slot hslot).kept

/-! ## A sample -/

section Sample

def inSlot (actions : List SlotAction) : List PoolAction := actions.map (.slot 0)

def begin (terminalId : String) : List PoolAction :=
  .create terminalId ⟨true, true⟩ :: inSlot [.microtask, .workerReceive false, .built 0 .ready, .receive]

/-- The first terminal fails and recovers; the second one times out before its
create is dispatched. -/
def recoveryRun : List PoolAction :=
  begin "terminal-1" ++
    inSlot [.command "terminal-1" 16, .microtask, .workerReceive true, .receive, .microtask,
      .workerReceive false, .built 0 .ready, .receive] ++
    [.create "terminal-2" ⟨true, false⟩] ++
    inSlot [.initializationTimeout "terminal-2", .microtask]

def sampleCheck (pool : TerminalWorkerPool) : PoolAction → Bool
  | .create _ _ => true
  | .slot _ action => match action with
      | .command _ _ | .setPresentationState _ _ | .microtask | .workerReceive _ => true
      | .built _ outcome => outcome != .failed
      | .receive => pool.slots.all fun slot => slot.scheduler.bytes + 256 ≤ maxBytes ∧
          slot.scheduler.commands + 1 ≤ maxCommands
      | .initializationTimeout terminalId => pool.slots.all fun slot =>
        slot.worker.runtimes.get? terminalId = none ∧ slot.worker.inbox = [] ∧
          slot.worker.building = [] ∧ slot.scheduler.bytes + 256 ≤ maxBytes ∧
            slot.scheduler.commands + 1 ≤ maxCommands
      | .dispose _ | .crash => false

theorem sampleCheck_tended {pool : TerminalWorkerPool} {action : PoolAction}
    (h : sampleCheck pool action = true) : pool.Tended action := by
  cases action with
  | create terminalId presentation => trivial
  | slot index action =>
    intro slot hslot
    have hmem := mem_of_getElem? hslot
    cases action with
    | command _ _ | setPresentationState _ _ | microtask | workerReceive _ => trivial
    | built _ outcome =>
      intro command _ hfailed
      rw [hfailed] at h
      cases h
    | receive =>
      intro _ _ _ _
      have hroom : slot.scheduler.bytes + 256 ≤ maxBytes ∧
          slot.scheduler.commands + 1 ≤ maxCommands :=
        of_decide_eq_true (List.all_eq_true.mp h slot hmem)
      exact hroom
    | initializationTimeout terminalId =>
      intro core _ _
      obtain ⟨hrtime, hinbox, hbuilding, hroom⟩ :=
        of_decide_eq_true (List.all_eq_true.mp h slot hmem)
      refine ⟨⟨hrtime, fun command hcommand => ?_⟩, hroom⟩
      rw [hinbox, hbuilding] at hcommand
      cases hcommand
    | dispose _ | crash => cases h

def quietCheck (slot : Slot) : Bool :=
  decide (slot.worker.inbox = []) && decide (slot.worker.building = []) &&
    decide (slot.worker.outbox = []) && !slot.scheduler.scheduled

theorem quietCheck_quiet {slot : Slot} (h : quietCheck slot = true) : slot.quiet := by
  unfold quietCheck at h
  simpa [Slot.quiet, and_assoc] using h

theorem pool_keeps_sample : ∃ pool, (poolSystem 2).Run TerminalWorkerPool.Tended pool ∧
    (∃ slot ∈ pool.slots, slot.quiet ∧
      (slot.cores.get? "terminal-1").any (fun core => core.generation == 2) = true ∧
      (slot.cores.get? "terminal-2").any WorkerTerminalCore.disposed = true) ∧
    ∀ slot ∈ pool.slots, slot.Kept := by
  have hany : ((poolSystem 2).replay sampleCheck ⟨[]⟩ recoveryRun).any (fun pool =>
      pool.slots.any fun slot => quietCheck slot &&
        ((slot.cores.get? "terminal-1").any (fun core => core.generation == 2) &&
          (slot.cores.get? "terminal-2").any WorkerTerminalCore.disposed)) = true := by
    decide
  obtain ⟨pool, hpool, hslots⟩ := (any_eq_true _ _).mp hany
  obtain ⟨slot, hslot, hchecks⟩ := List.any_eq_true.mp hslots
  obtain ⟨hquiet, hcores⟩ := and_eq_true_iff.mp hchecks
  obtain ⟨hrecovered, hdisp⟩ := and_eq_true_iff.mp hcores
  have hrun : (poolSystem 2).Run TerminalWorkerPool.Tended pool :=
    System.replay_run (System.Run.start rfl) (fun _ _ _ hcheck => sampleCheck_tended hcheck) hpool
  exact ⟨pool, hrun, ⟨slot, hslot, quietCheck_quiet hquiet, hrecovered, hdisp⟩, pool_keeps hrun⟩

/-- A terminal that is disposed of leaves its entry with the worker, and one
whose worker crashes while it recovers stays in the recovery. -/
theorem pool_leaks : (¬ ∀ pool, (poolSystem 2).Reachable pool → ∀ slot ∈ pool.slots,
      ∀ terminalId core, slot.cores.get? terminalId = some core → core.disposed = true →
        slot.quiet → slot.worker.runtimes.get? terminalId = none) ∧
    ¬ ∀ pool, (poolSystem 2).Reachable pool → ∀ slot ∈ pool.slots,
      ∀ terminalId core, slot.cores.get? terminalId = some core → core.disposed = false →
        core.resolved = true → slot.quiet → core.recovering = false := by
  constructor
  · intro hall
    have hany : ((poolSystem 2).replay (fun _ _ => true) ⟨[]⟩ (begin "terminal-1" ++
        inSlot [.dispose "terminal-1", .microtask])).any (fun pool => pool.slots.any fun slot =>
          quietCheck slot && ((slot.cores.get? "terminal-1").any WorkerTerminalCore.disposed &&
            (slot.worker.runtimes.get? "terminal-1").isSome)) = true := by decide
    obtain ⟨pool, hpool, hslots⟩ := (any_eq_true _ _).mp hany
    obtain ⟨slot, hslot, hchecks⟩ := List.any_eq_true.mp hslots
    obtain ⟨hquiet, hrest⟩ := and_eq_true_iff.mp hchecks
    obtain ⟨hdisp, hentry⟩ := and_eq_true_iff.mp hrest
    obtain ⟨core, hcore, hdisp⟩ := (any_eq_true _ _).mp hdisp
    have hnone := hall pool
      (System.replay_run (System.Run.start rfl) (fun _ _ _ _ => trivial) hpool) slot hslot
      "terminal-1" core hcore hdisp (quietCheck_quiet hquiet)
    rw [hnone] at hentry
    cases hentry
  · intro hall
    have hany : ((poolSystem 2).replay (fun _ _ => true) ⟨[]⟩ (begin "terminal-1" ++
        inSlot [.crash, .crash, .microtask])).any (fun pool => pool.slots.any fun slot =>
          quietCheck slot && (slot.cores.get? "terminal-1").any fun core =>
            !core.disposed && core.resolved && core.recovering) = true := by decide
    obtain ⟨pool, hpool, hslots⟩ := (any_eq_true _ _).mp hany
    obtain ⟨slot, hslot, hchecks⟩ := List.any_eq_true.mp hslots
    obtain ⟨hquiet, hstuck⟩ := and_eq_true_iff.mp hchecks
    obtain ⟨core, hcore, hstates⟩ := (any_eq_true _ _).mp hstuck
    obtain ⟨hfirst, hrecov⟩ := and_eq_true_iff.mp hstates
    obtain ⟨hopen, hrslv⟩ := and_eq_true_iff.mp hfirst
    have hdone := hall pool
      (System.replay_run (System.Run.start rfl) (fun _ _ _ _ => trivial) hpool) slot hslot
      "terminal-1" core hcore (by simpa using hopen) hrslv (quietCheck_quiet hquiet)
    rw [hdone] at hrecov
    cases hrecov

end Sample

end Yaade.Workers

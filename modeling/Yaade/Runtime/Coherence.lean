import Yaade.Runtime.Serial

/-!
Every request, every exit and every host restart keeps the records of the
terminals in order, as long as what has to be written down is written down.
-/

namespace Yaade.Runtime

open Yaade.Library Yaade.Store List Option PersistedState Program

/-! ## Requests -/

section Requests

variable {host : Host}

/-- After the end of its process, or without one, a record is left out of the
invariant until it is written. -/
structure Stopped (terminal : MuxTerminal) (host : Host) : Prop
    extends Tidy (some terminal.id) host where
  found : host.catalog.terminal? terminal.id = some terminal
  recorded : Recorded host.issued terminal
  gone : ∀ ptyId, terminal.output.ptyId = some ptyId → ptyId ∉ host.live

variable {terminal : MuxTerminal} {catalog : PersistedState}

theorem Tidy.stopped (h : Tidy none host)
    (hfound : host.catalog.terminal? terminal.id = some terminal)
    (hgone : ∀ ptyId, terminal.output.ptyId = some ptyId → ptyId ∉ host.live) :
    Stopped terminal host :=
  ⟨h.but _, hfound, (h.records _ _ hfound nofun).toRecorded, hgone⟩

section

variable (h : Stopped terminal host)
include h

theorem Stopped.tidy (hstatus : terminal.status ≠ .running) : Tidy none host := by
  refine h.toTidy.settle fun found hfound => ?_
  cases Option.some.inj (h.found.symm.trans hfound)
  exact h.recorded.settled hstatus h.gone

theorem Stopped.stale (hstatus : terminal.status = .running) : Stale host terminal.id :=
  ⟨terminal, h.found, hstatus, h.gone⟩

theorem Stopped.refused {answers : Answers} {edit : TerminalEdit}
    (hsure : Sure answers host (.store (.updateTerminal terminal.id (some terminal.revision) edit)))
    (hfence : fenceHolds answers.env host.catalog terminal.id (some terminal.revision) = false) :
    Tidy none host := by
  refine h.tidy fun hstatus => ?_
  have hdatabase := hsure.1 (h.stale hstatus)
  simp [fenceHolds, hdatabase, h.found] at hfence

theorem Stopped.update (edit : TerminalEdit)
    {now uuid : String} (hstatus : (edit.apply uuid terminal).status ≠ .running)
    (hsame : (edit.apply uuid terminal).output.ptyId = terminal.output.ptyId)
    (hrecorded : Recorded host.issued (stampTerminal now (edit.apply uuid terminal))) :
    Tidy none { host with
      catalog := host.catalog.putTerminal (stampTerminal now (edit.apply uuid terminal)) } := by
  refine h.toTidy.update (.inr rfl) h.found edit (hrecorded.settled hstatus ?_)
    (h.toTidy.apart h.found hsame)
  intro ptyId hpty
  exact h.gone ptyId (hsame ▸ hpty)

end

/-- A dispose leaves the record of its PTY stopped, unless it fails, and then it
has ended nothing. -/
theorem ensures_disposeOutput {β : Type} {f : Unit → HostM β}
    (h : Tidy none host) (hfound : host.catalog.terminal? terminal.id = some terminal)
    (hf : ∀ next, Stopped terminal next → HostEnsures (f ()) next fun _ => Tidy none) :
    HostEnsures (disposeOutput terminal >>= f) host fun _ => Tidy none := by
  unfold disposeOutput
  split
  · rename_i ptyId hpty
    have hsettl := h.records _ _ hfound nofun
    refine ensures_call fun answer next hserved => ?_
    obtain ⟨answers, hsure, hanswer⟩ := hserved
    obtain ⟨⟨outcome, ended, after⟩, hdispose, heq⟩ := map_eq_some_iff.mp hanswer
    cases heq
    cases hstop : answers.stop with
    | done =>
      rw [hstop] at hdispose
      cases hdispose
      refine hf _ ⟨h.withoutProcess hfound hpty, hfound, hsettl.toRecorded, ?_⟩
      intro other hother hlive
      cases Option.some.inj (hpty.symm.trans hother)
      simpa using (mem_filter.mp hlive).2
    | missing =>
      rw [hstop, Host.dispose] at hdispose
      split at hdispose
      · cases hdispose
      rename_i hdead
      cases hdispose
      refine hf _ (h.stopped hfound ?_)
      intro other hother
      cases Option.some.inj (hpty.symm.trans hother)
      exact hdead
    | refused what killed =>
      cases killed with
      | false =>
        rw [hstop] at hdispose
        cases hdispose
        exact ensures_done h
      | true =>
        -- what it ended was not running
        have hdead : ptyId ∉ host.live := fun hlive => hsure hlive what hstop
        rw [hstop] at hdispose
        cases hdispose
        have hsame : host.withoutProcess ptyId = host := by
          unfold Host.withoutProcess
          rw [filter_eq_self.mpr]
          intro other hother
          simp only [bne_iff_ne, ne_eq]
          rintro rfl
          exact hdead hother
        refine ensures_done ?_
        rw [hsame]
        exact h
  · rename_i hnone
    refine hf _ (h.stopped hfound fun ptyId hpty => ?_)
    rw [hnone] at hpty
    cases hpty

/-- The end of a create or restart, from a record that is stored as starting. -/
theorem ensures_launch {starting : MuxTerminal} {generations : Nat} (h : Tidy none host)
    (hfound : host.catalog.terminal? starting.id = some starting)
    (hstatus : starting.status = .starting) :
    HostEnsures (launch starting generations) host fun _ => Tidy none := by
  refine ensures_create ?_ ?_
  · intro pty hfresh
    have hnext := h.withProcess hfresh
    refine ensures_update ?_ fun _ _ _ _ => hnext
    intro answers old running _ _ hold hrunn
    have heq : old = starting := Option.some.inj (hold.symm.trans hfound)
    subst heq
    have hrecorded := (h.records _ _ hfound nofun).toRecorded
    have hlive : old.status.isLive = true := by rw [hstatus]; rfl
    obtain ⟨hfin, harch⟩ := hrecorded.of_live hlive
    refine ensures_emit (ensures_done ?_)
    rw [hrunn]
    refine hnext.update (.inl rfl) hfound _ ?_ ?_
    · refine ⟨Recorded.lives rfl hfin harch ?_, ?_, ?_⟩
      · intro ptyId hpty
        cases hpty
        exact mem_cons_self
      · exact fun _ => ⟨pty.id, rfl, mem_cons_self⟩
      · exact fun _ _ _ => rfl
    · intro j other ptyId _ hother hpty hsome
      cases hpty
      exact hfresh ((h.records j other hother nofun).issued _ hsome)
  · intro error next hnext
    have htidy : Tidy none next ∧ next.catalog = host.catalog := by
      rcases hnext with rfl | ⟨ptyId, hfresh, rfl⟩
      · exact ⟨h, rfl⟩
      · exact ⟨h.withProcess hfresh, rfl⟩
    have hnotRunning : starting.status ≠ .running := by simp [hstatus]
    rw [← htidy.2] at hfound
    have hsettl := htidy.1.records _ _ hfound nofun
    refine ensures_update ?_ fun _ _ _ _ => htidy.1
    intro answers old failed _ _ hold hfailed
    have heq : old = starting := Option.some.inj (hold.symm.trans hfound)
    subst heq
    refine ensures_emit (ensures_done ?_)
    rw [hfailed]
    refine (htidy.1.stopped hfound (hsettl.gone hnotRunning)).update (failedEdit error) nofun
      rfl (Recorded.ended rfl ?_)
    exact hsettl.issued

section

variable (h : Tidy none host)
include h

/-- A new record is settled, and no PTY is its own. -/
theorem Tidy.created {env : StoreEnv} (hfresh : env.Fresh host.catalog)
    {sessionId title : String} {tabId : Option String} {input : TerminalInput}
    {created : MuxTerminal}
    (hok : createTerminal env sessionId tabId title input host.catalog = .ok (created, catalog)) :
    Tidy none { host with catalog } ∧ catalog.terminal? created.id = some created ∧
      created.status = .created := by
  have hsound := h.sound.createTerminal hfresh hok
  obtain ⟨selected, _, -, -, hcrd, -⟩ := createTerminal_ok hok
  obtain ⟨_, tab, session, -, -, -, hnone, -, -, -, hsess, rfl⟩ :=
    createTerminal_writes h.sound.keyed hfresh hok
  have hwrites : ∀ j, ((host.catalog.pushTerminal created).terminal? j) =
      if j = created.id then some created else host.catalog.terminal? j := by
    intro j
    rw [terminal?_pushTerminal]
    by_cases hj : j = created.id
    · rw [hj, hnone]
      simp
    · simp [hj, Ne.symm hj]
  refine ⟨h.put hsound (.inl rfl) hwrites ?_ ?_ ?_ ?_, ?_, ?_⟩
  · intro j found hfound
    simp only [session?_putSession, session?_putTab]
    have hpushed : (host.catalog.pushTerminal created).session? j = some found := hfound
    rw [hpushed]
    split
    · exact ⟨_, rfl⟩
    · exact ⟨_, rfl⟩
  · rw [hcrd]
    exact ⟨session, hsess⟩
  · rw [hcrd]
    refine ⟨⟨?_, ?_, nofun⟩, nofun, nofun⟩
    · constructor
      · intro habs
        exact absurd rfl habs
      · intro habs
        cases habs
    · intro habs
      exact absurd rfl habs
  · intro j other ptyId _ _ hpty
    rw [hcrd] at hpty
    cases hpty
  · have hfound := hwrites created.id
    rw [if_pos rfl] at hfound
    exact hfound
  · rw [hcrd]
    rfl

theorem ensures_addMuxTerminal (command : CreateTerminalCommand)
    (input : TerminalInput) : HostEnsures (addMuxTerminal command input) host fun outcome next =>
      match outcome with
      | .ok created => Tidy none next ∧ next.catalog.terminal? created.id = some created ∧
          created.status = .created
      | .error _ => Tidy none next := by
  refine ensures_getSession fun previousSession => ensures_readTab fun previousTab => ?_
  refine ensures_call fun answer next hserved => ?_
  obtain ⟨answers, hfresh, hanswer⟩ := hserved
  simp only [Host.answer, Option.some.injEq] at hanswer
  cases hres : (StoreCall.createTerminal command.sessionId command.tabId
      (command.title.getD "Terminal") input).perform answers.env host.catalog with
  | mk outcome catalog =>
    rw [hres] at hanswer
    cases hanswer
    cases outcome with
    | error error =>
      have hsame : catalog = host.catalog := mutate_error hres
      subst hsame
      exact ensures_done h
    | ok created =>
      have hcrd := h.created hfresh (mutate_ok.mp hres).1
      refine ensures_emit (ensures_readTab fun tab => ensures_emitAll ?_)
      refine ensures_getSession fun session => ensures_emitAll ?_
      exact ensures_done hcrd

theorem ensures_createMuxTerminal (command : CreateTerminalCommand) :
    HostEnsures (createMuxTerminal command) host fun _ => Tidy none := by
  unfold createMuxTerminal CreateTerminalCommand.checked
  split
  · split
    · rename_i input _
      show HostEnsures (addMuxTerminal command input >>= fun _ => _) host _
      refine Program.Ensures.fallible_bind (Q := fun created next => Tidy none next ∧
        next.catalog.terminal? created.id = some created ∧ created.status = .created)
        ((ensures_addMuxTerminal h command input).mono ?_) ?_
      · rintro (error | created) next hadded <;> exact hadded
      rintro created next ⟨htidy, hfound, hstatus⟩
      refine ensures_update ?_ fun _ _ _ _ => htidy
      intro answers old starting _ _ hold hstarting
      have heq : old = created := Option.some.inj (hold.symm.trans hfound)
      subst heq
      have hsettl := htidy.records _ _ hfound nofun
      obtain ⟨hfin, harch⟩ := hsettl.of_live (by rw [hstatus]; rfl)
      have hgone := hsettl.gone (by simp [hstatus])
      have hrecorded : Recorded _ (stampTerminal (answers.env.now 0)
          (startingEdit.apply (answers.env.uuid 0) old)) :=
        Recorded.lives rfl hfin harch hsettl.issued
      have hnext := (htidy.stopped hfound hgone).update startingEdit nofun rfl hrecorded
      rw [← hstarting] at hnext
      refine ensures_emit (ensures_launch hnext ?_ ?_)
      · rw [terminal?_putTerminal, if_pos rfl, hstarting]
        simp [hfound]
      · rw [hstarting]
        rfl
    · exact ensures_done h
  · exact ensures_done h

theorem ensures_restartMuxTerminal (id : String) (revision : Nat) :
    HostEnsures (restartMuxTerminal id revision) host fun _ => Tidy none := by
  refine ensures_knownTerminal ?_ fun _ => h
  intro current hfound
  have hid := terminal?_id hfound
  subst hid
  refine ensures_checkRevision ?_ fun _ => h
  rintro rfl
  refine ensures_disposeOutput h hfound fun next hstopped => ?_
  refine ensures_update ?_ fun _ _ hsure hfence => hstopped.refused hsure hfence
  intro answers old starting hsure hfence hold hstarting
  have heq : old = current := Option.some.inj (hold.symm.trans hstopped.found)
  subst heq
  have hdatabase : answers.env.database = none := by
    simp only [fenceHolds, Bool.and_eq_true, isNone_iff_eq_none] at hfence
    exact hfence.1
  have hfin := hsure.2 rfl hdatabase old hstopped.found
  have hlive : old.status.isLive = true := by
    by_contra hended
    exact hstopped.recorded.finished.mpr (by simpa using hended) hfin
  have hrecorded : Recorded _ (stampTerminal (answers.env.now 0)
      (restartEdit.apply (answers.env.uuid 0) old)) :=
    Recorded.lives rfl hfin (hstopped.recorded.of_live hlive).2 hstopped.recorded.issued
  have hnext := hstopped.update restartEdit (by intro habs; cases habs) rfl hrecorded
  rw [← hstarting] at hnext
  refine ensures_emit (ensures_launch hnext ?_ ?_)
  · rw [terminal?_putTerminal, if_pos rfl, hstarting]
    simp [hstopped.found]
  · rw [hstarting]
    rfl

theorem ensures_cancelMuxTerminal (hfound : host.catalog.terminal? terminal.id = some terminal)
    (revision : Nat) :
    HostEnsures (cancelMuxTerminal terminal revision) host fun _ => Tidy none := by
  refine ensures_checkRevision ?_ fun _ => h
  rintro rfl
  refine ensures_disposeOutput h hfound fun next hstopped => ?_
  refine ensures_update ?_ fun _ _ hsure hfence => hstopped.refused hsure hfence
  intro answers old cancelled _ _ hold hcancelled
  have heq : old = terminal := Option.some.inj (hold.symm.trans hstopped.found)
  subst heq
  refine ensures_emit (ensures_done ?_)
  rw [hcancelled]
  exact hstopped.update cancelledEdit nofun rfl (Recorded.ended rfl hstopped.recorded.issued)

end

theorem closeTerminal_open {state : PersistedState} (h : Sound state)
    {session : AppSession} (hfound : state.terminal? terminal.id = some terminal)
    (hopen : terminal.archivedAt = none) (hsess : state.session? terminal.sessionId = some session)
    (env : StoreEnv) (stop : Bool) :
    ∃ tab session' result, closeTerminal env terminal.id stop state =
      .ok (result, ((state.putTerminal (archiveClosed (env.now 0) stop terminal)).putTab
        tab).putSession session') := by
  have hmem := (row?_mem MuxTerminal.id hfound).1
  obtain ⟨tabId, tab, htabId, htab, -, -, -⟩ := h.holders hmem hopen
  let left := dropFromTab (env.now 0) terminal.id (nextTerminal state terminal.id (some tabId)) tab
  let shown := dropFromSession (env.now 0) terminal.id
    (nextTerminal state terminal.id (some tabId)) session
  refine ⟨left, shown, ⟨archiveClosed (env.now 0) stop terminal, some left, shown⟩, ?_⟩
  have hleft : closeInTab (env.now 0) (state.putTerminal (archiveClosed (env.now 0) stop terminal))
      terminal.id (nextTerminal state terminal.id (some tabId)) (some tabId) =
        .ok (some left,
          (state.putTerminal (archiveClosed (env.now 0) stop terminal)).putTab left) :=
    bind_ok.mpr ⟨tab, findTab_ok.mpr htab, rfl⟩
  refine bind_ok.mpr ⟨terminal, findTerminal_ok.mpr hfound, ?_⟩
  rw [if_neg (by simp [hopen]), closeOpen, htabId]
  exact bind_ok.mpr ⟨_, hleft, bind_ok.mpr ⟨session, findSession_ok.mpr hsess, rfl⟩⟩

theorem Recorded.closed {issued : List String} (h : Recorded issued terminal) (now : String) :
    Recorded issued (archiveClosed now true terminal) ∧
      (archiveClosed now true terminal).status ≠ .running := by
  cases hlive : terminal.status.isLive with
  | true =>
    have hcancelled : archiveClosed now true terminal =
        { terminal with
          status := .cancelled
          output := { terminal.output with
            processState := .exited, activityState := .idle, replayAvailable := false }
          finishedAt := some now, archivedAt := some now, updatedAt := now,
          revision := terminal.revision + 1 } := by
      simp [archiveClosed, stopClosed, hlive]
    rw [hcancelled]
    exact ⟨⟨⟨fun _ => rfl, fun _ => some_ne_none _⟩, fun _ => rfl, h.issued⟩, nofun⟩
  | false =>
    have hkept : archiveClosed now true terminal =
        { terminal with
          archivedAt := some now, updatedAt := now, revision := terminal.revision + 1 } := by
      simp [archiveClosed, stopClosed, hlive]
    rw [hkept]
    refine ⟨⟨h.finished, fun _ => hlive, h.issued⟩, ?_⟩
    intro habs
    have hrunn : terminal.status = .running := habs
    rw [hrunn] at hlive
    cases hlive

theorem Stopped.close (h : Stopped terminal host)
    (hopen : terminal.archivedAt = none) {env : StoreEnv} {result : CloseTerminalResult}
    (hok : closeTerminal env terminal.id true host.catalog = .ok (result, catalog)) :
    Tidy none { host with catalog } := by
  obtain ⟨session, hsess⟩ := h.housed _ _ h.found
  obtain ⟨tab, session', result', hclosed⟩ := closeTerminal_open h.sound h.found hopen hsess
    env true
  have hsound := h.sound.closeTerminal hok
  rw [hclosed] at hok
  cases hok
  have hplace : (archiveClosed (env.now 0) true terminal).sessionId = terminal.sessionId := by
    unfold archiveClosed stopClosed
    split <;> rfl
  have hpty : (archiveClosed (env.now 0) true terminal).output.ptyId =
      terminal.output.ptyId := by
    unfold archiveClosed stopClosed
    split <;> rfl
  obtain ⟨hrecorded, hstatus⟩ := h.recorded.closed (env.now 0)
  refine h.toTidy.put hsound (.inr rfl) ?_ ?_ ?_ (hrecorded.settled hstatus ?_)
    (h.toTidy.apart h.found hpty)
  · intro j
    simp only [terminal?_putSession, terminal?_putTab, terminal?_putTerminal, archiveClosed_id]
    split
    · rename_i hj
      rw [hj, h.found]
      rfl
    · rfl
  · intro j found hfound
    simp only [session?_putSession, session?_putTab, session?_putTerminal, hfound]
    split
    · exact ⟨_, rfl⟩
    · exact ⟨_, rfl⟩
  · rw [hplace]
    exact ⟨session, hsess⟩
  · intro ptyId hnames
    exact h.gone ptyId (hpty ▸ hnames)

theorem Stopped.perform_close (h : Stopped terminal host)
    {answers : Answers} (hsure : Sure answers host (.store (.closeTerminal terminal.id true)))
    {outcome : Except StoreError CloseTerminalResult}
    (hperf : (StoreCall.closeTerminal terminal.id true).perform answers.env host.catalog =
      (outcome, catalog)) : Tidy none { host with catalog } := by
  cases outcome with
  | ok result =>
    have hok := (mutate_ok.mp hperf).1
    by_cases hopen : terminal.archivedAt = none
    · exact h.close hopen hok
    obtain ⟨current, hcur, ⟨-, hread⟩ | ⟨habs, -⟩⟩ := closeTerminal_ok hok
    · obtain ⟨_, -, -, rfl⟩ := closedAlready_ok hread
      refine h.tidy fun hrunn => ?_
      have hended := h.recorded.archived hopen
      rw [hrunn] at hended
      cases hended
    · cases Option.some.inj (hcur.symm.trans h.found)
      exact absurd habs hopen
  | error error =>
    have hsame : catalog = host.catalog := mutate_error hperf
    subst hsame
    refine h.tidy fun hrunn => ?_
    have hdatabase := hsure (h.stale hrunn)
    have hopen := (h.recorded.of_live (by rw [hrunn]; rfl)).2
    obtain ⟨session, hsess⟩ := h.housed _ _ h.found
    obtain ⟨tab, session', result, hclosed⟩ := closeTerminal_open h.sound h.found hopen hsess
      answers.env true
    have hsucceeds := mutate_ok.mpr ⟨hclosed, hdatabase⟩
    cases hsucceeds.symm.trans hperf

theorem ensures_closeMuxTerminal (h : Tidy none host)
    (hfound : host.catalog.terminal? terminal.id = some terminal) :
    HostEnsures (closeMuxTerminal terminal true) host fun _ => Tidy none := by
  refine ensures_getSession fun previousSession => ensures_readTab fun previousTab => ?_
  have hclose : ∀ next, Stopped terminal next →
      HostEnsures (do
        let result ← write (.closeTerminal terminal.id true)
        emitTerminalArchived result.terminal
        emitAll (tabUpdates (knownAndMoved (previousTab.map (·.revision))) result.tab)
        emitAll (sessionUpdates (knownAndMoved (previousSession.map (·.revision)))
          (some result.session))
        return result.terminal) next fun _ => Tidy none := by
    intro next hstopped
    refine ensures_call fun answer after hserved => ?_
    obtain ⟨answers, hsure, hanswer⟩ := hserved
    simp only [Host.answer, Option.some.injEq] at hanswer
    cases hres : (StoreCall.closeTerminal terminal.id true).perform answers.env next.catalog with
    | mk outcome catalog =>
      have htidy := hstopped.perform_close hsure hres
      rw [hres] at hanswer
      cases hanswer
      cases outcome with
      | error error => exact ensures_done htidy
      | ok result =>
        refine ensures_emit (ensures_emitAll (ensures_emitAll ?_))
        exact ensures_done htidy
  show HostEnsures (disposeLive terminal >>= fun _ => _) host _
  unfold disposeLive
  split
  · exact ensures_disposeOutput h hfound hclose
  rename_i hended
  refine hclose host (h.stopped hfound ((h.records _ _ hfound (by simp)).gone ?_))
  intro hrunn
  rw [hrunn] at hended
  exact hended rfl

theorem ensures_dispatchMux (h : Tidy none host) {request : MuxCommand}
    (hlifecycle : request.isLifecycle = true) :
    HostEnsures (dispatchMux request) host fun _ => Tidy none := by
  cases request with
  | createTerminal command =>
    refine Program.Ensures.fallible_bind (Q := fun _ => Tidy none)
      ((ensures_createMuxTerminal h command).mono ?_) ?_
    · rintro (error | terminal) next htidy <;> exact htidy
    · exact fun _ _ htidy => ensures_done htidy
  | stopTerminal id revision =>
    refine ensures_knownTerminal ?_ fun _ => h
    intro terminal hfound
    rw [← terminal?_id hfound] at hfound
    refine Program.Ensures.fallible_bind (Q := fun _ => Tidy none)
      ((ensures_cancelMuxTerminal h hfound revision).mono ?_) ?_
    · rintro (error | terminal) next htidy <;> exact htidy
    · exact fun _ _ htidy => ensures_done htidy
  | restartTerminal id revision =>
    refine Program.Ensures.fallible_bind (Q := fun _ => Tidy none)
      ((ensures_restartMuxTerminal h id revision).mono ?_) ?_
    · rintro (error | terminal) next htidy <;> exact htidy
    · exact fun _ _ htidy => ensures_done htidy
  | closeTerminal id =>
    refine ensures_knownTerminal ?_ fun _ => h
    intro terminal hfound
    rw [← terminal?_id hfound] at hfound
    refine Program.Ensures.fallible_bind (Q := fun _ => Tidy none)
      ((ensures_closeMuxTerminal h hfound).mono ?_) ?_
    · rintro (error | terminal) next htidy <;> exact htidy
    · exact fun _ _ htidy => ensures_done htidy
  | _ => cases hlifecycle

end Requests

/-! ## Runs -/

section Runs

variable {machine : String} {host next : Host}

theorem Tidy.congr {except : Option String} (h : Tidy except host)
    (hcatalog : next.catalog = host.catalog) (hlive : next.live = host.live)
    (hiss : next.issued = host.issued) : Tidy except next := by
  obtain ⟨catalog, live, issued, exits, exited, listener⟩ := next
  subst hcatalog hlive hiss
  exact { h with }

theorem Tidy.orphan (h : Tidy none host) {ptyId : String}
    (hnone : terminalForPty host.catalog ptyId = none) : Tidy none (host.withoutProcess ptyId) where
  __ := h
  issued _ hlive := h.issued (mem_filter.mp hlive).1
  records j terminal hfound hj := by
    refine (h.records j terminal hfound hj).withoutProcess fun hpty => ?_
    have hother := find?_eq_none.mp hnone terminal (row?_mem MuxTerminal.id hfound).1
    simp [hpty] at hother

theorem Tidy.exit (h : Tidy none host) {ptyId : String} {exitCode : Int} {env : StoreEnv}
    (hcareful : terminalForPty host.catalog ptyId ≠ none → env.database = none)
    (hstep : host.exit ptyId exitCode env = some next) : Tidy none next := by
  unfold Host.exit at hstep
  split at hstep
  · dsimp only at hstep
    split at hstep
    · rename_i hnone
      cases hstep
      exact (h.orphan hnone).congr rfl rfl rfl
    rename_i terminal hterm
    have hdatabase := hcareful (by rw [hterm]; exact nofun)
    have hpty : terminal.output.ptyId = some ptyId := by
      simpa using find?_some hterm
    have hfound : host.catalog.terminal? terminal.id = some terminal :=
      h.sound.keyed.terminal?_of_mem (mem_of_find?_eq_some hterm)
    have hsettl := h.records _ _ hfound nofun
    have hfence : fenceHolds env host.catalog terminal.id (some terminal.revision) = true := by
      simp [fenceHolds, hdatabase, hfound]
    obtain ⟨old, hold, hperf⟩ := updateTerminal_held (exitedEdit exitCode) hfence
    cases Option.some.inj (hfound.symm.trans hold)
    cases hstep
    rw [hperf]
    have hstopped : Stopped terminal (host.withoutProcess ptyId) := by
      refine ⟨h.withoutProcess hfound hpty, hfound, hsettl.toRecorded, ?_⟩
      intro other hother hlive
      cases Option.some.inj (hpty.symm.trans hother)
      simpa using (mem_filter.mp hlive).2
    have hended : ((exitedEdit exitCode).apply (env.uuid 0) terminal).status.isLive = false := by
      show (if exitCode = 0 then TerminalStatus.succeeded else .failed).isLive = false
      split <;> rfl
    refine (hstopped.update (exitedEdit exitCode) ?_ rfl
      (Recorded.ended hended hsettl.issued)).congr rfl rfl rfl
    intro hrunn
    rw [hrunn] at hended
    cases hended
  · cases hstep

/-- A catalog in which nothing lives. -/
structure Ended (issued : List String) (catalog : PersistedState) : Prop where
  sound : Sound catalog
  housed : ∀ id terminal, catalog.terminal? id = some terminal →
    ∃ session, catalog.session? terminal.sessionId = some session
  records : ∀ id terminal, catalog.terminal? id = some terminal →
    Recorded issued terminal ∧ terminal.status.isLive = false
  distinct : ∀ id id' terminal terminal' ptyId, catalog.terminal? id = some terminal →
    catalog.terminal? id' = some terminal' → terminal.output.ptyId = some ptyId →
      terminal'.output.ptyId = some ptyId → id = id'

theorem Ended.tidy {catalog : PersistedState} {issued exited : List String}
    (h : Ended issued catalog) :
    Tidy none { catalog, live := [], issued, exits := [], exited, listener := none } where
  __ := h
  issued := nil_subset _
  records id terminal hfound _ := by
    obtain ⟨hrecorded, hended⟩ := h.records id terminal hfound
    refine hrecorded.settled ?_ fun _ _ => not_mem_nil
    intro hrunn
    rw [hrunn] at hended
    cases hended

theorem Ended.opened (env : StoreEnv) (machine : String) (issued : List String) :
    Ended issued (openStore env machine none) := by
  have hterms : ∀ state : PersistedState,
      (ensureVisibleSession env state).terminals = state.terminals := by
    intro state
    unfold ensureVisibleSession
    split <;> rfl
  have hempty : (openStore env machine none).terminals = [] := (hterms _).trans (hterms _)
  have hnone : ∀ id terminal, (openStore env machine none).terminal? id ≠ some terminal := by
    intro id terminal hfound
    have hmem := (row?_mem MuxTerminal.id hfound).1
    rw [hempty] at hmem
    cases hmem
  refine ⟨Sound.openEmpty env machine, ?_, ?_, ?_⟩
  · exact fun id terminal hfound => absurd hfound (hnone id terminal)
  · exact fun id terminal hfound => absurd hfound (hnone id terminal)
  · exact fun id _ terminal _ _ hfound => absurd hfound (hnone id terminal)

theorem Ended.reconciled {issued : List String} {state catalog : PersistedState}
    (h : Ended issued state) {env : StoreEnv} {serverEpoch : String} {available : List String}
    {result : StartupReconciliation}
    (hperf : (StoreCall.reconcileStartup serverEpoch available).perform env state =
      (.ok result, catalog)) : Ended issued catalog := by
  simp only [StoreCall.perform, reconcileStartup] at hperf
  split at hperf
  · cases hperf
    exact h
  have hok := (mutate_ok.mp hperf).1
  have hsound := h.sound.interruptLive hok
  have hsame : catalog.terminals = state.terminals := by
    cases hok
    refine (List.map_congr_left fun terminal hmem => ?_).trans (List.map_id _)
    rw [(h.records _ _ (h.sound.keyed.terminal?_of_mem hmem)).2]
    rfl
  have hfound : ∀ id, catalog.terminal? id = state.terminal? id := by
    intro id
    unfold PersistedState.terminal?
    rw [hsame]
  refine ⟨hsound, ?_, ?_, ?_⟩
  · intro id terminal hterm
    cases hok
    exact h.housed id terminal (hfound id ▸ hterm)
  · exact fun id terminal hterm => h.records id terminal (hfound id ▸ hterm)
  · intro id id' terminal terminal' ptyId hterm hterm'
    exact h.distinct id id' terminal terminal' ptyId (hfound id ▸ hterm) (hfound id' ▸ hterm')

theorem Tidy.restart (h : Tidy none host)
    (hcareful : ∀ terminal ∈ host.catalog.terminals, terminal.status.isLive = false)
    {env : StoreEnv} {serverEpoch : String} {available : List String}
    (hstep : host.restart machine env serverEpoch available = some next) : Tidy none next := by
  have hended : Ended host.issued host.catalog := by
    refine ⟨h.sound, h.housed, fun id terminal hfound => ?_, h.distinct⟩
    exact ⟨(h.records id terminal hfound nofun).toRecorded,
      hcareful terminal (row?_mem MuxTerminal.id hfound).1⟩
  have hopened : Ended host.issued (openStore env machine (some host.catalog)) := by
    cases hfilter : (some host.catalog).filter fun state : PersistedState =>
        state.schemaVersion = stateSchemaVersion && state.machine = machine with
    | none =>
      rw [openStore, hfilter]
      exact Ended.opened env machine host.issued
    | some state =>
      obtain ⟨hsame, -⟩ := filter_eq_some_iff.mp hfilter
      rw [openStore, hfilter, ← Option.some.inj hsame]
      show Ended _ (ensureVisibleSession env host.catalog)
      rw [h.sound.ensured env]
      exact hended
  unfold Host.restart at hstep
  split at hstep
  · rename_i result catalog hperf
    cases hstep
    exact (hopened.reconciled hperf).tidy
  · cases hstep

theorem serialSystem_tidy (hrun : (serialSystem machine).Run SerialAction.Careful host) :
    Tidy none host := by
  refine hrun.invariant ?_ ?_
  · rintro _ ⟨env, rfl⟩
    exact (Ended.opened env machine []).tidy
  · intro host action next h hcareful hstep
    cases action with
    | command request script =>
      simp only [serialSystem] at hstep
      split at hstep
      · rename_i hlifecycle
        obtain ⟨⟨outcome, after⟩, hexecute, rfl⟩ := map_eq_some_iff.mp hstep
        have hsure : SureThroughout script (dispatchMux request) 0 host := hcareful
        have htidy := ensures_execute (ensures_dispatchMux h hlifecycle) hsure hexecute
        exact htidy
      · cases hstep
    | exit ptyId exitCode env => exact h.exit hcareful hstep
    | restart env serverEpoch available => exact h.restart hcareful hstep

/-- In every run in which a write that has to say that a process ended goes
through, no finished terminal is started again and the host restarts only when
nothing lives, the records agree with the processes. -/
theorem coherent_of_careful (hrun : (serialSystem machine).Run SerialAction.Careful host) :
    Coherent host :=
  (serialSystem_tidy hrun).coherent

end Runs

/-! ## A terminal and a host restart -/

def firstHost : Host :=
  { catalog := openStore (.constant "t0" "a") "host" none, live := [], issued := [], exits := [],
    exited := [], listener := none }

def smooth (time uuid : String) (_ : Nat) : Answers :=
  { env := .constant time uuid, spawn := .started ⟨"p", none⟩, stop := .done }

def newShell : MuxCommand :=
  .createTerminal
    { kind := some "terminal", input := .ok {}, sessionId := "ses-a", tabId := none, title := none }

def shellHost : Host :=
  ((execute (smooth "t1" "b") (dispatchMux newShell) 0 firstHost).map (·.2)).getD firstHost

theorem sureThroughout_call {α β : Type} {script : Nat → Answers} {e : HostEffect β}
    {k : β → Program HostEffect α} {i : Nat} {host next : Host} {b : β}
    (hsure : Sure (script i) host e) (hanswer : host.answer (script i) e = some (b, next))
    (hrest : SureThroughout script (k b) (i + 1) next) :
    SureThroughout script (.call e k) i host := by
  refine ⟨hsure, fun c after hother => ?_⟩
  cases hanswer.symm.trans hother
  exact hrest

/-- A shell that is started, and its exit. -/
theorem coherent_of_careful_shell :
    ∃ host, (serialSystem "host").step shellHost (.exit "p" 0 (.constant "t2" "c")) = some host ∧
      Coherent host := by
  have hfirst : (serialSystem "host").Run SerialAction.Careful firstHost :=
    System.Run.start ⟨.constant "t0" "a", rfl⟩
  have hsure : SureThroughout (smooth "t1" "b") (dispatchMux newShell) 0 firstHost := by
    refine sureThroughout_call trivial rfl (sureThroughout_call trivial rfl ?_)
    refine sureThroughout_call (StoreEnv.constant_fresh (by decide) (by decide) (by decide)) rfl ?_
    refine sureThroughout_call trivial rfl (sureThroughout_call trivial rfl ?_)
    refine sureThroughout_call trivial rfl (sureThroughout_call trivial rfl ?_)
    refine sureThroughout_call trivial rfl (sureThroughout_call ?_ rfl ?_)
    · exact ⟨fun _ => rfl, fun _ _ terminal hfound => by cases hfound; rfl⟩
    refine sureThroughout_call trivial rfl (sureThroughout_call trivial rfl ?_)
    refine sureThroughout_call ?_ rfl (sureThroughout_call trivial rfl trivial)
    exact ⟨fun _ => rfl, fun _ _ terminal hfound => by cases hfound; rfl⟩
  have hshell : (serialSystem "host").Run SerialAction.Careful shellHost :=
    hfirst.next (a := .command newShell (smooth "t1" "b")) hsure rfl
  have hcareful : SerialAction.Careful shellHost (.exit "p" 0 (.constant "t2" "c")) := fun _ => rfl
  exact ⟨_, rfl, coherent_of_careful (hshell.next hcareful rfl)⟩

/-- A host restart leaves the record of a live terminal without the time at which
it finished. -/
theorem restart_incoherent : ¬ ∀ machine host,
    (serialSystem machine).Run (fun _ _ => True) host → Coherent host := by
  intro hall
  have hfirst : (serialSystem "host").Run (fun _ _ => True) firstHost :=
    System.Run.start ⟨.constant "t0" "a", rfl⟩
  have hshell : (serialSystem "host").Run (fun _ _ => True) shellHost :=
    hfirst.next (a := .command newShell (smooth "t1" "b")) trivial rfl
  have hrestarted := hshell.next (a := .restart (.constant "t2" "c") "epoch" []) trivial rfl
  have hfin := (hall "host" _ hrestarted).finished _ mem_cons_self
  exact hfin.mpr rfl rfl

end Yaade.Runtime

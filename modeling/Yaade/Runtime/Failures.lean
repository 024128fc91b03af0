import Yaade.Runtime.Interleaving

/-!
What a failed request leaves behind.
-/

namespace Yaade.Runtime

open Yaade.Library Yaade.Store Option PersistedState Bool Function

def Underway (terminal : MuxTerminal) : Prop :=
  terminal.status = .starting ∨ terminal.status = .running

/-- The processes of a request agree with the catalog: one it started and that
still runs belongs to a live record, and no record is starting or running with
one it stopped. -/
structure Consistent (host : Host) (request : Request) : Prop where
  spawned : ∀ ptyId ∈ request.spawned, ptyId ∈ host.live →
    ∃ terminal ∈ host.catalog.terminals, terminal.status.isLive = true ∧
      terminal.output.ptyId = some ptyId
  disposed : ∀ ptyId ∈ request.disposed, ∀ terminal ∈ host.catalog.terminals,
    terminal.output.ptyId = some ptyId → ¬ Underway terminal

/-- The request has no process running, and none that it stopped is in use. -/
structure NothingToUndo (host : Host) (request : Request) : Prop where
  spawned : ∀ ptyId ∈ request.spawned, ptyId ∉ host.live
  disposed : ∀ ptyId ∈ request.disposed, ∀ id terminal,
    host.catalog.terminal? id = some terminal → terminal.output.ptyId = some ptyId →
      ¬ Underway terminal

def failing : Program HostEffect (Except RuntimeError MuxTerminal) → Bool
  | .done (.error _) => true
  | .done (.ok _) => false
  | .call (.emit _) k => failing (k ())
  | .call _ _ => false

/-- The steps that leave a request without remedy. A fenced write is refused
while there is something to undo; a record is stored as starting over a PTY
stopped by a request that is about to fail; a create fails and leaves its process
running; a dispose is refused and ends its process all the same. -/
def UndoSafe (state : LifecycleState) : LifecycleAction → Prop
  | .advance index answers => ∀ request, state.requests index = some request →
      (request.Creates → ∀ error ptyId, answers.spawn ≠ .refused error (some ptyId)) ∧
      (request.Disposes → ∀ what, answers.stop ≠ .refused what true) ∧
      ∀ id revision edit, request.Writes id revision edit →
        if fenceHolds answers.env state.catalog id revision then
          ∀ old ptyId, state.catalog.terminal? id = some old →
            old.output.ptyId = some ptyId →
              (edit.apply (answers.env.uuid 0) old).status = .starting →
                ∀ other request', other ≠ index → state.requests other = some request' →
                  failing request'.rest = true → ptyId ∉ request'.disposed
        else NothingToUndo state.toHost request
  | _ => True

theorem Phase.Final.not_failing {phase : Phase}
    {p : Program HostEffect (Except RuntimeError MuxTerminal)}
    (hfoll : FollowsLifecycle phase p) (h : failing p = true) :
    phase.Reads ∨ phase = .settled false := by
  induction p generalizing phase with
  | done outcome =>
    cases outcome with
    | ok terminal => cases h
    | error error =>
      cases phase with
      | opening | chosen => exact .inl trivial
      | stopped | launching | holding => exact hfoll.elim
      | settled stored =>
        cases stored with
        | false => exact .inr rfl
        | true =>
          obtain ⟨terminal, habs⟩ := hfoll rfl
          cases habs
  | call e k ih =>
    cases e with
    | emit event => exact ih () (hfoll.2 () trivial) h
    | store | create | dispose => cases h

def PhaseRecord (owner : String → Option String) (request : Request) : Prop :=
  match request.phase with
  | .opening | .chosen _ => request.spawned = [] ∧ request.disposed = []
  | .stopped terminal => request.spawned = [] ∧
      ∀ ptyId ∈ request.disposed, owner ptyId = some terminal.id
  | .launching id => request.spawned = [] ∧ ∀ ptyId ∈ request.disposed, owner ptyId = some id
  | .holding id ptyId => request.spawned = [ptyId] ∧
      ∀ ptyId ∈ request.disposed, owner ptyId = some id
  | .settled _ => True

/-- What is known of the processes of a request under way. -/
structure Accounted (owner : String → Option String) (host : Host) (request : Request) :
    Prop where
  byPhase : PhaseRecord owner request
  spawned : ∀ ptyId ∈ request.spawned, ptyId ∈ host.issued
  disposed : ∀ ptyId ∈ request.disposed, ∃ id, owner ptyId = some id
  undone : failing request.rest = true → NothingToUndo host request

section Steps

variable {owner owner' : String → Option String} {state : LifecycleState} {host host' : Host}
  {index : Nat} {request r' : Request}

theorem NothingToUndo.mono (h : NothingToUndo host request)
    (hspawned : r'.spawned = request.spawned) (hdisp : r'.disposed = request.disposed)
    (hlive : ∀ ptyId ∈ request.spawned, ptyId ∈ host'.live → ptyId ∈ host.live)
    (hcatalog : ∀ ptyId ∈ request.disposed, ∀ id terminal,
      host'.catalog.terminal? id = some terminal → terminal.output.ptyId = some ptyId →
        Underway terminal → ∃ id old, host.catalog.terminal? id = some old ∧
          old.output.ptyId = some ptyId ∧ Underway old) : NothingToUndo host' r' := by
  constructor
  · intro ptyId hmem hlive'
    rw [hspawned] at hmem
    exact h.spawned ptyId hmem (hlive ptyId hmem hlive')
  · intro ptyId hmem id terminal hterm hpty hunderway
    rw [hdisp] at hmem
    obtain ⟨id', old, hold, holdPty, holdUnderway⟩ :=
      hcatalog ptyId hmem id terminal hterm hpty hunderway
    exact h.disposed ptyId hmem id' old hold holdPty holdUnderway

theorem nothingToUndo_of_idle (hspawned : request.spawned = []) (hdisp : request.disposed = []) :
    NothingToUndo host request := by
  constructor
  · intro ptyId hmem
    rw [hspawned] at hmem
    cases hmem
  · intro ptyId hmem
    rw [hdisp] at hmem
    cases hmem

variable {terminal : MuxTerminal} {id ptyId : String}

theorem Underway.isLive (h : Underway terminal) : terminal.status.isLive = true := by
  rcases h with h | h
  · rw [h]
    rfl
  · rw [h]
    rfl

theorem Underway.quiet {before after : PersistedState} (hquiet : Quiet before after)
    (hterm : after.terminal? id = some terminal)
    (hpty : terminal.output.ptyId = some ptyId) (h : Underway terminal) :
    ∃ id old, before.terminal? id = some old ∧ old.output.ptyId = some ptyId ∧ Underway old := by
  rcases hquiet id terminal hterm with hnone | ⟨old, hold, hsame, hstatus⟩
  · rw [hnone] at hpty
    cases hpty
  rcases hstatus with hstatus | hended
  · exact ⟨_, old, hold, hsame ▸ hpty, by rwa [Underway, ← hstatus]⟩
  · rw [h.isLive] at hended
    cases hended

theorem Underway.putTerminal {catalog : PersistedState} {written : MuxTerminal}
    (hterm : (catalog.putTerminal written).terminal? id = some terminal)
    (hpty : terminal.output.ptyId = some ptyId) (h : Underway terminal)
    (hwrt : written.output.ptyId = some ptyId → ¬ Underway written) :
    ∃ id old, catalog.terminal? id = some old ∧ old.output.ptyId = some ptyId ∧
      Underway old := by
  rw [terminal?_putTerminal] at hterm
  split at hterm
  · obtain ⟨_, -, rfl⟩ := map_eq_some_iff.mp hterm
    exact absurd h (hwrt hpty)
  · exact ⟨id, terminal, hterm, hpty, h⟩

theorem PhaseRecord.mono (h : PhaseRecord owner request)
    (hext : ∀ ptyId id, owner ptyId = some id → owner' ptyId = some id) :
    PhaseRecord owner' request := by
  unfold PhaseRecord at h ⊢
  cases hphase : request.phase with
  | opening | chosen | settled =>
    rw [hphase] at h
    exact h
  | stopped | launching | holding =>
    rw [hphase] at h
    exact ⟨h.1, fun ptyId hmem => hext _ _ (h.2 ptyId hmem)⟩

theorem Accounted.mono (h : Accounted owner host request)
    (hext : ∀ ptyId id, owner ptyId = some id → owner' ptyId = some id)
    (hiss : host.issued ⊆ host'.issued)
    (hundo : failing request.rest = true → NothingToUndo host request →
      NothingToUndo host' request) : Accounted owner' host' request := by
  refine ⟨h.byPhase.mono hext, fun ptyId hmem => hiss (h.spawned ptyId hmem), ?_,
    fun hfailing => hundo hfailing (h.undone hfailing)⟩
  intro ptyId hmem
  obtain ⟨id, hid⟩ := h.disposed ptyId hmem
  exact ⟨id, hext ptyId id hid⟩

theorem Accounted.of_phase (hfoll : FollowsLifecycle r'.phase r'.rest)
    (hrecord : PhaseRecord owner r') (hspawned : ∀ ptyId ∈ r'.spawned, ptyId ∈ host.issued)
    (hdisp : ∀ ptyId ∈ r'.disposed, ∃ id, owner ptyId = some id)
    (hsettl : r'.phase = .settled false → failing r'.rest = true →
      NothingToUndo host r') : Accounted owner host r' := by
  refine ⟨hrecord, hspawned, hdisp, fun hfailing => ?_⟩
  rcases Phase.Final.not_failing hfoll hfailing with hreads | hphase
  · unfold PhaseRecord at hrecord
    cases hphase : r'.phase with
    | opening | chosen =>
      rw [hphase] at hrecord
      exact nothingToUndo_of_idle hrecord.1 hrecord.2
    | stopped | launching | holding | settled =>
      rw [hphase] at hreads
      exact hreads.elim
  · exact hsettl hphase hfailing

def Phase.Targets (id : String) : Phase → Prop
  | .chosen terminal => terminal.id = id
  | .stopped terminal => terminal.id = id
  | .launching terminalId => terminalId = id
  | _ => False

theorem PhaseRecord.targets (h : PhaseRecord owner request) (htgt : request.phase.Targets id) :
    request.spawned = [] ∧ ∀ ptyId ∈ request.disposed, owner ptyId = some id := by
  unfold PhaseRecord at h
  cases hphase : request.phase with
  | opening | holding | settled =>
    rw [hphase] at htgt
    exact htgt.elim
  | chosen terminal =>
    rw [hphase] at h
    refine ⟨h.1, fun ptyId hmem => ?_⟩
    rw [h.2] at hmem
    cases hmem
  | stopped | launching =>
    rw [hphase] at h htgt
    exact ⟨h.1, fun ptyId hmem => (h.2 ptyId hmem).trans (congrArg some htgt)⟩

theorem Phase.mayStore.cases {phase : Phase} {uuid now : String} {revision : Option Nat}
    {edit : TerminalEdit} {old : MuxTerminal}
    (hmay : phase.mayStore (.updateTerminal id revision edit))
    (hterm : terminal = stampTerminal now (edit.apply uuid old)) :
    (phase.Targets id ∧ phase.afterUpdate (.ok terminal) = .launching terminal.id ∧
      (edit.apply uuid old).status = .starting ∧
        terminal.output.ptyId = old.output.ptyId) ∨
      (phase.Targets id ∧ phase.afterUpdate (.ok terminal) = .settled false ∧
        ¬ Underway terminal) ∨
        ∃ ptyId, phase = .holding id ptyId ∧ phase.afterUpdate (.ok terminal) = .settled true ∧
          terminal.output.ptyId = some ptyId := by
  have hstatus : terminal.status = (edit.apply uuid old).status := by
    rw [hterm]
    rfl
  cases phase with
  | opening | settled => exact hmay.elim
  | chosen found | stopped found =>
    obtain ⟨rfl, hedit⟩ := hmay
    rcases hedit with rfl | rfl | rfl
    · exact .inl ⟨rfl, if_pos hstatus, rfl, by rw [hterm]; rfl⟩
    · exact .inl ⟨rfl, if_pos hstatus, rfl, by rw [hterm]; rfl⟩
    have hcancelled : terminal.status = .cancelled := hstatus
    refine .inr (.inl ⟨rfl, if_neg ?_, ?_⟩)
    · simp [hcancelled]
    · simp [Underway, hcancelled]
  | launching terminalId =>
    obtain ⟨rfl, error, rfl⟩ := hmay
    have hfailed : terminal.status = .failed := hstatus
    exact .inr (.inl ⟨rfl, rfl, by simp [Underway, hfailed]⟩)
  | holding terminalId ptyId =>
    obtain ⟨rfl, pty, generations, rfl, rfl⟩ := hmay
    exact .inr (.inr ⟨pty.id, rfl, rfl, by rw [hterm]; rfl⟩)

theorem PhaseRecord.at {phase : Phase} (h : PhaseRecord owner request)
    (hphase : request.phase = phase) : PhaseRecord owner { request with phase } :=
  hphase ▸ h

theorem Accounted.at {phase : Phase} (hfoll : FollowsLifecycle r'.phase r'.rest)
    (hphase : r'.phase = phase) (hrecord : PhaseRecord owner { r' with phase })
    (hspawned : ∀ ptyId ∈ r'.spawned, ptyId ∈ host.issued)
    (hdisp : ∀ ptyId ∈ r'.disposed, ∃ id, owner ptyId = some id)
    (hsettl : phase = .settled false → failing r'.rest = true → NothingToUndo host r') :
    Accounted owner host r' := by
  subst hphase
  exact .of_phase hfoll hrecord hspawned hdisp hsettl

/-- The request that moves: its record of processes follows its phase. -/
theorem Accounted.moved (h : Accounted owner state.toHost request)
    (htracked : Tracked owner state) (hr : state.requests index = some request)
    {answers : Answers} (hfresh : answers.env.Fresh state.catalog)
    (hsafe : UndoSafe state (.advance index answers))
    (hstep : request.advance answers state.toHost = some (r', host)) : Accounted owner host r' := by
  have hreq := htracked.requests index request hr
  have hfoll := Request.advance_follows hreq.follows hstep
  obtain ⟨hcreates, hdisposes, hwrite⟩ := hsafe request hr
  have hrecord := h.byPhase
  have hkept : r'.phase = request.phase → r'.spawned = request.spawned →
      r'.disposed = request.disposed → PhaseRecord owner r' := by
    intro hphase hspawned hdisp
    unfold PhaseRecord at hrecord ⊢
    rwa [hphase, hspawned, hdisp]
  cases Request.advance_move htracked.sound hfresh hreq.follows hstep with
  | announce event k hrest hnext hphase hspawned hdisp =>
    refine .of_phase hfoll (hkept hphase hspawned hdisp) (hspawned ▸ h.spawned)
      (hdisp ▸ h.disposed) fun _ hfailing => ?_
    have hbef : failing request.rest = true := by
      rw [hrest]
      rw [hnext] at hfailing
      exact hfailing
    exact (h.undone hbef).mono hspawned hdisp (fun _ _ hlive => hlive)
      fun _ _ id old hold hpty hunderway => ⟨id, old, hold, hpty, hunderway⟩
  | look catalog hquiet hsound hreads hphase hspawned hdisp =>
    refine .of_phase hfoll (hkept hphase hspawned hdisp) (hspawned ▸ h.spawned)
      (hdisp ▸ h.disposed) fun hsettl => ?_
    rw [← hphase, hsettl] at hreads
    exact hreads.elim
  | choose catalog terminal hquiet hsound hopening hphase hfound hspawned hdisp =>
    obtain ⟨hnone, hleft⟩ := hrecord.at hopening
    exact .at hfoll hphase ⟨hspawned.trans hnone, hdisp.trans hleft⟩ (hspawned ▸ h.spawned)
      (hdisp ▸ h.disposed) nofun
  | giveUp catalog hquiet hsound hopening hphase hspawned hdisp =>
    obtain ⟨hnone, hleft⟩ := hrecord.at hopening
    exact .at hfoll hphase trivial (hspawned ▸ h.spawned) (hdisp ▸ h.disposed) fun _ _ =>
      nothingToUndo_of_idle (hspawned.trans hnone) (hdisp.trans hleft)
  | stop terminal ptyId hchosen hpty hanswer hphase hspawned hdisp =>
    obtain ⟨hnone, hleft⟩ := hrecord.at hchosen
    have howner := hreq.chosen terminal ptyId (.inl hchosen) hpty
    have hall : ∀ p ∈ r'.disposed, owner p = some terminal.id := by
      intro p hmem
      rw [hdisp, show request.disposed = [] from hleft, List.mem_singleton] at hmem
      exact hmem ▸ howner
    exact .at hfoll hphase ⟨hspawned.trans hnone, hall⟩ (hspawned ▸ h.spawned)
      (fun p hmem => ⟨_, hall p hmem⟩) nofun
  | stopMissing terminal hchosen hphase hspawned hdisp =>
    obtain ⟨hnone, hleft⟩ := hrecord.at hchosen
    have hempty : r'.disposed = [] := hdisp.trans hleft
    exact .at hfoll hphase ⟨hspawned.trans hnone, by simp [hempty]⟩ (hspawned ▸ h.spawned)
      (by simp [hempty]) nofun
  | stopRefused terminal ptyId what killed hstops hchosen hpty hanswer hphase hspawned hdisp =>
    obtain ⟨hnone, hleft⟩ := hrecord.at hchosen
    cases killed with
    | true => exact absurd hanswer (hdisposes hstops what)
    | false =>
      have hempty : r'.disposed = [] := hdisp.trans hleft
      exact .at hfoll hphase trivial (hspawned ▸ h.spawned) (by simp [hempty]) fun _ _ =>
        nothingToUndo_of_idle (hspawned.trans hnone) hempty
  | started terminalId pty hlaunching hunused hphase hspawned hdisp =>
    obtain ⟨hnone, hleft⟩ := hrecord.at hlaunching
    have hpty : r'.spawned = [pty.id] := by
      rw [hspawned, show request.spawned = [] from hnone]
    refine .at hfoll hphase ⟨hpty, hdisp ▸ hleft⟩ ?_ (hdisp ▸ h.disposed) nofun
    intro p hmem
    rw [hpty, List.mem_singleton] at hmem
    exact hmem ▸ List.mem_cons_self
  | startRefused terminalId error hlaunching hanswer hphase hspawned hdisp =>
    exact .at hfoll (hphase.trans hlaunching)
      ((hkept hphase hspawned hdisp).at (hphase.trans hlaunching)) (hspawned ▸ h.spawned)
      (hdisp ▸ h.disposed) nofun
  | startOrphaned terminalId ptyId error hstarts hlaunching hanswer =>
    exact absurd hanswer (hcreates hstarts error ptyId)
  | update id revision edit old terminal hwrites hmay hfence hold hterm hphase hspawned
      hdisp =>
    have hsame : terminal.id = id := by
      rw [hterm, stampTerminal_id, TerminalEdit.apply_id, terminal?_id hold]
    rcases hmay.cases hterm with ⟨htgt, hnext, -, -⟩ | ⟨htgt, hnext, hended⟩ |
      ⟨ptyId, hholding, hnext, -⟩
    · obtain ⟨hnone, howner⟩ := hrecord.targets htgt
      exact .at hfoll (hphase.trans hnext) ⟨hspawned.trans hnone, hsame ▸ hdisp ▸ howner⟩
        (hspawned ▸ h.spawned) (hdisp ▸ h.disposed) nofun
    · obtain ⟨hnone, howner⟩ := hrecord.targets htgt
      refine .at hfoll (hphase.trans hnext) trivial (hspawned ▸ h.spawned) (hdisp ▸ h.disposed)
        fun _ _ => ⟨by simp [hspawned, hnone], ?_⟩
      intro ptyId hmem id' found hfound hpty hunderway
      rw [hdisp] at hmem
      simp only [terminal?_putTerminal, hsame] at hfound
      split at hfound
      · obtain ⟨_, -, rfl⟩ := map_eq_some_iff.mp hfound
        exact hended hunderway
      rename_i hother
      have hnamed := htracked.named id' found ptyId hfound hpty
      rw [howner ptyId hmem] at hnamed
      exact hother (Option.some.inj hnamed).symm
    · exact .at hfoll (hphase.trans hnext) trivial (hspawned ▸ h.spawned) (hdisp ▸ h.disposed) nofun
  | conflict id revision edit hwrites hmay hfence hphase hspawned hdisp =>
    have hundo := hwrite id revision edit hwrites
    rw [if_neg (eq_false_iff.mp hfence)] at hundo
    exact .at hfoll hphase trivial (hspawned ▸ h.spawned) (hdisp ▸ h.disposed) fun _ _ =>
      hundo.mono hspawned hdisp (fun _ _ hlive => hlive)
        fun _ _ id old hold hpty hunderway => ⟨id, old, hold, hpty, hunderway⟩

theorem NothingToUndo.quiet {catalog : PersistedState} (h : NothingToUndo host request)
    (hquiet : Quiet host.catalog catalog) : NothingToUndo { host with catalog } request :=
  h.mono rfl rfl (fun _ _ hlive => hlive)
    fun _ _ _ _ hterm hpty hunderway => hunderway.quiet hquiet hterm hpty

theorem NothingToUndo.withoutProcess (h : NothingToUndo host request) (ptyId : String) :
    NothingToUndo (host.withoutProcess ptyId) request :=
  h.mono rfl rfl (fun _ _ hlive => (List.mem_filter.mp hlive).1)
    fun _ _ id terminal hterm hpty hunderway => ⟨id, terminal, hterm, hpty, hunderway⟩

theorem NothingToUndo.withProcess (h : NothingToUndo host request)
    (hunused : ptyId ∉ host.issued) (hspawned : ∀ p ∈ request.spawned, p ∈ host.issued) :
    NothingToUndo (host.withProcess ptyId) request := by
  refine h.mono rfl rfl ?_
    fun _ _ id terminal hterm hpty hunderway => ⟨id, terminal, hterm, hpty, hunderway⟩
  intro p hmem hlive
  rcases List.mem_cons.mp hlive with rfl | hold
  · exact absurd (hspawned p hmem) hunused
  · exact hold

/-- A request beside the one that moves. -/
theorem Accounted.beside {other : Nat} {r : Request} (h : Accounted owner state.toHost r)
    (hother : other ≠ index) (hfound : state.requests other = some r)
    (htracked : Tracked owner state) (hr : state.requests index = some request)
    {answers : Answers} (hfresh : answers.env.Fresh state.catalog)
    (hsafe : UndoSafe state (.advance index answers))
    (hstep : request.advance answers state.toHost = some (r', host)) : Accounted owner host r := by
  have hreq := htracked.requests index request hr
  have hkeep : ∀ ptyId id, owner ptyId = some id → owner ptyId = some id := fun _ _ howner => howner
  cases Request.advance_move htracked.sound hfresh hreq.follows hstep with
  | announce => exact h
  | look catalog hquiet | choose catalog _ hquiet | giveUp catalog hquiet =>
    exact h.mono hkeep (List.Subset.refl _) fun _ hundo => hundo.quiet hquiet
  | stop terminal ptyId =>
    exact h.mono hkeep (List.Subset.refl _) fun _ hundo => hundo.withoutProcess ptyId
  | stopMissing => exact h
  | stopRefused terminal ptyId what killed =>
    cases killed with
    | true => exact h.mono hkeep (List.Subset.refl _) fun _ hundo => hundo.withoutProcess ptyId
    | false => exact h
  | started terminalId pty hlaunching hunused
  | startOrphaned terminalId ptyId error hstarts hlaunching hanswer hunused =>
    exact h.mono hkeep (List.subset_cons_self _ _) fun _ hundo =>
      hundo.withProcess hunused h.spawned
  | startRefused => exact h
  | update id revision edit old terminal hwrites hmay hfence hold hterm =>
    refine h.mono hkeep (List.Subset.refl _) fun hfailing hundo => ?_
    refine hundo.mono rfl rfl (fun _ _ hlive => hlive) ?_
    intro ptyId hmem id' found hfound' hpty hunderway
    refine hunderway.putTerminal hfound' hpty fun hnames hwrt => ?_
    have hcondition := (hsafe request hr).2.2 id revision edit hwrites
    rw [if_pos hfence] at hcondition
    rcases hmay.cases hterm with ⟨-, -, hstarting, hkeeps⟩ | ⟨-, -, hended⟩ |
      ⟨held, hholding, -, hheld⟩
    · exact hcondition old ptyId hold (by rw [← hkeeps, hnames]) hstarting other r hother hfound
        hfailing hmem
    · exact hended hwrt
    obtain rfl : held = ptyId := Option.some.inj (hheld.symm.trans hnames)
    obtain ⟨holder, hholder⟩ := h.disposed held hmem
    rw [(hreq.held id held hholding).1] at hholder
    cases hholder
  | conflict => exact h

def AllAccounted (owner : String → Option String) (state : LifecycleState) : Prop :=
  ∀ index request, state.requests index = some request → Accounted owner state.toHost request

theorem AllAccounted.rehost (h : AllAccounted owner state) {requests : Nat → Option Request}
    (hsub : ∀ i r, requests i = some r → state.requests i = some r)
    (hiss : state.issued ⊆ host.issued)
    (hundo : ∀ r, (∀ p ∈ r.spawned, p ∈ state.issued) → NothingToUndo state.toHost r →
      NothingToUndo host r) : AllAccounted owner ⟨host, requests⟩ := by
  intro i r hr
  have hold := h i r (hsub i r hr)
  exact hold.mono (fun _ _ howner => howner) hiss fun _ => hundo r hold.spawned

/-- Every step that leaves no request without remedy keeps the account. -/
theorem AllAccounted.step (h : AllAccounted owner state) (htracked : Tracked owner state)
    {action : LifecycleAction} (hfresh : action.Fresh state) (hsafe : UndoSafe state action)
    {next : LifecycleState} (hstep : state.step action = some next) : AllAccounted owner next := by
  cases LifecycleState.step_stepped hstep with
  | advance index answers hreq hadvance =>
    intro i r hr
    by_cases hi : i = index
    · subst hi
      simp only [update_self, Option.some.injEq] at hr
      subst hr
      exact (h i _ hreq).moved htracked hreq hfresh hsafe hadvance
    · simp only [update_of_ne hi] at hr
      exact (h i r hr).beside hi hr htracked hreq hfresh hsafe hadvance
  | start index call =>
    intro i r hr
    by_cases hi : i = index
    · subst hi
      simp only [LifecycleState.setRequest, update_self, Option.some.injEq] at hr
      subst hr
      exact .of_phase call.follows ⟨rfl, rfl⟩ (by simp [LifecycleCall.request])
        (by simp [LifecycleCall.request]) fun hsettl => by cases hsettl
    · simp only [LifecycleState.setRequest, update_of_ne hi] at hr
      exact h i r hr
  | reply index =>
    intro i r hr
    by_cases hi : i = index
    · subst hi
      simp only [LifecycleState.setRequest, update_self] at hr
      cases hr
    · simp only [LifecycleState.setRequest, update_of_ne hi] at hr
      exact h i r hr
  | mutate env call hcall =>
    have hquiet := StoreCall.perform_quiet htracked.sound hfresh (eq_false_of_ne_true hcall)
    exact h.rehost (fun _ _ hr => hr) (List.Subset.refl _) fun r _ hundo => hundo.quiet hquiet
  | spawn ptyId hunused =>
    exact h.rehost (fun _ _ hr => hr) (List.subset_cons_self _ _) fun r hspawned hundo =>
      hundo.withProcess hunused hspawned
  | dispose ptyId =>
    exact h.rehost (fun _ _ hr => hr) (List.Subset.refl _) fun r _ hundo =>
      hundo.withoutProcess ptyId
  | exit ptyId exitCode =>
    refine h.rehost (fun _ _ hr => hr) (List.Subset.refl _) fun r _ hundo => ?_
    exact hundo.mono rfl rfl (fun _ _ hlive => (List.mem_filter.mp hlive).1)
      fun _ _ id terminal hterm hpty hunderway => ⟨id, terminal, hterm, hpty, hunderway⟩
  | receive =>
    refine h.rehost (fun _ _ hr => hr) (List.Subset.refl _) fun r _ hundo => ?_
    exact ⟨hundo.spawned, hundo.disposed⟩
  | @record env update hupdate =>
    refine h.rehost (fun _ _ hr => hr) (List.Subset.refl _) fun r _ hundo => ?_
    refine hundo.mono rfl rfl (fun _ _ hlive => hlive) ?_
    intro ptyId _ id terminal hterm hpty hunderway
    rcases record_catalog env state.catalog update with ⟨-, hsame⟩ | ⟨old, hold, hwrt⟩
    · simp only [hsame] at hterm
      exact ⟨id, terminal, hterm, hpty, hunderway⟩
    simp only [hwrt] at hterm
    refine hunderway.putTerminal hterm hpty fun _ hwrittenUnderway => ?_
    have hlive := hwrittenUnderway.isLive
    simp only [stampTerminal, exitedEdit] at hlive
    split at hlive <;> cases hlive

theorem failures_accounted
    (h : lifecycleSystem.Run (fun state action => action.Fresh state ∧ UndoSafe state action)
      state) : ∃ owner, Tracked owner state ∧ AllAccounted owner state := by
  induction h with
  | start hs =>
    obtain ⟨owner, htracked⟩ := Tracked.booted hs
    refine ⟨owner, htracked, ?_⟩
    intro i r hr
    rw [hs.idle.2.2.2.2 i] at hr
    cases hr
  | next _ hallow hstep ih =>
    obtain ⟨owner, htracked, haccounted⟩ := ih
    obtain ⟨owner', htracked', hext⟩ := htracked.step hallow.1 hstep
    have hnext := haccounted.step htracked hallow.1 hallow.2 hstep
    exact ⟨owner', htracked', fun i r hr =>
      (hnext i r hr).mono hext (List.Subset.refl _) fun _ hundo => hundo⟩

end Steps

/-- A request that failed agrees with the catalog about its processes. -/
theorem failure_consistent {state : LifecycleState}
    (h : lifecycleSystem.Run (fun state action => action.Fresh state ∧ UndoSafe state action)
      state) {index : Nat} {request : Request} (hr : state.requests index = some request)
    (hfailed : request.Failed) : Consistent state.toHost request := by
  obtain ⟨owner, htracked, haccounted⟩ := failures_accounted h
  obtain ⟨error, herror⟩ := hfailed
  have hundo := (haccounted index request hr).undone (by rw [herror]; rfl)
  constructor
  · intro ptyId hmem hlive
    exact absurd hlive (hundo.spawned ptyId hmem)
  · intro ptyId hmem terminal hterm hpty
    exact hundo.disposed ptyId hmem _ terminal (htracked.sound.keyed.terminal?_of_mem hterm) hpty

/-! ## Two traces of one create request -/

theorem failed_of_failing {request : Request} (hfailing : failing request.rest = true)
    (hdone : request.isDone = true) : request.Failed := by
  obtain ⟨outcome, houtcome⟩ := Request.isDone_iff.mp hdone
  rw [houtcome] at hfailing
  cases outcome with
  | error error => exact ⟨error, houtcome⟩
  | ok terminal => cases hfailing

/-- A create whose process has started when the record is moved in its window. -/
def movedWhileStarting : List LifecycleAction :=
  createUntilStarted ++
    (.mutate (.constant "t" "c") (.reorderTerminals "ses-a" none ["term-b"]) :: calls 1 "c")

theorem movedWhileStarting_orphans : ∃ state request,
    lifecycleSystem.replay freshKeys emptyHost movedWhileStarting = some state ∧
      state.requests 0 = some request ∧ request.Failed ∧ "p" ∈ request.spawned ∧
        "p" ∈ state.live ∧ ∀ terminal ∈ state.catalog.terminals,
          terminal.output.ptyId ≠ some "p" := by
  have hrun : (lifecycleSystem.replay freshKeys emptyHost movedWhileStarting).any (fun state =>
      (state.requests 0).any fun request => failing request.rest && request.isDone &&
        request.spawned.contains "p" && state.live.contains "p" &&
          state.catalog.terminals.all fun terminal => terminal.output.ptyId != some "p") = true := by
    decide
  obtain ⟨state, hrpl, hstate⟩ := (any_eq_true _ _).mp hrun
  obtain ⟨request, hr, hreq⟩ := (any_eq_true _ _).mp hstate
  simp only [and_eq_true, List.all_eq_true, bne_iff_ne, List.contains_iff_mem] at hreq
  obtain ⟨⟨⟨⟨hfailing, hdone⟩, hspawned⟩, hlive⟩, hunnamed⟩ := hreq
  exact ⟨state, request, hrpl, hr, failed_of_failing hfailing hdone, hspawned, hlive, hunnamed⟩

/-- Without the condition a failed request can leave a process that no record
names. -/
theorem failure_orphans : ¬ ∀ state : LifecycleState,
    lifecycleSystem.Run (fun state action => action.Fresh state) state →
      ∀ index request, state.requests index = some request → request.Failed →
        Consistent state.toHost request := by
  intro hall
  obtain ⟨state, request, hrpl, hr, hfailed, hspawned, hlive, hunnamed⟩ :=
    movedWhileStarting_orphans
  have hsteady : Steady movedWhileStarting := by
    refine steady_createUntilStarted.append (List.forall_mem_cons.mpr ⟨?_, steady_calls 1 "c"⟩)
    intro env henv
    cases henv
    exact ⟨"t", "c", rfl⟩
  have hrun := System.replay_run (System.Run.start emptyHost_booted)
    (fun s a hmem hkeys => LifecycleAction.fresh_of_keys hsteady hmem hkeys) hrpl
  obtain ⟨terminal, hmem, -, hpty⟩ := (hall state hrun 0 request hr hfailed).spawned "p" hspawned
    hlive
  exact hunnamed terminal hmem hpty

def refusedCreate : List LifecycleAction :=
  .start 0 (.create ⟨some "terminal", .ok {}, "ses-a", none, none⟩) ::
    (calls 3 "b" ++ (calls 7 "c" ++ (.advance 0 { answers "c" with spawn := .refused .limit none } ::
      calls 2 "c")))

def withoutProcesses (state : LifecycleState) (action : LifecycleAction) : Bool :=
  freshKeys state action && (state.catalog.terminals.all (·.output.ptyId.isNone) &&
    match action with
    | .advance index answers =>
      (state.requests index).all (fun request =>
        request.spawned.isEmpty && request.disposed.isEmpty) &&
        (match answers.spawn with
          | .refused _ (some _) => false
          | _ => true) &&
        (match answers.stop with
          | .refused _ killed => !killed
          | _ => true)
    | _ => true)

theorem undoSafe_of_withoutProcesses {state : LifecycleState} {action : LifecycleAction}
    (h : withoutProcesses state action = true) : UndoSafe state action := by
  simp only [withoutProcesses, and_eq_true, List.all_eq_true, isNone_iff_eq_none] at h
  obtain ⟨-, hunnamed, h⟩ := h
  cases action with
  | advance index answers =>
    simp only [and_eq_true, all_eq_true, List.isEmpty_iff] at h
    obtain ⟨⟨hidle, hspawn⟩, hstop⟩ := h
    intro request hr
    refine ⟨fun _ error ptyId heq => ?_, fun _ what heq => ?_, fun id revision edit _ => ?_⟩
    · rw [heq] at hspawn
      cases hspawn
    · rw [heq] at hstop
      cases hstop
    · split
      · intro old ptyId hold hpty
        rw [hunnamed old (row?_mem MuxTerminal.id hold).1] at hpty
        cases hpty
      · exact nothingToUndo_of_idle (hidle request hr).1 (hidle request hr).2
  | _ => trivial

theorem failure_consistent_refusedCreate : ∃ state request,
    lifecycleSystem.replay withoutProcesses emptyHost refusedCreate = some state ∧
      state.requests 0 = some request ∧ Consistent state.toHost request := by
  have hrun : (lifecycleSystem.replay withoutProcesses emptyHost refusedCreate).any (fun state =>
      (state.requests 0).any fun request => failing request.rest && request.isDone) = true := by
    decide
  obtain ⟨state, hrpl, hstate⟩ := (any_eq_true _ _).mp hrun
  obtain ⟨request, hr, hreq⟩ := (any_eq_true _ _).mp hstate
  obtain ⟨hfailing, hdone⟩ := and_eq_true_iff.mp hreq
  have hsteady : Steady refusedCreate := by
    refine .cons rfl ((steady_calls 3 "b").append ((steady_calls 7 "c").append
      (List.forall_mem_cons.mpr ⟨?_, steady_calls 2 "c"⟩)))
    intro env henv
    cases henv
    exact ⟨"t", "c", rfl⟩
  refine ⟨state, request, hrpl, hr, failure_consistent (System.replay_run
    (System.Run.start emptyHost_booted) ?_ hrpl) hr (failed_of_failing hfailing hdone)⟩
  intro s a hmem hcheck
  exact ⟨LifecycleAction.fresh_of_keys hsteady hmem (and_eq_true_iff.mp hcheck).1,
    undoSafe_of_withoutProcesses hcheck⟩

end Yaade.Runtime

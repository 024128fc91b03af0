import Yaade.Workers.Lanes
import Yaade.Workers.Pool

/-!
What the pool and its worker hold of one terminal: its core, the commands and
events on their way, and the entry of the worker.
-/

namespace Yaade.Workers

open Yaade.Library List Option

/-- `work` are the commands that the worker received and did not answer. -/
@[ext]
structure Traffic where
  core : Option WorkerTerminalCore
  registered : Bool
  runtime : Option Nat
  queue : List WorkerCommand
  flight : Option CompletionKey
  work : List WorkerCommand
  outbox : List WorkerEvent

namespace Traffic

def none : Traffic := ⟨.none, false, .none, [], .none, [], []⟩

def line (traffic : Traffic) : List WorkerCommand := traffic.work ++ traffic.queue

end Traffic

/-! ## Generations -/

def effective (runtime : Option Nat) (line : List WorkerCommand) : Option Nat :=
  line.foldl (fun runtime command =>
    if command.kind.isCreate then some command.generation else runtime) runtime

def Served : Option Nat → List WorkerCommand → Prop
  | _, [] => True
  | runtime, command :: rest =>
    if command.kind.isCreate then Served (some command.generation) rest
    else runtime = some command.generation ∧ Served runtime rest

theorem effective_append (runtime : Option Nat) (line more : List WorkerCommand) :
    effective runtime (line ++ more) = effective (effective runtime line) more :=
  foldl_append

theorem served_append {runtime : Option Nat} {line : List WorkerCommand} {command : WorkerCommand}
    (h : Served runtime line)
    (hlast : command.kind.isCreate = true ∨ effective runtime line = some command.generation) :
    Served runtime (line ++ [command]) := by
  induction line generalizing runtime with
  | nil =>
    rw [nil_append]
    unfold Served
    split
    · trivial
    · rename_i hplain
      exact ⟨hlast.resolve_left hplain, trivial⟩
  | cons first rest ih =>
    rw [cons_append]
    unfold Served at h ⊢
    have hstep : effective runtime (first :: rest) =
        effective (if first.kind.isCreate then some first.generation else runtime) rest := rfl
    rw [hstep] at hlast
    split
    · rename_i hcreate
      rw [if_pos hcreate] at h hlast
      exact ih h hlast
    · rename_i hplain
      rw [if_neg hplain] at h hlast
      exact ⟨h.1, ih h.2 hlast⟩

/-! ## What holds of a terminal -/

/-- The first create and its answer. -/
structure Starting (core : WorkerTerminalCore) (traffic : Traffic) : Prop where
  rejects : core.initializationReject = true
  steady : core.recovering = false
  listens : core.readyListener = some .initialization
  first : core.generation = 1
  stage : (traffic.outbox = [] ∧ traffic.runtime = none ∧ (traffic.line = [] ∨
      ∃ command, traffic.line = [command] ∧ command.kind.isCreate = true ∧
        command.generation = 1)) ∨
    (traffic.line = [] ∧ traffic.runtime = none ∧
      ∃ event, traffic.outbox = [event] ∧ event.kind = .fatalError) ∨
    (traffic.line = [] ∧ traffic.runtime = some 1 ∧
      ∃ event rest, traffic.outbox = event :: rest ∧ event.kind = .ready)

/-- The entry is, or will be, of the core's generation; while the core recovers
its create is on the way, or the answer. -/
structure Running (core : WorkerTerminalCore) (traffic : Traffic) : Prop where
  accepts : core.initializationReject = false
  listens : core.readyListener ≠ some .initialization
  counted : 1 ≤ core.generation
  reaches : effective traffic.runtime traffic.line = some core.generation
  later : ∀ command ∈ traffic.line, command.kind.isCreate = true → 2 ≤ command.generation
  answered : traffic.outbox ≠ [] → traffic.runtime ≠ none
  recovers : core.recovering = true → core.readyListener = some .recovery ∧
    ((∃ command ∈ traffic.line, command.kind.isCreate = true ∧
        command.generation = core.generation) ∨
      ∃ event ∈ traffic.outbox, event.kind = .ready ∧ event.generation = core.generation)

def WorkerTerminalCore.used (core : WorkerTerminalCore) (key : CompletionKey) : Prop :=
  key.1 < core.generation ∨ key.1 = core.generation ∧ key.2 ≤ core.sequence

/-- Keys of commands on the way differ, and the command in flight is with the
worker or was answered. -/
structure Live (core : WorkerTerminalCore) (traffic : Traffic) : Prop where
  registered : traffic.registered = true
  single : traffic.work.length ≤ 1
  plain : ∀ command ∈ traffic.line, command.kind ≠ .dispose
  distinct : (traffic.line.map WorkerCommand.key).Nodup
  behind : ∀ event ∈ traffic.outbox, event.key ∉ traffic.line.map WorkerCommand.key
  usedLine : ∀ command ∈ traffic.line, core.used command.key
  usedOutbox : ∀ event ∈ traffic.outbox, core.used event.key
  grounded : traffic.flight = none → traffic.work = []
  flying : ∀ key, traffic.flight = some key →
    (∃ command, traffic.work = [command] ∧ command.key = key) ∨
      (traffic.work = [] ∧ ∃ event ∈ traffic.outbox, event.key = key)
  served : Served traffic.runtime traffic.line
  starting : core.resolved = false → Starting core traffic
  running : core.resolved = true → Running core traffic

/-- A terminal that was disposed of has no entry, and gets none. -/
structure Released (traffic : Traffic) : Prop where
  unregistered : traffic.registered = false
  removed : traffic.runtime = none
  quiet : traffic.queue = []
  landed : traffic.flight = none
  single : traffic.work.length ≤ 1
  plain : ∀ command ∈ traffic.work, command.kind.isCreate = false

def Orderly (traffic : Traffic) : Prop :=
  match traffic.core with
  | none => traffic = .none
  | some core => if core.disposed then Released traffic else Live core traffic

section Moves

variable {core : WorkerTerminalCore} {traffic : Traffic}

/-- A command goes into the queue under a new key. -/
theorem Live.enqueue (h : Live core traffic) {core' : WorkerTerminalCore}
    {command : WorkerCommand} (hfresh : ¬core.used command.key)
    (hused : ∀ key, core.used key → core'.used key) (hnew : core'.used command.key)
    (hplain : command.kind ≠ .dispose) (hserved : command.kind.isCreate = true ∨
      effective traffic.runtime traffic.line = some command.generation)
    (hrslv : core'.resolved = true) (hrunn : Running core' { traffic with
      core := some core'
      queue := traffic.queue ++ [command] }) :
    Live core' { traffic with
      core := some core'
      queue := traffic.queue ++ [command] } := by
  have hline : ({ traffic with core := some core', queue := traffic.queue ++ [command] } :
      Traffic).line = traffic.line ++ [command] := (append_assoc _ _ _).symm
  exact {
    __ := h
    plain := fun other hother => by
      rw [hline] at hother
      rcases mem_snoc.mp hother with hold | rfl
      · exact h.plain other hold
      · exact hplain
    distinct := by
      rw [hline, map_append, map_singleton]
      refine h.distinct.append (nodup_singleton _) ?_
      rw [disjoint_singleton]
      intro hmem
      obtain ⟨other, hother, hsame⟩ := List.mem_map.mp hmem
      exact hfresh (hsame ▸ h.usedLine other hother)
    behind := fun event hev => by
      rw [hline, map_append, mem_append, not_or]
      refine ⟨h.behind event hev, fun hmem => ?_⟩
      exact hfresh (mem_singleton.mp hmem ▸ h.usedOutbox event hev)
    usedLine := fun other hother => by
      rw [hline] at hother
      rcases mem_snoc.mp hother with hold | rfl
      · exact hused _ (h.usedLine other hold)
      · exact hnew
    usedOutbox := fun event hev => hused _ (h.usedOutbox event hev)
    served := by
      rw [hline]
      exact served_append h.served hserved
    starting := fun hfalse => by cases hrslv.symm.trans hfalse
    running := fun _ => hrunn }

theorem used_next {core : WorkerTerminalCore} : ¬core.used (core.generation, core.sequence + 1) := by
  rintro (hless | ⟨_, hless⟩)
  · exact lt_irrefl _ hless
  · exact Nat.not_succ_le_self _ hless

theorem Live.command (h : Live core traffic) (hrslv : core.resolved = true)
    (hsteady : core.recovering = false) (presentation : WorkerPriority) {command : WorkerCommand}
    (hkind : command.kind.isCreate = false) (hplain : command.kind ≠ .dispose)
    (hkey : command.key = (core.generation, core.sequence + 1)) :
    let core' := { core with presentation := presentation, sequence := core.sequence + 1 }
    Live core' { traffic with core := some core', queue := traffic.queue ++ [command] } := by
  intro core'
  have hrunn := h.running hrslv
  have hgen : command.generation = core.generation := congrArg Prod.fst hkey
  have hline : ({ traffic with core := some core', queue := traffic.queue ++ [command] } :
      Traffic).line = traffic.line ++ [command] := (append_assoc _ _ _).symm
  refine h.enqueue (hkey ▸ used_next) (fun key hused => ?_) ?_ hplain
    (.inr (hgen ▸ hrunn.reaches)) hrslv ?_
  · exact hused.imp_right fun ⟨hsame, hless⟩ => ⟨hsame, hless.trans (Nat.le_succ _)⟩
  · rw [hkey]
    exact .inr ⟨rfl, le_rfl⟩
  · exact {
      __ := hrunn
      reaches := by
        rw [hline, effective_append, hrunn.reaches]
        simp [effective, hkind, core']
      later := fun other hother hcreate => by
        rw [hline] at hother
        rcases mem_append.mp hother with hold | hlast
        · exact hrunn.later other hold hcreate
        · rw [mem_singleton.mp hlast, hkind] at hcreate
          cases hcreate
      recovers := fun hrecov => by cases hsteady.symm.trans hrecov }

section

variable (h : Live core traffic)
include h

/-- The create of a recovery goes into the queue. -/
theorem Live.recover (hrslv : core.resolved = true)
    {command : WorkerCommand} (hkind : command.kind.isCreate = true)
    (hkey : command.key = (core.generation + 1, 1)) :
    let core' := { core.recover with sequence := 1 }
    Live core' { traffic with core := some core', queue := traffic.queue ++ [command] } := by
  intro core'
  have hrunn := h.running hrslv
  have hgen : command.generation = core.generation + 1 := congrArg Prod.fst hkey
  have hline : ({ traffic with core := some core', queue := traffic.queue ++ [command] } :
      Traffic).line = traffic.line ++ [command] := (append_assoc _ _ _).symm
  have hlast : command ∈ traffic.line ++ [command] := mem_concat_self
  have hfresh : ¬core.used command.key := by
    rw [hkey]
    rintro (hless | ⟨hsame, _⟩)
    · exact absurd hless (by simp)
    · exact absurd hsame (by simp)
  refine h.enqueue hfresh (fun key hused => ?_) ?_ (fun hdispose => ?_) (.inl hkind) hrslv ?_
  · refine .inl ?_
    rcases hused with hless | ⟨hsame, _⟩
    · exact hless.trans (Nat.lt_succ_self _)
    · exact hsame ▸ Nat.lt_succ_self _
  · rw [hkey]
    exact .inr ⟨rfl, le_rfl⟩
  · rw [hdispose] at hkind
    cases hkind
  · exact {
      accepts := hrunn.accepts
      listens := nofun
      counted := Nat.le_add_left 1 core.generation
      reaches := by
        rw [hline, effective_append]
        simp only [effective, foldl_cons, foldl_nil, if_pos hkind, hgen]
        rfl
      later := fun other hother hcreate => by
        rw [hline] at hother
        rcases mem_append.mp hother with hold | hnew
        · exact hrunn.later other hold hcreate
        · rw [mem_singleton.mp hnew, hgen]
          exact Nat.succ_le_succ hrunn.counted
      answered := hrunn.answered
      recovers := fun _ => ⟨rfl, .inl ⟨command, hline ▸ hlast, hkind, hgen⟩⟩ }

theorem Live.skip (presentation : WorkerPriority)
    (lastEventSequence : Nat) {sequence : Nat} (hseq : core.sequence ≤ sequence) (timeout : Bool) :
    let core' := { core with
      presentation := presentation
      sequence := sequence
      lastEventSequence := lastEventSequence
      initializationTimeout := timeout }
    Live core' { traffic with core := some core' } := by
  intro core'
  have hused : ∀ key, core.used key → core'.used key := fun key hused =>
    hused.imp_right fun ⟨hsame, hless⟩ => ⟨hsame, hless.trans hseq⟩
  exact {
    __ := h
    usedLine := fun command hcommand => hused _ (h.usedLine command hcommand)
    usedOutbox := fun event hev => hused _ (h.usedOutbox event hev)
    starting := fun hfalse =>
      have hstarting := h.starting hfalse
      { hstarting with }
    running := fun htrue =>
      have hrunn := h.running htrue
      { hrunn with } }

theorem Live.dispatch {command : WorkerCommand}
    {rest : List WorkerCommand} (hflight : traffic.flight = none)
    (hqueue : traffic.queue = command :: rest) :
    Live core { traffic with
      queue := rest
      flight := some command.key
      work := traffic.work ++ [command] } := by
  have hwork := h.grounded hflight
  have hline : ({ traffic with
      queue := rest
      flight := some command.key
      work := traffic.work ++ [command] } : Traffic).line = traffic.line := by
    simp [Traffic.line, hqueue]
  exact {
    registered := h.registered
    single := by
      simp [hwork]
    plain := hline ▸ h.plain
    distinct := hline ▸ h.distinct
    behind := hline ▸ h.behind
    usedLine := hline ▸ h.usedLine
    usedOutbox := h.usedOutbox
    grounded := nofun
    flying := fun key hkey => .inl ⟨command, by simp [hwork], Option.some.inj hkey⟩
    served := hline ▸ h.served
    starting := fun hfalse =>
      have hstarting := h.starting hfalse
      { hstarting with stage := hline ▸ hstarting.stage }
    running := fun htrue =>
      have hrunn := h.running htrue
      { hrunn with
        reaches := hline ▸ hrunn.reaches
        later := hline ▸ hrunn.later
        recovers := hline ▸ hrunn.recovers } }

/-! ## The worker -/

/-- The command at the worker is answered: its key is with the events now. -/
theorem Live.answered {command : WorkerCommand}
    (hwork : traffic.work = [command]) {events : List WorkerEvent}
    (hsome : events ≠ []) (hkeys : ∀ event ∈ events, event.key = command.key) {runtime : Option Nat}
    (hserved : Served runtime traffic.queue)
    (hstarting : core.resolved = false → Starting core { traffic with
      runtime := runtime
      work := []
      outbox := traffic.outbox ++ events })
    (hrunn : core.resolved = true → Running core { traffic with
      runtime := runtime
      work := []
      outbox := traffic.outbox ++ events }) :
    Live core { traffic with
      runtime := runtime
      work := []
      outbox := traffic.outbox ++ events } := by
  have hline : traffic.line = command :: traffic.queue := by simp [Traffic.line, hwork]
  have hdist := h.distinct
  rw [hline, map_cons, nodup_cons] at hdist
  have hin : ∀ {other}, other ∈ traffic.queue → other ∈ traffic.line := fun hother =>
    hline ▸ mem_cons_of_mem command hother
  exact {
    registered := h.registered
    single := Nat.zero_le 1
    plain := fun other hother => h.plain other (hin hother)
    distinct := hdist.2
    behind := fun event hev hmem => by
      rcases mem_append.mp hev with hold | hnew
      · refine h.behind event hold ?_
        rw [hline]
        exact mem_cons_of_mem command.key hmem
      · exact hdist.1 (hkeys event hnew ▸ hmem)
    usedLine := fun other hother => h.usedLine other (hin hother)
    usedOutbox := fun event hev => by
      rcases mem_append.mp hev with hold | hnew
      · exact h.usedOutbox event hold
      · exact hkeys event hnew ▸ h.usedLine command (hline ▸ mem_cons_self)
    grounded := fun _ => rfl
    flying := fun key hkey => by
      refine .inr ⟨rfl, ?_⟩
      rcases h.flying key hkey with ⟨other, hother, hsame⟩ | ⟨hnone, _⟩
      · rw [hwork] at hother
        cases hother
        obtain ⟨event, hev⟩ := exists_mem_of_ne_nil events hsome
        exact ⟨event, mem_append_right _ hev, (hkeys event hev).trans hsame⟩
      · cases hwork.symm.trans hnone
    served := hserved
    starting := hstarting
    running := hrunn }

theorem Live.line_cons {command : WorkerCommand} (hwork : traffic.work = [command]) :
    traffic.line = command :: traffic.queue ∧ command ∈ traffic.line ∧
      Served traffic.runtime (command :: traffic.queue) := by
  have hline : traffic.line = command :: traffic.queue := by simp [Traffic.line, hwork]
  exact ⟨hline, hline ▸ mem_cons_self, hline ▸ h.served⟩

/-- A command other than a create finds its entry, and is answered. -/
theorem Live.handle {command : WorkerCommand}
    (hwork : traffic.work = [command]) (hkind : command.kind.isCreate = false) (kind : EventKind) :
    traffic.runtime = some command.generation ∧ Live core { traffic with
      work := []
      outbox := traffic.outbox ++ [command.reply kind] } := by
  obtain ⟨hline, _, hserved⟩ := h.line_cons hwork
  unfold Served at hserved
  rw [if_neg (by simp [hkind])] at hserved
  refine ⟨hserved.1, h.answered hwork (cons_ne_nil _ _) ?_ hserved.2 ?_ ?_⟩
  · intro event hev
    rw [mem_singleton.mp hev]
    rfl
  · intro hfalse
    exfalso
    rcases (h.starting hfalse).stage with
      ⟨_, _, hempty | ⟨first, hfirst, hcreate, _⟩⟩ | ⟨hempty, _⟩ | ⟨hempty, _⟩
    · cases hline.symm.trans hempty
    · rw [hline] at hfirst
      obtain ⟨rfl, _⟩ := List.cons.inj hfirst
      cases hkind.symm.trans hcreate
    · cases hline.symm.trans hempty
    · cases hline.symm.trans hempty
  · intro htrue
    have hrunn := h.running htrue
    exact {
      __ := hrunn
      reaches := by
        have hreaches := hrunn.reaches
        rw [hline] at hreaches
        simpa [effective, hkind, Traffic.line] using hreaches
      later := fun other hother => hrunn.later other (hline ▸ mem_cons_of_mem _ hother)
      answered := fun _ hnone => by cases hserved.1.symm.trans hnone
      recovers := fun hrecov => by
        obtain ⟨hlistens, hway⟩ := hrunn.recovers hrecov
        refine ⟨hlistens, hway.imp ?_ ?_⟩
        · rintro ⟨other, hother, hcreate, hgen⟩
          rw [hline] at hother
          rcases mem_cons.mp hother with rfl | hother
          · cases hkind.symm.trans hcreate
          · exact ⟨other, hother, hcreate, hgen⟩
        · rintro ⟨event, hev, hanswer⟩
          exact ⟨event, mem_append_left _ hev, hanswer⟩ }

/-- A core was made for the terminal. -/
theorem Live.ready {command : WorkerCommand}
    (hwork : traffic.work = [command]) (hkind : command.kind.isCreate = true)
    {more : List WorkerEvent} (hmore : ∀ event ∈ more, event.key = command.key) :
    Live core { traffic with
      runtime := some command.generation
      work := []
      outbox := traffic.outbox ++ command.reply .ready :: more } := by
  obtain ⟨hline, _, hserved⟩ := h.line_cons hwork
  unfold Served at hserved
  rw [if_pos hkind] at hserved
  refine h.answered hwork (cons_ne_nil _ _) ?_ hserved ?_ ?_
  · intro event hev
    rcases mem_cons.mp hev with rfl | hlater
    · rfl
    · exact hmore event hlater
  · intro hfalse
    have hstarting := h.starting hfalse
    refine { hstarting with stage := .inr (.inr ?_) }
    rcases hstarting.stage with
      ⟨hempty, _, hnone | ⟨first, hfirst, _, hgen⟩⟩ | ⟨hnone, _⟩ | ⟨hnone, _⟩
    · cases hline.symm.trans hnone
    · rw [hline] at hfirst
      obtain ⟨rfl, hqueue⟩ := List.cons.inj hfirst
      refine ⟨hqueue, congrArg some hgen, command.reply .ready, more, ?_, rfl⟩
      exact congrArg (· ++ command.reply .ready :: more) hempty
    · cases hline.symm.trans hnone
    · cases hline.symm.trans hnone
  · intro htrue
    have hrunn := h.running htrue
    exact {
      __ := hrunn
      reaches := by
        have hreaches := hrunn.reaches
        rw [hline] at hreaches
        simpa [effective, hkind, Traffic.line] using hreaches
      later := fun other hother => hrunn.later other (hline ▸ mem_cons_of_mem _ hother)
      answered := nofun
      recovers := fun hrecov => by
        obtain ⟨hlistens, hway⟩ := hrunn.recovers hrecov
        refine ⟨hlistens, ?_⟩
        rcases hway with ⟨other, hother, hcreate, hgen⟩ | ⟨event, hev, hanswer⟩
        · rw [hline] at hother
          rcases mem_cons.mp hother with rfl | hother
          · exact .inr ⟨_, mem_append_right _ mem_cons_self, rfl, hgen⟩
          · exact .inl ⟨other, hother, hcreate, hgen⟩
        · exact .inr ⟨event, mem_append_left _ hev, hanswer⟩ }

theorem Live.unmade {command : WorkerCommand}
    (hwork : traffic.work = [command]) (hkind : command.kind.isCreate = true)
    (hfirst : command.generation = 1) :
    Live core { traffic with
      work := []
      outbox := traffic.outbox ++ [command.reply .fatalError] } := by
  obtain ⟨hline, hmem, _⟩ := h.line_cons hwork
  have hfalse : core.resolved = false := by
    refine Bool.eq_false_iff.mpr fun htrue => ?_
    have hlater := (h.running htrue).later command hmem hkind
    rw [hfirst] at hlater
    exact absurd hlater (by decide)
  have hstarting := h.starting hfalse
  obtain ⟨hempty, hrtime, hqueue⟩ :
      traffic.outbox = [] ∧ traffic.runtime = none ∧ traffic.queue = [] := by
    rcases hstarting.stage with
      ⟨hempty, hrtime, hnone | ⟨first, hfirst, _⟩⟩ | ⟨hnone, _⟩ | ⟨hnone, _⟩
    · cases hline.symm.trans hnone
    · rw [hline] at hfirst
      exact ⟨hempty, hrtime, (List.cons.inj hfirst).2⟩
    · cases hline.symm.trans hnone
    · cases hline.symm.trans hnone
  refine h.answered hwork (cons_ne_nil _ _) ?_ ?_ (fun _ => ?_) fun htrue => ?_
  · intro event hev
    rw [mem_singleton.mp hev]
    rfl
  · rw [hqueue]
    trivial
  · refine { hstarting with
      stage := .inr (.inl ⟨hqueue, hrtime, command.reply .fatalError, ?_, rfl⟩) }
    exact congrArg (· ++ [command.reply .fatalError]) hempty
  · cases hfalse.symm.trans htrue

end

/-! ## Events -/

theorem listen_disposed (core : WorkerTerminalCore) (event : WorkerEvent) :
    (core.listen event).disposed = core.disposed := by
  unfold WorkerTerminalCore.listen
  split
  · split <;> rfl
  · split <;> rfl
  · rfl

theorem listen_resolved {event : WorkerEvent} (h : core.resolved = true) :
    (core.listen event).resolved = true := by
  unfold WorkerTerminalCore.listen
  split
  · split
    · rfl
    · exact h
  · split <;> exact h
  · exact h

/-- An event of the terminal is taken; it lands the command of its key, and the
core's listener hears it. -/
theorem Live.receive (h : Live core traffic) {event : WorkerEvent} {rest : List WorkerEvent}
    (hev : traffic.outbox = event :: rest) :
    Live (core.listen event) { traffic with
      core := some (core.listen event)
      flight := if traffic.flight = some event.key then none else traffic.flight
      outbox := rest } := by
  have hin : ∀ {other}, other ∈ rest → other ∈ traffic.outbox := fun hother =>
    hev ▸ mem_cons_of_mem event hother
  have hfirst : event ∈ traffic.outbox := hev ▸ mem_cons_self
  have hused : ∀ {key}, core.used key → (core.listen event).used key := by
    intro key hkey
    unfold WorkerTerminalCore.listen
    split
    · split <;> exact hkey
    · split <;> exact hkey
    · exact hkey
  have hgrounded : (if traffic.flight = some event.key then none else traffic.flight) = none →
      traffic.work = [] := by
    intro hnone
    split at hnone
    case isTrue hflight =>
      rcases h.flying _ hflight with ⟨command, hwork, hsame⟩ | ⟨hwork, _⟩
      · refine absurd ?_ (h.behind event hfirst)
        rw [Traffic.line, hwork, ← hsame]
        exact mem_cons_self
      · exact hwork
    case isFalse => exact h.grounded hnone
  have hflying : ∀ key,
      (if traffic.flight = some event.key then none else traffic.flight) = some key →
        (∃ command, traffic.work = [command] ∧ command.key = key) ∨
          (traffic.work = [] ∧ ∃ other ∈ rest, other.key = key) := by
    intro key hkey
    split at hkey
    · cases hkey
    rename_i hother
    refine (h.flying key hkey).imp_right fun ⟨hwork, answer, hanswer, hsame⟩ => ⟨hwork, ?_⟩
    rw [hev] at hanswer
    rcases mem_cons.mp hanswer with rfl | hlater
    · exact absurd (hsame ▸ hkey) hother
    · exact ⟨answer, hlater, hsame⟩
  have hstarting : (core.listen event).resolved = false →
      Starting (core.listen event) { traffic with
        core := some (core.listen event)
        flight := if traffic.flight = some event.key then none else traffic.flight
        outbox := rest } := by
    intro hfalse
    have hbef : core.resolved = false := by
      refine Bool.eq_false_iff.mpr fun htrue => ?_
      cases hfalse.symm.trans (listen_resolved htrue)
    have hstart := h.starting hbef
    have hnot : event.kind ≠ .ready := by
      intro hready
      unfold WorkerTerminalCore.listen at hfalse
      rw [hstart.listens] at hfalse
      dsimp only at hfalse
      rw [if_pos hready] at hfalse
      cases hfalse
    have hsame : core.listen event = core := by
      unfold WorkerTerminalCore.listen
      rw [hstart.listens]
      exact if_neg hnot
    rw [hsame]
    refine { hstart with stage := .inl ?_ }
    rcases hstart.stage with ⟨hempty, _⟩ | ⟨hline, hrtime, only, honly, _⟩ |
        ⟨_, _, first, more, hstage, hready⟩
    · cases hev.symm.trans hempty
    · rw [hev] at honly
      exact ⟨(List.cons.inj honly).2, hrtime, .inl hline⟩
    · rw [hev] at hstage
      exact absurd ((List.cons.inj hstage).1 ▸ hready) hnot
  have hrunn : (core.listen event).resolved = true →
      Running (core.listen event) { traffic with
        core := some (core.listen event)
        flight := if traffic.flight = some event.key then none else traffic.flight
        outbox := rest } := by
    intro htrue
    cases hbef : core.resolved with
    | false =>
      have hstart := h.starting hbef
      have hready : event.kind = .ready := by
        by_contra hnot
        unfold WorkerTerminalCore.listen at htrue
        rw [hstart.listens] at htrue
        dsimp only at htrue
        rw [if_neg hnot] at htrue
        cases hbef.symm.trans htrue
      have hcore : core.listen event = { core with
          initializationTimeout := false
          readyListener := none
          initializationReject := false
          resolved := true } := by
        unfold WorkerTerminalCore.listen
        rw [hstart.listens]
        exact if_pos hready
      rw [hcore]
      obtain ⟨hline, hrtime⟩ : traffic.line = [] ∧ traffic.runtime = some 1 := by
        rcases hstart.stage with ⟨hempty, _⟩ | ⟨_, _, only, honly, hfatal⟩ | ⟨hline, hrtime, _⟩
        · cases hev.symm.trans hempty
        · rw [hev] at honly
          rw [← (List.cons.inj honly).1, hready] at hfatal
          cases hfatal
        · exact ⟨hline, hrtime⟩
      exact {
        accepts := rfl
        listens := nofun
        counted := hstart.first.ge
        reaches := by
          have hreaches : effective traffic.runtime traffic.line = some core.generation := by
            rw [hline, hrtime, hstart.first]
            rfl
          exact hreaches
        later := fun command hcommand => by
          have hcommand : command ∈ traffic.line := hcommand
          rw [hline] at hcommand
          cases hcommand
        answered := fun _ hnone => by cases hrtime.symm.trans hnone
        recovers := fun hrecov => by cases hstart.steady.symm.trans hrecov }
    | true =>
      have hrun := h.running hbef
      have hanswered : rest ≠ [] → traffic.runtime ≠ none := fun _ =>
        hrun.answered (hev ▸ cons_ne_nil event rest)
      unfold WorkerTerminalCore.listen
      split
      · rename_i hlistens
        exact absurd hlistens hrun.listens
      · split
        · exact {
            __ := hrun
            listens := nofun
            answered := hanswered
            recovers := fun hrecov => nomatch hrecov }
        · rename_i hlistens hnot
          exact {
            __ := hrun
            answered := hanswered
            recovers := fun hrecov => by
              obtain ⟨hlistener, hway⟩ := hrun.recovers hrecov
              refine ⟨hlistener, hway.imp_right fun ⟨answer, hanswer, hready, hsame⟩ => ?_⟩
              rw [hev] at hanswer
              rcases mem_cons.mp hanswer with rfl | hlater
              · exact absurd ⟨hready, hsame⟩ hnot
              · exact ⟨answer, hlater, hready, hsame⟩ }
      · rename_i hlistens
        exact {
          __ := hrun
          answered := hanswered
          recovers := fun hrecov => by
            cases hlistens.symm.trans (hrun.recovers hrecov).1 }
  exact {
    __ := h
    behind := fun other hother => h.behind other (hin hother)
    usedLine := fun command hcommand => hused (h.usedLine command hcommand)
    usedOutbox := fun other hother => hused (h.usedOutbox other (hin hother))
    grounded := hgrounded
    flying := hflying
    starting := hstarting
    running := hrunn }

theorem Live.failed_start (h : Live core traffic) (hfalse : core.resolved = false)
    {event : WorkerEvent} {rest : List WorkerEvent} (hev : traffic.outbox = event :: rest)
    (hnot : event.kind ≠ .ready) : traffic.line = [] ∧ traffic.runtime = none ∧ rest = [] := by
  rcases (h.starting hfalse).stage with ⟨hempty, _⟩ | ⟨hline, hrtime, only, honly, _⟩ |
      ⟨_, _, first, more, hstage, hready⟩
  · cases hev.symm.trans hempty
  · rw [hev] at honly
    exact ⟨hline, hrtime, (List.cons.inj honly).2⟩
  · rw [hev] at hstage
    exact absurd ((List.cons.inj hstage).1 ▸ hready) hnot

/-! ## Beginnings -/

theorem live_alone {core : WorkerTerminalCore} {command : WorkerCommand}
    (hkind : command.kind.isCreate = true) (hused : core.used command.key)
    (hstarting : core.resolved = false →
      Starting core ⟨some core, true, none, [command], none, [], []⟩)
    (hrunn : core.resolved = true →
      Running core ⟨some core, true, none, [command], none, [], []⟩) :
    Live core ⟨some core, true, none, [command], none, [], []⟩ where
  registered := rfl
  single := Nat.zero_le 1
  plain := fun other hother hdispose => by
    rw [mem_singleton.mp hother] at hdispose
    rw [hdispose] at hkind
    cases hkind
  distinct := nodup_singleton _
  behind := fun event hnone => nomatch hnone
  usedLine := fun other hother => mem_singleton.mp hother ▸ hused
  usedOutbox := fun event hnone => nomatch hnone
  grounded := fun _ => rfl
  flying := fun key hnone => nomatch hnone
  served := by
    unfold Traffic.line Served
    simp [hkind, Served]
  starting := hstarting
  running := hrunn

theorem Live.crash (h : Live core traffic) (hrslv : core.resolved = true)
    {command : WorkerCommand} (hkind : command.kind.isCreate = true)
    (hkey : command.key = (core.generation + 1, 1)) :
    let core' := { core.recover with sequence := 1 }
    Live core' ⟨some core', true, none, [command], none, [], []⟩ := by
  intro core'
  have hrun := h.running hrslv
  have hgen : command.generation = core.generation + 1 := congrArg Prod.fst hkey
  refine live_alone hkind ?_ (fun hfalse => by cases hrslv.symm.trans hfalse) fun _ => ?_
  · rw [hkey]
    exact .inr ⟨rfl, le_rfl⟩
  · exact {
      accepts := hrun.accepts
      listens := nofun
      counted := Nat.le_add_left 1 core.generation
      reaches := by simp [Traffic.line, effective, hkind, hgen, core',
        WorkerTerminalCore.recover]
      later := fun other hother _ => by
        rw [mem_singleton.mp hother, hgen]
        exact Nat.succ_le_succ hrun.counted
      answered := fun hnot => absurd rfl hnot
      recovers := fun _ => ⟨rfl, .inl ⟨command, mem_singleton.mpr rfl, hkind, hgen⟩⟩ }

theorem live_start (presentation : WorkerPriority) {command : WorkerCommand}
    (hkind : command.kind.isCreate = true) (hkey : command.key = (1, 1)) :
    let core := { WorkerTerminalCore.start presentation with sequence := 1 }
    Live core ⟨some core, true, none, [command], none, [], []⟩ := by
  intro core
  refine live_alone hkind (hkey ▸ .inr ⟨rfl, le_rfl⟩) (fun _ => ?_) nofun
  exact ⟨rfl, rfl, rfl, rfl, .inl ⟨rfl, rfl, .inr ⟨command, rfl, hkind, congrArg Prod.fst hkey⟩⟩⟩

theorem live_unsent (presentation : WorkerPriority) :
    let core := { WorkerTerminalCore.start presentation with sequence := 1 }
    Live core ⟨some core, true, none, [], none, [], []⟩ := by
  intro core
  exact {
    registered := rfl
    single := Nat.zero_le 1
    plain := fun command hnone => nomatch hnone
    distinct := nodup_nil
    behind := fun event hnone => nomatch hnone
    usedLine := fun command hnone => nomatch hnone
    usedOutbox := fun event hnone => nomatch hnone
    grounded := fun _ => rfl
    flying := fun key hnone => nomatch hnone
    served := trivial
    starting := fun _ => ⟨rfl, rfl, rfl, rfl, .inl ⟨rfl, rfl, .inl rfl⟩⟩
    running := fun htrue => nomatch htrue }

theorem orderly_live {core : WorkerTerminalCore} (h : Orderly traffic)
    (hcore : traffic.core = some core) (hopen : core.disposed = false) : Live core traffic := by
  unfold Orderly at h
  rw [hcore] at h
  simpa [hopen] using h

theorem orderly_released {core : WorkerTerminalCore} (h : Orderly traffic)
    (hcore : traffic.core = some core) (hdisp : core.disposed = true) : Released traffic := by
  unfold Orderly at h
  rw [hcore] at h
  simpa [hdisp] using h

theorem orderly_of_live {core : WorkerTerminalCore} (hcore : traffic.core = some core)
    (hopen : core.disposed = false) (h : Live core traffic) : Orderly traffic := by
  unfold Orderly
  rw [hcore]
  simpa [hopen] using h

theorem orderly_of_released {core : WorkerTerminalCore} (hcore : traffic.core = some core)
    (hdisp : core.disposed = true) (h : Released traffic) : Orderly traffic := by
  unfold Orderly
  rw [hcore]
  simpa [hdisp] using h

theorem Released.recore (h : Released traffic) (core : Option WorkerTerminalCore) :
    Released { traffic with core := core } :=
  { h with }

end Moves

end Yaade.Workers

import Yaade.Runtime.Interleaving

/-!
The records of the terminals and the processes of the host, with one thing
going on at a time: a request runs from its first call to its last, an exit is
recorded before anything else happens, and a host restart reads the catalog
and reconciles it.
-/

namespace Yaade.Runtime

open Yaade.Library Yaade.Store List Option

/-! ## Requests without interruption -/

def Host.answer (host : Host) (answers : Answers) {β : Type} : HostEffect β → Option (β × Host)
  | .store call =>
    let (answer, catalog) := call.perform answers.env host.catalog
    some (answer, { host with catalog })
  | .emit _ => some ((), host)
  | .create _ => (host.create answers.spawn).map fun (answer, _, host) => (answer, host)
  | .dispose ptyId => (host.dispose ptyId answers.stop).map fun (answer, _, host) => (answer, host)

/-- A request from its first call to its last. The answers of the surroundings
are numbered, and `none` means that they do not fit the host. -/
def execute {α : Type} (script : Nat → Answers) :
    Program HostEffect α → Nat → Host → Option (α × Host)
  | .done a, _, host => some (a, host)
  | .call e k, i, host =>
    match host.answer (script i) e with
    | none => none
    | some (b, next) => execute script (k b) (i + 1) next

def MuxCommand.isLifecycle : MuxCommand → Bool
  | .createTerminal _ | .stopTerminal .. | .restartTerminal .. | .closeTerminal _ => true
  | _ => false

namespace Host

def exit (host : Host) (ptyId : String) (exitCode : Int) (env : StoreEnv) : Option Host :=
  if ptyId ∈ host.live then
    let ended := { host.withoutProcess ptyId with exited := ptyId :: host.exited }
    match terminalForPty host.catalog ptyId with
    | none => some ended
    | some terminal =>
      some { ended with
        catalog := ((StoreCall.updateTerminal terminal.id (some terminal.revision)
          (exitedEdit exitCode)).perform env host.catalog).2 }
  else none

/-- The next start of the host. No process survives it, and it does not come up
unless the catalog is reconciled. -/
def restart (host : Host) (machine : String) (env : StoreEnv) (serverEpoch : String)
    (available : List String) : Option Host :=
  match (StoreCall.reconcileStartup serverEpoch available).perform (env.later 1)
      (openStore env machine (some host.catalog)) with
  | (.ok _, catalog) =>
    some { catalog, live := [], issued := host.issued, exits := [], exited := host.exited,
           listener := none }
  | (.error _, _) => none

end Host

inductive SerialAction where
  | command (request : MuxCommand) (script : Nat → Answers)
  | exit (ptyId : String) (exitCode : Int) (env : StoreEnv)
  | restart (env : StoreEnv) (serverEpoch : String) (available : List String)

def serialSystem (machine : String) : System Host SerialAction where
  initial host := ∃ env, host =
    { catalog := openStore env machine none, live := [], issued := [], exits := [], exited := [],
      listener := none }
  step host
    | .command request script =>
      if request.isLifecycle then (execute script (dispatchMux request) 0 host).map (·.2)
      else none
    | .exit ptyId exitCode env => host.exit ptyId exitCode env
    | .restart env serverEpoch available => host.restart machine env serverEpoch available

/-! ## Coherence -/

/-- What the status, the times and the PTY of every record have to do with each
other and with the processes that run. -/
structure Coherent (host : Host) : Prop where
  archived : ∀ terminal ∈ host.catalog.terminals, terminal.archivedAt ≠ none →
    terminal.status.isLive = false ∧
      ∀ ptyId, terminal.output.ptyId = some ptyId → ptyId ∉ host.live
  finished : ∀ terminal ∈ host.catalog.terminals,
    terminal.finishedAt ≠ none ↔ terminal.status.isLive = false
  running : ∀ terminal ∈ host.catalog.terminals, terminal.status = .running →
    ∃ ptyId, terminal.output.ptyId = some ptyId ∧ ptyId ∈ host.live

def Stale (host : Host) (id : String) : Prop :=
  ∃ terminal, host.catalog.terminal? id = some terminal ∧ terminal.status = .running ∧
    ∀ ptyId, terminal.output.ptyId = some ptyId → ptyId ∉ host.live

/-- A process that a dispose ends is reported as ended, the update that is to
say so goes through, no record that has finished is started again, and the ids
of new records are new. -/
def Sure {β : Type} (answers : Answers) (host : Host) : HostEffect β → Prop
  | .dispose ptyId => ptyId ∈ host.live → ∀ what, answers.stop ≠ .refused what true
  | .store (.updateTerminal id _ edit) =>
    (Stale host id → answers.env.database = none) ∧
      (edit = restartEdit → answers.env.database = none →
        ∀ terminal, host.catalog.terminal? id = some terminal → terminal.finishedAt = none)
  | .store (.closeTerminal id _) => Stale host id → answers.env.database = none
  | .store (.createTerminal ..) => answers.env.Fresh host.catalog
  | _ => True

def SureThroughout {α : Type} (script : Nat → Answers) :
    Program HostEffect α → Nat → Host → Prop
  | .done _, _, _ => True
  | .call e k, i, host =>
    Sure (script i) host e ∧ ∀ b next, host.answer (script i) e = some (b, next) →
      SureThroughout script (k b) (i + 1) next

def SerialAction.Careful (host : Host) : SerialAction → Prop
  | .command request script => SureThroughout script (dispatchMux request) 0 host
  | .exit ptyId _ env => terminalForPty host.catalog ptyId ≠ none → env.database = none
  | .restart _ _ _ => ∀ terminal ∈ host.catalog.terminals, terminal.status.isLive = false

def Served {β : Type} (e : HostEffect β) (host : Host) (b : β) (next : Host) : Prop :=
  ∃ answers, Sure answers host e ∧ host.answer answers e = some (b, next)

abbrev HostEnsures {α : Type} (p : HostM α) (host : Host)
    (post : Except RuntimeError α → Host → Prop) : Prop :=
  Program.Ensures (α := Except RuntimeError α) (fun {_} => Served) p host post

theorem ensures_execute {α : Type} {script : Nat → Answers} {p : Program HostEffect α}
    {i : Nat} {host next : Host} {a : α} {post : α → Host → Prop}
    (h : Program.Ensures (fun {_} => Served) p host post) (hsure : SureThroughout script p i host)
    (hrun : execute script p i host = some (a, next)) : post a next := by
  suffices hruns : Program.Runs (fun {_} => Served) p host a next from h a next hruns
  clear h
  induction p generalizing i host with
  | done b =>
    cases hrun
    exact ⟨rfl, rfl⟩
  | call e k ih =>
    simp only [execute] at hrun
    split at hrun
    · cases hrun
    · rename_i b middle hanswer
      exact ⟨b, middle, ⟨script i, hsure.1, hanswer⟩, ih b (hsure.2 b middle hanswer) hrun⟩

/-! ## Records -/

/-- What a record says whether or not its process has just been stopped. -/
structure Recorded (issued : List String) (terminal : MuxTerminal) : Prop where
  finished : terminal.finishedAt ≠ none ↔ terminal.status.isLive = false
  archived : terminal.archivedAt ≠ none → terminal.status.isLive = false
  issued : ∀ ptyId, terminal.output.ptyId = some ptyId → ptyId ∈ issued

/-- A record that agrees with the processes that run. -/
structure Upright (live issued : List String) (terminal : MuxTerminal) : Prop
    extends Recorded issued terminal where
  running : terminal.status = .running →
    ∃ ptyId, terminal.output.ptyId = some ptyId ∧ ptyId ∈ live
  owned : ∀ ptyId, terminal.output.ptyId = some ptyId → ptyId ∈ live → terminal.status = .running

section Records

variable {live issued : List String} {terminal : MuxTerminal} {now ptyId : String}

theorem stampTerminal_ended (h : terminal.status.isLive = false) :
    (stampTerminal now terminal).finishedAt ≠ none := by
  cases hstatus : terminal.status with
  | created | starting | running | waiting =>
    rw [hstatus] at h
    cases h
  | succeeded | failed | cancelled | disconnected =>
    unfold stampTerminal
    dsimp only
    rw [hstatus]
    cases terminal.finishedAt <;> exact some_ne_none _

theorem stampTerminal_live (h : terminal.status.isLive = true) :
    (stampTerminal now terminal).finishedAt = terminal.finishedAt := by
  cases hstatus : terminal.status with
  | succeeded | failed | cancelled | disconnected =>
    rw [hstatus] at h
    cases h
  | created | starting | running | waiting =>
    unfold stampTerminal
    dsimp only
    rw [hstatus]

theorem Recorded.ended (h : terminal.status.isLive = false)
    (hiss : ∀ ptyId, terminal.output.ptyId = some ptyId → ptyId ∈ issued) :
    Recorded issued (stampTerminal now terminal) where
  finished := ⟨fun _ => h, fun _ => stampTerminal_ended h⟩
  archived _ := h
  issued := hiss

theorem Recorded.lives (h : terminal.status.isLive = true) (hfin : terminal.finishedAt = none)
    (harch : terminal.archivedAt = none)
    (hiss : ∀ ptyId, terminal.output.ptyId = some ptyId → ptyId ∈ issued) :
    Recorded issued (stampTerminal now terminal) where
  finished := by
    rw [stampTerminal_live h, hfin]
    constructor
    · intro habs
      exact absurd rfl habs
    · intro hended
      have hstatus : terminal.status.isLive = false := hended
      rw [h] at hstatus
      cases hstatus
  archived habs := absurd harch habs
  issued := hiss

theorem Recorded.settled (h : Recorded issued terminal) (hstatus : terminal.status ≠ .running)
    (hgone : ∀ ptyId, terminal.output.ptyId = some ptyId → ptyId ∉ live) :
    Upright live issued terminal where
  toRecorded := h
  running habs := absurd habs hstatus
  owned ptyId hpty hlive := absurd hlive (hgone ptyId hpty)

theorem Recorded.of_live (h : Recorded issued terminal) (hstatus : terminal.status.isLive = true) :
    terminal.finishedAt = none ∧ terminal.archivedAt = none := by
  constructor
  · by_contra hfin
    rw [h.finished.mp hfin] at hstatus
    cases hstatus
  · by_contra harch
    rw [h.archived harch] at hstatus
    cases hstatus

section

variable (h : Upright live issued terminal)
include h

theorem Upright.gone (hstatus : terminal.status ≠ .running) :
    ∀ ptyId, terminal.output.ptyId = some ptyId → ptyId ∉ live :=
  fun ptyId hpty hlive => hstatus (h.owned ptyId hpty hlive)

theorem Upright.withProcess (hfresh : ptyId ∉ issued) :
    Upright (ptyId :: live) (ptyId :: issued) terminal where
  finished := h.finished
  archived := h.archived
  issued other hother := mem_cons_of_mem _ (h.issued other hother)
  running hrunn := by
    obtain ⟨other, hother, hlive⟩ := h.running hrunn
    exact ⟨other, hother, mem_cons_of_mem _ hlive⟩
  owned other hother hlive := by
    rcases mem_cons.mp hlive with rfl | hlive
    · exact absurd (h.issued _ hother) hfresh
    · exact h.owned other hother hlive

theorem Upright.withoutProcess (hother : terminal.output.ptyId ≠ some ptyId) :
    Upright (live.filter (· != ptyId)) issued terminal where
  __ := h
  running hrunn := by
    obtain ⟨found, hfound, hlive⟩ := h.running hrunn
    refine ⟨found, hfound, mem_filter.mpr ⟨hlive, ?_⟩⟩
    simp only [bne_iff_ne, ne_eq]
    rintro rfl
    exact hother hfound
  owned found hfound hlive := h.owned found hfound (mem_filter.mp hlive).1

end

end Records

/-! ## The invariant -/

/-- The records agree with the processes, except the one that is being dealt
with, and no two of them name the same PTY. -/
structure Tidy (except : Option String) (host : Host) : Prop where
  sound : Sound host.catalog
  housed : ∀ id terminal, host.catalog.terminal? id = some terminal →
    ∃ session, host.catalog.session? terminal.sessionId = some session
  issued : host.live ⊆ host.issued
  records : ∀ id terminal, host.catalog.terminal? id = some terminal → except ≠ some id →
    Upright host.live host.issued terminal
  distinct : ∀ id id' terminal terminal' ptyId, host.catalog.terminal? id = some terminal →
    host.catalog.terminal? id' = some terminal' → terminal.output.ptyId = some ptyId →
      terminal'.output.ptyId = some ptyId → id = id'

section Invariant

variable {except : Option String} {host : Host} {id ptyId : String} {old : MuxTerminal}

theorem Tidy.coherent (h : Tidy none host) : Coherent host := by
  have hrecord : ∀ terminal ∈ host.catalog.terminals,
      Upright host.live host.issued terminal := fun terminal hmem =>
    h.records terminal.id terminal (h.sound.keyed.terminal?_of_mem hmem) nofun
  constructor
  · intro terminal hmem harch
    have hended := (hrecord terminal hmem).archived harch
    refine ⟨hended, (hrecord terminal hmem).gone ?_⟩
    intro hrunn
    rw [hrunn] at hended
    cases hended
  · exact fun terminal hmem => (hrecord terminal hmem).finished
  · exact fun terminal hmem => (hrecord terminal hmem).running

theorem Tidy.but (h : Tidy none host) (id : String) : Tidy (some id) host :=
  { h with records := fun j terminal hfound _ => h.records j terminal hfound nofun }

theorem Tidy.settle (h : Tidy (some id) host)
    (hsettl : ∀ terminal, host.catalog.terminal? id = some terminal →
      Upright host.live host.issued terminal) : Tidy none host := by
  refine { h with records := fun j terminal hfound _ => ?_ }
  by_cases hid : id = j
  · subst hid
    exact hsettl terminal hfound
  · exact h.records j terminal hfound fun heq => hid (Option.some.inj heq)

theorem Tidy.withProcess (h : Tidy none host) (hfresh : ptyId ∉ host.issued) :
    Tidy none (host.withProcess ptyId) where
  __ := h
  issued := cons_subset_cons _ h.issued
  records j terminal hfound hj := (h.records j terminal hfound hj).withProcess hfresh

theorem Tidy.withoutProcess (h : Tidy none host) (hfound : host.catalog.terminal? id = some old)
    (hpty : old.output.ptyId = some ptyId) : Tidy (some id) (host.withoutProcess ptyId) where
  __ := h
  issued _ hlive := h.issued (mem_filter.mp hlive).1
  records j terminal hterm hj := by
    refine (h.records j terminal hterm nofun).withoutProcess fun hother => hj ?_
    rw [h.distinct id j old terminal ptyId hfound hterm hpty hother]

/-- A record is written, after which it is settled. -/
theorem Tidy.put (h : Tidy except host) {catalog : PersistedState} {terminal : MuxTerminal}
    (hsound : Sound catalog) (hexcept : except = none ∨ except = some id)
    (hwrites : ∀ j, catalog.terminal? j =
      if j = id then some terminal else host.catalog.terminal? j)
    (hkept : ∀ j session, host.catalog.session? j = some session →
      ∃ session', catalog.session? j = some session')
    (hhoused : ∃ session, host.catalog.session? terminal.sessionId = some session)
    (hsettl : Upright host.live host.issued terminal)
    (hapart : ∀ j other ptyId, j ≠ id → host.catalog.terminal? j = some other →
      terminal.output.ptyId = some ptyId → other.output.ptyId ≠ some ptyId) :
    Tidy none { host with catalog } := by
  have hcases : ∀ j found, catalog.terminal? j = some found →
      (j = id ∧ found = terminal) ∨ (j ≠ id ∧ host.catalog.terminal? j = some found) := by
    intro j found hfound
    rw [hwrites] at hfound
    split at hfound
    · exact .inl ⟨‹_›, (Option.some.inj hfound).symm⟩
    · exact .inr ⟨‹_›, hfound⟩
  refine ⟨hsound, ?_, h.issued, ?_, ?_⟩
  · intro j found hfound
    rcases hcases j found hfound with ⟨-, rfl⟩ | ⟨-, hbef⟩
    · obtain ⟨session, hsess⟩ := hhoused
      exact hkept _ session hsess
    · obtain ⟨session, hsess⟩ := h.housed j found hbef
      exact hkept _ session hsess
  · intro j found hfound _
    rcases hcases j found hfound with ⟨-, rfl⟩ | ⟨hj, hbef⟩
    · exact hsettl
    refine h.records j found hbef fun heq => ?_
    rcases hexcept with hnone | hsome
    · rw [hnone] at heq
      cases heq
    · rw [hsome] at heq
      exact hj (Option.some.inj heq).symm
  · intro j j' found found' ptyId hfound hfound' hpty hpty'
    rcases hcases j found hfound with ⟨rfl, rfl⟩ | ⟨hj, hbef⟩
    · rcases hcases j' found' hfound' with ⟨rfl, -⟩ | ⟨hj', hbef'⟩
      · rfl
      · exact absurd hpty' (hapart j' found' ptyId hj' hbef' hpty)
    · rcases hcases j' found' hfound' with ⟨rfl, rfl⟩ | ⟨hj', hbef'⟩
      · exact absurd hpty (hapart j found ptyId hj hbef hpty')
      · exact h.distinct j j' found found' ptyId hbef hbef' hpty hpty'

theorem Tidy.update (h : Tidy except host) (hexcept : except = none ∨ except = some id)
    (hfound : host.catalog.terminal? id = some old) (edit : TerminalEdit) {now uuid : String}
    (hsettl : Upright host.live host.issued (stampTerminal now (edit.apply uuid old)))
    (hapart : ∀ j other ptyId, j ≠ id → host.catalog.terminal? j = some other →
      (edit.apply uuid old).output.ptyId = some ptyId → other.output.ptyId ≠ some ptyId) :
    Tidy none { host with
      catalog := host.catalog.putTerminal (stampTerminal now (edit.apply uuid old)) } := by
  have hid := PersistedState.terminal?_id hfound
  have hnew : (stampTerminal now (edit.apply uuid old)).id = id := by simp [hid]
  have hsess : (stampTerminal now (edit.apply uuid old)).sessionId = old.sessionId := by
    rw [edit.only]
    rfl
  refine h.put ?_ hexcept ?_ (fun _ session hsess => ⟨session, hsess⟩) ?_ hsettl hapart
  · refine h.sound.putTerminal_same (o := old) (by rw [hnew, hfound]) ?_
    rw [edit.only]
    rfl
  · intro j
    rw [PersistedState.terminal?_putTerminal, hnew]
    split
    · rename_i hj
      rw [hj, hfound]
      rfl
    · rfl
  · rw [hsess]
    exact h.housed id old hfound

theorem Tidy.apart (h : Tidy except host) (hfound : host.catalog.terminal? id = some old)
    {terminal : MuxTerminal} (hsame : terminal.output.ptyId = old.output.ptyId) :
    ∀ j other ptyId, j ≠ id → host.catalog.terminal? j = some other →
      terminal.output.ptyId = some ptyId → other.output.ptyId ≠ some ptyId :=
  fun j other ptyId hj hother hpty hsome =>
    hj (h.distinct j id other old ptyId hother hfound hsome (hsame ▸ hpty))

end Invariant

/-! ## Calls -/

section Calls

variable {host : Host} {β : Type} {post : Except RuntimeError β → Host → Prop}

variable {f : Unit → HostM β}

theorem ensures_emit {event : MuxEvent} (h : HostEnsures (f ()) host post) :
    HostEnsures (emit event >>= f) host post := by
  refine Program.ensures_call fun answer next hserved => ?_
  obtain ⟨answers, -, hanswer⟩ := hserved
  cases hanswer
  exact h

theorem ensures_emitAll {events : List MuxEvent}
    (h : HostEnsures (f ()) host post) : HostEnsures (emitAll events >>= f) host post := by
  induction events with
  | nil => exact h
  | cons event rest ih =>
    refine Program.ensures_call fun answer next hserved => ?_
    obtain ⟨answers, -, hanswer⟩ := hserved
    cases hanswer
    exact ih

theorem ensures_getSession {id : String} {f : Option AppSession → HostM β}
    (h : ∀ found, HostEnsures (f found) host post) :
    HostEnsures (read (.getSession id) >>= f) host post := by
  refine Program.ensures_call fun answer next hserved => ?_
  obtain ⟨answers, -, hanswer⟩ := hserved
  cases hanswer
  exact h _

theorem ensures_readTab {id : Option String} {f : Option SessionTab → HostM β}
    (h : ∀ found, HostEnsures (f found) host post) : HostEnsures (readTab id >>= f) host post := by
  cases id with
  | none => exact h none
  | some id =>
    refine Program.ensures_call fun answer next hserved => ?_
    obtain ⟨answers, -, hanswer⟩ := hserved
    cases hanswer
    exact h _

theorem ensures_knownTerminal {id : String} {f : MuxTerminal → HostM β}
    (hfound : ∀ terminal, host.catalog.terminal? id = some terminal →
      HostEnsures (f terminal) host post)
    (hnone : ∀ error, post (.error error) host) :
    HostEnsures (knownTerminal id >>= f) host post := by
  refine Program.ensures_call fun answer next hserved => ?_
  obtain ⟨answers, -, hanswer⟩ := hserved
  cases hanswer
  cases hterm : host.catalog.terminal? id with
  | none => exact Program.ensures_done (hnone _)
  | some terminal => exact hfound terminal hterm

theorem ensures_checkRevision {terminal : MuxTerminal} {revision : Nat}
    (hsame : terminal.revision = revision → HostEnsures (f ()) host post)
    (hother : ∀ error, post (.error error) host) :
    HostEnsures (checkRevision terminal revision >>= f) host post := by
  unfold checkRevision
  split
  · exact hsame ‹_›
  · exact Program.ensures_done (hother _)

theorem ensures_update {id : String} {revision : Option Nat} {edit : TerminalEdit}
    {f : MuxTerminal → HostM β}
    (hok : ∀ answers old terminal, Sure answers host (.store (.updateTerminal id revision edit)) →
      fenceHolds answers.env host.catalog id revision = true →
        host.catalog.terminal? id = some old →
          terminal = stampTerminal (answers.env.now 0) (edit.apply (answers.env.uuid 0) old) →
            HostEnsures (f terminal) { host with catalog := host.catalog.putTerminal terminal } post)
    (herror : ∀ answers error, Sure answers host (.store (.updateTerminal id revision edit)) →
      fenceHolds answers.env host.catalog id revision = false → post (.error error) host) :
    HostEnsures (write (.updateTerminal id revision edit) >>= f) host post := by
  refine Program.ensures_call fun answer next hserved => ?_
  obtain ⟨answers, hsure, hanswer⟩ := hserved
  simp only [Host.answer] at hanswer
  cases hfence : fenceHolds answers.env host.catalog id revision with
  | true =>
    obtain ⟨old, hold, hperf⟩ := updateTerminal_held edit hfence
    rw [hperf] at hanswer
    cases hanswer
    exact hok answers old _ hsure hfence hold rfl
  | false =>
    obtain ⟨error, hperf⟩ := updateTerminal_refused edit hfence
    rw [hperf] at hanswer
    cases hanswer
    exact Program.ensures_done (herror answers _ hsure hfence)

theorem ensures_create {args : List String}
    {k : Except TerminalError TerminalCreateResult → HostM β}
    (hok : ∀ pty : TerminalCreateResult, pty.id ∉ host.issued →
      HostEnsures (k (.ok pty)) (host.withProcess pty.id) post)
    (herror : ∀ error next, next = host ∨ (∃ ptyId, ptyId ∉ host.issued ∧
      next = host.withProcess ptyId) → HostEnsures (k (.error error)) next post) :
    HostEnsures (.call (.create args) k : HostM β) host post := by
  refine Program.ensures_call fun answer next hserved => ?_
  obtain ⟨answers, -, hanswer⟩ := hserved
  obtain ⟨⟨found, started, after⟩, hcreate, heq⟩ := map_eq_some_iff.mp hanswer
  cases heq
  cases hspawn : answers.spawn with
  | started pty =>
    rw [hspawn, Host.create] at hcreate
    split at hcreate
    · cases hcreate
    · cases hcreate
      exact hok pty ‹_›
  | refused error orphan =>
    cases orphan with
    | none =>
      rw [hspawn, Host.create] at hcreate
      cases hcreate
      exact herror error _ (.inl rfl)
    | some ptyId =>
      rw [hspawn, Host.create] at hcreate
      split at hcreate
      · cases hcreate
      · cases hcreate
        exact herror error _ (.inr ⟨ptyId, ‹_›, rfl⟩)

end Calls

end Yaade.Runtime

import Yaade.Runtime.Lifecycle

/-!
The interleaved host as a transition system.
-/

namespace Yaade.Runtime

open Yaade.Library Yaade.Store List Option PersistedState Function

/-! ## The host -/

/-- The update the listener makes after it has read the record of an exit. -/
structure ExitUpdate where
  terminalId : String
  revision : Nat
  ptyId : String
  exitCode : Int
  deriving DecidableEq

structure Host where
  catalog : PersistedState
  /-- PTYs of which the process runs -/
  live : List String
  /-- every PTY id handed out so far -/
  issued : List String
  /-- exits that the listener has not received -/
  exits : List (String × Int)
  /-- every PTY of which the exit was emitted -/
  exited : List String
  listener : Option ExitUpdate

namespace Host

def withProcess (host : Host) (ptyId : String) : Host :=
  { host with live := ptyId :: host.live, issued := ptyId :: host.issued }

def withoutProcess (host : Host) (ptyId : String) : Host :=
  { host with live := host.live.filter (· != ptyId) }

end Host

/-- How the terminal host answers a create. A failure late in it can leave the
process running. -/
inductive SpawnAnswer where
  | started (pty : TerminalCreateResult)
  | refused (error : TerminalError) (orphan : Option String)

/-- How the terminal host answers a dispose. One that is refused or times out
may still have ended the process. -/
inductive StopAnswer where
  | done
  | missing
  | refused (what : String) (killed : Bool)

/-- The answers of the surroundings to the next call of a request. -/
structure Answers where
  env : StoreEnv
  spawn : SpawnAnswer
  stop : StopAnswer

def Host.create (host : Host) :
    SpawnAnswer → Option (Except TerminalError TerminalCreateResult × List String × Host)
  | .started pty =>
    if pty.id ∈ host.issued then none else some (.ok pty, [pty.id], host.withProcess pty.id)
  | .refused error (some ptyId) =>
    if ptyId ∈ host.issued then none
    else some (.error error, [ptyId], host.withProcess ptyId)
  | .refused error none => some (.error error, [], host)

/-- The answer to a dispose, and the processes it ended. A process disposed of
has no exit event. -/
def Host.dispose (host : Host) (ptyId : String) :
    StopAnswer → Option (Except TerminalError Unit × List String × Host)
  | .done => some (.ok (), [ptyId], host.withoutProcess ptyId)
  | .missing =>
    if ptyId ∈ host.live then none else some (.error (.notFound ptyId), [], host)
  | .refused what true => some (.error (.runtime what), [ptyId], host.withoutProcess ptyId)
  | .refused what false => some (.error (.runtime what), [], host)

/-! ## Requests under way -/

/-- A request with what it did so far: the processes it started and ended. -/
structure Request where
  rest : Program HostEffect (Except RuntimeError MuxTerminal)
  phase : Phase
  spawned : List String
  disposed : List String

def LifecycleCall.request (call : LifecycleCall) : Request :=
  { rest := call.program, phase := .opening, spawned := [], disposed := [] }

def Request.advance (answers : Answers) (host : Host) (request : Request) :
    Option (Request × Host) :=
  match request.rest with
  | .done _ => none
  | .call (.store call) k =>
    let (answer, catalog) := call.perform answers.env host.catalog
    some ({ request with rest := k answer, phase := request.phase.afterStore call answer },
      { host with catalog })
  | .call (.emit _) k => some ({ request with rest := k () }, host)
  | .call (.create _) k =>
    match host.create answers.spawn with
    | none => none
    | some (answer, started, host) =>
      some ({ request with
        rest := k answer, phase := request.phase.afterCreate answer,
        spawned := started ++ request.spawned }, host)
  | .call (.dispose ptyId) k =>
    match host.dispose ptyId answers.stop with
    | none => none
    | some (answer, ended, host) =>
      some ({ request with
        rest := k answer, phase := request.phase.afterDispose answer,
        disposed := ended ++ request.disposed }, host)

def Request.Writes (request : Request) (id : String) (revision : Option Nat)
    (edit : TerminalEdit) : Prop :=
  ∃ k, request.rest = .call (.store (.updateTerminal id revision edit)) k

def Request.isDone (request : Request) : Bool :=
  match request.rest with
  | .done _ => true
  | .call _ _ => false

theorem Request.isDone_iff {request : Request} :
    request.isDone = true ↔ ∃ outcome, request.rest = .done outcome := by
  unfold Request.isDone
  cases request.rest with
  | done outcome => simp
  | call e k => simp

def Request.Creates (request : Request) : Prop :=
  ∃ args k, request.rest = .call (.create args) k

def Request.Disposes (request : Request) : Prop :=
  ∃ ptyId k, request.rest = .call (.dispose ptyId) k

def Request.Failed (request : Request) : Prop := ∃ error, request.rest = .done (.error error)

/-- What the next call of a request does to the host and to the request. -/
inductive Move (answers : Answers) (host : Host) (r r' : Request) : Host → Prop where
  | announce (event : MuxEvent) (k : Unit → Program HostEffect (Except RuntimeError MuxTerminal))
      (hrest : r.rest = .call (.emit event) k) (hnext : r'.rest = k ())
      (hphase : r'.phase = r.phase)
      (hspawned : r'.spawned = r.spawned) (hdisp : r'.disposed = r.disposed) :
      Move answers host r r' host
  | look (catalog : PersistedState) (hquiet : Quiet host.catalog catalog)
      (hsound : Sound catalog) (hreads : r.phase.Reads) (hphase : r'.phase = r.phase)
      (hspawned : r'.spawned = r.spawned) (hdisp : r'.disposed = r.disposed) :
      Move answers host r r' { host with catalog }
  | choose (catalog : PersistedState) (terminal : MuxTerminal)
      (hquiet : Quiet host.catalog catalog) (hsound : Sound catalog)
      (hopening : r.phase = .opening) (hphase : r'.phase = .chosen terminal)
      (hfound : terminal.output.ptyId ≠ none →
        host.catalog.terminal? terminal.id = some terminal)
      (hspawned : r'.spawned = r.spawned) (hdisp : r'.disposed = r.disposed) :
      Move answers host r r' { host with catalog }
  | giveUp (catalog : PersistedState) (hquiet : Quiet host.catalog catalog)
      (hsound : Sound catalog) (hopening : r.phase = .opening)
      (hphase : r'.phase = .settled false)
      (hspawned : r'.spawned = r.spawned) (hdisp : r'.disposed = r.disposed) :
      Move answers host r r' { host with catalog }
  | stop (terminal : MuxTerminal) (ptyId : String) (hchosen : r.phase = .chosen terminal)
      (hpty : terminal.output.ptyId = some ptyId) (hanswer : answers.stop = .done)
      (hphase : r'.phase = .stopped terminal)
      (hspawned : r'.spawned = r.spawned) (hdisp : r'.disposed = ptyId :: r.disposed) :
      Move answers host r r' (host.withoutProcess ptyId)
  | stopMissing (terminal : MuxTerminal) (hchosen : r.phase = .chosen terminal)
      (hphase : r'.phase = .stopped terminal)
      (hspawned : r'.spawned = r.spawned) (hdisp : r'.disposed = r.disposed) :
      Move answers host r r' host
  | stopRefused (terminal : MuxTerminal) (ptyId what : String) (killed : Bool)
      (hdisposes : r.Disposes) (hchosen : r.phase = .chosen terminal) (hpty : terminal.output.ptyId = some ptyId)
      (hanswer : answers.stop = .refused what killed)
      (hphase : r'.phase = .settled false) (hspawned : r'.spawned = r.spawned)
      (hdisp : r'.disposed = if killed then ptyId :: r.disposed else r.disposed) :
      Move answers host r r' (if killed then host.withoutProcess ptyId else host)
  | started (terminalId : String) (pty : TerminalCreateResult)
      (hlaunching : r.phase = .launching terminalId) (hfresh : pty.id ∉ host.issued)
      (hphase : r'.phase = .holding terminalId pty.id)
      (hspawned : r'.spawned = pty.id :: r.spawned) (hdisp : r'.disposed = r.disposed) :
      Move answers host r r' (host.withProcess pty.id)
  | startRefused (terminalId : String) (error : TerminalError)
      (hlaunching : r.phase = .launching terminalId) (hanswer : answers.spawn = .refused error none)
      (hphase : r'.phase = r.phase)
      (hspawned : r'.spawned = r.spawned) (hdisp : r'.disposed = r.disposed) :
      Move answers host r r' host
  | startOrphaned (terminalId ptyId : String) (error : TerminalError) (hcreates : r.Creates)
      (hlaunching : r.phase = .launching terminalId)
      (hanswer : answers.spawn = .refused error (some ptyId)) (hfresh : ptyId ∉ host.issued)
      (hphase : r'.phase = r.phase)
      (hspawned : r'.spawned = ptyId :: r.spawned) (hdisp : r'.disposed = r.disposed) :
      Move answers host r r' (host.withProcess ptyId)
  | update (id : String) (revision : Option Nat) (edit : TerminalEdit)
      (old terminal : MuxTerminal) (hwrites : r.Writes id revision edit)
      (hmay : r.phase.mayStore (.updateTerminal id revision edit))
      (hfence : fenceHolds answers.env host.catalog id revision = true)
      (hold : host.catalog.terminal? id = some old)
      (hterm : terminal = stampTerminal (answers.env.now 0)
        (edit.apply (answers.env.uuid 0) old))
      (hphase : r'.phase = r.phase.afterUpdate (.ok terminal))
      (hspawned : r'.spawned = r.spawned) (hdisp : r'.disposed = r.disposed) :
      Move answers host r r' { host with catalog := host.catalog.putTerminal terminal }
  | conflict (id : String) (revision : Option Nat) (edit : TerminalEdit)
      (hwrites : r.Writes id revision edit)
      (hmay : r.phase.mayStore (.updateTerminal id revision edit))
      (hfence : fenceHolds answers.env host.catalog id revision = false)
      (hphase : r'.phase = .settled false)
      (hspawned : r'.spawned = r.spawned) (hdisp : r'.disposed = r.disposed) :
      Move answers host r r' host

theorem perform_answers {α : Type} (env : StoreEnv) (state : PersistedState)
    (call : StoreCall α) : storeAnswers call (call.perform env state).1 := by
  cases call with
  | getTerminal id =>
    show storeAnswers (.getTerminal id) (state.terminal? id)
    cases hfound : state.terminal? id with
    | none => trivial
    | some terminal => exact terminal?_id hfound
  | updateTerminal id revision edit =>
    cases hfence : fenceHolds env state id revision with
    | true =>
      obtain ⟨old, hold, hperf⟩ := updateTerminal_held edit hfence
      rw [hperf]
      refine ⟨?_, env.uuid 0, old, rfl⟩
      rw [stampTerminal_id, TerminalEdit.apply_id, terminal?_id hold]
    | false =>
      obtain ⟨error, hperf⟩ := updateTerminal_refused edit hfence
      rw [hperf]
      trivial
  | _ => trivial

theorem Request.advance_follows {answers : Answers} {host host' : Host} {r r' : Request}
    (hfoll : FollowsLifecycle r.phase r.rest)
    (h : r.advance answers host = some (r', host')) : FollowsLifecycle r'.phase r'.rest := by
  obtain ⟨rest, phase, spawned, disposed⟩ := r
  cases rest with
  | done outcome => cases h
  | call e k =>
    cases e with
    | store call =>
      cases h
      exact hfoll.2 _ (perform_answers _ _ _)
    | emit event =>
      cases h
      exact hfoll.2 _ trivial
    | create | dispose =>
      simp only [Request.advance] at h
      split at h
      · cases h
      · cases h
        exact hfoll.2 _ trivial

/-- A store call other than the fenced update. -/
theorem Request.advance_store {answers : Answers} {host : Host} {r r' : Request} {α : Type}
    {call : StoreCall α} (hcall : call.edits = false) (hsound : Sound host.catalog)
    (hfresh : answers.env.Fresh host.catalog) (hmay : r.phase.mayStore call)
    (hphase : r'.phase = r.phase.afterStore call (call.perform answers.env host.catalog).1)
    (hspawned : r'.spawned = r.spawned) (hdisp : r'.disposed = r.disposed) :
    Move answers host r r' { host with
      catalog := (call.perform answers.env host.catalog).2 } := by
  have hquiet := StoreCall.perform_quiet hsound hfresh hcall
  have hnext := hsound.perform hfresh call
  cases call with
  | updateTerminal => cases hcall
  | getTerminal id =>
    have hopening : r.phase = .opening := hmay
    cases hfound : host.catalog.terminal? id with
    | none =>
      refine .giveUp _ hquiet hnext hopening ?_ hspawned hdisp
      rw [hphase]
      show r.phase.afterFound (host.catalog.terminal? id) = _
      rw [hfound]
      rfl
    | some terminal =>
      refine .choose _ terminal hquiet hnext hopening ?_ ?_ hspawned hdisp
      · rw [hphase, hopening]
        show Phase.opening.afterFound (host.catalog.terminal? id) = _
        rw [hfound]
        rfl
      · intro _
        rw [terminal?_id hfound, hfound]
  | createTerminal sessionId tabId title input =>
    have hopening : r.phase = .opening := hmay
    cases hres : (StoreCall.createTerminal sessionId tabId title input).perform answers.env
        host.catalog with
    | mk outcome next =>
      rw [hres] at hphase hquiet hnext
      cases outcome with
      | error error => exact .giveUp _ hquiet hnext hopening hphase hspawned hdisp
      | ok terminal =>
        refine .choose _ terminal hquiet hnext hopening hphase ?_ hspawned hdisp
        intro hpty
        obtain ⟨_, _, -, -, hterm, -⟩ := createTerminal_ok (mutate_ok.mp hres).1
        refine absurd ?_ hpty
        rw [hterm]
        rfl
  | _ => exact .look _ hquiet hnext hmay hphase hspawned hdisp

theorem Request.advance_update {answers : Answers} {host : Host} {r r' : Request} {id : String}
    {revision : Option Nat} {edit : TerminalEdit} (hwrites : r.Writes id revision edit)
    (hmay : r.phase.mayStore (.updateTerminal id revision edit))
    (hphase : r'.phase = r.phase.afterUpdate
      ((StoreCall.updateTerminal id revision edit).perform answers.env host.catalog).1)
    (hspawned : r'.spawned = r.spawned) (hdisp : r'.disposed = r.disposed) :
    Move answers host r r' { host with
      catalog := ((StoreCall.updateTerminal id revision edit).perform answers.env
        host.catalog).2 } := by
  cases hfence : fenceHolds answers.env host.catalog id revision with
  | true =>
    obtain ⟨old, hold, hperf⟩ := updateTerminal_held edit hfence
    rw [hperf] at hphase ⊢
    exact .update id revision edit old _ hwrites hmay hfence hold rfl hphase hspawned hdisp
  | false =>
    obtain ⟨error, hperf⟩ := updateTerminal_refused edit hfence
    rw [hperf] at hphase ⊢
    exact .conflict id revision edit hwrites hmay hfence hphase hspawned hdisp

/-- Every step of a request that follows the discipline is one of the moves. -/
theorem Request.advance_move {answers : Answers} {host host' : Host} {r r' : Request}
    (hsound : Sound host.catalog) (hfresh : answers.env.Fresh host.catalog)
    (hfoll : FollowsLifecycle r.phase r.rest)
    (h : r.advance answers host = some (r', host')) : Move answers host r r' host' := by
  obtain ⟨rest, phase, spawned, disposed⟩ := r
  cases rest with
  | done outcome => cases h
  | call e k =>
    have hmay := hfoll.1
    cases e with
    | emit event =>
      cases h
      exact .announce event k rfl rfl rfl rfl rfl
    | create args =>
      obtain ⟨terminalId, hlaunching⟩ := hmay
      simp only at hlaunching
      subst hlaunching
      rcases hspawn : answers.spawn with pty | ⟨error, _ | orphan⟩
      · simp only [Request.advance, hspawn, Host.create] at h
        split at h
        · cases h
        rename_i _ _ _ _ heq
        obtain ⟨hiss, heq⟩ := ite_none_left_eq_some.mp heq
        cases heq
        cases h
        exact .started terminalId pty rfl hiss rfl rfl rfl
      · simp only [Request.advance, hspawn, Host.create] at h
        cases h
        exact .startRefused terminalId error rfl hspawn rfl rfl rfl
      · simp only [Request.advance, hspawn, Host.create] at h
        split at h
        · cases h
        rename_i _ _ _ _ heq
        obtain ⟨hiss, heq⟩ := ite_none_left_eq_some.mp heq
        cases heq
        cases h
        exact .startOrphaned terminalId orphan error ⟨args, k, rfl⟩ rfl hspawn hiss rfl rfl rfl
    | dispose ptyId =>
      obtain ⟨terminal, hchosen, hpty⟩ := hmay
      simp only at hchosen
      subst hchosen
      rcases hstop : answers.stop with _ | _ | ⟨what, killed⟩
      · simp only [Request.advance, hstop, Host.dispose] at h
        cases h
        exact .stop terminal ptyId rfl hpty hstop rfl rfl rfl
      · simp only [Request.advance, hstop, Host.dispose] at h
        split at h
        · cases h
        rename_i _ _ _ _ heq
        obtain ⟨-, heq⟩ := ite_none_left_eq_some.mp heq
        cases heq
        cases h
        exact .stopMissing terminal rfl rfl rfl rfl
      · cases killed with
        | true =>
          simp only [Request.advance, hstop, Host.dispose] at h
          cases h
          exact .stopRefused terminal ptyId what true ⟨ptyId, k, rfl⟩ rfl hpty hstop rfl rfl rfl
        | false =>
          simp only [Request.advance, hstop, Host.dispose] at h
          cases h
          exact .stopRefused terminal ptyId what false ⟨ptyId, k, rfl⟩ rfl hpty hstop rfl rfl rfl
    | store call =>
      cases hcall : call.edits with
      | false =>
        cases h
        exact Request.advance_store hcall hsound hfresh hmay rfl rfl rfl
      | true =>
        cases call with
        | updateTerminal id revision edit =>
          cases h
          have hstore : phase.mayStore (.updateTerminal id revision edit) := hmay
          exact Request.advance_update (r := ⟨_, phase, spawned, disposed⟩) ⟨k, rfl⟩
            hstore rfl rfl rfl
        | _ => cases hcall

/-! ## The system -/

structure LifecycleState extends Host where
  requests : Nat → Option Request

inductive LifecycleAction where
  | start (index : Nat) (call : LifecycleCall)
  | advance (index : Nat) (answers : Answers)
  | reply (index : Nat)
  | mutate (env : StoreEnv) {α : Type} (call : StoreCall α)
  | spawn (ptyId : String)
  | dispose (ptyId : String)
  | exit (ptyId : String) (exitCode : Int)
  | receive
  | record (env : StoreEnv)

namespace LifecycleState

def setRequest (state : LifecycleState) (index : Nat) (request : Option Request) :
    LifecycleState :=
  { state with requests := Function.update state.requests index request }

def receive (state : LifecycleState) : Option LifecycleState :=
  match state.listener, state.exits with
  | none, (ptyId, exitCode) :: exits =>
    some { state with
      exits
      listener := (terminalForPty state.catalog ptyId).map fun terminal =>
        ⟨terminal.id, terminal.revision, ptyId, exitCode⟩ }
  | _, _ => none

def record (state : LifecycleState) (env : StoreEnv) : Option LifecycleState :=
  match state.listener with
  | some update =>
    some { state with
      catalog := ((StoreCall.updateTerminal update.terminalId (some update.revision)
        (exitedEdit update.exitCode)).perform env state.catalog).2
      listener := none }
  | none => none

def step (state : LifecycleState) : LifecycleAction → Option LifecycleState
  | .start index call =>
    match state.requests index with
    | none => some (state.setRequest index (some call.request))
    | some _ => none
  | .advance index answers =>
    match state.requests index with
    | none => none
    | some request =>
      (request.advance answers state.toHost).map fun (request, host) =>
        { toHost := host, requests := Function.update state.requests index (some request) }
  | .reply index =>
    match state.requests index with
    | some { rest := .done _, .. } => some (state.setRequest index none)
    | _ => none
  | .mutate env call =>
    if call.edits then none
    else some { state with catalog := (call.perform env state.catalog).2 }
  | .spawn ptyId =>
    if ptyId ∈ state.issued then none
    else some { state with toHost := state.toHost.withProcess ptyId }
  | .dispose ptyId => some { state with toHost := state.toHost.withoutProcess ptyId }
  | .exit ptyId exitCode =>
    if ptyId ∈ state.live then
      some { state with
        live := state.live.filter (· != ptyId)
        exits := state.exits ++ [(ptyId, exitCode)]
        exited := ptyId :: state.exited }
    else none
  | .receive => state.receive
  | .record env => state.record env

/-- What a step did, and what let it. -/
inductive Stepped (state : LifecycleState) : LifecycleAction → LifecycleState → Prop
  | start (index : Nat) (call : LifecycleCall) (hfree : state.requests index = none) :
    Stepped state (.start index call) (state.setRequest index (some call.request))
  | advance (index : Nat) (answers : Answers) {request r' : Request} {host : Host}
    (hreq : state.requests index = some request)
    (hadvance : request.advance answers state.toHost = some (r', host)) :
    Stepped state (.advance index answers) ⟨host, Function.update state.requests index (some r')⟩
  | reply (index : Nat) {outcome phase spawned disposed}
    (hdone : state.requests index = some ⟨.done outcome, phase, spawned, disposed⟩) :
    Stepped state (.reply index) (state.setRequest index none)
  | mutate (env : StoreEnv) {α : Type} (call : StoreCall α) (hcall : ¬call.edits) :
    Stepped state (.mutate env call)
      { state with catalog := (call.perform env state.catalog).2 }
  | spawn (ptyId : String) (hunused : ptyId ∉ state.issued) :
    Stepped state (.spawn ptyId) { state with toHost := state.toHost.withProcess ptyId }
  | dispose (ptyId : String) :
    Stepped state (.dispose ptyId) { state with toHost := state.toHost.withoutProcess ptyId }
  | exit (ptyId : String) (exitCode : Int) :
    Stepped state (.exit ptyId exitCode) { state with
      live := state.live.filter (· != ptyId)
      exits := state.exits ++ [(ptyId, exitCode)]
      exited := ptyId :: state.exited }
  | receive {ptyId exitCode exits} (hlistener : state.listener = none)
    (hexits : state.exits = (ptyId, exitCode) :: exits) :
    Stepped state .receive { state with
      exits
      listener := (terminalForPty state.catalog ptyId).map fun terminal =>
        ⟨terminal.id, terminal.revision, ptyId, exitCode⟩ }
  | record (env : StoreEnv) {update} (hupdate : state.listener = some update) :
    Stepped state (.record env) { state with
      catalog := ((StoreCall.updateTerminal update.terminalId (some update.revision)
        (exitedEdit update.exitCode)).perform env state.catalog).2
      listener := none }

theorem step_stepped {state next : LifecycleState} {action : LifecycleAction}
    (h : state.step action = some next) : Stepped state action next := by
  cases action with
  | advance index answers =>
    simp only [step] at h
    split at h
    · cases h
    rename_i request hreq
    obtain ⟨⟨r', host⟩, hadvance, rfl⟩ := map_eq_some_iff.mp h
    exact .advance _ _ hreq hadvance
  | dispose ptyId =>
    cases h
    exact .dispose ptyId
  | _ =>
    simp only [step, receive, record] at h
    split at h <;> cases h
    constructor <;> assumption

end LifecycleState

/-- A host that has just come up: no process runs and no request is under way.
The catalog may name PTYs of an earlier run, each in one record. -/
structure Booted (state : LifecycleState) : Prop where
  sound : Sound state.catalog
  distinct : ∀ id id' terminal terminal' ptyId, state.catalog.terminal? id = some terminal →
    state.catalog.terminal? id' = some terminal' → terminal.output.ptyId = some ptyId →
      terminal'.output.ptyId = some ptyId → id = id'
  issued : ∀ id terminal ptyId, state.catalog.terminal? id = some terminal →
    terminal.output.ptyId = some ptyId → ptyId ∈ state.issued
  idle : state.live = [] ∧ state.exits = [] ∧ state.exited = [] ∧ state.listener = none ∧
    ∀ index, state.requests index = none

def lifecycleSystem : System LifecycleState LifecycleAction where
  initial := Booted
  step := LifecycleState.step

def LifecycleAction.Fresh (state : LifecycleState) : LifecycleAction → Prop
  | .advance _ answers => answers.env.Fresh state.catalog
  | .mutate env _ => env.Fresh state.catalog
  | .record env => env.Fresh state.catalog
  | _ => True

/-! ## Whose process is whose -/

section Tracking

variable {owner owner' : String → Option String}

def Named (owner : String → Option String) (catalog : PersistedState) : Prop :=
  ∀ id terminal ptyId, catalog.terminal? id = some terminal →
    terminal.output.ptyId = some ptyId → owner ptyId = some id

theorem Named.quiet {before after : PersistedState} (h : Named owner before)
    (hquiet : Quiet before after) : Named owner after := by
  intro id terminal ptyId hterm hpty
  have hid := terminal?_id hterm
  rcases hquiet id terminal hterm with hnone | ⟨old, hold, hsame, -⟩
  · rw [hnone] at hpty
    cases hpty
  · rw [← hid]
    exact h _ old ptyId hold (hsame ▸ hpty)

theorem Named.putTerminal {catalog : PersistedState} (h : Named owner catalog)
    {terminal : MuxTerminal}
    (hpty : ∀ ptyId, terminal.output.ptyId = some ptyId → owner ptyId = some terminal.id) :
    Named owner (catalog.putTerminal terminal) := by
  intro id found ptyId hfound hnames
  rw [terminal?_putTerminal] at hfound
  split at hfound
  · rename_i hid
    obtain ⟨_, -, rfl⟩ := map_eq_some_iff.mp hfound
    rw [hid]
    exact hpty ptyId hnames
  · exact h id found ptyId hfound hnames

/-- What is known of the PTYs a request deals with. -/
structure Request.Tracked (owner : String → Option String) (issued : List String)
    (request : Request) : Prop where
  follows : FollowsLifecycle request.phase request.rest
  chosen : ∀ terminal ptyId, request.phase = .chosen terminal ∨ request.phase = .stopped terminal →
    terminal.output.ptyId = some ptyId → owner ptyId = some terminal.id
  held : ∀ id ptyId, request.phase = .holding id ptyId → owner ptyId = none ∧ ptyId ∈ issued

/-- Each PTY belongs to one record, and one not stored yet to one request. -/
structure Tracked (owner : String → Option String) (state : LifecycleState) : Prop where
  sound : Sound state.catalog
  named : Named owner state.catalog
  issued : ∀ ptyId id, owner ptyId = some id → ptyId ∈ state.issued
  requests : ∀ index request, state.requests index = some request →
    request.Tracked owner state.issued
  apart : ∀ index index' request request' id id' ptyId, state.requests index = some request →
    state.requests index' = some request' → request.phase = .holding id ptyId →
      request'.phase = .holding id' ptyId → index = index'
  listening : ∀ update, state.listener = some update →
    owner update.ptyId = some update.terminalId

theorem update_output {phase : Phase} {id : String} {revision : Option Nat}
    {edit : TerminalEdit} (uuid : String) (old : MuxTerminal)
    (h : phase.mayStore (.updateTerminal id revision edit)) : (edit.apply uuid old).output.ptyId = old.output.ptyId ∨
      ∃ ptyId, phase = .holding id ptyId ∧ (edit.apply uuid old).output.ptyId = some ptyId := by
  cases phase with
  | opening | settled => exact h.elim
  | chosen terminal | stopped terminal =>
    obtain ⟨-, rfl | rfl | rfl⟩ := h <;> exact .inl rfl
  | launching terminalId =>
    obtain ⟨-, error, rfl⟩ := h
    exact .inl rfl
  | holding terminalId ptyId =>
    obtain ⟨rfl, pty, generations, rfl, rfl⟩ := h
    exact .inr ⟨pty.id, rfl, rfl⟩

theorem Phase.afterUpdate_not_holding (phase : Phase) (outcome : Except StoreError MuxTerminal)
    (id ptyId : String) : phase.afterUpdate outcome ≠ .holding id ptyId := by
  cases outcome with
  | error error => exact Phase.noConfusion
  | ok terminal =>
    cases phase <;> simp only [Phase.afterUpdate] <;> (try split) <;> exact Phase.noConfusion

theorem Phase.afterUpdate_not_chosen (phase : Phase) (outcome : Except StoreError MuxTerminal)
    (terminal : MuxTerminal) : ¬ (phase.afterUpdate outcome = .chosen terminal ∨
      phase.afterUpdate outcome = .stopped terminal) := by
  cases outcome with
  | error error => simp [Phase.afterUpdate]
  | ok found =>
    cases phase <;> simp only [Phase.afterUpdate] <;> (try split) <;> simp

theorem Request.Tracked.mono {issued issued' : List String} {request : Request}
    (h : request.Tracked owner issued) (hiss : issued ⊆ issued')
    (hext : ∀ ptyId id, owner ptyId = some id → owner' ptyId = some id)
    (hheld : ∀ id ptyId, request.phase = .holding id ptyId → owner' ptyId = none) :
    request.Tracked owner' issued' :=
  ⟨h.follows, fun terminal ptyId hphase hpty => hext _ _ (h.chosen terminal ptyId hphase hpty),
    fun id ptyId hphase => ⟨hheld id ptyId hphase, hiss (h.held id ptyId hphase).2⟩⟩

variable {state : LifecycleState} {host : Host} {index : Nat} {request : Request}

section

variable (h : Tracked owner state)
include h

theorem Tracked.replace (hsound : Sound host.catalog) (hnamed : Named owner' host.catalog)
    (hext : ∀ ptyId id, owner ptyId = some id → owner' ptyId = some id)
    (hiss : ∀ ptyId id, owner' ptyId = some id → ptyId ∈ host.issued)
    (hgrow : state.issued ⊆ host.issued) (hlistener : host.listener = state.listener)
    (hreq : request.Tracked owner' host.issued)
    (hothers : ∀ other r id ptyId, other ≠ index → state.requests other = some r →
      r.phase = .holding id ptyId → owner' ptyId = none)
    (happart : ∀ other r id id' ptyId, other ≠ index → state.requests other = some r →
      r.phase = .holding id ptyId → request.phase ≠ .holding id' ptyId) :
    Tracked owner' ⟨host, Function.update state.requests index (some request)⟩ := by
  have hcases : ∀ i r, Function.update state.requests index (some request) i = some r →
      (i = index ∧ r = request) ∨ (i ≠ index ∧ state.requests i = some r) := by
    intro i r hr
    by_cases hi : i = index
    · subst hi
      rw [update_self, Option.some.injEq] at hr
      exact .inl ⟨rfl, hr.symm⟩
    · rw [update_of_ne hi] at hr
      exact .inr ⟨hi, hr⟩
  refine ⟨hsound, hnamed, hiss, ?_, ?_, ?_⟩
  · intro i r hr
    rcases hcases i r hr with ⟨-, rfl⟩ | ⟨hi, hold⟩
    · exact hreq
    · exact (h.requests i r hold).mono hgrow hext fun id ptyId hphase =>
        hothers i r id ptyId hi hold hphase
  · intro i j r r' id id' ptyId hr hr' hphase hphase'
    rcases hcases i r hr with ⟨rfl, rfl⟩ | ⟨hi, hold⟩
    · rcases hcases j r' hr' with ⟨rfl, -⟩ | ⟨hj, hold'⟩
      · rfl
      · exact absurd hphase (happart j r' id' id ptyId hj hold' hphase')
    · rcases hcases j r' hr' with ⟨rfl, rfl⟩ | ⟨hj, hold'⟩
      · exact absurd hphase' (happart i r id id' ptyId hi hold hphase)
      · exact h.apart i j r r' id id' ptyId hold hold' hphase hphase'
  · intro update hupdate
    exact hext _ _ (h.listening update (hlistener ▸ hupdate))

theorem Tracked.keep (hsound : Sound host.catalog)
    (hnamed : Named owner host.catalog) (hgrow : state.issued ⊆ host.issued)
    (hlistener : host.listener = state.listener) (hreq : request.Tracked owner host.issued)
    (happart : ∀ other r id id' ptyId, other ≠ index → state.requests other = some r →
      r.phase = .holding id ptyId → request.phase ≠ .holding id' ptyId) :
    Tracked owner ⟨host, Function.update state.requests index (some request)⟩ :=
  h.replace hsound hnamed (fun _ _ howner => howner)
    (fun ptyId id howner => hgrow (h.issued ptyId id howner)) hgrow hlistener hreq
    (fun other r id ptyId _ hr hphase => ((h.requests other r hr).held id ptyId hphase).1) happart

theorem Tracked.apart_from (hr : state.requests index = some request)
    {r : Request} (hsame : ∀ id ptyId, r.phase = .holding id ptyId →
      ∃ id', request.phase = .holding id' ptyId) :
    ∀ other r' id id' ptyId, other ≠ index → state.requests other = some r' →
      r'.phase = .holding id ptyId → r.phase ≠ .holding id' ptyId := by
  intro other r' id id' ptyId hother hr' hphase hholding
  obtain ⟨id'', hheld⟩ := hsame id' ptyId hholding
  exact hother (h.apart other index r' request id id'' ptyId hr' hr hphase hheld)

/-- One call of a request: the PTY it stores, if any, gets its record as owner. -/
theorem Tracked.advance (hr : state.requests index = some request)
    {answers : Answers} (hfresh : answers.env.Fresh state.catalog) {r' : Request}
    (hstep : request.advance answers state.toHost = some (r', host)) :
    ∃ owner' : String → Option String,
      Tracked owner' ⟨host, Function.update state.requests index (some r')⟩ ∧
        ∀ ptyId id, owner ptyId = some id → owner' ptyId = some id := by
  have hreq := h.requests index request hr
  have hfoll := Request.advance_follows hreq.follows hstep
  have hkept : ∀ id ptyId, r'.phase = request.phase → r'.phase = .holding id ptyId →
      ∃ id', request.phase = .holding id' ptyId :=
    fun id ptyId hphase hholding => ⟨id, hphase ▸ hholding⟩
  cases Request.advance_move h.sound hfresh hreq.follows hstep with
  | announce event k hrest hnext hphase | startRefused terminalId error hlaunching hanswer hphase =>
    refine ⟨owner, h.keep h.sound h.named (List.Subset.refl _) rfl ?_
      (h.apart_from hr fun id ptyId => hkept id ptyId hphase), fun _ _ howner => howner⟩
    exact ⟨hfoll, hphase ▸ hreq.chosen, hphase ▸ hreq.held⟩
  | look catalog hquiet hsound hreads hphase =>
    refine ⟨owner, h.keep hsound (h.named.quiet hquiet) (List.Subset.refl _) rfl ?_
      (h.apart_from hr fun id ptyId => hkept id ptyId hphase), fun _ _ howner => howner⟩
    exact ⟨hfoll, hphase ▸ hreq.chosen, hphase ▸ hreq.held⟩
  | choose catalog terminal hquiet hsound hopening hphase hfound =>
    refine ⟨owner, h.keep hsound (h.named.quiet hquiet) (List.Subset.refl _) rfl ?_
      (h.apart_from hr ?_), fun _ _ howner => howner⟩
    · refine ⟨hfoll, ?_, ?_⟩
      · intro chosen ptyId hchosen hpty
        have hsame : chosen = terminal := by simpa [hphase, eq_comm] using hchosen
        subst hsame
        exact h.named _ chosen ptyId (hfound (by simp [hpty])) hpty
      · intro id ptyId hholding
        simp [hphase] at hholding
    · intro id ptyId hholding
      simp [hphase] at hholding
  | giveUp catalog hquiet hsound hopening hphase =>
    refine ⟨owner, h.keep hsound (h.named.quiet hquiet) (List.Subset.refl _) rfl ?_
      (h.apart_from hr ?_), fun _ _ howner => howner⟩
    · exact ⟨hfoll, by simp [hphase], by simp [hphase]⟩
    · simp [hphase]
  | stop terminal ptyId hchosen hpty hanswer hphase | stopMissing terminal hchosen hphase =>
    refine ⟨owner, h.keep h.sound h.named (List.Subset.refl _) rfl ?_
      (h.apart_from hr ?_), fun _ _ howner => howner⟩
    · refine ⟨hfoll, ?_, by simp [hphase]⟩
      intro stopped ptyId' hstopped
      have hsame : stopped = terminal := by simpa [hphase, eq_comm] using hstopped
      subst hsame
      exact hreq.chosen stopped ptyId' (.inl hchosen)
    · simp [hphase]
  | stopRefused terminal ptyId what killed hdisposes hchosen hpty hanswer hphase =>
    have hr' : r'.Tracked owner state.issued := ⟨hfoll, by simp [hphase], by simp [hphase]⟩
    have happart := h.apart_from hr (r := r') (by simp [hphase])
    refine ⟨owner, ?_, fun _ _ howner => howner⟩
    cases killed with
    | true | false => exact h.keep h.sound h.named (List.Subset.refl _) rfl hr' happart
  | started terminalId pty hlaunching hunused hphase =>
    have hnone : owner pty.id = none := by
      cases howner : owner pty.id with
      | none => rfl
      | some id => exact absurd (h.issued pty.id id howner) hunused
    refine ⟨owner, h.keep h.sound h.named (subset_cons_self _ _) rfl ?_ ?_,
      fun _ _ howner => howner⟩
    · refine ⟨hfoll, by simp [hphase], ?_⟩
      intro id ptyId hholding
      rw [hphase] at hholding
      cases hholding
      exact ⟨hnone, mem_cons_self⟩
    · intro other r id id' ptyId hother hold hheld hholding
      rw [hphase] at hholding
      cases hholding
      exact hunused ((h.requests other r hold).held id pty.id hheld).2
  | startOrphaned terminalId ptyId error hcreates hlaunching hanswer hunused hphase =>
    refine ⟨owner, h.keep h.sound h.named (subset_cons_self _ _) rfl ?_
      (h.apart_from hr fun id ptyId => hkept id ptyId hphase), fun _ _ howner => howner⟩
    refine ⟨hfoll, hphase ▸ hreq.chosen, ?_⟩
    intro id ptyId' hholding
    rw [hphase, hlaunching] at hholding
    cases hholding
  | update id revision edit old terminal hwrites hmay hfence hold hterm hphase =>
    have hid := terminal?_id hold
    have hsame : terminal.id = id := by
      rw [hterm, stampTerminal_id, TerminalEdit.apply_id, hid]
    have hsound : Sound (state.catalog.putTerminal terminal) := by
      have hnext := h.sound.perform hfresh (.updateTerminal id revision edit)
      obtain ⟨old', hold', hperf⟩ := updateTerminal_held edit hfence
      cases Option.some.inj (hold.symm.trans hold')
      rw [hperf, ← hterm] at hnext
      exact hnext
    have hplain : ∀ owner : String → Option String, r'.Tracked owner state.issued := by
      intro owner
      refine ⟨hfoll, ?_, ?_⟩
      · intro chosen ptyId hchosen
        rw [hphase] at hchosen
        exact absurd hchosen (Phase.afterUpdate_not_chosen _ _ _)
      · intro holder ptyId hholding
        rw [hphase] at hholding
        exact absurd hholding (Phase.afterUpdate_not_holding _ _ _ _)
    have happart : ∀ other r id id' ptyId, other ≠ index → state.requests other = some r →
        r.phase = .holding id ptyId → r'.phase ≠ .holding id' ptyId := by
      intro _ _ _ id' ptyId _ _ _
      rw [hphase]
      exact Phase.afterUpdate_not_holding _ _ _ _
    rcases update_output (answers.env.uuid 0) old hmay with
      hkeeps | ⟨ptyId, hholding, hnames⟩
    · refine ⟨owner, h.keep hsound ?_ (List.Subset.refl _) rfl (hplain owner) happart,
        fun _ _ howner => howner⟩
      refine h.named.putTerminal fun ptyId hpty => ?_
      rw [hsame]
      refine h.named id old ptyId hold ?_
      rw [← hkeeps, ← hpty, hterm]
      rfl
    · obtain ⟨hnone, hused⟩ := hreq.held id ptyId hholding
      have hext : ∀ p holder, owner p = some holder →
          Function.update owner ptyId (some id) p = some holder := by
        intro p holder howner
        have hne : p ≠ ptyId := by
          rintro rfl
          rw [hnone] at howner
          cases howner
        rw [update_of_ne hne, howner]
      refine ⟨Function.update owner ptyId (some id),
        h.replace hsound ?_ hext ?_ (List.Subset.refl _) rfl (hplain _) ?_ happart, hext⟩
      · have hnamed : Named (Function.update owner ptyId (some id)) state.catalog :=
          fun holder found p hfound hpty => hext p holder (h.named holder found p hfound hpty)
        refine hnamed.putTerminal fun p hp => ?_
        have hterminalPty : terminal.output.ptyId = some ptyId := by
          rw [hterm]
          exact hnames
        obtain rfl : p = ptyId := Option.some.inj (hp.symm.trans hterminalPty)
        rw [update_self, hsame]
      · intro p holder howner
        by_cases hp : p = ptyId
        · exact hp ▸ hused
        · rw [update_of_ne hp] at howner
          exact h.issued p holder howner
      · intro other r holder p hother hr' hheld
        have hne : p ≠ ptyId := by
          rintro rfl
          exact hother (h.apart other index r request holder id p hr' hr hheld hholding)
        rw [update_of_ne hne]
        exact ((h.requests other r hr').held holder p hheld).1
  | conflict id revision edit hwrites hmay hfence hphase =>
    refine ⟨owner, h.keep h.sound h.named (List.Subset.refl _) rfl ?_
      (h.apart_from hr ?_), fun _ _ howner => howner⟩
    · exact ⟨hfoll, by simp [hphase], by simp [hphase]⟩
    · simp [hphase]

theorem Tracked.rehost {requests : Nat → Option Request}
    (hsub : ∀ i r, requests i = some r → state.requests i = some r) (hsound : Sound host.catalog)
    (hnamed : Named owner host.catalog) (hgrow : state.issued ⊆ host.issued)
    (hlistening : ∀ update, host.listener = some update →
      owner update.ptyId = some update.terminalId) : Tracked owner ⟨host, requests⟩ := by
  refine ⟨hsound, hnamed, fun ptyId id howner => hgrow (h.issued ptyId id howner), ?_, ?_,
    hlistening⟩
  · intro i r hr
    have hold := h.requests i r (hsub i r hr)
    exact hold.mono hgrow (fun _ _ howner => howner)
      fun id ptyId hphase => (hold.held id ptyId hphase).1
  · intro i j r r' id id' ptyId hr hr'
    exact h.apart i j r r' id id' ptyId (hsub i r hr) (hsub j r' hr')

end

theorem record_catalog (env : StoreEnv) (catalog : PersistedState) (update : ExitUpdate) :
    (fenceHolds env catalog update.terminalId (some update.revision) = false ∧
      ((StoreCall.updateTerminal update.terminalId (some update.revision)
        (exitedEdit update.exitCode)).perform env catalog).2 = catalog) ∨
    ∃ old, catalog.terminal? update.terminalId = some old ∧
      ((StoreCall.updateTerminal update.terminalId (some update.revision)
        (exitedEdit update.exitCode)).perform env catalog).2 =
          catalog.putTerminal (stampTerminal (env.now 0)
            ((exitedEdit update.exitCode).apply (env.uuid 0) old)) := by
  cases hfence : fenceHolds env catalog update.terminalId (some update.revision) with
  | false =>
    obtain ⟨error, hperf⟩ := updateTerminal_refused (exitedEdit update.exitCode) hfence
    exact .inl ⟨rfl, by rw [hperf]⟩
  | true =>
    obtain ⟨old, hold, hperf⟩ := updateTerminal_held (exitedEdit update.exitCode) hfence
    exact .inr ⟨old, hold, by rw [hperf]⟩

/-- Every step keeps the ownership of PTYs, and may only add to it. -/
theorem Tracked.step (h : Tracked owner state) {action : LifecycleAction}
    (hfresh : action.Fresh state) {next : LifecycleState} (hstep : state.step action = some next) :
    ∃ owner' : String → Option String, Tracked owner' next ∧
      ∀ ptyId id, owner ptyId = some id → owner' ptyId = some id := by
  cases LifecycleState.step_stepped hstep with
  | start index call =>
    refine ⟨owner, h.keep h.sound h.named (List.Subset.refl _) rfl ?_ ?_, fun _ _ howner => howner⟩
    · exact ⟨call.follows, by simp [LifecycleCall.request], by simp [LifecycleCall.request]⟩
    · simp [LifecycleCall.request]
  | advance index answers hreq hadvance => exact h.advance hreq hfresh hadvance
  | reply index =>
    refine ⟨owner, h.rehost ?_ h.sound h.named (List.Subset.refl _) h.listening,
      fun _ _ howner => howner⟩
    intro i r hr
    by_cases hi : i = index
    · simp [hi] at hr
    · simpa [LifecycleState.setRequest, hi] using hr
  | mutate env call hcall =>
    exact ⟨owner, h.rehost (fun _ _ hr => hr) (h.sound.perform hfresh call)
      (h.named.quiet (StoreCall.perform_quiet h.sound hfresh (eq_false_of_ne_true hcall))) (List.Subset.refl _)
      h.listening, fun _ _ howner => howner⟩
  | spawn ptyId =>
    exact ⟨owner, h.rehost (fun _ _ hr => hr) h.sound h.named (subset_cons_self _ _)
      h.listening, fun _ _ howner => howner⟩
  | dispose | exit =>
    exact ⟨owner, h.rehost (fun _ _ hr => hr) h.sound h.named (List.Subset.refl _)
      h.listening, fun _ _ howner => howner⟩
  | receive =>
    refine ⟨owner, h.rehost (fun _ _ hr => hr) h.sound h.named (List.Subset.refl _) ?_,
      fun _ _ howner => howner⟩
    intro update hupdate
    obtain ⟨terminal, hfound, rfl⟩ := map_eq_some_iff.mp hupdate
    have hmem := mem_of_find?_eq_some hfound
    have hpty := find?_some hfound
    exact h.named _ terminal _ (h.sound.keyed.terminal?_of_mem hmem) (by simpa using hpty)
  | @record env update hupdate =>
    refine ⟨owner, h.rehost (fun _ _ hr => hr) (h.sound.perform hfresh _) ?_
      (List.Subset.refl _) (by simp), fun _ _ howner => howner⟩
    rcases record_catalog env state.catalog update with ⟨-, hsame⟩ | ⟨old, hold, hwrt⟩
    · simp only [hsame]
      exact h.named
    simp only [hwrt]
    refine h.named.putTerminal fun ptyId hpty => ?_
    rw [stampTerminal_id, TerminalEdit.apply_id, terminal?_id hold]
    exact h.named _ old ptyId hold hpty

theorem Tracked.booted (h : Booted state) : ∃ owner, Tracked owner state := by
  obtain ⟨-, -, -, hlistener, hrequests⟩ := h.idle
  refine ⟨fun ptyId => (terminalForPty state.catalog ptyId).map MuxTerminal.id, h.sound, ?_, ?_,
    ?_, ?_, ?_⟩
  · intro id terminal ptyId hterm hpty
    have hmem := (row?_mem MuxTerminal.id hterm).1
    cases hfound : terminalForPty state.catalog ptyId with
    | none =>
      have hnone := find?_eq_none.mp hfound terminal hmem
      simp [hpty] at hnone
    | some found =>
      have hfoundPty := find?_some hfound
      have hfoundRow := h.sound.keyed.terminal?_of_mem (mem_of_find?_eq_some hfound)
      have hsame := h.distinct _ _ _ _ ptyId hfoundRow hterm (by simpa using hfoundPty) hpty
      simp only [hfound, map_some, hsame]
  · intro ptyId id howner
    obtain ⟨terminal, hfound, -⟩ := map_eq_some_iff.mp howner
    have hpty := find?_some hfound
    have hrow := h.sound.keyed.terminal?_of_mem (mem_of_find?_eq_some hfound)
    exact h.issued _ terminal ptyId hrow (by simpa using hpty)
  · intro i r hr
    rw [hrequests i] at hr
    cases hr
  · intro i j r r' id id' ptyId hr
    rw [hrequests i] at hr
    cases hr
  · intro update hupdate
    rw [hlistener] at hupdate
    cases hupdate

end Tracking

/-! ## Concrete traces

Traces of one request on a host with an empty catalog. -/

def emptyHost : LifecycleState :=
  { catalog := openStore (.constant "t" "a") "host" none, live := [], issued := [], exits := [],
    exited := [], listener := none, requests := fun _ => none }

theorem emptyHost_booted : Booted emptyHost := by
  refine ⟨Sound.openEmpty _ _, ?_, ?_, rfl, rfl, rfl, rfl, fun _ => rfl⟩
  · intro id id' terminal terminal' ptyId hterm
    cases hterm
  · intro id terminal ptyId hterm
    cases hterm

def answers (uuid : String) : Answers :=
  { env := .constant "t" uuid, spawn := .started ⟨"p", none⟩, stop := .missing }

def calls (n : Nat) (uuid : String) : List LifecycleAction :=
  List.replicate n (.advance 0 (answers uuid))

def createUntilStarted : List LifecycleAction :=
  .start 0 (.create ⟨some "terminal", .ok {}, "ses-a", none, none⟩) ::
    (calls 3 "b" ++ calls 8 "c")

def LifecycleAction.env? : LifecycleAction → Option StoreEnv
  | .advance _ answers => some answers.env
  | .mutate env _ => some env
  | .record env => some env
  | _ => none

def freshKeys (state : LifecycleState) (action : LifecycleAction) : Bool :=
  action.env?.all fun env =>
    (state.catalog.session? (sessionKey (env.uuid 0))).isNone &&
      (state.catalog.tab? (tabKey (env.uuid 0))).isNone &&
        (state.catalog.terminal? (terminalKey (env.uuid 0))).isNone

def Steady (actions : List LifecycleAction) : Prop :=
  ∀ action ∈ actions, ∀ env, action.env? = some env → ∃ time uuid, env = .constant time uuid

theorem LifecycleAction.fresh_of_keys {actions : List LifecycleAction} (hsteady : Steady actions)
    {state : LifecycleState} {action : LifecycleAction} (hmem : action ∈ actions)
    (h : freshKeys state action = true) : action.Fresh state := by
  have henv : ∀ env, action.env? = some env → env.Fresh state.catalog := by
    intro env henv
    obtain ⟨time, uuid, rfl⟩ := hsteady action hmem env henv
    simp only [freshKeys, henv, all_some, Bool.and_eq_true, isNone_iff_eq_none] at h
    exact StoreEnv.constant_fresh h.1.1 h.1.2 h.2
  cases action with
  | advance index answers => exact henv answers.env rfl
  | mutate env | record env => exact henv env rfl
  | _ => trivial

theorem steady_calls (n : Nat) (uuid : String) : Steady (calls n uuid) := by
  intro action hmem env henv
  rw [eq_of_mem_replicate hmem] at henv
  cases henv
  exact ⟨"t", uuid, rfl⟩

theorem Steady.append {actions actions' : List LifecycleAction} (h : Steady actions)
    (h' : Steady actions') : Steady (actions ++ actions') :=
  forall_mem_append.mpr ⟨h, h'⟩

theorem Steady.cons {action : LifecycleAction} {actions : List LifecycleAction}
    (haction : action.env? = none) (h : Steady actions) : Steady (action :: actions) := by
  refine forall_mem_cons.mpr ⟨?_, h⟩
  intro env henv
  rw [haction] at henv
  cases henv

theorem steady_createUntilStarted : Steady createUntilStarted :=
  .cons rfl ((steady_calls 3 "b").append (steady_calls 8 "c"))

def LifecycleAction.request? : LifecycleAction → Option Nat
  | .start index _ | .advance index _ | .reply index => some index
  | _ => none

theorem LifecycleState.step_requests {state next : LifecycleState} {action : LifecycleAction}
    (hstep : state.step action = some next) {index : Nat} (h : action.request? ≠ some index) :
    next.requests index = state.requests index := by
  cases step_stepped hstep with
  | start i | reply i | advance i => exact update_of_ne (fun heq => h (congrArg some heq.symm)) _ _
  | _ => rfl

theorem replay_requests {check : LifecycleState → LifecycleAction → Bool}
    {actions : List LifecycleAction} {state last : LifecycleState}
    (hrpl : lifecycleSystem.replay check state actions = some last) {index : Nat}
    (h : ∀ action ∈ actions, action.request? ≠ some index) :
    last.requests index = state.requests index := by
  induction actions generalizing state with
  | nil =>
    cases hrpl
    rfl
  | cons action rest ih =>
    obtain ⟨-, hrest⟩ := ite_none_right_eq_some.mp hrpl
    obtain ⟨next, hstep, hnext⟩ := bind_eq_some_iff.mp hrest
    rw [ih hnext fun other hmem => h other (mem_cons_of_mem _ hmem)]
    exact LifecycleState.step_requests hstep (h action mem_cons_self)

end Yaade.Runtime

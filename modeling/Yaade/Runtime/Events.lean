import Yaade.Runtime.Dispatch
import Yaade.Store.Frame

/-!
Which records a command announces.
-/

namespace Yaade.Runtime

open Yaade.Library Yaade.Store List Option PersistedState

/-- What a request running alone sees: the catalog, and the events so far. -/
structure HostState where
  catalog : PersistedState
  events : List MuxEvent
  deriving DecidableEq

def HostStep {β : Type} : HostEffect β → HostState → β → HostState → Prop
  | .store call, s, b, s' => ∃ env : StoreEnv, env.Fresh s.catalog ∧
      call.perform env s.catalog = (b, s'.catalog) ∧ s'.events = s.events
  | .emit event, s, _, s' => s' = { s with events := s.events ++ [event] }
  | .create _, s, _, s' => s' = s
  | .dispose _, s, _, s' => s' = s

abbrev HostRuns {α : Type} (p : HostM α) (s : HostState) (outcome : Except RuntimeError α)
    (s' : HostState) : Prop :=
  Program.Runs (fun {_} => HostStep) p s outcome s'

def AnnouncesSession (events : List MuxEvent) (id : String) (revision : Nat) : Prop :=
  ∃ tag session, .session tag session ∈ events ∧ session.id = id ∧ session.revision = revision

def AnnouncesTab (events : List MuxEvent) (id : String) (revision : Nat) : Prop :=
  ∃ tag tab, .tab tag tab ∈ events ∧ tab.id = id ∧ tab.revision = revision

def AnnouncesTerminal (events : List MuxEvent) (id : String) (revision : Nat) : Prop :=
  (∃ tag terminal, .terminal tag terminal ∈ events ∧ terminal.id = id ∧
    terminal.revision = revision) ∨ ∃ time, .terminalArchived id revision time ∈ events

/-- Every record whose revision differs is the subject of an event that carries
the new revision. -/
structure Announced (before after : PersistedState) (events : List MuxEvent) : Prop where
  session : ∀ id session, after.session? id = some session →
    (before.session? id).map (·.revision) ≠ some session.revision →
      AnnouncesSession events id session.revision
  tab : ∀ id tab, after.tab? id = some tab →
    (before.tab? id).map (·.revision) ≠ some tab.revision →
      AnnouncesTab events id tab.revision
  terminal : ∀ id terminal, after.terminal? id = some terminal →
    (before.terminal? id).map (·.revision) ≠ some terminal.revision →
      AnnouncesTerminal events id terminal.revision

namespace Announced

variable {before middle after : PersistedState} {events events' : List MuxEvent}

theorem refl (state : PersistedState) (events : List MuxEvent) : Announced state state events where
  session id session h hchanged := absurd (by rw [h]; rfl) hchanged
  tab id tab h hchanged := absurd (by rw [h]; rfl) hchanged
  terminal id terminal h hchanged := absurd (by rw [h]; rfl) hchanged

theorem trans (h : Announced before middle events) (h' : Announced middle after events') :
    Announced before after (events ++ events') := by
  constructor
  · intro id session hsess hchanged
    by_cases hlast : (middle.session? id).map (·.revision) = some session.revision
    · obtain ⟨early, hearly, heq⟩ := map_eq_some_iff.mp hlast
      obtain ⟨tag, found, hmem, hid, hrev⟩ :=
        h.session id early hearly (by rw [heq]; exact hchanged)
      exact ⟨tag, found, mem_append_left _ hmem, hid, hrev.trans heq⟩
    · obtain ⟨tag, found, hmem, hfound⟩ := h'.session id session hsess hlast
      exact ⟨tag, found, mem_append_right _ hmem, hfound⟩
  · intro id tab htab hchanged
    by_cases hlast : (middle.tab? id).map (·.revision) = some tab.revision
    · obtain ⟨early, hearly, heq⟩ := map_eq_some_iff.mp hlast
      obtain ⟨tag, found, hmem, hid, hrev⟩ := h.tab id early hearly (by rw [heq]; exact hchanged)
      exact ⟨tag, found, mem_append_left _ hmem, hid, hrev.trans heq⟩
    · obtain ⟨tag, found, hmem, hfound⟩ := h'.tab id tab htab hlast
      exact ⟨tag, found, mem_append_right _ hmem, hfound⟩
  · intro id terminal hterm hchanged
    by_cases hlast : (middle.terminal? id).map (·.revision) = some terminal.revision
    · obtain ⟨early, hearly, heq⟩ := map_eq_some_iff.mp hlast
      rcases h.terminal id early hearly (by rw [heq]; exact hchanged) with
        ⟨tag, found, hmem, hid, hrev⟩ | ⟨time, hmem⟩
      · exact .inl ⟨tag, found, mem_append_left _ hmem, hid, hrev.trans heq⟩
      · exact .inr ⟨time, heq ▸ mem_append_left _ hmem⟩
    · rcases h'.terminal id terminal hterm hlast with
        ⟨tag, found, hmem, hfound⟩ | ⟨time, hmem⟩
      · exact .inl ⟨tag, found, mem_append_right _ hmem, hfound⟩
      · exact .inr ⟨time, mem_append_right _ hmem⟩

theorem of_frame {sessions : List AppSession} {tabs : List SessionTab}
    {terminals : List MuxTerminal} (h : Frame before after sessions tabs terminals)
    (hsessions : ∀ session ∈ sessions, after.session? session.id = some session →
      (before.session? session.id).map (·.revision) ≠ some session.revision →
        AnnouncesSession events session.id session.revision)
    (htabs : ∀ tab ∈ tabs, after.tab? tab.id = some tab →
      (before.tab? tab.id).map (·.revision) ≠ some tab.revision →
        AnnouncesTab events tab.id tab.revision)
    (hterms : ∀ terminal ∈ terminals, after.terminal? terminal.id = some terminal →
      (before.terminal? terminal.id).map (·.revision) ≠ some terminal.revision →
        AnnouncesTerminal events terminal.id terminal.revision) :
    Announced before after events := by
  constructor
  · intro id session hsess hchanged
    rcases h.session id session hsess with hsame | hmem
    · exact absurd (by rw [hsame]; rfl) hchanged
    have hid := session?_id hsess
    subst hid
    exact hsessions session hmem hsess hchanged
  · intro id tab htab hchanged
    rcases h.tab id tab htab with hsame | hmem
    · exact absurd (by rw [hsame]; rfl) hchanged
    have hid := tab?_id htab
    subst hid
    exact htabs tab hmem htab hchanged
  · intro id terminal hterm hchanged
    rcases h.terminal id terminal hterm with hsame | hmem
    · exact absurd (by rw [hsame]; rfl) hchanged
    have hid := terminal?_id hterm
    subst hid
    exact hterms terminal hmem hterm hchanged

end Announced

theorem announcesSession_of_mem {events : List MuxEvent} {tag : SessionTag}
    {session : AppSession} (h : .session tag session ∈ events) :
    AnnouncesSession events session.id session.revision :=
  ⟨tag, session, h, rfl, rfl⟩

theorem announcesTab_of_mem {events : List MuxEvent} {tag : TabTag} {tab : SessionTab}
    (h : .tab tag tab ∈ events) : AnnouncesTab events tab.id tab.revision :=
  ⟨tag, tab, h, rfl, rfl⟩

theorem announcesTerminal_of_mem {events : List MuxEvent} {tag : TerminalTag}
    {terminal : MuxTerminal} (h : .terminal tag terminal ∈ events) :
    AnnouncesTerminal events terminal.id terminal.revision :=
  .inl ⟨tag, terminal, h, rfl, rfl⟩

theorem announcesTerminal_of_archived {events : List MuxEvent} {terminal : MuxTerminal}
    (h : archivedEvent terminal ∈ events) :
    AnnouncesTerminal events terminal.id terminal.revision :=
  .inr ⟨terminal.updatedAt, h⟩

/-! ## Calls of a request running alone -/

variable {s s' : HostState} {terminal : MuxTerminal} {u : Unit}

section Calls

variable {α : Type} {outcome : Except RuntimeError Unit} {env : StoreEnv}

theorem runs_read {call : StoreCall α} (answer : PersistedState → α)
    (hread : ∀ env state, call.perform env state = (answer state, state)) {a : α}
    (h : HostRuns (read call) s (.ok a) s') : a = answer s.catalog ∧ s' = s := by
  rw [HostRuns, read, Program.runs_lift_ok, Program.runs_perform] at h
  obtain ⟨env, -, hperf, hevs⟩ := h
  rw [hread] at hperf
  obtain ⟨ha, hcatalog⟩ := Prod.mk.inj hperf
  refine ⟨ha.symm, ?_⟩
  cases s'
  subst hevs
  exact congrArg (HostState.mk · s.events) hcatalog.symm

variable {call : StoreCall (Except StoreError α)}

theorem runs_write (operation : StoreEnv → Operation α)
    (hwrite : ∀ env state, call.perform env state = mutate env (operation env) state) {a : α}
    (h : HostRuns (write call) s (.ok a) s') : ∃ env : StoreEnv, env.Fresh s.catalog ∧
      operation env s.catalog = .ok (a, s'.catalog) ∧ s'.events = s.events := by
  rw [HostRuns, write, Program.runs_attempt_ok] at h
  obtain ⟨env, hfresh, hperf, hevs⟩ := h
  rw [hwrite] at hperf
  exact ⟨env, hfresh, (mutate_ok.mp hperf).1, hevs⟩

theorem runs_emitAll {events : List MuxEvent} (h : HostRuns (emitAll events) s (.ok u) s') :
    s' = { s with events := s.events ++ events } := by
  rw [HostRuns, emitAll, Program.runs_lift_ok] at h
  induction events generalizing s with
  | nil =>
    obtain ⟨-, rfl⟩ := Program.runs_done.mp h
    simp
  | cons event rest ih =>
    obtain ⟨_, t, hstep, hrest⟩ := Program.runs_call.mp h
    have ht : t = { s with events := s.events ++ [event] } := hstep
    rw [ih hrest, ht]
    simp

theorem runs_emit {event : MuxEvent} (h : HostRuns (emit event) s (.ok u) s') :
    s' = { s with events := s.events ++ [event] } := by
  rw [HostRuns, emit, Program.runs_lift_ok, Program.runs_perform] at h
  exact h

theorem runs_readTab {id : Option String} {found : Option SessionTab}
    (h : HostRuns (readTab id) s (.ok found) s') : found = id.bind s.catalog.tab? ∧ s' = s := by
  cases id with
  | none =>
    obtain ⟨rfl, rfl⟩ := Program.runs_pure_ok.mp h
    exact ⟨rfl, rfl⟩
  | some id => exact runs_read (·.tab? id) (fun _ _ => rfl) h

theorem runs_knownTerminal {id : String} (h : HostRuns (knownTerminal id) s (.ok terminal) s') :
    s.catalog.terminal? id = some terminal ∧ s' = s := by
  obtain ⟨found, t, hstep, hrest⟩ := Program.runs_call.mp h
  have hread : HostRuns (read (.getTerminal id)) s (.ok found) t := by
    rw [HostRuns, read, Program.runs_lift_ok, Program.runs_perform]
    exact hstep
  obtain ⟨rfl, rfl⟩ := runs_read (·.terminal? id) (fun _ _ => rfl) hread
  cases hfound : t.catalog.terminal? id with
  | none =>
    rw [hfound] at hrest
    obtain ⟨habs, -⟩ := Program.runs_done.mp hrest
    cases habs
  | some found =>
    rw [hfound] at hrest
    obtain ⟨hok, rfl⟩ := Program.runs_done.mp hrest
    exact ⟨congrArg some (Except.ok.inj hok).symm, rfl⟩

theorem runs_disposeMuxPty {id : String}
    (h : HostRuns (disposeMuxPty id) s outcome s') : s' = s := by
  obtain ⟨answer, t, hstep, hrest⟩ := Program.runs_call.mp h
  have ht : t = s := hstep
  subst ht
  rcases answer with error | ok
  · cases error <;> exact (Program.runs_done.mp hrest).2
  · exact (Program.runs_done.mp hrest).2

theorem runs_disposeOutput (h : HostRuns (disposeOutput terminal) s outcome s') : s' = s := by
  unfold disposeOutput at h
  split at h
  · exact runs_disposeMuxPty h
  · exact (Program.runs_done.mp h).2

theorem runs_disposeLive (h : HostRuns (disposeLive terminal) s outcome s') : s' = s := by
  unfold disposeLive at h
  split at h
  · exact runs_disposeOutput h
  · exact (Program.runs_done.mp h).2

theorem runs_disposeAll {terminals : List MuxTerminal}
    (h : HostRuns (disposeAll terminals) s (.ok u) s') : s' = s := by
  induction terminals generalizing s with
  | nil => exact (Program.runs_done.mp h).2
  | cons terminal rest ih =>
    obtain ⟨_, t, hfirst, hrest⟩ := Program.runs_bind_ok.mp h
    rw [ih hrest, runs_disposeLive hfirst]

theorem runs_write_error {operation : StoreEnv → Operation α}
    (hwrite : ∀ env state, call.perform env state = mutate env (operation env) state)
    {error : RuntimeError} (h : HostRuns (write call) s (.error error) s') : s' = s := by
  obtain ⟨outcome, t, hstep, hdone⟩ := Program.runs_call.mp h
  obtain ⟨env, -, hperf, hevs⟩ := hstep
  rw [hwrite] at hperf
  cases outcome with
  | ok a =>
    obtain ⟨habs, -⟩ := Program.runs_done.mp hdone
    cases habs
  | error failure =>
    obtain ⟨-, rfl⟩ := Program.runs_done.mp hdone
    have hcatalog := mutate_error hperf
    cases s'
    subst hevs
    exact congrArg (HostState.mk · s.events) hcatalog

/-! A concrete run is assembled from its calls. -/

theorem read_runs {call : StoreCall α} (hfresh : env.Fresh s.catalog) {a : α}
    (h : call.perform env s.catalog = (a, s.catalog)) : HostRuns (read call) s (.ok a) s := by
  rw [HostRuns, read, Program.runs_lift_ok, Program.runs_perform]
  exact ⟨env, hfresh, h, rfl⟩

theorem readTab_runs (hfresh : env.Fresh s.catalog)
    {id : Option String} : HostRuns (readTab id) s (.ok (id.bind s.catalog.tab?)) s := by
  cases id with
  | none => exact Program.runs_pure_ok.mpr ⟨rfl, rfl⟩
  | some id => exact (read_runs hfresh rfl : HostRuns (read (.getTab id)) s _ s)

theorem write_runs (call : StoreCall (Except StoreError α))
    (hfresh : env.Fresh s.catalog) {a : α} {next : PersistedState}
    (h : call.perform env s.catalog = (.ok a, next)) :
    HostRuns (write call) s (.ok a) { s with catalog := next } := by
  rw [HostRuns, write, Program.runs_attempt_ok]
  exact ⟨env, hfresh, h, rfl⟩

theorem emitAll_runs {events : List MuxEvent} :
    HostRuns (emitAll events) s (.ok ()) { s with events := s.events ++ events } := by
  rw [HostRuns, emitAll, Program.runs_lift_ok]
  induction events generalizing s with
  | nil =>
    refine Program.runs_done.mpr ⟨rfl, ?_⟩
    simp
  | cons event rest ih =>
    refine Program.runs_call.mpr ⟨(), { s with events := s.events ++ [event] }, rfl, ?_⟩
    simpa using ih (s := { s with events := s.events ++ [event] })

end Calls

/-! ## Announcement along a run -/

/-- From `s` to `s'` every change was announced, and the catalog stayed sound. -/
structure Faithful (s s' : HostState) : Prop where
  sound : Sound s'.catalog
  frame : ∃ sessions tabs terminals, Frame s.catalog s'.catalog sessions tabs terminals
  announced : ∃ events, s'.events = s.events ++ events ∧
    Announced s.catalog s'.catalog events

namespace Faithful

variable {s t s' : HostState}

theorem refl (h : Sound s.catalog) : Faithful s s :=
  ⟨h, ⟨_, _, _, Frame.refl _⟩, [], by simp, Announced.refl _ _⟩

theorem trans (h : Faithful s t) (h' : Faithful t s') : Faithful s s' := by
  obtain ⟨events, hevs, hannounced⟩ := h.announced
  obtain ⟨events', hevs', hannounced'⟩ := h'.announced
  obtain ⟨_, _, _, hframe⟩ := h.frame
  obtain ⟨_, _, _, hframe'⟩ := h'.frame
  exact ⟨h'.sound, ⟨_, _, _, hframe.trans hframe'⟩, events ++ events',
    by rw [hevs', hevs, append_assoc], hannounced.trans hannounced'⟩

theorem of_write {sessions : List AppSession} {tabs : List SessionTab}
    {terminals : List MuxTerminal} (hsound : Sound t.catalog)
    (hframe : Frame s.catalog t.catalog sessions tabs terminals) (hevs : t.events = s.events)
    {events : List MuxEvent} (hsessions : ∀ session ∈ sessions, ∃ tag, .session tag session ∈ events)
    (htabs : ∀ tab ∈ tabs, ∃ tag, .tab tag tab ∈ events)
    (hterms : ∀ terminal ∈ terminals, ∃ tag, .terminal tag terminal ∈ events) :
    Faithful s { t with events := t.events ++ events } := by
  refine ⟨hsound, ⟨_, _, _, hframe⟩, events, by rw [hevs],
    Announced.of_frame hframe ?_ ?_ ?_⟩
  · intro session hsess _ _
    obtain ⟨tag, hmem⟩ := hsessions session hsess
    exact announcesSession_of_mem hmem
  · intro tab htab _ _
    obtain ⟨tag, hmem⟩ := htabs tab htab
    exact announcesTab_of_mem hmem
  · intro terminal hterm _ _
    obtain ⟨tag, hmem⟩ := hterms terminal hterm
    exact announcesTerminal_of_mem hmem

end Faithful

section Requests

variable {id sessionId : String} {revision : Nat} {stop : Bool} {moved : Nat → Bool}
  {tab : SessionTab} {command : CreateTerminalCommand} {reply : MuxReply}
  {terminalId : Option String}

theorem runs_update (hsound : Sound s.catalog) {revision : Option Nat}
    {edit : TerminalEdit} {t : HostState}
    (hwrite : HostRuns (write (.updateTerminal id revision edit)) s (.ok terminal) t)
    (hemit : HostRuns (emitTerminalUpdated terminal) t (.ok u) s') : Faithful s s' := by
  obtain ⟨env, -, hok, hevs⟩ := runs_write _ (fun _ _ => rfl) hwrite
  have hs' := runs_emit hemit
  subst hs'
  have hframe := updateTerminal_frame hok
  refine ⟨hsound.updateTerminal hok, ⟨_, _, _, hframe⟩, [.terminal .updated terminal],
    by rw [hevs], Announced.of_frame hframe (by simp) (by simp) ?_⟩
  intro found hfound _ _
  obtain rfl := mem_singleton.mp hfound
  exact announcesTerminal_of_mem mem_cons_self

theorem runs_storeRunning (hsound : Sound s.catalog) {starting : MuxTerminal}
    {generations : Nat} {pty : TerminalCreateResult}
    (h : HostRuns (storeRunning starting generations pty) s (.ok terminal) s') : Faithful s s' := by
  simp only [storeRunning, Program.runs_bind_ok, Program.runs_pure_ok] at h
  obtain ⟨running, t, hwrite, u, t', hemit, -, rfl⟩ := h
  exact runs_update hsound hwrite hemit

theorem runs_launch (hsound : Sound s.catalog) {starting : MuxTerminal}
    {generations : Nat} (h : HostRuns (launch starting generations) s (.ok terminal) s') :
    Faithful s s' := by
  obtain ⟨answer, t, hstep, hrest⟩ := Program.runs_call.mp h
  have ht : t = s := hstep
  subst ht
  cases answer with
  | ok pty => exact runs_storeRunning hsound hrest
  | error error =>
    simp only [storeFailed, Program.runs_bind_ok, Program.runs_throw_ok, and_false,
      exists_false] at hrest

theorem runs_checkRevision {outcome : Except RuntimeError Unit}
    (h : HostRuns (checkRevision terminal revision) s outcome s') : s' = s := by
  unfold checkRevision at h
  split at h
  · exact (Program.runs_done.mp h).2
  · exact (Program.runs_done.mp h).2

section

variable (hsound : Sound s.catalog)
include hsound

theorem runs_cancelMuxTerminal {outcome : Except RuntimeError MuxTerminal}
    (h : HostRuns (cancelMuxTerminal terminal revision) s outcome s') : Faithful s s' := by
  unfold cancelMuxTerminal at h
  rcases Program.runs_bind_outcome.mp h with ⟨_, t, hcheck, h₁⟩ | ⟨_, -, hcheck⟩
  swap
  · rw [runs_checkRevision hcheck]
    exact Faithful.refl hsound
  obtain rfl := runs_checkRevision hcheck
  rcases Program.runs_bind_outcome.mp h₁ with ⟨_, t', hdispose, h₂⟩ | ⟨_, -, hdispose⟩
  swap
  · rw [runs_disposeOutput hdispose]
    exact Faithful.refl hsound
  obtain rfl := runs_disposeOutput hdispose
  rcases Program.runs_bind_outcome.mp h₂ with ⟨cancelled, t', hwrite, h₃⟩ | ⟨_, -, hwrite⟩
  swap
  · rw [runs_write_error (fun _ _ => rfl) hwrite]
    exact Faithful.refl hsound
  rcases Program.runs_bind_outcome.mp h₃ with ⟨_, last, hemit, h₄⟩ | ⟨error, -, hemit⟩
  · obtain ⟨-, rfl⟩ := Program.runs_done.mp h₄
    exact runs_update hsound hwrite hemit
  obtain ⟨_, _, -, hdone⟩ := Program.runs_call.mp hemit
  obtain ⟨habs, -⟩ := Program.runs_done.mp hdone
  cases habs

theorem runs_whenStopping {p : HostM Unit}
    (hstop : ∀ {outcome : Unit}, HostRuns p s (.ok outcome) s' → Faithful s s')
    (h : HostRuns (whenStopping stop p) s (.ok u) s') : Faithful s s' := by
  unfold whenStopping at h
  split at h
  · exact hstop h
  · rw [(Program.runs_done.mp h).2]
    exact Faithful.refl hsound

theorem runs_cancelLive {terminals : List MuxTerminal}
    (h : HostRuns (cancelLive terminals) s (.ok u) s') : Faithful s s' := by
  induction terminals generalizing s with
  | nil =>
    rw [(Program.runs_done.mp h).2]
    exact Faithful.refl hsound
  | cons terminal rest ih =>
    simp only [cancelLive, Program.runs_bind_ok] at h
    obtain ⟨_, t, hfirst, hrest⟩ := h
    have hstep : Faithful s t := by
      refine runs_whenStopping hsound ?_ hfirst
      intro _ hcancel
      obtain ⟨outcome, hcancel⟩ := Program.runs_ignore.mp hcancel
      exact runs_cancelMuxTerminal hsound hcancel
    exact hstep.trans (ih hstep.sound hrest)

theorem runs_cancelSession (h : HostRuns (cancelSession id) s (.ok u) s') : Faithful s s' := by
  simp only [cancelSession, Program.runs_bind_ok] at h
  obtain ⟨terminals, t, hread, hcancel⟩ := h
  obtain ⟨-, rfl⟩ := runs_read (sessionTerminals · id false) (fun _ _ => rfl) hread
  exact runs_cancelLive hsound hcancel

end

theorem unknownOrMoved_of_ne {previous : Option Nat}
    (h : previous ≠ some revision) : unknownOrMoved previous revision = true := by
  cases previous with
  | none => rfl
  | some old => simpa [unknownOrMoved] using h

theorem knownAndMoved_of_ne {old : Nat} (h : old ≠ revision) :
    knownAndMoved (some old) revision = true := by
  simpa [knownAndMoved] using h

theorem mem_tabUpdates
    (h : moved tab.revision = true) : .tab .updated tab ∈ tabUpdates moved (some tab) := by
  simp [tabUpdates, Option.filter, h]

theorem tabUpdates_of_met (h : tab.revision = revision) :
    tabUpdates (unknownOrMoved (some revision)) (some tab) = [] := by
  simp [tabUpdates, Option.filter, unknownOrMoved, h]

theorem not_tab_mem_sessionUpdates {session : Option AppSession}
    {tag : TabTag} : .tab tag tab ∉ sessionUpdates moved session := by
  simp [sessionUpdates]

theorem mem_sessionUpdates {session : AppSession} (h : moved session.revision = true) :
    .session .updated session ∈ sessionUpdates moved (some session) := by
  simp [sessionUpdates, Option.filter, h]

theorem runs_addMuxTerminal (hsound : Sound s.catalog) {input : TerminalInput}
    (h : HostRuns (addMuxTerminal command input) s (.ok terminal) s') : Faithful s s' := by
  simp only [addMuxTerminal, Program.runs_bind_ok, Program.runs_pure_ok] at h
  obtain ⟨previousSession, t₁, hsess, previousTab, t₂, htab, created, t₃, hwrite, _, t₄,
    hcrd, tab, t₅, htab', _, t₆, htabs, session, t₇, hsess', _, t₈, hsessions, -, rfl⟩ := h
  obtain ⟨rfl, rfl⟩ := runs_read (·.session? command.sessionId) (fun _ _ => rfl) hsess
  obtain ⟨rfl, rfl⟩ := runs_readTab htab
  obtain ⟨env, hfresh, hok, hevs⟩ := runs_write _ (fun _ _ => rfl) hwrite
  have h₄ := runs_emit hcrd
  subst h₄
  obtain ⟨rfl, rfl⟩ := runs_readTab htab'
  have h₆ := runs_emitAll htabs
  subst h₆
  obtain ⟨rfl, rfl⟩ := runs_read (·.session? command.sessionId) (fun _ _ => rfl) hsess'
  have h₈ := runs_emitAll hsessions
  subst h₈
  obtain ⟨selected, session, tab, old, hnamed, hplace, hold, hrev, hsess, htab, hframe⟩ :=
    createTerminal_frame hsound.keyed hfresh hok
  have hid := session?_id hsess
  refine ⟨hsound.createTerminal hfresh hok, ⟨_, _, _, hframe⟩, _,
    by rw [hevs, append_assoc, append_assoc], ?_⟩
  refine Announced.of_frame hframe ?_ ?_ ?_
  · intro found hfound _ hchanged
    obtain rfl := mem_singleton.mp hfound
    refine ⟨.updated, _, mem_append_right _ ?_, rfl, rfl⟩
    rw [hsess]
    rw [hid] at hchanged
    exact mem_sessionUpdates (unknownOrMoved_of_ne hchanged)
  · intro found hfound _ hchanged
    obtain rfl := mem_singleton.mp hfound
    refine ⟨.updated, found, mem_append_left _ (mem_append_right _ ?_), rfl, rfl⟩
    have htabId := tab?_id htab
    rw [hplace, hnamed, bind_some, bind_some, htab]
    rw [htabId] at hchanged
    exact mem_tabUpdates (unknownOrMoved_of_ne hchanged)
  · intro found hfound _ _
    obtain rfl := mem_singleton.mp hfound
    exact announcesTerminal_of_mem mem_cons_self

theorem runs_checked {input : TerminalInput}
    (h : HostRuns command.checked s (.ok input) s') : s' = s := by
  unfold CreateTerminalCommand.checked at h
  split at h
  · split at h
    · exact (Program.runs_pure_ok.mp h).2
    · exact absurd h Program.runs_throw_ok
  · exact absurd h Program.runs_throw_ok

section

variable (hsound : Sound s.catalog)
include hsound

theorem runs_createMuxTerminal
    (h : HostRuns (createMuxTerminal command) s (.ok terminal) s') : Faithful s s' := by
  simp only [createMuxTerminal, Program.runs_bind_ok] at h
  obtain ⟨input, t₁, hcheck, created, t₂, hadd, starting, t₃, hwrite, _, t₄, hemit, hlaunch⟩ := h
  obtain rfl := runs_checked hcheck
  have hadded := runs_addMuxTerminal hsound hadd
  have hstarting := runs_update hadded.sound hwrite hemit
  exact hadded.trans (hstarting.trans (runs_launch hstarting.sound hlaunch))

theorem runs_restartMuxTerminal
    (h : HostRuns (restartMuxTerminal id revision) s (.ok terminal) s') : Faithful s s' := by
  simp only [restartMuxTerminal, Program.runs_bind_ok] at h
  obtain ⟨current, t₁, hread, _, t₂, hcheck, _, t₃, hdispose, starting, t₄, hwrite, _, t₅, hemit,
    hlaunch⟩ := h
  obtain ⟨-, rfl⟩ := runs_knownTerminal hread
  obtain rfl := runs_checkRevision hcheck
  obtain rfl := runs_disposeOutput hdispose
  have hstarting := runs_update hsound hwrite hemit
  exact hstarting.trans (runs_launch hstarting.sound hlaunch)

theorem runs_closeMuxTerminal {closed : MuxTerminal}
    (hknown : s.catalog.terminal? terminal.id = some terminal)
    (h : HostRuns (closeMuxTerminal terminal stop) s (.ok closed) s') : Faithful s s' := by
  simp only [closeMuxTerminal, Program.runs_bind_ok, Program.runs_pure_ok] at h
  obtain ⟨previousSession, t₁, hsess, previousTab, t₂, htab, _, t₃, hstop, result, t₄, hwrite,
    _, t₅, harch, _, t₆, htabs, _, t₇, hsessions, -, rfl⟩ := h
  obtain ⟨rfl, rfl⟩ := runs_read (·.session? terminal.sessionId) (fun _ _ => rfl) hsess
  obtain ⟨rfl, rfl⟩ := runs_readTab htab
  have h₃ : t₃ = t₂ := by
    unfold whenStopping at hstop
    split at hstop
    · exact runs_disposeLive hstop
    · exact (Program.runs_done.mp hstop).2
  subst h₃
  obtain ⟨env, -, hok, hevs⟩ := runs_write _ (fun _ _ => rfl) hwrite
  have h₅ := runs_emit harch
  subst h₅
  have h₆ := runs_emitAll htabs
  subst h₆
  have h₇ := runs_emitAll hsessions
  subst h₇
  obtain ⟨current, hcur, hsessionId, ⟨previous, hprev⟩, hshownTab, hframe⟩ :=
    closeTerminal_frame hsound hok
  obtain rfl : current = terminal := Option.some.inj (hcur.symm.trans hknown)
  refine ⟨hsound.closeTerminal hok, ⟨_, _, _, hframe⟩, _,
    by rw [hevs, append_assoc, append_assoc], ?_⟩
  refine Announced.of_frame hframe ?_ ?_ ?_
  · intro found hfound _ hchanged
    obtain rfl := mem_singleton.mp hfound
    refine ⟨.updated, _, mem_append_right _ ?_, rfl, rfl⟩
    rw [hsessionId, hprev, map_some] at hchanged
    rw [hprev, map_some]
    exact mem_sessionUpdates (knownAndMoved_of_ne fun heq => hchanged (congrArg some heq))
  · intro found hfound _ hchanged
    have hshown : result.tab = some found := mem_toList.mp hfound
    obtain ⟨htabId, old, hold⟩ := hshownTab found hshown
    refine ⟨.updated, found, mem_append_left _ (mem_append_right _ ?_), rfl, rfl⟩
    rw [hold, map_some] at hchanged
    rw [hshown, htabId, bind_some, hold, map_some]
    exact mem_tabUpdates (knownAndMoved_of_ne fun heq => hchanged (congrArg some heq))
  · intro found hfound _ _
    obtain rfl := mem_singleton.mp hfound
    exact announcesTerminal_of_archived (mem_append_left _ (mem_append_left _ mem_cons_self))

theorem runs_createSession {title : Option String}
    (h : HostRuns (dispatchMux (.createSession title)) s (.ok reply) s') : Faithful s s' := by
  simp only [dispatchMux, Program.runs_bind_ok, Program.runs_pure_ok] at h
  obtain ⟨session, t₁, hwrite, _, t₂, hcrd, snapshot, t₃, hread, _, t₄, htabs, -, rfl⟩ := h
  obtain ⟨env, hfresh, hok, hevs⟩ := runs_write (createSession · (title.getD "New session")) (fun _ _ => rfl) hwrite
  obtain rfl := runs_emit hcrd
  obtain ⟨rfl, rfl⟩ := runs_read (getSnapshot · session.id) (fun _ _ => rfl) hread
  obtain rfl := runs_emitAll htabs
  have hframe := createSession_frame hok
  refine ⟨hsound.createSession hfresh hok, ⟨_, _, _, hframe⟩, _, by rw [hevs, append_assoc], ?_⟩
  refine Announced.of_frame hframe ?_ ?_ (by simp)
  · intro found hfound _ _
    obtain rfl := mem_singleton.mp hfound
    exact announcesSession_of_mem (mem_append_left _ mem_cons_self)
  · intro found hfound hnow _
    obtain rfl := mem_singleton.mp hfound
    have hsess := createSession_found hfresh hok
    refine ⟨.created, _, mem_append_right _ (mem_map_of_mem ?_), rfl, rfl⟩
    rw [getSnapshot, hsess, map_some, elim_some]
    exact mem_orderedTabs.mpr ⟨(row?_mem SessionTab.id hnow).1, rfl, rfl⟩

theorem runs_createTab {title : Option String}
    (h : HostRuns (dispatchMux (.createTab sessionId title)) s (.ok reply) s') : Faithful s s' := by
  simp only [dispatchMux, Program.runs_bind_ok, Program.runs_pure_ok] at h
  obtain ⟨previous, t₁, hprev, tab, t₂, hwrite, _, t₃, hcrd, next, t₄, hnext, _, t₅,
    hsessions, -, rfl⟩ := h
  obtain ⟨rfl, rfl⟩ := runs_read (·.session? sessionId) (fun _ _ => rfl) hprev
  obtain ⟨env, hfresh, hok, hevs⟩ := runs_write _ (fun _ _ => rfl) hwrite
  obtain rfl := runs_emit hcrd
  obtain ⟨rfl, rfl⟩ := runs_read (·.session? sessionId) (fun _ _ => rfl) hnext
  obtain rfl := runs_emitAll hsessions
  obtain ⟨session, hsess, hframe⟩ := createTab_frame hok
  have hid := session?_id hsess
  obtain ⟨-, -, old, hold, -⟩ := createTab_ok hok
  refine ⟨hsound.createTab hfresh hok, ⟨_, _, _, hframe⟩, _, by rw [hevs, append_assoc], ?_⟩
  refine Announced.of_frame hframe ?_ ?_ (by simp)
  · intro found hfound _ hchanged
    obtain rfl := mem_singleton.mp hfound
    refine ⟨.updated, found, mem_append_right _ ?_, rfl, rfl⟩
    rw [hid, hold, map_some] at hchanged
    rw [adoptionUpdates, hsess, hold, map_some]
    exact mem_sessionUpdates (knownAndMoved_of_ne fun heq => hchanged (congrArg some heq))
  · intro found hfound _ _
    obtain rfl := mem_singleton.mp hfound
    exact announcesTab_of_mem (mem_append_left _ mem_cons_self)

theorem runs_archiveTab {tabId : String}
    (h : HostRuns (dispatchMux (.archiveTab tabId stop)) s (.ok reply) s') : Faithful s s' := by
  simp only [dispatchMux, Program.runs_bind_ok, Program.runs_pure_ok] at h
  obtain ⟨terminals, t₁, hread, _, t₂, hstop, result, t₃, hwrite, _, t₄, harch, _, t₅, htab,
    _, t₆, hcrd, _, t₇, hsess, -, rfl⟩ := h
  obtain ⟨-, rfl⟩ := runs_read (orderedTerminals · tabId false) (fun _ _ => rfl) hread
  have h₂ : t₂ = t₁ := by
    unfold whenStopping at hstop
    split at hstop
    · exact runs_disposeAll hstop
    · exact (Program.runs_done.mp hstop).2
  subst h₂
  obtain ⟨env, hfresh, hok, hevs⟩ := runs_write _ (fun _ _ => rfl) hwrite
  obtain rfl := runs_emitAll harch
  obtain rfl := runs_emit htab
  obtain rfl := runs_emitAll hcrd
  obtain rfl := runs_emit hsess
  have hframe := closeTab_frame hok
  refine ⟨hsound.closeTab hfresh hok, ⟨_, _, _, hframe⟩, result.terminals.map archivedEvent ++
    (.tab .archived result.tab :: (result.createdTabs.map (.tab .created) ++
      [.session .updated result.session])), by simp [hevs], ?_⟩
  refine Announced.of_frame hframe ?_ ?_ ?_
  · intro found hfound _ _
    obtain rfl := mem_singleton.mp hfound
    exact ⟨.updated, _, by simp, rfl, rfl⟩
  · intro found hfound _ _
    rcases mem_snoc.mp hfound with hcrd | rfl
    · exact ⟨.created, found, by simp [hcrd], rfl, rfl⟩
    · exact ⟨.archived, _, by simp, rfl, rfl⟩
  · intro found hfound _ _
    exact announcesTerminal_of_archived (mem_append_left _ (mem_map_of_mem hfound))

theorem runs_archiveSession
    (h : HostRuns (dispatchMux (.archiveSession sessionId stop)) s (.ok reply) s') :
    Faithful s s' := by
  simp only [dispatchMux, Program.runs_bind_ok, Program.runs_pure_ok] at h
  obtain ⟨previous, t₁, hprev, _, t₂, hstop, session, t₃, hwrite, _, t₄, harch, current,
    t₅, hcur, _, t₆, hcrd, -, rfl⟩ := h
  obtain ⟨rfl, rfl⟩ := runs_read (listSnapshots · false) (fun _ _ => rfl) hprev
  have hstopped : Faithful t₁ t₂ :=
    runs_whenStopping hsound (fun hcancel => runs_cancelSession hsound hcancel) hstop
  refine hstopped.trans ?_
  obtain ⟨env, hfresh, hok, hevs⟩ := runs_write _ (fun _ _ => rfl) hwrite
  obtain rfl := runs_emit harch
  obtain ⟨rfl, rfl⟩ := runs_read (listSnapshots · false) (fun _ _ => rfl) hcur
  obtain rfl := runs_emitAll hcrd
  obtain ⟨_, _, _, hkept⟩ := hstopped.frame
  rcases archiveSession_frame hok with hframe | ⟨added, tab, hframe, hadded, hopen, hid, htab,
    howner, htabOpen⟩
  · refine ⟨hstopped.sound.archiveSession hfresh hok, ⟨_, _, _, hframe⟩, _,
      by rw [hevs, append_assoc], Announced.of_frame hframe ?_ (by simp) (by simp)⟩
    intro found hfound _ _
    obtain rfl := mem_singleton.mp hfound
    exact announcesSession_of_mem (mem_append_left _ mem_cons_self)
  · have hnew : ((listSnapshots t₁.catalog false).map (·.session.id)).contains added.id =
        false := by
      refine Bool.eq_false_iff.mpr fun hcont => ?_
      simp only [contains_iff_mem, List.mem_map] at hcont
      obtain ⟨snapshot, hsnap, hsame⟩ := hcont
      obtain ⟨old, hold, rfl⟩ := List.mem_map.mp hsnap
      have hmem := hkept.sessionIds.mem (mem_map_of_mem (mem_orderedSessions.mp hold).1)
      obtain ⟨later, hlater, hlaterId⟩ := List.mem_map.mp hmem
      have hnone := (row?_eq_none AppSession.id).mp (hfresh.session 0) later hlater
      exact hnone (hlaterId.trans (hsame.trans hid))
    have hsnap : snapshot t₃.catalog added false ∈ (listSnapshots t₃.catalog false).filter
        fun snapshot => !((listSnapshots t₁.catalog false).map (·.session.id)).contains
          snapshot.session.id := by
      refine mem_filter.mpr ⟨mem_map_of_mem (mem_orderedSessions.mpr ⟨hadded, hopen⟩), ?_⟩
      simp only [snapshot, hnew, Bool.not_false]
    refine ⟨hstopped.sound.archiveSession hfresh hok, ⟨_, _, _, hframe⟩, _,
      by rw [hevs, append_assoc], Announced.of_frame hframe ?_ ?_ (by simp)⟩
    · intro found hfound _ _
      simp only [mem_cons, not_mem_nil, or_false] at hfound
      rcases hfound with rfl | rfl
      · refine ⟨.created, _, mem_append_right _ ?_, rfl, rfl⟩
        exact mem_flatMap.mpr ⟨_, hsnap, mem_cons_self⟩
      · exact announcesSession_of_mem (mem_append_left _ mem_cons_self)
    · intro found hfound _ _
      obtain rfl := mem_singleton.mp hfound
      refine ⟨.created, _, mem_append_right _ ?_, rfl, rfl⟩
      refine mem_flatMap.mpr ⟨_, hsnap, mem_cons_of_mem _ (mem_map_of_mem ?_)⟩
      exact mem_orderedTabs.mpr ⟨htab, howner, htabOpen⟩

end

theorem orderedTabs_nodup {state : PersistedState} (h : Keyed state) (sessionId : String) :
    ((orderedTabs state sessionId false).map SessionTab.id).Nodup := by
  have hperm := (sortBy_perm SessionTab.position (state.tabs.filter fun tab =>
    tab.sessionId = sessionId && shown false tab.archivedAt)).map SessionTab.id
  refine hperm.nodup_iff.mpr ?_
  exact h.tabs.sublist (filter_sublist.map SessionTab.id)

theorem runs_moveTerminal (hsound : Sound s.catalog) {target : String}
    (h : HostRuns (dispatchMux (.moveTerminal id target)) s (.ok reply) s') : Faithful s s' := by
  simp only [dispatchMux, Program.runs_bind_ok, Program.runs_pure_ok] at h
  obtain ⟨current, t₁, hknown, before, t₂, hbef, terminal, t₃, hwrite, _, t₄, hterm, after,
    t₅, hafter, _, t₆, hmoves, -, rfl⟩ := h
  obtain ⟨hcur, rfl⟩ := runs_knownTerminal hknown
  obtain ⟨rfl, rfl⟩ := runs_read (getSnapshot · current.sessionId) (fun _ _ => rfl) hbef
  obtain ⟨env, -, hok, hevs⟩ := runs_write _ (fun _ _ => rfl) hwrite
  obtain rfl := runs_emit hterm
  obtain ⟨rfl, rfl⟩ := runs_read (getSnapshot · terminal.sessionId) (fun _ _ => rfl) hafter
  obtain rfl := runs_emitAll hmoves
  obtain ⟨current', hcur', howner, hcase⟩ := moveTerminal_frame hsound hok
  obtain rfl : current' = current := Option.some.inj (hcur'.symm.trans hcur)
  have hterm : ∀ found ∈ [terminal], ∀ events : List MuxEvent,
      AnnouncesTerminal ([.terminal .updated terminal] ++ events) found.id found.revision := by
    intro found hfound events
    obtain rfl := mem_singleton.mp hfound
    exact announcesTerminal_of_mem (mem_append_left _ mem_cons_self)
  rcases hcase with hframe | ⟨session, session', tabs, hsess, hsess', hframe, htabs⟩
  · exact ⟨hsound.moveTerminal hok, ⟨_, _, _, hframe⟩, _, by rw [hevs, append_assoc],
      Announced.of_frame hframe (by simp) (by simp) fun found hfound _ _ =>
        hterm found hfound _⟩
  have hid := session?_id hsess'
  refine ⟨hsound.moveTerminal hok, ⟨_, _, _, hframe⟩, _, by rw [hevs, append_assoc],
    Announced.of_frame hframe ?_ ?_ fun found hfound _ _ => hterm found hfound _⟩
  · intro found hfound _ hchanged
    obtain rfl := mem_singleton.mp hfound
    refine ⟨.updated, found, mem_append_right _ ?_, rfl, rfl⟩
    rw [hid, hsess, map_some] at hchanged
    rw [howner]
    simp only [getSnapshot, hsess, hsess', map_some, moveUpdates, snapshot]
    exact mem_append_right _
      (mem_sessionUpdates (knownAndMoved_of_ne fun heq => hchanged (congrArg some heq)))
  · intro found hfound hnow hchanged
    obtain ⟨hfoundOwner, hfoundOpen, old, hold, holdOwner, holdOpen⟩ := htabs found hfound
    refine ⟨.updated, found, mem_append_right _ ?_, rfl, rfl⟩
    have holdMem : old ∈ orderedTabs t₂.catalog current'.sessionId false :=
      mem_orderedTabs.mpr ⟨(row?_mem SessionTab.id hold).1, holdOwner.trans hfoundOwner, holdOpen⟩
    have holdRow := row?_of_mem SessionTab.id
      (orderedTabs_nodup hsound.keyed current'.sessionId) holdMem
    have hsessionRow := session?_id hsess
    rw [tab?_id hold] at holdRow
    rw [hold, map_some] at hchanged
    rw [howner]
    simp only [getSnapshot, hsess, hsess', map_some, moveUpdates, snapshot, hsessionRow, hid]
    refine mem_append_left _ (mem_flatMap.mpr ⟨found, ?_, ?_⟩)
    · exact mem_orderedTabs.mpr ⟨(row?_mem SessionTab.id hnow).1, hfoundOwner, hfoundOpen⟩
    · rw [holdRow, map_some]
      exact mem_tabUpdates (knownAndMoved_of_ne fun heq => hchanged (congrArg some heq))

theorem runs_selectTerminal
    (h : HostRuns (dispatchMux (.selectTerminal sessionId terminalId)) s (.ok reply) s') :
    ∃ (env : StoreEnv) (session : AppSession), env.Fresh s.catalog ∧
      selectTerminalInState env.now s.catalog sessionId terminalId = .ok (session, s'.catalog) ∧
      s'.events = s.events ++
        (tabUpdates (unknownOrMoved ((((s.catalog.session? sessionId).bind (·.activeTabId)).bind
            s.catalog.tab?).map (·.revision))) (session.activeTabId.bind s'.catalog.tab?) ++
          sessionUpdates (unknownOrMoved ((s.catalog.session? sessionId).map (·.revision)))
            (some session)) := by
  simp only [dispatchMux, Program.runs_bind_ok, Program.runs_pure_ok] at h
  obtain ⟨previous, t₁, hprev, previousTab, t₂, hpreviousTab, session, t₃, hwrite, tab, t₄,
    htab, _, t₅, htabs, _, t₆, hsessions, -, rfl⟩ := h
  obtain ⟨rfl, rfl⟩ := runs_read (·.session? sessionId) (fun _ _ => rfl) hprev
  obtain ⟨rfl, rfl⟩ := runs_readTab hpreviousTab
  obtain ⟨env, hfresh, hok, hevs⟩ := runs_write _ (fun _ _ => rfl) hwrite
  obtain ⟨rfl, rfl⟩ := runs_readTab htab
  obtain rfl := runs_emitAll htabs
  obtain rfl := runs_emitAll hsessions
  exact ⟨env, session, hfresh, hok, by rw [hevs, append_assoc]⟩

def previouslyActive (state : PersistedState) (sessionId : String) : Option SessionTab :=
  ((state.session? sessionId).bind (·.activeTabId)).bind state.tab?

def holdingTab (state : PersistedState) (terminalId : String) : Option SessionTab :=
  ((state.terminal? terminalId).bind (·.tabId)).bind state.tab?

/-- Whether a command selects a terminal in a tab whose revision is one less
than that of the tab active before: after the write both are equal. -/
def tabOverlooked (state : PersistedState) : MuxCommand → Bool
  | .selectTerminal sessionId (some terminalId) =>
    (previouslyActive state sessionId).any fun active =>
      (holdingTab state terminalId).any fun holding =>
        holding.revision + 1 == active.revision
  | _ => false

section

variable (hsound : Sound s.catalog)
include hsound

section

variable (h : HostRuns (dispatchMux (.selectTerminal sessionId terminalId)) s (.ok reply) s')
include h

theorem selectTerminal_announced
    (hseen : tabOverlooked s.catalog (.selectTerminal sessionId terminalId) = false) :
    Faithful s s' := by
  obtain ⟨env, session, -, hok, hevs⟩ := runs_selectTerminal h
  obtain ⟨hsess, hcase⟩ := selectTerminalInState_frame hsound.keyed hok
  have hid := session?_id hsess
  have hannounced : ∀ found ∈ [session], s'.catalog.session? found.id = some found →
      (s.catalog.session? found.id).map (·.revision) ≠ some found.revision →
        ∀ events, AnnouncesSession (events ++ sessionUpdates (unknownOrMoved
          ((s.catalog.session? sessionId).map (·.revision))) (some session))
          found.id found.revision := by
    intro found hfound _ hchanged events
    obtain rfl := mem_singleton.mp hfound
    refine ⟨.updated, found, mem_append_right _ ?_, rfl, rfl⟩
    rw [hid] at hchanged
    exact mem_sessionUpdates (unknownOrMoved_of_ne hchanged)
  rcases hcase with ⟨rfl, hframe⟩ | ⟨id, tab, rfl, hholding, hactive, htab, hframe⟩
  · exact ⟨hsound.selectTerminal hok, ⟨_, _, _, hframe⟩, _, hevs,
      Announced.of_frame hframe (fun found hfound hnow hchanged =>
        hannounced found hfound hnow hchanged _) (by simp) (by simp)⟩
  refine ⟨hsound.selectTerminal hok, ⟨_, _, _, hframe⟩, _, hevs,
    Announced.of_frame hframe (fun found hfound hnow hchanged =>
      hannounced found hfound hnow hchanged _) ?_ (by simp)⟩
  intro found hfound _ _
  obtain rfl := mem_singleton.mp hfound
  refine ⟨.updated, _, mem_append_left _ ?_, rfl, rfl⟩
  rw [hactive, bind_some, htab]
  refine mem_tabUpdates (unknownOrMoved_of_ne fun hequal => ?_)
  obtain ⟨active, hbef, hrev⟩ := map_eq_some_iff.mp hequal
  simp only [tabOverlooked, previouslyActive, holdingTab, hbef, hholding, any_some] at hseen
  have hmet : tab.revision + 1 = active.revision := hrev.symm
  simp [hmet] at hseen

theorem selectTerminal_overlooks (hstart : s.events = [])
    (hmissed : tabOverlooked s.catalog (.selectTerminal sessionId terminalId) = true) :
    ¬ Announced s.catalog s'.catalog s'.events := by
  obtain ⟨env, session, -, hok, hevs⟩ := runs_selectTerminal h
  obtain ⟨-, hcase⟩ := selectTerminalInState_frame hsound.keyed hok
  rcases hcase with ⟨rfl, -⟩ | ⟨id, tab, rfl, hholding, hactive, htab, -⟩
  · simp [tabOverlooked] at hmissed
  cases hbef : previouslyActive s.catalog sessionId with
  | none => simp [tabOverlooked, hbef] at hmissed
  | some active =>
    have hmet : tab.revision + 1 = active.revision := by
      simpa [tabOverlooked, hbef, holdingTab, hholding] using hmissed
    have hquiet : s'.events = sessionUpdates (unknownOrMoved
        ((s.catalog.session? sessionId).map (·.revision))) (some session) := by
      unfold previouslyActive at hbef
      rw [hevs, hstart, hbef, hactive, bind_some, htab, map_some, tabUpdates_of_met hmet]
      rfl
    intro hannounced
    have hold : s.catalog.tab? tab.id = some tab := by
      obtain ⟨tabId, -, hfound⟩ := bind_eq_some_iff.mp hholding
      rw [tab?_id hfound, hfound]
    have hmoved : (s.catalog.tab? tab.id).map (·.revision) ≠ some (tab.revision + 1) := by
      rw [hold, map_some]
      simp
    obtain ⟨tag, found, hmem, -⟩ := hannounced.tab tab.id _ htab hmoved
    rw [hquiet] at hmem
    exact not_tab_mem_sessionUpdates hmem

end

/-- A read answered as it is changes nothing. -/
theorem runs_answered {call : StoreCall α} (answer : PersistedState → α)
    (hread : ∀ env state, call.perform env state = (answer state, state)) {finish : α → MuxReply}
    (h : HostRuns (read call >>= fun a => pure (finish a)) s (.ok reply) s') : Faithful s s' := by
  obtain ⟨_, t, hread', hdone⟩ := Program.runs_bind_ok.mp h
  obtain ⟨-, rfl⟩ := Program.runs_pure_ok.mp hdone
  obtain ⟨-, rfl⟩ := runs_read answer hread hread'
  exact Faithful.refl hsound

/-- A write whose result is emitted and answered announces what it changed. -/
theorem runs_announced {call : StoreCall (Except StoreError α)}
    {emitted : α → HostM Unit} {finish : α → MuxReply}
    (h : HostRuns (write call >>= fun a => emitted a >>= fun _ => pure (finish a)) s (.ok reply) s')
    (operation : StoreEnv → Operation α)
    (hwrite : ∀ env state, call.perform env state = mutate env (operation env) state)
    {events : α → List MuxEvent} (hemits : ∀ {a t t'}, HostRuns (emitted a) t (.ok ()) t' →
      t' = { t with events := t.events ++ events a })
    {sessions : α → List AppSession} {tabs : α → List SessionTab} {terminals : α → List MuxTerminal}
    (hframe : ∀ {env a next}, operation env s.catalog = .ok (a, next) →
      Frame s.catalog next (sessions a) (tabs a) (terminals a))
    (hsessions : ∀ a, ∀ session ∈ sessions a, ∃ tag, .session tag session ∈ events a := by simp)
    (htabs : ∀ a, ∀ tab ∈ tabs a, ∃ tag, .tab tag tab ∈ events a := by simp)
    (hterms : ∀ a, ∀ terminal ∈ terminals a, ∃ tag, .terminal tag terminal ∈ events a := by simp) :
    Faithful s s' := by
  simp only [Program.runs_bind_ok, Program.runs_pure_ok] at h
  obtain ⟨a, t, hrun, _, t', hemit, -, rfl⟩ := h
  obtain rfl := hemits hemit
  rw [write, Program.runs_attempt_ok] at hrun
  obtain ⟨env, hfresh, hperf, hevs⟩ := hrun
  have hnext := hsound.perform hfresh call
  rw [hperf] at hnext
  rw [hwrite] at hperf
  have hok := (mutate_ok.mp hperf).1
  exact Faithful.of_write hnext (hframe hok) hevs (hsessions a) (htabs a) (hterms a)

/-- Every command but an overlooking selection announces all it changes. -/
theorem dispatchMux_faithful {command : MuxCommand}
    (h : HostRuns (dispatchMux command) s (.ok reply) s')
    (hseen : tabOverlooked s.catalog command = false) : Faithful s s' := by
  cases command with
  | createSession title => exact runs_createSession hsound h
  | createTab sessionId title => exact runs_createTab hsound h
  | archiveTab tabId stop => exact runs_archiveTab hsound h
  | archiveSession sessionId stop => exact runs_archiveSession hsound h
  | moveTerminal id target => exact runs_moveTerminal hsound h
  | selectTerminal sessionId terminalId => exact selectTerminal_announced hsound h hseen
  | listSessions includeArchived =>
    exact runs_answered hsound (listSnapshots · includeArchived) (fun _ _ => rfl) h
  | getSession sessionId => exact runs_answered hsound (getSnapshot · sessionId) (fun _ _ => rfl) h
  | getTerminal id => exact runs_answered hsound (·.terminal? id) (fun _ _ => rfl) h
  | renameSession sessionId title =>
    exact runs_announced hsound h _ (fun _ _ => rfl) runs_emit renameSession_frame
  | selectTab sessionId tabId =>
    exact runs_announced hsound h _ (fun _ _ => rfl) runs_emit selectTab_frame
  | restoreSession sessionId =>
    exact runs_announced hsound h _ (fun _ _ => rfl) runs_emit restoreSession_frame
  | renameTab tabId title =>
    exact runs_announced hsound h _ (fun _ _ => rfl) runs_emit renameTab_frame
  | saveTabLayout tabId layout revision =>
    exact runs_announced hsound h _ (fun _ _ => rfl) runs_emit saveTabLayout_frame
  | reorderSessions ids =>
    exact runs_announced hsound h _ (fun _ _ => rfl) runs_emitAll (reorderSessions_frame hsound.keyed)
  | reorderTabs sessionId ids =>
    exact runs_announced hsound h _ (fun _ _ => rfl) runs_emitAll (reorderTabs_frame hsound.keyed)
  | reorderTerminals sessionId tabId ids =>
    exact runs_announced hsound h _ (fun _ _ => rfl) runs_emitAll (reorderTerminals_frame hsound.keyed)
  | renameTerminal id title =>
    exact runs_announced hsound h _ (fun _ _ => rfl) runs_emit updateTerminal_frame
  | createTerminal command =>
    simp only [dispatchMux, Program.runs_bind_ok, Program.runs_pure_ok] at h
    obtain ⟨terminal, t, hcreate, -, rfl⟩ := h
    exact runs_createMuxTerminal hsound hcreate
  | stopTerminal id revision =>
    simp only [dispatchMux, Program.runs_bind_ok, Program.runs_pure_ok] at h
    obtain ⟨terminal, t, hknown, cancelled, t', hcancel, -, rfl⟩ := h
    obtain ⟨-, rfl⟩ := runs_knownTerminal hknown
    exact runs_cancelMuxTerminal hsound hcancel
  | restartTerminal id revision =>
    simp only [dispatchMux, Program.runs_bind_ok, Program.runs_pure_ok] at h
    obtain ⟨terminal, t, hrestart, -, rfl⟩ := h
    exact runs_restartMuxTerminal hsound hrestart
  | closeTerminal id =>
    simp only [dispatchMux, Program.runs_bind_ok, Program.runs_pure_ok] at h
    obtain ⟨terminal, t, hknown, closed, t', hclose, -, rfl⟩ := h
    obtain ⟨hfound, rfl⟩ := runs_knownTerminal hknown
    have hid := terminal?_id hfound
    exact runs_closeMuxTerminal hsound (hid ▸ hfound) hclose

end

end Requests

/-- A command run alone on a reachable catalog announces every record whose
revision it changed, unless it selects a terminal whose tab is overlooked. -/
theorem mux_announces_iff {machine : String} {state : PersistedState}
    (hreachable : (storeSystem machine).Run (fun state action => action.1.Fresh state) state)
    {command : MuxCommand} {reply : MuxReply} {s' : HostState}
    (hrun : HostRuns (dispatchMux command) ⟨state, []⟩ (.ok reply) s') :
    Announced state s'.catalog s'.events ↔ tabOverlooked state command = false := by
  have hsound : Sound (HostState.mk state []).catalog := storeSystem_sound hreachable
  constructor
  · intro hannounced
    cases command with
    | selectTerminal sessionId terminalId =>
      refine Bool.eq_false_iff.mpr fun hmissed => ?_
      exact selectTerminal_overlooks hsound hrun rfl hmissed hannounced
    | _ => rfl
  · intro hseen
    obtain ⟨events, hevs, hannounced⟩ := (dispatchMux_faithful hsound hrun hseen).announced
    rw [hevs]
    exact hannounced

/-! A session with two windows: the second holds a terminal, the first is the
active one and its revision is one ahead. -/

def twoWindows : PersistedState :=
  let state := openStore (.constant "t" "a") "host" none
  let state := ((StoreCall.createTab "ses-a" "Second").perform (.constant "t" "b") state).2
  let state := ((StoreCall.createTerminal "ses-a" (some "tab-b") "Shell" {}).perform
    (.constant "t" "c") state).2
  let state := ((StoreCall.saveTabLayout "tab-a" "{}" none).perform (.constant "t" "d") state).2
  let state := ((StoreCall.saveTabLayout "tab-a" "{}" none).perform (.constant "t" "e") state).2
  ((StoreCall.selectTab "ses-a" (some "tab-a")).perform (.constant "t" "f") state).2

theorem twoWindows_run :
    (storeSystem "host").Run (fun state action => action.1.Fresh state) twoWindows := by
  refine System.Run.next (a := (.constant "t" "f", ⟨_, .selectTab "ses-a" (some "tab-a")⟩)) ?_ ?_ rfl
  refine System.Run.next (a := (.constant "t" "e", ⟨_, .saveTabLayout "tab-a" "{}" none⟩)) ?_ ?_ rfl
  refine System.Run.next (a := (.constant "t" "d", ⟨_, .saveTabLayout "tab-a" "{}" none⟩)) ?_ ?_ rfl
  refine System.Run.next (a := (.constant "t" "c",
    ⟨_, .createTerminal "ses-a" (some "tab-b") "Shell" {}⟩)) ?_ ?_ rfl
  refine System.Run.next (a := (.constant "t" "b", ⟨_, .createTab "ses-a" "Second"⟩)) ?_ ?_ rfl
  exact System.Run.start ⟨.constant "t" "a", rfl⟩
  all_goals exact StoreEnv.constant_fresh (by decide) (by decide) (by decide)

def selectShell : StoreCall (Except StoreError AppSession) :=
  .selectTerminal "ses-a" (some "term-c")

def shellSelected : HostState where
  catalog := (selectShell.perform (.constant "t" "g") twoWindows).2
  events :=
    (selectShell.perform (.constant "t" "g") twoWindows).1.toOption.toList.map (.session .updated)

theorem shellSelected_runs : ∃ reply,
    HostRuns (dispatchMux (.selectTerminal "ses-a" (some "term-c"))) ⟨twoWindows, []⟩ (.ok reply)
      shellSelected := by
  have hfresh : (StoreEnv.constant "t" "g").Fresh twoWindows :=
    StoreEnv.constant_fresh (by decide) (by decide) (by decide)
  have hfresh' : (StoreEnv.constant "t" "g").Fresh shellSelected.catalog :=
    StoreEnv.constant_fresh (by decide) (by decide) (by decide)
  apply Exists.intro
  simp only [dispatchMux, Program.runs_bind_ok, Program.runs_pure_ok]
  refine ⟨_, _, read_runs hfresh rfl, ?_⟩
  refine ⟨_, _, readTab_runs hfresh, ?_⟩
  refine ⟨_, ⟨shellSelected.catalog, []⟩, write_runs selectShell hfresh rfl, ?_⟩
  refine ⟨_, _, readTab_runs (s := ⟨shellSelected.catalog, []⟩) hfresh', ?_⟩
  exact ⟨_, _, emitAll_runs, _, _, emitAll_runs, rfl, rfl⟩
theorem mux_announces_shellSelected :
    Announced twoWindows shellSelected.catalog shellSelected.events ↔
      tabOverlooked twoWindows (.selectTerminal "ses-a" (some "term-c")) = false := by
  obtain ⟨reply, hrun⟩ := shellSelected_runs
  exact mux_announces_iff twoWindows_run hrun

/-- The second window was written and no event says so. -/
theorem shellSelected_unannounced : ¬ ∀ (machine : String) (state : PersistedState),
    (storeSystem machine).Run (fun state action => action.1.Fresh state) state →
      ∀ (command : MuxCommand) (reply : MuxReply) (s' : HostState),
        HostRuns (dispatchMux command) ⟨state, []⟩ (.ok reply) s' →
          Announced state s'.catalog s'.events := by
  intro hall
  obtain ⟨reply, hrun⟩ := shellSelected_runs
  have hsound : Sound (HostState.mk twoWindows []).catalog := storeSystem_sound twoWindows_run
  exact selectTerminal_overlooks hsound hrun rfl (by decide)
    (hall "host" twoWindows twoWindows_run _ reply _ hrun)

end Yaade.Runtime

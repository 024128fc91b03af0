import Yaade.Library.Transition
import Yaade.Mux.SessionStore

/-!
Events and replies that reach the store in any order.
-/

namespace Yaade.Mux

open Yaade.Library Option List IndexMap MuxSessionStore Bool

/-- A mutation of the server: the entity afterwards, and how it is announced. -/
structure LogEntry where
  item : Item
  change : EventChange
  deriving DecidableEq

def LogEntry.event (entry : LogEntry) : StoreEvent :=
  ⟨entry.item.key, entry.item.revision, entry.change⟩

def latest (log : List LogEntry) (key : EntityKey) : Option Item :=
  (log.reverse.find? fun entry => entry.item.key = key).map LogEntry.item

/-- The session an entity belongs to for good. -/
structure Membership where
  sessionOf : EntityKey → String
  session : ∀ id, sessionOf ⟨.session, id⟩ = id

def Membership.ownsFallback (membership : Membership) (key : EntityKey) : Bool :=
  key.kind ≠ .session || membership.sessionOf (fallbackKey key.id) = key.id

section Server

variable (membership : Membership)

def visible (log : List LogEntry) (key : EntityKey) : Bool :=
  ((latest log key).any fun item => item.archivedAt.isNone) &&
    (latest log ⟨.session, membership.sessionOf key⟩).all fun session => session.archivedAt.isNone

/-- Each mutation raises the entity's revision; an output or an archival is
announced for a terminal only. -/
def lawfulEntry (log : List LogEntry) (entry : LogEntry) : Bool :=
  entry.item.sessionId = membership.sessionOf entry.item.key && 0 < entry.item.revision &&
    ((latest log entry.item.key).all fun item => item.revision < entry.item.revision) &&
    membership.ownsFallback entry.item.key &&
    match entry.change with
    | .put item => item = entry.item
    | .output _ | .archived _ => entry.item.key.kind = .muxTerminal

end Server

inductive RequestKind where
  | listSessions
  | getSession (sessionId : String)
  | getTerminal (key : EntityKey)
  | close (key : EntityKey)
  deriving DecidableEq

inductive Reply where
  | snapshots (items : List Item) (hasTabs : Bool)
  | session (session : Item) (terminals : List Item) (tabs : Option (List Item))
  | entity (item : Item)
  deriving DecidableEq

def Reply.items : Reply → List Item
  | .snapshots items _ => items
  | .session owner terminals tabs => owner :: (terminals ++ tabs.getD [])
  | .entity item => [item]

def Reply.hasTabs : Reply → Bool
  | .snapshots _ hasTabs => hasTabs
  | .session _ _ tabs => tabs.isSome
  | .entity _ => true

def RequestKind.covers (membership : Membership) : RequestKind → EntityKey → Bool
  | .listSessions, _ => true
  | .getSession sessionId, key => membership.sessionOf key = sessionId
  | .getTerminal _, _ | .close _, _ => false

def RequestKind.fits : RequestKind → Reply → Bool
  | .listSessions, .snapshots items hasTabs => hasTabs || items.all fun item => item.key.kind ≠ .tab
  | .getSession sessionId, .session session terminals tabs =>
    session.key = ⟨.session, sessionId⟩ &&
      (terminals.all fun item => item.key.kind = .muxTerminal) &&
        (tabs.getD []).all fun item => item.key.kind = .tab
  | .getTerminal key, .entity item => item.key = key && key.kind = .muxTerminal
  | .close key, .entity item => item.key = key && key.kind ≠ .session
  | _, _ => false

/-- A correct snapshot: everything in it is as the server has it, and nothing
visible is left out, but the tabs of a server that sends none. -/
def correctReply (membership : Membership) (log : List LogEntry) (kind : RequestKind)
    (reply : Reply) : Bool :=
  kind.fits reply && (reply.items.all fun item => latest log item.key = some item) &&
    log.all fun entry =>
      !(kind.covers membership entry.item.key && visible membership log entry.item.key &&
        (entry.item.key.kind ≠ .tab || reply.hasTabs)) ||
      (reply.items.map Item.key).contains entry.item.key

/-- A request: the revisions captured when it was issued, how long the log was
and how many events had taken effect then, and the reply with its moment. -/
structure MuxRequest where
  kind : RequestKind
  baseline : IndexMap EntityKey Nat
  issuedAt : Nat
  appliedBefore : Nat
  reply : Option (Nat × Reply)

/-- An event that took effect. -/
structure Applied where
  key : EntityKey
  revision : Nat
  position : Nat
  deriving DecidableEq

/-- A reply was processed: the events that took effect since its request, the
log by then, and the store afterwards. -/
structure Outcome where
  since : List Applied
  log : List LogEntry
  store : MuxSessionStore

structure UpdatesWorld where
  store : MuxSessionStore
  log : List LogEntry
  delivered : Nat
  applied : List Applied
  requests : IndexMap Nat MuxRequest
  nextRequest : Nat
  outcomes : List Outcome

inductive UpdatesAction where
  | mutate (entry : LogEntry)
  | deliver
  | skip
  | issue (kind : RequestKind)
  | answer (id : Nat) (reply : Reply)
  | fail (id : Nat)
  | process (id : Nat)

namespace UpdatesWorld

def start : UpdatesWorld := ⟨.empty, [], 0, [], .empty, 0, []⟩

def takesEffect (store : MuxSessionStore) (event : StoreEvent) : Bool :=
  store.knownRevision event.key < event.revision &&
    ((store.apply event).items.get? event.key).any fun item => item.revision = event.revision

def deliver (world : UpdatesWorld) (entry : LogEntry) : UpdatesWorld :=
  { world with
    store := world.store.apply entry.event
    delivered := world.delivered + 1
    applied := world.applied ++ if takesEffect world.store entry.event then
      [⟨entry.item.key, entry.item.revision, world.delivered⟩] else [] }

def issue (world : UpdatesWorld) (kind : RequestKind) : UpdatesWorld :=
  { world with
    requests := world.requests.insert world.nextRequest
      ⟨kind, world.store.captureRevisions, world.log.length, world.applied.length, none⟩
    nextRequest := world.nextRequest + 1 }

/-- `hydrate`, `reconcileSession`, `reconcileGap` for a terminal, and a close
that succeeded. -/
def merge (store : MuxSessionStore) (request : MuxRequest) : Reply → MuxSessionStore
  | .snapshots items hasTabs => store.mergeSnapshot items hasTabs request.baseline
  | .session session terminals tabs => store.replaceSession session terminals tabs
  | .entity item =>
    match request.kind with
    | .getTerminal _ => store.replaceMuxTerminalIfNewer item
    | _ => if item.key.kind = .tab then store.replaceTab item else store.replaceMuxTerminal item

def process (world : UpdatesWorld) (id : Nat) (request : MuxRequest) (reply : Reply) :
    UpdatesWorld :=
  let store := merge world.store request reply
  { world with
    store := store
    requests := world.requests.shiftRemove id
    outcomes := world.outcomes ++ [⟨world.applied.drop request.appliedBefore, world.log, store⟩] }

def fail (membership : Membership) (world : UpdatesWorld) (id : Nat) (request : MuxRequest) :
    UpdatesWorld :=
  match request.kind with
  | .close key =>
    let reconcile := { request with kind := .getSession (membership.sessionOf key), reply := none }
    { world with requests := world.requests.insert id reconcile }
  | _ => { world with requests := world.requests.shiftRemove id }

end UpdatesWorld

def updatesSystem (membership : Membership) : System UpdatesWorld UpdatesAction where
  initial := (· = .start)
  step world
    | .mutate entry =>
      if lawfulEntry membership world.log entry then
        some { world with log := world.log ++ [entry] } else none
    | .deliver => (world.log[world.delivered]?).map world.deliver
    | .skip => (world.log[world.delivered]?).map fun _ =>
      { world with delivered := world.delivered + 1 }
    | .issue kind => some (world.issue kind)
    | .answer id reply => (world.requests.get? id).bind fun request =>
      if correctReply membership world.log request.kind reply && request.reply.isNone then
        let answered := { request with reply := some (world.log.length, reply) }
        some { world with requests := world.requests.insert id answered }
      else none
    | .fail id => (world.requests.get? id).map (world.fail membership id)
    | .process id => (world.requests.get? id).bind fun request =>
      request.reply.map fun reply => world.process id request reply.2

def VisibleSince (membership : Membership) (log : List LogEntry) (applied : Applied) : Prop :=
  ∀ moment, applied.position < moment → moment ≤ log.length →
    visible membership (log.take moment) applied.key = true

/-- After each reply the store contains what the events since its request
brought. -/
def NothingLost (membership : Membership) (world : UpdatesWorld) : Prop :=
  ∀ outcome ∈ world.outcomes, ∀ applied ∈ outcome.since,
    VisibleSince membership outcome.log applied →
      outcome.store.Has applied.key applied.revision

/-- A reply with a session brings every open tab and terminal of that session
that one of the events changed. -/
def Reply.coversChanges (membership : Membership) (store : MuxSessionStore)
    (since : List Applied) : Reply → Bool
  | .session owner terminals tabs => since.all fun applied =>
    let isOpen := (store.items.get? applied.key).any fun item => item.archivedAt.isNone
    !(membership.sessionOf applied.key = owner.key.id && applied.key.kind ≠ .session &&
      (applied.key.kind ≠ .tab || tabs.isSome) && isOpen) ||
    ((owner :: (terminals ++ tabs.getD [])).map Item.key).contains applied.key
  | _ => true

def Covering (membership : Membership) (world : UpdatesWorld) : UpdatesAction → Prop
  | .process id => ∀ request ∈ world.requests.get? id, ∀ answered ∈ request.reply,
      answered.2.coversChanges membership world.store (world.applied.drop request.appliedBefore) =
        true
  | _ => True

instance (membership : Membership) (world : UpdatesWorld) :
    (action : UpdatesAction) → Decidable (Covering membership world action)
  | .process id => inferInstanceAs (Decidable (∀ request ∈ world.requests.get? id,
      ∀ answered ∈ request.reply, answered.2.coversChanges membership world.store
        (world.applied.drop request.appliedBefore) = true))
  | .mutate _ | .deliver | .skip | .issue _ | .answer _ _ | .fail _ => .isTrue trivial

/-! ## The log -/

variable {key : EntityKey} {member : Membership} {log : List LogEntry} {item : Item}

section Log

variable {entry : LogEntry}

/-- The entry at that place of the log is about the key and has that revision. -/
def LoggedAt (log : List LogEntry) (position : Nat) (key : EntityKey) (revision : Nat) : Prop :=
  ∃ entry, log[position]? = some entry ∧ entry.item.key = key ∧ entry.item.revision = revision

theorem latest_append (log : List LogEntry) (entry : LogEntry) (key : EntityKey) :
    latest (log ++ [entry]) key =
      if entry.item.key = key then some entry.item else latest log key := by
  unfold latest
  rw [reverse_append, reverse_singleton, singleton_append, find?_cons]
  by_cases hkey : entry.item.key = key
  · simp [hkey]
  · simp [hkey]

theorem latest_some (h : latest log key = some item) :
    item.key = key ∧ ∃ (position : Nat) (entry : LogEntry), log[position]? = some entry ∧
      entry.item = item := by
  obtain ⟨entry, hfind, rfl⟩ := map_eq_some_iff.mp h
  have hkey := find?_some hfind
  obtain ⟨position, hposn⟩ := mem_iff_getElem?.mp (mem_reverse.mp (mem_of_find?_eq_some hfind))
  exact ⟨of_decide_eq_true hkey, position, entry, hposn, rfl⟩

/-- The server's mutations: each raises its entity's revision. -/
structure LawfulLog (membership : Membership) (log : List LogEntry) : Prop where
  sessions : ∀ entry ∈ log, entry.item.sessionId = membership.sessionOf entry.item.key
  positive : ∀ entry ∈ log, 0 < entry.item.revision
  owned : ∀ entry ∈ log, membership.ownsFallback entry.item.key = true
  rising : ∀ earlier later key revision revision', earlier < later →
    LoggedAt log earlier key revision → LoggedAt log later key revision' → revision < revision'
  puts : ∀ entry ∈ log, ∀ item, entry.change = .put item → item = entry.item
  others : ∀ entry ∈ log, (∀ item, entry.change ≠ .put item) → entry.item.key.kind = .muxTerminal

variable {position revision : Nat}

section

variable (h : LoggedAt log position key revision)
include h

theorem LoggedAt.mono (more : List LogEntry) : LoggedAt (log ++ more) position key revision := by
  obtain ⟨entry, hget, hentry⟩ := h
  refine ⟨entry, ?_, hentry⟩
  rw [getElem?_append_left (List.getElem?_eq_some_iff.mp hget).1]
  exact hget

theorem LoggedAt.lt : position < log.length := by
  obtain ⟨entry, hget, -⟩ := h
  exact (List.getElem?_eq_some_iff.mp hget).1

theorem latest_max (hlog : LawfulLog member log) :
    ∃ item, latest log key = some item ∧ revision ≤ item.revision := by
  obtain ⟨entry, hget, hkey, hrev⟩ := h
  induction log using List.reverseRecOn generalizing position with
  | nil => cases hget
  | append_singleton log last ih =>
    rw [latest_append]
    by_cases hlast : last.item.key = key
    · rw [if_pos hlast]
      refine ⟨last.item, rfl, ?_⟩
      have hend : LoggedAt (log ++ [last]) log.length key last.item.revision :=
        ⟨last, getElem?_concat_length, hlast, rfl⟩
      have hposn : position < (log ++ [last]).length := (List.getElem?_eq_some_iff.mp hget).1
      rw [length_append, length_singleton] at hposn
      rcases Nat.lt_or_ge position log.length with hearlier | hlater
      · exact Nat.le_of_lt (hlog.rising _ _ _ _ _ hearlier ⟨entry, hget, hkey, hrev⟩ hend)
      have hsame : position = log.length := by omega
      rw [hsame, getElem?_concat_length] at hget
      cases hget
      exact Nat.le_of_eq hrev.symm
    · rw [if_neg hlast]
      have hposn : position < (log ++ [last]).length := (List.getElem?_eq_some_iff.mp hget).1
      rw [length_append, length_singleton] at hposn
      rcases Nat.lt_or_ge position log.length with hearlier | hlater
      · rw [getElem?_append_left hearlier] at hget
        refine ih ⟨fun entry hmem => hlog.sessions entry (mem_append_left _ hmem),
          fun entry hmem => hlog.positive entry (mem_append_left _ hmem),
          fun entry hmem => hlog.owned entry (mem_append_left _ hmem),
          fun _ _ _ _ _ hlt hone hother => hlog.rising _ _ _ _ _ hlt (hone.mono _) (hother.mono _),
          fun entry hmem => hlog.puts entry (mem_append_left _ hmem),
          fun entry hmem => hlog.others entry (mem_append_left _ hmem)⟩ hget
      · have hsame : position = log.length := by omega
        rw [hsame, getElem?_concat_length] at hget
        cases hget
        exact absurd hkey hlast

end

theorem LawfulLog.append (h : LawfulLog member log)
    (hentry : lawfulEntry member log entry = true) : LawfulLog member (log ++ [entry]) := by
  simp only [lawfulEntry, and_eq_true, decide_eq_true_eq] at hentry
  obtain ⟨⟨⟨⟨hsess, hpositive⟩, hlatest⟩, howned⟩, hchange⟩ := hentry
  refine ⟨?_, ?_, ?_, ?_, ?_, ?_⟩
  · intro other hmem
    rcases mem_snoc.mp hmem with hold | rfl
    · exact h.sessions other hold
    · exact hsess
  · intro other hmem
    rcases mem_snoc.mp hmem with hold | rfl
    · exact h.positive other hold
    · exact hpositive
  · intro other hmem
    rcases mem_snoc.mp hmem with hold | rfl
    · exact h.owned other hold
    · exact howned
  · rintro earlier later key revision revision' hlt ⟨first, hfirst, hkey, rfl⟩
      ⟨second, hsecond, hkey', rfl⟩
    have hbound : later < (log ++ [entry]).length := (List.getElem?_eq_some_iff.mp hsecond).1
    rw [length_append, length_singleton] at hbound
    rw [getElem?_append_left (by omega)] at hfirst
    rcases Nat.lt_or_ge later log.length with hold | hlast
    · rw [getElem?_append_left hold] at hsecond
      exact h.rising _ _ _ _ _ hlt ⟨first, hfirst, hkey, rfl⟩ ⟨second, hsecond, hkey', rfl⟩
    have hsame : later = log.length := by omega
    rw [hsame, getElem?_concat_length] at hsecond
    cases hsecond
    obtain ⟨item, hitem, hle⟩ := latest_max ⟨first, hfirst, hkey, rfl⟩ h
    rw [hkey', hitem] at hlatest
    have hnewer := of_decide_eq_true hlatest
    omega
  · intro other hmem item hput
    rcases mem_append.mp hmem with hold | hnew
    · exact h.puts other hold item hput
    cases mem_singleton.mp hnew
    rw [hput] at hchange
    exact of_decide_eq_true hchange
  · intro other hmem hnone
    rcases mem_append.mp hmem with hold | hnew
    · exact h.others other hold hnone
    cases mem_singleton.mp hnew
    cases hput : entry.change with
    | put item => exact absurd hput (hnone item)
    | output | archived =>
      rw [hput] at hchange
      exact of_decide_eq_true hchange

theorem LawfulLog.position_le (h : LawfulLog member log) {first second : Nat}
    {revision' : Nat} (hfirst : LoggedAt log first key revision)
    (hsecond : LoggedAt log second key revision') (hle : revision ≤ revision') : first ≤ second := by
  by_contra hlt
  have hless := h.rising _ _ _ _ _ (Nat.lt_of_not_le hlt) hsecond hfirst
  omega

end Log

/-! ## What the store holds -/

section Genuine

/-- The item is the entity as the server had it once, or a fallback tab. Of a
terminal whose events were missed only the revision is certain. -/
structure Genuine (membership : Membership) (log : List LogEntry) (item : Item) : Prop where
  session : item.sessionId = membership.sessionOf item.key
  owned : membership.ownsFallback item.key = true
  logged : item.revision = 0 ∧ item.archivedAt = none ∨
    ∃ (position : Nat) (entry : LogEntry), log[position]? = some entry ∧ entry.item.key = item.key ∧
      entry.item.revision = item.revision ∧ (item.key.kind = .tab → entry.item = item)

theorem Genuine.mono (h : Genuine member log item) (more : List LogEntry) :
    Genuine member (log ++ more) item := by
  refine ⟨h.session, h.owned, ?_⟩
  rcases h.logged with hzero | ⟨position, entry, hget, hrest⟩
  · exact .inl hzero
  refine .inr ⟨position, entry, ?_, hrest⟩
  rw [getElem?_append_left (List.getElem?_eq_some_iff.mp hget).1]
  exact hget

theorem ownsFallback_iff (hkind : key.kind = .session) :
    member.ownsFallback key = true ↔ member.sessionOf (fallbackKey key.id) = key.id := by
  simp [Membership.ownsFallback, hkind]

theorem Genuine.fallback {session : Item} (h : Genuine member log session)
    (hkind : session.key.kind = .session) : Genuine member log (fallbackTab session) :=
  ⟨((ownsFallback_iff hkind).mp h.owned).symm, rfl, .inl ⟨rfl, rfl⟩⟩

theorem genuine_latest (hlog : LawfulLog member log) {moment : Nat}
    (h : latest (log.take moment) key = some item) : Genuine member log item := by
  obtain ⟨hkey, position, entry, hget, rfl⟩ := latest_some h
  have hentry : log[position]? = some entry := by
    have hlt := (List.getElem?_eq_some_iff.mp hget).1
    rw [getElem?_take_of_lt (by rw [length_take] at hlt; omega)] at hget
    exact hget
  exact ⟨hlog.sessions entry (mem_of_getElem? hentry),
    hlog.owned entry (mem_of_getElem? hentry),
    .inr ⟨position, entry, hentry, rfl, rfl, fun _ => rfl⟩⟩

theorem Genuine.open (h : Genuine member log item) (hlog : LawfulLog member log)
    (htab : item.key.kind = .tab) {applied : Applied} (hkey : item.key = applied.key)
    (hlogged : LoggedAt log applied.position applied.key applied.revision)
    (hrev : applied.revision ≤ item.revision)
    (hvis : VisibleSince member log applied) : item.archivedAt = none := by
  rcases h.logged with ⟨-, hopen⟩ | ⟨position, entry, hget, hentryKey, hentryRevision, hwhole⟩
  · exact hopen
  have hlater : applied.position ≤ position := hlog.position_le hlogged
    ⟨entry, hget, hentryKey.trans hkey, hentryRevision⟩ hrev
  have hlt := (List.getElem?_eq_some_iff.mp hget).1
  have hshown := hvis (position + 1) (by omega) hlt
  have htake : log.take (position + 1) = log.take position ++ [entry] := by
    rw [take_add_one, hget]
    rfl
  rw [htake] at hshown
  simp only [visible, latest_append, and_eq_true] at hshown
  rw [if_pos (hentryKey.trans hkey), hwhole htab] at hshown
  exact isNone_iff_eq_none.mp hshown.1

theorem genuine_shown (hlog : LawfulLog member log) {applied : Applied} {revision : Nat}
    (hlogged : LoggedAt log applied.position applied.key applied.revision)
    (hvis : VisibleSince member log applied) (hle : applied.revision ≤ revision) :
    Shown (Genuine member log) applied.key revision := by
  intro item owner hitem howner hkind hkey hfallback hrev
  have htab : item.key.kind = .tab := by
    rw [hkey, ← hfallback]
    rfl
  have hopen := hitem.open hlog htab hkey hlogged (Nat.le_trans hle hrev) hvis
  have hsess : item.sessionId = owner.key.id := by
    rw [hitem.session, hkey, ← hfallback]
    exact (ownsFallback_iff hkind).mp howner.owned
  simp [Item.visibleTabOf, htab, hopen, hsess]

end Genuine

/-! ## Runs -/

section Runs

variable {membership : Membership} {world world' : UpdatesWorld} {action : UpdatesAction}

/-- An outstanding request: its baseline is what the store held when it was
issued, its reply a correct snapshot taken since, and what the events since it
brought is in the store. -/
structure RequestSound (membership : Membership) (world : UpdatesWorld) (request : MuxRequest) :
    Prop where
  issued : request.issuedAt ≤ world.log.length
  baseline : ∀ key revision, request.baseline.get? key = some revision → revision = 0 ∨
    ∃ position < request.issuedAt, LoggedAt world.log position key revision
  before : ∀ applied ∈ world.applied.take request.appliedBefore, applied.position < request.issuedAt
  applied : request.appliedBefore ≤ world.applied.length
  reply : ∀ moment reply, request.reply = some (moment, reply) → request.issuedAt ≤ moment ∧
    moment ≤ world.log.length ∧
      correctReply membership (world.log.take moment) request.kind reply = true
  tracked : ∀ applied ∈ world.applied.drop request.appliedBefore,
    VisibleSince membership world.log applied → world.store.Has applied.key applied.revision

structure UpdatesSound (membership : Membership) (world : UpdatesWorld) : Prop where
  log : LawfulLog membership world.log
  keyed : world.store.Keyed
  genuine : ∀ key item, world.store.items.get? key = some item → Genuine membership world.log item
  applied : ∀ applied ∈ world.applied,
    LoggedAt world.log applied.position applied.key applied.revision
  requests : ∀ id request, world.requests.get? id = some request →
    RequestSound membership world request
  outcomes : NothingLost membership world

theorem VisibleSince.shorten {log : List LogEntry} {applied : Applied} (more : List LogEntry)
    (h : VisibleSince membership (log ++ more) applied) : VisibleSince membership log applied := by
  intro moment hafter hle
  have hshown := h moment hafter (by rw [length_append]; omega)
  rw [take_append_of_le_length hle] at hshown
  exact hshown

theorem RequestSound.store {request : MuxRequest} (h : RequestSound membership world request)
    {store : MuxSessionStore} (hlog : world'.log = world.log) (happl : world'.applied = world.applied)
    (hstore : world'.store = store) (hkeeps : ∀ applied ∈ world.applied.drop request.appliedBefore,
      VisibleSince membership world.log applied →
        world.store.Has applied.key applied.revision → store.Has applied.key applied.revision) :
    RequestSound membership world' request := by
  obtain ⟨hiss, hbaseline, hbef, hlength, hreply, htracked⟩ := h
  refine ⟨?_, ?_, ?_, ?_, ?_, ?_⟩
  · rw [hlog]
    exact hiss
  · rw [hlog]
    exact hbaseline
  · rw [happl]
    exact hbef
  · rw [happl]
    exact hlength
  · rw [hlog]
    exact hreply
  · rw [hlog, happl, hstore]
    exact fun applied hmem hvis => hkeeps applied hmem hvis (htracked applied hmem hvis)

section

variable (h : UpdatesSound membership world)
include h

theorem UpdatesSound.mutate {entry : LogEntry}
    (hentry : lawfulEntry membership world.log entry = true) :
    UpdatesSound membership { world with log := world.log ++ [entry] } := by
  refine ⟨h.log.append hentry, h.keyed, fun key item hget => (h.genuine key item hget).mono _,
    fun applied hmem => (h.applied applied hmem).mono _, fun id request hget => ?_, h.outcomes⟩
  obtain ⟨hiss, hbaseline, hbef, hlength, hreply, htracked⟩ := h.requests id request hget
  refine ⟨?_, ?_, hbef, hlength, ?_, ?_⟩
  · rw [length_append]
    omega
  · intro key revision hrev
    rcases hbaseline key revision hrev with hzero | ⟨position, hlt, hlogged⟩
    · exact .inl hzero
    · exact .inr ⟨position, hlt, hlogged.mono _⟩
  · intro moment reply hsome
    obtain ⟨hafter, hle, hcorrect⟩ := hreply moment reply hsome
    refine ⟨hafter, by rw [length_append]; omega, ?_⟩
    rw [take_append_of_le_length hle]
    exact hcorrect
  · exact fun applied hmem hvis => htracked applied hmem (hvis.shorten [entry])

theorem apply_genuine {entry : LogEntry}
    (hentry : entry ∈ world.log) {key : EntityKey} {item : Item}
    (hget : (world.store.apply entry.event).items.get? key = some item) :
    item.key = key ∧ Genuine membership world.log item := by
  obtain ⟨position, hposn⟩ := mem_iff_getElem?.mp hentry
  rcases apply_from hget with hold | ⟨hkey, hput | ⟨hother, old, hold, hchanged⟩⟩
  · exact ⟨h.keyed key item hold, h.genuine key item hold⟩
  · cases h.log.puts entry hentry item hput
    exact ⟨hkey.symm, h.log.sessions entry hentry, h.log.owned entry hentry,
      .inr ⟨position, entry, hposn, rfl, rfl, fun _ => rfl⟩⟩
  -- a terminal that is changed in place has the revision of the event
  obtain ⟨hsameKey, hsameSession, hrev⟩ := hchanged
  have holdKey := h.keyed key old hold
  have hitemKey : item.key = entry.item.key := (hsameKey.trans holdKey).trans hkey
  have hgenuine := h.genuine key old hold
  refine ⟨hsameKey.trans holdKey, ?_, ?_,
    .inr ⟨position, entry, hposn, hitemKey.symm, hrev.symm, ?_⟩⟩
  · rw [hsameSession, hsameKey]
    exact hgenuine.session
  · rw [hsameKey]
    exact hgenuine.owned
  · intro htab
    rw [hitemKey, h.log.others entry hentry hother] at htab
    cases htab

theorem UpdatesSound.deliver {entry : LogEntry}
    (hentry : world.log[world.delivered]? = some entry) :
    UpdatesSound membership (world.deliver entry) := by
  have hmem := mem_of_getElem? hentry
  have hput : ∀ other, entry.event.change = .put other → other.revision = entry.event.revision := by
    intro other hput
    rw [h.log.puts entry hmem other hput]
    rfl
  have hkeeps : ∀ key revision, world.store.Has key revision →
      (world.store.apply entry.event).Has key revision := by
    rintro key revision ⟨item, hget, hle⟩
    obtain ⟨other, hother, hnewer⟩ := apply_keeps hget hput
    exact ⟨other, hother, Nat.le_trans hle hnewer⟩
  -- an event that took effect is in the store
  have heffect : ∀ applied ∈ (if UpdatesWorld.takesEffect world.store entry.event then
      [(⟨entry.item.key, entry.item.revision, world.delivered⟩ : Applied)] else []),
      LoggedAt world.log applied.position applied.key applied.revision ∧
        (world.store.apply entry.event).Has applied.key applied.revision := by
    intro applied happl
    split at happl
    · rename_i htakes
      cases mem_singleton.mp happl
      refine ⟨⟨entry, hentry, rfl, rfl⟩, ?_⟩
      simp only [UpdatesWorld.takesEffect, and_eq_true, Option.any_eq_true] at htakes
      obtain ⟨-, item, hget, hrev⟩ := htakes
      exact ⟨item, hget, Nat.le_of_eq (of_decide_eq_true hrev).symm⟩
    · cases happl
  refine ⟨h.log, fun key item hget => (apply_genuine h hmem hget).1,
    fun key item hget => (apply_genuine h hmem hget).2, ?_, ?_, h.outcomes⟩
  · intro applied happl
    rcases mem_append.mp happl with hold | hnew
    · exact h.applied applied hold
    · exact (heffect applied hnew).1
  · intro id request hget
    obtain ⟨hiss, hbaseline, hbef, hlength, hreply, htracked⟩ := h.requests id request hget
    refine ⟨hiss, hbaseline, ?_, ?_, hreply, ?_⟩
    · intro applied happl
      apply hbef
      simp only [UpdatesWorld.deliver, take_append_of_le_length hlength] at happl
      exact happl
    · simp only [UpdatesWorld.deliver, length_append]
      omega
    · intro applied happl hvis
      simp only [UpdatesWorld.deliver, drop_append_of_le_length hlength] at happl
      rcases mem_append.mp happl with hold | hnew
      · exact hkeeps _ _ (htracked applied hold hvis)
      · exact (heffect applied hnew).2

end

/-! ### Replies -/

section Reply

variable {request : MuxRequest} {moment : Nat} {reply : Reply} {applied : Applied}

theorem correctReply_spec {log : List LogEntry} {kind : RequestKind}
    (h : correctReply membership log kind reply = true) :
    kind.fits reply = true ∧ (∀ item ∈ reply.items, latest log item.key = some item) ∧
      ∀ entry ∈ log, kind.covers membership entry.item.key = true →
        visible membership log entry.item.key = true →
          (entry.item.key.kind = .tab → reply.hasTabs = true) →
            entry.item.key ∈ reply.items.map Item.key := by
  simp only [correctReply, and_eq_true, List.all_eq_true, decide_eq_true_eq, or_eq_true,
    not_eq_true', contains_iff_mem] at h
  obtain ⟨⟨hfits, hitems⟩, hcomplete⟩ := h
  refine ⟨hfits, hitems, fun entry hmem hcovers hvis htabs => ?_⟩
  rcases hcomplete entry hmem with hfalse | hlisted
  · exfalso
    rw [hcovers, hvis, Bool.true_and, Bool.true_and, or_eq_false_iff] at hfalse
    obtain ⟨hkind, hnone⟩ := hfalse
    have htab : entry.item.key.kind = .tab := by simpa using hkind
    rw [htabs htab] at hnone
    cases hnone
  · exact hlisted

section

variable (h : UpdatesSound membership world)
include h

theorem reply_genuine {kind : RequestKind}
    (hcorrect : correctReply membership (world.log.take moment) kind reply = true) :
    ∀ item ∈ reply.items, Genuine membership world.log item := fun item hmem =>
  genuine_latest h.log ((correctReply_spec hcorrect).2.1 item hmem)

theorem reply_lists {kind : RequestKind}
    (hcorrect : correctReply membership (world.log.take moment) kind reply = true)
    (hmoment : moment ≤ world.log.length) (happl : applied ∈ world.applied)
    (hvis : VisibleSince membership world.log applied) (hseen : applied.position < moment)
    (hcovers : kind.covers membership applied.key = true)
    (htabs : applied.key.kind = .tab → reply.hasTabs = true) :
    applied.key ∈ reply.items.map Item.key := by
  obtain ⟨entry, hget, hkey, -⟩ := h.applied applied happl
  have hmem : entry ∈ world.log.take moment := by
    apply mem_of_getElem? (i := applied.position)
    rw [getElem?_take_of_lt hseen]
    exact hget
  rw [← hkey] at hcovers htabs ⊢
  refine (correctReply_spec hcorrect).2.2 entry hmem hcovers ?_ htabs
  rw [hkey]
  exact hvis moment hseen hmoment

theorem UpdatesSound.value :
    ∀ item ∈ world.store.items.values, Genuine membership world.log item := by
  intro item hmem
  obtain ⟨key, hget⟩ := mem_values.mp hmem
  exact h.genuine key item hget

/-- A list of all sessions drops no entity that has changed since its request:
what it does not list is newer than the baseline. -/
theorem merge_snapshots
    (hreq : RequestSound membership world request) {items : List Item} {hasTabs : Bool}
    (hreply : request.reply = some (moment, .snapshots items hasTabs))
    (happl : applied ∈ world.applied) (hvis : VisibleSince membership world.log applied)
    (hhas : world.store.Has applied.key applied.revision) :
    (world.store.mergeSnapshot items hasTabs request.baseline).Has applied.key applied.revision := by
  obtain ⟨hafter, hmoment, hcorrect⟩ := hreq.reply moment _ hreply
  obtain ⟨item, hget, hle⟩ := hhas
  have hkind : request.kind = .listSessions := by
    have hfits := (correctReply_spec hcorrect).1
    cases hkind : request.kind with
    | listSessions => rfl
    | _ =>
      rw [hkind] at hfits
      cases hfits
  have hlogged := h.applied applied happl
  have hkept : applied.key ∈ items.map Item.key ∨
      (request.baseline.get? applied.key).getD 0 < item.revision ∨
        applied.key.kind = .tab ∧ hasTabs = false := by
    by_cases hlisted : applied.key ∈ items.map Item.key
    · exact .inl hlisted
    by_cases htab : applied.key.kind = .tab ∧ hasTabs = false
    · exact .inr (.inr htab)
    -- the reply was taken before the event
    have hlate : moment ≤ applied.position := by
      by_contra hseen
      apply hlisted
      refine reply_lists h hcorrect hmoment happl hvis (Nat.lt_of_not_le hseen) ?_ ?_
      · rw [hkind]
        rfl
      · intro hkindTab
        exact of_not_eq_false fun hnone => htab ⟨hkindTab, hnone⟩
    have hpositive : 0 < applied.revision := by
      obtain ⟨entry, hentry, -, hrev⟩ := hlogged
      rw [← hrev]
      exact h.log.positive entry (mem_of_getElem? hentry)
    refine .inr (.inl ?_)
    cases hbaseline : request.baseline.get? applied.key with
    | none => exact Nat.lt_of_lt_of_le hpositive hle
    | some revision =>
      rw [getD_some]
      rcases hreq.baseline _ _ hbaseline with rfl | ⟨position, hearly, hknown⟩
      · exact Nat.lt_of_lt_of_le hpositive hle
      by_contra hold
      have horder := h.log.position_le hlogged hknown (Nat.le_trans hle (Nat.le_of_not_lt hold))
      omega
  obtain ⟨other, hother, hnewer⟩ := merge_keeps h.keyed h.value hget
    (reply_genuine h hcorrect) hkept (genuine_shown h.log hlogged hvis hle)
  exact ⟨other, hother, Nat.le_trans hle hnewer⟩

end

theorem coversChanges_spec {store : MuxSessionStore} {since : List Applied} {session : Item}
    {terminals : List Item} {tabs : Option (List Item)}
    (h : (Reply.session session terminals tabs).coversChanges membership store since = true)
    (hmem : applied ∈ since) (hmember : membership.sessionOf applied.key = session.key.id)
    (hkind : applied.key.kind ≠ .session) (htabs : applied.key.kind = .tab → tabs.isSome = true)
    {item : Item} (hget : store.items.get? applied.key = some item) (hopen : item.archivedAt = none) :
    applied.key ∈ (session :: (terminals ++ tabs.getD [])).map Item.key := by
  have hall := List.all_eq_true.mp h applied hmem
  simp only [hget, any_some, hopen, isNone_none, Bool.and_true, or_eq_true,
    not_eq_true', hmember, decide_true, Bool.true_and, decide_eq_true hkind,
    contains_iff_mem] at hall
  rcases hall with hnone | hlisted
  · exfalso
    rw [or_eq_false_iff] at hnone
    obtain ⟨htab, hsome⟩ := hnone
    rw [htabs (by simpa using htab)] at hsome
    cases hsome
  · exact hlisted

section

variable (h : UpdatesSound membership world)
include h

section

variable (hreq : RequestSound membership world request)
include hreq

/-- A session's reply drops no such entity where it lists those that changed
since its request. -/
theorem merge_session
    {session : Item} {terminals : List Item}
    {tabs : Option (List Item)} (hreply : request.reply = some (moment, .session session terminals tabs))
    (hcovering : (Reply.session session terminals tabs).coversChanges membership world.store
      (world.applied.drop request.appliedBefore) = true)
    (happl : applied ∈ world.applied) (hvis : VisibleSince membership world.log applied)
    (hhas : world.store.Has applied.key applied.revision) :
    (world.store.replaceSession session terminals tabs).Has applied.key applied.revision := by
  obtain ⟨hafter, hmoment, hcorrect⟩ := hreq.reply moment _ hreply
  obtain ⟨item, hget, hle⟩ := hhas
  obtain ⟨hfits, -⟩ := correctReply_spec hcorrect
  obtain ⟨sessionId, hkind, hsess⟩ : ∃ sessionId, request.kind = .getSession sessionId ∧
      session.key = ⟨.session, sessionId⟩ := by
    cases hkind : request.kind with
    | getSession sessionId =>
      rw [hkind] at hfits
      simp only [RequestKind.fits, and_eq_true] at hfits
      exact ⟨sessionId, rfl, of_decide_eq_true hfits.1.1⟩
    | _ =>
      rw [hkind] at hfits
      cases hfits
  have hkept : item.sessionId ≠ session.key.id ∨
      applied.key ∈ (session :: (terminals ++ tabs.getD [])).map Item.key ∨
        applied.key.kind ≠ .session ∧
          (item.archivedAt.isSome = true ∨ applied.key.kind = .tab ∧ tabs = none) := by
    by_cases hother : item.sessionId ≠ session.key.id
    · exact .inl hother
    by_cases hlisted : applied.key ∈ (session :: (terminals ++ tabs.getD [])).map Item.key
    · exact .inr (.inl hlisted)
    have hmember : membership.sessionOf applied.key = session.key.id := by
      have hown := (h.genuine _ item hget).session
      rw [h.keyed _ item hget] at hown
      rw [← hown]
      exact not_not.mp hother
    have hnot : applied.key.kind ≠ .session := by
      intro hsessionKind
      apply hlisted
      have hid : applied.key.id = sessionId := by
        have hself := membership.session applied.key.id
        rw [← hsessionKind] at hself
        rw [← hself, hmember, hsess]
      have hkey : applied.key = session.key := by
        rw [hsess, ← hid, ← hsessionKind]
      rw [hkey]
      exact mem_cons_self
    refine .inr (.inr ⟨hnot, ?_⟩)
    by_cases htab : applied.key.kind = .tab ∧ tabs = none
    · exact .inr htab
    have htabs : applied.key.kind = .tab → tabs.isSome = true := fun hkindTab =>
      isSome_iff_ne_none.mpr fun hnone => htab ⟨hkindTab, hnone⟩
    left
    by_contra hopen
    apply hlisted
    rcases mem_append.mp ((take_append_drop request.appliedBefore world.applied).symm ▸
      happl) with hbef | hsince
    · refine reply_lists h hcorrect hmoment happl hvis
        (Nat.lt_of_lt_of_le (hreq.before applied hbef) hafter) ?_ htabs
      rw [hkind]
      exact decide_eq_true (hmember.trans (by rw [hsess]))
    · exact coversChanges_spec hcovering hsince hmember hnot htabs hget
        (not_isSome_iff_eq_none.mp hopen)
  obtain ⟨other, hother, hnewer⟩ := replaceSession_keeps h.keyed h.value hget
    (reply_genuine h hcorrect) hkept (genuine_shown h.log (h.applied applied happl) hvis hle)
  exact ⟨other, hother, Nat.le_trans hle hnewer⟩

theorem merge_entity {item : Item}
    (hreply : request.reply = some (moment, .entity item))
    (happl : applied ∈ world.applied) (hvis : VisibleSince membership world.log applied)
    (hhas : world.store.Has applied.key applied.revision) :
    (UpdatesWorld.merge world.store request (.entity item)).Has applied.key applied.revision := by
  obtain ⟨-, -, hcorrect⟩ := hreq.reply moment _ hreply
  obtain ⟨current, hget, hle⟩ := hhas
  have hterm : (world.store.replaceMuxTerminal item).Has applied.key applied.revision := by
    obtain ⟨other, hother, hnewer⟩ := replaceMuxTerminal_keeps h.keyed h.value hget
      (reply_genuine h hcorrect item (mem_singleton.mpr rfl))
      (genuine_shown h.log (h.applied applied happl) hvis hle)
    exact ⟨other, hother, Nat.le_trans hle hnewer⟩
  have hclosed : (if item.key.kind = .tab then world.store.replaceTab item
      else world.store.replaceMuxTerminal item).Has applied.key applied.revision := by
    split
    · obtain ⟨other, hother, hnewer⟩ := replaceTab_keeps hget item
      exact ⟨other, hother, Nat.le_trans hle hnewer⟩
    · exact hterm
  unfold UpdatesWorld.merge
  simp only
  cases request.kind with
  | getTerminal key =>
    simp only
    unfold replaceMuxTerminalIfNewer
    split
    · exact ⟨current, hget, hle⟩
    · exact hterm
  | _ => exact hclosed

theorem merge_items
    (hreply : request.reply = some (moment, reply)) :
    ∀ key item, (UpdatesWorld.merge world.store request reply).items.get? key = some item →
      item.key = key ∧ Genuine membership world.log item := by
  obtain ⟨-, -, hcorrect⟩ := hreq.reply moment _ hreply
  have hgenuine := reply_genuine h hcorrect
  have hfallback : ∀ owner, Genuine membership world.log owner → owner.key.kind = .session →
      Genuine membership world.log (fallbackTab owner) := fun _ howner hkind => howner.fallback hkind
  intro key item hget
  cases reply with
  | snapshots items hasTabs =>
    exact merge_known h.value hfallback hgenuine hget
  | session session terminals tabs =>
    exact replaceSession_known h.value hfallback hgenuine hget
  | entity entity =>
    have hentity := hgenuine entity (mem_singleton.mpr rfl)
    have hterm : (world.store.replaceMuxTerminal entity).items.get? key = some item →
        item.key = key ∧ Genuine membership world.log item :=
      replaceMuxTerminal_known h.value hfallback h.keyed hentity
    have hclosed : (if entity.key.kind = .tab then world.store.replaceTab entity
        else world.store.replaceMuxTerminal entity).items.get? key = some item →
        item.key = key ∧ Genuine membership world.log item := by
      intro hget
      split at hget
      · exact replaceTab_known h.value h.keyed hentity hget
      · exact hterm hget
    unfold UpdatesWorld.merge at hget
    simp only at hget
    cases hkind : request.kind with
    | getTerminal terminal =>
      rw [hkind] at hget
      simp only at hget
      unfold replaceMuxTerminalIfNewer at hget
      split at hget
      · exact ⟨h.keyed key item hget, h.genuine key item hget⟩
      · exact hterm hget
    | _ =>
      rw [hkind] at hget
      exact hclosed hget

end

end

end Reply

/-! ### Steps -/

section

variable (h : UpdatesSound membership world)
include h

theorem UpdatesSound.process {id moment : Nat}
    {request : MuxRequest} {reply : Reply} (hget : world.requests.get? id = some request)
    (hreply : request.reply = some (moment, reply))
    (hcovering : Covering membership world (.process id)) :
    UpdatesSound membership (world.process id request reply) := by
  have hreq := h.requests id request hget
  -- no event of any outstanding request is lost
  have hkeeps : ∀ applied ∈ world.applied, VisibleSince membership world.log applied →
      world.store.Has applied.key applied.revision →
        (UpdatesWorld.merge world.store request reply).Has applied.key applied.revision := by
    intro applied happl hvis hhas
    cases reply with
    | snapshots items hasTabs => exact merge_snapshots h hreq hreply happl hvis hhas
    | session session terminals tabs =>
      exact merge_session h hreq hreply (hcovering request hget _ hreply) happl hvis hhas
    | entity item => exact merge_entity h hreq hreply happl hvis hhas
  have hitems := merge_items h hreq hreply
  refine ⟨h.log, fun key item hitem => (hitems key item hitem).1,
    fun key item hitem => (hitems key item hitem).2, h.applied, ?_, ?_⟩
  · intro other found hfound
    simp only [UpdatesWorld.process, get?_shiftRemove] at hfound
    split at hfound
    · cases hfound
    · exact (h.requests other found hfound).store rfl rfl rfl fun applied happl hvis hhas =>
        hkeeps applied (mem_of_mem_drop happl) hvis hhas
  · intro outcome houtcome applied happl hvis
    rcases mem_append.mp houtcome with hearlier | hnew
    · exact h.outcomes outcome hearlier applied happl hvis
    cases mem_singleton.mp hnew
    exact hkeeps applied (mem_of_mem_drop happl) hvis (hreq.tracked applied happl hvis)

theorem UpdatesSound.put (id nextRequest : Nat)
    {request : MuxRequest} (hreq : RequestSound membership world request) : UpdatesSound membership
      { world with requests := world.requests.insert id request, nextRequest := nextRequest } := by
  refine { h with requests := ?_ }
  have hkeep : ∀ found, RequestSound membership world found → RequestSound membership
      { world with requests := world.requests.insert id request, nextRequest := nextRequest } found :=
    fun found hfound => hfound.store rfl rfl rfl fun _ _ _ hhas => hhas
  intro other found hfound
  simp only [get?_insert] at hfound
  split at hfound
  · cases hfound
    exact hkeep request hreq
  · exact hkeep found (h.requests other found hfound)

theorem UpdatesSound.issue (kind : RequestKind) : UpdatesSound membership (world.issue kind) := by
  apply h.put
  refine ⟨le_rfl, ?_, ?_, le_rfl, (fun _ _ hnone => by cases hnone), ?_⟩
  · intro key revision hrev
    obtain ⟨item, hget, rfl⟩ := captureRevisions_from h.keyed hrev
    rcases (h.genuine key item hget).logged with ⟨hzero, -⟩ | ⟨position, entry, hentry, hkey, hsame, -⟩
    · exact .inl hzero
    · exact .inr ⟨position, (List.getElem?_eq_some_iff.mp hentry).1, entry, hentry,
        hkey.trans (h.keyed key item hget), hsame⟩
  · exact fun applied happl => (h.applied applied (mem_of_mem_take happl)).lt
  · intro applied happl
    rw [drop_length] at happl
    cases happl

theorem updates_step (hcovering : Covering membership world action)
    (hstep : (updatesSystem membership).step world action = some world') :
    UpdatesSound membership world' := by
  cases action with
  | mutate entry =>
    obtain ⟨hentry, hnext⟩ := ite_none_right_eq_some.mp hstep
    cases hnext
    exact h.mutate hentry
  | deliver =>
    obtain ⟨entry, hentry, rfl⟩ := map_eq_some_iff.mp hstep
    exact h.deliver hentry
  | skip =>
    obtain ⟨entry, -, rfl⟩ := map_eq_some_iff.mp hstep
    exact { h with
      requests := fun id request hget => (h.requests id request hget).store rfl rfl rfl fun _ _ _ hhas => hhas }
  | issue kind =>
    cases hstep
    exact h.issue kind
  | answer id reply =>
    obtain ⟨request, hget, hnext⟩ := bind_eq_some_iff.mp hstep
    obtain ⟨hcorrect, hnext⟩ := ite_none_right_eq_some.mp hnext
    cases hnext
    rw [and_eq_true] at hcorrect
    have hreq := h.requests id request hget
    apply h.put
    refine { hreq with reply := ?_ }
    intro moment other hsome
    cases hsome
    refine ⟨hreq.issued, le_rfl, ?_⟩
    rw [take_length]
    exact hcorrect.1
  | fail id =>
    obtain ⟨request, hget, rfl⟩ := map_eq_some_iff.mp hstep
    have hreq := h.requests id request hget
    have hrem : UpdatesSound membership
        { world with requests := world.requests.shiftRemove id } := by
      refine { h with requests := ?_ }
      intro other found hfound
      exact (h.requests other found (get?_shiftRemove_eq_some.mp hfound).2).store rfl rfl rfl
        fun _ _ _ hhas => hhas
    unfold UpdatesWorld.fail
    split
    · apply h.put
      exact { hreq with reply := (fun _ _ hnone => by cases hnone) }
    · exact hrem
  | process id =>
    obtain ⟨request, hget, hnext⟩ := bind_eq_some_iff.mp hstep
    obtain ⟨⟨moment, reply⟩, hreply, rfl⟩ := map_eq_some_iff.mp hnext
    exact h.process hget hreply hcovering

end

theorem updates_sound (hrun : (updatesSystem membership).Run (Covering membership) world) :
    UpdatesSound membership world := by
  apply hrun.invariant
  · rintro start rfl
    refine ⟨⟨?_, ?_, ?_, ?_, ?_, ?_⟩, ?_, ?_, ?_, ?_, ?_⟩
    · exact forall_mem_nil _
    · exact forall_mem_nil _
    · exact forall_mem_nil _
    · rintro _ _ _ _ _ - ⟨_, hget, -⟩
      cases hget
    · exact forall_mem_nil _
    · exact forall_mem_nil _
    · exact fun _ _ hget => by cases hget
    · exact fun _ _ hget => by cases hget
    · exact forall_mem_nil _
    · exact fun _ _ hget => by cases hget
    · exact forall_mem_nil _
  · exact fun _ _ _ h hcovering hstep => updates_step h hcovering hstep

def oneSession : Membership :=
  ⟨fun key => if key.kind = .session then key.id else "ses-1", fun _ => rfl⟩

def sampleItem (kind : StoreKind) (id : String) : Item := ⟨⟨kind, id⟩, "ses-1", 1, "", none⟩

def createdEntry (kind : StoreKind) (id : String) : LogEntry :=
  ⟨sampleItem kind id, .put (sampleItem kind id)⟩

def sampleSession : Item := sampleItem .session "ses-1"

def sampleTab : Item := sampleItem .tab "tab-1"

def sampleTerminal : Item := sampleItem .muxTerminal "term-1"

/-- The list of sessions is taken before the terminal is created, the session
after it; both arrive when the terminal is known. -/
def sampleUpdates : List UpdatesAction :=
  [.mutate (createdEntry .session "ses-1"), .mutate (createdEntry .tab "tab-1"), .deliver, .deliver,
    .issue .listSessions, .answer 0 (.snapshots [sampleSession, sampleTab] true),
    .issue (.getSession "ses-1"), .mutate (createdEntry .muxTerminal "term-1"), .deliver,
    .answer 1 (.session sampleSession [sampleTerminal] (some [sampleTab])), .process 0, .process 1]

def lostUpdates : List UpdatesAction :=
  [.mutate (createdEntry .session "ses-1"), .mutate (createdEntry .tab "tab-1"), .deliver, .deliver,
    .issue (.getSession "ses-1"), .answer 0 (.session sampleSession [] (some [sampleTab])),
    .mutate (createdEntry .muxTerminal "term-1"), .deliver, .process 0]

end Runs

end Yaade.Mux

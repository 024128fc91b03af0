import Yaade.Connection.Forwarding

/-!
What a starting connection is sent.
-/

namespace Yaade.Connection

open Yaade.Library Yaade.Store Yaade.Runtime Option List

namespace EventWorld

def drop (world : EventWorld) (receiver : Receiver) (rest : List HostEvent) : EventWorld :=
  { world with receiver := some { receiver with pending := rest } }

/-- What a step can do, with what its guards say. -/
inductive Move (lengths : EventArg → Nat) (setup : ConnectionSetup) :
    EventWorld → EventWorld → Prop where
  | background {world} (catalog : PersistedState) (more : List PersistedState)
      (requests : Nat → Program HostEffect (Except RuntimeError MuxReply))
      (hlatest : more = [] ∧ catalog = world.catalog ∨ more = [catalog]) :
      Move lengths setup world
        { world with catalog, catalogs := world.catalogs ++ more, requests }
  | publish {world} (channel : String) (args : List EventArg)
      (requests : Nat → Program HostEffect (Except RuntimeError MuxReply)) :
      Move lengths setup world { world.publish lengths channel args with requests }
  | emitTerminal {world} : Move lengths setup world { world with hub := world.hub.emitTerminal.2 }
  | subscribe {world} (hphase : world.phase = .connecting) :
      Move lengths setup world { world with
        phase := .subscribed, receiver := some ⟨setup.channelCapacity, [], false⟩ }
  | readCursor {world} (hprotocol : setup.protocol = 2) (hphase : world.phase = .subscribed) :
      Move lengths setup world { world with phase := .cursorRead world.hub.sequence }
  | readSessions {world} (cursor : Nat) (hphase : world.phase = .cursorRead cursor) :
      Move lengths setup world { world with
        phase := .serving
        snapshot := some ⟨cursor, listSnapshots world.catalog false, world.catalogs.length⟩
        client := { world.client with lastSequence := cursor } }
  | replay {world} (hprotocol : setup.protocol = 1) (hphase : world.phase = .subscribed) :
      Move lengths setup world (world.replay setup)
  | lagged {world} (receiver : Receiver) (hphase : world.phase = .serving)
      (hreceiver : world.receiver = some receiver) :
      Move lengths setup world
        { world with receiver := some { receiver with lagged := false } }.close
  | skip {world} (receiver : Receiver) (event : HostEvent) (rest : List HostEvent)
      (hphase : world.phase = .serving) (hreceiver : world.receiver = some receiver)
      (hlagged : receiver.lagged = false) (hpend : receiver.pending = event :: rest)
      (hfwd : forwarding setup.protocol (world.snapshot.elim 0 RuntimeSnapshot.cursor)
        setup.deviceId event = .skip) :
      Move lengths setup world (world.drop receiver rest)
  | giveUp {world} (receiver : Receiver) (event : HostEvent) (rest : List HostEvent)
      (hphase : world.phase = .serving) (hreceiver : world.receiver = some receiver)
      (hpend : receiver.pending = event :: rest) :
      Move lengths setup world (world.drop receiver rest).close
  | send {world} (receiver : Receiver) (event outgoing : HostEvent) (rest : List HostEvent)
      (hphase : world.phase = .serving) (hreceiver : world.receiver = some receiver)
      (hlagged : receiver.lagged = false) (hpend : receiver.pending = event :: rest)
      (hfwd : forwarding setup.protocol (world.snapshot.elim 0 RuntimeSnapshot.cursor)
        setup.deviceId event = .send outgoing) :
      Move lengths setup world ((world.drop receiver rest).deliver [outgoing])
  | disconnect {world} : Move lengths setup world world.close

variable {lengths : EventArg → Nat} {setup : ConnectionSetup} {world next : EventWorld}
  {receiver : Receiver}

theorem resume_move (world : EventWorld)
    (request : Nat) (rest : Program HostEffect (Except RuntimeError MuxReply)) :
    Move lengths setup world (world.resume request rest) := by
  have hmove : Move lengths setup world { world with
      catalogs := world.catalogs ++ []
      requests := Function.update world.requests request rest } :=
    .background world.catalog [] _ (.inl ⟨rfl, rfl⟩)
  rw [append_nil] at hmove
  exact hmove

theorem call_move
    {request : Nat} {answers : CallAnswers} (h : world.call lengths request answers = some next) :
    Move lengths setup world next := by
  unfold call at h
  split at h
  · cases h
  · cases h
    exact .background _ _ _ (.inr rfl)
  · cases h
    exact .publish _ _ _
  · cases h
    exact resume_move _ _ _
  · cases h
    exact resume_move _ _ _

theorem recv_some {next : Receiver} {received : Received}
    (h : receiver.recv = some (received, next)) :
    received = .lagged ∧ next = { receiver with lagged := false } ∨
    ∃ event rest, received = .event event ∧ receiver.lagged = false ∧
      receiver.pending = event :: rest ∧ next = { receiver with pending := rest } := by
  unfold Receiver.recv at h
  split at h
  · cases h
    exact .inl ⟨rfl, rfl⟩
  rename_i hlagged
  split at h
  · cases h
  rename_i event rest hpend
  cases h
  exact .inr ⟨event, rest, rfl, by simpa using hlagged, hpend, rfl⟩

theorem receive_move {accepted : Bool} (hphase : world.phase = .serving)
    (h : world.receive setup accepted = some next) : Move lengths setup world next := by
  unfold receive at h
  split at h
  · cases h
  · rename_i receiver' hrecv
    obtain ⟨receiver, hreceiver, hrecv⟩ := bind_eq_some_iff.mp hrecv
    cases h
    rcases recv_some hrecv with ⟨-, rfl⟩ | ⟨_, _, hev, -⟩
    · exact .lagged receiver hphase hreceiver
    · cases hev
  · rename_i event receiver' hrecv
    obtain ⟨receiver, hreceiver, hrecv⟩ := bind_eq_some_iff.mp hrecv
    rcases recv_some hrecv with ⟨hev, -⟩ | ⟨_, rest, hev, hlagged, hpend, rfl⟩
    · cases hev
    cases hev
    simp only at h
    split at h
    · rename_i hfwd
      cases h
      exact .skip receiver event rest hphase hreceiver hlagged hpend hfwd
    · cases h
      exact .giveUp receiver event rest hphase hreceiver hpend
    · rename_i outgoing hfwd
      cases h
      split
      · exact .send receiver event outgoing rest hphase hreceiver hlagged hpend hfwd
      · exact .giveUp receiver event rest hphase hreceiver hpend

theorem step_move {action : WorldAction} (h : world.step lengths setup action = some next) :
    Move lengths setup world next := by
  cases action with
  | call request answers => exact call_move h
  | emit channel args =>
    cases h
    exact .publish channel args world.requests
  | emitTerminal =>
    cases h
    exact .emitTerminal
  | subscribe =>
    obtain ⟨hphase, heq⟩ := ite_none_right_eq_some.mp h
    cases heq
    exact .subscribe hphase
  | readCursor =>
    obtain ⟨⟨hprotocol, hphase⟩, heq⟩ := ite_none_right_eq_some.mp h
    cases heq
    exact .readCursor hprotocol hphase
  | readSessions =>
    unfold step at h
    simp only at h
    split at h
    · rename_i cursor hphase
      cases h
      exact .readSessions cursor hphase
    · cases h
  | replay =>
    obtain ⟨⟨hprotocol, hphase⟩, heq⟩ := ite_none_right_eq_some.mp h
    cases heq
    exact .replay hprotocol hphase
  | receive accepted =>
    obtain ⟨hphase, heq⟩ := ite_none_right_eq_some.mp h
    exact receive_move hphase heq
  | disconnect =>
    cases h
    exact .disconnect

/-! ## What holds of the hub, the catalogs and the receiver -/

def events (world : EventWorld) : List HostEvent := world.emissions.map Emission.event

structure Consistent (world : EventWorld) : Prop where
  retains : world.hub.Retains world.events
  before : ∀ emission ∈ world.emissions, emission.catalogs ≤ world.catalogs.length
  latest : world.catalogs.getLast? = some world.catalog
  pending : ∀ receiver, world.receiver = some receiver →
    ∀ event ∈ receiver.pending, event ∈ world.events
  ordered : ∀ receiver, world.receiver = some receiver →
    receiver.pending.Pairwise fun a b => a.sequence < b.sequence

theorem send_sublist (receiver : Receiver) (event : HostEvent) :
    (receiver.send event).pending.Sublist (receiver.pending ++ [event]) := by
  unfold Receiver.send
  split
  · exact .refl _
  · exact tail_sublist _

theorem send_kept {event : HostEvent} (h : (receiver.send event).lagged = false) :
    receiver.lagged = false ∧ (receiver.send event).pending = receiver.pending ++ [event] := by
  unfold Receiver.send at h ⊢
  split at h
  · rename_i hroom
    rw [if_pos hroom]
    exact ⟨h, rfl⟩
  · cases h

theorem Consistent.drop (h : world.Consistent)
    {event : HostEvent} {rest : List HostEvent} (hreceiver : world.receiver = some receiver)
    (hpend : receiver.pending = event :: rest) : (world.drop receiver rest).Consistent := by
  refine ⟨h.retains, h.before, h.latest, ?_, ?_⟩
  · intro r hr e he
    cases hr
    exact h.pending receiver hreceiver e (hpend ▸ mem_cons_of_mem _ he)
  · intro r hr
    cases hr
    exact (pairwise_cons.mp (hpend ▸ h.ordered receiver hreceiver)).2

theorem events_publish (lengths : EventArg → Nat) (world : EventWorld) (channel : String)
    (args : List EventArg) : (world.publish lengths channel args).events =
      world.events ++ [world.hub.nextEvent channel args] := by
  simp [events, publish, EventHub.emit_event]

theorem Consistent.publish (h : world.Consistent)
    (lengths : EventArg → Nat) (channel : String) (args : List EventArg) :
    (world.publish lengths channel args).Consistent := by
  refine ⟨?_, ?_, h.latest, ?_, ?_⟩
  · rw [events_publish]
    exact h.retains.emit lengths channel args
  · intro emission hemission
    rcases mem_append.mp hemission with hold | hnew
    · exact h.before emission hold
    · rw [mem_singleton.mp hnew]
      exact le_rfl
  · intro r hr e he
    obtain ⟨receiver, hreceiver, rfl⟩ := map_eq_some_iff.mp hr
    rw [events_publish]
    rcases mem_append.mp ((send_sublist _ _).subset he) with hold | hnew
    · exact mem_append_left _ (h.pending receiver hreceiver e hold)
    · exact mem_append_right _ hnew
  · intro r hr
    obtain ⟨receiver, hreceiver, rfl⟩ := map_eq_some_iff.mp hr
    refine List.Pairwise.sublist (send_sublist _ _) ?_
    apply pairwise_append.mpr
    refine ⟨h.ordered receiver hreceiver, pairwise_singleton _ _, ?_⟩
    intro a ha b hb
    rw [mem_singleton.mp hb]
    exact Nat.lt_succ_of_le (h.retains.within a (h.pending receiver hreceiver a ha))

theorem Consistent.step (h : world.Consistent) (hmove : Move lengths setup world next) :
    next.Consistent := by
  cases hmove with
  | background catalog more requests hlatest =>
    refine ⟨h.retains, ?_, ?_, h.pending, h.ordered⟩
    · intro emission hemission
      exact (h.before emission hemission).trans (by simp)
    · rcases hlatest with ⟨rfl, rfl⟩ | rfl
      · simpa using h.latest
      · simp
  | publish channel args requests =>
    have hnext := h.publish lengths channel args
    exact { hnext with }
  | emitTerminal =>
    exact { h with retains := h.retains.emitTerminal }
  | subscribe hphase =>
    refine ⟨h.retains, h.before, h.latest, ?_, ?_⟩
    · intro r hr e he
      cases hr
      cases he
    · intro r hr
      cases hr
      exact List.Pairwise.nil
  | readCursor | readSessions | replay | disconnect => exact { h with }
  | lagged receiver hphase hreceiver =>
    refine ⟨h.retains, h.before, h.latest, ?_, ?_⟩
    · intro r hr e he
      cases hr
      exact h.pending receiver hreceiver e he
    · intro r hr
      cases hr
      exact h.ordered receiver hreceiver
  | skip receiver event rest hphase hreceiver hlagged hpend =>
    exact h.drop hreceiver hpend
  | giveUp receiver event rest hphase hreceiver hpend
  | send receiver event outgoing rest hphase hreceiver hlagged hpend =>
    have hnext := h.drop hreceiver hpend
    exact { hnext with }

theorem Started.consistent (h : world.Started setup) : world.Consistent := by
  obtain ⟨identity, capacity, maxHistoryBytes, hhub⟩ := h.hub
  refine ⟨?_, ?_, ?_, ?_, ?_⟩
  · rw [hhub, events, h.emissions]
    exact EventHub.withLimits_retains identity capacity maxHistoryBytes
  · simp [h.emissions]
  · simp [h.catalogs]
  · simp [h.receiver]
  · simp [h.receiver]

/-- An event the receiver still has for the connection, or the lag that will
end it. -/
def Waiting (world : EventWorld) (event : HostEvent) : Prop :=
  ∃ receiver, world.receiver = some receiver ∧
    (receiver.lagged = true ∨ event ∈ receiver.pending)

variable {world : EventWorld} {setup : ConnectionSetup} {event : HostEvent}

theorem waiting_publish {receiver : Receiver}
    (hreceiver : world.receiver = some receiver) (lengths : EventArg → Nat) (channel : String)
    (args : List EventArg) :
    (world.publish lengths channel args).Waiting (world.hub.nextEvent channel args) ∧
      ∀ event, world.Waiting event → (world.publish lengths channel args).Waiting event := by
  have hsent : (world.publish lengths channel args).receiver =
      some (receiver.send (world.hub.nextEvent channel args)) := by
    simp [EventWorld.publish, hreceiver, EventHub.emit_event]
  cases hlagged : (receiver.send (world.hub.nextEvent channel args)).lagged with
  | true => exact ⟨⟨_, hsent, .inl hlagged⟩, fun _ _ => ⟨_, hsent, .inl hlagged⟩⟩
  | false =>
    obtain ⟨hbef, hpend⟩ := send_kept hlagged
    refine ⟨⟨_, hsent, .inr ?_⟩, ?_⟩
    · rw [hpend]
      exact mem_concat_self
    · rintro event ⟨r, hr, hwaits⟩
      cases hreceiver.symm.trans hr
      refine ⟨_, hsent, .inr ?_⟩
      rw [hpend]
      rcases hwaits with hlag | hmem
      · rw [hbef] at hlag
        cases hlag
      · exact mem_append_left _ hmem

/-! ## Protocol 2: the snapshot and the stream -/

/-- What a client with snapshot `snapshot` was told or will be. -/
structure Told (world : EventWorld) (snapshot : RuntimeSnapshot) : Prop where
  sessions : ∃ catalog, world.catalogs[snapshot.seen - 1]? = some catalog ∧
    snapshot.sessions = listSnapshots catalog false
  cursor : snapshot.cursor ≤ world.hub.sequence
  included : ∀ emission ∈ world.emissions, emission.event.sequence ≤ snapshot.cursor →
    emission.catalogs ≤ snapshot.seen
  streamed : world.phase ≠ .closed → ∀ event ∈ world.events, snapshot.cursor < event.sequence →
    event.lasting = true → event ∈ world.sent ∨ world.Waiting event
  ordered : world.sent.Pairwise fun a b => a.sequence < b.sequence
  after : ∀ event ∈ world.sent, snapshot.cursor < event.sequence ∧
    event.sequence ≤ world.hub.sequence
  ahead : ∀ receiver, world.receiver = some receiver → ∀ event ∈ world.sent,
    ∀ later ∈ receiver.pending, event.sequence < later.sequence

structure Informed (world : EventWorld) : Prop where
  consistent : world.Consistent
  receiver : world.phase ≠ .connecting → world.phase ≠ .closed →
    ∃ receiver, world.receiver = some receiver
  early : world.snapshot = none → world.sent = []
  snapped : world.snapshot ≠ none → world.phase = .serving ∨ world.phase = .closed
  serving : world.phase = .serving → world.snapshot ≠ none
  cursor : ∀ cursor, world.phase = .cursorRead cursor → cursor ≤ world.hub.sequence ∧
    ∀ event ∈ world.events, cursor < event.sequence → world.Waiting event
  told : ∀ snapshot, world.snapshot = some snapshot → world.Told snapshot

theorem Informed.unsnapped (h : world.Informed)
    (hserving : world.phase ≠ .serving) (hclosed : world.phase ≠ .closed) :
    world.snapshot = none := by
  by_contra hsome
  exact (h.snapped hsome).elim hserving hclosed

theorem Started.informed (h : world.Started setup) : world.Informed := by
  refine ⟨h.consistent, ?_, ?_, ?_, ?_, ?_, ?_⟩
  · intro hphase
    exact absurd h.phase hphase
  · intro _
    exact h.sent
  · intro hsome
    exact absurd h.snapshot hsome
  · simp [h.phase]
  · simp [h.phase]
  · simp [h.snapshot]

theorem Told.background {snapshot : RuntimeSnapshot}
    (h : world.Told snapshot) (catalog : PersistedState) (more : List PersistedState)
    (requests : Nat → Program HostEffect (Except RuntimeError MuxReply)) :
    ({ world with catalog, catalogs := world.catalogs ++ more, requests } : EventWorld).Told
      snapshot := by
  obtain ⟨seen, hseen, hsessions⟩ := h.sessions
  refine { h with sessions := ⟨seen, ?_, hsessions⟩ }
  exact getElem?_append_left (List.getElem?_eq_some_iff.mp hseen).1 ▸ hseen

theorem Told.publish {snapshot : RuntimeSnapshot} (h : world.Told snapshot)
    (hreceiver : world.phase ≠ .closed → ∃ receiver, world.receiver = some receiver)
    (lengths : EventArg → Nat) (channel : String) (args : List EventArg) :
    (world.publish lengths channel args).Told snapshot := by
  have hseq : (world.publish lengths channel args).hub.sequence = world.hub.sequence + 1 :=
    EventHub.emit_sequence ..
  refine ⟨h.sessions, ?_, ?_, ?_, h.ordered, ?_, ?_⟩
  · rw [hseq]
    exact h.cursor.trans (Nat.le_succ _)
  · intro emission hemission hbef
    rcases mem_append.mp hemission with hold | hnew
    · exact h.included emission hold hbef
    -- the new event is after the cursor
    rw [mem_singleton.mp hnew] at hbef
    have hcursor := h.cursor
    change world.hub.sequence + 1 ≤ snapshot.cursor at hbef
    omega
  · intro hphase event hev hafter hlasting
    obtain ⟨receiver, hsome⟩ := hreceiver hphase
    obtain ⟨hnewWaits, hold⟩ := waiting_publish hsome lengths channel args
    rw [events_publish] at hev
    rcases mem_append.mp hev with hpast | hnew
    · exact (h.streamed hphase event hpast hafter hlasting).imp_right (hold event)
    · rw [mem_singleton.mp hnew]
      exact .inr hnewWaits
  · intro event hev
    rw [hseq]
    exact ⟨(h.after event hev).1, (h.after event hev).2.trans (Nat.le_succ _)⟩
  · intro r hr event hev later hlater
    obtain ⟨receiver, hsome, rfl⟩ := map_eq_some_iff.mp hr
    rcases mem_append.mp ((send_sublist _ _).subset hlater) with hold | hnew
    · exact h.ahead receiver hsome event hev later hold
    · rw [mem_singleton.mp hnew]
      exact Nat.lt_succ_of_le (h.after event hev).2

theorem forwarding_skip {cursor : Nat} {deviceId : Option String}
    (h : forwarding 2 cursor deviceId event = .skip) :
    event.sequence ≤ cursor ∨ event.lasting = false := by
  unfold forwarding at h
  split at h
  · rename_i hbef
    exact .inl hbef.2
  split at h
  · rename_i hrevoked
    exact .inr (by simp [HostEvent.lasting, isEphemeral, hrevoked])
  split at h
  · rename_i hsem
    exact .inr (by simp [HostEvent.lasting, isEphemeral, hsem])
  · cases h

theorem forwarding_send {cursor : Nat} {deviceId : Option String} {outgoing : HostEvent}
    (h : forwarding 2 cursor deviceId event = .send outgoing) :
    outgoing = event ∧ cursor < event.sequence := by
  unfold forwarding at h
  split at h
  · cases h
  rename_i hafter
  split at h
  · simp only at h
    split at h <;> cases h
  split at h
  · cases h
  simp only [OfNat.ofNat_ne_one, if_false, Forwarding.send.injEq] at h
  simp only [true_and, not_le] at hafter
  exact ⟨h.symm, hafter⟩

theorem waiting_drop {receiver : Receiver}
    {rest : List HostEvent} (hreceiver : world.receiver = some receiver)
    (hpend : receiver.pending = event :: rest) {other : HostEvent}
    (h : world.Waiting other) : other = event ∨ (world.drop receiver rest).Waiting other := by
  obtain ⟨r, hr, hwaits⟩ := h
  cases hreceiver.symm.trans hr
  rcases hwaits with hlag | hmem
  · exact .inr ⟨_, rfl, .inl hlag⟩
  rw [hpend] at hmem
  rcases mem_cons.mp hmem with rfl | hrest
  · exact .inl rfl
  · exact .inr ⟨_, rfl, .inr hrest⟩

theorem Informed.step {lengths : EventArg → Nat}
    {next : EventWorld} (h : world.Informed) (hprotocol : setup.protocol = 2)
    (hmove : Move lengths setup world next) : next.Informed := by
  have hconsistent := h.consistent.step hmove
  cases hmove with
  | background catalog more requests hlatest =>
    exact { h with
      consistent := hconsistent
      told := fun snapshot hsnap => (h.told snapshot hsnap).background catalog more requests }
  | publish channel args requests =>
    refine ⟨hconsistent, ?_, h.early, h.snapped, h.serving, ?_, ?_⟩
    · intro hconnecting hclosed
      obtain ⟨receiver, hreceiver⟩ := h.receiver hconnecting hclosed
      exact ⟨_, congrArg (Option.map _) hreceiver⟩
    · intro cursor hcursor
      have hphase : world.phase = .cursorRead cursor := hcursor
      obtain ⟨hle, hwaits⟩ := h.cursor cursor hphase
      obtain ⟨receiver, hreceiver⟩ := h.receiver (by simp [hphase]) (by simp [hphase])
      obtain ⟨hnewWaits, hold⟩ := waiting_publish hreceiver lengths channel args
      refine ⟨?_, ?_⟩
      · exact hle.trans ((Nat.le_succ _).trans_eq (EventHub.emit_sequence ..).symm)
      · intro event hev hafter
        change event ∈ (world.publish lengths channel args).events at hev
        rw [events_publish] at hev
        rcases mem_append.mp hev with hpast | hnew
        · exact hold event (hwaits event hpast hafter)
        · rw [mem_singleton.mp hnew]
          exact hnewWaits
    · intro snapshot hsnap
      have htold := h.told snapshot hsnap
      have hsome : world.snapshot ≠ none := by
        intro hnone
        cases hnone.symm.trans hsnap
      have hreceiver : world.phase ≠ .closed → ∃ receiver, world.receiver = some receiver := by
        intro hclosed
        apply h.receiver _ hclosed
        rcases h.snapped hsome with hphase | hphase <;> simp [hphase]
      have hnext := htold.publish hreceiver lengths channel args
      exact { hnext with }
  | emitTerminal =>
    refine { h with consistent := hconsistent, cursor := ?_, told := ?_ }
    · intro cursor hcursor
      exact ⟨(h.cursor cursor hcursor).1.trans (Nat.le_succ _), (h.cursor cursor hcursor).2⟩
    · intro snapshot hsnap
      have htold := h.told snapshot hsnap
      refine { htold with cursor := htold.cursor.trans (Nat.le_succ _), after := ?_ }
      intro event hev
      exact ⟨(htold.after event hev).1, (htold.after event hev).2.trans (Nat.le_succ _)⟩
  | subscribe hphase =>
    have hnone := h.unsnapped (by simp [hphase]) (by simp [hphase])
    refine ⟨hconsistent, fun _ _ => ⟨_, rfl⟩, h.early, fun hsome => absurd hnone hsome, by simp,
      by simp, ?_⟩
    intro snapshot hsnap
    cases hnone.symm.trans hsnap
  | readCursor _ hphase =>
    have hnone := h.unsnapped (by simp [hphase]) (by simp [hphase])
    obtain ⟨receiver, hreceiver⟩ := h.receiver (by simp [hphase]) (by simp [hphase])
    refine ⟨hconsistent, fun _ _ => ⟨receiver, hreceiver⟩, h.early,
      fun hsome => absurd hnone hsome, by simp, ?_, ?_⟩
    · rintro cursor hcursor
      cases hcursor
      refine ⟨le_rfl, ?_⟩
      intro event hev hafter
      have := h.consistent.retains.within event hev
      omega
    · intro snapshot hsnap
      cases hnone.symm.trans hsnap
  | readSessions cursor hphase =>
    have hnone := h.unsnapped (by simp [hphase]) (by simp [hphase])
    obtain ⟨receiver, hreceiver⟩ := h.receiver (by simp [hphase]) (by simp [hphase])
    obtain ⟨hle, hwaits⟩ := h.cursor cursor hphase
    have hsent := h.early hnone
    refine ⟨hconsistent, fun _ _ => ⟨receiver, hreceiver⟩, by simp, by simp, by simp, by simp, ?_⟩
    intro snapshot hsnap
    cases hsnap
    refine ⟨⟨world.catalog, ?_, rfl⟩, hle, ?_, ?_, ?_, ?_, ?_⟩
    · simpa [getLast?_eq_getElem?] using h.consistent.latest
    · intro emission hemission _
      exact h.consistent.before emission hemission
    · intro _ event hev hafter _
      exact .inr (hwaits event hev hafter)
    · simp [hsent]
    · simp [hsent]
    · simp [hsent]
  | replay hone => simp [hprotocol] at hone
  | lagged receiver hphase hreceiver =>
    refine ⟨hconsistent, by simp [close], h.early, fun _ => .inr rfl, by simp [close],
      by simp [close], ?_⟩
    intro snapshot hsnap
    have htold := h.told snapshot hsnap
    refine { htold with streamed := by simp [close], ahead := ?_ }
    intro r hr
    cases hr
    exact htold.ahead receiver hreceiver
  | skip receiver event rest hphase hreceiver hlagged hpend hfwd =>
    refine ⟨hconsistent, fun _ _ => ⟨_, rfl⟩, h.early, h.snapped, h.serving, ?_, ?_⟩
    · intro cursor hcursor
      cases hphase.symm.trans hcursor
    · intro snapshot hsnap
      have hsome : world.snapshot = some snapshot := hsnap
      have htold := h.told snapshot hsnap
      rw [hprotocol, hsome] at hfwd
      refine { htold with streamed := ?_, ahead := ?_ }
      · intro hclosed other hother hafter hlasting
        rcases htold.streamed hclosed other hother hafter hlasting with hsent | hwaits
        · exact .inl hsent
        rcases waiting_drop hreceiver hpend hwaits with rfl | hstill
        · rcases forwarding_skip hfwd with hbef | hephemeral
          · exact absurd hafter (not_lt.mpr hbef)
          · rw [hephemeral] at hlasting
            cases hlasting
        · exact .inr hstill
      · intro r hr other hother later hlater
        cases hr
        exact htold.ahead receiver hreceiver other hother later (hpend ▸ mem_cons_of_mem _ hlater)
  | giveUp receiver event rest hphase hreceiver hpend =>
    refine ⟨hconsistent, by simp [close], h.early, fun _ => .inr rfl, by simp [close],
      by simp [close], ?_⟩
    intro snapshot hsnap
    have htold := h.told snapshot hsnap
    refine { htold with streamed := by simp [close], ahead := ?_ }
    intro r hr other hother later hlater
    cases hr
    exact htold.ahead receiver hreceiver other hother later (hpend ▸ mem_cons_of_mem _ hlater)
  | send receiver event outgoing rest hphase hreceiver hlagged hpend hfwd =>
    refine ⟨hconsistent, fun _ _ => ⟨_, rfl⟩, ?_, h.snapped, h.serving, ?_, ?_⟩
    · intro hnone
      exact absurd hnone (h.serving hphase)
    · intro cursor hcursor
      cases hphase.symm.trans hcursor
    · intro snapshot hsnap
      have hsome : world.snapshot = some snapshot := hsnap
      have htold := h.told snapshot hsnap
      rw [hprotocol, hsome] at hfwd
      obtain ⟨rfl, hafterCursor⟩ := forwarding_send hfwd
      have hmem : outgoing ∈ receiver.pending := by simp [hpend]
      have hordered := h.consistent.ordered receiver hreceiver
      rw [hpend, pairwise_cons] at hordered
      refine ⟨htold.sessions, htold.cursor, htold.included, ?_, ?_, ?_, ?_⟩
      · intro hclosed other hother hafter hlasting
        rcases htold.streamed hclosed other hother hafter hlasting with hsent | hwaits
        · exact .inl (mem_append_left _ hsent)
        rcases waiting_drop hreceiver hpend hwaits with rfl | hstill
        · exact .inl mem_concat_self
        · exact .inr hstill
      · apply pairwise_append.mpr
        refine ⟨htold.ordered, pairwise_singleton _ _, ?_⟩
        intro a ha b hb
        rw [mem_singleton.mp hb]
        exact htold.ahead receiver hreceiver a ha outgoing hmem
      · intro other hother
        rcases mem_append.mp hother with hold | hnew
        · exact htold.after other hold
        rw [mem_singleton.mp hnew]
        exact ⟨hafterCursor, h.consistent.retains.within outgoing
          (h.consistent.pending receiver hreceiver outgoing hmem)⟩
      · intro r hr other hother later hlater
        cases hr
        rcases mem_append.mp hother with hold | hnew
        · exact htold.ahead receiver hreceiver other hold later (hpend ▸ mem_cons_of_mem _ hlater)
        · rw [mem_singleton.mp hnew]
          exact hordered.1 later hlater
  | disconnect =>
    refine ⟨hconsistent, by simp [close], h.early, fun _ => .inr rfl, by simp [close],
      by simp [close], ?_⟩
    intro snapshot hsnap
    have htold := h.told snapshot hsnap
    exact { htold with streamed := by simp [close] }

theorem informed_of_reachable {lengths : EventArg → Nat} (hprotocol : setup.protocol = 2)
    (h : (connectionSystem lengths setup).Reachable world) : world.Informed := by
  induction h with
  | start hinitial => exact hinitial.informed
  | next _ _ hstep ih => exact ih.step hprotocol (step_move hstep)

/-- The snapshot was read of a catalog that the mutations before the event had
led to already. -/
def Includes (snapshot : RuntimeSnapshot) (emission : Emission) : Prop :=
  emission.catalogs ≤ snapshot.seen

theorem receive_of_waiting (lengths : EventArg → Nat) (setup : ConnectionSetup)
    (hphase : world.phase = .serving) (hwaits : world.Waiting event) (accepted : Bool) :
    (world.step lengths setup (.receive accepted)).isSome = true := by
  obtain ⟨receiver, hreceiver, hwaits⟩ := hwaits
  unfold EventWorld.step
  simp only [hphase, if_true]
  unfold EventWorld.receive Receiver.recv
  simp only [hreceiver, bind_some]
  cases hlagged : receiver.lagged with
  | true => rfl
  | false =>
    rcases hwaits with hlag | hmem
    · rw [hlagged] at hlag
      cases hlag
    obtain ⟨first, rest, hpend⟩ := exists_cons_of_ne_nil (ne_nil_of_mem hmem)
    simp only [hpend, Bool.false_eq_true, if_false]
    split <;> rfl

end EventWorld

open EventWorld in
/-- Every mux event is included in the snapshot, or sent, or waits for its turn
in the loop; when the loop has nothing left to do it is included or sent; and
what is sent has increasing sequences. -/
theorem snapshot_or_stream (lengths : EventArg → Nat) (setup : ConnectionSetup)
    (hprotocol : setup.protocol = 2) {world : EventWorld}
    (h : (connectionSystem lengths setup).Reachable world) {snapshot : RuntimeSnapshot}
    (hsnap : world.snapshot = some snapshot) :
    (∃ catalog, world.catalogs[snapshot.seen - 1]? = some catalog ∧
      snapshot.sessions = listSnapshots catalog false) ∧
    (∀ emission ∈ world.emissions, emission.event.channel = "mux:event" →
      Includes snapshot emission ∨ emission.event ∈ world.sent ∨
        world.Waiting emission.event ∨ world.phase = .closed) ∧
    (world.phase ≠ .closed → world.step lengths setup (.receive true) = none →
      ∀ emission ∈ world.emissions, emission.event.channel = "mux:event" →
        Includes snapshot emission ∨ emission.event ∈ world.sent) ∧
    world.sent.Pairwise fun a b => a.sequence < b.sequence := by
  have hinformed := informed_of_reachable hprotocol h
  have htold := hinformed.told snapshot hsnap
  have hopen : ∀ emission ∈ world.emissions, emission.event.channel = "mux:event" →
      world.phase ≠ .closed → Includes snapshot emission ∨ emission.event ∈ world.sent ∨
        world.Waiting emission.event := by
    intro emission hemission hchannel hphase
    by_cases hbef : emission.event.sequence ≤ snapshot.cursor
    · exact .inl (htold.included emission hemission hbef)
    right
    apply htold.streamed hphase emission.event (List.mem_map_of_mem hemission) (not_le.mp hbef)
    simp [HostEvent.lasting, isEphemeral, hchannel]
  refine ⟨htold.sessions, ?_, ?_, htold.ordered⟩
  · intro emission hemission hchannel
    by_cases hphase : world.phase = .closed
    · exact .inr (.inr (.inr hphase))
    rcases hopen emission hemission hchannel hphase with hin | hsent | hwaits
    · exact .inl hin
    · exact .inr (.inl hsent)
    · exact .inr (.inr (.inl hwaits))
  · intro hphase hidle emission hemission hchannel
    have hserving : world.phase = .serving := by
      have hsome : world.snapshot ≠ none := by
        rw [hsnap]
        exact some_ne_none _
      exact (hinformed.snapped hsome).resolve_right hphase
    rcases hopen emission hemission hchannel hphase with hin | hsent | hwaits
    · exact .inl hin
    · exact .inr hsent
    have hstep := receive_of_waiting lengths setup hserving hwaits true
    rw [hidle] at hstep
    cases hstep

def selectingWorld (since : Nat) : EventWorld where
  hub := .withLimits ⟨"server", "epoch"⟩ 1024 16777216
  catalog := openStore (.constant "t" "a") "host" none
  catalogs := [openStore (.constant "t" "a") "host" none]
  requests := fun _ => (dispatchMux (.selectTab "ses-a" "tab-a")).run
  emissions := []
  phase := .connecting
  receiver := none
  snapshot := none
  gap := none
  sent := []
  client := ⟨some ⟨"server", "epoch"⟩, since, []⟩

theorem selectingWorld_started (protocol since : Nat) (deviceId : Option String) (capacity : Nat) :
    (selectingWorld since).Started ⟨protocol, since, deviceId, capacity⟩ :=
  ⟨⟨_, _, _, rfl⟩, rfl, rfl, rfl, rfl, rfl, rfl, rfl, rfl⟩

def quietAnswers : CallAnswers :=
  ⟨.constant "t" "b", .error .limit, .error .limit⟩

/-- The event of request 0 is before the cursor; request 1 mutates between the
two reads of the snapshot and emits after them. -/
def betweenReads : List WorldAction :=
  [.subscribe, .call 0 quietAnswers, .call 0 quietAnswers, .readCursor, .call 1 quietAnswers,
    .readSessions, .call 1 quietAnswers, .receive true, .receive true]

theorem snapshot_or_stream_betweenReads :
    ∃ world snapshot, (connectionSystem (fun _ => 1) ⟨2, 0, none, 4⟩).Reachable world ∧
      world.snapshot = some snapshot ∧ world.emissions.length = 2 ∧
      world.sent.map HostEvent.sequence = [2] ∧
      (∀ emission ∈ world.emissions, emission.event.channel = "mux:event" →
        EventWorld.Includes snapshot emission ∨ emission.event ∈ world.sent ∨
          world.Waiting emission.event ∨ world.phase = .closed) := by
  have hrun : ((connectionSystem (fun _ => 1) ⟨2, 0, none, 4⟩).replay (fun _ _ => true)
      (selectingWorld 0) betweenReads).any (fun world => world.snapshot.isSome &&
        world.emissions.length == 2 && world.sent.map HostEvent.sequence == [2]) = true := by
    decide
  obtain ⟨world, hrpl, hworld⟩ := (any_eq_true _ _).mp hrun
  simp only [Bool.and_eq_true, beq_iff_eq] at hworld
  obtain ⟨⟨hsome, hemissions⟩, hsent⟩ := hworld
  obtain ⟨snapshot, hsnap⟩ := isSome_iff_exists.mp hsome
  have hreachable := System.replay_run
    (System.Run.start (selectingWorld_started 2 0 none 4)) (fun _ _ _ _ => trivial) hrpl
  obtain ⟨-, hall, -, -⟩ := snapshot_or_stream (fun _ => 1) ⟨2, 0, none, 4⟩ rfl hreachable hsnap
  exact ⟨world, snapshot, hreachable, hsnap, hemissions, hsent, hall⟩

/-! ## Protocol 1: the replay window and the stream -/

namespace EventWorld

def expected (setup : ConnectionSetup) (world : EventWorld) : List HostEvent :=
  (world.events.filter fun event => event.lasting && decide (setup.since < event.sequence)).map
    HostEvent.legacy

def upcoming (world : EventWorld) (receiver : Receiver) : List HostEvent :=
  (receiver.pending.filter fun event =>
    event.lasting && decide (world.client.lastSequence < event.sequence)).map HostEvent.legacy

/-- The client kept a first part of what it should; while the loop runs and
has not lagged, the rest waits. -/
structure Caught (setup : ConnectionSetup) (world : EventWorld) : Prop where
  consistent : world.Consistent
  receiver : world.phase ≠ .connecting → world.phase ≠ .closed →
    ∃ receiver, world.receiver = some receiver
  early : world.phase = .connecting ∨ world.phase = .subscribed →
    world.client.kept = [] ∧ world.client.lastSequence = setup.since
  readsNone : ∀ cursor, world.phase ≠ .cursorRead cursor
  last : world.gap = none → setup.since ≤ world.client.lastSequence ∧
    (world.client.lastSequence = setup.since ∨
      world.client.lastSequence ≤ world.hub.sequence)
  kept : world.gap = none → ∃ rest, world.client.kept ++ rest = world.expected setup ∧
    (world.phase = .serving → ∀ receiver, world.receiver = some receiver →
      receiver.lagged = false → rest = world.upcoming receiver)

theorem legacy_receive (client : EventClient) (event : HostEvent) : client.receive event.legacy =
      if event.sequence ≤ client.lastSequence then client
      else { client with
        lastSequence := event.sequence, kept := client.kept ++ [event.legacy] } := by
  unfold EventClient.receive acceptHostEvent HostEvent.legacy
  by_cases hold : event.sequence ≤ client.lastSequence
  · simp [hold]
  · simp [hold]

theorem foldl_receive {events : List HostEvent} (client : EventClient)
    (hordered : events.Pairwise fun a b => a.sequence < b.sequence)
    (hafter : ∀ event ∈ events, client.lastSequence < event.sequence) :
    ((events.map HostEvent.legacy).foldl EventClient.receive client).kept =
        client.kept ++ events.map HostEvent.legacy ∧
      client.lastSequence ≤
        ((events.map HostEvent.legacy).foldl EventClient.receive client).lastSequence ∧
      (∀ event ∈ events, event.sequence ≤
        ((events.map HostEvent.legacy).foldl EventClient.receive client).lastSequence) ∧
      (((events.map HostEvent.legacy).foldl EventClient.receive client).lastSequence =
          client.lastSequence ∨
        ∃ event ∈ events,
          ((events.map HostEvent.legacy).foldl EventClient.receive client).lastSequence =
            event.sequence) := by
  induction events generalizing client with
  | nil => simp
  | cons event rest ih =>
    rw [pairwise_cons] at hordered
    have hnew := hafter event mem_cons_self
    rw [map_cons, foldl_cons, legacy_receive, if_neg (not_le.mpr hnew)]
    obtain ⟨hkept, hle, hall, hlast⟩ := ih { client with
      lastSequence := event.sequence, kept := client.kept ++ [event.legacy] }
      hordered.2 hordered.1
    refine ⟨?_, hnew.le.trans hle, ?_, ?_⟩
    · rw [hkept]
      simp
    · intro other hother
      rcases mem_cons.mp hother with rfl | hrest
      · exact hle
      · exact hall other hrest
    · rcases hlast with hsame | ⟨other, hother, heq⟩
      · exact .inr ⟨event, mem_cons_self, hsame⟩
      · exact .inr ⟨other, mem_cons_of_mem _ hother, heq⟩

variable {setup : ConnectionSetup} {world : EventWorld} {receiver : Receiver} {event : HostEvent}
  {lengths : EventArg → Nat}

theorem Started.caught (h : world.Started setup) : world.Caught setup := by
  refine ⟨h.consistent, ?_, ?_, ?_, ?_, ?_⟩
  · intro hphase
    exact absurd h.phase hphase
  · intro _
    rw [h.client]
    exact ⟨rfl, rfl⟩
  · simp [h.phase]
  · intro _
    rw [h.client]
    exact ⟨le_rfl, .inl rfl⟩
  · intro _
    refine ⟨[], ?_, ?_⟩
    · simp [h.client, expected, events, h.emissions]
    · simp [h.phase]

theorem expected_publish (setup : ConnectionSetup) (world : EventWorld)
    (lengths : EventArg → Nat) (channel : String) (args : List EventArg) :
    (world.publish lengths channel args).expected setup = world.expected setup ++
      ([world.hub.nextEvent channel args].filter fun event =>
        event.lasting && decide (setup.since < event.sequence)).map HostEvent.legacy := by
  unfold expected
  rw [events_publish, filter_append, map_append]

theorem upcoming_replayed (hconsistent : world.Consistent)
    (hreceiver : world.receiver = some receiver) {since last : Nat} (hsince : since ≤ last)
    (htold : ∀ event ∈ world.events.filter (fun event =>
      event.lasting && decide (since < event.sequence)), event.sequence ≤ last) :
    receiver.pending.filter (fun event =>
      event.lasting && decide (last < event.sequence)) = [] := by
  apply filter_eq_nil_iff.mpr
  intro event hev hmatch
  rw [Bool.and_eq_true, decide_eq_true_eq] at hmatch
  have hbound := htold event (mem_filter.mpr
    ⟨hconsistent.pending receiver hreceiver event hev, by
      rw [Bool.and_eq_true, decide_eq_true_eq]
      exact ⟨hmatch.1, by omega⟩⟩)
  omega

theorem Caught.replay (h : world.Caught setup)
    (hsince : 0 < setup.since) (hphase : world.phase = .subscribed) :
    (world.replay setup).Caught setup := by
  obtain ⟨receiver, hreceiver⟩ := h.receiver (by simp [hphase]) (by simp [hphase])
  obtain ⟨hkept, hlast⟩ := h.early (.inr hphase)
  have hconsistent : (world.replay setup).Consistent :=
    ⟨h.consistent.retains, h.consistent.before, h.consistent.latest, h.consistent.pending,
      h.consistent.ordered⟩
  have hserving : (world.replay setup).phase = .serving := rfl
  -- without a notice the client takes the whole window
  have htaken : (world.replay setup).gap = none →
      (world.replay setup).client.kept = world.expected setup ∧
      setup.since ≤ (world.replay setup).client.lastSequence ∧
      (∀ event ∈ world.events.filter (fun event =>
        event.lasting && decide (setup.since < event.sequence)),
        event.sequence ≤ (world.replay setup).client.lastSequence) ∧
      ((world.replay setup).client.lastSequence = setup.since ∨
        (world.replay setup).client.lastSequence ≤ world.hub.sequence) := by
    intro hgap
    have hevicted : (world.hub.replayWindow setup.since).historyEvicted = false := by
      by_contra hnotice
      rw [Bool.not_eq_false] at hnotice
      simp [EventWorld.replay, deliver, hnotice] at hgap
    have hwindow := h.consistent.retains.replayWindow hsince hevicted
    have hclient : (world.replay setup).client = ((world.events.filter (fun event =>
        event.lasting && decide (setup.since < event.sequence))).map HostEvent.legacy).foldl
          EventClient.receive world.client := by
      simp only [EventWorld.replay, deliver, hevicted, Bool.false_eq_true, if_false,
        toList_none, nil_append, hwindow]
    obtain ⟨hall, hle, hbound, hsource⟩ := foldl_receive world.client
      (h.consistent.retains.ordered.filter (fun event =>
        event.lasting && decide (setup.since < event.sequence))) (by
      intro event hev
      rw [hlast]
      have hmatch := (mem_filter.mp hev).2
      rw [Bool.and_eq_true, decide_eq_true_eq] at hmatch
      exact hmatch.2)
    rw [hclient]
    refine ⟨?_, ?_, hbound, ?_⟩
    · rw [hall, hkept, nil_append]
      rfl
    · exact hlast.symm.trans_le hle
    · rcases hsource with hsame | ⟨event, hev, heq⟩
      · exact .inl (hsame.trans hlast)
      right
      rw [heq]
      exact h.consistent.retains.within event (mem_of_mem_filter hev)
  refine ⟨hconsistent, fun _ _ => ⟨receiver, hreceiver⟩, by simp [hserving], by simp [hserving],
    ?_, ?_⟩
  · intro hgap
    exact ⟨(htaken hgap).2.1, (htaken hgap).2.2.2⟩
  · intro hgap
    obtain ⟨hall, hle, hbound, -⟩ := htaken hgap
    refine ⟨[], ?_, ?_⟩
    · rw [append_nil]
      exact hall
    · intro _ r hr _
      cases hreceiver.symm.trans hr
      rw [upcoming, upcoming_replayed h.consistent hreceiver hle hbound]
      rfl

theorem lasting_iff : event.lasting = true ↔
    event.channel ≠ "terminal:semantic" ∧ event.channel ≠ "security:device-revoked" := by
  simp [HostEvent.lasting, isEphemeral]

theorem forwarding_legacy_skip {cursor : Nat} {deviceId : Option String}
    (h : forwarding 1 cursor deviceId event = .skip) : event.lasting = false := by
  unfold forwarding at h
  simp only [OfNat.one_ne_ofNat, false_and, if_false] at h
  split at h
  · rename_i hrevoked
    simp [HostEvent.lasting, isEphemeral, hrevoked]
  split at h
  · rename_i hsem
    simp [HostEvent.lasting, isEphemeral, hsem]
  · cases h

theorem forwarding_legacy_send {cursor : Nat} {deviceId : Option String}
    {outgoing : HostEvent} (h : forwarding 1 cursor deviceId event = .send outgoing) :
    outgoing = event.legacy ∧ event.lasting = true := by
  unfold forwarding at h
  simp only [OfNat.one_ne_ofNat, false_and, if_false] at h
  split at h
  · split at h <;> cases h
  rename_i hrevoked
  split at h
  · cases h
  rename_i hsem
  cases h
  exact ⟨rfl, lasting_iff.mpr ⟨hsem, hrevoked⟩⟩

theorem Caught.publish (h : world.Caught setup)
    (lengths : EventArg → Nat) (channel : String) (args : List EventArg) :
    (world.publish lengths channel args).Caught setup := by
  have hseq : (world.publish lengths channel args).hub.sequence = world.hub.sequence + 1 :=
    EventHub.emit_sequence ..
  refine ⟨h.consistent.publish lengths channel args, ?_, h.early, h.readsNone, ?_, ?_⟩
  · intro hconnecting hclosed
    obtain ⟨receiver, hreceiver⟩ := h.receiver hconnecting hclosed
    exact ⟨_, congrArg (Option.map _) hreceiver⟩
  · intro hgap
    rw [hseq]
    obtain ⟨hle, hlast⟩ := h.last hgap
    exact ⟨hle, hlast.imp_right fun hbound => hbound.trans (Nat.le_succ _)⟩
  · intro hgap
    obtain ⟨rest, hrest, hwaits⟩ := h.kept hgap
    obtain ⟨hle, hlast⟩ := h.last hgap
    refine ⟨rest ++ ([world.hub.nextEvent channel args].filter fun event =>
      event.lasting && decide (setup.since < event.sequence)).map HostEvent.legacy, ?_, ?_⟩
    · rw [expected_publish, ← append_assoc]
      exact congrArg (· ++ _) hrest
    · intro hphase r hr hlagged
      obtain ⟨receiver, hreceiver, rfl⟩ := map_eq_some_iff.mp hr
      obtain ⟨hbef, hpend⟩ := send_kept hlagged
      -- the new event is after `since` just when it is after the last one taken
      have hsame : (setup.since < world.hub.sequence + 1) ↔
          world.client.lastSequence < world.hub.sequence + 1 := by
        omega
      rw [hwaits hphase receiver hreceiver hbef]
      unfold upcoming
      rw [hpend, filter_append, map_append]
      have hnew : (world.hub.nextEvent channel args).sequence = world.hub.sequence + 1 := rfl
      congr 2
      apply filter_congr
      intro event hev
      rw [mem_singleton.mp hev, hnew]
      simp only [hsame]
      rfl

/-- The oldest message is taken, or is one the window told already. -/
theorem Caught.delivered (h : world.Caught setup) {rest : List HostEvent}
    (hphase : world.phase = .serving) (hreceiver : world.receiver = some receiver)
    (hlagged : receiver.lagged = false) (hpend : receiver.pending = event :: rest)
    (hlasting : event.lasting = true) :
    ((world.drop receiver rest).deliver [event.legacy]).Caught setup := by
  have hdropped := h.consistent.drop hreceiver hpend
  have hconsistent : ((world.drop receiver rest).deliver [event.legacy]).Consistent :=
    { hdropped with }
  have hwithin : event.sequence ≤ world.hub.sequence :=
    h.consistent.retains.within event (h.consistent.pending receiver hreceiver event
      (by simp [hpend]))
  have hordered := h.consistent.ordered receiver hreceiver
  rw [hpend, pairwise_cons] at hordered
  have hclient : ((world.drop receiver rest).deliver [event.legacy]).client =
      world.client.receive event.legacy := rfl
  have hserving : ((world.drop receiver rest).deliver [event.legacy]).phase = .serving := hphase
  rw [legacy_receive] at hclient
  refine ⟨hconsistent, fun _ _ => ⟨_, rfl⟩, by simp [hserving], by simp [hserving], ?_, ?_⟩
  · intro hgap
    obtain ⟨hle, hlast⟩ := h.last hgap
    rw [hclient]
    split
    · exact ⟨hle, hlast⟩
    · rename_i hnew
      exact ⟨hle.trans (not_le.mp hnew).le, .inr hwithin⟩
  · intro hgap
    obtain ⟨waiting, hrest, hwaits⟩ := h.kept hgap
    rw [hwaits hphase receiver hreceiver hlagged, upcoming, hpend] at hrest
    by_cases hold : event.sequence ≤ world.client.lastSequence
    · rw [if_pos hold] at hclient
      refine ⟨world.upcoming receiver, ?_, ?_⟩
      · rw [hclient, upcoming, hpend]
        exact hrest
      · intro _ r hr _
        cases hr
        rw [upcoming, upcoming, hclient, hpend, filter_cons_of_neg (by simp [hold])]
    · rw [if_neg hold] at hclient
      refine ⟨(rest.filter fun later =>
        later.lasting && decide (event.sequence < later.sequence)).map HostEvent.legacy, ?_, ?_⟩
      · -- everything later than the event is later than the last one taken
        have hlater : (rest.filter fun later => later.lasting &&
            decide (world.client.lastSequence < later.sequence)) =
            rest.filter fun later => later.lasting && decide (event.sequence < later.sequence) := by
          apply filter_congr
          intro later hmem
          have hafter := hordered.1 later hmem
          have hboth : world.client.lastSequence < later.sequence := by omega
          simp [hafter, hboth]
        rw [filter_cons_of_pos (by simp [hlasting, not_le.mp hold]), map_cons,
          hlater] at hrest
        rw [hclient]
        simp only [append_assoc, singleton_append]
        exact hrest
      · intro _ r hr _
        cases hr
        simp [upcoming, hclient]

theorem Caught.step {next : EventWorld} (h : world.Caught setup) (hprotocol : setup.protocol = 1)
    (hsince : 0 < setup.since) (hmove : Move lengths setup world next) : next.Caught setup := by
  have hconsistent := h.consistent.step hmove
  cases hmove with
  | background catalog more requests hlatest =>
    exact { h with consistent := hconsistent }
  | publish channel args requests =>
    have hnext := h.publish lengths channel args
    exact { hnext with consistent := hconsistent }
  | emitTerminal =>
    refine { h with consistent := hconsistent, last := ?_ }
    intro hgap
    obtain ⟨hle, hlast⟩ := h.last hgap
    exact ⟨hle, hlast.imp_right fun hbound => hbound.trans (Nat.le_succ _)⟩
  | subscribe hphase =>
    refine ⟨hconsistent, fun _ _ => ⟨_, rfl⟩, fun _ => h.early (.inl hphase), by simp,
      h.last, ?_⟩
    intro hgap
    obtain ⟨rest, hrest, -⟩ := h.kept hgap
    exact ⟨rest, hrest, by simp⟩
  | readCursor htwo => simp [hprotocol] at htwo
  | readSessions cursor hphase => exact absurd hphase (h.readsNone cursor)
  | replay _ hphase => exact h.replay hsince hphase
  | lagged | disconnect =>
    refine ⟨hconsistent, by simp [close], by simp [close], by simp [close], h.last, ?_⟩
    intro hgap
    obtain ⟨rest, hrest, -⟩ := h.kept hgap
    exact ⟨rest, hrest, by simp [close]⟩
  | skip receiver event rest hphase hreceiver hlagged hpend hfwd =>
    rw [hprotocol] at hfwd
    have hephemeral := forwarding_legacy_skip hfwd
    refine ⟨hconsistent, fun _ _ => ⟨_, rfl⟩, h.early, h.readsNone, h.last, ?_⟩
    intro hgap
    obtain ⟨waiting, hrest, hwaits⟩ := h.kept hgap
    refine ⟨waiting, hrest, ?_⟩
    intro _ r hr _
    cases hr
    rw [hwaits hphase receiver hreceiver hlagged, upcoming, hpend,
      filter_cons_of_neg (by simp [hephemeral])]
    rfl
  | giveUp receiver event rest hphase hreceiver hpend =>
    refine ⟨hconsistent, by simp [close], by simp [close], by simp [close], h.last, ?_⟩
    intro hgap
    obtain ⟨waiting, hrest, -⟩ := h.kept hgap
    exact ⟨waiting, hrest, by simp [close]⟩
  | send receiver event outgoing rest hphase hreceiver hlagged hpend hfwd =>
    rw [hprotocol] at hfwd
    obtain ⟨rfl, hlasting⟩ := forwarding_legacy_send hfwd
    exact h.delivered hphase hreceiver hlagged hpend hlasting

theorem caught_of_reachable (hprotocol : setup.protocol = 1) (hsince : 0 < setup.since)
    (h : (connectionSystem lengths setup).Reachable world) : world.Caught setup := by
  induction h with
  | start hinitial => exact hinitial.caught
  | next _ _ hstep ih => exact ih.step hprotocol hsince (step_move hstep)

theorem drained (hphase : world.phase = .serving) (hreceiver : world.receiver = some receiver)
    (hidle : world.step lengths setup (.receive true) = none) :
    receiver.lagged = false ∧ receiver.pending = [] := by
  have hnone : ∀ event, ¬ world.Waiting event := by
    intro event hwaits
    have hstep := receive_of_waiting lengths setup hphase hwaits true
    rw [hidle] at hstep
    cases hstep
  constructor
  · by_contra hlagged
    rw [Bool.not_eq_false] at hlagged
    exact hnone (gapNotice (world.hub.replayWindow 0)) ⟨receiver, hreceiver, .inl hlagged⟩
  · rw [eq_nil_iff_forall_not_mem]
    intro event hev
    exact hnone event ⟨receiver, hreceiver, .inr hev⟩

theorem expected_ordered (h : world.Consistent) (setup : ConnectionSetup) :
    (world.expected setup).Pairwise fun a b => a.sequence < b.sequence :=
  pairwise_map.mpr (h.retains.ordered.filter _)

theorem expected_lasting (h : event ∈ world.expected setup) : event.lasting = true := by
  obtain ⟨original, horiginal, rfl⟩ := List.mem_map.mp h
  have hmatch := (mem_filter.mp horiginal).2
  exact (Bool.and_eq_true_iff.mp hmatch).1

end EventWorld

open EventWorld in
/-- Without a notice, the lasting events the client kept are a first part of
those emitted after `since`, in order and each once, and all of them when the
loop has nothing left to do. A lasting event after `since` that is no longer
retained leads to a notice. -/
theorem reconnect_once (lengths : EventArg → Nat) (setup : ConnectionSetup)
    (hprotocol : setup.protocol = 1) (hsince : 0 < setup.since) {world : EventWorld}
    (h : (connectionSystem lengths setup).Reachable world) :
    ((world.expected setup).Pairwise fun a b => a.sequence < b.sequence) ∧
    (world.gap = none →
      (∃ rest, world.client.kept.filter HostEvent.lasting ++ rest = world.expected setup) ∧
      (world.phase = .serving → world.step lengths setup (.receive true) = none →
        world.client.kept.filter HostEvent.lasting = world.expected setup)) ∧
    (∀ next, world.step lengths setup .replay = some next →
      (∃ event ∈ world.events, event.lasting = true ∧ setup.since < event.sequence ∧
        event ∉ world.hub.history.map RetainedEvent.event) → next.gap.isSome = true) := by
  have hcaught := caught_of_reachable hprotocol hsince h
  refine ⟨expected_ordered hcaught.consistent setup, ?_, ?_⟩
  · intro hgap
    obtain ⟨rest, hrest, hwaits⟩ := hcaught.kept hgap
    have hlasting : world.client.kept.filter HostEvent.lasting = world.client.kept := by
      apply filter_eq_self.mpr
      intro event hev
      exact expected_lasting (hrest ▸ mem_append_left _ hev)
    rw [hlasting]
    refine ⟨⟨rest, hrest⟩, ?_⟩
    intro hphase hidle
    obtain ⟨receiver, hreceiver⟩ := hcaught.receiver (by simp [hphase]) (by simp [hphase])
    obtain ⟨hlagged, hpend⟩ := drained hphase hreceiver hidle
    rw [hwaits hphase receiver hreceiver hlagged, upcoming, hpend, filter_nil,
      map_nil, append_nil] at hrest
    exact hrest
  · rintro next hstep ⟨event, hev, hlasting, hafter, hgone⟩
    obtain ⟨-, heq⟩ := ite_none_right_eq_some.mp hstep
    cases heq
    have hevicted := hcaught.consistent.retains.evicted hsince hev hlasting hafter hgone
    simp [EventWorld.replay, deliver, hevicted]

/-- Event 1 is known, event 2 is both in the window and in the stream, event 3
in the stream only. -/
def overlapping : List WorldAction :=
  [.emit "mux:event" [], .subscribe, .emit "terminal:exit" [.text "p"], .emitTerminal, .replay,
    .receive true, .emit "mux:event" [], .receive true]

theorem reconnect_once_overlapping :
    ∃ world, (connectionSystem (fun _ => 1) ⟨1, 1, none, 4⟩).Reachable world ∧
      world.gap = none ∧ world.client.kept.map HostEvent.sequence = [2, 4] ∧
      world.client.kept.filter HostEvent.lasting = world.expected ⟨1, 1, none, 4⟩ := by
  have hrun : ((connectionSystem (fun _ => 1) ⟨1, 1, none, 4⟩).replay (fun _ _ => true)
      (selectingWorld 1) overlapping).any (fun world => world.gap.isNone &&
        world.client.kept.map HostEvent.sequence == [2, 4] && world.phase == .serving &&
        (world.receiver.bind Receiver.recv).isNone) = true := by
    decide
  obtain ⟨world, hrpl, hworld⟩ := (any_eq_true _ _).mp hrun
  simp only [Bool.and_eq_true, beq_iff_eq, isNone_iff_eq_none] at hworld
  obtain ⟨⟨⟨hgap, hkept⟩, hphase⟩, hnone⟩ := hworld
  have hreachable := System.replay_run
    (System.Run.start (selectingWorld_started 1 1 none 4)) (fun _ _ _ _ => trivial) hrpl
  obtain ⟨-, hall, -⟩ := reconnect_once (fun _ => 1) ⟨1, 1, none, 4⟩ rfl (by decide) hreachable
  have hidle : world.step (fun _ => 1) ⟨1, 1, none, 4⟩ (.receive true) = none := by
    simp [EventWorld.step, hphase, EventWorld.receive, hnone]
  exact ⟨world, hreachable, hgap, hkept, (hall hgap).2 hphase hidle⟩

end Yaade.Connection

import Yaade.Connection.Outbound

/-!
Two ways to one client.
-/

namespace Yaade.Connection

open Yaade.Library List
open Option hiding sequence

def WireMessage.event? : WireMessage → Option HostEvent
  | .event sent => some sent
  | _ => none

def WireMessage.sequence? : WireMessage → Option Nat
  | .event sent => some sent.sequence
  | .terminal eventSequence _ _ _ => some eventSequence
  | _ => none

/-! ## The client -/

structure DeliveryClient where
  identity : Option ServerIdentity
  lastSequence : Nat
  accepted : List WireMessage
  refused : List WireMessage
  deriving DecidableEq

def terminalData (identity : Option ServerIdentity) (eventSequence terminalSequence : Nat)
    (terminalId : String) : HostEvent :=
  match identity with
  | some identity => .modern identity eventSequence "terminal:data"
      [.text terminalId, .number terminalSequence]
  | none => ⟨1, none, none, eventSequence, "terminal:data",
      [.text terminalId, .number terminalSequence]⟩

namespace DeliveryClient

def take (client : DeliveryClient) (message : WireMessage) (event : HostEvent) : DeliveryClient :=
  if acceptHostEvent client.lastSequence event client.identity then
    { client with
      lastSequence := event.sequence
      accepted := client.accepted ++ [message] }
  else { client with refused := client.refused ++ [message] }

def receive (client : DeliveryClient) (message : WireMessage) : DeliveryClient :=
  match message with
  | .event event => client.take message event
  | .terminal eventSequence terminalSequence terminalId _ => client.take message
      (terminalData client.identity eventSequence terminalSequence terminalId)
  | _ => client

end DeliveryClient

/-! ## The connection -/

structure DeliverySetup where
  snapshotSequence : Nat
  deviceId : Option String
  limits : MailboxLimits
  flowLimit : Nat

/-- `forwarded` lists the events put into the mailbox, and `subscribed` the
terminals whose output the hub hands to the connection. -/
structure DeliveryWorld where
  hub : EventHub
  receiver : Receiver
  serving : Bool
  outbound : ConnectionOutbound
  subscribed : Finset String
  wire : List WireMessage
  client : DeliveryClient
  forwarded : List HostEvent

inductive DeliveryAction where
  | emit (channel : String) (args : List EventArg)
  | emitTerminal (terminalId : String) (sequence : Nat) (data : List UInt8)
  | receive
  | attach (terminalId : String) (acknowledged : Nat) (raw : Bool)
  | attachResult (terminalId : String) (snapshotSequence : Option Nat)
  | detach (terminalId : String)
  | acknowledge (terminalId : String) (sequence : Nat)
  | answer
  | disconnect
  | write
  | deliver
  deriving DecidableEq

namespace DeliveryWorld

variable [ByteLength WireMessage] (lengths : EventArg → Nat) (setup : DeliverySetup)
  (world : DeliveryWorld)

omit [ByteLength WireMessage] in
def finish (outbound : ConnectionOutbound) : DeliveryWorld :=
  { world with
    serving := false
    outbound := outbound.stop
    subscribed := ∅ }

def emit (channel : String) (args : List EventArg) : DeliveryWorld :=
  let (event, hub) := world.hub.emit lengths channel args
  { world with
    hub := hub
    receiver := if world.serving then world.receiver.send event else world.receiver }

def emitTerminal (terminalId : String) (sequence : Nat) (data : List UInt8) : DeliveryWorld :=
  let (eventSequence, hub) := world.hub.emitTerminal
  { world with
    hub := hub
    outbound :=
      if terminalId ∈ world.subscribed then
        world.outbound.enqueueTerminal ⟨eventSequence, terminalId, sequence, data⟩
      else world.outbound }

def receive (received : Received) (receiver : Receiver) : DeliveryWorld :=
  let world := { world with receiver := receiver }
  match received with
  | .lagged => world.finish (world.outbound.closeWith 1013 "metadata outbound mailbox overflow")
  | .event event =>
    match forwarding 2 setup.snapshotSequence setup.deviceId event with
    | .skip => world
    | .revoked => world.finish (world.outbound.closeWith 4003 "access revoked")
    | .send event =>
      let (accepted, outbound) := world.outbound.enqueueReliable (.event event)
      if accepted then
        { world with
          outbound := outbound
          forwarded := world.forwarded ++ [event] }
      else world.finish outbound

def step : DeliveryAction → Option DeliveryWorld
  | .emit channel args => some (world.emit lengths channel args)
  | .emitTerminal terminalId sequence data => some (world.emitTerminal terminalId sequence data)
  | .receive =>
    if world.serving then
      world.receiver.recv.map fun (received, receiver) => world.receive setup received receiver
    else none
  | .attach terminalId acknowledged raw =>
    if world.serving then
      some { world with
        outbound := world.outbound.attach terminalId acknowledged
        subscribed := if raw then insert terminalId world.subscribed else world.subscribed }
    else none
  | .attachResult terminalId snapshotSequence =>
    if world.serving then
      let (accepted, outbound) := world.outbound.enqueueAttachResult terminalId snapshotSequence
      let world :=
        if snapshotSequence.isNone then
          { world with subscribed := world.subscribed.erase terminalId }
        else world
      if accepted then some { world with outbound := outbound }
      else some (world.finish outbound)
    else none
  | .detach terminalId =>
    if world.serving then
      some { world with
        outbound := world.outbound.detach terminalId
        subscribed := world.subscribed.erase terminalId }
    else none
  | .acknowledge terminalId sequence =>
    if world.serving then
      some { world with outbound := world.outbound.acknowledge terminalId sequence }
    else none
  | .answer =>
    if world.serving then
      let (accepted, outbound) := world.outbound.enqueueReliable .answer
      if accepted then some { world with outbound := outbound }
      else some (world.finish outbound)
    else none
  | .disconnect => if world.serving then some (world.finish world.outbound) else none
  | .write =>
    match world.outbound.next with
    | some (.frame frame, outbound) =>
      some { world with
        outbound := outbound
        wire := world.wire ++ [frame.data] }
    | some (_, outbound) => some { world with outbound := outbound.stop }
    | none => none
  | .deliver =>
    match world.wire with
    | [] => none
    | message :: rest =>
      some { world with
        wire := rest
        client := world.client.receive message }

end DeliveryWorld

/-! ## What is promised -/

def DeliverySetup.forwards (setup : DeliverySetup) (event : HostEvent) : Bool :=
  match forwarding 2 setup.snapshotSequence setup.deviceId event with
  | .send _ => true
  | _ => false

def HostEvent.Genuine (hub : EventHub) (event : HostEvent) : Prop :=
  event.protocolVersion = 2 ∧ event.serverId = some hub.identity.serverId ∧
    event.serverEpoch = some hub.identity.serverEpoch

/-- A connection whose client has just taken the snapshot: the receiver may
hold events from before and after it. -/
structure DeliveryWorld.Started (setup : DeliverySetup) (world : DeliveryWorld) : Prop where
  outbound : world.outbound = .new 2 setup.flowLimit setup.limits
  serving : world.serving = true
  subscribed : world.subscribed = ∅
  wire : world.wire = []
  forwarded : world.forwarded = []
  client : world.client = ⟨some world.hub.identity, setup.snapshotSequence, [], []⟩
  cursor : setup.snapshotSequence ≤ world.hub.sequence
  genuine : ∀ event ∈ world.receiver.pending, event.Genuine world.hub
  ordered : (world.receiver.pending.map HostEvent.sequence).Pairwise (· < ·)
  emitted : ∀ event ∈ world.receiver.pending, event.sequence ≤ world.hub.sequence

def deliverySystem [ByteLength WireMessage] (lengths : EventArg → Nat) (setup : DeliverySetup) :
    System DeliveryWorld DeliveryAction where
  initial := DeliveryWorld.Started setup
  step world action := world.step lengths setup action

/-- The client refused nothing, and the events that were forwarded are those it
accepted and those on the way, in their order. -/
def NoneLost (world : DeliveryWorld) : Prop :=
  world.client.refused = [] ∧ ∃ urgent waiting, world.outbound.mailbox.Carries urgent waiting ∧
    world.forwarded =
      (world.client.accepted ++ world.wire ++ urgent ++ waiting).filterMap WireMessage.event?

def Prompt (setup : DeliverySetup) (world : DeliveryWorld) : DeliveryAction → Prop
  | .emitTerminal terminalId _ _ => terminalId ∈ world.subscribed →
      world.outbound.listens terminalId = true →
        ∀ event ∈ world.receiver.pending, setup.forwards event = false
  | _ => True

/-! ## The line -/

def DeliveryWorld.line (setup : DeliverySetup) (world : DeliveryWorld)
    (waiting : List WireMessage) : List Nat :=
  (world.wire ++ waiting).filterMap WireMessage.sequence? ++
    (world.receiver.pending.filter setup.forwards).map HostEvent.sequence

/-- What is on the way grows along the line and is above what the client saw. -/
structure Lined (setup : DeliverySetup) (world : DeliveryWorld) (urgent waiting : List WireMessage) :
    Prop where
  carries : world.outbound.mailbox.Carries urgent waiting
  answers : ∀ message ∈ urgent, message.sequence? = none
  ordered : (world.line setup waiting).Pairwise (· < ·)
  above : ∀ sequence ∈ world.line setup waiting, world.client.lastSequence < sequence
  emitted : ∀ sequence ∈ world.line setup waiting, sequence ≤ world.hub.sequence
  seen : world.client.lastSequence ≤ world.hub.sequence
  identity : world.client.identity = some world.hub.identity
  heard : ∀ event ∈ world.receiver.pending, event.Genuine world.hub
  genuine : ∀ event, .event event ∈ world.wire ++ waiting → event.Genuine world.hub
  refused : world.client.refused = []
  forwarded : world.forwarded =
    (world.client.accepted ++ world.wire ++ waiting).filterMap WireMessage.event?

def IsLined (setup : DeliverySetup) (world : DeliveryWorld) : Prop :=
  ∃ urgent waiting, Lined setup world urgent waiting

section Steps

variable [ByteLength WireMessage] {lengths : EventArg → Nat} {setup : DeliverySetup}
  {world world' : DeliveryWorld} {urgent waiting urgent' waiting' : List WireMessage}

omit [ByteLength WireMessage] in
theorem event?_of_sequence? {message : WireMessage} (h : message.sequence? = none) :
    message.event? = none := by
  cases message <;> first | rfl | cases h

section

variable (h : Lined setup world urgent waiting)
include h

omit [ByteLength WireMessage] in
theorem Lined.noneLost : NoneLost world := by
  refine ⟨h.refused, urgent, waiting, h.carries, h.forwarded.trans ?_⟩
  have hnone : urgent.filterMap WireMessage.event? = [] :=
    filterMap_eq_nil_iff.mpr fun message hmem => event?_of_sequence? (h.answers message hmem)
  simp only [filterMap_append, hnone, append_nil]

omit [ByteLength WireMessage] in
theorem Lined.thin (hcarr : world'.outbound.mailbox.Carries urgent' waiting')
    (hanswers : ∀ message ∈ urgent', message.sequence? = none)
    (hline : (world'.line setup waiting').Sublist (world.line setup waiting))
    (hclient : world'.client = world.client) (hhub : world'.hub.identity = world.hub.identity)
    (hseq : world.hub.sequence ≤ world'.hub.sequence)
    (hheard : ∀ event ∈ world'.receiver.pending, event.Genuine world.hub)
    (hgenuine : ∀ event, .event event ∈ world'.wire ++ waiting' → event.Genuine world.hub)
    (hforwarded : world'.forwarded =
      (world.client.accepted ++ world'.wire ++ waiting').filterMap WireMessage.event?) :
    Lined setup world' urgent' waiting' where
  carries := hcarr
  answers := hanswers
  ordered := h.ordered.sublist hline
  above sequence hmem := hclient ▸ h.above sequence (hline.subset hmem)
  emitted sequence hmem := (h.emitted sequence (hline.subset hmem)).trans hseq
  seen := hclient ▸ h.seen.trans hseq
  identity := by rw [hclient, hhub, h.identity]
  heard event hmem := by
    unfold HostEvent.Genuine
    rw [hhub]
    exact hheard event hmem
  genuine event hmem := by
    unfold HostEvent.Genuine
    rw [hhub]
    exact hgenuine event hmem
  refused := hclient ▸ h.refused
  forwarded := hclient ▸ hforwarded

omit [ByteLength WireMessage] in
theorem Lined.outside {outbound : ConnectionOutbound}
    (hmailbox : outbound.mailbox = world.outbound.mailbox) (serving : Bool)
    (subscribed : Finset String) :
    Lined setup { world with
      outbound := outbound
      serving := serving
      subscribed := subscribed } urgent waiting :=
  h.thin (show outbound.mailbox.Carries urgent waiting from hmailbox ▸ h.carries) h.answers
    (.refl _) rfl rfl le_rfl h.heard h.genuine h.forwarded

omit [ByteLength WireMessage] in
theorem Lined.push {outbound : ConnectionOutbound}
    {message : WireMessage} (hmsg : message.sequence? = none)
    (hcarr : outbound.mailbox.Carries urgent (waiting ++ [message])) :
    Lined setup { world with outbound := outbound } urgent (waiting ++ [message]) := by
  have hev := event?_of_sequence? hmsg
  refine h.thin hcarr h.answers ?_ rfl rfl le_rfl h.heard (fun event hmem => ?_) ?_
  · unfold DeliveryWorld.line
    simp [filterMap_append, hmsg]
  · rw [← append_assoc, mem_append, mem_singleton] at hmem
    rcases hmem with hold | rfl
    · exact h.genuine event hold
    · cases hmsg
  · rw [h.forwarded]
    simp [filterMap_append, hev]

/-! ## Events and output -/

omit [ByteLength WireMessage] in
/-- A step that puts the next number at the end of the line, if anywhere. -/
theorem Lined.grow (hcarr : world'.outbound.mailbox.Carries urgent waiting')
    (hline : (world'.line setup waiting').Sublist
      (world.line setup waiting ++ [world.hub.sequence + 1]))
    (hclient : world'.client = world.client) (hhub : world'.hub.identity = world.hub.identity)
    (hseq : world'.hub.sequence = world.hub.sequence + 1)
    (hheard : ∀ event ∈ world'.receiver.pending, event.Genuine world.hub)
    (hgenuine : ∀ event, .event event ∈ world'.wire ++ waiting' → event.Genuine world.hub)
    (hforwarded : world'.forwarded =
      (world.client.accepted ++ world'.wire ++ waiting').filterMap WireMessage.event?) :
    Lined setup world' urgent waiting' where
  carries := hcarr
  answers := h.answers
  ordered := by
    refine List.Pairwise.sublist hline (pairwise_append.mpr
      ⟨h.ordered, pairwise_singleton _ _, fun sequence hmem next hnext => ?_⟩)
    rw [mem_singleton.mp hnext]
    exact Nat.lt_succ_of_le (h.emitted sequence hmem)
  above sequence hmem := by
    rw [hclient]
    rcases mem_snoc.mp (hline.subset hmem) with hold | rfl
    · exact h.above sequence hold
    · exact Nat.lt_succ_of_le h.seen
  emitted sequence hmem := by
    rw [hseq]
    rcases mem_append.mp (hline.subset hmem) with hold | hnew
    · exact Nat.le_succ_of_le (h.emitted sequence hold)
    · exact (mem_singleton.mp hnew).le
  seen := by
    rw [hclient, hseq]
    exact Nat.le_succ_of_le h.seen
  identity := by rw [hclient, hhub, h.identity]
  heard event hmem := by
    unfold HostEvent.Genuine
    rw [hhub]
    exact hheard event hmem
  genuine event hmem := by
    unfold HostEvent.Genuine
    rw [hhub]
    exact hgenuine event hmem
  refused := hclient ▸ h.refused
  forwarded := hclient ▸ hforwarded

end

omit [ByteLength WireMessage] in
theorem emit_identity (lengths : EventArg → Nat) (hub : EventHub) (channel : String)
    (args : List EventArg) : (hub.emit lengths channel args).2.identity = hub.identity := by
  unfold EventHub.emit
  simp only
  split <;> rfl

omit [ByteLength WireMessage] in
theorem send_sublist (receiver : Receiver) (event : HostEvent) :
    (receiver.send event).pending.Sublist (receiver.pending ++ [event]) := by
  unfold Receiver.send
  split
  · exact .refl _
  · exact tail_sublist _

section

variable (h : Lined setup world urgent waiting)
include h

omit [ByteLength WireMessage] in
theorem Lined.emit (channel : String)
    (args : List EventArg) : Lined setup (world.emit lengths channel args) urgent waiting := by
  have hev : (world.hub.emit lengths channel args).1 = world.hub.nextEvent channel args :=
    EventHub.emit_event lengths world.hub channel args
  have hpend : (world.emit lengths channel args).receiver.pending.Sublist
      (world.receiver.pending ++ [world.hub.nextEvent channel args]) := by
    unfold DeliveryWorld.emit
    dsimp only
    split
    · rw [hev]
      exact send_sublist _ _
    · exact sublist_append_left _ _
  refine h.grow h.carries ?_ rfl (emit_identity lengths world.hub channel args)
    (EventHub.emit_sequence lengths world.hub channel args) (fun event hmem => ?_) h.genuine
    h.forwarded
  · unfold DeliveryWorld.line
    rw [append_assoc]
    refine List.Sublist.append_left ?_ _
    have hsent := (hpend.filter setup.forwards).map HostEvent.sequence
    rw [filter_append, map_append] at hsent
    refine hsent.trans (List.Sublist.append_left ?_ _)
    rw [filter_singleton]
    cases setup.forwards (world.hub.nextEvent channel args) with
    | true => exact .refl _
    | false => exact nil_sublist _
  · rcases mem_snoc.mp (hpend.subset hmem) with hold | rfl
    · exact h.heard event hold
    · exact ⟨rfl, rfl, rfl⟩

theorem Lined.emitTerminal {id : String} {sequence : Nat} {data : List UInt8}
    (hprompt : Prompt setup world (.emitTerminal id sequence data)) :
    ∃ waiting', Lined setup (world.emitTerminal id sequence data) urgent waiting' := by
  have hcounted : Lined setup { world with hub := world.hub.emitTerminal.2 } urgent waiting :=
    h.grow h.carries (sublist_append_left _ _) rfl rfl rfl h.heard h.genuine h.forwarded
  unfold DeliveryWorld.emitTerminal
  dsimp only
  split
  · rename_i hsubs
    have htakes := ConnectionOutbound.enqueueTerminal_takes h.carries
      ⟨world.hub.emitTerminal.1, id, sequence, data⟩
    generalize world.outbound.enqueueTerminal _ = outbound at htakes ⊢
    cases htakes with
    | ignored hlistens => exact ⟨waiting, hcounted⟩
    | unencodable | closed =>
      refine ⟨waiting, hcounted.outside ?_ _ _⟩
      rfl
    | fenced hlistens hcarr => exact ⟨_, hcounted.push rfl hcarr⟩
    | sent hlistens hcarr =>
      have hnone : world.receiver.pending.filter setup.forwards = [] :=
        filter_eq_nil_iff.mpr fun event hmem =>
          Bool.eq_false_iff.mp (hprompt hsubs hlistens event hmem)
      refine ⟨_, h.grow hcarr ?_ rfl rfl rfl h.heard (fun event hmem => ?_) ?_⟩
      · unfold DeliveryWorld.line
        simp only [hnone, map_nil, append_nil, filterMap_append]
        rw [append_assoc]
        exact .refl _
      · rw [← append_assoc, mem_append, mem_singleton] at hmem
        exact h.genuine event (hmem.resolve_right nofun)
      · rw [h.forwarded]
        simp [filterMap_append, WireMessage.event?]
  · exact ⟨waiting, hcounted⟩

omit [ByteLength WireMessage] in
theorem Lined.finish {outbound : ConnectionOutbound}
    (hmailbox : outbound.mailbox = world.outbound.mailbox) :
    Lined setup (world.finish outbound) urgent waiting := by
  refine h.outside ?_ _ _
  exact hmailbox

omit [ByteLength WireMessage] in
theorem Lined.unheard {receiver : Receiver}
    (hreceiver : receiver.pending.Sublist world.receiver.pending) :
    Lined setup { world with receiver := receiver } urgent waiting := by
  refine h.thin h.carries h.answers ?_ rfl rfl le_rfl
    (fun event hmem => h.heard event (hreceiver.subset hmem)) h.genuine h.forwarded
  exact List.Sublist.append_left ((hreceiver.filter _).map _) _

end

omit [ByteLength WireMessage] in
theorem forwarding_sent {event sent : HostEvent}
    (h : forwarding 2 setup.snapshotSequence setup.deviceId event = .send sent) :
    sent = event ∧ setup.forwards event = true := by
  refine ⟨?_, by rw [DeliverySetup.forwards, h]⟩
  unfold forwarding at h
  split at h
  · cases h
  split at h
  · dsimp only at h
    split at h <;> cases h
  split at h
  · cases h
  · cases h
    rfl

/-- An event that is forwarded keeps its place in the line. -/
theorem Lined.receive (h : Lined setup world urgent waiting) {received : Received}
    {receiver : Receiver} (hrecv : world.receiver.recv = some (received, receiver)) :
    ∃ waiting', Lined setup (world.receive setup received receiver) urgent waiting' := by
  unfold Receiver.recv at hrecv
  unfold DeliveryWorld.receive
  split at hrecv
  · cases hrecv
    have hsame : Lined setup { world with receiver := { world.receiver with lagged := false } }
        urgent waiting := h.unheard (.refl _)
    exact ⟨waiting, hsame.finish rfl⟩
  cases hpend : world.receiver.pending with
  | nil =>
    rw [hpend] at hrecv
    cases hrecv
  | cons event rest =>
    rw [hpend] at hrecv
    cases hrecv
    have hrest : Lined setup { world with receiver := { world.receiver with pending := rest } }
        urgent waiting := h.unheard (hpend ▸ sublist_cons_self event rest)
    dsimp only
    cases hfwd : forwarding 2 setup.snapshotSequence setup.deviceId event with
    | skip => exact ⟨waiting, hrest⟩
    | revoked => exact ⟨waiting, hrest.finish rfl⟩
    | send sent =>
      obtain ⟨rfl, hforwards⟩ := forwarding_sent hfwd
      have hgenuine := h.heard sent (hpend ▸ mem_cons_self)
      dsimp only
      rcases ConnectionOutbound.enqueueReliable_carries h.carries
        (show WireMessage.isTerminal (.event sent) = false from rfl) with
        ⟨hacc, hcarr⟩ | ⟨hrefused, hmailbox⟩
      · rw [if_pos hacc]
        refine ⟨_, h.thin hcarr h.answers ?_ rfl rfl le_rfl
          (fun event hmem => h.heard event (hpend ▸ mem_cons_of_mem sent hmem))
          (fun event hmem => ?_) ?_⟩
        · unfold DeliveryWorld.line
          rw [hpend, filter_cons_of_pos hforwards, ← append_assoc, filterMap_append, append_assoc]
          exact .refl _
        · rw [← append_assoc, mem_append, mem_singleton] at hmem
          rcases hmem with hold | heq
          · exact h.genuine event hold
          · cases heq
            exact hgenuine
        · dsimp only
          rw [h.forwarded]
          simp [filterMap_append, WireMessage.event?]
      · rw [if_neg (by rw [hrefused]; nofun)]
        exact ⟨waiting, hrest.finish hmailbox⟩

/-! ## The writer and the client -/

/-- The writer puts the head of the queue on the wire. -/
theorem Lined.write (h : Lined setup world urgent waiting) {action : NextOutbound}
    {outbound : ConnectionOutbound} (hnext : world.outbound.next = some (action, outbound)) :
    ∃ urgent' waiting', Lined setup (match action with
      | .frame frame => { world with
          outbound := outbound
          wire := world.wire ++ [frame.data] }
      | _ => { world with outbound := outbound.stop }) urgent' waiting' := by
  cases ConnectionOutbound.next_writes h.carries hnext with
  | close | stopped =>
    refine ⟨urgent, waiting, h.outside ?_ _ _⟩
    rfl
  | @urgent frame others mailbox hattaching hurgent hcarr =>
    have hanswer : frame.data.sequence? = none := h.answers frame.data (hurgent ▸ mem_cons_self)
    refine ⟨others, waiting, h.thin hcarr
      (fun message hmem => h.answers message (hurgent ▸ mem_cons_of_mem _ hmem)) ?_ rfl rfl
      le_rfl h.heard (fun event hmem => ?_) ?_⟩
    · unfold DeliveryWorld.line
      simp [filterMap_append, hanswer]
    · rw [append_assoc, mem_append, singleton_append, mem_cons] at hmem
      rcases hmem with hwire | heq | hwaiting
      · exact h.genuine event (mem_append_left _ hwire)
      · rw [← heq] at hanswer
        cases hanswer
      · exact h.genuine event (mem_append_right _ hwaiting)
    · dsimp only
      rw [h.forwarded]
      simp [filterMap_append, event?_of_sequence? hanswer]
  | @waiting frame others mailbox hattaching hurgent hwaiting hcarr =>
    have hsame : world.wire ++ [frame.data] ++ others = world.wire ++ waiting := by
      rw [hwaiting, append_assoc, singleton_append]
    refine ⟨[], others, h.thin hcarr nofun ?_ rfl rfl le_rfl h.heard
      (fun event hmem => h.genuine event (hsame ▸ hmem)) ?_⟩
    · unfold DeliveryWorld.line
      dsimp only
      rw [hsame]
    · dsimp only
      rw [h.forwarded, hwaiting]
      simp [filterMap_append]

omit [ByteLength WireMessage] in
theorem receive_accepts {client : DeliveryClient} {message : WireMessage} {sequence : Nat}
    {hub : EventHub} (hseq : message.sequence? = some sequence)
    (hlast : client.lastSequence < sequence) (hidentity : client.identity = some hub.identity)
    (hgenuine : ∀ event, message = .event event → event.Genuine hub) :
    client.receive message = { client with
      lastSequence := sequence
      accepted := client.accepted ++ [message] } := by
  have haccepts : ∀ event : HostEvent, event.sequence = sequence → event.Genuine hub →
      client.take message event = { client with
        lastSequence := sequence
        accepted := client.accepted ++ [message] } := by
    intro event heq hgenuine
    obtain ⟨hprotocol, hserver, hepoch⟩ := hgenuine
    have hacc : acceptHostEvent client.lastSequence event client.identity = true := by
      unfold acceptHostEvent
      rw [if_neg (by omega), hprotocol, if_neg (by decide), hidentity, hserver, hepoch]
      simp
    unfold DeliveryClient.take
    rw [if_pos hacc, heq]
  cases message with
  | event event => exact haccepts event (Option.some.inj hseq) (hgenuine event rfl)
  | terminal eventSequence terminalSequence terminalId data =>
    have hev : terminalData client.identity eventSequence terminalSequence terminalId =
        .modern hub.identity eventSequence "terminal:data"
          [.text terminalId, .number terminalSequence] := by
      rw [hidentity]
      rfl
    refine haccepts (terminalData client.identity eventSequence terminalSequence terminalId) ?_ ?_
    · rw [hev]
      exact Option.some.inj hseq
    · rw [hev]
      exact ⟨rfl, rfl, rfl⟩
  | _ => cases hseq

section

variable (h : Lined setup world urgent waiting)
include h

omit [ByteLength WireMessage] in
/-- The client accepts the first message with a number on the wire. -/
theorem Lined.deliver {message : WireMessage}
    {rest : List WireMessage} (hwire : world.wire = message :: rest) :
    Lined setup { world with
      wire := rest
      client := world.client.receive message } urgent waiting := by
  have htail : ∀ event, .event event ∈ rest ++ waiting → event.Genuine world.hub := by
    intro event hmem
    refine h.genuine event ?_
    rw [hwire, cons_append]
    exact mem_cons_of_mem _ hmem
  cases hseq : message.sequence? with
  | none =>
    have hclient : world.client.receive message = world.client := by
      cases message <;> first | rfl | cases hseq
    refine h.thin h.carries h.answers ?_ hclient rfl le_rfl h.heard htail ?_
    · unfold DeliveryWorld.line
      simp [hwire, hseq]
    · dsimp only
      rw [h.forwarded, hwire]
      simp [filterMap_append, event?_of_sequence? hseq]
  | some sequence =>
    have hline : world.line setup waiting = sequence :: DeliveryWorld.line setup { world with
        wire := rest
        client := world.client.receive message } waiting := by
      unfold DeliveryWorld.line
      simp [hwire, hseq]
    have hfirst : sequence ∈ world.line setup waiting := hline ▸ mem_cons_self
    have hordered := h.ordered
    rw [hline, pairwise_cons] at hordered
    have hclient := receive_accepts hseq (h.above sequence hfirst) h.identity
      fun event heq => h.genuine event (by
        rw [hwire, heq]
        exact mem_cons_self)
    refine
      { carries := h.carries
        answers := h.answers
        ordered := hordered.2
        above := fun other hmem => ?_
        emitted := fun other hmem => h.emitted other (hline ▸ mem_cons_of_mem _ hmem)
        seen := ?_
        identity := ?_
        heard := h.heard
        genuine := htail
        refused := ?_
        forwarded := ?_ }
    · show (world.client.receive message).lastSequence < other
      rw [hclient]
      exact hordered.1 other hmem
    · show (world.client.receive message).lastSequence ≤ world.hub.sequence
      rw [hclient]
      exact h.emitted sequence hfirst
    · show (world.client.receive message).identity = _
      rw [hclient]
      exact h.identity
    · show (world.client.receive message).refused = []
      rw [hclient]
      exact h.refused
    · show world.forwarded = ((world.client.receive message).accepted ++ rest ++ waiting).filterMap _
      rw [hclient, h.forwarded, hwire]
      simp [filterMap_append]

/-! ## Runs -/

/-- The answer to an attach jumps the queue. -/
theorem Lined.attachResult (id : String)
    (snapshotSequence : Option Nat) (subscribed : Finset String) :
    ((world.outbound.enqueueAttachResult id snapshotSequence).1 = false ∧
        (world.outbound.enqueueAttachResult id snapshotSequence).2.mailbox =
          world.outbound.mailbox) ∨
      ∃ urgent' waiting', Lined setup { world with
        outbound := (world.outbound.enqueueAttachResult id snapshotSequence).2
        subscribed := subscribed } urgent' waiting' := by
  have hanswers : ∀ message ∈ urgent ++ [WireMessage.attachResult id snapshotSequence],
      message.sequence? = none := by
    intro message hmem
    rcases mem_snoc.mp hmem with hold | rfl
    · exact h.answers message hold
    · rfl
  have hres := ConnectionOutbound.enqueueAttachResult_answers h.carries id snapshotSequence
  generalize world.outbound.enqueueAttachResult id snapshotSequence = result at hres ⊢
  obtain ⟨accepted, outbound⟩ := result
  dsimp only at hres ⊢
  cases hres with
  | closed => exact .inl ⟨rfl, rfl⟩
  | failed hcarr =>
    exact .inr ⟨_, waiting, h.thin hcarr hanswers (.refl _) rfl rfl
      le_rfl h.heard h.genuine h.forwarded⟩
  | @attached sequence mailbox hcarr =>
    have hevs : (waiting.filter fun message => !message.isThrough id sequence).filterMap
        WireMessage.event? = waiting.filterMap WireMessage.event? := by
      rw [filterMap_filter]
      refine filterMap_congr fun message _ => ?_
      cases message <;> simp [WireMessage.isThrough, WireMessage.event?]
    refine .inr ⟨_, _, h.thin hcarr hanswers ?_ rfl rfl le_rfl h.heard (fun event hmem => ?_) ?_⟩
    · unfold DeliveryWorld.line
      rw [filterMap_append, filterMap_append]
      exact ((List.Sublist.refl _).append (filter_sublist.filterMap _)).append (List.Sublist.refl _)
    · refine h.genuine event ((mem_append.mp hmem).elim (mem_append_left _) ?_)
      exact fun hwaiting => mem_append_right _ (mem_of_mem_filter hwaiting)
    · dsimp only
      rw [h.forwarded]
      simp only [filterMap_append, hevs]

/-- One step keeps the line, if output is put into the mailbox only when no
event waits to be forwarded. -/
theorem lined_step {action : DeliveryAction} (hprompt : Prompt setup world action)
    (hstep : (deliverySystem lengths setup).step world action = some world') :
    ∃ urgent' waiting', Lined setup world' urgent' waiting' := by
  replace hstep : world.step lengths setup action = some world' := hstep
  cases action with
  | emit channel args =>
    cases hstep
    exact ⟨urgent, waiting, h.emit channel args⟩
  | emitTerminal terminalId sequence data =>
    cases hstep
    obtain ⟨waiting', hlined⟩ := h.emitTerminal hprompt
    exact ⟨urgent, waiting', hlined⟩
  | receive =>
    obtain ⟨-, hstep⟩ := ite_none_right_eq_some.mp hstep
    obtain ⟨⟨received, receiver⟩, hrecv, rfl⟩ := map_eq_some_iff.mp hstep
    obtain ⟨waiting', hlined⟩ := h.receive hrecv
    exact ⟨urgent, waiting', hlined⟩
  | attach | detach | acknowledge =>
    obtain ⟨-, hstep⟩ := ite_none_right_eq_some.mp hstep
    cases hstep
    refine ⟨urgent, waiting, h.outside ?_ _ _⟩
    rfl
  | attachResult terminalId snapshotSequence =>
    have hsubs : ∃ subscribed, (if snapshotSequence.isNone then
        { world with subscribed := world.subscribed.erase terminalId } else world) =
          { world with subscribed := subscribed } := by
      split
      · exact ⟨_, rfl⟩
      · exact ⟨world.subscribed, rfl⟩
    obtain ⟨subscribed, hsame⟩ := hsubs
    have hres := h.attachResult terminalId snapshotSequence subscribed
    unfold DeliveryWorld.step at hstep
    dsimp only at hstep
    rw [hsame] at hstep
    generalize world.outbound.enqueueAttachResult terminalId snapshotSequence = result at hstep hres
    obtain ⟨accepted, outbound⟩ := result
    dsimp only at hstep hres
    split at hstep
    · rcases hres with ⟨rfl, hmailbox⟩ | ⟨urgent', waiting', hlined⟩
      · cases hstep
        refine ⟨urgent, waiting, h.outside ?_ _ _⟩
        exact hmailbox
      · split at hstep <;> cases hstep
        · exact ⟨urgent', waiting', hlined⟩
        · exact ⟨urgent', waiting', hlined.finish rfl⟩
    · cases hstep
  | answer =>
    have hres := ConnectionOutbound.enqueueReliable_carries h.carries
      (show WireMessage.isTerminal .answer = false from rfl)
    unfold DeliveryWorld.step at hstep
    dsimp only at hstep
    split at hstep
    · rcases hres with ⟨hacc, hcarr⟩ | ⟨hrefused, hmailbox⟩
      · rw [if_pos hacc] at hstep
        cases hstep
        exact ⟨urgent, _, h.push rfl hcarr⟩
      · rw [if_neg (by rw [hrefused]; nofun)] at hstep
        cases hstep
        exact ⟨urgent, waiting, h.finish hmailbox⟩
    · cases hstep
  | disconnect =>
    obtain ⟨-, hstep⟩ := ite_none_right_eq_some.mp hstep
    cases hstep
    exact ⟨urgent, waiting, h.finish rfl⟩
  | write =>
    unfold DeliveryWorld.step at hstep
    cases hnext : world.outbound.next with
    | none =>
      simp only [hnext] at hstep
      cases hstep
    | some result =>
      obtain ⟨action, outbound⟩ := result
      obtain ⟨urgent', waiting', hlined⟩ := h.write hnext
      cases action <;> (simp only [hnext] at hstep; cases hstep) <;>
        exact ⟨urgent', waiting', hlined⟩
  | deliver =>
    unfold DeliveryWorld.step at hstep
    cases hwire : world.wire with
    | nil =>
      simp only [hwire] at hstep
      cases hstep
    | cons message rest =>
      simp only [hwire] at hstep
      cases hstep
      exact ⟨urgent, waiting, h.deliver hwire⟩

end

omit [ByteLength WireMessage] in
theorem DeliveryWorld.Started.lined (h : world.Started setup) : Lined setup world [] [] := by
  have hpend : ((world.receiver.pending.filter setup.forwards).map
      HostEvent.sequence).Sublist (world.receiver.pending.map HostEvent.sequence) :=
    filter_sublist.map _
  have hline : world.line setup [] =
      (world.receiver.pending.filter setup.forwards).map HostEvent.sequence := by
    unfold DeliveryWorld.line
    rw [h.wire]
    rfl
  have hlast : world.client.lastSequence = setup.snapshotSequence := by rw [h.client]
  refine
    { carries := ?_
      answers := nofun
      ordered := hline ▸ h.ordered.sublist hpend
      above := fun sequence hmem => ?_
      emitted := fun sequence hmem => ?_
      seen := hlast ▸ h.cursor
      identity := by rw [h.client]
      heard := h.genuine
      genuine := ?_
      refused := by rw [h.client]
      forwarded := ?_ }
  · rw [h.outbound]
    exact OutboundMailbox.Carries.new setup.limits
  · rw [hline] at hmem
    obtain ⟨event, hev, rfl⟩ := mem_map.mp hmem
    have hforwards := (mem_filter.mp hev).2
    unfold DeliverySetup.forwards forwarding at hforwards
    rw [hlast]
    by_contra hlow
    rw [if_pos ⟨rfl, Nat.le_of_not_lt hlow⟩] at hforwards
    cases hforwards
  · rw [hline] at hmem
    obtain ⟨event, hev, rfl⟩ := mem_map.mp hmem
    exact h.emitted event (mem_of_mem_filter hev)
  · rw [h.wire]
    exact nofun
  · rw [h.forwarded, h.client, h.wire]
    rfl

end Steps

/-- In every run in which output is put into the mailbox only when no event
waits to be forwarded, the client accepts all it is sent. -/
theorem none_lost [ByteLength WireMessage] {lengths : EventArg → Nat} {setup : DeliverySetup}
    {world : DeliveryWorld}
    (hrun : (deliverySystem lengths setup).Run (Prompt setup) world) : NoneLost world := by
  have hlined : IsLined setup world := by
    refine hrun.invariant (fun world hstarted => ⟨[], [], hstarted.lined⟩) ?_
    rintro world action world' ⟨urgent, waiting, hlined⟩ hprompt hstep
    exact lined_step hlined hprompt hstep
  obtain ⟨urgent, waiting, hlined⟩ := hlined
  exact hlined.noneLost

section Sample

/-- Every message counts for one byte. -/
local instance sampleLength : ByteLength WireMessage := ⟨fun _ => 1⟩

def sampleDeliverySetup : DeliverySetup := ⟨0, none, {}, 1024⟩

def sampleDelivery : DeliveryWorld where
  hub := .withLimits ⟨"server", "epoch"⟩ 16 4096
  receiver := ⟨16, [], false⟩
  serving := true
  outbound := .new 2 1024 {}
  subscribed := ∅
  wire := []
  client := ⟨some ⟨"server", "epoch"⟩, 0, [], []⟩
  forwarded := []

theorem sampleDelivery_started : sampleDelivery.Started sampleDeliverySetup :=
  ⟨rfl, rfl, rfl, rfl, rfl, rfl, le_rfl, nofun, List.Pairwise.nil, nofun⟩

def attachActions : List DeliveryAction :=
  [.attach "t" 0 true, .attachResult "t" (some 0)]

def promptActions : List DeliveryAction :=
  attachActions ++ [.emit "mux:event" [], .receive, .emitTerminal "t" 1 [104], .write, .write,
    .write, .deliver, .deliver, .deliver]

def lateActions : List DeliveryAction :=
  attachActions ++ [.emit "mux:event" [], .emitTerminal "t" 1 [104], .receive, .write, .write,
    .write, .deliver, .deliver, .deliver]

def promptCheck (world : DeliveryWorld) : DeliveryAction → Bool
  | .emitTerminal _ _ _ => world.receiver.pending.isEmpty
  | _ => true

theorem promptCheck_prompt {world : DeliveryWorld} {action : DeliveryAction}
    (hcheck : promptCheck world action = true) : Prompt sampleDeliverySetup world action := by
  cases action with
  | emitTerminal terminalId sequence data =>
    intro _ _ event hmem
    rw [isEmpty_iff.mp (show world.receiver.pending.isEmpty = true from hcheck)] at hmem
    cases hmem
  | _ => trivial

theorem none_lost_sample : ∃ world,
    (deliverySystem (fun _ => 1) sampleDeliverySetup).Run (Prompt sampleDeliverySetup) world ∧
    world.client.accepted.length = 2 ∧ NoneLost world := by
  have hany : ((deliverySystem (fun _ => 1) sampleDeliverySetup).replay promptCheck sampleDelivery
      promptActions).any (fun world => world.client.accepted.length == 2) = true := by decide
  obtain ⟨world, hworld, hlength⟩ := (any_eq_true _ _).mp hany
  have hrun : (deliverySystem (fun _ => 1) sampleDeliverySetup).Run (Prompt sampleDeliverySetup)
      world := System.replay_run (System.Run.start sampleDelivery_started)
    (fun _ _ _ hcheck => promptCheck_prompt hcheck) hworld
  exact ⟨world, hrun, beq_iff_eq.mp hlength, none_lost hrun⟩

/-- The event is behind the output, and the client drops it. -/
theorem none_lost_rejected : ¬ ∀ world,
    (deliverySystem (fun _ => 1) sampleDeliverySetup).Reachable world → NoneLost world := by
  intro hall
  have hany : ((deliverySystem (fun _ => 1) sampleDeliverySetup).replay (fun _ _ => true)
      sampleDelivery lateActions).any (fun world => world.client.refused.length == 1) = true := by
    decide
  obtain ⟨world, hworld, hlength⟩ := (any_eq_true _ _).mp hany
  have hrun : (deliverySystem (fun _ => 1) sampleDeliverySetup).Reachable world :=
    System.replay_run (System.Run.start sampleDelivery_started) (fun _ _ _ _ => trivial) hworld
  rw [beq_iff_eq, (hall world hrun).1] at hlength
  cases hlength

end Sample

end Yaade.Connection

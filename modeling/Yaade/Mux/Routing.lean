import Yaade.Mux.MultiServer

/-!
Runs of a client of several servers: replies and events arrive, commands are
sent.
-/

namespace Yaade.Mux

open Yaade.Library List

/-- What arrives from a server. -/
inductive Message where
  | session (session : AppSession)
  | tab (tab : SessionTab)
  | muxTerminal (terminal : MuxTerminal)
  | snapshot (snapshot : MuxSessionSnapshot)
  | event (event : MuxEvent)
  | process (ptyId : PtyId)

section Ids

def AppSession.entities (session : AppSession) : List AnyId := [anyId session.id]

def AppSession.references (session : AppSession) : List AnyId :=
  session.activeTabId.toList.map anyId ++ session.activeMuxTerminalId.toList.map anyId

def SessionTab.entities (tab : SessionTab) : List AnyId := [anyId tab.id, anyId tab.sessionId]

def SessionTab.references (tab : SessionTab) : List AnyId :=
  tab.activeMuxTerminalId.toList.map anyId

def MuxTerminal.entities (terminal : MuxTerminal) : List AnyId :=
  anyId terminal.id :: anyId terminal.sessionId :: terminal.output.ptyId.toList.map anyId

def MuxTerminal.references (terminal : MuxTerminal) : List AnyId := terminal.tabId.toList.map anyId

def MuxSessionSnapshot.entities (snapshot : MuxSessionSnapshot) : List AnyId :=
  snapshot.session.entities ++ (snapshot.tabs.getD []).flatMap SessionTab.entities ++
    snapshot.muxTerminals.flatMap MuxTerminal.entities

def MuxSessionSnapshot.references (snapshot : MuxSessionSnapshot) : List AnyId :=
  snapshot.session.references ++ (snapshot.tabs.getD []).flatMap SessionTab.references ++
    snapshot.muxTerminals.flatMap MuxTerminal.references

def MuxEvent.entities : MuxEvent → List AnyId
  | .session _ value => value.entities
  | .tab _ value => value.entities
  | .muxTerminal _ _ terminal => terminal.entities
  | .terminalOutputChanged _ output => output.ptyId.toList.map anyId
  | .muxTerminalArchived _ => []

def MuxEvent.references : MuxEvent → List AnyId
  | .session _ value => value.references
  | .tab _ value => value.references
  | .muxTerminal _ muxTerminalId terminal => anyId muxTerminalId :: terminal.references
  | .terminalOutputChanged muxTerminalId _ | .muxTerminalArchived muxTerminalId =>
    [anyId muxTerminalId]

def Message.entities : Message → List AnyId
  | .session value => value.entities
  | .tab value => value.entities
  | .muxTerminal terminal => terminal.entities
  | .snapshot value => value.entities
  | .event value => value.entities
  | .process ptyId => [anyId ptyId]

def Message.references : Message → List AnyId
  | .session value => value.references
  | .tab value => value.references
  | .muxTerminal terminal => terminal.references
  | .snapshot value => value.references
  | .event value => value.references
  | .process _ => []

def Message.ids (message : Message) : List AnyId := message.entities ++ message.references

end Ids

section Receive

variable (current serverId : ServerId)

def publicAny (id : AnyId) : AnyId := anyId (publicId current serverId id.2)

def keysOf (id : AnyId) : List AnyId :=
  if keepLocalIds current serverId then [id] else [id, anyId (id.2.scoped serverId)]

/-- What a message makes the client record: the id and the entity it is to
stand for. A changed output records its process under the public id only. -/
def Message.records : Message → List (AnyId × AnyId)
  | .event (.terminalOutputChanged _ output) =>
    output.ptyId.toList.map fun ptyId => (publicAny current serverId (anyId ptyId), anyId ptyId)
  | .process ptyId => [(publicAny current serverId (anyId ptyId), anyId ptyId)]
  | message => message.entities.flatMap fun id =>
    (keysOf current serverId id).map fun key => (key, id)

def scopeMessage (owners : Owners) : Message → Owners × Message
  | .session session => (scopeSession current serverId owners session).map id .session
  | .tab tab => (scopeTab current serverId owners tab).map id .tab
  | .muxTerminal terminal => (scopeMuxTerminal current serverId owners terminal).map id .muxTerminal
  | .snapshot snapshot => (scopeSnapshot current serverId owners snapshot).map id .snapshot
  | .event event => (scopeEvent current serverId owners event).map id .event
  | .process ptyId =>
    (owners.set (scopePtyId current serverId ptyId) ⟨serverId, ptyId⟩,
      .process (scopePtyId current serverId ptyId))

end Receive

/-- A public id that was handed out, and the entity it was handed out for. -/
structure Handed where
  serverId : ServerId
  localId : AnyId
  publicId : AnyId
  deriving DecidableEq

/-- A command, the owners known when it was given, and what it sent. -/
structure Issued where
  command : MuxCommand
  owners : Owners
  requests : List Request

structure RoutingWorld where
  activeServer : ServerId
  owners : Owners
  handed : List Handed
  seen : List (ServerId × AnyId)
  issued : List Issued

inductive RoutingAction where
  | receive (serverId : ServerId) (message : Message)
  | selectServer (serverId : ServerId)
  | send (command : MuxCommand)

namespace RoutingWorld

def start (config : RoutingConfig) : RoutingWorld := ⟨config.current, .empty, [], [], []⟩

def handedBy (current serverId : ServerId) (message : Message) : List Handed :=
  message.ids.map fun id => ⟨serverId, id, publicAny current serverId id⟩

def receive (config : RoutingConfig) (world : RoutingWorld) (serverId : ServerId)
    (message : Message) : RoutingWorld :=
  let (owners, handed) := scopeMessage config.current serverId world.owners message
  { world with
    owners := owners
    handed := world.handed ++ (message.ids.zip handed.ids).map fun id => ⟨serverId, id.1, id.2⟩
    seen := world.seen ++ message.ids.map fun id => (serverId, id) }

def selectServer (config : RoutingConfig) (world : RoutingWorld) (serverId : ServerId) :
    RoutingWorld :=
  if serverId ∈ config.servers then { world with activeServer := serverId } else world

/-- A session that a command selects makes its server the active one, also when
the command is then rejected. -/
def select (config : RoutingConfig) (world : RoutingWorld) (command : MuxCommand) :
    RoutingWorld :=
  match command.selects.bind fun sessionId => (world.owners .session).get? sessionId with
  | some owner => world.selectServer config owner.serverId
  | none => world

def send (config : RoutingConfig) (world : RoutingWorld) (command : MuxCommand) : RoutingWorld :=
  { world.select config command with
    issued := world.issued ++ [⟨command, world.owners,
      (route config world.owners world.activeServer command).toOption.getD []⟩] }

end RoutingWorld

def routingSystem (config : RoutingConfig) : System RoutingWorld RoutingAction where
  initial := (· = .start config)
  step world
    | .receive serverId message =>
      if serverId ∈ config.servers then some (world.receive config serverId message) else none
    | .selectServer serverId => some (world.selectServer config serverId)
    | .send command => some (world.send config command)

def resolve (owners : Owners) (id : AnyId) : Option (ServerId × AnyId) :=
  ((owners id.1).get? id.2).map fun owner => (owner.serverId, anyId owner.localId)

def NamesTwo (owners : Owners) (command : MuxCommand) : Prop :=
  ∃ first ∈ command.names, ∃ second ∈ command.names, ∃ firstOwner secondOwner,
    resolve owners first = some firstOwner ∧ resolve owners second = some secondOwner ∧
      firstOwner.1 ≠ secondOwner.1

structure Isolated (world : RoutingWorld) : Prop where
  distinct : ∀ first ∈ world.handed, ∀ second ∈ world.handed, first.publicId = second.publicId →
    first.serverId = second.serverId ∧ first.localId = second.localId
  resolves : ∀ handed ∈ world.handed,
    resolve world.owners handed.publicId = some (handed.serverId, handed.localId)
  rejected : ∀ issued ∈ world.issued, NamesTwo issued.owners issued.command → issued.requests = []
  apart : ∀ issued ∈ world.issued, ∀ request ∈ issued.requests, ∀ id ∈ request.command.names,
    (request.serverId, id) ∈ world.seen

def MuxCommand.moves : MuxCommand → Bool
  | .moveTerminal _ _ => true
  | _ => false

def OneServer (owners : Owners) (command : MuxCommand) : Prop :=
  ∀ first ∈ command.names, ∀ second ∈ command.names,
    (resolve owners first).isSome = true → (resolve owners second).isSome = true →
      (resolve owners first).map Prod.fst = (resolve owners second).map Prod.fst

instance (owners : Owners) (command : MuxCommand) : Decidable (OneServer owners command) := by
  unfold OneServer
  infer_instance

/-- No id that a message makes the client record was handed out for something
else, what a message only names was handed out before or comes with it, and a
command that does not move a terminal names entities of one server. -/
def Careful (config : RoutingConfig) (world : RoutingWorld) : RoutingAction → Prop
  | .receive serverId message =>
    (∀ record ∈ message.records config.current serverId,
      ∀ handed ∈ world.handed ++ RoutingWorld.handedBy config.current serverId message,
        handed.publicId = record.1 → handed.serverId = serverId ∧ handed.localId = record.2) ∧
      ∀ id ∈ message.references, id ∈ message.entities ∨
        ∃ handed ∈ world.handed, handed.serverId = serverId ∧ handed.localId = id
  | .selectServer _ => True
  | .send command => command.moves = true ∨ OneServer world.owners command

instance (config : RoutingConfig) (world : RoutingWorld) (action : RoutingAction) :
    Decidable (Careful config world action) := by
  cases action <;> unfold Careful <;> infer_instance

/-! ## What is recorded -/

variable {current serverId : ServerId}

section Records

variable {owners next last : Owners}

theorem resolve_set {kind : EntityKind} (id : EntityId kind) (owner : Owner kind) (key : AnyId) :
    resolve (owners.set id owner) key =
      if key = anyId id then some (owner.serverId, anyId owner.localId) else resolve owners key := by
  obtain ⟨other, value⟩ := key
  unfold resolve Owners.set
  by_cases hkind : other = kind
  · subst hkind
    simp only [Function.update_self, IndexMap.get?_insert, anyId, Sigma.mk.injEq, heq_eq_eq, true_and]
    split <;> rfl
  · have hkey : (⟨other, value⟩ : AnyId) ≠ anyId id := fun heq => hkind (congrArg Sigma.fst heq)
    rw [if_neg hkey]
    simp only [Function.update_of_ne hkind]

/-- Every id either stands for what the last of the records with it says, or
for what it stood for. -/
def Records (serverId : ServerId) (owners next : Owners) (records : List (AnyId × AnyId)) : Prop :=
  ∀ key, (∃ record ∈ records, record.1 = key ∧ resolve next key = some (serverId, record.2)) ∨
    ((∀ record ∈ records, record.1 ≠ key) ∧ resolve next key = resolve owners key)

theorem Records.nil : Records serverId owners owners [] :=
  fun _ => .inr ⟨forall_mem_nil _, rfl⟩

theorem Records.set {kind : EntityKind} (id localId : EntityId kind) :
    Records serverId owners (owners.set id ⟨serverId, localId⟩) [(anyId id, anyId localId)] := by
  intro key
  rw [resolve_set]
  by_cases hkey : key = anyId id
  · exact .inl ⟨_, mem_singleton.mpr rfl, hkey.symm, if_pos hkey⟩
  refine .inr ⟨fun record hmem => ?_, if_neg hkey⟩
  rw [mem_singleton.mp hmem]
  exact Ne.symm hkey

theorem Records.append {first second : List (AnyId × AnyId)} (h : Records serverId owners next first)
    (h' : Records serverId next last second) : Records serverId owners last (first ++ second) := by
  intro key
  rcases h' key with ⟨record, hmem, hkey, hlast⟩ | ⟨hnone, hlast⟩
  · exact .inl ⟨record, mem_append_right _ hmem, hkey, hlast⟩
  rcases h key with ⟨record, hmem, hkey, hnext⟩ | ⟨hneither, hnext⟩
  · exact .inl ⟨record, mem_append_left _ hmem, hkey, hlast.trans hnext⟩
  refine .inr ⟨fun record hmem => ?_, hlast.trans hnext⟩
  rcases mem_append.mp hmem with hfirst | hsecond
  · exact hneither record hfirst
  · exact hnone record hsecond

def entityRecords (current serverId : ServerId) (ids : List AnyId) : List (AnyId × AnyId) :=
  ids.flatMap fun id => (keysOf current serverId id).map fun key => (key, id)

theorem recordOwner_records {kind : EntityKind} (id : EntityId kind) :
    Records serverId owners (recordOwner current serverId owners id)
      (entityRecords current serverId [anyId id]) := by
  unfold recordOwner entityRecords keysOf
  by_cases hkeep : keepLocalIds current serverId = true
  · simp only [hkeep, if_true, flatMap_cons, flatMap_nil, map_cons, map_nil, append_nil]
    exact Records.set id id
  · simp only [hkeep, Bool.false_eq_true, if_false, flatMap_cons, flatMap_nil,
      map_cons, map_nil, append_nil]
    exact (Records.set id id).append (Records.set (id.scoped serverId) id)

theorem Records.entities {first second : List AnyId}
    (h : Records serverId owners next (entityRecords current serverId first))
    (h' : Records serverId next last (entityRecords current serverId second)) :
    Records serverId owners last (entityRecords current serverId (first ++ second)) := by
  unfold entityRecords at *
  rw [flatMap_append]
  exact h.append h'

theorem scopeSession_records (session : AppSession) :
    Records serverId owners (scopeSession current serverId owners session).1
      (entityRecords current serverId session.entities) :=
  recordOwner_records session.id

theorem scopeTab_records (owners : Owners) (tab : SessionTab) :
    Records serverId owners (scopeTab current serverId owners tab).1
      (entityRecords current serverId tab.entities) :=
  (recordOwner_records tab.id).entities (recordOwner_records tab.sessionId)

theorem scopeMuxTerminal_records (owners : Owners) (terminal : MuxTerminal) :
    Records serverId owners (scopeMuxTerminal current serverId owners terminal).1
      (entityRecords current serverId terminal.entities) := by
  have hboth := Records.entities (@recordOwner_records current serverId owners _ terminal.id)
    (recordOwner_records terminal.sessionId)
  unfold scopeMuxTerminal MuxTerminal.entities
  cases hpty : terminal.output.ptyId with
  | none => exact hboth
  | some ptyId => exact hboth.entities (recordOwner_records ptyId)

theorem scopeList_records {α : Type} {scope : Owners → α → Owners × α} {entities : α → List AnyId}
    (h : ∀ owners value, Records serverId owners (scope owners value).1
      (entityRecords current serverId (entities value))) (values : List α) :
    Records serverId owners (scopeList scope owners values).1
      (entityRecords current serverId (values.flatMap entities)) := by
  induction values generalizing owners with
  | nil => exact .nil
  | cons value rest ih =>
    rw [flatMap_cons]
    exact (h owners value).entities ih

theorem scopeSnapshot_records (snapshot : MuxSessionSnapshot) :
    Records serverId owners (scopeSnapshot current serverId owners snapshot).1
      (entityRecords current serverId snapshot.entities) := by
  unfold scopeSnapshot MuxSessionSnapshot.entities
  have hsess := @scopeSession_records current serverId owners snapshot.session
  have hterms := fun owners : Owners =>
    @scopeList_records current serverId owners _ _ _ scopeMuxTerminal_records snapshot.muxTerminals
  cases snapshot.tabs with
  | none => exact (hsess.entities .nil).entities (hterms _)
  | some tabs =>
    exact (hsess.entities (scopeList_records scopeTab_records tabs)).entities (hterms _)

theorem publicAny_pty (ptyId : PtyId) :
    anyId (scopePtyId current serverId ptyId) = publicAny current serverId (anyId ptyId) := by
  unfold publicAny publicId scopingOf scopePtyId keepLocalIds anyId
  by_cases hcur : serverId = current
  · simp [hcur, Scoping.publicId]
  · simp [hcur, Scoping.publicId]

theorem scopeMessage_records (message : Message) :
    Records serverId owners (scopeMessage current serverId owners message).1
      (message.records current serverId) := by
  cases message with
  | session session => exact scopeSession_records session
  | tab tab => exact scopeTab_records owners tab
  | muxTerminal terminal => exact scopeMuxTerminal_records owners terminal
  | snapshot snapshot => exact scopeSnapshot_records snapshot
  | process ptyId =>
    have hset := @Records.set serverId owners _ (scopePtyId current serverId ptyId) ptyId
    rw [publicAny_pty] at hset
    exact hset
  | event event =>
    cases event with
    | session event session => exact scopeSession_records session
    | tab event tab => exact scopeTab_records owners tab
    | muxTerminal created muxTerminalId terminal => exact scopeMuxTerminal_records owners terminal
    | muxTerminalArchived muxTerminalId => exact .nil
    | terminalOutputChanged muxTerminalId output =>
      cases hpty : output.ptyId with
      | none =>
        simp only [scopeMessage, scopeEvent, Message.records, hpty]
        exact .nil
      | some ptyId =>
        have hset := @Records.set serverId owners _ (scopePtyId current serverId ptyId) ptyId
        rw [publicAny_pty] at hset
        simp only [scopeMessage, scopeEvent, Message.records, hpty]
        exact hset

theorem publicAny_mem_keysOf (id : AnyId) :
    publicAny current serverId id ∈ keysOf current serverId id := by
  unfold publicAny publicId scopingOf keysOf
  by_cases hkeep : keepLocalIds current serverId = true
  · simp only [hkeep, if_true, Scoping.publicId]
    exact mem_singleton.mpr rfl
  · simp only [hkeep, Bool.false_eq_true, if_false, Scoping.publicId]
    exact mem_cons_of_mem _ (mem_singleton.mpr rfl)

theorem mem_entityRecords {ids : List AnyId} {record : AnyId × AnyId} :
    record ∈ entityRecords current serverId ids ↔
      record.2 ∈ ids ∧ record.1 ∈ keysOf current serverId record.2 := by
  unfold entityRecords
  simp only [mem_flatMap, mem_map]
  constructor
  · rintro ⟨id, hid, key, hkey, rfl⟩
    exact ⟨hid, hkey⟩
  · rintro ⟨hid, hkey⟩
    exact ⟨record.2, hid, record.1, hkey, rfl⟩

theorem public_recorded {message : Message} {id : AnyId} (h : id ∈ message.entities) :
    (publicAny current serverId id, id) ∈ message.records current serverId := by
  have hentity : (publicAny current serverId id, id) ∈
      entityRecords current serverId message.entities :=
    mem_entityRecords.mpr ⟨h, publicAny_mem_keysOf id⟩
  cases message with
  | process ptyId =>
    cases mem_singleton.mp h
    exact mem_singleton.mpr rfl
  | event event =>
    cases event with
    | terminalOutputChanged muxTerminalId output =>
      obtain ⟨ptyId, hpty, rfl⟩ := mem_map.mp h
      exact mem_map.mpr ⟨ptyId, hpty, rfl⟩
    | _ => exact hentity
  | _ => exact hentity

theorem recorded_entity {message : Message} {record : AnyId × AnyId}
    (h : record ∈ message.records current serverId) : record.2 ∈ message.entities := by
  cases message with
  | process ptyId =>
    rw [mem_singleton.mp h]
    exact mem_singleton.mpr rfl
  | event event =>
    cases event with
    | terminalOutputChanged muxTerminalId output =>
      obtain ⟨ptyId, hpty, rfl⟩ := mem_map.mp h
      exact mem_map.mpr ⟨ptyId, hpty, rfl⟩
    | _ => exact (mem_entityRecords.mp h).1
  | _ => exact (mem_entityRecords.mp h).1

end Records

/-! ## What is handed out -/

variable {owners : Owners}

section Public

theorem publicAny_keep (hkeep : keepLocalIds current serverId = true) (id : AnyId) :
    publicAny current serverId id = id := by
  unfold publicAny publicId scopingOf
  rw [if_pos hkeep]
  rfl

theorem publicAny_remote (hremote : ¬keepLocalIds current serverId = true) {kind : EntityKind}
    (id : EntityId kind) : publicAny current serverId (anyId id) = anyId (id.scoped serverId) := by
  unfold publicAny publicId scopingOf
  rw [if_neg hremote]
  rfl

theorem map_publicAny_keep (hkeep : keepLocalIds current serverId = true) (ids : List AnyId) :
    ids.map (publicAny current serverId) = ids := by
  rw [map_congr_left fun id _ => publicAny_keep hkeep id, map_id']

theorem map_option (hremote : ¬keepLocalIds current serverId = true) {kind : EntityKind}
    (id : Option (EntityId kind)) : (id.toList.map anyId).map (publicAny current serverId) =
      (id.map (EntityId.scoped serverId)).toList.map anyId := by
  cases id with
  | none => rfl
  | some id =>
    simp only [Option.toList_some, map_cons, map_nil, Option.map_some, publicAny_remote hremote]

theorem scopeSession_ids (session : AppSession) :
    (scopeSession current serverId owners session).2.entities =
        session.entities.map (publicAny current serverId) ∧
      (scopeSession current serverId owners session).2.references =
        session.references.map (publicAny current serverId) := by
  unfold scopeSession
  by_cases hkeep : keepLocalIds current serverId = true
  · rw [if_pos hkeep, map_publicAny_keep hkeep, map_publicAny_keep hkeep]
    exact ⟨rfl, rfl⟩
  rw [if_neg hkeep]
  unfold AppSession.entities AppSession.references
  rw [map_append, map_option hkeep, map_option hkeep, map_singleton, publicAny_remote hkeep]
  exact ⟨rfl, rfl⟩

theorem scopeTab_ids (owners : Owners) (tab : SessionTab) :
    (scopeTab current serverId owners tab).2.entities =
        tab.entities.map (publicAny current serverId) ∧
      (scopeTab current serverId owners tab).2.references =
        tab.references.map (publicAny current serverId) := by
  unfold scopeTab
  by_cases hkeep : keepLocalIds current serverId = true
  · simp only [hkeep, if_true, map_publicAny_keep hkeep, true_and]
  simp only [hkeep, Bool.false_eq_true, if_false]
  unfold SessionTab.entities SessionTab.references
  rw [map_option hkeep, map_cons, map_singleton, publicAny_remote hkeep, publicAny_remote hkeep]
  exact ⟨rfl, rfl⟩

theorem pty_ids (ptyId : Option PtyId) :
    (ptyId.map (scopePtyId current serverId)).toList.map anyId =
      (ptyId.toList.map anyId).map (publicAny current serverId) := by
  cases ptyId with
  | none => rfl
  | some ptyId =>
    simp only [Option.map_some, Option.toList_some, map_cons, map_nil, publicAny_pty]

theorem scopeMuxTerminal_ids (owners : Owners) (terminal : MuxTerminal) :
    (scopeMuxTerminal current serverId owners terminal).2.entities =
        terminal.entities.map (publicAny current serverId) ∧
      (scopeMuxTerminal current serverId owners terminal).2.references =
        terminal.references.map (publicAny current serverId) := by
  unfold scopeMuxTerminal
  by_cases hkeep : keepLocalIds current serverId = true
  · simp only [hkeep, if_true, map_publicAny_keep hkeep, true_and]
  simp only [hkeep, Bool.false_eq_true, if_false]
  unfold MuxTerminal.entities MuxTerminal.references scopeProcessOutput
  rw [map_option hkeep, map_cons, map_cons, publicAny_remote hkeep, publicAny_remote hkeep, pty_ids]
  exact ⟨rfl, rfl⟩

theorem scopeList_ids {α : Type} {scope : Owners → α → Owners × α} {ids : α → List AnyId}
    (h : ∀ owners value, ids (scope owners value).2 =
      (ids value).map (publicAny current serverId)) (values : List α) :
    (scopeList scope owners values).2.flatMap ids =
      (values.flatMap ids).map (publicAny current serverId) := by
  induction values generalizing owners with
  | nil => rfl
  | cons value rest ih =>
    simp only [scopeList, flatMap_cons, map_append, h, ih]

theorem scopeSnapshot_ids (snapshot : MuxSessionSnapshot) :
    (scopeSnapshot current serverId owners snapshot).2.entities =
        snapshot.entities.map (publicAny current serverId) ∧
      (scopeSnapshot current serverId owners snapshot).2.references =
        snapshot.references.map (publicAny current serverId) := by
  unfold scopeSnapshot MuxSessionSnapshot.entities MuxSessionSnapshot.references
  obtain ⟨hentities, hreferences⟩ := @scopeSession_ids current serverId owners snapshot.session
  have hterms := fun owners : Owners =>
    @scopeList_ids current serverId owners _ _ _
      (fun owners value => (scopeMuxTerminal_ids owners value).1) snapshot.muxTerminals
  have htabIds := fun owners : Owners =>
    @scopeList_ids current serverId owners _ _ _
      (fun owners value => (scopeMuxTerminal_ids owners value).2) snapshot.muxTerminals
  cases snapshot.tabs with
  | none =>
    simp only [Option.getD_none, flatMap_nil, append_nil, map_append, hentities,
      hreferences, hterms, htabIds, and_self]
  | some tabs =>
    have htabs := fun owners : Owners => @scopeList_ids current serverId owners _ _ _
      (fun owners value => (scopeTab_ids owners value).1) tabs
    have hactive := fun owners : Owners => @scopeList_ids current serverId owners _ _ _
      (fun owners value => (scopeTab_ids owners value).2) tabs
    simp only [Prod.map, Option.getD_some, map_append, hentities, hreferences, hterms,
      htabIds, htabs, hactive, and_self, id]

theorem scopeMessage_ids (message : Message) :
    (scopeMessage current serverId owners message).2.ids =
      message.ids.map (publicAny current serverId) := by
  have hboth : (scopeMessage current serverId owners message).2.entities =
        message.entities.map (publicAny current serverId) ∧
      (scopeMessage current serverId owners message).2.references =
        message.references.map (publicAny current serverId) := by
    cases message with
    | session session => exact @scopeSession_ids _ _ owners session
    | tab tab => exact scopeTab_ids owners tab
    | muxTerminal terminal => exact scopeMuxTerminal_ids owners terminal
    | snapshot snapshot => exact scopeSnapshot_ids snapshot
    | process ptyId =>
      exact ⟨congrArg (fun id => [id]) (publicAny_pty ptyId), rfl⟩
    | event event =>
      cases event with
      | session event session => exact @scopeSession_ids _ _ owners session
      | tab event tab => exact scopeTab_ids owners tab
      | muxTerminal created muxTerminalId terminal =>
        obtain ⟨hentities, hreferences⟩ := @scopeMuxTerminal_ids current serverId owners terminal
        exact ⟨hentities, congrArg (List.cons _) hreferences⟩
      | muxTerminalArchived muxTerminalId => exact ⟨rfl, rfl⟩
      | terminalOutputChanged muxTerminalId output =>
        refine ⟨?_, rfl⟩
        simp only [scopeMessage, scopeEvent, Message.entities, MuxEvent.entities, Prod.map]
        by_cases hkeep : keepLocalIds current serverId = true
        · rw [if_pos hkeep, map_publicAny_keep hkeep]
        · rw [if_neg hkeep]
          exact pty_ids output.ptyId
  unfold Message.ids
  rw [hboth.1, hboth.2, map_append]

end Public

/-! ## Commands -/

variable {config : RoutingConfig}

section Commands

variable {activeServer : ServerId}

def Translates (owners : Owners) (id localId : AnyId) : Prop :=
  ∃ serverId, resolve owners id = some (serverId, localId)

variable {kind : EntityKind} {command : MuxCommand} {requests : List Request}

variable {id : EntityId kind}

theorem resolve_anyId {owner : Owner kind} (h : (owners kind).get? id = some owner) :
    resolve owners (anyId id) = some (owner.serverId, anyId owner.localId) := by
  unfold resolve anyId
  rw [h]
  rfl

theorem ownerFor_ok {owner : Owner kind} (h : ownerFor owners id = .ok owner) :
    resolve owners (anyId id) = some (owner.serverId, anyId owner.localId) := by
  apply resolve_anyId
  unfold ownerFor at h
  split at h
  · cases h
    assumption
  · cases h

theorem toLocalId_ok {id localId : EntityId kind}
    (h : toLocalId owners id = .ok localId) : Translates owners (anyId id) (anyId localId) := by
  obtain ⟨owner, howner, hlocal⟩ := bind_ok.mp h
  cases hlocal
  exact ⟨owner.serverId, ownerFor_ok howner⟩

theorem toLocalIds_ok {ids localIds : List (EntityId kind)}
    (h : toLocalIds owners ids = .ok localIds) :
    List.Forall₂ (Translates owners) (ids.map anyId) (localIds.map anyId) := by
  induction ids generalizing localIds with
  | nil =>
    cases h
    exact .nil
  | cons id rest ih =>
    obtain ⟨first, hfirst, hrest⟩ := bind_ok.mp h
    obtain ⟨others, hothers, hlocal⟩ := bind_ok.mp hrest
    cases hlocal
    exact .cons (toLocalId_ok hfirst) (ih hothers)

theorem toLocalOption_ok {id localId : Option (EntityId kind)}
    (h : toLocalOption owners id = .ok localId) :
    List.Forall₂ (Translates owners) (id.toList.map anyId) (localId.toList.map anyId) := by
  cases id with
  | none =>
    cases h
    exact .nil
  | some id =>
    obtain ⟨first, hfirst, hlocal⟩ := bind_ok.mp h
    cases hlocal
    exact .cons (toLocalId_ok hfirst) .nil

theorem moveTerminal_ok {id : MuxTerminalId} {targetTabId : SessionTabId}
    (h : toLocalCommand owners (.moveTerminal id targetTabId) = .ok command) :
    ∃ terminalOwner tabOwner, ownerFor owners id = .ok terminalOwner ∧
      ownerFor owners targetTabId = .ok tabOwner ∧ terminalOwner.serverId = tabOwner.serverId ∧
      command = .moveTerminal terminalOwner.localId tabOwner.localId := by
  obtain ⟨terminalOwner, hterm, hrest⟩ := bind_ok.mp h
  obtain ⟨tabOwner, htab, hrest⟩ := bind_ok.mp hrest
  by_cases hsame : terminalOwner.serverId ≠ tabOwner.serverId
  · rw [if_pos hsame] at hrest
    cases hrest
  rw [if_neg hsame] at hrest
  cases hrest
  exact ⟨terminalOwner, tabOwner, hterm, htab, not_not.mp hsame, rfl⟩

/-- A translated command names, in place of each id, its local id. -/
theorem toLocalCommand_names {localCommand : MuxCommand}
    (h : toLocalCommand owners command = .ok localCommand) :
    List.Forall₂ (Translates owners) command.names localCommand.names := by
  cases command with
  | listSessions | createSession =>
    cases h
    exact .nil
  | reorderSessions sessionIds =>
    obtain ⟨ids, hids, hlocal⟩ := bind_ok.mp h
    cases hlocal
    exact toLocalIds_ok hids
  | reorderTabs sessionId tabIds =>
    obtain ⟨session, hsess, hrest⟩ := bind_ok.mp h
    obtain ⟨ids, hids, hlocal⟩ := bind_ok.mp hrest
    cases hlocal
    exact .cons (toLocalId_ok hsess) (toLocalIds_ok hids)
  | selectTab | createTerminal =>
    obtain ⟨session, hsess, hrest⟩ := bind_ok.mp h
    obtain ⟨tab, htab, hlocal⟩ := bind_ok.mp hrest
    cases hlocal
    exact .cons (toLocalId_ok hsess) (toLocalOption_ok htab)
  | reorderTerminals sessionId tabId muxTerminalIds =>
    obtain ⟨session, hsess, hrest⟩ := bind_ok.mp h
    obtain ⟨tab, htab, hrest⟩ := bind_ok.mp hrest
    obtain ⟨ids, hids, hlocal⟩ := bind_ok.mp hrest
    cases hlocal
    exact .cons (toLocalId_ok hsess) (rel_append (toLocalOption_ok htab) (toLocalIds_ok hids))
  | moveTerminal muxTerminalId targetTabId =>
    obtain ⟨terminalOwner, tabOwner, hterm, htab, -, rfl⟩ := moveTerminal_ok h
    exact .cons ⟨_, ownerFor_ok hterm⟩ (.cons ⟨_, ownerFor_ok htab⟩ .nil)
  | selectTerminal sessionId muxTerminalId =>
    obtain ⟨session, hsess, hrest⟩ := bind_ok.mp h
    obtain ⟨terminal, hterm, hlocal⟩ := bind_ok.mp hrest
    cases hlocal
    exact .cons (toLocalId_ok hsess) (toLocalOption_ok hterm)
  | _ =>
    obtain ⟨id, hid, hlocal⟩ := bind_ok.mp h
    cases hlocal
    exact .cons (toLocalId_ok hid) .nil

theorem translated_from {ids localIds : List AnyId} {localId : AnyId}
    (h : List.Forall₂ (Translates owners) ids localIds) (hmem : localId ∈ localIds) :
    ∃ id ∈ ids, Translates owners id localId := by
  induction h with
  | nil => cases hmem
  | @cons id first ids others hfirst _ ih =>
    rcases mem_cons.mp hmem with rfl | hrest
    · exact ⟨id, mem_cons_self, hfirst⟩
    · obtain ⟨other, hother, htranslates⟩ := ih hrest
      exact ⟨other, mem_cons_of_mem id hother, htranslates⟩

def Delivers (owners : Owners) (request : Request) : Prop :=
  ∀ id ∈ request.command.names, ∃ key, resolve owners key = some (request.serverId, id)

theorem routeTo_ok (h : routeTo config owners id command = .ok requests) :
    ∃ (owner : Owner kind) (localCommand : MuxCommand), resolve owners (anyId id) = some (owner.serverId, anyId owner.localId) ∧
      toLocalCommand owners command = .ok localCommand ∧
      requests = [⟨owner.serverId, localCommand⟩] := by
  obtain ⟨owner, howner, hrest⟩ := bind_ok.mp h
  by_cases hgone : owner.serverId ∉ config.servers
  · rw [if_pos hgone] at hrest
    cases hrest
  rw [if_neg hgone] at hrest
  obtain ⟨localCommand, hlocal, hrequests⟩ := bind_ok.mp hrest
  cases hrequests
  exact ⟨owner, localCommand, ownerFor_ok howner, hlocal, rfl⟩

theorem routeTo_delivers (hone : OneServer owners command) (hnames : anyId id ∈ command.names)
    (h : routeTo config owners id command = .ok requests) :
    ∀ request ∈ requests, Delivers owners request := by
  obtain ⟨owner, localCommand, howner, hlocal, rfl⟩ := routeTo_ok h
  intro request hreq localId hmem
  cases mem_singleton.mp hreq
  obtain ⟨key, hkey, serverId, hresolve⟩ := translated_from (toLocalCommand_names hlocal) hmem
  -- the id is one of the server that the command was sent to
  have hsame := hone key hkey (anyId id) hnames (by rw [hresolve]; rfl) (by rw [howner]; rfl)
  rw [hresolve, howner] at hsame
  simp only [Option.map_some, Option.some.injEq] at hsame
  exact ⟨key, hsame ▸ hresolve⟩

theorem groupSessions_delivers {sessionIds : List SessionId}
    {grouped result : IndexMap ServerId (List SessionId)}
    (h : groupSessions owners sessionIds grouped = .ok result)
    (hgrouped : ∀ serverId ids, grouped.get? serverId = some ids →
      ∀ id ∈ ids, ∃ key, resolve owners key = some (serverId, anyId id)) :
    ∀ serverId ids, result.get? serverId = some ids →
      ∀ id ∈ ids, ∃ key, resolve owners key = some (serverId, anyId id) := by
  induction sessionIds generalizing grouped with
  | nil =>
    cases h
    exact hgrouped
  | cons sessionId rest ih =>
    obtain ⟨owner, howner, hrest⟩ := bind_ok.mp h
    apply ih hrest
    intro serverId ids hget id hid
    rw [IndexMap.get?_insert] at hget
    split at hget
    · rename_i hserver
      cases hget
      rw [hserver]
      rcases mem_append.mp hid with hold | hnew
      · cases hknown : grouped.get? owner.serverId with
        | none =>
          rw [hknown] at hold
          cases hold
        | some known =>
          rw [hknown] at hold
          exact hgrouped _ known hknown id hold
      · cases mem_singleton.mp hnew
        exact ⟨_, ownerFor_ok howner⟩
    · exact hgrouped serverId ids hget id hid

theorem moveTerminal_delivers {id : MuxTerminalId} {targetTabId : SessionTabId}
    (h : route config owners activeServer (.moveTerminal id targetTabId) = .ok requests) :
    ∀ request ∈ requests, Delivers owners request := by
  obtain ⟨owner, localCommand, howner, hlocal, rfl⟩ := routeTo_ok h
  obtain ⟨terminalOwner, tabOwner, hterm, htab, hsame, rfl⟩ := moveTerminal_ok hlocal
  have hserver : owner.serverId = terminalOwner.serverId :=
    congrArg Prod.fst (Option.some.inj (howner.symm.trans (ownerFor_ok hterm)))
  intro request hreq localId hmem
  cases mem_singleton.mp hreq
  rcases mem_cons.mp hmem with rfl | hmem
  · exact ⟨_, (ownerFor_ok hterm).trans (by rw [hserver])⟩
  · cases mem_singleton.mp hmem
    exact ⟨_, (ownerFor_ok htab).trans (by rw [hserver, hsame])⟩

theorem route_delivers (hallow : command.moves = true ∨ OneServer owners command)
    (h : route config owners activeServer command = .ok requests) :
    ∀ request ∈ requests, Delivers owners request := by
  cases command with
  | listSessions includeArchived =>
    cases h
    intro request hreq id hid
    obtain ⟨server, -, rfl⟩ := mem_map.mp hreq
    cases hid
  | createSession title =>
    cases h
    intro request hreq id hid
    cases mem_singleton.mp hreq
    cases hid
  | reorderSessions sessionIds =>
    obtain ⟨grouped, hgrouped, hrequests⟩ := bind_ok.mp h
    cases hrequests
    intro request hreq id hid
    obtain ⟨⟨serverId, ids⟩, hentry, rfl⟩ := mem_map.mp hreq
    obtain ⟨localId, hlocal, rfl⟩ := mem_map.mp hid
    exact groupSessions_delivers hgrouped (nofun) serverId ids
      (IndexMap.get?_eq_some.mpr (mem_filter.mp hentry).1) localId hlocal
  | moveTerminal muxTerminalId targetTabId => exact moveTerminal_delivers h
  | _ =>
    rcases hallow with hmoves | hone
    · cases hmoves
    · exact routeTo_delivers hone mem_cons_self h

theorem moveTerminal_rejected (hmoves : command.moves = true) (htwo : NamesTwo owners command) :
    (route config owners activeServer command).toOption.getD [] = [] := by
  cases command with
  | moveTerminal muxTerminalId targetTabId =>
    cases hroute : route config owners activeServer (.moveTerminal muxTerminalId targetTabId) with
    | error error => rfl
    | ok requests =>
      obtain ⟨owner, localCommand, -, hlocal, -⟩ := routeTo_ok hroute
      obtain ⟨terminalOwner, tabOwner, hterm, htab, hsame, -⟩ := moveTerminal_ok hlocal
      obtain ⟨first, hfirst, second, hsecond, firstOwner, secondOwner, hone, hother, hne⟩ := htwo
      -- both ids stand for entities of the one server
      have hserver : ∀ id ∈ MuxCommand.names (.moveTerminal muxTerminalId targetTabId), ∀ owner,
          resolve owners id = some owner → owner.1 = tabOwner.serverId := by
        intro id hid owner howner
        rcases mem_cons.mp hid with rfl | hid
        · rw [ownerFor_ok hterm] at howner
          cases howner
          exact hsame
        · cases mem_singleton.mp hid
          rw [ownerFor_ok htab] at howner
          cases howner
          rfl
      exact absurd ((hserver first hfirst _ hone).trans (hserver second hsecond _ hother).symm) hne
  | _ => cases hmoves

theorem oneServer_apart (hone : OneServer owners command) : ¬NamesTwo owners command := by
  rintro ⟨first, hfirst, second, hsecond, firstOwner, secondOwner, hfirstOwner, hsecondOwner, hne⟩
  have hsame := hone first hfirst second hsecond (by rw [hfirstOwner]; rfl)
    (by rw [hsecondOwner]; rfl)
  rw [hfirstOwner, hsecondOwner] at hsame
  exact hne (Option.some.inj hsame)

end Commands

/-! ## Runs -/

section Runs

variable {world world' : RoutingWorld} {action : RoutingAction}

/-- What a careful run keeps: each public id is handed out for one entity and
leads back to it, and what is recorded came from its server. -/
structure RoutingSound (config : RoutingConfig) (world : RoutingWorld) : Prop where
  handed : ∀ handed ∈ world.handed,
    handed.publicId = publicAny config.current handed.serverId handed.localId
  resolves : ∀ handed ∈ world.handed,
    resolve world.owners handed.publicId = some (handed.serverId, handed.localId)
  owners : ∀ key owner, resolve world.owners key = some owner → owner ∈ world.seen
  rejected : ∀ issued ∈ world.issued, NamesTwo issued.owners issued.command → issued.requests = []
  apart : ∀ issued ∈ world.issued, ∀ request ∈ issued.requests, ∀ id ∈ request.command.names,
    (request.serverId, id) ∈ world.seen

theorem receive_handed (config : RoutingConfig) (world : RoutingWorld) (serverId : ServerId)
    (message : Message) : (world.receive config serverId message).handed =
      world.handed ++ RoutingWorld.handedBy config.current serverId message := by
  unfold RoutingWorld.receive RoutingWorld.handedBy
  simp only [scopeMessage_ids]
  induction message.ids with
  | nil => rfl
  | cons id rest ih =>
    simp only [map_cons, zip_cons_cons, append_cancel_left_eq] at ih ⊢
    rw [ih]

theorem RoutingSound.receive (h : RoutingSound config world) {serverId : ServerId}
    {message : Message} (hcareful : Careful config world (.receive serverId message)) :
    RoutingSound config (world.receive config serverId message) := by
  obtain ⟨hfree, hreferences⟩ := hcareful
  have hrecords := @scopeMessage_records config.current serverId world.owners message
  -- what was handed out leads on to where it led
  have hold : ∀ handed ∈ world.handed,
      resolve (world.receive config serverId message).owners handed.publicId =
        some (handed.serverId, handed.localId) := by
    intro handed hmem
    rcases hrecords handed.publicId with ⟨record, hrecord, hkey, hresolve⟩ | ⟨-, hsame⟩
    · obtain ⟨hserver, hlocal⟩ := hfree record hrecord handed (mem_append_left _ hmem) hkey.symm
      rw [hserver, hlocal]
      exact hresolve
    · exact hsame.trans (h.resolves handed hmem)
  refine ⟨?_, ?_, ?_, h.rejected, ?_⟩
  · intro handed hmem
    rw [receive_handed] at hmem
    rcases mem_append.mp hmem with hearlier | hnew
    · exact h.handed handed hearlier
    · obtain ⟨id, -, rfl⟩ := mem_map.mp hnew
      rfl
  · intro handed hmem
    rw [receive_handed] at hmem
    rcases mem_append.mp hmem with hearlier | hnew
    · exact hold handed hearlier
    obtain ⟨id, hid, rfl⟩ := mem_map.mp hnew
    have hentity : id ∈ message.entities →
        resolve (world.receive config serverId message).owners
          (publicAny config.current serverId id) = some (serverId, id) := by
      intro hentity
      have hpublic := @public_recorded config.current serverId message id hentity
      rcases hrecords (publicAny config.current serverId id) with
        ⟨record, hrecord, hkey, hresolve⟩ | ⟨hnone, -⟩
      · obtain ⟨-, hlocal⟩ := hfree record hrecord _ (mem_append_right _ hnew) hkey.symm
        rw [show id = record.2 from hlocal] at hresolve ⊢
        exact hresolve
      · exact absurd rfl (hnone _ hpublic)
    rcases mem_append.mp hid with hmem' | hreference
    · exact hentity hmem'
    rcases hreferences id hreference with hmem' | ⟨earlier, hearlier, hserver, hlocal⟩
    · exact hentity hmem'
    have hknown := hold earlier hearlier
    rw [h.handed earlier hearlier, hserver, hlocal] at hknown
    exact hknown
  · intro key owner howner
    rcases hrecords key with ⟨record, hrecord, -, hresolve⟩ | ⟨-, hsame⟩
    · have hsame := Option.some.inj (howner.symm.trans hresolve)
      rw [hsame]
      exact mem_append_right _ (mem_map.mpr
        ⟨record.2, mem_append_left _ (recorded_entity hrecord), rfl⟩)
    · exact mem_append_left _ (h.owners key owner (hsame.symm.trans howner))
  · exact fun issued hiss request hreq id hid =>
      mem_append_left _ (h.apart issued hiss request hreq id hid)

theorem select_frame (config : RoutingConfig) (world : RoutingWorld) (command : MuxCommand) :
    ∃ server, world.select config command = { world with activeServer := server } := by
  unfold RoutingWorld.select RoutingWorld.selectServer
  split
  · split
    · exact ⟨_, rfl⟩
    · exact ⟨world.activeServer, rfl⟩
  · exact ⟨world.activeServer, rfl⟩

theorem RoutingSound.send (h : RoutingSound config world) {command : MuxCommand}
    (hcareful : Careful config world (.send command)) :
    RoutingSound config (world.send config command) := by
  unfold RoutingWorld.send
  obtain ⟨server, hselect⟩ := select_frame config world command
  rw [hselect]
  refine ⟨h.handed, h.resolves, h.owners, ?_, ?_⟩
  · intro issued hmem htwo
    rcases mem_append.mp hmem with hearlier | hnew
    · exact h.rejected issued hearlier htwo
    cases mem_singleton.mp hnew
    rcases hcareful with hmoves | hone
    · exact moveTerminal_rejected hmoves htwo
    · exact absurd htwo (oneServer_apart hone)
  · intro issued hmem request hreq id hid
    rcases mem_append.mp hmem with hearlier | hnew
    · exact h.apart issued hearlier request hreq id hid
    cases mem_singleton.mp hnew
    cases hroute : route config world.owners world.activeServer command with
    | error error =>
      rw [hroute] at hreq
      cases hreq
    | ok requests =>
      rw [hroute] at hreq
      obtain ⟨key, hkey⟩ := route_delivers hcareful hroute request hreq id hid
      exact h.owners key _ hkey

theorem routing_step (h : RoutingSound config world) (hcareful : Careful config world action)
    (hstep : (routingSystem config).step world action = some world') :
    RoutingSound config world' := by
  cases action with
  | receive serverId message =>
    obtain ⟨-, hnext⟩ := Option.ite_none_right_eq_some.mp hstep
    cases hnext
    exact h.receive hcareful
  | selectServer serverId =>
    cases hstep
    unfold RoutingWorld.selectServer
    split
    · exact { h with }
    · exact h
  | send command =>
    cases hstep
    exact h.send hcareful

theorem routing_sound (hrun : (routingSystem config).Run (Careful config) world) :
    RoutingSound config world := by
  apply hrun.invariant
  · rintro start rfl
    refine ⟨?_, ?_, ?_, ?_, ?_⟩
    · exact forall_mem_nil _
    · exact forall_mem_nil _
    · exact fun _ _ hresolve => by cases hresolve
    · exact forall_mem_nil _
    · exact forall_mem_nil _
  · exact fun _ _ _ h hcareful hstep => routing_step h hcareful hstep

/-- In a careful run public ids stay apart and lead back, and no server gets an
id of another. -/
theorem routing_isolated (config : RoutingConfig) {world : RoutingWorld}
    (hrun : (routingSystem config).Run (Careful config) world) : Isolated world := by
  have h := routing_sound hrun
  refine ⟨fun first hfirst second hsecond hsame => ?_, h.resolves, h.rejected, h.apart⟩
  have hone := h.resolves first hfirst
  rw [hsame, h.resolves second hsecond] at hone
  have hpair := Option.some.inj hone
  exact ⟨(congrArg Prod.fst hpair).symm, (congrArg Prod.snd hpair).symm⟩

/-! ### Two servers -/

def twoServers : RoutingConfig :=
  ⟨alpha, [alpha, beta], by decide, by decide⟩

def sampleSnapshot (number : String) (session : SessionId) (tab : SessionTabId)
    (terminal : MuxTerminalId) : MuxSessionSnapshot :=
  ⟨⟨session, "", 0, some tab, some terminal⟩,
    some [⟨tab, session, "", 0, some terminal, none, some 1⟩],
    [⟨terminal, session, some tab, "", 0, ⟨number, some ⟨number, rfl⟩, 1⟩, 1⟩]⟩

def firstSnapshot : MuxSessionSnapshot :=
  sampleSnapshot "1" ⟨"ses-1", by decide⟩ ⟨"tab-1", by decide⟩
    ⟨"term-1", by decide⟩

def secondSnapshot : MuxSessionSnapshot :=
  sampleSnapshot "2" ⟨"ses-2", by decide⟩ ⟨"tab-2", by decide⟩
    ⟨"term-2", by decide⟩

/-- Each server shows its session; a terminal of the first is not moved to a
tab of the second, and a tab is selected. -/
def sampleRouting : List RoutingAction :=
  [.receive alpha (.snapshot firstSnapshot), .receive beta (.snapshot secondSnapshot),
    .send (.moveTerminal ⟨"term-1", by decide⟩ ⟨"tab-beta--2", by decide⟩),
    .send (.selectTab ⟨"ses-1", by decide⟩ (some ⟨"tab-1", by decide⟩))]

theorem routing_isolated_sample : ∃ world,
    (routingSystem twoServers).Run (Careful twoServers) world ∧
      (world.issued.map fun issued => issued.requests.length) = [0, 1] ∧ Isolated world := by
  obtain ⟨world, hrpl, hrequests⟩ : ∃ world,
      (routingSystem twoServers).replay (fun world action => decide (Careful twoServers world action))
        (.start twoServers) sampleRouting = some world ∧
      (world.issued.map fun issued => issued.requests.length) = [0, 1] := by
    have hcounts : ((routingSystem twoServers).replay
        (fun world action => decide (Careful twoServers world action)) (.start twoServers)
        sampleRouting).map (fun world => world.issued.map fun issued => issued.requests.length) =
          some [0, 1] := by decide
    exact Option.map_eq_some_iff.mp hcounts
  have hrun := System.replay_run (.start rfl) (fun _ _ _ hpass => of_decide_eq_true hpass) hrpl
  exact ⟨world, hrun, hrequests, routing_isolated twoServers hrun⟩

theorem reachable_receive (h : (routingSystem config).Reachable world) {serverId : ServerId}
    (hserver : serverId ∈ config.servers) (message : Message) :
    (routingSystem config).Reachable (world.receive config serverId message) := by
  refine System.Run.next h trivial (?_ : (routingSystem config).step world
    (.receive serverId message) = _)
  unfold routingSystem
  exact if_pos hserver

theorem reachable_send (h : (routingSystem config).Reachable world) (command : MuxCommand) :
    (routingSystem config).Reachable (world.send config command) :=
  System.Run.next h trivial (rfl : (routingSystem config).step world (.send command) = _)

/-- With one session id on both servers the id leads to the second; and a
terminal of the second server is selected in a session of the first. -/
theorem routing_crosses :
    (¬∀ config world, (routingSystem config).Reachable world → ∀ handed ∈ world.handed,
        resolve world.owners handed.publicId = some (handed.serverId, handed.localId)) ∧
      ¬∀ config world, (routingSystem config).Reachable world → ∀ issued ∈ world.issued,
        NamesTwo issued.owners issued.command → issued.requests = [] := by
  have hstart : (routingSystem twoServers).Reachable (.start twoServers) := .start rfl
  have hboth : ∀ first second, (routingSystem twoServers).Reachable
      (((RoutingWorld.start twoServers).receive twoServers alpha first).receive twoServers beta
        second) := fun first second =>
    reachable_receive (reachable_receive hstart (by decide) first) (by decide) second
  constructor
  · intro hall
    have hone := hall _ _ (hboth (.session firstSnapshot.session) (.session firstSnapshot.session))
      ⟨alpha, anyId firstSnapshot.session.id, anyId firstSnapshot.session.id⟩ (by decide)
    revert hone
    decide
  · intro hall
    have hone := hall _ _ (reachable_send (hboth (.snapshot firstSnapshot) (.snapshot secondSnapshot))
      (.selectTerminal ⟨"ses-1", by decide⟩
        (some ⟨"term-beta--2", by decide⟩))) _ (mem_singleton.mpr rfl)
    have hlength := congrArg List.length (hone
      ⟨_, mem_cons_self, _, mem_cons_of_mem _ (mem_singleton.mpr rfl),
        (alpha, anyId firstSnapshot.session.id), (beta, anyId (⟨"term-2", by decide⟩ :
          MuxTerminalId)), by decide, by decide, by decide⟩)
    revert hlength
    decide

end Runs

end Yaade.Mux

import Yaade.Connection.Outbound
import Yaade.Library.Resume

/-!
One connection and the output of every terminal.
-/

namespace Yaade.Connection

open Yaade.Library Resume List IndexMap Bool
open Option hiding sequence

/-- A terminal, by the two numbers its id is made from. -/
structure HostTerminal where
  millis : Int64
  number : UInt64
  deriving DecidableEq

def HostTerminal.id (terminal : HostTerminal) : String :=
  "term-" ++ toString terminal.millis.toInt ++ "-" ++ toString terminal.number.toNat

/-- An attach under way: whether output was sent before, and the sequence the
owner answered with. -/
structure AttachCommand where
  id : String
  live : Bool
  answer : Option Nat
  deriving DecidableEq

structure StreamWorld where
  /-- the last sequence of each terminal -/
  last : String → Nat
  eventSequence : Nat
  outbound : ConnectionOutbound
  raw : Finset String
  subscribed : Finset String
  attach : Option AttachCommand
  running : Bool
  /-- what the writer took -/
  log : List WireMessage

inductive StreamAction where
  | output (terminal : HostTerminal) (data : List UInt8)
  | attach (id : String) (afterSequence : Nat) (mode : String)
  | answer
  | finish
  | refuse
  | detach (id : String)
  | send (message : WireMessage)
  | acknowledge (id : String) (sequence : Nat)
  | close (code : Nat) (reason : String)
  | leave
  | stop
  | write

def WireMessage.isPlain : WireMessage → Bool
  | .event _ | .answer => true
  | _ => false

namespace StreamWorld

def Started (flowLimit : Nat) (limits : MailboxLimits) (world : StreamWorld) : Prop :=
  world.outbound = .new 2 flowLimit limits ∧ world.raw = ∅ ∧ world.subscribed = ∅ ∧
    world.attach = none ∧ world.log = []

variable (world : StreamWorld)

def ready : Bool := world.running && world.attach.isNone

def leave : StreamWorld :=
  { world with
    running := false
    subscribed := ∅
    outbound := world.outbound.stop }

def settle (sent : Bool × ConnectionOutbound) : StreamWorld :=
  if sent.1 then { world with outbound := sent.2 }
  else { world with outbound := sent.2 }.leave

variable [ByteLength WireMessage]

def output (terminal : HostTerminal) (data : List UInt8) : StreamWorld :=
  let sequence := world.last terminal.id + 1
  { world with
    last := Function.update world.last terminal.id sequence
    eventSequence := world.eventSequence + 1
    outbound :=
      if terminal.id ∈ world.subscribed then
        world.outbound.enqueueTerminal ⟨world.eventSequence + 1, terminal.id, sequence, data⟩
      else world.outbound }

omit [ByteLength WireMessage] in
def live (id : String) : Bool := world.outbound.flow.contains id && decide (id ∈ world.raw)

omit [ByteLength WireMessage] in
def startAttach (id : String) (afterSequence : Nat) (mode : String) : StreamWorld :=
  let raw := if mode = "raw" ∨ mode = "both" then insert id world.raw else world.raw
  { world with
    raw := raw
    outbound := world.outbound.attach id afterSequence
    subscribed := if id ∈ raw then insert id world.subscribed else world.subscribed
    attach := some ⟨id, world.live id, none⟩ }

omit [ByteLength WireMessage] in
def stopAttach (id : String) : StreamWorld :=
  { world with
    raw := world.raw.erase id
    outbound := world.outbound.detach id
    subscribed := world.subscribed.erase id }

def finishAttach (command : AttachCommand) (sequence : Nat) : StreamWorld :=
  let sent := world.outbound.enqueueAttachResult command.id (some sequence)
  if sent.1 then { world with outbound := sent.2, attach := none }
  else { world with outbound := sent.2 }.leave

def refuseAttach (command : AttachCommand) : StreamWorld :=
  let sent := world.outbound.enqueueAttachResult command.id none
  let world := { world with
    raw := world.raw.erase command.id
    subscribed := world.subscribed.erase command.id }
  if sent.1 then { world with outbound := sent.2, attach := none }
  else { world with outbound := sent.2 }.leave

def wrote (next : NextOutbound × ConnectionOutbound) : StreamWorld :=
  { world with
    outbound := next.2
    log := match next.1 with
      | .frame frame => world.log ++ [frame.data]
      | _ => world.log }

end StreamWorld

def streamSystem [ByteLength WireMessage] (flowLimit : Nat) (limits : MailboxLimits) :
    System StreamWorld StreamAction where
  initial world := world.Started flowLimit limits
  step world action :=
    match action with
    | .output terminal data => some (world.output terminal data)
    | .attach id afterSequence mode =>
      if world.ready then some (world.startAttach id afterSequence mode) else none
    | .answer =>
      match world.attach with
      | some ⟨id, live, none⟩ => some { world with attach := some ⟨id, live, some (world.last id)⟩ }
      | _ => none
    | .finish =>
      match world.attach with
      | some ⟨id, live, some sequence⟩ => some (world.finishAttach ⟨id, live, some sequence⟩ sequence)
      | _ => none
    | .refuse => world.attach.map world.refuseAttach
    | .detach id => if world.ready then some (world.stopAttach id) else none
    | .send message =>
      if world.ready && message.isPlain then
        some (world.settle (world.outbound.enqueueReliable message))
      else none
    | .acknowledge id sequence =>
      if world.ready then
        some { world with outbound := world.outbound.acknowledge id sequence }
      else none
    | .close code reason =>
      if world.ready then
        some { world with outbound := world.outbound.closeWith code reason }.leave
      else none
    | .leave => if world.ready then some world.leave else none
    | .stop => some { world with outbound := world.outbound.stop }
    | .write => world.outbound.next.map world.wrote

/-! ## The stream of one terminal -/

def WireMessage.token? (terminalId : String) : WireMessage → Option Token
  | .attachResult id lastSequence => if id = terminalId then some (.result lastSequence) else none
  | .replayRequired id _ => if id = terminalId then some .fence else none
  | .terminal _ sequence id _ => if id = terminalId then some (.frame sequence) else none
  | _ => none

def tokens (terminalId : String) (messages : List WireMessage) : List Token :=
  messages.filterMap (WireMessage.token? terminalId)

def StreamWorld.feed (world : StreamWorld) (terminalId : String)
    (urgent waiting : List WireMessage) : Feed where
  past := tokens terminalId (world.log ++ urgent)
  queue := tokens terminalId waiting
  last := world.last terminalId
  renewing := world.attach.bind fun command =>
    if command.id = terminalId then some (command.live, command.answer) else none
  credited := world.outbound.flow.contains terminalId
  fenced := decide (terminalId ∈ world.outbound.replayRequired)
  closing := world.outbound.stopped || world.outbound.close.isSome
  wanted := decide (terminalId ∈ world.raw)
  wired := decide (terminalId ∈ world.subscribed)

variable {message : WireMessage}

section Feed

variable {terminalId other : String} {first second : List WireMessage}

@[simp] theorem tokens_append :
    tokens terminalId (first ++ second) = tokens terminalId first ++ tokens terminalId second :=
  filterMap_append

theorem tokens_singleton : tokens terminalId [message] = (message.token? terminalId).toList := by
  cases htoken : message.token? terminalId <;> simp [tokens, htoken]

theorem tokens_discard (sequence : Nat) (messages : List WireMessage) :
    tokens terminalId (messages.filter fun message => !message.isThrough terminalId sequence) =
      uncovered sequence (tokens terminalId messages) := by
  unfold tokens uncovered
  rw [filter_filterMap, filterMap_filter]
  refine filterMap_congr fun message _ => ?_
  cases message with
  | terminal eventSequence terminalSequence id data =>
    by_cases hid : id = terminalId
    · by_cases hthrough : terminalSequence ≤ sequence
      · simp [WireMessage.token?, WireMessage.isThrough, Option.filter, hid, hthrough,
          Nat.not_lt.mpr hthrough]
      · simp [WireMessage.token?, WireMessage.isThrough, Option.filter, hid, hthrough,
          Nat.not_le.mp hthrough]
    · simp [WireMessage.token?, WireMessage.isThrough, hid]
  | attachResult id | replayRequired id =>
    by_cases hid : id = terminalId <;>
      simp [WireMessage.token?, WireMessage.isThrough, Option.filter, hid]
  | event | answer => simp [WireMessage.token?, WireMessage.isThrough]

theorem tokens_discard_other (hother : other ≠ terminalId) (sequence : Nat)
    (messages : List WireMessage) :
    tokens terminalId (messages.filter fun message => !message.isThrough other sequence) =
      tokens terminalId messages := by
  unfold tokens
  rw [filterMap_filter]
  refine filterMap_congr fun message _ => ?_
  cases message with
  | terminal eventSequence terminalSequence id data =>
    by_cases hid : id = other
    · subst hid
      simp [WireMessage.token?, WireMessage.isThrough, hother]
    · simp [WireMessage.isThrough, hid]
  | _ => simp [WireMessage.isThrough]

theorem token?_plain (hplain : message.isPlain = true) : message.token? terminalId = none := by
  cases message <;> first | rfl | cases hplain

theorem Feed.Step.refl (feed : Feed) : feed.Step feed :=
  .idle (fun hclosing => hclosing) (.inl rfl)

end Feed

theorem HostTerminal.id_short (terminal : HostTerminal) :
    (Utf8.encode terminal.id).length ≤ 0xFFFF := by
  have hencode : ∀ text : String, (Utf8.encode text).length ≤ 4 * text.toList.length := by
    intro text
    unfold Utf8.encode
    induction text.toList with
    | nil => rfl
    | cons char rest ih =>
      have hchar := Char.utf8Size_le_four char
      rw [flatMap_cons, length_append, String.length_utf8EncodeChar, length_cons]
      omega
  have hnat : ∀ number : Nat, number < 2 ^ 64 → (toString number).toList.length ≤ 20 := by
    intro number hnumber
    rw [String.length_toList]
    exact (Nat.length_repr_le_iff (by decide)).mpr (Nat.lt_of_lt_of_le hnumber (by decide))
  have hint : ∀ number : Int, number.natAbs < 2 ^ 64 → (toString number).toList.length ≤ 21 := by
    intro number hnumber
    cases number with
    | ofNat value => exact Nat.le_succ_of_le (hnat value hnumber)
    | negSucc value =>
      have hvalue := hnat (value + 1) hnumber
      show ("-" ++ toString (value + 1)).toList.length ≤ 21
      rw [String.toList_append, length_append]
      simp only [String.length_toList] at hvalue ⊢
      have hsign : "-".length = 1 := rfl
      omega
  have hmillis := hint terminal.millis.toInt (by
    have hlow := Int64.le_toInt terminal.millis
    have hhigh := Int64.toInt_lt terminal.millis
    omega)
  have hnumber := hnat terminal.number.toNat terminal.number.toNat_lt
  have hlength := hencode terminal.id
  have htag : "term-".toList.length = 5 := rfl
  have hdash : "-".toList.length = 1 := rfl
  unfold HostTerminal.id at hlength ⊢
  simp only [String.toList_append, length_append] at hlength
  omega

/-! ## Steps of the connection are steps of its streams -/

def Advances (world : StreamWorld) (urgent waiting : List WireMessage) (world' : StreamWorld) :
    Prop :=
  ∃ urgent' waiting', world'.outbound.mailbox.Carries urgent' waiting' ∧
    ∀ terminalId, (world.feed terminalId urgent waiting).Step
      (world'.feed terminalId urgent' waiting')

variable {terminalId : String} {urgent waiting : List WireMessage} {world : StreamWorld}

section Advances

theorem feed_listens : (world.feed terminalId urgent waiting).listens =
    world.outbound.listens terminalId := by
  unfold Feed.listens ConnectionOutbound.listens StreamWorld.feed
  cases world.outbound.stopped <;> cases world.outbound.close <;> simp

variable (flow : IndexMap String TerminalFlow)

theorem contains_insert (id other : String)
    (value : TerminalFlow) (hcont : flow.contains id = true) :
    (flow.insert id value).contains other = flow.contains other := by
  unfold IndexMap.contains at hcont ⊢
  rw [get?_insert]
  split
  · rename_i hsame
    rw [hsame, hcont]
    rfl
  · rfl

theorem contains_modify (id other : String) (change : TerminalFlow → TerminalFlow) :
    (flow.modify id change).contains other = flow.contains other := by
  unfold IndexMap.contains
  rw [get?_modify]
  split <;> simp

theorem contains_shiftRemove (id other : String) :
    (flow.shiftRemove id).contains other = (!decide (other = id) && flow.contains other) := by
  unfold IndexMap.contains
  rw [get?_shiftRemove]
  split <;> simp_all

theorem feed_idle {world' : StreamWorld} {urgent' waiting' : List WireMessage}
    (hpast : tokens terminalId (world'.log ++ urgent') = tokens terminalId (world.log ++ urgent))
    (hqueue : tokens terminalId waiting' = tokens terminalId waiting)
    (hlast : world'.last terminalId = world.last terminalId)
    (hrenewing : (world'.feed terminalId urgent' waiting').renewing =
      (world.feed terminalId urgent waiting).renewing)
    (hflow : world'.outbound.flow.contains terminalId = world.outbound.flow.contains terminalId)
    (hfenced : terminalId ∈ world'.outbound.replayRequired ↔
      terminalId ∈ world.outbound.replayRequired)
    (hclosing : (world.feed terminalId urgent waiting).closing = true →
      (world'.feed terminalId urgent' waiting').closing = true)
    (hraw : terminalId ∈ world'.raw ↔ terminalId ∈ world.raw)
    (hwired : (terminalId ∈ world'.subscribed ↔ terminalId ∈ world.subscribed) ∨
      terminalId ∉ world'.subscribed ∧ (world'.feed terminalId urgent' waiting').closing = true) :
    (world.feed terminalId urgent waiting).Step (world'.feed terminalId urgent' waiting') := by
  have hidle := @Feed.Step.idle (world.feed terminalId urgent waiting) _
    (decide (terminalId ∈ world'.subscribed)) hclosing (hwired.imp decide_eq_decide.mpr fun hgone =>
      ⟨decide_eq_false hgone.1, hgone.2⟩)
  have heq : world'.feed terminalId urgent' waiting' =
      { world.feed terminalId urgent waiting with
        closing := (world'.feed terminalId urgent' waiting').closing
        wired := decide (terminalId ∈ world'.subscribed) } := by
    refine Feed.mk.injEq .. |>.mpr ⟨hpast, hqueue, hlast, hrenewing, hflow, ?_, rfl, ?_, rfl⟩
    · exact decide_eq_decide.mpr hfenced
    · exact decide_eq_decide.mpr hraw
  rw [heq]
  exact hidle

theorem listens_flow {outbound : ConnectionOutbound} {id : String}
    (hlistens : outbound.listens id = true) : outbound.flow.contains id = true := by
  unfold ConnectionOutbound.listens at hlistens
  exact (and_eq_true_iff.mp hlistens).2

variable [ByteLength WireMessage]

section

variable (hcarr : world.outbound.mailbox.Carries urgent waiting)
include hcarr

/-- Output of a terminal is queued for it, or a fence is, or nothing. -/
theorem output_advances (terminal : HostTerminal) (data : List UInt8) :
    Advances world urgent waiting (world.output terminal data) := by
  have hlast : ∀ terminalId, terminalId ≠ terminal.id →
      (world.output terminal data).last terminalId = world.last terminalId :=
    fun terminalId hother => Function.update_of_ne hother _ _
  by_cases hsubs : terminal.id ∈ world.subscribed
  · have htakes := ConnectionOutbound.enqueueTerminal_takes hcarr
      ⟨world.eventSequence + 1, terminal.id, world.last terminal.id + 1, data⟩
    have hwired : (world.feed terminal.id urgent waiting).wired = true := decide_eq_true hsubs
    unfold Advances StreamWorld.output at *
    simp only [if_pos hsubs] at *
    generalize world.outbound.enqueueTerminal _ = after at htakes
    cases htakes with
    | ignored hlistens =>
      refine ⟨urgent, waiting, hcarr, fun terminalId => ?_⟩
      by_cases hid : terminalId = terminal.id
      · subst hid
        have hskips := @Feed.Step.skipped (world.feed terminal.id urgent waiting)
          (.inr (feed_listens.trans hlistens))
        simpa [StreamWorld.feed] using hskips
      · exact feed_idle rfl rfl (hlast terminalId hid) rfl rfl .rfl (fun hclosing => hclosing)
          .rfl (.inl .rfl)
    | unencodable hlistens hlong => exact absurd hlong (Nat.not_lt.mpr terminal.id_short)
    | sent hlistens hsent =>
      refine ⟨urgent, _, hsent, fun terminalId => ?_⟩
      have hflow := contains_insert world.outbound.flow terminal.id terminalId
      by_cases hid : terminalId = terminal.id
      · subst hid
        have hqueued := @Feed.Step.queued (world.feed terminal.id urgent waiting) hwired
          (feed_listens.trans hlistens)
        simpa [StreamWorld.feed, tokens_singleton, WireMessage.token?,
          hflow _ (listens_flow hlistens)] using hqueued
      · refine feed_idle rfl ?_ (hlast terminalId hid) rfl (hflow _ (listens_flow hlistens)) .rfl
          (fun hclosing => hclosing) .rfl (.inl .rfl)
        rw [tokens_append, tokens_singleton, WireMessage.token?, if_neg (Ne.symm hid)]
        exact append_nil _
    | fenced hlistens hsent =>
      refine ⟨urgent, _, hsent, fun terminalId => ?_⟩
      have hflow := contains_insert world.outbound.flow terminal.id terminalId
      by_cases hid : terminalId = terminal.id
      · subst hid
        have hreplaced := @Feed.Step.replaced (world.feed terminal.id urgent waiting) hwired
          (feed_listens.trans hlistens)
        simpa [StreamWorld.feed, tokens_singleton, WireMessage.token?,
          hflow _ (listens_flow hlistens)] using hreplaced
      · refine feed_idle rfl ?_ (hlast terminalId hid) rfl (hflow _ (listens_flow hlistens)) ?_
          (fun hclosing => hclosing) .rfl (.inl .rfl)
        · rw [tokens_append, tokens_singleton, WireMessage.token?, if_neg (Ne.symm hid)]
          exact append_nil _
        · simp [hid]
    | closed hlistens =>
      refine ⟨urgent, waiting, hcarr, fun terminalId => ?_⟩
      have hflow := contains_insert world.outbound.flow terminal.id terminalId
      by_cases hid : terminalId = terminal.id
      · subst hid
        have hover := @Feed.Step.overflowed (world.feed terminal.id urgent waiting) hwired
          (feed_listens.trans hlistens)
        simpa [StreamWorld.feed, hflow _ (listens_flow hlistens)] using hover
      · refine feed_idle rfl rfl (hlast terminalId hid) rfl (hflow _ (listens_flow hlistens)) ?_
          (fun _ => Bool.or_true _) .rfl (.inl .rfl)
        simp [hid]
  · refine ⟨urgent, waiting, ?_, fun terminalId => ?_⟩
    · unfold StreamWorld.output
      simpa only [if_neg hsubs] using hcarr
    · by_cases hid : terminalId = terminal.id
      · subst hid
        have hskips := @Feed.Step.skipped (world.feed terminal.id urgent waiting)
          (.inl (decide_eq_false hsubs))
        simpa [StreamWorld.feed, StreamWorld.output, hsubs] using hskips
      have hsame : (world.output terminal data).outbound = world.outbound := if_neg hsubs
      refine feed_idle rfl rfl (hlast terminalId hid) rfl ?_ ?_ ?_ .rfl (.inl .rfl)
      · rw [hsame]
      · rw [hsame]
      · unfold StreamWorld.feed
        rw [hsame]
        exact fun hclosing => hclosing

omit [ByteLength WireMessage] in
theorem startAttach_advances
    (hidle : world.attach = none) (id : String) (afterSequence : Nat) (mode : String) :
    Advances world urgent waiting (world.startAttach id afterSequence mode) := by
  refine ⟨urgent, waiting, hcarr, fun terminalId => ?_⟩
  have hraw : id ∈ world.raw → id ∈ (world.startAttach id afterSequence mode).raw := by
    intro hmem
    unfold StreamWorld.startAttach
    dsimp only
    split
    · exact Finset.mem_insert_of_mem hmem
    · exact hmem
  by_cases hid : terminalId = id
  · subst hid
    have hrenews := @Feed.Step.renew (world.feed terminalId urgent waiting)
      (decide (terminalId ∈ (world.startAttach terminalId afterSequence mode).raw))
      (by unfold StreamWorld.feed; rw [hidle]; rfl)
      (fun hwanted => decide_eq_true (hraw (of_decide_eq_true hwanted)))
    have hwired : decide (terminalId ∈
        (world.startAttach terminalId afterSequence mode).subscribed) =
        ((world.feed terminalId urgent waiting).wired ||
          decide (terminalId ∈ (world.startAttach terminalId afterSequence mode).raw)) := by
      unfold StreamWorld.feed StreamWorld.startAttach
      dsimp only
      generalize (if mode = "raw" ∨ mode = "both" then insert terminalId world.raw
        else world.raw) = raw
      by_cases hmem : terminalId ∈ raw <;> simp [hmem]
    rw [← hwired] at hrenews
    simpa [StreamWorld.feed, StreamWorld.startAttach, ConnectionOutbound.attach, Feed.live,
      StreamWorld.live, IndexMap.contains] using hrenews
  · refine feed_idle rfl rfl rfl ?_ ?_ ?_ (fun hclosing => hclosing) ?_ (.inl ?_)
    · unfold StreamWorld.feed StreamWorld.startAttach
      rw [hidle]
      exact if_neg (Ne.symm hid)
    · unfold StreamWorld.startAttach ConnectionOutbound.attach IndexMap.contains
      rw [get?_insert, if_neg hid]
    · simp [StreamWorld.startAttach, ConnectionOutbound.attach, hid]
    · unfold StreamWorld.startAttach
      dsimp only
      split <;> simp [hid]
    · unfold StreamWorld.startAttach
      dsimp only
      split <;> split <;> simp [hid]

omit [ByteLength WireMessage] in
theorem answer_advances
    {id : String} {live : Bool} (hattach : world.attach = some ⟨id, live, none⟩) :
    Advances world urgent waiting
      { world with attach := some ⟨id, live, some (world.last id)⟩ } := by
  refine ⟨urgent, waiting, hcarr, fun terminalId => ?_⟩
  by_cases hid : id = terminalId
  · subst hid
    have hanswers := @Feed.Step.answered (world.feed id urgent waiting) live
      (by unfold StreamWorld.feed; rw [hattach]; exact if_pos rfl)
    simpa [StreamWorld.feed] using hanswers
  · refine feed_idle rfl rfl rfl ?_ rfl .rfl (fun hclosing => hclosing) .rfl (.inl .rfl)
    unfold StreamWorld.feed
    rw [hattach]
    simp [hid]

omit [ByteLength WireMessage] in

omit [ByteLength WireMessage] in
theorem leave_advances : Advances world urgent waiting world.leave :=
  ⟨urgent, waiting, hcarr, fun _ => feed_idle rfl rfl rfl rfl rfl .rfl (fun _ => rfl) .rfl
    (.inr ⟨Finset.notMem_empty _, rfl⟩)⟩

theorem finishAttach_advances
    {command : AttachCommand} {sequence : Nat} (hattach : world.attach = some command)
    (hanswer : command.answer = some sequence) :
    Advances world urgent waiting (world.finishAttach command sequence) := by
  have hanswers := ConnectionOutbound.enqueueAttachResult_answers hcarr command.id (some sequence)
  unfold Advances StreamWorld.finishAttach
  dsimp only
  generalize world.outbound.enqueueAttachResult command.id (some sequence) = sent at hanswers
  obtain ⟨accepted, after⟩ := sent
  generalize hsnap : some sequence = snapshot at hanswers
  cases hanswers with
  | attached hsent =>
    cases hsnap
    refine ⟨_, _, hsent, fun terminalId => ?_⟩
    have hflow := contains_modify world.outbound.flow command.id terminalId
      fun flow => flow.acknowledge sequence
    by_cases hid : command.id = terminalId
    · subst hid
      have hrenewed := @Feed.Step.renewed (world.feed command.id urgent waiting) command.live
        sequence (by unfold StreamWorld.feed; rw [hattach, ← hanswer]; exact if_pos rfl)
      simpa [StreamWorld.feed, tokens_singleton, WireMessage.token?, tokens_discard,
        hflow] using hrenewed
    · refine feed_idle ?_ (tokens_discard_other hid sequence waiting) rfl ?_ hflow .rfl
        (fun hclosing => hclosing) .rfl (.inl .rfl)
      · simp [tokens_singleton, WireMessage.token?, hid]
      · unfold StreamWorld.feed
        rw [hattach]
        exact (if_neg hid).symm
  | failed hsent => cases hsnap
  | closed =>
    refine ⟨urgent, waiting, hcarr, fun terminalId => ?_⟩
    exact feed_idle rfl rfl rfl rfl rfl .rfl (fun _ => rfl) .rfl (.inr ⟨Finset.notMem_empty _, rfl⟩)

theorem refuseAttach_advances {command : AttachCommand} (hattach : world.attach = some command) :
    Advances world urgent waiting (world.refuseAttach command) := by
  have hanswers := ConnectionOutbound.enqueueAttachResult_answers hcarr command.id none
  unfold Advances StreamWorld.refuseAttach
  dsimp only
  generalize world.outbound.enqueueAttachResult command.id none = sent at hanswers
  obtain ⟨accepted, after⟩ := sent
  generalize hsnap : (none : Option Nat) = snapshot at hanswers
  cases hanswers with
  | failed hsent =>
    refine ⟨_, _, hsent, fun terminalId => ?_⟩
    have hflow := contains_shiftRemove world.outbound.flow command.id terminalId
    by_cases hid : command.id = terminalId
    · subst hid
      have hrefused := @Feed.Step.refused (world.feed command.id urgent waiting)
        (command.live, command.answer)
        (by unfold StreamWorld.feed; rw [hattach]; exact if_pos rfl)
      simpa [StreamWorld.feed, tokens_singleton, WireMessage.token?, hflow] using hrefused
    · refine feed_idle ?_ rfl rfl ?_ ?_ ?_ (fun hclosing => hclosing) ?_ (.inl ?_)
      · simp [tokens_singleton, WireMessage.token?, hid]
      · unfold StreamWorld.feed
        rw [hattach]
        exact (if_neg hid).symm
      · refine hflow.trans ?_
        simp [Ne.symm hid]
      · simp [Ne.symm hid]
      · simp [Ne.symm hid]
      · simp [Ne.symm hid]
  | attached hsent => cases hsnap
  | closed =>
    refine ⟨urgent, waiting, hcarr, fun terminalId => ?_⟩
    by_cases hid : command.id = terminalId
    · subst hid
      have hwithdrawn := @Feed.Step.withdrawn (world.feed command.id urgent waiting)
      simpa [StreamWorld.feed, StreamWorld.leave, ConnectionOutbound.stop] using hwithdrawn
    · refine feed_idle rfl rfl rfl rfl rfl .rfl (fun _ => rfl) ?_
        (.inr ⟨Finset.notMem_empty _, rfl⟩)
      simp [StreamWorld.leave, Ne.symm hid]

omit [ByteLength WireMessage] in
theorem stopAttach_advances (hidle : world.attach = none) (id : String) :
    Advances world urgent waiting (world.stopAttach id) := by
  refine ⟨urgent, waiting, hcarr, fun terminalId => ?_⟩
  have hflow := contains_shiftRemove world.outbound.flow id terminalId
  by_cases hid : terminalId = id
  · subst hid
    have hdropped := @Feed.Step.dropped (world.feed terminalId urgent waiting)
      (by unfold StreamWorld.feed; rw [hidle]; rfl)
    simpa [StreamWorld.feed, StreamWorld.stopAttach, ConnectionOutbound.detach, hflow]
      using hdropped
  · refine feed_idle rfl rfl rfl rfl ?_ ?_ (fun hclosing => hclosing) ?_ (.inl ?_)
    · refine hflow.trans ?_
      simp [hid]
    · simp [StreamWorld.stopAttach, ConnectionOutbound.detach, hid]
    · simp [StreamWorld.stopAttach, hid]
    · simp [StreamWorld.stopAttach, hid]

end

theorem enqueueReliable_sends {outbound : ConnectionOutbound}
    (hcarr : outbound.mailbox.Carries urgent waiting) {message : WireMessage}
    (hmsg : message.isTerminal = false) :
    (∃ mailbox, outbound.enqueueReliable message = (true, { outbound with mailbox := mailbox }) ∧
        mailbox.Carries urgent (waiting ++ [message])) ∨
      ∃ close, outbound.enqueueReliable message = (false, { outbound with close := close }) := by
  unfold ConnectionOutbound.enqueueReliable
  split
  · exact .inr ⟨outbound.close, rfl⟩
  dsimp only
  split
  · rename_i hacc
    exact .inl ⟨_, rfl, hcarr.enqueueReliable hmsg hacc⟩
  · exact .inr ⟨_, rfl⟩

section

variable (hcarr : world.outbound.mailbox.Carries urgent waiting)
include hcarr

theorem settle_advances {message : WireMessage} (hplain : message.isPlain = true) :
    Advances world urgent waiting (world.settle (world.outbound.enqueueReliable message)) := by
  have hmsg : message.isTerminal = false := by
    cases message <;> first | rfl | cases hplain
  rcases enqueueReliable_sends hcarr hmsg with ⟨mailbox, heq, hsent⟩ | ⟨close, heq⟩
  · rw [heq]
    refine ⟨_, _, hsent, fun terminalId => ?_⟩
    refine feed_idle rfl ?_ rfl rfl rfl .rfl (fun hclosing => hclosing) .rfl (.inl .rfl)
    rw [tokens_append, tokens_singleton, token?_plain hplain]
    exact append_nil _
  · rw [heq]
    exact ⟨urgent, waiting, hcarr, fun _ => feed_idle rfl rfl rfl rfl rfl .rfl (fun _ => rfl)
      .rfl (.inr ⟨Finset.notMem_empty _, rfl⟩)⟩

omit [ByteLength WireMessage] in
theorem acknowledge_advances (id : String) (sequence : Nat) : Advances world urgent waiting
      { world with outbound := world.outbound.acknowledge id sequence } :=
  ⟨urgent, waiting, hcarr, fun terminalId => feed_idle rfl rfl rfl rfl
    (contains_modify world.outbound.flow id terminalId _) .rfl (fun hclosing => hclosing) .rfl
    (.inl .rfl)⟩

omit [ByteLength WireMessage] in
theorem close_advances (code : Nat) (reason : String) : Advances world urgent waiting
      ({ world with outbound := world.outbound.closeWith code reason } : StreamWorld).leave :=
  ⟨urgent, waiting, hcarr, fun _ => feed_idle rfl rfl rfl rfl rfl .rfl (fun _ => rfl) .rfl
    (.inr ⟨Finset.notMem_empty _, rfl⟩)⟩

omit [ByteLength WireMessage] in
theorem stop_advances :
    Advances world urgent waiting { world with outbound := world.outbound.stop } :=
  ⟨urgent, waiting, hcarr, fun _ => feed_idle rfl rfl rfl rfl rfl .rfl (fun _ => rfl) .rfl
    (.inl .rfl)⟩

/-- The writer takes the first message: of those that jump the queue, or of
the queue when there are none. -/
theorem wrote_advances
    (hgated : ∀ command, world.attach = some command → command.id ∈ world.outbound.attaching)
    {next : NextOutbound × ConnectionOutbound} (hnext : world.outbound.next = some next) :
    Advances world urgent waiting (world.wrote next) := by
  obtain ⟨action, after⟩ := next
  cases ConnectionOutbound.next_writes hcarr hnext with
  | urgent hattaching hurgent hrest =>
    refine ⟨_, _, hrest, fun terminalId => ?_⟩
    refine feed_idle ?_ rfl rfl rfl rfl .rfl (fun hclosing => hclosing) .rfl (.inl .rfl)
    rw [hurgent]
    simp [StreamWorld.wrote]
  | @waiting frame others mailbox hattaching hurgent hwaiting hrest =>
    refine ⟨_, _, hrest, fun terminalId => ?_⟩
    have hidle : (world.feed terminalId urgent waiting).renewing = none := by
      unfold StreamWorld.feed
      cases hattach : world.attach with
      | none => rfl
      | some command =>
        have hmem := hgated command hattach
        rw [hattaching] at hmem
        exact absurd hmem (Finset.notMem_empty _)
    cases htoken : frame.data.token? terminalId with
    | none =>
      refine feed_idle ?_ ?_ rfl rfl rfl .rfl (fun hclosing => hclosing) .rfl (.inl .rfl)
      · rw [hurgent]
        simp [StreamWorld.wrote, tokens_singleton, htoken]
      · rw [hwaiting]
        simp [tokens, htoken]
    | some token =>
      have hread := @Feed.Step.read (world.feed terminalId urgent waiting) token
        (tokens terminalId others) hidle (by
          unfold StreamWorld.feed
          rw [hwaiting]
          simp [tokens, htoken])
      rw [hurgent] at hread ⊢
      have hpast : tokens terminalId (world.log ++ [] ++ [frame.data]) =
          tokens terminalId (world.log ++ []) ++ [token] := by
        rw [tokens_append, tokens_singleton, htoken]
        rfl
      unfold StreamWorld.feed StreamWorld.wrote at *
      rw [append_nil (world.log ++ [frame.data])]
      rw [append_nil world.log] at hpast hread ⊢
      rw [hpast]
      exact hread
  | close hclose =>
    exact ⟨urgent, waiting, hcarr, fun _ => feed_idle rfl rfl rfl rfl rfl .rfl (fun _ => rfl)
      .rfl (.inl .rfl)⟩
  | stopped hstopped =>
    exact ⟨urgent, waiting, hcarr, fun _ => Feed.Step.refl _⟩

end

end Advances

/-! ## Runs -/

def outputOf (terminalId : String) (messages : List WireMessage) : List Nat :=
  messages.filterMap fun
    | .terminal _ sequence id _ => if id = terminalId then some sequence else none
    | _ => none

def LastAnswer (terminalId : String) (messages : List WireMessage) (snapshot : Nat)
    (run : List WireMessage) : Prop :=
  (∃ before, messages = before ++ .attachResult terminalId (some snapshot) :: run) ∧
    ∀ answer, .attachResult terminalId answer ∉ run

namespace StreamWorld

def given (world : StreamWorld) : List WireMessage :=
  world.log ++ world.outbound.mailbox.priority.map fun queued => queued.frame.data

def isClosing (world : StreamWorld) : Bool :=
  world.outbound.stopped || world.outbound.close.isSome

def isAttached (world : StreamWorld) (terminalId : String) : Bool :=
  match world.attach with
  | some command => if command.id = terminalId then command.live else world.live terminalId
  | none => world.live terminalId

/-- Output that is not there waits, or a fence comes after what is there, or
the connection closes. -/
def Announces (world : StreamWorld) (terminalId : String) (snapshot : Nat)
    (run : List WireMessage) : Prop :=
  (∀ sequence, snapshot + (outputOf terminalId run).length < sequence →
      sequence ≤ world.last terminalId →
      ∃ queued ∈ world.outbound.mailbox.legacy, ∃ eventSequence data,
        queued.frame.data = .terminal eventSequence sequence terminalId data) ∨
    world.isClosing = true ∨
    (∃ queued ∈ world.outbound.mailbox.reliable, ∃ sequence,
      queued.frame.data = .replayRequired terminalId sequence) ∨
    ∃ early sequence late, run = early ++ .replayRequired terminalId sequence :: late ∧
      outputOf terminalId late = []

def Gated (world : StreamWorld) : Prop :=
  ∀ command, world.attach = some command → command.id ∈ world.outbound.attaching

def Streams (world : StreamWorld) : Prop :=
  ∃ urgent waiting, world.outbound.mailbox.Carries urgent waiting ∧
    ∀ terminalId, (world.feed terminalId urgent waiting).Sound

def Orderly (world : StreamWorld) : Prop := world.Gated ∧ world.Streams

end StreamWorld

section Messages

variable {messages run : List WireMessage} {snapshot : Nat}

theorem outputOf_eq (messages : List WireMessage) :
    outputOf terminalId messages = frames (tokens terminalId messages) := by
  unfold outputOf frames tokens
  rw [filterMap_filterMap]
  refine filterMap_congr fun message _ => ?_
  cases message with
  | terminal | attachResult | replayRequired =>
    simp only [WireMessage.token?]
    split <;> rfl
  | event event => rfl
  | answer => rfl

theorem LastAnswer.since (h : LastAnswer terminalId messages snapshot run) :
    Resume.since (tokens terminalId messages) = some (some snapshot, tokens terminalId run) := by
  obtain ⟨⟨before, rfl⟩, hlast⟩ := h
  have hres : tokens terminalId (.attachResult terminalId (some snapshot) :: run) =
      .result (some snapshot) :: tokens terminalId run := by
    simp [tokens, WireMessage.token?]
  rw [tokens_append, hres]
  refine since_split _ fun token hmem => ?_
  obtain ⟨message, hmsg, htoken⟩ := mem_filterMap.mp hmem
  cases message with
  | attachResult id lastSequence =>
    obtain ⟨rfl, -⟩ := ite_none_right_eq_some.mp htoken
    exact absurd hmsg (hlast lastSequence)
  | replayRequired id sequence =>
    obtain ⟨-, hfence⟩ := ite_none_right_eq_some.mp htoken
    cases hfence
    rfl
  | terminal eventSequence sequence id data =>
    obtain ⟨-, hframe⟩ := ite_none_right_eq_some.mp htoken
    cases hframe
    rfl
  | event | answer => cases htoken

theorem token?_frame {sequence : Nat} (htoken : message.token? terminalId = some (.frame sequence)) :
    ∃ eventSequence data, message = .terminal eventSequence sequence terminalId data := by
  cases message with
  | terminal eventSequence terminalSequence id data =>
    obtain ⟨rfl, hframe⟩ := ite_none_right_eq_some.mp htoken
    cases hframe
    exact ⟨eventSequence, data, rfl⟩
  | attachResult | replayRequired => cases (ite_none_right_eq_some.mp htoken).2
  | event event => cases htoken
  | answer => cases htoken

theorem token?_fence (htoken : message.token? terminalId = some .fence) :
    ∃ sequence, message = .replayRequired terminalId sequence := by
  cases message with
  | replayRequired id sequence =>
    obtain ⟨rfl, -⟩ := ite_none_right_eq_some.mp htoken
    exact ⟨sequence, rfl⟩
  | attachResult | terminal => cases (ite_none_right_eq_some.mp htoken).2
  | event event => cases htoken
  | answer => cases htoken

theorem fenceLast_messages (h : FenceLast (tokens terminalId run)) :
    ∃ early sequence late, run = early ++ .replayRequired terminalId sequence :: late ∧
      outputOf terminalId late = [] := by
  obtain ⟨before, after, heq, hafter⟩ := h
  obtain ⟨early, rest, rfl, -, hrest⟩ := filterMap_eq_append_iff.mp heq
  obtain ⟨skipped, message, late, rfl, hskipped, hfence, hlate⟩ := filterMap_eq_cons_iff.mp hrest
  obtain ⟨sequence, rfl⟩ := token?_fence hfence
  refine ⟨early ++ skipped, sequence, late, by simp, ?_⟩
  rw [outputOf_eq, tokens, hlate, hafter]

variable {mailbox : OutboundMailbox WireMessage}

theorem OutboundMailbox.Carries.priority (h : mailbox.Carries urgent waiting) :
    (mailbox.priority.map fun queued => queued.frame.data) = urgent := by
  obtain ⟨box, hholds, hurgent, -, -⟩ := h
  rw [hholds.priority]
  exact hurgent

theorem OutboundMailbox.Carries.lane (h : mailbox.Carries urgent waiting)
    (hmem : message ∈ waiting) :
    if message.isTerminal then ∃ queued ∈ mailbox.legacy, queued.frame.data = message
    else ∃ queued ∈ mailbox.reliable, queued.frame.data = message := by
  obtain ⟨box, hholds, -, rfl, hfits⟩ := h
  obtain ⟨⟨lane, queued⟩, hslot, rfl⟩ := List.mem_map.mp hmem
  have hfit := hfits _ hslot
  unfold Slot.Fits at hfit
  cases hmsg : Slot.message ⟨lane, queued⟩ with
  | terminal eventSequence sequence id data =>
    rw [hmsg] at hfit
    obtain rfl := hfit.1
    exact ⟨queued, hholds.mem_legacy.mpr hslot, hmsg⟩
  | _ =>
    rw [hmsg] at hfit
    obtain rfl : lane = .reliable := hfit
    exact ⟨queued, hholds.mem_reliable.mpr hslot, hmsg⟩

end Messages

variable {limits : MailboxLimits}

section Runs

variable {world world' : StreamWorld}

theorem StreamWorld.Started.streams {flowLimit : Nat} {limits : MailboxLimits}
    (h : world.Started flowLimit limits) : world.Streams := by
  obtain ⟨houtbound, hraw, hsubs, hattach, hlog⟩ := h
  refine ⟨[], [], ?_, fun terminalId => ?_⟩
  · rw [houtbound]
    exact OutboundMailbox.Carries.new limits
  · have hfeed : world.feed terminalId [] [] =
        ⟨[], [], world.last terminalId, none, false, false, false, false, false⟩ := by
      unfold StreamWorld.feed
      rw [houtbound, hraw, hsubs, hattach, hlog]
      rfl
    rw [hfeed]
    exact Feed.sound_start _

variable [ByteLength WireMessage]

variable {flowLimit : Nat}

theorem gated_step {action : StreamAction} (h : world.Gated) (hstrs : world.Streams)
    (hstep : (streamSystem flowLimit limits).step world action = some world') : world'.Gated := by
  obtain ⟨urgent, waiting, hcarr, -⟩ := hstrs
  have hkeeps : ∀ next : StreamWorld, next.attach = world.attach →
      next.outbound.attaching = world.outbound.attaching → next.Gated := by
    intro next hattach hattaching command hcommand
    rw [hattaching]
    exact h command (hattach ▸ hcommand)
  have hidles : ∀ next : StreamWorld, next.attach = none → next.Gated := by
    intro next hnone command hcommand
    cases hnone.symm.trans hcommand
  have hready : world.ready = true → world.attach = none := by
    intro hready
    exact isNone_iff_eq_none.mp (and_eq_true_iff.mp hready).2
  cases action with
  | output terminal data =>
    cases hstep
    refine hkeeps _ rfl ?_
    unfold StreamWorld.output
    dsimp only
    split
    · have htakes := ConnectionOutbound.enqueueTerminal_takes hcarr
        ⟨world.eventSequence + 1, terminal.id, world.last terminal.id + 1, data⟩
      generalize world.outbound.enqueueTerminal _ = after at htakes
      cases htakes <;> rfl
    · rfl
  | attach id afterSequence mode =>
    obtain ⟨-, hnext⟩ := ite_none_right_eq_some.mp hstep
    cases hnext
    intro command hcommand
    cases hcommand
    exact Finset.mem_insert_self _ _
  | answer =>
    simp only [streamSystem] at hstep
    split at hstep
    · rename_i id live hattach
      cases hstep
      intro command hcommand
      cases hcommand
      exact h ⟨id, live, none⟩ hattach
    · cases hstep
  | finish =>
    simp only [streamSystem] at hstep
    split at hstep
    · rename_i id live sequence hattach
      cases hstep
      have hanswers := ConnectionOutbound.enqueueAttachResult_answers hcarr id (some sequence)
      unfold StreamWorld.finishAttach
      dsimp only
      generalize world.outbound.enqueueAttachResult id (some sequence) = sent at hanswers
      obtain ⟨accepted, after⟩ := sent
      cases accepted with
      | true => exact hidles _ rfl
      | false =>
        cases hanswers
        exact hkeeps _ rfl rfl
    · cases hstep
  | refuse =>
    obtain ⟨command, hattach, rfl⟩ := map_eq_some_iff.mp hstep
    have hanswers := ConnectionOutbound.enqueueAttachResult_answers hcarr command.id none
    unfold StreamWorld.refuseAttach
    dsimp only
    generalize world.outbound.enqueueAttachResult command.id none = sent at hanswers
    obtain ⟨accepted, after⟩ := sent
    cases accepted with
    | true => exact hidles _ rfl
    | false =>
      cases hanswers
      exact hkeeps _ rfl rfl
  | detach | acknowledge | close | leave =>
    obtain ⟨hready', hnext⟩ := ite_none_right_eq_some.mp hstep
    cases hnext
    exact hidles _ (hready hready')
  | send message =>
    obtain ⟨hguard, hnext⟩ := ite_none_right_eq_some.mp hstep
    cases hnext
    refine hidles _ ?_
    have hidle := hready (and_eq_true_iff.mp hguard).1
    unfold StreamWorld.settle
    split <;> exact hidle
  | stop =>
    cases hstep
    exact hkeeps _ rfl rfl
  | write =>
    obtain ⟨⟨next, after⟩, hnext, rfl⟩ := map_eq_some_iff.mp hstep
    refine hkeeps _ rfl ?_
    cases ConnectionOutbound.next_writes hcarr hnext <;> rfl

theorem advances_step {action : StreamAction}
    (hgated : world.Gated) {urgent waiting : List WireMessage}
    (hcarr : world.outbound.mailbox.Carries urgent waiting)
    (hstep : (streamSystem flowLimit limits).step world action = some world') :
    Advances world urgent waiting world' := by
  have hready : world.ready = true → world.attach = none := by
    intro hready
    exact isNone_iff_eq_none.mp (and_eq_true_iff.mp hready).2
  cases action with
  | output terminal data =>
    cases hstep
    exact output_advances hcarr terminal data
  | attach id afterSequence mode =>
    obtain ⟨hready', hnext⟩ := ite_none_right_eq_some.mp hstep
    cases hnext
    exact startAttach_advances hcarr (hready hready') id afterSequence mode
  | answer =>
    simp only [streamSystem] at hstep
    split at hstep
    · rename_i id live hattach
      cases hstep
      exact answer_advances hcarr hattach
    · cases hstep
  | finish =>
    simp only [streamSystem] at hstep
    split at hstep
    · rename_i id live sequence hattach
      cases hstep
      exact finishAttach_advances hcarr hattach rfl
    · cases hstep
  | refuse =>
    obtain ⟨command, hattach, rfl⟩ := map_eq_some_iff.mp hstep
    exact refuseAttach_advances hcarr hattach
  | detach id =>
    obtain ⟨hready', hnext⟩ := ite_none_right_eq_some.mp hstep
    cases hnext
    exact stopAttach_advances hcarr (hready hready') id
  | send message =>
    obtain ⟨hguard, hnext⟩ := ite_none_right_eq_some.mp hstep
    cases hnext
    exact settle_advances hcarr (and_eq_true_iff.mp hguard).2
  | acknowledge id sequence =>
    obtain ⟨hready', hnext⟩ := ite_none_right_eq_some.mp hstep
    cases hnext
    exact acknowledge_advances hcarr id sequence
  | close code reason =>
    obtain ⟨hready', hnext⟩ := ite_none_right_eq_some.mp hstep
    cases hnext
    exact close_advances hcarr code reason
  | leave =>
    obtain ⟨hready', hnext⟩ := ite_none_right_eq_some.mp hstep
    cases hnext
    exact leave_advances hcarr
  | stop =>
    cases hstep
    exact stop_advances hcarr
  | write =>
    obtain ⟨next, hnext, rfl⟩ := map_eq_some_iff.mp hstep
    exact wrote_advances hcarr hgated hnext

theorem reachable_orderly
    (hreach : (streamSystem flowLimit limits).Reachable world) : world.Orderly := by
  refine hreach.invariant ?_ ?_
  · intro world hstarted
    refine ⟨fun command hcommand => ?_, hstarted.streams⟩
    cases hstarted.2.2.2.1.symm.trans hcommand
  · rintro world action world' ⟨hgated, hstrs⟩ - hstep
    refine ⟨gated_step hgated hstrs hstep, ?_⟩
    obtain ⟨urgent, waiting, hcarr, hsound⟩ := hstrs
    obtain ⟨urgent', waiting', hcarr', hadvances⟩ := advances_step hgated hcarr hstep
    exact ⟨urgent', waiting', hcarr', fun terminalId =>
      (hadvances terminalId).sound (hsound terminalId)⟩

end Runs

/-! ## Credit -/

/-- The bytes that count are those sent and not acknowledged, and they are
within the limit. -/
structure TerminalFlow.Credited (limit : Nat) (flow : TerminalFlow) : Prop where
  counted : flow.unacknowledgedBytes = (flow.sent.map Prod.snd).sum
  within : flow.unacknowledgedBytes ≤ limit

def ConnectionOutbound.Credited (limit : Nat) (outbound : ConnectionOutbound) : Prop :=
  outbound.protocol = 2 ∧ outbound.flowLimit = limit ∧
    ∀ id flow, outbound.flow.get? id = some flow → flow.Credited limit

section Credit

variable {limit : Nat} {flow : TerminalFlow}

theorem TerminalFlow.Credited.reserve (h : flow.Credited limit) (sequence bytes : Nat) :
    (flow.reserve sequence bytes limit).2.Credited limit := by
  unfold TerminalFlow.reserve
  split
  · exact h
  split
  · exact h
  rename_i hroom
  exact ⟨by simp [h.counted], Nat.not_lt.mp hroom⟩

theorem TerminalFlow.Credited.acknowledge (h : flow.Credited limit) (sequence : Nat) :
    (flow.acknowledge sequence).Credited limit := by
  have hsplit := h.counted
  rw [← takeWhile_append_dropWhile (p := fun entry => decide (entry.1 ≤ sequence)) (l := flow.sent),
    map_append, sum_append] at hsplit
  unfold TerminalFlow.acknowledge
  split
  · exact h
  · exact ⟨by simp [hsplit], (Nat.sub_le _ _).trans h.within⟩

namespace ConnectionOutbound.Credited

variable {outbound : ConnectionOutbound} (h : outbound.Credited limit) (id : String)
include h

theorem change {flows : IndexMap String TerminalFlow} (hflows : ∀ other flow,
    flows.get? other = some flow → outbound.flow.get? other = some flow ∨ flow.Credited limit) :
    Credited limit { outbound with flow := flows } :=
  ⟨h.1, h.2.1, fun other flow hflow => (hflows other flow hflow).elim (h.2.2 other flow) id⟩

theorem acknowledge (sequence : Nat) : (outbound.acknowledge id sequence).Credited limit := by
  refine h.change fun other flow hflow => ?_
  rw [get?_modify] at hflow
  split at hflow
  · obtain ⟨old, hold, rfl⟩ := map_eq_some_iff.mp hflow
    exact .inr ((h.2.2 other old hold).acknowledge sequence)
  · exact .inl hflow

theorem remove : Credited limit { outbound with flow := outbound.flow.shiftRemove id } :=
  h.change fun other flow hflow => by grind [get?_shiftRemove]

theorem insert (hflow : flow.Credited limit) :
    Credited limit { outbound with flow := outbound.flow.insert id flow } :=
  h.change fun other found hfound => by grind [get?_insert]

variable [ByteLength WireMessage]

theorem enqueueTerminal (output : TerminalOutput) :
    (outbound.enqueueTerminal output).Credited limit := by
  unfold ConnectionOutbound.enqueueTerminal
  split
  · exact h
  cases hflow : outbound.flow.get? output.terminalId with
  | none => exact h
  | some flow =>
    have hreserved : (outbound.reserve flow output).2.Credited limit := by
      unfold ConnectionOutbound.reserve
      rw [if_neg (not_not.mpr h.1), h.2.1]
      exact (h.2.2 _ flow hflow).reserve _ _
    have hkept := h.insert output.terminalId hreserved
    unfold requireReplay
    dsimp only
    repeat' split
    all_goals exact hkept

end ConnectionOutbound.Credited

variable [ByteLength WireMessage]

/-- In every run the output of a terminal that is sent and not acknowledged is
within the limit, and is what is counted. -/
theorem flow_credited (hreach : (streamSystem limit limits).Reachable world) {id : String}
    (hflow : world.outbound.flow.get? id = some flow) : flow.Credited limit := by
  suffices world.outbound.Credited limit from this.2.2 id flow hflow
  apply hreach.invariant
  · rintro start ⟨houtbound, -⟩
    rw [houtbound]
    exact ⟨rfl, rfl, nofun⟩
  intro world action world' h _ hstep
  cases action with
  | output terminal data =>
    cases hstep
    unfold StreamWorld.output
    dsimp only
    split
    · exact h.enqueueTerminal _
    · exact h
  | attach id afterSequence mode =>
    obtain ⟨-, hnext⟩ := ite_none_right_eq_some.mp hstep
    cases hnext
    have hnew : (TerminalFlow.new afterSequence).Credited limit := ⟨rfl, Nat.zero_le _⟩
    exact h.insert id hnew
  | answer =>
    simp only [streamSystem] at hstep
    split at hstep <;> cases hstep
    exact h
  | finish =>
    simp only [streamSystem] at hstep
    split at hstep <;> cases hstep
    rename_i id live sequence hattach
    unfold StreamWorld.finishAttach ConnectionOutbound.enqueueAttachResult
    dsimp only
    repeat' split
    all_goals first | exact h | exact h.acknowledge id sequence
  | refuse =>
    obtain ⟨command, hattach, rfl⟩ := map_eq_some_iff.mp hstep
    unfold StreamWorld.refuseAttach ConnectionOutbound.enqueueAttachResult
    dsimp only
    repeat' split
    all_goals first | exact h | exact h.remove command.id
  | detach id =>
    obtain ⟨-, hnext⟩ := ite_none_right_eq_some.mp hstep
    cases hnext
    exact h.remove id
  | send message =>
    obtain ⟨-, hnext⟩ := ite_none_right_eq_some.mp hstep
    cases hnext
    unfold ConnectionOutbound.enqueueReliable StreamWorld.settle
    dsimp only
    repeat' split
    all_goals exact h
  | acknowledge id sequence =>
    obtain ⟨-, hnext⟩ := ite_none_right_eq_some.mp hstep
    cases hnext
    exact h.acknowledge id sequence
  | close | leave =>
    obtain ⟨-, hnext⟩ := ite_none_right_eq_some.mp hstep
    cases hnext
    exact h
  | stop =>
    cases hstep
    exact h
  | write =>
    obtain ⟨next, hnext, rfl⟩ := map_eq_some_iff.mp hstep
    unfold ConnectionOutbound.next at hnext
    split at hnext
    · cases hnext
      exact h
    split at hnext
    · cases hnext
      exact h
    · obtain ⟨-, hnext⟩ := ite_none_right_eq_some.mp hnext
      cases hnext
      exact h

end Credit

section Sample

/-- Every message counts for one byte. -/
local instance streamLength : ByteLength WireMessage := ⟨fun _ => 1⟩

def sampleStreams : StreamWorld where
  last := fun _ => 0
  eventSequence := 0
  outbound := .new 2 2 {}
  raw := ∅
  subscribed := ∅
  attach := none
  running := true
  log := []

theorem sampleStreams_started : sampleStreams.Started 2 {} := ⟨rfl, rfl, rfl, rfl, rfl⟩

def sampleHostTerminal : HostTerminal := ⟨0, 0⟩

def streamActions (mode : String) : List StreamAction :=
  [.attach sampleHostTerminal.id 0 mode, .answer, .finish, .output sampleHostTerminal [104, 105],
    .output sampleHostTerminal [33], .write]

theorem flow_credited_sample : ∃ world flow, (streamSystem 2 {}).Reachable world ∧
    world.outbound.flow.get? sampleHostTerminal.id = some flow ∧ flow.sent = [(1, 2)] ∧
    flow.Credited 2 := by
  have hany : ((streamSystem 2 {}).replay (fun _ _ => true) sampleStreams
      (streamActions "raw")).any (fun world =>
        world.outbound.flow.get? sampleHostTerminal.id == some ⟨0, [(1, 2)], 2⟩) = true := by decide
  obtain ⟨world, hworld, hcheck⟩ := (any_eq_true _ _).mp hany
  have hreach : (streamSystem 2 {}).Reachable world :=
    System.replay_run (System.Run.start sampleStreams_started) (fun _ _ _ _ => trivial) hworld
  have hflow := beq_iff_eq.mp hcheck
  exact ⟨world, _, hreach, hflow, rfl, flow_credited hreach hflow⟩

end Sample

end Yaade.Connection

import Yaade.Library.Transition

/-!
How a client of a host keeps its terminals attached.
-/

namespace Yaade.HostClient

open Yaade.Library List
open Option hiding sequence

def maxBufferedTerminalBytes : Nat := 2 * 1024 * 1024

/-! ## Replies of the host -/

structure TerminalCheckpoint where
  sequence : Nat
  syntheticBytes : List UInt8
  deriving DecidableEq

structure TerminalAttachResult where
  lastSequence : Nat
  output : List UInt8
  outputChunks : List (List UInt8)
  checkpoint : Option TerminalCheckpoint
  archiveAvailable : Bool
  replayTruncated : Bool
  replayNeedsQueryResponses : Bool
  deriving DecidableEq

structure ReplayPage where
  chunks : List (List UInt8)
  firstSequence : Nat
  nextSequence : Nat
  complete : Bool
  deriving DecidableEq

def TerminalAttachResult.chunks (result : TerminalAttachResult) : List (List UInt8) :=
  if result.outputChunks ≠ [] then result.outputChunks
  else if result.output ≠ [] then [result.output] else []

/-! ## One terminal -/

inductive Acknowledgement where
  | delivery
  | consumption
  deriving DecidableEq

/-- Output on its way to the listeners. Live output is to be acknowledged. -/
structure BufferedTerminalData where
  data : List UInt8
  sequence : Nat
  replay : Bool
  replayNeedsQueryResponses : Bool
  replayTruncated : Bool
  acknowledge : Bool
  deriving DecidableEq

/-- Where a resync stands: it waits for its attach, for a page of the archive,
or for the pause after a page; or it has ended, and its end is not worked off. -/
inductive ResyncStage where
  | attaching
  | paging (result : TerminalAttachResult) (cursor : Nat) (firstChunk : Bool)
  | yielding (result : TerminalAttachResult) (cursor : Nat) (complete : Bool)
  | settled (succeeded : Bool)
  deriving DecidableEq

structure ResyncRequest where
  generation : Nat
  afterSequence : Nat
  stage : ResyncStage
  deriving DecidableEq

/-- What the client keeps of a terminal. `awaiting` are the live chunks that
listeners have to consume yet, `received` is all the listeners were given.
`listened` and `attached` say of the current connection whether the terminal had
a listener when it began, and whether an attach was sent on it. -/
structure TerminalSync where
  listeners : List Acknowledgement
  buffer : List BufferedTerminalData
  gap : Bool
  floor : Nat
  resyncing : Bool
  again : Bool
  attempts : Nat
  timer : Option Nat
  request : Option ResyncRequest
  awaiting : List Nat
  received : List BufferedTerminalData
  listened : Bool
  attached : Bool
  deriving DecidableEq

/-- The connection as the client knows it. -/
structure Link where
  connected : Bool
  generation : Nat
  deriving DecidableEq

def bufferedBytes (chunks : List BufferedTerminalData) : Nat :=
  (chunks.map fun chunk => chunk.data.length).sum

def trimBuffer : List BufferedTerminalData → List BufferedTerminalData
  | first :: second :: rest =>
    if bufferedBytes (first :: second :: rest) > maxBufferedTerminalBytes then
      trimBuffer (second :: rest)
    else first :: second :: rest
  | chunks => chunks

namespace TerminalSync

def new : TerminalSync where
  listeners := []
  buffer := []
  gap := false
  floor := 0
  resyncing := false
  again := false
  attempts := 0
  timer := none
  request := none
  awaiting := []
  received := []
  listened := false
  attached := false

def bufferTerminalData (sync : TerminalSync) (chunk : BufferedTerminalData) : TerminalSync :=
  let pending := sync.buffer ++ [chunk]
  { sync with
    buffer := trimBuffer pending
    gap := sync.gap || decide ((trimBuffer pending).length < pending.length) ||
      decide (bufferedBytes (trimBuffer pending) > maxBufferedTerminalBytes) }

def acknowledgeConsumed (sync : TerminalSync) (sequence : Nat) : TerminalSync :=
  if sequence > 0 then { sync with floor := max sync.floor sequence } else sync

/-- All listeners get the chunk, if there are any; it is acknowledged at once
unless some of them acknowledge what they consume. -/
def deliverTerminalData (sync : TerminalSync) (chunk : BufferedTerminalData) :
    Option TerminalSync :=
  if sync.listeners = [] then none
  else
    let delivered := { sync with received := sync.received ++ [chunk] }
    if !chunk.acknowledge then some delivered
    else if .consumption ∈ sync.listeners then
      some { delivered with awaiting := sync.awaiting ++ [chunk.sequence] }
    else some (delivered.acknowledgeConsumed chunk.sequence)

def deliverOrBuffer (sync : TerminalSync) (chunk : BufferedTerminalData) : TerminalSync :=
  (sync.deliverTerminalData chunk).getD (sync.bufferTerminalData chunk)

def replayed (result : TerminalAttachResult) (data : List UInt8) (replayTruncated : Bool) :
    BufferedTerminalData where
  data := data
  sequence := 0
  replay := true
  replayNeedsQueryResponses := result.replayNeedsQueryResponses
  replayTruncated := replayTruncated
  acknowledge := false

def replayChunks (result : TerminalAttachResult) (firstReplayChunk : Bool) :
    List (List UInt8) → TerminalSync → TerminalSync
  | [], sync => sync
  | chunk :: rest, sync =>
    if chunk = [] then sync.replayChunks result firstReplayChunk rest
    else (sync.deliverOrBuffer (replayed result chunk
      (firstReplayChunk && result.replayTruncated))).replayChunks result false rest

def replayPending (replayedThrough : Nat) :
    List BufferedTerminalData → TerminalSync → TerminalSync
  | [], sync => sync
  | chunk :: rest, sync =>
    if chunk.sequence > 0 ∧ chunk.sequence ≤ replayedThrough then
      (if chunk.acknowledge then sync.acknowledgeConsumed chunk.sequence
        else sync).replayPending replayedThrough rest
    else (sync.deliverOrBuffer chunk).replayPending replayedThrough rest

def atStage (sync : TerminalSync) (request : ResyncRequest) (stage : ResyncStage) : TerminalSync :=
  { sync with request := some { request with stage := stage } }

def finishResync (sync : TerminalSync) (request : ResyncRequest) (result : TerminalAttachResult)
    (complete : Bool) (lastSequence : Nat) : TerminalSync :=
  let replayedThrough := max result.lastSequence lastSequence
  let pending := sync.buffer
  let sync := { sync with buffer := [], floor := replayedThrough }
  if sync.gap then
    { sync with gap := false, again := true }.atStage request (.settled true)
  else
    let sync := { sync with resyncing := false }
    let sync := match result.checkpoint with
      | some checkpoint =>
        if checkpoint.syntheticBytes = [] then sync
        else sync.deliverOrBuffer (replayed result checkpoint.syntheticBytes false)
      | none => sync
    let sync := sync.replayChunks result true (if complete then [] else result.chunks)
    (sync.replayPending replayedThrough pending).atStage request (.settled true)

variable (link : Link)

def resolveAttach (sync : TerminalSync) (request : ResyncRequest)
    (result : Option TerminalAttachResult) : TerminalSync :=
  if request.generation ≠ link.generation ∨ link.connected = false ∨ sync.resyncing = false then
    sync.atStage request (.settled true)
  else
    match result with
    | none => { sync with resyncing := false }.atStage request (.settled true)
    | some result =>
      if result.archiveAvailable = false ∨ request.afterSequence ≥ result.lastSequence then
        sync.finishResync request result (request.afterSequence ≥ result.lastSequence)
          request.afterSequence
      else sync.atStage request (.paging result request.afterSequence true)

def resolvePage (sync : TerminalSync) (request : ResyncRequest) (result : TerminalAttachResult)
    (cursor : Nat) (firstChunk : Bool) (page : Option ReplayPage) : TerminalSync :=
  match page with
  | none => sync.finishResync request result false cursor
  | some page =>
    if page.chunks = [] ∨ page.nextSequence ≤ cursor then
      sync.finishResync request result false cursor
    else
      let chunk := replayed result page.chunks.flatten
        (firstChunk && (result.replayTruncated || decide (page.firstSequence > cursor + 1)))
      { sync.deliverOrBuffer chunk with floor := page.nextSequence }.atStage request
        (.yielding result page.nextSequence
          (page.complete || decide (page.nextSequence ≥ result.lastSequence)))

def resolveYield (sync : TerminalSync) (request : ResyncRequest) (result : TerminalAttachResult)
    (cursor : Nat) (complete : Bool) : TerminalSync :=
  if complete = false ∧ request.generation = link.generation then
    sync.atStage request (.paging result cursor false)
  else sync.finishResync request result complete cursor

def requestTerminalResync (sync : TerminalSync) (generation : Nat) : TerminalSync :=
  let sync := { sync with resyncing := true }
  if sync.request.isSome then { sync with again := true }
  else
    { sync with
      buffer := if sync.gap then [] else sync.buffer
      gap := false
      request := some ⟨generation, sync.floor, .attaching⟩
      attached := true }

def settle (sync : TerminalSync) (request : ResyncRequest) (succeeded : Bool) : TerminalSync :=
  let current := request.generation = link.generation ∧ link.connected = true
  let repeats := sync.again
  let sync := { sync with
    attempts := if succeeded then 0 else sync.attempts
    request := none
    again := false }
  if repeats ∧ current then sync.requestTerminalResync request.generation
  else if succeeded = false ∧ current ∧ sync.timer = none then
    { sync with attempts := sync.attempts + 1, timer := some request.generation }
  else sync

def fireTimer (sync : TerminalSync) (generation : Nat) : TerminalSync :=
  if generation = link.generation ∧ link.connected = true ∧ sync.resyncing = true then
    { sync with timer := none }.requestTerminalResync generation
  else { sync with timer := none }

def receiveData (sync : TerminalSync) (data : List UInt8) (sequence : Nat) : TerminalSync :=
  let chunk : BufferedTerminalData := ⟨data, sequence, false, false, false, true⟩
  if sequence > 0 ∧ sequence ≤ sync.floor then sync.acknowledgeConsumed sequence
  else if sync.resyncing then sync.bufferTerminalData chunk
  else (sync.deliverTerminalData chunk).getD (sync.acknowledgeConsumed sequence)

def replayRequired (sync : TerminalSync) (acknowledgedSequence : Nat) : TerminalSync :=
  { sync with floor := max sync.floor acknowledgedSequence }.requestTerminalResync
    link.generation

def deliverPending (sync : TerminalSync) : TerminalSync :=
  let delivered := sync.buffer.foldl (fun sync chunk =>
    (sync.deliverTerminalData chunk).getD sync) sync
  { delivered with buffer := [] }

def onData (sync : TerminalSync) (acknowledgement : Acknowledgement) : TerminalSync :=
  let sync := { sync with
    listeners := sync.listeners ++ [acknowledgement]
    resyncing := sync.resyncing || !link.connected }
  if sync.gap then
    let sync := { sync with gap := false, buffer := [], resyncing := true }
    if link.connected then sync.requestTerminalResync link.generation else sync
  else sync.deliverPending

def disconnect (sync : TerminalSync) : TerminalSync :=
  { sync with
    timer := none
    attempts := 0
    resyncing := sync.resyncing || !sync.listeners.isEmpty
    listened := false
    attached := false }

def connect (sync : TerminalSync) : TerminalSync :=
  let sync := if link.connected then sync
    else { sync with listened := !sync.listeners.isEmpty, attached := false }
  if sync.resyncing then sync.requestTerminalResync link.generation else sync

end TerminalSync

/-! ## All terminals -/

structure ClientSync where
  link : Link
  terminals : String → TerminalSync

inductive ResyncAction where
  | connected
  | disconnected
  | attachResolved (id : String) (result : Option TerminalAttachResult)
  | pageResolved (id : String) (page : Option ReplayPage)
  | rejected (id : String)
  | yielded (id : String)
  | settled (id : String)
  | timer (id : String)
  | data (id : String) (data : List UInt8) (sequence : Nat)
  | consumed (id : String) (sequence : Nat)
  | replayRequired (id : String) (acknowledgedSequence : Nat)
  | onData (id : String) (acknowledgement : Acknowledgement)

namespace ClientSync

def new : ClientSync := ⟨⟨false, 0⟩, fun _ => .new⟩

def set (world : ClientSync) (id : String) (sync : TerminalSync) : ClientSync :=
  { world with terminals := Function.update world.terminals id sync }

def resume (world : ClientSync) (id : String)
    (next : TerminalSync → ResyncRequest → Option TerminalSync) : Option ClientSync :=
  let sync := world.terminals id
  sync.request.bind fun request => (next sync request).map (world.set id)

def step (world : ClientSync) : ResyncAction → Option ClientSync
  | .connected => some
      { link := { world.link with connected := true }
        terminals := fun id => (world.terminals id).connect world.link }
  | .disconnected => some
      { link := ⟨false, world.link.generation + 1⟩
        terminals := fun id => (world.terminals id).disconnect }
  | .attachResolved id result => world.resume id fun sync request =>
    match request.stage with
    | .attaching => some (sync.resolveAttach world.link request result)
    | _ => none
  | .pageResolved id page => world.resume id fun sync request =>
    match request.stage with
    | .paging result cursor firstChunk =>
      some (sync.resolvePage request result cursor firstChunk page)
    | _ => none
  | .rejected id => world.resume id fun sync request =>
    match request.stage with
    | .attaching | .paging _ _ _ => some (sync.atStage request (.settled false))
    | _ => none
  | .yielded id => world.resume id fun sync request =>
    match request.stage with
    | .yielding result cursor complete =>
      some (sync.resolveYield world.link request result cursor complete)
    | _ => none
  | .settled id => world.resume id fun sync request =>
    match request.stage with
    | .settled succeeded => some (sync.settle world.link request succeeded)
    | _ => none
  | .timer id => (world.terminals id).timer.map fun generation =>
    world.set id ((world.terminals id).fireTimer world.link generation)
  | .data id data sequence => some (world.set id ((world.terminals id).receiveData data sequence))
  | .consumed id sequence =>
    let sync := world.terminals id
    if sequence ∈ sync.awaiting then
      some (world.set id ({ sync with
        awaiting := sync.awaiting.erase sequence }.acknowledgeConsumed sequence))
    else none
  | .replayRequired id acknowledgedSequence => some
      (world.set id ((world.terminals id).replayRequired world.link acknowledgedSequence))
  | .onData id acknowledgement => some
      (world.set id ((world.terminals id).onData world.link acknowledgement))

end ClientSync

def resyncSystem : System ClientSync ResyncAction where
  initial world := world = .new
  step := ClientSync.step

/-! ## What decides whether a terminal is looked after -/

def ResyncStage.reading : ResyncStage → Bool
  | .paging _ _ _ | .yielding _ _ _ => true
  | .attaching | .settled _ => false

structure Course where
  heard : Bool
  resyncing : Bool
  again : Bool
  timer : Option Nat
  request : Option ResyncRequest
  listened : Bool
  attached : Bool

def Course.unblocked (course : Course) (link : Link) : Bool :=
  course.request.all fun request => request.generation = link.generation

/-- Timers and requests know when they were started. -/
structure Dated (link : Link) (course : Course) : Prop where
  timed : ∀ generation, course.timer = some generation →
    generation = link.generation ∧ link.connected = true
  bounded : ∀ request, course.request = some request → request.generation ≤ link.generation
  reading : ∀ request, course.request = some request → request.generation = link.generation →
    request.stage.reading = true → link.connected = true

/-- Something is to come that takes the terminal out of its resync, and that
attaches it if it had listeners. -/
structure Attended (link : Link) (course : Course) : Prop extends Dated link course where
  marked : link.connected = false → course.heard = true → course.resyncing = true
  cared : link.connected = true → course.resyncing = true → course.timer.isSome = true ∨
    ∃ request, course.request = some request ∧ request.generation = link.generation ∧
      (request.stage = .settled true → course.again = true)
  served : link.connected = true → course.listened = true → course.attached = true ∨
    course.again = true ∧ ∃ request, course.request = some request ∧
      request.generation = link.generation

namespace TerminalSync

def course (sync : TerminalSync) : Course where
  heard := !sync.listeners.isEmpty
  resyncing := sync.resyncing
  again := sync.again
  timer := sync.timer
  request := sync.request
  listened := sync.listened
  attached := sync.attached

variable {link : Link} {sync : TerminalSync}

@[simp] theorem bufferTerminalData_course (chunk : BufferedTerminalData) :
    (sync.bufferTerminalData chunk).course = sync.course := rfl

@[simp] theorem acknowledgeConsumed_course (sequence : Nat) :
    (sync.acknowledgeConsumed sequence).course = sync.course := by
  unfold acknowledgeConsumed
  split <;> rfl

theorem deliverTerminalData_course {chunk : BufferedTerminalData} {sync' : TerminalSync}
    (h : sync.deliverTerminalData chunk = some sync') : sync'.course = sync.course := by
  simp only [deliverTerminalData] at h
  split at h
  · cases h
  split at h
  · cases h
    rfl
  split at h
  · cases h
    rfl
  · cases h
    exact acknowledgeConsumed_course chunk.sequence

theorem getD_course {chunk : BufferedTerminalData} {other : TerminalSync}
    (hother : other.course = sync.course) :
    ((sync.deliverTerminalData chunk).getD other).course = sync.course := by
  cases h : sync.deliverTerminalData chunk with
  | none => exact hother
  | some sync' => exact deliverTerminalData_course h

@[simp] theorem deliverOrBuffer_course (chunk : BufferedTerminalData) :
    (sync.deliverOrBuffer chunk).course = sync.course :=
  getD_course (bufferTerminalData_course chunk)

@[simp] theorem replayChunks_course (result : TerminalAttachResult) (first : Bool)
    (chunks : List (List UInt8)) :
    (sync.replayChunks result first chunks).course = sync.course := by
  induction chunks generalizing sync first with
  | nil => rfl
  | cons chunk rest ih =>
    unfold replayChunks
    split
    · exact ih first
    · rw [ih, deliverOrBuffer_course]

@[simp] theorem replayPending_course (replayedThrough : Nat) (chunks : List BufferedTerminalData) :
    (sync.replayPending replayedThrough chunks).course = sync.course := by
  induction chunks generalizing sync with
  | nil => rfl
  | cons chunk rest ih =>
    unfold replayPending
    split
    · rw [ih]
      split
      · exact acknowledgeConsumed_course chunk.sequence
      · rfl
    · rw [ih, deliverOrBuffer_course]

@[simp] theorem atStage_course (request : ResyncRequest) (stage : ResyncStage) :
    (sync.atStage request stage).course =
      { sync.course with request := some { request with stage := stage } } := rfl

@[simp] theorem deliverPending_course : sync.deliverPending.course = sync.course := by
  have h : ∀ (chunks : List BufferedTerminalData) (s : TerminalSync),
      (chunks.foldl (fun sync chunk =>
        (sync.deliverTerminalData chunk).getD sync) s).course = s.course := by
    intro chunks
    induction chunks with
    | nil => exact fun s => rfl
    | cons chunk rest ih =>
      intro s
      rw [foldl_cons, ih, getD_course rfl]
  exact h sync.buffer sync

theorem finishResync_course (request : ResyncRequest) (result : TerminalAttachResult)
    (complete : Bool) (lastSequence : Nat) :
    (sync.finishResync request result complete lastSequence).course =
      if sync.gap then
        { sync.course with
          again := true
          request := some { request with stage := .settled true } }
      else
        { sync.course with
          resyncing := false
          request := some { request with stage := .settled true } } := by
  simp only [finishResync]
  split
  · rfl
  rw [atStage_course, replayPending_course, replayChunks_course]
  split
  · split
    · rfl
    · rw [deliverOrBuffer_course]
      rfl
  · rfl

theorem requestTerminalResync_course (generation : Nat) :
    (sync.requestTerminalResync generation).course =
      if sync.request.isSome then { sync.course with resyncing := true, again := true }
      else
        { sync.course with
          resyncing := true
          request := some ⟨generation, sync.floor, .attaching⟩
          attached := true } := by
  simp only [requestTerminalResync]
  split <;> rfl

/-! ## Each event keeps a terminal looked after -/

theorem requestTerminalResync_attended (hdated : Dated link sync.course)
    (hunblocked : link.connected = true → sync.course.unblocked link = true) :
    Attended link (sync.requestTerminalResync link.generation).course := by
  rw [requestTerminalResync_course]
  cases hreq : sync.request with
  | none =>
    exact {
      timed := hdated.timed
      bounded := fun request h => by
        cases h
        exact le_rfl
      reading := fun request h _ hstage => by
        cases h
        exact nomatch hstage
      marked := fun _ _ => rfl
      cared := fun _ _ => .inr ⟨_, rfl, rfl, fun h => nomatch h⟩
      served := fun _ _ => .inl rfl }
  | some request =>
    have hcourse : sync.course.request = some request := hreq
    have hcur : link.connected = true → request.generation = link.generation := by
      intro hconn
      have h := hunblocked hconn
      rw [Course.unblocked, hcourse] at h
      exact of_decide_eq_true h
    exact {
      __ := hdated
      marked := fun _ _ => rfl
      cared := fun hconn _ =>
        .inr ⟨request, hcourse, hcur hconn, fun _ => rfl⟩
      served := fun hconn _ => .inr ⟨rfl, request, hcourse, hcur hconn⟩ }

section Requests

variable {request : ResyncRequest}

theorem request_eq (hreq : sync.request = some request) : sync.course.request = some request := hreq

section

variable (h : Attended link sync.course)
include h

theorem atStage_attended (hreq : sync.request = some request)
    {stage : ResyncStage} (hreading : stage.reading = true → link.connected = true)
    (hsettl : stage = .settled true → link.connected = true → sync.resyncing = true →
      request.generation = link.generation → sync.again = true) :
    Attended link (sync.atStage request stage).course where
  timed := h.timed
  bounded := fun moved hmoved => by
    cases hmoved
    exact h.bounded request hreq
  reading := fun moved hmoved _ hstage => by
    cases hmoved
    exact hreading hstage
  marked := h.marked
  cared := fun hconn hresyncing => by
    refine (h.cared hconn hresyncing).imp_right fun ⟨other, hother, hcur, _⟩ => ?_
    obtain rfl : request = other := Option.some.inj (hreq.symm.trans hother)
    exact ⟨_, rfl, hcur, fun hstage => hsettl hstage hconn hresyncing hcur⟩
  served := fun hconn hlistened => by
    refine (h.served hconn hlistened).imp_right fun ⟨hagain, other, hother, hcur⟩ => ?_
    obtain rfl : request = other := Option.some.inj (hreq.symm.trans hother)
    exact ⟨hagain, _, rfl, hcur⟩

theorem release_attended (hconn : link.connected = true) :
    Attended link { sync with resyncing := false }.course where
  __ := h
  marked := fun hdown => absurd hconn (by simp [hdown])
  cared := fun _ hresyncing => nomatch hresyncing

section

variable (hreq : sync.request = some request)
include hreq

theorem finishResync_attended (hcur : request.generation = link.generation)
    (hconn : link.connected = true) (result : TerminalAttachResult) (complete : Bool)
    (lastSequence : Nat) :
    Attended link (sync.finishResync request result complete lastSequence).course := by
  rw [finishResync_course]
  split
  · exact {
      timed := h.timed
      bounded := fun moved hmoved => by
        cases hmoved
        exact h.bounded request hreq
      reading := fun moved hmoved _ hstage => by
        cases hmoved
        exact nomatch hstage
      marked := h.marked
      cared := fun _ _ => .inr ⟨_, rfl, hcur, fun _ => rfl⟩
      served := fun _ _ => .inr ⟨rfl, _, rfl, hcur⟩ }
  · exact atStage_attended (release_attended h hconn) hreq
      (fun hstage => nomatch hstage) fun _ _ hresyncing => nomatch hresyncing

theorem resolveAttach_attended (result : Option TerminalAttachResult) :
    Attended link (sync.resolveAttach link request result).course := by
  unfold resolveAttach
  split
  case isTrue hstale =>
    refine atStage_attended h hreq (fun hstage => nomatch hstage) ?_
    intro _ hconn hresyncing hcur
    rcases hstale with hother | hdown | hquiet
    · exact absurd hcur hother
    · exact absurd hconn (by simp [hdown])
    · exact absurd hresyncing (by simp [hquiet])
  case isFalse hfresh =>
    obtain ⟨hcur, hup, _⟩ : request.generation = link.generation ∧
        ¬link.connected = false ∧ ¬sync.resyncing = false := by
      simpa only [not_or, ne_eq, not_not] using hfresh
    have hconn : link.connected = true := by simpa using hup
    cases result with
    | none =>
      exact atStage_attended (release_attended h hconn) hreq
        (fun hstage => nomatch hstage) fun _ _ hresyncing => nomatch hresyncing
    | some result =>
      dsimp only
      split
      · exact finishResync_attended h hreq hcur hconn result _ _
      · exact atStage_attended h hreq (fun _ => hconn) fun hstage => nomatch hstage

theorem resolvePage_attended (hcur : request.generation = link.generation)
    (hreading : request.stage.reading = true) (result : TerminalAttachResult) (cursor : Nat)
    (firstChunk : Bool) (page : Option ReplayPage) :
    Attended link (sync.resolvePage request result cursor firstChunk page).course := by
  have hconn := h.reading request hreq hcur hreading
  cases page with
  | none => exact finishResync_attended h hreq hcur hconn result false cursor
  | some page =>
    simp only [resolvePage]
    split
    · exact finishResync_attended h hreq hcur hconn result false cursor
    have hdeliv (chunk : BufferedTerminalData) :
        { sync.deliverOrBuffer chunk with floor := page.nextSequence }.course =
          sync.course := deliverOrBuffer_course chunk
    refine atStage_attended (by rwa [hdeliv]) ?_ (fun _ => hconn)
      fun hstage => nomatch hstage
    have hkept := congrArg Course.request (hdeliv (replayed result page.chunks.flatten
      (firstChunk && (result.replayTruncated || decide (page.firstSequence > cursor + 1)))))
    exact hkept.trans hreq

theorem resolveYield_attended (hcur : request.generation = link.generation)
    (hreading : request.stage.reading = true) (result : TerminalAttachResult) (cursor : Nat)
    (complete : Bool) :
    Attended link (sync.resolveYield link request result cursor complete).course := by
  have hconn := h.reading request hreq hcur hreading
  unfold resolveYield
  split
  · exact atStage_attended h hreq (fun _ => hconn) fun hstage => nomatch hstage
  · exact finishResync_attended h hreq hcur hconn result complete cursor

theorem rejected_attended : Attended link (sync.atStage request (.settled false)).course :=
  atStage_attended h hreq (fun hstage => nomatch hstage) fun hstage => nomatch hstage

/-- At its end a request is made again if that was asked for, and tried again
later if it failed. -/
theorem settle_attended {succeeded : Bool} (hstage : request.stage = .settled succeeded) :
    Attended link (sync.settle link request succeeded).course := by
  have htimer : link.connected = true → sync.resyncing = true →
      ¬(sync.again = true ∧ request.generation = link.generation) →
      sync.timer.isSome = true ∨ succeeded = false ∧ request.generation = link.generation := by
    intro hconn hresyncing hrepeats
    refine (h.cared hconn hresyncing).imp_right fun ⟨other, hother, hcur, hagain⟩ => ?_
    obtain rfl : request = other := Option.some.inj (hreq.symm.trans hother)
    refine ⟨Bool.eq_false_iff.mpr fun hsucceeded => hrepeats ⟨?_, hcur⟩, hcur⟩
    exact hagain (hstage.trans (by rw [hsucceeded]))
  have hserved : link.connected = true → sync.listened = true →
      ¬(sync.again = true ∧ request.generation = link.generation) → sync.attached = true := by
    intro hconn hlistened hrepeats
    refine (h.served hconn hlistened).resolve_right fun ⟨hagain, other, hother, hcur⟩ => ?_
    obtain rfl : request = other := Option.some.inj (hreq.symm.trans hother)
    exact hrepeats ⟨hagain, hcur⟩
  unfold settle
  dsimp only
  split
  case isTrue hrepeats =>
    rw [hrepeats.2.1]
    refine requestTerminalResync_attended ?_ fun _ => rfl
    exact {
      timed := h.timed
      bounded := fun _ hnone => nomatch hnone
      reading := fun _ hnone => nomatch hnone }
  case isFalse hrests =>
    have hrepeats : link.connected = true →
        ¬(sync.again = true ∧ request.generation = link.generation) :=
      fun hconn hagain => hrests ⟨hagain.1, hagain.2, hconn⟩
    split
    case isTrue hretry =>
      exact {
        timed := fun generation hgen => by
          cases hgen
          exact hretry.2.1
        bounded := fun _ hnone => nomatch hnone
        reading := fun _ hnone => nomatch hnone
        marked := h.marked
        cared := fun _ _ => .inl rfl
        served := fun hconn hlistened =>
          .inl (hserved hconn hlistened (hrepeats hconn)) }
    case isFalse hnone =>
      exact {
        timed := h.timed
        bounded := fun _ hnone => nomatch hnone
        reading := fun _ hnone => nomatch hnone
        marked := h.marked
        cared := fun hconn hresyncing => .inl <| by
          refine (htimer hconn hresyncing (hrepeats hconn)).elim id ?_
          rintro ⟨hfailed, hcur⟩
          refine isSome_iff_ne_none.mpr fun htimer => ?_
          exact hnone ⟨hfailed, ⟨hcur, hconn⟩, htimer⟩
        served := fun hconn hlistened =>
          .inl (hserved hconn hlistened (hrepeats hconn)) }

end

end

end Requests

theorem fireTimer_attended (h : Attended link sync.course) {generation : Nat}
    (htimer : sync.timer = some generation)
    (hunblocked : sync.resyncing = true → sync.course.unblocked link = true) :
    Attended link (sync.fireTimer link generation).course := by
  obtain ⟨hcur, hconn⟩ := h.timed generation htimer
  have hdated : Dated link { sync with timer := none }.course := {
    timed := fun _ hnone => nomatch hnone
    bounded := h.bounded
    reading := h.reading }
  unfold fireTimer
  split
  case isTrue hguard =>
    rw [hcur]
    exact requestTerminalResync_attended hdated fun _ => hunblocked hguard.2.2
  case isFalse hguard =>
    exact {
      toDated := hdated
      marked := h.marked
      cared := fun _ hresyncing => absurd ⟨hcur, hconn, hresyncing⟩ hguard
      served := h.served }

@[simp] theorem receiveData_course (data : List UInt8) (sequence : Nat) :
    (sync.receiveData data sequence).course = sync.course := by
  simp only [receiveData]
  split
  · exact acknowledgeConsumed_course sequence
  split
  · rfl
  · exact getD_course (acknowledgeConsumed_course sequence)

section

variable (h : Attended link sync.course)
include h

theorem replayRequired_attended (acknowledgedSequence : Nat)
    (hunblocked : link.connected = true → sync.course.unblocked link = true) :
    Attended link (sync.replayRequired link acknowledgedSequence).course :=
  @requestTerminalResync_attended link { sync with
    floor := max sync.floor acknowledgedSequence } h.toDated hunblocked

theorem onData_attended (acknowledgement : Acknowledgement)
    (hunblocked : sync.gap = true → link.connected = true →
      sync.course.unblocked link = true) :
    Attended link (sync.onData link acknowledgement).course := by
  have hmarked : ∀ {resyncing : Bool}, link.connected = false →
      (resyncing || !link.connected) = true := by
    intro resyncing hdown
    rw [hdown]
    exact Bool.or_true resyncing
  unfold onData
  dsimp only
  split
  case isTrue hgap =>
    split
    case isTrue hconn =>
      exact @requestTerminalResync_attended link { sync with
        listeners := sync.listeners ++ [acknowledgement]
        gap := false
        buffer := []
        resyncing := true } ⟨h.timed, h.bounded, h.reading⟩ fun hup => hunblocked hgap hup
    case isFalse hdown =>
      exact {
        __ := h
        marked := fun _ _ => rfl
        cared := fun hup => absurd hup hdown
        served := fun hup => absurd hup hdown }
  case isFalse =>
    rw [deliverPending_course]
    exact {
      __ := h
      marked := fun hdown _ => hmarked hdown
      cared := fun hup hresyncing => by
        have hresyncing : (sync.resyncing || !link.connected) = true := hresyncing
        rw [hup] at hresyncing
        exact h.cared hup ((Bool.or_false sync.resyncing).symm.trans hresyncing)
      served := h.served }

theorem disconnect_attended : Attended ⟨false, link.generation + 1⟩ sync.disconnect.course where
  timed := fun _ hnone => nomatch hnone
  bounded := fun request hreq => (h.bounded request hreq).trans (Nat.le_succ _)
  reading := fun request hreq hcur => by
    have hbound := h.bounded request hreq
    have hcur : request.generation = link.generation + 1 := hcur
    omega
  marked := fun _ hheard => by
    have hheard : (!sync.listeners.isEmpty) = true := hheard
    exact (congrArg (sync.resyncing || ·) hheard).trans (Bool.or_true _)
  cared := fun hup => nomatch hup
  served := fun hup => nomatch hup

theorem connect_attended (hunblocked : sync.resyncing = true → sync.course.unblocked link = true) :
    Attended { link with connected := true } (sync.connect link).course := by
  have hdated : Dated { link with connected := true } sync.course := {
    timed := fun generation htimer => ⟨(h.timed generation htimer).1, rfl⟩
    bounded := h.bounded
    reading := fun _ _ _ _ => rfl }
  unfold connect
  dsimp only
  split
  case isTrue hup =>
    have hsame : ({ link with connected := true } : Link) = link := by rw [← hup]
    split
    case isTrue hresyncing =>
      exact requestTerminalResync_attended hdated fun _ => hunblocked hresyncing
    case isFalse => rwa [hsame]
  case isFalse hdown =>
    split
    case isTrue hresyncing =>
      exact @requestTerminalResync_attended { link with connected := true }
        { sync with listened := !sync.listeners.isEmpty, attached := false }
        ⟨hdated.timed, hdated.bounded, hdated.reading⟩ fun _ => hunblocked hresyncing
    case isFalse hquiet =>
      exact {
        __ := hdated
        marked := fun hfalse => nomatch hfalse
        cared := fun _ hresyncing => absurd hresyncing hquiet
        served := fun _ hlistened =>
          absurd (h.marked (Bool.eq_false_iff.mpr hdown) hlistened) hquiet }

end

end TerminalSync

/-! ## Every run -/

theorem new_attended : Attended ⟨false, 0⟩ TerminalSync.new.course where
  timed := fun _ hnone => nomatch hnone
  bounded := fun _ hnone => nomatch hnone
  reading := fun _ hnone => nomatch hnone
  marked := fun _ hheard => nomatch hheard
  cared := fun hup => nomatch hup
  served := fun hup => nomatch hup

namespace ClientSync

/-- No archive is read on for an earlier connection, and while there is a
connection no resync is asked for behind a request of an earlier one. -/
def Current (world : ClientSync) : ResyncAction → Prop
  | .connected => ∀ id, (world.terminals id).resyncing = true →
      (world.terminals id).course.unblocked world.link = true
  | .pageResolved id _ | .yielded id => (world.terminals id).course.unblocked world.link = true
  | .timer id => (world.terminals id).resyncing = true →
      (world.terminals id).course.unblocked world.link = true
  | .replayRequired id _ => world.link.connected = true →
      (world.terminals id).course.unblocked world.link = true
  | .onData id _ => (world.terminals id).gap = true → world.link.connected = true →
      (world.terminals id).course.unblocked world.link = true
  | _ => True

def Idle (world : ClientSync) : Prop :=
  ∀ id, (world.terminals id).request = none ∧ (world.terminals id).timer = none

/-- No terminal with a listener waits for output, and all that had one when the
connection began are attached. -/
def Settled (world : ClientSync) : Prop :=
  ∀ id, ((world.terminals id).listeners ≠ [] → (world.terminals id).resyncing = false) ∧
    ((world.terminals id).listened = true → (world.terminals id).attached = true)

def Tended (world : ClientSync) : Prop :=
  ∀ id, Attended world.link (world.terminals id).course

variable {world world' : ClientSync}

theorem Tended.set (h : world.Tended) {id : String} {sync : TerminalSync}
    (hsync : Attended world.link sync.course) : (world.set id sync).Tended := by
  intro other
  by_cases hother : other = id
  · subst hother
    exact (congrArg (fun sync => Attended world.link sync.course)
      (Function.update_self other sync world.terminals)).mpr hsync
  · exact (congrArg (fun sync => Attended world.link sync.course)
      (Function.update_of_ne hother sync world.terminals)).mpr (h other)

theorem Tended.resume (h : world.Tended) {id : String}
    {next : TerminalSync → ResyncRequest → Option TerminalSync}
    (hstep : world.resume id next = some world')
    (hnext : ∀ request sync', (world.terminals id).request = some request →
      next (world.terminals id) request = some sync' → Attended world.link sync'.course) :
    world'.Tended := by
  obtain ⟨request, hreq, hmap⟩ := bind_eq_some_iff.mp hstep
  obtain ⟨sync', hsync', rfl⟩ := map_eq_some_iff.mp hmap
  exact h.set (hnext request sync' hreq hsync')

theorem unblocked_current {sync : TerminalSync} {link : Link} {request : ResyncRequest}
    (h : sync.course.unblocked link = true) (hreq : sync.request = some request) :
    request.generation = link.generation := by
  unfold Course.unblocked at h
  rw [TerminalSync.request_eq hreq] at h
  exact of_decide_eq_true h

theorem Tended.step (h : world.Tended) {action : ResyncAction} (hcur : world.Current action)
    (hstep : world.step action = some world') : world'.Tended := by
  cases action with
  | connected =>
    cases hstep
    exact fun id => TerminalSync.connect_attended (h id) (hcur id)
  | disconnected =>
    cases hstep
    exact fun id => TerminalSync.disconnect_attended (h id)
  | attachResolved id result =>
    dsimp only [ClientSync.step] at hstep
    refine h.resume hstep fun request sync' hreq hnext => ?_
    split at hnext
    · cases hnext
      exact TerminalSync.resolveAttach_attended (h id) hreq result
    · cases hnext
  | pageResolved id page =>
    dsimp only [ClientSync.step] at hstep
    refine h.resume hstep fun request sync' hreq hnext => ?_
    split at hnext
    case h_1 result cursor firstChunk hstage =>
      cases hnext
      exact TerminalSync.resolvePage_attended (h id) hreq
        (unblocked_current hcur hreq) (by rw [hstage]; rfl) result cursor firstChunk page
    case h_2 => cases hnext
  | rejected id =>
    dsimp only [ClientSync.step] at hstep
    refine h.resume hstep fun request sync' hreq hnext => ?_
    split at hnext
    case h_3 => cases hnext
    all_goals
      cases hnext
      exact TerminalSync.rejected_attended (h id) hreq
  | yielded id =>
    dsimp only [ClientSync.step] at hstep
    refine h.resume hstep fun request sync' hreq hnext => ?_
    split at hnext
    case h_1 result cursor complete hstage =>
      cases hnext
      exact TerminalSync.resolveYield_attended (h id) hreq
        (unblocked_current hcur hreq) (by rw [hstage]; rfl) result cursor complete
    case h_2 => cases hnext
  | settled id =>
    dsimp only [ClientSync.step] at hstep
    refine h.resume hstep fun request sync' hreq hnext => ?_
    split at hnext
    case h_1 succeeded hstage =>
      cases hnext
      exact TerminalSync.settle_attended (h id) hreq hstage
    case h_2 => cases hnext
  | timer id =>
    obtain ⟨generation, htimer, rfl⟩ := map_eq_some_iff.mp hstep
    exact h.set (TerminalSync.fireTimer_attended (h id) htimer hcur)
  | data id data sequence =>
    cases hstep
    exact h.set (by rw [TerminalSync.receiveData_course]; exact h id)
  | consumed id sequence =>
    simp only [ClientSync.step] at hstep
    split at hstep
    · cases hstep
      exact h.set (by rw [TerminalSync.acknowledgeConsumed_course]; exact h id)
    · cases hstep
  | replayRequired id acknowledgedSequence =>
    cases hstep
    exact h.set (TerminalSync.replayRequired_attended (h id) acknowledgedSequence hcur)
  | onData id acknowledgement =>
    cases hstep
    exact h.set (TerminalSync.onData_attended (h id) acknowledgement hcur)

end ClientSync

theorem run_tended {world : ClientSync} (hrun : resyncSystem.Run ClientSync.Current world) :
    world.Tended := by
  refine hrun.invariant (fun start hstart => ?_) fun _ _ _ h => h.step
  cases hstart
  exact fun _ => new_attended

/-- When all is quiet no listener waits for a resync, unless one was asked for
behind a request of an earlier connection or such a request read on. -/
theorem resync_settles {world : ClientSync} (hrun : resyncSystem.Run ClientSync.Current world)
    (hconn : world.link.connected = true) (hidle : world.Idle) : world.Settled := by
  intro id
  have htended := run_tended hrun id
  obtain ⟨hreq, htimer⟩ := hidle id
  constructor
  · intro _
    refine Bool.eq_false_iff.mpr fun hresyncing => ?_
    rcases htended.cared hconn hresyncing with hsome | ⟨request, hsome, _⟩
    · have hsome : (world.terminals id).timer.isSome = true := hsome
      rw [htimer] at hsome
      cases hsome
    · cases hreq.symm.trans hsome
  · intro hlistened
    refine (htended.served hconn hlistened).resolve_right ?_
    rintro ⟨_, request, hsome, _⟩
    cases hreq.symm.trans hsome

/-! ## A sample -/

section Sample

def ResyncAction.terminal : ResyncAction → Option String
  | .connected | .disconnected => none
  | .attachResolved id _ | .pageResolved id _ | .rejected id | .yielded id | .settled id
  | .timer id | .data id _ _ | .consumed id _ | .replayRequired id _ | .onData id _ => some id

variable {world world' : ClientSync}

variable {id other : String}

theorem set_untouched {sync : TerminalSync} (hother : other ≠ id) :
    (world.set id sync).terminals other = world.terminals other := by
  exact Function.update_of_ne hother sync world.terminals

theorem resume_untouched {next : TerminalSync → ResyncRequest → Option TerminalSync}
    (hstep : world.resume id next = some world') (hother : other ≠ id) :
    world'.terminals other = world.terminals other := by
  obtain ⟨request, _, hmap⟩ := bind_eq_some_iff.mp hstep
  obtain ⟨sync', _, rfl⟩ := map_eq_some_iff.mp hmap
  exact set_untouched hother

theorem step_untouched {action : ResyncAction}
    (hother : ∀ id, action.terminal = some id → other ≠ id)
    (hstep : world.step action = some world') (hnew : world.terminals other = .new) :
    world'.terminals other = .new := by
  cases action with
  | connected =>
    cases hstep
    dsimp only
    rw [hnew]
    cases hlink : world.link with
    | mk connected generation => cases connected <;> rfl
  | disconnected =>
    cases hstep
    dsimp only
    rw [hnew]
    rfl
  | attachResolved id | pageResolved id | rejected id | yielded id | settled id =>
    dsimp only [ClientSync.step] at hstep
    exact (resume_untouched hstep (hother id rfl)).trans hnew
  | timer id =>
    obtain ⟨generation, _, rfl⟩ := map_eq_some_iff.mp hstep
    exact (set_untouched (hother id rfl)).trans hnew
  | consumed id =>
    simp only [ClientSync.step] at hstep
    split at hstep
    · cases hstep
      exact (set_untouched (hother id rfl)).trans hnew
    · cases hstep
  | data id | replayRequired id | onData id =>
    cases hstep
    exact (set_untouched (hother id rfl)).trans hnew

def archivedResult : TerminalAttachResult := ⟨5, [], [], none, true, false, false⟩

def archiveRead : List ResyncAction :=
  [.attachResolved "a" (some archivedResult), .pageResolved "a" (some ⟨[[1], [2]], 1, 5, true⟩),
    .yielded "a", .settled "a"]

def staleFailure : List ResyncAction :=
  [.onData "a" .delivery, .connected, .attachResolved "a" (some archivedResult), .disconnected,
    .connected, .rejected "a", .settled "a"]

def restsAt (id : String) (world : ClientSync) : Bool :=
  world.link.connected && (world.terminals id).request == none &&
    (world.terminals id).timer == none

theorem idle_of_rests {actions : List ResyncAction} {check : ClientSync → ResyncAction → Bool}
    (hactions : ∀ action ∈ actions, ∀ id, action.terminal = some id → id = "a")
    (hrpl : resyncSystem.replay check world actions = some world')
    (hnew : ∀ id, id ≠ "a" → world.terminals id = .new) (hrests : restsAt "a" world' = true) :
    world'.link.connected = true ∧ world'.Idle := by
  obtain ⟨hfirst, htimer⟩ := Bool.and_eq_true_iff.mp hrests
  obtain ⟨hconn, hreq⟩ := Bool.and_eq_true_iff.mp hfirst
  have hpath : System.Path resyncSystem (fun _ action =>
      ∀ id, action.terminal = some id → id = "a") world world' :=
    System.replay_path (fun _ action hmem _ => hactions action hmem) hrpl
  refine ⟨hconn, fun id => ?_⟩
  by_cases hid : id = "a"
  · subst hid
    exact ⟨beq_iff_eq.mp hreq, beq_iff_eq.mp htimer⟩
  have huntouched := hpath.invariant (P := fun world => world.terminals id = .new) (hnew id hid)
    fun _ action _ hbef haction hstep => step_untouched
      (fun other hother hsame => hid (hsame.trans (haction other hother))) hstep hbef
  rw [huntouched]
  exact ⟨rfl, rfl⟩

def listening : ClientSync where
  link := ⟨true, 0⟩
  terminals := fun id =>
    ((ClientSync.new.set "a" (TerminalSync.new.onData ⟨false, 0⟩ .delivery)).terminals id).connect
      ⟨false, 0⟩

theorem listening_untouched (hid : id ≠ "a") : listening.terminals id = .new := by
  have huntouched := @set_untouched .new "a" id (TerminalSync.new.onData ⟨false, 0⟩ .delivery) hid
  exact congrArg (TerminalSync.connect ⟨false, 0⟩) huntouched

theorem listening_run : resyncSystem.Run ClientSync.Current listening := by
  have hheard : resyncSystem.Run ClientSync.Current
      (ClientSync.new.set "a" (TerminalSync.new.onData ⟨false, 0⟩ .delivery)) :=
    (System.Run.start rfl).next (a := .onData "a" .delivery) (fun hgap => nomatch hgap) rfl
  refine hheard.next (a := .connected) (fun id hresyncing => ?_) rfl
  by_cases hid : id = "a"
  · subst hid
    rfl
  have huntouched := @set_untouched .new "a" id (TerminalSync.new.onData ⟨false, 0⟩ .delivery) hid
  rw [huntouched] at hresyncing
  cases hresyncing

theorem resync_settles_sample : ∃ world, resyncSystem.Run ClientSync.Current world ∧
    (world.terminals "a").listened = true ∧ (world.terminals "a").received ≠ [] ∧
      world.Settled := by
  let check (world : ClientSync) (_ : ResyncAction) : Bool :=
    (world.terminals "a").course.unblocked world.link
  have hany : (resyncSystem.replay check listening archiveRead).any (fun world =>
      restsAt "a" world && ((world.terminals "a").listened &&
        !(world.terminals "a").received.isEmpty)) = true := by decide
  obtain ⟨world, hworld, hchecks⟩ := (any_eq_true _ _).mp hany
  obtain ⟨hrests, hheard⟩ := Bool.and_eq_true_iff.mp hchecks
  obtain ⟨hlistened, hreceived⟩ := Bool.and_eq_true_iff.mp hheard
  have hrun := System.replay_run listening_run (fun world action hmem hcheck => by
    simp only [archiveRead, mem_cons, not_mem_nil, or_false] at hmem
    rcases hmem with rfl | rfl | rfl | rfl
    · trivial
    · exact hcheck
    · exact hcheck
    · trivial) hworld
  obtain ⟨hconn, hidle⟩ := idle_of_rests (by decide) hworld
    (fun id => listening_untouched) hrests
  refine ⟨world, hrun, hlistened, fun hnone => ?_, resync_settles hrun hconn hidle⟩
  rw [hnone] at hreceived
  cases hreceived

/-- The terminal waits on, though there is a connection and nothing is to come. -/
theorem resync_strands : ¬ ∀ world, resyncSystem.Reachable world →
    world.link.connected = true → world.Idle → world.Settled := by
  intro hall
  have hany : (resyncSystem.replay (fun _ _ => true) .new staleFailure).any (fun world =>
      restsAt "a" world && ((world.terminals "a").resyncing &&
        !(world.terminals "a").listeners.isEmpty)) = true := by decide
  obtain ⟨world, hworld, hchecks⟩ := (any_eq_true _ _).mp hany
  obtain ⟨hrests, hstuck⟩ := Bool.and_eq_true_iff.mp hchecks
  obtain ⟨hresyncing, hheard⟩ := Bool.and_eq_true_iff.mp hstuck
  have hreached : resyncSystem.Reachable world :=
    System.replay_run (System.Run.start rfl) (fun _ _ _ _ => trivial) hworld
  obtain ⟨hconn, hidle⟩ := idle_of_rests (by decide) hworld (fun _ _ => rfl) hrests
  have hsettl := (hall world hreached hconn hidle "a").1 fun hnone => by
    rw [hnone] at hheard
    cases hheard
  rw [hsettl] at hresyncing
  cases hresyncing

end Sample

end Yaade.HostClient

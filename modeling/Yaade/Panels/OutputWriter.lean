import Yaade.Library.Transition

/-!
The writer of a panel's output.
-/

namespace Yaade.Panels.OutputWriter

open Yaade.Library

abbrev Bytes := List UInt8

/-- What the writer is made with. No limit of a flush is none at all. -/
structure Options where
  writeReplay : Bool
  refreshAfterPaint : Bool
  maxPending : Nat
  maxPerFlush : Option Nat
  interactiveMax : Nat
  maxPerFlush_ne_zero : maxPerFlush ≠ some 0

def cursorHide : Bytes := [0x1b, 0x5b, 0x3f, 0x32, 0x35, 0x6c]
def cursorShow : Bytes := [0x1b, 0x5b, 0x3f, 0x32, 0x35, 0x68]

def containsSequence (data needle : Bytes) : Bool := data.tails.any needle.isPrefixOf

/-- A part has the number of its call among those of its kind. -/
structure PendingPart where
  data : Bytes
  offset : Nat
  onConsumed : Bool
  number : Nat
  deriving DecidableEq

def PendingPart.remaining (part : PendingPart) : Bytes := part.data.drop part.offset
def PendingPart.available (part : PendingPart) : Nat := part.data.length - part.offset

/-- What became of a live byte that left the queue. It may be in a write. -/
inductive Fate where
  | written (write : Nat)
  | shed
  | discarded
  deriving DecidableEq

/-- The live bytes that wait. `enqueued` are all there were, `passed` those that
left the queue, and of each call of `enqueue` it is known where the bytes since
the last discarding began and where its own ended. -/
structure Queue where
  pendingParts : List PendingPart
  pendingBytes : Nat
  gapDetected : Bool
  enqueued : Bytes
  passed : List (UInt8 × Fate)
  base : Nat
  calls : List (Nat × Nat)
  deriving DecidableEq

/-- The replayed parts that wait, and how many live bytes there were before each. -/
structure Replays where
  replayParts : List PendingPart
  replayBytes : Nat
  calls : List Nat
  deriving DecidableEq

/-- The scheduled callbacks. A cancelled one may still fire. -/
structure Clock where
  raf : Nat
  frameFallback : Nat
  microScheduled : Bool
  floodMode : Bool
  frames : List Nat
  lateFrames : Nat
  fallbacks : List Nat
  lateFallbacks : Nat
  microtasks : Nat
  deriving DecidableEq

/-- A call of `write` or `writeReplay`, with the replayed parts in it and the
parts to acknowledge when it is parsed. -/
structure Write where
  live : Bool
  data : Bytes
  replayed : List Nat
  consumed : List Nat
  consumedReplay : List Nat
  deriving DecidableEq

structure World where
  queue : Queue
  replays : Replays
  clock : Clock
  needsRefresh : Bool
  disposed : Bool
  log : List Write
  parsed : Nat
  acknowledged : List Nat
  acknowledgedReplay : List Nat
  deriving DecidableEq

/-- Whether frames are drawn, and the numbers of what is scheduled. -/
structure Answers where
  active : Bool
  frame : Nat
  fallback : Nat
  deriving DecidableEq

inductive Action where
  | enqueue (data : Bytes) (onConsumed : Bool) (answers : Answers)
  | enqueueReplay (data : Bytes) (onConsumed : Bool)
  | discardPending
  | flush (answers : Answers)
  | dispose
  | frame (id : Nat) (answers : Answers)
  | lateFrame (answers : Answers)
  | fallback (id : Nat) (answers : Answers)
  | lateFallback (answers : Answers)
  | microtask (answers : Answers)
  | parsed
  deriving DecidableEq

def remainingBytes (parts : List PendingPart) : Bytes := parts.flatMap PendingPart.remaining

/-! ## The queue -/

def dropOldest (maxPending : Nat) : List PendingPart → Nat → List PendingPart × Nat
  | first :: second :: rest, bytes =>
    if maxPending < bytes then dropOldest maxPending (second :: rest) (bytes - first.available)
    else (first :: second :: rest, bytes)
  | parts, bytes => (parts, bytes)

def trimOldest (maxPending : Nat) : List PendingPart → Nat → List PendingPart × Nat
  | [only], bytes =>
    if maxPending < bytes then
      ([{ only with
        offset := only.offset + (only.available - maxPending)
        onConsumed := false }], maxPending)
    else ([only], bytes)
  | parts, bytes => (parts, bytes)

structure Taken where
  data : Bytes
  completed : List PendingPart
  left : List PendingPart

/-- The bytes of the parts up to a limit, the parts that end in them and those left. -/
def takeParts : List PendingPart → Option Nat → Taken
  | [], _ => ⟨[], [], []⟩
  | head :: rest, limit =>
    if limit = some 0 then ⟨[], [], head :: rest⟩
    else
      let count := min head.available (limit.getD head.available)
      let view := head.remaining.take count
      if count = head.available then
        let taken := takeParts rest (limit.map (· - count))
        ⟨view ++ taken.data, head :: taken.completed, taken.left⟩
      else ⟨view, [], { head with offset := head.offset + count } :: rest⟩

namespace Queue

def empty : Queue where
  pendingParts := []
  pendingBytes := 0
  gapDetected := false
  enqueued := []
  passed := []
  base := 0
  calls := []

/-- There is a gap if there is too much, as there is a part to shed from then. -/
def shedOldest (queue : Queue) (maxPending : Nat) : Queue :=
  let whole := dropOldest maxPending queue.pendingParts queue.pendingBytes
  let (parts, bytes) := trimOldest maxPending whole.1 whole.2
  { queue with
    pendingParts := parts
    pendingBytes := bytes
    gapDetected := queue.gapDetected || maxPending < queue.pendingBytes
    passed := queue.passed ++
      ((remainingBytes queue.pendingParts).take (queue.pendingBytes - bytes)).map (·, .shed) }

def push (queue : Queue) (data : Bytes) (onConsumed : Bool) : Queue :=
  { queue with
    pendingParts := queue.pendingParts ++ [⟨data, 0, onConsumed, queue.calls.length⟩]
    pendingBytes := queue.pendingBytes + data.length
    enqueued := queue.enqueued ++ data
    calls := queue.calls ++ [(queue.base, queue.enqueued.length + data.length)] }

def consumed (queue : Queue) (limit : Option Nat) : List Nat :=
  if queue.gapDetected then []
  else ((takeParts queue.pendingParts limit).completed.filter PendingPart.onConsumed).map
    PendingPart.number

def takePending (queue : Queue) (limit : Option Nat) (write : Nat) : Queue :=
  let taken := takeParts queue.pendingParts limit
  { queue with
    pendingParts := taken.left
    pendingBytes := queue.pendingBytes - taken.data.length
    passed := queue.passed ++ taken.data.map (·, .written write) }

def drop (queue : Queue) : Queue :=
  { queue with
    pendingParts := []
    pendingBytes := 0
    passed := queue.passed ++ (remainingBytes queue.pendingParts).map (·, .discarded) }

def discard (queue : Queue) : Queue :=
  { queue.drop with gapDetected := false, base := queue.enqueued.length }

end Queue

/-! ## The clock -/

namespace Clock

def empty : Clock where
  raf := 0
  frameFallback := 0
  microScheduled := false
  floodMode := false
  frames := []
  lateFrames := 0
  fallbacks := []
  lateFallbacks := 0
  microtasks := 0

def cancelFrame (clock : Clock) : Clock :=
  if clock.raf = 0 then clock
  else { clock with
    raf := 0
    frames := clock.frames.erase clock.raf
    lateFrames := clock.lateFrames + 1 }

def cancelFallback (clock : Clock) : Clock :=
  if clock.frameFallback = 0 then clock
  else { clock with
    frameFallback := 0
    fallbacks := clock.fallbacks.erase clock.frameFallback
    lateFallbacks := clock.lateFallbacks + 1 }

def clear (clock : Clock) : Clock :=
  { clock.cancelFrame.cancelFallback with microScheduled := false }

def scheduleRaf (clock : Clock) (disposed : Bool) (answers : Answers) : Clock :=
  if disposed || clock.raf ≠ 0 then clock
  else { clock with
    microScheduled := false
    raf := answers.frame
    frames := clock.frames ++ [answers.frame]
    frameFallback := answers.fallback
    fallbacks := clock.fallbacks ++ [answers.fallback] }

def scheduleMicro (clock : Clock) (disposed : Bool) : Clock :=
  if disposed || clock.raf ≠ 0 || clock.microScheduled then clock
  else { clock with microScheduled := true, microtasks := clock.microtasks + 1 }

end Clock

/-! ## The writer -/

namespace World

def create : World where
  queue := .empty
  replays := ⟨[], 0, []⟩
  clock := .empty
  needsRefresh := false
  disposed := false
  log := []
  parsed := 0
  acknowledged := []
  acknowledgedReplay := []

section Methods

variable (options : Options) (answers : Answers) (world : World)

def markRefresh (data : Bytes) : World :=
  { world with needsRefresh := world.needsRefresh || (options.refreshAfterPaint &&
      (containsSequence data cursorHide || containsSequence data cursorShow)) }

def scheduleNext : World :=
  if !answers.active then
    { world with clock := world.clock.cancelFrame.cancelFallback.scheduleMicro world.disposed }
  else if world.clock.floodMode || options.interactiveMax < world.queue.pendingBytes then
    { world with clock :=
      { world.clock with floodMode := true }.scheduleRaf world.disposed answers }
  else { world with clock := world.clock.scheduleMicro world.disposed }

/-- Without `writeReplay` each part is a write, and nothing waits for the parser. -/
def flushReplayNow : World :=
  let parts := world.replays.replayParts
  if world.disposed || parts.isEmpty then world
  else
    let numbers := parts.map PendingPart.number
    let consumed := (parts.filter PendingPart.onConsumed).map PendingPart.number
    let flushed := { world with
      replays := { world.replays with replayParts := [], replayBytes := 0 }
      needsRefresh := world.needsRefresh && world.queue.pendingBytes ≠ 0 }
    if options.writeReplay then
      { flushed with
        log := world.log ++ [Write.mk false (parts.flatMap PendingPart.remaining) numbers [] consumed] }
    else
      { flushed with
        log := world.log ++ parts.map fun part => Write.mk false part.remaining [part.number] [] []
        acknowledgedReplay := world.acknowledgedReplay ++ consumed }

def calm : World :=
  { world with
    clock := { world.clock with
      floodMode := world.clock.floodMode && world.queue.pendingBytes ≠ 0 } }

def flushLimit (unlimited : Bool) : Option Nat :=
  if unlimited then none else options.maxPerFlush

def flushLive (unlimited : Bool) : World :=
  let world := { world with clock := { world.clock with raf := 0, microScheduled := false } }
  if world.disposed || (world.queue.pendingBytes = 0 && !world.needsRefresh) then world.calm
  else
    let limit := flushLimit options unlimited
    let data := (takeParts world.queue.pendingParts limit).data
    let consumed := world.queue.consumed limit
    let queue := world.queue.takePending limit world.log.length
    let world := { world with
      queue := queue
      needsRefresh := world.needsRefresh && queue.pendingBytes ≠ 0 }
    if data.isEmpty then world.calm
    else
      let world := { world with log := world.log ++ [Write.mk true data [] consumed []] }
      if 0 < world.queue.pendingBytes || world.needsRefresh then
        world.scheduleNext options answers
      else world.calm

def flushNow (unlimited : Bool) : World :=
  let world := if 0 < world.replays.replayBytes then world.flushReplayNow options else world
  if 0 < world.replays.replayBytes then world else world.flushLive options answers unlimited

def flushLoop : Nat → World → Option World
  | 0, _ => none
  | fuel + 1, world =>
    if 0 < world.queue.pendingBytes || world.needsRefresh then
      flushLoop fuel (world.flushNow options answers true)
    else some world

def flush (fuel : Nat) : Option World :=
  flushLoop options answers fuel
    ({ world with clock := world.clock.clear }.flushReplayNow options)

def enqueue (data : Bytes) (onConsumed : Bool) : World :=
  if world.disposed || data.isEmpty then world
  else
    let queue := (world.queue.push data onConsumed).shedOldest options.maxPending
    ({ world with queue := queue }.markRefresh options data).scheduleNext options answers

def enqueueReplay (data : Bytes) (onConsumed : Bool) : World :=
  if world.disposed || data.isEmpty then world
  else
    let replays : Replays :=
      { replayParts := world.replays.replayParts ++
          [⟨data, 0, onConsumed, world.replays.calls.length⟩]
        replayBytes := world.replays.replayBytes + data.length
        calls := world.replays.calls ++ [world.queue.enqueued.length] }
    { world with replays := replays }.markRefresh options data

def discardPending : World :=
  { world with
    queue := world.queue.discard
    clock := { world.clock.clear with floodMode := false }
    needsRefresh := false }

def dispose : World :=
  { world with
    queue := world.queue.drop
    replays := { world.replays with replayParts := [], replayBytes := 0 }
    clock := { world.clock.clear with floodMode := false }
    needsRefresh := false
    disposed := true }

def frameFired : World :=
  if world.clock.raf = 0 then world
  else
    { world with clock := { world.clock with raf := 0 }.cancelFallback }.flushNow
      options answers false

def fallbackFired : World :=
  let world := { world with clock := { world.clock with frameFallback := 0 } }
  if world.clock.raf = 0 then world
  else { world with clock := world.clock.cancelFrame }.flushNow options answers false

def microtaskRun : World :=
  if !world.clock.microScheduled || world.disposed then world
  else
    let world := { world with clock := { world.clock with microScheduled := false } }
    if world.clock.raf ≠ 0 then world else world.flushNow options answers false

def parse : Option World :=
  world.log[world.parsed]?.map fun write =>
    if world.disposed then { world with parsed := world.parsed + 1 }
    else { world with
      parsed := world.parsed + 1
      acknowledged := world.acknowledged ++ write.consumed
      acknowledgedReplay := world.acknowledgedReplay ++ write.consumedReplay }

end Methods

def step (options : Options) (world : World) : Action → Option World
  | .enqueue data onConsumed answers => some (world.enqueue options answers data onConsumed)
  | .enqueueReplay data onConsumed => some (world.enqueueReplay options data onConsumed)
  | .discardPending => some world.discardPending
  | .flush answers => world.flush options answers (world.queue.pendingBytes + 2)
  | .dispose => some world.dispose
  | .frame id answers =>
    if id ∈ world.clock.frames then
      some ({ world with clock := { world.clock with
        frames := world.clock.frames.erase id } }.frameFired options answers)
    else none
  | .lateFrame answers =>
    if world.clock.lateFrames = 0 then none
    else some ({ world with clock := { world.clock with
      lateFrames := world.clock.lateFrames - 1 } }.frameFired options answers)
  | .fallback id answers =>
    if id ∈ world.clock.fallbacks then
      some ({ world with clock := { world.clock with
        fallbacks := world.clock.fallbacks.erase id } }.fallbackFired options answers)
    else none
  | .lateFallback answers =>
    if world.clock.lateFallbacks = 0 then none
    else some ({ world with clock := { world.clock with
      lateFallbacks := world.clock.lateFallbacks - 1 } }.fallbackFired options answers)
  | .microtask answers =>
    if world.clock.microtasks = 0 then none
    else some ({ world with clock := { world.clock with
      microtasks := world.clock.microtasks - 1 } }.microtaskRun options answers)
  | .parsed => world.parse

end World

def outputSystem (options : Options) : System World Action where
  initial world := world = .create
  step := World.step options

/-! ## What is promised -/

def writtenBytes (passed : List (UInt8 × Fate)) : Bytes :=
  passed.filterMap fun
    | (byte, .written _) => some byte
    | _ => none

def writeOf? (passed : List (UInt8 × Fate)) (position : Nat) : Option Nat :=
  passed[position]?.bind fun entry =>
    match entry.2 with
    | .written write => some write
    | _ => none

def liveBytes (log : List Write) : Bytes := (log.filter Write.live).flatMap Write.data

def Clock.Armed (clock : Clock) : Prop :=
  (clock.raf ≠ 0 ∧ clock.raf ∈ clock.frames) ∨ (clock.microScheduled ∧ 0 < clock.microtasks)

/-- Live bytes are written in order and once, but for those shed or discarded; a
part is acknowledged once, in order and when all live bytes since the last
discarding up to its end are parsed; replayed parts are written before later
live bytes; what is pending is scheduled, and a flush leaves nothing. -/
structure World.Exact (options : Options) (world : World) : Prop where
  live : world.queue.enqueued =
    world.queue.passed.map Prod.fst ++ remainingBytes world.queue.pendingParts
  written : liveBytes world.log = writtenBytes world.queue.passed
  once : world.acknowledged.Pairwise (· < ·) ∧ world.acknowledgedReplay.Pairwise (· < ·)
  safe : ∀ number ∈ world.acknowledged, ∃ call, world.queue.calls[number]? = some call ∧
    ∀ position, call.1 ≤ position → position < call.2 →
      ∃ write, writeOf? world.queue.passed position = some write ∧ write < world.parsed
  replaySafe : ∀ number ∈ world.acknowledgedReplay, ∃ index write,
    world.log[index]? = some write ∧ number ∈ write.replayed ∧
      (options.writeReplay = true → index < world.parsed)
  replayFirst : ∀ number before, world.replays.calls[number]? = some before →
    ∀ position write, before ≤ position → writeOf? world.queue.passed position = some write →
      ∃ index earlier, index < write ∧ world.log[index]? = some earlier ∧
        number ∈ earlier.replayed
  scheduled : world.disposed = false → 0 < world.queue.pendingBytes → world.clock.Armed
  flushes : ∀ answers, ∃ world', (∀ fuel, 1 < fuel → world.flush options answers fuel = some world') ∧
    world'.queue.pendingBytes = 0 ∧ world'.replays.replayParts = [] ∧ world'.needsRefresh = false

end Yaade.Panels.OutputWriter

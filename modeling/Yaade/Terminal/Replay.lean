import Yaade.Terminal.Owner
import Yaade.Library.Transition

/-!
The output a terminal keeps for clients that attach: a ring of numbered
chunks, cut to one budget while the process runs and to a smaller one when it
exits, and a checkpoint of the screen.
-/

namespace Yaade.Terminal

open Yaade.Library List Option

/-! ## The ring -/

/-- The ring, its number of bytes, and whether it lost a chunk. -/
structure Ring where
  chunks : List ReplayChunk
  bytes : Nat
  truncated : Bool

/-- The oldest chunks go while the ring is over its limit, but never the last. -/
def trim (limit : Nat) : List ReplayChunk → Nat → Bool → Ring
  | dropped :: next :: rest, bytes, truncated =>
    if bytes > limit then trim limit (next :: rest) (bytes - dropped.data.length) true
    else ⟨dropped :: next :: rest, bytes, truncated⟩
  | chunks, bytes, truncated => ⟨chunks, bytes, truncated⟩

def totalBytes (chunks : List ReplayChunk) : Nat :=
  (chunks.map fun chunk => chunk.data.length).sum

def tailBytes (count : Nat) (chunks : List ReplayChunk) : Nat :=
  totalBytes (chunks.drop (chunks.length - count))

def EndsAt (last : Nat) : List ReplayChunk → Prop
  | [] => True
  | chunk :: rest => chunk.sequence + rest.length = last ∧ EndsAt last rest

section Ring

variable {last limit : Nat} {chunks run : List ReplayChunk}

section

variable (h : EndsAt last chunks)
include h

theorem EndsAt.suffix (hrun : run <:+ chunks) : EndsAt last run := by
  obtain ⟨before, rfl⟩ := hrun
  induction before with
  | nil => exact h
  | cons chunk rest ih => exact ih h.2

theorem EndsAt.push (data : List UInt8) : EndsAt (last + 1) (chunks ++ [⟨last + 1, data⟩]) := by
  induction chunks with
  | nil => exact ⟨rfl, trivial⟩
  | cons chunk rest ih =>
    constructor
    · have hchunk := h.1
      have hlength : (rest ++ [ReplayChunk.mk (last + 1) data]).length = rest.length + 1 :=
        length_append
      show chunk.sequence + (rest ++ [ReplayChunk.mk (last + 1) data]).length = last + 1
      omega
    · exact ih h.2

theorem EndsAt.mem {sequence : Nat}
    (hfirst : last < sequence + chunks.length) (hlast : sequence ≤ last) :
    ∃ chunk ∈ chunks, chunk.sequence = sequence := by
  induction chunks with
  | nil =>
    rw [length_nil] at hfirst
    omega
  | cons chunk rest ih =>
    have hchunk := h.1
    rw [length_cons] at hfirst
    by_cases hsame : chunk.sequence = sequence
    · exact ⟨chunk, mem_cons_self, hsame⟩
    · obtain ⟨found, hmem, hfound⟩ := ih h.2 (by omega)
      exact ⟨found, mem_cons_of_mem chunk hmem, hfound⟩

theorem EndsAt.bounds {chunk : ReplayChunk} (hmem : chunk ∈ chunks) :
    last < chunk.sequence + chunks.length ∧ chunk.sequence ≤ last := by
  induction chunks with
  | nil => cases hmem
  | cons first rest ih =>
    have hfirst := h.1
    rw [length_cons]
    rcases mem_cons.mp hmem with rfl | hrest
    · omega
    · have hbounds := ih h.2 hrest
      omega

theorem EndsAt.filter_suffix (after : Nat) :
    (chunks.filter fun chunk => chunk.sequence > after) <:+ chunks := by
  induction chunks with
  | nil => exact suffix_refl _
  | cons chunk rest ih =>
    by_cases hafter : chunk.sequence > after
    · have hall : ∀ other ∈ chunk :: rest, decide (other.sequence > after) = true := by
        intro other hother
        have hbounds := h.bounds hother
        have hchunk := h.1
        rw [length_cons] at hbounds
        exact decide_eq_true (by omega)
      rw [filter_eq_self.mpr hall]
    · rw [filter_cons_of_neg (by simpa using hafter)]
      exact (ih h.2).trans (suffix_cons chunk rest)

end

theorem totalBytes_cons (chunk : ReplayChunk) (rest : List ReplayChunk) :
    totalBytes (chunk :: rest) = chunk.data.length + totalBytes rest := by
  simp [totalBytes]

theorem tailBytes_all (chunks : List ReplayChunk) : tailBytes chunks.length chunks =
    totalBytes chunks := by
  simp [tailBytes]

theorem tailBytes_cons {count : Nat} (chunk : ReplayChunk) (hcount : count ≤ chunks.length) :
    tailBytes count (chunk :: chunks) = tailBytes count chunks := by
  have hdrop : (chunk :: chunks).length - count = (chunks.length - count) + 1 := by
    rw [length_cons]
    omega
  unfold tailBytes
  rw [hdrop, drop_succ_cons]

theorem tailBytes_push {count : Nat} (chunk : ReplayChunk) :
    tailBytes (count + 1) (chunks ++ [chunk]) = tailBytes count chunks + chunk.data.length := by
  have hdrop : (chunks ++ [chunk]).length - (count + 1) = chunks.length - count := by
    rw [length_append, length_singleton]
    omega
  unfold tailBytes totalBytes
  rw [hdrop, drop_append_of_le_length (Nat.sub_le _ _)]
  simp

/-- What is left of a ring that was cut: an end of it, which still reaches as
far back as the limit allows. -/
structure Trimmed (limit : Nat) (chunks : List ReplayChunk) (truncated : Bool) (ring : Ring) :
    Prop where
  suffix : ring.chunks <:+ chunks
  bytes : ring.bytes = totalBytes ring.chunks
  whole : ring.truncated = false → ring.chunks = chunks ∧ truncated = false
  reach : ∀ count, count ≤ chunks.length → tailBytes count chunks ≤ limit →
    count ≤ ring.chunks.length ∧ tailBytes count ring.chunks = tailBytes count chunks

theorem trimmed_whole (limit : Nat) (chunks : List ReplayChunk) (truncated : Bool) :
    Trimmed limit chunks truncated ⟨chunks, totalBytes chunks, truncated⟩ where
  suffix := suffix_refl _
  bytes := rfl
  whole h := ⟨rfl, h⟩
  reach _ hcount _ := ⟨hcount, rfl⟩

theorem trim_trimmed (limit : Nat) (chunks : List ReplayChunk) (truncated : Bool) :
    Trimmed limit chunks truncated (trim limit chunks (totalBytes chunks) truncated) := by
  induction chunks generalizing truncated with
  | nil => exact trimmed_whole limit [] truncated
  | cons dropped rest ih =>
    cases rest with
    | nil => exact trimmed_whole limit [dropped] truncated
    | cons next rest =>
      unfold trim
      split
      · rename_i hover
        have hbytes : totalBytes (dropped :: next :: rest) - dropped.data.length =
            totalBytes (next :: rest) := by
          rw [totalBytes_cons dropped]
          omega
        rw [hbytes]
        have htrimmed := ih true
        constructor
        · exact htrimmed.suffix.trans (suffix_cons dropped _)
        · exact htrimmed.bytes
        · intro hwhole
          cases (htrimmed.whole hwhole).2
        · intro count hcount hfits
          have hless : count ≤ (next :: rest).length := by
            by_contra hall
            have hcount' : count = (dropped :: next :: rest).length := by
              rw [length_cons] at hcount ⊢
              omega
            rw [hcount', tailBytes_all] at hfits
            omega
          rw [tailBytes_cons dropped hless] at hfits ⊢
          exact htrimmed.reach count hless hfits
      · exact trimmed_whole limit (dropped :: next :: rest) truncated

theorem totalBytes_suffix (hrun : run <:+ chunks) : totalBytes run ≤ totalBytes chunks :=
  (hrun.sublist.map _).sum_le_sum fun _ _ => Nat.zero_le _

theorem trim_within (truncated : Bool) (hall : ∀ chunk ∈ chunks, chunk.data.length ≤ limit) :
    totalBytes (trim limit chunks (totalBytes chunks) truncated).chunks ≤ limit := by
  induction chunks generalizing truncated with
  | nil => exact Nat.zero_le _
  | cons dropped rest ih =>
    cases rest with
    | nil => simpa [trim, totalBytes] using hall
    | cons next rest =>
      unfold trim
      split
      · rw [totalBytes_cons dropped, Nat.add_sub_cancel_left]
        exact ih true fun chunk hmem => hall chunk (mem_cons_of_mem _ hmem)
      · rename_i hwithin
        exact Nat.not_lt.mp hwithin

end Ring

/-! ## The steps of the owner -/

variable {Screen : Type}

section Steps

variable (vt : Vt100 Screen) (env : Surroundings)

def EntryState.trimReplay (limit : Nat) (state : EntryState Screen) : EntryState Screen :=
  let ring := trim limit state.replay state.replayBytes state.replayTruncated
  { state with
    replay := ring.chunks
    replayBytes := ring.bytes
    replayTruncated := ring.truncated }

/-- One chunk of output, what the scanners found in it, and whether the last
checkpoint is old. -/
structure ProcessOutput where
  data : List UInt8
  responses : List UInt8
  themeUpdates : Option Bool
  cwd : Option String
  checkpointDue : Bool

def record (terminalEpoch nowIso : String) (output : ProcessOutput) (state : EntryState Screen) :
    EntryState Screen :=
  match state.recorder with
  | none => state
  | some screen =>
    let state := { state with
      recorder := some (vt.process output.data screen)
      bytesSinceCheckpoint := state.bytesSinceCheckpoint + output.data.length }
    if state.bytesSinceCheckpoint ≥ checkpointBytes || output.checkpointDue then
      storeCheckpoint vt terminalEpoch nowIso state
    else state

def EntryState.push (data : List UInt8) (state : EntryState Screen) : EntryState Screen :=
  { state with
    sequence := state.sequence + 1
    replay := state.replay ++ [⟨state.sequence + 1, data⟩]
    replayBytes := state.replayBytes + data.length }

def EntryState.scanned (output : ProcessOutput) (state : EntryState Screen) : EntryState Screen :=
  { state with
    themeUpdatesEnabled := output.themeUpdates.getD state.themeUpdatesEnabled
    liveCwd := output.cwd.or state.liveCwd }

def processTerminalOutput (owner : TerminalOwner Screen) (output : ProcessOutput) :
    TerminalOwner Screen :=
  if owner.state.disposed then owner
  else
    let state := (owner.state.push output.data).trimReplay maxReplayBytes
    let pty := (owner.pty.write env output.responses).2
    { owner with
      pty := pty
      state := record vt owner.entry.terminalEpoch (env.nowIso pty.calls) output
        (state.scanned output) }

/-- How the child process ended. -/
structure ProcessExit where
  exitCode : Int
  signal : Option Int

def observeTerminalExit (owner : TerminalOwner Screen) (exit : ProcessExit) :
    TerminalOwner Screen :=
  if owner.state.disposed then owner
  else
    let state := { owner.state with status := .exited, exitCode := some exit.exitCode }
    let state := storeCheckpoint vt owner.entry.terminalEpoch (env.nowIso owner.pty.calls) state
    let state := { state with signal := exit.signal }
    let owner := { owner with state := state.trimReplay exitedReplayBytes }
    owner.closeHistory env

inductive ReplayStep where
  | output (output : ProcessOutput)
  | resize (cols rows : Nat)
  | exit (exit : ProcessExit)

def maxChunkBytes : Nat := 65536

def replaySystem (entry : TerminalEntry) : System (TerminalOwner Screen) ReplayStep where
  initial owner := ∃ cols rows theme recorder control,
    owner = .start entry (.new cols rows theme recorder) control
  step owner
    | .output output =>
      if 1 ≤ output.data.length ∧ output.data.length ≤ maxChunkBytes then
        some (processTerminalOutput vt env owner output)
      else none
    | .resize cols rows => some (resizeTerminal vt env owner cols rows).2
    | .exit exit => some (observeTerminalExit vt env owner exit)

end Steps

/-! ## The invariant -/

/-- The ring holds the last chunks, and all of them until it is cut. -/
structure RingSound {Screen : Type} (state : EntryState Screen) : Prop where
  chain : EndsAt state.sequence state.replay
  bytes : state.replayBytes = totalBytes state.replay
  short : state.replay.length ≤ state.sequence
  complete : state.replayTruncated = false → state.replay.length = state.sequence

/-- The bytes since a checkpoint are those of the chunks after it, which are
all in the ring. -/
structure ReplaySound {Screen : Type} (state : EntryState Screen) : Prop extends
    RingSound state where
  few : state.bytesSinceCheckpoint < checkpointBytes
  unrecorded : state.recorder = none → state.checkpoint = none ∧ state.bytesSinceCheckpoint = 0
  checkpoint : ∀ checkpoint, state.checkpoint = some checkpoint →
    checkpoint.sequence ≤ state.sequence ∧
      state.sequence - checkpoint.sequence ≤ state.replay.length ∧
      tailBytes (state.sequence - checkpoint.sequence) state.replay = state.bytesSinceCheckpoint

variable {env : Surroundings} {vt : Vt100 Screen} {state : EntryState Screen}

section Invariant

theorem RingSound.store (h : RingSound state) {screen : Screen}
    (hrecorder : state.recorder = some screen) (epoch nowIso : String) :
    ReplaySound (storeCheckpoint vt epoch nowIso state) := by
  unfold storeCheckpoint
  simp only [hrecorder]
  constructor
  · exact { h with }
  · show 0 < checkpointBytes
    decide
  · intro hnone
    cases hnone
  · rintro checkpoint hckpt
    cases hckpt
    simp [tailBytes, totalBytes]

theorem ReplaySound.store (h : ReplaySound state) (epoch nowIso : String) :
    ReplaySound (storeCheckpoint vt epoch nowIso state) := by
  cases hrecorder : state.recorder with
  | none =>
    unfold storeCheckpoint
    simp only [hrecorder]
    exact h
  | some screen => exact h.toRingSound.store hrecorder epoch nowIso

theorem ReplaySound.trim (h : ReplaySound state) {limit : Nat}
    (hlimit : state.bytesSinceCheckpoint ≤ limit) : ReplaySound (state.trimReplay limit) := by
  have htrimmed := trim_trimmed limit state.replay state.replayTruncated
  rw [← h.bytes] at htrimmed
  constructor
  · constructor
    · exact h.chain.suffix htrimmed.suffix
    · exact htrimmed.bytes
    · exact Nat.le_trans htrimmed.suffix.length_le h.short
    · intro hwhole
      obtain ⟨hsame, htruncated⟩ := htrimmed.whole hwhole
      show (Terminal.trim limit state.replay state.replayBytes
        state.replayTruncated).chunks.length = state.sequence
      rw [hsame]
      exact h.complete htruncated
  · exact h.few
  · exact h.unrecorded
  · intro checkpoint hckpt
    obtain ⟨hle, hreach, htail⟩ := h.checkpoint checkpoint hckpt
    obtain ⟨hreach', htail'⟩ := htrimmed.reach _ hreach (htail ▸ hlimit)
    exact ⟨hle, hreach', htail'.trans htail⟩

theorem record_sequence (epoch nowIso : String) (output : ProcessOutput)
    (state : EntryState Screen) : (record vt epoch nowIso output state).sequence = state.sequence ∧
      (record vt epoch nowIso output state).replay = state.replay := by
  unfold record storeCheckpoint
  split
  · exact ⟨rfl, rfl⟩
  · simp only
    split <;> exact ⟨rfl, rfl⟩

theorem record_trim (epoch nowIso : String) (output : ProcessOutput) (limit : Nat)
    (state : EntryState Screen) : record vt epoch nowIso output (state.trimReplay limit) =
      (record vt epoch nowIso output state).trimReplay limit := by
  unfold record
  cases hrecorder : state.recorder with
  | none => simp only [EntryState.trimReplay, hrecorder]
  | some screen =>
    simp only [EntryState.trimReplay, hrecorder]
    split <;> rfl

theorem RingSound.push (h : RingSound state) (data : List UInt8) : RingSound (state.push data) := by
  have hlength : (state.replay ++ [ReplayChunk.mk (state.sequence + 1) data]).length =
      state.replay.length + 1 := length_append
  constructor
  · exact h.chain.push data
  · show state.replayBytes + data.length = _
    rw [h.bytes]
    simp [EntryState.push, totalBytes]
  · show (state.replay ++ [_]).length ≤ state.sequence + 1
    rw [hlength]
    exact Nat.succ_le_succ h.short
  · intro hwhole
    show (state.replay ++ [_]).length = state.sequence + 1
    rw [hlength, h.complete hwhole]

theorem ReplaySound.output (h : ReplaySound state) (epoch nowIso : String)
    (output : ProcessOutput) : ReplaySound (record vt epoch nowIso output
      ((state.push output.data).scanned output)) := by
  have hring := h.toRingSound.push output.data
  unfold record
  cases hrecorder : state.recorder with
  | none =>
    obtain ⟨hckpt, hsince⟩ := h.unrecorded hrecorder
    simp only [EntryState.scanned, EntryState.push, hrecorder]
    constructor
    · exact { hring with }
    · exact h.few
    · intro _
      exact ⟨hckpt, hsince⟩
    · intro checkpoint hsome
      rw [hckpt] at hsome
      cases hsome
  | some screen =>
    simp only [EntryState.scanned, EntryState.push, hrecorder]
    split
    · apply RingSound.store
      · exact { hring with }
      · rfl
    rename_i hfew
    simp only [Bool.or_eq_true, decide_eq_true_eq, not_or, Nat.not_le] at hfew
    constructor
    · exact { hring with }
    · exact hfew.1
    · intro hnone
      cases hnone
    · intro checkpoint hsome
      obtain ⟨hle, hreach, htail⟩ := h.checkpoint checkpoint hsome
      have hnext : state.sequence + 1 - checkpoint.sequence =
          state.sequence - checkpoint.sequence + 1 := Nat.sub_add_comm hle
      simp only
      rw [hnext, tailBytes_push, htail]
      refine ⟨by omega, ?_, rfl⟩
      simpa using hreach

variable {owner : TerminalOwner Screen}

theorem ReplaySound.process (h : ReplaySound owner.state) (output : ProcessOutput) :
    ReplaySound (processTerminalOutput vt env owner output).state := by
  unfold processTerminalOutput
  split
  · exact h
  have hrecorded := fun nowIso => @ReplaySound.output _ vt _ h owner.entry.terminalEpoch nowIso
    output
  have hlimit : checkpointBytes ≤ maxReplayBytes := by decide
  have htrim := fun nowIso =>
    (hrecorded nowIso).trim (Nat.le_of_lt (Nat.lt_of_lt_of_le (hrecorded nowIso).few hlimit))
  simp only [← record_trim] at htrim
  exact htrim _

theorem ReplaySound.resize (h : ReplaySound owner.state)
    (cols rows : Nat) : ReplaySound (resizeTerminal vt env owner cols rows).2.state := by
  unfold resizeTerminal
  simp only
  split
  · exact h
  apply ReplaySound.store
  constructor
  · exact { h with }
  · exact h.few
  · intro hnone
    exact h.unrecorded (map_eq_none_iff.mp hnone)
  · exact h.checkpoint

theorem store_since (h : ReplaySound state) (epoch nowIso : String) :
    (storeCheckpoint vt epoch nowIso state).bytesSinceCheckpoint = 0 := by
  unfold storeCheckpoint
  cases hrecorder : state.recorder with
  | none => exact (h.unrecorded hrecorder).2
  | some screen => rfl

theorem ReplaySound.exit (h : ReplaySound owner.state)
    (exit : ProcessExit) : ReplaySound (observeTerminalExit vt env owner exit).state := by
  unfold observeTerminalExit
  split
  · exact h
  have hexited : ReplaySound
      { owner.state with status := .exited, exitCode := some exit.exitCode } :=
    ⟨{ h with }, h.few, h.unrecorded, h.checkpoint⟩
  have hstored := @ReplaySound.store _ vt _ hexited owner.entry.terminalEpoch
    (env.nowIso owner.pty.calls)
  have hsignal : ReplaySound
      { storeCheckpoint vt owner.entry.terminalEpoch (env.nowIso owner.pty.calls)
          { owner.state with status := .exited, exitCode := some exit.exitCode } with
        signal := exit.signal } :=
    ⟨{ hstored with }, hstored.few, hstored.unrecorded, hstored.checkpoint⟩
  apply hsignal.trim
  rw [store_since hexited]
  exact Nat.zero_le _

theorem replay_step {entry : TerminalEntry} {owner' : TerminalOwner Screen}
    (h : ReplaySound owner.state) (step : ReplayStep)
    (hstep : (replaySystem vt env entry).step owner step = some owner') :
    ReplaySound owner'.state := by
  cases step with
  | output output =>
    obtain ⟨-, hstep⟩ := ite_none_right_eq_some.mp hstep
    cases hstep
    exact h.process output
  | resize cols rows =>
    cases hstep
    exact h.resize cols rows
  | exit exit =>
    cases hstep
    exact h.exit exit

theorem replay_reachable {entry : TerminalEntry}
    (hreachable : (replaySystem vt env entry).Reachable owner) : ReplaySound owner.state := by
  apply System.Run.invariant _ _ hreachable
  · rintro s ⟨cols, rows, theme, recorder, control, rfl⟩
    constructor
    · exact ⟨trivial, rfl, le_rfl, fun _ => rfl⟩
    · show 0 < checkpointBytes
      decide
    · exact fun _ => ⟨rfl, rfl⟩
    · intro checkpoint hckpt
      cases hckpt
  · intro s step s' h _ hstep
    exact replay_step h step hstep

end Invariant

/-! ## Attach -/

section Attach

theorem keep_suffix (maxBytes total : Nat) (kept earlier : List (List UInt8)) :
    boundedReplayTail.keep maxBytes total kept earlier <:+ earlier.reverse ++ kept := by
  induction earlier generalizing total kept with
  | nil => exact suffix_refl _
  | cons chunk rest ih =>
    unfold boundedReplayTail.keep
    split
    · exact suffix_append _ _
    · simpa using ih (total + chunk.length) (chunk :: kept)

theorem boundedReplayTail_suffix (chunks : List (List UInt8)) (maxBytes : Nat) :
    boundedReplayTail chunks maxBytes <:+ chunks := by
  simpa [boundedReplayTail] using keep_suffix maxBytes 0 [] chunks.reverse

theorem RingSound.floor (h : RingSound state) :
    replayFloor state + state.replay.length = state.sequence + 1 := by
  unfold replayFloor
  have hchain := h.chain
  cases hrpl : state.replay with
  | nil => rfl
  | cons chunk rest =>
    rw [hrpl] at hchain
    have hfirst := hchain.1
    simp only [head?_cons, length_cons]
    omega

theorem attach_run (h : RingSound state) (entry : TerminalEntry) (archiveAvailable : Bool)
    (clientId : String) (afterSequence : UInt64) : ∃ run, run <:+ state.replay ∧
      (attachReply entry state archiveAvailable clientId afterSequence).outputChunks =
        run.map ReplayChunk.data ∧
      (archiveAvailable = false → run = state.replay.filter fun chunk =>
        chunk.sequence > attachRawAfter (attachCheckpoint state afterSequence) afterSequence) := by
  have hfilter := h.chain.filter_suffix
    (attachRawAfter (attachCheckpoint state afterSequence) afterSequence)
  unfold attachReply
  simp only
  split
  · rename_i hbounded
    obtain ⟨run, hrun, hchunks⟩ := suffix_map_iff.mp (boundedReplayTail_suffix
      ((state.replay.filter fun chunk => chunk.sequence > attachRawAfter
        (attachCheckpoint state afterSequence) afterSequence).map ReplayChunk.data)
      exitedReplayBytes)
    refine ⟨run, hrun.trans hfilter, hchunks, ?_⟩
    intro hunav
    simp [hunav] at hbounded
  · exact ⟨_, hfilter, rfl, fun _ => rfl⟩

theorem attach_complete (h : ReplaySound state) (entry : TerminalEntry)
    (archiveAvailable : Bool) (clientId : String) (afterSequence : UInt64)
    (hquality : (attachReply entry state archiveAvailable clientId
      afterSequence).replayQuality ≠ "degraded") {sequence : Nat}
    (hlast : sequence ≤ state.sequence)
    (hafter : attachRawAfter (attachCheckpoint state afterSequence) afterSequence < sequence) :
    ∃ chunk ∈ state.replay, chunk.sequence = sequence := by
  apply h.chain.mem _ hlast
  have hfloor := h.toRingSound.floor
  cases hckpt : attachCheckpoint state afterSequence with
  | some checkpoint =>
    obtain ⟨hstored, -⟩ := filter_eq_some_iff.mp hckpt
    have hreach := (h.checkpoint checkpoint hstored).2.1
    rw [hckpt] at hafter
    have hlater : checkpoint.sequence < sequence := lt_of_le_of_lt (le_max_right _ _) hafter
    omega
  | none =>
    rw [hckpt] at hafter
    have hlater : afterSequence.toNat < sequence := hafter
    cases htruncated : state.replayTruncated with
    | false =>
      have hall := h.complete htruncated
      omega
    | true =>
      -- the ring was cut, so it reaches back to the successor, which may wrap
      have hreaches : replayFloor state ≤ (afterSequence + 1).toNat := by
        by_contra hbehind
        apply hquality
        unfold attachReply
        simp only [hckpt, htruncated, isSome_none, isNone_none,
          decide_eq_true (Nat.not_le.mp hbehind), Bool.and_self, if_true]
        rfl
      have hsuccessor : (afterSequence + 1).toNat ≤ afterSequence.toNat + 1 := by
        rw [UInt64.toNat_add]
        exact Nat.mod_le _ _
      omega

/-- In every run the ring holds the last chunks, a checkpoint is never older
than the ring, and an attach sends the end of the ring: all that was asked for,
unless it says that it is degraded or leaves the rest to the archive. -/
theorem replay_sound {entry : TerminalEntry} {owner : TerminalOwner Screen}
    (hreachable : (replaySystem vt env entry).Reachable owner) :
    EndsAt owner.state.sequence owner.state.replay ∧
      owner.state.replayBytes = totalBytes owner.state.replay ∧
      (∀ checkpoint chunk, owner.state.checkpoint = some checkpoint →
        owner.state.replay.head? = some chunk → chunk.sequence ≤ checkpoint.sequence + 1) ∧
      ∀ archiveAvailable clientId afterSequence,
        let attach := attachReply owner.entry owner.state archiveAvailable clientId afterSequence
        ∃ run, run <:+ owner.state.replay ∧ EndsAt attach.lastSequence run ∧
          attach.outputChunks = run.map ReplayChunk.data ∧
          (archiveAvailable = false → attach.replayQuality ≠ "degraded" →
            ∀ sequence, sequence ≤ attach.lastSequence → afterSequence.toNat < sequence →
              (∀ checkpoint, attach.checkpoint = some checkpoint →
                checkpoint.sequence < sequence) →
              ∃ chunk ∈ run, chunk.sequence = sequence) := by
  have hsound := replay_reachable hreachable
  refine ⟨hsound.chain, hsound.bytes, ?_, ?_⟩
  · intro checkpoint chunk hckpt hhead
    obtain ⟨hle, hreach, -⟩ := hsound.checkpoint checkpoint hckpt
    have hfloor := hsound.toRingSound.floor
    unfold replayFloor at hfloor
    rw [hhead] at hfloor
    simp only at hfloor
    omega
  · intro archiveAvailable clientId afterSequence
    obtain ⟨run, hrun, hchunks, hall⟩ := attach_run hsound.toRingSound owner.entry
      archiveAvailable clientId afterSequence
    refine ⟨run, hrun, hsound.chain.suffix hrun, hchunks, ?_⟩
    intro hunav hquality sequence hlast hafter hckpt
    have hlater : attachRawAfter (attachCheckpoint owner.state afterSequence) afterSequence <
        sequence := by
      unfold attachRawAfter
      split
      · rename_i checkpoint hsome
        exact max_lt hafter (hckpt checkpoint hsome)
      · exact hafter
    obtain ⟨chunk, hmem, hseq⟩ := attach_complete hsound owner.entry archiveAvailable
      clientId afterSequence hquality hlast hlater
    rw [hall hunav]
    refine ⟨chunk, mem_filter.mpr ⟨hmem, decide_eq_true ?_⟩, hseq⟩
    rw [hseq]
    exact hlater

theorem keep_within {maxBytes total : Nat} {kept earlier : List (List UInt8)}
    (htotal : total = (kept.map length).sum) (hkept : total ≤ maxBytes)
    (hall : ∀ data ∈ earlier, data.length ≤ maxBytes) :
    ((boundedReplayTail.keep maxBytes total kept earlier).map length).sum ≤ maxBytes := by
  induction earlier generalizing total kept with
  | nil => exact htotal ▸ hkept
  | cons data earlier ih =>
    unfold boundedReplayTail.keep
    split
    · exact htotal ▸ hkept
    rename_i hfits
    refine ih (by simp [htotal, Nat.add_comm]) ?_ fun data hmem => hall data (mem_cons_of_mem _ hmem)
    have hdata := hall data mem_cons_self
    cases kept with
    | nil => simpa [htotal] using hdata
    | cons => simpa using hfits

variable {entry : TerminalEntry} {owner owner' : TerminalOwner Screen}

/-- What a step leaves of the ring. -/
theorem ring_step (hsound : ReplaySound owner.state) {step : ReplayStep}
    (hstep : (replaySystem vt env entry).step owner step = some owner') :
    owner'.state.replay <:+ owner.state.replay ∨
      ∃ chunk, chunk.data.length ≤ maxChunkBytes ∧ owner'.state.replay =
        (trim maxReplayBytes (owner.state.replay ++ [chunk])
          (totalBytes (owner.state.replay ++ [chunk])) owner.state.replayTruncated).chunks := by
  cases step with
  | output output =>
    obtain ⟨⟨-, hlength⟩, hnext⟩ := ite_none_right_eq_some.mp hstep
    cases hnext
    unfold processTerminalOutput
    split
    · exact .inl (suffix_refl _)
    refine .inr ⟨⟨owner.state.sequence + 1, output.data⟩, hlength, ?_⟩
    have hbytes := (hsound.toRingSound.push output.data).bytes
    rw [(record_sequence _ _ _ _).2]
    exact congrArg (fun bytes => (trim _ _ bytes _).chunks) hbytes
  | resize cols rows =>
    cases hstep
    unfold resizeTerminal storeCheckpoint
    dsimp only
    split
    · exact .inl (suffix_refl _)
    · dsimp only
      split <;> exact .inl (suffix_refl _)
  | exit exit =>
    cases hstep
    unfold observeTerminalExit
    split
    · exact .inl (suffix_refl _)
    left
    have hcut := (trim_trimmed exitedReplayBytes owner.state.replay
      owner.state.replayTruncated).suffix
    rw [← hsound.bytes] at hcut
    cases hrecorder : owner.state.recorder <;>
      simpa [EntryState.trimReplay, storeCheckpoint, hrecorder, TerminalOwner.closeHistory]
        using hcut

/-- In every run the ring keeps within its budget, and so does what an attach
sends: the smaller one where the archive has the rest. -/
theorem replay_bounded (hreach : (replaySystem vt env entry).Reachable owner) :
    totalBytes owner.state.replay ≤ maxReplayBytes ∧
      ∀ archiveAvailable clientId afterSequence,
        ((attachReply owner.entry owner.state archiveAvailable clientId
          afterSequence).outputChunks.map length).sum ≤
            if archiveAvailable then exitedReplayBytes else maxReplayBytes := by
  have hsound := replay_reachable hreach
  have hbudget : totalBytes owner.state.replay ≤ maxReplayBytes ∧
      ∀ chunk ∈ owner.state.replay, chunk.data.length ≤ maxChunkBytes := by
    clear hsound
    induction hreach with
    | start hinitial =>
      obtain ⟨_, _, _, _, _, rfl⟩ := hinitial
      exact ⟨Nat.zero_le _, nofun⟩
    | @next before _ _ hreach _ hstep ih =>
      rcases ring_step (replay_reachable hreach) hstep with hsuffix | ⟨chunk, hchunk, hring⟩
      · exact ⟨(totalBytes_suffix hsuffix).trans ih.1, fun chunk hmem =>
          ih.2 chunk (hsuffix.subset hmem)⟩
      · have hall : ∀ other ∈ before.state.replay ++ [chunk], other.data.length ≤ maxChunkBytes := by
          intro other hmem
          rcases mem_snoc.mp hmem with hold | rfl
          · exact ih.2 other hold
          · exact hchunk
        rw [hring]
        exact ⟨trim_within _ fun other hmem => (hall other hmem).trans (by decide), fun other hmem =>
          hall other ((trim_trimmed _ _ _).suffix.subset hmem)⟩
  refine ⟨hbudget.1, fun archiveAvailable clientId afterSequence => ?_⟩
  unfold attachReply
  dsimp only
  generalize attachRawAfter _ afterSequence = rawAfter
  cases archiveAvailable with
  | false =>
    simpa [totalBytes, Function.comp_def] using
      (filter_sublist.map _).sum_le_sum (fun _ _ => Nat.zero_le _) |>.trans hbudget.1
  | true =>
    simp only [Bool.true_and, decide_eq_true_eq, if_true]
    split
    · refine keep_within rfl (Nat.zero_le _) fun data hmem => ?_
      obtain ⟨chunk, hchunk, rfl⟩ := mem_map.mp (mem_reverse.mp hmem)
      exact (hbudget.2 chunk (mem_filter.mp hchunk).1).trans (by decide)
    · rename_i hlast
      rw [filter_eq_nil_iff.mpr]
      · exact Nat.zero_le _
      intro chunk hmem
      have hbound := hsound.chain.bounds hmem
      simp only [gt_iff_lt, decide_eq_true_eq]
      omega

end Attach

def sampleSteps : List ReplayStep :=
  [.output ⟨[104], [], none, none, false⟩, .resize 100 30,
    .output ⟨[105], [], none, none, true⟩, .exit ⟨0, none⟩]

theorem replay_sound_sample :
    ∃ owner, (replaySystem blankVt100 quietSurroundings sampleEntry).Reachable owner ∧
      owner.state.replay.length = 2 ∧ EndsAt owner.state.sequence owner.state.replay := by
  have hany : ((replaySystem blankVt100 quietSurroundings sampleEntry).replay (fun _ _ => true)
      sampleOwner sampleSteps).any (fun owner => owner.state.replay.length == 2) = true := by
    decide
  obtain ⟨owner, howner, hlength⟩ := (Option.any_eq_true _ _).mp hany
  have hstart : (replaySystem blankVt100 quietSurroundings sampleEntry).Reachable sampleOwner :=
    System.Run.start ⟨80, 24, defaultTheme, some (), _, rfl⟩
  have hreachable := System.replay_run hstart (fun _ _ _ _ => trivial) howner
  exact ⟨owner, hreachable, beq_iff_eq.mp hlength, (replay_sound hreachable).1⟩

theorem replay_bounded_output :
    ∃ owner, (replaySystem blankVt100 quietSurroundings sampleEntry).Reachable owner ∧
      owner.state.sequence = 1 ∧ totalBytes owner.state.replay ≤ maxReplayBytes := by
  have hstart : (replaySystem blankVt100 quietSurroundings sampleEntry).Reachable sampleOwner :=
    System.Run.start ⟨80, 24, defaultTheme, some (), _, rfl⟩
  have hreach := hstart.next (a := .output ⟨[104], [], none, none, false⟩) trivial rfl
  exact ⟨_, hreach, rfl, (replay_bounded hreach).1⟩

end Yaade.Terminal

import Yaade.Panels.OutputQueue

/-!
The runs of the output writer: what each of its methods and callbacks keeps, and
with it that its promises hold in every run.
-/

namespace Yaade.Panels.OutputWriter

open Yaade.Library Option List Bool

/-! ## The invariants of replays, acknowledgements and the clock -/

def Replays.First (replays : Replays) (queue : Queue) (log : List Write) : Prop :=
  ∀ number before, replays.calls[number]? = some before →
    ∀ position write, before ≤ position → writeOf? queue.passed position = some write →
      ∃ index earlier, index < write ∧ log[index]? = some earlier ∧ number ∈ earlier.replayed

structure Replays.Sound (replays : Replays) (queue : Queue) (log : List Write) : Prop where
  counted : replays.replayBytes = (remainingBytes replays.replayParts).length
  nonempty : ∀ part ∈ replays.replayParts, part.remaining ≠ []
  increasing : (log.flatMap Write.replayed).Pairwise (· < ·)
  first : replays.First queue log

def Replays.Complete (replays : Replays) (log : List Write) : Prop :=
  log.flatMap Write.replayed ++ replays.replayParts.map PendingPart.number =
    List.range replays.calls.length

namespace Replays

variable {replays : Replays} {queue queue' : Queue} {log writes : List Write}

theorem First.append (h : replays.First queue log) : replays.First queue (log ++ writes) := by
  intro number before hcall position write hposn hwrite
  obtain ⟨index, earlier, hindex, hearlier, hnumber⟩ :=
    h number before hcall position write hposn hwrite
  exact ⟨index, earlier, hindex,
    by rw [getElem?_append_left (List.getElem?_eq_some_iff.mp hearlier).1, hearlier], hnumber⟩

theorem First.leave (h : replays.First queue log)
    (hpassed : ∀ position write, writeOf? queue'.passed position = some write →
      writeOf? queue.passed position = some write) : replays.First queue' log :=
  fun number before hcall position write hposn hwrite =>
    h number before hcall position write hposn (hpassed position write hwrite)

theorem Sound.empty (h : Sound replays queue log) (hbytes : replays.replayBytes = 0) :
    replays.replayParts = [] := by
  have hremaining := length_eq_zero_iff.mp (h.counted.symm.trans hbytes)
  refine eq_nil_iff_forall_not_mem.mpr fun part hpart => h.nonempty part hpart ?_
  exact flatMap_eq_nil_iff.mp hremaining part hpart

theorem Complete.mem (h : replays.Complete log) (hparts : replays.replayParts = [])
    {number : Nat} (hnumber : number < replays.calls.length) :
    ∃ index write, index < log.length ∧ log[index]? = some write ∧ number ∈ write.replayed := by
  have hall : log.flatMap Write.replayed = List.range replays.calls.length := by
    simpa [Complete, hparts] using h
  obtain ⟨write, hwrite, hmem⟩ := mem_flatMap.mp (hall ▸ mem_range.mpr hnumber)
  obtain ⟨index, hindex⟩ := mem_iff_getElem?.mp hwrite
  exact ⟨index, write, (List.getElem?_eq_some_iff.mp hindex).1, hindex, hmem⟩

variable {data : Bytes}

theorem Sound.take (h : Sound replays queue log) (hcomplete : replays.Complete log)
    (hparts : replays.replayParts = []) (limit : Option Nat) {consumed : List Nat} :
    Sound replays (queue.takePending limit log.length)
      (log ++ [Write.mk true data [] consumed []]) where
  counted := h.counted
  nonempty := h.nonempty
  increasing := by
    simpa using h.increasing
  first number before hcall position write hposn hwrite := by
    rcases writeOf?_cases hwrite with hold | hnew
    · exact h.first.append number before hcall position write hposn hold
    · cases hnew
      obtain ⟨index, earlier, hindex, hearlier, hmem⟩ :=
        hcomplete.mem hparts (List.getElem?_eq_some_iff.mp hcall).1
      exact ⟨index, earlier, hindex, by rw [getElem?_append_left hindex, hearlier], hmem⟩

theorem Complete.take (h : replays.Complete log) {consumed : List Nat} :
    replays.Complete (log ++ [Write.mk true data [] consumed []]) := by
  simpa [Complete] using h

theorem Sound.flush (h : Sound replays queue log) (hcomplete : replays.Complete log)
    (hwrites : writes.flatMap Write.replayed = replays.replayParts.map PendingPart.number) :
    Sound { replays with replayParts := [], replayBytes := 0 } queue (log ++ writes) where
  counted := rfl
  nonempty _ hpart := absurd hpart not_mem_nil
  increasing := by
    have hall := hcomplete
    rw [Complete, ← hwrites, ← flatMap_append] at hall
    rw [hall]
    exact pairwise_lt_range
  first := h.first.append

theorem Complete.flush (h : replays.Complete log)
    (hwrites : writes.flatMap Write.replayed = replays.replayParts.map PendingPart.number) :
    Complete { replays with replayParts := [], replayBytes := 0 } (log ++ writes) := by
  rw [Complete, map_nil, append_nil, flatMap_append, hwrites]
  exact h

theorem Sound.push (h : Sound replays queue log) (hlive : queue.Sound log)
    (hdata : data ≠ []) (onConsumed : Bool) :
    Sound ⟨replays.replayParts ++ [⟨data, 0, onConsumed, replays.calls.length⟩],
      replays.replayBytes + data.length, replays.calls ++ [queue.enqueued.length]⟩ queue log where
  counted := by
    simp [remainingBytes, PendingPart.remaining, h.counted]
  nonempty part hpart := by
    rcases mem_snoc.mp hpart with hold | rfl
    · exact h.nonempty part hold
    · exact hdata
  increasing := h.increasing
  first number before hcall position write hposn hwrite := by
    rw [getElem?_append] at hcall
    split at hcall
    · exact h.first number before hcall position write hposn hwrite
    have hbef : before = queue.enqueued.length := mem_singleton.mp (mem_of_getElem? hcall)
    have hpassed := writeOf?_lt hwrite
    have hlength := hlive.enqueued_length
    omega

theorem Complete.push (h : replays.Complete log) {onConsumed : Bool} {before bytes : Nat} :
    Complete ⟨replays.replayParts ++ [⟨data, 0, onConsumed, replays.calls.length⟩],
      bytes, replays.calls ++ [before]⟩ log := by
  rw [Complete, map_append, ← append_assoc, h, length_append, length_singleton, range_succ]
  rfl

end Replays

/-- What is acknowledged was given with a parsed write; without `writeReplay`,
replayed parts with any write. -/
structure Acks (options : Options) (log : List Write) (count : Nat)
    (acknowledged acknowledgedReplay : List Nat) : Prop where
  parsed : count ≤ log.length
  live : acknowledged.Sublist ((log.take count).flatMap Write.consumed)
  replay : acknowledgedReplay.Sublist
    ((if options.writeReplay then log.take count else log).flatMap Write.replayed)
  consumed : ∀ write ∈ log, write.consumedReplay.Sublist write.replayed ∧
    (options.writeReplay = false → write.consumedReplay = [])

namespace Acks

variable {options : Options} {log writes : List Write} {count : Nat}
  {acknowledged acknowledgedReplay : List Nat}

section

variable (h : Acks options log count acknowledged acknowledgedReplay)
include h

theorem append (hwrites : ∀ write ∈ writes, write.consumedReplay.Sublist write.replayed ∧
      (options.writeReplay = false → write.consumedReplay = [])) :
    Acks options (log ++ writes) count acknowledged acknowledgedReplay where
  parsed := by
    rw [length_append]
    exact Nat.le_add_right_of_le h.parsed
  live := by
    rw [take_append_of_le_length h.parsed]
    exact h.live
  replay := by
    have hrpl := h.replay
    split at hrpl
    · rename_i hoption
      rw [if_pos hoption, take_append_of_le_length h.parsed]
      exact hrpl
    · rename_i hoption
      rw [if_neg hoption, flatMap_append]
      exact hrpl.trans (sublist_append_left _ _)
  consumed write hwrite := (mem_append.mp hwrite).elim (h.consumed write) (hwrites write)

theorem flush (hoption : options.writeReplay = false) {numbers : List Nat}
    (hwrites : ∀ write ∈ writes, write.consumedReplay = [])
    (hnumbers : numbers.Sublist (writes.flatMap Write.replayed)) :
    Acks options (log ++ writes) count acknowledged (acknowledgedReplay ++ numbers) := by
  have happend : Acks options (log ++ writes) count acknowledged acknowledgedReplay :=
    h.append fun write hwrite =>
      ⟨hwrites write hwrite ▸ nil_sublist _, fun _ => hwrites write hwrite⟩
  refine ⟨happend.parsed, happend.live, ?_, happend.consumed⟩
  have hrpl := h.replay
  rw [hoption] at hrpl ⊢
  simp only [false_eq_true, if_false, flatMap_append] at hrpl ⊢
  exact hrpl.append hnumbers

theorem parse {write : Write} (hwrite : log[count]? = some write) :
    Acks options log (count + 1) (acknowledged ++ write.consumed)
      (acknowledgedReplay ++ write.consumedReplay) where
  parsed := (List.getElem?_eq_some_iff.mp hwrite).1
  live := by
    rw [take_add_one, hwrite, flatMap_append]
    refine h.live.append ?_
    simp
  replay := by
    obtain ⟨hconsumed, hnone⟩ := h.consumed write (mem_of_getElem? hwrite)
    have hrpl := h.replay
    cases hoption : options.writeReplay with
    | true =>
      rw [hoption] at hrpl
      simp only [if_true] at hrpl ⊢
      rw [take_add_one, hwrite, flatMap_append]
      refine hrpl.append ?_
      simpa using hconsumed
    | false =>
      rw [hoption] at hrpl
      rw [hnone hoption, append_nil]
      exact hrpl
  consumed := h.consumed

theorem skip
    (hcount : count < log.length) : Acks options log (count + 1) acknowledged acknowledgedReplay where
  parsed := hcount
  live := h.live.trans ((take_sublist_take_left (Nat.le_succ count)).flatMap _)
  replay := by
    have hrpl := h.replay
    split at hrpl
    · rename_i hoption
      rw [if_pos hoption]
      exact hrpl.trans ((take_sublist_take_left (Nat.le_succ count)).flatMap _)
    · rename_i hoption
      rw [if_neg hoption]
      exact hrpl
  consumed := h.consumed

end

end Acks

structure Clock.Sound (clock : Clock) (disposed : Bool) : Prop where
  frame : clock.raf ≠ 0 → clock.raf ∈ clock.frames
  micro : disposed = false → clock.microScheduled = true → 0 < clock.microtasks

namespace Clock

variable {clock : Clock} {disposed : Bool}

section

variable (h : Sound clock disposed)
include h

theorem Sound.cancelFrame : Sound clock.cancelFrame disposed := by
  unfold Clock.cancelFrame
  split
  · exact h
  · exact ⟨fun hraf => absurd rfl hraf, h.micro⟩

theorem Sound.cancelFallback : Sound clock.cancelFallback disposed := by
  unfold Clock.cancelFallback
  split
  · exact h
  · exact ⟨h.frame, h.micro⟩

theorem Sound.clear : Sound clock.clear disposed :=
  ⟨h.cancelFrame.cancelFallback.frame, nofun⟩

theorem Sound.scheduleRaf (answers : Answers) :
    Sound (clock.scheduleRaf disposed answers) disposed := by
  unfold Clock.scheduleRaf
  split
  · exact h
  · exact ⟨fun _ => mem_concat_self, nofun⟩

theorem Sound.scheduleMicro : Sound (clock.scheduleMicro disposed) disposed := by
  unfold Clock.scheduleMicro
  split
  · exact h
  · exact ⟨h.frame, fun _ _ => Nat.succ_pos _⟩

end

def Scheduled (clock : Clock) : Prop := clock.raf ≠ 0 ∨ clock.microScheduled = true

theorem scheduleRaf_scheduled {answers : Answers} (hframe : answers.frame ≠ 0) :
    (clock.scheduleRaf false answers).Scheduled := by
  unfold Clock.scheduleRaf
  split
  · rename_i hraf
    exact .inl (by simpa using hraf)
  · exact .inl hframe

theorem scheduleMicro_scheduled : (clock.scheduleMicro false).Scheduled := by
  unfold Clock.scheduleMicro
  split
  · rename_i hscheduled
    simpa [Scheduled] using hscheduled
  · exact .inr rfl

theorem Sound.armed (h : Sound clock false) (hscheduled : clock.Scheduled) : clock.Armed :=
  hscheduled.imp (fun hraf => ⟨hraf, h.frame hraf⟩) fun hmicro => ⟨hmicro, h.micro rfl hmicro⟩

end Clock

/-! ## The invariant of the writer -/

namespace World

structure Core (options : Options) (world : World) : Prop where
  queue : world.queue.Sound world.log
  filled : world.disposed = false → world.queue.Filled
  replays : world.replays.Sound world.queue world.log
  complete : world.disposed = false → world.replays.Complete world.log
  acks : Acks options world.log world.parsed world.acknowledged world.acknowledgedReplay
  clock : world.clock.Sound world.disposed
  closed : world.disposed = true → world.queue.pendingParts = [] ∧
    world.replays.replayParts = [] ∧ world.replays.replayBytes = 0 ∧ world.needsRefresh = false

/-- Pending live bytes are scheduled. -/
structure Sound (options : Options) (world : World) : Prop extends Core options world where
  scheduled : world.disposed = false → 0 < world.queue.pendingBytes → world.clock.Scheduled

section Steps

variable {options : Options} {world world' : World} {answers : Answers}

theorem sound_create : Sound options create where
  queue := ⟨rfl, rfl, rfl, trivial, .nil, fun _ h => absurd h not_mem_nil,
    fun _ _ h => (nomatch h), fun _ _ h => (nomatch h)⟩
  filled _ _ _ _ hto := absurd hto (Nat.not_lt_zero _)
  replays := ⟨rfl, fun _ h => absurd h not_mem_nil, .nil, fun _ _ h => (nomatch h)⟩
  complete _ := rfl
  acks := ⟨le_rfl, nil_sublist _, nil_sublist _, fun _ h => absurd h not_mem_nil⟩
  clock := ⟨fun hraf => absurd rfl hraf, fun _ h => (nomatch h)⟩
  closed h := nomatch h
  scheduled _ h := absurd h (Nat.lt_irrefl 0)

section

variable (h : Core options world)
include h

theorem Core.setClock {clock : Clock}
    (hclock : clock.Sound world.disposed) : Core options { world with clock := clock } :=
  { h with clock := hclock }

theorem Core.refresh {needsRefresh : Bool}
    (hclosed : world.disposed = true → needsRefresh = false) :
    Core options { world with needsRefresh := needsRefresh } :=
  ⟨h.queue, h.filled, h.replays, h.complete, h.acks, h.clock, fun hdisp =>
    have hclosed' := h.closed hdisp
    ⟨hclosed'.1, hclosed'.2.1, hclosed'.2.2.1, hclosed hdisp⟩⟩

theorem Core.calm : Core options world.calm :=
  h.setClock ⟨h.clock.frame, h.clock.micro⟩

theorem Core.scheduleNext (answers : Answers) :
    Core options (world.scheduleNext options answers) := by
  unfold World.scheduleNext
  split
  · exact h.setClock h.clock.cancelFrame.cancelFallback.scheduleMicro
  split
  · have hflood : Clock.Sound { world.clock with floodMode := true } world.disposed :=
      ⟨h.clock.frame, h.clock.micro⟩
    exact h.setClock (hflood.scheduleRaf answers)
  · exact h.setClock h.clock.scheduleMicro

end

theorem scheduleNext_scheduled (hopen : world.disposed = false) (hframe : answers.frame ≠ 0) :
    (world.scheduleNext options answers).clock.Scheduled := by
  unfold World.scheduleNext
  rw [hopen]
  split
  · exact Clock.scheduleMicro_scheduled
  split
  · exact Clock.scheduleRaf_scheduled hframe
  · exact Clock.scheduleMicro_scheduled

theorem Core.flushReplayNow (h : Core options world) :
    Core options (world.flushReplayNow options) := by
  unfold World.flushReplayNow
  dsimp only
  split
  · exact h
  rename_i hparts
  have hopen : world.disposed = false := by
    by_contra hdisp
    simp [not_eq_false _ ▸ hdisp] at hparts
  split
  · rename_i hoption
    have hwrites : [Write.mk false (world.replays.replayParts.flatMap PendingPart.remaining)
        (world.replays.replayParts.map PendingPart.number) []
        ((world.replays.replayParts.filter PendingPart.onConsumed).map
          PendingPart.number)].flatMap Write.replayed =
        world.replays.replayParts.map PendingPart.number := append_nil _
    refine ⟨h.queue.replay ?_ ?_, h.filled, h.replays.flush (h.complete hopen) hwrites,
      fun _ => (h.complete hopen).flush hwrites, h.acks.append ?_, h.clock,
      fun hdisp => absurd (hopen.symm.trans hdisp) Bool.false_ne_true⟩
    · simp
    · simp
    · intro write hwrite
      rw [mem_singleton.mp hwrite]
      exact ⟨filter_sublist.map _, fun hnone => absurd hoption (by simp [hnone])⟩
  · rename_i hoption
    have hwrites : (world.replays.replayParts.map fun part =>
        Write.mk false part.remaining [part.number] [] []).flatMap Write.replayed =
        world.replays.replayParts.map PendingPart.number := by
      rw [flatMap_map, map_eq_flatMap]
    refine ⟨h.queue.replay ?_ ?_, h.filled, h.replays.flush (h.complete hopen) hwrites,
      fun _ => (h.complete hopen).flush hwrites,
      h.acks.flush (by simpa using hoption) ?_ (hwrites ▸ filter_sublist.map _), h.clock,
      fun hdisp => absurd (hopen.symm.trans hdisp) Bool.false_ne_true⟩
    · simp
    · simp
    · simp

theorem flushReplayNow_frame : (world.flushReplayNow options).queue = world.queue ∧
    (world.flushReplayNow options).clock = world.clock ∧
    (world.flushReplayNow options).disposed = world.disposed := by
  unfold World.flushReplayNow
  dsimp only
  split
  · exact ⟨rfl, rfl, rfl⟩
  · split <;> exact ⟨rfl, rfl, rfl⟩

theorem Core.flushReplayNow_empty (h : Core options world) :
    (world.flushReplayNow options).replays.replayParts = [] ∧
      (world.flushReplayNow options).replays.replayBytes = 0 := by
  unfold World.flushReplayNow
  dsimp only
  split
  · rename_i hparts
    have hempty : world.replays.replayParts = [] := by
      rcases or_eq_true_iff.mp hparts with hdisp | hnone
      · exact (h.closed hdisp).2.1
      · exact List.isEmpty_iff.mp hnone
    refine ⟨hempty, ?_⟩
    rw [h.replays.counted, hempty]
    rfl
  · split <;> exact ⟨rfl, rfl⟩

theorem flushLimit_ne_zero {unlimited : Bool} : flushLimit options unlimited ≠ some 0 := by
  cases unlimited with
  | true => exact nofun
  | false => exact options.maxPerFlush_ne_zero

def quiet (world : World) : World :=
  { world with clock := { world.clock with raf := 0, microScheduled := false } }

def took (world : World) (limit : Option Nat) : World :=
  { world.quiet with
    queue := world.queue.takePending limit world.log.length
    needsRefresh := world.needsRefresh &&
      (world.queue.takePending limit world.log.length).pendingBytes ≠ 0 }

def wrote (world : World) (limit : Option Nat) : World :=
  { world.took limit with
    log := world.log ++ [Write.mk true (takeParts world.queue.pendingParts limit).data []
      (world.queue.consumed limit) []] }

theorem flushLive_cases (options : Options) (answers : Answers) (world : World) (unlimited : Bool) :
    ((world.disposed = true ∨ (world.queue.pendingBytes = 0 ∧ world.needsRefresh = false)) ∧
      world.flushLive options answers unlimited = world.quiet.calm) ∨
    (world.disposed = false ∧
      (takeParts world.queue.pendingParts (flushLimit options unlimited)).data = [] ∧
      world.flushLive options answers unlimited =
        (world.took (flushLimit options unlimited)).calm) ∨
    (world.disposed = false ∧ world.flushLive options answers unlimited =
      (world.wrote (flushLimit options unlimited)).scheduleNext options answers ∧
      ((world.wrote (flushLimit options unlimited)).queue.pendingBytes ≠ 0 ∨
        (world.wrote (flushLimit options unlimited)).needsRefresh = true)) ∨
    (world.disposed = false ∧ (world.wrote (flushLimit options unlimited)).queue.pendingBytes = 0 ∧
      (world.wrote (flushLimit options unlimited)).needsRefresh = false ∧
      world.flushLive options answers unlimited =
        (world.wrote (flushLimit options unlimited)).calm) := by
  unfold World.flushLive
  dsimp only
  split
  · rename_i hquiet
    left
    exact ⟨by simpa using hquiet, rfl⟩
  rename_i hquiet
  have hopen : world.disposed = false := by
    by_contra hdisp
    simp [not_eq_false _ ▸ hdisp] at hquiet
  right
  split
  · rename_i hempty
    exact .inl ⟨hopen, List.isEmpty_iff.mp hempty, rfl⟩
  right
  split
  · rename_i hmore
    refine .inl ⟨hopen, rfl, ?_⟩
    exact (or_eq_true_iff.mp hmore).imp (fun hbytes => (of_decide_eq_true hbytes).ne') id
  · rename_i hmore
    obtain ⟨hbytes, hrefresh⟩ := or_eq_false_iff.mp (not_eq_true _ ▸ hmore)
    exact .inr ⟨hopen, Nat.eq_zero_of_not_pos (of_decide_eq_false hbytes), hrefresh, rfl⟩

section

variable (h : Core options world)
include h

theorem Core.quiet : Core options world.quiet :=
  h.setClock ⟨fun hraf => absurd rfl hraf, nofun⟩

theorem Core.took (hopen : world.disposed = false) {limit : Option Nat}
    (hempty : (takeParts world.queue.pendingParts limit).data = []) :
    Core options (world.took limit) where
  queue := h.queue.skip hempty
  filled _ := (h.filled hopen).take limit _
  replays := by
    refine ⟨h.replays.counted, h.replays.nonempty, h.replays.increasing, h.replays.first.leave ?_⟩
    intro position write hwrite
    simp only [World.took, Queue.takePending, hempty, map_nil, append_nil] at hwrite
    exact hwrite
  complete := h.complete
  acks := h.acks
  clock := h.quiet.clock
  closed hdisp := absurd (hopen.symm.trans hdisp) Bool.false_ne_true

theorem Core.wrote (hopen : world.disposed = false)
    (hparts : world.replays.replayParts = []) (limit : Option Nat) :
    Core options (world.wrote limit) where
  queue := h.queue.take (h.filled hopen) limit
  filled _ := (h.filled hopen).take limit _
  replays := h.replays.take (h.complete hopen) hparts limit
  complete _ := (h.complete hopen).take
  acks := h.acks.append fun write hwrite => by
    rw [mem_singleton.mp hwrite]
    exact ⟨.refl _, fun _ => rfl⟩
  clock := h.quiet.clock
  closed hdisp := absurd (hopen.symm.trans hdisp) Bool.false_ne_true

theorem Core.flushLive (hparts : world.replays.replayParts = [])
    (hframe : answers.frame ≠ 0) (unlimited : Bool) :
    Sound options (world.flushLive options answers unlimited) := by
  rcases flushLive_cases options answers world unlimited with
    ⟨hquiet, heq⟩ | ⟨hopen, hempty, heq⟩ | ⟨hopen, heq, -⟩ | ⟨hopen, hbytes, -, heq⟩
  · rw [heq]
    refine ⟨h.quiet.calm, fun hopen hpend => ?_⟩
    rcases hquiet with hdisp | ⟨hnone, -⟩
    · exact absurd (hopen.symm.trans hdisp) Bool.false_ne_true
    · exact absurd hnone hpend.ne'
  · rw [heq]
    refine ⟨(h.took hopen hempty).calm, fun _ hpend => ?_⟩
    have hnone : remainingBytes world.queue.pendingParts = [] := by
      by_contra hsome
      exact takeParts_ne_nil flushLimit_ne_zero hsome hempty
    have hzero : world.queue.pendingBytes = 0 := by
      rw [h.queue.counted, hnone]
      rfl
    have hleft : (world.took (flushLimit options unlimited)).queue.pendingBytes =
        world.queue.pendingBytes - 0 := by
      simp only [World.took, Queue.takePending, hempty, length_nil]
    exact absurd hpend (by
      change ¬ 0 < (world.took (flushLimit options unlimited)).queue.pendingBytes
      omega)
  · rw [heq]
    exact ⟨(h.wrote hopen hparts _).scheduleNext answers,
      fun _ _ => scheduleNext_scheduled hopen hframe⟩
  · rw [heq]
    exact ⟨(h.wrote hopen hparts _).calm, fun _ hpend => absurd hbytes hpend.ne'⟩

theorem Core.flushLive_unlimited (answers : Answers) :
    (world.flushLive options answers true).queue.pendingBytes = 0 ∧
      (world.flushLive options answers true).needsRefresh = false ∧
      (world.flushLive options answers true).replays = world.replays := by
  have htaken : (world.queue.takePending none world.log.length).pendingBytes = 0 := by
    have hdata := congrArg List.length (takeParts_data world.queue.pendingParts none)
    rw [takeParts_unlimited, remainingBytes_nil, append_nil, ← h.queue.counted] at hdata
    simp only [Queue.takePending]
    omega
  have hrefresh : (world.took none).needsRefresh = false := by
    simp only [World.took, htaken]
    simp
  rcases flushLive_cases options answers world true with
    ⟨hquiet, heq⟩ | ⟨-, -, heq⟩ | ⟨-, -, hmore⟩ | ⟨-, hbytes, hnone, heq⟩
  · rw [heq]
    rcases hquiet with hdisp | ⟨hbytes, hnone⟩
    · obtain ⟨hpend, -, -, hnone⟩ := h.closed hdisp
      refine ⟨?_, hnone, rfl⟩
      have hcounted := h.queue.counted
      rw [hpend] at hcounted
      exact hcounted
    · exact ⟨hbytes, hnone, rfl⟩
  · rw [heq]
    exact ⟨htaken, hrefresh, rfl⟩
  · rcases hmore with hbytes | hneeds
    · exact absurd htaken hbytes
    · exact absurd (hrefresh.symm.trans hneeds) Bool.false_ne_true
  · rw [heq]
    exact ⟨hbytes, hnone, rfl⟩

theorem Core.flushNow_eq (answers : Answers) (unlimited : Bool) :
    ∃ before, Core options before ∧ before.replays.replayParts = [] ∧
      before.disposed = world.disposed ∧
      world.flushNow options answers unlimited = before.flushLive options answers unlimited := by
  unfold World.flushNow
  dsimp only
  split
  · obtain ⟨hparts, hbytes⟩ := h.flushReplayNow_empty
    refine ⟨_, h.flushReplayNow, hparts, flushReplayNow_frame.2.2, ?_⟩
    rw [hbytes]
    rfl
  · rename_i hnone
    exact ⟨world, h, h.replays.empty (Nat.eq_zero_of_not_pos hnone), rfl, rfl⟩

theorem Core.flushNow (hframe : answers.frame ≠ 0) (unlimited : Bool) :
    Sound options (world.flushNow options answers unlimited) := by
  obtain ⟨before, hbef, hparts, -, heq⟩ := h.flushNow_eq answers unlimited
  rw [heq]
  exact hbef.flushLive hparts hframe unlimited

theorem Core.flushNow_unlimited (answers : Answers) :
    (world.flushNow options answers true).queue.pendingBytes = 0 ∧
      (world.flushNow options answers true).needsRefresh = false ∧
      (world.flushNow options answers true).replays.replayParts = [] := by
  obtain ⟨before, hbef, hparts, -, heq⟩ := h.flushNow_eq answers true
  obtain ⟨hbytes, hrefresh, hreplays⟩ := hbef.flushLive_unlimited answers
  rw [heq]
  exact ⟨hbytes, hrefresh, by rw [hreplays, hparts]⟩

end

theorem flushLoop_done (hbytes : world.queue.pendingBytes = 0) (hrefresh : world.needsRefresh = false)
    (fuel : Nat) : flushLoop options answers (fuel + 1) world = some world := by
  rw [flushLoop, hbytes, hrefresh]
  rfl

section

variable (h : Core options world)
include h

theorem Core.flushLoop (answers : Answers) (hparts : world.replays.replayParts = []) :
    ∃ after, (∀ fuel, 1 < fuel → flushLoop options answers fuel world = some after) ∧
      after.queue.pendingBytes = 0 ∧ after.replays.replayParts = [] ∧ after.needsRefresh = false ∧
      (after = world ∨ after = world.flushNow options answers true) := by
  by_cases hmore : (0 < world.queue.pendingBytes || world.needsRefresh) = true
  · obtain ⟨hbytes, hrefresh, hreplays⟩ := h.flushNow_unlimited answers
    refine ⟨world.flushNow options answers true, fun fuel hfuel => ?_, hbytes, hreplays, hrefresh,
      .inr rfl⟩
    obtain ⟨rest, rfl⟩ : ∃ rest, fuel = rest + 2 := ⟨fuel - 2, by omega⟩
    rw [World.flushLoop, if_pos hmore, flushLoop_done hbytes hrefresh]
  · obtain ⟨hbytes, hrefresh⟩ := or_eq_false_iff.mp (not_eq_true _ ▸ hmore)
    have hzero := Nat.eq_zero_of_not_pos (of_decide_eq_false hbytes)
    refine ⟨world, fun fuel hfuel => ?_, hzero, hparts, hrefresh, .inl rfl⟩
    obtain ⟨rest, rfl⟩ : ∃ rest, fuel = rest + 1 := ⟨fuel - 1, by omega⟩
    exact flushLoop_done hzero hrefresh rest

theorem Core.flush (answers : Answers) :
    ∃ after, (∀ fuel, 1 < fuel → world.flush options answers fuel = some after) ∧
      after.queue.pendingBytes = 0 ∧ after.replays.replayParts = [] ∧ after.needsRefresh = false ∧
      (answers.frame ≠ 0 → Core options after) := by
  have hcleared : Core options { world with clock := world.clock.clear } := h.setClock h.clock.clear
  obtain ⟨after, hloop, hbytes, hparts, hrefresh, hafter⟩ :=
    hcleared.flushReplayNow.flushLoop answers hcleared.flushReplayNow_empty.1
  refine ⟨after, hloop, hbytes, hparts, hrefresh, fun hframe => ?_⟩
  rcases hafter with rfl | rfl
  · exact hcleared.flushReplayNow
  · exact (hcleared.flushReplayNow.flushNow hframe true).toCore

theorem Core.markRefresh (hopen : world.disposed = false) (data : Bytes) :
    Core options (world.markRefresh options data) :=
  h.refresh fun hdisp => absurd (hopen.symm.trans hdisp) Bool.false_ne_true

theorem Core.enqueue (hopen : world.disposed = false) (data : Bytes)
    (onConsumed : Bool) : Core options { world with
      queue := (world.queue.push data onConsumed).shedOldest options.maxPending } where
  __ := h
  queue := (h.queue.push data onConsumed).shedOldest options.maxPending
  filled _ := ((h.filled hopen).push data onConsumed).shedOldest options.maxPending
  replays := by
    refine ⟨h.replays.counted, h.replays.nonempty, h.replays.increasing, h.replays.first.leave ?_⟩
    intro position write hwrite
    rcases writeOf?_cases hwrite with hold | hnew
    · exact hold
    · cases hnew
  closed hdisp := absurd (hopen.symm.trans hdisp) Bool.false_ne_true

end

theorem Sound.enqueue (h : Sound options world) (hframe : answers.frame ≠ 0) (data : Bytes)
    (onConsumed : Bool) : Sound options (world.enqueue options answers data onConsumed) := by
  unfold World.enqueue
  split
  · exact h
  rename_i hdata
  obtain ⟨hopen, -⟩ := or_eq_false_iff.mp (not_eq_true _ ▸ hdata)
  refine ⟨((h.toCore.enqueue hopen data onConsumed).markRefresh hopen data).scheduleNext answers,
    fun _ _ => scheduleNext_scheduled hopen hframe⟩

theorem Sound.enqueueReplay (h : Sound options world) (data : Bytes) (onConsumed : Bool) :
    Sound options (world.enqueueReplay options data onConsumed) := by
  unfold World.enqueueReplay
  split
  · exact h
  rename_i hdata
  obtain ⟨hopen, hempty⟩ := or_eq_false_iff.mp (not_eq_true _ ▸ hdata)
  have hne : data ≠ [] := by simpa using hempty
  have hpushed : Core options { world with replays :=
      ⟨world.replays.replayParts ++ [⟨data, 0, onConsumed, world.replays.calls.length⟩],
        world.replays.replayBytes + data.length,
        world.replays.calls ++ [world.queue.enqueued.length]⟩ } :=
    ⟨h.queue, h.filled, h.replays.push h.queue hne onConsumed, fun _ => (h.complete hopen).push,
      h.acks, h.clock, fun hdisp => absurd (hopen.symm.trans hdisp) Bool.false_ne_true⟩
  exact ⟨hpushed.markRefresh hopen data, h.scheduled⟩

theorem drop_first (h : world.replays.First world.queue world.log) :
    world.replays.First world.queue.drop world.log := by
  refine h.leave fun position write hwrite => ?_
  rcases writeOf?_cases hwrite with hold | hnew
  · exact hold
  · cases hnew

section

variable (h : Sound options world)
include h

theorem Sound.discardPending : Sound options world.discardPending where
  queue := h.queue.discard
  filled _ := h.queue.discard_filled
  replays := ⟨h.replays.counted, h.replays.nonempty, h.replays.increasing,
    drop_first h.replays.first⟩
  complete := h.complete
  acks := h.acks
  clock := ⟨h.clock.clear.frame, h.clock.clear.micro⟩
  closed hdisp := ⟨rfl, (h.closed hdisp).2.1, (h.closed hdisp).2.2.1, rfl⟩
  scheduled _ hpend := absurd hpend (Nat.lt_irrefl 0)

theorem Sound.dispose : Sound options world.dispose where
  queue := h.queue.drop
  filled hopen := nomatch hopen
  replays := ⟨rfl, fun _ hpart => absurd hpart not_mem_nil, h.replays.increasing,
    drop_first h.replays.first⟩
  complete hopen := nomatch hopen
  acks := h.acks
  clock := ⟨h.clock.clear.frame, nofun⟩
  closed _ := ⟨rfl, rfl, rfl, rfl⟩
  scheduled hopen := nomatch hopen

theorem Sound.frameFired (hframe : answers.frame ≠ 0) {frames : List Nat} {lateFrames : Nat} :
    Sound options ({ world with clock := { world.clock with
      frames := frames, lateFrames := lateFrames } }.frameFired options answers) := by
  unfold World.frameFired
  split
  · rename_i hraf
    refine ⟨h.toCore.setClock ⟨fun hne => absurd hraf hne, h.clock.micro⟩, fun hopen hpend => ?_⟩
    exact h.scheduled hopen hpend
  · have hfired : Clock.Sound { world.clock with
        frames := frames, lateFrames := lateFrames, raf := 0 } world.disposed :=
      ⟨fun hraf => absurd rfl hraf, h.clock.micro⟩
    exact (h.toCore.setClock hfired.cancelFallback).flushNow hframe false

theorem Sound.fallbackFired (hframe : answers.frame ≠ 0)
    {fallbacks : List Nat} {lateFallbacks : Nat} :
    Sound options ({ world with clock := { world.clock with
      fallbacks := fallbacks, lateFallbacks := lateFallbacks } }.fallbackFired options answers) := by
  have hfired : Clock.Sound { world.clock with
      fallbacks := fallbacks, lateFallbacks := lateFallbacks, frameFallback := 0 }
      world.disposed := ⟨h.clock.frame, h.clock.micro⟩
  unfold World.fallbackFired
  dsimp only
  split
  · exact ⟨h.toCore.setClock hfired, h.scheduled⟩
  · exact (h.toCore.setClock hfired.cancelFrame).flushNow hframe false

theorem Sound.microtaskRun (hframe : answers.frame ≠ 0) {microtasks : Nat} :
    Sound options ({ world with clock := { world.clock with
      microtasks := microtasks } }.microtaskRun options answers) := by
  unfold World.microtaskRun
  split
  · rename_i hnone
    refine ⟨h.toCore.setClock ⟨h.clock.frame, fun hopen hmicro => ?_⟩, h.scheduled⟩
    have hopen' : world.disposed = false := hopen
    have hmicro' : world.clock.microScheduled = true := hmicro
    simp [hopen', hmicro'] at hnone
  · have hclock : Clock.Sound { world.clock with
        microtasks := microtasks, microScheduled := false } world.disposed :=
      ⟨h.clock.frame, nofun⟩
    dsimp only
    split
    · rename_i hraf
      exact ⟨h.toCore.setClock hclock, fun _ _ => .inl hraf⟩
    · exact (h.toCore.setClock hclock).flushNow hframe false

theorem Sound.parse (hparse : world.parse = some world') : Sound options world' := by
  obtain ⟨write, hwrite, heq⟩ := map_eq_some_iff.mp hparse
  split at heq
  · cases heq
    exact ⟨{ h with acks := h.acks.skip (List.getElem?_eq_some_iff.mp hwrite).1 }, h.scheduled⟩
  cases heq
  exact ⟨{ h with acks := h.acks.parse hwrite }, h.scheduled⟩

theorem Sound.flush (hframe : answers.frame ≠ 0) {fuel : Nat}
    (hfuel : 1 < fuel) (hflush : world.flush options answers fuel = some world') :
    Sound options world' := by
  obtain ⟨after, hafter, hbytes, -, -, hcore⟩ := h.toCore.flush answers
  cases Option.some.inj ((hafter fuel hfuel).symm.trans hflush)
  exact ⟨hcore hframe, fun _ hpend => absurd hbytes hpend.ne'⟩

end

end Steps

end World

def Numbered (_ : World) : Action → Prop
  | .enqueue _ _ answers | .flush answers | .frame _ answers | .lateFrame answers
  | .fallback _ answers | .lateFallback answers | .microtask answers => answers.frame ≠ 0
  | .enqueueReplay _ _ | .discardPending | .dispose | .parsed => True

namespace World

variable {options : Options} {world world' : World}

theorem Sound.step (h : Sound options world) {action : Action} (hnumbered : Numbered world action)
    (hstep : world.step options action = some world') : Sound options world' := by
  cases action with
  | enqueue data onConsumed answers =>
    cases hstep
    exact h.enqueue hnumbered data onConsumed
  | enqueueReplay data onConsumed =>
    cases hstep
    exact h.enqueueReplay data onConsumed
  | discardPending =>
    cases hstep
    exact h.discardPending
  | flush answers => exact h.flush hnumbered (by omega) hstep
  | dispose =>
    cases hstep
    exact h.dispose
  | frame id answers =>
    obtain ⟨-, hfired⟩ := ite_none_right_eq_some.mp hstep
    cases hfired
    exact h.frameFired hnumbered
  | lateFrame answers =>
    obtain ⟨-, hfired⟩ := ite_none_left_eq_some.mp hstep
    cases hfired
    exact h.frameFired hnumbered
  | fallback id answers =>
    obtain ⟨-, hfired⟩ := ite_none_right_eq_some.mp hstep
    cases hfired
    exact h.fallbackFired hnumbered
  | lateFallback answers =>
    obtain ⟨-, hfired⟩ := ite_none_left_eq_some.mp hstep
    cases hfired
    exact h.fallbackFired hnumbered
  | microtask answers =>
    obtain ⟨-, hrun⟩ := ite_none_left_eq_some.mp hstep
    cases hrun
    exact h.microtaskRun hnumbered
  | parsed => exact h.parse hstep

theorem Sound.exact (h : Sound options world) : world.Exact options where
  live := h.queue.live
  written := h.queue.written
  once := by
    refine ⟨?_, ?_⟩
    · have hsublist := h.acks.live.trans ((take_sublist _ _).flatMap Write.consumed)
      exact (pairwise_append.mp h.queue.numbered).1.sublist hsublist
    · refine h.replays.increasing.sublist (h.acks.replay.trans ?_)
      split
      · exact (take_sublist _ _).flatMap Write.replayed
      · exact .refl _
  safe number hnumber := by
    obtain ⟨write, hwrite, hmem⟩ := mem_flatMap.mp (h.acks.live.subset hnumber)
    obtain ⟨index, hindex⟩ := mem_iff_getElem?.mp hwrite
    rw [getElem?_take] at hindex
    obtain ⟨hlt, hlog⟩ := ite_none_right_eq_some.mp hindex
    obtain ⟨call, hcall, hwrites⟩ := h.queue.held index write hlog number hmem
    refine ⟨call, hcall, fun position hfrom hto => ?_⟩
    obtain ⟨earlier, hearlier, hle⟩ := hwrites position hfrom hto
    exact ⟨earlier, hearlier, lt_of_le_of_lt hle hlt⟩
  replaySafe number hnumber := by
    obtain ⟨write, hwrite, hmem⟩ := mem_flatMap.mp (h.acks.replay.subset hnumber)
    obtain ⟨index, hindex⟩ := mem_iff_getElem?.mp hwrite
    split at hindex
    · rw [getElem?_take] at hindex
      obtain ⟨hlt, hlog⟩ := ite_none_right_eq_some.mp hindex
      exact ⟨index, write, hlog, hmem, fun _ => hlt⟩
    · rename_i hoption
      exact ⟨index, write, hindex, hmem, fun hgiven => absurd hgiven hoption⟩
  replayFirst := h.replays.first
  scheduled hopen hpend := by
    have hclock := h.clock
    rw [hopen] at hclock
    exact hclock.armed (h.scheduled hopen hpend)
  flushes answers := by
    obtain ⟨after, hflush, hbytes, hparts, hrefresh, -⟩ := h.toCore.flush answers
    exact ⟨after, hflush, hbytes, hparts, hrefresh⟩

end World

/-- In every run, whatever fires late, the writer is exact. -/
theorem output_exact {options : Options} {world : World}
    (hrun : (outputSystem options).Run Numbered world) : world.Exact options :=
  World.Sound.exact <| hrun.invariant
    (fun _ hinitial => hinitial ▸ World.sound_create)
    fun _ _ _ hsound hnumbered hstep => World.Sound.step hsound hnumbered hstep

def defaultOptions : Options where
  writeReplay := true
  refreshAfterPaint := false
  maxPending := 512 * 1024
  maxPerFlush := none
  interactiveMax := 256
  maxPerFlush_ne_zero heq := nomatch heq

theorem output_exact_parsed : ∃ world, (outputSystem defaultOptions).Run Numbered world ∧
    world.acknowledged = [0] ∧ world.Exact defaultOptions := by
  have hrun : ∃ world, (outputSystem defaultOptions).Run Numbered world ∧
      world.acknowledged = [0] := by
    have hcreate : (outputSystem defaultOptions).Run Numbered World.create := .start rfl
    have henq := hcreate.next (a := Action.enqueue [97] true ⟨true, 1, 1⟩) Nat.one_ne_zero rfl
    have hflush := henq.next (a := Action.flush ⟨true, 1, 1⟩) Nat.one_ne_zero rfl
    exact ⟨_, hflush.next (a := Action.parsed) trivial rfl, rfl⟩
  obtain ⟨world, hworld, hacknowledged⟩ := hrun
  exact ⟨world, hworld, hacknowledged, output_exact hworld⟩

/-- A replayed part is acknowledged when the live bytes before it, since the
last discarding, are parsed. -/
def World.Cumulative (world : World) : Prop :=
  ∀ number ∈ world.acknowledgedReplay, ∀ before, world.replays.calls[number]? = some before →
    ∀ position, world.queue.base ≤ position → position < before →
      ∃ write, writeOf? world.queue.passed position = some write ∧ write < world.parsed

/-- A replayed part overtakes the live bytes that wait. -/
theorem replay_overtakes : ¬ ∀ world, (outputSystem defaultOptions).Run Numbered world →
    world.Exact defaultOptions ∧ world.Cumulative := by
  intro h
  have hcreate : (outputSystem defaultOptions).Run Numbered World.create := .start rfl
  have henq := hcreate.next (a := Action.enqueue [97] true ⟨true, 1, 1⟩) Nat.one_ne_zero rfl
  have hrpl := henq.next (a := Action.enqueueReplay [98] true) trivial rfl
  have hflush := hrpl.next (a := Action.flush ⟨true, 1, 1⟩) Nat.one_ne_zero rfl
  have hparsed := hflush.next (a := Action.parsed) trivial rfl
  obtain ⟨write, hwrite, hlt⟩ := (h _ hparsed).2 0 mem_cons_self 1 rfl 0 (Nat.le_refl 0) Nat.one_pos
  cases hwrite
  exact absurd hlt (by decide)

end Yaade.Panels.OutputWriter

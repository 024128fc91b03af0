import Yaade.Panels.OutputWriter

/-!
The queue of live bytes: what is taken from it and what is shed, and the
invariant that ties its bytes and parts to the writes.
-/

namespace Yaade.Panels.OutputWriter

open Option List

/-! ## What is taken from the queue and shed -/

def Placed (calls : List (Nat × Nat)) (base : Nat) : Nat → List PendingPart → Prop
  | _, [] => True
  | start, part :: rest =>
    calls[part.number]? = some (base, start + part.available) ∧
      Placed calls base (start + part.available) rest

section Parts

variable {calls : List (Nat × Nat)} {base start : Nat} {parts : List PendingPart}
  {limit : Option Nat} {maxPending : Nat}

@[simp] theorem remaining_length (part : PendingPart) : part.remaining.length = part.available :=
  length_drop

@[simp] theorem remainingBytes_nil : remainingBytes [] = [] := rfl

@[simp] theorem remainingBytes_cons (part : PendingPart) :
    remainingBytes (part :: parts) = part.remaining ++ remainingBytes parts := rfl

theorem Placed.advance {part : PendingPart} {count : Nat} {onConsumed : Bool}
    (hcount : count ≤ part.available) (h : Placed calls base start (part :: parts)) :
    Placed calls base (start + count)
      ({ part with offset := part.offset + count, onConsumed := onConsumed } :: parts) := by
  have hend : start + count +
      PendingPart.available { part with
        offset := part.offset + count, onConsumed := onConsumed } = start + part.available := by
    unfold PendingPart.available at hcount ⊢
    dsimp only
    omega
  rw [Placed, hend]
  exact h

theorem remaining_advance (part : PendingPart) (count : Nat) (onConsumed : Bool) :
    PendingPart.remaining { part with offset := part.offset + count, onConsumed := onConsumed } =
      part.remaining.drop count := drop_drop.symm

theorem takeParts_data (parts : List PendingPart) (limit : Option Nat) :
    remainingBytes parts = (takeParts parts limit).data ++
      remainingBytes (takeParts parts limit).left := by
  fun_induction takeParts parts limit with
  | case1 => rfl
  | case2 => rfl
  | case3 head rest limit hlimit count view hwhole taken ih =>
    have hview : view = head.remaining := by
      refine take_of_length_le ?_
      rw [remaining_length, hwhole]
    rw [remainingBytes_cons, ih, hview, append_assoc]
  | case4 head rest limit hlimit count view hpart =>
    have hrest : PendingPart.remaining { head with offset := head.offset + count } =
        head.remaining.drop count := remaining_advance head count head.onConsumed
    rw [remainingBytes_cons, remainingBytes_cons, hrest, ← append_assoc, take_append_drop]

theorem takeParts_numbers (parts : List PendingPart) (limit : Option Nat) :
    parts.map PendingPart.number = (takeParts parts limit).completed.map PendingPart.number ++
      (takeParts parts limit).left.map PendingPart.number := by
  fun_induction takeParts parts limit with
  | case1 => rfl
  | case2 => rfl
  | case3 head rest limit hlimit count view hwhole taken ih =>
    rw [map_cons, ih]
    rfl
  | case4 => rfl

theorem takeParts_placed (limit : Option Nat) : ∀ {start : Nat}, Placed calls base start parts →
    Placed calls base (start + (takeParts parts limit).data.length)
        (takeParts parts limit).left ∧
      ∀ part ∈ (takeParts parts limit).completed, ∃ last, calls[part.number]? = some (base, last) ∧
        last ≤ start + (takeParts parts limit).data.length := by
  fun_induction takeParts parts limit with
  | case1 => exact fun h => ⟨h, fun _ hpart => absurd hpart not_mem_nil⟩
  | case2 => exact fun h => ⟨h, fun _ hpart => absurd hpart not_mem_nil⟩
  | case3 head rest limit hlimit count view hwhole taken =>
    rename_i ih
    rintro start ⟨hhead, hrest⟩
    have hview : view.length = head.available := by
      rw [length_take, remaining_length, hwhole, min_self]
    obtain ⟨hleft, hcompl⟩ := ih hrest
    rw [length_append, hview, ← Nat.add_assoc]
    exact ⟨hleft, forall_mem_cons.mpr ⟨⟨_, hhead, Nat.le_add_right _ _⟩, hcompl⟩⟩
  | case4 head rest limit hlimit count view =>
    intro start h
    have hcount : count ≤ head.available := min_le_left _ _
    have hview : view.length = count := by
      rw [length_take, remaining_length, min_eq_left hcount]
    rw [hview]
    exact ⟨h.advance hcount, fun _ hpart => absurd hpart not_mem_nil⟩

theorem takeParts_unlimited : (takeParts parts none).left = [] := by
  induction parts with
  | nil => rfl
  | cons head rest ih => simpa [takeParts] using ih

theorem takeParts_ne_nil (hlimit : limit ≠ some 0) (hparts : remainingBytes parts ≠ []) :
    (takeParts parts limit).data ≠ [] := by
  fun_induction takeParts parts limit with
  | case1 => exact absurd rfl hparts
  | case2 => contradiction
  | case3 head rest limit _ count view hwhole taken ih =>
    intro hdata
    obtain ⟨hview, hrest⟩ := append_eq_nil_iff.mp hdata
    have hempty : head.remaining = [] := by
      have htake : head.remaining.take count = head.remaining := by
        refine take_of_length_le ?_
        rw [remaining_length, hwhole]
      exact htake ▸ hview
    have hcount : count = 0 := by
      rw [hwhole, ← remaining_length, hempty]
      rfl
    refine ih ?_ ?_ hrest
    · rw [hcount]
      simpa using hlimit
    · rw [remainingBytes_cons, hempty] at hparts
      exact hparts
  | case4 head rest limit _ count view hpart =>
    intro hview
    have hlength := congrArg List.length hview
    have hcount : count ≤ head.available := min_le_left _ _
    rw [length_take, remaining_length, min_eq_left hcount, length_nil] at hlength
    cases limit with
    | none => exact hpart (by simp [count])
    | some limit =>
      have hmin : count = min head.available limit := rfl
      have hpositive : limit ≠ 0 := fun hzero => hlimit (congrArg some hzero)
      omega

/-- The oldest bytes are gone, and the parts of what is left end where they did. -/
structure Sheds (calls : List (Nat × Nat)) (base : Nat) (parts : List PendingPart)
    (shed : List PendingPart × Nat) (front : Bytes) : Prop where
  data : remainingBytes parts = front ++ remainingBytes shed.1
  counted : shed.2 = (remainingBytes shed.1).length
  placed : ∀ start, Placed calls base start parts →
    Placed calls base (start + front.length) shed.1
  numbers : (shed.1.map PendingPart.number).Sublist (parts.map PendingPart.number)

theorem Sheds.refl : Sheds calls base parts (parts, (remainingBytes parts).length) [] where
  data := rfl
  counted := rfl
  placed _ h := h
  numbers := .refl _

theorem Sheds.trans {first second : List PendingPart × Nat} {front next : Bytes}
    (h : Sheds calls base parts first front) (hnext : Sheds calls base first.1 second next) :
    Sheds calls base parts second (front ++ next) where
  data := by rw [h.data, hnext.data, append_assoc]
  counted := hnext.counted
  placed start hplaced := by
    rw [length_append, ← Nat.add_assoc]
    exact hnext.placed _ (h.placed start hplaced)
  numbers := hnext.numbers.trans h.numbers

theorem dropOldest_sheds : ∃ front, Sheds calls base parts
    (dropOldest maxPending parts (remainingBytes parts).length) front := by
  induction parts with
  | nil => exact ⟨[], Sheds.refl⟩
  | cons first rest ih =>
    cases rest with
    | nil => exact ⟨[], Sheds.refl⟩
    | cons second rest =>
      rw [dropOldest]
      split
      · have hbytes : (remainingBytes (first :: second :: rest)).length - first.available =
            (remainingBytes (second :: rest)).length := by
          rw [remainingBytes_cons, length_append, remaining_length, Nat.add_sub_cancel_left]
        rw [hbytes]
        obtain ⟨front, hfront⟩ := ih
        have hfirst : Sheds calls base (first :: second :: rest)
            (second :: rest, (remainingBytes (second :: rest)).length) first.remaining := by
          refine ⟨rfl, rfl, fun start hplaced => ?_, sublist_cons_self _ _⟩
          rw [remaining_length]
          exact hplaced.2
        exact ⟨first.remaining ++ front, hfirst.trans hfront⟩
      · exact ⟨[], Sheds.refl⟩

theorem trimOldest_sheds : ∃ front, Sheds calls base parts
    (trimOldest maxPending parts (remainingBytes parts).length) front := by
  match parts with
  | [] => exact ⟨[], Sheds.refl⟩
  | first :: second :: rest => exact ⟨[], Sheds.refl⟩
  | [only] =>
    rw [trimOldest]
    split
    · rename_i hover
      rw [remainingBytes_cons, remainingBytes_nil, append_nil, remaining_length] at hover
      have hrest := remaining_advance only (only.available - maxPending) false
      refine ⟨only.remaining.take (only.available - maxPending), ?_, ?_, fun start hplaced => ?_,
        .refl _⟩
      · rw [remainingBytes_cons, remainingBytes_cons, hrest]
        simp
      · rw [remainingBytes_cons, hrest, remainingBytes_nil, append_nil, length_drop,
          remaining_length]
        omega
      · rw [length_take, remaining_length, min_eq_left (Nat.sub_le _ _)]
        exact hplaced.advance (Nat.sub_le _ _)
    · exact ⟨[], Sheds.refl⟩

theorem shed_sheds : ∃ front, Sheds calls base parts
    (trimOldest maxPending (dropOldest maxPending parts (remainingBytes parts).length).1
      (dropOldest maxPending parts (remainingBytes parts).length).2) front := by
  obtain ⟨front, hdrop⟩ : ∃ front, Sheds calls base parts
      (dropOldest maxPending parts (remainingBytes parts).length) front := dropOldest_sheds
  rw [hdrop.counted]
  obtain ⟨next, htrim⟩ := trimOldest_sheds
  exact ⟨front ++ next, hdrop.trans htrim⟩

theorem shed_none {bytes : Nat} (hbytes : ¬ maxPending < bytes) :
    trimOldest maxPending (dropOldest maxPending parts bytes).1
      (dropOldest maxPending parts bytes).2 = (parts, bytes) := by
  have hdrop : dropOldest maxPending parts bytes = (parts, bytes) := by
    match parts with
    | [] => rfl
    | [only] => rfl
    | first :: second :: rest => exact if_neg hbytes
  rw [hdrop]
  match parts with
  | [] => rfl
  | first :: second :: rest => rfl
  | [only] => exact if_neg hbytes

theorem Placed.weaken {more : List (Nat × Nat)} (h : Placed calls base start parts) :
    Placed (calls ++ more) base start parts := by
  induction parts generalizing start with
  | nil => exact h
  | cons part rest ih =>
    exact ⟨getElem?_append_left (List.getElem?_eq_some_iff.mp h.1).1 ▸ h.1, ih h.2⟩

theorem Placed.concat {part : PendingPart} (h : Placed calls base start parts)
    (hpart : calls[part.number]? =
      some (base, start + (remainingBytes parts).length + part.available)) :
    Placed calls base start (parts ++ [part]) := by
  induction parts generalizing start with
  | nil => exact ⟨hpart, trivial⟩
  | cons first rest ih =>
    refine ⟨h.1, ih h.2 ?_⟩
    rw [remainingBytes_cons, length_append, remaining_length, ← Nat.add_assoc] at hpart
    exact hpart

end Parts

/-! ## The invariant of the queue -/

section Fates

variable {passed more : List (UInt8 × Fate)} {position write : Nat} {data : Bytes}

theorem writeOf?_append (h : writeOf? passed position = some write) :
    writeOf? (passed ++ more) position = some write := by
  obtain ⟨entry, hentry, hwrite⟩ := bind_eq_some_iff.mp h
  rw [writeOf?, getElem?_append_left (List.getElem?_eq_some_iff.mp hentry).1, hentry]
  exact hwrite

theorem writeOf?_written (hfrom : passed.length ≤ position)
    (hto : position < passed.length + data.length) :
    writeOf? (passed ++ data.map (·, .written write)) position = some write := by
  rw [writeOf?, getElem?_append_right hfrom, getElem?_map, getElem?_eq_getElem (by omega)]
  rfl

theorem writeOf?_lt (h : writeOf? passed position = some write) : position < passed.length := by
  obtain ⟨entry, hentry, -⟩ := bind_eq_some_iff.mp h
  exact (List.getElem?_eq_some_iff.mp hentry).1

theorem writeOf?_cases {fate : Fate} (h : writeOf? (passed ++ data.map (·, fate)) position = some write) :
    writeOf? passed position = some write ∨ fate = .written write := by
  obtain ⟨entry, hentry, hwrite⟩ := bind_eq_some_iff.mp h
  rw [getElem?_append] at hentry
  split at hentry
  · left
    rw [writeOf?, hentry]
    exact hwrite
  right
  rw [getElem?_map] at hentry
  obtain ⟨byte, -, rfl⟩ := map_eq_some_iff.mp hentry
  cases fate with
  | written other =>
    cases hwrite
    rfl
  | shed | discarded => cases hwrite

@[simp] theorem writtenBytes_append :
    writtenBytes (passed ++ more) = writtenBytes passed ++ writtenBytes more :=
  filterMap_append

@[simp] theorem writtenBytes_written : writtenBytes (data.map (·, .written write)) = data := by
  simp [writtenBytes, filterMap_map]

@[simp] theorem writtenBytes_shed : writtenBytes (data.map (·, .shed)) = [] := by
  simp [writtenBytes, filterMap_map]

@[simp] theorem writtenBytes_discarded : writtenBytes (data.map (·, .discarded)) = [] := by
  simp [writtenBytes, filterMap_map]

end Fates

namespace Queue

/-- All live bytes since the last discarding up to the end of a part are in the
writes up to this one. -/
def Held (queue : Queue) (number write : Nat) : Prop :=
  ∃ call, queue.calls[number]? = some call ∧
    ∀ position, call.1 ≤ position → position < call.2 →
      ∃ earlier, writeOf? queue.passed position = some earlier ∧ earlier ≤ write

structure Sound (queue : Queue) (log : List Write) : Prop where
  counted : queue.pendingBytes = (remainingBytes queue.pendingParts).length
  live : queue.enqueued = queue.passed.map Prod.fst ++ remainingBytes queue.pendingParts
  written : liveBytes log = writtenBytes queue.passed
  placed : Placed queue.calls queue.base queue.passed.length queue.pendingParts
  numbered : (log.flatMap Write.consumed ++
    queue.pendingParts.map PendingPart.number).Pairwise (· < ·)
  bounded : ∀ number ∈ log.flatMap Write.consumed ++ queue.pendingParts.map PendingPart.number,
    number < queue.calls.length
  held : ∀ index write, log[index]? = some write →
    ∀ number ∈ write.consumed, queue.Held number index
  known : ∀ position write, writeOf? queue.passed position = some write → write < log.length

/-- Without a gap all bytes since the last discarding that left the queue are in a write. -/
def Filled (queue : Queue) : Prop :=
  queue.gapDetected = false → ∀ position, queue.base ≤ position → position < queue.passed.length →
    ∃ write, writeOf? queue.passed position = some write

section Operations

variable {queue : Queue} {log : List Write} {options : Options}

theorem Held.mono {queue' : Queue} {number write : Nat} (h : queue.Held number write)
    {calls : List (Nat × Nat)} {passed : List (UInt8 × Fate)}
    (hcalls : queue'.calls = queue.calls ++ calls) (hpassed : queue'.passed = queue.passed ++ passed) :
    queue'.Held number write := by
  obtain ⟨call, hcall, hwrites⟩ := h
  refine ⟨call, ?_, fun position hfrom hto => ?_⟩
  · rw [hcalls, getElem?_append_left (List.getElem?_eq_some_iff.mp hcall).1, hcall]
  · obtain ⟨earlier, hwrite, hle⟩ := hwrites position hfrom hto
    exact ⟨earlier, hpassed ▸ writeOf?_append hwrite, hle⟩

section

variable (h : Sound queue log)
include h

theorem Sound.enqueued_length :
    queue.enqueued.length = queue.passed.length + (remainingBytes queue.pendingParts).length := by
  rw [h.live, length_append, length_map]

theorem Sound.push (data : Bytes) (onConsumed : Bool) :
    Sound (queue.push data onConsumed) log where
  counted := by
    simp [Queue.push, remainingBytes, PendingPart.remaining, h.counted]
  live := by
    simp [Queue.push, remainingBytes, PendingPart.remaining, h.live]
  written := h.written
  placed := by
    refine h.placed.weaken.concat ?_
    rw [getElem?_concat_length, h.enqueued_length]
    rfl
  numbered := by
    rw [Queue.push, map_append, ← append_assoc]
    refine pairwise_append.mpr ⟨h.numbered, pairwise_singleton _ _, ?_⟩
    intro number hnumber last hlast
    rw [mem_singleton.mp hlast]
    exact h.bounded number hnumber
  bounded number hnumber := by
    rw [Queue.push, map_append, ← append_assoc] at hnumber
    rw [Queue.push, length_append]
    rcases mem_append.mp hnumber with hold | hnew
    · exact Nat.lt_add_right 1 (h.bounded number hold)
    · rw [mem_singleton.mp hnew]
      exact Nat.lt_succ_self _
  held index write hwrite number hnumber :=
    (h.held index write hwrite number hnumber).mono rfl (append_nil _).symm
  known := h.known

theorem Sound.leave {front : Bytes} {fate : Fate} {parts : List PendingPart}
    {bytes : Nat} {gap : Bool} (hfate : ∀ write, fate ≠ .written write)
    (hsheds : Sheds queue.calls queue.base queue.pendingParts (parts, bytes) front) :
    Sound { queue with
      pendingParts := parts
      pendingBytes := bytes
      gapDetected := gap
      passed := queue.passed ++ front.map (·, fate) } log where
  counted := hsheds.counted
  live := by
    have hfst : (front.map fun byte => (byte, fate)).map Prod.fst = front := by
      simp [Function.comp_def]
    dsimp only
    rw [h.live, hsheds.data, map_append, hfst, append_assoc]
  written := by
    have hnone : writtenBytes (front.map (·, fate)) = [] := by
      cases fate with
      | written write => exact absurd rfl (hfate write)
      | shed => exact writtenBytes_shed
      | discarded => exact writtenBytes_discarded
    rw [writtenBytes_append, hnone, append_nil]
    exact h.written
  placed := by
    dsimp only
    rw [length_append, length_map]
    exact hsheds.placed _ h.placed
  numbered := h.numbered.sublist ((List.Sublist.refl _).append hsheds.numbers)
  bounded number hnumber :=
    h.bounded number (((List.Sublist.refl _).append hsheds.numbers).subset hnumber)
  held index write hwrite number hnumber :=
    (h.held index write hwrite number hnumber).mono (append_nil _).symm rfl
  known position write hwrite := by
    rcases writeOf?_cases hwrite with hold | hnew
    · exact h.known position write hold
    · exact absurd hnew (hfate write)

theorem Sound.shedOldest (maxPending : Nat) :
    Sound (queue.shedOldest maxPending) log := by
  obtain ⟨front, hsheds⟩ : ∃ front, Sheds queue.calls queue.base queue.pendingParts
      (trimOldest maxPending (dropOldest maxPending queue.pendingParts queue.pendingBytes).1
        (dropOldest maxPending queue.pendingParts queue.pendingBytes).2) front := by
    rw [h.counted]
    exact shed_sheds
  unfold Queue.shedOldest
  dsimp only
  generalize trimOldest maxPending
    (dropOldest maxPending queue.pendingParts queue.pendingBytes).1
    (dropOldest maxPending queue.pendingParts queue.pendingBytes).2 = shed at hsheds ⊢
  have hfront : (remainingBytes queue.pendingParts).take (queue.pendingBytes - shed.2) = front := by
    rw [h.counted, hsheds.counted, hsheds.data, length_append, Nat.add_sub_cancel, take_left]
  rw [hfront]
  exact h.leave (nofun) hsheds

end

theorem Filled.push (h : Filled queue) (data : Bytes) (onConsumed : Bool) :
    Filled (queue.push data onConsumed) := h

theorem Filled.shedOldest (h : Filled queue) (maxPending : Nat) :
    Filled (queue.shedOldest maxPending) := by
  intro hopen
  obtain ⟨hnogap, hless⟩ := Bool.or_eq_false_iff.mp hopen
  have hnone : trimOldest maxPending
      (dropOldest maxPending queue.pendingParts queue.pendingBytes).1
      (dropOldest maxPending queue.pendingParts queue.pendingBytes).2 =
      (queue.pendingParts, queue.pendingBytes) := shed_none (of_decide_eq_false hless)
  unfold Queue.shedOldest
  dsimp only
  rw [hnone, Nat.sub_self, take_zero, map_nil, append_nil]
  exact h hnogap

section

variable (h : Sound queue log)
include h

theorem Sound.drop : Sound queue.drop log :=
  h.leave (nofun)
    ⟨(append_nil _).symm, rfl, fun _ _ => trivial, nil_sublist _⟩

theorem Sound.discard : Sound queue.discard log :=
  have hdrop := h.drop
  { hdrop with placed := trivial }

theorem Sound.discard_filled : Filled queue.discard := by
  intro _ position hfrom hto
  have hlength : queue.discard.passed.length = queue.enqueued.length := by
    rw [Queue.discard, Queue.drop, length_append, length_map, h.enqueued_length]
  have hbase : queue.discard.base = queue.enqueued.length := rfl
  omega

theorem Sound.replay {writes : List Write}
    (hlive : ∀ write ∈ writes, write.live = false)
    (hconsumed : ∀ write ∈ writes, write.consumed = []) :
    Sound queue (log ++ writes) := by
  have hnone : writes.flatMap Write.consumed = [] := flatMap_eq_nil_iff.mpr hconsumed
  have hall : (log ++ writes).flatMap Write.consumed = log.flatMap Write.consumed := by
    rw [flatMap_append, hnone, append_nil]
  refine ⟨h.counted, h.live, ?_, h.placed, hall ▸ h.numbered, hall ▸ h.bounded, ?_, ?_⟩
  · have hdead : writes.filter Write.live = [] :=
      filter_eq_nil_iff.mpr fun write hwrite => by simp [hlive write hwrite]
    rw [liveBytes, filter_append, hdead, append_nil]
    exact h.written
  · intro index write hwrite number hnumber
    rw [getElem?_append] at hwrite
    split at hwrite
    · exact h.held index write hwrite number hnumber
    · rw [hconsumed write (mem_of_getElem? hwrite)] at hnumber
      cases hnumber
  · intro position write hwrite
    rw [length_append]
    exact Nat.lt_add_right _ (h.known position write hwrite)

end

theorem consumed_sublist {limit : Option Nat} : (queue.consumed limit).Sublist
    ((takeParts queue.pendingParts limit).completed.map PendingPart.number) := by
  unfold Queue.consumed
  split
  · exact nil_sublist _
  · exact filter_sublist.map _

theorem taken_numbers (limit : Option Nat) :
    (queue.consumed limit ++ (takeParts queue.pendingParts limit).left.map PendingPart.number).Sublist
      (queue.pendingParts.map PendingPart.number) :=
  takeParts_numbers queue.pendingParts limit ▸ consumed_sublist.append (.refl _)

theorem Sound.held_consumed (h : Sound queue log) (hfilled : Filled queue) {limit : Option Nat}
    {number : Nat} (hnumber : number ∈ queue.consumed limit) :
    (queue.takePending limit log.length).Held number log.length := by
  obtain ⟨-, hcompl⟩ := takeParts_placed limit h.placed
  have hnogap : queue.gapDetected = false := by
    by_contra hgap
    simp [Queue.consumed, Bool.not_eq_false _ ▸ hgap] at hnumber
  obtain ⟨part, hpart, rfl⟩ := List.mem_map.mp (consumed_sublist.subset hnumber)
  obtain ⟨last, hcall, hlast⟩ := hcompl part hpart
  refine ⟨_, hcall, fun position hfrom hto => ?_⟩
  by_cases hposn : position < queue.passed.length
  · obtain ⟨write, hwrite⟩ := hfilled hnogap position hfrom hposn
    exact ⟨write, writeOf?_append hwrite, (h.known position write hwrite).le⟩
  have hend : position < queue.passed.length +
      (takeParts queue.pendingParts limit).data.length := lt_of_lt_of_le hto hlast
  exact ⟨log.length, writeOf?_written (Nat.not_lt.mp hposn) hend, le_rfl⟩

/-- What is taken goes into the next write. -/
theorem Sound.take (h : Sound queue log) (hfilled : Filled queue) (limit : Option Nat) :
    Sound (queue.takePending limit log.length)
      (log ++ [Write.mk true (takeParts queue.pendingParts limit).data [] (queue.consumed limit) []]) := by
  have hdata := takeParts_data queue.pendingParts limit
  have hnumbers : (log ++ [Write.mk true (takeParts queue.pendingParts limit).data []
        (queue.consumed limit) []]).flatMap Write.consumed ++
      (queue.takePending limit log.length).pendingParts.map PendingPart.number =
      log.flatMap Write.consumed ++ (queue.consumed limit ++
        (takeParts queue.pendingParts limit).left.map PendingPart.number) := by
    simp [Queue.takePending]
  have hsublist := (List.Sublist.refl (log.flatMap Write.consumed)).append
    (@taken_numbers queue limit)
  refine ⟨?_, ?_, ?_, ?_, ?_, ?_, ?_, ?_⟩
  · have hlength := congrArg List.length hdata
    rw [length_append] at hlength
    have hcounted := h.counted
    simp only [Queue.takePending]
    omega
  · simp only [Queue.takePending, map_append, List.map_map, Function.comp_def, List.map_id']
    rw [h.live, hdata, append_assoc]
  · simp only [Queue.takePending, writtenBytes_append, writtenBytes_written, ← h.written]
    simp [liveBytes]
  · have hplaced := (takeParts_placed limit h.placed).1
    simp only [Queue.takePending, length_append, length_map]
    exact hplaced
  · rw [hnumbers]
    exact h.numbered.sublist hsublist
  · rw [hnumbers]
    exact fun number hnumber => h.bounded number (hsublist.subset hnumber)
  · intro index write hwrite number hnumber
    rw [getElem?_append] at hwrite
    split at hwrite
    · exact (h.held index write hwrite number hnumber).mono (append_nil _).symm rfl
    rename_i hlength
    have hindex : index = log.length := by
      have hbound := (List.getElem?_eq_some_iff.mp hwrite).1
      rw [length_singleton] at hbound
      omega
    rw [hindex, Nat.sub_self] at hwrite
    cases hwrite
    rw [hindex]
    exact h.held_consumed hfilled hnumber
  · intro position write hwrite
    rw [length_append, length_singleton]
    rcases writeOf?_cases hwrite with hold | hnew
    · exact Nat.lt_succ_of_lt (h.known position write hold)
    · cases hnew
      exact Nat.lt_succ_self _

theorem Filled.take (h : Filled queue) (limit : Option Nat) (write : Nat) :
    Filled (queue.takePending limit write) := by
  intro hopen position hfrom hto
  by_cases hposn : position < queue.passed.length
  · obtain ⟨earlier, hearlier⟩ := h hopen position hfrom hposn
    exact ⟨earlier, writeOf?_append hearlier⟩
  · simp only [Queue.takePending, length_append, length_map] at hto
    exact ⟨write, writeOf?_written (Nat.not_lt.mp hposn) hto⟩

theorem Sound.skip (h : Sound queue log) {limit : Option Nat} {write : Nat}
    (hempty : (takeParts queue.pendingParts limit).data = []) :
    Sound (queue.takePending limit write) log := by
  have hdata := takeParts_data queue.pendingParts limit
  have hplaced := (takeParts_placed limit h.placed).1
  rw [hempty, nil_append] at hdata
  rw [hempty, length_nil, Nat.add_zero] at hplaced
  have hnumbers : ((takeParts queue.pendingParts limit).left.map PendingPart.number).Sublist
      (queue.pendingParts.map PendingPart.number) :=
    (sublist_append_right _ _).trans (taken_numbers limit)
  simp only [Queue.takePending, hempty, map_nil, append_nil, length_nil, Nat.sub_zero]
  exact ⟨hdata ▸ h.counted, hdata ▸ h.live, h.written, hplaced,
    h.numbered.sublist ((List.Sublist.refl _).append hnumbers),
    fun number hnumber =>
      h.bounded number (((List.Sublist.refl _).append hnumbers).subset hnumber),
    h.held, h.known⟩

end Operations

end Queue

end Yaade.Panels.OutputWriter

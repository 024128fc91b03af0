import Yaade.Library.Transition
import Yaade.Library.Utf16

/-!
The writer of a panel's input.
-/

namespace Yaade.Panels.InputWriter

open Yaade.Library Option List

inductive PendingInput where
  | text (data : Utf16.Units)
  | binary (data : Utf16.Units)
  deriving DecidableEq

def maxInputChunk : Nat := 64 * 1024

def slices (size : Nat) (data : Utf16.Units) : List Utf16.Units :=
  if _h : size = 0 ∨ data = [] then []
  else data.take size :: slices size (data.drop size)
termination_by data.length
decreasing_by
  have hlength : data.length ≠ 0 := fun hzero => _h (.inr (length_eq_zero_iff.mp hzero))
  rw [length_drop]
  omega

def PendingInput.chunks : PendingInput → List PendingInput
  | .text data => (slices maxInputChunk data).map .text
  | .binary data => (slices (max 1 data.length) data).map .binary

inductive Stage where
  | waiting
  | running
  | settled
  deriving DecidableEq

/-- A link of the promise tail. -/
structure Job where
  chunk : PendingInput
  stage : Stage
  deriving DecidableEq

/-- The writer, the microtasks it queued and its promise tail. `enqueued` is all
that it took in, and `flushed` what of it the last flush had before it. -/
structure World where
  writeBinary : Bool
  pending : List PendingInput
  scheduled : Bool
  microtasks : Nat
  disposed : Bool
  jobs : List Job
  errors : Nat
  enqueued : List PendingInput
  flushed : List PendingInput
  deriving DecidableEq

inductive Action where
  | enqueue (data : Utf16.Units)
  | enqueueBinary (data : Utf16.Units)
  | flush
  | microtask
  | dispose
  | start (index : Nat)
  | settle (index : Nat) (failed : Bool)
  deriving DecidableEq

def addText (data : Utf16.Units) : List PendingInput → List PendingInput
  | [] => [.text data]
  | [.text last] => [.text (last ++ data)]
  | input :: rest => input :: addText data rest

namespace World

def create (writeBinary : Bool) : World where
  writeBinary := writeBinary
  pending := []
  scheduled := false
  microtasks := 0
  disposed := false
  jobs := []
  errors := 0
  enqueued := []
  flushed := []

def schedule (world : World) : World :=
  if world.scheduled then world
  else { world with scheduled := true, microtasks := world.microtasks + 1 }

def enqueue (world : World) (data : Utf16.Units) : World :=
  if world.disposed || data.isEmpty then world
  else schedule { world with
    pending := addText data world.pending
    enqueued := world.enqueued ++ [.text data] }

def enqueueBinary (world : World) (data : Utf16.Units) : World :=
  if world.disposed || data.isEmpty || !world.writeBinary then world
  else schedule { world with
    pending := world.pending ++ [.binary data]
    enqueued := world.enqueued ++ [.binary data] }

def flush (world : World) : World :=
  let world := { world with scheduled := false }
  if world.disposed || world.pending.isEmpty then world
  else { world with
    pending := []
    jobs := world.jobs ++ (world.pending.flatMap PendingInput.chunks).map (Job.mk · .waiting)
    flushed := world.enqueued }

def dispose (world : World) : World := { world with disposed := true, pending := [] }

def stage? (world : World) (index : Nat) : Option Stage := world.jobs[index]?.map Job.stage

def resolved (world : World) : Nat → Bool
  | 0 => true
  | index + 1 => world.stage? index == some .settled

def setStage (world : World) (index : Nat) (stage : Stage) : World :=
  { world with jobs := world.jobs.modify index fun job => { job with stage := stage } }

def step (world : World) : Action → Option World
  | .enqueue data => some (world.enqueue data)
  | .enqueueBinary data => some (world.enqueueBinary data)
  | .flush => some world.flush
  | .microtask =>
    if world.microtasks = 0 then none
    else some { world with microtasks := world.microtasks - 1 }.flush
  | .dispose => some world.dispose
  | .start index =>
    if world.stage? index = some .waiting ∧ world.resolved index then
      some (world.setStage index .running)
    else none
  | .settle index failed =>
    if world.stage? index = some .running then
      some { world.setStage index .settled with errors := world.errors + failed.toNat }
    else none

end World

def inputSystem : System World Action where
  initial world := ∃ writeBinary, world = .create writeBinary
  step := World.step

/-! ## What is delivered -/

def PendingInput.text? : PendingInput → Utf16.Units
  | .text data => data
  | .binary _ => []

def PendingInput.items : PendingInput → List (UInt16 ⊕ Utf16.Units)
  | .text data => data.map .inl
  | .binary data => [.inr data]

def textOf (inputs : List PendingInput) : Utf16.Units := inputs.flatMap PendingInput.text?

def itemsOf (inputs : List PendingInput) : List (UInt16 ⊕ Utf16.Units) :=
  inputs.flatMap PendingInput.items

def World.chunks (world : World) : List PendingInput := world.jobs.map Job.chunk

def World.Idle (world : World) : Prop :=
  ∀ index, world.step (.start index) = none ∧ ∀ failed, world.step (.settle index failed) = none

/-- The chunks are what was enqueued before the last flush, piece by piece and
in the bytes of their text, and are handed over one after the other. -/
structure World.Delivered (world : World) : Prop where
  serial : ∀ index stage, world.stage? (index + 1) = some stage → stage ≠ .waiting →
    world.stage? index = some .settled
  exact : itemsOf world.chunks = itemsOf world.flushed
  bytes : (world.chunks.flatMap fun chunk => Utf16.encode chunk.text?) =
    Utf16.encode (textOf world.flushed)
  short : ∀ data, .text data ∈ world.chunks → data.length ≤ maxInputChunk
  settled : world.Idle → ∀ job ∈ world.jobs, job.stage = .settled

def Whole (world : World) : Action → Prop
  | .flush | .microtask => world.disposed = false →
      ∀ front data back, world.pending = front ++ .text data :: back →
        ∀ count, count * maxInputChunk < data.length →
          Utf16.splits (textOf world.flushed ++ textOf front ++ data.take (count * maxInputChunk))
            (data.drop (count * maxInputChunk)) = false
  | _ => True

/-! ## Slices -/

section Slices

variable {size : Nat} {data : Utf16.Units}

theorem slices_flatten (hsize : size ≠ 0) : (slices size data).flatten = data := by
  fun_induction slices size data with
  | case1 data h => exact (h.resolve_left hsize).symm
  | case2 data h ih => rw [flatten_cons, ih, take_append_drop]

theorem slices_length : ∀ slice ∈ slices size data, slice.length ≤ size := by
  fun_induction slices size data with
  | case1 data h => exact fun _ hslice => absurd hslice not_mem_nil
  | case2 data h ih =>
    intro slice hslice
    rcases mem_cons.mp hslice with rfl | hrest
    · exact length_take_le size data
    · exact ih slice hrest

theorem slices_whole (hlength : data.length ≤ size) (hdata : data ≠ []) :
    slices size data = [data] := by
  have hpositive : 0 < data.length := length_pos_of_ne_nil hdata
  have hsize : size ≠ 0 := by omega
  rw [slices, dif_neg (by simp [hsize, hdata]), take_of_length_le hlength,
    drop_eq_nil_of_le hlength, slices, dif_pos (.inr rfl)]

theorem slices_encode {before : Utf16.Units} (hsize : size ≠ 0)
    (hwhole : ∀ count, count * size < data.length →
      Utf16.splits (before ++ data.take (count * size)) (data.drop (count * size)) = false) :
    Utf16.encode (before ++ data) =
      Utf16.encode before ++ (slices size data).flatMap Utf16.encode := by
  fun_induction slices size data generalizing before with
  | case1 data h =>
    rw [h.resolve_left hsize]
    simp
  | case2 data h ih =>
    obtain ⟨-, hdata⟩ := not_or.mp h
    have hfirst : Utf16.splits before (data.take size) = false := by
      have hstart := hwhole 0 (by simpa using length_pos_of_ne_nil hdata)
      obtain ⟨unit, rest, rfl⟩ := exists_cons_of_ne_nil hdata
      obtain ⟨more, rfl⟩ := Nat.exists_eq_succ_of_ne_zero hsize
      simpa [Utf16.splits] using hstart
    have hrest : Utf16.encode (before ++ data.take size ++ data.drop size) =
        Utf16.encode (before ++ data.take size) ++
          (slices size (data.drop size)).flatMap Utf16.encode := by
      refine ih fun count hcount => ?_
      have hshift : (count + 1) * size = size + count * size := by ring
      have hnext := hwhole (count + 1) (by
        rw [length_drop] at hcount
        omega)
      rw [hshift, take_add, ← append_assoc, ← drop_drop] at hnext
      exact hnext
    calc Utf16.encode (before ++ data)
        = Utf16.encode (before ++ data.take size ++ data.drop size) := by
          rw [append_assoc, take_append_drop]
      _ = Utf16.encode before ++ Utf16.encode (data.take size) ++
            (slices size (data.drop size)).flatMap Utf16.encode := by
          rw [hrest, Utf16.encode_append hfirst]
      _ = _ := by rw [flatMap_cons, append_assoc]

end Slices

/-! ## Chunks and batches -/

section Batches

variable {input : PendingInput} {inputs rest : List PendingInput} {data : Utf16.Units}

@[simp] theorem itemsOf_append :
    itemsOf (inputs ++ rest) = itemsOf inputs ++ itemsOf rest := flatMap_append

@[simp] theorem textOf_append : textOf (inputs ++ rest) = textOf inputs ++ textOf rest :=
  flatMap_append

theorem textOf_items : textOf inputs = (itemsOf inputs).filterMap Sum.getLeft? := by
  induction inputs with
  | nil => rfl
  | cons input rest ih =>
    have hinput : input.text? = input.items.filterMap Sum.getLeft? := by
      cases input with
      | binary data => rfl
      | text data =>
        simp [PendingInput.text?, PendingInput.items, filterMap_map, Function.comp_def]
    rw [textOf, itemsOf, flatMap_cons, flatMap_cons, filterMap_append, ← hinput]
    exact congrArg (input.text? ++ ·) ih

theorem itemsOf_texts {parts : List Utf16.Units} :
    itemsOf (parts.map .text) = parts.flatten.map Sum.inl := by
  induction parts with
  | nil => rfl
  | cons part parts ih =>
    rw [map_cons, flatten_cons, map_append, ← ih]
    rfl

theorem itemsOf_addText : itemsOf (addText data inputs) = itemsOf inputs ++ data.map .inl := by
  fun_induction addText data inputs with
  | case1 => simp [itemsOf, PendingInput.items]
  | case2 last => simp [itemsOf, PendingInput.items]
  | case3 input rest _ ih =>
    rw [itemsOf, itemsOf, flatMap_cons, flatMap_cons, append_assoc]
    exact congrArg (input.items ++ ·) ih

theorem maxInputChunk_ne_zero : maxInputChunk ≠ 0 := by decide

theorem itemsOf_chunks (hinput : input ≠ .binary []) : itemsOf input.chunks = input.items := by
  cases input with
  | text data =>
    rw [PendingInput.chunks, itemsOf_texts, slices_flatten maxInputChunk_ne_zero]
    rfl
  | binary data =>
    have hdata : data ≠ [] := fun hempty => hinput (congrArg _ hempty)
    rw [PendingInput.chunks, slices_whole (Nat.le_max_right _ _) hdata]
    rfl

theorem itemsOf_batch (hinputs : ∀ input ∈ inputs, input ≠ .binary []) :
    itemsOf (inputs.flatMap PendingInput.chunks) = itemsOf inputs := by
  induction inputs with
  | nil => rfl
  | cons input rest ih =>
    obtain ⟨hfirst, hrest⟩ := forall_mem_cons.mp hinputs
    rw [flatMap_cons, itemsOf_append, itemsOf_chunks hfirst, ih hrest]
    rfl

theorem chunks_short {chunk : Utf16.Units} (hchunk : .text chunk ∈ input.chunks) :
    chunk.length ≤ maxInputChunk := by
  cases input with
  | text data =>
    obtain ⟨slice, hslice, heq⟩ := List.mem_map.mp hchunk
    cases heq
    exact slices_length _ hslice
  | binary data =>
    obtain ⟨slice, hslice, heq⟩ := List.mem_map.mp hchunk
    cases heq

theorem encode_batch {before : Utf16.Units}
    (hwhole : ∀ front data back, inputs = front ++ .text data :: back →
      ∀ count, count * maxInputChunk < data.length →
        Utf16.splits (before ++ textOf front ++ data.take (count * maxInputChunk))
          (data.drop (count * maxInputChunk)) = false) :
    Utf16.encode (before ++ textOf inputs) = Utf16.encode before ++
      (inputs.flatMap PendingInput.chunks).flatMap fun chunk => Utf16.encode chunk.text? := by
  induction inputs generalizing before with
  | nil => simp [textOf]
  | cons input rest ih =>
    have hrest : Utf16.encode (before ++ input.text? ++ textOf rest) =
        Utf16.encode (before ++ input.text?) ++
          (rest.flatMap PendingInput.chunks).flatMap fun chunk => Utf16.encode chunk.text? := by
      refine ih fun front data back hsplit count hcount => ?_
      have hcut := hwhole (input :: front) data back (by rw [hsplit, cons_append])
        count hcount
      rw [textOf, flatMap_cons, ← append_assoc before] at hcut
      exact hcut
    have hinput : Utf16.encode (before ++ input.text?) = Utf16.encode before ++
        input.chunks.flatMap fun chunk => Utf16.encode chunk.text? := by
      cases input with
      | binary data => simp [PendingInput.chunks, PendingInput.text?, flatMap_map]
      | text data =>
        rw [PendingInput.chunks, flatMap_map]
        refine slices_encode maxInputChunk_ne_zero fun count hcount => ?_
        simpa [textOf, PendingInput.text?] using hwhole [] data rest rfl count hcount
    rw [flatMap_cons, flatMap_append, ← append_assoc, ← hinput, ← hrest, append_assoc]
    rfl

end Batches

/-! ## The invariant -/

namespace World

/-- What holds of the chunks on the promise tail, and of what is pending. -/
structure Sound (world : World) : Prop where
  serial : ∀ index stage, world.stage? (index + 1) = some stage → stage ≠ .waiting →
    world.stage? index = some .settled
  exact : itemsOf world.chunks = itemsOf world.flushed
  bytes : (world.chunks.flatMap fun chunk => Utf16.encode chunk.text?) =
    Utf16.encode (textOf world.flushed)
  short : ∀ data, .text data ∈ world.chunks → data.length ≤ maxInputChunk
  taken : world.disposed = false →
    itemsOf world.enqueued = itemsOf world.flushed ++ itemsOf world.pending
  filled : ∀ input ∈ world.pending, input ≠ .binary []

section Steps

variable {world world' : World}

theorem sound_create (writeBinary : Bool) : Sound (create writeBinary) where
  serial _ _ hstage := nomatch hstage
  exact := rfl
  bytes := rfl
  short _ hmem := absurd hmem not_mem_nil
  taken _ := rfl
  filled _ hmem := absurd hmem not_mem_nil

theorem Sound.schedule (h : Sound world) : Sound world.schedule := by
  unfold World.schedule
  split
  · exact h
  · exact { h with }

theorem mem_addText {data : Utf16.Units} {input : PendingInput} {inputs : List PendingInput}
    (hinput : input ∈ addText data inputs) : input ∈ inputs ∨ ∃ text, input = .text text := by
  fun_induction addText data inputs with
  | case1 => exact .inr ⟨data, mem_singleton.mp hinput⟩
  | case2 last => exact .inr ⟨_, mem_singleton.mp hinput⟩
  | case3 first rest _ ih =>
    rcases mem_cons.mp hinput with rfl | hrest
    · exact .inl mem_cons_self
    · exact (ih hrest).imp_left (mem_cons_of_mem _)

theorem Sound.enqueue (h : Sound world) (data : Utf16.Units) : Sound (world.enqueue data) := by
  unfold World.enqueue
  split
  · exact h
  refine Sound.schedule { h with taken := fun hopen => ?_, filled := fun input hinput => ?_ }
  · rw [itemsOf_append, itemsOf_addText, h.taken hopen, append_assoc]
    congr 2
    exact append_nil _
  · rcases mem_addText hinput with hold | ⟨text, rfl⟩
    · exact h.filled input hold
    · exact nofun

theorem Sound.enqueueBinary (h : Sound world) (data : Utf16.Units) :
    Sound (world.enqueueBinary data) := by
  unfold World.enqueueBinary
  split
  · exact h
  rename_i htaken
  refine Sound.schedule { h with taken := fun hopen => ?_, filled := fun input hinput => ?_ }
  · rw [itemsOf_append, itemsOf_append, h.taken hopen, append_assoc]
  · rcases mem_append.mp hinput with hold | hnew
    · exact h.filled input hold
    rintro rfl
    cases mem_singleton.mp hnew
    simp at htaken

variable {index : Nat} {stage : Stage}

theorem stage?_append {jobs : List Job} {chunks : List PendingInput}
    (hjobs : world.jobs = jobs ++ chunks.map (Job.mk · .waiting))
    (hstage : world.stage? index = some stage) (hne : stage ≠ .waiting) :
    jobs[index]?.map Job.stage = some stage := by
  rw [stage?, hjobs, getElem?_append] at hstage
  split at hstage
  · exact hstage
  rw [getElem?_map, Option.map_map] at hstage
  obtain ⟨chunk, -, heq⟩ := map_eq_some_iff.mp hstage
  exact absurd heq.symm hne

theorem Sound.flush (h : Sound world) (hwhole : Whole world .flush) : Sound world.flush := by
  unfold World.flush
  dsimp only
  split
  · exact { h with }
  rename_i hpend
  have hopen : world.disposed = false := by
    by_contra hdisp
    simp [Bool.not_eq_false _ ▸ hdisp] at hpend
  have hchunks : ∀ {jobs : List Job} {chunks : List PendingInput},
      (jobs ++ chunks.map (Job.mk · .waiting)).map Job.chunk = jobs.map Job.chunk ++ chunks := by
    simp [Function.comp_def]
  have hitems : itemsOf (world.chunks ++ world.pending.flatMap PendingInput.chunks) =
      itemsOf world.enqueued := by
    rw [itemsOf_append, itemsOf_batch h.filled, h.exact, h.taken hopen]
  have htext : textOf world.enqueued = textOf world.flushed ++ textOf world.pending := by
    rw [textOf_items, h.taken hopen, filterMap_append, ← textOf_items, ← textOf_items]
  refine ⟨fun index stage hstage hne => ?_, ?_, ?_, fun data hdata => ?_, fun _ => ?_,
    forall_mem_nil _⟩
  · have hold := h.serial index stage (stage?_append rfl hstage hne) hne
    obtain ⟨job, hjob, hsettl⟩ := map_eq_some_iff.mp hold
    rw [stage?, getElem?_append_left (List.getElem?_eq_some_iff.mp hjob).1]
    exact hold
  · rw [World.chunks, hchunks]
    exact hitems
  · rw [World.chunks, hchunks, flatMap_append, htext, encode_batch (hwhole hopen)]
    exact congrArg (· ++ _) h.bytes
  · rw [World.chunks, hchunks] at hdata
    rcases mem_append.mp hdata with hold | hnew
    · exact h.short data hold
    · obtain ⟨input, -, hchunk⟩ := mem_flatMap.mp hnew
      exact chunks_short hchunk
  · exact (append_nil _).symm

theorem Sound.dispose (h : Sound world) : Sound world.dispose where
  __ := h
  taken hopen := nomatch hopen
  filled _ hmem := absurd hmem not_mem_nil

theorem stage?_setStage {other : Nat} : (world.setStage index stage).stage? other =
      if other = index then (world.stage? index).map fun _ => stage else world.stage? other := by
  rw [stage?, setStage, getElem?_modify, stage?]
  by_cases hsame : other = index
  · subst hsame
    simp [Function.comp_def]
  · simp [Ne.symm hsame, hsame, stage?]

theorem chunks_setStage (world : World) (index : Nat) (stage : Stage) :
    (world.setStage index stage).chunks = world.chunks := by
  rw [World.chunks, setStage, World.chunks]
  apply ext_getElem?
  intro other
  rw [getElem?_map, getElem?_map, getElem?_modify]
  cases world.jobs[other]? with
  | none => rfl
  | some job => split <;> rfl

theorem Sound.setStage (h : Sound world)
    (hserial : ∀ index' stage', (world.setStage index stage).stage? (index' + 1) = some stage' →
      stage' ≠ .waiting → (world.setStage index stage).stage? index' = some .settled) :
    Sound (world.setStage index stage) where
  serial := hserial
  exact := (chunks_setStage world index stage).symm ▸ h.exact
  bytes := (chunks_setStage world index stage).symm ▸ h.bytes
  short := (chunks_setStage world index stage).symm ▸ h.short
  taken := h.taken
  filled := h.filled

theorem Sound.start (h : Sound world) (hwaiting : world.stage? index = some .waiting)
    (hrslv : world.resolved index = true) : Sound (world.setStage index .running) := by
  refine h.setStage fun other stage hstage hne => ?_
  rw [stage?_setStage] at hstage ⊢
  by_cases hnext : other + 1 = index
  · subst hnext
    have hbef : world.stage? other = some .settled := by
      simpa [resolved] using hrslv
    rw [if_neg (by omega)]
    exact hbef
  · rw [if_neg hnext] at hstage
    have hsettl := h.serial other stage hstage hne
    split
    · rename_i hsame
      subst hsame
      rw [hwaiting] at hsettl
      cases hsettl
    · exact hsettl

theorem Sound.settle (h : Sound world) (hrunn : world.stage? index = some .running) :
    Sound (world.setStage index .settled) := by
  refine h.setStage fun other stage hstage hne => ?_
  rw [stage?_setStage] at hstage ⊢
  by_cases hsame : other = index
  · subst hsame
    rw [if_pos rfl, hrunn]
    rfl
  · rw [if_neg hsame]
    by_cases hnext : other + 1 = index
    · subst hnext
      exact h.serial other .running hrunn (nofun)
    · rw [if_neg hnext] at hstage
      exact h.serial other stage hstage hne

theorem Sound.step (h : Sound world) {action : Action} (hwhole : Whole world action)
    (hstep : world.step action = some world') : Sound world' := by
  cases action with
  | enqueue data =>
    cases hstep
    exact h.enqueue data
  | enqueueBinary data =>
    cases hstep
    exact h.enqueueBinary data
  | flush =>
    cases hstep
    exact h.flush hwhole
  | dispose =>
    cases hstep
    exact h.dispose
  | microtask =>
    obtain ⟨-, hflush⟩ := ite_none_left_eq_some.mp hstep
    cases hflush
    have hsame : Sound { world with microtasks := world.microtasks - 1 } := { h with }
    exact hsame.flush hwhole
  | start index =>
    obtain ⟨⟨hwaiting, hrslv⟩, hstart⟩ := ite_none_right_eq_some.mp hstep
    cases hstart
    exact h.start hwaiting hrslv
  | settle index failed =>
    obtain ⟨hrunn, hsettle⟩ := ite_none_right_eq_some.mp hstep
    cases hsettle
    obtain ⟨hserial, hexact, hbytes, hshort, htaken, hfilled⟩ := h.settle hrunn
    exact ⟨hserial, hexact, hbytes, hshort, htaken, hfilled⟩

theorem settled_of_idle (hidle : world.Idle) :
    ∀ index stage, world.stage? index = some stage → stage = .settled := by
  intro index
  induction index with
  | zero =>
    intro stage hstage
    obtain ⟨hstart, hsettle⟩ := hidle 0
    cases stage with
    | settled => rfl
    | waiting => simp [World.step, hstage, resolved] at hstart
    | running => simp [World.step, hstage] at hsettle
  | succ index ih =>
    intro stage hstage
    have hbef : world.stage? index = some .settled := by
      obtain ⟨job, hjob, -⟩ := map_eq_some_iff.mp hstage
      have hlength := (List.getElem?_eq_some_iff.mp hjob).1
      obtain ⟨before, hbef⟩ : ∃ before, world.stage? index = some before :=
        ⟨_, by rw [stage?, getElem?_eq_getElem (by omega), map_some]⟩
      rw [hbef, ih before hbef]
    obtain ⟨hstart, hsettle⟩ := hidle (index + 1)
    cases stage with
    | settled => rfl
    | waiting => simp [World.step, hstage, resolved, hbef] at hstart
    | running => simp [World.step, hstage] at hsettle

theorem Sound.delivered (h : Sound world) : world.Delivered where
  __ := h
  settled hidle job hjob := by
    obtain ⟨index, hindex⟩ := mem_iff_getElem?.mp hjob
    exact settled_of_idle hidle index _ (by rw [stage?, hindex, map_some])

end Steps

end World

theorem slices_append {first last : Utf16.Units} (hfirst : first ≠ []) :
    slices first.length (first ++ last) = first :: slices first.length last := by
  rw [slices, dif_neg (by simp [hfirst]), take_left, drop_left]

theorem undelivered_cut {first last : Utf16.Units} (hlength : first.length = maxInputChunk)
    (hlast : last.length ≤ maxInputChunk) (hcut : Utf16.splits first last = true) :
    ¬ World.Delivered ((World.create false).enqueue (first ++ last)).flush := by
  intro h
  have hfirst : first ≠ [] := by
    rintro rfl
    cases hlength
  have hnonem : last ≠ [] := by
    rintro rfl
    simp [Utf16.splits] at hcut
  have hslices : slices maxInputChunk (first ++ last) = [first, last] := by
    rw [← hlength, slices_append hfirst, hlength, slices_whole hlast hnonem]
  have hflush : ((World.create false).enqueue (first ++ last)).flush = { World.create false with
      microtasks := 1
      jobs := [⟨.text first, .waiting⟩, ⟨.text last, .waiting⟩]
      enqueued := [.text (first ++ last)]
      flushed := [.text (first ++ last)] } := by
    simp [World.enqueue, World.create, World.schedule, World.flush, addText,
      PendingInput.chunks, hslices, hfirst]
  have hbytes := congrArg List.length h.bytes
  have hlonger := Utf16.encode_splits hcut
  rw [hflush] at hbytes
  simp only [World.chunks, map_cons, map_nil, flatMap_cons, flatMap_nil,
    PendingInput.text?, textOf, append_nil, length_append] at hbytes
  omega

end Yaade.Panels.InputWriter

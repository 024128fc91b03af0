import Yaade.Render.Packing

/-!
The terminal core of a worker: the rows it holds of the terminal library's
screen, the updates it builds from them and the three slots it builds them in.
-/

namespace Yaade.Render

open List
open Option hiding or_self

inductive Dirtiness where
  | unchanged
  | someRows
  | everything
  deriving DecidableEq

/-- The terminal library: what a call does to a terminal, what is on its screen
and which part of that is marked dirty. -/
structure LibghosttyApi where
  Terminal : Type
  Input : Type
  feed : Input → Terminal → Terminal
  reset : Terminal → Terminal
  picture : Terminal → Picture
  synchronizedOutput : Terminal → Bool
  dirtiness : Terminal → Dirtiness
  rowDirty : Terminal → Nat → Bool
  clean : Terminal → Terminal

namespace LibghosttyApi

variable (api : LibghosttyApi)

def feedAll (inputs : List api.Input) (terminal : api.Terminal) : api.Terminal :=
  inputs.foldl (fun terminal input => api.feed input terminal) terminal

def Covers (frame : Frame) (terminal : api.Terminal) : Prop :=
  api.dirtiness terminal = .everything ∨
    (api.picture terminal).frame.cols = frame.cols ∧
    (api.picture terminal).frame.foreground = frame.foreground ∧
    (api.picture terminal).frame.background = frame.background ∧
    (api.picture terminal).frame.cursor = frame.cursor ∧
    (api.picture terminal).frame.rowData.length = frame.rowData.length ∧
    ∀ index, (api.picture terminal).frame.rowData[index]? ≠ frame.rowData[index]? →
      api.dirtiness terminal = .someRows ∧ api.rowDirty terminal index = true

def Dirtied (terminal : api.Terminal) : Prop :=
  ∀ inputs, api.dirtiness (api.feedAll inputs terminal) = .everything

def Marked (frame : Frame) (terminal : api.Terminal) : Prop :=
  ∀ inputs, api.Covers frame (api.feedAll inputs terminal)

end LibghosttyApi

/-- What the core relies on: marks cover every change since they were cleaned,
and a reset marks everything. -/
structure Libghostty extends LibghosttyApi where
  sized : ∀ terminal, (picture terminal).frame.Sized
  picture_clean : ∀ terminal, picture (clean terminal) = picture terminal
  synchronizedOutput_clean : ∀ terminal,
    synchronizedOutput (clean terminal) = synchronizedOutput terminal
  reset_dirtied : ∀ terminal, toLibghosttyApi.Dirtied (reset terminal)
  clean_marked : ∀ terminal, toLibghosttyApi.Marked (picture terminal).frame (clean terminal)

variable {frame : Frame} {lib : Libghostty}

section Marks

variable {terminal : lib.Terminal}

theorem dirtied_feed (h : lib.Dirtied terminal) (input : lib.Input) :
    lib.Dirtied (lib.feed input terminal) := fun inputs => h (input :: inputs)

theorem marked_feed (h : lib.Marked frame terminal) (input : lib.Input) :
    lib.Marked frame (lib.feed input terminal) := fun inputs => h (input :: inputs)

end Marks

/-! ## The core -/

structure BuilderSlot where
  inFlight : Bool
  leaseToken : Nat
  deriving DecidableEq

structure GhosttyRenderUpdateLease where
  slotId : Nat
  leaseToken : Nat
  update : GhosttyRenderUpdate
  deriving DecidableEq

structure GhosttyTerminalCore (lib : Libghostty) where
  terminal : lib.Terminal
  rows : List GhosttyRow
  rowCols : Nat
  snapshotForeground : Option GhosttyColor
  snapshotBackground : Option GhosttyColor
  snapshotCursor : Option GhosttyColor
  renderUpdateFrameId : Nat
  renderUpdateGeneration : Nat
  renderUpdateCols : Nat
  renderUpdateRows : Nat
  slots : List BuilderSlot

def emptyRow (cols : Nat) (foreground background : GhosttyColor) : GhosttyRow :=
  ⟨List.replicate cols ⟨[], foreground, background, 0⟩, false, false⟩

def takeSlot : List BuilderSlot → Option (Nat × Nat × List BuilderSlot)
  | [] => none
  | slot :: rest =>
    if slot.inFlight then
      (takeSlot rest).map fun taken => (taken.1 + 1, taken.2.1, slot :: taken.2.2)
    else some (0, slot.leaseToken + 1, ⟨true, slot.leaseToken + 1⟩ :: rest)

namespace GhosttyTerminalCore

variable (core : GhosttyTerminalCore lib)

def create (terminal : lib.Terminal) : GhosttyTerminalCore lib :=
  ⟨terminal, [], 0, none, none, none, 0, 0, 0, 0, List.replicate 3 ⟨false, 0⟩⟩

def feed (input : lib.Input) : GhosttyTerminalCore lib :=
  { core with terminal := lib.feed input core.terminal }

def resetAndWrite (data : lib.Input) : GhosttyTerminalCore lib :=
  { core with terminal := lib.feed data (lib.reset core.terminal), rows := [] }

def dirtyRows (rowCount : Nat) : List Nat :=
  (List.range rowCount).filter fun index => match lib.dirtiness core.terminal with
    | .unchanged => false
    | .someRows => lib.rowDirty core.terminal index
    | .everything => true

/-- The screen as the core holds it, its dirty rows, and the core afterwards,
with the marks cleaned. -/
def snapshot : Picture × List Nat × GhosttyTerminalCore lib :=
  let screen := lib.picture core.terminal
  let globalDirty :=
    lib.dirtiness core.terminal = .everything || core.snapshotForeground.isNone
  let cols := if globalDirty then screen.frame.cols else core.rowCols
  let rowCount := if globalDirty then screen.frame.rowData.length else core.rows.length
  let foreground := if globalDirty then screen.frame.foreground
    else core.snapshotForeground.getD ⟨229, 231, 235⟩
  let background := if globalDirty then screen.frame.background
    else core.snapshotBackground.getD ⟨0, 0, 0⟩
  let cursor := if globalDirty then screen.frame.cursor else core.snapshotCursor.getD foreground
  let held := if core.rows.length ≠ rowCount ∨ core.rowCols ≠ cols then
    List.replicate rowCount (emptyRow cols foreground background) else core.rows
  let dirtyRows := core.dirtyRows rowCount
  let rows := setRows (rowsAt screen.frame.rowData dirtyRows) held
  let terminal := if lib.dirtiness core.terminal = .unchanged then core.terminal
    else lib.clean core.terminal
  (⟨⟨cols, foreground, background, cursor, rows⟩, screen.cursor⟩, dirtyRows,
    { core with
      terminal := terminal
      rows := rows
      rowCols := cols
      snapshotForeground := if globalDirty then some foreground else core.snapshotForeground
      snapshotBackground := if globalDirty then some background else core.snapshotBackground
      snapshotCursor := if globalDirty then some cursor else core.snapshotCursor })

def dimensionsChanged (picture : Picture) : Bool :=
  picture.frame.cols ≠ core.renderUpdateCols ||
    picture.frame.rowData.length ≠ core.renderUpdateRows

def nextGeneration (picture : Picture) : Nat :=
  if core.renderUpdateGeneration = 0 || core.dimensionsChanged picture then
    core.renderUpdateGeneration + 1 else core.renderUpdateGeneration

def isFull (forceFull : Bool) (picture : Picture) (dirtyRows : List Nat) : Bool :=
  forceFull || core.dimensionsChanged picture || core.renderUpdateFrameId + 1 = 1 ||
    dirtyRows.length = picture.frame.rowData.length

def tryRenderUpdate (forceFull : Bool) :
    Option (GhosttyRenderUpdateLease × GhosttyTerminalCore lib) :=
  (takeSlot core.slots).map fun taken =>
    let (picture, dirtyRows, read) := core.snapshot
    let generation := core.nextGeneration picture
    let frameId := core.renderUpdateFrameId + 1
    let full := core.isFull forceFull picture dirtyRows
    (⟨taken.1, taken.2.1, buildUpdate picture dirtyRows frameId generation full⟩,
      { read with
        renderUpdateFrameId := frameId
        renderUpdateGeneration := generation
        renderUpdateCols := picture.frame.cols
        renderUpdateRows := picture.frame.rowData.length
        slots := taken.2.2 })

def reclaimRenderUpdate (slotId leaseToken : Nat) : Option (GhosttyTerminalCore lib) :=
  (core.slots[slotId]?).bind fun slot =>
    if slot.inFlight ∧ slot.leaseToken = leaseToken then
      some { core with slots := core.slots.set slotId { slot with inFlight := false } }
    else none

end GhosttyTerminalCore

/-! ## What a core builds -/

section Synced

variable {core core' : GhosttyTerminalCore lib} {model : GhosttyViewportModel}

/-- The core holds the frame of an earlier snapshot. -/
structure Holds (core : GhosttyTerminalCore lib) (frame : Frame) : Prop where
  rows : core.rows = frame.rowData
  rowCols : core.rowCols = frame.cols
  foreground : core.snapshotForeground = some frame.foreground
  background : core.snapshotBackground = some frame.background
  cursor : core.snapshotCursor = some frame.cursor

/-- The model has been given every update of the core: it shows the frame that
the core holds, or everything is dirty. -/
structure Synced (core : GhosttyTerminalCore lib) (model : GhosttyViewportModel) : Prop where
  frameId : model.frameId = core.renderUpdateFrameId
  generation : model.generation = core.renderUpdateGeneration
  generation_le : core.renderUpdateGeneration ≤ core.renderUpdateFrameId
  cols : model.cols = core.renderUpdateCols
  rows : model.rows = core.renderUpdateRows
  tracks : lib.Dirtied core.terminal ∨
    1 ≤ core.renderUpdateGeneration ∧ ∃ frame, lib.Marked frame core.terminal ∧
      Holds core frame ∧ model.snapshot.frame = frame ∧ model.rows = frame.rowData.length

theorem synced_create {terminal : lib.Terminal} (h : lib.Dirtied terminal) :
    Synced (.create terminal) .empty := ⟨rfl, rfl, Nat.le_refl 0, rfl, rfl, .inl h⟩

theorem Synced.feed (h : Synced core model) (input : lib.Input) : Synced (core.feed input) model := by
  refine { h with tracks := ?_ }
  rcases h.tracks with hdirty | ⟨hgen, frame, hmarked, hholds, hrest⟩
  · exact .inl (dirtied_feed hdirty input)
  · exact .inr ⟨hgen, frame, marked_feed hmarked input, { hholds with }, hrest⟩

theorem Synced.resetAndWrite (h : Synced core model) (data : lib.Input) :
    Synced (core.resetAndWrite data) model :=
  { h with tracks := .inl (dirtied_feed (lib.reset_dirtied core.terminal) data) }

theorem Synced.reclaim (h : Synced core model) {slotId leaseToken : Nat}
    (hreclaim : core.reclaimRenderUpdate slotId leaseToken = some core') : Synced core' model := by
  obtain ⟨slot, -, hnext⟩ := bind_eq_some_iff.mp hreclaim
  obtain ⟨-, hnext⟩ := ite_none_right_eq_some.mp hnext
  cases hnext
  refine { h with tracks := ?_ }
  rcases h.tracks with hdirty | ⟨hgen, frame, hmarked, hholds, hrest⟩
  · exact .inl hdirty
  · exact .inr ⟨hgen, frame, hmarked, { hholds with }, hrest⟩

theorem dirtyRows_sorted (core : GhosttyTerminalCore lib) (rowCount : Nat) :
    (core.dirtyRows rowCount).Pairwise (· < ·) :=
  List.Pairwise.filter _ pairwise_lt_range

theorem dirtyRows_lt {rowCount index : Nat} (h : index ∈ core.dirtyRows rowCount) :
    index < rowCount := mem_range.mp (mem_filter.mp h).1

theorem dirtyRows_everything (h : lib.dirtiness core.terminal = .everything) (rowCount : Nat) :
    core.dirtyRows rowCount = List.range rowCount := by
  unfold GhosttyTerminalCore.dirtyRows
  rw [h]
  exact filter_eq_self.mpr fun _ _ => rfl

theorem covers_kept (h : lib.Covers frame core.terminal)
    (hnot : lib.dirtiness core.terminal ≠ .everything) {index rowCount : Nat}
    (hlt : index < rowCount) (hmem : index ∉ core.dirtyRows rowCount) :
    frame.rowData[index]? = (lib.picture core.terminal).frame.rowData[index]? := by
  by_contra hdiffers
  obtain ⟨hlevel, hrow⟩ := (h.resolve_left hnot).2.2.2.2.2 index (Ne.symm hdiffers)
  apply hmem
  refine mem_filter.mpr ⟨mem_range.mpr hlt, ?_⟩
  rw [hlevel]
  exact hrow

theorem snapshot_terminal (core : GhosttyTerminalCore lib) :
    lib.picture core.snapshot.2.2.terminal = lib.picture core.terminal ∧
      lib.synchronizedOutput core.snapshot.2.2.terminal =
        lib.synchronizedOutput core.terminal := by
  unfold GhosttyTerminalCore.snapshot
  simp only
  split
  · exact ⟨rfl, rfl⟩
  · exact ⟨lib.picture_clean _, lib.synchronizedOutput_clean _⟩

theorem snapshot_everything (h : lib.dirtiness core.terminal = .everything) :
    core.snapshot.1 = lib.picture core.terminal ∧
      core.snapshot.2.1 = List.range (lib.picture core.terminal).frame.rowData.length ∧
        Holds core.snapshot.2.2 (lib.picture core.terminal).frame ∧
          lib.Marked (lib.picture core.terminal).frame core.snapshot.2.2.terminal := by
  have hrows := dirtyRows_everything h (lib.picture core.terminal).frame.rowData.length
  have hset : ∀ held : List GhosttyRow,
      held.length = (lib.picture core.terminal).frame.rowData.length →
      setRows (rowsAt (lib.picture core.terminal).frame.rowData
        (List.range (lib.picture core.terminal).frame.rowData.length)) held =
          (lib.picture core.terminal).frame.rowData := by
    intro held hlength
    exact set_rowsAt held hlength fun index hlt hnot => absurd (mem_range.mpr hlt) hnot
  have hheld : (if core.rows.length ≠ (lib.picture core.terminal).frame.rowData.length ∨
      core.rowCols ≠ (lib.picture core.terminal).frame.cols then
        List.replicate (lib.picture core.terminal).frame.rowData.length
          (emptyRow (lib.picture core.terminal).frame.cols
            (lib.picture core.terminal).frame.foreground
            (lib.picture core.terminal).frame.background)
      else core.rows).length = (lib.picture core.terminal).frame.rowData.length := by
    split
    · exact length_replicate
    · rename_i hsame
      exact not_not.mp (not_or.mp hsame).1
  have hread := hset _ hheld
  unfold GhosttyTerminalCore.snapshot
  simp only [h, decide_true, Bool.true_or, if_true, hrows, hread, reduceCtorEq, if_false]
  exact ⟨trivial, trivial, ⟨rfl, rfl, rfl, rfl, rfl⟩, lib.clean_marked _⟩

theorem snapshot_some (hholds : Holds core frame) (hmarked : lib.Marked frame core.terminal)
    (hnot : lib.dirtiness core.terminal ≠ .everything) :
    core.snapshot.1 = lib.picture core.terminal ∧
      core.snapshot.2.1 = core.dirtyRows frame.rowData.length ∧
        Holds core.snapshot.2.2 (lib.picture core.terminal).frame ∧
          lib.Marked (lib.picture core.terminal).frame core.snapshot.2.2.terminal := by
  have hcovers : lib.Covers frame core.terminal := hmarked []
  obtain ⟨hcols, hforeground, hbackground, hcursor, hlength, hrows⟩ := hcovers.resolve_left hnot
  have hread : setRows (rowsAt (lib.picture core.terminal).frame.rowData
      (core.dirtyRows frame.rowData.length)) frame.rowData =
        (lib.picture core.terminal).frame.rowData :=
    set_rowsAt _ hlength.symm fun index hlt hmem =>
      covers_kept hcovers hnot (hlength ▸ hlt) hmem
  have hpicture : (lib.picture core.terminal) = ⟨⟨frame.cols, frame.foreground, frame.background,
      frame.cursor, (lib.picture core.terminal).frame.rowData⟩,
        (lib.picture core.terminal).cursor⟩ := by
    rw [← hcols, ← hforeground, ← hbackground, ← hcursor]
  have hsame : lib.dirtiness core.terminal = .unchanged →
      (lib.picture core.terminal).frame = frame := by
    intro hunchanged
    have hall : (lib.picture core.terminal).frame.rowData = frame.rowData := by
      apply ext_getElem?
      intro index
      by_contra hdiffers
      rw [(hrows index hdiffers).1] at hunchanged
      cases hunchanged
    rw [hpicture, hall]
  unfold GhosttyTerminalCore.snapshot
  simp only [hnot, decide_false, hholds.foreground, hholds.background, hholds.cursor, hholds.rows,
    hholds.rowCols, isNone_some, Bool.or_self, Bool.false_eq_true, if_false, ne_eq,
    not_true_eq_false, or_self, getD_some, hread]
  refine ⟨hpicture.symm, trivial, ⟨rfl, hcols.symm, ?_, ?_, ?_⟩, ?_⟩
  · rw [hforeground]
  · rw [hbackground]
  · rw [hcursor]
  · split
    · rename_i hunchanged
      rw [hsame hunchanged]
      exact hmarked
    · exact lib.clean_marked _

theorem nextGeneration_bounds (core : GhosttyTerminalCore lib) (picture : Picture) :
    1 ≤ core.nextGeneration picture ∧ core.renderUpdateGeneration ≤ core.nextGeneration picture ∧
      core.nextGeneration picture ≤ core.renderUpdateGeneration + 1 := by
  unfold GhosttyTerminalCore.nextGeneration
  split
  · omega
  rename_i hsame
  simp only [Bool.or_eq_true, decide_eq_true_eq, not_or] at hsame
  omega

theorem snapshot_synced (h : Synced core model) : core.snapshot.1 = lib.picture core.terminal ∧
      core.snapshot.2.1 = core.dirtyRows (lib.picture core.terminal).frame.rowData.length ∧
        Holds core.snapshot.2.2 (lib.picture core.terminal).frame ∧
          lib.Marked (lib.picture core.terminal).frame core.snapshot.2.2.terminal := by
  by_cases hdirty : lib.dirtiness core.terminal = .everything
  · rw [dirtyRows_everything hdirty]
    exact snapshot_everything hdirty
  rcases h.tracks with hall | ⟨-, frame, hmarked, hholds, -⟩
  · exact absurd (hall []) hdirty
  have hlength := ((hmarked []).resolve_left hdirty).2.2.2.2.1
  simp only [LibghosttyApi.feedAll, foldl_nil] at hlength
  rw [hlength]
  exact snapshot_some hholds hmarked hdirty

theorem synced_kept (h : Synced core model) (hnot : lib.dirtiness core.terminal ≠ .everything) :
    1 ≤ core.renderUpdateGeneration ∧ model.cols = (lib.picture core.terminal).frame.cols ∧
      model.rows = (lib.picture core.terminal).frame.rowData.length ∧
        model.rowData.length = (lib.picture core.terminal).frame.rowData.length ∧
          ∀ index < (lib.picture core.terminal).frame.rowData.length,
            index ∉ core.dirtyRows (lib.picture core.terminal).frame.rowData.length →
              (model.rowData.map GhosttyViewportModel.materializeRow)[index]? =
                (lib.picture core.terminal).frame.rowData[index]? := by
  rcases h.tracks with hall | ⟨hgen, frame, hmarked, -, hshown, hrows⟩
  · exact absurd (hall []) hnot
  have hcovers : lib.Covers frame core.terminal := hmarked []
  obtain ⟨hcols, -, -, -, hlength, -⟩ := hcovers.resolve_left hnot
  have hmodelCols : model.cols = frame.cols := congrArg Frame.cols hshown
  have hmodelRows : model.rowData.map GhosttyViewportModel.materializeRow = frame.rowData :=
    congrArg Frame.rowData hshown
  refine ⟨hgen, hmodelCols.trans hcols.symm, hrows.trans hlength.symm, ?_, ?_⟩
  · rw [hlength, ← hmodelRows, length_map]
  · intro index hlt hmem
    rw [hmodelRows]
    exact covers_kept hcovers hnot hlt hmem

/-- An update that is built is accepted and shows the screen as it is. -/
theorem tryRenderUpdate_spec (h : Synced core model) {forceFull : Bool}
    {lease : GhosttyRenderUpdateLease} (hlimit : core.renderUpdateFrameId < maxSafeInteger)
    (hsome : core.tryRenderUpdate forceFull = some (lease, core')) :
    (lib.picture core'.terminal = lib.picture core.terminal ∧
      lib.synchronizedOutput core'.terminal = lib.synchronizedOutput core.terminal) ∧
    (forceFull = true → lease.update.full = true) ∧
    ∃ shown, model.apply lease.update = some shown ∧ Synced core' shown ∧
      shown.snapshot = lib.picture core'.terminal := by
  obtain ⟨taken, -, hnext⟩ := map_eq_some_iff.mp hsome
  obtain ⟨hpicture, hdirtyRows, hholds, hmarked⟩ := snapshot_synced h
  obtain ⟨hterm, hsync⟩ := snapshot_terminal core
  obtain ⟨hpositive, hatLeast, hatMost⟩ := nextGeneration_bounds core (lib.picture core.terminal)
  simp only [Prod.mk.injEq] at hnext
  obtain ⟨rfl, rfl⟩ := hnext
  rw [hpicture, hdirtyRows]
  generalize hscreen : lib.picture core.terminal = screen at *
  generalize hrows : core.dirtyRows screen.frame.rowData.length = dirtyRows at *
  have hsized : screen.frame.Sized := hscreen ▸ lib.sized core.terminal
  have hvalid : validateGhosttyRenderUpdate (buildUpdate screen dirtyRows
      (core.renderUpdateFrameId + 1) (core.nextGeneration screen)
        (core.isFull forceFull screen dirtyRows)) = true := by
    have hle := h.generation_le
    apply build_valid hsized
    · rw [← hrows]
      exact dirtyRows_sorted core _
    · intro index hmem
      rw [← hrows] at hmem
      exact dirtyRows_lt hmem
    · omega
    · omega
  -- an update that is not full is one of a screen whose other rows are shown
  have hkept : core.isFull forceFull screen dirtyRows = true ∨
      (model.generation = core.nextGeneration screen ∧ model.cols = screen.frame.cols ∧
        model.rows = screen.frame.rowData.length) ∧
      model.rowData.length = screen.frame.rowData.length ∧
        ∀ index < screen.frame.rowData.length, index ∉ dirtyRows →
          (model.rowData.map GhosttyViewportModel.materializeRow)[index]? =
            screen.frame.rowData[index]? := by
    by_cases hdirty : lib.dirtiness core.terminal = .everything
    · left
      rw [dirtyRows_everything hdirty] at hrows
      simp [GhosttyTerminalCore.isFull, ← hrows]
    obtain ⟨hgen, hkept⟩ := synced_kept h hdirty
    rw [hscreen, hrows] at hkept
    obtain ⟨hcols, hcount, hlength, hothers⟩ := hkept
    refine .inr ⟨⟨?_, hcols, hcount⟩, hlength, hothers⟩
    have hsame : core.dimensionsChanged screen = false := by
      simp [GhosttyTerminalCore.dimensionsChanged, ← hcols, ← hcount, h.cols, h.rows]
    rw [h.generation, GhosttyTerminalCore.nextGeneration, hsame, Bool.or_false, if_neg]
    rw [decide_eq_true_eq]
    omega
  have hshows := @copied_shows model _ _ (core.renderUpdateFrameId + 1)
    (core.nextGeneration screen) _ (hkept.imp_right And.right)
  have hacc := apply_accepts hvalid (h.generation ▸ hatLeast)
    (h.frameId ▸ Nat.lt_succ_self _) (hkept.imp_right And.left)
  refine ⟨⟨hterm, hsync⟩, ?_, _, hacc, ?_, ?_⟩
  · rintro rfl
    rfl
  · refine { hshows with generation_le := ?_, tracks := ?_ }
    · exact Nat.le_trans hatMost (Nat.succ_le_succ h.generation_le)
    · exact .inr ⟨hpositive, screen.frame, hmarked, { hholds with },
          congrArg Picture.frame hshows.snapshot, hshows.rows⟩
  · exact hshows.snapshot.trans hterm.symm

/-! ## Slots -/

theorem takeSlot_none {slots : List BuilderSlot} (h : takeSlot slots = none) :
    ∀ slot ∈ slots, slot.inFlight = true := by
  induction slots with
  | nil => exact forall_mem_nil _
  | cons first rest ih =>
    intro slot hmem
    rw [takeSlot] at h
    split at h
    · rename_i hfirst
      rcases mem_cons.mp hmem with rfl | hrest
      · exact hfirst
      · exact ih (map_eq_none_iff.mp h) slot hrest
    · cases h

theorem takeSlot_some {slots : List BuilderSlot} {taken : Nat × Nat × List BuilderSlot}
    (h : takeSlot slots = some taken) : taken.2.2.length = slots.length ∧
      ∀ index slot, taken.2.2[index]? = some slot →
        slots[index]? = some slot ∨ index = taken.1 ∧ slot = ⟨true, taken.2.1⟩ := by
  induction slots generalizing taken with
  | nil => cases h
  | cons first rest ih =>
    rw [takeSlot] at h
    split at h
    · obtain ⟨later, hlater, rfl⟩ := map_eq_some_iff.mp h
      obtain ⟨hlength, hslots⟩ := ih hlater
      refine ⟨congrArg Nat.succ hlength, fun index slot hget => ?_⟩
      cases index with
      | zero => exact .inl hget
      | succ index =>
        exact (hslots index slot hget).imp_right fun ⟨hindex, hslot⟩ =>
          ⟨congrArg Nat.succ hindex, hslot⟩
    · cases h
      refine ⟨rfl, fun index slot hget => ?_⟩
      cases index with
      | zero =>
        cases hget
        exact .inr ⟨rfl, rfl⟩
      | succ index => exact .inl hget

end Synced

end Yaade.Render

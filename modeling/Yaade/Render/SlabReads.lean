import Yaade.Render.SlabRounds

/-!
What an update does to the slabs of a model, and what is read from them.
-/

namespace Yaade.Render.Slabs

open Yaade.Library List Option

/-! ## Cells in arrays -/

namespace CellArrays

variable {arrays : CellArrays} {count start : Nat} {cells : List PackedCell}

theorem blit_counted (h : arrays.Counted count) (hfits : start + cells.length ≤ count) :
    (arrays.blit start cells).Counted count where
  graphemeOffsets := by
    rw [← h.graphemeOffsets]
    exact Buffer.blit_length (by rw [List.length_map, h.graphemeOffsets]; exact hfits)
  graphemeLengths := by
    rw [← h.graphemeLengths]
    exact Buffer.blit_length (by rw [List.length_map, h.graphemeLengths]; exact hfits)
  foregrounds := by
    rw [← h.foregrounds]
    exact Buffer.blit_length (by rw [List.length_map, h.foregrounds]; exact hfits)
  backgrounds := by
    rw [← h.backgrounds]
    exact Buffer.blit_length (by rw [List.length_map, h.backgrounds]; exact hfits)
  styles := by
    rw [← h.styles]
    exact Buffer.blit_length (by rw [List.length_map, h.styles]; exact hfits)

variable {index : Nat}

theorem getD_inside {buffer : List Nat} {field : PackedCell → Nat}
    (hfits : start + cells.length ≤ buffer.length) (hindex : index < cells.length) :
    (Buffer.blit buffer start (cells.map field)).getD (start + index) 0 = field cells[index] := by
  rw [List.getD_eq_getElem?_getD, Buffer.blit_inside (by rw [List.length_map]; exact hfits)
    (by rw [List.length_map]; exact hindex), getElem?_map, getElem?_eq_getElem hindex]
  rfl

theorem getD_outside {buffer : List Nat} {field : PackedCell → Nat}
    (hfits : start + cells.length ≤ buffer.length)
    (hindex : index < start ∨ start + cells.length ≤ index) :
    (Buffer.blit buffer start (cells.map field)).getD index 0 = buffer.getD index 0 := by
  rw [List.getD_eq_getElem?_getD, List.getD_eq_getElem?_getD,
    Buffer.blit_outside (by rw [List.length_map]; exact hfits) (by rw [List.length_map]; exact hindex)]

theorem blit_cellAt_inside (h : arrays.Counted count) (hfits : start + cells.length ≤ count)
    (hindex : index < cells.length) :
    (arrays.blit start cells).cellAt (start + index) = cells[index] := by
  simp only [cellAt, blit, getD_inside (h.graphemeOffsets ▸ hfits) hindex,
    getD_inside (h.graphemeLengths ▸ hfits) hindex, getD_inside (h.foregrounds ▸ hfits) hindex,
    getD_inside (h.backgrounds ▸ hfits) hindex, getD_inside (h.styles ▸ hfits) hindex]

theorem blit_cellAt_outside (h : arrays.Counted count) (hfits : start + cells.length ≤ count)
    (hindex : index < start ∨ start + cells.length ≤ index) :
    (arrays.blit start cells).cellAt index = arrays.cellAt index := by
  simp only [cellAt, blit, getD_outside (h.graphemeOffsets ▸ hfits) hindex,
    getD_outside (h.graphemeLengths ▸ hfits) hindex, getD_outside (h.foregrounds ▸ hfits) hindex,
    getD_outside (h.backgrounds ▸ hfits) hindex, getD_outside (h.styles ▸ hfits) hindex]

theorem zero_counted (count : Nat) : (zero count).Counted count :=
  ⟨length_replicate, length_replicate, length_replicate, length_replicate,
    length_replicate⟩

end CellArrays

namespace GhosttyViewportModel

variable {model other : GhosttyViewportModel} {row column : Nat}

/-! ## Rows -/

/-- The arrays have an entry for each cell or row. -/
structure Sized (model : GhosttyViewportModel) : Prop where
  cells : model.cells.Counted (model.rows * model.cols)
  rowFlags : model.rowFlags.length = model.rows
  rowGraphemes : model.rowGraphemes.length = model.rows
  decodedRows : model.decodedRows.length = model.rows
  compatibilityRows : model.compatibilityRows.length = model.rows

/-- All that is read when a row is. -/
structure SameRow (row : Nat) (model other : GhosttyViewportModel) : Prop where
  cols : other.cols = model.cols
  rows : other.rows = model.rows
  cells : ∀ column < model.cols, other.cellAt row column = model.cellAt row column
  rowFlags : other.rowFlags[row]? = model.rowFlags[row]?
  rowVersions : other.rowVersions[row]? = model.rowVersions[row]?
  rowGraphemes : other.rowGraphemes[row]? = model.rowGraphemes[row]?
  decodedRows : other.decodedRows[row]? = model.decodedRows[row]?
  compatibilityRows : other.compatibilityRows[row]? = model.compatibilityRows[row]?
  compatibilityVersions : other.compatibilityVersions[row]? = model.compatibilityVersions[row]?

theorem SameRow.refl (row : Nat) (model : GhosttyViewportModel) : SameRow row model model :=
  ⟨rfl, rfl, fun _ _ => rfl, rfl, rfl, rfl, rfl, rfl, rfl⟩

theorem SameRow.trans {third : GhosttyViewportModel} (h : SameRow row model other)
    (h' : SameRow row other third) : SameRow row model third where
  cols := h'.cols.trans h.cols
  rows := h'.rows.trans h.rows
  cells column hcolumn := (h'.cells column (h.cols ▸ hcolumn)).trans (h.cells column hcolumn)
  rowFlags := h'.rowFlags.trans h.rowFlags
  rowVersions := h'.rowVersions.trans h.rowVersions
  rowGraphemes := h'.rowGraphemes.trans h.rowGraphemes
  decodedRows := h'.decodedRows.trans h.decodedRows
  compatibilityRows := h'.compatibilityRows.trans h.compatibilityRows
  compatibilityVersions := h'.compatibilityVersions.trans h.compatibilityVersions

def slab (model : GhosttyViewportModel) (row : Nat) : ViewportRow :=
  ⟨(List.range model.cols).map (model.cellAt row), model.rowFlags.getD row 0,
    model.rowGraphemes.getD row []⟩

/-- Nothing of the row has been read since it was copied. -/
structure Fresh (model : GhosttyViewportModel) (row : Nat) : Prop where
  decodedRows : model.decodedRows[row]? = some none
  compatibilityRows : model.compatibilityRows[row]? = some none

theorem SameRow.slab (h : SameRow row model other) : other.slab row = model.slab row := by
  have hcells : (List.range other.cols).map (other.cellAt row) =
      (List.range model.cols).map (model.cellAt row) := by
    rw [h.cols]
    exact List.map_congr_left fun column hmem => h.cells column (mem_range.mp hmem)
  simp only [GhosttyViewportModel.slab, hcells, List.getD_eq_getElem?_getD, h.rowFlags,
    h.rowGraphemes]

theorem SameRow.fresh (h : SameRow row model other) (hfresh : model.Fresh row) : other.Fresh row :=
  ⟨h.decodedRows.trans hfresh.decodedRows, h.compatibilityRows.trans hfresh.compatibilityRows⟩

def header (model : GhosttyViewportModel) : GhosttyViewportModel :=
  { model with
    cells := .zero 0
    rowFlags := []
    rowVersions := []
    rowGraphemes := []
    decodedRows := []
    compatibilityRows := []
    compatibilityVersions := []
    dirtyRows := [] }

theorem size_of_header (h : other.header = model.header) :
    other.cols = model.cols ∧ other.rows = model.rows := by
  have hcols : other.header.cols = model.header.cols := by rw [h]
  have hrows : other.header.rows = model.header.rows := by rw [h]
  exact ⟨hcols, hrows⟩

/-! ## Copying -/

section Copy

variable {cols : Nat} {graphemes : List UInt8} {packed : PackedRow}

/-- The row fits the model, and its texts are in the payload. -/
structure Fits (cols rows : Nat) (graphemes : List UInt8) (packed : PackedRow) : Prop where
  row : packed.row < rows
  cells : packed.cells.length = cols
  texts : ∀ cell ∈ packed.cells, cell.graphemeOffset + cell.graphemeLength ≤ graphemes.length

theorem copyCells_length (target : Nat) (cells : List PackedCell) :
    (Yaade.Render.GhosttyViewportModel.copyCells target cells).length = cells.length := by
  induction cells generalizing target with
  | nil => rfl
  | cons cell rest ih =>
    rw [Yaade.Render.GhosttyViewportModel.copyCells, length_cons, length_cons, ih]

theorem copyRow_header : (model.copyRow cols graphemes packed).2.header = model.header := by
  unfold copyRow
  dsimp only
  split <;> rfl

theorem copyRow_eq (htexts : ∀ cell ∈ packed.cells,
      cell.graphemeOffset + cell.graphemeLength ≤ graphemes.length) :
    model.copyRow cols graphemes packed = (true, { model with
      cells := model.cells.blit (packed.row * cols)
        (Yaade.Render.GhosttyViewportModel.copyCells 0 packed.cells)
      rowGraphemes := model.rowGraphemes.set packed.row
        (packed.cells.flatMap (Yaade.Render.GhosttyViewportModel.slice graphemes))
      rowFlags := model.rowFlags.set packed.row packed.flags
      rowVersions := model.rowVersions.set packed.row
        (uint32 (model.rowVersions.getD packed.row 0 + 1))
      decodedRows := model.decodedRows.set packed.row none
      compatibilityRows := model.compatibilityRows.set packed.row none }) := by
  unfold copyRow
  dsimp only
  rw [if_pos]
  simpa only [List.all_eq_true, decide_eq_true_eq] using htexts

theorem copyRow_room (hfits : Fits model.cols model.rows graphemes packed) :
    packed.row * model.cols +
      (Yaade.Render.GhosttyViewportModel.copyCells 0 packed.cells).length ≤
        model.rows * model.cols := by
  rw [copyCells_length, hfits.cells]
  exact Buffer.row_inside hfits.row

variable (hsized : model.Sized) (hfits : Fits model.cols model.rows graphemes packed)
include hsized hfits

theorem copyRow_sized : (model.copyRow model.cols graphemes packed).2.Sized := by
  rw [copyRow_eq hfits.texts]
  exact ⟨CellArrays.blit_counted hsized.cells (copyRow_room hfits),
    length_set.trans hsized.rowFlags, length_set.trans hsized.rowGraphemes,
    length_set.trans hsized.decodedRows, length_set.trans hsized.compatibilityRows⟩

theorem copyRow_slab : (model.copyRow model.cols graphemes packed).2.slab packed.row =
      Yaade.Render.GhosttyViewportModel.copyRow graphemes packed ∧
    (model.copyRow model.cols graphemes packed).2.Fresh packed.row := by
  have hlength := (copyCells_length 0 packed.cells).trans hfits.cells
  rw [copyRow_eq hfits.texts]
  constructor
  · have hcells : (List.range model.cols).map (fun column =>
        (model.cells.blit (packed.row * model.cols)
          (Yaade.Render.GhosttyViewportModel.copyCells 0 packed.cells)).cellAt
            (packed.row * model.cols + column)) =
          Yaade.Render.GhosttyViewportModel.copyCells 0 packed.cells := by
      apply ext_getElem (by rw [List.length_map, length_range, hlength])
      intro column _ hcolumn
      rw [getElem_map, getElem_range]
      exact CellArrays.blit_cellAt_inside hsized.cells (copyRow_room hfits) hcolumn
    have hflags : packed.row < model.rowFlags.length := hsized.rowFlags ▸ hfits.row
    have hbytes : packed.row < model.rowGraphemes.length := hsized.rowGraphemes ▸ hfits.row
    simp only [slab, List.getD_eq_getElem?_getD, getElem?_set_self hflags,
      getElem?_set_self hbytes, getD_some, Yaade.Render.GhosttyViewportModel.copyRow,
      ViewportRow.mk.injEq, and_true]
    exact hcells
  · exact ⟨getElem?_set_self (hsized.decodedRows ▸ hfits.row),
      getElem?_set_self (hsized.compatibilityRows ▸ hfits.row)⟩

theorem copyRow_other (h : row ≠ packed.row) :
    SameRow row model (model.copyRow model.cols graphemes packed).2 := by
  have hlength := (copyCells_length 0 packed.cells).trans hfits.cells
  rw [copyRow_eq hfits.texts]
  refine ⟨rfl, rfl, fun column hcolumn => ?_, getElem?_set_ne h.symm,
    getElem?_set_ne h.symm, getElem?_set_ne h.symm, getElem?_set_ne h.symm,
    getElem?_set_ne h.symm, rfl⟩
  apply CellArrays.blit_cellAt_outside hsized.cells (copyRow_room hfits)
  rw [hlength]
  exact Buffer.row_apart hcolumn h

end Copy

section Rows

variable {cols : Nat} {graphemes : List UInt8}

theorem copyRows_accepts {packed : List PackedRow} (hrows : ∀ row ∈ packed, row.row < model.rows)
    (htexts : ∀ row ∈ packed, ∀ cell ∈ row.cells,
      cell.graphemeOffset + cell.graphemeLength ≤ graphemes.length) :
    (copyRows cols graphemes model packed).1 = true := by
  induction packed generalizing model with
  | nil => rfl
  | cons first rest ih =>
    have hcopy := @copyRow_eq model cols graphemes first (htexts first mem_cons_self)
    rw [copyRows, if_neg (Nat.not_le.mpr (hrows first mem_cons_self)), hcopy]
    exact ih (fun row hmem => hrows row (mem_cons_of_mem first hmem))
      fun row hmem => htexts row (mem_cons_of_mem first hmem)

theorem copyRows_header (packed : List PackedRow) :
    (copyRows cols graphemes model packed).2.header = model.header := by
  induction packed generalizing model with
  | nil => rfl
  | cons first rest ih =>
    have hcopy := @copyRow_header model cols graphemes first
    rw [copyRows]
    split
    · rfl
    dsimp only
    split
    · exact ih.trans hcopy
    · exact hcopy

theorem copyRows_other {packed : List PackedRow} (hsized : model.Sized)
    (hfits : ∀ row ∈ packed, Fits model.cols model.rows graphemes row)
    (h : ∀ other ∈ packed, row ≠ other.row) :
    SameRow row model (copyRows model.cols graphemes model packed).2 := by
  induction packed generalizing model with
  | nil => exact .refl row model
  | cons first rest ih =>
    have hfirst := hfits first mem_cons_self
    have hother := copyRow_other hsized hfirst (h first mem_cons_self)
    have hnext := copyRow_sized hsized hfirst
    have hcols := hother.cols
    rw [copyRows, if_neg (Nat.not_le.mpr hfirst.row)]
    rw [copyRow_eq hfirst.texts] at hother hnext ⊢
    exact hother.trans (ih hnext (fun row hmem => hfits row (mem_cons_of_mem first hmem))
      fun other hmem => h other (mem_cons_of_mem first hmem))

theorem copyRows_slab {packed : List PackedRow} (hsized : model.Sized)
    (hfits : ∀ row ∈ packed, Fits model.cols model.rows graphemes row)
    (hdist : (packed.map PackedRow.row).Nodup) {copied : PackedRow} (hmem : copied ∈ packed) :
    (copyRows model.cols graphemes model packed).2.slab copied.row =
      Yaade.Render.GhosttyViewportModel.copyRow graphemes copied ∧
    (copyRows model.cols graphemes model packed).2.Fresh copied.row := by
  induction packed generalizing model with
  | nil => exact absurd hmem not_mem_nil
  | cons first rest ih =>
    have hfirst := hfits first mem_cons_self
    have hrest := fun row hmem => hfits row (mem_cons_of_mem first hmem)
    have hslab := copyRow_slab hsized hfirst
    have hnext := copyRow_sized hsized hfirst
    rw [map_cons, nodup_cons] at hdist
    rw [copyRows, if_neg (Nat.not_le.mpr hfirst.row)]
    rw [copyRow_eq hfirst.texts] at hslab hnext ⊢
    rcases mem_cons.mp hmem with rfl | hlater
    · have hother := @copyRows_other _ copied.row _ _ hnext hrest fun other hother hsame =>
        hdist.1 (hsame ▸ mem_map_of_mem hother)
      exact ⟨hother.slab.trans hslab.1, hother.fresh hslab.2⟩
    · exact ih hnext hrest hdist.2 hlater

end Rows

/-! ## Applying -/

def begin (model : GhosttyViewportModel) (update : GhosttyRenderUpdate) : GhosttyViewportModel :=
  { (if update.full ∨ update.cols ≠ model.cols ∨ update.rows ≠ model.rows then
      model.allocate update.cols update.rows else model) with
    frameId := update.frameId
    generation := update.generation
    foreground := update.foreground
    background := update.background
    cursor := update.cursor
    cursorX := update.cursorX
    cursorY := update.cursorY
    cursorVisible := update.cursorVisible
    cursorBlinking := update.cursorBlinking
    cursorStyle := update.cursorStyle }

theorem begin_rows (update : GhosttyRenderUpdate) : (model.begin update).rows = update.rows ∧
    (model.begin update).cols = update.cols := by
  unfold begin
  split
  · exact ⟨rfl, rfl⟩
  rename_i h
  simp only [not_or, Decidable.not_not] at h
  exact ⟨h.2.2.symm, h.2.1.symm⟩

variable {update : GhosttyRenderUpdate}

theorem checks_packed (h : update.checks = true) :
    ∀ packed ∈ update.packedRows, packed.row < update.rows ∧ ∀ cell ∈ packed.cells,
      cell.graphemeOffset + cell.graphemeLength ≤ update.graphemes.length := by
  simp only [GhosttyRenderUpdate.checks, Bool.and_eq_true, decide_eq_true_eq, List.all_eq_true,
    mem_range] at h
  obtain ⟨⟨⟨⟨-, -⟩, -⟩, hascending⟩, hvalid⟩ := h
  intro packed hmem
  obtain ⟨⟨row, number⟩, hzip, rfl⟩ := List.mem_map.mp hmem
  obtain ⟨-, hnumber, hrow⟩ := mem_zipIdx hzip
  rw [Nat.zero_add] at hnumber
  constructor
  · have hbounded : ∀ least, GhosttyRenderUpdate.ascending update.rows least update.dirtyRows = true →
        ∀ row ∈ update.dirtyRows, row < update.rows := by
      induction update.dirtyRows with
      | nil => exact fun _ _ _ hmem => absurd hmem not_mem_nil
      | cons first rest ih =>
        intro least hleast row hmem
        simp only [GhosttyRenderUpdate.ascending, Bool.and_eq_true, decide_eq_true_eq] at hleast
        rcases mem_cons.mp hmem with rfl | hlater
        · exact hleast.1.2
        · exact ih _ hleast.2 row hlater
    exact hbounded 0 hascending row (hrow ▸ getElem_mem _)
  · intro cell hcell
    obtain ⟨column, hcolumn, rfl⟩ := List.mem_map.mp hcell
    have hindex : number * update.cols + column < update.dirtyRows.length * update.cols :=
      Nat.lt_of_lt_of_le (Nat.add_lt_add_left (mem_range.mp hcolumn) _) (Buffer.row_inside hnumber)
    have hcellValid := hvalid _ hindex
    simp only [validCell, Bool.and_eq_true, decide_eq_true_eq] at hcellValid
    exact hcellValid.1.1

theorem copyRows_begin (h : update.checks = true) :
    (copyRows update.cols update.graphemes (model.begin update) update.packedRows).1 = true := by
  have hpacked := checks_packed h
  apply copyRows_accepts
  · rw [(begin_rows update).1]
    exact fun row hmem => (hpacked row hmem).1
  · exact fun row hmem => (hpacked row hmem).2

def advanced (model : GhosttyViewportModel) (update : GhosttyRenderUpdate) : GhosttyViewportModel :=
  { (copyRows update.cols update.graphemes (model.begin update) update.packedRows).2 with
    dirtyRows := update.dirtyRows }

theorem advanced_header (update : GhosttyRenderUpdate) :
    (model.advanced update).header = (model.begin update).header :=
  copyRows_header update.packedRows

/-- What makes a model take an update that passed the checks. -/
structure Takes (model : GhosttyViewportModel) (update : GhosttyRenderUpdate) : Prop where
  newer : model.generation < update.generation ∨
    model.generation = update.generation ∧ model.frameId < update.frameId
  full : update.full = true ∨ model.generation = update.generation ∧ model.cols = update.cols ∧
    model.rows = update.rows

theorem apply_accepts {value : Value}
    (hparse : value.bind parse? = some update) (hchecks : update.checks = true)
    (htakes : model.Takes update) : model.apply value = (true, model.advanced update) := by
  have hcopied := @copyRows_begin model _ hchecks
  unfold apply
  rw [hparse]
  dsimp only
  rw [hchecks, if_neg (by simp), if_neg, if_neg, if_neg, if_neg]
  · change (_, if (copyRows update.cols update.graphemes (model.begin update)
      update.packedRows).1 = true then _ else _) = _
    rw [if_pos hcopied]
    exact Prod.ext hcopied rfl
  · rintro ⟨hsize, hpart⟩
    obtain ⟨-, hcols, hrows⟩ := htakes.full.resolve_left (Bool.eq_false_iff.mp hpart)
    rcases hsize with hfull | hother | hother
    · exact Bool.eq_false_iff.mp hpart hfull
    · exact hother hcols.symm
    · exact hother hrows.symm
  · rintro ⟨hlater, hpart⟩
    obtain ⟨hsame, -⟩ := htakes.full.resolve_left (Bool.eq_false_iff.mp hpart)
    exact absurd hsame (Nat.ne_of_lt hlater)
  · rintro ⟨hsame, hold⟩
    rcases htakes.newer with hlater | ⟨-, hframe⟩
    · exact absurd hsame.symm (Nat.ne_of_lt hlater)
    · exact absurd hold (Nat.not_le.mpr hframe)
  · rcases htakes.newer with hlater | ⟨hsame, -⟩
    · exact Nat.not_lt.mpr (Nat.le_of_lt hlater)
    · exact Nat.not_lt.mpr (Nat.le_of_eq hsame)

theorem apply_cases (model : GhosttyViewportModel) (value : Value) :
    model.apply value = (false, model) ∨ ∃ update, update.checks = true ∧ model.Takes update ∧
      model.apply value = (true, model.advanced update) := by
  cases hparse : value.bind parse? with
  | none => exact .inl (by rw [apply, hparse])
  | some update =>
    by_cases htakes : update.checks = true ∧ model.Takes update
    · exact .inr ⟨update, htakes.1, htakes.2, apply_accepts hparse htakes.1 htakes.2⟩
    refine .inl ?_
    rw [apply, hparse]
    dsimp only
    split_ifs with hchecks hgen hframe hlater hsize
    · rfl
    · rfl
    · rfl
    · rfl
    · rfl
    all_goals
      refine absurd ⟨by simpa using hchecks, ?_, ?_⟩ htakes
      · omega
      · cases hfull : update.full with
        | true => exact .inl rfl
        | false =>
          simp only [hfull, Bool.false_eq_true, false_or, and_true, not_or, not_lt,
            Decidable.not_not] at hlater hsize
          exact .inr ⟨by omega, hsize.1.symm, hsize.2.symm⟩

theorem apply_advances (model : GhosttyViewportModel) (value : Value) :
    model.apply value = (false, model) ∨ (model.apply value).1 = true ∧
      (model.generation < (model.apply value).2.generation ∨
        model.generation = (model.apply value).2.generation ∧
          model.frameId < (model.apply value).2.frameId) := by
  rcases apply_cases model value with hrejected | ⟨update, -, htakes, hadvanced⟩
  · exact .inl hrejected
  have hgen : (model.advanced update).generation = update.generation :=
    congrArg GhosttyViewportModel.generation (@advanced_header model update)
  have hframe : (model.advanced update).frameId = update.frameId :=
    congrArg GhosttyViewportModel.frameId (@advanced_header model update)
  rw [hadvanced]
  refine .inr ⟨rfl, ?_⟩
  rw [hgen, hframe]
  exact htakes.newer

/-! ## Reading -/

section Reading

theorem textAt_header : (model.textAt row column).2.header = model.header := by
  unfold textAt
  dsimp only
  split
  · rfl
  · split <;> rfl

theorem textAt_other {another : Nat} (h : another ≠ row) :
    SameRow another model (model.textAt row column).2 := by
  unfold textAt
  dsimp only
  split
  · exact .refl another model
  · split <;> exact ⟨rfl, rfl, fun _ _ => rfl, rfl, rfl, rfl, getElem?_set_ne h.symm, rfl, rfl⟩

section

variable (h : SameRow row model other)
include h

theorem SameRow.decodeAt (hcolumn : column < model.cols) :
    other.decodeAt row column = model.decodeAt row column := by
  rw [GhosttyViewportModel.decodeAt, GhosttyViewportModel.decodeAt, h.cells column hcolumn,
    List.getD_eq_getElem?_getD, List.getD_eq_getElem?_getD, h.rowGraphemes]

theorem SameRow.decoded : other.decoded row = model.decoded row := by
  rw [GhosttyViewportModel.decoded, GhosttyViewportModel.decoded, h.cols,
    List.getD_eq_getElem?_getD, List.getD_eq_getElem?_getD, h.decodedRows]

theorem SameRow.keep (cache : Option (List (Option String))) :
    SameRow row { model with decodedRows := model.decodedRows.set row cache }
      { other with decodedRows := other.decodedRows.set row cache } :=
  { h with decodedRows := by rw [getElem?_set_self', getElem?_set_self', h.decodedRows] }

theorem textAt_same : (other.textAt row column).1 = (model.textAt row column).1 ∧
      SameRow row (model.textAt row column).2 (other.textAt row column).2 := by
  unfold textAt
  by_cases houtside : model.rows ≤ row ∨ model.cols ≤ column
  · rw [if_pos houtside, if_pos (by rw [h.rows, h.cols]; exact houtside)]
    exact ⟨rfl, h⟩
  rw [if_neg houtside, if_neg (by rw [h.rows, h.cols]; exact houtside)]
  simp only [not_or, Nat.not_le] at houtside
  dsimp only
  rw [h.decoded, h.decodeAt houtside.2]
  split
  · exact ⟨rfl, h.keep _⟩
  · exact ⟨rfl, h.keep _⟩

end

theorem materializeCells_other {another : Nat} (h : another ≠ row) (columns : List Nat) :
    SameRow another model (materializeCells row model columns).2 := by
  induction columns generalizing model with
  | nil => exact .refl another model
  | cons column rest ih => exact (textAt_other h).trans (@ih (model.textAt row column).2)

theorem materializeCells_same (h : SameRow row model other) {columns : List Nat}
    (hcolumns : ∀ column ∈ columns, column < model.cols) :
    (materializeCells row other columns).1 = (materializeCells row model columns).1 ∧
      SameRow row (materializeCells row model columns).2 (materializeCells row other columns).2 := by
  induction columns generalizing model other with
  | nil => exact ⟨rfl, h⟩
  | cons column rest ih =>
    have htext := @textAt_same _ _ _ column h
    obtain ⟨hcols, -⟩ := size_of_header (@textAt_header model row column)
    have hrest := ih htext.2 fun column hmem =>
      hcols ▸ hcolumns column (mem_cons_of_mem _ hmem)
    simp only [materializeCells, htext.1, hrest.1, h.cells column (hcolumns column mem_cons_self)]
    exact ⟨trivial, hrest.2⟩

theorem materializeRow_other {another : Nat} (h : another ≠ row) :
    SameRow another model (model.materializeRow row).2 := by
  have hcells := @materializeCells_other model _ _ h (List.range model.cols)
  unfold materializeRow
  dsimp only
  split
  · exact .refl another model
  exact { hcells with
    compatibilityRows := (getElem?_set_ne h.symm).trans hcells.compatibilityRows
    compatibilityVersions := (getElem?_set_ne h.symm).trans hcells.compatibilityVersions }

theorem materializeRow_same (h : SameRow row model other) :
    (other.materializeRow row).1 = (model.materializeRow row).1 := by
  have hcells := (@materializeCells_same _ _ _ h (List.range model.cols) fun _ hmem =>
    mem_range.mp hmem).1
  unfold materializeRow
  simp only [List.getD_eq_getElem?_getD, h.rowVersions, h.compatibilityRows,
    h.compatibilityVersions, h.cols, h.rowFlags, hcells]
  split <;> rfl

theorem materializeRows_values {rows : List Nat} (hdist : rows.Nodup) :
    (materializeRows model rows).1 = rows.map fun row => (model.materializeRow row).1 := by
  induction rows generalizing model with
  | nil => rfl
  | cons first rest ih =>
    rw [nodup_cons] at hdist
    rw [materializeRows, map_cons]
    dsimp only
    rw [ih hdist.2]
    congr 1
    apply List.map_congr_left
    intro row hmem
    exact materializeRow_same (materializeRow_other fun hsame => hdist.1 (hsame ▸ hmem))

theorem snapshot_rowData : model.snapshot.1.rowData =
    (List.range model.rows).map fun row => (model.materializeRow row).1 :=
  materializeRows_values nodup_range

def Faithful (model : GhosttyViewportModel) (row : Nat) : Prop :=
  ∀ column text, (model.decoded row).getD column none = some text →
    text = model.decodeAt row column

theorem Fresh.faithful (h : model.Fresh row) : model.Faithful row := by
  intro column text htext
  rw [decoded, List.getD_eq_getElem?_getD, List.getD_eq_getElem?_getD, h.decodedRows,
    getD_some, getD_none, getElem?_replicate] at htext
  split at htext <;> cases htext

theorem Faithful.keep {cache : List (Option String)} (h : model.Faithful row)
    (hcache : ∀ column text, cache.getD column none = some text → text = model.decodeAt row column) :
    Faithful { model with decodedRows := model.decodedRows.set row (some cache) } row := by
  intro column text htext
  rcases Nat.lt_or_ge row model.decodedRows.length with hlt | hge
  · have hdecoded : decoded { model with decodedRows := model.decodedRows.set row (some cache) } row =
        cache := by
      simp only [decoded, List.getD_eq_getElem?_getD, getElem?_set_self hlt, getD_some]
    exact hcache column text (hdecoded ▸ htext)
  · rw [set_eq_of_length_le hge] at htext
    exact h column text htext

theorem textAt_faithful (h : model.Faithful row) (hrow : row < model.rows)
    (hcolumn : column < model.cols) : (model.textAt row column).1 = model.decodeAt row column ∧
      (model.textAt row column).2.Faithful row ∧
      (∀ other, (model.textAt row column).2.decodeAt row other = model.decodeAt row other) ∧
      ∀ other, (model.textAt row column).2.cellAt row other = model.cellAt row other := by
  unfold textAt
  rw [if_neg (by omega)]
  dsimp only
  split
  · rename_i value hcached
    exact ⟨h column value hcached, h.keep h, fun _ => rfl, fun _ => rfl⟩
  refine ⟨rfl, h.keep fun other text htext => ?_, fun _ => rfl, fun _ => rfl⟩
  rw [List.getD_eq_getElem?_getD, getElem?_set] at htext
  split at htext
  · rename_i hsame
    subst hsame
    split at htext
    · exact (Option.some.inj htext).symm
    · cases htext
  · rw [← List.getD_eq_getElem?_getD] at htext
    exact h other text htext

theorem materializeCells_faithful (h : model.Faithful row) (hrow : row < model.rows)
    {columns : List Nat} (hcolumns : ∀ column ∈ columns, column < model.cols) :
    (materializeCells row model columns).1 = columns.map fun column =>
      materializeCell (model.cellAt row column) (model.decodeAt row column) := by
  induction columns generalizing model with
  | nil => rfl
  | cons column rest ih =>
    obtain ⟨hcols, hrows⟩ := size_of_header (@textAt_header model row column)
    obtain ⟨htext, hfaithful, hdecode, hcells⟩ :=
      textAt_faithful h hrow (hcolumns column mem_cons_self)
    have hrest := ih hfaithful (hrows ▸ hrow) fun column hmem =>
      hcols ▸ hcolumns column (mem_cons_of_mem _ hmem)
    simp only [materializeCells, htext, hrest, hdecode, hcells, map_cons]

theorem materializeRow_fresh (h : model.Fresh row) (hrow : row < model.rows) :
    (model.materializeRow row).1 =
      ⟨(List.range model.cols).map fun column =>
          materializeCell (model.cellAt row column) (model.decodeAt row column),
        model.rowFlags.getD row 0 &&& 1 ≠ 0, model.rowFlags.getD row 0 &&& 2 ≠ 0⟩ := by
  have hcells := @materializeCells_faithful _ _ h.faithful hrow (List.range model.cols)
    fun _ hmem => mem_range.mp hmem
  unfold materializeRow
  rw [List.getD_eq_getElem?_getD (l := model.compatibilityRows), h.compatibilityRows]
  simp only [getD_some, filter_none, hcells]

end Reading

end GhosttyViewportModel

end Yaade.Render.Slabs

import Mathlib.Tactic

/-!
Packed render updates: the rows of a viewport that changed, with the text of
their cells in one payload, and the model of the viewport that they are copied
into on the other side.
-/

namespace Yaade.Render

instance byte_neZero : NeZero 256 := ⟨by decide⟩

structure GhosttyColor where
  r : Fin 256
  g : Fin 256
  b : Fin 256
  deriving DecidableEq

def packGhosttyColor (color : GhosttyColor) : Nat :=
  color.r * 65536 + color.g * 256 + color.b

def unpackGhosttyColor (color : Nat) : GhosttyColor :=
  ⟨⟨color / 65536 % 256, Nat.mod_lt _ (by decide)⟩, ⟨color / 256 % 256, Nat.mod_lt _ (by decide)⟩,
    ⟨color % 256, Nat.mod_lt _ (by decide)⟩⟩

/-- A cell: its text in UTF-8 and its attributes as they are packed. -/
structure GhosttyCell where
  text : List UInt8
  foreground : GhosttyColor
  background : GhosttyColor
  style : Nat
  deriving DecidableEq

structure GhosttyRow where
  cells : List GhosttyCell
  isWrapContinuation : Bool
  wrapsToNext : Bool
  deriving DecidableEq

def GhosttyRow.text (row : GhosttyRow) : List UInt8 := row.cells.flatMap GhosttyCell.text

structure GhosttyCursor where
  x : Int
  y : Int
  visible : Bool
  blinking : Bool
  style : Nat
  deriving DecidableEq

/-- The part of the screen that is read again only where it is dirty. -/
structure Frame where
  cols : Nat
  foreground : GhosttyColor
  background : GhosttyColor
  cursor : GhosttyColor
  rowData : List GhosttyRow
  deriving DecidableEq

/-- The sizes a terminal can have. -/
structure Frame.Sized (frame : Frame) : Prop where
  cols_pos : 1 ≤ frame.cols
  cols_le : frame.cols ≤ 65535
  rows_pos : 1 ≤ frame.rowData.length
  rows_le : frame.rowData.length ≤ 65535
  cells : ∀ row ∈ frame.rowData, row.cells.length = frame.cols

structure Picture where
  frame : Frame
  cursor : GhosttyCursor
  deriving DecidableEq

/-! ## Updates -/

structure PackedCell where
  graphemeOffset : Nat
  graphemeLength : Nat
  foreground : Nat
  background : Nat
  style : Nat
  deriving DecidableEq

structure PackedRow where
  row : Nat
  flags : Nat
  cells : List PackedCell
  deriving DecidableEq

structure GhosttyRenderUpdate where
  frameId : Nat
  generation : Nat
  cols : Nat
  rows : Nat
  full : Bool
  foreground : Nat
  background : Nat
  cursorColor : Nat
  cursor : GhosttyCursor
  dirtyRows : List PackedRow
  graphemes : List UInt8
  deriving DecidableEq

def packCells (offset : Nat) : List GhosttyCell → List PackedCell
  | [] => []
  | cell :: rest =>
    ⟨offset, cell.text.length, packGhosttyColor cell.foreground,
      packGhosttyColor cell.background, cell.style⟩ ::
      packCells (offset + cell.text.length) rest

def packFlags (row : GhosttyRow) : Nat :=
  (if row.isWrapContinuation then 1 else 0) + if row.wrapsToNext then 2 else 0

def packRows (offset : Nat) : List (Nat × GhosttyRow) → List PackedRow
  | [] => []
  | (index, row) :: rest =>
    ⟨index, packFlags row, packCells offset row.cells⟩ :: packRows (offset + row.text.length) rest

def rowsAt (rowData : List GhosttyRow) (indices : List Nat) : List (Nat × GhosttyRow) :=
  indices.filterMap fun index => (rowData[index]?).map (Prod.mk index)

/-- The update of a builder slot: all rows, or the dirty ones in ascending
order. -/
def buildUpdate (picture : Picture) (dirtyRows : List Nat) (frameId generation : Nat) (full : Bool) :
    GhosttyRenderUpdate :=
  let frame := picture.frame
  let rows := rowsAt frame.rowData (if full then List.range frame.rowData.length else dirtyRows)
  { frameId, generation, full
    cols := frame.cols
    rows := frame.rowData.length
    foreground := packGhosttyColor frame.foreground
    background := packGhosttyColor frame.background
    cursorColor := packGhosttyColor frame.cursor
    cursor := picture.cursor
    dirtyRows := packRows 0 rows
    graphemes := rows.flatMap fun row => row.2.text }

def maxSafeInteger : Nat := 2 ^ 53 - 1

def isColor (value : Nat) : Bool := value ≤ 0xffffff

def ascending (rows : Nat) : Nat → List PackedRow → Bool
  | _, [] => true
  | least, row :: rest => least ≤ row.row && row.row < rows && ascending rows (row.row + 1) rest

def validCell (payload : Nat) (cell : PackedCell) : Bool :=
  cell.graphemeOffset + cell.graphemeLength ≤ payload && isColor cell.foreground &&
    isColor cell.background

def validateGhosttyRenderUpdate (update : GhosttyRenderUpdate) : Bool :=
  (1 ≤ update.frameId && update.frameId ≤ maxSafeInteger) &&
  (1 ≤ update.generation && update.generation ≤ maxSafeInteger) &&
  (1 ≤ update.cols && update.cols ≤ 65535) && (1 ≤ update.rows && update.rows ≤ 65535) &&
  (isColor update.foreground && isColor update.background && isColor update.cursorColor) &&
  (update.dirtyRows.all fun row => row.cells.length = update.cols) &&
  (!update.full || update.dirtyRows.length = update.rows) &&
  ascending update.rows 0 update.dirtyRows &&
  update.dirtyRows.all fun row => row.cells.all (validCell update.graphemes.length)

/-! ## The model of the viewport -/

structure ViewportRow where
  cells : List PackedCell
  flags : Nat
  graphemes : List UInt8
  deriving DecidableEq

structure GhosttyViewportModel where
  frameId : Nat
  generation : Nat
  cols : Nat
  rows : Nat
  foreground : Nat
  background : Nat
  cursorColor : Nat
  cursor : GhosttyCursor
  rowData : List ViewportRow
  deriving DecidableEq

namespace GhosttyViewportModel

def empty : GhosttyViewportModel :=
  ⟨0, 0, 0, 0, 0xe5e7eb, 0, 0xe5e7eb, ⟨-1, -1, false, false, 0⟩, []⟩

def allocate (cols rows : Nat) : List ViewportRow :=
  List.replicate rows ⟨List.replicate cols ⟨0, 0, 0, 0, 0⟩, 0, []⟩

def slice (payload : List UInt8) (cell : PackedCell) : List UInt8 :=
  (payload.drop cell.graphemeOffset).take cell.graphemeLength

def copyCells (target : Nat) : List PackedCell → List PackedCell
  | [] => []
  | cell :: rest =>
    { cell with graphemeOffset := target } :: copyCells (target + cell.graphemeLength) rest

def copyRow (payload : List UInt8) (row : PackedRow) : ViewportRow :=
  ⟨copyCells 0 row.cells, row.flags, row.cells.flatMap (slice payload)⟩

def copied (model : GhosttyViewportModel) (update : GhosttyRenderUpdate) : GhosttyViewportModel :=
  let target := if update.full then allocate update.cols update.rows else model.rowData
  { frameId := update.frameId
    generation := update.generation
    cols := update.cols
    rows := update.rows
    foreground := update.foreground
    background := update.background
    cursorColor := update.cursorColor
    cursor := update.cursor
    rowData := update.dirtyRows.foldl
      (fun rows row => rows.set row.row (copyRow update.graphemes row)) target }

def apply (model : GhosttyViewportModel) (update : GhosttyRenderUpdate) :
    Option GhosttyViewportModel :=
  if !validateGhosttyRenderUpdate update then none
  else if update.generation < model.generation then none
  else if update.generation = model.generation ∧ update.frameId ≤ model.frameId then none
  else if update.generation > model.generation ∧ update.full = false then none
  else if (update.cols ≠ model.cols ∨ update.rows ≠ model.rows) ∧ update.full = false then none
  else some (model.copied update)

def materializeCell (row : ViewportRow) (cell : PackedCell) : GhosttyCell :=
  ⟨slice row.graphemes cell, unpackGhosttyColor cell.foreground,
    unpackGhosttyColor cell.background, cell.style⟩

def materializeRow (row : ViewportRow) : GhosttyRow :=
  ⟨row.cells.map (materializeCell row), row.flags % 2 = 1, row.flags / 2 % 2 = 1⟩

def snapshot (model : GhosttyViewportModel) : Picture :=
  ⟨⟨model.cols, unpackGhosttyColor model.foreground, unpackGhosttyColor model.background,
    unpackGhosttyColor model.cursorColor, model.rowData.map materializeRow⟩, model.cursor⟩

end GhosttyViewportModel

/-! ## What is packed comes out again -/

theorem unpack_pack (color : GhosttyColor) : unpackGhosttyColor (packGhosttyColor color) = color := by
  obtain ⟨⟨r, hr⟩, ⟨g, hg⟩, ⟨b, hb⟩⟩ := color
  simp only [unpackGhosttyColor, packGhosttyColor, GhosttyColor.mk.injEq, Fin.mk.injEq]
  omega

theorem isColor_pack (color : GhosttyColor) : isColor (packGhosttyColor color) = true := by
  obtain ⟨⟨r, hr⟩, ⟨g, hg⟩, ⟨b, hb⟩⟩ := color
  apply decide_eq_true
  simp only [packGhosttyColor]
  omega

section Rows

open GhosttyViewportModel List Option

variable {cells : List GhosttyCell} {payload before after : List UInt8}

theorem take_drop_middle (before middle after : List UInt8) :
    ((before ++ (middle ++ after)).drop before.length).take middle.length = middle := by
  rw [drop_left, take_left]

theorem slices_pack (cells : List GhosttyCell) (before after : List UInt8) :
    (packCells before.length cells).flatMap
      (slice (before ++ (cells.flatMap GhosttyCell.text ++ after))) =
        cells.flatMap GhosttyCell.text := by
  induction cells generalizing before with
  | nil => rfl
  | cons cell rest ih =>
    have hrest := ih (before ++ cell.text)
    simp only [length_append, append_assoc] at hrest
    simp only [packCells, flatMap_cons, append_assoc, hrest, slice, take_drop_middle]

theorem copyCells_pack (row : ViewportRow) (cells : List GhosttyCell) (offset : Nat)
    (before : List UInt8) (h : row.graphemes = before ++ cells.flatMap GhosttyCell.text) :
    (copyCells before.length (packCells offset cells)).map (materializeCell row) = cells := by
  induction cells generalizing before offset with
  | nil => rfl
  | cons cell rest ih =>
    have hrest := ih (offset + cell.text.length) (before ++ cell.text) (by
      rw [h, flatMap_cons, append_assoc])
    rw [length_append] at hrest
    have hslice : slice row.graphemes ⟨before.length, cell.text.length,
        packGhosttyColor cell.foreground, packGhosttyColor cell.background, cell.style⟩ =
          cell.text := by
      rw [h, flatMap_cons, slice]
      exact take_drop_middle _ _ _
    simp only [packCells, copyCells, map_cons, hrest, materializeCell, hslice, unpack_pack]

theorem materialize_copy (row : GhosttyRow) (index : Nat) (before after : List UInt8) :
    materializeRow (copyRow (before ++ (row.text ++ after))
      ⟨index, packFlags row, packCells before.length row.cells⟩) = row := by
  obtain ⟨cells, isWrapContinuation, wrapsToNext⟩ := row
  have hbytes := slices_pack cells before after
  have hcells := copyCells_pack ⟨copyCells 0 (packCells before.length cells),
    packFlags ⟨cells, isWrapContinuation, wrapsToNext⟩, cells.flatMap GhosttyCell.text⟩ cells
    before.length [] rfl
  have hflags : decide (packFlags ⟨cells, isWrapContinuation, wrapsToNext⟩ % 2 = 1) =
      isWrapContinuation ∧ decide (packFlags ⟨cells, isWrapContinuation, wrapsToNext⟩ / 2 % 2 = 1) =
        wrapsToNext := by
    cases isWrapContinuation <;> cases wrapsToNext <;> simp [packFlags]
  simp only [copyRow, GhosttyRow.text, hbytes, materializeRow, GhosttyRow.mk.injEq]
  exact ⟨hcells, hflags⟩

theorem materialize_rows (rows : List (Nat × GhosttyRow)) (before after : List UInt8) :
    (packRows before.length rows).map (fun row => (row.row, materializeRow
      (copyRow (before ++ ((rows.flatMap fun row => row.2.text) ++ after)) row))) = rows := by
  induction rows generalizing before with
  | nil => rfl
  | cons first rest ih =>
    obtain ⟨index, row⟩ := first
    have hrest := ih (before ++ row.text)
    simp only [length_append, append_assoc] at hrest
    simp only [packRows, flatMap_cons, append_assoc, map_cons, hrest, materialize_copy]

/-! ## What the builder packs is accepted -/

theorem packCells_length (offset : Nat) (cells : List GhosttyCell) :
    (packCells offset cells).length = cells.length := by
  induction cells generalizing offset with
  | nil => rfl
  | cons cell rest ih => rw [packCells, length_cons, length_cons, ih]

theorem packCells_valid (offset : Nat) (cells : List GhosttyCell) :
    ∀ packed ∈ packCells offset cells,
      validCell (offset + (cells.flatMap GhosttyCell.text).length) packed = true := by
  induction cells generalizing offset with
  | nil => exact forall_mem_nil _
  | cons cell rest ih =>
    intro packed hmem
    rw [flatMap_cons, length_append, ← Nat.add_assoc]
    rcases mem_cons.mp hmem with rfl | hrest
    · simp [validCell, isColor_pack]
    · exact ih (offset + cell.text.length) packed hrest

theorem validCell_mono {small large : Nat} {cell : PackedCell} (hle : small ≤ large)
    (h : validCell small cell = true) : validCell large cell = true := by
  simp only [validCell, Bool.and_eq_true, decide_eq_true_eq] at h ⊢
  exact ⟨⟨Nat.le_trans h.1.1 hle, h.1.2⟩, h.2⟩

theorem packRows_valid (offset : Nat) (rows : List (Nat × GhosttyRow)) :
    ∀ packed ∈ packRows offset rows, ∀ cell ∈ packed.cells,
      validCell (offset + (rows.flatMap fun row => row.2.text).length) cell = true := by
  induction rows generalizing offset with
  | nil => exact forall_mem_nil _
  | cons first rest ih =>
    intro packed hmem cell hcell
    rw [flatMap_cons, length_append, ← Nat.add_assoc]
    rcases mem_cons.mp hmem with rfl | hrest
    · exact validCell_mono (Nat.le_add_right _ _) (packCells_valid offset first.2.cells cell hcell)
    · exact ih _ packed hrest cell hcell

theorem packRows_cells {cols : Nat} (offset : Nat) {rows : List (Nat × GhosttyRow)}
    (h : ∀ row ∈ rows, row.2.cells.length = cols) :
    ∀ packed ∈ packRows offset rows, packed.cells.length = cols := by
  induction rows generalizing offset with
  | nil => exact forall_mem_nil _
  | cons first rest ih =>
    intro packed hmem
    rcases mem_cons.mp hmem with rfl | hrest
    · exact (packCells_length _ _).trans (h first mem_cons_self)
    · exact ih _ (fun row hrow => h row (mem_cons_of_mem first hrow)) packed hrest

theorem packRows_indices (offset : Nat) (rows : List (Nat × GhosttyRow)) :
    (packRows offset rows).map PackedRow.row = rows.map Prod.fst := by
  induction rows generalizing offset with
  | nil => rfl
  | cons first rest ih => rw [packRows, map_cons, map_cons, ih]

theorem ascending_of_pairwise {rows least : Nat} {packed : List PackedRow}
    (hsorted : (packed.map PackedRow.row).Pairwise (· < ·))
    (hbounds : ∀ row ∈ packed, least ≤ row.row ∧ row.row < rows) :
    ascending rows least packed = true := by
  induction packed generalizing least with
  | nil => rfl
  | cons first rest ih =>
    rw [map_cons, pairwise_cons] at hsorted
    obtain ⟨hleast, hlast⟩ := hbounds first mem_cons_self
    simp only [ascending, Bool.and_eq_true, decide_eq_true_eq]
    refine ⟨⟨hleast, hlast⟩, ih hsorted.2 fun row hrow => ?_⟩
    exact ⟨hsorted.1 row.row (mem_map_of_mem hrow), (hbounds row (mem_cons_of_mem first hrow)).2⟩

variable {rowData : List GhosttyRow} {indices : List Nat}

theorem mem_rowsAt {index : Nat} {row : GhosttyRow} :
    (index, row) ∈ rowsAt rowData indices ↔ index ∈ indices ∧ rowData[index]? = some row := by
  simp only [rowsAt, mem_filterMap, map_eq_some_iff, Prod.mk.injEq]
  constructor
  · rintro ⟨other, hmem, found, hget, rfl, rfl⟩
    exact ⟨hmem, hget⟩
  · rintro ⟨hmem, hget⟩
    exact ⟨index, hmem, row, hget, rfl, rfl⟩

theorem rowsAt_indices (h : ∀ index ∈ indices, index < rowData.length) :
    (rowsAt rowData indices).map Prod.fst = indices := by
  induction indices with
  | nil => rfl
  | cons index rest ih =>
    have hget := getElem?_eq_getElem (h index mem_cons_self)
    have hrest := ih fun other hmem => h other (mem_cons_of_mem index hmem)
    rw [rowsAt] at hrest ⊢
    rw [filterMap_cons, hget]
    simp only [map_some, map_cons, hrest]

def includedRows (picture : Picture) (dirtyRows : List Nat) (full : Bool) : List Nat :=
  if full then List.range picture.frame.rowData.length else dirtyRows

theorem build_valid {picture : Picture} {dirtyRows : List Nat} {frameId generation : Nat}
    {full : Bool} (hsized : picture.frame.Sized) (hsorted : dirtyRows.Pairwise (· < ·))
    (hrows : ∀ index ∈ dirtyRows, index < picture.frame.rowData.length)
    (hframe : 1 ≤ frameId ∧ frameId ≤ maxSafeInteger)
    (hgen : 1 ≤ generation ∧ generation ≤ maxSafeInteger) :
    validateGhosttyRenderUpdate (buildUpdate picture dirtyRows frameId generation full) = true := by
  have hincluded : ∀ index ∈ includedRows picture dirtyRows full,
      index < picture.frame.rowData.length := by
    intro index hmem
    unfold includedRows at hmem
    split at hmem
    · exact mem_range.mp hmem
    · exact hrows index hmem
  have hpairwise : (includedRows picture dirtyRows full).Pairwise (· < ·) := by
    unfold includedRows
    split
    · exact pairwise_lt_range
    · exact hsorted
  have hindices := (packRows_indices 0 (rowsAt picture.frame.rowData
    (includedRows picture dirtyRows full))).trans (rowsAt_indices hincluded)
  have hcells := @packRows_cells picture.frame.cols 0
    (rowsAt picture.frame.rowData (includedRows picture dirtyRows full))
    fun row hmem => hsized.cells row.2 (mem_of_getElem? (mem_rowsAt.mp hmem).2)
  have hascending : ascending picture.frame.rowData.length 0 (packRows 0
      (rowsAt picture.frame.rowData (includedRows picture dirtyRows full))) = true := by
    apply ascending_of_pairwise
    · rw [hindices]
      exact hpairwise
    · intro row hmem
      refine ⟨Nat.zero_le _, hincluded row.row ?_⟩
      rw [← hindices]
      exact mem_map_of_mem hmem
  have hcount : full = true → (packRows 0 (rowsAt picture.frame.rowData
      (includedRows picture dirtyRows full))).length = picture.frame.rowData.length := by
    intro hfull
    rw [← List.length_map (f := PackedRow.row), hindices, includedRows, if_pos hfull, length_range]
  have hvalid := packRows_valid 0 (rowsAt picture.frame.rowData
    (includedRows picture dirtyRows full))
  simp only [validateGhosttyRenderUpdate, Bool.and_eq_true, decide_eq_true_eq, List.all_eq_true,
    Bool.or_eq_true, Bool.not_eq_true']
  refine ⟨⟨⟨⟨⟨⟨⟨⟨hframe, hgen⟩, hsized.cols_pos, hsized.cols_le⟩, hsized.rows_pos,
    hsized.rows_le⟩, ⟨isColor_pack _, isColor_pack _⟩, isColor_pack _⟩, hcells⟩, ?_⟩, hascending⟩, ?_⟩
  · cases full with
    | false => exact .inl rfl
    | true => exact .inr (hcount rfl)
  · intro packed hmem cell hcell
    have hcellValid := hvalid packed hmem cell hcell
    rw [Nat.zero_add] at hcellValid
    exact hcellValid

/-! ## What the model shows afterwards -/

def setRows (rows : List (Nat × GhosttyRow)) (target : List GhosttyRow) : List GhosttyRow :=
  rows.foldl (fun rows row => rows.set row.1 row.2) target

theorem map_foldl_set {f : PackedRow → ViewportRow} (packed : List PackedRow)
    (target : List ViewportRow) :
    (packed.foldl (fun rows row => rows.set row.row (f row)) target).map materializeRow =
      setRows (packed.map fun row => (row.row, materializeRow (f row)))
        (target.map materializeRow) := by
  induction packed generalizing target with
  | nil => rfl
  | cons first rest ih =>
    rw [foldl_cons, ih, map_cons, map_set]
    rfl

theorem set_rows_length (rows : List (Nat × GhosttyRow)) (target : List GhosttyRow) :
    (setRows rows target).length = target.length := by
  induction rows generalizing target with
  | nil => rfl
  | cons first rest ih => exact (ih (target.set first.1 first.2)).trans length_set

theorem set_rows (rows : List (Nat × GhosttyRow)) (target : List GhosttyRow) (index : Nat)
    (hindex : index < target.length)
    (hfunctional : ∀ row row', (index, row) ∈ rows → (index, row') ∈ rows → row = row')
    (row : GhosttyRow) : (setRows rows target)[index]? = some row ↔
      (index, row) ∈ rows ∨ (∀ other, (index, other) ∉ rows) ∧ target[index]? = some row := by
  induction rows generalizing target with
  | nil => simp [setRows]
  | cons first rest ih =>
    obtain ⟨place, value⟩ := first
    have hrest := ih (target.set place value) (by rw [length_set]; exact hindex)
      fun row row' hrow hrow' => hfunctional row row' (mem_cons_of_mem _ hrow)
        (mem_cons_of_mem _ hrow')
    refine hrest.trans ?_
    by_cases hplace : place = index
    · subst hplace
      rw [getElem?_set_self hindex]
      constructor
      · rintro (hmem | ⟨-, hvalue⟩)
        · exact .inl (mem_cons_of_mem _ hmem)
        · cases hvalue
          exact .inl mem_cons_self
      · rintro (hmem | ⟨hnone, -⟩)
        · rcases mem_cons.mp hmem with hsame | hlater
          · cases hsame
            by_cases hagain : ∃ other, (place, other) ∈ rest
            · obtain ⟨other, hother⟩ := hagain
              have hequal := hfunctional _ other mem_cons_self (mem_cons_of_mem _ hother)
              exact .inl (hequal ▸ hother)
            · exact .inr ⟨not_exists.mp hagain, rfl⟩
          · exact .inl hlater
        · exact absurd mem_cons_self (hnone value)
    · rw [getElem?_set_ne hplace]
      have hother : ∀ other, (index, other) ∈ (place, value) :: rest ↔ (index, other) ∈ rest := by
        intro other
        rw [mem_cons, Prod.mk.injEq]
        exact or_iff_right fun hsame => hplace hsame.1.symm
      simp only [hother]

theorem set_rowsAt (target : List GhosttyRow) (hlength : target.length = rowData.length)
    (hkept : ∀ index < rowData.length, index ∉ indices → target[index]? = rowData[index]?) :
    setRows (rowsAt rowData indices) target = rowData := by
  have hfunctional : ∀ index row row', (index, row) ∈ rowsAt rowData indices →
      (index, row') ∈ rowsAt rowData indices → row = row' := by
    intro index row row' hrow hrow'
    have hsame := (mem_rowsAt.mp hrow).2.symm.trans (mem_rowsAt.mp hrow').2
    exact Option.some.inj hsame
  apply ext_getElem?
  intro index
  rcases Nat.lt_or_ge index rowData.length with hlt | hge
  · have hrow := getElem?_eq_getElem hlt
    rw [hrow, set_rows _ target index (hlength ▸ hlt) (hfunctional index)]
    by_cases hmem : index ∈ indices
    · exact .inl (mem_rowsAt.mpr ⟨hmem, hrow⟩)
    · refine .inr ⟨fun other hother => hmem (mem_rowsAt.mp hother).1, ?_⟩
      rw [hkept index hlt hmem, hrow]
  · rw [getElem?_eq_none hge, getElem?_eq_none]
    rw [set_rows_length, hlength]
    exact hge

/-- The model shows the picture, as of that update. -/
structure GhosttyViewportModel.Shows (model : GhosttyViewportModel)
    (picture : Picture) (frameId generation : Nat) : Prop where
  frameId : model.frameId = frameId
  generation : model.generation = generation
  cols : model.cols = picture.frame.cols
  rows : model.rows = picture.frame.rowData.length
  snapshot : model.snapshot = picture

theorem apply_accepts {model : GhosttyViewportModel} {update : GhosttyRenderUpdate}
    (hvalid : validateGhosttyRenderUpdate update = true)
    (hgen : model.generation ≤ update.generation) (hframe : model.frameId < update.frameId)
    (hfull : update.full = true ∨ model.generation = update.generation ∧ model.cols = update.cols ∧
      model.rows = update.rows) : model.apply update = some (model.copied update) := by
  unfold GhosttyViewportModel.apply
  rw [hvalid]
  simp only [Bool.not_true, Bool.false_eq_true, if_false]
  rw [if_neg (Nat.not_lt.mpr hgen), if_neg fun hold => absurd hold.2 (Nat.not_le.mpr hframe),
    if_neg, if_neg]
  · rintro ⟨hsize, hpart⟩
    obtain ⟨-, hcols, hrows⟩ := hfull.resolve_left (Bool.eq_false_iff.mp hpart)
    rcases hsize with hother | hother
    · exact hother hcols.symm
    · exact hother hrows.symm
  · rintro ⟨hlater, hpart⟩
    obtain ⟨hsame, -⟩ := hfull.resolve_left (Bool.eq_false_iff.mp hpart)
    exact absurd hsame (Nat.ne_of_lt hlater)

theorem copied_shows {model : GhosttyViewportModel} {picture : Picture} {dirtyRows : List Nat}
    {frameId generation : Nat} {full : Bool}
    (hkept : full = true ∨ model.rowData.length = picture.frame.rowData.length ∧
      ∀ index < picture.frame.rowData.length, index ∉ dirtyRows →
        (model.rowData.map materializeRow)[index]? = picture.frame.rowData[index]?) :
    (model.copied (buildUpdate picture dirtyRows frameId generation full)).Shows picture frameId
      generation := by
  have hrows := materialize_rows (rowsAt picture.frame.rowData
    (includedRows picture dirtyRows full)) [] []
  simp only [length_nil, nil_append, append_nil] at hrows
  have hset : (model.copied (buildUpdate picture dirtyRows frameId generation full)).rowData.map
      materializeRow = picture.frame.rowData := by
    refine (map_foldl_set _ _).trans ?_
    refine (congrArg (fun rows => setRows rows _) hrows).trans ?_
    apply set_rowsAt
    · cases full with
      | true => simp [buildUpdate, allocate]
      | false =>
        rw [List.length_map]
        exact (hkept.resolve_left Bool.false_ne_true).1
    · intro index hlt hnot
      cases full with
      | true => exact absurd (mem_range.mpr hlt) hnot
      | false => exact (hkept.resolve_left Bool.false_ne_true).2 index hlt hnot
  refine ⟨rfl, rfl, rfl, rfl, ?_⟩
  simp only [GhosttyViewportModel.snapshot, hset]
  simp only [GhosttyViewportModel.copied, buildUpdate, unpack_pack]

end Rows

end Yaade.Render

import Yaade.Library.Buffer
import Yaade.Library.Utf8
import Yaade.Render.Packing

/-!
Packed render updates as they are: typed arrays that are used again, texts in
UTF-8, styles in bit fields, and any value at all where an update is expected.
-/

namespace Yaade.Render.Slabs

open Yaade.Library

structure GhosttyCell where
  text : String
  wide : Fin 4
  foreground : GhosttyColor
  background : GhosttyColor
  bold : Bool
  italic : Bool
  invisible : Bool
  strikethrough : Bool
  overline : Bool
  underline : Fin 8
  selected : Bool
  deriving DecidableEq

structure GhosttyRow where
  cells : List GhosttyCell
  isWrapContinuation : Bool
  wrapsToNext : Bool
  deriving DecidableEq

/-- The dirty rows are a set. -/
structure GhosttySnapshot where
  cols : Nat
  rows : Nat
  foreground : GhosttyColor
  background : GhosttyColor
  cursor : GhosttyColor
  cursorX : Int
  cursorY : Int
  cursorVisible : Bool
  cursorBlinking : Bool
  cursorStyle : Int
  dirtyRows : List Nat
  rowData : List GhosttyRow
  deriving DecidableEq

def flag (value : Bool) (bit : Nat) : Nat := if value then 1 <<< bit else 0

def packGhosttyCellStyle (cell : GhosttyCell) : Nat :=
  (cell.wide.val &&& 0b11) ||| flag cell.bold 2 ||| flag cell.italic 3 ||| flag cell.invisible 4 |||
    flag cell.strikethrough 5 ||| flag cell.overline 6 ||| flag cell.selected 7 |||
    ((cell.underline.val &&& 0b111) <<< 8)

/-! ## Typed arrays -/

def nextCapacity (required : Nat) : Nat := 2 ^ Nat.clog 2 required

def ensure {α : Type} (buffer : List α) (zero : α) (required : Nat) : List α :=
  if 0 < buffer.length ∧ required ≤ buffer.length then buffer
  else List.replicate (nextCapacity required) zero

/-- The arrays with an entry for each cell. -/
structure CellArrays where
  graphemeOffsets : List Nat
  graphemeLengths : List Nat
  foregrounds : List Nat
  backgrounds : List Nat
  styles : List Nat
  deriving DecidableEq

namespace CellArrays

def zero (count : Nat) : CellArrays :=
  ⟨List.replicate count 0, List.replicate count 0, List.replicate count 0, List.replicate count 0,
    List.replicate count 0⟩

def ensure (arrays : CellArrays) (required : Nat) : CellArrays :=
  ⟨Slabs.ensure arrays.graphemeOffsets 0 required, Slabs.ensure arrays.graphemeLengths 0 required,
    Slabs.ensure arrays.foregrounds 0 required, Slabs.ensure arrays.backgrounds 0 required,
    Slabs.ensure arrays.styles 0 required⟩

def blit (arrays : CellArrays) (start : Nat) (cells : List PackedCell) : CellArrays :=
  ⟨Buffer.blit arrays.graphemeOffsets start (cells.map PackedCell.graphemeOffset),
    Buffer.blit arrays.graphemeLengths start (cells.map PackedCell.graphemeLength),
    Buffer.blit arrays.foregrounds start (cells.map PackedCell.foreground),
    Buffer.blit arrays.backgrounds start (cells.map PackedCell.background),
    Buffer.blit arrays.styles start (cells.map PackedCell.style)⟩

def take (arrays : CellArrays) (count : Nat) : CellArrays :=
  ⟨arrays.graphemeOffsets.take count, arrays.graphemeLengths.take count,
    arrays.foregrounds.take count, arrays.backgrounds.take count, arrays.styles.take count⟩

def cellAt (arrays : CellArrays) (index : Nat) : PackedCell :=
  ⟨arrays.graphemeOffsets.getD index 0, arrays.graphemeLengths.getD index 0,
    arrays.foregrounds.getD index 0, arrays.backgrounds.getD index 0, arrays.styles.getD index 0⟩

/-- All arrays have this length. -/
structure Counted (arrays : CellArrays) (count : Nat) : Prop where
  graphemeOffsets : arrays.graphemeOffsets.length = count
  graphemeLengths : arrays.graphemeLengths.length = count
  foregrounds : arrays.foregrounds.length = count
  backgrounds : arrays.backgrounds.length = count
  styles : arrays.styles.length = count

instance (arrays : CellArrays) (count : Nat) : Decidable (arrays.Counted count) :=
  decidable_of_iff (arrays.graphemeOffsets.length = count ∧ arrays.graphemeLengths.length = count ∧
      arrays.foregrounds.length = count ∧ arrays.backgrounds.length = count ∧
      arrays.styles.length = count)
    ⟨fun ⟨h1, h2, h3, h4, h5⟩ => ⟨h1, h2, h3, h4, h5⟩, fun ⟨h1, h2, h3, h4, h5⟩ => ⟨h1, h2, h3, h4, h5⟩⟩

end CellArrays

structure GhosttyRenderUpdate where
  frameId : Nat
  generation : Nat
  cols : Nat
  rows : Nat
  full : Bool
  foreground : Nat
  background : Nat
  cursor : Nat
  cursorX : Int
  cursorY : Int
  cursorVisible : Bool
  cursorBlinking : Bool
  cursorStyle : Int
  dirtyRows : List Nat
  rowFlags : List Nat
  cells : CellArrays
  graphemes : List UInt8
  deriving DecidableEq

/-! ## The builder -/

structure SlotBuffers where
  dirtyRows : List Nat
  rowFlags : List Nat
  cells : CellArrays
  graphemes : List UInt8
  deriving DecidableEq

def unitLength (text : String) : Nat :=
  (text.toList.map fun c => if c.toNat < 0x10000 then 1 else 2).sum

def encodeInto : Nat → List Char → List UInt8
  | _, [] => []
  | room, c :: rest =>
    let bytes := String.utf8EncodeChar c
    if bytes.length ≤ room then bytes ++ encodeInto (room - bytes.length) rest else []

def uint32 (value : Nat) : Nat := value % 2 ^ 32

section Builder

variable (snapshot : GhosttySnapshot)

def writeCell (room offset : Nat) (cell : Option GhosttyCell) : PackedCell × List UInt8 :=
  let text := encodeInto (room - offset) ((cell.map GhosttyCell.text).getD "").toList
  (⟨uint32 offset, uint32 text.length,
    packGhosttyColor ((cell.map GhosttyCell.foreground).getD snapshot.foreground),
    packGhosttyColor ((cell.map GhosttyCell.background).getD snapshot.background),
    (cell.map packGhosttyCellStyle).getD 0⟩, text)

def writeCells (room : Nat) : Nat → List (Option GhosttyCell) → List PackedCell × List UInt8
  | _, [] => ([], [])
  | offset, cell :: rest =>
    let (packed, text) := writeCell snapshot room offset cell
    let (cells, bytes) := writeCells room (offset + text.length) rest
    (packed :: cells, text ++ bytes)

def rowFlagsOf (row : Option GhosttyRow) : Nat :=
  flag ((row.map GhosttyRow.isWrapContinuation).getD false) 0 |||
    flag ((row.map GhosttyRow.wrapsToNext).getD false) 1

def cellsOf (row : Option GhosttyRow) : List (Option GhosttyCell) :=
  (List.range snapshot.cols).map fun column => row.bind fun row => row.cells[column]?

def includedRows (full : Bool) : List Nat :=
  if full then List.range snapshot.rows else snapshot.dirtyRows.mergeSort (· ≤ ·)

def graphemeCapacity (rows : List Nat) : Nat :=
  (rows.map fun index => ((cellsOf snapshot snapshot.rowData[index]?).map fun cell =>
    (cell.map fun cell => unitLength cell.text).getD 0 * 3).sum).sum

def buildIn (slot : SlotBuffers) (frameId generation : Nat) (full : Bool) :
    SlotBuffers × GhosttyRenderUpdate :=
  let rows := includedRows snapshot full
  let cellCount := rows.length * snapshot.cols
  let dirtyRows := ensure slot.dirtyRows 0 rows.length
  let rowFlags := ensure slot.rowFlags 0 rows.length
  let arrays := slot.cells.ensure cellCount
  let graphemes := ensure slot.graphemes 0 (graphemeCapacity snapshot rows)
  let (cells, text) := writeCells snapshot graphemes.length 0
    (rows.flatMap fun index => cellsOf snapshot snapshot.rowData[index]?)
  let slot : SlotBuffers :=
    { dirtyRows := Buffer.blit dirtyRows 0 (rows.map uint32)
      rowFlags := Buffer.blit rowFlags 0 (rows.map fun index => rowFlagsOf snapshot.rowData[index]?)
      cells := arrays.blit 0 cells
      graphemes := Buffer.blit graphemes 0 text }
  (slot,
    { frameId, generation, full
      cols := snapshot.cols
      rows := snapshot.rows
      foreground := packGhosttyColor snapshot.foreground
      background := packGhosttyColor snapshot.background
      cursor := packGhosttyColor snapshot.cursor
      cursorX := snapshot.cursorX
      cursorY := snapshot.cursorY
      cursorVisible := snapshot.cursorVisible
      cursorBlinking := snapshot.cursorBlinking
      cursorStyle := snapshot.cursorStyle
      dirtyRows := slot.dirtyRows.take rows.length
      rowFlags := slot.rowFlags.take rows.length
      cells := slot.cells.take cellCount
      graphemes := slot.graphemes.take text.length })

structure BuilderSlot where
  inFlight : Bool
  leaseToken : Nat
  buffers : SlotBuffers
  deriving DecidableEq

structure GhosttyRenderUpdateLease where
  slotId : Nat
  leaseToken : Nat
  update : GhosttyRenderUpdate
  deriving DecidableEq

def tryBuild (frameId generation : Nat) (full : Bool) :
    List BuilderSlot → Option GhosttyRenderUpdateLease × List BuilderSlot
  | [] => (none, [])
  | slot :: rest =>
    if slot.inFlight then
      let (lease, after) := tryBuild frameId generation full rest
      (lease.map fun lease => { lease with slotId := lease.slotId + 1 }, slot :: after)
    else
      let (buffers, update) := buildIn snapshot slot.buffers frameId generation full
      (some ⟨0, slot.leaseToken + 1, update⟩, ⟨true, slot.leaseToken + 1, buffers⟩ :: rest)

end Builder

/-! ## Any value -/

inductive JsValue where
  | undefined
  | boolean (value : Bool)
  | integer (value : Int)
  | uint8Array (values : List UInt8)
  | uint16Array (values : List Nat)
  | uint32Array (values : List Nat)
  | other
  deriving DecidableEq

namespace JsValue

def safeInteger? : JsValue → Option Int
  | .integer value => if -(maxSafeInteger : Int) ≤ value ∧ value ≤ maxSafeInteger then some value else none
  | _ => none

def between? (low high : Nat) (value : JsValue) : Option Nat :=
  value.safeInteger?.bind fun n => if (low : Int) ≤ n ∧ n ≤ high then some n.toNat else none

def boolean? : JsValue → Option Bool
  | .boolean value => some value
  | _ => none

def uint8Array? : JsValue → Option (List UInt8)
  | .uint8Array values => some values
  | _ => none

def uint16Array? : JsValue → Option (List Nat)
  | .uint16Array values => some values
  | _ => none

def uint32Array? : JsValue → Option (List Nat)
  | .uint32Array values => some values
  | _ => none

end JsValue

/-- The properties of an object that an update has. -/
structure RawUpdate where
  version : JsValue
  frameId : JsValue
  generation : JsValue
  cols : JsValue
  rows : JsValue
  full : JsValue
  foreground : JsValue
  background : JsValue
  cursor : JsValue
  cursorX : JsValue
  cursorY : JsValue
  cursorVisible : JsValue
  cursorBlinking : JsValue
  cursorStyle : JsValue
  dirtyRows : JsValue
  rowFlags : JsValue
  graphemeOffsets : JsValue
  graphemeLengths : JsValue
  foregrounds : JsValue
  backgrounds : JsValue
  styles : JsValue
  graphemes : JsValue
  deriving DecidableEq

abbrev Value := Option RawUpdate

def parse? (raw : RawUpdate) : Option GhosttyRenderUpdate := do
  guard (raw.version = .integer 1)
  let frameId ← raw.frameId.between? 1 maxSafeInteger
  let generation ← raw.generation.between? 1 maxSafeInteger
  let cols ← raw.cols.between? 1 65535
  let rows ← raw.rows.between? 1 65535
  let full ← raw.full.boolean?
  let foreground ← raw.foreground.between? 0 0xffffff
  let background ← raw.background.between? 0 0xffffff
  let cursor ← raw.cursor.between? 0 0xffffff
  let cursorX ← raw.cursorX.safeInteger?
  let cursorY ← raw.cursorY.safeInteger?
  let cursorVisible ← raw.cursorVisible.boolean?
  let cursorBlinking ← raw.cursorBlinking.boolean?
  let cursorStyle ← raw.cursorStyle.safeInteger?
  let dirtyRows ← raw.dirtyRows.uint32Array?
  let rowFlags ← raw.rowFlags.uint8Array?
  let graphemeOffsets ← raw.graphemeOffsets.uint32Array?
  let graphemeLengths ← raw.graphemeLengths.uint32Array?
  let foregrounds ← raw.foregrounds.uint32Array?
  let backgrounds ← raw.backgrounds.uint32Array?
  let styles ← raw.styles.uint16Array?
  let graphemes ← raw.graphemes.uint8Array?
  pure ⟨frameId, generation, cols, rows, full, foreground, background, cursor, cursorX, cursorY,
    cursorVisible, cursorBlinking, cursorStyle, dirtyRows, rowFlags.map UInt8.toNat,
    ⟨graphemeOffsets, graphemeLengths, foregrounds, backgrounds, styles⟩, graphemes⟩

namespace GhosttyRenderUpdate

def toValue (update : GhosttyRenderUpdate) : Value := some
  { version := .integer 1
    frameId := .integer update.frameId
    generation := .integer update.generation
    cols := .integer update.cols
    rows := .integer update.rows
    full := .boolean update.full
    foreground := .integer update.foreground
    background := .integer update.background
    cursor := .integer update.cursor
    cursorX := .integer update.cursorX
    cursorY := .integer update.cursorY
    cursorVisible := .boolean update.cursorVisible
    cursorBlinking := .boolean update.cursorBlinking
    cursorStyle := .integer update.cursorStyle
    dirtyRows := .uint32Array update.dirtyRows
    rowFlags := .uint8Array (update.rowFlags.map UInt8.ofNat)
    graphemeOffsets := .uint32Array update.cells.graphemeOffsets
    graphemeLengths := .uint32Array update.cells.graphemeLengths
    foregrounds := .uint32Array update.cells.foregrounds
    backgrounds := .uint32Array update.cells.backgrounds
    styles := .uint16Array update.cells.styles
    graphemes := .uint8Array update.graphemes }

def ascending (rows : Nat) : Nat → List Nat → Bool
  | _, [] => true
  | least, row :: rest => least ≤ row && row < rows && ascending rows (row + 1) rest

/-- The lengths of the arrays, the order of the rows and what each cell refers to. -/
def checks (update : GhosttyRenderUpdate) : Bool :=
  let rowCount := update.dirtyRows.length
  let cellCount := rowCount * update.cols
  decide (update.rowFlags.length = rowCount) && decide (update.cells.Counted cellCount) &&
    (!update.full || decide (rowCount = update.rows)) && ascending update.rows 0 update.dirtyRows &&
    (List.range cellCount).all fun index =>
      validCell update.graphemes.length (update.cells.cellAt index)

def packedRows (update : GhosttyRenderUpdate) : List PackedRow :=
  update.dirtyRows.zipIdx.map fun (row, includedRow) =>
    ⟨row, update.rowFlags.getD includedRow 0,
      (List.range update.cols).map fun column =>
        update.cells.cellAt (includedRow * update.cols + column)⟩

end GhosttyRenderUpdate

def validateGhosttyRenderUpdate (value : Value) : Bool :=
  (value.bind parse?).any GhosttyRenderUpdate.checks

/-! ## The model -/

structure GhosttyViewportModel where
  frameId : Nat
  generation : Nat
  cols : Nat
  rows : Nat
  foreground : Nat
  background : Nat
  cursor : Nat
  cursorX : Int
  cursorY : Int
  cursorVisible : Bool
  cursorBlinking : Bool
  cursorStyle : Int
  cells : CellArrays
  rowFlags : List Nat
  rowVersions : List Nat
  rowGraphemes : List (List UInt8)
  decodedRows : List (Option (List (Option String)))
  compatibilityRows : List (Option GhosttyRow)
  compatibilityVersions : List Nat
  dirtyRows : List Nat
  deriving DecidableEq

namespace GhosttyViewportModel

def empty : GhosttyViewportModel where
  frameId := 0
  generation := 0
  cols := 0
  rows := 0
  foreground := 0xe5e7eb
  background := 0
  cursor := 0xe5e7eb
  cursorX := -1
  cursorY := -1
  cursorVisible := false
  cursorBlinking := false
  cursorStyle := 0
  cells := .zero 0
  rowFlags := []
  rowVersions := []
  rowGraphemes := []
  decodedRows := []
  compatibilityRows := []
  compatibilityVersions := []
  dirtyRows := []

section Methods

variable (model : GhosttyViewportModel)

def allocate (cols rows : Nat) : GhosttyViewportModel :=
  { model with
    cols := cols
    rows := rows
    cells := .zero (cols * rows)
    rowFlags := List.replicate rows 0
    rowVersions := List.replicate rows 0
    rowGraphemes := List.replicate rows []
    decodedRows := List.replicate rows none
    compatibilityRows := List.replicate rows none
    compatibilityVersions := List.replicate rows 0 }

/-- A row of the update over one of the model. If a text is out of bounds, the
colours and styles are written nevertheless. -/
def copyRow (cols : Nat) (graphemes : List UInt8) (packed : PackedRow) :
    Bool × GhosttyViewportModel :=
  let start := packed.row * cols
  let copied := Yaade.Render.GhosttyViewportModel.copyCells 0 packed.cells
  if packed.cells.all fun cell => cell.graphemeOffset + cell.graphemeLength ≤ graphemes.length then
    (true, { model with
      cells := model.cells.blit start copied
      rowGraphemes := model.rowGraphemes.set packed.row
        (packed.cells.flatMap (Yaade.Render.GhosttyViewportModel.slice graphemes))
      rowFlags := model.rowFlags.set packed.row packed.flags
      rowVersions := model.rowVersions.set packed.row
        (uint32 (model.rowVersions.getD packed.row 0 + 1))
      decodedRows := model.decodedRows.set packed.row none
      compatibilityRows := model.compatibilityRows.set packed.row none })
  else
    (false, { model with cells := { model.cells with
      foregrounds := Buffer.blit model.cells.foregrounds start (packed.cells.map PackedCell.foreground)
      backgrounds := Buffer.blit model.cells.backgrounds start (packed.cells.map PackedCell.background)
      styles := Buffer.blit model.cells.styles start (packed.cells.map PackedCell.style) } })

def copyRows (cols : Nat) (graphemes : List UInt8) :
    GhosttyViewportModel → List PackedRow → Bool × GhosttyViewportModel
  | model, [] => (true, model)
  | model, packed :: rest =>
    if model.rows ≤ packed.row then (false, model)
    else
      let (copied, model) := model.copyRow cols graphemes packed
      if copied then copyRows cols graphemes model rest else (false, model)

def apply (value : Value) : Bool × GhosttyViewportModel :=
  match value.bind parse? with
  | none => (false, model)
  | some update =>
    if !update.checks then (false, model)
    else if update.generation < model.generation then (false, model)
    else if update.generation = model.generation ∧ update.frameId ≤ model.frameId then (false, model)
    else if model.generation < update.generation ∧ update.full = false then (false, model)
    else if (update.full ∨ update.cols ≠ model.cols ∨ update.rows ≠ model.rows) ∧
        update.full = false then (false, model)
    else
      let target := if update.full ∨ update.cols ≠ model.cols ∨ update.rows ≠ model.rows then
        model.allocate update.cols update.rows else model
      let (copied, model) := copyRows update.cols update.graphemes { target with
        frameId := update.frameId
        generation := update.generation
        foreground := update.foreground
        background := update.background
        cursor := update.cursor
        cursorX := update.cursorX
        cursorY := update.cursorY
        cursorVisible := update.cursorVisible
        cursorBlinking := update.cursorBlinking
        cursorStyle := update.cursorStyle } update.packedRows
      (copied, if copied then { model with dirtyRows := update.dirtyRows } else model)

/-! ### Reading -/

def cellAt (row column : Nat) : PackedCell := model.cells.cellAt (row * model.cols + column)

def decodeAt (row column : Nat) : String :=
  let cell := model.cellAt row column
  if cell.graphemeLength = 0 then ""
  else Utf8.decode (Yaade.Render.GhosttyViewportModel.slice (model.rowGraphemes.getD row []) cell)

def decoded (row : Nat) : List (Option String) :=
  (model.decodedRows.getD row none).getD (List.replicate model.cols none)

def textAt (row column : Nat) : String × GhosttyViewportModel :=
  if model.rows ≤ row ∨ model.cols ≤ column then ("", model)
  else
    let cache := model.decoded row
    match cache.getD column none with
    | some value => (value, { model with decodedRows := model.decodedRows.set row (some cache) })
    | none =>
      let value := model.decodeAt row column
      (value, { model with
        decodedRows := model.decodedRows.set row (some (cache.set column (some value))) })

instance wide_neZero : NeZero 4 := ⟨by decide⟩
instance underline_neZero : NeZero 8 := ⟨by decide⟩

def materializeCell (packed : PackedCell) (text : String) : GhosttyCell where
  text := text
  wide := Fin.ofNat 4 (packed.style &&& 0b11)
  foreground := unpackGhosttyColor packed.foreground
  background := unpackGhosttyColor packed.background
  bold := packed.style &&& 1 <<< 2 ≠ 0
  italic := packed.style &&& 1 <<< 3 ≠ 0
  invisible := packed.style &&& 1 <<< 4 ≠ 0
  strikethrough := packed.style &&& 1 <<< 5 ≠ 0
  overline := packed.style &&& 1 <<< 6 ≠ 0
  underline := Fin.ofNat 8 ((packed.style &&& 0b111 <<< 8) >>> 8)
  selected := packed.style &&& 1 <<< 7 ≠ 0

def materializeCells (row : Nat) :
    GhosttyViewportModel → List Nat → List GhosttyCell × GhosttyViewportModel
  | model, [] => ([], model)
  | model, column :: rest =>
    let (text, read) := model.textAt row column
    let (cells, after) := materializeCells row read rest
    (materializeCell (model.cellAt row column) text :: cells, after)

def materializeRow (row : Nat) : GhosttyRow × GhosttyViewportModel :=
  let version := model.rowVersions.getD row 0
  let cached := (model.compatibilityRows.getD row none).filter fun _ =>
    model.compatibilityVersions.getD row 0 = version
  match cached with
  | some value => (value, model)
  | none =>
    let (cells, read) := materializeCells row model (List.range model.cols)
    let flags := model.rowFlags.getD row 0
    let value : GhosttyRow := ⟨cells, flags &&& 1 ≠ 0, flags &&& 2 ≠ 0⟩
    (value, { read with
      compatibilityRows := read.compatibilityRows.set row (some value)
      compatibilityVersions := read.compatibilityVersions.set row version })

def materializeRows : GhosttyViewportModel → List Nat → List GhosttyRow × GhosttyViewportModel
  | model, [] => ([], model)
  | model, row :: rest =>
    let (value, read) := model.materializeRow row
    let (rows, after) := materializeRows read rest
    (value :: rows, after)

def snapshot : GhosttySnapshot × GhosttyViewportModel :=
  let (rowData, after) := materializeRows model (List.range model.rows)
  ({ cols := model.cols
     rows := model.rows
     foreground := unpackGhosttyColor model.foreground
     background := unpackGhosttyColor model.background
     cursor := unpackGhosttyColor model.cursor
     cursorX := model.cursorX
     cursorY := model.cursorY
     cursorVisible := model.cursorVisible
     cursorBlinking := model.cursorBlinking
     cursorStyle := model.cursorStyle
     dirtyRows := model.dirtyRows
     rowData := rowData }, after)

end Methods

/-- The models that there are. -/
inductive Made : GhosttyViewportModel → Prop where
  | empty : Made .empty
  | apply {model : GhosttyViewportModel} (h : Made model) (value : Value) : Made (model.apply value).2
  | textAt {model : GhosttyViewportModel} (h : Made model) (row column : Nat) :
      Made (model.textAt row column).2
  | snapshot {model : GhosttyViewportModel} (h : Made model) : Made model.snapshot.2

end GhosttyViewportModel

end Yaade.Render.Slabs

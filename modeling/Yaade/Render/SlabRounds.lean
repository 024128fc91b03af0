import Yaade.Render.Slabs

/-!
What the builder packs, the model shows.
-/

namespace Yaade.Render.Slabs

open Yaade.Library List

def GhosttyCell.toBytes (cell : GhosttyCell) : Yaade.Render.GhosttyCell :=
  ⟨Utf8.encode cell.text, cell.foreground, cell.background, packGhosttyCellStyle cell⟩

def GhosttyRow.toBytes (row : GhosttyRow) : Yaade.Render.GhosttyRow :=
  ⟨row.cells.map GhosttyCell.toBytes, row.isWrapContinuation, row.wrapsToNext⟩

namespace GhosttySnapshot

variable (snapshot : GhosttySnapshot)

def byteRows (full : Bool) : List (Nat × Yaade.Render.GhosttyRow) :=
  rowsAt (snapshot.rowData.map GhosttyRow.toBytes) (includedRows snapshot full)

def payload (full : Bool) : List UInt8 :=
  (snapshot.byteRows full).flatMap fun row => row.2.text

/-- The sizes a terminal can have, with the rows and cells of that size. -/
structure WellFormed : Prop where
  cols_pos : 1 ≤ snapshot.cols
  cols_le : snapshot.cols ≤ 65535
  rows_pos : 1 ≤ snapshot.rows
  rows_le : snapshot.rows ≤ 65535
  rowData : snapshot.rowData.length = snapshot.rows
  cells : ∀ row ∈ snapshot.rowData, row.cells.length = snapshot.cols
  dirtyRows : ∀ row ∈ snapshot.dirtyRows, row < snapshot.rows
  distinct : snapshot.dirtyRows.Nodup
  cursorX : JsValue.safeInteger? (.integer snapshot.cursorX) = some snapshot.cursorX
  cursorY : JsValue.safeInteger? (.integer snapshot.cursorY) = some snapshot.cursorY
  cursorStyle : JsValue.safeInteger? (.integer snapshot.cursorStyle) = some snapshot.cursorStyle

end GhosttySnapshot

/-! ## The builder -/

theorem encodeInto_fits {room : Nat} (chars : List Char)
    (h : (chars.flatMap String.utf8EncodeChar).length ≤ room) :
    encodeInto room chars = chars.flatMap String.utf8EncodeChar := by
  induction chars generalizing room with
  | nil => rfl
  | cons c rest ih =>
    rw [flatMap_cons, length_append] at h
    rw [encodeInto, if_pos (by omega), ih (by omega), flatMap_cons]

theorem encodeChar_length (c : Char) :
    (String.utf8EncodeChar c).length ≤ (if c.toNat < 0x10000 then 1 else 2) * 3 := by
  fun_cases String.utf8EncodeChar c
  · rename_i value hone
    have hone' : c.toNat ≤ 0x7F := hone
    simp only [length_cons, length_nil]
    split <;> omega
  · simp only [length_cons, length_nil]
    split <;> omega
  · simp only [length_cons, length_nil]
    split <;> omega
  · rename_i value hone htwo hthree
    have hthree' : ¬ c.toNat ≤ 0xFFFF := hthree
    simp only [length_cons, length_nil]
    rw [if_neg (by omega)]
    omega

theorem encode_length (text : String) : (Utf8.encode text).length ≤ unitLength text * 3 := by
  unfold Utf8.encode unitLength
  induction text.toList with
  | nil => exact le_rfl
  | cons c rest ih =>
    have hc := encodeChar_length c
    rw [flatMap_cons, length_append, map_cons, sum_cons, Nat.add_mul]
    omega

theorem ensure_length {α : Type} (buffer : List α) (zero : α) (required : Nat) :
    required ≤ (ensure buffer zero required).length := by
  unfold ensure
  split
  · rename_i h
    exact h.2
  · rw [length_replicate]
    exact Nat.le_pow_clog Nat.one_lt_two required

variable {snapshot : GhosttySnapshot}

section Builder

theorem uint32_eq {value : Nat} (h : value < 2 ^ 32) : uint32 value = value := Nat.mod_eq_of_lt h

theorem writeCells_eq {room offset : Nat} (cells : List GhosttyCell)
    (hroom : offset + ((cells.map GhosttyCell.toBytes).flatMap Yaade.Render.GhosttyCell.text).length ≤
      room)
    (hsmall : offset + ((cells.map GhosttyCell.toBytes).flatMap
      Yaade.Render.GhosttyCell.text).length < 2 ^ 32) :
    writeCells snapshot room offset (cells.map some) =
      (packCells offset (cells.map GhosttyCell.toBytes),
        (cells.map GhosttyCell.toBytes).flatMap Yaade.Render.GhosttyCell.text) := by
  induction cells generalizing offset with
  | nil => rfl
  | cons cell rest ih =>
    rw [map_cons, flatMap_cons, length_append] at hroom hsmall
    have htext : encodeInto (room - offset) cell.text.toList = cell.toBytes.text :=
      encodeInto_fits _ (show cell.toBytes.text.length ≤ _ by omega)
    have hrest := @ih (offset + cell.toBytes.text.length) (by omega) (by omega)
    rw [map_cons, writeCells, writeCell]
    simp only [Option.map_some, Option.getD_some, htext, hrest]
    rw [uint32_eq (by omega), uint32_eq (by omega)]
    rfl

variable (hwell : snapshot.WellFormed)
include hwell

theorem includedRows_lt {full : Bool} : ∀ row ∈ includedRows snapshot full, row < snapshot.rows := by
  intro row hmem
  unfold includedRows at hmem
  split at hmem
  · exact mem_range.mp hmem
  · exact hwell.dirtyRows row (mem_mergeSort.mp hmem)

theorem includedRows_sorted {full : Bool} : (includedRows snapshot full).Pairwise (· < ·) := by
  unfold includedRows
  split
  · exact pairwise_lt_range
  have hle := @pairwise_mergeSort _ (fun left right : Nat => decide (left ≤ right))
    (fun _ _ _ hab hbc => decide_eq_true (Nat.le_trans (of_decide_eq_true hab)
      (of_decide_eq_true hbc)))
    (fun a b => by simpa using Nat.le_total a b) snapshot.dirtyRows
  have hdist := (mergeSort_perm snapshot.dirtyRows
    fun left right => decide (left ≤ right)).nodup_iff.mpr hwell.distinct
  refine (hle.and hdist).imp ?_
  rintro a b ⟨hab, hne⟩
  exact Nat.lt_of_le_of_ne (of_decide_eq_true hab) hne

theorem cellsOf_rows {rows : List Nat} (hrows : ∀ row ∈ rows, row < snapshot.rows) :
    (rows.flatMap fun index => cellsOf snapshot snapshot.rowData[index]?) =
      (rows.flatMap fun index => ((snapshot.rowData[index]?).map GhosttyRow.cells).getD []).map
        some := by
  rw [map_flatMap]
  apply flatMap_congr
  intro index hmem
  have hindex : index < snapshot.rowData.length := hwell.rowData ▸ hrows index hmem
  have hcells := hwell.cells _ (getElem_mem hindex)
  rw [getElem?_eq_getElem hindex]
  simp only [cellsOf, Option.bind_some, Option.map_some, Option.getD_some, ← hcells]
  apply ext_getElem?
  intro column
  rw [getElem?_map, getElem?_map]
  rcases Nat.lt_or_ge column (snapshot.rowData[index]).cells.length with hlt | hge
  · rw [getElem?_range hlt, Option.map_some, getElem?_eq_getElem hlt, Option.map_some]
  · rw [getElem?_eq_none (by rw [length_range]; exact hge), getElem?_eq_none hge]
    rfl

theorem byteRows_cells {rows : List Nat} (hrows : ∀ row ∈ rows, row < snapshot.rows) :
    ((rows.flatMap fun index => ((snapshot.rowData[index]?).map GhosttyRow.cells).getD []).map
      GhosttyCell.toBytes) = (rowsAt (snapshot.rowData.map GhosttyRow.toBytes) rows).flatMap
        fun row => row.2.cells := by
  induction rows with
  | nil => rfl
  | cons index rest ih =>
    have hindex : index < snapshot.rowData.length := hwell.rowData ▸ hrows index mem_cons_self
    have hrest := ih fun row hmem => hrows row (mem_cons_of_mem index hmem)
    rw [flatMap_cons, map_append, hrest, getElem?_eq_getElem hindex]
    simp only [rowsAt, filterMap_cons, getElem?_map, getElem?_eq_getElem hindex,
      Option.map_some, Option.getD_some, flatMap_cons]
    rfl

theorem payload_le_capacity {rows : List Nat} (hrows : ∀ row ∈ rows, row < snapshot.rows) :
    (((rows.flatMap fun index => ((snapshot.rowData[index]?).map GhosttyRow.cells).getD []).map
      GhosttyCell.toBytes).flatMap Yaade.Render.GhosttyCell.text).length ≤
        graphemeCapacity snapshot rows := by
  induction rows with
  | nil => exact Nat.zero_le _
  | cons index rest ih =>
    have hrest := ih fun row hmem => hrows row (mem_cons_of_mem index hmem)
    have hone := @cellsOf_rows snapshot hwell [index] fun row hmem =>
      hrows row (mem_singleton.mp hmem ▸ mem_cons_self)
    simp only [flatMap_cons, flatMap_nil, append_nil] at hone
    rw [flatMap_cons, map_append, flatMap_append, length_append]
    rw [graphemeCapacity, map_cons, sum_cons, hone]
    refine Nat.add_le_add ?_ hrest
    generalize ((snapshot.rowData[index]?).map GhosttyRow.cells).getD [] = cells
    induction cells with
    | nil => exact le_rfl
    | cons cell more ih =>
      rw [map_cons, flatMap_cons, length_append, map_cons, map_cons, sum_cons]
      exact Nat.add_le_add (encode_length cell.text) ih

end Builder

/-! ### The packed rows in arrays -/

theorem packCells_append (offset : Nat) (left right : List Yaade.Render.GhosttyCell) :
    packCells offset (left ++ right) = packCells offset left ++
      packCells (offset + (left.flatMap Yaade.Render.GhosttyCell.text).length) right := by
  induction left generalizing offset with
  | nil => rfl
  | cons cell rest ih =>
    rw [cons_append, packCells, packCells, ih, flatMap_cons, length_append,
      cons_append, Nat.add_assoc]

theorem packRows_flatten (offset : Nat) (rows : List (Nat × Yaade.Render.GhosttyRow)) :
    (packRows offset rows).flatMap PackedRow.cells =
      packCells offset (rows.flatMap fun row => row.2.cells) := by
  induction rows generalizing offset with
  | nil => rfl
  | cons first rest ih =>
    rw [packRows, flatMap_cons, flatMap_cons, ih, packCells_append]
    rfl

theorem packRows_flags (offset : Nat) (rows : List (Nat × Yaade.Render.GhosttyRow)) :
    (packRows offset rows).map PackedRow.flags = rows.map fun row => packFlags row.2 := by
  induction rows generalizing offset with
  | nil => rfl
  | cons first rest ih => rw [packRows, map_cons, map_cons, ih]

def CellArrays.of (cells : List PackedCell) : CellArrays :=
  ⟨cells.map PackedCell.graphemeOffset, cells.map PackedCell.graphemeLength,
    cells.map PackedCell.foreground, cells.map PackedCell.background, cells.map PackedCell.style⟩

theorem CellArrays.of_counted (cells : List PackedCell) :
    (CellArrays.of cells).Counted cells.length :=
  ⟨length_map _, length_map _, length_map _, length_map _, length_map _⟩

theorem CellArrays.of_cellAt {cells : List PackedCell} {index : Nat} (h : index < cells.length) :
    (CellArrays.of cells).cellAt index = cells[index] := by
  simp only [CellArrays.of, CellArrays.cellAt, getD_eq_getElem?_getD, getElem?_map,
    getElem?_eq_getElem h, Option.map_some, Option.getD_some]

theorem take_blit_ensure {α : Type} {buffer values : List α} {zero : α} {count : Nat}
    (h : values.length = count) :
    (Buffer.blit (ensure buffer zero count) 0 values).take count = values := by
  subst h
  exact Buffer.take_blit (ensure_length _ _ _)

theorem CellArrays.take_blit (arrays : CellArrays) {cells : List PackedCell} {count : Nat}
    (h : cells.length = count) : ((arrays.ensure count).blit 0 cells).take count = .of cells := by
  have hmap : ∀ field : PackedCell → Nat, (cells.map field).length = count :=
    fun field => (length_map field).trans h
  simp only [CellArrays.ensure, CellArrays.blit, CellArrays.take, take_blit_ensure (hmap _),
    CellArrays.of]

theorem packedRows_of {update : GhosttyRenderUpdate} {packed : List PackedRow}
    (hdirty : update.dirtyRows = packed.map PackedRow.row)
    (hflags : update.rowFlags = packed.map PackedRow.flags)
    (hcells : update.cells = .of (packed.flatMap PackedRow.cells))
    (hwidth : ∀ row ∈ packed, row.cells.length = update.cols) : update.packedRows = packed := by
  have hwidth' : ∀ row ∈ packed.map PackedRow.cells, row.length = update.cols := by
    intro row hmem
    obtain ⟨source, hsource, rfl⟩ := mem_map.mp hmem
    exact hwidth source hsource
  apply ext_getElem?
  intro number
  rw [GhosttyRenderUpdate.packedRows, getElem?_map, getElem?_zipIdx, hdirty, getElem?_map]
  rcases Nat.lt_or_ge number packed.length with hlt | hge
  · have hrow := getElem?_eq_getElem hlt
    rw [hrow, hflags, hcells]
    simp only [Option.map_some, Nat.zero_add, getD_eq_getElem?_getD, getElem?_map, hrow,
      Option.getD_some, Option.some.injEq]
    generalize packed[number] = row at hrow
    have hlength := hwidth row (mem_of_getElem? hrow)
    have hcolumns : (List.range update.cols).map (fun column =>
        (CellArrays.of (packed.flatMap PackedRow.cells)).cellAt (number * update.cols + column)) =
          row.cells := by
      apply ext_getElem (by rw [length_map, length_range, hlength])
      intro column hcolumn hcolumn'
      rw [length_map, length_range] at hcolumn
      have hget := @Buffer.flatten_get _ _ _ hwidth' number column hcolumn
      rw [getElem?_map, hrow, Option.map_some, Option.bind_some,
        getElem?_eq_getElem hcolumn', ← flatMap_def] at hget
      obtain ⟨hindex, hvalue⟩ := List.getElem?_eq_some_iff.mp hget
      rw [getElem_map, getElem_range, CellArrays.of_cellAt hindex, hvalue]
    rw [hcolumns]
  · rw [getElem?_eq_none hge]
    rfl

theorem ascending_of_sorted {rows least : Nat} {indices : List Nat}
    (hsorted : indices.Pairwise (· < ·)) (hbounds : ∀ row ∈ indices, least ≤ row ∧ row < rows) :
    GhosttyRenderUpdate.ascending rows least indices = true := by
  induction indices generalizing least with
  | nil => rfl
  | cons first rest ih =>
    rw [pairwise_cons] at hsorted
    obtain ⟨hleast, hlast⟩ := hbounds first mem_cons_self
    simp only [GhosttyRenderUpdate.ascending, Bool.and_eq_true, decide_eq_true_eq]
    refine ⟨⟨hleast, hlast⟩, ih hsorted.2 fun row hrow => ?_⟩
    exact ⟨hsorted.1 row hrow, (hbounds row (mem_cons_of_mem first hrow)).2⟩

theorem between_eq {low high value : Nat} (h : low ≤ value ∧ value ≤ high)
    (hhigh : high ≤ maxSafeInteger) : JsValue.between? low high (.integer value) = some value := by
  have hsafe : -(maxSafeInteger : Int) ≤ (value : Int) ∧ (value : Int) ≤ maxSafeInteger := by omega
  rw [JsValue.between?, JsValue.safeInteger?, if_pos hsafe, Option.bind_some, if_pos (by omega),
    Int.toNat_natCast]

theorem packFlags_lt (row : Yaade.Render.GhosttyRow) : packFlags row < 256 := by
  unfold packFlags
  split <;> split <;> decide

section Update

variable {full : Bool}

def GhosttySnapshot.packing (snapshot : GhosttySnapshot) (frameId generation : Nat) (full : Bool) :
    GhosttyRenderUpdate :=
  let packed := packRows 0 (snapshot.byteRows full)
  { frameId, generation, full
    cols := snapshot.cols
    rows := snapshot.rows
    foreground := packGhosttyColor snapshot.foreground
    background := packGhosttyColor snapshot.background
    cursor := packGhosttyColor snapshot.cursor
    cursorX := snapshot.cursorX
    cursorY := snapshot.cursorY
    cursorVisible := snapshot.cursorVisible
    cursorBlinking := snapshot.cursorBlinking
    cursorStyle := snapshot.cursorStyle
    dirtyRows := packed.map PackedRow.row
    rowFlags := packed.map PackedRow.flags
    cells := .of (packed.flatMap PackedRow.cells)
    graphemes := snapshot.payload full }

theorem rowFlagsOf_some (row : GhosttyRow) : rowFlagsOf (some row) = packFlags row.toBytes := by
  obtain ⟨cells, isWrapContinuation, wrapsToNext⟩ := row
  cases isWrapContinuation <;> cases wrapsToNext <;>
    simp [rowFlagsOf, flag, packFlags, GhosttyRow.toBytes]

variable (hwell : snapshot.WellFormed)
include hwell

theorem byteRows_indices : (snapshot.byteRows full).map Prod.fst = includedRows snapshot full := by
  apply rowsAt_indices
  rw [length_map, hwell.rowData]
  exact includedRows_lt hwell

theorem byteRows_width : ∀ row ∈ snapshot.byteRows full, row.2.cells.length = snapshot.cols := by
  intro row hmem
  have hrow := mem_of_getElem? (mem_rowsAt.mp hmem).2
  obtain ⟨source, hsource, hbytes⟩ := mem_map.mp hrow
  rw [← hbytes]
  exact (length_map _).trans (hwell.cells source hsource)

theorem packed_indices (offset : Nat) :
    (packRows offset (snapshot.byteRows full)).map PackedRow.row = includedRows snapshot full :=
  (packRows_indices offset _).trans (byteRows_indices hwell)

theorem packed_flags : (packRows 0 (snapshot.byteRows full)).map PackedRow.flags =
    (includedRows snapshot full).map fun index => rowFlagsOf snapshot.rowData[index]? := by
  rw [packRows_flags, ← byteRows_indices hwell, map_map]
  apply map_congr_left
  rintro ⟨index, row⟩ hmem
  have hrow := (mem_rowsAt.mp hmem).2
  rw [getElem?_map] at hrow
  obtain ⟨source, hsource, hbytes⟩ := Option.map_eq_some_iff.mp hrow
  simp only [Function.comp_apply, hsource, rowFlagsOf_some, hbytes]

/-- The update that is built in the slot is that of the bytes, whatever was in its
arrays before. -/
theorem build_eq (slot : SlotBuffers) (frameId generation : Nat)
    (hsmall : (snapshot.payload full).length < 2 ^ 32) :
    (buildIn snapshot slot frameId generation full).2 =
      snapshot.packing frameId generation full := by
  have hrows := @includedRows_lt snapshot hwell full
  have hbytes := byteRows_cells hwell hrows
  have hpay : ((((includedRows snapshot full).flatMap fun index =>
      ((snapshot.rowData[index]?).map GhosttyRow.cells).getD []).map
        GhosttyCell.toBytes).flatMap Yaade.Render.GhosttyCell.text) = snapshot.payload full := by
    rw [hbytes, flatMap_assoc]
    rfl
  have hroom := payload_le_capacity hwell hrows
  rw [hpay] at hroom
  have hwrite := @writeCells_eq snapshot
    (ensure slot.graphemes 0 (graphemeCapacity snapshot (includedRows snapshot full))).length 0
    ((includedRows snapshot full).flatMap fun index =>
      ((snapshot.rowData[index]?).map GhosttyRow.cells).getD [])
    (by rw [hpay, Nat.zero_add]; exact Nat.le_trans hroom (ensure_length _ _ _))
    (by rw [hpay, Nat.zero_add]; exact hsmall)
  rw [← cellsOf_rows hwell hrows, hpay, hbytes] at hwrite
  have hpacked : packCells 0 ((rowsAt (snapshot.rowData.map GhosttyRow.toBytes)
      (includedRows snapshot full)).flatMap fun row => row.2.cells) =
        (packRows 0 (snapshot.byteRows full)).flatMap PackedRow.cells :=
    (packRows_flatten 0 _).symm
  have hcount : ((packRows 0 (snapshot.byteRows full)).flatMap PackedRow.cells).length =
      (includedRows snapshot full).length * snapshot.cols := by
    have hwidth := packRows_cells 0 (@byteRows_width snapshot full hwell)
    rw [flatMap_def, @Buffer.length_flatten _ snapshot.cols, length_map,
      ← packed_indices hwell 0, length_map]
    intro row hmem
    obtain ⟨packed, hpackedMem, rfl⟩ := mem_map.mp hmem
    exact hwidth packed hpackedMem
  have hindices : (includedRows snapshot full).map uint32 = includedRows snapshot full := by
    refine (map_congr_left fun row hmem => ?_).trans (map_id _)
    have := hwell.rows_le
    have := hrows row hmem
    exact uint32_eq (by omega)
  have hflags : ((packRows 0 (snapshot.byteRows full)).map PackedRow.flags).length =
      (includedRows snapshot full).length := by
    rw [← packed_indices hwell 0, length_map, length_map]
  have hgraphemes : ∀ buffer : List UInt8,
      (Buffer.blit (ensure buffer 0 (graphemeCapacity snapshot (includedRows snapshot full))) 0
        (snapshot.payload full)).take (snapshot.payload full).length = snapshot.payload full :=
    fun buffer => Buffer.take_blit (Nat.le_trans hroom (ensure_length _ _ _))
  unfold buildIn GhosttySnapshot.packing
  simp only [hwrite, hpacked, hgraphemes, CellArrays.take_blit _ hcount, hindices,
    ← packed_flags hwell, packed_indices hwell, take_blit_ensure rfl, take_blit_ensure hflags]

theorem tryBuild_eq {slots : List BuilderSlot} {frameId generation : Nat}
    {lease : GhosttyRenderUpdateLease} (hsmall : (snapshot.payload full).length < 2 ^ 32)
    (h : (tryBuild snapshot frameId generation full slots).1 = some lease) :
    lease.update = snapshot.packing frameId generation full := by
  induction slots generalizing lease with
  | nil => cases h
  | cons slot rest ih =>
    rw [tryBuild] at h
    split at h
    · obtain ⟨later, hlater, rfl⟩ := Option.map_eq_some_iff.mp h
      have hupdate := ih hlater
      exact hupdate
    · rw [← build_eq hwell slot.buffers frameId generation hsmall]
      exact congrArg GhosttyRenderUpdateLease.update (Option.some.inj h).symm

theorem packing_packedRows (frameId generation : Nat) :
    (snapshot.packing frameId generation full).packedRows = packRows 0 (snapshot.byteRows full) :=
  packedRows_of rfl rfl rfl (packRows_cells 0 (byteRows_width hwell))

theorem packing_checks (frameId generation : Nat) :
    (snapshot.packing frameId generation full).checks = true := by
  have hwidth := packRows_cells 0 (@byteRows_width snapshot full hwell)
  have hcount : ((packRows 0 (snapshot.byteRows full)).flatMap PackedRow.cells).length =
      (packRows 0 (snapshot.byteRows full)).length * snapshot.cols := by
    rw [flatMap_def, @Buffer.length_flatten _ snapshot.cols, length_map]
    intro row hmem
    obtain ⟨packed, hpackedMem, rfl⟩ := mem_map.mp hmem
    exact hwidth packed hpackedMem
  have hvalid := packRows_valid 0 (snapshot.byteRows full)
  rw [Nat.zero_add] at hvalid
  simp only [GhosttyRenderUpdate.checks, GhosttySnapshot.packing, Bool.and_eq_true,
    decide_eq_true_eq, Bool.or_eq_true, Bool.not_eq_true', all_eq_true, length_map,
    mem_range]
  refine ⟨⟨⟨⟨trivial, ?_⟩, ?_⟩, ?_⟩, ?_⟩
  · rw [← hcount]
    exact CellArrays.of_counted _
  · cases full with
    | false => exact .inl rfl
    | true =>
      refine .inr ?_
      rw [← length_map (f := PackedRow.row), packed_indices hwell, includedRows, if_pos rfl,
        length_range]
  · rw [packed_indices hwell]
    exact ascending_of_sorted (includedRows_sorted hwell) fun row hmem =>
      ⟨Nat.zero_le _, includedRows_lt hwell row hmem⟩
  · intro index hindex
    rw [← hcount] at hindex
    rw [CellArrays.of_cellAt hindex]
    obtain ⟨packed, hmem, hcell⟩ := mem_flatMap.mp (getElem_mem hindex)
    exact hvalid packed hmem _ hcell

theorem packing_parse {frameId generation : Nat} (hframe : 1 ≤ frameId ∧ frameId ≤ maxSafeInteger)
    (hgen : 1 ≤ generation ∧ generation ≤ maxSafeInteger) :
    (snapshot.packing frameId generation full).toValue.bind parse? =
      some (snapshot.packing frameId generation full) := by
  have hcols := between_eq ⟨hwell.cols_pos, hwell.cols_le⟩ (by decide)
  have hrows := between_eq ⟨hwell.rows_pos, hwell.rows_le⟩ (by decide)
  have hcolor : ∀ color : GhosttyColor, JsValue.between? 0 0xffffff
      (.integer (packGhosttyColor color)) = some (packGhosttyColor color) := fun color =>
    between_eq ⟨Nat.zero_le _, of_decide_eq_true (isColor_pack color)⟩ (by decide)
  have hflags : (((packRows 0 (snapshot.byteRows full)).map PackedRow.flags).map UInt8.ofNat).map
      UInt8.toNat = (packRows 0 (snapshot.byteRows full)).map PackedRow.flags := by
    rw [packRows_flags, map_map, map_map]
    apply map_congr_left
    rintro ⟨index, row⟩ -
    exact Utf8.toNat_byte (packFlags_lt row)
  simp only [GhosttyRenderUpdate.toValue, GhosttySnapshot.packing, Option.bind_some, parse?,
    between_eq hframe le_rfl, between_eq hgen le_rfl, hcols, hrows, hcolor,
    hwell.cursorX, hwell.cursorY, hwell.cursorStyle, hflags, JsValue.boolean?, JsValue.uint8Array?,
    JsValue.uint16Array?, JsValue.uint32Array?, Option.bind_eq_bind, guard_true, Option.pure_def]

end Update

end Yaade.Render.Slabs

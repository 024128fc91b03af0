import Mathlib.Data.Nat.Bitwise
import Yaade.Render.SlabReads

/-!
Updates there and back: what a builder packs of a snapshot is accepted, and the
model reads as that snapshot afterwards.
-/

namespace Yaade.Render.Slabs

open Yaade.Library Option List

/-! ## Cells as bytes -/

theorem style_bits : ∀ (wide : Fin 4) (underline : Fin 8)
    (bold italic invisible strikethrough overline selected : Bool),
    let style := packGhosttyCellStyle ⟨"", wide, ⟨0, 0, 0⟩, ⟨0, 0, 0⟩, bold, italic, invisible,
      strikethrough, overline, underline, selected⟩
    Fin.ofNat 4 (style &&& 0b11) = wide ∧ decide (style &&& 1 <<< 2 ≠ 0) = bold ∧
      decide (style &&& 1 <<< 3 ≠ 0) = italic ∧ decide (style &&& 1 <<< 4 ≠ 0) = invisible ∧
      decide (style &&& 1 <<< 5 ≠ 0) = strikethrough ∧ decide (style &&& 1 <<< 6 ≠ 0) = overline ∧
      Fin.ofNat 8 ((style &&& 0b111 <<< 8) >>> 8) = underline ∧
      decide (style &&& 1 <<< 7 ≠ 0) = selected := by
  intro wide underline
  fin_cases wide <;> fin_cases underline <;> decide +kernel

def GhosttyCell.ofBytes (cell : Yaade.Render.GhosttyCell) : GhosttyCell :=
  GhosttyViewportModel.materializeCell
    ⟨0, 0, packGhosttyColor cell.foreground, packGhosttyColor cell.background, cell.style⟩
    (Utf8.decode cell.text)

def GhosttyCell.Unmarked (cell : GhosttyCell) : Prop :=
  cell.text.toList.head? ≠ some Utf8.byteOrderMark

theorem ofBytes_toBytes {cell : GhosttyCell} (h : cell.Unmarked) :
    GhosttyCell.ofBytes cell.toBytes = cell := by
  have htext : Utf8.decode (Utf8.encode cell.text) = cell.text := by
    rw [Utf8.decode_encode, if_neg h]
  obtain ⟨text, wide, foreground, background, bold, italic, invisible, strikethrough, overline,
    underline, selected⟩ := cell
  obtain ⟨hwide, hbold, hitalic, hinvisible, hstrikethrough, hoverline, hunderline, hselected⟩ :=
    style_bits wide underline bold italic invisible strikethrough overline selected
  simp only [GhosttyCell.ofBytes, GhosttyCell.toBytes, GhosttyViewportModel.materializeCell,
    unpack_pack, GhosttyCell.mk.injEq]
  exact ⟨htext, hwide, trivial, trivial, hbold, hitalic, hinvisible, hstrikethrough, hoverline,
    hunderline, hselected⟩

theorem flag_bits (flags : Nat) : decide (flags &&& 1 ≠ 0) = decide (flags % 2 = 1) ∧
    decide (flags &&& 2 ≠ 0) = decide (flags / 2 % 2 = 1) := by
  have htwo := Nat.and_two_pow flags 1
  rw [Nat.testBit_eq_decide_div_mod_eq, Nat.pow_one] at htwo
  constructor
  · rw [decide_eq_decide, Nat.and_one_is_mod]
    omega
  · rw [decide_eq_decide, htwo]
    by_cases h : flags / 2 % 2 = 1 <;> simp [h]

namespace GhosttyViewportModel

variable {model : GhosttyViewportModel} {snapshot : GhosttySnapshot} {full : Bool} {row : Nat}

/-! ## Rows as bytes -/

theorem decodeAt_bytes (row column : Nat) : model.decodeAt row column = Utf8.decode
    (Yaade.Render.GhosttyViewportModel.slice (model.rowGraphemes.getD row [])
      (model.cellAt row column)) := by
  unfold decodeAt
  dsimp only
  split
  · rename_i hempty
    rw [Yaade.Render.GhosttyViewportModel.slice, hempty, take_zero]
    decide
  · rfl

theorem materializeRow_bytes {source : GhosttyRow} (hfresh : model.Fresh row)
    (hrow : row < model.rows) (hunmarked : ∀ cell ∈ source.cells, cell.Unmarked)
    (hbytes : Yaade.Render.GhosttyViewportModel.materializeRow (model.slab row) = source.toBytes) :
    (model.materializeRow row).1 = source := by
  obtain ⟨cells, isWrapContinuation, wrapsToNext⟩ := source
  simp only [Yaade.Render.GhosttyViewportModel.materializeRow, GhosttyRow.toBytes, slab,
    Yaade.Render.GhosttyRow.mk.injEq, List.map_map] at hbytes
  obtain ⟨hcells, hcontinuation, hwraps⟩ := hbytes
  rw [materializeRow_fresh hfresh hrow, GhosttyRow.mk.injEq]
  refine ⟨?_, (flag_bits _).1.trans hcontinuation, (flag_bits _).2.trans hwraps⟩
  calc (List.range model.cols).map (fun column =>
        materializeCell (model.cellAt row column) (model.decodeAt row column))
      = ((List.range model.cols).map (Yaade.Render.GhosttyViewportModel.materializeCell
          (model.slab row) ∘ model.cellAt row)).map GhosttyCell.ofBytes := by
        rw [List.map_map]
        apply map_congr_left
        intro column _
        rw [decodeAt_bytes]
        simp only [Function.comp_apply, GhosttyCell.ofBytes, materializeCell, unpack_pack,
          Yaade.Render.GhosttyViewportModel.materializeCell]
        rfl
    _ = (cells.map GhosttyCell.toBytes).map GhosttyCell.ofBytes := congrArg _ hcells
    _ = cells := by
        rw [List.map_map]
        refine (map_congr_left fun cell hmem => ?_).trans (List.map_id _)
        exact ofBytes_toBytes (hunmarked cell hmem)

/-! ## Models that there are -/

theorem copyRows_sized {graphemes : List UInt8} {packed : List PackedRow} (hsized : model.Sized)
    (hfits : ∀ row ∈ packed, Fits model.cols model.rows graphemes row) :
    (copyRows model.cols graphemes model packed).2.Sized := by
  induction packed generalizing model with
  | nil => exact hsized
  | cons first rest ih =>
    have hfirst := hfits first mem_cons_self
    have hnext := copyRow_sized hsized hfirst
    rw [copyRows, if_neg (Nat.not_le.mpr hfirst.row)]
    rw [copyRow_eq hfirst.texts] at hnext ⊢
    exact ih hnext fun row hmem => hfits row (mem_cons_of_mem first hmem)

theorem begin_sized (hsized : model.Sized) (update : GhosttyRenderUpdate) :
    (model.begin update).Sized := by
  unfold begin
  split
  · refine ⟨?_, length_replicate, length_replicate, length_replicate, length_replicate⟩
    exact (Nat.mul_comm update.rows update.cols) ▸ CellArrays.zero_counted _
  · exact { hsized with }

variable {update : GhosttyRenderUpdate}

theorem fits_begin (h : update.checks = true) : ∀ packed ∈ update.packedRows,
      Fits (model.begin update).cols (model.begin update).rows update.graphemes packed := by
  intro packed hmem
  obtain ⟨hrow, htexts⟩ := checks_packed h packed hmem
  rw [(begin_rows update).1, (begin_rows update).2]
  refine ⟨hrow, ?_, htexts⟩
  obtain ⟨⟨row, number⟩, -, rfl⟩ := List.mem_map.mp hmem
  exact (length_map _).trans length_range

section

variable (hsized : model.Sized)
include hsized

theorem advanced_sized (h : update.checks = true) : (model.advanced update).Sized := by
  have hcopied := copyRows_sized (begin_sized hsized update) (fits_begin h)
  rw [(begin_rows update).2] at hcopied
  exact { hcopied with }

theorem textAt_sized (row column : Nat) :
    (model.textAt row column).2.Sized := by
  unfold textAt
  dsimp only
  split
  · exact hsized
  · split <;> exact { hsized with decodedRows := length_set.trans hsized.decodedRows }

theorem materializeCells_sized (row : Nat) (columns : List Nat) :
    (materializeCells row model columns).2.Sized := by
  induction columns generalizing model with
  | nil => exact hsized
  | cons column rest ih => exact ih (textAt_sized hsized row column)

theorem materializeRows_sized (rows : List Nat) :
    (materializeRows model rows).2.Sized := by
  induction rows generalizing model with
  | nil => exact hsized
  | cons row rest ih =>
    refine @ih (model.materializeRow row).2 ?_
    have hcells := materializeCells_sized hsized row (List.range model.cols)
    unfold materializeRow
    dsimp only
    split
    · exact hsized
    · exact { hcells with compatibilityRows := length_set.trans hcells.compatibilityRows }

end

theorem Made.sized (h : Made model) : model.Sized := by
  induction h with
  | empty => exact ⟨CellArrays.zero_counted 0, rfl, rfl, rfl, rfl⟩
  | apply hmade value ih =>
    rename_i before
    rcases apply_cases before value with hsame | ⟨update, hchecks, -, hadvanced⟩
    · rw [hsame]
      exact ih
    · rw [hadvanced]
      exact advanced_sized ih hchecks
  | textAt hmade row column ih => exact textAt_sized ih row column
  | snapshot hmade ih => exact materializeRows_sized ih _

/-! ## Round trips -/

/-- The model has the size of the snapshot and reads as it does in the rows that are
not dirty. -/
structure Agrees (model : GhosttyViewportModel) (snapshot : GhosttySnapshot) : Prop where
  cols : model.cols = snapshot.cols
  rows : model.rows = snapshot.rows
  rowData : ∀ row < snapshot.rows, row ∉ snapshot.dirtyRows →
    model.snapshot.1.rowData[row]? = snapshot.rowData[row]?

theorem begin_same (hfull : update.full = false)
    (hcols : update.cols = model.cols) (hrows : update.rows = model.rows) :
    SameRow row model (model.begin update) := by
  unfold begin
  rw [if_neg (by simp [hfull, hcols, hrows])]
  exact ⟨rfl, rfl, fun _ _ => rfl, rfl, rfl, rfl, rfl, rfl, rfl⟩

section Packing

variable {frameId generation : Nat} (hwell : snapshot.WellFormed)
include hwell

theorem fits_packing : ∀ packed ∈ packRows 0 (snapshot.byteRows full),
    Fits (model.begin (snapshot.packing frameId generation full)).cols
      (model.begin (snapshot.packing frameId generation full)).rows (snapshot.payload full)
      packed := by
  have hfits := @fits_begin model _ (@packing_checks snapshot full hwell frameId generation)
  rw [packing_packedRows hwell frameId generation] at hfits
  exact hfits

theorem packed_rows_nodup : ((packRows 0 (snapshot.byteRows full)).map PackedRow.row).Nodup := by
  rw [packed_indices hwell]
  exact (includedRows_sorted hwell).imp fun h => Nat.ne_of_lt h

variable (hsized : model.Sized)
include hsized

theorem advanced_included (hunmarked : ∀ row ∈ snapshot.rowData, ∀ cell ∈ row.cells, cell.Unmarked)
    (hincluded : row ∈ includedRows snapshot full) :
    some ((model.advanced (snapshot.packing frameId generation full)).materializeRow row).1 =
      snapshot.rowData[row]? := by
  rw [← packed_indices hwell 0] at hincluded
  obtain ⟨packed, hmem, rfl⟩ := List.mem_map.mp hincluded
  have hslab := copyRows_slab (begin_sized hsized (snapshot.packing frameId generation full))
    (fits_packing hwell) (packed_rows_nodup hwell) hmem
  rw [(begin_rows _).2, ← packing_packedRows hwell frameId generation] at hslab
  have hpacked := materialize_rows (snapshot.byteRows full) [] []
  simp only [length_nil, nil_append, append_nil] at hpacked
  have hrow : (packed.row, Yaade.Render.GhosttyViewportModel.materializeRow
      (Yaade.Render.GhosttyViewportModel.copyRow (snapshot.payload full) packed)) ∈
        snapshot.byteRows full :=
    hpacked.subst (motive := fun rows => _ ∈ rows) (List.mem_map.mpr ⟨packed, hmem, rfl⟩)
  have hget := (mem_rowsAt.mp hrow).2
  rw [getElem?_map] at hget
  obtain ⟨source, hsource, hbytes⟩ := map_eq_some_iff.mp hget
  have hrows : (model.advanced (snapshot.packing frameId generation full)).rows = snapshot.rows :=
    (size_of_header (@advanced_header model _)).2.trans (begin_rows _).1
  have hlt : packed.row < snapshot.rows := hwell.rowData ▸ (List.getElem?_eq_some_iff.mp hsource).1
  rw [hsource, @materializeRow_bytes (model.advanced (snapshot.packing frameId generation full)) _ _
    ⟨hslab.2.decodedRows, hslab.2.compatibilityRows⟩ (hrows ▸ hlt)
    (hunmarked source (mem_of_getElem? hsource))]
  exact (congrArg Yaade.Render.GhosttyViewportModel.materializeRow hslab.1).trans hbytes.symm

theorem advanced_excluded (hagrees : model.Agrees snapshot) (hrow : row < snapshot.rows)
    (hexcluded : row ∉ snapshot.dirtyRows) :
    some ((model.advanced (snapshot.packing frameId generation false)).materializeRow row).1 =
      snapshot.rowData[row]? := by
  have hother := @copyRows_other _ row _ _
    (begin_sized hsized (snapshot.packing frameId generation false))
    (fits_packing hwell) fun other hmem hsame => by
      have hincluded := List.mem_map_of_mem (f := PackedRow.row) hmem
      rw [packed_indices hwell, ← hsame] at hincluded
      exact hexcluded (mem_mergeSort.mp hincluded)
  rw [(begin_rows _).2, ← packing_packedRows hwell frameId generation] at hother
  have hsame := (begin_same rfl hagrees.cols.symm hagrees.rows.symm).trans hother
  have hread : ((model.advanced (snapshot.packing frameId generation false)).materializeRow row).1 =
      (model.materializeRow row).1 :=
    materializeRow_same { hsame with }
  rw [hread, ← hagrees.rowData row hrow hexcluded, snapshot_rowData, getElem?_map,
    getElem?_range (hagrees.rows ▸ hrow)]
  rfl

theorem advanced_snapshot (hunmarked : ∀ row ∈ snapshot.rowData, ∀ cell ∈ row.cells, cell.Unmarked)
    (hkept : full = true ∨ model.Agrees snapshot) :
    (model.advanced (snapshot.packing frameId generation full)).snapshot.1 =
      { snapshot with dirtyRows := includedRows snapshot full } := by
  have hheader := (@advanced_header model (snapshot.packing frameId generation full))
  have hrows : (model.advanced (snapshot.packing frameId generation full)).rows = snapshot.rows :=
    (size_of_header hheader).2.trans (begin_rows _).1
  have hcols : (model.advanced (snapshot.packing frameId generation full)).cols = snapshot.cols :=
    (size_of_header hheader).1.trans (begin_rows _).2
  have hdata : (model.advanced (snapshot.packing frameId generation full)).snapshot.1.rowData =
      snapshot.rowData := by
    rw [snapshot_rowData, hrows]
    apply ext_getElem?
    intro row
    rcases Nat.lt_or_ge row snapshot.rows with hlt | hge
    · rw [getElem?_map, getElem?_range hlt, map_some]
      by_cases hincluded : row ∈ includedRows snapshot full
      · exact advanced_included hwell hsized hunmarked hincluded
      cases full with
      | true => exact absurd (mem_range.mpr hlt) hincluded
      | false =>
        exact advanced_excluded hwell hsized (hkept.resolve_left Bool.false_ne_true) hlt
          fun hmem => hincluded (mem_mergeSort.mpr hmem)
    · rw [getElem?_eq_none (by rw [length_map, length_range]; exact hge),
        getElem?_eq_none (hwell.rowData ▸ hge)]
  simp only [header, GhosttyViewportModel.mk.injEq] at hheader
  obtain ⟨-, -, -, -, hforeground, hbackground, hcursor, hcursorX, hcursorY, hcursorVisible,
    hcursorBlinking, hcursorStyle, -⟩ := hheader
  have hdirty : (model.advanced (snapshot.packing frameId generation full)).dirtyRows =
      includedRows snapshot full := packed_indices hwell 0
  simp only [GhosttyViewportModel.snapshot] at hdata ⊢
  rw [hdata, hcols, hrows, hdirty, hforeground, hbackground, hcursor, hcursorX, hcursorY,
    hcursorVisible, hcursorBlinking, hcursorStyle]
  simp only [begin, GhosttySnapshot.packing, unpack_pack]

end Packing

/-- What is built of a snapshot is accepted by any older model that it goes with,
which reads as the snapshot then. Whatever else is applied is rejected and changes
nothing, or is newer. -/
theorem updates_round_trip (hmade : Made model) :
    (∀ (snapshot : GhosttySnapshot) (slots : List BuilderSlot) (frameId generation : Nat)
        (full : Bool) (lease : GhosttyRenderUpdateLease), snapshot.WellFormed →
      (∀ row ∈ snapshot.rowData, ∀ cell ∈ row.cells, cell.Unmarked) →
      (snapshot.payload full).length < 2 ^ 32 → 1 ≤ frameId ∧ frameId ≤ maxSafeInteger →
      1 ≤ generation ∧ generation ≤ maxSafeInteger →
      (tryBuild snapshot frameId generation full slots).1 = some lease →
      (model.generation < generation ∨ model.generation = generation ∧ model.frameId < frameId) →
      (full = true ∨ model.Agrees snapshot ∧ model.generation = generation) →
        validateGhosttyRenderUpdate lease.update.toValue = true ∧
        (model.apply lease.update.toValue).1 = true ∧
        (model.apply lease.update.toValue).2.snapshot.1 =
          { snapshot with dirtyRows := includedRows snapshot full }) ∧
    ∀ value, model.apply value = (false, model) ∨ (model.apply value).1 = true ∧
      (model.generation < (model.apply value).2.generation ∨
        model.generation = (model.apply value).2.generation ∧
          model.frameId < (model.apply value).2.frameId) := by
  refine ⟨?_, apply_advances model⟩
  intro snapshot slots frameId generation full lease hwell hunmarked hsmall hframe hgen
    hbuilt hnewer hkept
  have hupdate := tryBuild_eq hwell hsmall hbuilt
  have hparse := @packing_parse snapshot full hwell _ _ hframe hgen
  have hchecks := @packing_checks snapshot full hwell frameId generation
  have htakes : model.Takes (snapshot.packing frameId generation full) := by
    refine ⟨hnewer, hkept.imp_right ?_⟩
    rintro ⟨hagrees, hsame⟩
    exact ⟨hsame, hagrees.cols, hagrees.rows⟩
  have happly := apply_accepts hparse hchecks htakes
  rw [hupdate, happly]
  refine ⟨?_, rfl, ?_⟩
  · rw [validateGhosttyRenderUpdate, hparse]
    exact hchecks
  · exact advanced_snapshot hwell hmade.sized hunmarked (hkept.imp_right And.left)

def accent : GhosttySnapshot where
  cols := 1
  rows := 1
  foreground := ⟨1, 2, 3⟩
  background := ⟨4, 5, 6⟩
  cursor := ⟨7, 8, 9⟩
  cursorX := 0
  cursorY := 0
  cursorVisible := true
  cursorBlinking := false
  cursorStyle := 1
  dirtyRows := []
  rowData := [⟨[⟨"é", 1, ⟨10, 11, 12⟩, ⟨13, 14, 15⟩, true, false, false, true, false, 3, true⟩],
    true, false⟩]

def emptySlot : BuilderSlot := ⟨false, 0, ⟨[0], [0], .zero 1, [0]⟩⟩

theorem accent_wellFormed : accent.WellFormed := by
  constructor <;> decide

theorem accent_unmarked : ∀ row ∈ accent.rowData, ∀ cell ∈ row.cells, cell.Unmarked := by
  intro row hrow cell hcell
  rw [mem_singleton.mp hrow] at hcell
  rw [mem_singleton.mp hcell, GhosttyCell.Unmarked]
  decide

theorem accent_payload : accent.payload false = [] := by
  rw [GhosttySnapshot.payload, GhosttySnapshot.byteRows, includedRows, if_neg Bool.false_ne_true,
    accent, mergeSort_nil]
  rfl

theorem updates_round_trip_accent :
    (empty.apply (buildIn accent emptySlot.buffers 1 1 true).2.toValue).2.snapshot.1 =
      { accent with dirtyRows := [0] } :=
  ((updates_round_trip Made.empty).1 accent [emptySlot] 1 1 true
    ⟨0, 1, (buildIn accent emptySlot.buffers 1 1 true).2⟩ accent_wellFormed accent_unmarked
    (by decide) (by decide) (by decide) rfl (.inl (by decide)) (.inl rfl)).2.2

/-- An update that is not full is rejected by a model of an earlier generation. -/
theorem older_generation_rejects :
    ¬ ∀ (model : GhosttyViewportModel) (snapshot : GhosttySnapshot) (slots : List BuilderSlot)
        (frameId generation : Nat) (full : Bool) (lease : GhosttyRenderUpdateLease), Made model →
      snapshot.WellFormed → (snapshot.payload full).length < 2 ^ 32 →
      1 ≤ frameId ∧ frameId ≤ maxSafeInteger → 1 ≤ generation ∧ generation ≤ maxSafeInteger →
      (tryBuild snapshot frameId generation full slots).1 = some lease →
      (model.generation < generation ∨ model.generation = generation ∧ model.frameId < frameId) →
      (full = true ∨ model.Agrees snapshot) →
        validateGhosttyRenderUpdate lease.update.toValue = true ∧
        (model.apply lease.update.toValue).1 = true ∧
        (model.apply lease.update.toValue).2.snapshot.1 =
          { snapshot with dirtyRows := includedRows snapshot full } := by
  intro hclaim
  have hparse := @packing_parse accent true accent_wellFormed 1 1 (by decide) (by decide)
  have happly := @apply_accepts empty _ _ hparse (packing_checks accent_wellFormed 1 1)
    ⟨.inl (by decide), .inl rfl⟩
  have hmade : Made (empty.advanced (accent.packing 1 1 true)) := by
    have hmade := Made.apply .empty (accent.packing 1 1 true).toValue
    rwa [happly] at hmade
  have hshown := @advanced_snapshot empty accent true 1 1 accent_wellFormed Made.empty.sized
    accent_unmarked (.inl rfl)
  have hheader := @advanced_header empty (accent.packing 1 1 true)
  have hgen : (empty.advanced (accent.packing 1 1 true)).generation = 1 := by
    have hfields := hheader
    simp only [header, GhosttyViewportModel.mk.injEq] at hfields
    exact hfields.2.1
  have hsmall : (accent.payload false).length < 2 ^ 32 := by
    rw [accent_payload]
    decide
  have hagrees : (empty.advanced (accent.packing 1 1 true)).Agrees accent :=
    ⟨(size_of_header hheader).1.trans (begin_rows _).2,
      (size_of_header hheader).2.trans (begin_rows _).1, fun row _ _ => by rw [hshown]⟩
  have hlater := @packing_parse accent false accent_wellFormed 1 2 (by decide) (by decide)
  have hbuilt := @build_eq accent false accent_wellFormed emptySlot.buffers 1 2 hsmall
  have hacc := (hclaim _ accent [emptySlot] 1 2 false
    ⟨0, 1, (buildIn accent emptySlot.buffers 1 2 false).2⟩ hmade accent_wellFormed hsmall
    (by decide) (by decide) rfl (.inl (by rw [hgen]; decide)) (.inr hagrees)).2.1
  have hchecks := @packing_checks accent false accent_wellFormed 1 2
  have hrejected : ((empty.advanced (accent.packing 1 1 true)).apply
      (accent.packing 1 2 false).toValue).1 = false := by
    rw [apply, hlater]
    dsimp only
    rw [hchecks, hgen, if_neg (by decide),
      if_neg (show ¬ (accent.packing 1 2 false).generation < 1 by decide),
      if_neg (show ¬ ((accent.packing 1 2 false).generation = 1 ∧ _) from fun h =>
        absurd h.1 (by decide)), if_pos ⟨by decide, rfl⟩]
  rw [hbuilt, hrejected] at hacc
  cases hacc

end GhosttyViewportModel

end Yaade.Render.Slabs

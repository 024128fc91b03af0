import Yaade.Library.Buffer
import Yaade.Library.StableSort

/-!
The retained scene of the renderer: the batches of all rows packed one after
the other for each primitive, and the plans by which a buffer follows them.
-/

namespace Yaade.Render.RetainedScene

open Library Library.Buffer Option List

structure Batch (α : Type) (width : Nat) where
  count : Nat
  data : List α
  fits : data.length = count * width

structure RowChange (β : Type) where
  row : Nat
  batches : β

structure RowRange where
  offset : Nat
  count : Nat

structure SceneFloatRange (α : Type) where
  offset : Nat
  data : List α

inductive ScenePrimitivePlan (α : Type)
  | none
  | ranges (parts : List (SceneFloatRange α))
  | full (data : List α)

structure PrimitiveScene (α : Type) where
  values : List α := []
  ranges : List RowRange := []
  countValue : Nat := 0

def grown : Nat → Nat → Nat → Nat
  | 0, capacity, _ => capacity
  | rounds + 1, capacity, required =>
    if capacity < required then grown rounds (capacity * 2) required else capacity

def firstOfRow {β : Type} : Int → List (RowChange β) → List (RowChange β)
  | _, [] => []
  | previousRow, change :: rest =>
    if change.row = previousRow then firstOfRow previousRow rest
    else change :: firstOfRow change.row rest

def firsts {β : Type} (changes : List (RowChange β)) : List (RowChange β) :=
  firstOfRow (-1) (orderBy (fun change => change.row) changes)

def mergeRange : List RowRange → RowRange → List RowRange
  | previous :: merged, range =>
    if previous.offset + previous.count = range.offset then
      ⟨previous.offset, previous.count + range.count⟩ :: merged
    else range :: previous :: merged
  | [], range => [range]

section Primitive

variable {α : Type} [Zero α] {width : Nat}

def total (rows : List (Batch α width)) : Nat :=
  (rows.map Batch.count).sum

def layout : Nat → List (Batch α width) → List RowRange
  | _, [] => []
  | offset, batch :: rest => ⟨offset, batch.count⟩ :: layout (offset + batch.count) rest

def fill : List α → List RowRange → List (Batch α width) → List α
  | values, range :: ranges, batch :: rest =>
    fill (if range.count = 0 then values else blit values (range.offset * width) batch.data)
      ranges rest
  | values, _, _ => values

def touched (ranges : List RowRange) (changes : List (RowChange (Batch α width))) :
    List (RowRange × Batch α width) :=
  changes.filterMap fun change => (ranges[change.row]?).bind fun range =>
    if range.count * width = 0 then none else some (range, change.batches)

def writeAll (values : List α) (touched : List (RowRange × Batch α width)) : List α :=
  touched.foldl (fun values entry => blit values (entry.1.offset * width) entry.2.data) values

namespace PrimitiveScene

variable (scene : PrimitiveScene α)

def data (width : Nat) : List α :=
  scene.values.take (scene.countValue * width)

def clear : PrimitiveScene α :=
  { scene with ranges := [], countValue := 0 }

def replaceAll (rows : List (Batch α width)) : ScenePrimitivePlan α × PrimitiveScene α :=
  let required := total rows * width
  let values :=
    if required > scene.values.length then
      List.replicate (grown required (max (64 * width) scene.values.length) required) 0
    else scene.values
  let values := fill values (layout 0 rows) rows
  (.full (values.take required), ⟨values, layout 0 rows, total rows⟩)

def targetLength (width : Nat) : Nat :=
  grown (scene.countValue * 2 * width) (64 * width) (scene.countValue * 2 * width)

def trimCapacity (width : Nat) : Nat × PrimitiveScene α :=
  if scene.values.length ≤ scene.targetLength width then (0, scene)
  else
    (4 * scene.values.length - 4 * scene.targetLength width, { scene with
      values := blit (List.replicate (scene.targetLength width) 0) 0 (scene.data width) })

def isStable (changes : List (RowChange (Batch α width))) : Bool :=
  changes.all fun change =>
    (scene.ranges[change.row]?).map RowRange.count == some change.batches.count

def updateRows (changes : List (RowChange (Batch α width))) (rows : List (Batch α width)) :
    ScenePrimitivePlan α × PrimitiveScene α :=
  if changes.isEmpty then (.none, scene)
  else if !scene.isStable changes then scene.replaceAll rows
  else
    let entries := touched scene.ranges (firsts changes)
    let values := writeAll scene.values entries
    let merged := ((entries.map Prod.fst).foldl mergeRange []).reverse
    (if entries.isEmpty then .none
      else .ranges (merged.map fun range =>
        ⟨range.offset * width, (values.drop (range.offset * width)).take (range.count * width)⟩),
      { scene with values := values })

end PrimitiveScene

def ScenePrimitivePlan.apply (mirror : List α) : ScenePrimitivePlan α → List α
  | .none => mirror
  | .ranges parts => parts.foldl (fun mirror part => blit mirror part.offset part.data) mirror
  | .full data => data

end Primitive

/-! ## The scene -/

structure RetainedRowBatches (α : Type) where
  backgrounds : Batch α 8
  decorations : Batch α 8
  glyphs : Batch α 13

structure SceneSubmissionPlan (α : Type) where
  backgrounds : ScenePrimitivePlan α
  decorations : ScenePrimitivePlan α
  glyphs : ScenePrimitivePlan α

structure WebGlRetainedScene (α : Type) where
  rows : List (RetainedRowBatches α) := []
  backgroundScene : PrimitiveScene α := {}
  decorationScene : PrimitiveScene α := {}
  glyphScene : PrimitiveScene α := {}

def RowChange.select {β γ : Type} (select : β → γ) (change : RowChange β) : RowChange γ :=
  ⟨change.row, select change.batches⟩

def setRows {β : Type} (changes : List (RowChange β)) (rows : List β) : List β :=
  changes.foldl (fun rows change => rows.set change.row change.batches) rows

section Scene

variable {α : Type} [Zero α]

namespace WebGlRetainedScene

variable (scene : WebGlRetainedScene α)

def trimCapacity : WebGlRetainedScene α :=
  { scene with
    backgroundScene := (scene.backgroundScene.trimCapacity 8).2
    decorationScene := (scene.decorationScene.trimCapacity 8).2
    glyphScene := (scene.glyphScene.trimCapacity 13).2 }

def replaceAll (rows : List (RetainedRowBatches α)) :
    SceneSubmissionPlan α × WebGlRetainedScene α :=
  let backgrounds := scene.backgroundScene.replaceAll (rows.map (·.backgrounds))
  let decorations := scene.decorationScene.replaceAll (rows.map (·.decorations))
  let glyphs := scene.glyphScene.replaceAll (rows.map (·.glyphs))
  (⟨backgrounds.1, decorations.1, glyphs.1⟩, ⟨rows, backgrounds.2, decorations.2, glyphs.2⟩)

def updateRows (changes : List (RowChange (RetainedRowBatches α))) :
    Option (SceneSubmissionPlan α × WebGlRetainedScene α) :=
  if changes.isEmpty then some (⟨.none, .none, .none⟩, scene)
  else if changes.all (·.row < scene.rows.length) then
    let rows := setRows changes scene.rows
    let backgrounds := scene.backgroundScene.updateRows (changes.map (·.select (·.backgrounds)))
      (rows.map (·.backgrounds))
    let decorations := scene.decorationScene.updateRows (changes.map (·.select (·.decorations)))
      (rows.map (·.decorations))
    let glyphs := scene.glyphScene.updateRows (changes.map (·.select (·.glyphs)))
      (rows.map (·.glyphs))
    some (⟨backgrounds.1, decorations.1, glyphs.1⟩, ⟨rows, backgrounds.2, decorations.2, glyphs.2⟩)
  else none

def clear : WebGlRetainedScene α :=
  ⟨[], scene.backgroundScene.clear, scene.decorationScene.clear, scene.glyphScene.clear⟩

end WebGlRetainedScene

/-! ## Runs -/

/-- A scene, the buffers that follow it, and whether it was cleared since they did. -/
structure World (α : Type) where
  scene : WebGlRetainedScene α := {}
  backgrounds : List α := []
  decorations : List α := []
  glyphs : List α := []
  cleared : Bool := true

def World.follow (world : World α) (result : SceneSubmissionPlan α × WebGlRetainedScene α) :
    World α :=
  { world with
    scene := result.2
    backgrounds := result.1.backgrounds.apply world.backgrounds
    decorations := result.1.decorations.apply world.decorations
    glyphs := result.1.glyphs.apply world.glyphs }

inductive Action (α : Type)
  | replaceAll (rows : List (RetainedRowBatches α))
  | updateRows (changes : List (RowChange (RetainedRowBatches α)))
  | trimCapacity
  | clear

def World.step (world : World α) : Action α → Option (World α)
  | .replaceAll rows => some { world.follow (world.scene.replaceAll rows) with cleared := false }
  | .updateRows changes => (world.scene.updateRows changes).map world.follow
  | .trimCapacity => some { world with scene := world.scene.trimCapacity }
  | .clear => some { world with scene := world.scene.clear, cleared := true }

def concat {width : Nat} (rows : List (Batch α width)) : List α :=
  rows.flatMap Batch.data

def Mirrors {width : Nat} (cleared : Bool) (scene : PrimitiveScene α) (mirror : List α)
    (rows : List (Batch α width)) : Prop :=
  scene.countValue = total rows ∧ scene.data width = concat rows ∧
    if cleared then rows = [] else mirror = concat rows

def World.Mirrored (world : World α) : Prop :=
  Mirrors world.cleared world.scene.backgroundScene world.backgrounds
      (world.scene.rows.map (·.backgrounds)) ∧
    Mirrors world.cleared world.scene.decorationScene world.decorations
        (world.scene.rows.map (·.decorations)) ∧
      Mirrors world.cleared world.scene.glyphScene world.glyphs (world.scene.rows.map (·.glyphs))

/-- Changes of one row agree in what they put there, first and last, or the
scene is packed anew. -/
def Agrees {width : Nat} (scene : PrimitiveScene α) (changes : List (RowChange (Batch α width))) :
    Prop :=
  scene.isStable changes = false ∨ ∀ row,
    (changes.find? (·.row = row)).map (·.batches.data) =
      (changes.reverse.find? (·.row = row)).map (·.batches.data)

def World.Agreed (world : World α) : Action α → Prop
  | .updateRows changes =>
    Agrees world.scene.backgroundScene (changes.map (·.select (·.backgrounds))) ∧
      Agrees world.scene.decorationScene (changes.map (·.select (·.decorations))) ∧
        Agrees world.scene.glyphScene (changes.map (·.select (·.glyphs)))
  | _ => True

inductive Reaches : World α → World α → Prop
  | refl {world : World α} : Reaches world world
  | step {world middle next : World α} {action : Action α} (before : Reaches world middle)
      (agreed : middle.Agreed action) (hstep : middle.step action = some next) : Reaches world next

end Scene

/-! ## One primitive -/

section Packed

variable {α : Type} {width : Nat} {rows : List (Batch α width)} {values mirror : List α}

theorem length_concat (rows : List (Batch α width)) : (concat rows).length = total rows * width := by
  induction rows with
  | nil => simp [concat, total]
  | cons batch rest ih =>
    simp only [concat, total, flatMap_cons, length_append, map_cons, sum_cons] at ih ⊢
    rw [batch.fits, ih, Nat.add_mul]

theorem concat_eq_of_data {others : List (Batch α width)}
    (h : rows.map Batch.data = others.map Batch.data) : concat rows = concat others := by
  unfold concat
  rw [flatMap_def, flatMap_def, h]

theorem le_grown {rounds capacity required : Nat} (hpos : 0 < capacity ∨ required = 0)
    (h : required ≤ capacity + rounds) : required ≤ grown rounds capacity required := by
  induction rounds generalizing capacity with
  | zero => exact h
  | succ rounds ih =>
    unfold grown
    split
    · apply ih <;> omega
    · omega

theorem layout_get (offset : Nat) (rows : List (Batch α width)) (row : Nat) :
    (layout offset rows)[row]? =
      (rows[row]?).map fun batch => ⟨offset + total (rows.take row), batch.count⟩ := by
  induction rows generalizing offset row with
  | nil => rfl
  | cons batch rest ih =>
    cases row with
    | zero => simp [layout, total]
    | succ row => simp [layout, ih, total, Nat.add_assoc]

theorem fill_layout (offset : Nat) (h : (offset + total rows) * width ≤ values.length) :
    (fill values (layout offset rows) rows).take ((offset + total rows) * width) =
        values.take (offset * width) ++ concat rows := by
  induction rows generalizing offset values with
  | nil => simp [fill, layout, concat, total]
  | cons batch rest ih =>
    have htotal : total (batch :: rest) = batch.count + total rest := by simp [total]
    rw [htotal, ← Nat.add_assoc] at h ⊢
    have hend : (offset + batch.count) * width = offset * width + batch.count * width :=
      Nat.add_mul _ _ _
    have hroom : offset * width + batch.data.length ≤ values.length := by
      rw [batch.fits, ← hend]
      exact (Nat.mul_le_mul_right width (Nat.le_add_right _ _)).trans h
    simp only [layout, fill]
    split
    · rename_i hcount
      have hdata : batch.data = [] := eq_nil_of_length_eq_zero (by rw [batch.fits, hcount, Nat.zero_mul])
      have hpacked : concat (batch :: rest) = concat rest := by simp [concat, hdata]
      rw [ih _ h, hcount, hpacked]
      rfl
    · rw [ih _ (by rwa [blit_length hroom]), hend, ← batch.fits, blit_eq hroom, append_assoc,
        ← append_assoc (values.take _), take_append_of_le_length, take_of_length_le,
        append_assoc]
      · rfl
      · simp
      · simp
        omega

/-- One batch written over where its row lies. -/
theorem blit_concat {row : Nat} {batch old : Batch α width} (hrow : rows[row]? = some old)
    (hcount : old.count = batch.count) (h : values.take (concat rows).length = concat rows) :
    (blit values (total (rows.take row) * width) batch.data).take (concat rows).length =
        concat (rows.set row batch) ∧
      (blit values (total (rows.take row) * width) batch.data).length = values.length := by
  obtain ⟨hlt, hold⟩ := List.getElem?_eq_some_iff.mp hrow
  have hsplit : rows = rows.take row ++ old :: rows.drop (row + 1) := by
    rw [← hold, getElem_cons_drop, take_append_drop]
  have hset : rows.set row batch = rows.take row ++ batch :: rows.drop (row + 1) := by
    rw [set_eq_take_append_cons_drop, if_pos hlt]
  have hpacked : concat rows = concat (rows.take row) ++ (old.data ++ concat (rows.drop (row + 1))) := by
    conv_lhs => rw [hsplit]
    simp [concat]
  have hsame : old.data.length = batch.data.length := by rw [old.fits, batch.fits, hcount]
  have hnew : concat (rows.set row batch) =
      concat (rows.take row) ++ batch.data ++ concat (rows.drop (row + 1)) := by
    rw [hset]
    simp [concat]
  obtain ⟨tail, htail⟩ : ∃ tail, values = concat rows ++ tail :=
    ⟨values.drop (concat rows).length, by
      conv_lhs => rw [← take_append_drop (concat rows).length values]
      rw [h]⟩
  rw [hpacked, append_assoc, append_assoc] at htail
  have hlength := congrArg List.length htail
  have hpackedLength := congrArg List.length hpacked
  simp only [length_append] at hlength hpackedLength
  rw [← length_concat]
  have hroom : (concat (rows.take row)).length + batch.data.length ≤ values.length := by omega
  refine ⟨?_, blit_length hroom⟩
  have htake : values.take (concat (rows.take row)).length = concat (rows.take row) := by
    rw [htail]
    exact take_left
  have hdrop : values.drop ((concat (rows.take row)).length + batch.data.length) =
      concat (rows.drop (row + 1)) ++ tail := by
    rw [htail, ← hsame, ← drop_drop, drop_left, drop_left]
  rw [blit_eq hroom, htake, hdrop, hnew, ← append_assoc]
  apply take_left'
  simp only [length_append]
  omega

end Packed

/-! ## Which change of a row counts -/

section Changes

variable {β : Type} {changes : List (RowChange β)} {rows : List β} {row : Nat}

theorem setRows_get (changes : List (RowChange β)) (rows : List β) (row : Nat) :
    (setRows changes rows)[row]? = (rows[row]?).map fun old =>
      ((changes.reverse.find? (·.row = row)).map (·.batches)).getD old := by
  induction changes generalizing rows with
  | nil => simp [setRows]
  | cons change rest ih =>
    change (setRows rest (rows.set change.row change.batches))[row]? = _
    rw [ih, reverse_cons, find?_append, getElem?_set]
    cases hlater : rest.reverse.find? (·.row = row) with
    | some later =>
      split
      · rename_i hsame
        subst hsame
        split
        · rename_i hlt
          simp [getElem?_eq_getElem hlt]
        · rename_i hlt
          simp [getElem?_eq_none (not_lt.mp hlt)]
      · simp
    | none =>
      split
      · rename_i hsame
        subst hsame
        split
        · rename_i hlt
          simp [getElem?_eq_getElem hlt]
        · rename_i hlt
          simp [getElem?_eq_none (not_lt.mp hlt)]
      · rename_i hne
        simp [hne]

theorem find_reverse (h : changes.Pairwise fun a b => a.row < b.row) :
    changes.reverse.find? (·.row = row) = changes.find? (·.row = row) := by
  induction changes with
  | nil => rfl
  | cons change rest ih =>
    obtain ⟨hfirst, hrest⟩ := pairwise_cons.mp h
    rw [reverse_cons, find?_append, ih hrest]
    by_cases hsame : change.row = row
    · have hnone : rest.find? (·.row = row) = none := by
        rw [find?_eq_none]
        intro other hother
        have hlt := hfirst other hother
        simp
        omega
      simp [hnone, hsame]
    · simp [hsame]

theorem firstOfRow_sorted (previous : Int) (h : changes.Pairwise fun a b => (a.row : Int) ≤ b.row)
    (hprevious : ∀ change ∈ changes, previous ≤ change.row) :
    ((firstOfRow previous changes).Pairwise fun a b => a.row < b.row) ∧
      ∀ change ∈ firstOfRow previous changes, previous < change.row ∧ change ∈ changes := by
  induction changes generalizing previous with
  | nil => exact ⟨.nil, by simp [firstOfRow]⟩
  | cons change rest ih =>
    obtain ⟨hfirst, hrest⟩ := pairwise_cons.mp h
    unfold firstOfRow
    split
    · obtain ⟨hsorted, hmem⟩ := ih _ hrest fun other hother =>
        hprevious other (mem_cons_of_mem _ hother)
      exact ⟨hsorted, fun other hother =>
        ⟨(hmem other hother).1, mem_cons_of_mem _ (hmem other hother).2⟩⟩
    rename_i hne
    obtain ⟨hsorted, hmem⟩ := ih _ hrest hfirst
    have hlt : previous < change.row :=
      lt_of_le_of_ne (hprevious change mem_cons_self) (Ne.symm hne)
    refine ⟨pairwise_cons.mpr ⟨fun other hother => ?_, hsorted⟩, fun other hother => ?_⟩
    · have hafter := (hmem other hother).1
      omega
    · rcases mem_cons.mp hother with rfl | hlater
      · exact ⟨hlt, mem_cons_self⟩
      · exact ⟨hlt.trans (hmem other hlater).1, mem_cons_of_mem _ (hmem other hlater).2⟩

theorem firstOfRow_find {previous : Int} (h : previous ≠ row) :
    (firstOfRow previous changes).find? (·.row = row) = changes.find? (·.row = row) := by
  induction changes generalizing previous with
  | nil => rfl
  | cons change rest ih =>
    unfold firstOfRow
    by_cases hrow : change.row = row
    · rw [if_neg fun habs => h (habs.symm.trans (by rw [hrow])), find?_cons, find?_cons]
      simp [hrow]
    rw [find?_cons_of_neg (by simpa using hrow)]
    split
    · exact ih h
    · rw [find?_cons_of_neg (by simpa using hrow)]
      exact ih (by exact_mod_cast hrow)

theorem firsts_sorted (changes : List (RowChange β)) :
    ((firsts changes).Pairwise fun a b => a.row < b.row) ∧
      ∀ change ∈ firsts changes, change ∈ changes := by
  obtain ⟨hsorted, hmem⟩ := firstOfRow_sorted (-1)
    (orderedBy_orderBy (fun change : RowChange β => (change.row : ℤ)) changes)
    fun change _ => by omega
  exact ⟨hsorted, fun change hchange => mem_orderBy.mp (hmem change hchange).2⟩

theorem firsts_find (changes : List (RowChange β)) (row : Nat) :
    (firsts changes).find? (·.row = row) = changes.find? (·.row = row) := by
  have hfilter := filter_orderBy (fun change : RowChange β => (change.row : ℤ)) changes row
  simp only [Nat.cast_inj] at hfilter
  unfold firsts
  rw [firstOfRow_find (by omega), ← head?_filter, hfilter, head?_filter]

end Changes

/-! ## A stable update -/

section Stable

variable {α : Type} {width : Nat} {rows others : List (Batch α width)} {values mirror : List α}
  {changes : List (RowChange (Batch α width))}

theorem layout_congr {offset : Nat} (h : rows.map Batch.count = others.map Batch.count) :
    layout offset rows = layout offset others := by
  induction rows generalizing offset others with
  | nil =>
    cases others with
    | nil => rfl
    | cons other rest => cases h
  | cons batch rest ih =>
    cases others with
    | nil => cases h
    | cons other more =>
      obtain ⟨hcount, hrest⟩ := List.cons.inj h
      simp only [layout, hcount, ih hrest]

def Fits (rows : List (Batch α width)) (changes : List (RowChange (Batch α width))) : Prop :=
  ∀ change ∈ changes, ∃ old, rows[change.row]? = some old ∧ old.count = change.batches.count

theorem count_setRows (h : Fits rows changes) :
    (setRows changes rows).map Batch.count = rows.map Batch.count := by
  apply ext_getElem?
  intro row
  rw [getElem?_map, getElem?_map, setRows_get]
  cases hrow : rows[row]? with
  | none => rfl
  | some old =>
    cases hlast : changes.reverse.find? (·.row = row) with
    | none => rfl
    | some change =>
      obtain ⟨held, hheld, hcount⟩ := h change (mem_reverse.mp (mem_of_find?_eq_some hlast))
      have hsame : change.row = row := by simpa using find?_some hlast
      rw [hsame, hrow] at hheld
      cases hheld
      simp [hcount]

theorem total_setRows (h : Fits rows changes) : total (setRows changes rows) = total rows := by
  unfold total
  rw [count_setRows h]

theorem touched_within (h : Fits rows changes) {entry : RowRange × Batch α width}
    (hentry : entry ∈ touched (layout 0 rows) changes) :
    entry.2.count = entry.1.count ∧ entry.1.offset + entry.1.count ≤ total rows := by
  obtain ⟨change, hchange, hsome⟩ := mem_filterMap.mp hentry
  obtain ⟨old, hold, hcount⟩ := h change hchange
  rw [layout_get, hold] at hsome
  obtain ⟨-, hpair⟩ := ite_none_left_eq_some.mp hsome
  cases hpair
  obtain ⟨hlt, hget⟩ := List.getElem?_eq_some_iff.mp hold
  refine ⟨hcount.symm, ?_⟩
  have hsplit := take_append_drop change.row rows
  rw [drop_eq_getElem_cons hlt, hget] at hsplit
  have htotal : total rows = total (rows.take change.row) + (old.count +
      total (rows.drop (change.row + 1))) := by
    conv_lhs => rw [← hsplit]
    simp [total]
  simp only [Nat.zero_add]
  omega

/-- What is written for the changes is what their rows hold afterwards. -/
theorem writeAll_touched (hvalues : values.take (concat rows).length = concat rows)
    (h : Fits rows changes) :
    (writeAll values (touched (layout 0 rows) changes)).take (concat rows).length =
        concat (setRows changes rows) ∧
      (writeAll values (touched (layout 0 rows) changes)).length = values.length := by
  induction changes generalizing rows values with
  | nil => exact ⟨hvalues, rfl⟩
  | cons change rest ih =>
    obtain ⟨old, hold, hcount⟩ := h change mem_cons_self
    have hone : Fits rows [change] := by
      intro other hother
      rw [mem_singleton.mp hother]
      exact ⟨old, hold, hcount⟩
    have hset : rows.set change.row change.batches = setRows [change] rows := rfl
    have hrest : Fits (rows.set change.row change.batches) rest := by
      intro other hother
      obtain ⟨held, hheld, hother⟩ := h other (mem_cons_of_mem _ hother)
      have hcounts := congrArg (·[other.row]?) (count_setRows hone)
      simp only [← hset, getElem?_map, hheld, map_some] at hcounts
      obtain ⟨now, hnow, hsame⟩ := map_eq_some_iff.mp hcounts
      exact ⟨now, hnow, hsame.trans hother⟩
    have hlayout : layout 0 (rows.set change.row change.batches) = layout 0 rows :=
      layout_congr (count_setRows hone)
    have hlength : (concat (rows.set change.row change.batches)).length = (concat rows).length := by
      rw [length_concat, length_concat, hset, total_setRows hone]
    obtain ⟨hwritten, hkept⟩ := blit_concat hold hcount hvalues
    have hstep := @ih (rows.set change.row change.batches)
    rw [hlayout, hlength] at hstep
    by_cases hzero : old.count * width = 0
    · have hempty : change.batches.data = [] :=
        eq_nil_of_length_eq_zero (by rw [change.batches.fits, ← hcount, hzero])
      have hsame : blit values (total (rows.take change.row) * width) [] = values := by
        simp [blit]
      have htouched : touched (layout 0 rows) (change :: rest) = touched (layout 0 rows) rest := by
        apply filterMap_cons_none
        rw [layout_get, hold]
        exact if_pos hzero
      rw [hempty, hsame] at hwritten
      rw [htouched]
      exact hstep hwritten hrest
    · have htouched : touched (layout 0 rows) (change :: rest) =
          (⟨total (rows.take change.row), old.count⟩, change.batches) ::
            touched (layout 0 rows) rest := by
        apply filterMap_cons_some
        rw [layout_get, hold, Nat.zero_add]
        exact if_neg hzero
      obtain ⟨htake, hall⟩ := hstep hwritten hrest
      rw [htouched]
      exact ⟨htake, hall.trans hkept⟩

end Stable

/-! ## The ranges of a plan -/

section Ranges

variable {α : Type} {width index bound : Nat} {values mirror target : List α}
  {entries : List (RowRange × Batch α width)} {ranges merged : List RowRange} {range : RowRange}

def RowRange.Covers (width : Nat) (range : RowRange) (index : Nat) : Prop :=
  range.offset * width ≤ index ∧ index < (range.offset + range.count) * width

def RowRange.Within (bound : Nat) (range : RowRange) : Prop :=
  range.offset + range.count ≤ bound

theorem writeAll_outside (hentries : ∀ entry ∈ entries, entry.2.count = entry.1.count ∧
      (entry.1.offset + entry.1.count) * width ≤ values.length)
    (h : ∀ entry ∈ entries, ¬ entry.1.Covers width index) :
    (writeAll values entries)[index]? = values[index]? := by
  induction entries generalizing values with
  | nil => rfl
  | cons entry rest ih =>
    obtain ⟨hcount, hroom⟩ := hentries entry mem_cons_self
    have hout := h entry mem_cons_self
    have hend : entry.1.offset * width + entry.2.data.length =
        (entry.1.offset + entry.1.count) * width := by
      rw [entry.2.fits, hcount, Nat.add_mul]
    change (writeAll (blit values (entry.1.offset * width) entry.2.data) rest)[index]? = _
    rw [ih, blit_outside (by rw [hend]; exact hroom)]
    · rw [RowRange.Covers, not_and_or, not_le, not_lt] at hout
      rwa [hend]
    · intro other hother
      rw [blit_length (by rw [hend]; exact hroom)]
      exact hentries other (mem_cons_of_mem _ hother)
    · exact fun other hother => h other (mem_cons_of_mem _ hother)

theorem mergeRange_covers (h : range.Covers width index ∨ ∃ other ∈ merged, other.Covers width index) :
    ∃ other ∈ mergeRange merged range, other.Covers width index := by
  unfold mergeRange
  split
  · rename_i previous rest
    split
    · rename_i hnext
      have hjoined : previous.offset + (previous.count + range.count) =
          range.offset + range.count := by omega
      have hfirst : previous.offset * width ≤ range.offset * width :=
        Nat.mul_le_mul_right width (by omega)
      have hlast : (previous.offset + previous.count) * width ≤
          (range.offset + range.count) * width := Nat.mul_le_mul_right width (by omega)
      rcases h with ⟨hlow, hhigh⟩ | ⟨other, hother, hcovers⟩
      · refine ⟨_, mem_cons_self, hfirst.trans hlow, ?_⟩
        rwa [hjoined]
      rcases mem_cons.mp hother with rfl | hrest
      · refine ⟨_, mem_cons_self, hcovers.1, ?_⟩
        rw [hjoined]
        exact hcovers.2.trans_le hlast
      · exact ⟨other, mem_cons_of_mem _ hrest, hcovers⟩
    · rcases h with hcovers | ⟨other, hother, hcovers⟩
      · exact ⟨range, mem_cons_self, hcovers⟩
      · exact ⟨other, mem_cons_of_mem _ hother, hcovers⟩
  · rcases h with hcovers | ⟨other, hother, hcovers⟩
    · exact ⟨range, mem_cons_self, hcovers⟩
    · cases hother

theorem mergeRange_within (hrange : range.Within bound) (h : ∀ other ∈ merged, other.Within bound) :
    ∀ other ∈ mergeRange merged range, other.Within bound := by
  intro other hother
  unfold mergeRange at hother
  split at hother
  · split at hother
    · rename_i hnext
      rcases mem_cons.mp hother with rfl | hrest
      · unfold RowRange.Within at hrange ⊢
        simp only
        omega
      · exact h other (mem_cons_of_mem _ hrest)
    · rcases mem_cons.mp hother with rfl | hrest
      · exact hrange
      · exact h other hrest
  · rw [mem_singleton.mp hother]
    exact hrange

theorem mergeAll_covers (h : (∃ range ∈ ranges, range.Covers width index) ∨
      ∃ other ∈ merged, other.Covers width index) :
    ∃ other ∈ ranges.foldl mergeRange merged, other.Covers width index := by
  induction ranges generalizing merged with
  | nil =>
    rcases h with ⟨range, hrange, -⟩ | hmerged
    · cases hrange
    · exact hmerged
  | cons first rest ih =>
    apply ih
    rcases h with ⟨range, hrange, hcovers⟩ | hmerged
    · rcases mem_cons.mp hrange with rfl | hrest
      · exact .inr (mergeRange_covers (.inl hcovers))
      · exact .inl ⟨range, hrest, hcovers⟩
    · exact .inr (mergeRange_covers (.inr hmerged))

theorem mergeAll_within (hranges : ∀ range ∈ ranges, range.Within bound)
    (h : ∀ other ∈ merged, other.Within bound) :
    ∀ other ∈ ranges.foldl mergeRange merged, other.Within bound := by
  induction ranges generalizing merged with
  | nil => exact h
  | cons first rest ih =>
    apply ih fun range hrange => hranges range (mem_cons_of_mem _ hrange)
    exact mergeRange_within (hranges first mem_cons_self) h

/-- A buffer that takes parts of `target` agrees with it where it did and there. -/
theorem patch_get (hroom : mirror.length ≤ target.length)
    (hwithin : ∀ range ∈ ranges, (range.offset + range.count) * width ≤ mirror.length) :
    let patched := ScenePrimitivePlan.apply mirror (.ranges (ranges.map fun range =>
      ⟨range.offset * width, (target.drop (range.offset * width)).take (range.count * width)⟩))
    ((mirror[index]? = target[index]? ∨ ∃ range ∈ ranges, range.Covers width index) →
        patched[index]? = target[index]?) ∧ patched.length = mirror.length := by
  induction ranges generalizing mirror with
  | nil =>
    refine ⟨fun h => h.resolve_right ?_, rfl⟩
    rintro ⟨range, hrange, -⟩
    cases hrange
  | cons range rest ih =>
    have hfits := hwithin range mem_cons_self
    have hend : (range.offset + range.count) * width = range.offset * width + range.count * width :=
      Nat.add_mul _ _ _
    rw [hend] at hfits
    have hlength : ((target.drop (range.offset * width)).take (range.count * width)).length =
        range.count * width := by
      rw [length_take, length_drop]
      omega
    have hstart : range.offset * width +
        ((target.drop (range.offset * width)).take (range.count * width)).length ≤ mirror.length := by
      rwa [hlength]
    have hstep := @ih (blit mirror (range.offset * width)
      ((target.drop (range.offset * width)).take (range.count * width)))
    rw [blit_length hstart] at hstep
    obtain ⟨hget, hsize⟩ := hstep hroom fun other hother =>
      hwithin other (mem_cons_of_mem _ hother)
    refine ⟨fun h => hget ?_, hsize⟩
    by_cases hcovers : range.Covers width index
    · left
      obtain ⟨hlow, hhigh⟩ := hcovers
      rw [hend] at hhigh
      obtain ⟨place, rfl⟩ := Nat.exists_eq_add_of_le hlow
      rw [blit_inside hstart (by rw [hlength]; omega), getElem?_take_of_lt (by omega),
        getElem?_drop]
    · rcases h with hsame | ⟨other, hother, hcovered⟩
      · left
        rw [blit_outside hstart, hsame]
        rw [RowRange.Covers, not_and_or, not_le, not_lt] at hcovers
        rwa [hlength, ← hend]
      · rcases mem_cons.mp hother with rfl | hrest
        · exact absurd hcovered hcovers
        · exact .inr ⟨other, hrest, hcovered⟩

end Ranges

/-! ## Every operation keeps the mirror -/

section Mirrors

variable {α : Type} {width : Nat} {rows : List (Batch α width)} {mirror : List α}
  {scene : PrimitiveScene α} {changes : List (RowChange (Batch α width))} {cleared : Bool}

structure Synced (cleared : Bool) (scene : PrimitiveScene α) (mirror : List α)
    (rows : List (Batch α width)) : Prop where
  ranges : scene.ranges = layout 0 rows
  mirrors : Mirrors cleared scene mirror rows

theorem Synced.values (h : Synced cleared scene mirror rows) :
    scene.values.take (concat rows).length = concat rows := by
  have hdata := h.mirrors.2.1
  rwa [PrimitiveScene.data, h.mirrors.1, ← length_concat] at hdata

/-- A stable update leaves what a packing of the new rows would. -/
theorem Synced.stable (h : Synced cleared scene mirror rows) (hfits : Fits rows changes)
    (hsame : ∀ row, (changes.find? (·.row = row)).map (·.batches.data) =
      (changes.reverse.find? (·.row = row)).map (·.batches.data)) :
    (writeAll scene.values (touched scene.ranges (firsts changes))).take (concat rows).length =
        concat (setRows changes rows) ∧
      (writeAll scene.values (touched scene.ranges (firsts changes))).length =
        scene.values.length := by
  obtain ⟨hsorted, hmem⟩ := firsts_sorted changes
  have hwritten := writeAll_touched h.values fun change hchange => hfits change (hmem change hchange)
  rw [← h.ranges] at hwritten
  refine ⟨hwritten.1.trans (concat_eq_of_data (ext_getElem? fun row => ?_)), hwritten.2⟩
  have hdata := hsame row
  rw [getElem?_map, getElem?_map, setRows_get, setRows_get, find_reverse hsorted, firsts_find]
  cases rows[row]? with
  | none => rfl
  | some old =>
    cases hfirst : changes.find? (·.row = row) <;>
      cases hlast : changes.reverse.find? (·.row = row) <;> rw [hfirst, hlast] at hdata <;> simp_all

variable [Zero α]

theorem synced_replaceAll (scene : PrimitiveScene α) (mirror : List α)
    (rows : List (Batch α width)) :
    Synced false (scene.replaceAll rows).2 ((scene.replaceAll rows).1.apply mirror) rows := by
  have hroom : total rows * width ≤ (if total rows * width > scene.values.length then
      List.replicate (grown (total rows * width) (max (64 * width) scene.values.length)
        (total rows * width)) (0 : α) else scene.values).length := by
    split
    · rw [length_replicate]
      apply le_grown _ (Nat.le_add_left _ _)
      rcases Nat.eq_zero_or_pos width with hzero | hpos
      · exact .inr (Nat.mul_eq_zero.mpr (.inr hzero))
      · exact .inl (lt_max_of_lt_left (Nat.mul_pos (by decide) hpos))
    · omega
  have hfill := fill_layout 0 (by rwa [Nat.zero_add])
  rw [Nat.zero_add, Nat.zero_mul, take_zero, nil_append] at hfill
  exact ⟨rfl, rfl, hfill, hfill⟩

theorem Synced.trimCapacity (h : Synced cleared scene mirror rows) :
    Synced cleared (scene.trimCapacity width).2 mirror rows := by
  unfold PrimitiveScene.trimCapacity
  split
  · exact h
  refine ⟨h.ranges, h.mirrors.1, ?_, h.mirrors.2.2⟩
  have hlength : (scene.data width).length ≤ scene.targetLength width := by
    have hdouble : (scene.data width).length ≤ scene.countValue * 2 * width :=
      (length_take_le _ _).trans (Nat.mul_le_mul_right width (by omega))
    apply hdouble.trans (le_grown _ (Nat.le_add_left _ _))
    rcases Nat.eq_zero_or_pos width with hzero | hpos
    · exact .inr (Nat.mul_eq_zero.mpr (.inr hzero))
    · exact .inl (Nat.mul_pos (by decide) hpos)
  have hblit := @take_blit α (List.replicate (scene.targetLength width) 0) (scene.data width)
    (by rwa [length_replicate])
  rw [h.mirrors.2.1] at hblit ⊢
  rwa [length_concat, ← h.mirrors.1] at hblit

theorem Synced.updateRows (h : Synced cleared scene mirror rows)
    (hin : ∀ change ∈ changes, change.row < rows.length) (hagrees : Agrees scene changes) :
    Synced cleared (scene.updateRows changes (setRows changes rows)).2
      ((scene.updateRows changes (setRows changes rows)).1.apply mirror) (setRows changes rows) := by
  unfold PrimitiveScene.updateRows
  split
  · rename_i hempty
    rw [List.isEmpty_iff.mp hempty]
    exact h
  rename_i hsome
  have hfull : cleared = false := by
    cases cleared with
    | false => rfl
    | true =>
      have hrows : rows = [] := h.mirrors.2.2
      obtain ⟨change, hchange⟩ := exists_mem_of_ne_nil changes (by simpa using hsome)
      have hlt := hin change hchange
      rw [hrows] at hlt
      cases hlt
  split
  · rw [hfull]
    exact synced_replaceAll scene mirror _
  rename_i hstable
  simp only [Bool.not_eq_true, Bool.not_eq_false'] at hstable
  have hsame := hagrees.resolve_left (by rw [hstable]; decide)
  have hfits : Fits rows changes := by
    intro change hchange
    have hcount := List.all_eq_true.mp hstable change hchange
    rw [h.ranges, layout_get, beq_iff_eq] at hcount
    cases hold : rows[change.row]? with
    | none =>
      rw [hold] at hcount
      cases hcount
    | some old =>
      rw [hold] at hcount
      exact ⟨old, rfl, Option.some.inj hcount⟩
  have hfirst : Fits rows (firsts changes) := fun change hchange =>
    hfits change ((firsts_sorted changes).2 change hchange)
  obtain ⟨hpacked, hlength⟩ := h.stable hfits hsame
  have htotal := total_setRows hfits
  have hconcat : (concat (setRows changes rows)).length = (concat rows).length := by
    rw [length_concat, length_concat, htotal]
  have hroom : (concat rows).length ≤ scene.values.length := by
    rw [← h.values]
    exact length_take_le' _ _
  have hmirror : mirror = concat rows := by
    have hmirrors := h.mirrors.2.2
    rwa [hfull, if_neg (by decide)] at hmirrors
  simp only
  set entries := touched scene.ranges (firsts changes) with hentries
  have hwithin : ∀ entry ∈ entries, entry.2.count = entry.1.count ∧ entry.1.Within (total rows) := by
    intro entry hentry
    rw [hentries, h.ranges] at hentry
    exact touched_within hfirst hentry
  refine ⟨h.ranges.trans (layout_congr (count_setRows hfits)).symm,
    h.mirrors.1.trans htotal.symm, ?_, ?_⟩
  · rw [PrimitiveScene.data, h.mirrors.1, ← length_concat]
    exact hpacked
  rw [hfull, if_neg (by decide), ← hpacked]
  split
  · rename_i hnone
    rw [List.isEmpty_iff.mp hnone]
    exact hmirror.trans h.values.symm
  apply ext_getElem?
  intro index
  have hbounded : ∀ range ∈ ((entries.map Prod.fst).foldl mergeRange []).reverse,
      (range.offset + range.count) * width ≤ mirror.length := by
    intro range hrange
    rw [hmirror, length_concat]
    apply Nat.mul_le_mul_right width
    refine mergeAll_within ?_ (fun other hother => absurd hother not_mem_nil) range (mem_reverse.mp hrange)
    intro other hother
    obtain ⟨entry, hentry, rfl⟩ := List.mem_map.mp hother
    exact (hwithin entry hentry).2
  by_cases hindex : index < (concat rows).length
  · rw [getElem?_take_of_lt hindex]
    refine (patch_get ?_ hbounded).1 ?_
    · rw [hmirror, hlength]
      exact hroom
    · by_cases hcovered : ∃ entry ∈ entries, entry.1.Covers width index
      · right
        obtain ⟨entry, hentry, hcovers⟩ := hcovered
        obtain ⟨range, hrange, hcovers⟩ := mergeAll_covers (.inl
          ⟨entry.1, List.mem_map_of_mem hentry, hcovers⟩)
        exact ⟨range, mem_reverse.mpr hrange, hcovers⟩
      · left
        push Not at hcovered
        have hheld := congrArg (·[index]?) h.values
        simp only [getElem?_take_of_lt hindex] at hheld
        rw [writeAll_outside (fun entry hentry => ⟨(hwithin entry hentry).1, ?_⟩) hcovered, hmirror,
          hheld]
        have hle := Nat.mul_le_mul_right width (hwithin entry hentry).2
        rw [← length_concat] at hle
        exact hle.trans hroom
  · have hpatched := (@patch_get _ _ index _ _ _ (by rw [hmirror, hlength]; exact hroom) hbounded).2
    rw [getElem?_eq_none (by rw [hpatched, hmirror]; exact not_lt.mp hindex),
      getElem?_eq_none ((length_take_le _ _).trans (not_lt.mp hindex))]

/-- A change of whole rows, for the primitive that `select` takes from them. -/
theorem synced_updateRows {β : Type} {select : β → Batch α width} {held : List β}
    {edits : List (RowChange β)} (h : Synced cleared scene mirror (held.map select))
    (hin : ∀ change ∈ edits, change.row < held.length)
    (hagrees : Agrees scene (edits.map (·.select select))) : Synced cleared
      (scene.updateRows (edits.map (·.select select)) ((setRows edits held).map select)).2
      ((scene.updateRows (edits.map (·.select select)) ((setRows edits held).map select)).1.apply
        mirror) ((setRows edits held).map select) := by
  have hmap : (setRows edits held).map select =
      setRows (edits.map (·.select select)) (held.map select) := by
    unfold setRows
    rw [foldl_map, ← foldl_hom (List.map select)]
    intro rows change
    exact map_set.symm
  rw [hmap]
  apply h.updateRows _ hagrees
  intro change hchange
  obtain ⟨edit, hedit, rfl⟩ := List.mem_map.mp hchange
  rw [length_map]
  exact hin edit hedit

def World.Synced (world : World α) : Prop :=
  RetainedScene.Synced world.cleared world.scene.backgroundScene world.backgrounds
      (world.scene.rows.map (·.backgrounds)) ∧
    RetainedScene.Synced world.cleared world.scene.decorationScene world.decorations
        (world.scene.rows.map (·.decorations)) ∧
      RetainedScene.Synced world.cleared world.scene.glyphScene world.glyphs
        (world.scene.rows.map (·.glyphs))

variable {world next : World α}

theorem World.Synced.step {action : Action α} (h : world.Synced) (hagreed : world.Agreed action)
    (hstep : world.step action = some next) : next.Synced := by
  obtain ⟨hbackgrounds, hdecorations, hglyphs⟩ := h
  cases action with
  | replaceAll rows =>
    cases hstep
    exact ⟨synced_replaceAll _ world.backgrounds _, synced_replaceAll _ world.decorations _,
      synced_replaceAll _ world.glyphs _⟩
  | updateRows changes =>
    obtain ⟨result, hresult, rfl⟩ := map_eq_some_iff.mp hstep
    unfold WebGlRetainedScene.updateRows at hresult
    split at hresult
    · cases hresult
      exact ⟨hbackgrounds, hdecorations, hglyphs⟩
    obtain ⟨hin, hplans⟩ := ite_none_right_eq_some.mp hresult
    have hrows : ∀ change ∈ changes, change.row < world.scene.rows.length := fun change hchange =>
      of_decide_eq_true (List.all_eq_true.mp hin change hchange)
    cases hplans
    exact ⟨synced_updateRows hbackgrounds hrows hagreed.1,
      synced_updateRows hdecorations hrows hagreed.2.1,
      synced_updateRows hglyphs hrows hagreed.2.2⟩
  | trimCapacity =>
    cases hstep
    exact ⟨hbackgrounds.trimCapacity, hdecorations.trimCapacity, hglyphs.trimCapacity⟩
  | clear =>
    cases hstep
    exact ⟨⟨rfl, rfl, rfl, rfl⟩, ⟨rfl, rfl, rfl, rfl⟩, ⟨rfl, rfl, rfl, rfl⟩⟩

theorem Reaches.synced (h : Reaches ({} : World α) world) : world.Synced := by
  induction h with
  | refl => exact ⟨⟨rfl, rfl, rfl, rfl⟩, ⟨rfl, rfl, rfl, rfl⟩, ⟨rfl, rfl, rfl, rfl⟩⟩
  | step _ hagreed hstep ih => exact ih.step hagreed hstep

/-- The buffers hold the batches of all rows in a run whose changes agree. -/
theorem mirrored_agreed (h : Reaches ({} : World α) world) : world.Mirrored :=
  ⟨h.synced.1.mirrors, h.synced.2.1.mirrors, h.synced.2.2.mirrors⟩

end Mirrors

section Samples

def filled (number : Int) : RetainedRowBatches Int :=
  ⟨⟨1, List.replicate 8 number, rfl⟩, ⟨0, [], rfl⟩, ⟨0, [], rfl⟩⟩

set_option maxRecDepth 8000 in
theorem mirrored_second : ∃ world, Reaches ({} : World Int) world ∧
    world.backgrounds = List.replicate 8 1 ++ List.replicate 8 3 ∧ world.Mirrored := by
  have hplaced : Reaches ({} : World Int) _ :=
    .step .refl (show World.Agreed _ (.replaceAll [filled 1, filled 2]) from trivial) rfl
  have hrun := hplaced.step (show World.Agreed _ (.updateRows [⟨1, filled 3⟩]) from
    ⟨.inr fun _ => rfl, .inr fun _ => rfl, .inr fun _ => rfl⟩) rfl
  exact ⟨_, hrun, by decide, mirrored_agreed hrun⟩

set_option maxRecDepth 8000 in
/-- Of two changes of one row the scene keeps the last and the buffer the first. -/
theorem repeated_row : ¬∀ (actions : List (Action Int)) (world : World Int),
    actions.foldlM World.step {} = some world → world.Mirrored := by
  intro hclaim
  have hmirrored := hclaim
    [.replaceAll [filled 1], .updateRows [⟨0, filled 2⟩, ⟨0, filled 3⟩]] _ rfl
  exact absurd hmirrored.1.2.1 (by decide)

end Samples

end Yaade.Render.RetainedScene

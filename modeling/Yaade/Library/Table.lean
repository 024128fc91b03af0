import Mathlib.Data.List.Sort
import Mathlib.Data.List.Destutter
import Mathlib.Data.List.MinMax
import Mathlib.Tactic

/-!
Tables of rows with a key, kept as lists.
-/

namespace Yaade.Library

open List Option

variable {α κ : Type} [DecidableEq κ]

def row? (key : α → κ) (id : κ) : List α → Option α
  | [] => none
  | a :: rest => if key a = id then some a else row? key id rest

def updateRow (key : α → κ) (id : κ) (f : α → α) : List α → List α
  | [] => []
  | a :: rest => if key a = id then f a :: rest else a :: updateRow key id f rest

section Lookup

variable (key : α → κ)

@[simp] theorem row?_nil (id : κ) : row? key id ([] : List α) = none := rfl

theorem row?_mem {id : κ} {rows : List α} {a : α} (h : row? key id rows = some a) :
    a ∈ rows ∧ key a = id := by
  induction rows with
  | nil => simp at h
  | cons b rest ih =>
    unfold row? at h
    split at h
    · cases h
      exact ⟨mem_cons_self, ‹_›⟩
    · exact ⟨mem_cons_of_mem _ (ih h).1, (ih h).2⟩

theorem row?_eq_none {id : κ} {rows : List α} :
    row? key id rows = none ↔ ∀ a ∈ rows, key a ≠ id := by
  induction rows with
  | nil => simp
  | cons b rest ih =>
    unfold row?
    split
    · simp_all
    · simp_all

theorem row?_of_mem {rows : List α} (hkeys : (rows.map key).Nodup) {a : α}
    (ha : a ∈ rows) : row? key (key a) rows = some a := by
  induction rows with
  | nil => simp at ha
  | cons b rest ih =>
    rw [map_cons, nodup_cons] at hkeys
    unfold row?
    rcases mem_cons.mp ha with rfl | hrest
    · simp
    have hne : key b ≠ key a := by
      intro heq
      exact hkeys.1 (heq ▸ mem_map_of_mem hrest)
    simp [hne, ih hkeys.2 hrest]

theorem row?_append (id : κ) (first second : List α) :
    row? key id (first ++ second) = (row? key id first).or (row? key id second) := by
  induction first with
  | nil => simp
  | cons b rest ih =>
    simp only [cons_append, row?]
    split
    · simp
    · exact ih

@[simp] theorem row?_push (id : κ) (rows : List α) (a : α) : row? key id (rows ++ [a]) =
      (row? key id rows).or (if key a = id then some a else none) := by
  rw [row?_append]
  simp [row?]

theorem row?_map (f : α → α) (hf : ∀ a, key (f a) = key a) (id : κ) (rows : List α) :
    row? key id (rows.map f) = (row? key id rows).map f := by
  induction rows with
  | nil => rfl
  | cons b rest ih =>
    simp only [map_cons, row?, hf, ih]
    split <;> rfl

@[simp] theorem row?_updateRow {f : α → α} {id : κ} (hf : ∀ a, key a = id → key (f a) = id)
    (other : κ) (rows : List α) : row? key other (updateRow key id f rows) =
      if other = id then (row? key other rows).map f else row? key other rows := by
  induction rows with
  | nil => simp [updateRow]
  | cons b rest ih =>
    unfold updateRow
    split
    · rename_i hb
      simp only [row?, hf b hb, hb]
      by_cases hid : id = other
      · simp [hid]
      · simp [hid, Ne.symm hid]
    · rename_i hb
      simp only [row?, ih]
      by_cases hother : key b = other
      · have hne : other ≠ id := fun heq => hb (hother.trans heq)
        simp [hother, hne]
      · simp [hother]

end Lookup

section Update

variable (key : α → κ)

theorem map_key_updateRow {f : α → α} {id : κ} (hf : ∀ a, key a = id → key (f a) = id)
    (rows : List α) : (updateRow key id f rows).map key = rows.map key := by
  induction rows with
  | nil => rfl
  | cons b rest ih =>
    unfold updateRow
    split
    · rename_i hb
      simp [hf b hb, hb]
    · simp [ih]

theorem updateRow_eq_map (f : α → α) (id : κ) (rows : List α) (hkeys : (rows.map key).Nodup) :
    updateRow key id f rows = rows.map (fun a => if key a = id then f a else a) := by
  induction rows with
  | nil => rfl
  | cons b rest ih =>
    rw [map_cons, nodup_cons] at hkeys
    unfold updateRow
    split
    · rename_i hb
      have hrest : rest.map (fun a => if key a = id then f a else a) = rest := by
        conv_rhs => rw [← List.map_id rest]
        apply List.map_congr_left
        intro a ha
        have hne : key a ≠ id := by
          intro heq
          exact hkeys.1 (hb.trans heq.symm ▸ mem_map_of_mem ha)
        simp [hne]
      simp [hb, hrest]
    · rename_i hb
      simp [hb, ih hkeys.2]

theorem sum_updateRow (measure : α → Nat) {f : α → α} {id : κ} {rows : List α} {a : α}
    (h : row? key id rows = some a) : ((updateRow key id f rows).map measure).sum + measure a =
      (rows.map measure).sum + measure (f a) := by
  induction rows with
  | nil => simp at h
  | cons b rest ih =>
    unfold row? at h
    unfold updateRow
    split at h
    · rename_i hb
      cases h
      simp only [hb, if_true, map_cons, sum_cons]
      omega
    · rename_i hb
      have hrest := ih h
      simp only [hb, if_false, map_cons, sum_cons]
      omega

theorem nodup_push {rows : List α} (hkeys : (rows.map key).Nodup) {a : α}
    (hfresh : row? key (key a) rows = none) : ((rows ++ [a]).map key).Nodup := by
  rw [map_append, nodup_append]
  refine ⟨hkeys, by simp, ?_⟩
  intro k hk k' hk'
  obtain ⟨b, hb, rfl⟩ := List.mem_map.mp hk
  simp only [map_cons, List.map_nil, mem_singleton] at hk'
  subst hk'
  exact (row?_eq_none key).mp hfresh b hb

end Update

section Order

def sortBy (field : α → Nat) (rows : List α) : List α :=
  rows.insertionSort (fun a b => field a ≤ field b)

@[simp] theorem mem_sortBy {field : α → Nat} {rows : List α} {a : α} :
    a ∈ sortBy field rows ↔ a ∈ rows :=
  mem_insertionSort _

theorem sortBy_perm (field : α → Nat) (rows : List α) : (sortBy field rows).Perm rows :=
  perm_insertionSort _ _

end Order

/-- `actual` names each member of `expected` exactly once: equal lengths, and
equal sorted lists once repetitions in `actual` are dropped. -/
def isPermutation (actual expected : List String) : Bool :=
  actual.length == expected.length &&
    (actual.insertionSort (· ≤ ·)).destutter (· ≠ ·) == expected.insertionSort (· ≤ ·)

theorem isPermutation_perm {actual expected : List String}
    (h : isPermutation actual expected = true) : actual.Perm expected := by
  simp only [isPermutation, Bool.and_eq_true, beq_iff_eq] at h
  obtain ⟨hlength, hsorted⟩ := h
  have hsub : ((actual.insertionSort (· ≤ ·)).destutter (· ≠ ·)).Sublist
      (actual.insertionSort (· ≤ ·)) := destutter_sublist _ _
  have heq : (actual.insertionSort (· ≤ ·)).destutter (· ≠ ·) =
      actual.insertionSort (· ≤ ·) := by
    apply hsub.eq_of_length
    rw [hsorted, length_insertionSort, length_insertionSort, hlength]
  calc actual.Perm (actual.insertionSort (· ≤ ·)) := (perm_insertionSort _ _).symm
    _ = expected.insertionSort (· ≤ ·) := by rw [← heq, hsorted]
    List.Perm _ expected := perm_insertionSort _ _

end Yaade.Library

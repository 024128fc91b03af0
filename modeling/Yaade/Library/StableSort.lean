import Mathlib.Data.List.Sort
import Mathlib.Tactic

/-!
Sorting by a number, where items with one number keep their order.
-/

namespace Yaade.Library

open List Option

variable {α : Type}

def orderBy (f : α → ℤ) (items : List α) : List α := items.insertionSort fun a b => f a ≤ f b

def OrderedBy (f : α → ℤ) (items : List α) : Prop := items.Pairwise fun a b => f a ≤ f b

section Sorting

variable {f g : α → ℤ} {items others : List α}

theorem orderBy_perm (f : α → ℤ) (items : List α) : (orderBy f items).Perm items :=
  perm_insertionSort _ items

@[simp] theorem mem_orderBy {item : α} : item ∈ orderBy f items ↔ item ∈ items :=
  (orderBy_perm f items).mem_iff

theorem orderedBy_orderBy (f : α → ℤ) (items : List α) : OrderedBy f (orderBy f items) :=
  haveI : Std.Total fun a b : α => f a ≤ f b := ⟨fun a b => le_total (f a) (f b)⟩
  haveI : IsTrans α fun a b => f a ≤ f b := ⟨fun _ _ _ => le_trans⟩
  pairwise_insertionSort _ items

theorem filter_orderedInsert (item : α) (items : List α) (number : ℤ) :
    (items.orderedInsert (fun a b => f a ≤ f b) item).filter (fun other => f other = number) =
      (item :: items).filter fun other => f other = number := by
  induction items with
  | nil => rfl
  | cons first rest ih =>
    rw [orderedInsert_cons]
    split
    · rfl
    rename_i hle
    rw [filter_cons, ih]
    by_cases hfirst : f first = number
    · have hitem : f item ≠ number := fun hitem => hle (le_of_eq (hitem.trans hfirst.symm))
      simp [hfirst, hitem]
    · simp [filter_cons, hfirst]

theorem filter_orderBy (f : α → ℤ) (items : List α) (number : ℤ) :
    (orderBy f items).filter (fun item => f item = number) =
      items.filter fun item => f item = number := by
  induction items with
  | nil => rfl
  | cons first rest ih =>
    unfold orderBy at ih ⊢
    rw [insertionSort_cons, filter_orderedInsert, filter_cons, ih, filter_cons]

/-- Sorted lists with the same items of each number are the same. -/
theorem OrderedBy.eq (hitems : OrderedBy f items) (hothers : OrderedBy f others)
    (h : ∀ number, items.filter (fun item => f item = number) =
      others.filter fun item => f item = number) : items = others := by
  induction items generalizing others with
  | nil =>
    cases others with
    | nil => rfl
    | cons other rest =>
      have hother := h (f other)
      rw [filter_cons_of_pos (by simp)] at hother
      cases hother
  | cons first rest ih =>
    cases others with
    | nil =>
      have hfirst := h (f first)
      rw [filter_cons_of_pos (by simp)] at hfirst
      cases hfirst
    | cons other more =>
      obtain ⟨hle, hrest⟩ := pairwise_cons.mp hitems
      obtain ⟨hle', hmore⟩ := pairwise_cons.mp hothers
      have hmem : first ∈ other :: more := by
        have : first ∈ (other :: more).filter fun item => f item = f first := by
          rw [← h (f first)]
          simp
        exact (mem_filter.mp this).1
      have hmem' : other ∈ first :: rest := by
        have : other ∈ (first :: rest).filter fun item => f item = f other := by
          rw [h (f other)]
          simp
        exact (mem_filter.mp this).1
      have hnumber : f first = f other := by
        apply le_antisymm
        · rcases mem_cons.mp hmem' with hsame | hlater
          · rw [hsame]
          · exact hle other hlater
        · rcases mem_cons.mp hmem with hsame | hlater
          · rw [hsame]
          · exact hle' first hlater
      have hhead := h (f first)
      rw [filter_cons_of_pos (by simp),
        filter_cons_of_pos (by simp [hnumber])] at hhead
      obtain ⟨rfl, htail⟩ := List.cons.inj hhead
      congr 1
      apply ih hrest hmore
      intro number
      by_cases hfirst : f first = number
      · rw [← hfirst]
        exact htail
      have hnumber := h number
      rwa [filter_cons_of_neg (by simpa using hfirst),
        filter_cons_of_neg (by simpa using hfirst)] at hnumber

theorem orderBy_eq_iff : orderBy f items = orderBy f others ↔
    ∀ number, items.filter (fun item => f item = number) =
      others.filter fun item => f item = number := by
  constructor
  · intro h number
    rw [← filter_orderBy f items, h, filter_orderBy]
  · intro h
    apply (orderedBy_orderBy f items).eq (orderedBy_orderBy f others)
    intro number
    rw [filter_orderBy, filter_orderBy, h number]

theorem orderBy_of_sorted (h : OrderedBy f items) : orderBy f items = items :=
  (orderedBy_orderBy f items).eq h (filter_orderBy f items)

theorem orderBy_filter (p : α → Bool) : orderBy f (items.filter p) = (orderBy f items).filter p := by
  apply (orderedBy_orderBy f _).eq ((orderedBy_orderBy f items).sublist filter_sublist)
  intro number
  rw [filter_orderBy, List.filter_filter, List.filter_filter]
  simp only [Bool.and_comm]
  rw [← List.filter_filter, ← List.filter_filter, filter_orderBy]

theorem orderBy_append : orderBy f (orderBy f items ++ others) = orderBy f (items ++ others) := by
  rw [orderBy_eq_iff]
  intro number
  rw [filter_append, filter_append, filter_orderBy]

theorem orderBy_congr (h : ∀ item ∈ items, f item = g item) : orderBy f items = orderBy g items := by
  have hsorted : OrderedBy g (orderBy f items) := by
    apply (orderedBy_orderBy f items).imp_of_mem
    intro a b ha hb hle
    rwa [← h a (mem_orderBy.mp ha), ← h b (mem_orderBy.mp hb)]
  apply hsorted.eq (orderedBy_orderBy g items)
  intro number
  rw [filter_orderBy g, ← filter_congr (q := fun item => decide (g item = number))
    (p := fun item => decide (f item = number)) fun item hitem => by
      rw [h item (mem_orderBy.mp hitem)], filter_orderBy]
  exact filter_congr fun item hitem => by rw [h item hitem]

/-- Dropping the items of the least number first leaves a sorted list of greater ones. -/
theorem orderedBy_dropWhile {k : ℤ} : (OrderedBy f items ∧ ∀ item ∈ items, k ≤ f item) ↔
      OrderedBy f (items.dropWhile (f · = k)) ∧
        ∀ item ∈ items.dropWhile (f · = k), k + 1 ≤ f item := by
  induction items with
  | nil => simp [OrderedBy]
  | cons first rest ih =>
    by_cases hfirst : f first = k
    · rw [dropWhile_cons_of_pos (by simpa using hfirst), ← ih]
      simp only [OrderedBy, pairwise_cons, forall_mem_cons, hfirst, le_refl, true_and]
      exact ⟨fun h => ⟨h.1.2, h.2⟩, fun h => ⟨⟨h.2, h.1⟩, h.2⟩⟩
    rw [dropWhile_cons_of_neg (by simpa using hfirst)]
    refine and_congr_right fun h => ⟨fun hle item hitem => ?_, fun hlt item hitem => ?_⟩
    · have hless : k < f first := lt_of_le_of_ne (hle first mem_cons_self) (Ne.symm hfirst)
      rcases mem_cons.mp hitem with rfl | hitem
      · exact hless
      · exact hless.trans_le ((pairwise_cons.mp h).1 item hitem)
    · exact (Int.le_add_one le_rfl).trans (hlt item hitem)

theorem orderBy_insert {item : α} (hitem : item ∉ others) :
    orderBy f (items ++ others ++ [item]) = orderBy f (items ++ [item] ++ others) ↔
      ∀ other ∈ others, f other ≠ f item := by
  rw [orderBy_eq_iff]
  constructor
  · intro h other hother hnumber
    have hclass := h (f item)
    simp only [filter_append, append_assoc, append_cancel_left_eq] at hclass
    have hmem : other ∈ others.filter fun other => f other = f item :=
      mem_filter.mpr ⟨hother, decide_eq_true hnumber⟩
    cases hfilter : others.filter fun other => f other = f item with
    | nil =>
      rw [hfilter] at hmem
      cases hmem
    | cons first rest =>
      rw [hfilter, filter_cons_of_pos (by simp)] at hclass
      obtain ⟨rfl, -⟩ := List.cons.inj hclass
      have hfirst : first ∈ others.filter fun other => f other = f first := by
        rw [hfilter]
        exact mem_cons_self
      exact hitem (mem_filter.mp hfirst).1
  · intro h number
    simp only [filter_append, append_assoc, append_cancel_left_eq]
    by_cases hnumber : f item = number
    · have hnone : others.filter (fun other => f other = number) = [] := by
        rw [filter_eq_nil_iff]
        intro other hother
        rw [decide_eq_true_eq, ← hnumber]
        exact h other hother
      rw [hnone, nil_append, append_nil]
    · rw [filter_cons_of_neg (by simpa using hnumber)]
      simp

end Sorting

end Yaade.Library

import Yaade.Library.Table

/-!
Tables whose rows carry a version.
-/

namespace Yaade.Library

open Option

variable {α κ ν : Type} [DecidableEq κ] [Preorder ν]

def Revised (version : α → ν) (old new : α) : Prop :=
  old = new ∨ version old < version new

section Rows

variable {version : α → ν} {a b c : α}

theorem Revised.refl (version : α → ν) (a : α) : Revised version a a := .inl rfl

theorem Revised.trans (h : Revised version a b) (h' : Revised version b c) :
    Revised version a c := by
  rcases h with rfl | hlt
  · exact h'
  rcases h' with rfl | hlt'
  · exact .inr hlt
  · exact .inr (hlt.trans hlt')

theorem Revised.le (h : Revised version a b) : version a ≤ version b := by
  rcases h with rfl | hlt
  · exact le_refl _
  · exact hlt.le

theorem Revised.eq_of_version (h : Revised version a b) (heq : version a = version b) : a = b := by
  rcases h with rfl | hlt
  · rfl
  · exact absurd (heq ▸ hlt) (lt_irrefl _)

end Rows

def Advances (key : α → κ) (version : α → ν) (before after : List α) : Prop :=
  ∀ id a, row? key id before = some a →
    ∃ b, row? key id after = some b ∧ Revised version a b

namespace Advances

variable {key : α → κ} {version : α → ν} {before middle after rows : List α}

theorem refl (key : α → κ) (version : α → ν) (rows : List α) : Advances key version rows rows :=
  fun _ a h => ⟨a, h, Revised.refl version a⟩

theorem trans (h : Advances key version before middle)
    (h' : Advances key version middle after) : Advances key version before after := by
  intro id a ha
  obtain ⟨b, hb, hab⟩ := h id a ha
  obtain ⟨c, hc, hbc⟩ := h' id b hb
  exact ⟨c, hc, hab.trans hbc⟩

theorem put {id : κ} {a b : α} (hfound : row? key id rows = some a) (hkey : key b = key a)
    (hrow : Revised version a b) :
    Advances key version rows (updateRow key (key b) (fun _ => b) rows) := by
  rw [← (row?_mem key hfound).2, ← hkey] at hfound
  intro id c hc
  rw [row?_updateRow key (fun _ _ => rfl)]
  split
  · rename_i hid
    subst hid
    rw [hfound] at hc ⊢
    cases hc
    exact ⟨b, rfl, hrow⟩
  · exact ⟨c, hc, Revised.refl version c⟩

theorem append (key : α → κ) (version : α → ν) (rows added : List α) :
    Advances key version rows (rows ++ added) := by
  intro id a ha
  exact ⟨a, by rw [row?_append, ha, some_or], Revised.refl version a⟩

theorem map {f : α → α} (hkey : ∀ a, key (f a) = key a)
    (hrow : ∀ a ∈ rows, Revised version a (f a)) : Advances key version rows (rows.map f) := by
  intro id a ha
  refine ⟨f a, ?_, hrow a (row?_mem key ha).1⟩
  rw [row?_map key f hkey, ha, map_some]

theorem of_mem (h : Advances key version before after) (hbef : (before.map key).Nodup)
    (hafter : (after.map key).Nodup) {a b : α} (ha : a ∈ before) (hb : b ∈ after)
    (hkey : key a = key b) : Revised version a b := by
  obtain ⟨c, hc, hac⟩ := h (key a) a (row?_of_mem key hbef ha)
  rw [hkey, row?_of_mem key hafter hb] at hc
  cases hc
  exact hac

end Advances

end Yaade.Library

import Mathlib.Tactic

/-!
A value that is written under revisions: a write of a revision that is known
already is dropped.
-/

namespace Yaade.Library

open List Option

structure Register (β : Type) where
  known : Nat
  value : β

namespace Register

variable {β : Type}

def write (register : Register β) (entry : Nat × β) : Register β :=
  if entry.1 ≤ register.known then register else ⟨entry.1, entry.2⟩

def writes (register : Register β) (entries : List (Nat × β)) : Register β :=
  entries.foldl write register

variable {register : Register β} {entries others : List (Nat × β)}

theorem known_le_write (register : Register β) (entry : Nat × β) :
    register.known ≤ (register.write entry).known := by
  unfold write
  split
  · exact le_rfl
  · rename_i hle
    exact Nat.le_of_lt (Nat.lt_of_not_le hle)

theorem known_le_writes (register : Register β) (entries : List (Nat × β)) :
    register.known ≤ (register.writes entries).known := by
  induction entries generalizing register with
  | nil => exact le_rfl
  | cons first rest ih => exact Nat.le_trans (known_le_write register first) (ih _)

theorem writes_spec (register : Register β) (entries : List (Nat × β)) :
    register.writes entries = register ∧ (∀ entry ∈ entries, entry.1 ≤ register.known) ∨
      ∃ entry ∈ entries, register.known < entry.1 ∧
        register.writes entries = ⟨entry.1, entry.2⟩ ∧ ∀ other ∈ entries, other.1 ≤ entry.1 := by
  induction entries generalizing register with
  | nil => exact .inl ⟨rfl, forall_mem_nil _⟩
  | cons first rest ih =>
    show (register.write first).writes rest = register ∧ _ ∨
      ∃ entry ∈ first :: rest, _ ∧ (register.write first).writes rest = _ ∧ _
    by_cases hfirst : first.1 ≤ register.known
    · have hwrite : register.write first = register := if_pos hfirst
      rw [hwrite]
      rcases ih register with ⟨hsame, hall⟩ | ⟨entry, hmem, hnew, hlast, hall⟩
      · exact .inl ⟨hsame, forall_mem_cons.mpr ⟨hfirst, hall⟩⟩
      · refine .inr ⟨entry, mem_cons_of_mem first hmem, hnew, hlast, ?_⟩
        exact forall_mem_cons.mpr ⟨Nat.le_trans hfirst (Nat.le_of_lt hnew), hall⟩
    · have hwrite : register.write first = ⟨first.1, first.2⟩ := if_neg hfirst
      rw [hwrite]
      right
      rcases ih ⟨first.1, first.2⟩ with ⟨hsame, hall⟩ | ⟨entry, hmem, hnew, hlast, hall⟩
      · refine ⟨first, mem_cons_self, Nat.lt_of_not_le hfirst, hsame, ?_⟩
        exact forall_mem_cons.mpr ⟨le_rfl, hall⟩
      refine ⟨entry, mem_cons_of_mem first hmem, ?_, hlast, ?_⟩
      · exact Nat.lt_trans (Nat.lt_of_not_le hfirst) hnew
      · exact forall_mem_cons.mpr ⟨Nat.le_of_lt hnew, hall⟩

theorem le_writes {entry : Nat × β} (h : entry ∈ entries) :
    entry.1 ≤ (register.writes entries).known := by
  rcases writes_spec register entries with ⟨hsame, hall⟩ | ⟨last, -, -, hlast, hall⟩
  · rw [hsame]
    exact hall entry h
  · rw [hlast]
    exact hall entry h

theorem writes_congr (hmem : ∀ entry, entry ∈ entries ↔ entry ∈ others)
    (hone : ∀ entry ∈ entries, ∀ other ∈ entries, entry.1 = other.1 → entry.2 = other.2) :
    register.writes entries = register.writes others := by
  rcases writes_spec register entries with ⟨hsame, hall⟩ | ⟨entry, hentry, hnew, hlast, hall⟩
  · rcases writes_spec register others with ⟨hsame', -⟩ | ⟨other, hother, hnew', -, -⟩
    · rw [hsame, hsame']
    · exact absurd (hall other ((hmem other).mpr hother)) (Nat.not_le.mpr hnew')
  · rcases writes_spec register others with ⟨-, hall'⟩ | ⟨other, hother, hnew', hlast', hall'⟩
    · exact absurd (hall' entry ((hmem entry).mp hentry)) (Nat.not_le.mpr hnew)
    have hrev : entry.1 = other.1 := Nat.le_antisymm (hall' entry ((hmem entry).mp hentry))
      (hall other ((hmem other).mpr hother))
    rw [hlast, hlast', hone entry hentry other ((hmem other).mpr hother) hrev, hrev]

end Register

end Yaade.Library

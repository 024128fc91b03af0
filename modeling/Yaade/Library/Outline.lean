import Mathlib.Data.Nat.Find
import Mathlib.Order.Basic

/-!
Forests as the depths of their nodes in pre-order.
-/

namespace Yaade.Library

variable {depth : Nat → Nat} {a b i n : Nat}

/-- The first node is at the top, and no node is more than one level below the
node before it. -/
structure Outline (depth : Nat → Nat) (n : Nat) : Prop where
  top : depth 0 = 0
  rise : ∀ i < n, depth (i + 1) ≤ depth i + 1

namespace Outline

/-- Node `a` is above node `i`: from after `a` up to `i` every node is deeper. -/
structure Above (depth : Nat → Nat) (a i : Nat) : Prop where
  before : a < i
  deeper : ∀ k ≤ i, a < k → depth a < depth k

structure ParentOf (depth : Nat → Nat) (p i : Nat) : Prop extends Above depth p i where
  level : depth p + 1 = depth i

instance : Decidable (Outline depth n) :=
  decidable_of_iff (depth 0 = 0 ∧ ∀ i < n, depth (i + 1) ≤ depth i + 1)
    ⟨fun h => ⟨h.1, h.2⟩, fun h => ⟨h.1, h.2⟩⟩

instance : Decidable (Above depth a i) :=
  decidable_of_iff (a < i ∧ ∀ k ≤ i, a < k → depth a < depth k)
    ⟨fun h => ⟨h.1, h.2⟩, fun h => ⟨h.1, h.2⟩⟩

theorem Above.trans (hab : Above depth a b) (hbi : Above depth b i) : Above depth a i := by
  refine ⟨hab.before.trans hbi.before, fun k hk hak => ?_⟩
  by_cases hkb : k ≤ b
  · exact hab.deeper k hkb hak
  · exact (hab.deeper b le_rfl hab.before).trans (hbi.deeper k hk (not_le.mp hkb))

theorem above_succ :
    Above depth a (i + 1) ↔ (a = i ∨ Above depth a i) ∧ depth a < depth (i + 1) := by
  constructor
  · intro h
    have hlast := h.deeper (i + 1) le_rfl h.before
    rcases Nat.lt_succ_iff_lt_or_eq.mp h.before with hlt | heq
    · exact ⟨.inr ⟨hlt, fun k hk => h.deeper k (hk.trans (Nat.le_succ i))⟩, hlast⟩
    · exact ⟨.inl heq, hlast⟩
  · rintro ⟨hai, hlast⟩
    refine ⟨?_, fun k hk hak => ?_⟩
    · rcases hai with rfl | hai
      · exact Nat.lt_succ_self a
      · exact hai.before.trans (Nat.lt_succ_self i)
    · rcases hk.eq_or_lt with rfl | hk
      · exact hlast
      rcases hai with rfl | hai
      · omega
      · exact hai.deeper k (Nat.lt_succ_iff.mp hk) hak

/-- Between a node and one above it stands its parent: the last shallower node
before it. -/
theorem Above.parent (houtline : Outline depth n) (hi : i ≤ n) (h : Above depth a i) :
    ∃ p, ParentOf depth p i ∧ (a = p ∨ Above depth a p) := by
  have hshallow : a < i ∧ depth a < depth i := ⟨h.before, h.deeper i le_rfl h.before⟩
  obtain ⟨p, hp, hap, hlast⟩ : ∃ p, (p < i ∧ depth p < depth i) ∧ a ≤ p ∧
      ∀ k, p < k → k ≤ i → ¬ (k < i ∧ depth k < depth i) :=
    ⟨_, Nat.findGreatest_spec (P := fun k => k < i ∧ depth k < depth i) h.before.le hshallow,
      Nat.le_findGreatest h.before.le hshallow, fun _ => Nat.findGreatest_is_greatest⟩
  have hdeep : ∀ k ≤ i, p < k → depth i ≤ depth k := by
    intro k hk hpk
    rcases hk.eq_or_lt with rfl | hlt
    · exact le_rfl
    · exact not_lt.mp fun hless => hlast k hpk hk ⟨hlt, hless⟩
  have hnext := hdeep (p + 1) hp.1 (Nat.lt_succ_self p)
  have hstep := houtline.rise p (hp.1.trans_le hi)
  refine ⟨p, ⟨⟨hp.1, fun k hk hpk => hp.2.trans_le (hdeep k hk hpk)⟩, by omega⟩, ?_⟩
  rcases hap.eq_or_lt with hap | hap
  · exact .inl hap
  · exact .inr ⟨hap, fun k hk => h.deeper k (hk.trans hp.1.le)⟩

end Outline

end Yaade.Library

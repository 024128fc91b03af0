import Mathlib.Tactic

/-!
Numbers as bytes, most significant byte first, and lists that are strictly
increasing under a key.
-/

namespace Yaade.Library

open List Option

def toBytes : Nat → Nat → List UInt8
  | 0, _ => []
  | width + 1, n => toBytes width (n / 256) ++ [UInt8.ofNat n]

def ofBytes (bytes : List UInt8) : Nat :=
  bytes.foldl (fun n byte => n * 256 + byte.toNat) 0

@[simp] theorem length_toBytes (width n : Nat) : (toBytes width n).length = width := by
  induction width generalizing n with
  | zero => rfl
  | succ width ih => simp [toBytes, ih]

theorem ofBytes_snoc (bytes : List UInt8) (byte : UInt8) :
    ofBytes (bytes ++ [byte]) = ofBytes bytes * 256 + byte.toNat := by
  unfold ofBytes
  rw [foldl_append]
  rfl

theorem ofBytes_toBytes {width n : Nat} (h : n < 256 ^ width) : ofBytes (toBytes width n) = n := by
  induction width generalizing n with
  | zero =>
    rw [pow_zero] at h
    rw [toBytes, ofBytes, foldl_nil]
    omega
  | succ width ih =>
    have hhigh : n / 256 < 256 ^ width := by
      apply Nat.div_lt_of_lt_mul
      rw [pow_succ] at h
      omega
    have hlow : (UInt8.ofNat n).toNat = n % 256 := rfl
    rw [toBytes, ofBytes_snoc, ih hhigh, hlow]
    omega

theorem ofBytes_lt (bytes : List UInt8) : ofBytes bytes < 256 ^ bytes.length := by
  induction bytes using List.reverseRecOn with
  | nil => decide
  | append_singleton bytes byte ih =>
    have hbyte := byte.toNat_lt
    rw [ofBytes_snoc, length_append, length_singleton, pow_succ]
    omega

theorem toBytes_ofBytes {width : Nat} {bytes : List UInt8} (h : bytes.length = width) :
    toBytes width (ofBytes bytes) = bytes := by
  induction bytes using List.reverseRecOn generalizing width with
  | nil =>
    subst h
    rfl
  | append_singleton bytes byte ih =>
    have hbyte := byte.toNat_lt
    have hhigh : (ofBytes bytes * 256 + byte.toNat) / 256 = ofBytes bytes := by omega
    have hlow : UInt8.ofNat (ofBytes bytes * 256 + byte.toNat) = byte := by
      apply UInt8.toNat_inj.mp
      rw [UInt8.toNat_ofNat']
      omega
    subst h
    rw [length_append, length_singleton, toBytes, ofBytes_snoc, hhigh, hlow, ih rfl]

section Increasing

variable {α : Type} (key : α → Nat)

def Increasing (items : List α) : Prop := items.Pairwise fun a b => key a < key b

variable {key} {items more : List α} {item : α}

theorem increasing_append : Increasing key (items ++ more) ↔
    Increasing key items ∧ Increasing key more ∧ ∀ a ∈ items, ∀ b ∈ more, key a < key b :=
  pairwise_append

theorem Increasing.snoc (h : Increasing key items)
    (hlast : ∀ last, items.getLast? = some last → key last < key item) :
    Increasing key (items ++ [item]) := by
  apply increasing_append.mpr
  refine ⟨h, pairwise_singleton _ _, ?_⟩
  intro a ha b hb
  rw [mem_singleton.mp hb]
  rcases eq_nil_or_concat items with hnil | ⟨front, last, hitems⟩
  · rw [hnil] at ha
    cases ha
  rw [concat_eq_append] at hitems
  have hbound := hlast last (by rw [hitems, getLast?_concat])
  rw [hitems] at h ha
  rcases mem_append.mp ha with hfront | hlast'
  · have hbef := (increasing_append.mp h).2.2 a hfront last (mem_singleton_self last)
    omega
  · rw [mem_singleton.mp hlast']
    exact hbound

theorem Increasing.last_max (h : Increasing key items) {last : α}
    (hlast : items.getLast? = some last) : ∀ a ∈ items, key a ≤ key last := by
  obtain ⟨front, rfl⟩ := getLast?_eq_some_iff.mp hlast
  intro a ha
  rcases mem_append.mp ha with hfront | hmem
  · have hbef := (increasing_append.mp h).2.2 a hfront last (mem_singleton_self last)
    omega
  · rw [mem_singleton.mp hmem]

end Increasing

end Yaade.Library

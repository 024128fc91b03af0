import Mathlib.Tactic

/-!
Occurrences of patterns in a text, from left to right: where a pattern begins
it is taken as a whole, everywhere else one item is left out.
-/

namespace Yaade.Library

open List Option

universe u v

variable {α : Type u} {β : Type v} {patterns : List (List α × β)} {text rest before : List α}
  {pattern : List α × β}

section Scan

variable [DecidableEq α]

def patternAt (patterns : List (List α × β)) (text : List α) : Option (List α × β) :=
  patterns.find? fun pattern => pattern.1.isPrefixOf text

def occurrencesAfter (patterns : List (List α × β)) : Nat → List α → List β
  | _, [] => []
  | skip + 1, _ :: rest => occurrencesAfter patterns skip rest
  | 0, item :: rest =>
    match patternAt patterns (item :: rest) with
    | none => occurrencesAfter patterns 0 rest
    | some pattern => pattern.2 :: occurrencesAfter patterns (pattern.1.length - 1) rest

def occurrences (patterns : List (List α × β)) (text : List α) : List β :=
  occurrencesAfter patterns 0 text

theorem patternAt_some (h : patternAt patterns text = some pattern) :
    pattern ∈ patterns ∧ pattern.1 <+: text := by
  unfold patternAt at h
  exact ⟨mem_of_find?_eq_some h, isPrefixOf_iff_prefix.mp (find?_some h :)⟩

theorem patternAt_none (h : patternAt patterns text = none) :
    ∀ pattern ∈ patterns, ¬ pattern.1 <+: text := by
  intro pattern hmem hprefix
  have hnot := find?_eq_none.mp h pattern hmem
  exact hnot ( isPrefixOf_iff_prefix.mpr hprefix)

theorem occurrencesAfter_append (skipped : List α) :
    occurrencesAfter patterns skipped.length (skipped ++ rest) = occurrences patterns rest := by
  induction skipped with
  | nil => rfl
  | cons item skipped ih => exact ih

theorem occurrences_none (h : patternAt patterns text = none) :
    occurrences patterns text = occurrences patterns text.tail := by
  cases text with
  | nil => rfl
  | cons item rest =>
    unfold occurrences
    rw [occurrencesAfter, h]
    rfl

theorem occurrences_some (h : patternAt patterns (pattern.1 ++ rest) = some pattern)
    (hnonem : pattern.1 ≠ []) :
    occurrences patterns (pattern.1 ++ rest) = pattern.2 :: occurrences patterns rest := by
  obtain ⟨items, value⟩ := pattern
  cases items with
  | nil => exact absurd rfl hnonem
  | cons item items =>
    unfold occurrences
    rw [cons_append] at h ⊢
    rw [occurrencesAfter, h]
    simp only [length_cons, Nat.add_sub_cancel]
    rw [occurrencesAfter_append]
    rfl

end Scan

/-- No pattern is empty, none begins inside another, and what a pattern stands
for is determined. -/
structure Disjoint (patterns : List (List α × β)) : Prop where
  nonempty : ∀ pattern ∈ patterns, pattern.1 ≠ []
  apart : ∀ pattern ∈ patterns, ∀ other ∈ patterns, ∀ n, 0 < n → n < pattern.1.length →
    ¬ pattern.1.drop n <+: other.1 ∧ ¬ other.1 <+: pattern.1.drop n
  determined : ∀ pattern ∈ patterns, ∀ other ∈ patterns, pattern.1 <+: other.1 → pattern = other

theorem Disjoint.unique (hdisjoint : Disjoint patterns) {other : List α × β}
    (hpattern : pattern ∈ patterns) (hother : other ∈ patterns) (h : pattern.1 <+: text)
    (h' : other.1 <+: text) : pattern = other := by
  rcases prefix_or_prefix_of_prefix h h' with hle | hle
  · exact hdisjoint.determined pattern hpattern other hother hle
  · exact (hdisjoint.determined other hother pattern hpattern hle).symm

theorem Disjoint.behind (hdisjoint : Disjoint patterns) {other : List α × β} {after : List α}
    (hpattern : pattern ∈ patterns) (hother : other ∈ patterns)
    (h : pattern.1 ++ rest = before ++ other.1 ++ after) :
    (before = [] ∧ pattern = other ∧ after = rest) ∨
      ∃ between, before = pattern.1 ++ between ∧ rest = between ++ other.1 ++ after := by
  by_cases hstart : before = []
  · subst hstart
    rw [nil_append] at h
    have hsame : pattern = other := hdisjoint.unique hpattern hother
      (prefix_append pattern.1 rest) (h ▸ prefix_append other.1 after)
    subst hsame
    exact .inl ⟨rfl, rfl, (append_cancel_left h).symm⟩
  · right
    rw [append_assoc] at h
    rcases append_eq_append_iff.mp h with ⟨between, hbef, hrest⟩ | ⟨tail, hpattern', hrest⟩
    · exact ⟨between, hbef, by rw [hrest, append_assoc]⟩
    by_cases htail : tail = []
    · subst htail
      rw [append_nil] at hpattern'
      rw [nil_append] at hrest
      exact ⟨[], by rw [hpattern', append_nil], by rw [nil_append, hrest]⟩
    have hlength : before.length < pattern.1.length := by
      have htail' := length_pos_iff.mpr htail
      rw [hpattern', length_append]
      omega
    have hdrop : pattern.1.drop before.length = tail := by
      rw [hpattern', drop_left]
    have hapart := hdisjoint.apart pattern hpattern other hother before.length
      (length_pos_iff.mpr hstart) hlength
    rw [hdrop] at hapart
    rcases prefix_or_prefix_of_prefix (prefix_append other.1 after)
      (hrest ▸ prefix_append tail rest) with hle | hle
    · exact absurd hle hapart.2
    · exact absurd hle hapart.1

end Yaade.Library

import Yaade.Library.Table

/-!
Maps that remember the order in which their keys came in.
-/

namespace Yaade.Library

open Option Function

/-- Entries in insertion order, at most one for a key. -/
structure IndexMap (κ ν : Type) where
  entries : List (κ × ν)
  nodup : (entries.map Prod.fst).Nodup

namespace IndexMap

variable {κ ν : Type}

instance [DecidableEq κ] [DecidableEq ν] : DecidableEq (IndexMap κ ν) := fun m n =>
  decidable_of_iff (m.entries = n.entries) (by cases m; cases n; simp)

@[ext] theorem ext {m n : IndexMap κ ν} (h : m.entries = n.entries) : m = n := by
  cases m
  cases n
  simpa using h

def empty : IndexMap κ ν := ⟨[], List.nodup_nil⟩

def isEmpty (m : IndexMap κ ν) : Bool := m.entries.isEmpty

def length (m : IndexMap κ ν) : Nat := m.entries.length

def values (m : IndexMap κ ν) : List ν := m.entries.map Prod.snd

def keys (m : IndexMap κ ν) : List κ := m.entries.map Prod.fst

def total (measure : ν → Nat) (m : IndexMap κ ν) : Nat := (m.values.map measure).sum

def first? (m : IndexMap κ ν) : Option (κ × ν) := m.entries.head?

def retain (p : κ → ν → Bool) (m : IndexMap κ ν) : IndexMap κ ν :=
  ⟨m.entries.filter fun entry => p entry.1 entry.2,
    m.nodup.sublist (List.filter_sublist.map Prod.fst)⟩

def mapValues (f : ν → ν) (m : IndexMap κ ν) : IndexMap κ ν :=
  ⟨m.entries.map fun entry => (entry.1, f entry.2), by
    rw [List.map_map]
    exact m.nodup⟩

def dropFirst (m : IndexMap κ ν) : IndexMap κ ν :=
  ⟨m.entries.tail, m.nodup.sublist ((List.tail_sublist _).map Prod.fst)⟩

def keepLast (count : Nat) (m : IndexMap κ ν) : IndexMap κ ν :=
  ⟨m.entries.drop (m.length - count), m.nodup.sublist ((List.drop_sublist _ _).map Prod.fst)⟩

variable [DecidableEq κ]

def get? (m : IndexMap κ ν) (key : κ) : Option ν :=
  (row? Prod.fst key m.entries).map Prod.snd

def contains (m : IndexMap κ ν) (key : κ) : Bool := (m.get? key).isSome

def modify (m : IndexMap κ ν) (key : κ) (f : ν → ν) : IndexMap κ ν :=
  ⟨updateRow Prod.fst key (fun entry => (entry.1, f entry.2)) m.entries, by
    rw [map_key_updateRow Prod.fst (f := fun entry => (entry.1, f entry.2)) fun _ h => h]
    exact m.nodup⟩

def insert (m : IndexMap κ ν) (key : κ) (value : ν) : IndexMap κ ν :=
  if h : row? Prod.fst key m.entries = none then
    ⟨m.entries ++ [(key, value)], nodup_push Prod.fst m.nodup h⟩
  else m.modify key fun _ => value

def shiftRemove (m : IndexMap κ ν) (key : κ) : IndexMap κ ν :=
  m.retain fun other _ => other != key

section Lookup

variable (m : IndexMap κ ν)

variable {key : κ} {value : ν}

theorem get?_eq_some {m : IndexMap κ ν} : m.get? key = some value ↔ (key, value) ∈ m.entries := by
  unfold get?
  rw [map_eq_some_iff]
  constructor
  · rintro ⟨⟨k, v⟩, hrow, rfl⟩
    obtain ⟨hmem, rfl⟩ := row?_mem Prod.fst hrow
    exact hmem
  · intro hmem
    exact ⟨_, row?_of_mem Prod.fst m.nodup hmem, rfl⟩

theorem row?_of_get? {m : IndexMap κ ν} (h : m.get? key = some value) :
    row? Prod.fst key m.entries = some (key, value) :=
  row?_of_mem Prod.fst m.nodup (get?_eq_some.mp h)

theorem get?_eq_none {m : IndexMap κ ν} :
    m.get? key = none ↔ ∀ value, (key, value) ∉ m.entries := by
  rw [eq_none_iff_forall_ne_some]
  exact forall_congr' fun value => not_congr get?_eq_some

@[simp] theorem contains_iff {m : IndexMap κ ν} :
    m.contains key = true ↔ ∃ value, m.get? key = some value :=
  isSome_iff_exists

theorem length_modify (key : κ) (f : ν → ν) : (m.modify key f).length = m.length := by
  have hkeys : (updateRow Prod.fst key (fun entry => (entry.1, f entry.2)) m.entries).map Prod.fst =
      m.entries.map Prod.fst :=
    map_key_updateRow Prod.fst (f := fun entry => (entry.1, f entry.2)) (fun _ h => h) m.entries
  simpa [length, modify] using congrArg List.length hkeys

@[simp] theorem get?_modify (key other : κ) (f : ν → ν) : (m.modify key f).get? other =
      if other = key then (m.get? other).map f else m.get? other := by
  unfold get? modify
  simp only
  rw [row?_updateRow Prod.fst (f := fun entry => (entry.1, f entry.2)) fun _ h => h]
  split
  · simp [map_map, comp_def]
  · rfl

theorem insert_entries {m : IndexMap κ ν} (h : m.get? key = none) (value : ν) :
    (m.insert key value).entries = m.entries ++ [(key, value)] := by
  have habsent : row? Prod.fst key m.entries = none := map_eq_none_iff.mp h
  unfold insert
  rw [dif_pos habsent]

@[simp] theorem get?_insert (key other : κ) (value : ν) :
    (m.insert key value).get? other = if other = key then some value else m.get? other := by
  unfold insert
  split
  · rename_i habsent
    unfold get?
    simp only [row?_push]
    by_cases hother : other = key
    · subst hother
      simp [habsent]
    · simp [hother, Ne.symm hother]
  · rename_i hpresent
    obtain ⟨entry, hentry⟩ := ne_none_iff_exists'.mp hpresent
    rw [get?_modify]
    by_cases hother : other = key
    · subst hother
      simp [get?, hentry]
    · simp [hother]

theorem get?_retain_eq_some {p : κ → ν → Bool} {m : IndexMap κ ν} :
    (m.retain p).get? key = some value ↔ m.get? key = some value ∧ p key value = true := by
  rw [get?_eq_some, get?_eq_some]
  exact List.mem_filter

theorem get?_mapValues (f : ν → ν) (m : IndexMap κ ν) (key : κ) :
    (m.mapValues f).get? key = (m.get? key).map f := by
  apply Option.ext
  intro value
  rw [get?_eq_some, map_eq_some_iff]
  constructor
  · intro h
    obtain ⟨⟨other, old⟩, hmem, heq⟩ := List.mem_map.mp h
    cases heq
    exact ⟨old, get?_eq_some.mpr hmem, rfl⟩
  · rintro ⟨old, hold, rfl⟩
    exact List.mem_map.mpr ⟨(key, old), get?_eq_some.mp hold, rfl⟩

@[simp] theorem get?_shiftRemove (key other : κ) :
    (m.shiftRemove key).get? other = if other = key then none else m.get? other := by
  apply Option.ext
  intro value
  unfold shiftRemove
  rw [get?_retain_eq_some]
  by_cases hother : other = key <;> simp [hother]

theorem get?_shiftRemove_eq_some {m : IndexMap κ ν} {other : κ} :
    (m.shiftRemove key).get? other = some value ↔ other ≠ key ∧ m.get? other = some value := by
  rw [get?_shiftRemove, ite_none_left_eq_some]

theorem shiftRemove_entries {m : IndexMap κ ν} {rest : List (κ × ν)}
    (h : m.entries = (key, value) :: rest) : (m.shiftRemove key).entries = rest := by
  have hnodup := m.nodup
  rw [h, List.map_cons, List.nodup_cons] at hnodup
  unfold shiftRemove retain
  simp only [h, List.filter_cons, bne_self_eq_false, Bool.false_eq_true, if_false]
  apply List.filter_eq_self.mpr
  intro entry hentry
  rw [bne_iff_ne]
  intro heq
  have hmem : entry.1 ∈ rest.map Prod.fst := List.mem_map_of_mem hentry
  exact hnodup.1 (heq ▸ hmem)

theorem shiftRemove_perm {m : IndexMap κ ν} (h : m.get? key = some value) :
    m.entries.Perm ((key, value) :: (m.shiftRemove key).entries) := by
  obtain ⟨before, after, hsplit⟩ := List.append_of_mem (get?_eq_some.mp h)
  have hnodup := m.nodup
  rw [hsplit, List.map_append, List.map_cons] at hnodup
  have hrest := List.nodup_middle.mp hnodup
  rw [List.nodup_cons, ← List.map_append] at hrest
  have hkept : (m.shiftRemove key).entries = before ++ after := by
    unfold shiftRemove retain
    simp only [hsplit, List.filter_append, List.filter_cons, bne_self_eq_false,
      Bool.false_eq_true, if_false]
    rw [← List.filter_append]
    apply List.filter_eq_self.mpr
    intro entry hentry
    rw [bne_iff_ne]
    intro heq
    have hmem : entry.1 ∈ (before ++ after).map Prod.fst := List.mem_map_of_mem hentry
    exact hrest.1 (heq ▸ hmem)
  rw [hkept, hsplit]
  exact List.perm_middle

theorem get?_dropFirst_eq_some {m : IndexMap κ ν}
    (h : m.dropFirst.get? key = some value) : m.get? key = some value :=
  get?_eq_some.mpr (List.mem_of_mem_tail (get?_eq_some.mp h))

theorem first?_get? {m : IndexMap κ ν} (h : m.first? = some (key, value)) :
    m.get? key = some value :=
  get?_eq_some.mpr (List.mem_of_head? h)

omit [DecidableEq κ] in
theorem first?_eq_none {m : IndexMap κ ν} : m.first? = none ↔ m.isEmpty = true := by
  rw [first?, List.head?_eq_none_iff, isEmpty, List.isEmpty_iff]

theorem isEmpty_iff {m : IndexMap κ ν} : m.isEmpty = true ↔ ∀ key, m.get? key = none := by
  rw [isEmpty, List.isEmpty_iff]
  constructor
  · intro h key
    simp [get?, h]
  · intro h
    rw [List.eq_nil_iff_forall_not_mem]
    rintro ⟨key, value⟩ hmem
    have hsome := get?_eq_some.mpr hmem
    rw [h key] at hsome
    cases hsome

theorem mem_values {m : IndexMap κ ν} : value ∈ m.values ↔ ∃ key, m.get? key = some value := by
  simp only [values, List.mem_map, get?_eq_some]
  constructor
  · rintro ⟨⟨key, v⟩, hmem, rfl⟩
    exact ⟨key, hmem⟩
  · rintro ⟨key, hmem⟩
    exact ⟨(key, value), hmem, rfl⟩

end Lookup

/-! ### Keys and totals -/

section Totals

variable {key : κ}

theorem mem_keys {m : IndexMap κ ν} : key ∈ m.keys ↔ ∃ value, m.get? key = some value := by
  simp [keys, get?_eq_some]

theorem keys_insert_new {m : IndexMap κ ν} (h : m.get? key = none) (value : ν) :
    (m.insert key value).keys = m.keys ++ [key] := by
  unfold keys
  rw [insert_entries h, List.map_append]
  rfl

variable {old : ν}

theorem insert_eq_modify {m : IndexMap κ ν} (h : m.get? key = some old)
    (value : ν) : m.insert key value = m.modify key fun _ => value := by
  unfold insert
  rw [dif_neg]
  rw [row?_of_get? h]
  exact some_ne_none _

theorem modify_eq_insert {m : IndexMap κ ν} (h : m.get? key = some old)
    (f : ν → ν) : m.modify key f = m.insert key (f old) := by
  rw [insert_eq_modify h]
  apply ext
  unfold modify
  simp only
  rw [updateRow_eq_map Prod.fst _ key m.entries m.nodup,
    updateRow_eq_map Prod.fst _ key m.entries m.nodup]
  apply List.map_congr_left
  rintro ⟨other, value⟩ hmem
  split
  · rename_i hother
    subst hother
    rw [get?_eq_some.mpr hmem] at h
    cases h
    rfl
  · rfl

theorem modify_absent {m : IndexMap κ ν} (h : m.get? key = none) (f : ν → ν) :
    m.modify key f = m := by
  apply ext
  unfold modify
  simp only
  rw [updateRow_eq_map Prod.fst _ key m.entries m.nodup]
  refine (List.map_congr_left ?_).trans (List.map_id m.entries)
  rintro ⟨other, value⟩ hmem
  rw [if_neg]
  · rfl
  · rintro rfl
    exact get?_eq_none.mp h value hmem

theorem shiftRemove_absent {m : IndexMap κ ν} (h : m.get? key = none) : m.shiftRemove key = m := by
  apply ext
  refine List.filter_eq_self.mpr fun entry hmem => ?_
  rw [bne_iff_ne]
  rintro rfl
  exact get?_eq_none.mp h entry.2 hmem

theorem shiftRemove_insert {m : IndexMap κ ν} (h : m.get? key = some old)
    (value : ν) : (m.insert key value).shiftRemove key = m.shiftRemove key := by
  rw [insert_eq_modify h]
  apply ext
  unfold shiftRemove retain modify
  simp only
  rw [updateRow_eq_map Prod.fst _ key m.entries m.nodup, List.filter_map]
  have hkeys : ((fun entry : κ × ν => entry.1 != key) ∘ fun entry =>
      if entry.1 = key then (entry.1, value) else entry) = fun entry => entry.1 != key := by
    funext entry
    simp only [comp_apply]
    split <;> rfl
  rw [hkeys]
  refine (List.map_congr_left ?_).trans (List.map_id _)
  intro entry hmem
  rw [if_neg]
  · rfl
  · simpa using (List.mem_filter.mp hmem).2

theorem keys_insert_old {m : IndexMap κ ν} (h : m.get? key = some old)
    (value : ν) : (m.insert key value).keys = m.keys := by
  rw [insert_eq_modify h]
  exact map_key_updateRow Prod.fst (f := fun entry => (entry.1, value)) (fun _ h => h) m.entries

theorem insert_split {m : IndexMap κ ν} (h : m.get? key = some old) (value : ν) :
    ∃ before after, m.entries = before ++ (key, old) :: after ∧
      (m.insert key value).entries = before ++ (key, value) :: after ∧
      (∀ entry ∈ before, entry.1 ≠ key) ∧ ∀ entry ∈ after, entry.1 ≠ key := by
  obtain ⟨before, after, hentries⟩ := List.append_of_mem (get?_eq_some.mp h)
  have hnodup := m.nodup
  rw [hentries, List.map_append, List.map_cons, List.nodup_middle, List.nodup_cons,
    List.mem_append, not_or] at hnodup
  have hbef : ∀ entry ∈ before, entry.1 ≠ key := fun entry hentry hkey =>
    hnodup.1.1 (List.mem_map.mpr ⟨entry, hentry, hkey⟩)
  have hafter : ∀ entry ∈ after, entry.1 ≠ key := fun entry hentry hkey =>
    hnodup.1.2 (List.mem_map.mpr ⟨entry, hentry, hkey⟩)
  refine ⟨before, after, hentries, ?_, hbef, hafter⟩
  rw [insert_eq_modify h]
  unfold modify
  simp only
  rw [updateRow_eq_map Prod.fst _ key m.entries m.nodup, hentries, List.map_append, List.map_cons,
    if_pos rfl]
  congr 1
  · exact (List.map_congr_left fun entry hentry => if_neg (hbef entry hentry)).trans
      (List.map_id before)
  · congr 1
    exact (List.map_congr_left fun entry hentry => if_neg (hafter entry hentry)).trans
      (List.map_id after)

theorem keys_shiftRemove (m : IndexMap κ ν) (key : κ) :
    (m.shiftRemove key).keys = m.keys.filter (· != key) := by
  unfold keys shiftRemove retain
  rw [List.filter_map]
  rfl

theorem total_insert_new {m : IndexMap κ ν} (h : m.get? key = none) (measure : ν → Nat)
    (value : ν) : (m.insert key value).total measure = m.total measure + measure value := by
  unfold total values
  rw [insert_entries h]
  simp

theorem total_insert_old {m : IndexMap κ ν} (h : m.get? key = some old)
    (measure : ν → Nat) (value : ν) :
    (m.insert key value).total measure + measure old = m.total measure + measure value := by
  have hsum := sum_updateRow Prod.fst (fun entry : κ × ν => measure entry.2)
    (f := fun entry => (entry.1, value)) (row?_of_get? h)
  rw [insert_eq_modify h]
  simpa [total, values, modify, comp_def] using hsum

theorem total_shiftRemove {m : IndexMap κ ν} (h : m.get? key = some old)
    (measure : ν → Nat) : (m.shiftRemove key).total measure + measure old = m.total measure := by
  have hsum := ((shiftRemove_perm h).map fun entry => measure entry.2).sum_nat
  simp only [List.map_cons, List.sum_cons] at hsum
  simp only [total, values, List.map_map, comp_def]
  omega

theorem le_total {m : IndexMap κ ν} {value : ν} (h : m.get? key = some value)
    (measure : ν → Nat) : measure value ≤ m.total measure := by
  have hsum := total_shiftRemove h measure
  omega

theorem total_eq_zero {m : IndexMap κ ν} {measure : ν → Nat}
    (h : ∀ key value, m.get? key = some value → measure value = 0) : m.total measure = 0 := by
  unfold total
  rw [List.sum_eq_zero_iff_forall_eq_nat]
  intro count hcount
  obtain ⟨value, hvalue, rfl⟩ := List.mem_map.mp hcount
  obtain ⟨key, hkey⟩ := mem_values.mp hvalue
  exact h key value hkey

theorem length_le_total {m : IndexMap κ ν} {first second : ν → Nat}
    (h : ∀ key value, m.get? key = some value → 1 ≤ first value + second value) :
    m.keys.length ≤ m.total first + m.total second := by
  have hmem : ∀ entry ∈ m.entries, 1 ≤ first entry.2 + second entry.2 :=
    fun entry hentry => h entry.1 entry.2 (get?_eq_some.mpr hentry)
  unfold keys total values
  generalize m.entries = entries at hmem
  induction entries with
  | nil => exact Nat.zero_le _
  | cons entry rest ih =>
    have hrest := ih fun other hother => hmem other (List.mem_cons_of_mem entry hother)
    have hfirst := hmem entry List.mem_cons_self
    simp only [List.map_cons, List.length_cons, List.sum_cons]
    omega

end Totals

end IndexMap

end Yaade.Library

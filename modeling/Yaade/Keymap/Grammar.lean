import Yaade.Keymap.Profile

/-!
The normal form of a chord as its modifiers and its key, and what the compiler
and the event matcher each read out of it.
-/

namespace Yaade.Keymap

open Yaade.Library.Utf16 List

/-! ## Keys -/

/-- What is known of the key of a chord in normal form. -/
structure KeyToken (m : CaseMapping) (key : Units) : Prop where
  nonempty : key ≠ []
  hyphens : key = [hyphen] ∨ hyphen ∉ key
  dense : ∀ unit ∈ key, isSpace unit = false
  plain : isModifierName key = false
  bound : normalizeBindingKey m key = key
  short : key.length ≤ 10
  again : key = dottedI ∨ normalizedKey m key = some key

section Keys

variable {m : CaseMapping} {value key : Units}

def isTableKey (key : Units) : Bool :=
  isAscii key && !key.isEmpty && !key.contains hyphen && !key.any isSpace &&
    !isModifierName key && key != units "Backquote" && key.length != 1 &&
    key.length ≤ 10 && normalizedKey .ascii key == some key

theorem normalizedKey_ascii (hascii : isAscii value = true)
    (hdense : ∀ unit ∈ value, isSpace unit = false) :
    normalizedKey m value = normalizedKey .ascii value := by
  unfold normalizedKey
  dsimp only
  rw [trim_of_dense hdense, m.lower_ascii value hascii, m.upper_ascii value hascii]
  rfl

theorem KeyToken.of_table (h : isTableKey key = true) : KeyToken m key := by
  simp only [isTableKey, Bool.and_eq_true, Bool.not_eq_true', bne_iff_ne, ne_eq,
    any_eq_false, Bool.not_eq_true, beq_iff_eq, decide_eq_true_eq] at h
  obtain ⟨⟨⟨⟨⟨⟨⟨⟨hascii, hne⟩, hhyphen⟩, hdense⟩, hplain⟩, hquote⟩, hlength⟩, hshort⟩, hagain⟩ := h
  refine ⟨?_, .inr ?_, hdense, hplain, ?_, hshort, .inr ?_⟩
  · rintro rfl
    cases hne
  · intro hmem
    rw [contains_iff_mem.mpr hmem] at hhyphen
    cases hhyphen
  · rw [normalizeBindingKey, if_neg hquote, if_neg hlength]
  · rw [normalizedKey_ascii hascii hdense, hagain]

def functionKeys : List Units :=
  [units "F1", units "F2", units "F3", units "F4", units "F5", units "F6", units "F7",
    units "F8", units "F9", units "F10", units "F11", units "F12"]

theorem tableKeys :
    (namedKeys.map (·.2) ++ functionKeys).all isTableKey = true := by decide

theorem KeyToken.named {entry : Units × Units} (h : entry ∈ namedKeys) : KeyToken m entry.2 :=
  .of_table (all_eq_true.mp tableKeys _
    (mem_append_left _ (mem_map.mpr ⟨entry, h, rfl⟩)))

theorem unit_between {unit : UInt16} {low count : Nat} (hlow : low ≤ unit.toNat)
    (hhigh : unit.toNat < low + count) : ∃ k < count, unit = UInt16.ofNat (low + k) := by
  refine ⟨unit.toNat - low, by omega, ?_⟩
  rw [Nat.add_sub_cancel' hlow, UInt16.ofNat_toNat]

theorem upper_functionKey (h : isFunctionKey value = true) :
    isAscii value = true ∧ value.map asciiUpper ∈ functionKeys := by
  unfold isFunctionKey at h
  split at h
  · rename_i f digit
    simp only [Bool.and_eq_true, Bool.or_eq_true, beq_iff_eq, decide_eq_true_eq] at h
    obtain ⟨⟨hf, hlow⟩, hhigh⟩ := h
    have h1 := UInt16.le_iff_toNat_le.mp hlow
    have h2 := UInt16.le_iff_toNat_le.mp hhigh
    simp only [UInt16.reduceToNat] at h1 h2
    obtain ⟨k, hk, rfl⟩ := @unit_between _ 49 9 h1 (by omega)
    have hall : ∀ k < 9,
        (isAscii [70, UInt16.ofNat (49 + k)] = true ∧
          [70, UInt16.ofNat (49 + k)].map asciiUpper ∈ functionKeys) ∧
        isAscii [102, UInt16.ofNat (49 + k)] = true ∧
          [102, UInt16.ofNat (49 + k)].map asciiUpper ∈ functionKeys := by
      decide
    rcases hf with rfl | rfl
    · exact (hall k hk).1
    · exact (hall k hk).2
  · rename_i f one digit
    simp only [Bool.and_eq_true, Bool.or_eq_true, beq_iff_eq, decide_eq_true_eq] at h
    obtain ⟨⟨⟨hf, rfl⟩, hlow⟩, hhigh⟩ := h
    have h1 := UInt16.le_iff_toNat_le.mp hlow
    have h2 := UInt16.le_iff_toNat_le.mp hhigh
    simp only [UInt16.reduceToNat] at h1 h2
    obtain ⟨k, hk, rfl⟩ := @unit_between _ 48 3 h1 (by omega)
    have hall : ∀ k < 3,
        (isAscii [70, 49, UInt16.ofNat (48 + k)] = true ∧
          [70, 49, UInt16.ofNat (48 + k)].map asciiUpper ∈ functionKeys) ∧
        isAscii [102, 49, UInt16.ofNat (48 + k)] = true ∧
          [102, 49, UInt16.ofNat (48 + k)].map asciiUpper ∈ functionKeys := by
      decide
    rcases hf with rfl | rfl
    · exact (hall k hk).1
    · exact (hall k hk).2
  · cases h

theorem KeyToken.unit {unit : UInt16} (hlower : m.lower [unit] = [unit])
    (hspace : isSpace unit = false) : KeyToken m [unit] := by
  refine ⟨cons_ne_nil _ _, ?_, ?_, ?_, ?_, ?_, ?_⟩
  · by_cases hhyphen : unit = hyphen
    · exact .inl (by rw [hhyphen])
    · exact .inr (by simpa using Ne.symm hhyphen)
  · intro other hother
    rw [mem_singleton.mp hother]
    exact hspace
  · have hlengths : (modifierOrder.map Modifier.name).all (·.length != 1) = true := by
      decide
    rw [isModifierName, Bool.eq_false_iff]
    intro hcont
    have hlength := all_eq_true.mp hlengths _ (contains_iff_mem.mp hcont)
    cases hlength
  · rw [normalizeBindingKey, if_neg, if_pos length_singleton, hlower]
    intro habs
    have hquote : (units "Backquote").length = 9 := by decide
    rw [← habs] at hquote
    cases hquote
  · exact length_singleton.trans_le (by decide)
  · have hblank : [unit] ≠ units " " := by
      intro habs
      have hunit : unit = 32 := head_eq_of_cons_eq habs
      rw [hunit] at hspace
      exact absurd hspace (by decide)
    refine .inr ?_
    rw [normalizedKey, trim_of_dense (by simpa using hspace)]
    exact (if_pos ⟨rfl, hblank⟩).trans (congrArg some hlower)

theorem dottedI_dense : ∀ unit ∈ dottedI, isSpace unit = false := by
  have hall : dottedI.all (!isSpace ·) = true := by decide
  exact fun unit hunit => by simpa using all_eq_true.mp hall unit hunit

theorem KeyToken.dotted : KeyToken m dottedI :=
  ⟨by decide, .inr (by decide), dottedI_dense, by decide, by
    rw [normalizeBindingKey, if_neg (by decide), if_neg (by decide)], by decide, .inl rfl⟩

/-- The lower case of one unit in two units is no key. -/
theorem normalizedKey_dotted : normalizedKey m dottedI = none := by
  have htrim : trim dottedI = dottedI := trim_of_dense dottedI_dense
  have hnone : namedKeys.find? (fun entry => entry.1 = dottedI) = none := by decide
  simp only [normalizedKey, htrim, m.lower_dottedI]
  rw [if_neg (by decide), hnone]
  rfl

theorem normalizedKey_token (hdense : ∀ unit ∈ value, isSpace unit = false)
    (h : normalizedKey m value = some key) : KeyToken m key := by
  simp only [normalizedKey, trim_of_dense hdense] at h
  split at h
  · rename_i hlength
    obtain ⟨unit, rfl⟩ := length_eq_one_iff.mp hlength.1
    cases h
    have hspace := hdense unit mem_cons_self
    by_cases hhyphen : unit = hyphen
    · have hsame : m.lower [unit] = [unit] := by
        rw [hhyphen, m.lower_ascii _ (by decide)]
        rfl
      rw [hsame]
      exact .unit hsame hspace
    · rcases m.lower_single hspace hhyphen with ⟨small, hsmall, hstays, -, hblank⟩ | hdotted
      · rw [hsmall]
        exact .unit hstays hblank
      · rw [hdotted]
        exact .dotted
  · split at h
    · rename_i entry hentry
      cases h
      exact .named (mem_of_find?_eq_some hentry)
    split at h
    · rename_i hfunction
      cases h
      obtain ⟨hascii, hmem⟩ := upper_functionKey hfunction
      rw [m.upper_ascii _ hascii]
      exact .of_table (all_eq_true.mp tableKeys _ (mem_append_right _ hmem))
    · cases h

end Keys

/-! ## Chords in normal form -/

def renderChord (modifiers : List Modifier) (key : Units) : Units :=
  joinHyphen (modifiers.map Modifier.name ++ [key])

section Chords

variable {m : CaseMapping} {key : Units} {modifiers : List Modifier}

theorem joinHyphen_cons (first : Units) {rest : List Units} (h : rest ≠ []) :
    joinHyphen (first :: rest) = first ++ hyphen :: joinHyphen rest := by
  rw [joinHyphen, intercalate_cons_of_ne_nil h]
  simp [joinHyphen]

theorem name_facts (modifier : Modifier) : modifier.name ≠ [] ∧ hyphen ∉ modifier.name ∧
    isModifierName modifier.name = true ∧ ∀ unit ∈ modifier.name, isSpace unit = false := by
  have hall : modifier.name ≠ [] ∧ hyphen ∉ modifier.name ∧ isModifierName modifier.name = true ∧
      modifier.name.all (!isSpace ·) = true := by
    cases modifier <;> decide
  obtain ⟨hne, hhyphen, hname, hdense⟩ := hall
  exact ⟨hne, hhyphen, hname, fun unit hunit => by
    simpa using all_eq_true.mp hdense unit hunit⟩

theorem name_injective {x y : Modifier} (h : x.name = y.name) : x = y := by
  have hall : ∀ x ∈ modifierOrder, ∀ y ∈ modifierOrder, x.name = y.name → x = y := by
    decide
  have hmem : ∀ x, x ∈ modifierOrder := by
    intro x
    cases x <;> decide
  exact hall x (hmem x) y (hmem y) h

theorem joinHyphen_hyphen (names : List Units) :
    joinHyphen (names ++ [[hyphen]]) = joinHyphen (names ++ [[], []]) := by
  induction names with
  | nil => rfl
  | cons name rest ih =>
    rw [cons_append, cons_append, joinHyphen_cons _ (by simp),
      joinHyphen_cons _ (by simp), ih]

theorem splitOn_render (h : KeyToken m key) : (renderChord modifiers key).splitOn hyphen =
    modifiers.map Modifier.name ++ if key = [hyphen] then [[], []] else [key] := by
  have hnames : ∀ name ∈ modifiers.map Modifier.name, hyphen ∉ name := by
    intro name hname
    obtain ⟨modifier, -, rfl⟩ := mem_map.mp hname
    exact (name_facts modifier).2.1
  split
  · rename_i hkey
    rw [renderChord, hkey, joinHyphen_hyphen, joinHyphen]
    refine splitOn_intercalate _ ?_ (by simp)
    intro segment hsegment
    rcases mem_append.mp hsegment with hname | hempty
    · exact hnames segment hname
    · have hnil : segment = [] := by simpa using hempty
      simp [hnil]
  · rename_i hkey
    rw [renderChord, joinHyphen]
    refine splitOn_intercalate _ ?_ (by simp)
    intro segment hsegment
    rcases mem_append.mp hsegment with hname | hlast
    · exact hnames segment hname
    · rw [mem_singleton.mp hlast]
      exact h.hyphens.resolve_left hkey

theorem renderChord_eq (modifiers : List Modifier) (key : Units) :
    renderChord modifiers key = (modifiers.flatMap fun x => x.name ++ [hyphen]) ++ key := by
  unfold renderChord
  induction modifiers with
  | nil => simp [joinHyphen]
  | cons modifier rest ih =>
    rw [map_cons, cons_append, joinHyphen_cons _ (by simp), ih]
    simp

section

variable (h : KeyToken m key)
include h

theorem renderChord_dense : ∀ unit ∈ renderChord modifiers key, isSpace unit = false := by
  intro unit hunit
  rw [renderChord_eq] at hunit
  rcases mem_append.mp hunit with hname | hkey
  · obtain ⟨modifier, -, hmem⟩ := mem_flatMap.mp hname
    rcases mem_append.mp hmem with hin | hhyphen
    · exact (name_facts modifier).2.2.2 unit hin
    · rw [mem_singleton.mp hhyphen]
      decide
  · exact h.dense unit hkey

theorem renderChord_ne_nil : renderChord modifiers key ≠ [] := by
  rw [renderChord_eq]
  simp [h.nonempty]

theorem renderChord_getLast :
    (renderChord modifiers key).getLast? = some hyphen ↔ key = [hyphen] := by
  rw [renderChord_eq, getLast?_append_of_ne_nil _ h.nonempty]
  constructor
  · intro hlast
    rcases h.hyphens with hkey | hnone
    · exact hkey
    · exact absurd (mem_of_getLast? hlast) hnone
  · intro hkey
    rw [hkey]
    rfl

theorem chordParts_render : chordParts (renderChord modifiers key) =
    { modifiers := modifiers.map Modifier.name ++ if key = [hyphen] then [[]] else []
      key := if key = [hyphen] then [] else key } := by
  rw [chordParts, splitOn_render h]
  split
  · have hsplit : modifiers.map Modifier.name ++ [[], []] =
        (modifiers.map Modifier.name ++ [[]]) ++ [([] : Units)] := by simp
    simp only [hsplit, dropLast_concat, getLast?_concat, Option.getD_some]
  · simp only [dropLast_concat, getLast?_concat, Option.getD_some, append_nil]

theorem canonical_render (platform : KeymapPlatform) :
    canonicalChordForPlatform (renderChord modifiers key) platform =
      joinHyphen ((modifiers.map Modifier.name).map (resolveModifier platform) ++ [key]) := by
  rw [canonicalChordForPlatform, chordParts_render h]
  dsimp only
  split
  · rename_i hkey
    have hempty : resolveModifier platform [] = [] := by
      rw [resolveModifier, if_pos (by decide)]
    rw [map_append, map_cons, hempty, hkey, joinHyphen_hyphen]
    simp
  · rw [append_nil]

theorem parseKeyPart_render : parseKeyPart (renderChord modifiers key) =
    { modifiers := modifiers.map Modifier.name, key } := by
  have hfull : (modifiers.map Modifier.name).filter (!·.isEmpty) = modifiers.map Modifier.name := by
    refine filter_eq_self.mpr fun name hname => ?_
    obtain ⟨modifier, -, rfl⟩ := mem_map.mp hname
    simpa using (name_facts modifier).1
  have hnames : ∀ name ∈ modifiers.map Modifier.name, isModifierName name = true := by
    intro name hname
    obtain ⟨modifier, -, rfl⟩ := mem_map.mp hname
    exact (name_facts modifier).2.2.1
  have hothers : (modifiers.map Modifier.name).filter (!isModifierName ·) = [] := by
    refine filter_eq_nil_iff.mpr fun name hname => ?_
    simp [hnames name hname]
  simp only [parseKeyPart, splitOn_render h, filter_append, hfull, renderChord_getLast h]
  by_cases hkey : key = [hyphen]
  · have hempty : ([[], []] : List Units).filter (!·.isEmpty) = [] := rfl
    simp only [hkey, if_true, hempty, filter_nil, append_nil, filter_eq_self.mpr hnames, hothers]
    rfl
  · have hkept : [key].filter (!·.isEmpty) = [key] := by simp [h.nonempty]
    simp only [hkey, if_false, hkept, filter_eq_self.mpr hnames, hothers]
    simp [h.plain, h.nonempty]

end

theorem contains_name (modifiers : List Modifier) (extra : List Units)
    (hextra : ∀ segment ∈ extra, segment = []) (x : Modifier) :
    (modifiers.map Modifier.name ++ extra).contains x.name = decide (x ∈ modifiers) := by
  rw [Bool.eq_iff_iff, contains_iff_mem, decide_eq_true_eq, mem_append, mem_map]
  constructor
  · rintro (⟨y, hy, hname⟩ | hmem)
    · rw [← name_injective hname]
      exact hy
    · exact absurd (hextra _ hmem) (name_facts x).1
  · exact fun hx => .inl ⟨x, hx, rfl⟩

theorem mem_of_mem_splitOn {text segment : Units} (h : segment ∈ text.splitOn hyphen) :
    ∀ unit ∈ segment, unit ∈ text := by
  intro unit hunit
  rw [← @intercalate_splitOn _ text _ _ hyphen]
  generalize text.splitOn hyphen = segments at h
  induction segments with
  | nil => cases h
  | cons first rest ih =>
    rcases mem_cons.mp h with rfl | hrest
    · cases rest with
      | nil => simpa using hunit
      | cons second rest =>
        rw [intercalate_cons_cons]
        simp [hunit]
    · have hne : rest ≠ [] := ne_nil_of_mem hrest
      rw [intercalate_cons_of_ne_nil hne]
      simp [ih hrest]

def modifierSegments (value : Units) : List Units :=
  if (trim value).getLast? = some hyphen then ((trim value).splitOn hyphen).filter (!·.isEmpty)
  else ((trim value).splitOn hyphen).dropLast

def rawKey (value : Units) : Units :=
  if (trim value).getLast? = some hyphen then [hyphen]
  else ((trim value).splitOn hyphen).getLast?.getD []

def readChord (m : CaseMapping) (value : Units) : Option Units :=
  if rawKey value = [] then none
  else match collectModifiers m [] (modifierSegments value) with
    | none => none
    | some modifiers =>
      if .mod ∈ modifiers ∧ (.cmd ∈ modifiers ∨ .ctrl ∈ modifiers) then none
      else (normalizedKey m (rawKey value)).map
        (renderChord (modifierOrder.filter (· ∈ modifiers)))

theorem normalizeKeyChord_reads {value chord : Units} (h : normalizeKeyChord m value = some chord) :
    (∀ unit ∈ rawKey value, isSpace unit = false) ∧
      ∃ modifiers key, collectModifiers m [] (modifierSegments value) = some modifiers ∧
        normalizedKey m (rawKey value) = some key ∧
          chord = renderChord (modifierOrder.filter (· ∈ modifiers)) key ∧
            ¬ (.mod ∈ modifiers ∧ (.cmd ∈ modifiers ∨ .ctrl ∈ modifiers)) := by
  simp only [normalizeKeyChord] at h
  split at h
  · cases h
  rename_i hgrammar
  simp only [not_or, any_eq_true, not_exists, not_and, Bool.not_eq_true] at hgrammar
  obtain ⟨-, -, hdense⟩ := hgrammar
  change readChord m value = some chord at h
  unfold readChord at h
  split at h
  · cases h
  split at h
  · cases h
  rename_i modifiers hmodifiers
  split at h
  · cases h
  rename_i hconflict
  obtain ⟨key, hkey, rfl⟩ := Option.map_eq_some_iff.mp h
  refine ⟨?_, modifiers, key, hmodifiers, hkey, rfl, hconflict⟩
  intro unit hunit
  unfold rawKey at hunit
  split at hunit
  · rw [mem_singleton.mp hunit]
    decide
  refine hdense unit ?_
  cases hlast : ((trim value).splitOn hyphen).getLast? with
  | none =>
    rw [hlast] at hunit
    cases hunit
  | some segment =>
    rw [hlast] at hunit
    exact mem_of_mem_splitOn (mem_of_getLast? hlast) unit hunit

/-- What the normal form of a chord looks like. -/
theorem normalizeKeyChord_shape {value chord : Units} (h : normalizeKeyChord m value = some chord) :
    ∃ p : Modifier → Bool, ∃ key, KeyToken m key ∧
      chord = renderChord (modifierOrder.filter p) key ∧
        ¬ (p .mod = true ∧ (p .cmd = true ∨ p .ctrl = true)) := by
  obtain ⟨hdense, modifiers, key, -, hkey, rfl, hconflict⟩ := normalizeKeyChord_reads h
  exact ⟨fun x => decide (x ∈ modifiers), key, normalizedKey_token hdense hkey, rfl,
    by simpa using hconflict⟩

theorem modifierNamed_name (m : CaseMapping) (x : Modifier) :
    modifierNamed (m.lower x.name) = some x := by
  have hascii : isAscii x.name = true := by cases x <;> decide
  rw [m.lower_ascii _ hascii]
  cases x <;> decide

theorem collectModifiers_names (m : CaseMapping) {modifiers seen : List Modifier}
    (hnodup : modifiers.Nodup) (hnew : ∀ x ∈ modifiers, x ∉ seen) :
    collectModifiers m seen (modifiers.map Modifier.name) = some (modifiers.reverse ++ seen) := by
  induction modifiers generalizing seen with
  | nil => rfl
  | cons x rest ih =>
    rw [nodup_cons] at hnodup
    simp only [map_cons, collectModifiers, modifierNamed_name]
    rw [if_neg (hnew x mem_cons_self), ih hnodup.2]
    · simp
    intro y hy hmem
    rcases mem_cons.mp hmem with rfl | hseen
    · exact hnodup.1 hy
    · exact hnew y (mem_cons_of_mem _ hy) hseen

theorem normalizeKeyChord_render {p : Modifier → Bool} (h : KeyToken m key) :
    normalizeKeyChord m (renderChord (modifierOrder.filter p) key) =
      if (renderChord (modifierOrder.filter p) key).length > maxKeyBindingLength then none
      else if p .mod = true ∧ (p .cmd = true ∨ p .ctrl = true) then none
      else (normalizedKey m key).map (renderChord (modifierOrder.filter p)) := by
  have hnodup : (modifierOrder.filter p).Nodup := List.Nodup.filter _ (by decide)
  have hcollect := @collectModifiers_names m _ [] hnodup (by simp)
  have hfull : ((modifierOrder.filter p).map Modifier.name).filter (!·.isEmpty) =
      (modifierOrder.filter p).map Modifier.name := by
    refine filter_eq_self.mpr fun name hname => ?_
    obtain ⟨modifier, -, rfl⟩ := mem_map.mp hname
    simpa using (name_facts modifier).1
  have hraw : (if key = [hyphen] then [hyphen]
      else ((renderChord (modifierOrder.filter p) key).splitOn hyphen).getLast?.getD []) = key := by
    split
    · exact Eq.symm ‹_›
    rename_i hkey
    rw [splitOn_render h, if_neg hkey]
    simp
  have hsegments : (if key = [hyphen] then
      ((renderChord (modifierOrder.filter p) key).splitOn hyphen).filter (!·.isEmpty)
      else ((renderChord (modifierOrder.filter p) key).splitOn hyphen).dropLast) =
        (modifierOrder.filter p).map Modifier.name := by
    rw [splitOn_render h]
    split
    · rw [filter_append, hfull]
      simp
    · simp
  have hblank : (renderChord (modifierOrder.filter p) key).any isSpace = false := by
    simpa using renderChord_dense h
  have hmem : ∀ x, x ∈ (modifierOrder.filter p).reverse ++ [] ↔ p x = true := by
    intro x
    have horder : x ∈ modifierOrder := by cases x <;> decide
    simp [horder]
  simp only [normalizeKeyChord, trim_of_dense (renderChord_dense h), renderChord_getLast h, hraw,
    hsegments, hcollect, hblank, renderChord_ne_nil h, h.nonempty, hmem, if_false, false_or,
    or_false, Bool.false_eq_true, Bool.decide_eq_true]
  rfl

theorem normalizeKeyChord_stable {p : Modifier → Bool} {chord : Units} (h : KeyToken m key)
    (hchord : normalizeKeyChord m (renderChord (modifierOrder.filter p) key) = some chord) :
    chord = renderChord (modifierOrder.filter p) key := by
  rw [normalizeKeyChord_render h] at hchord
  split at hchord
  · cases hchord
  split at hchord
  · cases hchord
  obtain ⟨key', hkey', rfl⟩ := Option.map_eq_some_iff.mp hchord
  rcases h.again with hdotted | hagain
  · rw [hdotted, normalizedKey_dotted] at hkey'
    cases hkey'
  · rw [Option.some.inj (hkey'.symm.trans hagain)]

end Chords

end Yaade.Keymap

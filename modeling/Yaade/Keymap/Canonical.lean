import Yaade.Keymap.Grammar

/-!
The normal form of chords as a canonical form: when a text and its normal form
are read alike, by the compiler and by the classification of bindings.
-/

namespace Yaade.Keymap

open Yaade.Library.Utf16 List

variable {m : CaseMapping} {value other chord key : Units}

def HasModifier (m : CaseMapping) (value : Units) (x : Modifier) : Prop :=
  ∃ segment ∈ modifierSegments value, modifierNamed (m.lower segment) = some x

/-- Texts with the same set of modifiers, and the same key up to letter case. -/
structure SameChord (m : CaseMapping) (value other : Units) : Prop where
  modifiers : ∀ x, HasModifier m value x ↔ HasModifier m other x
  key : m.lower (rawKey value) = m.lower (rawKey other)

theorem mem_collectModifiers {seen modifiers : List Modifier} {segments : List Units}
    (h : collectModifiers m seen segments = some modifiers) (x : Modifier) :
    x ∈ modifiers ↔ x ∈ seen ∨ ∃ segment ∈ segments, modifierNamed (m.lower segment) = some x := by
  induction segments generalizing seen with
  | nil =>
    cases h
    simp
  | cons segment rest ih =>
    rw [collectModifiers] at h
    split at h
    · cases h
    rename_i modifier hmodifier
    split at h
    · cases h
    rw [ih h]
    simp only [mem_cons, exists_eq_or_imp, hmodifier, Option.some.injEq]
    grind

/-! ## Keys up to letter case -/

theorem upper_of_lower {text text' : Units} (hascii : isAscii text = true)
    (hascii' : isAscii text' = true) (h : m.lower text = m.lower text') :
    m.upper text = m.upper text' := by
  have hunit : ∀ unit : UInt16, asciiUpper (asciiLower unit) = asciiUpper unit := by
    intro unit
    unfold asciiLower
    split
    · rename_i hletter
      have h1 := UInt16.le_iff_toNat_le.mp hletter.1
      have h2 := UInt16.le_iff_toNat_le.mp hletter.2
      simp only [UInt16.reduceToNat] at h1 h2
      have hall : ∀ k < 26, asciiUpper (UInt16.ofNat (65 + k) + 32) =
          asciiUpper (UInt16.ofNat (65 + k)) := by decide
      obtain ⟨k, hk, rfl⟩ := @unit_between _ 65 26 h1 (by omega)
      exact hall k hk
    · rfl
  rw [m.lower_ascii _ hascii, m.lower_ascii _ hascii'] at h
  rw [m.upper_ascii _ hascii, m.upper_ascii _ hascii']
  have hmapped := congrArg (List.map asciiUpper) h
  simpa [Function.comp_def, hunit] using hmapped

variable {text : Units}

theorem isAscii_lower (hascii : isAscii text = true) : isAscii (m.lower text) = true := by
  rw [m.lower_ascii _ hascii, isAscii, all_map, all_eq_true]
  intro unit hunit
  have hless := all_eq_true.mp hascii unit hunit
  simpa using asciiLower_lt (by simpa using hless)

/-- A key of one unit has no name and is no function key, in any case. -/
theorem single_apart {unit : UInt16} (hspace : isSpace unit = false)
    (hlower : m.lower [unit] = m.lower text) :
    (namedKeys.find? fun entry => entry.1 = m.lower text) = none ∧
      isFunctionKey text = false := by
  have hshort : m.lower text = dottedI ∨ (m.lower text).length = 1 := by
    rw [← hlower]
    by_cases hhyphen : unit = hyphen
    · rw [hhyphen, m.lower_ascii _ (by decide)]
      exact .inr rfl
    rcases m.lower_single hspace hhyphen with ⟨small, hsmall, -⟩ | hdotted
    · exact .inr (by rw [hsmall]; rfl)
    · exact .inl hdotted
  have hlong : ∀ entry ∈ namedKeys, entry.1 ≠ dottedI ∧ entry.1.length ≠ 1 := by decide
  constructor
  · refine find?_eq_none.mpr fun entry hentry hsame => ?_
    rw [decide_eq_true_eq] at hsame
    rw [← hsame] at hshort
    exact hshort.elim (hlong entry hentry).1 (hlong entry hentry).2
  · by_contra hfunction
    rw [Bool.not_eq_false] at hfunction
    obtain ⟨hascii, hmem⟩ := upper_functionKey hfunction
    have hlengths : ∀ key ∈ functionKeys, 1 < key.length := by decide
    have hlength := hlengths _ hmem
    rcases hshort with hdotted | hone
    · have hlow := isAscii_lower (m := m) hascii
      rw [hdotted] at hlow
      cases hlow
    · rw [m.lower_ascii _ hascii, length_map] at hone
      rw [length_map] at hlength
      omega

theorem normalizedKey_case {text text' key' : Units} (hdense : ∀ unit ∈ text, isSpace unit = false)
    (hdense' : ∀ unit ∈ text', isSpace unit = false) (h : normalizedKey m text = some key)
    (h' : normalizedKey m text' = some key') (hlower : m.lower text = m.lower text') :
    key = key' := by
  simp only [normalizedKey, trim_of_dense hdense] at h
  simp only [normalizedKey, trim_of_dense hdense'] at h'
  split at h
  · rename_i hone
    obtain ⟨unit, rfl⟩ := length_eq_one_iff.mp hone.1
    obtain ⟨hnamed, hfunction⟩ := single_apart (hdense unit mem_cons_self) hlower
    split at h'
    · exact (Option.some.inj h).symm.trans (hlower.trans (Option.some.inj h'))
    · rw [hnamed, hfunction] at h'
      cases h'
  · split at h'
    · rename_i hone
      obtain ⟨unit, rfl⟩ := length_eq_one_iff.mp hone.1
      obtain ⟨hnamed, hfunction⟩ := single_apart (hdense' unit mem_cons_self) hlower.symm
      rw [hnamed, hfunction] at h
      cases h
    · rw [← hlower] at h'
      cases hnamed : namedKeys.find? fun entry => entry.1 = m.lower text with
      | some entry =>
        rw [hnamed] at h h'
        exact (Option.some.inj h).symm.trans (Option.some.inj h')
      | none =>
        simp only [hnamed] at h h'
        split at h
        · rename_i hfunction
          split at h'
          · rename_i hfunction'
            rw [← Option.some.inj h, ← Option.some.inj h']
            exact upper_of_lower (upper_functionKey hfunction).1 (upper_functionKey hfunction').1
              hlower
          · cases h'
        · cases h

/-! ## Canonical chords -/

theorem normalizeKeyChord_same {chord' : Units} (h : normalizeKeyChord m value = some chord)
    (h' : normalizeKeyChord m other = some chord') (hsame : SameChord m value other) :
    chord = chord' := by
  obtain ⟨hdense, modifiers, key, hmodifiers, hkey, rfl, -⟩ := normalizeKeyChord_reads h
  obtain ⟨hdense', modifiers', key', hmodifiers', hkey', rfl, -⟩ := normalizeKeyChord_reads h'
  have hmem : ∀ x, x ∈ modifiers ↔ x ∈ modifiers' := by
    intro x
    rw [mem_collectModifiers hmodifiers, mem_collectModifiers hmodifiers']
    simpa [HasModifier] using hsame.modifiers x
  rw [normalizedKey_case hdense hdense' hkey hkey' hsame.key]
  simp only [hmem]

/-- A key is the lower case of one unit, or one of the tables. -/
theorem normalizedKey_cases (hdense : ∀ unit ∈ text, isSpace unit = false)
    (h : normalizedKey m text = some key) : (∃ unit, text = [unit] ∧ key = m.lower [unit]) ∨
      key ∈ namedKeys.map (·.2) ++ functionKeys ∧ m.lower text ≠ dottedI ∧ text ≠ [hyphen] := by
  simp only [normalizedKey, trim_of_dense hdense] at h
  split at h
  · rename_i hone
    obtain ⟨unit, rfl⟩ := length_eq_one_iff.mp hone.1
    exact .inl ⟨unit, rfl, (Option.some.inj h).symm⟩
  rename_i hlong
  have hhyphen : text ≠ [hyphen] := by
    rintro rfl
    exact hlong ⟨rfl, by decide⟩
  refine .inr ?_
  split at h
  · rename_i entry hentry
    have hnamed : ∀ entry ∈ namedKeys, entry.1 ≠ dottedI := by decide
    have hmem := mem_of_find?_eq_some hentry
    have hlower := find?_some hentry
    rw [decide_eq_true_eq] at hlower
    cases h
    exact ⟨mem_append_left _ (mem_map.mpr ⟨entry, hmem, rfl⟩), hlower ▸ hnamed entry hmem, hhyphen⟩
  · split at h
    · rename_i hfunction
      obtain ⟨hascii, hmem⟩ := upper_functionKey hfunction
      cases h
      rw [m.upper_ascii _ hascii]
      refine ⟨mem_append_right _ hmem, fun hdotted => ?_, hhyphen⟩
      have hlow := isAscii_lower (m := m) hascii
      rw [hdotted] at hlow
      cases hlow
    · cases h

theorem key_exceptions (hdense : ∀ unit ∈ text, isSpace unit = false)
    (h : normalizedKey m text = some key) :
    (key = [hyphen] ↔ text = [hyphen]) ∧ (key = dottedI ↔ m.lower text = dottedI) := by
  rcases normalizedKey_cases hdense h with ⟨unit, rfl, rfl⟩ | ⟨hmem, hdotted, hhyphen⟩
  · refine ⟨⟨fun hlower => ?_, fun hunit => ?_⟩, Iff.rfl⟩
    · by_contra hother
      have hne : unit ≠ hyphen := fun hunit => hother (by rw [hunit])
      rcases m.lower_single (hdense unit mem_cons_self) hne with
        ⟨small, hsmall, -, hapart, -⟩ | hdotted
      · rw [hsmall] at hlower
        exact hapart (head_eq_of_cons_eq hlower)
      · rw [hdotted] at hlower
        cases hlower
    · rw [hunit, m.lower_ascii _ (by decide)]
      rfl
  · have htable : ∀ key ∈ namedKeys.map (·.2) ++ functionKeys, key ≠ [hyphen] ∧ key ≠ dottedI := by
      decide
    exact ⟨iff_of_false (htable key hmem).1 hhyphen, iff_of_false (htable key hmem).2 hdotted⟩

theorem renderChord_short (h : KeyToken m key) (p : Modifier → Bool) :
    (renderChord (modifierOrder.filter p) key).length ≤ maxKeyBindingLength := by
  have hall : (modifierOrder.flatMap fun x => x.name ++ [hyphen]).length = 23 := by decide
  have hsub : (modifierOrder.filter p).Sublist modifierOrder := filter_sublist
  have hsome := (hsub.flatMap fun x => x.name ++ [hyphen]).length_le
  have hkey := h.short
  rw [renderChord_eq, length_append]
  rw [hall] at hsome
  unfold maxKeyBindingLength
  omega

/-! ## Classification -/

section Classify

variable {kind : BindingKind} {platform : KeymapPlatform}

/-- Only the normal form counts. -/
theorem classifyKeyBinding_congr (h : normalizeKeyChord m value = normalizeKeyChord m other)
    (kind : BindingKind) (platform : KeymapPlatform) :
    classifyKeyBinding m value kind platform = classifyKeyBinding m other kind platform := by
  cases kind <;>
    simp only [classifyKeyBinding, classifyChord, classifyPrefixKey, normalizePrefixKey, h]

theorem classifyPrimary_unavailable {parts : ChordParts}
    (hprimary : isPrimaryModifier parts.modifiers platform = true)
    (hkey : parts.key ∈ primaryUnavailableKeys) :
    (classifyPrimary chord parts kind platform).risk = .osUnavailable := by
  unfold classifyPrimary
  split
  · rfl
  · rw [if_pos ⟨hprimary, hkey⟩]

theorem classifyKeyBinding_unavailable (h : normalizeKeyChord m value = some chord)
    (hprimary : isPrimaryModifier (chordParts chord).modifiers platform = true)
    (hkey : (chordParts chord).key ∈ primaryUnavailableKeys) (kind : BindingKind) :
    (classifyKeyBinding m value kind platform).risk ≠ .safe ∧
      (classifyKeyBinding m value kind platform).risk ≠ .browserRisky := by
  have hrisk : ∀ kind,
      (classifyPrimary chord (chordParts chord) kind platform).risk = .osUnavailable :=
    fun _ => classifyPrimary_unavailable hprimary hkey
  cases kind with
  | leader | direct =>
    simp only [classifyKeyBinding, classifyChord, h]
    repeat' split
    all_goals simp [hrisk]
  | prefixKey =>
    have hnone : normalizePrefixKey m value = none := by
      simp only [normalizePrefixKey, h]
      refine if_pos (.inr ?_)
      have hapart : ∀ x ∈ [Modifier.mod, .cmd, .ctrl], (x.name != Modifier.shift.name) = true := by
        decide
      simp only [isPrimaryModifier, Bool.or_eq_true, contains_iff_mem] at hprimary
      rcases hprimary with hmod | hother
      · exact any_eq_true.mpr ⟨_, hmod, hapart .mod (by decide)⟩
      split at hother
      · exact any_eq_true.mpr ⟨_, contains_iff_mem.mp hother, hapart .cmd (by decide)⟩
      · exact any_eq_true.mpr ⟨_, contains_iff_mem.mp hother, hapart .ctrl (by decide)⟩
    simp [classifyKeyBinding, classifyPrefixKey, hnone]

theorem classifyKeyBinding_widget (h : normalizeKeyChord m value = some chord)
    (hkey : (chordParts chord).key ∈ widgetLocalKeys) (kind : BindingKind) :
    (classifyKeyBinding m value kind platform).risk = .widgetLocal := by
  cases kind with
  | leader | direct =>
    simp only [classifyKeyBinding, classifyChord, h]
    rw [if_pos hkey]
  | prefixKey =>
    have hnone : normalizePrefixKey m value = none := by
      simp only [normalizePrefixKey, h]
      split
      · rfl
      · rw [if_pos (.inl hkey)]
    simp [classifyKeyBinding, classifyPrefixKey, hnone]

end Classify

/-! ## The whole -/

/-- What the compiler reads out of a text, and out of its normal form. -/
structure ChordCanonical (m : CaseMapping) (value chord key : Units) : Prop where
  stable : normalizeKeyChord m chord = some chord
  same : ∀ other chord', normalizeKeyChord m other = some chord' → SameChord m value other →
    chord' = chord
  recovered : ∃ modifiers : List Modifier, modifiers.Nodup ∧
    (∀ x, x ∈ modifiers ↔ HasModifier m value x) ∧
      chordParts chord = ⟨modifiers.map Modifier.name, key⟩
  classified : ∀ other chord', normalizeKeyChord m other = some chord' → SameChord m value other →
    ∀ kind platform, classifyKeyBinding m other kind platform =
      classifyKeyBinding m value kind platform
  unavailable : ∀ kind platform, (HasModifier m value .mod ∨
      HasModifier m value (if platform = .mac then .cmd else .ctrl)) →
    key ∈ primaryUnavailableKeys → (classifyKeyBinding m value kind platform).risk ≠ .safe ∧
      (classifyKeyBinding m value kind platform).risk ≠ .browserRisky
  widget : ∀ kind platform, key ∈ widgetLocalKeys →
    (classifyKeyBinding m value kind platform).risk = .widgetLocal

/-- A text is read like its normal form unless its key is the hyphen or U+0130. -/
theorem chordCanonical_iff (h : normalizeKeyChord m value = some chord)
    (hkey : normalizedKey m (rawKey value) = some key) : ChordCanonical m value chord key ↔
      rawKey value ≠ [hyphen] ∧ m.lower (rawKey value) ≠ dottedI := by
  obtain ⟨hdense, modifiers, key', hmodifiers, hkey', hchord, hconflict⟩ :=
    normalizeKeyChord_reads h
  cases hkey.symm.trans hkey'
  have htoken : KeyToken m key := normalizedKey_token hdense hkey
  obtain ⟨hhyphen, hdotted⟩ := key_exceptions hdense hkey
  rw [Ne, Ne, ← hhyphen, ← hdotted]
  have hparts := @chordParts_render m key (modifierOrder.filter (· ∈ modifiers)) htoken
  rw [← hchord] at hparts
  constructor
  · intro hcanonical
    constructor
    · rintro rfl
      obtain ⟨names, -, -, hread⟩ := hcanonical.recovered
      have hempty := congrArg ChordParts.key (hparts.symm.trans hread)
      cases hempty
    · rintro rfl
      have hstable := hcanonical.stable
      rw [hchord, normalizeKeyChord_render htoken, normalizedKey_dotted] at hstable
      split at hstable
      · cases hstable
      · split at hstable <;> cases hstable
  · rintro ⟨hplain, hsingle⟩
    have hagain := htoken.again.resolve_left hsingle
    simp only [if_neg hplain, append_nil] at hparts
    have hmem : ∀ x, x ∈ modifierOrder.filter (· ∈ modifiers) ↔ HasModifier m value x := by
      intro x
      have horder : x ∈ modifierOrder := by cases x <;> decide
      rw [mem_filter, decide_eq_true_eq, mem_collectModifiers hmodifiers]
      simp [HasModifier, horder]
    have hnamed : ∀ x : Modifier, (chordParts chord).modifiers.contains x.name = true ↔
        HasModifier m value x := by
      intro x
      have hcont := contains_name (modifierOrder.filter (· ∈ modifiers)) [] (by simp) x
      rw [append_nil] at hcont
      rw [hparts, hcont, decide_eq_true_eq, hmem]
    refine ⟨?_, ?_, ⟨_, List.Nodup.filter _ (by decide), hmem, hparts⟩, ?_, ?_, ?_⟩
    · rw [hchord, normalizeKeyChord_render htoken,
        if_neg (Nat.not_lt_of_le (renderChord_short htoken _)),
        if_neg (by simpa using hconflict), hagain]
      rfl
    · exact fun other chord' hother hsame => (normalizeKeyChord_same h hother hsame).symm
    · intro other chord' hother hsame kind platform
      refine classifyKeyBinding_congr ?_ kind platform
      rw [hother, h, normalizeKeyChord_same h hother hsame]
    · intro kind platform hprimary hunav
      refine classifyKeyBinding_unavailable h ?_ (by rw [hparts]; exact hunav) kind
      unfold isPrimaryModifier
      rw [Bool.or_eq_true, hnamed]
      refine hprimary.imp_right fun hother => ?_
      split <;> rename_i hmac
      · rw [if_pos hmac] at hother
        exact (hnamed _).mpr hother
      · rw [if_neg hmac] at hother
        exact (hnamed _).mpr hother
    · intro kind platform hwidget
      exact classifyKeyBinding_widget h (by rw [hparts]; exact hwidget) kind

theorem chordCanonical_upper : normalizeKeyChord .ascii (units "shift-META-K") =
      some (units "Cmd-Shift-k") ∧
    (ChordCanonical .ascii (units "shift-META-K") (units "Cmd-Shift-k") (units "k") ↔
      rawKey (units "shift-META-K") ≠ [hyphen] ∧
        CaseMapping.ascii.lower (rawKey (units "shift-META-K")) ≠ dottedI) :=
  ⟨by decide, chordCanonical_iff (by decide) (by decide)⟩

/-- `Mod--` is the primary modifier with a key that the browser keeps, and the
compiler takes it for a chord that only needs a confirmation. -/
theorem hyphen_not_canonical :
    ¬ ∀ (m : CaseMapping) (value chord key : Units), normalizeKeyChord m value = some chord →
      normalizedKey m (rawKey value) = some key → ChordCanonical m value chord key := by
  intro hclaim
  have hcanonical := hclaim .ascii (units "Mod--") (units "Mod--") (units "-") (by decide)
    (by decide)
  have hprimary : HasModifier .ascii (units "Mod--") .mod :=
    ⟨units "Mod", by decide, by decide⟩
  have hrisk : (classifyKeyBinding .ascii (units "Mod--") .direct .mac).risk = .browserRisky := by
    decide
  exact (hcanonical.unavailable .direct .mac (.inl hprimary) (by decide)).2 hrisk

end Yaade.Keymap

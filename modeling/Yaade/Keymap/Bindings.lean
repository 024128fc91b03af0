import Yaade.Keymap.Grammar

/-!
What the compiler has checked of a keymap that it accepts: the shape of the
leader and of every binding, and that no two bindings have the same key.
-/

namespace Yaade.Keymap

open Yaade.Library.Utf16 List Option

/-! ## Tables -/

theorem keyTable_ok {seen : List (Units × CommandId)}
    {entries : List (Units × CommandId × Units)} (hseen : (seen.map (·.1)).Nodup)
    (h : (keyTable seen entries).2 = []) : (seen.map (·.1) ++ entries.map (·.1)).Nodup ∧
      (keyTable seen entries).1 = seen ++ entries.map fun entry => (entry.1, entry.2.1) := by
  induction entries generalizing seen with
  | nil => simpa [keyTable] using hseen
  | cons entry rest ih =>
    obtain ⟨key, command, shown⟩ := entry
    rw [keyTable] at h ⊢
    split at h
    · cases h
    rename_i hnone
    have hnew : key ∉ seen.map (·.1) := by
      intro hmem
      obtain ⟨previous, hprev, hkey⟩ := List.mem_map.mp hmem
      exact absurd hkey (by simpa using find?_eq_none.mp hnone previous hprev)
    have hgrown : ((seen ++ [(key, command)]).map (·.1)).Nodup := by
      rw [map_append, nodup_append]
      refine ⟨hseen, by simp, ?_⟩
      rintro a ha b hb rfl
      exact hnew (by simpa [mem_singleton.mp hb] using ha)
    obtain ⟨hnodup, htable⟩ := ih hgrown h
    exact ⟨by simpa using hnodup, by simpa using htable⟩

theorem overridesByCommand_ok {seen overrides : List KeymapOverride}
    (hseen : (seen.map (·.command)).Nodup) (h : (overridesByCommand seen overrides).2 = []) :
    ((seen ++ overrides).map (·.command)).Nodup ∧
      (overridesByCommand seen overrides).1 = seen ++ overrides := by
  induction overrides generalizing seen with
  | nil => simpa [overridesByCommand] using hseen
  | cons override rest ih =>
    rw [overridesByCommand] at h ⊢
    split at h
    · cases h
    rename_i hnone
    rw [if_neg hnone]
    have hgrown : ((seen ++ [override]).map (·.command)).Nodup := by
      rw [map_append, nodup_append]
      refine ⟨hseen, by simp, ?_⟩
      rintro a ha b hb rfl
      obtain ⟨previous, hprev, hcommand⟩ := List.mem_map.mp ha
      have hsame : a = override.command := by simpa using hb
      refine hnone (List.any_eq_true.mpr ⟨previous, hprev, ?_⟩)
      simpa [hsame] using hcommand
    obtain ⟨hnodup, htable⟩ := ih hgrown h
    exact ⟨by simpa using hnodup, by simpa using htable⟩

/-! ## An accepted keymap -/

def isOverridden (profile : KeymapProfile) (command : CommandId) : Bool :=
  profile.bindings.any (·.command = command)

/-- A keymap that was compiled without a conflict. -/
structure Compiled (m : CaseMapping) (defaults : KeymapCatalog) (profile : KeymapProfile)
    (platform : KeymapPlatform) (keymap : EffectiveKeymap) : Prop where
  leader : normalizeKeyChord m profile.leader = some keymap.leader
  leaderFree : leaderConflicts m profile platform = []
  distinct : (profile.bindings.map (·.command)).Nodup
  accepted : ∀ override ∈ profile.bindings,
    (overrideOutcome m platform override).conflict? = none
  prefixBindings : keymap.prefixBindings =
    defaults.prefixBindings.filter (!isOverridden profile ·.command) ++
      profile.bindings.filterMap fun override => (overrideOutcome m platform override).prefixed?
  directBindings : keymap.directBindings =
    defaults.directBindings.filter (!isOverridden profile ·.command) ++
      profile.bindings.filterMap fun override => (overrideOutcome m platform override).direct?
  prefixKeys : (keymap.prefixBindings.map (prefixKeyOf m)).Nodup
  directKeys : (keymap.directBindings.map (directKeyOf m platform)).Nodup
  unambiguous : ∀ binding ∈ keymap.directBindings,
    directKeyOf m platform binding ≠ canonicalChordForPlatform keymap.leader platform
  required : ∀ command ∈ requiredCommands,
    (∃ binding ∈ keymap.prefixBindings, binding.command = command) ∨
      ∃ binding ∈ keymap.directBindings, binding.command = command

theorem compileKeymap_ok {m : CaseMapping} {defaults : KeymapCatalog} {profile : KeymapProfile}
    {platform : KeymapPlatform} {keymap : EffectiveKeymap}
    (h : compileKeymap m defaults profile platform = .ok keymap) :
    Compiled m defaults profile platform keymap := by
  simp only [compileKeymap] at h
  split at h
  · rename_i leader hconflicts hleader
    cases h
    simp only [append_eq_nil_iff] at hconflicts
    obtain ⟨⟨⟨⟨⟨⟨⟨-, hleaderFree⟩, hduplicates⟩, hacc⟩, htagged⟩, hdirect⟩, hambiguous⟩,
      hrequired⟩ := hconflicts
    obtain ⟨hdist, htable⟩ := overridesByCommand_ok (by simp) hduplicates
    simp only [nil_append] at hdist htable
    rw [htable] at hacc htagged hdirect hambiguous hrequired
    rw [htable]
    obtain ⟨hprefixKeys, -⟩ := keyTable_ok (by simp) htagged
    obtain ⟨hdirectKeys, hdirectTable⟩ := keyTable_ok (by simp) hdirect
    refine ⟨hleader, hleaderFree, hdist, ?_, ?_, ?_, ?_, ?_, ?_, ?_⟩
    · intro override hoverride
      have hnone := filterMap_eq_nil_iff.mp hacc _
        (mem_map_of_mem (f := overrideOutcome m platform) hoverride)
      exact hnone
    · simp [List.filterMap_map, isOverridden]
    · simp [List.filterMap_map, isOverridden]
    · simpa [Function.comp_def] using hprefixKeys
    · simpa [Function.comp_def] using hdirectKeys
    · intro binding hbinding hsame
      rw [hdirectTable, hleader] at hambiguous
      simp only [ambiguityConflicts] at hambiguous
      split at hambiguous
      · rename_i hnone
        have hother := find?_eq_none.mp hnone (directKeyOf m platform binding, binding.command) ?_
        · simp [hsame] at hother
        · simp only [nil_append, List.map_map, List.mem_map]
          exact ⟨binding, hbinding, rfl⟩
      · cases hambiguous
    · intro command hcommand
      have hnone := flatMap_eq_nil_iff.mp hrequired command hcommand
      split at hnone
      · rename_i hreachable
        rw [Bool.or_eq_true, List.any_eq_true, List.any_eq_true] at hreachable
        simpa using hreachable
      · cases hnone
  · cases h

/-! ## Leaders -/

section Shapes

variable {m : CaseMapping} {platform : KeymapPlatform}

/-- A leader is the primary modifier or Ctrl with a letter. -/
structure LeaderChord (m : CaseMapping) (leader : Units) (modifier : Modifier) (letter : UInt16) :
    Prop where
  shown : leader = renderChord [modifier] [letter]
  modifier : modifier = .mod ∨ modifier = .ctrl
  lower : m.lower [letter] = [letter]
  blank : isSpace letter = false

theorem isLeaderChord_shape {chord : Units} (h : isLeaderChord chord = true) :
    ∃ modifier letter, LeaderChord m chord modifier letter := by
  have hletter : ∀ letter : UInt16, (97 ≤ letter && letter ≤ 122) = true →
      m.lower [letter] = [letter] ∧ isSpace letter = false := by
    intro letter hrange
    simp only [Bool.and_eq_true, decide_eq_true_eq] at hrange
    have h1 := UInt16.le_iff_toNat_le.mp hrange.1
    have h2 := UInt16.le_iff_toNat_le.mp hrange.2
    simp only [UInt16.reduceToNat] at h1 h2
    obtain ⟨k, hk, rfl⟩ := @unit_between _ 97 26 h1 (by omega)
    have hall : ∀ k < 26, isAscii [UInt16.ofNat (97 + k)] = true ∧
        [UInt16.ofNat (97 + k)].map asciiLower = [UInt16.ofNat (97 + k)] ∧
          isSpace (UInt16.ofNat (97 + k)) = false := by
      decide
    obtain ⟨hascii, hlower, hspace⟩ := hall k hk
    exact ⟨(m.lower_ascii _ hascii).trans hlower, hspace⟩
  unfold isLeaderChord at h
  split at h
  · rename_i letter
    obtain ⟨hlower, hspace⟩ := hletter letter h
    exact ⟨.mod, letter, rfl, .inl rfl, hlower, hspace⟩
  · rename_i letter
    obtain ⟨hlower, hspace⟩ := hletter letter h
    exact ⟨.ctrl, letter, rfl, .inr rfl, hlower, hspace⟩
  · cases h

theorem Compiled.leaderChord {defaults : KeymapCatalog} {profile : KeymapProfile}
    {keymap : EffectiveKeymap} (h : Compiled m defaults profile platform keymap) :
    ∃ modifier letter, LeaderChord m keymap.leader modifier letter := by
  have hfree := h.leaderFree
  have hshape := normalizeKeyChord_shape h.leader
  obtain ⟨p, key, hkey, hchord, -⟩ := hshape
  simp only [leaderConflicts, h.leader] at hfree
  have hrisk : (classifyChord m keymap.leader .leader platform).risk = .safe ∨
      (classifyChord m keymap.leader .leader platform).risk = .browserRisky := by
    split at hfree
    · cases hfree
    split at hfree
    · cases hfree
    rename_i hrefused
    by_contra hneither
    exact hrefused ⟨fun hsafe => hneither (.inl hsafe), fun hrisky => hneither (.inr hrisky)⟩
  cases hnormal : normalizeKeyChord m keymap.leader with
  | none =>
    rw [classifyChord, hnormal] at hrisk
    rcases hrisk with habs | habs <;> cases habs
  | some normalized =>
    have hsame : normalized = keymap.leader := by
      rw [hchord] at hnormal ⊢
      exact normalizeKeyChord_stable hkey hnormal
    rw [classifyChord, hnormal, hsame] at hrisk
    simp only [if_true] at hrisk
    split at hrisk
    · rcases hrisk with habs | habs <;> cases habs
    split at hrisk
    · rcases hrisk with habs | habs <;> cases habs
    · rename_i hleader
      exact isLeaderChord_shape (by simpa using hleader)

/-! ## Direct bindings -/

def shiftPart (shift : Bool) : List Modifier := if shift then [.shift] else []

/-- A direct chord is the primary modifier, with or without Shift, and a key. -/
structure DirectChord (m : CaseMapping) (platform : KeymapPlatform) (chord : Units)
    (primary : Modifier) (shift : Bool) (key : Units) : Prop where
  token : KeyToken m key
  shown : chord = renderChord (primary :: shiftPart shift) key
  primary : primary = .mod ∨ (platform = .mac ∧ primary = .cmd)
  normal : normalizeKeyChord m chord = some chord

theorem classifyPrimary_cmd {normalized : Units} {parts : ChordParts} {kind : BindingKind}
    (h : (classifyPrimary normalized parts kind platform).risk = .safe ∨
      (classifyPrimary normalized parts kind platform).risk = .browserRisky) :
    ¬ (parts.modifiers.contains Modifier.cmd.name ∧ platform ≠ .mac) := by
  intro hcmd
  rw [classifyPrimary, if_pos hcmd] at h
  rcases h with habs | habs <;> cases habs

theorem classifyChord_direct {part chord : Units} (hchord : normalizeKeyChord m part = some chord)
    (hrisk : (classifyChord m chord .direct platform).risk = .safe ∨
      (classifyChord m chord .direct platform).risk = .browserRisky) :
    ∃ primary shift key, DirectChord m platform chord primary shift key := by
  obtain ⟨p, key, hkey, hshown, hexcl⟩ := normalizeKeyChord_shape hchord
  cases hnormal : normalizeKeyChord m chord with
  | none =>
    rw [classifyChord, hnormal] at hrisk
    rcases hrisk with habs | habs <;> cases habs
  | some normalized =>
    have hsame : normalized = chord := by
      rw [hshown] at hnormal ⊢
      exact normalizeKeyChord_stable hkey hnormal
    have hcont : ∀ x, ((chordParts chord).modifiers.contains x.name) = p x := by
      intro x
      rw [hshown, chordParts_render hkey]
      rw [contains_name _ _ (by split <;> simp)]
      have horder : x ∈ modifierOrder := by cases x <;> decide
      rw [Bool.eq_iff_iff, decide_eq_true_eq, mem_filter]
      exact ⟨fun hmem => hmem.2, fun hp => ⟨horder, hp⟩⟩
    rw [classifyChord, hnormal, hsame] at hrisk
    simp only [reduceCtorEq, if_false] at hrisk
    split at hrisk
    · rcases hrisk with habs | habs <;> cases habs
    split at hrisk
    · rcases hrisk with habs | habs <;> cases habs
    split at hrisk
    · rcases hrisk with habs | habs <;> cases habs
    rename_i hreserved
    have hcmd := classifyPrimary_cmd hrisk
    simp only [isPrimaryModifier, hcont, not_or, Bool.not_eq_true, not_and] at hreserved hcmd
    obtain ⟨hprimary, halt, hctrl⟩ := hreserved
    have hnormal' : normalizeKeyChord m chord = some chord := by rw [hnormal, hsame]
    cases hmod : p .mod with
    | true =>
      have hcmdOff : p .cmd = false := by
        by_contra hon
        exact hexcl ⟨hmod, .inl (by simpa using hon)⟩
      have hctrlOff : p .ctrl = false := by
        by_contra hon
        exact hexcl ⟨hmod, .inr (by simpa using hon)⟩
      refine ⟨.mod, p .shift, key, hkey, ?_, .inl rfl, hnormal'⟩
      rw [hshown]
      congr 1
      cases hshift : p .shift <;>
        simp [modifierOrder, hmod, hcmdOff, hctrlOff, halt, hshift, shiftPart]
    | false =>
      have hctrlOff : p .ctrl = false := by
        by_contra hon
        have := hctrl (by simpa using hon)
        simp [hmod] at this
      have hmac : platform = .mac ∧ p .cmd = true := by
        by_cases hplatform : platform = .mac
        · simpa [hmod, hplatform] using hprimary
        · simp [hmod, hplatform, hctrlOff] at hprimary
      refine ⟨.cmd, p .shift, key, hkey, ?_, .inr ⟨hmac.1, rfl⟩, hnormal'⟩
      rw [hshown]
      congr 1
      cases hshift : p .shift <;>
        simp [modifierOrder, hmod, hmac.2, hctrlOff, halt, hshift, shiftPart]

theorem DirectChord.ofUnit {unit : UInt16} (hlower : m.lower [unit] = [unit])
    (hspace : isSpace unit = false) (shift : Bool) :
    DirectChord m platform (renderChord (.mod :: shiftPart shift) [unit]) .mod shift [unit] := by
  have htoken : KeyToken m [unit] := .unit hlower hspace
  have hnormal : normalizedKey m [unit] = some [unit] :=
    htoken.again.resolve_left nofun
  refine ⟨htoken, rfl, .inl rfl, ?_⟩
  have hmodifiers : Modifier.mod :: shiftPart shift =
      modifierOrder.filter fun x => x = .mod || (shift && x = .shift) := by
    cases shift <;> rfl
  rw [hmodifiers, normalizeKeyChord_render htoken, if_neg, if_neg (by cases shift <;> decide), hnormal]
  · rfl
  · rw [renderChord_eq]
    cases shift <;> simp [modifierOrder, Modifier.name, units, maxKeyBindingLength]

theorem defaultDirectChord {binding : DirectBinding} (h : binding ∈ muxSessionDirectBindings) :
    ∃ primary shift key, DirectChord m platform binding.key primary shift key := by
  have hkeys : muxSessionDirectBindings.all (fun binding => [(100 : UInt16), 98, 44].any fun unit =>
      (isAscii [unit] && [unit].map asciiLower == [unit] && !isSpace unit) &&
        [true, false].any fun shift =>
          binding.key == renderChord (.mod :: shiftPart shift) [unit]) = true := by
    decide
  obtain ⟨unit, -, hunit⟩ := List.any_eq_true.mp (List.all_eq_true.mp hkeys binding h)
  simp only [Bool.and_eq_true, beq_iff_eq, Bool.not_eq_true', List.any_eq_true] at hunit
  obtain ⟨⟨⟨hascii, hlower⟩, hspace⟩, shift, -, hkey⟩ := hunit
  rw [← m.lower_ascii _ hascii] at hlower
  rw [hkey]
  exact ⟨_, _, _, .ofUnit hlower hspace shift⟩

/-! ## Prefix bindings -/

/-- The key of a prefix binding: one unit in lower case, or Shift and a unit. -/
inductive PrefixKey (m : CaseMapping) : Units → Prop where
  | plain (unit : UInt16) (hlower : m.lower [unit] = [unit]) : PrefixKey m [unit]
  | shifted (unit : UInt16) : PrefixKey m (units "Shift-" ++ m.upper [unit])

theorem normalizePrefixKey_shape {value key : Units} (h : normalizePrefixKey m value = some key) :
    PrefixKey m key := by
  unfold normalizePrefixKey at h
  split at h
  · cases h
  rename_i chord hchord
  obtain ⟨p, token, htoken, rfl, -⟩ := normalizeKeyChord_shape hchord
  simp only [chordParts_render htoken] at h
  by_cases hhyphen : token = [hyphen]
  · simp [hhyphen] at h
  simp only [if_neg hhyphen, append_nil] at h
  split at h
  · cases h
  split at h
  · cases h
  rename_i hlength
  simp only [not_or, ne_eq, not_not] at hlength
  obtain ⟨unit, hunit⟩ := length_eq_one_iff.mp hlength.2
  have hbound := htoken.bound
  rw [hunit] at h hbound
  have hlower : m.lower [unit] = [unit] := by
    rw [normalizeBindingKey] at hbound
    split at hbound
    · rename_i hquote
      have hnine : (units "Backquote").length = 9 := by decide
      rw [← hquote] at hnine
      cases hnine
    · rwa [if_pos length_singleton] at hbound
  split at h
  · cases h
    exact .plain unit hlower
  · cases h
    exact .shifted unit

theorem leaderTag_blank : ∃ unit ∈ leaderTag, isSpace unit = true :=
  ⟨32, by decide, by decide⟩

theorem normalizeKeySequence_shape {value sequence : Units}
    (h : normalizeKeySequence m value = some sequence) :
    (¬ leaderTag <+: sequence ∧ ∃ part, normalizeKeyChord m part = some sequence) ∨
      ∃ key, sequence = leaderTag ++ key ∧ PrefixKey m key := by
  simp only [normalizeKeySequence] at h
  split at h
  · cases h
  split at h
  · rename_i part _
    refine .inl ⟨?_, part, h⟩
    obtain ⟨p, key, hkey, rfl, -⟩ := normalizeKeyChord_shape h
    intro htagged
    obtain ⟨unit, hunit, hspace⟩ := leaderTag_blank
    rw [renderChord_dense hkey unit (htagged.subset hunit)] at hspace
    cases hspace
  · split at h
    · cases h
    obtain ⟨key, hkey, rfl⟩ := map_eq_some_iff.mp h
    exact .inr ⟨key, rfl, normalizePrefixKey_shape hkey⟩
  · cases h

/-- What an override adds that causes no conflict. -/
inductive Adds (m : CaseMapping) (platform : KeymapPlatform) (override : KeymapOverride) :
    OverrideOutcome → Prop where
  | unbound (hbinding : override.binding = none) : Adds m platform override .unbound
  | prefixed (text : Units) (binding : PrefixBinding) (htext : override.binding = some text)
      (hseq : normalizeKeySequence m text = some (leaderTag ++ binding.key))
      (hkey : PrefixKey m binding.key) (hcommand : binding.command = override.command)
      (hrange : binding.keyRange = false) : Adds m platform override (.prefixed binding)
  | direct (text : Units) (binding : DirectBinding) (htext : override.binding = some text)
      (hseq : normalizeKeySequence m text = some binding.key)
      (htag : ¬ leaderTag <+: binding.key) (hcommand : binding.command = override.command)
      (hchord : ∃ primary shift key, DirectChord m platform binding.key primary shift key) :
      Adds m platform override (.direct binding)

theorem overrideOutcome_adds {override : KeymapOverride}
    (h : (overrideOutcome m platform override).conflict? = none) :
    override.command ≠ .settingsShow ∧
      Adds m platform override (overrideOutcome m platform override) := by
  unfold overrideOutcome at h ⊢
  by_cases hsettings : override.command = .settingsShow
  · rw [if_pos hsettings] at h
    cases h
  refine ⟨hsettings, ?_⟩
  rw [if_neg hsettings] at h ⊢
  cases hbinding : override.binding with
  | none => exact .unbound hbinding
  | some text =>
    simp only [hbinding] at h ⊢
    split at h
    · cases h
    rename_i hjump
    rw [if_neg hjump]
    split at h
    · cases h
    rename_i hlength
    rw [if_neg hlength]
    split at h
    · cases h
    rename_i sequence hseq
    rcases normalizeKeySequence_shape hseq with ⟨htag, part, hpart⟩ | ⟨key, rfl, hkey⟩
    · rw [if_neg htag] at h
      simp only [if_neg htag]
      unfold directOverride at h ⊢
      dsimp only at h ⊢
      split at h
      · cases h
      rename_i hrisky
      rw [if_neg hrisky]
      split at h
      · cases h
      rename_i hrefused
      rw [if_neg hrefused]
      refine .direct text _ hbinding hseq htag rfl (classifyChord_direct hpart ?_)
      by_contra hneither
      exact hrefused ⟨fun hsafe => hneither (.inl hsafe), fun hrisk => hneither (.inr hrisk)⟩
    · have htag : leaderTag <+: leaderTag ++ key := prefix_append _ _
      rw [if_pos htag] at h
      simp only [if_pos htag]
      unfold prefixOverride at h ⊢
      dsimp only at h ⊢
      split at h
      · cases h
      rename_i hsafe
      rw [if_neg hsafe]
      refine .prefixed text _ hbinding ?_ ?_ rfl rfl
      · rw [drop_left]
        exact hseq
      · rw [drop_left]
        exact hkey

def isDefaultPrefixKey (key : Units) : Bool :=
  match key with
  | [unit] => isAscii [unit] && [unit].map asciiLower == [unit]
  | _ => ((List.range 26).map fun k => UInt16.ofNat (97 + k)).any fun unit =>
    isAscii [unit] && key == units "Shift-" ++ [unit].map asciiUpper

theorem defaultPrefixKeys : muxSessionPrefixBindings.all
    (fun binding => binding.keyRange || isDefaultPrefixKey binding.key) = true := by
  decide

theorem defaultPrefixKey {binding : PrefixBinding} (h : binding ∈ muxSessionPrefixBindings) :
    binding.keyRange = true ∨ PrefixKey m binding.key := by
  have hcheck := List.all_eq_true.mp defaultPrefixKeys binding h
  rw [Bool.or_eq_true] at hcheck
  refine hcheck.imp_right fun hkey => ?_
  unfold isDefaultPrefixKey at hkey
  split at hkey
  · rename_i unit hsingle
    simp only [Bool.and_eq_true, beq_iff_eq] at hkey
    rw [hsingle]
    exact .plain unit ((m.lower_ascii _ hkey.1).trans hkey.2)
  · obtain ⟨unit, -, hunit⟩ := List.any_eq_true.mp hkey
    simp only [Bool.and_eq_true, beq_iff_eq] at hunit
    rw [hunit.2, ← m.upper_ascii _ hunit.1]
    exact .shifted unit

end Shapes

end Yaade.Keymap

import Yaade.Keymap.Bindings

/-!
Accepted keymaps against the event matcher: which key events match a chord,
where the bindings of a keymap come from, and that no key event without a code
matches two chords.
-/

namespace Yaade.Keymap

open Yaade.Library.Utf16 List

/-! ## Key events and chords -/

variable {m : CaseMapping} {platform : KeymapPlatform}

section Match

variable {key chord : Units}

def modifierDown (platform : KeymapPlatform) (modifier : Modifier) (e : KeyEvent) : Bool :=
  match modifier with
  | .mod => if platform = .mac then e.metaKey else e.ctrlKey && !e.metaKey
  | .cmd => e.metaKey
  | .ctrl => e.ctrlKey && !e.metaKey
  | _ => false

theorem matches_chord (h : KeyToken m key) {modifier : Modifier}
    (hmodifier : modifier = .mod ∨ modifier = .cmd ∨ modifier = .ctrl) (shift : Bool)
    (e : KeyEvent) :
    keyEventMatchesBinding m platform e (renderChord (modifier :: shiftPart shift) key) =
      (shift == e.shiftKey && !e.altKey && modifierDown platform modifier e &&
        eventKeyMatches m key e) := by
  have hpart : parseBindingKey (renderChord (modifier :: shiftPart shift) key) =
      [renderChord (modifier :: shiftPart shift) key] := by
    rw [parseBindingKey, trim_of_dense (renderChord_dense h),
      words_of_dense (renderChord_dense h) (renderChord_ne_nil h)]
  have hcont : ∀ x : Modifier, ((modifier :: shiftPart shift).map Modifier.name).contains
      x.name = decide (x ∈ modifier :: shiftPart shift) := by
    intro x
    have hname := contains_name (modifier :: shiftPart shift) [] (by simp) x
    rwa [append_nil] at hname
  simp only [keyEventMatchesBinding, hpart, keyEventMatchesBindingPart, parseKeyPart_render h,
    hcont]
  rcases hmodifier with rfl | rfl | rfl <;> cases shift <;> cases platform <;>
    simp [shiftPart, modifierDown]

theorem eventKeyMatches_plain (h : KeyToken m key) {e : KeyEvent} (hcode : e.code = []) :
    eventKeyMatches m key e = true ↔ normalizeBindingKey m e.key = key := by
  simp [eventKeyMatches, hcode, h.bound]

def press (platform : KeymapPlatform) (modifier : Modifier) (shift : Bool) (key : Units) :
    KeyEvent :=
  { key, code := []
    metaKey := modifier = .cmd || (modifier = .mod && platform = .mac)
    ctrlKey := modifier = .ctrl || (modifier = .mod && platform ≠ .mac)
    altKey := false, shiftKey := shift, repeated := false, isComposing := false }

theorem press_matches (h : KeyToken m key) {modifier : Modifier}
    (hmodifier : modifier = .mod ∨ modifier = .cmd ∨ modifier = .ctrl) (shift : Bool) :
    keyEventMatchesBinding m platform (press platform modifier shift key)
      (renderChord (modifier :: shiftPart shift) key) = true := by
  have hkey : eventKeyMatches m key (press platform modifier shift key) = true :=
    (eventKeyMatches_plain h rfl).mpr h.bound
  rw [matches_chord h hmodifier, hkey]
  rcases hmodifier with rfl | rfl | rfl <;> cases platform <;> simp [press, modifierDown]

def primaryName (platform : KeymapPlatform) : Units :=
  if platform = .mac then Modifier.cmd.name else Modifier.ctrl.name

variable {primary : Modifier} {shift : Bool}

theorem DirectChord.canonical (h : DirectChord m platform chord primary shift key) :
    canonicalChordForPlatform chord platform =
      joinHyphen (primaryName platform :: (shiftPart shift).map Modifier.name ++ [key]) := by
  rw [h.shown, canonical_render h.token]
  have hshift : ((shiftPart shift).map Modifier.name).map (resolveModifier platform) =
      (shiftPart shift).map Modifier.name := by
    cases shift
    · rfl
    · cases platform <;> decide
  rw [map_cons, map_cons, hshift]
  rcases h.primary with rfl | ⟨rfl, rfl⟩
  · rfl
  · rfl

theorem DirectChord.modifier (h : DirectChord m platform chord primary shift key) :
    primary = .mod ∨ primary = .cmd ∨ primary = .ctrl := by
  rcases h.primary with rfl | ⟨-, rfl⟩
  · exact .inl rfl
  · exact .inr (.inl rfl)

theorem DirectChord.of_matches {e : KeyEvent}
    (h : DirectChord m platform chord primary shift key) (hcode : e.code = [])
    (hmatches : keyEventMatchesBinding m platform e chord = true) :
    shift = e.shiftKey ∧ modifierDown platform primary e = true ∧
      key = normalizeBindingKey m e.key := by
  rw [h.shown, matches_chord h.token h.modifier] at hmatches
  simp only [Bool.and_eq_true, beq_iff_eq] at hmatches
  obtain ⟨⟨⟨hshift, -⟩, hdown⟩, hkey⟩ := hmatches
  exact ⟨hshift, hdown, ((eventKeyMatches_plain h.token hcode).mp hkey).symm⟩

variable {leader : Units} {letter : UInt16}

theorem LeaderChord.token {modifier : Modifier}
    (h : LeaderChord m leader modifier letter) : KeyToken m [letter] := .unit h.lower h.blank

theorem LeaderChord.cases {modifier : Modifier} (h : LeaderChord m leader modifier letter) :
    modifier = .mod ∨ modifier = .cmd ∨ modifier = .ctrl :=
  h.modifier.imp_right .inr

theorem LeaderChord.matches_iff {modifier : Modifier}
    (h : LeaderChord m leader modifier letter) (e : KeyEvent) :
    keyEventMatchesBinding m platform e leader =
      (false == e.shiftKey && !e.altKey && modifierDown platform modifier e &&
        eventKeyMatches m [letter] e) := by
  rw [h.shown]
  exact matches_chord h.token h.cases false e

theorem LeaderChord.same_as_direct {modifier primary : Modifier}
    {e : KeyEvent} (h : LeaderChord m leader modifier letter)
    (hdirect : DirectChord m platform chord primary shift key) (hcode : e.code = [])
    (hleader : keyEventMatchesBinding m platform e leader = true)
    (hmatches : keyEventMatchesBinding m platform e chord = true) :
    canonicalChordForPlatform chord platform = canonicalChordForPlatform leader platform := by
  obtain ⟨hshift, hdown, hkey⟩ := hdirect.of_matches hcode hmatches
  rw [h.matches_iff] at hleader
  simp only [Bool.and_eq_true, beq_iff_eq] at hleader
  obtain ⟨⟨⟨hplain, -⟩, hheld⟩, hletter⟩ := hleader
  have hsame : key = [letter] := hkey.trans ((eventKeyMatches_plain h.token hcode).mp hletter)
  have hoff : shift = false := hshift.trans hplain.symm
  rw [hdirect.canonical, h.shown, canonical_render h.token, hoff, hsame]
  rcases h.modifier with rfl | rfl
  · rfl
  -- on a Mac the one wants Meta and the other forbids it
  by_cases hmac : platform = .mac
  · have hmeta : e.metaKey = true := by
      rcases hdirect.primary with rfl | ⟨-, rfl⟩
      · simpa [modifierDown, hmac] using hdown
      · simpa [modifierDown] using hdown
    simp [modifierDown, hmeta] at hheld
  · cases platform
    · exact absurd rfl hmac
    · rfl
    · rfl

end Match

/-! ## The bindings of an accepted keymap -/

section Bindings

variable {profile : KeymapProfile} {keymap : EffectiveKeymap}

/-- Where a prefix binding of a keymap comes from. -/
inductive PrefixOrigin (m : CaseMapping) (profile : KeymapProfile) (binding : PrefixBinding) :
    Prop where
  | default (hdefault : binding ∈ muxSessionPrefixBindings)
      (hkept : ∀ override ∈ profile.bindings, override.command ≠ binding.command)
  | override (override : KeymapOverride) (text : Units) (hoverride : override ∈ profile.bindings)
      (htext : override.binding = some text)
      (hseq : normalizeKeySequence m text = some (leaderTag ++ binding.key))
      (hkey : PrefixKey m binding.key) (hcommand : binding.command = override.command)
      (hrange : binding.keyRange = false)

/-- Where a direct binding of a keymap comes from. -/
inductive DirectOrigin (m : CaseMapping) (profile : KeymapProfile) (binding : DirectBinding) :
    Prop where
  | default (hdefault : binding ∈ muxSessionDirectBindings)
      (hkept : ∀ override ∈ profile.bindings, override.command ≠ binding.command)
  | override (override : KeymapOverride) (text : Units) (hoverride : override ∈ profile.bindings)
      (htext : override.binding = some text)
      (hseq : normalizeKeySequence m text = some binding.key)
      (htag : ¬ leaderTag <+: binding.key) (hcommand : binding.command = override.command)

theorem not_overridden {command : CommandId} : (!isOverridden profile command) = true ↔
    ∀ override ∈ profile.bindings, override.command ≠ command := by
  simp [isOverridden]

section

variable (h : Compiled m defaultKeymapCatalog profile platform keymap)
include h

variable {override : KeymapOverride}

theorem Compiled.adds (hoverride : override ∈ profile.bindings) :
    Adds m platform override (overrideOutcome m platform override) :=
  (overrideOutcome_adds (h.accepted override hoverride)).2

theorem Compiled.prefixOrigin
    {binding : PrefixBinding} (hbinding : binding ∈ keymap.prefixBindings) :
    PrefixOrigin m profile binding := by
  rw [h.prefixBindings, mem_append, mem_filter, mem_filterMap] at hbinding
  rcases hbinding with ⟨hdefault, hkept⟩ | ⟨override, hoverride, hprefixed⟩
  · exact .default hdefault (not_overridden.mp hkept)
  have hadds := h.adds hoverride
  generalize overrideOutcome m platform override = outcome at hadds hprefixed
  cases hadds with
  | prefixed text added htext hseq hkey hcommand hrange =>
    cases hprefixed
    exact .override override text hoverride htext hseq hkey hcommand hrange
  | unbound | direct => cases hprefixed

variable {binding : DirectBinding}

theorem Compiled.directOrigin (hbinding : binding ∈ keymap.directBindings) :
    DirectOrigin m profile binding := by
  rw [h.directBindings, mem_append, mem_filter, mem_filterMap] at hbinding
  rcases hbinding with ⟨hdefault, hkept⟩ | ⟨override, hoverride, hdirect⟩
  · exact .default hdefault (not_overridden.mp hkept)
  have hadds := h.adds hoverride
  generalize overrideOutcome m platform override = outcome at hadds hdirect
  cases hadds with
  | direct text added htext hseq htag hcommand hchord =>
    cases hdirect
    exact .override override text hoverride htext hseq htag hcommand
  | unbound | prefixed => cases hdirect

theorem Compiled.directChord (hbinding : binding ∈ keymap.directBindings) :
    ∃ primary shift key, DirectChord m platform binding.key primary shift key := by
  rw [h.directBindings, mem_append, mem_filter, mem_filterMap] at hbinding
  rcases hbinding with ⟨hdefault, -⟩ | ⟨override, hoverride, hdirect⟩
  · exact defaultDirectChord hdefault
  have hadds := h.adds hoverride
  generalize overrideOutcome m platform override = outcome at hadds hdirect
  cases hadds with
  | direct text added htext hseq htag hcommand hchord =>
    cases hdirect
    exact hchord
  | unbound | prefixed => cases hdirect

theorem Compiled.mem_prefix (hoverride : override ∈ profile.bindings)
    {binding : PrefixBinding} (houtcome : overrideOutcome m platform override = .prefixed binding) :
    binding ∈ keymap.prefixBindings := by
  rw [h.prefixBindings, mem_append, mem_filterMap]
  exact .inr ⟨override, hoverride, by rw [houtcome]; rfl⟩

theorem Compiled.mem_direct (hoverride : override ∈ profile.bindings)
    (houtcome : overrideOutcome m platform override = .direct binding) :
    binding ∈ keymap.directBindings := by
  rw [h.directBindings, mem_append, mem_filterMap]
  exact .inr ⟨override, hoverride, by rw [houtcome]; rfl⟩

theorem Compiled.override_unique {first second : KeymapOverride} (hfirst : first ∈ profile.bindings)
    (hsecond : second ∈ profile.bindings) (hcommand : first.command = second.command) :
    first = second :=
  inj_on_of_nodup_map h.distinct hfirst hsecond hcommand

theorem Compiled.prefix_unique
    {first second : PrefixBinding} (hfirst : first ∈ keymap.prefixBindings)
    (hsecond : second ∈ keymap.prefixBindings) (hkey : first.key = second.key) : first = second :=
  inj_on_of_nodup_map h.prefixKeys hfirst hsecond (by rw [prefixKeyOf, prefixKeyOf, hkey])

end

theorem directKeyOf_chord {binding : DirectBinding} {primary : Modifier} {shift : Bool}
    {key : Units} (h : DirectChord m platform binding.key primary shift key) :
    directKeyOf m platform binding = canonicalChordForPlatform binding.key platform := by
  rw [directKeyOf, h.normal]
  rfl

section

variable (h : Compiled m defaultKeymapCatalog profile platform keymap)
include h

theorem Compiled.same_key {first second : DirectBinding} {e : KeyEvent} (hcode : e.code = [])
    (hfirst : first ∈ keymap.directBindings) (hsecond : second ∈ keymap.directBindings)
    (h1 : keyEventMatchesBinding m platform e first.key = true)
    (h2 : keyEventMatchesBinding m platform e second.key = true) :
    directKeyOf m platform first = directKeyOf m platform second := by
  obtain ⟨primary, shift, key, hchord⟩ := h.directChord hfirst
  obtain ⟨primary', shift', key', hchord'⟩ := h.directChord hsecond
  obtain ⟨hshift, -, hkey⟩ := hchord.of_matches hcode h1
  obtain ⟨hshift', -, hkey'⟩ := hchord'.of_matches hcode h2
  rw [directKeyOf_chord hchord, directKeyOf_chord hchord', hchord.canonical, hchord'.canonical,
    hshift, hshift', hkey, hkey']

theorem Compiled.apart
    {e : KeyEvent} (hcode : e.code = []) {i j : Nat} {first second : DirectBinding}
    (hi : keymap.directBindings[i]? = some first) (hj : keymap.directBindings[j]? = some second)
    (h1 : keyEventMatchesBinding m platform e first.key = true)
    (h2 : keyEventMatchesBinding m platform e second.key = true) : i = j := by
  have hsame := h.same_key hcode (mem_of_getElem? hi) (mem_of_getElem? hj) h1 h2
  have hlength : i < (keymap.directBindings.map (directKeyOf m platform)).length := by
    rw [length_map]
    exact (List.getElem?_eq_some_iff.mp hi).1
  refine (getElem?_inj hlength h.directKeys).mp ?_
  rw [getElem?_map, getElem?_map, hi, hj]
  exact congrArg some hsame

theorem Compiled.leaderApart {e : KeyEvent} (hcode : e.code = [])
    (hleader : keyEventMatchesBinding m platform e keymap.leader = true)
    {binding : DirectBinding} (hbinding : binding ∈ keymap.directBindings) :
    keyEventMatchesBinding m platform e binding.key = false := by
  obtain ⟨modifier, letter, hchord⟩ := h.leaderChord
  obtain ⟨primary, shift, key, hdirect⟩ := h.directChord hbinding
  by_contra hmatches
  rw [Bool.not_eq_false] at hmatches
  refine h.unambiguous binding hbinding ?_
  rw [directKeyOf_chord hdirect]
  exact hchord.same_as_direct hdirect hcode hleader hmatches

end

end Bindings

end Yaade.Keymap

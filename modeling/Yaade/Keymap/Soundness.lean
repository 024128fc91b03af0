import Yaade.Keymap.Matching
import Yaade.Keymap.Keydown

/-!
Accepted keymaps against the resolver: which bindings some key event reaches.
-/

namespace Yaade.Keymap

open Yaade.Library.Utf16 List Option

/-! ## Reachable commands -/

section Reach

variable (m : CaseMapping) (platform : KeymapPlatform) (context : MuxSessionKeydownContext)
  (keymap : KeymapCatalog)

def PrefixReachable (command : CommandId) : Prop :=
  ∃ leaderPress now event later jumpIndex,
    (resolveMuxSessionKeydown m platform leaderPress createChordState context now keymap).1 =
      some (.prefixStarted keymap.leader) ∧
    (resolveMuxSessionKeydown m platform event
      (resolveMuxSessionKeydown m platform leaderPress createChordState context now keymap).2
      context later keymap).1 = some (.command command jumpIndex)

def DirectReachable (command : CommandId) : Prop :=
  ∃ event now jumpIndex,
    (resolveMuxSessionKeydown m platform event createChordState context now keymap).1 =
      some (.command command jumpIndex)

def Reachable (command : CommandId) : Prop :=
  PrefixReachable m platform context keymap command ∨
    DirectReachable m platform context keymap command

structure KeymapSound : Prop where
  prefixes : ∀ binding ∈ keymap.prefixBindings, Reachable m platform context keymap binding.command
  directs : ∀ binding ∈ keymap.directBindings, Reachable m platform context keymap binding.command
  required : ∀ command ∈ requiredCommands, Reachable m platform context keymap command
  apart : ∀ event : KeyEvent, event.code = [] →
    ∀ i j : Nat, ∀ first second, keymap.directBindings[i]? = some first →
      keymap.directBindings[j]? = some second →
        keyEventMatchesBinding m platform event first.key = true →
          keyEventMatchesBinding m platform event second.key = true → i = j
  leaderApart : ∀ event : KeyEvent, event.code = [] →
    keyEventMatchesBinding m platform event keymap.leader = true →
      ∀ binding ∈ keymap.directBindings,
        keyEventMatchesBinding m platform event binding.key = false

end Reach

/-! ## What the resolver answers -/

variable {platform : KeymapPlatform} {m : CaseMapping} {context : MuxSessionKeydownContext}

section Answers

variable {event : KeyEvent} {state : ChordState} {now : Nat} {keymap : KeymapCatalog}
  {command : CommandId} {jumpIndex : Option Nat}

theorem commandResult_eq {other : CommandId} {repeatable : Option Bool} {index : Option Nat}
    (h : commandResult other repeatable event index = .command command jumpIndex) :
    other = command := by
  unfold commandResult at h
  split at h
  · cases h
  · cases h
    rfl

def PickedBy (keymap : KeymapCatalog) (command : CommandId) : Prop :=
  ∃ binding ∈ keymap.prefixBindings, binding.command = command ∧
    (binding.keyRange = true ∨ isMuxSessionJumpKey binding.key = false)

def PressedBy (context : MuxSessionKeydownContext) (keymap : KeymapCatalog) (command : CommandId) :
    Prop :=
  ∃ binding ∈ keymap.directBindings, binding.command = command ∧
    ¬ (command = .sidebarToggle ∧ context.sidebarLayout = some false)

theorem matchMuxSessionPrefixBinding_some {key : Units} {binding : PrefixBinding}
    (h : matchMuxSessionPrefixBinding key keymap = some binding) : binding ∈ keymap.prefixBindings ∧
      (binding.keyRange = true ∨ isMuxSessionJumpKey binding.key = false) := by
  unfold matchMuxSessionPrefixBinding at h
  split at h
  · exact ⟨mem_of_find?_eq_some h, .inl (find?_some h)⟩
  rename_i hjump
  have hkey := find?_some h
  simp only [Bool.and_eq_true, decide_eq_true_eq] at hkey
  refine ⟨mem_of_find?_eq_some h, .inr ?_⟩
  rw [hkey.2]
  simpa using hjump

theorem resolveInChord_command
    (h : (resolveInChord m platform event state context keymap).1 = .command command jumpIndex) :
    PickedBy keymap command := by
  unfold resolveInChord at h
  split at h
  · cases h
  split at h
  · cases h
  split at h
  · split at h
    · cases h
    · split at h <;> cases h
  split at h
  · cases h
  dsimp only at h
  split at h
  · cases h
  rename_i binding hbinding
  obtain ⟨hmem, hpicks⟩ := matchMuxSessionPrefixBinding_some hbinding
  exact ⟨binding, hmem, commandResult_eq h, hpicks⟩

theorem resolveAlone_command (h : (resolveAlone m platform event state context now keymap).1 =
      some (.command command jumpIndex)) : PressedBy context keymap command := by
  unfold resolveAlone at h
  split at h
  · split at h <;> cases h
  split at h
  · cases h
  rename_i binding hbinding
  split at h
  · cases h
  rename_i hgate
  have hcommand := commandResult_eq (Option.some.inj h)
  exact ⟨binding, mem_of_find?_eq_some hbinding, hcommand, hcommand ▸ hgate⟩

theorem resolveMuxSessionKeydown_command
    (h : (resolveMuxSessionKeydown m platform event state context now keymap).1 =
      some (.command command jumpIndex)) :
    context.inPrefixButton = false ∧ (PickedBy keymap command ∨ PressedBy context keymap command) := by
  unfold resolveMuxSessionKeydown at h
  split at h
  · cases h
  split at h
  · cases h
  rename_i hopen
  simp only [Bool.or_eq_true, not_or, Bool.not_eq_true] at hopen
  refine ⟨hopen.2, ?_⟩
  split at h
  · exact .inl (resolveInChord_command (Option.some.inj h))
  · exact .inr (resolveAlone_command h)

theorem Reachable.origin (h : Reachable m platform context keymap command) :
    context.inPrefixButton = false ∧ (PickedBy keymap command ∨ PressedBy context keymap command) := by
  rcases h with ⟨leaderPress, now, event, later, jumpIndex, -, hcommand⟩ |
    ⟨event, now, jumpIndex, hcommand⟩
  · exact resolveMuxSessionKeydown_command hcommand
  · exact resolveMuxSessionKeydown_command hcommand

/-- The resolver outside every gate. -/
structure Open (context : MuxSessionKeydownContext) : Prop where
  overlay : context.overlayOpen = false
  editable : context.inEditable = false
  button : context.inPrefixButton = false

theorem resolve_idle (hopen : Open context) (hcomposing : event.isComposing = false) :
    resolveMuxSessionKeydown m platform event createChordState context now keymap =
      resolveAlone m platform event createChordState context now keymap := by
  simp [resolveMuxSessionKeydown, hcomposing, hopen.overlay, hopen.editable, hopen.button,
    chordIsActive, createChordState]

theorem resolve_started (hopen : Open context) (hcomposing : event.isComposing = false)
    (leader : Units) :
    (resolveMuxSessionKeydown m platform event (startChord leader now) context now keymap).1 =
      some (resolveInChord m platform event (startChord leader now) context keymap).1 := by
  simp [resolveMuxSessionKeydown, hcomposing, hopen.overlay, hopen.editable, hopen.button,
    chordIsActive, startChord, chordTimeoutMs]

end Answers

/-! ## Presses that reach a binding -/

variable {keymap : EffectiveKeymap} {profile : KeymapProfile}

section Presses

def stroke (key : Units) (shift : Bool) : KeyEvent :=
  { key, code := [], metaKey := false, ctrlKey := false, altKey := false, shiftKey := shift
    repeated := false, isComposing := false }

theorem press_direct (h : Compiled m defaultKeymapCatalog profile platform keymap)
    {binding : DirectBinding} (hbinding : binding ∈ keymap.directBindings) {e : KeyEvent}
    (hcode : e.code = []) (hmatches : keyEventMatchesBinding m platform e binding.key = true) :
    matchMuxSessionDirectBinding m platform e keymap.toKeymapCatalog = some binding := by
  unfold matchMuxSessionDirectBinding
  cases hfind : keymap.directBindings.find? fun other =>
      keyEventMatchesBinding m platform e other.key with
  | none => exact absurd hmatches (find?_eq_none.mp hfind binding hbinding)
  | some other =>
    have hmem := mem_of_find?_eq_some hfind
    have hother := find?_some hfind
    have hsame := inj_on_of_nodup_map h.directKeys hmem hbinding
      (h.same_key hcode hmem hbinding hother hmatches)
    rw [hsame]

theorem Compiled.directReachable (h : Compiled m defaultKeymapCatalog profile platform keymap)
    (hopen : Open context) {binding : DirectBinding} (hbinding : binding ∈ keymap.directBindings)
    (hgate : ¬ (binding.command = .sidebarToggle ∧ context.sidebarLayout = some false)) :
    DirectReachable m platform context keymap.toKeymapCatalog binding.command := by
  obtain ⟨primary, shift, key, hchord⟩ := h.directChord hbinding
  have hmatches : keyEventMatchesBinding m platform (press platform primary shift key)
      binding.key = true := by
    rw [hchord.shown]
    exact press_matches hchord.token hchord.modifier shift
  have hleader : ¬ keyEventMatchesBinding m platform (press platform primary shift key)
      keymap.leader = true := by
    intro hmatch
    rw [h.leaderApart rfl hmatch hbinding] at hmatches
    cases hmatches
  refine ⟨press platform primary shift key, 0, none, ?_⟩
  rw [resolve_idle hopen rfl, resolveAlone, if_neg hleader, press_direct h hbinding rfl hmatches]
  simp [hgate, commandResult, press]

theorem stroke_leader {leader : Units} {modifier : Modifier} {letter : UInt16}
    (h : LeaderChord m leader modifier letter) (key : Units) (shift : Bool) :
    keyEventMatchesBinding m platform (stroke key shift) leader = false := by
  rw [h.matches_iff]
  rcases h.modifier with rfl | rfl <;> cases platform <;> simp [stroke, modifierDown]

variable {binding : PrefixBinding}

section

variable (h : Compiled m defaultKeymapCatalog profile platform keymap)
include h

theorem stroke_reaches
    (hopen : Open context) (unit : UInt16) (shift : Bool) (hpicks : matchMuxSessionPrefixBinding
      (serializeMuxSessionPrefixKey m (stroke [unit] shift)) keymap.toKeymapCatalog =
        some binding) :
    PrefixReachable m platform context keymap.toKeymapCatalog binding.command := by
  obtain ⟨modifier, letter, hleader⟩ := h.leaderChord
  have hpress : keyEventMatchesBinding m platform (press platform modifier false [letter])
      keymap.leader = true := by
    rw [hleader.shown]
    exact press_matches hleader.token hleader.cases false
  have hnamed : ∀ name ∈ units "Escape" :: modifierKeys, [unit] ≠ name := by
    intro name hname hsame
    have hlengths : (units "Escape" :: modifierKeys).all (·.length != 1) = true := by
      decide
    have hlength := List.all_eq_true.mp hlengths name hname
    rw [← hsame] at hlength
    cases hlength
  have hmodifier : (stroke [unit] shift).key ∉ modifierKeys := fun hmem =>
    hnamed _ (mem_cons_of_mem _ hmem) rfl
  have hescape : (stroke [unit] shift).key ≠ units "Escape" := hnamed _ mem_cons_self
  have hchord : ∃ jumpIndex, (resolveInChord m platform (stroke [unit] shift)
      (startChord keymap.leader 0) context keymap.toKeymapCatalog).1 =
        .command binding.command jumpIndex := by
    rw [resolveInChord, if_neg hmodifier, if_neg hescape, stroke_leader hleader]
    simp only [hpicks]
    simp [stroke, commandResult]
  obtain ⟨jumpIndex, hres⟩ := hchord
  have hstarted : resolveMuxSessionKeydown m platform (press platform modifier false [letter])
      createChordState context 0 keymap.toKeymapCatalog =
        (some (.prefixStarted keymap.leader), startChord keymap.leader 0) := by
    rw [resolve_idle hopen rfl, resolveAlone, if_pos hpress]
    rfl
  refine ⟨press platform modifier false [letter], 0, stroke [unit] shift, 0, jumpIndex, ?_, ?_⟩
  · rw [hstarted]
  · rw [hstarted, resolve_started hopen rfl, hres]

theorem Compiled.range_command (hbinding : binding ∈ keymap.prefixBindings)
    (hrange : binding.keyRange = true) : binding.command = .terminalJump := by
  have hdefaults : ∀ binding ∈ muxSessionPrefixBindings,
      binding.keyRange = true → binding.command = .terminalJump := by decide
  cases h.prefixOrigin hbinding with
  | default hdefault hkept => exact hdefaults binding hdefault hrange
  | override override text hoverride htext hseq hkey hcommand hplain =>
    rw [hplain] at hrange
    cases hrange

theorem Compiled.prefixReachable (hopen : Open context) (hbinding : binding ∈ keymap.prefixBindings)
    (hpicked : binding.keyRange = true ∨ isMuxSessionJumpKey binding.key = false) :
    PrefixReachable m platform context keymap.toKeymapCatalog binding.command := by
  by_cases hrange : binding.keyRange = true
  · -- the first binding with a range is one for the same command
    have hdigit : serializeMuxSessionPrefixKey m (stroke [49] false) = [49] := by
      have hlower : m.lower [49] = [49] := m.lower_ascii [49] (by decide)
      simp [serializeMuxSessionPrefixKey, stroke, hlower]
    cases hfind : keymap.prefixBindings.find? (·.keyRange) with
    | none => exact absurd hrange (by simpa using find?_eq_none.mp hfind binding hbinding)
    | some other =>
      have hother := h.range_command (mem_of_find?_eq_some hfind) (find?_some hfind)
      rw [h.range_command hbinding hrange, ← hother]
      refine stroke_reaches h hopen 49 false ?_
      rw [hdigit, matchMuxSessionPrefixBinding, if_pos (by decide)]
      exact hfind
  · have hjump := hpicked.resolve_left hrange
    rw [Bool.not_eq_true] at hrange
    have hpicks : matchMuxSessionPrefixBinding binding.key keymap.toKeymapCatalog =
        some binding := by
      rw [matchMuxSessionPrefixBinding, if_neg (by simp [hjump])]
      cases hfind : keymap.prefixBindings.find? fun other =>
          !other.keyRange && other.key = binding.key with
      | none =>
        have hnone := find?_eq_none.mp hfind binding hbinding
        simp [hrange] at hnone
      | some other =>
        have hother := find?_some hfind
        simp only [Bool.and_eq_true, decide_eq_true_eq] at hother
        rw [h.prefix_unique (mem_of_find?_eq_some hfind) hbinding hother.2]
    have hshape : PrefixKey m binding.key := by
      cases h.prefixOrigin hbinding with
      | default hdefault hkept =>
        exact (defaultPrefixKey hdefault).resolve_left (by simp [hrange])
      | override override text hoverride htext hseq hkey hcommand hplain => exact hkey
    generalize binding.key = key at hpicks hshape
    cases hshape with
    | plain unit hlower =>
      refine stroke_reaches h hopen unit false ?_
      simpa [serializeMuxSessionPrefixKey, stroke, hlower] using hpicks
    | shifted unit =>
      refine stroke_reaches h hopen unit true ?_
      simpa [serializeMuxSessionPrefixKey, stroke] using hpicks

end

end Presses

/-! ## Soundness -/

section Soundness

def TakesDigit (m : CaseMapping) (override : KeymapOverride) : Prop :=
  ∃ text digit, override.binding = some text ∧
    normalizeKeySequence m text = some (leaderTag ++ digit) ∧ isMuxSessionJumpKey digit = true

def KeepsSidebarChord (m : CaseMapping) (profile : KeymapProfile) : Prop :=
  ∀ override ∈ profile.bindings, override.command = .sidebarToggle →
    ∃ text sequence, override.binding = some text ∧
      normalizeKeySequence m text = some sequence ∧ ¬ leaderTag <+: sequence

variable {override : KeymapOverride}

section

variable (h : Compiled m defaultKeymapCatalog profile platform keymap)
include h

theorem Compiled.digit_lost
    (hoverride : override ∈ profile.bindings) (htakes : TakesDigit m override) :
    ¬ (PickedBy keymap.toKeymapCatalog override.command ∨
      PressedBy context keymap.toKeymapCatalog override.command) := by
  obtain ⟨text, digit, htext, hseq, hdigit⟩ := htakes
  rintro (⟨binding, hbinding, hcommand, hpicked⟩ | ⟨binding, hbinding, hcommand, -⟩)
  · cases h.prefixOrigin hbinding with
    | default hdefault hkept => exact hkept override hoverride hcommand.symm
    | override other text' hother htext' hseq' hkey hcommand' hplain =>
      have hsame := h.override_unique hother hoverride (hcommand'.symm.trans hcommand)
      rw [hsame, htext] at htext'
      cases htext'
      rw [hseq] at hseq'
      have hkeys := append_cancel_left (Option.some.inj hseq')
      rw [hplain, ← hkeys, hdigit] at hpicked
      simp at hpicked
  · cases h.directOrigin hbinding with
    | default hdefault hkept => exact hkept override hoverride hcommand.symm
    | override other text' hother htext' hseq' htag hcommand' =>
      have hsame := h.override_unique hother hoverride (hcommand'.symm.trans hcommand)
      rw [hsame, htext] at htext'
      cases htext'
      rw [hseq] at hseq'
      exact htag ((Option.some.inj hseq') ▸ prefix_append _ _)

/-- An override with a binding has it in the keymap. -/
theorem Compiled.added
    {override : KeymapOverride} (hoverride : override ∈ profile.bindings) {text sequence : Units}
    (htext : override.binding = some text) (hseq : normalizeKeySequence m text = some sequence) :
    (leaderTag <+: sequence ∧
      ∃ binding ∈ keymap.prefixBindings, binding.command = override.command) ∨
    (¬ leaderTag <+: sequence ∧
      ∃ binding ∈ keymap.directBindings, binding.command = override.command) := by
  have hadds := h.adds hoverride
  cases houtcome : overrideOutcome m platform override <;> rw [houtcome] at hadds <;> cases hadds
  case unbound hnone =>
    rw [htext] at hnone
    cases hnone
  case prefixed binding text' htext' hseq' hkey hcommand hrange =>
    cases htext.symm.trans htext'
    refine .inl ⟨?_, binding, h.mem_prefix hoverride houtcome, hcommand⟩
    rw [← Option.some.inj (hseq'.symm.trans hseq)]
    exact prefix_append _ _
  case direct binding text' htext' hseq' htag hcommand hchord =>
    cases htext.symm.trans htext'
    refine .inr ⟨?_, binding, h.mem_direct hoverride houtcome, hcommand⟩
    rwa [← Option.some.inj (hseq'.symm.trans hseq)]

theorem Compiled.digit_bound {override : KeymapOverride} (hoverride : override ∈ profile.bindings)
    (htakes : TakesDigit m override) :
    ∃ binding ∈ keymap.prefixBindings, binding.command = override.command := by
  obtain ⟨text, digit, htext, hseq, -⟩ := htakes
  rcases h.added hoverride htext hseq with ⟨-, hbound⟩ | ⟨htag, -⟩
  · exact hbound
  · exact absurd (prefix_append _ _) htag

theorem Compiled.no_digit (hsound : KeymapSound m platform context keymap.toKeymapCatalog)
    (hoverride : override ∈ profile.bindings) : ¬ TakesDigit m override := by
  intro htakes
  obtain ⟨binding, hbinding, hcommand⟩ := h.digit_bound hoverride htakes
  have horigin := (hsound.prefixes binding hbinding).origin.2
  rw [hcommand] at horigin
  exact h.digit_lost hoverride htakes horigin

theorem Compiled.sidebar_chord (hkeeps : KeepsSidebarChord m profile) :
    (∃ binding ∈ keymap.directBindings, binding.command = .sidebarToggle) ∧
      ¬ PickedBy keymap.toKeymapCatalog .sidebarToggle := by
  constructor
  · by_cases hchanged : ∃ override ∈ profile.bindings, override.command = .sidebarToggle
    · obtain ⟨override, hoverride, hcommand⟩ := hchanged
      obtain ⟨text, sequence, htext, hseq, htag⟩ := hkeeps override hoverride hcommand
      rcases h.added hoverride htext hseq with ⟨habs, -⟩ | ⟨-, hbound⟩
      · exact absurd habs htag
      · exact hcommand ▸ hbound
    · have hdefault : ∃ binding ∈ muxSessionDirectBindings, binding.command = .sidebarToggle := by
        decide
      obtain ⟨binding, hbinding, hcommand⟩ := hdefault
      refine ⟨binding, ?_, hcommand⟩
      rw [h.directBindings, mem_append, mem_filter]
      refine .inl ⟨hbinding, not_overridden.mpr fun override hoverride hsame => ?_⟩
      exact hchanged ⟨override, hoverride, hsame.trans hcommand⟩
  · rintro ⟨binding, hbinding, hcommand, -⟩
    have hnone : ∀ binding ∈ muxSessionPrefixBindings, binding.command ≠ .sidebarToggle := by
      decide
    cases h.prefixOrigin hbinding with
    | default hdefault hkept => exact hnone binding hdefault hcommand
    | override override text hoverride htext hseq hkey hcommand' hplain =>
      obtain ⟨text', sequence, htext', hseq', htag⟩ :=
        hkeeps override hoverride (hcommand'.symm.trans hcommand)
      rw [htext] at htext'
      cases htext'
      rw [hseq] at hseq'
      exact htag ((Option.some.inj hseq') ▸ prefix_append _ _)

theorem Compiled.picked (hdigits : ∀ override ∈ profile.bindings, ¬ TakesDigit m override)
    {binding : PrefixBinding} (hbinding : binding ∈ keymap.prefixBindings) :
    binding.keyRange = true ∨ isMuxSessionJumpKey binding.key = false := by
  have hdefaults : ∀ binding ∈ muxSessionPrefixBindings,
      binding.keyRange = true ∨ isMuxSessionJumpKey binding.key = false := by decide
  cases h.prefixOrigin hbinding with
  | default hdefault hkept => exact hdefaults binding hdefault
  | override override text hoverride htext hseq hkey hcommand hplain =>
    refine .inr (Bool.eq_false_iff.mpr fun hdigit => ?_)
    exact hdigits override hoverride ⟨text, binding.key, htext, hseq, hdigit⟩

end

/-- An accepted keymap is sound unless an override takes a digit from the
range, the focus is in a prefix button, or the layout has no sidebar for the
chord that toggles it. -/
theorem keymapSound_iff (hcompile : compileKeymap m defaultKeymapCatalog profile platform = .ok keymap)
    (hoverlay : context.overlayOpen = false) (heditable : context.inEditable = false) :
    KeymapSound m platform context keymap.toKeymapCatalog ↔
      context.inPrefixButton = false ∧ (∀ override ∈ profile.bindings, ¬ TakesDigit m override) ∧
        (context.sidebarLayout = some false → ¬ KeepsSidebarChord m profile) := by
  have h := compileKeymap_ok hcompile
  constructor
  · intro hsound
    refine ⟨?_, ?_, ?_⟩
    · exact (hsound.required .settingsShow (by decide)).origin.1
    · exact fun override => h.no_digit hsound
    · intro hlayout hkeeps
      obtain ⟨⟨binding, hbinding, hcommand⟩, hpicked⟩ := h.sidebar_chord hkeeps
      have horigin := (hsound.directs binding hbinding).origin.2
      rw [hcommand] at horigin
      rcases horigin with hreached | ⟨other, -, -, hgate⟩
      · exact hpicked hreached
      · exact hgate ⟨rfl, hlayout⟩
  · rintro ⟨hbutton, hdigits, hsidebar⟩
    have hopen : Open context := ⟨hoverlay, heditable, hbutton⟩
    have hprefixes : ∀ binding ∈ keymap.prefixBindings,
        Reachable m platform context keymap.toKeymapCatalog binding.command :=
      fun binding hbinding =>
        .inl (h.prefixReachable hopen hbinding (h.picked hdigits hbinding))
    have hdirects : ∀ binding ∈ keymap.directBindings,
        Reachable m platform context keymap.toKeymapCatalog binding.command := by
      intro binding hbinding
      refine .inr (h.directReachable hopen hbinding ?_)
      rintro ⟨hcommand, hlayout⟩
      refine hsidebar hlayout fun override hoverride hsame => ?_
      cases h.directOrigin hbinding with
      | default hdefault hkept => exact absurd (hsame.trans hcommand.symm) (hkept override hoverride)
      | override other text hother htext hseq htag hcommand' =>
        have hunique := h.override_unique hother hoverride
          (hcommand'.symm.trans (hcommand.trans hsame.symm))
        exact ⟨text, binding.key, hunique ▸ htext, hseq, htag⟩
    refine ⟨hprefixes, hdirects, ?_, ?_, ?_⟩
    · intro command hcommand
      rcases h.required command hcommand with ⟨binding, hbinding, rfl⟩ | ⟨binding, hbinding, rfl⟩
      · exact hprefixes binding hbinding
      · exact hdirects binding hbinding
    · intro event hcode i j first second hi hj h1 h2
      exact h.apart hcode hi hj h1 h2
    · intro event hcode hleader binding hbinding
      exact h.leaderApart hcode hleader hbinding

end Soundness

/-! ## Two profiles -/

section Profiles

def terminalContext : MuxSessionKeydownContext :=
  { overlayOpen := false, inEditable := false, inTerminal := true, inPrefixButton := false
    sidebarLayout := some true }

def shellProfile : KeymapProfile :=
  { leader := shellPrefix, bindings := [], confirmedLeaderRisky := none }

theorem shellProfile_compiles :
    (compileKeymap .ascii defaultKeymapCatalog shellProfile .mac).isOk = true := by
  decide

theorem keymapSound_shellProfile :
    ∃ keymap, compileKeymap .ascii defaultKeymapCatalog shellProfile .mac = .ok keymap ∧
      KeymapSound .ascii .mac terminalContext keymap.toKeymapCatalog := by
  have hok := shellProfile_compiles
  cases hcompile : compileKeymap .ascii defaultKeymapCatalog shellProfile .mac with
  | error conflicts =>
    rw [hcompile] at hok
    cases hok
  | ok keymap =>
    exact ⟨keymap, rfl, (keymapSound_iff hcompile rfl rfl).mpr ⟨rfl, nofun, nofun⟩⟩

def digitProfile : KeymapProfile :=
  { leader := shellPrefix
    bindings := [{ command := .terminalNewTerminal, binding := some (units "Leader 5")
                   confirmedRisky := none }]
    confirmedLeaderRisky := none }

theorem digitProfile_compiles :
    (compileKeymap .ascii defaultKeymapCatalog digitProfile .mac).isOk = true := by
  decide

/-- The profile is accepted, and the digit still jumps over terminals. -/
theorem digitProfile_unsound :
    ¬ ∀ (m : CaseMapping) (profile : KeymapProfile) (platform : KeymapPlatform)
      (keymap : EffectiveKeymap) (context : MuxSessionKeydownContext),
      compileKeymap m defaultKeymapCatalog profile platform = .ok keymap →
        context.overlayOpen = false → context.inEditable = false →
          KeymapSound m platform context keymap.toKeymapCatalog := by
  intro hclaim
  have hok := digitProfile_compiles
  cases hcompile : compileKeymap .ascii defaultKeymapCatalog digitProfile .mac with
  | error conflicts =>
    rw [hcompile] at hok
    cases hok
  | ok keymap =>
    have hsound := hclaim .ascii digitProfile .mac keymap terminalContext hcompile rfl rfl
    have htakes : TakesDigit .ascii ⟨.terminalNewTerminal, some (units "Leader 5"), none⟩ :=
      ⟨units "Leader 5", units "5", rfl, by decide, by decide⟩
    exact (compileKeymap_ok hcompile).no_digit hsound mem_cons_self htakes

end Profiles

end Yaade.Keymap

import Yaade.Keymap.Catalog

/-!
Keymap profiles.
-/

namespace Yaade.Keymap

open Yaade.Library.Utf16

structure KeymapOverride where
  command : CommandId
  binding : Option Units
  confirmedRisky : Option Bool
  deriving DecidableEq

structure KeymapProfile where
  leader : Units
  bindings : List KeymapOverride
  confirmedLeaderRisky : Option Bool
  deriving DecidableEq

structure EffectiveKeymap extends KeymapCatalog where
  source : KeymapProfile

def maxKeymapBindings : Nat := 128
def maxKeymapJsonBytes : Nat := 32 * 1024

/-! ## The size of a profile -/

/-- The units that `JSON.stringify` writes for a unit outside a surrogate pair. -/
def quotedUnit (unit : UInt16) : Nat :=
  if unit = 34 ∨ unit = 92 ∨ (8 ≤ unit ∧ unit ≤ 13 ∧ unit ≠ 11) then 2
  else if unit < 32 ∨ isHigh unit ∨ isLow unit then 6
  else 1

def quotedLength : Units → Nat
  | [] => 0
  | [unit] => quotedUnit unit
  | first :: second :: rest =>
    if isHigh first && isLow second then 2 + quotedLength rest
    else quotedUnit first + quotedLength (second :: rest)

def jsonString (text : Units) : Nat := 2 + quotedLength text

def jsonBool (value : Bool) : Nat := if value then 4 else 5

def KeymapOverride.jsonLength (override : KeymapOverride) : Nat :=
  "\x7b\"command\":".length + jsonString (units override.command.text) +
    ",\"binding\":".length + override.binding.elim 4 jsonString +
    ",\"context\":\"global\"".length +
    override.confirmedRisky.elim 0 (fun risky => ",\"confirmedRisky\":".length + jsonBool risky) + 1

def KeymapProfile.jsonLength (profile : KeymapProfile) : Nat :=
  "\x7b\"version\":1,\"leader\":".length + jsonString profile.leader +
    ",\"bindings\":[".length + (profile.bindings.map KeymapOverride.jsonLength).sum +
    (profile.bindings.length - 1) + 1 +
    profile.confirmedLeaderRisky.elim 0
      (fun risky => ",\"confirmedLeaderRisky\":".length + jsonBool risky) + 1

/-! ## Risks -/

inductive KeymapRisk where
  | safe
  | browserRisky
  | terminalReserved
  | widgetLocal
  | osUnavailable
  | banned
  deriving DecidableEq

structure KeymapRiskClassification where
  risk : KeymapRisk
  reason : Option Units

inductive BindingKind where
  | leader
  | direct
  | prefixKey
  deriving DecidableEq

def primaryUnavailableKeys : List Units :=
  [units "0", units "1", units "2", units "3", units "4", units "5", units "6", units "7",
    units "8", units "9", units "=", units "-", units "f", units "l", units "n", units "p",
    units "q", units "r", units "t", units "w"]

def isPrimaryModifier (modifiers : List Units) (platform : KeymapPlatform) : Bool :=
  modifiers.contains Modifier.mod.name ||
    (if platform = .mac then modifiers.contains Modifier.cmd.name
     else modifiers.contains Modifier.ctrl.name)

def isLeaderChord (chord : Units) : Bool :=
  match chord with
  | [77, 111, 100, 45, letter] => 97 ≤ letter && letter ≤ 122
  | [67, 116, 114, 108, 45, letter] => 97 ≤ letter && letter ≤ 122
  | _ => false

section Classify

variable (m : CaseMapping)

def classifyPrefixKey (binding : Units) : KeymapRiskClassification :=
  match normalizePrefixKey m binding with
  | none => ⟨.widgetLocal, some (units "Leader keys must be one printable key.")⟩
  | some normalized =>
    if m.lower normalized = units "p" then
      ⟨.banned, some (units "Prefix p is a removed alias and stays reserved.")⟩
    else ⟨.safe, none⟩

def classifyPrimary (normalized : Units) (parts : ChordParts) (kind : BindingKind)
    (platform : KeymapPlatform) : KeymapRiskClassification :=
  if parts.modifiers.contains Modifier.cmd.name ∧ platform ≠ .mac then
    ⟨.osUnavailable, some (units "Cmd bindings are unavailable on this platform.")⟩
  else if isPrimaryModifier parts.modifiers platform ∧ parts.key ∈ primaryUnavailableKeys then
    ⟨.osUnavailable, some (normalized ++ units " is reserved by the browser or operating system.")⟩
  else if kind = .leader ∧ (normalized = units "Mod-k" ∨ units "Ctrl-" <+: normalized) then
    ⟨.safe, none⟩
  else if normalized = units "Mod-," then ⟨.safe, none⟩
  else
    ⟨.browserRisky, some (normalized ++
      units " may replace a browser shortcut and needs explicit confirmation.")⟩

def classifyChord (binding : Units) (kind : BindingKind) (platform : KeymapPlatform) :
    KeymapRiskClassification :=
  match normalizeKeyChord m binding with
  | none => ⟨.widgetLocal, some (units "The chord is outside the key grammar.")⟩
  | some normalized =>
    let parts := chordParts normalized
    if parts.key ∈ widgetLocalKeys then
      ⟨.widgetLocal, some (parts.key ++ units " remains local to terminal and list widgets.")⟩
    else if kind = .leader then
      if !isLeaderChord normalized then
        ⟨.terminalReserved, some (units
          "Leaders must be Mod-letter or Ctrl-letter chords with an exact control byte.")⟩
      else classifyPrimary normalized parts kind platform
    else if normalized = units "Mod-k" ∨ normalized = units "Mod-Shift-p" then
      ⟨.banned, some (normalized ++ units " is a removed direct alias.")⟩
    else if !isPrimaryModifier parts.modifiers platform ∨
        parts.modifiers.contains Modifier.alt.name ∨
          (parts.modifiers.contains Modifier.ctrl.name ∧
            !parts.modifiers.contains Modifier.mod.name) then
      ⟨.terminalReserved, some (units
        "Plain, Alt, and explicit terminal Ctrl chords pass through to the PTY.")⟩
    else classifyPrimary normalized parts kind platform

def classifyKeyBinding (binding : Units) (kind : BindingKind) (platform : KeymapPlatform) :
    KeymapRiskClassification :=
  match kind with
  | .prefixKey => classifyPrefixKey m binding
  | .leader => classifyChord m binding .leader platform
  | .direct => classifyChord m binding .direct platform

end Classify

def groupFor (command : CommandId) : PrefixGroupId :=
  match (commandDescriptor command).category with
  | .navigation => .navigate
  | .session => .opening
  | _ => .actions

/-! ## Conflicts -/

inductive KeymapConflictCode where
  | bindingLimit
  | bindingTooLong
  | invalidLeader
  | invalidBinding
  | immutableRecoveryBinding
  | duplicateCommand
  | duplicateBinding
  | prefixAmbiguity
  | reservedBinding
  | riskyConfirmationRequired
  | requiredCommandUnreachable
  | unsupportedDynamicCommand
  deriving DecidableEq

structure KeymapConflict where
  code : KeymapConflictCode
  message : Units
  command : Option CommandId
  binding : Option Units
  risk : Option KeymapRisk

def title (command : CommandId) : Units := units (commandDescriptor command).title

def limitConflicts (profile : KeymapProfile) : List KeymapConflict :=
  (if profile.bindings.length > maxKeymapBindings then
    [⟨.bindingLimit, units "Profiles may contain at most 128 overrides.", none, none, none⟩]
   else []) ++
  (if profile.jsonLength > maxKeymapJsonBytes then
    [⟨.bindingLimit, units "The keymap profile exceeds the 32 KiB limit.", none, none, none⟩]
   else [])

section Compile

variable (m : CaseMapping)

def leaderConflicts (profile : KeymapProfile) (platform : KeymapPlatform) :
    List KeymapConflict :=
  match normalizeKeyChord m profile.leader with
  | none =>
    [⟨.invalidLeader, units "The leader is not a valid key chord.", none, some profile.leader,
      none⟩]
  | some leader =>
    let classification := classifyKeyBinding m leader .leader platform
    if classification.risk = .browserRisky ∧ profile.confirmedLeaderRisky ≠ some true then
      [⟨.riskyConfirmationRequired,
        classification.reason.getD (units "The leader needs confirmation."), none, some leader,
        some classification.risk⟩]
    else if classification.risk ≠ .safe ∧ classification.risk ≠ .browserRisky then
      [⟨.reservedBinding, classification.reason.getD (units "The leader is reserved."), none,
        some leader, some classification.risk⟩]
    else []

def overridesByCommand (seen : List KeymapOverride) :
    List KeymapOverride → List KeymapOverride × List KeymapConflict
  | [] => (seen, [])
  | override :: rest =>
    if seen.any (·.command = override.command) then
      let (table, conflicts) := overridesByCommand seen rest
      (table, ⟨.duplicateCommand, title override.command ++ units " has more than one override.",
        some override.command, none, none⟩ :: conflicts)
    else overridesByCommand (seen ++ [override]) rest

/-- What one override adds to the keymap. -/
inductive OverrideOutcome where
  | unbound
  | refused (conflict : KeymapConflict)
  | prefixed (binding : PrefixBinding)
  | direct (binding : DirectBinding)

def overrideId (command : CommandId) : String := "override." ++ command.text

def prefixOverride (override : KeymapOverride) (sequence : Units) (platform : KeymapPlatform) :
    OverrideOutcome :=
  let key := sequence.drop leaderTag.length
  let classification := classifyKeyBinding m key .prefixKey platform
  if classification.risk ≠ .safe then
    .refused ⟨.reservedBinding, classification.reason.getD (units "The leader key is reserved."),
      some override.command, some sequence, some classification.risk⟩
  else
    .prefixed
      { id := overrideId override.command, key, command := override.command,
        desc := (commandDescriptor override.command).title, group := groupFor override.command,
        keyRange := false, repeatable := none }

def directOverride (override : KeymapOverride) (sequence : Units) (platform : KeymapPlatform) :
    OverrideOutcome :=
  let classification := classifyKeyBinding m sequence .direct platform
  if classification.risk = .browserRisky ∧ override.confirmedRisky ≠ some true then
    .refused ⟨.riskyConfirmationRequired,
      classification.reason.getD (units "The binding needs confirmation."),
      some override.command, some sequence, some classification.risk⟩
  else if classification.risk ≠ .safe ∧ classification.risk ≠ .browserRisky then
    .refused ⟨.reservedBinding, classification.reason.getD (units "The binding is reserved."),
      some override.command, some sequence, some classification.risk⟩
  else
    .direct
      { id := overrideId override.command, key := sequence, command := override.command,
        desc := (commandDescriptor override.command).title, repeatable := none,
        riskyReason :=
          if classification.risk = .browserRisky then classification.reason else none }

def overrideOutcome (platform : KeymapPlatform) (override : KeymapOverride) : OverrideOutcome :=
  if override.command = .settingsShow then
    .refused ⟨.immutableRecoveryBinding,
      units "Open settings keeps Mod-, as an immutable keyboard recovery path.",
      some override.command, override.binding, none⟩
  else
    match override.binding with
    | none => .unbound
    | some binding =>
      if override.command = .terminalJump then
        .refused ⟨.unsupportedDynamicCommand,
          units "Terminal position jump keeps its 1–9 range binding.",
          some override.command, some binding, none⟩
      else if binding.length > maxKeyBindingLength then
        .refused ⟨.bindingTooLong, units "Bindings may be at most 64 characters.",
          some override.command, some binding, none⟩
      else
        match normalizeKeySequence m binding with
        | none =>
          .refused ⟨.invalidBinding, title override.command ++
            units " has an invalid binding.", some override.command, some binding, none⟩
        | some sequence =>
          if leaderTag <+: sequence then prefixOverride m override sequence platform
          else directOverride m override sequence platform

def OverrideOutcome.conflict? : OverrideOutcome → Option KeymapConflict
  | .refused conflict => some conflict
  | _ => none

def OverrideOutcome.prefixed? : OverrideOutcome → Option PrefixBinding
  | .prefixed binding => some binding
  | _ => none

def OverrideOutcome.direct? : OverrideOutcome → Option DirectBinding
  | .direct binding => some binding
  | _ => none

/-- A map from keys to the commands that took them first, and a conflict for
every other binding of a key. -/
def keyTable (seen : List (Units × CommandId)) :
    List (Units × CommandId × Units) → List (Units × CommandId) × List KeymapConflict
  | [] => (seen, [])
  | (key, command, shown) :: rest =>
    match seen.find? (·.1 = key) with
    | some previous =>
      let (table, conflicts) := keyTable seen rest
      (table, ⟨.duplicateBinding, shown ++ units " is already assigned to " ++
        title previous.2 ++ units ".", some command, some shown, none⟩ :: conflicts)
    | none => keyTable (seen ++ [(key, command)]) rest

def prefixKeyOf (binding : PrefixBinding) : Units :=
  (normalizePrefixKey m binding.key).getD binding.key

def directKeyOf (platform : KeymapPlatform) (binding : DirectBinding) : Units :=
  canonicalChordForPlatform ((normalizeKeyChord m binding.key).getD binding.key) platform

def ambiguityConflicts (directKeys : List (Units × CommandId)) (leader : Option Units)
    (platform : KeymapPlatform) : List KeymapConflict :=
  match leader with
  | none => []
  | some leader =>
    match directKeys.find? (·.1 = canonicalChordForPlatform leader platform) with
    | none => []
    | some ambiguous =>
      [⟨.prefixAmbiguity, leader ++ units " cannot be both the leader and " ++
        title ambiguous.2 ++ units ".", some ambiguous.2, some leader, none⟩]

def requiredCommands : List CommandId := [.commandPaletteShow, .settingsShow, .keymapReset]

def requiredConflicts (prefixBindings : List PrefixBinding)
    (directBindings : List DirectBinding) : List KeymapConflict :=
  requiredCommands.flatMap fun required =>
    if prefixBindings.any (·.command = required) || directBindings.any (·.command = required) then
      []
    else
      [⟨.requiredCommandUnreachable, title required ++
        units " must keep a keyboard recovery path.", some required, none, none⟩]

def compileKeymap (defaults : KeymapCatalog) (profile : KeymapProfile)
    (platform : KeymapPlatform) : Except (List KeymapConflict) EffectiveKeymap :=
  let leader := normalizeKeyChord m profile.leader
  let (overrides, duplicateCommands) := overridesByCommand [] profile.bindings
  let kept := fun command => !overrides.any (·.command = command)
  let outcomes := overrides.map (overrideOutcome m platform)
  let prefixBindings :=
    defaults.prefixBindings.filter (kept ·.command) ++ outcomes.filterMap (·.prefixed?)
  let directBindings :=
    defaults.directBindings.filter (kept ·.command) ++ outcomes.filterMap (·.direct?)
  let contextBindings := defaults.contextBindings.filter (kept ·.command)
  let (_, prefixDuplicates) := keyTable []
    (prefixBindings.map fun binding => (prefixKeyOf m binding, binding.command, binding.key))
  let (directKeys, directDuplicates) := keyTable []
    (directBindings.map fun binding =>
      (directKeyOf m platform binding, binding.command, binding.key))
  let conflicts :=
    limitConflicts profile ++ leaderConflicts m profile platform ++ duplicateCommands ++
      outcomes.filterMap (·.conflict?) ++ prefixDuplicates ++ directDuplicates ++
      ambiguityConflicts directKeys leader platform ++
      requiredConflicts prefixBindings directBindings
  match conflicts, leader with
  | [], some leader =>
    .ok { source := profile, leader, prefixBindings, directBindings, contextBindings }
  | conflicts, _ => .error conflicts

end Compile

end Yaade.Keymap

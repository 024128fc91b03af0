import Yaade.Library.CaseMapping

/-!
Key chords.
-/

namespace Yaade.Keymap

open Yaade.Library.Utf16

inductive KeymapPlatform where
  | mac
  | windows
  | linux
  deriving DecidableEq

inductive Modifier where
  | mod
  | cmd
  | ctrl
  | alt
  | shift
  deriving DecidableEq

def Modifier.name : Modifier → Units
  | .mod => units "Mod"
  | .cmd => units "Cmd"
  | .ctrl => units "Ctrl"
  | .alt => units "Alt"
  | .shift => units "Shift"

def modifierOrder : List Modifier := [.mod, .cmd, .ctrl, .alt, .shift]

def modifierNamed (name : Units) : Option Modifier :=
  if name = units "mod" then some .mod
  else if name = units "cmd" ∨ name = units "meta" then some .cmd
  else if name = units "ctrl" then some .ctrl
  else if name = units "alt" then some .alt
  else if name = units "shift" then some .shift
  else none

def namedKeys : List (Units × Units) :=
  [(units "esc", units "Escape"), (units "escape", units "Escape"),
    (units "enter", units "Enter"), (units "return", units "Enter"),
    (units "space", units "Space"), (units "tab", units "Tab"),
    (units "backspace", units "Backspace"), (units "delete", units "Delete"),
    (units "home", units "Home"), (units "end", units "End"),
    (units "arrowup", units "ArrowUp"), (units "arrowdown", units "ArrowDown"),
    (units "arrowleft", units "ArrowLeft"), (units "arrowright", units "ArrowRight"),
    (units "pageup", units "PageUp"), (units "pagedown", units "PageDown")]

def widgetLocalKeys : List Units :=
  [units "Escape", units "Enter", units "Space", units "Tab", units "Home", units "End",
    units "ArrowUp", units "ArrowDown", units "ArrowLeft", units "ArrowRight", units "PageUp",
    units "PageDown"]

def maxKeyBindingLength : Nat := 64

def isFunctionKey : Units → Bool
  | [f, digit] => (f == 70 || f == 102) && 49 ≤ digit && digit ≤ 57
  | [f, one, digit] => (f == 70 || f == 102) && one == 49 && 48 ≤ digit && digit ≤ 50
  | _ => false

def joinHyphen (segments : List Units) : Units := [hyphen].intercalate segments

/-! ## The normal form -/

section Normal

variable (m : CaseMapping)

def normalizedKey (value : Units) : Option Units :=
  let trimmed := trim value
  if trimmed.length = 1 ∧ trimmed ≠ units " " then some (m.lower trimmed)
  else
    match namedKeys.find? fun entry => entry.1 = m.lower trimmed with
    | some named => some named.2
    | none => if isFunctionKey trimmed then some (m.upper trimmed) else none

def collectModifiers (modifiers : List Modifier) : List Units → Option (List Modifier)
  | [] => some modifiers
  | rawModifier :: rest =>
    match modifierNamed (m.lower rawModifier) with
    | none => none
    | some modifier =>
      if modifier ∈ modifiers then none else collectModifiers (modifier :: modifiers) rest

def normalizeKeyChord (value : Units) : Option Units :=
  let trimmed := trim value
  if trimmed = [] ∨ trimmed.length > maxKeyBindingLength ∨ trimmed.any isSpace then none
  else
    let rawSegments := trimmed.splitOn hyphen
    let endsWith := trimmed.getLast? = some hyphen
    let rawKey := if endsWith then [hyphen] else rawSegments.getLast?.getD []
    let modifierSegments := if endsWith then rawSegments.filter (!·.isEmpty)
      else rawSegments.dropLast
    if rawKey = [] then none
    else
      match collectModifiers m [] modifierSegments with
      | none => none
      | some modifiers =>
        if .mod ∈ modifiers ∧ (.cmd ∈ modifiers ∨ .ctrl ∈ modifiers) then none
        else
          (normalizedKey m rawKey).map fun key =>
            joinHyphen ((modifierOrder.filter (· ∈ modifiers)).map Modifier.name ++ [key])

structure ChordParts where
  modifiers : List Units
  key : Units

def chordParts (binding : Units) : ChordParts :=
  let segments := binding.splitOn hyphen
  { modifiers := segments.dropLast, key := segments.getLast?.getD [] }

def normalizePrefixKey (value : Units) : Option Units :=
  match normalizeKeyChord m value with
  | none => none
  | some chord =>
    let { modifiers, key } := chordParts chord
    if key = [] ∨ modifiers.any (· != Modifier.shift.name) then none
    else if key ∈ widgetLocalKeys ∨ key.length ≠ 1 then none
    else if modifiers = [] then some key
    else some (units "Shift-" ++ m.upper key)

def leaderTag : Units := units "Leader "

def normalizeKeySequence (value : Units) : Option Units :=
  let trimmed := trim value
  if trimmed = [] ∨ trimmed.length > maxKeyBindingLength then none
  else
    match words trimmed with
    | [part] => normalizeKeyChord m part
    | [first, second] =>
      if m.lower first ≠ units "leader" then none
      else (normalizePrefixKey m second).map (leaderTag ++ ·)
    | _ => none

end Normal

def resolveModifier (platform : KeymapPlatform) (modifier : Units) : Units :=
  if modifier ≠ Modifier.mod.name then modifier
  else if platform = .mac then Modifier.cmd.name else Modifier.ctrl.name

def canonicalChordForPlatform (binding : Units) (platform : KeymapPlatform) : Units :=
  let { modifiers, key } := chordParts binding
  joinHyphen (modifiers.map (resolveModifier platform) ++ [key])

/-! ## Key events -/

structure KeyEvent where
  key : Units
  code : Units
  metaKey : Bool
  ctrlKey : Bool
  altKey : Bool
  shiftKey : Bool
  repeated : Bool
  isComposing : Bool
  deriving DecidableEq

structure ParsedKeyPart where
  modifiers : List Units
  key : Units

def isModifierName (segment : Units) : Bool := (modifierOrder.map Modifier.name).contains segment

def parseKeyPart (part : Units) : ParsedKeyPart :=
  let segments := (part.splitOn hyphen).filter (!·.isEmpty)
  let modifiers := segments.filter isModifierName
  let key := (segments.filter (!isModifierName ·)).getLast?.getD []
  { modifiers, key := if key = [] ∧ part.getLast? = some hyphen then [hyphen] else key }

def parseBindingKey (key : Units) : List Units := words (trim key)

section Match

variable (m : CaseMapping)

def normalizeBindingKey (key : Units) : Units :=
  if key = units "Backquote" then units "`"
  else if key.length = 1 then m.lower key
  else key

def codeKeys : List (Units × Units) :=
  [(units "Backquote", units "`"), (units "Minus", units "-"), (units "Equal", units "="),
    (units "BracketLeft", units "["), (units "BracketRight", units "]"),
    (units "Backslash", units "\\"), (units "Semicolon", units ";"), (units "Quote", units "'"),
    (units "Comma", units ","), (units "Period", units "."), (units "Slash", units "/")]

def keyFromCode (code : Units) : Option Units :=
  match code with
  | [75, 101, 121, letter] => if 65 ≤ letter ∧ letter ≤ 90 then some (m.lower [letter]) else none
  | [68, 105, 103, 105, 116, digit] => if 48 ≤ digit ∧ digit ≤ 57 then some [digit] else none
  | _ => (codeKeys.find? fun entry => entry.1 = code).map (·.2)

def eventKeyMatches (expected : Units) (e : KeyEvent) : Bool :=
  let want := normalizeBindingKey m expected
  normalizeBindingKey m e.key = want ||
    (if e.code = [] then none else keyFromCode m e.code).any fun key =>
      normalizeBindingKey m key = want

def keyEventMatchesBindingPart (platform : KeymapPlatform) (e : KeyEvent) (part : Units) : Bool :=
  let { modifiers, key } := parseKeyPart part
  let needsMod := modifiers.contains Modifier.mod.name
  let wantMeta := modifiers.contains Modifier.cmd.name || (needsMod && platform = .mac)
  let wantCtrl := modifiers.contains Modifier.ctrl.name || (needsMod && platform ≠ .mac)
  modifiers.contains Modifier.shift.name == e.shiftKey &&
    modifiers.contains Modifier.alt.name == e.altKey &&
    (if wantMeta && wantCtrl then e.metaKey && e.ctrlKey
     else if wantMeta then e.metaKey
     else if wantCtrl then e.ctrlKey && !e.metaKey
     else !e.metaKey && !e.ctrlKey) &&
    eventKeyMatches m key e

def keyEventMatchesBinding (platform : KeymapPlatform) (e : KeyEvent) (key : Units) : Bool :=
  match parseBindingKey key with
  | [part] => keyEventMatchesBindingPart m platform e part
  | _ => false

end Match

end Yaade.Keymap

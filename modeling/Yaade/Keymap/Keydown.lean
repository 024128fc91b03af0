import Yaade.Keymap.Profile

/-!
The resolution of key events against a keymap: a leader press starts a chord,
the next key picks a prefix binding, and a key without a leader picks a direct
binding.
-/

namespace Yaade.Keymap

open Yaade.Library.Utf16

def chordTimeoutMs : Nat := 2500

structure ChordState where
  leader : Option Units
  expiresAt : Nat
  deriving DecidableEq

def createChordState : ChordState := { leader := none, expiresAt := 0 }

def chordIsActive (state : ChordState) (now : Nat) : Bool :=
  state.leader.isSome && now < state.expiresAt

def startChord (leader : Units) (now : Nat) : ChordState :=
  { leader := some leader, expiresAt := now + chordTimeoutMs }

structure MuxSessionKeydownContext where
  overlayOpen : Bool
  inEditable : Bool
  inTerminal : Bool
  inPrefixButton : Bool
  sidebarLayout : Option Bool
  deriving DecidableEq

inductive MuxSessionKeydownResult where
  | prefixStarted (leader : Units)
  | command (command : CommandId) (jumpIndex : Option Nat)
  | prefixLiteral (byte : Units)
  | prefixCancelled
  | consume
  deriving DecidableEq

section Resolve

variable (m : CaseMapping)

def serializeMuxSessionPrefixKey (event : KeyEvent) : Units :=
  if event.shiftKey ∧ event.key.length = 1 then units "Shift-" ++ m.upper event.key
  else if event.key.length = 1 then m.lower event.key
  else event.key

def isMuxSessionJumpKey (key : Units) : Bool :=
  match key with
  | [digit] => 49 ≤ digit && digit ≤ 57
  | _ => false

def matchMuxSessionPrefixBinding (key : Units) (keymap : KeymapCatalog) : Option PrefixBinding :=
  if isMuxSessionJumpKey key then keymap.prefixBindings.find? (·.keyRange)
  else keymap.prefixBindings.find? fun binding => !binding.keyRange && binding.key = key

def matchMuxSessionDirectBinding (platform : KeymapPlatform) (event : KeyEvent)
    (keymap : KeymapCatalog) : Option DirectBinding :=
  keymap.directBindings.find? fun binding =>
    keyEventMatchesBinding m platform event binding.key

def commandResult (command : CommandId) (repeatable : Option Bool) (event : KeyEvent)
    (jumpIndex : Option Nat) : MuxSessionKeydownResult :=
  if !repeatable.getD (commandDescriptor command).repeats && event.repeated then .consume
  else .command command jumpIndex

def prefixLiteralByte (leader : Units) : Option Units :=
  match trim leader with
  | [c, t, r, l, 45, letter] =>
    if m.lower [c, t, r, l] = units "ctrl" then controlByte letter else none
  | [first, o, d, 45, letter] =>
    if m.lower [first, o, d] = units "mod" then controlByte letter else none
  | _ => none
where
  controlByte (letter : UInt16) : Option Units :=
    if 65 ≤ letter ∧ letter ≤ 90 then some [letter - 64]
    else if 97 ≤ letter ∧ letter ≤ 122 then some [letter - 96]
    else none

def modifierKeys : List Units := [units "Meta", units "Control", units "Alt", units "Shift"]

def resolveInChord (platform : KeymapPlatform) (event : KeyEvent) (state : ChordState)
    (context : MuxSessionKeydownContext) (keymap : KeymapCatalog) :
    MuxSessionKeydownResult × ChordState :=
  if event.key ∈ modifierKeys then (.consume, state)
  else if event.key = units "Escape" then (.prefixCancelled, createChordState)
  else if keyEventMatchesBinding m platform event keymap.leader then
    if event.repeated then (.consume, state)
    else
      match if context.inTerminal then prefixLiteralByte m keymap.leader else none with
      | some byte => (.prefixLiteral byte, createChordState)
      | none => (.prefixCancelled, createChordState)
  else if event.metaKey || event.ctrlKey || event.altKey then (.consume, createChordState)
  else
    let key := serializeMuxSessionPrefixKey m event
    match matchMuxSessionPrefixBinding key keymap with
    | none => (.consume, createChordState)
    | some binding =>
      let jumpIndex := if isMuxSessionJumpKey key then
        key.head?.map fun digit => digit.toNat - 49 else none
      (commandResult binding.command binding.repeatable event jumpIndex, createChordState)

def resolveAlone (platform : KeymapPlatform) (event : KeyEvent) (state : ChordState)
    (context : MuxSessionKeydownContext) (now : Nat) (keymap : KeymapCatalog) :
    Option MuxSessionKeydownResult × ChordState :=
  if keyEventMatchesBinding m platform event keymap.leader then
    if event.repeated then (some .consume, state)
    else (some (.prefixStarted keymap.leader), startChord keymap.leader now)
  else
    match matchMuxSessionDirectBinding m platform event keymap with
    | none => (none, state)
    | some binding =>
      if binding.command = .sidebarToggle ∧ context.sidebarLayout = some false then (none, state)
      else (some (commandResult binding.command binding.repeatable event none), state)

def resolveMuxSessionKeydown (platform : KeymapPlatform) (event : KeyEvent) (state : ChordState)
    (context : MuxSessionKeydownContext) (now : Nat) (keymap : KeymapCatalog) :
    Option MuxSessionKeydownResult × ChordState :=
  if event.isComposing then (none, createChordState)
  else if context.overlayOpen || context.inEditable || context.inPrefixButton then
    (none, createChordState)
  else if chordIsActive state now then
    let (result, state) := resolveInChord m platform event state context keymap
    (some result, state)
  else
    let state := if state.leader.isSome then createChordState else state
    resolveAlone m platform event state context now keymap

end Resolve

end Yaade.Keymap

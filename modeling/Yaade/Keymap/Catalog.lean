import Yaade.Keymap.Chords

/-!
The commands of the shell and their default bindings.
-/

namespace Yaade.Keymap

open Yaade.Library.Utf16

inductive CommandId where
  | commandPaletteShow
  | terminalNewTerminal
  | terminalNext
  | terminalPrevious
  | tabNext
  | tabPrevious
  | paneZoom
  | paneSplitRight
  | paneSplitDown
  | terminalSwitch
  | terminalSwitchPrevious
  | sidebarToggle
  | sessionSwitch
  | terminalJump
  | terminalJumpLive
  | terminalToggleInspectionPause
  | sessionNew
  | tabNew
  | tabClose
  | terminalClose
  | sessionClose
  | settingsShow
  | keymapReset
  deriving DecidableEq

def CommandId.text : CommandId → String
  | .commandPaletteShow => "commandPalette.show"
  | .terminalNewTerminal => "terminal.newTerminal"
  | .terminalNext => "terminal.next"
  | .terminalPrevious => "terminal.previous"
  | .tabNext => "tab.next"
  | .tabPrevious => "tab.previous"
  | .paneZoom => "pane.zoom"
  | .paneSplitRight => "pane.splitRight"
  | .paneSplitDown => "pane.splitDown"
  | .terminalSwitch => "terminal.switch"
  | .terminalSwitchPrevious => "terminal.switchPrevious"
  | .sidebarToggle => "sidebar.toggle"
  | .sessionSwitch => "session.switch"
  | .terminalJump => "terminal.jump"
  | .terminalJumpLive => "terminal.jumpLive"
  | .terminalToggleInspectionPause => "terminal.toggleInspectionPause"
  | .sessionNew => "session.new"
  | .tabNew => "tab.new"
  | .tabClose => "tab.close"
  | .terminalClose => "terminal.close"
  | .sessionClose => "session.close"
  | .settingsShow => "settings.show"
  | .keymapReset => "keymap.reset"

inductive CommandCategoryId where
  | navigation
  | terminal
  | window
  | session
  | workspace
  deriving DecidableEq

/-- The part of a descriptor that the keymap reads. `repeats` is the policy
`allow`. -/
structure CommandDescriptor where
  title : String
  category : CommandCategoryId
  repeats : Bool

def commandDescriptor : CommandId → CommandDescriptor
  | .commandPaletteShow => ⟨"Show commands", .navigation, false⟩
  | .terminalSwitch => ⟨"Switch terminal", .navigation, false⟩
  | .terminalSwitchPrevious => ⟨"Switch to previous terminal", .navigation, false⟩
  | .sessionSwitch => ⟨"Switch session", .navigation, false⟩
  | .terminalNext => ⟨"Next terminal", .navigation, true⟩
  | .terminalPrevious => ⟨"Previous terminal", .navigation, true⟩
  | .tabNext => ⟨"Next Window", .navigation, true⟩
  | .tabPrevious => ⟨"Previous Window", .navigation, true⟩
  | .terminalJump => ⟨"Jump to terminal by position", .navigation, false⟩
  | .terminalJumpLive => ⟨"Jump to live output", .navigation, false⟩
  | .terminalToggleInspectionPause => ⟨"Toggle output inspection pause", .terminal, false⟩
  | .terminalNewTerminal => ⟨"New terminal", .terminal, false⟩
  | .terminalClose => ⟨"Close terminal", .terminal, false⟩
  | .paneZoom => ⟨"Toggle pane zoom", .terminal, false⟩
  | .paneSplitRight => ⟨"Split right", .terminal, false⟩
  | .paneSplitDown => ⟨"Split down", .terminal, false⟩
  | .tabNew => ⟨"New Window", .window, false⟩
  | .tabClose => ⟨"Close Window", .window, false⟩
  | .sessionNew => ⟨"New session", .session, false⟩
  | .sessionClose => ⟨"Close session", .session, false⟩
  | .sidebarToggle => ⟨"Toggle sidebar", .workspace, false⟩
  | .settingsShow => ⟨"Open settings", .workspace, false⟩
  | .keymapReset => ⟨"Reset keyboard shortcuts", .workspace, false⟩

inductive PrefixGroupId where
  | opening
  | navigate
  | actions
  deriving DecidableEq

/-- `keyRange` tells that the key stands for the digits 1 to 9. -/
structure PrefixBinding where
  id : String
  key : Units
  command : CommandId
  desc : String
  group : PrefixGroupId
  keyRange : Bool
  repeatable : Option Bool
  deriving DecidableEq

structure DirectBinding where
  id : String
  key : Units
  command : CommandId
  desc : String
  repeatable : Option Bool
  riskyReason : Option Units
  deriving DecidableEq

structure KeymapCatalog where
  leader : Units
  prefixBindings : List PrefixBinding
  directBindings : List DirectBinding
  contextBindings : List DirectBinding

def prefixBinding (id key : String) (command : CommandId) (group : PrefixGroupId) :
    PrefixBinding :=
  { id, key := units key, command, desc := (commandDescriptor command).title, group,
    keyRange := false, repeatable := none }

def directBinding (id key : String) (command : CommandId) (riskyReason : Option String) :
    DirectBinding :=
  { id, key := units key, command, desc := (commandDescriptor command).title,
    repeatable := none, riskyReason := riskyReason.map units }

def shellPrefix : Units := units "Mod-k"

def muxSessionPrefixBindings : List PrefixBinding :=
  [ prefixBinding "prefix.commands" "c" .commandPaletteShow .opening,
    prefixBinding "prefix.terminal.new" "t" .terminalNewTerminal .opening,
    prefixBinding "prefix.terminal.switch" "u" .terminalSwitch .opening,
    prefixBinding "prefix.terminal.switchPrevious" "b" .terminalSwitchPrevious .navigate,
    prefixBinding "prefix.session.switch" "/" .sessionSwitch .opening,
    prefixBinding "prefix.session.new" "s" .sessionNew .opening,
    prefixBinding "prefix.tab.new" "w" .tabNew .opening,
    prefixBinding "prefix.settings.show" "," .settingsShow .opening,
    prefixBinding "prefix.keymap.reset" "Shift-R" .keymapReset .actions,
    prefixBinding "prefix.terminal.next" "n" .terminalNext .navigate,
    prefixBinding "prefix.terminal.previous" "Shift-N" .terminalPrevious .navigate,
    prefixBinding "prefix.tab.next" "]" .tabNext .navigate,
    prefixBinding "prefix.tab.previous" "[" .tabPrevious .navigate,
    { prefixBinding "prefix.terminal.jump" "1–9" .terminalJump .navigate with keyRange := true },
    prefixBinding "prefix.terminal.jumpLive" "g" .terminalJumpLive .navigate,
    prefixBinding "prefix.terminal.toggleInspectionPause" "Shift-G"
      .terminalToggleInspectionPause .actions,
    prefixBinding "prefix.pane.zoom" "z" .paneZoom .actions,
    prefixBinding "prefix.terminal.close" "x" .terminalClose .actions,
    prefixBinding "prefix.tab.close" "q" .tabClose .actions,
    prefixBinding "prefix.session.close" "Shift-X" .sessionClose .actions ]

def muxSessionDirectBindings : List DirectBinding :=
  [ directBinding "direct.pane.splitRight" "Mod-d" .paneSplitRight
      (some "Mod-d is the terminal multiplexer split chord."),
    directBinding "direct.pane.splitDown" "Mod-Shift-d" .paneSplitDown
      (some "Mod-Shift-d is the terminal multiplexer split chord."),
    directBinding "direct.sidebar.toggle" "Mod-b" .sidebarToggle
      (some "Mod-b is the terminal multiplexer sidebar toggle chord."),
    directBinding "direct.settings.show" "Mod-," .settingsShow none ]

def defaultKeymapCatalog : KeymapCatalog :=
  { leader := shellPrefix
    prefixBindings := muxSessionPrefixBindings
    directBindings := muxSessionDirectBindings
    contextBindings := [] }

end Yaade.Keymap

import Mathlib.Data.Rat.Floor
import Yaade.Library.Transition

/-!
Selection by pointer.
-/

namespace Yaade.Workers.Gestures

open Yaade.Library

structure Point where
  x : Nat
  y : Nat
  deriving DecidableEq

/-- A point of the viewport, or of the screen with its scrollback. -/
inductive GhosttyPointInput where
  | viewport (point : Point)
  | screen (point : Point)
  deriving DecidableEq

structure Span where
  first : Point
  last : Point
  deriving DecidableEq

structure GhosttySelectionRange where
  viewport : Span
  screen : Span
  deriving DecidableEq

structure GhosttyScrollbar where
  total : Nat
  offset : Nat
  len : Nat
  deriving DecidableEq

/-- What the surface calls of a core. -/
structure TerminalCoreRuntime (Output σ : Type) where
  write : Output → σ → σ
  scroll : Int → σ → σ
  scrollbarState : σ → Option GhosttyScrollbar
  isMouseTracking : σ → Bool
  isMouseAnyEventTracking : σ → Bool
  isAlternateScreen : σ → Bool
  setSelection : GhosttyPointInput → GhosttyPointInput → σ → σ
  clearSelection : σ → σ
  selectWord : Point → σ → Option GhosttySelectionRange × σ
  selectLine : Point → σ → Option GhosttySelectionRange × σ
  viewportPointToScreen : Point → σ → Option Point

/-- A terminal of the library with what is selected in it; a core on the main
thread calls it as it is. -/
structure Ghostty where
  Output : Type
  Terminal : Type
  Selection : Type
  calls : TerminalCoreRuntime Output Terminal
  selection : Terminal → Selection

section Cores

variable (lib : Ghostty)

def mainThreadTerminalCore : TerminalCoreRuntime lib.Output lib.Terminal := lib.calls

/-- What is posted of a terminal. -/
structure TerminalRuntimeState where
  scrollbar : Option GhosttyScrollbar
  mouseTracking : Bool
  mouseAnyEventTracking : Bool
  alternateScreen : Bool
  deriving DecidableEq

def stateOf (terminal : lib.Terminal) : TerminalRuntimeState :=
  ⟨lib.calls.scrollbarState terminal, lib.calls.isMouseTracking terminal,
    lib.calls.isMouseAnyEventTracking terminal, lib.calls.isAlternateScreen terminal⟩

inductive TerminalWorkerCommand where
  | writeBytes (data : lib.Output)
  | scroll (delta : Int)
  | setSelection (anchor focus : GhosttyPointInput)
  | clearSelection
  | selectWord (cell : Point)
  | selectLine (cell : Point)

/-- The core on the surface's side, with the worker's terminal and the commands
that it has still to process. -/
structure WorkerTerminalCore where
  state : TerminalRuntimeState
  commands : List (TerminalWorkerCommand lib)
  terminal : lib.Terminal

variable {lib}

def process (command : TerminalWorkerCommand lib) (terminal : lib.Terminal) : lib.Terminal :=
  match command with
  | .writeBytes data => lib.calls.write data terminal
  | .scroll delta => lib.calls.scroll delta terminal
  | .setSelection anchor focus => lib.calls.setSelection anchor focus terminal
  | .clearSelection => lib.calls.clearSelection terminal
  | .selectWord cell => (lib.calls.selectWord cell terminal).2
  | .selectLine cell => (lib.calls.selectLine cell terminal).2

def processAll (commands : List (TerminalWorkerCommand lib)) (terminal : lib.Terminal) :
    lib.Terminal :=
  commands.foldl (fun terminal command => process command terminal) terminal

def WorkerTerminalCore.command (core : WorkerTerminalCore lib)
    (payload : TerminalWorkerCommand lib) : WorkerTerminalCore lib :=
  { core with commands := core.commands ++ [payload] }

/-- All commands processed. An update may have been posted after some of them. -/
def WorkerTerminalCore.settle (core : WorkerTerminalCore lib) (posted : Option Nat) :
    WorkerTerminalCore lib where
  state := match posted with
    | none => core.state
    | some count => stateOf lib (processAll (core.commands.take count) core.terminal)
  commands := []
  terminal := processAll core.commands core.terminal

variable (lib) in
def workerTerminalCore : TerminalCoreRuntime lib.Output (WorkerTerminalCore lib) where
  write data core := core.command (.writeBytes data)
  scroll delta core := core.command (.scroll delta)
  scrollbarState core := core.state.scrollbar
  isMouseTracking core := core.state.mouseTracking
  isMouseAnyEventTracking core := core.state.mouseAnyEventTracking
  isAlternateScreen core := core.state.alternateScreen
  setSelection anchor focus core := core.command (.setSelection anchor focus)
  clearSelection core := core.command .clearSelection
  selectWord cell core := (none, core.command (.selectWord cell))
  selectLine cell core := (none, core.command (.selectLine cell))
  viewportPointToScreen cell core :=
    some ⟨cell.x, cell.y + (core.state.scrollbar.map GhosttyScrollbar.offset).getD 0⟩

end Cores

/-! ## The surface -/

inductive SelectionMode where
  | cell
  | word
  | line
  deriving DecidableEq

structure PointerEvent where
  pointerId : Int
  touch : Bool
  button : Int
  clientX : ℚ
  clientY : ℚ
  timeStamp : ℚ
  ctrlKey : Bool
  metaKey : Bool
  shiftKey : Bool

/-- Where the canvas is, and on what platform. -/
structure Canvas where
  cellAt : ℚ → ℚ → Point
  top : ℚ
  bottom : ℚ
  rowHeight : ℚ
  mac : Bool

structure TerminalSelectionClickSequence where
  count : Nat
  time : ℚ
  x : ℚ
  y : ℚ
  deriving DecidableEq

def advanceTerminalSelectionClickSequence (previous : Option TerminalSelectionClickSequence)
    (event : PointerEvent) : TerminalSelectionClickSequence :=
  let repeats := previous.any fun previous =>
    event.timeStamp - previous.time ≤ 500 &&
      (event.clientX - previous.x) ^ 2 + (event.clientY - previous.y) ^ 2 ≤ 16
  { count := if repeats then
      previous.elim 1 fun previous => if 3 ≤ previous.count then 1 else previous.count + 1 else 1
    time := event.timeStamp
    x := event.clientX
    y := event.clientY }

def shouldReportTerminalMouse (tracking : Bool) (event : PointerEvent) : Bool :=
  tracking && !event.shiftKey && !event.ctrlKey && !event.metaKey

def isTerminalLinkPointerGesture (mac : Bool) (event : PointerEvent) : Bool :=
  if mac then event.metaKey && !event.ctrlKey else event.ctrlKey && !event.metaKey

def ghosttyMouseButton (button : Int) : Bool := 0 ≤ button && button ≤ 4

def trunc (value : ℚ) : Int := if 0 ≤ value then ⌊value⌋ else ⌈value⌉

structure TouchGesture where
  pointerId : Int
  startX : ℚ
  startY : ℚ
  lastY : ℚ
  rowRemainder : ℚ
  selecting : Bool
  deriving DecidableEq

structure GhosttyTerminalSurface where
  selectionEnd : Option Point
  selectionAnchorScreen : Option Point
  selectionEndScreen : Option Point
  selectionMode : SelectionMode
  selectionMoved : Bool
  selectionBase : Option Span
  selectionClickSequence : Option TerminalSelectionClickSequence
  selectionScrollDelta : Int
  selectionScrollTimer : Bool
  selectionPointer : Option (ℚ × ℚ)
  touchGesture : Option TouchGesture
  touchHoldTimer : Option (ℚ × ℚ)
  linkActivationPointerId : Option Int
  mouseReportingPointerId : Option Int
  captured : List Int
  deriving DecidableEq

def GhosttyTerminalSurface.start : GhosttyTerminalSurface :=
  ⟨none, none, none, .cell, false, none, none, 0, false, none, none, none, none, none, []⟩

inductive Gesture (Output : Type) where
  | pointerDown (event : PointerEvent)
  | pointerMove (event : PointerEvent)
  | pointerUp (event : PointerEvent)
  | touchHold
  | autoscroll
  | output (data : Output)

/-- A surface and its core. -/
structure Mounted (σ : Type) where
  surface : GhosttyTerminalSurface
  core : σ

section Surface

variable {Output σ : Type} (runtime : TerminalCoreRuntime Output σ) (canvas : Canvas)

def selectAt (mode : SelectionMode) (cell : Point) (core : σ) :
    Option GhosttySelectionRange × σ :=
  match mode with
  | .cell => (none, core)
  | .word => runtime.selectWord cell core
  | .line => runtime.selectLine cell core

def GhosttyTerminalSurface.setSelectionAutoscroll (surface : GhosttyTerminalSurface)
    (delta : Int) : GhosttyTerminalSurface :=
  { surface with selectionScrollDelta := delta, selectionScrollTimer := decide (delta ≠ 0) }

def clearSelection (mounted : Mounted σ) : Mounted σ where
  core := runtime.clearSelection mounted.core
  surface := { mounted.surface with
    selectionEnd := none
    selectionAnchorScreen := none
    selectionEndScreen := none
    selectionMode := .cell
    selectionBase := none }.setSelectionAutoscroll 0

def clampedDelta (state : Option GhosttyScrollbar) (deltaRows : Int) : Int :=
  match state with
  | none => deltaRows
  | some state => max 0 (min (state.offset + deltaRows) (max 0 (state.total - state.len))) - state.offset

def scrollViewport (deltaRows : Int) (core : σ) : σ :=
  let delta := clampedDelta (runtime.scrollbarState core) deltaRows
  if delta = 0 then core else runtime.scroll delta core

def scrollFromTouch (rows : Int) (core : σ) : σ :=
  if rows = 0 then core
  else if runtime.isAlternateScreen core then core
  else scrollViewport runtime rows core

def precedes (left right : Point) : Bool := left.y < right.y || left.y == right.y && left.x < right.x

def extendSelectionTo (clientX clientY : ℚ) (mounted : Mounted σ) : Mounted σ :=
  match mounted.surface.selectionAnchorScreen with
  | none => mounted
  | some anchorScreen =>
    let cell := canvas.cellAt clientX clientY
    let surface := { mounted.surface with selectionMoved := true, selectionEnd := some cell }
    let (range, core) := selectAt runtime surface.selectionMode cell mounted.core
    match runtime.viewportPointToScreen cell core with
    | none => ⟨surface, core⟩
    | some cellScreen =>
      let beforeBase := surface.selectionBase.any fun base => precedes cellScreen base.first
      let anchor := match surface.selectionBase with
        | none => anchorScreen
        | some base => if beforeBase then base.last else base.first
      let last := match range with
        | none => cellScreen
        | some range => if beforeBase then range.screen.first else range.screen.last
      { surface := { surface with
          selectionAnchorScreen := some anchor
          selectionEndScreen := some last }
        core := runtime.setSelection (.screen anchor) (.screen last) core }

def beginTouchSelection (clientX clientY : ℚ) (mounted : Mounted σ) : Mounted σ :=
  match mounted.surface.touchGesture with
  | none => mounted
  | some gesture =>
    let cell := canvas.cellAt clientX clientY
    let (range, core) := runtime.selectWord cell mounted.core
    let surface := { mounted.surface with
      touchGesture := some { gesture with selecting := true }
      selectionMoved := false
      selectionMode := .word
      selectionPointer := some (clientX, clientY) }
    match range with
    | some range =>
      { core
        surface := { surface with
          selectionBase := some range.screen
          selectionEnd := some range.viewport.last
          selectionAnchorScreen := some range.screen.first
          selectionEndScreen := some range.screen.last } }
    | none =>
      let screen := runtime.viewportPointToScreen cell core
      { surface := { surface with
          selectionMode := .cell
          selectionBase := none
          selectionEnd := some cell
          selectionAnchorScreen := screen
          selectionEndScreen := screen }
        core := match screen with
          | none => core
          | some screen => runtime.setSelection (.screen screen) (.screen screen) core }

def press (event : PointerEvent) (mounted : Mounted σ) : Mounted σ :=
  let cell := canvas.cellAt event.clientX event.clientY
  let sequence := advanceTerminalSelectionClickSequence mounted.surface.selectionClickSequence event
  let mode : SelectionMode :=
    if 3 ≤ sequence.count then .line else if sequence.count = 2 then .word else .cell
  let (range, core) := selectAt runtime mode cell mounted.core
  let surface := { mounted.surface with
    selectionMoved := false
    selectionClickSequence := some sequence
    selectionMode := mode
    captured := event.pointerId :: mounted.surface.captured }
  match range with
  | some range =>
    { core
      surface := { surface with
        selectionBase := some range.screen
        selectionEnd := some range.viewport.last
        selectionAnchorScreen := some range.screen.first
        selectionEndScreen := some range.screen.last } }
  | none =>
    let screen := runtime.viewportPointToScreen cell core
    { surface := { surface with
        selectionMode := .cell
        selectionBase := none
        selectionEnd := some cell
        selectionAnchorScreen := screen
        selectionEndScreen := screen }
      core := match screen with
        | some screen => runtime.setSelection (.screen screen) (.screen screen) core
        | none => runtime.setSelection (.viewport cell) (.viewport cell) core }

def onPointerDown (event : PointerEvent) (mounted : Mounted σ) : Mounted σ :=
  if event.touch then
    if event.button ≠ 0 ∨ mounted.surface.touchGesture.isSome then mounted
    else
      let cleared := clearSelection runtime mounted
      { cleared with surface := { cleared.surface with
          touchGesture := some
            ⟨event.pointerId, event.clientX, event.clientY, event.clientY, 0, false⟩
          touchHoldTimer := some (event.clientX, event.clientY)
          captured := event.pointerId :: cleared.surface.captured } }
  else if shouldReportTerminalMouse (runtime.isMouseTracking mounted.core) event then
    if ghosttyMouseButton event.button then
      { mounted with surface := { mounted.surface with
          mouseReportingPointerId := some event.pointerId
          captured := event.pointerId :: mounted.surface.captured } }
    else mounted
  else if event.button ≠ 0 then mounted
  else if isTerminalLinkPointerGesture canvas.mac event then
    { mounted with surface := { mounted.surface with
        linkActivationPointerId := some event.pointerId
        captured := event.pointerId :: mounted.surface.captured } }
  else press runtime canvas event mounted

def touchMove (touch : TouchGesture) (event : PointerEvent) (mounted : Mounted σ) : Mounted σ :=
  if touch.selecting then
    extendSelectionTo runtime canvas event.clientX event.clientY
      { mounted with surface := { mounted.surface with
          selectionPointer := some (event.clientX, event.clientY) } }
  else
    let moved : Bool :=
      64 ≤ (event.clientX - touch.startX) ^ 2 + (event.clientY - touch.startY) ^ 2
    let rows := (touch.lastY - event.clientY) / canvas.rowHeight + touch.rowRemainder
    let wholeRows := trunc rows
    { surface := { mounted.surface with
        touchHoldTimer := if moved then none else mounted.surface.touchHoldTimer
        touchGesture := some
          { touch with lastY := event.clientY, rowRemainder := rows - wholeRows } }
      core := scrollFromTouch runtime wholeRows mounted.core }

def edge (clientY : ℚ) : Int :=
  if clientY < canvas.top then -1 else if canvas.bottom < clientY then 1 else 0

def drag (event : PointerEvent) (mounted : Mounted σ) : Mounted σ :=
  let surface := { mounted.surface with
    selectionPointer := some (event.clientX, event.clientY) }.setSelectionAutoscroll
      (edge canvas event.clientY)
  if surface.selectionEnd = some (canvas.cellAt event.clientX event.clientY) then
    { mounted with surface }
  else extendSelectionTo runtime canvas event.clientX event.clientY { mounted with surface }

def onPointerMove (event : PointerEvent) (mounted : Mounted σ) : Mounted σ :=
  match mounted.surface.touchGesture.filter fun touch => touch.pointerId = event.pointerId with
  | some touch => touchMove runtime canvas touch event mounted
  | none =>
    if mounted.surface.linkActivationPointerId = some event.pointerId then mounted
    else if mounted.surface.mouseReportingPointerId = some event.pointerId ∨
        shouldReportTerminalMouse (runtime.isMouseAnyEventTracking mounted.core) event then mounted
    else if mounted.surface.selectionAnchorScreen = none ∨
        event.pointerId ∉ mounted.surface.captured then mounted
    else drag runtime canvas event mounted

def onPointerUp (event : PointerEvent) (mounted : Mounted σ) : Mounted σ :=
  let surface := mounted.surface.setSelectionAutoscroll 0
  let released := { surface with captured := surface.captured.filter (· ≠ event.pointerId) }
  if (surface.touchGesture.filter fun touch => touch.pointerId = event.pointerId).isSome then
    { mounted with surface := { released with touchHoldTimer := none, touchGesture := none } }
  else if surface.linkActivationPointerId = some event.pointerId then
    { mounted with surface := { released with linkActivationPointerId := none } }
  else if surface.mouseReportingPointerId = some event.pointerId then
    { mounted with surface := { released with mouseReportingPointerId := none } }
  else if event.button ≠ 0 then { mounted with surface := released }
  else if !released.selectionMoved && released.selectionMode = .cell then
    clearSelection runtime { mounted with surface := released }
  else { mounted with surface := released }

def onTouchHold (mounted : Mounted σ) : Mounted σ :=
  match mounted.surface.touchHoldTimer with
  | none => mounted
  | some (clientX, clientY) =>
    beginTouchSelection runtime canvas clientX clientY
      { mounted with surface := { mounted.surface with touchHoldTimer := none } }

def onAutoscroll (mounted : Mounted σ) : Mounted σ :=
  if !mounted.surface.selectionScrollTimer || mounted.surface.selectionScrollDelta = 0 then mounted
  else
    let scrolled := { mounted with
      core := scrollViewport runtime mounted.surface.selectionScrollDelta mounted.core }
    match mounted.surface.selectionPointer with
    | none => scrolled
    | some (clientX, clientY) => extendSelectionTo runtime canvas clientX clientY scrolled

def handle (gesture : Gesture Output) (mounted : Mounted σ) : Mounted σ :=
  match gesture with
  | .pointerDown event => onPointerDown runtime canvas event mounted
  | .pointerMove event => onPointerMove runtime canvas event mounted
  | .pointerUp event => onPointerUp runtime event mounted
  | .touchHold => onTouchHold runtime canvas mounted
  | .autoscroll => onAutoscroll runtime canvas mounted
  | .output data => { mounted with core := runtime.write data mounted.core }

end Surface

end Yaade.Workers.Gestures

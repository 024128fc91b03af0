import Yaade.Workers.Gestures

/-!
A surface over a worker beside one over the main thread, through the same
gestures.
-/

namespace Yaade.Workers.Gestures

open Yaade.Library

variable {lib : Ghostty}

structure Pair (lib : Ghostty) where
  main : Mounted lib.Terminal
  worker : Mounted (WorkerTerminalCore lib)

/-- A gesture, and the update that the worker posts before the next one. -/
structure Action (lib : Ghostty) where
  gesture : Gesture lib.Output
  posted : Option Nat

def Pair.step (canvas : Canvas) (pair : Pair lib) (action : Action lib) : Pair lib :=
  let worker := handle (workerTerminalCore lib) canvas action.gesture pair.worker
  { main := handle (mainThreadTerminalCore lib) canvas action.gesture pair.main
    worker := { worker with core := worker.core.settle action.posted } }

/-- Two surfaces over one terminal, of which the worker's may have posted
anything. -/
def Pair.start (terminal : lib.Terminal) (state : TerminalRuntimeState) : Pair lib :=
  ⟨⟨.start, terminal⟩, ⟨.start, ⟨state, [], terminal⟩⟩⟩

def gestures (lib : Ghostty) (canvas : Canvas) : System (Pair lib) (Action lib) where
  initial pair := ∃ terminal state, pair = .start terminal state
  step pair action := some (pair.step canvas action)

/-! ## When nothing depends on an answer -/

def offsetOf (scrollbar : Option GhosttyScrollbar) : Nat :=
  (scrollbar.map GhosttyScrollbar.offset).getD 0

/-- At this cell no word or line is found, and its place on the screen is the one
that the scrollbar tells. -/
structure Plain (terminal : lib.Terminal) (mode : SelectionMode) (cell : Point) : Prop where
  range : (selectAt lib.calls mode cell terminal).1 = none
  placed : lib.calls.viewportPointToScreen cell (selectAt lib.calls mode cell terminal).2 =
    some ⟨cell.x, cell.y + offsetOf (lib.calls.scrollbarState terminal)⟩

def presses (canvas : Canvas) (event : PointerEvent) (terminal : lib.Terminal) : Bool :=
  !event.touch && !shouldReportTerminalMouse (lib.calls.isMouseTracking terminal) event &&
    event.button == 0 && !isTerminalLinkPointerGesture canvas.mac event

def pressMode (surface : GhosttyTerminalSurface) (event : PointerEvent) : SelectionMode :=
  let sequence := advanceTerminalSelectionClickSequence surface.selectionClickSequence event
  if 3 ≤ sequence.count then .line else if sequence.count = 2 then .word else .cell

def Still (mounted : Mounted lib.Terminal) : Prop :=
  clampedDelta (lib.calls.scrollbarState mounted.core) mounted.surface.selectionScrollDelta = 0 ∨
    mounted.surface.selectionPointer = none ∨ mounted.surface.selectionAnchorScreen = none

/-- The worker's terminal has been posted as it is, and the gesture finds no word or
line and does not scroll before it selects. -/
def Answerless (canvas : Canvas) (pair : Pair lib) (action : Action lib) : Prop :=
  pair.worker.core.state = stateOf lib pair.main.core ∧
    match action.gesture with
    | .pointerDown event => presses canvas event pair.main.core = true →
        Plain pair.main.core (pressMode pair.main.surface event)
          (canvas.cellAt event.clientX event.clientY)
    | .pointerMove event =>
      Plain pair.main.core .cell (canvas.cellAt event.clientX event.clientY)
    | .touchHold => ∀ place, pair.main.surface.touchHoldTimer = some place →
        Plain pair.main.core .word (canvas.cellAt place.1 place.2)
    | .autoscroll => Still pair.main ∧ ∀ place, pair.main.surface.selectionPointer = some place →
        Plain pair.main.core .cell (canvas.cellAt place.1 place.2)
    | .pointerUp _ | .output _ => True

/-! ## The two cores -/

def WorkerTerminalCore.result (core : WorkerTerminalCore lib) : lib.Terminal :=
  processAll core.commands core.terminal

@[simp] theorem result_command (core : WorkerTerminalCore lib)
    (payload : TerminalWorkerCommand lib) :
    (core.command payload).result = process payload core.result := by
  unfold WorkerTerminalCore.command WorkerTerminalCore.result processAll
  rw [List.foldl_append]
  rfl

/-- The same surface over the same terminal. -/
structure Alike (main : Mounted lib.Terminal) (worker : Mounted (WorkerTerminalCore lib)) :
    Prop where
  surface : worker.surface = main.surface
  result : worker.core.result = main.core

section Handlers

variable {canvas : Canvas} {surface : GhosttyTerminalSurface} {core : WorkerTerminalCore lib}

abbrev mainOf (surface : GhosttyTerminalSurface) (core : WorkerTerminalCore lib) :
    Mounted lib.Terminal := ⟨surface, core.result⟩

theorem selectAt_result (mode : SelectionMode) (cell : Point) :
    (selectAt (workerTerminalCore lib) mode cell core).2.result =
      (selectAt (mainThreadTerminalCore lib) mode cell core.result).2 ∧
    (selectAt (workerTerminalCore lib) mode cell core).1 = none ∧
    (selectAt (workerTerminalCore lib) mode cell core).2.state = core.state := by
  cases mode with
  | cell => exact ⟨rfl, rfl, rfl⟩
  | word => exact ⟨result_command core (.selectWord cell), rfl, rfl⟩
  | line => exact ⟨result_command core (.selectLine cell), rfl, rfl⟩

end Handlers

/-! ## Handlers without a range -/

section Plain

variable {Output σ : Type} {runtime : TerminalCoreRuntime Output σ} {canvas : Canvas}
  {mounted : Mounted σ}

def GhosttyTerminalSurface.atCell (surface : GhosttyTerminalSurface) (cell screen : Point) :
    GhosttyTerminalSurface :=
  { surface with
    selectionMoved := false
    selectionMode := .cell
    selectionBase := none
    selectionEnd := some cell
    selectionAnchorScreen := some screen
    selectionEndScreen := some screen }

theorem press_plain {event : PointerEvent} {screen : Point}
    (hrange : (selectAt runtime (pressMode mounted.surface event)
      (canvas.cellAt event.clientX event.clientY) mounted.core).1 = none)
    (hscreen : runtime.viewportPointToScreen (canvas.cellAt event.clientX event.clientY)
      (selectAt runtime (pressMode mounted.surface event)
        (canvas.cellAt event.clientX event.clientY) mounted.core).2 = some screen) :
    press runtime canvas event mounted =
      { surface := { mounted.surface.atCell (canvas.cellAt event.clientX event.clientY) screen with
          selectionClickSequence := some (advanceTerminalSelectionClickSequence
            mounted.surface.selectionClickSequence event)
          captured := event.pointerId :: mounted.surface.captured }
        core := runtime.setSelection (.screen screen) (.screen screen)
          (selectAt runtime (pressMode mounted.surface event)
            (canvas.cellAt event.clientX event.clientY) mounted.core).2 } := by
  simp only [pressMode] at hrange hscreen ⊢
  unfold press
  simp only [hrange, hscreen]
  rfl

theorem beginTouch_plain {gesture : TouchGesture} {clientX clientY : ℚ} {screen : Point}
    (htouch : mounted.surface.touchGesture = some gesture)
    (hrange : (runtime.selectWord (canvas.cellAt clientX clientY) mounted.core).1 = none)
    (hscreen : runtime.viewportPointToScreen (canvas.cellAt clientX clientY)
      (runtime.selectWord (canvas.cellAt clientX clientY) mounted.core).2 = some screen) :
    beginTouchSelection runtime canvas clientX clientY mounted =
      { surface := { mounted.surface.atCell (canvas.cellAt clientX clientY) screen with
          touchGesture := some { gesture with selecting := true }
          selectionPointer := some (clientX, clientY) }
        core := runtime.setSelection (.screen screen) (.screen screen)
          (runtime.selectWord (canvas.cellAt clientX clientY) mounted.core).2 } := by
  unfold beginTouchSelection
  simp only [htouch, hrange, hscreen]
  rfl

theorem extend_plain {clientX clientY : ℚ} {anchor screen : Point}
    (hanchor : mounted.surface.selectionAnchorScreen = some anchor)
    (hmode : mounted.surface.selectionMode = .cell) (hbase : mounted.surface.selectionBase = none)
    (hscreen : runtime.viewportPointToScreen (canvas.cellAt clientX clientY) mounted.core =
      some screen) : extendSelectionTo runtime canvas clientX clientY mounted =
      { surface := { mounted.surface with
          selectionMoved := true
          selectionEnd := some (canvas.cellAt clientX clientY)
          selectionAnchorScreen := some anchor
          selectionEndScreen := some screen }
        core := runtime.setSelection (.screen anchor) (.screen screen) mounted.core } := by
  unfold extendSelectionTo
  simp only [hanchor, hmode, hbase, hscreen, selectAt]

end Plain

/-! ## Handlers side by side -/

section Handlers

variable {canvas : Canvas} {surface : GhosttyTerminalSurface} {core : WorkerTerminalCore lib}

/-- Words and lines are not being selected. -/
structure ByCell (surface : GhosttyTerminalSurface) : Prop where
  mode : surface.selectionMode = .cell
  base : surface.selectionBase = none

/-- Both surfaces after a handler. -/
structure Follows (main : Mounted lib.Terminal) (worker : Mounted (WorkerTerminalCore lib)) :
    Prop extends Alike main worker where
  byCell : ByCell main.surface

theorem ByCell.same (h : ByCell surface) : Follows (mainOf surface core) ⟨surface, core⟩ :=
  ⟨⟨rfl, rfl⟩, h⟩

theorem clearSelection_follows :
    Follows (clearSelection (mainThreadTerminalCore lib) (mainOf surface core))
      (clearSelection (workerTerminalCore lib) ⟨surface, core⟩) :=
  ⟨⟨rfl, result_command core .clearSelection⟩, rfl, rfl⟩

variable (hstate : core.state = stateOf lib core.result)
include hstate

variable {event : PointerEvent}

theorem press_follows (hplain : Plain core.result (pressMode surface event)
      (canvas.cellAt event.clientX event.clientY)) :
    Follows (press (mainThreadTerminalCore lib) canvas event (mainOf surface core))
      (press (workerTerminalCore lib) canvas event ⟨surface, core⟩) := by
  obtain ⟨hres, hnone, hkept⟩ := @selectAt_result lib core (pressMode surface event)
    (canvas.cellAt event.clientX event.clientY)
  rw [@press_plain _ _ (mainThreadTerminalCore lib) canvas (mainOf surface core) event _
      hplain.range hplain.placed,
    @press_plain _ _ (workerTerminalCore lib) canvas ⟨surface, core⟩ event
      ⟨_, _ + offsetOf (lib.calls.scrollbarState core.result)⟩ hnone
      (by simp only [workerTerminalCore, offsetOf] at hkept ⊢; rw [hkept, hstate]; rfl)]
  refine ⟨⟨rfl, ?_⟩, rfl, rfl⟩
  exact (result_command _ _).trans (congrArg _ hres)

theorem extend_follows (hcell : ByCell surface) {clientX clientY : ℚ}
    (hplain : Plain core.result .cell (canvas.cellAt clientX clientY)) : Follows
      (extendSelectionTo (mainThreadTerminalCore lib) canvas clientX clientY (mainOf surface core))
      (extendSelectionTo (workerTerminalCore lib) canvas clientX clientY ⟨surface, core⟩) := by
  cases hanchor : surface.selectionAnchorScreen with
  | none =>
    unfold extendSelectionTo
    simp only [hanchor]
    exact hcell.same
  | some anchor =>
    rw [@extend_plain _ _ (mainThreadTerminalCore lib) canvas (mainOf surface core) _ _ _ _
        hanchor hcell.mode hcell.base hplain.placed,
      @extend_plain _ _ (workerTerminalCore lib) canvas ⟨surface, core⟩ _ _ _
        ⟨_, _ + offsetOf (lib.calls.scrollbarState core.result)⟩ hanchor hcell.mode hcell.base
        (by simp only [workerTerminalCore, offsetOf]; rw [hstate]; rfl)]
    exact ⟨⟨rfl, result_command _ _⟩, hcell.mode, hcell.base⟩

theorem beginTouch_follows (hcell : ByCell surface) {clientX clientY : ℚ}
    (hplain : Plain core.result .word (canvas.cellAt clientX clientY)) : Follows
      (beginTouchSelection (mainThreadTerminalCore lib) canvas clientX clientY
        (mainOf surface core))
      (beginTouchSelection (workerTerminalCore lib) canvas clientX clientY ⟨surface, core⟩) := by
  cases htouch : surface.touchGesture with
  | none =>
    unfold beginTouchSelection
    simp only [htouch]
    exact hcell.same
  | some gesture =>
    rw [@beginTouch_plain _ _ (mainThreadTerminalCore lib) canvas (mainOf surface core) _ _ _
        _ htouch hplain.range hplain.placed,
      @beginTouch_plain _ _ (workerTerminalCore lib) canvas ⟨surface, core⟩ _ _ _
        ⟨_, _ + offsetOf (lib.calls.scrollbarState core.result)⟩ htouch rfl
        (by simp only [workerTerminalCore, WorkerTerminalCore.command, offsetOf]
            rw [hstate]
            rfl)]
    refine ⟨⟨rfl, ?_⟩, rfl, rfl⟩
    exact (result_command _ _).trans (congrArg _ (result_command core _))

theorem scrollViewport_result (deltaRows : Int) :
    (scrollViewport (workerTerminalCore lib) deltaRows core).result =
      scrollViewport (mainThreadTerminalCore lib) deltaRows core.result := by
  have hscrollbar : (workerTerminalCore lib).scrollbarState core =
      (mainThreadTerminalCore lib).scrollbarState core.result := by
    show core.state.scrollbar = _
    rw [hstate]
    rfl
  unfold scrollViewport
  rw [hscrollbar]
  dsimp only
  split
  · rfl
  · exact result_command core _

theorem scrollFromTouch_result (rows : Int) :
    (scrollFromTouch (workerTerminalCore lib) rows core).result =
      scrollFromTouch (mainThreadTerminalCore lib) rows core.result := by
  have halternate : (workerTerminalCore lib).isAlternateScreen core =
      (mainThreadTerminalCore lib).isAlternateScreen core.result := by
    show core.state.alternateScreen = _
    rw [hstate]
    rfl
  unfold scrollFromTouch
  rw [halternate]
  split
  · rfl
  split
  · rfl
  · exact scrollViewport_result hstate rows

section

variable (hcell : ByCell surface)
include hcell

theorem pointerDown_follows (hplain : presses canvas event core.result = true →
      Plain core.result (pressMode surface event) (canvas.cellAt event.clientX event.clientY)) :
    Follows (onPointerDown (mainThreadTerminalCore lib) canvas event (mainOf surface core))
      (onPointerDown (workerTerminalCore lib) canvas event ⟨surface, core⟩) := by
  have htracking : (workerTerminalCore lib).isMouseTracking core =
      (mainThreadTerminalCore lib).isMouseTracking core.result := by
    show core.state.mouseTracking = _
    rw [hstate]
    rfl
  unfold onPointerDown
  rw [htracking]
  dsimp only
  split_ifs with htouch hignored hreport hbutton hother hlink
  · exact hcell.same
  · have hcleared := @clearSelection_follows lib surface core
    exact ⟨⟨rfl, hcleared.result⟩, rfl, rfl⟩
  · exact ⟨⟨rfl, rfl⟩, hcell.mode, hcell.base⟩
  · exact hcell.same
  · exact hcell.same
  · exact ⟨⟨rfl, rfl⟩, hcell.mode, hcell.base⟩
  refine press_follows hstate (hplain ?_)
  rw [Bool.not_eq_true] at htouch hreport hlink
  have hreport' : shouldReportTerminalMouse (lib.calls.isMouseTracking core.result) event =
      false := hreport
  rw [presses, htouch, hreport', hlink, beq_iff_eq.mpr (Decidable.not_not.mp hother)]
  rfl

section

variable (hplain : Plain core.result .cell (canvas.cellAt event.clientX event.clientY))
include hplain

theorem touchMove_follows {touch : TouchGesture} :
    Follows (touchMove (mainThreadTerminalCore lib) canvas touch event (mainOf surface core))
      (touchMove (workerTerminalCore lib) canvas touch event ⟨surface, core⟩) := by
  have hextended := @extend_follows lib canvas
    { surface with selectionPointer := some (event.clientX, event.clientY) } core hstate
    ⟨hcell.mode, hcell.base⟩ _ _ hplain
  unfold touchMove
  split
  · exact hextended
  · exact ⟨⟨rfl, scrollFromTouch_result hstate _⟩, hcell.mode, hcell.base⟩

theorem drag_follows :
    Follows (drag (mainThreadTerminalCore lib) canvas event (mainOf surface core))
      (drag (workerTerminalCore lib) canvas event ⟨surface, core⟩) := by
  have hextended := @extend_follows lib canvas
    ({ surface with selectionPointer := some (event.clientX, event.clientY)
      }.setSelectionAutoscroll (edge canvas event.clientY)) core hstate
    ⟨hcell.mode, hcell.base⟩ _ _ hplain
  unfold drag
  dsimp only
  split
  · exact ⟨⟨rfl, rfl⟩, hcell.mode, hcell.base⟩
  · exact hextended

theorem pointerMove_follows :
    Follows (onPointerMove (mainThreadTerminalCore lib) canvas event (mainOf surface core))
      (onPointerMove (workerTerminalCore lib) canvas event ⟨surface, core⟩) := by
  have htracking : (workerTerminalCore lib).isMouseAnyEventTracking core =
      (mainThreadTerminalCore lib).isMouseAnyEventTracking core.result := by
    show core.state.mouseAnyEventTracking = _
    rw [hstate]
    rfl
  unfold onPointerMove
  rw [htracking]
  dsimp only
  split
  · exact touchMove_follows hstate hcell hplain
  split_ifs
  · exact hcell.same
  · exact hcell.same
  · exact hcell.same
  · exact drag_follows hstate hcell hplain

end

end

section

variable (hcell : ByCell surface)
include hcell

omit hstate in
theorem pointerUp_follows {event : PointerEvent} :
    Follows (onPointerUp (mainThreadTerminalCore lib) event (mainOf surface core))
      (onPointerUp (workerTerminalCore lib) event ⟨surface, core⟩) := by
  unfold onPointerUp
  dsimp only
  split_ifs
  · exact ⟨⟨rfl, rfl⟩, hcell.mode, hcell.base⟩
  · exact ⟨⟨rfl, rfl⟩, hcell.mode, hcell.base⟩
  · exact ⟨⟨rfl, rfl⟩, hcell.mode, hcell.base⟩
  · exact ⟨⟨rfl, rfl⟩, hcell.mode, hcell.base⟩
  · exact clearSelection_follows
  · exact ⟨⟨rfl, rfl⟩, hcell.mode, hcell.base⟩

theorem touchHold_follows (hplain : ∀ place, surface.touchHoldTimer = some place →
      Plain core.result .word (canvas.cellAt place.1 place.2)) :
    Follows (onTouchHold (mainThreadTerminalCore lib) canvas (mainOf surface core))
      (onTouchHold (workerTerminalCore lib) canvas ⟨surface, core⟩) := by
  unfold onTouchHold
  dsimp only
  split
  · exact hcell.same
  rename_i clientX clientY htimer
  have hbegun := @beginTouch_follows lib canvas { surface with touchHoldTimer := none } core
    hstate ⟨hcell.mode, hcell.base⟩ _ _ (hplain _ htimer)
  exact hbegun

theorem autoscroll_follows (hstill : Still (mainOf surface core))
    (hplain : ∀ place, surface.selectionPointer = some place →
      Plain core.result .cell (canvas.cellAt place.1 place.2)) :
    Follows (onAutoscroll (mainThreadTerminalCore lib) canvas (mainOf surface core))
      (onAutoscroll (workerTerminalCore lib) canvas ⟨surface, core⟩) := by
  have hscrolled := scrollViewport_result hstate surface.selectionScrollDelta
  unfold onAutoscroll
  dsimp only
  split
  · exact hcell.same
  split
  · exact ⟨⟨rfl, hscrolled⟩, hcell⟩
  rename_i clientX clientY hpointer
  rcases hstill with hzero | hnone | hanchor
  · have hmain : scrollViewport (mainThreadTerminalCore lib) surface.selectionScrollDelta
        core.result = core.result := if_pos hzero
    have hworker : scrollViewport (workerTerminalCore lib) surface.selectionScrollDelta core =
        core := by
      unfold scrollViewport
      refine if_pos ?_
      show clampedDelta core.state.scrollbar _ = 0
      rw [hstate]
      exact hzero
    rw [hmain, hworker]
    exact extend_follows hstate hcell (hplain _ hpointer)
  · exact absurd (hpointer.symm.trans hnone) (Option.some_ne_none _)
  · have hanchor' : surface.selectionAnchorScreen = none := hanchor
    unfold extendSelectionTo
    simp only [hanchor']
    exact ⟨⟨rfl, hscrolled⟩, hcell⟩

theorem handle_follows {action : Action lib}
    (hallow : Answerless canvas ⟨mainOf surface core, ⟨surface, core⟩⟩ action) :
    Follows (handle (mainThreadTerminalCore lib) canvas action.gesture (mainOf surface core))
      (handle (workerTerminalCore lib) canvas action.gesture ⟨surface, core⟩) := by
  obtain ⟨gesture, posted⟩ := action
  have hplain := hallow.2
  cases gesture with
  | pointerDown event => exact pointerDown_follows hstate hcell hplain
  | pointerMove event => exact pointerMove_follows hstate hcell hplain
  | pointerUp event => exact pointerUp_follows hcell
  | touchHold => exact touchHold_follows hstate hcell hplain
  | autoscroll => exact autoscroll_follows hstate hcell hplain.1 hplain.2
  | output data => exact ⟨⟨rfl, result_command core (.writeBytes data)⟩, hcell⟩

end

end Handlers

/-! ## Runs -/

/-- The two are the same between gestures. -/
structure Level (pair : Pair lib) : Prop where
  surface : pair.worker.surface = pair.main.surface
  terminal : pair.worker.core.terminal = pair.main.core
  commands : pair.worker.core.commands = []
  byCell : ByCell pair.main.surface

theorem Level.step {canvas : Canvas} {pair : Pair lib} {action : Action lib} (h : Level pair)
    (hallow : Answerless canvas pair action) : Level (pair.step canvas action) := by
  obtain ⟨⟨surface, terminal⟩, ⟨other, ⟨state, commands, inner⟩⟩⟩ := pair
  obtain ⟨hsurface, hterm, hcommands, hcell⟩ := h
  dsimp only at hsurface hterm hcommands
  subst hsurface hterm hcommands
  have hfoll := @handle_follows lib canvas _ ⟨state, [], inner⟩ hallow.1 hcell action hallow
  exact ⟨hfoll.surface, hfoll.result, rfl, hfoll.byCell⟩

theorem run_level {canvas : Canvas} {pair : Pair lib}
    (hrun : (gestures lib canvas).Run (Answerless canvas) pair) : Level pair := by
  refine hrun.invariant ?_ ?_
  · rintro _ ⟨terminal, state, rfl⟩
    exact ⟨rfl, rfl, rfl, rfl, rfl⟩
  · intro pair action after h hallow hstep
    cases hstep
    exact h.step hallow

/-- The same is selected over either core, as long as no gesture needs an answer. -/
theorem selections_agree (canvas : Canvas) {pair : Pair lib}
    (hrun : (gestures lib canvas).Run (Answerless canvas) pair) :
    lib.selection pair.worker.core.terminal = lib.selection pair.main.core := by
  rw [(run_level hrun).terminal]

/-! ## A word -/

def GhosttyPointInput.point : GhosttyPointInput → Point
  | .viewport point | .screen point => point

def word : Span := ⟨⟨0, 0⟩, ⟨4, 0⟩⟩

def oneWord : Ghostty where
  Output := Unit
  Terminal := Option Span
  Selection := Option Span
  selection := id
  calls :=
    { write := fun _ terminal => terminal
      scroll := fun _ terminal => terminal
      scrollbarState := fun _ => some ⟨1, 0, 1⟩
      isMouseTracking := fun _ => false
      isMouseAnyEventTracking := fun _ => false
      isAlternateScreen := fun _ => false
      setSelection := fun anchor focus _ => some ⟨anchor.point, focus.point⟩
      clearSelection := fun _ => none
      selectWord := fun _ _ => (some ⟨word, word⟩, some word)
      selectLine := fun _ _ => (some ⟨word, word⟩, some word)
      viewportPointToScreen := fun cell _ => some cell }

instance : DecidableEq oneWord.Selection := inferInstanceAs (DecidableEq (Option Span))

def oneRow : Canvas := ⟨fun _ _ => ⟨2, 0⟩, 0, 20, 20, false⟩

def pressAt (timeStamp : ℚ) : PointerEvent := ⟨1, false, 0, 25, 10, timeStamp, false, false, false⟩

def pressed : Pair oneWord :=
  (Pair.start none (stateOf oneWord none)).step oneRow ⟨.pointerDown (pressAt 0), some 1⟩

theorem selections_agree_press :
    oneWord.selection pressed.worker.core.terminal = oneWord.selection pressed.main.core :=
  selections_agree oneRow
    ((@System.Run.start _ _ (gestures oneWord oneRow) (Answerless oneRow) _
      ⟨none, stateOf oneWord none, rfl⟩).next (a := ⟨.pointerDown (pressAt 0), some 1⟩)
        ⟨rfl, fun _ => ⟨rfl, rfl⟩⟩ rfl)

/-- A double press selects the word over the main thread and nothing over a
worker. -/
theorem double_press_differs :
    ¬ ∀ (lib : Ghostty) (canvas : Canvas) (pair : Pair lib), (gestures lib canvas).Reachable pair →
      lib.selection pair.worker.core.terminal = lib.selection pair.main.core := by
  intro hclaim
  have hrun := ((((@System.Run.start _ _ (gestures oneWord oneRow) (fun _ _ => True) _
    ⟨none, stateOf oneWord none, rfl⟩).next (a := ⟨.pointerDown (pressAt 0), some 1⟩) trivial
      rfl).next (a := ⟨.pointerUp (pressAt 90), some 1⟩) trivial rfl).next
        (a := ⟨.pointerDown (pressAt 180), some 2⟩) trivial rfl).next
          (a := ⟨.pointerUp (pressAt 270), some 1⟩) trivial rfl
  have hsame := hclaim oneWord oneRow _ hrun
  revert hsame
  decide +kernel

end Yaade.Workers.Gestures

import Yaade.Mux.Ids
import Yaade.Mux.Panels

/-!
The layout of a window: a tree of panes with at most one terminal each.
-/

namespace Yaade.Mux

open List Option

def maxTerminalTiles : Nat := 6

/-- A pane is empty or shows one terminal. -/
inductive TerminalPaneView where
  | empty
  | terminal (muxTerminalId : MuxTerminalId)
  deriving DecidableEq

def TerminalPaneView.terminal? : TerminalPaneView → Option MuxTerminalId
  | .empty => none
  | .terminal muxTerminalId => some muxTerminalId

def TerminalPaneView.map (f : MuxTerminalId → MuxTerminalId) : TerminalPaneView → TerminalPaneView
  | .empty => .empty
  | .terminal muxTerminalId => .terminal (f muxTerminalId)

structure TerminalWorkspace where
  tree : PanelTree TerminalPaneView
  focusedPanelId : Nat
  zoomedPanelId : Option Nat

namespace TerminalWorkspace

def map (f : MuxTerminalId → MuxTerminalId) (workspace : TerminalWorkspace) : TerminalWorkspace :=
  { workspace with tree :=
    { workspace.tree with root := workspace.tree.root.mapView (TerminalPaneView.map f) } }

variable (workspace : TerminalWorkspace)

def terminalPaneCount : Nat := workspace.tree.visitLeaves.length

def terminalIds : List MuxTerminalId :=
  workspace.tree.visitLeaves.filterMap fun leaf => leaf.2.terminal?

def firstPanel (tree : PanelTree TerminalPaneView) : Nat :=
  (tree.visitLeaves.head?.map Prod.fst).getD tree.nextPanelId

def resolvedFocus (tree : PanelTree TerminalPaneView) (preferred : Nat) : Nat :=
  if tree.hasPanel preferred then preferred else firstPanel tree

def findTerminalPanel (tree : PanelTree TerminalPaneView) (muxTerminalId : MuxTerminalId) :
    Option Nat :=
  tree.findPanelWithView fun view => view = .terminal muxTerminalId

def removeTerminalPanel (tree : PanelTree TerminalPaneView) (panel : Nat) :
    PanelTree TerminalPaneView :=
  if !tree.hasPanel panel then tree
  else if tree.visitLeaves.length = 1 then tree.setView panel .empty
  else tree.closePanel .empty panel

def createTerminalWorkspace : TerminalWorkspace := ⟨⟨.leaf 1 .empty, 2⟩, 1, none⟩

def focusTerminalPanel (panel : Nat) : Option TerminalWorkspace :=
  if !workspace.tree.hasPanel panel then none
  else if workspace.focusedPanelId = panel ∧ workspace.zoomedPanelId = none then none
  else some { workspace with focusedPanelId := panel, zoomedPanelId := none }

def openTerminalView (muxTerminalId : MuxTerminalId) : Option TerminalWorkspace :=
  match findTerminalPanel workspace.tree muxTerminalId with
  | some existing => workspace.focusTerminalPanel existing
  | none =>
    let target := resolvedFocus workspace.tree workspace.focusedPanelId
    if (workspace.tree.getView target).getD .empty = .empty then
      some ⟨workspace.tree.setView target (.terminal muxTerminalId), target, none⟩
    else if workspace.terminalPaneCount ≥ maxTerminalTiles then none
    else
      let (tree, created) := workspace.tree.splitRight .empty target
      some ⟨tree.setView created (.terminal muxTerminalId), created, none⟩

def closeTerminalPanel (panel : Nat) : TerminalWorkspace :=
  if !workspace.tree.hasPanel panel then workspace
  else
    let tree := removeTerminalPanel workspace.tree panel
    ⟨tree, resolvedFocus tree workspace.focusedPanelId,
      if workspace.zoomedPanelId = some panel then none else workspace.zoomedPanelId⟩

def closeTerminalTab (panel : Nat) (muxTerminalId : MuxTerminalId) : TerminalWorkspace :=
  if workspace.tree.getView panel = some (.terminal muxTerminalId) then
    workspace.closeTerminalPanel panel
  else workspace

def missing (live : List MuxTerminalId) : List (Nat × MuxTerminalId) :=
  workspace.tree.visitLeaves.filterMap fun leaf =>
    (leaf.2.terminal?.filter fun id => id ∉ live).map fun id => (leaf.1, id)

def removeMissingTerminalViews (live : List MuxTerminalId) : TerminalWorkspace :=
  (workspace.missing live).foldl (fun next item => next.closeTerminalTab item.1 item.2) workspace

/-- Panes are closed while there are too many, empty ones first. Each round
closes one, so there are at most as many rounds as panes. -/
def capRestoredTerminalPanes : Nat → TerminalWorkspace → TerminalWorkspace
  | 0, next => next
  | rounds + 1, next =>
    if next.terminalPaneCount > maxTerminalTiles then
      let leaves := next.tree.visitLeaves.map Prod.fst
      match (leaves.find? fun panel => next.tree.getView panel = some .empty) <|> leaves.getLast? with
      | none => next
      | some panel => capRestoredTerminalPanes rounds (next.closeTerminalPanel panel)
    else next

def placeTerminals : List MuxTerminalId → List MuxTerminalId → TerminalWorkspace → TerminalWorkspace
  | _, [], workspace => workspace
  | opened, id :: rest, workspace =>
    if id ∈ opened then placeTerminals opened rest workspace
    else match workspace.openTerminalView id with
      | none => workspace
      | some next => placeTerminals (id :: opened) rest next

end TerminalWorkspace

/-- What the JSON text of a saved layout denotes. -/
structure PersistedTerminalWorkspace where
  version : Nat
  root : PanelNode TerminalPaneView
  nextPanelId : Nat
  focusedPanelId : Nat
  zoomedPanelId : Option Nat

/-- A layout as a server keeps it: the text of a persisted workspace, or any
other text. -/
inductive LayoutJson where
  | persisted (value : PersistedTerminalWorkspace)
  | other (text : String)

def maxSafeInteger : Nat := 9007199254740991

def positiveInteger (value : Nat) : Bool := 0 < value && value ≤ maxSafeInteger

namespace PanelNode

variable {ν : Type}

mutual

def validSchema : PanelNode ν → Bool
  | .leaf panelId _ => positiveInteger panelId
  | .split _ children ratios =>
    2 ≤ children.length && validSchemas children && 2 ≤ ratios.length && ratios.all (0 < ·)

def validSchemas : List (PanelNode ν) → Bool
  | [] => true
  | child :: rest => child.validSchema && validSchemas rest

end

mutual

def runtime : PanelNode ν → Option (PanelNode ν)
  | .leaf panelId view => some (.leaf panelId view)
  | .split kind children ratios =>
    if children.length ≠ ratios.length ∨ ratios.sum ≤ 0 then none
    else (runtimes children).map fun parsed =>
      .split kind parsed (ratios.map (· / ratios.sum))

def runtimes : List (PanelNode ν) → Option (List (PanelNode ν))
  | [] => some []
  | child :: rest => child.runtime.bind fun parsed => (runtimes rest).map (parsed :: ·)

end

mutual

/-- The splits have at least two children with a positive ratio each, and the
ratios are normalized. -/
def Balanced : PanelNode ν → Prop
  | .leaf _ _ => True
  | .split _ children ratios =>
    2 ≤ children.length ∧ ratios.length = children.length ∧ (∀ ratio ∈ ratios, 0 < ratio) ∧
      ratios.map (· / ratios.sum) = ratios ∧ AllBalanced children

def AllBalanced : List (PanelNode ν) → Prop
  | [] => True
  | child :: rest => child.Balanced ∧ AllBalanced rest

end

variable {children : List (PanelNode ν)}

theorem allBalanced_iff : AllBalanced children ↔ ∀ child ∈ children, child.Balanced := by
  induction children with
  | nil => simp [AllBalanced]
  | cons child rest ih => simp [AllBalanced, ih]

theorem validSchemas_iff :
    validSchemas children = true ↔ ∀ child ∈ children, child.validSchema = true := by
  induction children with
  | nil => simp [validSchemas]
  | cons child rest ih => simp [validSchemas, ih]

theorem runtimes_self
    (h : ∀ child ∈ children, child.runtime = some child) : runtimes children = some children := by
  induction children with
  | nil => rfl
  | cons child rest ih =>
    rw [runtimes, h child mem_cons_self,
      ih fun other hother => h other (mem_cons_of_mem child hother)]
    rfl

theorem Balanced.decodes {node : PanelNode ν} (h : node.Balanced)
    (hpanels : ∀ panel ∈ node.panels, positiveInteger panel = true) :
    node.validSchema = true ∧ node.runtime = some node := by
  induction node using ofLeaves with
  | leaf panelId view =>
    exact ⟨hpanels panelId (mem_singleton.mpr rfl), rfl⟩
  | split kind children ratios ih =>
    obtain ⟨hchildren, hlength, hpositive, hnormal, hall⟩ := h
    have hboth : ∀ child ∈ children, child.validSchema = true ∧ child.runtime = some child := by
      intro child hchild
      apply ih child hchild (allBalanced_iff.mp hall child hchild)
      intro panel hpanel
      obtain ⟨leaf, hleaf, rfl⟩ := List.mem_map.mp hpanel
      apply hpanels
      unfold panels
      rw [leaves, leavesOf_eq]
      exact mem_map_of_mem (mem_flatMap.mpr ⟨child, hchild, hleaf⟩)
    have hsum : 0 < ratios.sum := by
      apply sum_pos ratios hpositive
      intro hempty
      rw [hempty, length_nil] at hlength
      omega
    constructor
    · rw [validSchema, validSchemas_iff.mpr fun child hchild => (hboth child hchild).1]
      simp only [Bool.and_true, Bool.and_eq_true, decide_eq_true_eq, List.all_eq_true]
      exact ⟨⟨hchildren, by omega⟩, hpositive⟩
    · have hneither : ¬(children.length ≠ ratios.length ∨ ratios.sum ≤ 0) := by
        rintro (hne | hle)
        · exact hne hlength.symm
        · exact absurd hsum (not_lt_of_ge hle)
      rw [runtime, if_neg hneither, runtimes_self fun child hchild => (hboth child hchild).2,
        hnormal]
      rfl

end PanelNode

def PersistedTerminalWorkspace.validSchema (value : PersistedTerminalWorkspace) : Bool :=
  value.version = 1 && value.root.validSchema && positiveInteger value.nextPanelId &&
    positiveInteger value.focusedPanelId && value.zoomedPanelId.all positiveInteger

def parseTerminalWorkspace : Option LayoutJson → Option TerminalWorkspace
  | none | some (.other _) => none
  | some (.persisted decoded) =>
    if !decoded.validSchema then none
    else decoded.root.runtime.bind fun root =>
      let tree := PanelTree.fromSnapshot root decoded.nextPanelId
      if !tree.hasPanel decoded.focusedPanelId then none
      else some ⟨tree, decoded.focusedPanelId,
        decoded.zoomedPanelId.filter fun panel => tree.hasPanel panel⟩

def restoreTerminalWorkspace (layoutJson : Option LayoutJson)
    (liveMuxTerminalIds : List MuxTerminalId) : TerminalWorkspace :=
  let parsed := (parseTerminalWorkspace layoutJson).getD .createTerminalWorkspace
  let kept := parsed.removeMissingTerminalViews liveMuxTerminalIds
  let capped := kept.capRestoredTerminalPanes kept.terminalPaneCount
  capped.placeTerminals capped.terminalIds liveMuxTerminalIds

def serializeTerminalWorkspace (workspace : TerminalWorkspace) : LayoutJson :=
  .persisted ⟨1, workspace.tree.root, workspace.tree.nextPanelId, workspace.focusedPanelId,
    workspace.zoomedPanelId⟩

end Yaade.Mux

import Yaade.Mux.SharedLayout

/-!
The operations by which panes are opened, split, docked, resized and closed.
-/

namespace Yaade.Mux

open List

abbrev Number := Option ℚ

inductive Edge where
  | left
  | right
  | top
  | bottom
  | center
  deriving DecidableEq

/-- What no operation reads of an action is left out. -/
inductive DropAction where
  | moveToPane
  | split (edge : Edge)
  | insertAtBoundary
  deriving DecidableEq

/-! ## Trees -/

section Trees

variable {ν : Type}

def arrayIndex (index : Number) : Option Nat :=
  index.bind fun value => if value.den = 1 ∧ 0 ≤ value then some value.num.toNat else none

namespace PanelNode

def getAtPath (node : PanelNode ν) : List Number → Option (PanelNode ν)
  | [] => some node
  | index :: rest => match node with
      | .leaf _ _ => none
      | .split _ children _ =>
        ((arrayIndex index).bind (children[·]?)).bind fun child => child.getAtPath rest

def setRatiosAt (ratios : List ℚ) (node : PanelNode ν) : List Number → PanelNode ν
  | [] => match node with
      | .leaf panelId view => .leaf panelId view
      | .split kind children _ => .split kind children ratios
  | index :: rest => match node, arrayIndex index with
      | .split kind children old, some index =>
        .split kind (children.modify index fun child => child.setRatiosAt ratios rest) old
      | node, _ => node

end PanelNode

def Edge.behind : Edge → Bool
  | .right | .bottom => true
  | .left | .top | .center => false

def Edge.kind : Edge → SplitKind
  | .left | .right => .row
  | .top | .bottom | .center => .column

def besides (edge : Edge) (leaf newLeaf : PanelNode ν) : PanelNode ν :=
  .split edge.kind (if edge.behind then [leaf, newLeaf] else [newLeaf, leaf]) [1 / 2, 1 / 2]

def normalizedRatios (ratios : List Number) : Option (List ℚ) :=
  if ratios.any fun ratio => ratio.all (· ≤ 0) then none
  else
    let values := ratios.filterMap id
    if values.sum ≤ 0 then none else some (values.map (· / values.sum))

def ratiosChanged (old next : List ℚ) : Bool :=
  (List.zipWith (fun before after => decide (|after - before| > 1 / 1000)) old next).any id

namespace PanelTree

def splitAtEdge (emptyView : ν) (tree : PanelTree ν) (panel : Nat) (edge : Edge) :
    PanelTree ν × Nat :=
  (⟨tree.root.mapNode fun panelId view =>
      if panelId = panel then
        besides edge (.leaf panelId view) (.leaf tree.nextPanelId emptyView)
      else .leaf panelId view, tree.nextPanelId + 1⟩, tree.nextPanelId)

def setSplitRatios (tree : PanelTree ν) (path ratios : List Number) : Option (PanelTree ν) :=
  match tree.root.getAtPath path with
  | none | some (.leaf _ _) => none
  | some (.split _ children old) =>
    if ratios.length ≠ children.length then none
    else (normalizedRatios ratios).bind fun next =>
      if ratiosChanged old next then
        some { tree with root := tree.root.setRatiosAt next path } else none

end PanelTree

end Trees

/-! ## Operations -/

def DropAction.edge? : DropAction → Option Edge
  | .split edge => if edge = .center then none else some edge
  | .moveToPane | .insertAtBoundary => none

namespace TerminalWorkspace

variable (workspace : TerminalWorkspace)

def openTerminalViewInPanel (panel : Nat) (muxTerminalId : MuxTerminalId) :
    Option TerminalWorkspace :=
  match findTerminalPanel workspace.tree muxTerminalId with
  | some existing => workspace.focusTerminalPanel existing
  | none =>
    if !workspace.tree.hasPanel panel then workspace.openTerminalView muxTerminalId
    else if workspace.tree.getView panel ≠ some .empty then
      workspace.openTerminalView muxTerminalId
    else some ⟨workspace.tree.setView panel (.terminal muxTerminalId), panel, none⟩

def splitTerminalPanel (panel : Nat) (edge : Edge) : Option TerminalWorkspace :=
  if !workspace.tree.hasPanel panel then none
  else if workspace.terminalPaneCount ≥ maxTerminalTiles then none
  else
    let (tree, created) := workspace.tree.splitAtEdge .empty panel edge
    some ⟨tree, created, none⟩

def toggleTerminalPanelZoom (panel : Nat) : Option TerminalWorkspace :=
  if !workspace.tree.hasPanel panel || workspace.terminalPaneCount < 2 then none
  else some { workspace with
    focusedPanelId := panel
    zoomedPanelId := if workspace.zoomedPanelId = some panel then none else some panel }

def resizeTerminalSplit (path ratios : List Number) : Option TerminalWorkspace :=
  (workspace.tree.setSplitRatios path ratios).map fun tree => { workspace with tree := tree }

def besideTarget (tree : PanelTree TerminalPaneView) (target : Nat) (edge : Edge)
    (muxTerminalId : MuxTerminalId) : TerminalWorkspace :=
  let (tree, created) := tree.splitAtEdge .empty target edge
  ⟨tree.setView created (.terminal muxTerminalId), created, none⟩

def dockTerminalView (muxTerminalId : MuxTerminalId) (target : Nat) (action : DropAction) :
    Option TerminalWorkspace :=
  let tree := workspace.tree
  if !tree.hasPanel target then none
  else
    let source := findTerminalPanel tree muxTerminalId
    let targetView := tree.getView target
    if source = some target then workspace.focusTerminalPanel target
    else match DropAction.edge? action, source with
      | some edge, none =>
        if workspace.terminalPaneCount ≥ maxTerminalTiles then none
        else some (besideTarget tree target edge muxTerminalId)
      | some edge, some source =>
        let tree := removeTerminalPanel tree source
        if !tree.hasPanel target then none
        else some (besideTarget tree target edge muxTerminalId)
      | none, some source =>
        match targetView, tree.getView source with
        | some (.terminal shown), some (.terminal moved) =>
          some ⟨(tree.setView source (.terminal shown)).setView target (.terminal moved),
            target, none⟩
        | _, _ =>
          some ⟨removeTerminalPanel (tree.setView target (.terminal muxTerminalId)) source,
            target, none⟩
      | none, none =>
        if targetView = some .empty then
          some ⟨tree.setView target (.terminal muxTerminalId), target, none⟩
        else if workspace.terminalPaneCount ≥ maxTerminalTiles then none
        else some (besideTarget tree target .right muxTerminalId)

end TerminalWorkspace

/-! ## Trees that are well formed -/

namespace PanelNode

variable {ν μ : Type}

mutual

/-- Each split has at least two children, with as many positive ratios of sum 1. -/
def Tiled : PanelNode ν → Prop
  | .leaf _ _ => True
  | .split _ children ratios =>
    2 ≤ children.length ∧ ratios.length = children.length ∧ (∀ ratio ∈ ratios, 0 < ratio) ∧
      ratios.sum = 1 ∧ AllTiled children

def AllTiled : List (PanelNode ν) → Prop
  | [] => True
  | child :: rest => child.Tiled ∧ AllTiled rest

end

theorem allTiled_iff {children : List (PanelNode ν)} :
    AllTiled children ↔ ∀ child ∈ children, child.Tiled := by
  induction children with
  | nil => simp [AllTiled]
  | cons child rest ih => simp [AllTiled, ih]

variable {node : PanelNode ν}

theorem Tiled.balanced (h : node.Tiled) : node.Balanced := by
  induction node using ofLeaves with
  | leaf panelId view => trivial
  | split kind children ratios ih =>
    obtain ⟨hchildren, hlength, hpositive, hsum, hall⟩ := h
    refine ⟨hchildren, hlength, hpositive, ?_, allBalanced_iff.mpr fun child hchild =>
      ih child hchild (allTiled_iff.mp hall child hchild)⟩
    simp only [hsum, div_one, map_id']

theorem Tiled.mapNode {replace : Nat → ν → PanelNode μ} (h : node.Tiled)
    (hreplace : ∀ panelId view, (replace panelId view).Tiled) : (node.mapNode replace).Tiled := by
  induction node using ofLeaves with
  | leaf panelId view => exact hreplace panelId view
  | split kind children ratios ih =>
    obtain ⟨hchildren, hlength, hpositive, hsum, hall⟩ := h
    simp only [PanelNode.mapNode, mapNodes_eq]
    refine ⟨?_, ?_, hpositive, hsum, allTiled_iff.mpr ?_⟩
    · rw [length_map]
      exact hchildren
    · rw [length_map]
      exact hlength
    · intro other hother
      obtain ⟨child, hchild, rfl⟩ := mem_map.mp hother
      exact ih child hchild (allTiled_iff.mp hall child hchild)

theorem rebalanced {n : Nat} (h : 0 < n) : (rebalanceRatios n).length = n ∧
    (∀ ratio ∈ rebalanceRatios n, 0 < ratio) ∧ (rebalanceRatios n).sum = 1 := by
  have hpositive : (0 : ℚ) < n := Nat.cast_pos.mpr h
  unfold rebalanceRatios
  refine ⟨length_replicate, fun ratio hratio => ?_, ?_⟩
  · rw [eq_of_mem_replicate hratio]
    positivity
  · rw [sum_replicate, nsmul_eq_mul]
    field_simp

theorem removePanels_eq (panel : Nat) (children : List (PanelNode ν)) :
    removePanels panel children = children.filterMap (removePanel panel) := by
  induction children with
  | nil => rfl
  | cons child rest ih =>
    rw [removePanels, ih, filterMap_cons]
    cases child.removePanel panel with
    | none => rfl
    | some node => rfl

theorem Tiled.removePanel {node next : PanelNode ν} (h : node.Tiled) {panel : Nat}
    (hnext : node.removePanel panel = some next) : next.Tiled := by
  induction node using ofLeaves generalizing next with
  | leaf panelId view =>
    obtain ⟨-, hsome⟩ := Option.ite_none_left_eq_some.mp hnext
    cases hsome
    trivial
  | split kind children ratios ih =>
    obtain ⟨-, -, -, -, hall⟩ := h
    have hkept : ∀ child ∈ removePanels panel children, child.Tiled := by
      intro child hchild
      rw [removePanels_eq] at hchild
      obtain ⟨old, hold, hrem⟩ := mem_filterMap.mp hchild
      exact ih old hold (allTiled_iff.mp hall old hold) hrem
    rw [PanelNode.removePanel] at hnext
    split at hnext
    · cases hnext
    · rename_i child hsingle
      cases hnext
      apply hkept
      rw [hsingle]
      exact mem_cons_self
    · rename_i hempty hsingle
      cases hnext
      have htwo : 2 ≤ (removePanels panel children).length := by
        rcases hrem : removePanels panel children with _ | ⟨first, _ | ⟨second, rest⟩⟩
        · exact absurd hrem hempty
        · exact absurd hrem (hsingle first)
        · simp
      obtain ⟨hlength, hpositive, hsum⟩ := rebalanced (n := (removePanels panel children).length)
        (by omega)
      exact ⟨htwo, hlength, hpositive, hsum, allTiled_iff.mpr hkept⟩

/-! ### Ratios -/

theorem mem_modify {α : Type} {items : List α} {index : Nat} {f : α → α} {item : α}
    (h : item ∈ items.modify index f) : item ∈ items ∨ ∃ old ∈ items, items[index]? = some old ∧
      item = f old := by
  obtain ⟨place, hplace⟩ := mem_iff_getElem?.mp h
  rw [getElem?_modify] at hplace
  obtain ⟨old, hold, hitem⟩ := Option.map_eq_some_iff.mp hplace
  split at hitem
  · rename_i hsame
    exact .inr ⟨old, mem_of_getElem? hold, hsame ▸ hold, hitem.symm⟩
  · exact .inl (hitem ▸ mem_of_getElem? hold)

theorem leaves_setRatiosAt (ratios : List ℚ) (node : PanelNode ν) (path : List Number) :
    (node.setRatiosAt ratios path).leaves = node.leaves := by
  induction path generalizing node with
  | nil => cases node <;> rfl
  | cons index rest ih =>
    unfold setRatiosAt
    split
    · rename_i kind children old place hindex
      have hleaves : (children.modify place fun child => child.setRatiosAt ratios rest).map leaves =
          children.map leaves := by
        apply ext_getElem?
        intro other
        rw [getElem?_map, getElem?_map, getElem?_modify]
        cases children[other]? with
        | none => rfl
        | some child =>
          simp only [Option.map_eq_map, Option.map_some]
          split
          · rw [ih]
          · rfl
      rw [leaves, leaves, leavesOf_eq, leavesOf_eq, flatMap_def, flatMap_def, hleaves]
    · rfl

theorem Tiled.setRatiosAt (h : node.Tiled) {path : List Number}
    {kind : SplitKind} {children : List (PanelNode ν)} {old ratios : List ℚ}
    (hat : node.getAtPath path = some (.split kind children old))
    (hlength : ratios.length = children.length) (hpositive : ∀ ratio ∈ ratios, 0 < ratio)
    (hsum : ratios.sum = 1) : (node.setRatiosAt ratios path).Tiled := by
  induction path generalizing node with
  | nil =>
    cases hat
    exact ⟨h.1, hlength, hpositive, hsum, h.2.2.2.2⟩
  | cons index rest ih =>
    cases node with
    | leaf panelId view => cases hat
    | split outer nodes before =>
      obtain ⟨child, hchild, hrest⟩ := Option.bind_eq_some_iff.mp hat
      obtain ⟨place, hplace, hget⟩ := Option.bind_eq_some_iff.mp hchild
      obtain ⟨hnodes, hbef, hpositive', hsum', hall⟩ := h
      unfold PanelNode.setRatiosAt
      simp only [hplace]
      refine ⟨?_, ?_, hpositive', hsum', allTiled_iff.mpr fun other hother => ?_⟩
      · rw [length_modify]
        exact hnodes
      · rw [length_modify]
        exact hbef
      · rcases mem_modify hother with hold | ⟨changed, hmem, hchanged, rfl⟩
        · exact allTiled_iff.mp hall other hold
        have hsame : changed = child := Option.some.inj (hchanged.symm.trans hget)
        subst hsame
        exact ih (allTiled_iff.mp hall changed hmem) hrest

end PanelNode

theorem normalizedRatios_some {ratios : List Number} {next : List ℚ}
    (h : normalizedRatios ratios = some next) : next.length = ratios.length ∧
      (∀ ratio ∈ next, 0 < ratio) ∧ next.sum = 1 := by
  obtain ⟨hall, hrest⟩ := Option.ite_none_left_eq_some.mp h
  obtain ⟨hsum, hnext⟩ := Option.ite_none_left_eq_some.mp hrest
  cases hnext
  have hpositive : ∀ ratio ∈ ratios, ∃ value, ratio = some value ∧ 0 < value := by
    intro ratio hratio
    rw [Bool.not_eq_true, any_eq_false] at hall
    have hnot := hall ratio hratio
    cases ratio with
    | none => exact absurd rfl hnot
    | some value => exact ⟨value, rfl, by simpa using hnot⟩
  have hpositive' : 0 < (ratios.filterMap id).sum := not_le.mp hsum
  refine ⟨?_, ?_, ?_⟩
  · rw [length_map]
    clear hsum hpositive' h hrest hall
    induction ratios with
    | nil => rfl
    | cons first rest ih =>
      obtain ⟨value, rfl, -⟩ := hpositive first mem_cons_self
      have hrest := ih fun ratio hratio => hpositive ratio (mem_cons_of_mem _ hratio)
      rw [length_cons, ← hrest]
      rfl
  · intro ratio hratio
    obtain ⟨value, hvalue, rfl⟩ := mem_map.mp hratio
    obtain ⟨old, hold, hsome⟩ := mem_filterMap.mp hvalue
    obtain ⟨known, hknown, hlarge⟩ := hpositive old hold
    rw [id, hknown, Option.some.injEq] at hsome
    rw [← hsome]
    exact div_pos hlarge hpositive'
  · simp only [div_eq_mul_inv]
    rw [sum_map_mul_right, map_id', mul_inv_cancel₀ (ne_of_gt hpositive')]

end Yaade.Mux

import Yaade.Mux.TiledWorkspace

/-!
The tiling operations as they write to objects.
-/

namespace Yaade.Mux

open List
open Option hiding or_self

/-- An object is in the workspace that is given, or an operation makes it. -/
inductive Origin where
  | given
  | made
  deriving DecidableEq

/-- A value together with the objects written to on the way to it. -/
structure Writes (α : Type) where
  value : α
  written : List Origin

namespace Writes

variable {α β : Type}

instance : Monad Writes where
  pure value := ⟨value, []⟩
  bind step next := ⟨(next step.value).value, step.written ++ (next step.value).written⟩

def write (object : Origin) : Writes Unit := ⟨(), [object]⟩

def Sound (step : Writes α) (post : α → Prop) : Prop :=
  (∀ object ∈ step.written, object = .made) ∧ post step.value

theorem Sound.pure {post : α → Prop} {value : α} (h : post value) :
    (Pure.pure value : Writes α).Sound post :=
  ⟨fun _ hobject => absurd hobject not_mem_nil, h⟩

theorem Sound.bind {post : α → Prop} {post' : β → Prop} {step : Writes α} {next : α → Writes β}
    (h : step.Sound post) (hnext : ∀ value, post value → (next value).Sound post') :
    (step >>= next).Sound post' := by
  obtain ⟨hwrt, hvalue⟩ := hnext step.value h.2
  refine ⟨fun object hobject => ?_, hvalue⟩
  rcases mem_append.mp hobject with hfirst | hsecond
  · exact h.1 object hfirst
  · exact hwrt object hsecond

theorem Sound.write {object : Origin} (h : object = .made) :
    (Writes.write object).Sound fun _ => True :=
  ⟨fun _ hobject => (mem_singleton.mp hobject).trans h, trivial⟩

theorem Sound.mono {post post' : α → Prop} {step : Writes α} (h : step.Sound post)
    (himp : ∀ value, post value → post' value) : step.Sound post' :=
  ⟨h.1, himp _ h.2⟩

end Writes

open Writes

/-! ## Nodes -/

/-- A node, its `split` and its children are made together. -/
inductive ObjectNode where
  | leaf (object : Origin) (panelId : Nat) (view : TerminalPaneView)
  | split (object : Origin) (kind : SplitKind) (children : List ObjectNode) (ratios : List ℚ)

namespace ObjectNode

theorem ofLeaves {motive : ObjectNode → Prop}
    (leaf : ∀ object panelId view, motive (.leaf object panelId view))
    (split : ∀ object kind children ratios, (∀ child ∈ children, motive child) →
      motive (.split object kind children ratios)) (node : ObjectNode) : motive node :=
  @ObjectNode.rec motive (fun children => ∀ child ∈ children, motive child) leaf split
    (forall_mem_nil _)
    (fun _ _ hhead htail child hmem => (mem_cons.mp hmem).elim (fun h => h ▸ hhead) (htail child))
    node

mutual

def erase : ObjectNode → PanelNode TerminalPaneView
  | .leaf _ panelId view => .leaf panelId view
  | .split _ kind children ratios => .split kind (erases children) ratios

def erases : List ObjectNode → List (PanelNode TerminalPaneView)
  | [] => []
  | child :: rest => child.erase :: erases rest

end

mutual

def Made : ObjectNode → Prop
  | .leaf object _ _ => object = .made
  | .split object _ children _ => object = .made ∧ AllMade children

def AllMade : List ObjectNode → Prop
  | [] => True
  | child :: rest => child.Made ∧ AllMade rest

end

mutual

def clone : ObjectNode → ObjectNode
  | .leaf _ panelId view => .leaf .made panelId view
  | .split _ kind children ratios => .split .made kind (clones children) ratios

def clones : List ObjectNode → List ObjectNode
  | [] => []
  | child :: rest => child.clone :: clones rest

end

mutual

def setView (panel : Nat) (view : TerminalPaneView) : ObjectNode → Writes ObjectNode
  | .leaf object panelId old =>
    if panelId = panel then do
      write object
      pure (.leaf object panelId view)
    else pure (.leaf object panelId old)
  | .split object kind children ratios => do
      let children ← setViews panel view children
      pure (.split object kind children ratios)

def setViews (panel : Nat) (view : TerminalPaneView) : List ObjectNode → Writes (List ObjectNode)
  | [] => pure []
  | child :: rest => do
      let child ← child.setView panel view
      let rest ← setViews panel view rest
      pure (child :: rest)

end

mutual

def mapNode (replace : Origin → Nat → TerminalPaneView → ObjectNode) : ObjectNode → ObjectNode
  | .leaf object panelId view => replace object panelId view
  | .split _ kind children ratios => .split .made kind (mapNodes replace children) ratios

def mapNodes (replace : Origin → Nat → TerminalPaneView → ObjectNode) :
    List ObjectNode → List ObjectNode
  | [] => []
  | child :: rest => child.mapNode replace :: mapNodes replace rest

end

mutual

def removePanel (panel : Nat) : ObjectNode → Option ObjectNode
  | .leaf object panelId view => if panelId = panel then none else some (.leaf object panelId view)
  | .split _ kind children _ =>
    match removePanels panel children with
    | [] => none
    | [child] => some child
    | children => some (.split .made kind children (PanelNode.rebalanceRatios children.length))

def removePanels (panel : Nat) : List ObjectNode → List ObjectNode
  | [] => []
  | child :: rest => (child.removePanel panel).toList ++ removePanels panel rest

end

def getAtPath (node : ObjectNode) : List Number → Option ObjectNode
  | [] => some node
  | index :: rest => match node with
      | .leaf _ _ _ => none
      | .split _ _ children _ =>
        ((arrayIndex index).bind (children[·]?)).bind fun child => child.getAtPath rest

/-- The node with other ratios where the path leads, all of it the same objects. -/
def setRatiosAt (ratios : List ℚ) (node : ObjectNode) : List Number → ObjectNode
  | [] => match node with
      | .leaf object panelId view => .leaf object panelId view
      | .split object kind children _ => .split object kind children ratios
  | index :: rest => match node, arrayIndex index with
      | .split object kind children old, some index =>
        .split object kind (children.modify index fun child => child.setRatiosAt ratios rest) old
      | node, _ => node

theorem erases_eq (children : List ObjectNode) : erases children = children.map erase := by
  induction children with
  | nil => rfl
  | cons child rest ih => rw [erases, ih, map_cons]

theorem allMade_iff {children : List ObjectNode} :
    AllMade children ↔ ∀ child ∈ children, child.Made := by
  induction children with
  | nil => simp [AllMade]
  | cons child rest ih => simp [AllMade, ih]

theorem clones_eq (children : List ObjectNode) : clones children = children.map clone := by
  induction children with
  | nil => rfl
  | cons child rest ih => rw [clones, ih, map_cons]

theorem mapNodes_eq (replace : Origin → Nat → TerminalPaneView → ObjectNode)
    (children : List ObjectNode) : mapNodes replace children = children.map (mapNode replace) := by
  induction children with
  | nil => rfl
  | cons child rest ih => rw [mapNodes, ih, map_cons]

theorem removePanels_eq (panel : Nat) (children : List ObjectNode) :
    removePanels panel children = children.filterMap (removePanel panel) := by
  induction children with
  | nil => rfl
  | cons child rest ih =>
    rw [removePanels, ih, filterMap_cons]
    cases child.removePanel panel with
    | none => rfl
    | some node => rfl

theorem clone_made (node : ObjectNode) : node.clone.Made ∧ node.clone.erase = node.erase := by
  induction node using ofLeaves with
  | leaf object panelId view => exact ⟨rfl, rfl⟩
  | split object kind children ratios ih =>
    refine ⟨⟨rfl, allMade_iff.mpr fun other hother => ?_⟩, ?_⟩
    · rw [clones_eq] at hother
      obtain ⟨child, hchild, rfl⟩ := List.mem_map.mp hother
      exact (ih child hchild).1
    · rw [clone, erase, erase, clones_eq, erases_eq, erases_eq, List.map_map]
      congr 1
      exact map_congr_left fun child hchild => (ih child hchild).2

variable {node : ObjectNode}

theorem setView_sound (h : node.Made) (panel : Nat) (view : TerminalPaneView) :
    (node.setView panel view).Sound fun next => next.Made ∧ next.erase =
      node.erase.mapNode fun panelId old =>
        if panelId = panel then .leaf panelId view else .leaf panelId old := by
  induction node using ofLeaves with
  | leaf object panelId old =>
    rw [setView, erase, PanelNode.mapNode]
    split
    · exact (Sound.write h).bind fun _ _ => Sound.pure ⟨h, rfl⟩
    · exact Sound.pure ⟨h, rfl⟩
  | split object kind children ratios ih =>
    obtain ⟨hobject, hchildren⟩ := h
    have hviews : (setViews panel view children).Sound fun next => AllMade next ∧
        erases next = PanelNode.mapNodes (fun panelId old =>
          if panelId = panel then .leaf panelId view else .leaf panelId old) (erases children) := by
      clear ratios
      induction children with
      | nil => exact Sound.pure ⟨trivial, rfl⟩
      | cons child rest ihrest =>
        refine (ih child mem_cons_self hchildren.1).bind fun next hnext => ?_
        refine (ihrest (fun other hother => ih other (mem_cons_of_mem _ hother))
          hchildren.2).bind fun others hothers => Sound.pure ⟨⟨hnext.1, hothers.1⟩, ?_⟩
        rw [erases, erases, PanelNode.mapNodes, hnext.2, hothers.2]
    refine hviews.bind fun next hnext => Sound.pure ⟨⟨hobject, hnext.1⟩, ?_⟩
    rw [erase, erase, PanelNode.mapNode, hnext.2]

theorem mapNode_made (h : node.Made) (replace : Origin → Nat → TerminalPaneView → ObjectNode)
    (replace' : Nat → TerminalPaneView → PanelNode TerminalPaneView)
    (hreplace : ∀ panelId view, (replace .made panelId view).Made ∧
      (replace .made panelId view).erase = replace' panelId view) :
    (node.mapNode replace).Made ∧ (node.mapNode replace).erase = node.erase.mapNode replace' := by
  induction node using ofLeaves with
  | leaf object panelId view =>
    have hobject : object = .made := h
    subst hobject
    exact hreplace panelId view
  | split object kind children ratios ih =>
    have hboth : ∀ child ∈ children, (child.mapNode replace).Made ∧
        (child.mapNode replace).erase = child.erase.mapNode replace' := fun child hchild =>
      ih child hchild (allMade_iff.mp h.2 child hchild)
    refine ⟨⟨rfl, allMade_iff.mpr fun other hother => ?_⟩, ?_⟩
    · rw [mapNodes_eq] at hother
      obtain ⟨child, hchild, rfl⟩ := List.mem_map.mp hother
      exact (hboth child hchild).1
    · rw [mapNode, erase, erase, PanelNode.mapNode, mapNodes_eq, erases_eq, erases_eq,
        PanelNode.mapNodes_eq, List.map_map, List.map_map]
      congr 1
      exact map_congr_left fun child hchild => (hboth child hchild).2

theorem removePanel_made (h : node.Made) (panel : Nat) :
    (∀ next, node.removePanel panel = some next → next.Made) ∧
      (node.removePanel panel).map erase = node.erase.removePanel panel := by
  induction node using ofLeaves with
  | leaf object panelId view =>
    rw [removePanel, erase, PanelNode.removePanel]
    split
    · refine ⟨fun next hnext => ?_, rfl⟩
      cases hnext
    refine ⟨fun next hnext => ?_, rfl⟩
    cases hnext
    exact h
  | split object kind children ratios ih =>
    have hboth := fun child hchild => ih child hchild (allMade_iff.mp h.2 child hchild)
    have hmade : ∀ child ∈ removePanels panel children, child.Made := by
      intro child hchild
      rw [removePanels_eq] at hchild
      obtain ⟨old, hold, hsome⟩ := mem_filterMap.mp hchild
      exact (hboth old hold).1 child hsome
    have herase : (removePanels panel children).map erase =
        PanelNode.removePanels panel (erases children) := by
      rw [removePanels_eq, PanelNode.removePanels_eq, erases_eq, map_filterMap, filterMap_map]
      exact filterMap_congr fun child hchild => (hboth child hchild).2
    rw [removePanel, erase, PanelNode.removePanel, ← herase]
    rcases hrem : removePanels panel children with _ | ⟨first, _ | ⟨second, rest⟩⟩
    · refine ⟨fun next hnext => ?_, rfl⟩
      cases hnext
    · refine ⟨fun next hnext => ?_, rfl⟩
      cases hnext
      exact hmade _ (hrem ▸ mem_cons_self)
    · refine ⟨fun next hnext => ?_, ?_⟩
      · cases hnext
        exact ⟨rfl, allMade_iff.mpr (hrem ▸ hmade)⟩
      · simp only [map_cons, map_some, erase, erases_eq, length_cons, length_map]

theorem getAtPath_erase (node : ObjectNode) (path : List Number) :
    (node.getAtPath path).map erase = node.erase.getAtPath path := by
  induction path generalizing node with
  | nil => rfl
  | cons index rest ih =>
    cases node with
    | leaf object panelId view => rfl
    | split object kind children ratios =>
      rw [getAtPath, erase, PanelNode.getAtPath, erases_eq]
      cases arrayIndex index with
      | none => rfl
      | some place =>
        simp only [bind_some, getElem?_map]
        cases children[place]? with
        | none => rfl
        | some child => exact ih child

theorem getAtPath_made {found : ObjectNode} (h : node.Made) {path : List Number}
    (hfound : node.getAtPath path = some found) : found.Made := by
  induction path generalizing node with
  | nil =>
    cases hfound
    exact h
  | cons index rest ih =>
    cases node with
    | leaf object panelId view => cases hfound
    | split object kind children ratios =>
      obtain ⟨child, hchild, hrest⟩ := bind_eq_some_iff.mp hfound
      obtain ⟨place, -, hget⟩ := bind_eq_some_iff.mp hchild
      exact ih (allMade_iff.mp h.2 child (mem_of_getElem? hget)) hrest

theorem setRatiosAt_made (h : node.Made) (ratios : List ℚ)
    (path : List Number) : (node.setRatiosAt ratios path).Made ∧
      (node.setRatiosAt ratios path).erase = node.erase.setRatiosAt ratios path := by
  induction path generalizing node with
  | nil =>
    cases node with
    | leaf | split => exact ⟨h, rfl⟩
  | cons index rest ih =>
    cases node with
    | leaf object panelId view => exact ⟨h, rfl⟩
    | split object kind children old =>
      rw [erase]
      unfold setRatiosAt PanelNode.setRatiosAt
      cases arrayIndex index with
      | none => exact ⟨h, rfl⟩
      | some place =>
        refine ⟨⟨h.1, allMade_iff.mpr fun other hother => ?_⟩, ?_⟩
        · rcases PanelNode.mem_modify hother with hold | ⟨child, hchild, -, rfl⟩
          · exact allMade_iff.mp h.2 other hold
          · exact (ih (allMade_iff.mp h.2 child hchild)).1
        · simp only [erase, erases_eq]
          congr 1
          apply ext_getElem?
          intro other
          rw [getElem?_map, getElem?_modify, getElem?_modify, getElem?_map]
          cases hchild : children[other]? with
          | none => rfl
          | some child =>
            have hmade := allMade_iff.mp h.2 child (mem_of_getElem? hchild)
            simp only [Option.map_eq_map, map_some]
            split
            · rw [(ih hmade).2]
            · rfl

end ObjectNode

/-! ## Trees -/

structure ObjectTree where
  object : Origin
  root : ObjectNode
  nextPanelId : Nat

namespace ObjectTree

variable (tree : ObjectTree)

def erase : PanelTree TerminalPaneView := ⟨tree.root.erase, tree.nextPanelId⟩

def Made : Prop := tree.object = .made ∧ tree.root.Made

def clone : ObjectTree := ⟨.made, tree.root.clone, tree.nextPanelId⟩

def setView (panel : Nat) (view : TerminalPaneView) : Writes ObjectTree := do
  let root ← tree.root.setView panel view
  pure { tree with root := root }

def splitAtEdge (panel : Nat) (edge : Edge) : Writes (ObjectTree × Nat) := do
  write tree.object
  let newLeaf := ObjectNode.leaf .made tree.nextPanelId .empty
  pure (⟨tree.object, tree.root.mapNode fun object panelId view =>
    let leaf := ObjectNode.leaf object panelId view
    if panelId = panel then
      .split .made edge.kind (if edge.behind then [leaf, newLeaf] else [newLeaf, leaf])
        [1 / 2, 1 / 2]
    else leaf, tree.nextPanelId + 1⟩, tree.nextPanelId)

def closePanel (panel : Nat) : Writes ObjectTree := do
  write tree.object
  pure (match tree.root.removePanel panel with
    | some root => { tree with root := root }
    | none => ⟨tree.object, .leaf .made tree.nextPanelId .empty, tree.nextPanelId + 1⟩)

def setSplitRatios (path ratios : List Number) : Writes (Option ObjectTree) :=
  match tree.root.getAtPath path with
  | none | some (.leaf _ _ _) => pure none
  | some (.split object _ children old) =>
    if ratios.length ≠ children.length then pure none
    else match normalizedRatios ratios with
      | none => pure none
      | some next =>
        if ratiosChanged old next then do
          write object
          pure (some { tree with root := tree.root.setRatiosAt next path })
        else pure none

def removeTerminalPanel (panel : Nat) : Writes ObjectTree :=
  if !tree.erase.hasPanel panel then pure tree
  else if tree.erase.visitLeaves.length = 1 then tree.setView panel .empty
  else tree.closePanel panel

variable {tree}

theorem clone_made : tree.clone.Made ∧ tree.clone.erase = tree.erase := by
  obtain ⟨hmade, herase⟩ := tree.root.clone_made
  refine ⟨⟨rfl, hmade⟩, ?_⟩
  unfold clone erase
  rw [herase]

section

variable (h : tree.Made)
include h

theorem setView_sound (panel : Nat) (view : TerminalPaneView) :
    (tree.setView panel view).Sound fun next =>
      next.Made ∧ next.erase = tree.erase.setView panel view := by
  refine (ObjectNode.setView_sound h.2 panel view).bind fun root hroot => Sound.pure ⟨⟨h.1, hroot.1⟩, ?_⟩
  unfold erase PanelTree.setView
  rw [hroot.2]

theorem splitAtEdge_sound (panel : Nat) (edge : Edge) :
    (tree.splitAtEdge panel edge).Sound fun next =>
      next.1.Made ∧ (next.1.erase, next.2) = tree.erase.splitAtEdge .empty panel edge := by
  refine (Sound.write h.1).bind fun _ _ => ?_
  obtain ⟨hmade, herase⟩ := ObjectNode.mapNode_made h.2
    (fun object panelId view =>
      if panelId = panel then
        .split .made edge.kind
          (if edge.behind then
            [ObjectNode.leaf object panelId view, .leaf .made tree.nextPanelId .empty]
          else [.leaf .made tree.nextPanelId .empty, ObjectNode.leaf object panelId view])
          [1 / 2, 1 / 2]
      else ObjectNode.leaf object panelId view)
    (fun panelId view =>
      if panelId = panel then
        besides edge (.leaf panelId view) (.leaf tree.nextPanelId .empty)
      else .leaf panelId view) fun panelId view => by
        unfold besides
        split
        · cases edge.behind with
          | true | false => exact ⟨⟨rfl, rfl, rfl, trivial⟩, rfl⟩
        · exact ⟨rfl, rfl⟩
  refine Sound.pure ⟨⟨h.1, hmade⟩, ?_⟩
  unfold PanelTree.splitAtEdge erase
  exact congrArg (fun root => (PanelTree.mk root (tree.nextPanelId + 1), tree.nextPanelId)) herase

theorem closePanel_sound (panel : Nat) : (tree.closePanel panel).Sound fun next =>
      next.Made ∧ next.erase = tree.erase.closePanel .empty panel := by
  refine (Sound.write h.1).bind fun _ _ => Sound.pure ?_
  obtain ⟨hmade, herase⟩ := ObjectNode.removePanel_made h.2 panel
  unfold PanelTree.closePanel
  cases hrem : tree.root.removePanel panel with
  | none =>
    have hnone : tree.erase.root.removePanel panel = none := by
      rw [erase, ← herase, hrem]
      rfl
    rw [hnone]
    exact ⟨⟨h.1, rfl⟩, rfl⟩
  | some root =>
    have hsome : tree.erase.root.removePanel panel = some root.erase := by
      rw [erase, ← herase, hrem]
      rfl
    rw [hsome]
    exact ⟨⟨h.1, hmade root hrem⟩, rfl⟩

theorem removeTerminalPanel_sound (panel : Nat) :
    (tree.removeTerminalPanel panel).Sound fun next =>
      next.Made ∧ next.erase = TerminalWorkspace.removeTerminalPanel tree.erase panel := by
  unfold removeTerminalPanel TerminalWorkspace.removeTerminalPanel
  split
  · exact Sound.pure ⟨h, rfl⟩
  split
  · exact setView_sound h panel .empty
  · exact closePanel_sound h panel

theorem setSplitRatios_sound (path ratios : List Number) :
    (tree.setSplitRatios path ratios).Sound fun next =>
      next.map erase = tree.erase.setSplitRatios path ratios := by
  have hread : tree.erase.root.getAtPath path = (tree.root.getAtPath path).map ObjectNode.erase :=
    (ObjectNode.getAtPath_erase tree.root path).symm
  unfold setSplitRatios PanelTree.setSplitRatios
  rw [hread]
  cases hfound : tree.root.getAtPath path with
  | none => exact Sound.pure rfl
  | some node =>
    have hmade := ObjectNode.getAtPath_made h.2 hfound
    cases node with
    | leaf object panelId view => exact Sound.pure rfl
    | split object kind children old =>
      simp only [map_some, ObjectNode.erase, ObjectNode.erases_eq, length_map]
      split
      · exact Sound.pure rfl
      cases normalizedRatios ratios with
      | none => exact Sound.pure rfl
      | some next =>
        simp only [bind_some]
        split
        · refine (Sound.write hmade.1).bind fun _ _ => Sound.pure ?_
          simp only [map_some, erase, (ObjectNode.setRatiosAt_made h.2 next path).2]
        · exact Sound.pure rfl

end

end ObjectTree

/-! ## Operations -/

structure ObjectWorkspace where
  tree : ObjectTree
  focusedPanelId : Nat
  zoomedPanelId : Option Nat

namespace ObjectWorkspace

open TerminalWorkspace (findTerminalPanel resolvedFocus)

variable (workspace : ObjectWorkspace)

def erase : TerminalWorkspace :=
  ⟨workspace.tree.erase, workspace.focusedPanelId, workspace.zoomedPanelId⟩

def focusTerminalPanel (panel : Nat) : Option ObjectWorkspace :=
  if !workspace.tree.erase.hasPanel panel then none
  else if workspace.focusedPanelId = panel ∧ workspace.zoomedPanelId = none then none
  else some { workspace with focusedPanelId := panel, zoomedPanelId := none }

def filled (panel : Nat) (muxTerminalId : MuxTerminalId) : Writes (Option ObjectWorkspace) := do
  let tree ← workspace.tree.clone.setView panel (.terminal muxTerminalId)
  pure (some ⟨tree, panel, none⟩)

def beside (tree : ObjectTree) (target : Nat) (edge : Edge) (muxTerminalId : MuxTerminalId) :
    Writes (Option ObjectWorkspace) := do
  let (tree, created) ← tree.splitAtEdge target edge
  let tree ← tree.setView created (.terminal muxTerminalId)
  pure (some ⟨tree, created, none⟩)

def openTerminalView (muxTerminalId : MuxTerminalId) : Writes (Option ObjectWorkspace) :=
  match findTerminalPanel workspace.tree.erase muxTerminalId with
  | some existing => pure (workspace.focusTerminalPanel existing)
  | none =>
    let tree := workspace.tree.clone
    let target := resolvedFocus tree.erase workspace.focusedPanelId
    if (tree.erase.getView target).getD .empty = .empty then workspace.filled target muxTerminalId
    else if workspace.erase.terminalPaneCount ≥ maxTerminalTiles then pure none
    else beside tree target .right muxTerminalId

def openTerminalViewInPanel (panel : Nat) (muxTerminalId : MuxTerminalId) :
    Writes (Option ObjectWorkspace) :=
  match findTerminalPanel workspace.tree.erase muxTerminalId with
  | some existing => pure (workspace.focusTerminalPanel existing)
  | none =>
    if !workspace.tree.erase.hasPanel panel then workspace.openTerminalView muxTerminalId
    else if workspace.tree.erase.getView panel ≠ some .empty then
      workspace.openTerminalView muxTerminalId
    else workspace.filled panel muxTerminalId

def splitTerminalPanel (panel : Nat) (edge : Edge) : Writes (Option ObjectWorkspace) :=
  if !workspace.tree.erase.hasPanel panel then pure none
  else if workspace.erase.terminalPaneCount ≥ maxTerminalTiles then pure none
  else do
    let (tree, created) ← workspace.tree.clone.splitAtEdge panel edge
    pure (some ⟨tree, created, none⟩)

def toggleTerminalPanelZoom (panel : Nat) : Option ObjectWorkspace :=
  if !workspace.tree.erase.hasPanel panel || workspace.erase.terminalPaneCount < 2 then none
  else some { workspace with
    focusedPanelId := panel
    zoomedPanelId := if workspace.zoomedPanelId = some panel then none else some panel }

def closeTerminalPanel (panel : Nat) : Writes ObjectWorkspace :=
  if !workspace.tree.erase.hasPanel panel then pure workspace
  else do
    let tree ← workspace.tree.clone.removeTerminalPanel panel
    pure ⟨tree, resolvedFocus tree.erase workspace.focusedPanelId,
      if workspace.zoomedPanelId = some panel then none else workspace.zoomedPanelId⟩

def closeTerminalTab (panel : Nat) (muxTerminalId : MuxTerminalId) : Writes ObjectWorkspace :=
  if workspace.tree.erase.getView panel = some (.terminal muxTerminalId) then
    workspace.closeTerminalPanel panel
  else pure workspace

def resizeTerminalSplit (path ratios : List Number) : Writes (Option ObjectWorkspace) := do
  let tree ← workspace.tree.clone.setSplitRatios path ratios
  pure (tree.map fun tree => { workspace with tree := tree })

def dockTerminalView (muxTerminalId : MuxTerminalId) (target : Nat) (action : DropAction) :
    Writes (Option ObjectWorkspace) :=
  if !workspace.tree.erase.hasPanel target then pure none
  else
    let source := findTerminalPanel workspace.tree.erase muxTerminalId
    if source = some target then pure (workspace.focusTerminalPanel target)
    else
      let tree := workspace.tree.clone
      let targetView := tree.erase.getView target
      match action.edge?, source with
      | some edge, none =>
        if workspace.erase.terminalPaneCount ≥ maxTerminalTiles then pure none
        else beside tree target edge muxTerminalId
      | some edge, some source => do
          let tree ← tree.removeTerminalPanel source
          if !tree.erase.hasPanel target then pure none
          else beside tree target edge muxTerminalId
      | none, some source =>
        match targetView, tree.erase.getView source with
        | some (.terminal shown), some (.terminal moved) => do
            let tree ← tree.setView source (.terminal shown)
            let tree ← tree.setView target (.terminal moved)
            pure (some ⟨tree, target, none⟩)
        | _, _ => do
            let tree ← tree.setView target (.terminal muxTerminalId)
            let tree ← tree.removeTerminalPanel source
            pure (some ⟨tree, target, none⟩)
      | none, none =>
        if targetView = some TerminalPaneView.empty then workspace.filled target muxTerminalId
        else if workspace.erase.terminalPaneCount ≥ maxTerminalTiles then pure none
        else beside tree target .right muxTerminalId

def removeAll : List (Nat × MuxTerminalId) → ObjectWorkspace → Writes ObjectWorkspace
  | [], next => pure next
  | item :: rest, next => do
      let next ← next.closeTerminalTab item.1 item.2
      removeAll rest next

def removeMissingTerminalViews (live : List MuxTerminalId) : Writes ObjectWorkspace :=
  removeAll (workspace.erase.missing live) workspace

variable {workspace}

/-- The operation on objects gives what is read as the result of the one on values. -/
def Follows (step : Writes (Option ObjectWorkspace)) (next : Option TerminalWorkspace) : Prop :=
  step.Sound fun result => result.map erase = next

theorem erase_tree : workspace.erase.tree = workspace.tree.erase := rfl

theorem erase_focused : workspace.erase.focusedPanelId = workspace.focusedPanelId := rfl

theorem clone_erase (workspace : ObjectWorkspace) : workspace.tree.clone.erase = workspace.tree.erase :=
  ObjectTree.clone_made.2

variable (panel : Nat)

theorem focusTerminalPanel_erase :
    (workspace.focusTerminalPanel panel).map erase = workspace.erase.focusTerminalPanel panel := by
  unfold focusTerminalPanel TerminalWorkspace.focusTerminalPanel erase
  split
  · rfl
  · split <;> rfl

theorem filled_sound (id : MuxTerminalId) : Follows (workspace.filled panel id)
      (some ⟨workspace.tree.erase.setView panel (.terminal id), panel, none⟩) := by
  refine (ObjectTree.setView_sound ObjectTree.clone_made.1 _ _).bind fun tree htree => Sound.pure ?_
  rw [map_some, erase, htree.2, clone_erase]

theorem beside_sound {tree : ObjectTree} (h : tree.Made) (target : Nat) (edge : Edge)
    (id : MuxTerminalId) : Follows (beside tree target edge id)
      (some (TerminalWorkspace.besideTarget tree.erase target edge id)) := by
  refine (ObjectTree.splitAtEdge_sound h target edge).bind fun (split, created) hsplit => ?_
  refine (ObjectTree.setView_sound hsplit.1 _ _).bind fun next hnext => Sound.pure ?_
  unfold TerminalWorkspace.besideTarget
  rw [map_some, erase, hnext.2, ← hsplit.2]

theorem beside_clone (target : Nat) (edge : Edge) (id : MuxTerminalId) :
    Follows (beside workspace.tree.clone target edge id)
      (some (TerminalWorkspace.besideTarget workspace.tree.erase target edge id)) :=
  clone_erase workspace ▸ beside_sound ObjectTree.clone_made.1 target edge id

theorem openTerminalView_sound (id : MuxTerminalId) :
    Follows (workspace.openTerminalView id) (workspace.erase.openTerminalView id) := by
  unfold openTerminalView TerminalWorkspace.openTerminalView
  rw [erase_tree, erase_focused]
  cases findTerminalPanel workspace.tree.erase id with
  | some existing => exact Sound.pure (focusTerminalPanel_erase existing)
  | none =>
    simp only [clone_erase]
    split
    · exact filled_sound _ id
    split
    · exact Sound.pure rfl
    · exact beside_clone _ .right id

theorem openTerminalViewInPanel_sound (id : MuxTerminalId) :
    Follows (workspace.openTerminalViewInPanel panel id)
      (workspace.erase.openTerminalViewInPanel panel id) := by
  unfold openTerminalViewInPanel TerminalWorkspace.openTerminalViewInPanel
  rw [erase_tree]
  cases findTerminalPanel workspace.tree.erase id with
  | some existing => exact Sound.pure (focusTerminalPanel_erase existing)
  | none =>
    simp only
    split
    · exact openTerminalView_sound id
    split
    · exact openTerminalView_sound id
    · exact filled_sound panel id

theorem splitTerminalPanel_sound (edge : Edge) : Follows (workspace.splitTerminalPanel panel edge)
      (workspace.erase.splitTerminalPanel panel edge) := by
  unfold splitTerminalPanel TerminalWorkspace.splitTerminalPanel
  rw [erase_tree]
  split
  · exact Sound.pure rfl
  split
  · exact Sound.pure rfl
  refine (ObjectTree.splitAtEdge_sound ObjectTree.clone_made.1 panel edge).bind
    fun (tree, created) hsplit => Sound.pure ?_
  rw [clone_erase] at hsplit
  rw [← hsplit.2]
  rfl

theorem toggleTerminalPanelZoom_erase : (workspace.toggleTerminalPanelZoom panel).map erase =
      workspace.erase.toggleTerminalPanelZoom panel := by
  unfold toggleTerminalPanelZoom TerminalWorkspace.toggleTerminalPanelZoom
  rw [erase_tree]
  split <;> rfl

theorem closeTerminalPanel_sound : (workspace.closeTerminalPanel panel).Sound fun next =>
      next.erase = workspace.erase.closeTerminalPanel panel := by
  unfold closeTerminalPanel TerminalWorkspace.closeTerminalPanel
  rw [erase_tree]
  split
  · exact Sound.pure rfl
  refine (ObjectTree.removeTerminalPanel_sound ObjectTree.clone_made.1 panel).bind
    fun tree htree => Sound.pure ?_
  rw [clone_erase] at htree
  simp only [erase, htree.2]
  rfl

theorem closeTerminalTab_sound (id : MuxTerminalId) :
    (workspace.closeTerminalTab panel id).Sound fun next =>
      next.erase = workspace.erase.closeTerminalTab panel id := by
  unfold closeTerminalTab TerminalWorkspace.closeTerminalTab
  rw [erase_tree]
  split
  · exact closeTerminalPanel_sound panel
  · exact Sound.pure rfl

theorem removeAll_sound (items : List (Nat × MuxTerminalId)) :
    (removeAll items workspace).Sound fun next =>
      next.erase = items.foldl (fun next item => next.closeTerminalTab item.1 item.2)
        workspace.erase := by
  induction items generalizing workspace with
  | nil => exact Sound.pure rfl
  | cons item rest ih =>
    refine (closeTerminalTab_sound item.1 item.2).bind fun next hnext => ?_
    rw [foldl_cons, ← hnext]
    exact ih

theorem resizeTerminalSplit_sound (path ratios : List Number) :
    Follows (workspace.resizeTerminalSplit path ratios)
      (workspace.erase.resizeTerminalSplit path ratios) := by
  refine (ObjectTree.setSplitRatios_sound ObjectTree.clone_made.1 path ratios).bind
    fun tree htree => Sound.pure ?_
  unfold TerminalWorkspace.resizeTerminalSplit
  rw [erase_tree, ← clone_erase, ← htree, Option.map_map, Option.map_map]
  rfl

theorem dockTerminalView_sound (id : MuxTerminalId) (target : Nat) (action : DropAction) :
    Follows (workspace.dockTerminalView id target action)
      (workspace.erase.dockTerminalView id target action) := by
  unfold dockTerminalView TerminalWorkspace.dockTerminalView
  rw [erase_tree]
  dsimp only
  rw [clone_erase]
  split
  · exact Sound.pure rfl
  split
  · exact Sound.pure (focusTerminalPanel_erase target)
  cases action.edge? with
  | some edge =>
    cases findTerminalPanel workspace.tree.erase id with
    | none =>
      simp only
      split
      · exact Sound.pure rfl
      · exact beside_clone target edge id
    | some source =>
      refine (ObjectTree.removeTerminalPanel_sound ObjectTree.clone_made.1 source).bind
        fun tree htree => ?_
      rw [clone_erase] at htree
      simp only [htree.2]
      split
      · exact Sound.pure rfl
      · rw [← htree.2]
        exact beside_sound htree.1 target edge id
  | none =>
    cases findTerminalPanel workspace.tree.erase id with
    | none =>
      simp only
      split
      · exact filled_sound target id
      split
      · exact Sound.pure rfl
      · exact beside_clone target .right id
    | some source =>
      have hmoved : Follows (do
          let first ← workspace.tree.clone.setView target (.terminal id)
          let tree ← first.removeTerminalPanel source
          pure (some (⟨tree, target, none⟩ : ObjectWorkspace)))
          (some ⟨TerminalWorkspace.removeTerminalPanel
            (workspace.tree.erase.setView target (.terminal id)) source, target, none⟩) := by
        refine (ObjectTree.setView_sound ObjectTree.clone_made.1 target _).bind
          fun first hfirst => ?_
        refine (ObjectTree.removeTerminalPanel_sound hfirst.1 source).bind
          fun tree htree => Sound.pure ?_
        rw [map_some, erase, htree.2, hfirst.2, clone_erase]
      simp only
      cases workspace.tree.erase.getView target with
      | none => exact hmoved
      | some shown =>
        cases shown with
        | empty => exact hmoved
        | terminal shown =>
          cases workspace.tree.erase.getView source with
          | none => exact hmoved
          | some moved =>
            cases moved with
            | empty => exact hmoved
            | terminal moved =>
              refine (ObjectTree.setView_sound ObjectTree.clone_made.1 source
                _).bind fun first hfirst => ?_
              refine (ObjectTree.setView_sound hfirst.1 target _).bind
                fun tree htree => Sound.pure ?_
              rw [map_some, erase, htree.2, hfirst.2, clone_erase]

end ObjectWorkspace

/-! ## Any operation -/

mutual

def PanelNode.given : PanelNode TerminalPaneView → ObjectNode
  | .leaf panelId view => .leaf .given panelId view
  | .split kind children ratios => .split .given kind (PanelNode.givens children) ratios

def PanelNode.givens : List (PanelNode TerminalPaneView) → List ObjectNode
  | [] => []
  | child :: rest => child.given :: PanelNode.givens rest

end

def TerminalWorkspace.given (workspace : TerminalWorkspace) : ObjectWorkspace :=
  ⟨⟨.given, workspace.tree.root.given, workspace.tree.nextPanelId⟩, workspace.focusedPanelId,
    workspace.zoomedPanelId⟩

theorem PanelNode.givens_eq (children : List (PanelNode TerminalPaneView)) :
    givens children = children.map given := by
  induction children with
  | nil => rfl
  | cons child rest ih => rw [givens, ih, map_cons]

theorem PanelNode.given_erase (node : PanelNode TerminalPaneView) : node.given.erase = node := by
  induction node using ofLeaves with
  | leaf panelId view => rfl
  | split kind children ratios ih =>
    rw [given, ObjectNode.erase, ObjectNode.erases_eq, givens_eq, List.map_map]
    congr 1
    calc children.map (ObjectNode.erase ∘ given) = children.map id := map_congr_left ih
      _ = children := List.map_id children

theorem TerminalWorkspace.given_erase (workspace : TerminalWorkspace) :
    workspace.given.erase = workspace := by
  unfold given ObjectWorkspace.erase ObjectTree.erase
  rw [PanelNode.given_erase]

inductive TilingOp where
  | openTerminalView (muxTerminalId : MuxTerminalId)
  | openTerminalViewInPanel (panel : Nat) (muxTerminalId : MuxTerminalId)
  | focusTerminalPanel (panel : Nat)
  | splitTerminalPanel (panel : Nat) (edge : Edge)
  | toggleTerminalPanelZoom (panel : Nat)
  | closeTerminalPanel (panel : Nat)
  | closeTerminalTab (panel : Nat) (muxTerminalId : MuxTerminalId)
  | resizeTerminalSplit (path ratios : List Number)
  | dockTerminalView (muxTerminalId : MuxTerminalId) (target : Nat) (action : DropAction)
  | removeMissingTerminalViews (live : List MuxTerminalId)

namespace TilingOp

def run (workspace : ObjectWorkspace) : TilingOp → Writes ObjectWorkspace
  | .openTerminalView id => do return (← workspace.openTerminalView id).getD workspace
  | .openTerminalViewInPanel panel id => do
      return (← workspace.openTerminalViewInPanel panel id).getD workspace
  | .focusTerminalPanel panel => pure ((workspace.focusTerminalPanel panel).getD workspace)
  | .splitTerminalPanel panel edge => do
      return (← workspace.splitTerminalPanel panel edge).getD workspace
  | .toggleTerminalPanelZoom panel =>
    pure ((workspace.toggleTerminalPanelZoom panel).getD workspace)
  | .closeTerminalPanel panel => workspace.closeTerminalPanel panel
  | .closeTerminalTab panel id => workspace.closeTerminalTab panel id
  | .resizeTerminalSplit path ratios => do
      return (← workspace.resizeTerminalSplit path ratios).getD workspace
  | .dockTerminalView id target action => do
      return (← workspace.dockTerminalView id target action).getD workspace
  | .removeMissingTerminalViews live => workspace.removeMissingTerminalViews live

def Unchanged (before after : TerminalWorkspace) : Prop :=
  ∀ shown, shown ∈ after.terminalIds ↔ shown ∈ before.terminalIds

def Displays (before after : TerminalWorkspace) : TilingOp → Prop
  | .openTerminalView id | .openTerminalViewInPanel _ id | .dockTerminalView id _ _ =>
    TerminalWorkspace.Opened id before after ∨ Unchanged before after
  | .focusTerminalPanel _ | .splitTerminalPanel _ _ | .toggleTerminalPanelZoom _
  | .resizeTerminalSplit _ _ => Unchanged before after
  | .closeTerminalPanel panel => ∀ shown, shown ∈ after.terminalIds ↔
      shown ∈ before.terminalIds ∧ before.tree.getView panel ≠ some (.terminal shown)
  | .closeTerminalTab panel id => ∀ shown, shown ∈ after.terminalIds ↔
      shown ∈ before.terminalIds ∧
        ¬(shown = id ∧ before.tree.getView panel = some (.terminal shown))
  | .removeMissingTerminalViews live => ∀ shown, shown ∈ after.terminalIds ↔
      shown ∈ before.terminalIds ∧ shown ∈ live

variable {workspace : TerminalWorkspace}

theorem sound_getD {objects : ObjectWorkspace} {step : Writes (Option ObjectWorkspace)}
    {next : Option TerminalWorkspace} {op : TilingOp} (h : ObjectWorkspace.Follows step next)
    (hsome : ∀ value, next = some value → value.WellTiled ∧ op.Displays workspace value)
    (hnone : objects.erase.WellTiled ∧ op.Displays workspace objects.erase) :
    Sound (step >>= fun result => pure (result.getD objects))
      fun result => result.erase.WellTiled ∧ op.Displays workspace result.erase := by
  refine h.bind fun result hres => Sound.pure ?_
  cases result with
  | none => exact hnone
  | some value => exact hsome value.erase hres.symm

theorem sideBySide_wellTiled : sideBySide.WellTiled := by
  refine ⟨⟨⟨Nat.le_refl 2, rfl, ?_, by norm_num, trivial, trivial, trivial⟩, by decide, by decide⟩,
    by decide, by decide, by decide, nofun⟩
  intro ratio hratio
  simp only [mem_cons, not_mem_nil, or_false, or_self] at hratio
  rw [hratio]
  norm_num

end TilingOp

end Yaade.Mux

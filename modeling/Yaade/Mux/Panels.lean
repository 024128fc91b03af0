import Mathlib.Tactic

/-!
A tree of panels: leaves with a view each, rows and columns with a ratio for
each child.
-/

namespace Yaade.Mux

open List Option

inductive SplitKind where
  | row
  | column
  deriving DecidableEq

inductive PanelNode (ν : Type) where
  | leaf (panelId : Nat) (view : ν)
  | split (kind : SplitKind) (children : List (PanelNode ν)) (ratios : List ℚ)

namespace PanelNode

variable {ν μ : Type}

theorem ofLeaves {motive : PanelNode ν → Prop} (leaf : ∀ panelId view, motive (.leaf panelId view))
    (split : ∀ kind children ratios, (∀ child ∈ children, motive child) →
      motive (.split kind children ratios)) (node : PanelNode ν) : motive node :=
  @PanelNode.rec ν motive (fun children => ∀ child ∈ children, motive child) leaf split
    (forall_mem_nil _)
    (fun _ _ hhead htail child hmem => (mem_cons.mp hmem).elim (fun h => h ▸ hhead) (htail child))
    node

mutual

def leaves : PanelNode ν → List (Nat × ν)
  | .leaf panelId view => [(panelId, view)]
  | .split _ children _ => leavesOf children

def leavesOf : List (PanelNode ν) → List (Nat × ν)
  | [] => []
  | child :: rest => child.leaves ++ leavesOf rest

end

mutual

def mapNode (replace : Nat → ν → PanelNode μ) : PanelNode ν → PanelNode μ
  | .leaf panelId view => replace panelId view
  | .split kind children ratios => .split kind (mapNodes replace children) ratios

def mapNodes (replace : Nat → ν → PanelNode μ) : List (PanelNode ν) → List (PanelNode μ)
  | [] => []
  | child :: rest => child.mapNode replace :: mapNodes replace rest

end

def mapView (f : ν → μ) : PanelNode ν → PanelNode μ :=
  mapNode fun panelId view => .leaf panelId (f view)

def rebalanceRatios (n : Nat) : List ℚ := List.replicate n (1 / (n : ℚ))

mutual

def removePanel (panel : Nat) : PanelNode ν → Option (PanelNode ν)
  | .leaf panelId view => if panelId = panel then none else some (.leaf panelId view)
  | .split kind children _ =>
    match removePanels panel children with
    | [] => none
    | [child] => some child
    | children => some (.split kind children (rebalanceRatios children.length))

def removePanels (panel : Nat) : List (PanelNode ν) → List (PanelNode ν)
  | [] => []
  | child :: rest => (child.removePanel panel).toList ++ removePanels panel rest

end

def maxPanelId (node : PanelNode ν) : Nat := (node.leaves.map Prod.fst).foldr max 0

def panels (node : PanelNode ν) : List Nat := node.leaves.map Prod.fst

theorem leavesOf_eq (children : List (PanelNode ν)) : leavesOf children = children.flatMap leaves := by
  induction children with
  | nil => rfl
  | cons child rest ih => rw [leavesOf, ih, flatMap_cons]

theorem mapNodes_eq (replace : Nat → ν → PanelNode μ) (children : List (PanelNode ν)) :
    mapNodes replace children = children.map (mapNode replace) := by
  induction children with
  | nil => rfl
  | cons child rest ih => rw [mapNodes, ih, map_cons]

theorem leaves_mapNode (replace : Nat → ν → PanelNode μ) (node : PanelNode ν) :
    (node.mapNode replace).leaves = node.leaves.flatMap fun leaf => (replace leaf.1 leaf.2).leaves := by
  induction node using ofLeaves with
  | leaf panelId view => simp [mapNode, leaves]
  | split kind children ratios ih =>
    simp only [mapNode, leaves, mapNodes_eq, leavesOf_eq, flatMap_map, flatMap_assoc]
    exact flatMap_congr ih

theorem leaves_mapView (f : ν → μ) (node : PanelNode ν) :
    (node.mapView f).leaves = node.leaves.map fun leaf => (leaf.1, f leaf.2) := by
  unfold mapView
  rw [leaves_mapNode, map_eq_flatMap]
  rfl

variable {node : PanelNode ν}

theorem mapNode_congr {first second : Nat → ν → PanelNode μ}
    (h : ∀ leaf ∈ node.leaves, first leaf.1 leaf.2 = second leaf.1 leaf.2) :
    node.mapNode first = node.mapNode second := by
  induction node using ofLeaves with
  | leaf panelId view => exact h (panelId, view) (mem_singleton.mpr rfl)
  | split kind children ratios ih =>
    simp only [mapNode, mapNodes_eq]
    congr 1
    apply List.map_congr_left
    intro child hchild
    apply ih child hchild
    intro leaf hleaf
    apply h
    rw [leaves, leavesOf_eq]
    exact mem_flatMap.mpr ⟨child, hchild, hleaf⟩

theorem leaves_removePanel (panel : Nat) (node : PanelNode ν) :
    ((node.removePanel panel).toList.flatMap leaves) =
      node.leaves.filter fun leaf => decide (leaf.1 ≠ panel) := by
  induction node using ofLeaves with
  | leaf panelId view =>
    by_cases hpanel : panelId = panel
    · simp [removePanel, leaves, hpanel]
    · simp [removePanel, leaves, hpanel]
  | split kind children ratios ih =>
    have hchildren : (removePanels panel children).flatMap leaves =
        (leavesOf children).filter fun leaf => decide (leaf.1 ≠ panel) := by
      clear ratios
      induction children with
      | nil => rfl
      | cons child rest ihrest =>
        rw [removePanels, leavesOf, flatMap_append, filter_append,
          ih child mem_cons_self,
          ihrest fun other hother => ih other (mem_cons_of_mem child hother)]
    rw [leaves, ← hchildren, removePanel]
    split
    · rename_i hempty
      rw [hempty]
      rfl
    · rename_i child hsingle
      rw [hsingle]
      rfl
    · simp [leaves, leavesOf_eq]

theorem le_maxPanelId {panel : Nat} (h : panel ∈ node.panels) : panel ≤ node.maxPanelId := by
  unfold panels at h
  unfold maxPanelId
  generalize node.leaves.map Prod.fst = ids at h ⊢
  induction ids with
  | nil => cases h
  | cons first rest ih =>
    rw [foldr_cons]
    rcases mem_cons.mp h with rfl | hrest
    · exact Nat.le_max_left _ _
    · exact Nat.le_trans (ih hrest) (Nat.le_max_right _ _)

theorem maxPanelId_le {bound : Nat} (h : ∀ panel ∈ node.panels, panel ≤ bound) :
    node.maxPanelId ≤ bound := by
  unfold panels at h
  unfold maxPanelId
  generalize node.leaves.map Prod.fst = ids at h ⊢
  induction ids with
  | nil => exact Nat.zero_le bound
  | cons first rest ih =>
    exact Nat.max_le.mpr ⟨h first mem_cons_self,
      ih fun panel hpanel => h panel (mem_cons_of_mem first hpanel)⟩

end PanelNode

structure PanelTree (ν : Type) where
  root : PanelNode ν
  nextPanelId : Nat

namespace PanelTree

variable {ν : Type}

def visitLeaves (tree : PanelTree ν) : List (Nat × ν) := tree.root.leaves

def getView (tree : PanelTree ν) (panel : Nat) : Option ν :=
  (tree.visitLeaves.reverse.find? fun leaf => leaf.1 = panel).map Prod.snd

def hasPanel (tree : PanelTree ν) (panel : Nat) : Bool := (tree.getView panel).isSome

def findPanelWithView (tree : PanelTree ν) (predicate : ν → Bool) : Option Nat :=
  (tree.visitLeaves.find? fun leaf => predicate leaf.2).map Prod.fst

def setView (tree : PanelTree ν) (panel : Nat) (view : ν) : PanelTree ν :=
  { tree with root := tree.root.mapNode fun panelId old =>
      if panelId = panel then .leaf panelId view else .leaf panelId old }

def splitRight (emptyView : ν) (tree : PanelTree ν) (panel : Nat) : PanelTree ν × Nat :=
  (⟨tree.root.mapNode fun panelId view =>
      if panelId = panel then
        .split .row [.leaf panelId view, .leaf tree.nextPanelId emptyView] [1 / 2, 1 / 2]
      else .leaf panelId view, tree.nextPanelId + 1⟩, tree.nextPanelId)

def closePanel (emptyView : ν) (tree : PanelTree ν) (panel : Nat) : PanelTree ν :=
  match tree.root.removePanel panel with
  | some root => { tree with root := root }
  | none => ⟨.leaf tree.nextPanelId emptyView, tree.nextPanelId + 1⟩

def fromSnapshot (root : PanelNode ν) (nextPanelId : Nat) : PanelTree ν :=
  ⟨root, if 0 < nextPanelId then max nextPanelId (root.maxPanelId + 1) else root.maxPanelId + 1⟩

variable {tree : PanelTree ν}

theorem getView_some {panel : Nat} {view : ν} (h : tree.getView panel = some view) :
    (panel, view) ∈ tree.visitLeaves := by
  obtain ⟨⟨panelId, found⟩, hfind, rfl⟩ := map_eq_some_iff.mp h
  have hpanel := find?_some hfind
  simp only [decide_eq_true_eq] at hpanel
  rw [← hpanel]
  exact mem_reverse.mp (mem_of_find?_eq_some hfind)

theorem hasPanel_iff {panel : Nat} : tree.hasPanel panel = true ↔ panel ∈ tree.root.panels := by
  unfold hasPanel getView PanelNode.panels visitLeaves
  rw [isSome_map, find?_isSome]
  simp only [mem_reverse, decide_eq_true_eq, List.mem_map]

theorem setView_panels (panel : Nat) (view : ν) :
    (tree.setView panel view).root.panels = tree.root.panels := by
  unfold setView PanelNode.panels
  rw [PanelNode.leaves_mapNode, map_flatMap, map_eq_flatMap]
  apply flatMap_congr
  intro leaf _
  split <;> rfl

theorem splitRight_panels (emptyView : ν) (panel : Nat) {other : Nat}
    (h : other ∈ (tree.splitRight emptyView panel).1.root.panels) :
    other ∈ tree.root.panels ∨ other = tree.nextPanelId := by
  unfold splitRight PanelNode.panels at h
  obtain ⟨leaf, hleaf, rfl⟩ := List.mem_map.mp h
  rw [PanelNode.leaves_mapNode, mem_flatMap] at hleaf
  obtain ⟨old, hold, hmem⟩ := hleaf
  have hpanel : old.1 ∈ tree.root.panels := mem_map_of_mem hold
  split at hmem
  · simp only [PanelNode.leaves, PanelNode.leavesOf, append_nil, mem_append, mem_singleton] at hmem
    rcases hmem with rfl | rfl
    · exact .inl hpanel
    · exact .inr rfl
  · simp only [PanelNode.leaves, mem_singleton] at hmem
    rw [hmem]
    exact .inl hpanel

theorem closePanel_panels (emptyView : ν) (panel : Nat) {other : Nat}
    (h : other ∈ (tree.closePanel emptyView panel).root.panels) :
    other ∈ tree.root.panels ∧ other ≠ panel ∨ other = tree.nextPanelId := by
  unfold closePanel at h
  have hleaves := PanelNode.leaves_removePanel panel tree.root
  split at h
  · rename_i root hroot
    rw [hroot] at hleaves
    simp only [toList_some, flatMap_cons, flatMap_nil, append_nil] at hleaves
    obtain ⟨leaf, hleaf, rfl⟩ := List.mem_map.mp h
    rw [hleaves, mem_filter] at hleaf
    exact .inl ⟨mem_map_of_mem hleaf.1, of_decide_eq_true hleaf.2⟩
  · right
    exact mem_singleton.mp h

theorem closePanel_next (emptyView : ν) (panel : Nat) :
    tree.nextPanelId ≤ (tree.closePanel emptyView panel).nextPanelId := by
  unfold closePanel
  split
  · exact le_rfl
  · exact Nat.le_succ _

end PanelTree

end Yaade.Mux

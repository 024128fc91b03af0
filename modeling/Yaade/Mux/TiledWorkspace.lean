import Yaade.Mux.Tiling

/-!
Each tiling operation keeps a workspace well formed, and what it shows
afterwards is told from the leaves of the tree.
-/

namespace Yaade.Mux

open List
open Option hiding or_self

/-! ## Leaves -/

namespace PanelTree

variable {ν : Type} {tree : PanelTree ν}

/-- A well-formed tree: distinct panels, none of them still to be given. -/
structure Framed (tree : PanelTree ν) : Prop where
  tiled : tree.root.Tiled
  distinct : tree.root.panels.Nodup
  fresh : ∀ panel ∈ tree.root.panels, panel < tree.nextPanelId

theorem mem_setView {panel : Nat} {view : ν} {leaf : Nat × ν} :
    leaf ∈ (tree.setView panel view).visitLeaves ↔
      leaf ∈ tree.visitLeaves ∧ leaf.1 ≠ panel ∨ leaf = (panel, view) ∧ panel ∈ tree.root.panels := by
  unfold setView visitLeaves
  rw [PanelNode.leaves_mapNode, mem_flatMap]
  constructor
  · rintro ⟨old, hold, hmem⟩
    split at hmem
    · rename_i hpanel
      have hleaf := mem_singleton.mp hmem
      rw [hpanel] at hleaf
      exact .inr ⟨hleaf, hpanel ▸ mem_map_of_mem hold⟩
    · rename_i hpanel
      have hleaf := mem_singleton.mp hmem
      exact .inl ⟨hleaf ▸ hold, hleaf ▸ hpanel⟩
  · rintro (⟨hleaf, hother⟩ | ⟨rfl, hpanel⟩)
    · refine ⟨leaf, hleaf, ?_⟩
      rw [if_neg hother]
      exact mem_singleton_self _
    · obtain ⟨old, hold, hsame⟩ := mem_map.mp hpanel
      refine ⟨old, hold, ?_⟩
      rw [if_pos hsame, hsame]
      exact mem_singleton_self _

theorem setView_length (panel : Nat) (view : ν) :
    (tree.setView panel view).visitLeaves.length = tree.visitLeaves.length := by
  have hpanels := congrArg List.length (@setView_panels ν tree panel view)
  unfold PanelNode.panels at hpanels
  rw [length_map, length_map] at hpanels
  exact hpanels

theorem Framed.setView (h : tree.Framed) (panel : Nat) (view : ν) :
    (tree.setView panel view).Framed := by
  refine ⟨h.tiled.mapNode fun panelId old => ?_, ?_, fun other hother => ?_⟩
  · split <;> trivial
  · rw [setView_panels]
    exact h.distinct
  · rw [setView_panels] at hother
    exact h.fresh other hother

theorem split_leaves {leaves : List (Nat × ν)} (hdist : (leaves.map Prod.fst).Nodup)
    {panel : Nat} (hpanel : panel ∈ leaves.map Prod.fst) (edge : Edge) (newLeaf : Nat × ν) :
    (leaves.flatMap fun leaf => (if leaf.1 = panel then
        besides edge (.leaf leaf.1 leaf.2) (.leaf newLeaf.1 newLeaf.2)
      else PanelNode.leaf leaf.1 leaf.2).leaves).Perm (newLeaf :: leaves) := by
  induction leaves with
  | nil => exact absurd hpanel not_mem_nil
  | cons first rest ih =>
    obtain ⟨hfirst, hrest⟩ := nodup_cons.mp hdist
    rw [flatMap_cons]
    by_cases hsame : first.1 = panel
    · have hothers : (rest.flatMap fun leaf => (if leaf.1 = panel then
          besides edge (.leaf leaf.1 leaf.2) (.leaf newLeaf.1 newLeaf.2)
        else PanelNode.leaf leaf.1 leaf.2).leaves) = rest := by
        calc _ = rest.flatMap fun leaf => [leaf] := by
              apply flatMap_congr
              intro leaf hleaf
              have hother : leaf.1 ≠ panel := by
                rintro hpanel
                exact hfirst ((hsame.trans hpanel.symm) ▸ mem_map_of_mem hleaf)
              rw [if_neg hother]
              rfl
          _ = rest := by rw [flatMap_singleton']
      rw [if_pos hsame, hothers]
      unfold besides
      cases edge.behind with
      | true => exact List.Perm.swap _ _ _
      | false => exact List.Perm.refl _
    · rw [if_neg hsame]
      have hlater : panel ∈ rest.map Prod.fst :=
        (mem_cons.mp hpanel).resolve_left fun heq => hsame heq.symm
      exact ((ih hrest hlater).cons first).trans (List.Perm.swap _ _ _)

theorem splitAtEdge_leaves (h : tree.root.panels.Nodup) (emptyView : ν) {panel : Nat}
    (hpanel : panel ∈ tree.root.panels) (edge : Edge) :
    (tree.splitAtEdge emptyView panel edge).1.visitLeaves.Perm
      ((tree.nextPanelId, emptyView) :: tree.visitLeaves) := by
  unfold splitAtEdge visitLeaves
  rw [PanelNode.leaves_mapNode]
  exact split_leaves h hpanel edge (tree.nextPanelId, emptyView)

theorem besides_tiled (edge : Edge) (first second : Nat × ν) :
    (besides edge (.leaf first.1 first.2) (.leaf second.1 second.2)).Tiled := by
  unfold besides
  refine ⟨?_, ?_, ?_, by norm_num, PanelNode.allTiled_iff.mpr ?_⟩
  · cases edge.behind <;> exact Nat.le_refl 2
  · cases edge.behind <;> rfl
  · intro ratio hratio
    simp only [mem_cons, not_mem_nil, or_false, or_self] at hratio
    rw [hratio]
    norm_num
  · intro child hchild
    cases hbehind : edge.behind <;> rw [hbehind] at hchild <;>
      rcases mem_cons.mp hchild with rfl | hlater <;>
      first
        | trivial
        | (rw [mem_singleton.mp hlater]; trivial)

theorem Framed.splitAtEdge (h : tree.Framed) (emptyView : ν) {panel : Nat}
    (hpanel : panel ∈ tree.root.panels) (edge : Edge) :
    (tree.splitAtEdge emptyView panel edge).1.Framed := by
  have hpanels : (tree.splitAtEdge emptyView panel edge).1.root.panels.Perm
      (tree.nextPanelId :: tree.root.panels) :=
    (splitAtEdge_leaves h.distinct emptyView hpanel edge).map Prod.fst
  refine ⟨h.tiled.mapNode fun panelId view => ?_, ?_, fun other hother => ?_⟩
  · split
    · exact besides_tiled edge (panelId, view) (tree.nextPanelId, emptyView)
    · trivial
  · rw [hpanels.nodup_iff, nodup_cons]
    exact ⟨fun hmem => Nat.lt_irrefl _ (h.fresh _ hmem), h.distinct⟩
  · rcases mem_cons.mp (hpanels.mem_iff.mp hother) with rfl | hold
    · exact Nat.lt_succ_self _
    · exact Nat.lt_succ_of_lt (h.fresh other hold)

theorem closePanel_leaves {emptyView : ν} {panel other : Nat} (hother : other ∈ tree.root.panels)
    (hne : other ≠ panel) : (tree.closePanel emptyView panel).visitLeaves =
      tree.visitLeaves.filter fun leaf => decide (leaf.1 ≠ panel) := by
  have hleaves := PanelNode.leaves_removePanel panel tree.root
  unfold closePanel visitLeaves
  split
  · rename_i root hroot
    rw [hroot] at hleaves
    simpa using hleaves
  rename_i hroot
  rw [hroot] at hleaves
  obtain ⟨leaf, hleaf, rfl⟩ := mem_map.mp hother
  have hkept : leaf ∈ tree.root.leaves.filter fun leaf => decide (leaf.1 ≠ panel) :=
    mem_filter.mpr ⟨hleaf, decide_eq_true hne⟩
  rw [← hleaves] at hkept
  exact absurd hkept not_mem_nil

theorem Framed.closePanel (h : tree.Framed) (emptyView : ν) (panel : Nat) :
    (tree.closePanel emptyView panel).Framed := by
  have hleaves := PanelNode.leaves_removePanel panel tree.root
  unfold PanelTree.closePanel
  split
  · rename_i root hroot
    rw [hroot] at hleaves
    simp only [toList_some, flatMap_cons, flatMap_nil, append_nil] at hleaves
    have hpanels : root.panels.Sublist tree.root.panels := by
      unfold PanelNode.panels
      rw [hleaves]
      exact filter_sublist.map Prod.fst
    exact ⟨h.tiled.removePanel hroot, h.distinct.sublist hpanels,
      fun other hother => h.fresh other (hpanels.subset hother)⟩
  · refine ⟨trivial, nodup_singleton _, fun other hother => ?_⟩
    rw [mem_singleton.mp hother]
    exact Nat.lt_succ_self _

end PanelTree

namespace TerminalWorkspace

open PanelTree

variable {workspace next : TerminalWorkspace} {tree : PanelTree TerminalPaneView}

def Shown (tree : PanelTree TerminalPaneView) (panel : Nat) (id : MuxTerminalId) : Prop :=
  (panel, TerminalPaneView.terminal id) ∈ tree.visitLeaves

structure WellTiled (workspace : TerminalWorkspace) : Prop where
  framed : workspace.tree.Framed
  single : workspace.terminalIds.Nodup
  tiles : workspace.terminalPaneCount ≤ maxTerminalTiles
  focused : workspace.focusedPanelId ∈ workspace.tree.root.panels
  zoomed : ∀ panel, workspace.zoomedPanelId = some panel → panel ∈ workspace.tree.root.panels

theorem mem_terminalIds {id : MuxTerminalId} :
    id ∈ workspace.terminalIds ↔ ∃ panel, Shown workspace.tree panel id := by
  unfold terminalIds Shown
  rw [mem_filterMap]
  constructor
  · rintro ⟨⟨panel, view⟩, hleaf, hid⟩
    cases view with
    | empty => cases hid
    | terminal other =>
      cases hid
      exact ⟨panel, hleaf⟩
  · rintro ⟨panel, hleaf⟩
    exact ⟨_, hleaf, rfl⟩

theorem Shown.panel {panel : Nat} {id : MuxTerminalId} (h : Shown tree panel id) :
    panel ∈ tree.root.panels :=
  mem_map_of_mem h

theorem eq_of_nodup_filterMap {α β : Type} {f : α → Option β} {items : List α}
    (hnodup : (items.filterMap f).Nodup) {first second : α} (hfirst : first ∈ items)
    (hsecond : second ∈ items) {value : β} (hvalue : f first = some value)
    (hvalue' : f second = some value) : first = second := by
  induction items with
  | nil => exact absurd hfirst not_mem_nil
  | cons item rest ih =>
    have hmem : ∀ other ∈ rest, f other = some value → value ∈ rest.filterMap f :=
      fun other hother hsome => mem_filterMap.mpr ⟨other, hother, hsome⟩
    rcases mem_cons.mp hfirst with rfl | hfirst' <;> rcases mem_cons.mp hsecond with rfl | hsecond'
    · rfl
    · rw [filterMap_cons_some hvalue, nodup_cons] at hnodup
      exact absurd (hmem second hsecond' hvalue') hnodup.1
    · rw [filterMap_cons_some hvalue', nodup_cons] at hnodup
      exact absurd (hmem first hfirst' hvalue) hnodup.1
    · refine ih ?_ hfirst' hsecond'
      cases hitem : f item with
      | none => rwa [filterMap_cons_none hitem] at hnodup
      | some found =>
        rw [filterMap_cons_some hitem, nodup_cons] at hnodup
        exact hnodup.2

theorem single_iff (hdist : workspace.tree.root.panels.Nodup) :
    workspace.terminalIds.Nodup ↔ ∀ first second id, Shown workspace.tree first id →
      Shown workspace.tree second id → first = second := by
  unfold terminalIds Shown
  have hleaves : workspace.tree.visitLeaves.Nodup := hdist.of_map Prod.fst
  constructor
  · intro hnodup first second id hfirst hsecond
    exact congrArg Prod.fst (eq_of_nodup_filterMap hnodup hfirst hsecond rfl rfl)
  · intro hone
    rw [List.Nodup, pairwise_filterMap]
    refine hleaves.imp_of_mem fun {leaf other} hleaf hother hne a ha b hb heq => hne ?_
    obtain ⟨panel, view⟩ := leaf
    obtain ⟨panel', view'⟩ := other
    cases view with
    | empty => cases ha
    | terminal id =>
      cases view' with
      | empty => cases hb
      | terminal id' =>
        cases ha
        cases hb
        cases heq
        rw [hone panel panel' _ hleaf hother]

/-! ### Edits of the tree -/

theorem shown_set {panel other : Nat} {id shown : MuxTerminalId} :
    Shown (tree.setView panel (.terminal id)) other shown ↔
      Shown tree other shown ∧ other ≠ panel ∨
        other = panel ∧ shown = id ∧ panel ∈ tree.root.panels := by
  unfold Shown
  rw [mem_setView]
  simp only [Prod.mk.injEq, TerminalPaneView.terminal.injEq, and_assoc]

theorem shown_cleared {panel other : Nat} {shown : MuxTerminalId} :
    Shown (tree.setView panel .empty) other shown ↔ Shown tree other shown ∧ other ≠ panel := by
  unfold Shown
  rw [mem_setView]
  simp

section

variable (h : tree.Framed)
include h

theorem Shown.unique {panel : Nat} {first second : MuxTerminalId}
    (hfirst : Shown tree panel first) (hsecond : Shown tree panel second) : first = second := by
  have hleaf := inj_on_of_nodup_map h.distinct hfirst hsecond rfl
  simpa using hleaf

theorem getView_shown {panel : Nat} {id : MuxTerminalId} :
    tree.getView panel = some (.terminal id) ↔ Shown tree panel id :=
  ⟨getView_some, getView_mem h.distinct⟩

theorem exists_other {panel : Nat} (hpanel : panel ∈ tree.root.panels)
    (hmany : tree.visitLeaves.length ≠ 1) : ∃ other ∈ tree.root.panels, other ≠ panel := by
  by_contra hnone
  have hall : ∀ other ∈ tree.root.panels, other = panel := fun other hother =>
    by_contra fun hne => hnone ⟨other, hother, hne⟩
  have hdist := h.distinct
  rw [eq_replicate_of_mem hall, nodup_replicate] at hdist
  have hlength : tree.root.panels.length = tree.visitLeaves.length := length_map _
  have hpositive := length_pos_of_mem hpanel
  omega

theorem removeTerminalPanel_cases (panel : Nat) :
    removeTerminalPanel tree panel = tree ∧ panel ∉ tree.root.panels ∨
      removeTerminalPanel tree panel = tree.setView panel .empty ∧
        tree.visitLeaves.length = 1 ∧ panel ∈ tree.root.panels ∨
      removeTerminalPanel tree panel = tree.closePanel .empty panel ∧
        (removeTerminalPanel tree panel).visitLeaves =
          tree.visitLeaves.filter (fun leaf => decide (leaf.1 ≠ panel)) ∧
        panel ∈ tree.root.panels := by
  unfold removeTerminalPanel
  by_cases hpanel : panel ∈ tree.root.panels
  · simp only [hasPanel_iff.mpr hpanel, Bool.not_true, Bool.false_eq_true, if_false]
    by_cases hone : tree.visitLeaves.length = 1
    · rw [if_pos hone]
      exact .inr (.inl ⟨rfl, hone, hpanel⟩)
    rw [if_neg hone]
    obtain ⟨other, hother, hne⟩ := exists_other h hpanel hone
    exact .inr (.inr ⟨rfl, closePanel_leaves hother hne, hpanel⟩)
  · rw [if_pos (by rw [Bool.not_eq_true', Bool.eq_false_iff]; exact fun hhas => hpanel (hasPanel_iff.mp hhas))]
    exact .inl ⟨rfl, hpanel⟩

theorem removeTerminalPanel_framed (panel : Nat) : (removeTerminalPanel tree panel).Framed := by
  rcases removeTerminalPanel_cases h panel with ⟨hsame, -⟩ | ⟨hset, -, -⟩ | ⟨hclose, -, -⟩
  · rw [hsame]
    exact h
  · rw [hset]
    exact h.setView panel .empty
  · rw [hclose]
    exact h.closePanel .empty panel

theorem shown_removed {panel other : Nat} {shown : MuxTerminalId} :
    Shown (removeTerminalPanel tree panel) other shown ↔ Shown tree other shown ∧ other ≠ panel := by
  rcases removeTerminalPanel_cases h panel with ⟨hsame, hpanel⟩ | ⟨hset, -, -⟩ | ⟨-, hleaves, -⟩
  · rw [hsame]
    exact ⟨fun hshown => ⟨hshown, fun heq => hpanel (heq ▸ hshown.panel)⟩, And.left⟩
  · rw [hset]
    exact shown_cleared
  · unfold Shown
    rw [hleaves, mem_filter, decide_eq_true_eq]

theorem removed_panels {panel other : Nat} (hother : other ∈ tree.root.panels)
    (hne : other ≠ panel) : other ∈ (removeTerminalPanel tree panel).root.panels := by
  rcases removeTerminalPanel_cases h panel with ⟨hsame, -⟩ | ⟨hset, -, -⟩ | ⟨-, hleaves, -⟩
  · rw [hsame]
    exact hother
  · rw [hset, setView_panels]
    exact hother
  obtain ⟨leaf, hleaf, rfl⟩ := mem_map.mp hother
  apply mem_map_of_mem (f := Prod.fst)
  have hkept : leaf ∈ (removeTerminalPanel tree panel).visitLeaves := by
    rw [hleaves]
    exact mem_filter.mpr ⟨hleaf, decide_eq_true hne⟩
  exact hkept

theorem removed_length (panel : Nat) :
    (removeTerminalPanel tree panel).visitLeaves.length ≤ tree.visitLeaves.length := by
  rcases removeTerminalPanel_cases h panel with ⟨hsame, -⟩ | ⟨hset, -, -⟩ | ⟨-, hleaves, -⟩
  · rw [hsame]
  · rw [hset, setView_length]
  · rw [hleaves]
    exact length_filter_le _ _

theorem removed_shorter {panel other : Nat} (hpanel : panel ∈ tree.root.panels)
    (hother : other ∈ tree.root.panels) (hne : other ≠ panel) :
    (removeTerminalPanel tree panel).visitLeaves.length < tree.visitLeaves.length := by
  rcases removeTerminalPanel_cases h panel with ⟨-, hnot⟩ | ⟨-, hone, -⟩ | ⟨-, hleaves, -⟩
  · exact absurd hpanel hnot
  · obtain ⟨leaf, hleaf⟩ := length_eq_one_iff.mp hone
    have honly : tree.root.panels = [leaf.1] := by
      unfold PanelNode.panels
      unfold visitLeaves at hleaf
      rw [hleaf]
      rfl
    rw [honly, mem_singleton] at hpanel hother
    exact absurd (hother.trans hpanel.symm) hne
  · rw [hleaves]
    obtain ⟨leaf, hleaf, rfl⟩ := mem_map.mp hpanel
    apply length_filter_lt_length_iff_exists.mpr
    exact ⟨leaf, hleaf, by simp⟩

end

/-! ### Operations -/

variable {id : MuxTerminalId} {panel : Nat}

theorem WellTiled.one (h : workspace.WellTiled) {first second : Nat} {shown : MuxTerminalId}
    (hfirst : Shown workspace.tree first shown) (hsecond : Shown workspace.tree second shown) :
    first = second :=
  (single_iff h.framed.distinct).mp h.single first second shown hfirst hsecond

def Opened (id : MuxTerminalId) (workspace next : TerminalWorkspace) : Prop :=
  ∀ shown, shown ∈ next.terminalIds ↔ shown ∈ workspace.terminalIds ∨ shown = id

theorem opened_iff : Opened id workspace next ↔ ∀ shown,
    (∃ panel, Shown next.tree panel shown) ↔ (∃ panel, Shown workspace.tree panel shown) ∨
      shown = id := by
  unfold Opened
  simp only [mem_terminalIds]

theorem WellTiled.focusTerminalPanel (h : workspace.WellTiled)
    (hfocus : workspace.focusTerminalPanel panel = some next) :
    next.WellTiled ∧ next.tree = workspace.tree := by
  unfold TerminalWorkspace.focusTerminalPanel at hfocus
  obtain ⟨hpanel, hfocus⟩ := ite_none_left_eq_some.mp hfocus
  obtain ⟨-, hfocus⟩ := ite_none_left_eq_some.mp hfocus
  cases hfocus
  refine ⟨⟨h.framed, h.single, h.tiles, ?_, nofun⟩, rfl⟩
  exact hasPanel_iff.mp (by simpa using hpanel)

theorem find_some (hfind : findTerminalPanel tree id = some panel) : Shown tree panel id := by
  obtain ⟨⟨found, view⟩, hsome, rfl⟩ := map_eq_some_iff.mp hfind
  have hview := find?_some hsome
  simp only [decide_eq_true_eq] at hview
  subst hview
  exact mem_of_find?_eq_some hsome

theorem find_none (hfind : findTerminalPanel tree id = none) (panel : Nat) :
    ¬Shown tree panel id := by
  intro hshown
  have hnone := find?_eq_none.mp (map_eq_none_iff.mp hfind) _ hshown
  simp at hnone

theorem WellTiled.focusShown (h : workspace.WellTiled) (hshown : Shown workspace.tree panel id)
    (hfocus : workspace.focusTerminalPanel panel = some next) :
    next.WellTiled ∧ Opened id workspace next := by
  obtain ⟨hwell, htree⟩ := h.focusTerminalPanel hfocus
  refine ⟨hwell, opened_iff.mpr fun shown => ?_⟩
  rw [htree]
  constructor
  · exact .inl
  · rintro (hold | rfl)
    · exact hold
    · exact ⟨panel, hshown⟩

theorem WellTiled.fill (h : workspace.WellTiled) (hnew : ∀ other, ¬Shown workspace.tree other id)
    (hempty : workspace.tree.getView panel = some .empty) :
    WellTiled ⟨workspace.tree.setView panel (.terminal id), panel, none⟩ ∧
      Opened id workspace ⟨workspace.tree.setView panel (.terminal id), panel, none⟩ := by
  have hleaf := getView_some hempty
  have hpanel : panel ∈ workspace.tree.root.panels := mem_map_of_mem hleaf
  have hclear : ∀ shown, ¬Shown workspace.tree panel shown := by
    intro shown hshown
    have hsame := inj_on_of_nodup_map h.framed.distinct hleaf hshown rfl
    cases hsame
  have hframed := h.framed.setView panel (.terminal id)
  refine ⟨⟨hframed, ?_, ?_, ?_, nofun⟩, ?_⟩
  · refine (single_iff hframed.distinct).mpr fun first second shown hfirst hsecond => ?_
    rcases shown_set.mp hfirst with ⟨hold, -⟩ | ⟨hplace, hid, -⟩ <;>
      rcases shown_set.mp hsecond with ⟨hold', -⟩ | ⟨hplace', hid', -⟩
    · exact h.one hold hold'
    · exact absurd (hid' ▸ hold) (hnew first)
    · exact absurd (hid ▸ hold') (hnew second)
    · exact hplace.trans hplace'.symm
  · unfold terminalPaneCount
    rw [setView_length]
    exact h.tiles
  · rw [setView_panels]
    exact hpanel
  · refine opened_iff.mpr fun shown => ⟨?_, ?_⟩
    · rintro ⟨other, hother⟩
      rcases shown_set.mp hother with ⟨hold, -⟩ | ⟨-, hid, -⟩
      · exact .inl ⟨other, hold⟩
      · exact .inr hid
    · rintro (⟨other, hother⟩ | rfl)
      · exact ⟨other, shown_set.mpr (.inl ⟨hother, fun heq => hclear shown (heq ▸ hother)⟩)⟩
      · exact ⟨panel, shown_set.mpr (.inr ⟨rfl, rfl, hpanel⟩)⟩

/-- The target is split, and the terminal is in the new pane. -/
theorem beside (h : tree.Framed) (hone : ∀ first second shown, Shown tree first shown →
      Shown tree second shown → first = second) (hnew : ∀ other, ¬Shown tree other id)
    (htiles : tree.visitLeaves.length + 1 ≤ maxTerminalTiles) (hpanel : panel ∈ tree.root.panels)
    (edge : Edge) : (besideTarget tree panel edge id).WellTiled ∧ ∀ other shown,
      Shown (besideTarget tree panel edge id).tree other shown ↔
        Shown tree other shown ∨ other = tree.nextPanelId ∧ shown = id := by
  have hleaves := splitAtEdge_leaves h.distinct TerminalPaneView.empty hpanel edge
  have hsplit := h.splitAtEdge TerminalPaneView.empty hpanel edge
  have hcrd : tree.nextPanelId ∈
      (tree.splitAtEdge TerminalPaneView.empty panel edge).1.root.panels :=
    (hleaves.map Prod.fst).mem_iff.mpr mem_cons_self
  have hshown : ∀ other shown, Shown (besideTarget tree panel edge id).tree other shown ↔
      Shown tree other shown ∨ other = tree.nextPanelId ∧ shown = id := by
    intro other shown
    unfold besideTarget
    rw [shown_set]
    have hold : Shown (tree.splitAtEdge TerminalPaneView.empty panel edge).1 other shown ↔
        Shown tree other shown := by
      unfold Shown
      rw [hleaves.mem_iff, mem_cons]
      simp
    rw [hold]
    constructor
    · rintro (⟨hshown, -⟩ | ⟨hother, hid, -⟩)
      · exact .inl hshown
      · exact .inr ⟨hother, hid⟩
    · rintro (hshown | ⟨hother, hid⟩)
      · exact .inl ⟨hshown, Nat.ne_of_lt (h.fresh other hshown.panel)⟩
      · exact .inr ⟨hother, hid, hcrd⟩
  have hframed : (besideTarget tree panel edge id).tree.Framed := hsplit.setView _ _
  refine ⟨⟨hframed, ?_, ?_, ?_, nofun⟩, hshown⟩
  · refine (single_iff hframed.distinct).mpr fun first second shown hfirst hsecond => ?_
    rcases (hshown first shown).mp hfirst with hold | ⟨hplace, hid⟩ <;>
      rcases (hshown second shown).mp hsecond with hold' | ⟨hplace', hid'⟩
    · exact hone first second shown hold hold'
    · exact absurd (hid' ▸ hold) (hnew first)
    · exact absurd (hid ▸ hold') (hnew second)
    · exact hplace.trans hplace'.symm
  · have hlength := hleaves.length_eq
    unfold terminalPaneCount besideTarget
    rw [setView_length, hlength, length_cons]
    exact htiles
  · unfold besideTarget
    rw [setView_panels]
    exact hcrd

section

variable (h : workspace.WellTiled)
include h

theorem WellTiled.besideTarget (hnew : ∀ other, ¬Shown workspace.tree other id)
    (htiles : ¬workspace.terminalPaneCount ≥ maxTerminalTiles)
    (hpanel : panel ∈ workspace.tree.root.panels) (edge : Edge) :
    (besideTarget workspace.tree panel edge id).WellTiled ∧
      Opened id workspace (TerminalWorkspace.besideTarget workspace.tree panel edge id) := by
  obtain ⟨hwell, hshown⟩ := beside h.framed (fun first second shown => h.one) hnew
    (Nat.lt_of_not_ge htiles) hpanel edge
  refine ⟨hwell, opened_iff.mpr fun shown => ?_⟩
  simp only [hshown]
  constructor
  · rintro ⟨other, hold | ⟨-, hid⟩⟩
    · exact .inl ⟨other, hold⟩
    · exact .inr hid
  · rintro (⟨other, hold⟩ | hid)
    · exact ⟨other, .inl hold⟩
    · exact ⟨_, .inr ⟨rfl, hid⟩⟩

theorem resolvedFocus_mem :
    resolvedFocus workspace.tree workspace.focusedPanelId = workspace.focusedPanelId :=
  if_pos (hasPanel_iff.mpr h.focused)

theorem WellTiled.openTerminalView (hopen : workspace.openTerminalView id = some next) :
    next.WellTiled ∧ Opened id workspace next := by
  unfold TerminalWorkspace.openTerminalView at hopen
  split at hopen
  · rename_i existing hfind
    exact h.focusShown (find_some hfind) hopen
  rename_i hfind
  simp only [resolvedFocus_mem h] at hopen
  obtain ⟨view, hview⟩ := isSome_iff_exists.mp (hasPanel_iff.mpr h.focused)
  rw [hview, getD_some] at hopen
  split at hopen
  · rename_i hempty
    cases hopen
    exact h.fill (find_none hfind) (hempty ▸ hview)
  · obtain ⟨htiles, hopen⟩ := ite_none_left_eq_some.mp hopen
    cases hopen
    exact h.besideTarget (find_none hfind) htiles h.focused .right

theorem WellTiled.openTerminalViewInPanel
    (hopen : workspace.openTerminalViewInPanel panel id = some next) :
    next.WellTiled ∧ Opened id workspace next := by
  unfold TerminalWorkspace.openTerminalViewInPanel at hopen
  split at hopen
  · rename_i existing hfind
    exact h.focusShown (find_some hfind) hopen
  rename_i hfind
  split at hopen
  · exact h.openTerminalView hopen
  split at hopen
  · exact h.openTerminalView hopen
  rename_i hempty
  cases hopen
  exact h.fill (find_none hfind) (not_not.mp hempty)

theorem WellTiled.splitTerminalPanel {edge : Edge}
    (hsplit : workspace.splitTerminalPanel panel edge = some next) :
    next.WellTiled ∧ ∀ shown, shown ∈ next.terminalIds ↔ shown ∈ workspace.terminalIds := by
  unfold TerminalWorkspace.splitTerminalPanel at hsplit
  obtain ⟨hhas, hsplit⟩ := ite_none_left_eq_some.mp hsplit
  obtain ⟨htiles, hsplit⟩ := ite_none_left_eq_some.mp hsplit
  cases hsplit
  have hpanel : panel ∈ workspace.tree.root.panels := hasPanel_iff.mp (by simpa using hhas)
  have hleaves := splitAtEdge_leaves h.framed.distinct TerminalPaneView.empty hpanel edge
  have hids : (terminalIds ⟨(workspace.tree.splitAtEdge .empty panel edge).1,
      workspace.tree.nextPanelId, none⟩).Perm workspace.terminalIds :=
    hleaves.filterMap fun leaf : Nat × TerminalPaneView => leaf.2.terminal?
  refine ⟨⟨h.framed.splitAtEdge _ hpanel edge, hids.nodup_iff.mpr h.single, ?_, ?_,
    nofun⟩, fun shown => hids.mem_iff⟩
  · exact hleaves.length_eq.trans_le (Nat.lt_of_not_ge htiles)
  · exact (hleaves.map Prod.fst).mem_iff.mpr mem_cons_self

theorem WellTiled.toggleTerminalPanelZoom
    (hzoom : workspace.toggleTerminalPanelZoom panel = some next) :
    next.WellTiled ∧ next.tree = workspace.tree := by
  unfold TerminalWorkspace.toggleTerminalPanelZoom at hzoom
  obtain ⟨hcheck, hzoom⟩ := ite_none_left_eq_some.mp hzoom
  cases hzoom
  rw [Bool.or_eq_true, not_or] at hcheck
  have hpanel : panel ∈ workspace.tree.root.panels := hasPanel_iff.mp (by simpa using hcheck.1)
  refine ⟨⟨h.framed, h.single, h.tiles, hpanel, fun other hother => ?_⟩, rfl⟩
  simp only at hother
  split at hother
  · cases hother
  · cases hother
    exact hpanel

end

theorem firstPanel_mem (h : tree.Framed) : firstPanel tree ∈ tree.root.panels := by
  have hlength := PanelNode.leaves_ne_nil h.tiled.balanced
  obtain ⟨first, rest, hleaves⟩ := exists_cons_of_length_pos hlength
  unfold firstPanel visitLeaves PanelNode.panels
  rw [hleaves]
  exact mem_cons_self

theorem resolvedFocus_panels (h : tree.Framed) (preferred : Nat) :
    resolvedFocus tree preferred ∈ tree.root.panels := by
  unfold resolvedFocus
  split
  · rename_i hhas
    exact hasPanel_iff.mp hhas
  · exact firstPanel_mem h

section

variable (h : workspace.WellTiled)
include h

theorem WellTiled.closeTerminalPanel (panel : Nat) :
    (workspace.closeTerminalPanel panel).WellTiled ∧ ∀ other shown,
      Shown (workspace.closeTerminalPanel panel).tree other shown ↔
        Shown workspace.tree other shown ∧ other ≠ panel := by
  unfold TerminalWorkspace.closeTerminalPanel
  split
  · rename_i hhas
    refine ⟨h, fun other shown => ⟨fun hshown => ⟨hshown, ?_⟩, And.left⟩⟩
    rintro rfl
    have hpanel := hasPanel_iff.mpr hshown.panel
    rw [hpanel] at hhas
    cases hhas
  · have hframed := removeTerminalPanel_framed h.framed panel
    have hshown : ∀ other shown, Shown (removeTerminalPanel workspace.tree panel) other shown ↔
        Shown workspace.tree other shown ∧ other ≠ panel := fun other shown =>
      shown_removed h.framed
    refine ⟨⟨hframed, ?_, ?_, resolvedFocus_panels hframed _, fun other hother => ?_⟩, hshown⟩
    · refine (single_iff hframed.distinct).mpr fun first second shown hfirst hsecond => ?_
      exact h.one ((hshown first shown).mp hfirst).1 ((hshown second shown).mp hsecond).1
    · exact Nat.le_trans (removed_length h.framed panel) h.tiles
    · obtain ⟨hne, hzoom⟩ := ite_none_left_eq_some.mp hother
      exact removed_panels h.framed (h.zoomed other hzoom) fun heq => hne (heq ▸ hzoom)

theorem WellTiled.closeTerminalTab (panel : Nat) (id : MuxTerminalId) :
    (workspace.closeTerminalTab panel id).WellTiled ∧ ∀ other shown,
      Shown (workspace.closeTerminalTab panel id).tree other shown ↔
        Shown workspace.tree other shown ∧ ¬(other = panel ∧ shown = id) := by
  unfold TerminalWorkspace.closeTerminalTab
  split
  · rename_i hview
    obtain ⟨hwell, hshown⟩ := h.closeTerminalPanel panel
    refine ⟨hwell, fun other shown => ?_⟩
    rw [hshown]
    refine and_congr_right fun hold => ⟨fun hne heq => hne heq.1, fun hne heq => hne ⟨heq, ?_⟩⟩
    subst heq
    exact hold.unique h.framed (getView_some hview)
  · rename_i hview
    refine ⟨h, fun other shown => ⟨fun hshown => ⟨hshown, ?_⟩, And.left⟩⟩
    rintro ⟨rfl, rfl⟩
    exact hview ((getView_shown h.framed).mpr hshown)

theorem WellTiled.closeTabs (items : List (Nat × MuxTerminalId)) :
    (items.foldl (fun next item => next.closeTerminalTab item.1 item.2) workspace).WellTiled ∧
      ∀ other shown, Shown
          (items.foldl (fun next item => next.closeTerminalTab item.1 item.2) workspace).tree
          other shown ↔ Shown workspace.tree other shown ∧ (other, shown) ∉ items := by
  induction items generalizing workspace with
  | nil => exact ⟨h, fun other shown => by simp⟩
  | cons item rest ih =>
    obtain ⟨hwell, hshown⟩ := h.closeTerminalTab item.1 item.2
    obtain ⟨hlast, hrest⟩ := ih hwell
    refine ⟨hlast, fun other shown => ?_⟩
    rw [foldl_cons, hrest, hshown, mem_cons, not_or, and_assoc]
    have hpair : (other = item.1 ∧ shown = item.2) ↔ (other, shown) = item :=
      (Prod.mk.injEq ..).to_iff.symm
    rw [hpair]

theorem WellTiled.removeMissingTerminalViews
    (live : List MuxTerminalId) : (workspace.removeMissingTerminalViews live).WellTiled ∧
      ∀ shown, shown ∈ (workspace.removeMissingTerminalViews live).terminalIds ↔
        shown ∈ workspace.terminalIds ∧ shown ∈ live := by
  obtain ⟨hwell, hshown⟩ := h.closeTabs (workspace.missing live)
  refine ⟨hwell, fun shown => ?_⟩
  unfold TerminalWorkspace.removeMissingTerminalViews
  simp only [mem_terminalIds, hshown, mem_missing]
  constructor
  · rintro ⟨other, hold, hkept⟩
    exact ⟨⟨other, hold⟩, not_not.mp fun hgone => hkept ⟨hold, hgone⟩⟩
  · rintro ⟨⟨other, hold⟩, hlive⟩
    exact ⟨other, hold, fun hgone => hgone.2 hlive⟩

theorem WellTiled.resizeTerminalSplit {path ratios : List Number}
    (hresize : workspace.resizeTerminalSplit path ratios = some next) :
    next.WellTiled ∧ next.tree.visitLeaves = workspace.tree.visitLeaves := by
  obtain ⟨tree, htree, rfl⟩ := map_eq_some_iff.mp hresize
  unfold setSplitRatios at htree
  split at htree
  · cases htree
  · cases htree
  rename_i kind children old hat
  obtain ⟨hcount, htree⟩ := ite_none_left_eq_some.mp htree
  obtain ⟨values, hvalues, htree⟩ := bind_eq_some_iff.mp htree
  obtain ⟨-, htree⟩ := ite_none_right_eq_some.mp htree
  cases htree
  obtain ⟨hlength, hpositive, hsum⟩ := normalizedRatios_some hvalues
  have hleaves := PanelNode.leaves_setRatiosAt values workspace.tree.root path
  have hpanels : (workspace.tree.root.setRatiosAt values path).panels =
      workspace.tree.root.panels := congrArg (List.map Prod.fst) hleaves
  have htiled := h.framed.tiled.setRatiosAt hat (hlength.trans (not_not.mp hcount)) hpositive hsum
  refine ⟨⟨⟨htiled, ?_, ?_⟩, ?_, ?_, ?_, ?_⟩, hleaves⟩
  · exact hpanels ▸ h.framed.distinct
  · exact hpanels ▸ h.framed.fresh
  · have hids := congrArg (List.filterMap fun leaf : Nat × TerminalPaneView => leaf.2.terminal?)
      hleaves
    exact (congrArg List.Nodup hids).mpr h.single
  · exact (congrArg List.length hleaves).trans_le h.tiles
  · exact hpanels ▸ h.focused
  · exact hpanels ▸ h.zoomed

theorem WellTiled.moveBeside {source : Nat} (hshown : Shown workspace.tree source id) {edge : Edge}
    (htgt : panel ∈ workspace.tree.root.panels) (hne : source ≠ panel) :
    (TerminalWorkspace.besideTarget (removeTerminalPanel workspace.tree source) panel edge
        id).WellTiled ∧
      Opened id workspace (TerminalWorkspace.besideTarget
        (removeTerminalPanel workspace.tree source) panel edge id) := by
  have hframed := removeTerminalPanel_framed h.framed source
  have hrem : ∀ other shown, Shown (removeTerminalPanel workspace.tree source) other shown ↔
      Shown workspace.tree other shown ∧ other ≠ source := fun other shown =>
    shown_removed h.framed
  have hshorter := removed_shorter h.framed hshown.panel htgt hne.symm
  obtain ⟨hwell, hafter⟩ := beside hframed
    (fun first second shown hfirst hsecond => h.one ((hrem first shown).mp hfirst).1
      ((hrem second shown).mp hsecond).1)
    (fun other hother => ((hrem other id).mp hother).2 (h.one ((hrem other id).mp hother).1 hshown))
    (Nat.le_trans hshorter h.tiles) (removed_panels h.framed htgt hne.symm) edge
  refine ⟨hwell, opened_iff.mpr fun shown => ?_⟩
  simp only [hafter, hrem]
  constructor
  · rintro ⟨other, ⟨hold, -⟩ | ⟨-, hid⟩⟩
    · exact .inl ⟨other, hold⟩
    · exact .inr hid
  · rintro (⟨other, hold⟩ | hid)
    · by_cases hother : other = source
      · exact ⟨_, .inr ⟨rfl, (hother ▸ hold).unique h.framed hshown⟩⟩
      · exact ⟨other, .inl ⟨hold, hother⟩⟩
    · exact ⟨_, .inr ⟨rfl, hid⟩⟩

/-- Two panes swap their terminals. -/
theorem WellTiled.swap {source : Nat} {shown moved : MuxTerminalId}
    (htgt : Shown workspace.tree panel shown) (hsource : Shown workspace.tree source moved)
    (hne : source ≠ panel) :
    WellTiled ⟨(workspace.tree.setView source (.terminal shown)).setView panel (.terminal moved),
        panel, none⟩ ∧
      ∀ id, (∃ other, Shown ((workspace.tree.setView source (.terminal shown)).setView panel
        (.terminal moved)) other id) ↔ ∃ other, Shown workspace.tree other id := by
  have hframed := (h.framed.setView source (.terminal shown)).setView panel (.terminal moved)
  have hafter : ∀ other id, Shown ((workspace.tree.setView source (.terminal shown)).setView panel
        (.terminal moved)) other id ↔
      (Shown workspace.tree other id ∧ other ≠ source ∨ other = source ∧ id = shown) ∧
        other ≠ panel ∨ other = panel ∧ id = moved := by
    intro other id
    rw [shown_set, shown_set, setView_panels]
    simp only [htgt.panel, hsource.panel, and_true]
  refine ⟨⟨hframed, ?_, ?_, ?_, nofun⟩, fun id => ?_⟩
  · refine (single_iff hframed.distinct).mpr fun first second id hfirst hsecond => ?_
    rcases (hafter first id).mp hfirst with ⟨⟨hold, hother⟩ | ⟨hplace, hid⟩, hfirst'⟩ | ⟨hplace, hid⟩ <;>
      rcases (hafter second id).mp hsecond with
        ⟨⟨hold', hother'⟩ | ⟨hplace', hid'⟩, hsecond'⟩ | ⟨hplace', hid'⟩
    · exact h.one hold hold'
    · exact absurd (h.one (hid' ▸ hold) htgt) hfirst'
    · exact absurd (h.one (hid' ▸ hold) hsource) hother
    · exact absurd (h.one (hid ▸ hold') htgt) hsecond'
    · exact hplace.trans hplace'.symm
    · exact absurd (h.one hsource (hid'.symm.trans hid ▸ htgt)) hne
    · exact absurd (h.one (hid ▸ hold') hsource) hother'
    · exact absurd (h.one hsource (hid.symm.trans hid' ▸ htgt)) hne
    · exact hplace.trans hplace'.symm
  · unfold terminalPaneCount
    rw [setView_length, setView_length]
    exact h.tiles
  · rw [setView_panels, setView_panels]
    exact htgt.panel
  · simp only [hafter]
    constructor
    · rintro ⟨other, ⟨⟨hold, -⟩ | ⟨-, hid⟩, -⟩ | ⟨-, hid⟩⟩
      · exact ⟨other, hold⟩
      · exact ⟨panel, hid ▸ htgt⟩
      · exact ⟨source, hid ▸ hsource⟩
    · rintro ⟨other, hold⟩
      by_cases hother : other = source
      · exact ⟨panel, .inr ⟨rfl, (hother ▸ hold).unique h.framed hsource⟩⟩
      by_cases hother' : other = panel
      · exact ⟨source, .inl ⟨.inr ⟨rfl, (hother' ▸ hold).unique h.framed htgt⟩, hne⟩⟩
      · exact ⟨other, .inl ⟨.inl ⟨hold, hother⟩, hother'⟩⟩

theorem WellTiled.move {source : Nat} (hempty : ∀ shown, ¬Shown workspace.tree panel shown)
    (htgt : panel ∈ workspace.tree.root.panels) (hsource : Shown workspace.tree source id)
    (hne : source ≠ panel) :
    WellTiled ⟨removeTerminalPanel (workspace.tree.setView panel (.terminal id)) source, panel,
        none⟩ ∧
      Opened id workspace ⟨removeTerminalPanel (workspace.tree.setView panel (.terminal id)) source,
        panel, none⟩ := by
  have hset := h.framed.setView panel (.terminal id)
  have hframed := removeTerminalPanel_framed hset source
  have hafter : ∀ other shown, Shown (removeTerminalPanel
        (workspace.tree.setView panel (.terminal id)) source) other shown ↔
      (Shown workspace.tree other shown ∧ other ≠ panel ∨ other = panel ∧ shown = id) ∧
        other ≠ source := by
    intro other shown
    rw [shown_removed hset, shown_set]
    simp only [htgt, and_true]
  refine ⟨⟨hframed, ?_, ?_, ?_, nofun⟩, opened_iff.mpr fun shown => ?_⟩
  · refine (single_iff hframed.distinct).mpr fun first second shown hfirst hsecond => ?_
    rcases (hafter first shown).mp hfirst with ⟨⟨hold, -⟩ | ⟨hplace, hid⟩, hother⟩ <;>
      rcases (hafter second shown).mp hsecond with ⟨⟨hold', -⟩ | ⟨hplace', hid'⟩, hother'⟩
    · exact h.one hold hold'
    · exact absurd (h.one (hid' ▸ hold) hsource) hother
    · exact absurd (h.one (hid ▸ hold') hsource) hother'
    · exact hplace.trans hplace'.symm
  · exact Nat.le_trans (removed_length hset source) ((setView_length _ _).trans_le h.tiles)
  · exact removed_panels hset (by rw [setView_panels]; exact htgt) hne.symm
  · simp only [hafter]
    constructor
    · rintro ⟨other, ⟨hold, -⟩ | ⟨-, hid⟩, -⟩
      · exact .inl ⟨other, hold⟩
      · exact .inr hid
    · rintro (⟨other, hold⟩ | hid)
      · by_cases hother : other = source
        · exact ⟨panel, .inr ⟨rfl, (hother ▸ hold).unique h.framed hsource⟩, hne.symm⟩
        · exact ⟨other, .inl ⟨hold, fun heq => hempty shown (heq ▸ hold)⟩, hother⟩
      · exact ⟨panel, .inr ⟨rfl, hid⟩, hne.symm⟩

theorem WellTiled.dockTerminalView {action : DropAction}
    (hdock : workspace.dockTerminalView id panel action = some next) :
    next.WellTiled ∧ Opened id workspace next := by
  unfold TerminalWorkspace.dockTerminalView at hdock
  obtain ⟨hhas, hdock⟩ := ite_none_left_eq_some.mp hdock
  have hpanel : panel ∈ workspace.tree.root.panels := hasPanel_iff.mp (by simpa using hhas)
  cases hfind : findTerminalPanel workspace.tree id with
  | none =>
    simp only [hfind, reduceCtorEq, if_false] at hdock
    cases hedge : DropAction.edge? action with
    | some edge =>
      simp only [hedge] at hdock
      obtain ⟨htiles, hdock⟩ := ite_none_left_eq_some.mp hdock
      cases hdock
      exact h.besideTarget (find_none hfind) htiles hpanel edge
    | none =>
      simp only [hedge] at hdock
      split at hdock
      · rename_i hempty
        cases hdock
        exact h.fill (find_none hfind) hempty
      · obtain ⟨htiles, hdock⟩ := ite_none_left_eq_some.mp hdock
        cases hdock
        exact h.besideTarget (find_none hfind) htiles hpanel .right
  | some source =>
    have hsource := find_some hfind
    simp only [hfind, Option.some.injEq] at hdock
    split at hdock
    · rename_i hsame
      exact h.focusShown (hsame ▸ hsource) hdock
    rename_i hne
    cases hedge : DropAction.edge? action with
    | some edge =>
      simp only [hedge] at hdock
      obtain ⟨-, hdock⟩ := ite_none_left_eq_some.mp hdock
      cases hdock
      exact h.moveBeside hsource hpanel hne
    | none =>
      simp only [hedge, (getView_shown h.framed).mpr hsource] at hdock
      split at hdock
      · rename_i shown moved hview hmoved
        cases hmoved
        cases hdock
        have htgt := (getView_shown h.framed).mp hview
        obtain ⟨hwell, hsame⟩ := h.swap htgt hsource hne
        refine ⟨hwell, opened_iff.mpr fun other => ?_⟩
        rw [hsame]
        constructor
        · exact .inl
        · rintro (hold | rfl)
          · exact hold
          · exact ⟨source, hsource⟩
      · rename_i hnone
        cases hdock
        refine h.move (fun shown hshown => ?_) hpanel hsource hne
        exact hnone shown id ((getView_shown h.framed).mpr hshown) rfl

end

end TerminalWorkspace

end Yaade.Mux

import Yaade.Mux.Restore

/-!
Layouts that anybody wrote.
-/

namespace Yaade.Mux

open List Option
open Bool hiding or_comm

abbrev Leaves : Type := List (Nat × TerminalPaneView)

def lastView (leaves : Leaves) (panel : Nat) : Option TerminalPaneView :=
  (leaves.reverse.find? fun leaf => leaf.1 = panel).map Prod.snd

def goneFrom (live : List MuxTerminalId) (leaves : Leaves) (panel : Nat) : Bool :=
  match lastView leaves panel with
  | some (.terminal id) => decide (id ∉ live)
  | _ => false

def keptLeaves (live : List MuxTerminalId) (leaves : Leaves) : Leaves :=
  leaves.filter fun leaf => !goneFrom live leaves leaf.1

/-- The panel to close when there are too many: the first that is empty as it
is looked up, or the last one. -/
def cappedPanel (leaves : Leaves) : Option Nat :=
  ((leaves.map Prod.fst).find? fun panel => lastView leaves panel = some .empty) <|>
    (leaves.map Prod.fst).getLast?

/-- Leaves are dropped, with all that have their ids, while there are too many. -/
def cappedLeaves : Nat → Leaves → Leaves
  | 0, leaves => leaves
  | rounds + 1, leaves =>
    if leaves.length > maxTerminalTiles then
      match cappedPanel leaves with
      | none => leaves
      | some panel => cappedLeaves rounds (leaves.filter fun leaf => decide (leaf.1 ≠ panel))
    else leaves

def EachOnce (leaves : Leaves) : Prop :=
  (leaves.map Prod.fst).Nodup ∧ (leaves.filterMap fun leaf => leaf.2.terminal?).Nodup

def KeepsEachOnce (layoutJson : Option LayoutJson) (live : List MuxTerminalId) : Prop :=
  ∀ parsed, parseTerminalWorkspace layoutJson = some parsed →
    EachOnce (cappedLeaves (keptLeaves live parsed.tree.visitLeaves).length
      (keptLeaves live parsed.tree.visitLeaves))

/-! ## Decoded trees -/

namespace PanelNode

variable {ν : Type}

theorem runtimes_pairs {P : PanelNode ν → PanelNode ν → Prop} {children parsed : List (PanelNode ν)}
    (h : runtimes children = some parsed)
    (hchildren : ∀ child ∈ children, ∀ root, child.runtime = some root → P child root) :
    List.Forall₂ P children parsed := by
  induction children generalizing parsed with
  | nil =>
    cases h
    exact .nil
  | cons child rest ih =>
    obtain ⟨first, hfirst, h⟩ := bind_eq_some_iff.mp h
    obtain ⟨later, hlater, h⟩ := map_eq_some_iff.mp h
    cases h
    exact .cons (hchildren child mem_cons_self first hfirst)
      (ih hlater fun other hother => hchildren other (mem_cons_of_mem child hother))

theorem pairs_tiled {children parsed : List (PanelNode ν)}
    (h : List.Forall₂ (fun child root => root.Tiled ∧ root.leaves = child.leaves)
      children parsed) : AllTiled parsed ∧ leavesOf parsed = leavesOf children := by
  induction h with
  | nil => exact ⟨trivial, rfl⟩
  | cons hfirst _ ih => exact ⟨⟨hfirst.1, ih.1⟩, by rw [leavesOf, leavesOf, hfirst.2, ih.2]⟩

theorem runtime_tiled {node root : PanelNode ν} (hschema : node.validSchema = true)
    (h : node.runtime = some root) : root.Tiled ∧ root.leaves = node.leaves := by
  induction node using ofLeaves generalizing root with
  | leaf panelId view =>
    cases h
    exact ⟨trivial, rfl⟩
  | split kind children ratios ih =>
    rw [validSchema] at hschema
    simp only [and_eq_true, decide_eq_true_eq, List.all_eq_true] at hschema
    obtain ⟨⟨⟨hchildren, hschemas⟩, -⟩, hpositive⟩ := hschema
    rw [runtime] at h
    obtain ⟨hneither, h⟩ := ite_none_left_eq_some.mp h
    obtain ⟨parsed, hparsed, h⟩ := map_eq_some_iff.mp h
    cases h
    push Not at hneither
    have hpairs : List.Forall₂ (fun child (root : PanelNode ν) =>
        root.Tiled ∧ root.leaves = child.leaves) children parsed :=
      runtimes_pairs hparsed fun child hchild root hroot =>
        ih child hchild (validSchemas_iff.mp hschemas child hchild) hroot
    obtain ⟨htiled, hleaves⟩ := pairs_tiled hpairs
    have hlength := hpairs.length_eq
    have hsum : 0 < ratios.sum := hneither.2
    refine ⟨⟨hlength ▸ hchildren, by rw [length_map, ← hneither.1, hlength], ?_, ?_,
      htiled⟩, hleaves⟩
    · intro ratio hratio
      obtain ⟨old, hold, rfl⟩ := List.mem_map.mp hratio
      exact div_pos (hpositive old hold) hsum
    · simp only [div_eq_mul_inv]
      rw [sum_map_mul_right, List.map_id', mul_inv_cancel₀ (ne_of_gt hsum)]

end PanelNode

namespace TerminalWorkspace

open PanelTree

/-- What holds of any layout that is decoded: a tree of normal ratios, with a
focus, that gives out new ids. -/
structure Loose (workspace : TerminalWorkspace) : Prop where
  tiled : workspace.tree.root.Tiled
  fresh : ∀ panel ∈ workspace.tree.root.panels, panel < workspace.tree.nextPanelId
  focused : workspace.focusedPanelId ∈ workspace.tree.root.panels
  zoomed : ∀ panel, workspace.zoomedPanelId = some panel → panel ∈ workspace.tree.root.panels

def Keeps (workspace : TerminalWorkspace) (leaves : Leaves) : Prop :=
  leaves ≠ [] ∧ workspace.tree.visitLeaves = leaves ∨
    leaves = [] ∧ ∃ panel, workspace.tree.visitLeaves = [(panel, .empty)]

variable {workspace next : TerminalWorkspace} {live : List MuxTerminalId} {leaves : Leaves}
  {panel : Nat}

variable {layoutJson : Option LayoutJson} {id : MuxTerminalId}

theorem parse_loose (h : parseTerminalWorkspace layoutJson = some workspace) : workspace.Loose := by
  unfold parseTerminalWorkspace at h
  split at h
  · cases h
  · cases h
  rename_i decoded
  obtain ⟨hschema, h⟩ := ite_none_left_eq_some.mp h
  obtain ⟨root, hroot, h⟩ := bind_eq_some_iff.mp h
  obtain ⟨hfocused, h⟩ := ite_none_left_eq_some.mp h
  cases h
  rw [not_eq_true', not_eq_false] at hschema
  have hnode : decoded.root.validSchema = true := by
    unfold PersistedTerminalWorkspace.validSchema at hschema
    simp only [and_eq_true] at hschema
    exact hschema.1.1.1.2
  refine ⟨(PanelNode.runtime_tiled hnode hroot).1, ?_, ?_, ?_⟩
  · intro panel hpanel
    have hmax := PanelNode.le_maxPanelId hpanel
    simp only [fromSnapshot] at hmax ⊢
    split <;> omega
  · exact hasPanel_iff.mp (by simpa using hfocused)
  · intro panel hzoom
    exact hasPanel_iff.mp (filter_eq_some_iff.mp hzoom).2

theorem Loose.nonempty (h : workspace.Loose) : workspace.tree.visitLeaves ≠ [] :=
  ne_nil_of_length_pos (PanelNode.leaves_ne_nil h.tiled.balanced)

theorem getView_lastView : workspace.tree.getView panel =
    lastView workspace.tree.visitLeaves panel := rfl

/-- A panel that is closed is gone with all its leaves. -/
theorem Loose.close_leaves (h : workspace.Loose) (hpanel : panel ∈ workspace.tree.root.panels) :
    (workspace.closeTerminalPanel panel).Keeps
      (workspace.tree.visitLeaves.filter fun leaf => decide (leaf.1 ≠ panel)) := by
  have htree : (workspace.closeTerminalPanel panel).tree =
      removeTerminalPanel workspace.tree panel := by
    unfold closeTerminalPanel
    rw [if_neg (by simp [hasPanel_iff.mpr hpanel])]
  unfold Keeps
  rw [htree]
  unfold removeTerminalPanel
  rw [if_neg (by simp [hasPanel_iff.mpr hpanel])]
  by_cases hother : ∃ other ∈ workspace.tree.root.panels, other ≠ panel
  · obtain ⟨other, hother, hne⟩ := hother
    obtain ⟨leaf, hleaf, hsame⟩ := List.mem_map.mp hother
    obtain ⟨own, hown, hsame'⟩ := List.mem_map.mp hpanel
    have hseveral : workspace.tree.visitLeaves.length ≠ 1 := by
      intro hone
      obtain ⟨single, hsingle⟩ := length_eq_one_iff.mp hone
      unfold visitLeaves at hsingle
      rw [hsingle, mem_singleton] at hleaf hown
      exact hne (by rw [← hsame, ← hsame', hleaf, hown])
    rw [if_neg hseveral]
    refine .inl ⟨?_, closePanel_leaves hother hne⟩
    apply ne_nil_of_mem (a := leaf)
    exact mem_filter.mpr ⟨hleaf, decide_eq_true (hsame ▸ hne)⟩
  · push Not at hother
    have hnone : (workspace.tree.visitLeaves.filter fun leaf => decide (leaf.1 ≠ panel)) = [] := by
      apply filter_eq_nil_iff.mpr
      intro leaf hleaf
      simpa using hother leaf.1 (List.mem_map_of_mem hleaf)
    refine .inr ⟨hnone, ?_⟩
    split
    · rename_i hone
      obtain ⟨single, hsingle⟩ := length_eq_one_iff.mp hone
      have hsame : single.1 = panel := by
        apply hother
        unfold PanelNode.panels
        rw [show workspace.tree.root.leaves = [single] from hsingle]
        exact mem_singleton_self _
      refine ⟨panel, ?_⟩
      unfold setView visitLeaves
      rw [PanelNode.leaves_mapNode, show workspace.tree.root.leaves = [single] from hsingle,
        flatMap_singleton, if_pos hsame, hsame]
      rfl
    · have hrem := PanelNode.leaves_removePanel panel workspace.tree.root
      rw [show (workspace.tree.root.leaves.filter fun leaf => decide (leaf.1 ≠ panel)) = [] from
        hnone] at hrem
      unfold closePanel visitLeaves
      split
      · rename_i root hroot
        rw [hroot] at hrem
        simp only [toList_some, flatMap_cons, flatMap_nil, append_nil] at hrem
        have hsome := PanelNode.leaves_ne_nil (h.tiled.removePanel hroot).balanced
        rw [hrem] at hsome
        exact absurd hsome (by decide)
      · exact ⟨_, rfl⟩

theorem firstPanel_of_tiled {tree : PanelTree TerminalPaneView} (h : tree.root.Tiled) :
    firstPanel tree ∈ tree.root.panels := by
  obtain ⟨first, rest, hleaves⟩ :=
    exists_cons_of_length_pos (PanelNode.leaves_ne_nil h.balanced)
  unfold firstPanel visitLeaves PanelNode.panels
  rw [hleaves]
  exact mem_cons_self

theorem Loose.close (h : workspace.Loose) (panel : Nat) :
    (workspace.closeTerminalPanel panel).Loose := by
  by_cases hpanel : panel ∈ workspace.tree.root.panels
  · have hkeeps := h.close_leaves hpanel
    have hclosed : workspace.closeTerminalPanel panel =
        ⟨removeTerminalPanel workspace.tree panel,
          resolvedFocus (removeTerminalPanel workspace.tree panel) workspace.focusedPanelId,
          if workspace.zoomedPanelId = some panel then none else workspace.zoomedPanelId⟩ := by
      unfold closeTerminalPanel
      rw [if_neg (by simp [hasPanel_iff.mpr hpanel])]
    have htiled : (removeTerminalPanel workspace.tree panel).root.Tiled := by
      unfold removeTerminalPanel
      rw [if_neg (by simp [hasPanel_iff.mpr hpanel])]
      split
      · refine h.tiled.mapNode fun panelId old => ?_
        split <;> trivial
      unfold closePanel
      split
      · rename_i root hroot
        exact h.tiled.removePanel hroot
      · trivial
    have hpanels : ∀ other ∈ (removeTerminalPanel workspace.tree panel).root.panels,
        other < (removeTerminalPanel workspace.tree panel).nextPanelId := by
      intro other hother
      unfold removeTerminalPanel at hother ⊢
      rw [if_neg (by simp [hasPanel_iff.mpr hpanel])] at hother ⊢
      split at hother
      · rename_i hone
        rw [if_pos hone]
        rw [setView_panels] at hother
        exact h.fresh other hother
      rename_i hmany
      rw [if_neg hmany]
      unfold closePanel at hother ⊢
      split at hother
      · rename_i root hroot
        have hleaves := PanelNode.leaves_removePanel panel workspace.tree.root
        rw [hroot] at hleaves
        simp only [toList_some, flatMap_cons, flatMap_nil, append_nil] at hleaves
        obtain ⟨leaf, hleaf, rfl⟩ := List.mem_map.mp hother
        rw [hleaves] at hleaf
        exact h.fresh leaf.1 (List.mem_map_of_mem (mem_filter.mp hleaf).1)
      · rw [mem_singleton.mp hother]
        exact Nat.lt_succ_self _
    rw [hclosed] at hkeeps ⊢
    refine ⟨htiled, hpanels, ?_, ?_⟩
    · unfold resolvedFocus
      split
      · rename_i hhas
        exact hasPanel_iff.mp hhas
      · exact firstPanel_of_tiled htiled
    · intro other hzoom
      obtain ⟨hne, hzoom⟩ := ite_none_left_eq_some.mp hzoom
      obtain ⟨leaf, hleaf, rfl⟩ := List.mem_map.mp (h.zoomed other hzoom)
      have hkept : leaf ∈ workspace.tree.visitLeaves.filter fun leaf => decide (leaf.1 ≠ panel) :=
        mem_filter.mpr ⟨hleaf, decide_eq_true fun hsame => hne (hsame ▸ hzoom)⟩
      rcases hkeeps with ⟨-, hleaves⟩ | ⟨hnil, -⟩
      · rw [← hleaves] at hkept
        exact List.mem_map_of_mem hkept
      · rw [hnil] at hkept
        cases hkept
  · have hsame : workspace.closeTerminalPanel panel = workspace := by
      unfold closeTerminalPanel
      rw [if_pos]
      rw [not_eq_true', eq_false_iff]
      exact fun hhas => hpanel (hasPanel_iff.mp hhas)
    rw [hsame]
    exact h

/-! ## Panes that are kept -/

theorem lastView_filter (keep : Nat → Bool) (leaves : Leaves) (panel : Nat) :
    lastView (leaves.filter fun leaf => keep leaf.1) panel =
      if keep panel then lastView leaves panel else none := by
  unfold lastView
  rw [← filter_reverse, find?_filter]
  by_cases hkeep : keep panel = true
  · rw [if_pos hkeep]
    congr 2
    funext leaf
    by_cases hleaf : leaf.1 = panel
    · simp [hleaf, hkeep]
    · simp [hleaf]
  · rw [if_neg hkeep, map_eq_none_iff]
    apply find?_eq_none.mpr
    intro leaf _ hboth
    simp only [decide_and, Bool.decide_eq_true, and_eq_true, decide_eq_true_eq] at hboth
    exact hkeep (hboth.2 ▸ hboth.1)

def closedBy (all : Leaves) (items : List (Nat × MuxTerminalId)) (panel : Nat) : Bool :=
  items.any fun item => decide (item.1 = panel ∧ lastView all panel = some (.terminal item.2))

theorem Loose.closeTab_keeps (h : workspace.Loose) {all : Leaves} {closed : Nat → Bool}
    (hkeeps : workspace.Keeps (all.filter fun leaf => !closed leaf.1)) (panel : Nat)
    (id : MuxTerminalId) : (workspace.closeTerminalTab panel id).Keeps
      (all.filter fun leaf => !(closed leaf.1 || closedBy all [(panel, id)] leaf.1)) := by
  have hsplit : (all.filter fun leaf => !(closed leaf.1 || closedBy all [(panel, id)] leaf.1)) =
      (all.filter fun leaf => !closed leaf.1).filter fun leaf =>
        !closedBy all [(panel, id)] leaf.1 := by
    rw [List.filter_filter]
    apply filter_congr
    intro leaf _
    rw [Bool.not_or, Bool.and_comm]
  have hby : ∀ other, closedBy all [(panel, id)] other = true ↔
      panel = other ∧ lastView all other = some (.terminal id) := by
    intro other
    simp [closedBy]
  rw [hsplit]
  rcases hkeeps with ⟨hsome, hleaves⟩ | ⟨hnil, single, hleaves⟩
  · have hview : workspace.tree.getView panel =
        if !closed panel then lastView all panel else none := by
      rw [getView_lastView, hleaves, lastView_filter (fun panel => !closed panel)]
    unfold closeTerminalTab
    split
    · rename_i hterm
      rw [hterm] at hview
      have hpanel : panel ∈ workspace.tree.root.panels := by
        apply hasPanel_iff.mp
        unfold hasPanel
        rw [hterm]
        rfl
      have hlast : lastView all panel = some (.terminal id) := by
        split at hview
        · exact hview.symm
        · cases hview
      have hclosed := h.close_leaves hpanel
      rw [hleaves] at hclosed
      have hsame : ((all.filter fun leaf => !closed leaf.1).filter fun leaf =>
            !closedBy all [(panel, id)] leaf.1) =
          (all.filter fun leaf => !closed leaf.1).filter fun leaf => decide (leaf.1 ≠ panel) := by
        apply filter_congr
        intro leaf _
        rw [Bool.eq_iff_iff, not_eq_true', eq_false_iff, ne_eq, hby, decide_eq_true_eq]
        constructor
        · rintro hnot rfl
          exact hnot ⟨rfl, hlast⟩
        · rintro hne ⟨rfl, -⟩
          exact hne rfl
      rw [hsame]
      exact hclosed
    · rename_i hterm
      have hsame : ((all.filter fun leaf => !closed leaf.1).filter fun leaf =>
            !closedBy all [(panel, id)] leaf.1) = all.filter fun leaf => !closed leaf.1 := by
        apply filter_eq_self.mpr
        intro leaf hleaf
        rw [not_eq_true', eq_false_iff, ne_eq, hby]
        rintro ⟨rfl, hlast⟩
        apply hterm
        rw [hview, if_pos (mem_filter.mp hleaf).2, hlast]
      rw [hsame]
      exact .inl ⟨hsome, hleaves⟩
  · refine .inr ⟨by rw [hnil]; rfl, single, ?_⟩
    have hterm : workspace.tree.getView panel ≠ some (.terminal id) := by
      intro hview
      have hleaf := getView_some hview
      rw [hleaves, mem_singleton] at hleaf
      cases hleaf
    unfold closeTerminalTab
    rw [if_neg hterm]
    exact hleaves

theorem Loose.closeTabs_keeps (h : workspace.Loose) {all : Leaves} {closed : Nat → Bool}
    (hkeeps : workspace.Keeps (all.filter fun leaf => !closed leaf.1))
    (items : List (Nat × MuxTerminalId)) :
    (items.foldl (fun next item => next.closeTerminalTab item.1 item.2) workspace).Loose ∧
      (items.foldl (fun next item => next.closeTerminalTab item.1 item.2) workspace).Keeps
        (all.filter fun leaf => !(closed leaf.1 || closedBy all items leaf.1)) := by
  induction items generalizing workspace closed with
  | nil =>
    refine ⟨h, ?_⟩
    simpa only [foldl_nil, closedBy, any_nil, Bool.or_false] using hkeeps
  | cons item rest ih =>
    have hloose : (workspace.closeTerminalTab item.1 item.2).Loose := by
      unfold closeTerminalTab
      split
      · exact h.close item.1
      · exact h
    obtain ⟨hlast, hrest⟩ := @ih _ hloose
      (fun panel => closed panel || closedBy all [(item.1, item.2)] panel)
      (h.closeTab_keeps hkeeps item.1 item.2)
    refine ⟨hlast, ?_⟩
    rw [foldl_cons]
    have hsame : (fun leaf : Nat × TerminalPaneView =>
          !(closed leaf.1 || closedBy all (item :: rest) leaf.1)) = fun leaf =>
        !(closed leaf.1 || closedBy all [(item.1, item.2)] leaf.1 || closedBy all rest leaf.1) := by
      funext leaf
      simp only [closedBy, any_cons, any_nil, Bool.or_false, Bool.or_assoc]
    rw [hsame]
    exact hrest

theorem Loose.removeMissing_keeps (h : workspace.Loose) (live : List MuxTerminalId) :
    (workspace.removeMissingTerminalViews live).Loose ∧
      (workspace.removeMissingTerminalViews live).Keeps
        (keptLeaves live workspace.tree.visitLeaves) := by
  have hstart : workspace.Keeps
      (workspace.tree.visitLeaves.filter fun leaf => !(fun _ => false) leaf.1) := by
    have hall : (workspace.tree.visitLeaves.filter fun leaf => !(fun _ => false) leaf.1) =
        workspace.tree.visitLeaves := filter_eq_self.mpr fun _ _ => rfl
    rw [hall]
    exact .inl ⟨h.nonempty, rfl⟩
  obtain ⟨hloose, hkeeps⟩ := @Loose.closeTabs_keeps _ h _ (fun _ => false) hstart
    (workspace.missing live)
  refine ⟨hloose, ?_⟩
  have hgone : ∀ panel, closedBy workspace.tree.visitLeaves (workspace.missing live) panel =
      goneFrom live workspace.tree.visitLeaves panel := by
    intro panel
    rw [Bool.eq_iff_iff]
    unfold closedBy
    rw [List.any_eq_true]
    constructor
    · rintro ⟨item, hitem, hboth⟩
      obtain ⟨rfl, hlast⟩ := of_decide_eq_true hboth
      unfold goneFrom
      rw [hlast]
      exact decide_eq_true (mem_missing.mp hitem).2
    · intro hgone
      unfold goneFrom at hgone
      split at hgone
      · rename_i id hlast
        refine ⟨(panel, id), mem_missing.mpr ⟨getView_some hlast, of_decide_eq_true hgone⟩, ?_⟩
        exact decide_eq_true ⟨rfl, hlast⟩
      · cases hgone
  simp only [hgone, Bool.false_or] at hkeeps
  exact hkeeps

/-! ## Panes that are too many -/

theorem cappedLeaves_nil (rounds : Nat) : cappedLeaves rounds [] = [] := by
  cases rounds <;> rfl

theorem cappedPanel_mem (h : cappedPanel leaves = some panel) : panel ∈ leaves.map Prod.fst := by
  unfold cappedPanel at h
  cases hfind : (leaves.map Prod.fst).find? fun panel => lastView leaves panel = some .empty with
  | some found =>
    rw [hfind] at h
    cases h
    exact mem_of_find?_eq_some hfind
  | none =>
    rw [hfind] at h
    exact mem_of_getLast? h

theorem cappedLeaves_length {rounds : Nat} (h : leaves.length ≤ rounds) :
    (cappedLeaves rounds leaves).length ≤ maxTerminalTiles := by
  induction rounds generalizing leaves with
  | zero =>
    rw [cappedLeaves]
    omega
  | succ rounds ih =>
    rw [cappedLeaves]
    split
    · split
      · rename_i hmany _ hnone
        unfold cappedPanel at hnone
        rw [orElse_eq_none] at hnone
        have hempty := getLast?_eq_none_iff.mp hnone.2
        rw [map_eq_nil_iff.mp hempty] at hmany
        exact absurd hmany (by decide)
      · rename_i hmany _ panel hpanel
        apply ih
        obtain ⟨leaf, hleaf, hsame⟩ := List.mem_map.mp (cappedPanel_mem hpanel)
        have hfewer : (leaves.filter fun leaf => decide (leaf.1 ≠ panel)).length <
            leaves.length := by
          apply length_filter_lt_length_iff_exists.mpr
          exact ⟨leaf, hleaf, by simp [hsame]⟩
        omega
    · omega

theorem Loose.cap_keeps (h : workspace.Loose) (hkeeps : workspace.Keeps leaves) (rounds : Nat) :
    (capRestoredTerminalPanes rounds workspace).Loose ∧
      (capRestoredTerminalPanes rounds workspace).Keeps (cappedLeaves rounds leaves) := by
  induction rounds generalizing workspace leaves with
  | zero => exact ⟨h, hkeeps⟩
  | succ rounds ih =>
    rcases hkeeps with ⟨hsome, hleaves⟩ | ⟨rfl, single, hleaves⟩
    · rw [capRestoredTerminalPanes, cappedLeaves]
      unfold terminalPaneCount
      rw [hleaves]
      split
      · have hpanel : (((leaves.map Prod.fst).find? fun panel =>
            workspace.tree.getView panel = some .empty) <|>
              (leaves.map Prod.fst).getLast?) = cappedPanel leaves := by
          unfold cappedPanel
          simp only [getView_lastView, hleaves]
        simp only [hpanel]
        cases hcapped : cappedPanel leaves with
        | none => exact ⟨h, .inl ⟨hsome, hleaves⟩⟩
        | some panel =>
          have hmem : panel ∈ workspace.tree.root.panels := by
            have hmem := cappedPanel_mem hcapped
            rw [← hleaves] at hmem
            exact hmem
          have hclosed := h.close_leaves hmem
          rw [hleaves] at hclosed
          exact ih (h.close panel) hclosed
      · exact ⟨h, .inl ⟨hsome, hleaves⟩⟩
    · have hfew : workspace.terminalPaneCount ≤ maxTerminalTiles := by
        unfold terminalPaneCount
        rw [hleaves]
        show 1 ≤ maxTerminalTiles
        decide
      rw [cap_small hfew, cappedLeaves_nil]
      exact ⟨h, .inr ⟨rfl, single, hleaves⟩⟩

def cleared (layoutJson : Option LayoutJson) (live : List MuxTerminalId) : TerminalWorkspace :=
  let parsed := (parseTerminalWorkspace layoutJson).getD .createTerminalWorkspace
  let kept := parsed.removeMissingTerminalViews live
  kept.capRestoredTerminalPanes kept.terminalPaneCount

def decodedLayout (layoutJson : Option LayoutJson) : TerminalWorkspace :=
  (parseTerminalWorkspace layoutJson).getD .createTerminalWorkspace

def clearedLeaves (layoutJson : Option LayoutJson) (live : List MuxTerminalId) : Leaves :=
  let kept := keptLeaves live (decodedLayout layoutJson).tree.visitLeaves
  cappedLeaves kept.length kept

theorem decodedLayout_loose (layoutJson : Option LayoutJson) :
    (decodedLayout layoutJson).Loose := by
  unfold decodedLayout
  cases hparse : parseTerminalWorkspace layoutJson with
  | none =>
    have h := createTerminalWorkspace_wellTiled
    exact ⟨h.framed.tiled, h.framed.fresh, h.focused, h.zoomed⟩
  | some parsed => exact parse_loose hparse

theorem cleared_keeps (layoutJson : Option LayoutJson) (live : List MuxTerminalId) :
    (cleared layoutJson live).Loose ∧
      (cleared layoutJson live).Keeps (clearedLeaves layoutJson live) ∧
      (cleared layoutJson live).terminalPaneCount ≤ maxTerminalTiles := by
  obtain ⟨hloose, hkeeps⟩ := (decodedLayout_loose layoutJson).removeMissing_keeps live
  obtain ⟨hcapped, hleaves⟩ := hloose.cap_keeps hkeeps
    ((decodedLayout layoutJson).removeMissingTerminalViews live).terminalPaneCount
  have hrounds : cappedLeaves
      ((decodedLayout layoutJson).removeMissingTerminalViews live).terminalPaneCount
      (keptLeaves live (decodedLayout layoutJson).tree.visitLeaves) =
        clearedLeaves layoutJson live := by
    unfold clearedLeaves terminalPaneCount
    rcases hkeeps with ⟨-, hsame⟩ | ⟨hnil, -⟩
    · rw [hsame]
    · simp only [hnil, cappedLeaves_nil]
  rw [hrounds] at hleaves
  refine ⟨hcapped, hleaves, ?_⟩
  unfold terminalPaneCount
  rcases hleaves with ⟨-, hsame⟩ | ⟨-, single, hsame⟩
  · exact (congrArg List.length hsame).trans_le (cappedLeaves_length le_rfl)
  refine (congrArg List.length hsame).trans_le ?_
  show 1 ≤ maxTerminalTiles
  decide

theorem cappedLeaves_filter (rounds : Nat) (leaves : Leaves) :
    ∃ keep : Nat → Bool, cappedLeaves rounds leaves = leaves.filter fun leaf => keep leaf.1 := by
  have hall : ∀ leaves : Leaves, leaves = leaves.filter fun leaf => (fun _ => true) leaf.1 :=
    fun leaves => (filter_eq_self.mpr fun _ _ => rfl).symm
  induction rounds generalizing leaves with
  | zero => exact ⟨fun _ => true, hall leaves⟩
  | succ rounds ih =>
    rw [cappedLeaves]
    split
    · split
      · exact ⟨fun _ => true, hall leaves⟩
      rename_i panel _
      obtain ⟨keep, hkeep⟩ := ih (leaves.filter fun leaf => decide (leaf.1 ≠ panel))
      refine ⟨fun id => keep id && decide (id ≠ panel), ?_⟩
      rw [hkeep, List.filter_filter]
    · exact ⟨fun _ => true, hall leaves⟩

theorem clearedLeaves_live (honce : EachOnce (clearedLeaves layoutJson live))
    (hleaf : (panel, TerminalPaneView.terminal id) ∈ clearedLeaves layoutJson live) :
    id ∈ live := by
  unfold clearedLeaves at honce hleaf
  generalize (decodedLayout layoutJson).tree.visitLeaves = all at honce hleaf
  obtain ⟨keep, hkeep⟩ := cappedLeaves_filter (keptLeaves live all).length (keptLeaves live all)
  simp only [hkeep] at honce hleaf
  obtain ⟨hkept, hpanel⟩ := mem_filter.mp hleaf
  obtain ⟨hall, hnot⟩ := mem_filter.mp hkept
  have hsome : (lastView all panel).isSome = true := by
    unfold lastView
    rw [isSome_map, find?_isSome]
    exact ⟨_, mem_reverse.mpr hall, decide_eq_true rfl⟩
  obtain ⟨view, hview⟩ := isSome_iff_exists.mp hsome
  obtain ⟨⟨found, shown⟩, hfind, hshown⟩ := map_eq_some_iff.mp hview
  obtain rfl : found = panel := by simpa using find?_some hfind
  have hlast : (found, shown) ∈ (keptLeaves live all).filter fun leaf => keep leaf.1 :=
    mem_filter.mpr ⟨mem_filter.mpr ⟨mem_reverse.mp (mem_of_find?_eq_some hfind), hnot⟩, hpanel⟩
  have hsame := inj_on_of_nodup_map honce.1 hlast hleaf rfl
  cases hsame
  unfold goneFrom at hnot
  rw [hview, ← hshown] at hnot
  simpa using hnot

/-! ## Terminals that are placed -/

/-- A well-formed workspace that shows live terminals only, and all of them
unless there are six panes. -/
structure Safe (live : List MuxTerminalId) (workspace : TerminalWorkspace) : Prop where
  wellTiled : workspace.WellTiled
  onlyLive : ∀ id ∈ workspace.terminalIds, id ∈ live
  allLive : workspace.terminalPaneCount < maxTerminalTiles → ∀ id ∈ live, id ∈ workspace.terminalIds

theorem unplaced
    (hnew : id ∉ workspace.terminalIds) (hopen : workspace.openTerminalView id = none) :
    maxTerminalTiles ≤ workspace.terminalPaneCount := by
  unfold TerminalWorkspace.openTerminalView at hopen
  split at hopen
  · rename_i existing hfind
    exact absurd (mem_terminalIds.mpr ⟨existing, find_some hfind⟩) hnew
  simp only at hopen
  split at hopen
  · cases hopen
  split at hopen
  · rename_i hfull
    exact hfull
  · cases hopen

theorem WellTiled.place (h : workspace.WellTiled) {opened : List MuxTerminalId}
    (hopened : ∀ id, id ∈ opened ↔ id ∈ workspace.terminalIds) :
    (placeTerminals opened live workspace).WellTiled ∧
      (∀ id ∈ (placeTerminals opened live workspace).terminalIds,
        id ∈ workspace.terminalIds ∨ id ∈ live) ∧
      (∀ id ∈ workspace.terminalIds, id ∈ (placeTerminals opened live workspace).terminalIds) ∧
      ((placeTerminals opened live workspace).terminalPaneCount < maxTerminalTiles →
        ∀ id ∈ live, id ∈ (placeTerminals opened live workspace).terminalIds) := by
  induction live generalizing opened workspace with
  | nil => exact ⟨h, fun _ hid => .inl hid, fun _ hid => hid, fun _ _ hid => absurd hid not_mem_nil⟩
  | cons first rest ih =>
    rw [placeTerminals]
    split
    · rename_i hmem
      obtain ⟨hwell, honly, hold, hall⟩ := ih h hopened
      refine ⟨hwell, fun id hid => ?_, hold, fun hroom id hid => ?_⟩
      · exact (honly id hid).imp_right (mem_cons_of_mem first)
      · rcases mem_cons.mp hid with rfl | hid
        · exact hold id ((hopened id).mp hmem)
        · exact hall hroom id hid
    · rename_i hnew
      split
      · rename_i hopen
        have hfull := unplaced (fun hmem => hnew ((hopened first).mpr hmem)) hopen
        exact ⟨h, fun _ hid => .inl hid, fun _ hid => hid, fun hroom => by omega⟩
      rename_i next hopen
      obtain ⟨hnext, hshown⟩ := h.openTerminalView hopen
      have hopened' : ∀ id, id ∈ first :: opened ↔ id ∈ next.terminalIds := by
        intro id
        rw [hshown, mem_cons, hopened, or_comm]
      obtain ⟨hwell, honly, hold, hall⟩ := ih hnext hopened'
      refine ⟨hwell, fun id hid => ?_, fun id hid => ?_, fun hroom id hid => ?_⟩
      · rcases honly id hid with hid | hid
        · rcases (hshown id).mp hid with hid | rfl
          · exact .inl hid
          · exact .inr mem_cons_self
        · exact .inr (mem_cons_of_mem first hid)
      · exact hold id ((hshown id).mpr (.inl hid))
      · rcases mem_cons.mp hid with rfl | hid
        · exact hold id ((hshown id).mpr (.inr rfl))
        · exact hall hroom id hid

theorem splitRight_sublist (tree : PanelTree TerminalPaneView) (panel : Nat) :
    tree.root.panels.Sublist (tree.splitRight .empty panel).1.root.panels := by
  unfold splitRight PanelNode.panels
  rw [PanelNode.leaves_mapNode]
  generalize tree.root.leaves = leaves
  induction leaves with
  | nil => exact .refl _
  | cons leaf rest ih =>
    rw [flatMap_cons, map_cons, map_append, ← singleton_append]
    refine List.Sublist.append ?_ ih
    split
    · exact List.Sublist.cons_cons _ (nil_sublist _)
    · exact .refl _

theorem place_panels (opened : List MuxTerminalId) :
    workspace.tree.root.panels.Sublist (placeTerminals opened live workspace).tree.root.panels := by
  induction live generalizing opened workspace with
  | nil => exact .refl _
  | cons first rest ih =>
    rw [placeTerminals]
    split
    · exact ih opened
    split
    · exact .refl _
    rename_i next hopen
    refine List.Sublist.trans ?_ (ih (first :: opened))
    unfold TerminalWorkspace.openTerminalView at hopen
    split at hopen
    · unfold TerminalWorkspace.focusTerminalPanel at hopen
      obtain ⟨-, hopen⟩ := ite_none_left_eq_some.mp hopen
      obtain ⟨-, hopen⟩ := ite_none_left_eq_some.mp hopen
      cases hopen
      exact .refl _
    · simp only at hopen
      split at hopen
      · cases hopen
        rw [setView_panels]
      obtain ⟨-, hopen⟩ := ite_none_left_eq_some.mp hopen
      cases hopen
      rw [setView_panels]
      exact splitRight_sublist _ _

theorem Framed.open_shown (h : workspace.tree.Framed)
    (hopen : workspace.openTerminalView id = some next) :
    next.tree.Framed ∧ ∀ panel shown, Shown workspace.tree panel shown →
      Shown next.tree panel shown := by
  unfold TerminalWorkspace.openTerminalView at hopen
  split at hopen
  · unfold TerminalWorkspace.focusTerminalPanel at hopen
    obtain ⟨-, hopen⟩ := ite_none_left_eq_some.mp hopen
    obtain ⟨-, hopen⟩ := ite_none_left_eq_some.mp hopen
    cases hopen
    exact ⟨h, fun _ _ hshown => hshown⟩
  · simp only at hopen
    split at hopen
    · rename_i hempty
      cases hopen
      refine ⟨h.setView _ _, fun panel shown hshown => shown_set.mpr (.inl ⟨hshown, ?_⟩)⟩
      rintro rfl
      rw [(getView_shown h).mpr hshown] at hempty
      cases hempty
    · obtain ⟨-, hopen⟩ := ite_none_left_eq_some.mp hopen
      cases hopen
      have htgt := resolvedFocus_panels h workspace.focusedPanelId
      have hleaves := splitAtEdge_leaves h.distinct TerminalPaneView.empty htgt .right
      refine ⟨(h.splitAtEdge TerminalPaneView.empty htgt .right).setView _ _,
        fun panel shown hshown => shown_set.mpr (.inl ⟨?_, ?_⟩)⟩
      · exact hleaves.mem_iff.mpr (mem_cons_of_mem _ hshown)
      · exact Nat.ne_of_lt (h.fresh panel hshown.panel)

theorem Framed.place_shown (h : workspace.tree.Framed) (opened : List MuxTerminalId) :
    (placeTerminals opened live workspace).tree.Framed ∧ ∀ panel shown,
      Shown workspace.tree panel shown →
        Shown (placeTerminals opened live workspace).tree panel shown := by
  induction live generalizing opened workspace with
  | nil => exact ⟨h, fun _ _ hshown => hshown⟩
  | cons first rest ih =>
    rw [placeTerminals]
    split
    · exact ih h opened
    split
    · exact ⟨h, fun _ _ hshown => hshown⟩
    rename_i next hopen
    obtain ⟨hnext, hkept⟩ := Framed.open_shown h hopen
    obtain ⟨hlast, hlater⟩ := ih hnext (first :: opened)
    exact ⟨hlast, fun panel shown hshown => hlater panel shown (hkept panel shown hshown)⟩

/-! ## The restored workspace -/

theorem cleared_once (honce : EachOnce (clearedLeaves layoutJson live)) :
    (cleared layoutJson live).WellTiled ∧
      ∀ id ∈ (cleared layoutJson live).terminalIds, id ∈ live := by
  obtain ⟨hloose, hkeeps, htiles⟩ := cleared_keeps layoutJson live
  rcases hkeeps with ⟨-, hleaves⟩ | ⟨-, single, hleaves⟩
  · rw [← hleaves] at honce
    refine ⟨⟨⟨hloose.tiled, honce.1, hloose.fresh⟩, honce.2, htiles, hloose.focused,
      hloose.zoomed⟩, fun id hid => ?_⟩
    obtain ⟨panel, hshown⟩ := mem_terminalIds.mp hid
    rw [hleaves] at honce
    unfold Shown at hshown
    rw [hleaves] at hshown
    exact clearedLeaves_live honce hshown
  · have hpanels : (cleared layoutJson live).tree.root.panels = [single] :=
      congrArg (List.map Prod.fst) hleaves
    have hids : (cleared layoutJson live).terminalIds = [] := by
      unfold terminalIds
      rw [hleaves]
      rfl
    refine ⟨⟨⟨hloose.tiled, ?_, hloose.fresh⟩, ?_, htiles, hloose.focused, hloose.zoomed⟩, ?_⟩
    · rw [hpanels]
      exact nodup_singleton single
    · rw [hids]
      exact nodup_nil
    · rw [hids]
      exact fun _ hid => absurd hid not_mem_nil

theorem keepsEachOnce_iff (layoutJson : Option LayoutJson) (live : List MuxTerminalId) :
    KeepsEachOnce layoutJson live ↔ EachOnce (clearedLeaves layoutJson live) := by
  unfold KeepsEachOnce clearedLeaves decodedLayout
  cases hparse : parseTerminalWorkspace layoutJson with
  | none =>
    refine iff_of_true (nofun) ?_
    exact ⟨nodup_singleton 1, nodup_nil⟩
  | some parsed =>
    constructor
    · exact fun h => h parsed rfl
    · intro h other hother
      cases hother
      exact h

/-- Two panes of one id: the first shows a terminal that is gone, the second
one that is live. -/
def doubledPanel : LayoutJson :=
  .persisted ⟨1, .split .row [.leaf 1 (.terminal firstTerminal), .leaf 1 (.terminal secondTerminal)]
    [1, 1], 2, 1, none⟩

end TerminalWorkspace

end Yaade.Mux

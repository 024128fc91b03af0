import Yaade.Mux.TiledWorkspace

/-!
Layouts that are restored.
-/

namespace Yaade.Mux

open List

/-! ## What comes back of a saved layout -/

namespace TerminalWorkspace

variable {workspace next : TerminalWorkspace} {live : List MuxTerminalId}

theorem WellTiled.wellFormed (h : workspace.WellTiled)
    (hpositive : ∀ panel ∈ workspace.tree.root.panels, 0 < panel)
    (hsafe : workspace.tree.nextPanelId ≤ maxSafeInteger) : workspace.WellFormed where
  __ := h
  balanced := h.framed.tiled.balanced
  distinct := h.framed.distinct
  positive := hpositive
  fresh := h.framed.fresh
  safe := hsafe

theorem createTerminalWorkspace_wellTiled : createTerminalWorkspace.WellTiled where
  framed := ⟨trivial, nodup_singleton 1, by decide⟩
  single := nodup_nil
  tiles := by decide
  focused := by decide
  zoomed := nofun

def Compact (workspace : TerminalWorkspace) : Prop :=
  workspace.tree.nextPanelId ≤ workspace.terminalPaneCount + 1

theorem Compact.openTerminalView (hcompact : workspace.Compact) (h : workspace.WellTiled)
    {id : MuxTerminalId} (hopen : workspace.openTerminalView id = some next) : next.Compact := by
  unfold TerminalWorkspace.openTerminalView at hopen
  split at hopen
  · unfold TerminalWorkspace.focusTerminalPanel at hopen
    obtain ⟨-, hopen⟩ := Option.ite_none_left_eq_some.mp hopen
    obtain ⟨-, hopen⟩ := Option.ite_none_left_eq_some.mp hopen
    cases hopen
    exact hcompact
  · simp only [resolvedFocus_mem h] at hopen
    split at hopen
    · cases hopen
      unfold Compact terminalPaneCount
      rw [PanelTree.setView_length]
      exact hcompact
    obtain ⟨-, hopen⟩ := Option.ite_none_left_eq_some.mp hopen
    cases hopen
    have hleaves := PanelTree.splitAtEdge_leaves h.framed.distinct TerminalPaneView.empty
      h.focused .right
    unfold Compact terminalPaneCount
    rw [PanelTree.setView_length]
    exact Nat.succ_le_succ (hcompact.trans_eq hleaves.length_eq.symm)

theorem Compact.place (hcompact : workspace.Compact) (h : workspace.WellTiled)
    (opened : List MuxTerminalId) : (placeTerminals opened live workspace).Compact ∧
      (placeTerminals opened live workspace).WellTiled := by
  induction live generalizing opened workspace with
  | nil => exact ⟨hcompact, h⟩
  | cons id rest ih =>
    rw [placeTerminals]
    split
    · exact ih hcompact h opened
    split
    · exact ⟨hcompact, h⟩
    · rename_i next hopen
      exact ih (hcompact.openTerminalView h hopen) (h.openTerminalView hopen).1 (id :: opened)

theorem restore_unsafe (h : maxSafeInteger < workspace.tree.nextPanelId) :
    restoreTerminalWorkspace (some (serializeTerminalWorkspace workspace)) live ≠ workspace := by
  have hnext : positiveInteger workspace.tree.nextPanelId = false := by
    simp only [positiveInteger, Bool.and_eq_false_iff, decide_eq_false_iff_not]
    exact .inr (Nat.not_le_of_lt h)
  have hparse : parseTerminalWorkspace (some (serializeTerminalWorkspace workspace)) = none := by
    simp only [serializeTerminalWorkspace, parseTerminalWorkspace,
      PersistedTerminalWorkspace.validSchema, hnext, Bool.and_false, Bool.false_and, Bool.not_false,
      if_true]
  intro hsame
  obtain ⟨hcompact, hwell⟩ := @Compact.place createTerminalWorkspace live
    (Nat.le_refl 2) createTerminalWorkspace_wellTiled []
  have hrestored : restoreTerminalWorkspace (some (serializeTerminalWorkspace workspace)) live =
      placeTerminals [] live createTerminalWorkspace := by
    unfold restoreTerminalWorkspace
    rw [hparse]
    rfl
  rw [hrestored] at hsame
  rw [hsame] at hcompact hwell
  have htiles := hwell.tiles
  unfold Compact at hcompact
  unfold maxSafeInteger at h
  unfold maxTerminalTiles at htiles
  omega

/-- A workspace comes back as it was saved, whatever the order in which its
terminals are listed, just if the next panel id is a safe integer. -/
theorem WellTiled.restore_iff (h : workspace.WellTiled)
    (hpositive : ∀ panel ∈ workspace.tree.root.panels, 0 < panel)
    (hlive : live.Perm workspace.terminalIds) :
    restoreTerminalWorkspace (some (serializeTerminalWorkspace workspace)) live = workspace ↔
      workspace.tree.nextPanelId ≤ maxSafeInteger := by
  constructor
  · intro hsame
    by_contra hlarge
    exact restore_unsafe (Nat.lt_of_not_le hlarge) hsame
  · intro hsafe
    exact (h.wellFormed hpositive hsafe).restore fun id => hlive.mem_iff

def threePanes : TerminalWorkspace :=
  ⟨⟨.split .column [sideBySide.tree.root, .leaf 3 .empty] [1 / 3, 2 / 3], 7⟩, 3, some 2⟩

theorem threePanes_wellTiled : threePanes.WellTiled := by
  refine ⟨⟨⟨Nat.le_refl 2, rfl, ?_, by norm_num, ?_, trivial, trivial⟩, by decide, by decide⟩,
    by decide, by decide, by decide, ?_⟩
  · intro ratio hratio
    simp only [mem_cons, not_mem_nil, or_false] at hratio
    rcases hratio with rfl | rfl <;> norm_num
  · refine ⟨Nat.le_refl 2, rfl, ?_, by norm_num, trivial, trivial, trivial⟩
    intro ratio hratio
    simp only [mem_cons, not_mem_nil, or_false, or_self] at hratio
    rw [hratio]
    norm_num
  · intro panel hzoom
    cases hzoom
    decide

theorem threePanes_restored :
    restoreTerminalWorkspace (some (serializeTerminalWorkspace threePanes))
      [secondTerminal, firstTerminal] = threePanes :=
  (threePanes_wellTiled.restore_iff (by decide) (List.Perm.swap _ _ [])).mpr (by decide)

def lastNumber : TerminalWorkspace := ⟨⟨.leaf 1 .empty, maxSafeInteger⟩, 1, none⟩

/-- It comes back from its text; split once, it does not come back. -/
theorem split_unsafe :
    restoreTerminalWorkspace (some (serializeTerminalWorkspace lastNumber)) [] = lastNumber ∧
      ∃ workspace, lastNumber.splitTerminalPanel 1 .right = some workspace ∧
        workspace.WellTiled ∧ (∀ panel ∈ workspace.tree.root.panels, 0 < panel) ∧
        restoreTerminalWorkspace (some (serializeTerminalWorkspace workspace))
          workspace.terminalIds ≠ workspace := by
  have hlast : lastNumber.WellTiled := by
    refine ⟨⟨trivial, nodup_singleton 1, by decide⟩, nodup_nil, by decide, by decide, ?_⟩
    exact fun _ hzoom => nomatch hzoom
  have hwell : lastNumber.WellFormed := hlast.wellFormed (by decide) (by decide)
  have hsplit : (lastNumber.splitTerminalPanel 1 .right).isSome = true := by decide
  obtain ⟨workspace, hworkspace⟩ := Option.isSome_iff_exists.mp hsplit
  refine ⟨hwell.restore fun id => Iff.rfl, workspace, hworkspace,
    (hlast.splitTerminalPanel hworkspace).1, ?_⟩
  cases hworkspace
  exact ⟨by decide, restore_unsafe (by decide)⟩

end TerminalWorkspace

end Yaade.Mux

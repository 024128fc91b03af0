import Yaade.Mux.MultiServer

/-!
A layout that one client saves and another restores.
-/

namespace Yaade.Mux

open List Option

namespace TerminalWorkspace

structure WellFormed (workspace : TerminalWorkspace) : Prop where
  balanced : workspace.tree.root.Balanced
  distinct : workspace.tree.root.panels.Nodup
  positive : ∀ panel ∈ workspace.tree.root.panels, 0 < panel
  fresh : ∀ panel ∈ workspace.tree.root.panels, panel < workspace.tree.nextPanelId
  safe : workspace.tree.nextPanelId ≤ maxSafeInteger
  focused : workspace.focusedPanelId ∈ workspace.tree.root.panels
  zoomed : ∀ panel, workspace.zoomedPanelId = some panel → panel ∈ workspace.tree.root.panels
  tiles : workspace.terminalPaneCount ≤ maxTerminalTiles

end TerminalWorkspace

/-! ## Other ids in the same tree -/

namespace PanelNode

variable {ν μ : Type}

theorem panels_mapView (f : ν → μ) (node : PanelNode ν) :
    (node.mapView f).panels = node.panels := by
  unfold panels
  rw [leaves_mapView, List.map_map]
  rfl

variable {node : PanelNode ν}

theorem Balanced.mapView {f : ν → μ} (h : node.Balanced) : (node.mapView f).Balanced := by
  induction node using ofLeaves with
  | leaf panelId view => trivial
  | split kind children ratios ih =>
    obtain ⟨hchildren, hlength, hpositive, hnormal, hall⟩ := h
    simp only [PanelNode.mapView, mapNode, mapNodes_eq]
    refine ⟨?_, ?_, hpositive, hnormal, allBalanced_iff.mpr ?_⟩
    · rw [List.length_map]
      exact hchildren
    · rw [List.length_map]
      exact hlength
    · intro other hother
      obtain ⟨child, hchild, rfl⟩ := List.mem_map.mp hother
      exact ih child hchild (allBalanced_iff.mp hall child hchild)

theorem leaves_ne_nil (h : node.Balanced) : 1 ≤ node.leaves.length := by
  induction node using ofLeaves with
  | leaf panelId view => exact Nat.le_refl 1
  | split kind children ratios ih =>
    obtain ⟨hchildren, -, -, -, hall⟩ := h
    obtain ⟨first, rest, rfl⟩ := exists_cons_of_length_pos (by omega : 0 < children.length)
    have hfirst := ih first mem_cons_self (allBalanced_iff.mp hall first mem_cons_self)
    rw [leaves, leavesOf, length_append]
    omega

theorem eq_leaf (h : node.Balanced) (hone : node.leaves.length = 1) :
    ∃ panelId view, node = .leaf panelId view := by
  cases node with
  | leaf panelId view => exact ⟨panelId, view, rfl⟩
  | split kind children ratios =>
    obtain ⟨hchildren, -, -, -, hall⟩ := h
    match children, hchildren, hall with
    | first :: second :: rest, _, hall =>
      have hfirst := leaves_ne_nil (allBalanced_iff.mp hall first mem_cons_self)
      have hsecond := leaves_ne_nil (allBalanced_iff.mp hall second
        (mem_cons_of_mem _ mem_cons_self))
      simp only [leaves, leavesOf, length_append] at hone
      omega

end PanelNode

theorem PanelTree.getView_mem {ν : Type} {tree : PanelTree ν} {leaf : Nat × ν}
    (hdist : tree.root.panels.Nodup) (h : leaf ∈ tree.visitLeaves) :
    tree.getView leaf.1 = some leaf.2 := by
  have hsome : (tree.getView leaf.1).isSome = true := hasPanel_iff.mpr (mem_map_of_mem h)
  obtain ⟨view, hview⟩ := isSome_iff_exists.mp hsome
  have hsame := inj_on_of_nodup_map hdist (getView_some hview) h rfl
  rw [hview, ← hsame]

namespace TerminalWorkspace

variable {workspace : TerminalWorkspace} {f g : MuxTerminalId → MuxTerminalId}
  {live : List MuxTerminalId} {panel : Nat}

section

variable (f : MuxTerminalId → MuxTerminalId)

theorem map_leaves (workspace : TerminalWorkspace) : (workspace.map f).tree.visitLeaves =
      workspace.tree.visitLeaves.map fun leaf => (leaf.1, leaf.2.map f) :=
  PanelNode.leaves_mapView _ _

theorem terminal?_map (view : TerminalPaneView) :
    (view.map f).terminal? = view.terminal?.map f := by
  cases view <;> rfl

theorem map_terminalIds (workspace : TerminalWorkspace) :
    (workspace.map f).terminalIds = workspace.terminalIds.map f := by
  unfold terminalIds
  rw [map_leaves, List.filterMap_map, map_filterMap]
  congr 1
  funext leaf
  exact terminal?_map f leaf.2

end

theorem map_congr (h : ∀ id ∈ workspace.terminalIds, f id = g id) :
    workspace.map f = workspace.map g := by
  have hroot : workspace.tree.root.mapView (TerminalPaneView.map f) =
      workspace.tree.root.mapView (TerminalPaneView.map g) := by
    apply PanelNode.mapNode_congr
    rintro ⟨panelId, view⟩ hleaf
    cases view with
    | empty => rfl
    | terminal id =>
      have hid : id ∈ workspace.terminalIds := mem_filterMap.mpr ⟨_, hleaf, rfl⟩
      simp only [TerminalPaneView.map, h id hid]
  unfold map
  rw [hroot]

theorem WellFormed.map (h : workspace.WellFormed) (f : MuxTerminalId → MuxTerminalId) :
    (workspace.map f).WellFormed := by
  have hpanels : (workspace.map f).tree.root.panels = workspace.tree.root.panels :=
    PanelNode.panels_mapView _ _
  refine ⟨h.balanced.mapView, ?_, ?_, ?_, h.safe, ?_, ?_, ?_⟩
  · rw [hpanels]
    exact h.distinct
  · rw [hpanels]
    exact h.positive
  · rw [hpanels]
    exact h.fresh
  · rw [hpanels]
    exact h.focused
  · rw [hpanels]
    exact h.zoomed
  · unfold terminalPaneCount
    rw [map_leaves, List.length_map]
    exact h.tiles

/-! ## Saved and restored -/

theorem WellFormed.parse (h : workspace.WellFormed) :
    parseTerminalWorkspace (some (serializeTerminalWorkspace workspace)) = some workspace := by
  have hinteger : ∀ panel ∈ workspace.tree.root.panels, positiveInteger panel = true := by
    intro panel hpanel
    have hpositive := h.positive panel hpanel
    have hfresh := h.fresh panel hpanel
    have hsafe := h.safe
    simp only [positiveInteger, Bool.and_eq_true, decide_eq_true_eq]
    omega
  obtain ⟨hschema, hrtime⟩ := h.balanced.decodes hinteger
  have hnext : positiveInteger workspace.tree.nextPanelId = true := by
    have hfresh := h.fresh _ h.focused
    have hsafe := h.safe
    simp only [positiveInteger, Bool.and_eq_true, decide_eq_true_eq]
    omega
  have hzoomed : workspace.zoomedPanelId.all positiveInteger = true := by
    cases hzoom : workspace.zoomedPanelId with
    | none => rfl
    | some panel => exact hinteger panel (h.zoomed panel hzoom)
  have htree : PanelTree.fromSnapshot workspace.tree.root workspace.tree.nextPanelId =
      workspace.tree := by
    have hmax : workspace.tree.root.maxPanelId ≤ workspace.tree.nextPanelId - 1 :=
      PanelNode.maxPanelId_le fun panel hpanel => Nat.le_sub_one_of_lt (h.fresh panel hpanel)
    have hpositive : 0 < workspace.tree.nextPanelId :=
      Nat.lt_of_le_of_lt (Nat.zero_le _) (h.fresh _ h.focused)
    unfold PanelTree.fromSnapshot
    rw [if_pos hpositive, Nat.max_eq_left (by omega)]
  have hzoomKept : (workspace.zoomedPanelId.filter fun panel => workspace.tree.hasPanel panel) =
      workspace.zoomedPanelId := by
    cases hzoom : workspace.zoomedPanelId with
    | none => rfl
    | some panel =>
      exact filter_some_pos (PanelTree.hasPanel_iff.mpr (h.zoomed panel hzoom))
  simp only [serializeTerminalWorkspace, parseTerminalWorkspace,
    PersistedTerminalWorkspace.validSchema, hschema, hnext, hinteger _ h.focused, hzoomed, hrtime,
    bind_some, htree, hzoomKept, PanelTree.hasPanel_iff.mpr h.focused]
  rfl

theorem cap_small {rounds : Nat} (h : workspace.terminalPaneCount ≤ maxTerminalTiles) :
    capRestoredTerminalPanes rounds workspace = workspace := by
  cases rounds with
  | zero => rfl
  | succ rounds => rw [capRestoredTerminalPanes, if_neg (Nat.not_lt_of_le h)]

theorem placeTerminals_opened {opened : List MuxTerminalId} (h : ∀ id ∈ live, id ∈ opened) :
    placeTerminals opened live workspace = workspace := by
  induction live with
  | nil => rfl
  | cons id rest ih =>
    rw [placeTerminals, if_pos (h id mem_cons_self)]
    exact ih fun other hother => h other (mem_cons_of_mem id hother)

theorem mem_missing {item : Nat × MuxTerminalId} : item ∈ workspace.missing live ↔
    (item.1, TerminalPaneView.terminal item.2) ∈ workspace.tree.visitLeaves ∧ item.2 ∉ live := by
  unfold missing
  rw [mem_filterMap]
  constructor
  · rintro ⟨⟨panelId, view⟩, hleaf, hitem⟩
    obtain ⟨id, hid, rfl⟩ := map_eq_some_iff.mp hitem
    obtain ⟨hview, hgone⟩ := filter_eq_some_iff.mp hid
    cases view with
    | empty => cases hview
    | terminal other =>
      cases hview
      exact ⟨hleaf, of_decide_eq_true hgone⟩
  · rintro ⟨hleaf, hgone⟩
    refine ⟨_, hleaf, map_eq_some_iff.mpr ⟨item.2, ?_, rfl⟩⟩
    exact filter_some_pos (decide_eq_true hgone)

theorem WellFormed.restore (h : workspace.WellFormed)
    (hlive : ∀ id, id ∈ live ↔ id ∈ workspace.terminalIds) :
    restoreTerminalWorkspace (some (serializeTerminalWorkspace workspace)) live = workspace := by
  have hnone : workspace.missing live = [] := by
    apply eq_nil_iff_forall_not_mem.mpr
    intro item hitem
    obtain ⟨hleaf, hgone⟩ := mem_missing.mp hitem
    exact hgone ((hlive item.2).mpr (mem_filterMap.mpr ⟨_, hleaf, rfl⟩))
  unfold restoreTerminalWorkspace removeMissingTerminalViews
  simp only [h.parse, getD_some, hnone, foldl_nil, cap_small h.tiles]
  exact placeTerminals_opened fun id hid => (hlive id).mp hid

/-! ## A pane that is closed -/

def Lacks (panel : Nat) (workspace : TerminalWorkspace) : Prop :=
  panel ∉ workspace.tree.root.panels ∧ panel < workspace.tree.nextPanelId

theorem Lacks.close (h : Lacks panel workspace) (other : Nat) :
    Lacks panel (workspace.closeTerminalPanel other) := by
  unfold closeTerminalPanel
  split
  · exact h
  unfold removeTerminalPanel Lacks
  split
  · exact h
  split
  · simp only [PanelTree.setView_panels]
    exact h
  refine ⟨fun hmem => ?_, Nat.lt_of_lt_of_le h.2 (PanelTree.closePanel_next _ _)⟩
  rcases PanelTree.closePanel_panels _ _ hmem with ⟨hold, -⟩ | hnew
  · exact h.1 hold
  · exact absurd h.2 (by omega)

theorem Lacks.closeTab (h : Lacks panel workspace) (other : Nat) (id : MuxTerminalId) :
    Lacks panel (workspace.closeTerminalTab other id) := by
  unfold closeTerminalTab
  split
  · exact h.close other
  · exact h

theorem Lacks.open (h : Lacks panel workspace) {id : MuxTerminalId} {next : TerminalWorkspace}
    (hopen : workspace.openTerminalView id = some next) : Lacks panel next := by
  unfold openTerminalView at hopen
  split at hopen
  · unfold focusTerminalPanel at hopen
    obtain ⟨-, hopen⟩ := ite_none_left_eq_some.mp hopen
    obtain ⟨-, hopen⟩ := ite_none_left_eq_some.mp hopen
    cases hopen
    exact h
  · simp only at hopen
    split at hopen
    · cases hopen
      unfold Lacks
      rw [PanelTree.setView_panels]
      exact h
    obtain ⟨-, hopen⟩ := ite_none_left_eq_some.mp hopen
    cases hopen
    unfold Lacks
    rw [PanelTree.setView_panels]
    refine ⟨fun hmem => ?_, Nat.lt_succ_of_lt h.2⟩
    rcases PanelTree.splitRight_panels _ _ hmem with hold | hnew
    · exact h.1 hold
    · exact absurd h.2 (by omega)

theorem Lacks.cap (rounds : Nat) (h : Lacks panel workspace) :
    Lacks panel (capRestoredTerminalPanes rounds workspace) := by
  induction rounds generalizing workspace with
  | zero => exact h
  | succ rounds ih =>
    rw [capRestoredTerminalPanes]
    split
    · simp only
      split
      · exact h
      · exact ih (h.close _)
    · exact h

theorem Lacks.place (h : Lacks panel workspace) (opened : List MuxTerminalId) :
    Lacks panel (placeTerminals opened live workspace) := by
  induction live generalizing opened workspace with
  | nil => exact h
  | cons id rest ih =>
    rw [placeTerminals]
    split
    · exact ih h opened
    split
    · exact h
    · rename_i next hopen
      exact ih (h.open hopen) (id :: opened)

theorem Lacks.closeAll (h : Lacks panel workspace) (items : List (Nat × MuxTerminalId)) :
    Lacks panel (items.foldl (fun next item => next.closeTerminalTab item.1 item.2) workspace) := by
  induction items generalizing workspace with
  | nil => exact h
  | cons item rest ih => exact ih (h.closeTab item.1 item.2)

theorem WellFormed.restore_lacks (h : workspace.WellFormed)
    (hmany : workspace.terminalPaneCount ≠ 1) (hmissing : workspace.missing live ≠ []) :
    ∃ panel ∈ workspace.tree.root.panels,
      Lacks panel (restoreTerminalWorkspace (some (serializeTerminalWorkspace workspace)) live) := by
  obtain ⟨⟨panel, id⟩, rest, hitems⟩ := exists_cons_of_ne_nil hmissing
  obtain ⟨hleaf, -⟩ := mem_missing.mp (hitems ▸ mem_cons_self : (panel, id) ∈ workspace.missing live)
  have hpanel : panel ∈ workspace.tree.root.panels := mem_map_of_mem hleaf
  have hclosed : Lacks panel (workspace.closeTerminalTab panel id) := by
    unfold closeTerminalTab closeTerminalPanel removeTerminalPanel
    rw [if_pos (PanelTree.getView_mem h.distinct hleaf)]
    simp only [PanelTree.hasPanel_iff.mpr hpanel, Bool.not_true, Bool.false_eq_true, if_false]
    have hseveral : workspace.tree.visitLeaves.length ≠ 1 := hmany
    rw [if_neg hseveral]
    refine ⟨fun hmem => ?_, Nat.lt_of_lt_of_le (h.fresh panel hpanel)
      (PanelTree.closePanel_next _ _)⟩
    rcases PanelTree.closePanel_panels _ _ hmem with ⟨-, hne⟩ | hnew
    · exact hne rfl
    · exact absurd (h.fresh panel hpanel) (by omega)
  refine ⟨panel, hpanel, ?_⟩
  unfold restoreTerminalWorkspace removeMissingTerminalViews
  simp only [h.parse, getD_some, hitems, foldl_cons]
  exact ((hclosed.closeAll rest).cap _).place _

/-! ## A single pane -/

/-- A single pane whose terminal is not live is emptied and gets it back. -/
theorem restore_single {next : Nat} {zoomed : Option Nat} {gone back : MuxTerminalId}
    (h : (⟨⟨.leaf panel (.terminal gone), next⟩, panel, zoomed⟩ : TerminalWorkspace).WellFormed)
    (hgone : gone ≠ back) (hsome : live ≠ []) (hlive : ∀ id ∈ live, id = back) :
    restoreTerminalWorkspace (some (serializeTerminalWorkspace
      ⟨⟨.leaf panel (.terminal gone), next⟩, panel, zoomed⟩)) live =
        ⟨⟨.leaf panel (.terminal back), next⟩, panel, none⟩ := by
  obtain ⟨first, rest, rfl⟩ := exists_cons_of_ne_nil hsome
  obtain rfl : first = back := hlive first mem_cons_self
  have hnot : gone ∉ first :: rest := fun hmem => hgone (hlive gone hmem)
  have hzoom : (if zoomed = some panel then none else zoomed) = none := by
    cases hzoomed : zoomed with
    | none => rfl
    | some other =>
      have hother := h.zoomed other hzoomed
      rw [mem_singleton.mp hother, if_pos rfl]
  have hitems : TerminalWorkspace.missing
      ⟨⟨.leaf panel (.terminal gone), next⟩, panel, zoomed⟩ (first :: rest) = [(panel, gone)] := by
    have hkept : (some gone).filter (fun id => decide (id ∉ first :: rest)) = some gone :=
      filter_some_pos (decide_eq_true hnot)
    simp only [missing, PanelTree.visitLeaves, PanelNode.leaves, TerminalPaneView.terminal?,
      filterMap_cons, filterMap_nil, hkept, map_some]
  have hclosed : TerminalWorkspace.closeTerminalTab
      ⟨⟨.leaf panel (.terminal gone), next⟩, panel, zoomed⟩ panel gone =
        ⟨⟨.leaf panel .empty, next⟩, panel, none⟩ := by
    simp [closeTerminalTab, closeTerminalPanel, removeTerminalPanel, PanelTree.getView,
      PanelTree.visitLeaves, PanelNode.leaves, PanelTree.hasPanel, PanelTree.setView,
      PanelNode.mapNode, resolvedFocus, hzoom]
  have hrem : TerminalWorkspace.removeMissingTerminalViews
      ⟨⟨.leaf panel (.terminal gone), next⟩, panel, zoomed⟩ (first :: rest) =
        ⟨⟨.leaf panel .empty, next⟩, panel, none⟩ := by
    unfold removeMissingTerminalViews
    rw [hitems]
    exact hclosed
  have hopened : TerminalWorkspace.openTerminalView ⟨⟨.leaf panel .empty, next⟩, panel, none⟩ first =
      some ⟨⟨.leaf panel (.terminal first), next⟩, panel, none⟩ := by
    simp [openTerminalView, findTerminalPanel, PanelTree.findPanelWithView, PanelTree.visitLeaves,
      PanelNode.leaves, PanelTree.getView, PanelTree.hasPanel, PanelTree.setView, PanelNode.mapNode,
      resolvedFocus]
  have hcount : TerminalWorkspace.terminalPaneCount ⟨⟨.leaf panel .empty, next⟩, panel, none⟩ ≤
      maxTerminalTiles := by
    show 1 ≤ maxTerminalTiles
    decide
  have hempty : TerminalWorkspace.terminalIds ⟨⟨.leaf panel .empty, next⟩, panel, none⟩ = [] := rfl
  unfold restoreTerminalWorkspace
  simp only [h.parse, getD_some, hrem, cap_small hcount, hempty, placeTerminals,
    not_mem_nil, if_false, hopened]
  exact placeTerminals_opened fun id hid =>
    mem_singleton.mpr (hlive id (mem_cons_of_mem first hid))

end TerminalWorkspace

/-! ## Two clients -/

def Scoping.extra : Scoping → Nat
  | .current => 0
  | .remote serverId => serverId.value.toList.length + 2

theorem Scoping.length_publicId (scoping : Scoping) (id : MuxTerminalId) :
    (scoping.publicId id).value.toList.length = id.value.toList.length + scoping.extra := by
  cases scoping with
  | current => rfl
  | remote serverId => exact length_scopedId id.valid

theorem Scoping.eq_of_extra {first second : Scoping} {id other : MuxTerminalId}
    (hextra : first.extra = second.extra) (h : first.publicId id = second.publicId other) :
    first = second := by
  cases first with
  | current =>
    cases second with
    | current => rfl
    | remote serverId =>
      simp only [extra] at hextra
      omega
  | remote serverId =>
    cases second with
    | current =>
      simp only [extra] at hextra
      omega
    | remote other' =>
      have hlists := congrArg String.toList (congrArg EntityId.value h)
      simp only [publicId, EntityId.scoped, scopedId_toList, append_assoc,
        append_cancel_left_eq] at hlists
      have hserver := (append_inj hlists (Nat.add_right_cancel hextra)).1
      obtain ⟨server, hvalid⟩ := serverId
      obtain ⟨server', hvalid'⟩ := other'
      cases String.toList_inj.mp hserver
      rfl

theorem Scoping.escapes {first second : Scoping} {ids : List MuxTerminalId}
    (hne : first ≠ second) (hsome : ids ≠ []) :
    ∃ id ∈ ids, ∀ other ∈ ids, first.publicId id ≠ second.publicId other := by
  have hnonem : ids.toFinset.Nonempty := toFinset_nonempty_iff ids |>.mpr hsome
  have hlengths : ∀ id other : MuxTerminalId, first.publicId id = second.publicId other →
      id.value.toList.length + first.extra = other.value.toList.length + second.extra := by
    intro id other hsame
    have hlength := congrArg (fun id => (EntityId.value id).toList.length) hsame
    simp only [length_publicId] at hlength
    exact hlength
  rcases Nat.lt_trichotomy first.extra second.extra with hless | hequal | hmore
  · obtain ⟨id, hid, hmin⟩ :=
      Finset.exists_min_image ids.toFinset (fun id => id.value.toList.length) hnonem
    refine ⟨id, mem_toFinset.mp hid, fun other hother hsame => ?_⟩
    have hle := hmin other (mem_toFinset.mpr hother)
    have hlength := hlengths id other hsame
    omega
  · obtain ⟨id, hid⟩ := exists_mem_of_ne_nil ids hsome
    exact ⟨id, hid, fun other _ hsame => hne (eq_of_extra hequal hsame)⟩
  · obtain ⟨id, hid, hmax⟩ :=
      Finset.exists_max_image ids.toFinset (fun id => id.value.toList.length) hnonem
    refine ⟨id, mem_toFinset.mp hid, fun other hother hsame => ?_⟩
    have hle := hmax other (mem_toFinset.mpr hother)
    have hlength := hlengths id other hsame
    omega

/-- The tab after the server has carried out a command on it: the text of a
layout is kept as it is. -/
def SessionTab.saved (tab : SessionTab) : MuxCommand → SessionTab
  | .saveTabLayout _ layoutJson _ => { tab with layoutJson := some layoutJson }
  | _ => tab

section Shared

variable {current serverId current' serverId' : ServerId} {owners owners' : Owners}
  {workspace : TerminalWorkspace} {live : List MuxTerminalId}

theorem received_layout {tabId : SessionTabId} {layoutJson : LayoutJson} {revision : Option Nat}
    {localCommand : MuxCommand} (tab : SessionTab)
    (hsaved : toLocalCommand owners (.saveTabLayout tabId layoutJson revision) = .ok localCommand) :
    (scopeTab current' serverId' owners' (tab.saved localCommand)).2.layoutJson = some layoutJson := by
  obtain ⟨localId, -, hlocal⟩ := Yaade.Library.bind_ok.mp hsaved
  cases hlocal
  unfold scopeTab SessionTab.saved
  by_cases hkeep : keepLocalIds current' serverId' = true
  · simp only [hkeep, if_true]
  · simp only [hkeep, Bool.false_eq_true, if_false]

/-- A saved layout comes back as it was if and only if both clients see the
server the same way, or the layout shows no terminal, or it is a single pane
that is not zoomed. -/
theorem shared_layout {tabId : SessionTabId} {revision : Option Nat} {localCommand : MuxCommand}
    (tab : SessionTab) (hwell : workspace.WellFormed)
    (hlive : ∀ id, id ∈ live ↔ id ∈ workspace.terminalIds)
    (hsaved : toLocalCommand owners (.saveTabLayout tabId
      (serializeTerminalWorkspace (workspace.map (publicId current serverId))) revision) =
        .ok localCommand) :
    restoreTerminalWorkspace (scopeTab current' serverId' owners' (tab.saved localCommand)).2.layoutJson
        (live.map (publicId current' serverId')) = workspace.map (publicId current' serverId') ↔
      scopingOf current serverId = scopingOf current' serverId' ∨ workspace.terminalIds = [] ∨
        workspace.terminalPaneCount = 1 ∧ workspace.zoomedPanelId = none := by
  rw [received_layout tab hsaved]
  have hmapped := hwell.map (publicId current serverId)
  by_cases hagree : ∀ id ∈ workspace.terminalIds,
      publicId current serverId id = publicId current' serverId' id
  · -- the text names the terminals as the second client does
    rw [TerminalWorkspace.map_congr hagree]
    have hwell' := hwell.map (publicId current' serverId')
    have hlive' : ∀ id, id ∈ live.map (publicId current' serverId') ↔
        id ∈ (workspace.map (publicId current' serverId')).terminalIds := by
      intro id
      rw [TerminalWorkspace.map_terminalIds, List.mem_map, List.mem_map]
      exact exists_congr fun other => and_congr_left fun _ => hlive other
    refine iff_of_true (hwell'.restore hlive') ?_
    by_cases hempty : workspace.terminalIds = []
    · exact .inr (.inl hempty)
    · obtain ⟨id, hid⟩ := exists_mem_of_ne_nil _ hempty
      exact .inl (Scoping.eq_of_publicId (hagree id hid))
  · have hsome : workspace.terminalIds ≠ [] := by
      intro hempty
      apply hagree
      rw [hempty]
      exact forall_mem_nil _
    have hne : scopingOf current serverId ≠ scopingOf current' serverId' := by
      intro hsame
      apply hagree
      intro id _
      unfold publicId
      rw [hsame]
    obtain ⟨id, hid, hescapes⟩ := Scoping.escapes hne hsome
    by_cases hone : workspace.terminalPaneCount = 1
    · -- the one pane is emptied and filled again
      obtain ⟨panel, view, hroot⟩ := PanelNode.eq_leaf hwell.balanced hone
      obtain ⟨⟨root, next⟩, focused, zoomed⟩ := workspace
      simp only at hroot
      subst hroot
      cases view with
      | empty => exact absurd rfl hsome
      | terminal shown =>
        cases mem_singleton.mp hid
        cases mem_singleton.mp hwell.focused
        have hback : ∀ other ∈ live.map (publicId current' serverId'),
            other = publicId current' serverId' id := by
          intro other hother
          obtain ⟨localId, hlocal, rfl⟩ := List.mem_map.mp hother
          rw [mem_singleton.mp ((hlive localId).mp hlocal)]
        have hlist : live.map (publicId current' serverId') ≠ [] :=
          ne_nil_of_mem (mem_map_of_mem ((hlive id).mpr hid))
        have hrestored := TerminalWorkspace.restore_single hmapped (hescapes id hid) hlist hback
        constructor
        · intro hsame
          have hzoomed := congrArg TerminalWorkspace.zoomedPanelId (hrestored.symm.trans hsame)
          exact .inr (.inr ⟨hone, hzoomed.symm⟩)
        · rintro (hsame | hempty | ⟨-, hzoomed⟩)
          · exact absurd hsame hne
          · exact absurd hempty hsome
          · cases hzoomed
            exact hrestored
    · -- the pane of the terminal that escapes is closed, and its panel is gone
      have hmissing : (workspace.map (publicId current serverId)).missing
          (live.map (publicId current' serverId')) ≠ [] := by
        have hpublic : publicId current serverId id ∈
            (workspace.map (publicId current serverId)).terminalIds := by
          rw [TerminalWorkspace.map_terminalIds]
          exact mem_map_of_mem hid
        obtain ⟨⟨panel, view⟩, hleaf, hview⟩ := mem_filterMap.mp hpublic
        cases view with
        | empty => cases hview
        | terminal shown =>
          cases hview
          have hitem : (panel, publicId current serverId id) ∈
              (workspace.map (publicId current serverId)).missing
                (live.map (publicId current' serverId')) := by
            apply TerminalWorkspace.mem_missing.mpr
            refine ⟨hleaf, fun hmem => ?_⟩
            obtain ⟨other, hother, hsame⟩ := List.mem_map.mp hmem
            exact hescapes other ((hlive other).mp hother) hsame.symm
          exact ne_nil_of_mem hitem
      have hmany : (workspace.map (publicId current serverId)).terminalPaneCount ≠ 1 := by
        unfold TerminalWorkspace.terminalPaneCount
        rw [TerminalWorkspace.map_leaves, List.length_map]
        exact hone
      obtain ⟨panel, hpanel, hlacks⟩ := hmapped.restore_lacks hmany hmissing
      refine iff_of_false (fun hsame => ?_) ?_
      · rw [hsame] at hlacks
        apply hlacks.1
        rw [show (workspace.map (publicId current' serverId')).tree.root.panels = _ from
          PanelNode.panels_mapView _ _]
        rw [show (workspace.map (publicId current serverId)).tree.root.panels = _ from
          PanelNode.panels_mapView _ _] at hpanel
        exact hpanel
      · rintro (hsame | hempty | ⟨hcount, -⟩)
        · exact hne hsame
        · exact hsome hempty
        · exact hone hcount

end Shared

/-! ### Two panes side by side -/

theorem first_valid : EntityKind.terminal.accepts "term-1" = true := by decide +kernel
theorem second_valid : EntityKind.terminal.accepts "term-2" = true := by decide +kernel
theorem tab_valid : EntityKind.tab.accepts "tab-1" = true := by decide +kernel
theorem session_valid : EntityKind.session.accepts "ses-1" = true := by decide +kernel

def firstTerminal : MuxTerminalId := ⟨"term-1", first_valid⟩
def secondTerminal : MuxTerminalId := ⟨"term-2", second_valid⟩
def sharedTab : SessionTabId := ⟨"tab-1", tab_valid⟩

def sideBySide : TerminalWorkspace :=
  ⟨⟨.split .row [.leaf 1 (.terminal firstTerminal), .leaf 2 (.terminal secondTerminal)]
    [1 / 2, 1 / 2], 3⟩, 1, none⟩

theorem sideBySide_wellFormed : sideBySide.WellFormed := by
  refine ⟨⟨Nat.le_refl 2, rfl, ?_, ?_, trivial, trivial, trivial⟩, ?_, ?_, ?_, ?_, ?_, ?_, ?_⟩
  · intro ratio hratio
    have hhalf : ratio = 1 / 2 := by simpa using hratio
    rw [hhalf]
    norm_num
  · norm_num
  · decide
  · decide
  · decide
  · decide
  · decide
  · exact nofun
  · decide

def sharedRow : SessionTab :=
  ⟨sharedTab, ⟨"ses-1", session_valid⟩, "", 0, none, none, none⟩

def savingOwners : Owners := Owners.empty.set sharedTab ⟨alpha, sharedTab⟩

theorem saves (layoutJson : LayoutJson) (revision : Option Nat) :
    toLocalCommand savingOwners (.saveTabLayout sharedTab layoutJson revision) =
      .ok (.saveTabLayout sharedTab layoutJson revision) := by
  have howner : ownerFor savingOwners sharedTab = .ok ⟨alpha, sharedTab⟩ := by
    unfold ownerFor savingOwners Owners.set
    rw [Function.update_self, Library.IndexMap.get?_insert, if_pos rfl]
  simp only [toLocalCommand, toLocalId, howner]
  rfl

/-- Both clients see the server as another one than their own. -/
theorem shared_layout_sample : restoreTerminalWorkspace (scopeTab beta alpha .empty (sharedRow.saved
        (.saveTabLayout sharedTab (serializeTerminalWorkspace (sideBySide.map (publicId beta alpha)))
          none))).2.layoutJson
        ([secondTerminal, firstTerminal].map (publicId beta alpha)) =
      sideBySide.map (publicId beta alpha) ↔
    scopingOf beta alpha = scopingOf beta alpha ∨ sideBySide.terminalIds = [] ∨
      sideBySide.terminalPaneCount = 1 ∧ sideBySide.zoomedPanelId = none := by
  have hlive : ∀ id, id ∈ [secondTerminal, firstTerminal] ↔ id ∈ sideBySide.terminalIds := by
    intro id
    have hids : sideBySide.terminalIds = [firstTerminal, secondTerminal] := rfl
    simp only [hids, mem_cons, not_mem_nil, or_false]
    exact or_comm
  exact shared_layout sharedRow sideBySide_wellFormed hlive (saves _ _)

/-- A client of alpha saves the two panes; a client of beta that sees alpha as
another server gets back other panes. -/
theorem shared_layout_lost :
    ¬∀ (current serverId current' serverId' : ServerId) (owners owners' : Owners)
      (tabId : SessionTabId) (revision : Option Nat) (localCommand : MuxCommand) (tab : SessionTab)
      (workspace : TerminalWorkspace) (live : List MuxTerminalId), workspace.WellFormed →
      (∀ id, id ∈ live ↔ id ∈ workspace.terminalIds) →
      toLocalCommand owners (.saveTabLayout tabId
        (serializeTerminalWorkspace (workspace.map (publicId current serverId))) revision) =
          .ok localCommand →
      restoreTerminalWorkspace
          (scopeTab current' serverId' owners' (tab.saved localCommand)).2.layoutJson
          (live.map (publicId current' serverId')) =
        workspace.map (publicId current' serverId') := by
  intro hall
  have hone := hall alpha alpha beta alpha savingOwners .empty sharedTab none _ sharedRow sideBySide
    [firstTerminal, secondTerminal] sideBySide_wellFormed (fun _ => Iff.rfl) (saves _ _)
  have hpanels := congrArg (fun workspace => workspace.tree.root.panels) hone
  revert hpanels
  decide +kernel

end Yaade.Mux

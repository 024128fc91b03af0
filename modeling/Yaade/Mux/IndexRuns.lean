import Yaade.Mux.Indexes

/-!
The lists by which the client shows its records are the rebuilt ones over a
whole run, if no step of it edits them where records stand in each other's way.
-/

namespace Yaade.Mux.Client

open Yaade.Library List Option IndexMap MuxSessionStore

/-! ## Maps of distinct items -/

section Maps

variable {κ α : Type} [DecidableEq κ] {idOf : α → κ}

theorem mapOf_concat (items : List α) (item : α) :
    mapOf idOf (items ++ [item]) = (mapOf idOf items).insert (idOf item) item := by
  unfold mapOf
  rw [foldl_append]
  rfl

theorem mem_of_mapOf {items : List α} {key : κ} {item : α}
    (h : (mapOf idOf items).get? key = some item) : item ∈ items := by
  induction items using List.reverseRecOn with
  | nil => cases h
  | append_singleton rest last ih =>
    rw [mapOf_concat, get?_insert] at h
    split at h
    · cases h
      exact mem_concat_self
    · exact mem_append_left _ (ih h)

theorem mapOf_none {items : List α} {key : κ} (h : key ∉ items.map idOf) :
    (mapOf idOf items).get? key = none := by
  cases hget : (mapOf idOf items).get? key with
  | none => rfl
  | some item =>
    have hkey := keyedBy_mapOf idOf items key item hget
    exact absurd (hkey ▸ mem_map_of_mem (mem_of_mapOf hget)) h

theorem values_mapOf {items : List α} (h : (items.map idOf).Nodup) :
    (mapOf idOf items).values = items := by
  induction items using List.reverseRecOn with
  | nil => rfl
  | append_singleton rest last ih =>
    rw [map_append, nodup_append] at h
    obtain ⟨hrest, -, hdisjoint⟩ := h
    have hnone : (mapOf idOf rest).get? (idOf last) = none :=
      mapOf_none fun hmem => hdisjoint _ hmem _ mem_cons_self rfl
    rw [mapOf_concat]
    unfold IndexMap.values
    rw [insert_entries hnone, map_append, ← IndexMap.values, ih hrest]
    rfl

theorem values_insert (items : IndexMap κ α) (key : κ) (item : α) :
    ∃ before after, items.values = before ++ (items.get? key).toList ++ after ∧
      (items.insert key item).values = before ++ [item] ++ after := by
  unfold IndexMap.values
  cases hget : items.get? key with
  | none =>
    refine ⟨items.entries.map Prod.snd, [], by simp, ?_⟩
    rw [insert_entries hget, map_append, append_nil]
    rfl
  | some old =>
    obtain ⟨before, after, hentries, hinserted, -, -⟩ := insert_split hget item
    refine ⟨before.map Prod.snd, after.map Prod.snd, ?_, ?_⟩
    · rw [hentries]
      simp
    · rw [hinserted]
      simp

end Maps

/-! ## Fallback tabs -/

theorem fallbackTabId_injective {first second : SessionId}
    (h : fallbackTabId first = fallbackTabId second) : first = second := by
  have htag : ∀ id : SessionId, "ses-".toList ++ id.value.toList.drop 4 = id.value.toList := by
    intro id
    have hvalid := id.valid
    unfold EntityKind.accepts EntityKind.tag? matchesTag at hvalid
    simp only [Bool.and_eq_true] at hvalid
    obtain ⟨rest, hrest⟩ := isPrefixOf_iff_prefix.mp hvalid.1.1
    have hrest' : "ses-".toList ++ rest = id.value.toList := hrest
    rw [← hrest']
    rfl
  have hvalues := congrArg (fun id : SessionTabId => id.value.toList) h
  simp only [fallbackTabId, String.toList_append, String.toList_ofList,
    append_cancel_left_eq] at hvalues
  obtain ⟨value, hvalid⟩ := first
  obtain ⟨value', hvalid'⟩ := second
  have hlists : value.toList = value'.toList := by
    rw [← htag ⟨value, hvalid⟩, ← htag ⟨value', hvalid'⟩]
    exact congrArg _ hvalues
  cases String.toList_inj.mp hlists
  rfl

/-- The lists that a store is replaced by name each record once, and no tab that
a session needs stands under the id of one that is shown elsewhere. -/
structure Settled (sessions : List AppSession) (tabs : List SessionTab) : Prop where
  sessionIds : (sessions.map AppSession.id).Nodup
  tabIds : (tabs.map SessionTab.id).Nodup
  fallbacks : ∀ session ∈ sessions, tabs.any (SessionTab.shownIn session.id) = false →
    ∀ tab ∈ tabs, tab.id = fallbackTabId session.id → tab.archived = true

def ShowsSame (tabs : List SessionTab) : Prop :=
  ∀ id, (mapOf SessionTab.id tabs).values.filter (SessionTab.shownIn id) =
    tabs.filter (SessionTab.shownIn id)

theorem shownIn_fallback (session : AppSession) (id : SessionId) :
    (fallbackTab session).shownIn id = decide (session.id = id) := by
  unfold SessionTab.shownIn
  exact Bool.and_true _

theorem ShowsSame.concat {tabs : List SessionTab} {session : AppSession} (h : ShowsSame tabs)
    (hhidden : tabs.any (SessionTab.shownIn session.id) = false)
    (harch : ∀ tab ∈ tabs, tab.id = fallbackTabId session.id → tab.archived = true) :
    ShowsSame (tabs ++ [fallbackTab session]) := by
  intro id
  rw [mapOf_concat]
  obtain ⟨before, after, hvalues, hinserted⟩ :=
    values_insert (mapOf SessionTab.id tabs) (fallbackTab session).id (fallbackTab session)
  have hgone : ((mapOf SessionTab.id tabs).get? (fallbackTab session).id).toList.filter
      (SessionTab.shownIn id) = [] := by
    apply filter_eq_nil_iff.mpr
    intro tab htab
    have hget := mem_toList.mp htab
    unfold SessionTab.shownIn
    rw [harch tab (mem_of_mapOf hget) (keyedBy_mapOf _ _ _ _ hget)]
    simp
  have hsame := h id
  rw [hvalues, filter_append, filter_append, hgone, append_nil] at hsame
  rw [hinserted, filter_append, filter_append, filter_append, ← hsame]
  by_cases hid : session.id = id
  · have hnone : tabs.filter (SessionTab.shownIn id) = [] := by
      rw [← hid]
      exact filter_eq_nil_iff.mpr fun tab htab hshown =>
        any_eq_false.mp hhidden tab htab hshown
    rw [hnone] at hsame
    obtain ⟨hbef, hafter⟩ := append_eq_nil_iff.mp hsame
    rw [hbef, hafter]
    simp
  · rw [filter_cons_of_neg (by rw [shownIn_fallback]; simpa using hid)]
    simp

theorem withFallbacks_shows {sessions : List AppSession} {tabs : List SessionTab}
    (hsessions : (sessions.map AppSession.id).Nodup)
    (hfallbacks : ∀ session ∈ sessions, tabs.any (SessionTab.shownIn session.id) = false →
      ∀ tab ∈ tabs, tab.id = fallbackTabId session.id → tab.archived = true)
    (h : ShowsSame tabs) : ShowsSame (withFallbacks sessions tabs) := by
  unfold withFallbacks
  induction sessions generalizing tabs with
  | nil => exact h
  | cons session rest ih =>
    rw [map_cons, nodup_cons] at hsessions
    rw [foldl_cons]
    split
    · exact ih hsessions.2 (fun other hother =>
        hfallbacks other (mem_cons_of_mem session hother)) h
    rename_i hshown
    have hhidden := Bool.eq_false_iff.mpr hshown
    apply ih hsessions.2
    · intro other hother hotherHidden tab htab hid
      rw [any_append, Bool.or_eq_false_iff] at hotherHidden
      rcases mem_append.mp htab with hold | hnew
      · exact hfallbacks other (mem_cons_of_mem session hother) hotherHidden.1 tab hold hid
      · cases mem_singleton.mp hnew
        exact absurd (fallbackTabId_injective hid ▸ mem_map_of_mem hother) hsessions.1
    · exact h.concat hhidden (hfallbacks session mem_cons_self hhidden)

/-! ## Steps -/

section Steps

variable {store : MuxSessionStore}

theorem tabVisible_cleared {tab : SessionTab} (hkeyed : KeyedBy SessionTab.id store.tabsById)
    (hmem : tab ∈ store.tabsById.values) :
    store.clearAuthoritativelyFinishedCloses.tabVisible tab = store.tabVisible tab := by
  unfold tabVisible clearAuthoritativelyFinishedCloses
  cases harch : tab.archived with
  | true => rfl
  | false =>
    have hlive : (store.tabsById.get? tab.id).any (fun tab => !tab.archived) = true := by
      rw [tabAt hkeyed hmem]
      simpa using harch
    simp only [Bool.not_false, Bool.true_and]
    congr 1
    rw [Bool.eq_iff_iff, IndexMap.contains_iff, IndexMap.contains_iff]
    exact exists_congr fun mutationId => get?_retain_eq_some.trans
      (and_iff_left_of_imp fun _ => hlive)

theorem visibleTabs_mapOf (store : MuxSessionStore) {tabs : List SessionTab} (hmap : store.tabsById = mapOf SessionTab.id tabs)
    (hshows : ShowsSame tabs) (id : SessionId) :
    listAt (store.visibleTabs tabs) id = orderBy store.tabPosition
      (store.clearAuthoritativelyFinishedCloses.sessionTabs id) := by
  have hkeyed : KeyedBy SessionTab.id store.tabsById := hmap ▸ keyedBy_mapOf _ _
  have hcleared : (store.tabsById.values.filter fun tab =>
        store.clearAuthoritativelyFinishedCloses.tabVisible tab && tab.sessionId = id) =
      store.tabsById.values.filter fun tab => store.tabVisible tab && tab.sessionId = id := by
    apply filter_congr
    intro tab hmem
    rw [tabVisible_cleared hkeyed hmem]
  have hsplit : ∀ tab, (store.tabVisible tab && decide (tab.sessionId = id)) =
      (!store.pendingTabCloses.contains tab.id && tab.shownIn id) := by
    intro tab
    unfold tabVisible SessionTab.shownIn
    rw [Bool.and_right_comm, Bool.and_comm, Bool.and_comm (!tab.archived)]
  have hlists : (store.tabsById.values.filter fun tab => store.tabVisible tab && tab.sessionId = id) =
      tabs.filter fun tab => store.tabVisible tab && tab.sessionId = id := by
    simp only [hsplit]
    rw [← List.filter_filter, ← List.filter_filter, hmap, hshows id]
  rw [store.listAt_visibleTabs, ← hlists, ← hcleared]
  rfl

theorem replace_agrees {sessions : List AppSession} {tabs : List SessionTab}
    (h : Settled sessions tabs) (store : MuxSessionStore) (terminals : List MuxTerminal) :
    Agrees (store.replace sessions terminals tabs) := by
  apply Agrees.reconcile
  apply agrees_terminals
  · show (orderBy AppSession.position _).map _ = (orderBy AppSession.position
      ((mapOf AppSession.id sessions).values.filter _)).map _
    rw [values_mapOf h.sessionIds]
  · have hshows : ShowsSame (withFallbacks sessions tabs) :=
      withFallbacks_shows h.sessionIds h.fallbacks fun id => by rw [values_mapOf h.tabIds]
    exact visibleTabs_mapOf { store with
      sessionsById := mapOf AppSession.id sessions
      visibleSessionIds := (orderBy AppSession.position
        (sessions.filter fun session => !session.archived)).map AppSession.id
      tabsById := mapOf SessionTab.id (withFallbacks sessions tabs)
      terminalsById := mapOf MuxTerminal.id terminals } rfl hshows

/-- Where an operation edits the lists or builds them from others, no two records
stand in each other's way; and a close is confirmed when it has happened. -/
def Orderly (store : MuxSessionStore) : StoreAction → Prop
  | .replace sessions _ tabs => Settled sessions tabs
  | .replaceSession session terminals tabs =>
    Settled (store.sessionReplacement session terminals tabs).1
      (store.sessionReplacement session terminals tabs).2.2
  | .replaceMuxTerminal terminal => store.terminalIsNewer terminal = false →
      Settled (store.terminalReplacement terminal).1 (store.terminalReplacement terminal).2.2
  | .replaceMuxTerminalIfNewer terminal => store.terminalIsNewer terminal = false →
      Settled (store.terminalReplacement terminal).1 (store.terminalReplacement terminal).2.2
  | .apply event => store.knownRevision event < event.revision →
      (∀ terminal, store.terminalAfter event = some terminal → Unrivalled store terminal) ∧
      ∀ revision id, event = .terminalArchived revision id "" →
        store.pendingTerminalCloses.contains id = false
  | .confirmTerminalClose id mutationId => store.pendingTerminalCloses.get? id = some mutationId →
      ∀ terminal, store.terminalsById.get? id = some terminal → terminal.archived = true
  | .confirmTabClose id mutationId => store.pendingTabCloses.get? id = some mutationId →
      ∀ tab, store.tabsById.get? id = some tab → tab.archived = true
  | _ => True

theorem Agrees.archive (h : Agrees store) (hkeyed : Keyed store) (terminal : MuxTerminal)
    (hrivals : Unrivalled store terminal)
    (hended : terminal.archived = false → store.pendingTerminalCloses.contains terminal.id = false) :
    Agrees (({ store with pendingTerminalCloses :=
      store.pendingTerminalCloses.shiftRemove terminal.id } : MuxSessionStore).upsertTerminal
        terminal) := by
  cases harch : terminal.archived with
  | false =>
    have habsent : store.pendingTerminalCloses.get? terminal.id = none := by
      have hcont := hended harch
      unfold IndexMap.contains at hcont
      exact isNone_iff_eq_none.mp (isSome_eq_false_iff.mp hcont)
    rw [shiftRemove_absent habsent]
    exact h.upsert hkeyed.terminals hrivals
  | true =>
    rw [upsertTerminal_pending harch]
    have hupserted := h.upsert hkeyed.terminals hrivals
    obtain ⟨_, _, hshape⟩ := store.upsertTerminal_shape terminal
    rw [hshape] at hupserted ⊢
    refine Agrees.confirmTerminal hupserted (hkeyed.terminals.insert terminal) ?_
    · intro other hother
      rw [get?_insert, if_pos rfl] at hother
      cases hother
      exact harch

theorem Agrees.apply (h : Agrees store) (hkeyed : Keyed store) {event : MuxEvent}
    (hordl : Orderly store (.apply event)) : Agrees (store.apply event) := by
  by_cases hdropped : store.knownRevision event ≥ event.revision
  · rw [store.apply_dropped hdropped]
    exact h
  obtain ⟨hrivals, hended⟩ := hordl (Nat.lt_of_not_ge hdropped)
  unfold MuxSessionStore.apply
  rw [if_neg hdropped]
  apply Agrees.reconcile
  generalize hraised : ({ store with
    revisions := store.revisions.insert event.key event.revision } : MuxSessionStore) = raised
  have h' : Agrees raised := by
    rw [← hraised]
    exact { h with }
  have hkeyed' : Keyed raised := by
    rw [← hraised]
    exact hkeyed.of_records rfl rfl rfl
  have hrivals' : ∀ terminal, raised.terminalAfter event = some terminal →
      Unrivalled raised terminal := by
    rw [← hraised]
    exact hrivals
  have hended' : ∀ revision id, event = .terminalArchived revision id "" →
      raised.pendingTerminalCloses.contains id = false := by
    rw [← hraised]
    exact hended
  clear hrivals hended hraised
  cases event with
  | session revision record =>
    simp only [applyChange]
    obtain ⟨_, _, hshape⟩ := ({ raised with
      sessionsById := raised.sessionsById.insert record.id record } :
        MuxSessionStore).rebuildVisibleSessions.followSession_shape record
    rw [hshape]
    exact ⟨rfl, h'.tabs, h'.bySession, h'.byTab⟩
  | tab revision record =>
    simp only [applyChange]
    generalize hchanged : ({ raised with
      tabsById := raised.tabsById.insert record.id record
      pendingTabCloses := if record.archived then raised.pendingTabCloses.shiftRemove record.id
        else raised.pendingTabCloses } : MuxSessionStore) = changed
    have hagrees : Agrees changed.rebuildVisibleTabs := by
      rw [← hchanged]
      exact agrees_rebuilt h'.sessions
    obtain ⟨_, hshape⟩ := changed.rebuildVisibleTabs.followTab_shape record.id
    rw [hshape]
    exact { hagrees with }
  | terminal revision muxTerminalId muxTerminal =>
    simp only [applyChange]
    split
    · exact h'
    · rename_i hlive
      exact h'.upsert hkeyed'.terminals (hrivals' muxTerminal (if_neg hlive))
  | outputChanged revision muxTerminalId occurredAt output =>
    simp only [applyChange]
    cases hold : raised.terminalsById.get? muxTerminalId with
    | none => exact h'
    | some terminal =>
      apply h'.upsert hkeyed'.terminals
      apply hrivals'
      unfold terminalAfter
      simp only [hold]
      rfl
  | terminalArchived revision muxTerminalId occurredAt =>
    simp only [applyChange]
    cases hold : raised.terminalsById.get? muxTerminalId with
    | none => exact h'
    | some terminal =>
      have hid : terminal.id = muxTerminalId := hkeyed'.terminals _ _ hold
      subst hid
      refine h'.archive hkeyed' { terminal with
        archivedAt := some occurredAt, revision := revision, updatedAt := occurredAt }
        (hrivals' _ ?_) ?_
      · unfold terminalAfter
        simp only [hold]
        rfl
      · intro hlive
        have hempty : occurredAt = "" := by
          have htruthy : truthy (some occurredAt) = false := hlive
          simpa [truthy] using htruthy
        exact hended' revision terminal.id (hempty ▸ rfl)

theorem Agrees.replaceMuxTerminal (h : Agrees store) {terminal : MuxTerminal}
    (hordl : Orderly store (.replaceMuxTerminal terminal)) :
    Agrees (store.replaceMuxTerminal terminal) := by
  unfold MuxSessionStore.replaceMuxTerminal
  split
  · exact h
  · rename_i hnewer
    exact replace_agrees (hordl (Bool.eq_false_iff.mpr hnewer)) store _

theorem Agrees.step (h : Agrees store) (hkeyed : Keyed store) {action : StoreAction}
    (hordl : Orderly store action) : Agrees (action.run store) := by
  cases action with
  | replace sessions terminals tabs => exact replace_agrees hordl store terminals
  | mergeSnapshot sessions terminals tabs hasTabs baseline =>
    apply Agrees.reconcile
    exact agrees_rebuilt rfl
  | replaceSession session terminals tabs => exact replace_agrees hordl store _
  | replaceTab tab =>
    show Agrees (store.replaceTab tab)
    unfold replaceTab
    split
    · exact h
    · apply Agrees.reconcile
      exact agrees_rebuilt h.sessions
  | replaceMuxTerminal terminal => exact h.replaceMuxTerminal hordl
  | replaceMuxTerminalIfNewer terminal =>
    exact iteInduction (fun _ => h) fun _ => h.replaceMuxTerminal hordl
  | apply event => exact h.apply hkeyed hordl
  | stageTerminalClose id =>
    exact iteInduction (fun _ => h) fun _ => .reconcile (agrees_terminals h.sessions h.tabs)
  | stageTabClose id =>
    exact iteInduction (fun _ => h) fun _ => .reconcile (agrees_rebuilt h.sessions)
  | clearPendingCloses =>
    exact iteInduction (fun _ => h) fun _ => .reconcile (agrees_rebuilt h.sessions)
  | confirmTerminalClose id mutationId =>
    exact iteInduction (fun hpend => h.confirmTerminal hkeyed.terminals (hordl hpend)) fun _ => h
  | confirmTabClose id mutationId =>
    exact iteInduction (fun hpend => h.confirmTab hkeyed.tabs (hordl hpend)) fun _ => h
  | rollbackTerminalClose id mutationId | rollbackTabClose id mutationId =>
    exact iteInduction (fun _ => .reconcile (agrees_rebuilt h.sessions)) fun _ => h
  | selectSession id =>
    show Agrees (store.selectSession id)
    unfold selectSession
    split
    · exact h
    split
    · exact h
    · exact { h with }
  | selectTab id =>
    show Agrees (store.selectTab id)
    unfold selectTab
    split
    · exact h
    · exact { h with }
  | selectMuxTerminal id =>
    show Agrees (store.selectMuxTerminal id)
    unfold selectMuxTerminal
    split
    · exact h
    · exact { h with }

theorem empty_agrees : Agrees .empty := ⟨rfl, fun _ => rfl, fun _ => rfl, fun _ => rfl⟩

theorem agrees_run (hrun : storeSystem.Run Orderly store) : Agrees store := by
  have h : Keyed store ∧ Agrees store := by
    refine @System.Run.invariant _ _ storeSystem Orderly (fun store => Keyed store ∧ Agrees store)
      ?_ ?_ store hrun
    · rintro _ rfl
      exact ⟨⟨keyedBy_empty, keyedBy_empty, keyedBy_empty⟩, empty_agrees⟩
    · rintro s action s' ⟨hkeyed, hagrees⟩ hordl hstep
      cases hstep
      exact ⟨hkeyed.step action, hagrees.step hkeyed hordl⟩
  exact h.2

/-- In such a run the lists are those of a full rebuild. -/
theorem incremental_rebuilt (hrun : storeSystem.Run Orderly store) : Indexed store :=
  agrees_indexed (agrees_run hrun)

/-! ## Runs -/

theorem shown_accepted : EntityKind.session.accepts "ses-a" = true := by decide
theorem first_accepted : EntityKind.terminal.accepts "term-a" = true := by decide

def shownSession : AppSession :=
  ⟨⟨"ses-a", shown_accepted⟩, "A", 0, none, none, some 1, "2026-01-01", "2026-01-01", none⟩

def firstId : MuxTerminalId := ⟨"term-a", first_accepted⟩
def secondId : MuxTerminalId := ⟨"term-b", by decide⟩

def shownTerminal (id : MuxTerminalId) (position : Int) (revision : Nat) : MuxTerminal :=
  ⟨id, shownSession.id, none, "shell", "Terminal", position, "running", "null", 0, "null", none,
    revision, "2026-01-01", "2026-01-01", none, none, none⟩

def twoTerminals : StoreAction :=
  .replace [shownSession] [shownTerminal firstId 0 1, shownTerminal secondId 1 1] []

def moved (position : Int) : StoreAction :=
  .apply (.terminal 2 firstId (shownTerminal firstId position 2))

theorem twoTerminals_orderly : Orderly .empty twoTerminals :=
  ⟨by decide, nodup_nil, fun _ _ _ tab hmem => by cases hmem⟩

theorem incremental_rebuilt_sample : ∃ store, storeSystem.Run Orderly store ∧
    listAt store.terminalIdsByTab (fallbackTabId shownSession.id) = [secondId, firstId] ∧
      Indexed store := by
  have hrun : storeSystem.Run Orderly ((moved 2).run (twoTerminals.run .empty)) := by
    refine .next (.next (.start rfl) twoTerminals_orderly rfl) ?_ rfl
    refine fun _ => ⟨fun terminal hafter => ?_, fun _ _ h => by cases h⟩
    have hterm : terminal = shownTerminal firstId 2 2 :=
      Option.some.inj (hafter.symm.trans (by decide))
    rw [hterm]
    intro _ _
    decide
  exact ⟨_, hrun, by decide, incremental_rebuilt hrun⟩

/-- A terminal that moves to the position of the next one is put behind it. -/
theorem moved_behind : ∃ store, storeSystem.Reachable store ∧ ¬ Indexed store := by
  refine ⟨(moved 1).run (twoTerminals.run .empty),
    .next (.next (.start rfl) trivial rfl) trivial rfl, fun hindexed => ?_⟩
  have hlists := hindexed.byTab (fallbackTabId shownSession.id)
  revert hlists
  decide

end Steps

end Yaade.Mux.Client

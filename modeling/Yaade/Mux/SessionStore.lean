import Yaade.Library.IndexMap

/-!
The client's store of sessions, tabs and terminals.
-/

namespace Yaade.Mux

open Yaade.Library List Option IndexMap

inductive StoreKind where
  | session
  | tab
  | muxTerminal
  deriving DecidableEq

structure EntityKey where
  kind : StoreKind
  id : String
  deriving DecidableEq

/-- A session, a tab or a terminal. A missing revision counts as 0; a session
belongs to itself. -/
structure Item where
  key : EntityKey
  sessionId : String
  revision : Nat
  updatedAt : String
  archivedAt : Option String
  deriving DecidableEq

abbrev ItemMap := IndexMap EntityKey Item

def ofItems (items : List Item) : ItemMap :=
  items.foldl (fun map item => map.insert item.key item) .empty

structure MuxSessionStore where
  items : ItemMap
  revisions : IndexMap EntityKey Nat

def fallbackKey (sessionId : String) : EntityKey :=
  ⟨.tab, "tab-" ++ String.ofList (sessionId.toList.drop 4)⟩

def fallbackTab (session : Item) : Item :=
  ⟨fallbackKey session.key.id, session.key.id, 0, session.updatedAt, none⟩

def Item.visibleTabOf (sessionId : String) (item : Item) : Bool :=
  item.key.kind = .tab && item.sessionId = sessionId && item.archivedAt.isNone

def addFallbacks : List Item → ItemMap → ItemMap
  | [], items => items
  | session :: rest, items =>
    addFallbacks rest (if items.values.any (Item.visibleTabOf session.key.id) then items
      else items.insert (fallbackTab session).key (fallbackTab session))

def sessionsOf (items : ItemMap) : List Item := items.values.filter fun item => item.key.kind = .session

def raiseRevisions (revisions : IndexMap EntityKey Nat) :
    List (EntityKey × Nat) → IndexMap EntityKey Nat
  | [] => revisions
  | (key, revision) :: rest =>
    raiseRevisions (revisions.insert key (max ((revisions.get? key).getD 0) revision)) rest

def newer (items : ItemMap) (incoming : Item) : Item :=
  match items.get? incoming.key with
  | some current => if current.revision > incoming.revision then current else incoming
  | none => incoming

inductive EventChange where
  | put (item : Item)
  | output (occurredAt : String)
  | archived (occurredAt : String)
  deriving DecidableEq

structure StoreEvent where
  key : EntityKey
  revision : Nat
  change : EventChange
  deriving DecidableEq

namespace MuxSessionStore

variable (store : MuxSessionStore)

def empty : MuxSessionStore := ⟨.empty, .empty⟩

def captureRevisions : IndexMap EntityKey Nat :=
  store.items.values.foldl (fun map item => map.insert item.key item.revision) .empty

def mergeSnapshot (incoming : List Item) (hasTabs : Bool) (baseline : IndexMap EntityKey Nat) :
    MuxSessionStore :=
  let incomingItems := ofItems incoming
  let kept := store.items.values.filter fun current => !incomingItems.contains current.key &&
    (current.key.kind = .tab && !hasTabs || current.revision > (baseline.get? current.key).getD 0)
  let merged := ofItems (incomingItems.values.map (newer store.items) ++ kept)
  let next := addFallbacks (sessionsOf merged) merged
  ⟨next, raiseRevisions store.revisions
    (next.values.map (fun item => (item.key, item.revision)) ++ baseline.entries)⟩

def replace (items : List Item) : MuxSessionStore :=
  let next := ofItems items
  ⟨addFallbacks (sessionsOf next) next,
    raiseRevisions store.revisions (items.map fun item => (item.key, item.revision))⟩

/-- Of the session's items those stay that the reply brings, those archived,
and, where the reply is without tabs, the tabs. -/
def replaceSession (session : Item) (terminals : List Item) (tabs : Option (List Item)) :
    MuxSessionStore :=
  let incoming := session :: (terminals ++ tabs.getD [])
  let others := store.items.values.filter fun current => current.sessionId ≠ session.key.id
  let kept := store.items.values.filter fun current =>
    current.sessionId = session.key.id && current.key.kind ≠ .session &&
      !(incoming.map Item.key).contains current.key &&
      (current.archivedAt.isSome || current.key.kind = .tab && tabs.isNone)
  store.replace (others ++ incoming.map (newer store.items) ++ kept)

def isNewer (current : Option Item) (item : Item) : Bool :=
  match current with
  | some current => current.revision > item.revision ||
      current.revision = item.revision && current.updatedAt > item.updatedAt
  | none => false

def replaceTab (tab : Item) : MuxSessionStore :=
  if isNewer (store.items.get? tab.key) tab then store
  else { store with items := store.items.insert tab.key tab }

def replaceMuxTerminal (terminal : Item) : MuxSessionStore :=
  if isNewer (store.items.get? terminal.key) terminal then store
  else store.replace
    ((store.items.values.filter fun candidate => candidate.key ≠ terminal.key) ++ [terminal])

def replaceMuxTerminalIfNewer (terminal : Item) : MuxSessionStore :=
  if (store.items.get? terminal.key).any fun current => current.revision > terminal.revision then
    store
  else store.replaceMuxTerminal terminal

def knownRevision (key : EntityKey) : Nat :=
  max ((store.revisions.get? key).getD 0) (((store.items.get? key).map Item.revision).getD 0)

/-- An archived terminal is not brought back; an output or an archival of an
unknown terminal only raises its revision. -/
def applyChange (event : StoreEvent) : ItemMap :=
  match event.change with
  | .put item =>
    if event.key.kind = .muxTerminal &&
        ((store.items.get? event.key).bind Item.archivedAt).isSome && item.archivedAt.isNone then
      store.items
    else store.items.insert event.key item
  | .output occurredAt => store.items.modify event.key fun terminal =>
    { terminal with revision := event.revision, updatedAt := occurredAt }
  | .archived occurredAt => store.items.modify event.key fun terminal =>
    { terminal with
      archivedAt := some occurredAt, revision := event.revision, updatedAt := occurredAt }

def apply (event : StoreEvent) : MuxSessionStore :=
  if store.knownRevision event.key ≥ event.revision then store
  else ⟨store.applyChange event, store.revisions.insert event.key event.revision⟩

end MuxSessionStore

/-! ## Maps of items -/

variable {item : Item} {key : EntityKey}

section Items

variable {items : ItemMap} {list : List Item}

def insertItems (list : List Item) (items : ItemMap) : ItemMap :=
  list.foldl (fun map item => map.insert item.key item) items

theorem insertItems_absent (h : key ∉ list.map Item.key) :
    (insertItems list items).get? key = items.get? key := by
  induction list generalizing items with
  | nil => rfl
  | cons first rest ih =>
    simp only [map_cons, mem_cons, not_or] at h
    rw [insertItems, foldl_cons, ← insertItems, ih h.2, get?_insert, if_neg h.1]

theorem insertItems_from (h : (insertItems list items).get? key = some item) :
    item ∈ list ∧ item.key = key ∨ items.get? key = some item := by
  induction list generalizing items with
  | nil => exact .inr h
  | cons first rest ih =>
    rw [insertItems, foldl_cons, ← insertItems] at h
    rcases ih h with ⟨hmem, hkey⟩ | hold
    · exact .inl ⟨mem_cons_of_mem first hmem, hkey⟩
    rw [get?_insert] at hold
    split at hold
    · rename_i hkey
      cases hold
      exact .inl ⟨mem_cons_self, hkey.symm⟩
    · exact .inr hold

theorem insertItems_to (h : item ∈ list) :
    ∃ other ∈ list, other.key = item.key ∧ (insertItems list items).get? item.key = some other := by
  induction list generalizing items item with
  | nil => cases h
  | cons first rest ih =>
    rw [insertItems, foldl_cons, ← insertItems]
    by_cases hlater : item.key ∈ rest.map Item.key
    · obtain ⟨later, hlater', hkey⟩ := List.mem_map.mp hlater
      obtain ⟨other, hother, hsame, hget⟩ : ∃ other ∈ rest, other.key = later.key ∧
          (insertItems rest (items.insert first.key first)).get? later.key = some other :=
        ih hlater'
      exact ⟨other, mem_cons_of_mem first hother, hsame.trans hkey, hkey ▸ hget⟩
    · rcases mem_cons.mp h with rfl | hrest
      · refine ⟨item, mem_cons_self, rfl, ?_⟩
        rw [insertItems_absent hlater, get?_insert, if_pos rfl]
      · exact absurd (mem_map_of_mem hrest) hlater

theorem ofItems_from (h : (ofItems list).get? key = some item) : item ∈ list ∧ item.key = key := by
  rcases insertItems_from h with hmem | hempty
  · exact hmem
  · cases hempty

theorem ofItems_to (h : item ∈ list) :
    ∃ other ∈ list, other.key = item.key ∧ (ofItems list).get? item.key = some other :=
  insertItems_to h

theorem ofItems_keeps {revision : Nat} (hsome : ∃ other ∈ list, other.key = key)
    (hall : ∀ other ∈ list, other.key = key → revision ≤ other.revision) :
    ∃ other ∈ list, other.key = key ∧ (ofItems list).get? key = some other ∧
      revision ≤ other.revision := by
  obtain ⟨first, hfirst, rfl⟩ := hsome
  obtain ⟨other, hother, hkey, hget⟩ := ofItems_to hfirst
  exact ⟨other, hother, hkey, hget, hall other hother hkey⟩

theorem addFallbacks_keeps (sessions : List Item) (hget : items.get? key = some item)
    (hfallback : ∀ session ∈ sessions, fallbackKey session.key.id = key →
      item.visibleTabOf session.key.id = true) :
    (addFallbacks sessions items).get? key = some item := by
  induction sessions generalizing items with
  | nil => exact hget
  | cons session rest ih =>
    rw [addFallbacks]
    apply ih _ fun other hother => hfallback other (mem_cons_of_mem session hother)
    split
    · exact hget
    rename_i hnone
    rw [get?_insert, if_neg]
    · exact hget
    · intro hkey
      apply hnone
      exact List.any_eq_true.mpr ⟨item, mem_values.mpr ⟨key, hget⟩,
        hfallback session mem_cons_self hkey.symm⟩

theorem addFallbacks_from (sessions : List Item)
    (hget : (addFallbacks sessions items).get? key = some item) :
    items.get? key = some item ∨ ∃ session ∈ sessions, item = fallbackTab session ∧ item.key = key := by
  induction sessions generalizing items with
  | nil => exact .inl hget
  | cons session rest ih =>
    rw [addFallbacks] at hget
    rcases ih hget with hold | ⟨other, hother, hitem⟩
    · split at hold
      · exact .inl hold
      rw [get?_insert] at hold
      split at hold
      · rename_i hkey
        cases hold
        exact .inr ⟨session, mem_cons_self, rfl, hkey.symm⟩
      · exact .inl hold
    · exact .inr ⟨other, mem_cons_of_mem session hother, hitem⟩

/-- Of the items known, those as new as the revision are visible tabs of every
session whose fallback they could be. -/
def Shown (Known : Item → Prop) (key : EntityKey) (revision : Nat) : Prop :=
  ∀ other owner, Known other → Known owner → owner.key.kind = .session →
    other.key = key → fallbackKey owner.key.id = key → revision ≤ other.revision →
      other.visibleTabOf owner.key.id = true

theorem mem_sessionsOf {owner : Item} (h : owner ∈ sessionsOf (ofItems list)) :
    owner ∈ list ∧ owner.key.kind = .session := by
  obtain ⟨hmem, hkind⟩ := mem_filter.mp h
  obtain ⟨ownerKey, hget⟩ := mem_values.mp hmem
  exact ⟨(ofItems_from hget).1, of_decide_eq_true hkind⟩

theorem fallbacks_keep {Known : Item → Prop} {revision : Nat} (hknown : ∀ other ∈ list, Known other)
    (hshown : Shown Known key revision) (hsome : ∃ other ∈ list, other.key = key)
    (hall : ∀ other ∈ list, other.key = key → revision ≤ other.revision) :
    ∃ other, (addFallbacks (sessionsOf (ofItems list)) (ofItems list)).get? key = some other ∧
      revision ≤ other.revision := by
  obtain ⟨other, hother, hkey, hget, hrev⟩ := ofItems_keeps hsome hall
  refine ⟨other, addFallbacks_keeps _ hget fun owner howner hfallback => ?_, hrev⟩
  obtain ⟨hmem, hkind⟩ := mem_sessionsOf howner
  exact hshown other owner (hknown other hother) (hknown owner hmem) hkind hkey hfallback hrev

theorem fallbacks_known {Known : Item → Prop} (hknown : ∀ other ∈ list, Known other)
    (hfallback : ∀ owner, Known owner → owner.key.kind = .session → Known (fallbackTab owner))
    (hget : (addFallbacks (sessionsOf (ofItems list)) (ofItems list)).get? key = some item) :
    item.key = key ∧ Known item := by
  rcases addFallbacks_from _ hget with hold | ⟨owner, howner, rfl, hkey⟩
  · obtain ⟨hmem, hkey⟩ := ofItems_from hold
    exact ⟨hkey, hknown item hmem⟩
  · obtain ⟨hmem, hkind⟩ := mem_sessionsOf howner
    exact ⟨hkey, hfallback owner (hknown owner hmem) hkind⟩

theorem newer_spec (items : ItemMap) (incoming : Item) :
    incoming.revision ≤ (newer items incoming).revision ∧
      (newer items incoming = incoming ∨
        items.get? incoming.key = some (newer items incoming)) := by
  unfold newer
  split
  · rename_i current hcur
    split
    · rename_i hnewer
      exact ⟨Nat.le_of_lt hnewer, .inr hcur⟩
    · exact ⟨le_rfl, .inl rfl⟩
  · exact ⟨le_rfl, .inl rfl⟩

theorem newer_current {current : Item} (h : items.get? item.key = some current) :
    current.revision ≤ (newer items item).revision := by
  unfold newer
  rw [h]
  simp only
  split
  · exact le_rfl
  · omega

theorem newer_known {Known : Item → Prop} (hitems : ∀ other ∈ items.values, Known other)
    (hitem : Known item) : Known (newer items item) := by
  rcases (newer_spec items item).2 with hsame | hcur
  · rw [hsame]
    exact hitem
  · exact hitems _ (mem_values.mpr ⟨_, hcur⟩)

end Items

/-! ## What the operations keep -/

namespace MuxSessionStore

variable {store : MuxSessionStore}

def Keyed (store : MuxSessionStore) : Prop :=
  ∀ key item, store.items.get? key = some item → item.key = key

def Has (store : MuxSessionStore) (key : EntityKey) (revision : Nat) : Prop :=
  ∃ item, store.items.get? key = some item ∧ revision ≤ item.revision

theorem Keyed.value (h : store.Keyed) {other : Item} (hget : store.items.get? key = some item)
    (hmem : other ∈ store.items.values) (hkey : other.key = key) : other = item := by
  obtain ⟨at_, hother⟩ := mem_values.mp hmem
  have hsame := h at_ other hother
  rw [← hsame, hkey, hget] at hother
  exact (Option.some.inj hother).symm

theorem newer_key (h : store.Keyed) (incoming : Item) :
    (newer store.items incoming).key = incoming.key := by
  rcases (newer_spec store.items incoming).2 with hsame | hcur
  · rw [hsame]
  · exact h _ _ hcur

variable {incoming : List Item}

theorem merge_list_known {Known : Item → Prop} (keep : Item → Bool)
    (hstore : ∀ other ∈ store.items.values, Known other) (hincoming : ∀ other ∈ incoming, Known other) :
    ∀ other ∈ (ofItems incoming).values.map (newer store.items) ++ store.items.values.filter keep,
      Known other := by
  intro other hmem
  rcases mem_append.mp hmem with hmerged | hold
  · obtain ⟨first, hfirst, rfl⟩ := List.mem_map.mp hmerged
    obtain ⟨firstKey, hat⟩ := mem_values.mp hfirst
    exact newer_known hstore (hincoming first (ofItems_from hat).1)
  · exact hstore other (mem_filter.mp hold).1

/-- An item that the merge keeps: the snapshot brings it, or it has changed since
the baseline, or it is a tab and the snapshot is without tabs. -/
theorem merge_keeps {Known : Item → Prop} (h : store.Keyed)
    (hstore : ∀ other ∈ store.items.values, Known other) (hget : store.items.get? key = some item)
    {hasTabs : Bool} {baseline : IndexMap EntityKey Nat}
    (hincoming : ∀ other ∈ incoming, Known other)
    (hkept : key ∈ incoming.map Item.key ∨ (baseline.get? key).getD 0 < item.revision ∨
      key.kind = .tab ∧ hasTabs = false)
    (hshown : Shown Known key item.revision) :
    (store.mergeSnapshot incoming hasTabs baseline).Has key item.revision := by
  have hitemKey := h key item hget
  have hcur : item ∈ store.items.values := mem_values.mpr ⟨key, hget⟩
  apply fallbacks_keep (merge_list_known _ hstore hincoming) hshown
  · by_cases hcont : (ofItems incoming).contains key = true
    · obtain ⟨first, hfirst⟩ := isSome_iff_exists.mp hcont
      obtain ⟨-, hkey⟩ := ofItems_from hfirst
      have hnewer := newer_spec store.items first
      refine ⟨newer store.items first, mem_append_left _ (mem_map_of_mem
        (mem_values.mpr ⟨key, hfirst⟩)), ?_⟩
      rcases hnewer.2 with hsame | hold
      · rw [hsame, hkey]
      · exact (h _ _ hold).trans hkey
    · have hmissing : key ∉ incoming.map Item.key := by
        intro hmem
        obtain ⟨first, hfirst, hkey⟩ := List.mem_map.mp hmem
        obtain ⟨other, -, -, hother⟩ := ofItems_to hfirst
        rw [hkey] at hother
        apply hcont
        rw [IndexMap.contains, hother]
        rfl
      have hbaseline := hkept.resolve_left hmissing
      refine ⟨item, mem_append_right _ (mem_filter.mpr ⟨hcur, ?_⟩), hitemKey⟩
      rw [hitemKey]
      simp only [Bool.not_eq_true] at hcont
      rcases hbaseline with hnewer | ⟨htab, hnone⟩
      · simp [hcont, hnewer]
      · simp [hcont, htab, hnone]
  · intro other hmem hkey
    rcases mem_append.mp hmem with hmerged | hold
    · obtain ⟨first, -, rfl⟩ := List.mem_map.mp hmerged
      have hfirstKey : first.key = key := (newer_key h first).symm.trans hkey
      exact newer_current (hfirstKey ▸ hget)
    · exact Nat.le_of_eq (congrArg Item.revision (h.value hget (mem_filter.mp hold).1 hkey).symm)

theorem replaceSession_list_known {Known : Item → Prop}
    (isOther keep : Item → Bool) (hstore : ∀ other ∈ store.items.values, Known other)
    (hincoming : ∀ other ∈ incoming, Known other) :
    ∀ other ∈ store.items.values.filter isOther ++ incoming.map (newer store.items) ++
      store.items.values.filter keep, Known other := by
  intro other hmem
  rcases mem_append.mp hmem with hfirst | hlast
  · rcases mem_append.mp hfirst with hother | hbrought
    · exact hstore other (mem_filter.mp hother).1
    · obtain ⟨first, hlisted, rfl⟩ := List.mem_map.mp hbrought
      exact newer_known hstore (hincoming first hlisted)
  · exact hstore other (mem_filter.mp hlast).1

theorem replaceSession_keeps {Known : Item → Prop} (h : store.Keyed)
    (hstore : ∀ other ∈ store.items.values, Known other) (hget : store.items.get? key = some item)
    {session : Item} {terminals : List Item} {tabs : Option (List Item)}
    (hincoming : ∀ other ∈ session :: (terminals ++ tabs.getD []), Known other)
    (hkept : item.sessionId ≠ session.key.id ∨
      key ∈ (session :: (terminals ++ tabs.getD [])).map Item.key ∨
      key.kind ≠ .session ∧ (item.archivedAt.isSome = true ∨ key.kind = .tab ∧ tabs = none))
    (hshown : Shown Known key item.revision) :
    (store.replaceSession session terminals tabs).Has key item.revision := by
  have hitemKey := h key item hget
  have hcur : item ∈ store.items.values := mem_values.mpr ⟨key, hget⟩
  apply fallbacks_keep (replaceSession_list_known _ _ hstore hincoming) hshown
  · by_cases hsess : item.sessionId ≠ session.key.id
    · exact ⟨item, mem_append_left _ (mem_append_left _
        (mem_filter.mpr ⟨hcur, decide_eq_true hsess⟩)), hitemKey⟩
    by_cases hlisted : key ∈ (session :: (terminals ++ tabs.getD [])).map Item.key
    · obtain ⟨first, hfirst, hkey⟩ := List.mem_map.mp hlisted
      exact ⟨newer store.items first, mem_append_left _ (mem_append_right _
        (mem_map_of_mem hfirst)), (newer_key h first).trans hkey⟩
    obtain ⟨hkind, harch⟩ := (hkept.resolve_left hsess).resolve_left hlisted
    refine ⟨item, mem_append_right _ (mem_filter.mpr ⟨hcur, ?_⟩), hitemKey⟩
    have hout : ((session :: (terminals ++ tabs.getD [])).map Item.key).contains key = false := by
      rw [← Bool.not_eq_true, contains_iff_mem]
      exact hlisted
    rw [hitemKey, hout, not_not.mp hsess]
    rcases harch with hsome | ⟨htab, hnone⟩
    · simp [hkind, hsome]
    · simp [htab, hnone]
  · intro other hmem hkey
    have hown : other ∈ store.items.values → item.revision ≤ other.revision := by
      intro hvalue
      rw [h.value hget hvalue hkey]
    rcases mem_append.mp hmem with hfirst | hlast
    · rcases mem_append.mp hfirst with hother | hbrought
      · exact hown (mem_filter.mp hother).1
      obtain ⟨first, -, rfl⟩ := List.mem_map.mp hbrought
      have hfirstKey : first.key = key := (newer_key h first).symm.trans hkey
      exact newer_current (hfirstKey ▸ hget)
    · exact hown (mem_filter.mp hlast).1

theorem not_isNewer {current : Item} (h : isNewer (some current) item = false) :
    current.revision ≤ item.revision := by
  simp only [isNewer, Bool.or_eq_false_iff, decide_eq_false_iff_not] at h
  omega

theorem replaceMuxTerminal_list_known {Known : Item → Prop} (keep : Item → Bool) {terminal : Item}
    (hstore : ∀ other ∈ store.items.values, Known other) (hterm : Known terminal) :
    ∀ other ∈ store.items.values.filter keep ++ [terminal], Known other := by
  intro other hmem
  rcases mem_append.mp hmem with hold | hnew
  · exact hstore other (mem_filter.mp hold).1
  · rw [mem_singleton.mp hnew]
    exact hterm

theorem replaceMuxTerminal_keeps {Known : Item → Prop} (h : store.Keyed)
    (hstore : ∀ other ∈ store.items.values, Known other)
    (hget : store.items.get? key = some item) {terminal : Item} (hterm : Known terminal)
    (hshown : Shown Known key item.revision) :
    (store.replaceMuxTerminal terminal).Has key item.revision := by
  have hitemKey := h key item hget
  unfold replaceMuxTerminal
  split
  · exact ⟨item, hget, le_rfl⟩
  rename_i holder
  apply fallbacks_keep (replaceMuxTerminal_list_known _ hstore hterm) hshown
  · by_cases hkey : terminal.key = key
    · exact ⟨terminal, mem_concat_self, hkey⟩
    refine ⟨item, mem_append_left _ (mem_filter.mpr ⟨mem_values.mpr ⟨key, hget⟩, ?_⟩), hitemKey⟩
    rw [hitemKey]
    exact decide_eq_true (Ne.symm hkey)
  · intro other hmem hkey
    rcases mem_append.mp hmem with hold | hnew
    · rw [h.value hget (mem_filter.mp hold).1 hkey]
    rw [mem_singleton.mp hnew] at hkey ⊢
    rw [hkey, hget, Bool.not_eq_true] at holder
    exact not_isNewer holder

theorem replaceTab_keeps (hget : store.items.get? key = some item) (tab : Item) :
    (store.replaceTab tab).Has key item.revision := by
  unfold replaceTab
  split
  · exact ⟨item, hget, le_rfl⟩
  rename_i holder
  by_cases hkey : key = tab.key
  · refine ⟨tab, ?_, ?_⟩
    · rw [get?_insert, if_pos hkey]
    · rw [← hkey, hget, Bool.not_eq_true] at holder
      exact not_isNewer holder
  · refine ⟨item, ?_, le_rfl⟩
    rw [get?_insert, if_neg hkey]
    exact hget

/-- An event keeps every entity, and leaves its own no older. -/
theorem apply_keeps (hget : store.items.get? key = some item) {event : StoreEvent}
    (hput : ∀ other, event.change = .put other → other.revision = event.revision) :
    (store.apply event).Has key item.revision := by
  unfold apply
  split
  · exact ⟨item, hget, le_rfl⟩
  rename_i hnew
  by_cases hkey : key = event.key
  · have hle : item.revision ≤ event.revision := by
      unfold knownRevision at hnew
      rw [← hkey, hget] at hnew
      simp only [map_some, getD_some] at hnew
      omega
    unfold applyChange
    cases hchange : event.change with
    | put other =>
      simp only
      split
      · exact ⟨item, hget, le_rfl⟩
      refine ⟨other, ?_, ?_⟩
      · simp only
        rw [get?_insert, if_pos hkey]
      · rw [hput other hchange]
        exact hle
    | output occurredAt =>
      refine ⟨{ item with revision := event.revision, updatedAt := occurredAt }, ?_, hle⟩
      simp only
      rw [get?_modify, if_pos hkey, hget]
      rfl
    | archived occurredAt =>
      refine ⟨{ item with
        archivedAt := some occurredAt, revision := event.revision, updatedAt := occurredAt },
        ?_, hle⟩
      simp only
      rw [get?_modify, if_pos hkey, hget]
      rfl
  · refine ⟨item, ?_, le_rfl⟩
    unfold applyChange
    simp only
    split
    · split
      · exact hget
      · rw [get?_insert, if_neg hkey]
        exact hget
    · rw [get?_modify, if_neg hkey]
      exact hget
    · rw [get?_modify, if_neg hkey]
      exact hget

/-! ## Where items come from -/

section Known

variable {Known : Item → Prop} (hstore : ∀ other ∈ store.items.values, Known other)
  (hfallback : ∀ owner, Known owner → owner.key.kind = .session → Known (fallbackTab owner))

include hstore hfallback

theorem merge_known {incoming : List Item} {hasTabs : Bool} {baseline : IndexMap EntityKey Nat}
    (hincoming : ∀ other ∈ incoming, Known other)
    (hget : (store.mergeSnapshot incoming hasTabs baseline).items.get? key = some item) :
    item.key = key ∧ Known item :=
  fallbacks_known (merge_list_known _ hstore hincoming) hfallback hget

theorem replaceSession_known {session : Item} {terminals : List Item} {tabs : Option (List Item)}
    (hincoming : ∀ other ∈ session :: (terminals ++ tabs.getD []), Known other)
    (hget : (store.replaceSession session terminals tabs).items.get? key = some item) :
    item.key = key ∧ Known item :=
  fallbacks_known (replaceSession_list_known _ _ hstore hincoming) hfallback hget

theorem replaceMuxTerminal_known {terminal : Item} (h : store.Keyed) (hterm : Known terminal)
    (hget : (store.replaceMuxTerminal terminal).items.get? key = some item) :
    item.key = key ∧ Known item := by
  unfold replaceMuxTerminal at hget
  split at hget
  · exact ⟨h key item hget, hstore item (mem_values.mpr ⟨key, hget⟩)⟩
  · exact fallbacks_known (replaceMuxTerminal_list_known _ hstore hterm) hfallback hget

omit hfallback in
theorem replaceTab_known {tab : Item} (h : store.Keyed) (htab : Known tab)
    (hget : (store.replaceTab tab).items.get? key = some item) : item.key = key ∧ Known item := by
  unfold replaceTab at hget
  split at hget
  · exact ⟨h key item hget, hstore item (mem_values.mpr ⟨key, hget⟩)⟩
  rw [get?_insert] at hget
  split at hget
  · rename_i hkey
    cases hget
    exact ⟨hkey.symm, htab⟩
  · exact ⟨h key item hget, hstore item (mem_values.mpr ⟨key, hget⟩)⟩

end Known

theorem apply_from {event : StoreEvent} (hget : (store.apply event).items.get? key = some item) :
    store.items.get? key = some item ∨ key = event.key ∧ (event.change = .put item ∨
      (∀ other, event.change ≠ .put other) ∧ ∃ old, store.items.get? key = some old ∧
        item.key = old.key ∧ item.sessionId = old.sessionId ∧ item.revision = event.revision) := by
  unfold apply at hget
  split at hget
  · exact .inl hget
  unfold applyChange at hget
  cases hchange : event.change with
  | put other =>
    simp only [hchange] at hget
    split at hget
    · exact .inl hget
    rw [get?_insert] at hget
    split at hget
    · rename_i hkey
      cases hget
      exact .inr ⟨hkey, .inl rfl⟩
    · exact .inl hget
  | output | archived =>
    simp only [hchange, get?_modify] at hget
    split at hget
    · rename_i hkey
      obtain ⟨old, hold, rfl⟩ := map_eq_some_iff.mp hget
      exact .inr ⟨hkey, .inr ⟨(fun _ hput => by cases hput), old, hold, rfl, rfl, rfl⟩⟩
    · exact .inl hget

theorem captureRevisions_from (h : store.Keyed) {revision : Nat}
    (hget : store.captureRevisions.get? key = some revision) :
    ∃ item, store.items.get? key = some item ∧ item.revision = revision := by
  have hfold : ∀ (list : List Item) (map : IndexMap EntityKey Nat),
      (list.foldl (fun map item => map.insert item.key item.revision) map).get? key = some revision →
        (∃ item ∈ list, item.key = key ∧ item.revision = revision) ∨
          map.get? key = some revision := by
    intro list
    induction list with
    | nil => exact fun _ hget => .inr hget
    | cons first rest ih =>
      intro map hget
      rcases ih _ hget with ⟨item, hitem, hkey, hrev⟩ | hold
      · exact .inl ⟨item, mem_cons_of_mem first hitem, hkey, hrev⟩
      rw [get?_insert] at hold
      split at hold
      · rename_i hkey
        exact .inl ⟨first, mem_cons_self, hkey.symm, Option.some.inj hold⟩
      · exact .inr hold
  rcases hfold _ _ hget with ⟨item, hitem, hkey, hrev⟩ | hempty
  · obtain ⟨at_, hat⟩ := mem_values.mp hitem
    have hsame := h at_ item hat
    refine ⟨item, ?_, hrev⟩
    rw [← hkey, hsame]
    exact hat
  · cases hempty

end MuxSessionStore

end Yaade.Mux

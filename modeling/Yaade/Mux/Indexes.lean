import Mathlib.Data.List.TakeWhile
import Yaade.Mux.ClientShape

/-!
The lists by which the client shows its records.
-/

namespace Yaade.Mux.Client

open Yaade.Library List Option IndexMap MuxSessionStore
open Bool hiding not_or

/-! ## Lists by key -/

section Lists

variable {κ α : Type} [DecidableEq κ] {lists : IndexMap κ (List α)}

theorem listAt_insert (key other : κ) (list : List α) :
    listAt (lists.insert key list) other = if other = key then list else listAt lists other := by
  unfold listAt
  rw [get?_insert]
  split <;> rfl

theorem listAt_push (entry : κ × α) (key : κ) : listAt (push lists entry) key =
      listAt lists key ++ if entry.1 = key then [entry.2] else [] := by
  unfold push
  rw [listAt_insert]
  by_cases hkey : key = entry.1
  · rw [if_pos hkey, if_pos hkey.symm, hkey]
  · rw [if_neg hkey, if_neg (Ne.symm hkey), append_nil]

theorem listAt_pushAll (entries : List (κ × α)) (key : κ) : listAt (pushAll lists entries) key =
      listAt lists key ++ (entries.filter fun entry => entry.1 = key).map Prod.snd := by
  induction entries generalizing lists with
  | nil => exact (append_nil _).symm
  | cons first rest ih =>
    rw [pushAll, foldl_cons, ← pushAll, ih, listAt_push, append_assoc]
    by_cases hkey : first.1 = key
    · rw [if_pos hkey, filter_cons_of_pos (by simpa using hkey)]
      rfl
    · rw [if_neg hkey, filter_cons_of_neg (by simpa using hkey)]
      rfl

theorem listAt_emptyLists (keys : List κ) (key : κ) :
    listAt (emptyLists keys : IndexMap κ (List α)) key = [] := by
  have hfold : ∀ lists : IndexMap κ (List α), listAt lists key = [] →
      listAt (keys.foldl (fun lists key => lists.insert key []) lists) key = [] := by
    induction keys with
    | nil => exact fun _ h => h
    | cons first rest ih =>
      intro lists h
      rw [foldl_cons]
      apply ih
      rw [listAt_insert]
      split
      · rfl
      · exact h
  exact hfold .empty rfl

theorem listAt_mapValues {f : List α → List α} (hf : f [] = []) (key : κ) :
    listAt (lists.mapValues f) key = f (listAt lists key) := by
  unfold listAt
  rw [get?_mapValues]
  cases lists.get? key with
  | none => exact hf.symm
  | some list => rfl

theorem listAt_modify {f : List α → List α} (hf : f [] = []) (key other : κ) :
    listAt (lists.modify key f) other = if other = key then f (listAt lists other)
      else listAt lists other := by
  unfold listAt
  rw [get?_modify]
  split
  · cases lists.get? other with
    | none => exact hf.symm
    | some list => rfl
  · rfl

theorem listAt_resorted (position : α → ℤ) (touched : List κ) (key : κ) :
    listAt (touched.foldl (fun lists key => lists.modify key (orderBy position)) lists) key =
      if key ∈ touched then orderBy position (listAt lists key) else listAt lists key := by
  induction touched generalizing lists with
  | nil => rfl
  | cons first rest ih =>
    rw [foldl_cons, ih, listAt_modify rfl]
    by_cases hfirst : key = first
    · rw [if_pos hfirst, if_pos (mem_cons.mpr (.inl hfirst))]
      split
      · exact orderBy_of_sorted (orderedBy_orderBy position _)
      · rfl
    · rw [if_neg hfirst]
      have hiff : key ∈ first :: rest ↔ key ∈ rest :=
        ⟨fun hmem => (mem_cons.mp hmem).resolve_left hfirst, mem_cons_of_mem first⟩
      simp only [hiff]

theorem refreshed {position position' : α → ℤ} [DecidableEq α] {id : α}
    {before old next after list : List α} (hlist : list = orderBy position (before ++ old ++ after))
    (hold : ∀ item ∈ old, item = id) (hnext : next = [] ∨ next = [id])
    (hothers : id ∉ before ++ after)
    (hposn : ∀ item ∈ before ++ after, position item = position' item)
    (hrivals : next = [] ∨ ∀ item ∈ after, position' item ≠ position' id) :
    orderBy position' (list.filter (· ≠ id) ++ next) =
      orderBy position' (before ++ next ++ after) := by
  have hbef : before.filter (· ≠ id) = before := filter_eq_self.mpr fun item hitem =>
    decide_eq_true fun hid => hothers (mem_append_left after (hid ▸ hitem))
  have hafter : after.filter (· ≠ id) = after := filter_eq_self.mpr fun item hitem =>
    decide_eq_true fun hid => hothers (mem_append_right before (hid ▸ hitem))
  have hgone : old.filter (· ≠ id) = [] := filter_eq_nil_iff.mpr fun item hitem =>
    by simpa using hold item hitem
  have hwithout : list.filter (· ≠ id) = orderBy position' (before ++ after) := by
    rw [hlist, ← orderBy_filter, filter_append, filter_append, hbef, hafter, hgone, append_nil]
    exact orderBy_congr hposn
  rw [hwithout, orderBy_append]
  rcases hnext with rfl | rfl
  · rw [append_nil, append_nil]
  · apply (orderBy_insert fun hmem => hothers (mem_append_right before hmem)).mpr
    exact hrivals.resolve_left (cons_ne_nil _ _)

def takeOut [DecidableEq α] (lists : IndexMap κ (List α)) (removed : Option κ) (id : α) :
    IndexMap κ (List α) :=
  match removed with
  | some old => lists.insert old ((listAt lists old).filter (· ≠ id))
  | none => lists

def putIn (lists : IndexMap κ (List α)) (inserted : Option κ) (id : α) : IndexMap κ (List α) :=
  match inserted with
  | some new => push lists (new, id)
  | none => lists

theorem listAt_takeOut [DecidableEq α] (removed : Option κ) (id : α) (key : κ) :
    listAt (takeOut lists removed id) key = if removed = some key then
      (listAt lists key).filter (· ≠ id) else listAt lists key := by
  cases removed with
  | none => rfl
  | some old =>
    rw [takeOut, listAt_insert]
    by_cases hold : key = old
    · rw [if_pos hold, if_pos (congrArg some hold.symm), hold]
    · rw [if_neg hold, if_neg fun hsome => hold (Option.some.inj hsome).symm]

theorem listAt_putIn (inserted : Option κ) (id : α) (key : κ) :
    listAt (putIn lists inserted id) key =
      listAt lists key ++ if inserted = some key then [id] else [] := by
  cases inserted with
  | none => exact (append_nil _).symm
  | some new =>
    rw [putIn, listAt_push]
    simp only [Option.some.injEq]

theorem listAt_updated [DecidableEq α] (position : α → ℤ) (removed inserted : Option κ) (id : α)
    (key : κ) (huntouched : removed ≠ some key → id ∉ listAt lists key ∧
      orderBy position (listAt lists key) = listAt lists key) :
    listAt ((removed.toList ++ inserted.toList).foldl (fun lists key =>
        lists.modify key (orderBy position)) (putIn (takeOut lists removed id) inserted id)) key =
      orderBy position ((listAt lists key).filter (· ≠ id) ++
        if inserted = some key then [id] else []) := by
  rw [listAt_resorted, listAt_putIn, listAt_takeOut]
  by_cases hrem : removed = some key
  · rw [if_pos hrem, if_pos (by rw [hrem]; exact mem_cons_self)]
  obtain ⟨hid, hsorted⟩ := huntouched hrem
  have hfilter : (listAt lists key).filter (· ≠ id) = listAt lists key :=
    filter_eq_self.mpr fun item hitem => decide_eq_true fun hsame => hid (hsame ▸ hitem)
  rw [if_neg hrem, hfilter]
  by_cases hinserted : inserted = some key
  · rw [if_pos (by rw [hinserted]; exact mem_concat_self)]
  have huntouched' : key ∉ removed.toList ++ inserted.toList := by
    rw [mem_append, mem_toList, mem_toList]
    exact fun hmem => hmem.elim hrem hinserted
  rw [if_neg huntouched', if_neg hinserted, append_nil, hsorted]

end Lists

/-! ## What the lists are built from -/

namespace MuxSessionStore

variable (store : MuxSessionStore)

def sessionTabs (id : SessionId) : List SessionTabId :=
  (store.tabsById.values.filter fun tab => store.tabVisible tab && tab.sessionId = id).map
    SessionTab.id

def listedOfSession (id : SessionId) (terminals : List MuxTerminal) : List MuxTerminalId :=
  (terminals.filter fun terminal => (store.listedIn terminal).isSome && terminal.sessionId = id).map
    MuxTerminal.id

def listedOfTab (id : SessionTabId) (terminals : List MuxTerminal) : List MuxTerminalId :=
  (terminals.filter fun terminal => store.listedIn terminal = some id).map MuxTerminal.id

theorem listAt_visibleTabs (tabs : List SessionTab) (id : SessionId) :
    listAt (store.visibleTabs tabs) id = orderBy store.tabPosition
      ((tabs.filter fun tab => store.tabVisible tab && tab.sessionId = id).map SessionTab.id) := by
  unfold visibleTabs
  rw [listAt_mapValues rfl, listAt_pushAll]
  congr 1
  rw [List.filter_map, List.map_map, List.filter_filter]
  have hempty : listAt (IndexMap.empty : IndexMap SessionId (List SessionTabId)) id = [] := rfl
  rw [hempty, nil_append]
  congr 1
  apply filter_congr
  intro tab _
  exact Bool.and_comm _ _

theorem listAt_terminalIdsBySession (id : SessionId) :
    listAt store.rebuildTerminalIndexes.terminalIdsBySession id = orderBy store.terminalPosition
      (store.listedOfSession id store.terminalsById.values) := by
  unfold rebuildTerminalIndexes listedOfSession
  simp only
  rw [listAt_mapValues rfl, listAt_pushAll, listAt_emptyLists, nil_append]
  congr 1
  induction store.terminalsById.values with
  | nil => rfl
  | cons terminal rest ih =>
    cases hlisted : store.listedIn terminal with
    | none => simpa [filterMap_cons, hlisted] using ih
    | some tabId =>
      by_cases hsess : terminal.sessionId = id
      · simpa [filterMap_cons, hlisted, hsess] using ih
      · simpa [filterMap_cons, hlisted, hsess] using ih

theorem listAt_terminalIdsByTab (id : SessionTabId) :
    listAt store.rebuildTerminalIndexes.terminalIdsByTab id = orderBy store.terminalPosition
      (store.listedOfTab id store.terminalsById.values) := by
  unfold rebuildTerminalIndexes listedOfTab
  simp only
  rw [listAt_mapValues rfl, listAt_pushAll, listAt_emptyLists, nil_append]
  congr 1
  induction store.terminalsById.values with
  | nil => rfl
  | cons terminal rest ih =>
    cases hlisted : store.listedIn terminal with
    | none => simpa [filterMap_cons, hlisted] using ih
    | some tabId =>
      by_cases htab : tabId = id
      · simpa [filterMap_cons, hlisted, htab] using ih
      · simpa [filterMap_cons, hlisted, htab] using ih

end MuxSessionStore

/-- The stored lists are those that a full rebuild computes. -/
structure Indexed (store : MuxSessionStore) : Prop where
  sessions : store.visibleSessionIds = store.rebuildVisibleSessions.visibleSessionIds
  tabs : ∀ id, listAt store.visibleTabIdsBySession id =
    listAt store.rebuildVisibleTabs.visibleTabIdsBySession id
  bySession : ∀ id, listAt store.terminalIdsBySession id =
    listAt store.rebuildVisibleTabs.terminalIdsBySession id
  byTab : ∀ id, listAt store.terminalIdsByTab id =
    listAt store.rebuildVisibleTabs.terminalIdsByTab id

/-- The same, in terms of the records. -/
structure Agrees (store : MuxSessionStore) : Prop where
  sessions : store.visibleSessionIds = store.rebuildVisibleSessions.visibleSessionIds
  tabs : ∀ id, listAt store.visibleTabIdsBySession id =
    orderBy store.tabPosition (store.sessionTabs id)
  bySession : ∀ id, listAt store.terminalIdsBySession id =
    orderBy store.terminalPosition (store.listedOfSession id store.terminalsById.values)
  byTab : ∀ id, listAt store.terminalIdsByTab id =
    orderBy store.terminalPosition (store.listedOfTab id store.terminalsById.values)

section Agreement

variable {store other : MuxSessionStore}

theorem listedIn_congr (htabs : other.tabsById = store.tabsById)
    (hvis : ∀ id, listAt other.visibleTabIdsBySession id = listAt store.visibleTabIdsBySession id)
    (hterms : other.pendingTerminalCloses = store.pendingTerminalCloses)
    (hpend : other.pendingTabCloses = store.pendingTabCloses) (terminal : MuxTerminal) :
    other.listedIn terminal = store.listedIn terminal := by
  unfold listedIn tabIdForTerminal
  rw [htabs, hterms, hpend, hvis]

theorem rebuilt_listedIn (htabs : ∀ id, listAt store.visibleTabIdsBySession id =
    orderBy store.tabPosition (store.sessionTabs id)) (terminal : MuxTerminal) :
    ({ store with visibleTabIdsBySession := store.visibleTabs store.tabsById.values } :
      MuxSessionStore).listedIn terminal = store.listedIn terminal := by
  apply listedIn_congr
  · rfl
  · intro id
    rw [htabs id]
    exact store.listAt_visibleTabs _ id
  · rfl
  · rfl

theorem agrees_indexed (h : Agrees store) : Indexed store := by
  refine ⟨h.sessions, fun id => ?_, fun id => ?_, fun id => ?_⟩
  · rw [h.tabs id]
    exact (store.listAt_visibleTabs _ id).symm
  · rw [h.bySession id]
    refine Eq.trans ?_ (listAt_terminalIdsBySession _ id).symm
    unfold listedOfSession
    simp only [rebuilt_listedIn h.tabs]
    rfl
  · rw [h.byTab id]
    refine Eq.trans ?_ (listAt_terminalIdsByTab _ id).symm
    unfold listedOfTab
    simp only [rebuilt_listedIn h.tabs]
    rfl

theorem Agrees.reconcile (h : Agrees store) : Agrees store.reconcileSelection := by
  obtain ⟨_, _, _, hshape⟩ := store.reconcileSelection_shape
  rw [hshape]
  exact { h with }

section

variable (hsessions : store.visibleSessionIds = store.rebuildVisibleSessions.visibleSessionIds)
include hsessions

theorem agrees_terminals (htabs : ∀ id, listAt store.visibleTabIdsBySession id =
      orderBy store.tabPosition (store.sessionTabs id)) : Agrees store.rebuildTerminalIndexes :=
  ⟨hsessions, htabs, store.listAt_terminalIdsBySession, store.listAt_terminalIdsByTab⟩

theorem agrees_rebuilt : Agrees store.rebuildVisibleTabs :=
  agrees_terminals hsessions fun id => store.listAt_visibleTabs _ id

end

/-! ### One terminal -/

/-- Terminals behind one in the map that are listed with it under its position. -/
def rivals (store : MuxSessionStore) (terminal : MuxTerminal) : List MuxTerminal :=
  (store.terminalsById.values.dropWhile fun other => other.id ≠ terminal.id).tail.filter fun other =>
    other.position = terminal.position && (store.listedIn other).isSome &&
      (other.sessionId = terminal.sessionId || store.listedIn other = store.listedIn terminal)

/-- A terminal whose place in the lists is edited shares it with none behind it. -/
def Unrivalled (store : MuxSessionStore) (terminal : MuxTerminal) : Prop :=
  indexChanged (store.terminalsById.get? terminal.id) terminal = true →
    (store.listedIn terminal).isSome = true →
    rivals store terminal = []

theorem terminalAt (hkeyed : KeyedBy MuxTerminal.id store.terminalsById) {terminal : MuxTerminal}
    (hmem : terminal ∈ store.terminalsById.values) :
    store.terminalsById.get? terminal.id = some terminal := by
  obtain ⟨key, hget⟩ := mem_values.mp hmem
  rw [hkeyed key terminal hget]
  exact hget

/-- Where a terminal stands in the map, or goes. -/
theorem terminal_split (hkeyed : KeyedBy MuxTerminal.id store.terminalsById)
    (terminal : MuxTerminal) : ∃ before after,
      store.terminalsById.values =
        before ++ (store.terminalsById.get? terminal.id).toList ++ after ∧
      (store.terminalsById.insert terminal.id terminal).values = before ++ [terminal] ++ after ∧
      (∀ other ∈ before ++ after, other.id ≠ terminal.id) ∧
      (store.terminalsById.values.dropWhile fun other => other.id ≠ terminal.id).tail = after := by
  cases hget : store.terminalsById.get? terminal.id with
  | none =>
    have hothers : ∀ other ∈ store.terminalsById.values, other.id ≠ terminal.id := by
      intro other hother hid
      have hcontra := terminalAt hkeyed hother
      rw [hid, hget] at hcontra
      cases hcontra
    refine ⟨store.terminalsById.values, [], ?_, ?_, ?_, ?_⟩
    · simp
    · unfold IndexMap.values
      rw [insert_entries hget, map_append, append_nil]
      rfl
    · rw [append_nil]
      exact hothers
    · rw [dropWhile_eq_nil_iff.mpr fun other hother => decide_eq_true (hothers other hother)]
      rfl
  | some old =>
    obtain ⟨before, after, hentries, hinserted, hbef, hafter⟩ := insert_split hget terminal
    have hid : ∀ entry ∈ store.terminalsById.entries, entry.2.id = entry.1 := fun entry hentry =>
      hkeyed entry.1 entry.2 (get?_eq_some.mpr hentry)
    have hbef' : ∀ other ∈ before.map Prod.snd, other.id ≠ terminal.id := by
      intro other hother
      obtain ⟨entry, hentry, rfl⟩ := List.mem_map.mp hother
      rw [hid entry (by rw [hentries]; exact mem_append_left _ hentry)]
      exact hbef entry hentry
    have hafter' : ∀ other ∈ after.map Prod.snd, other.id ≠ terminal.id := by
      intro other hother
      obtain ⟨entry, hentry, rfl⟩ := List.mem_map.mp hother
      rw [hid entry (by
        rw [hentries]
        exact mem_append_right _ (mem_cons_of_mem _ hentry))]
      exact hafter entry hentry
    have hold : old.id = terminal.id := hkeyed _ _ hget
    refine ⟨before.map Prod.snd, after.map Prod.snd, ?_, ?_, ?_, ?_⟩
    · unfold IndexMap.values
      rw [hentries]
      simp
    · unfold IndexMap.values
      rw [hinserted]
      simp
    · exact forall_mem_append.mpr ⟨hbef', hafter'⟩
    · unfold IndexMap.values
      rw [hentries, map_append, map_cons, dropWhile_append_of_pos fun other hother =>
        decide_eq_true (hbef' other hother), dropWhile_cons_of_neg (by simp [hold])]
      rfl

section Upsert

variable {terminal : MuxTerminal} {P : MuxTerminal → Bool} {list : List MuxTerminalId}

def withTerminal (store : MuxSessionStore) (terminal : MuxTerminal) : MuxSessionStore :=
  { store with terminalsById := store.terminalsById.insert terminal.id terminal }

theorem withTerminal_position (hkeyed : KeyedBy MuxTerminal.id store.terminalsById)
    {other : MuxTerminal} (hother : other ∈ store.terminalsById.values)
    (hid : other.id ≠ terminal.id) : store.terminalPosition other.id = other.position ∧
      (withTerminal store terminal).terminalPosition other.id = other.position := by
  have hget := terminalAt hkeyed hother
  unfold terminalPosition withTerminal
  rw [get?_insert, if_neg hid, hget]
  exact ⟨rfl, rfl⟩

theorem withTerminal_own (store : MuxSessionStore) (terminal : MuxTerminal) :
    (withTerminal store terminal).terminalPosition terminal.id = terminal.position := by
  unfold terminalPosition withTerminal
  rw [get?_insert, if_pos rfl]
  rfl

theorem upsert_untouched (hkeyed : KeyedBy MuxTerminal.id store.terminalsById)
    (hlist : list = orderBy store.terminalPosition
      ((store.terminalsById.values.filter P).map MuxTerminal.id))
    (hprev : ∀ previous, store.terminalsById.get? terminal.id = some previous →
      P previous = false) :
    terminal.id ∉ list ∧ orderBy (withTerminal store terminal).terminalPosition list = list := by
  have hids : ∀ id ∈ (store.terminalsById.values.filter P).map MuxTerminal.id,
      id ≠ terminal.id ∧ store.terminalPosition id =
        (withTerminal store terminal).terminalPosition id := by
    intro id hid
    obtain ⟨other, hother, rfl⟩ := List.mem_map.mp hid
    obtain ⟨hmem, hlisted⟩ := mem_filter.mp hother
    have hne : other.id ≠ terminal.id := by
      intro hsame
      have hfalse := hprev other (hsame ▸ terminalAt hkeyed hmem)
      rw [hlisted] at hfalse
      cases hfalse
    obtain ⟨hposn, hposn'⟩ := withTerminal_position hkeyed hmem hne
    exact ⟨hne, hposn.trans hposn'.symm⟩
  constructor
  · intro hmem
    rw [hlist, mem_orderBy] at hmem
    exact (hids _ hmem).1 rfl
  · have hresorted : list = orderBy (withTerminal store terminal).terminalPosition
        ((store.terminalsById.values.filter P).map MuxTerminal.id) := by
      rw [hlist]
      exact orderBy_congr fun id hid => (hids id hid).2
    rw [hresorted]
    exact orderBy_of_sorted (orderedBy_orderBy _ _)

/-- The list of some terminals after one of them has changed. -/
theorem upsert_list (hkeyed : KeyedBy MuxTerminal.id store.terminalsById)
    (hlist : list = orderBy store.terminalPosition
      ((store.terminalsById.values.filter P).map MuxTerminal.id))
    {list' : List MuxTerminalId}
    (hlist' : indexChanged (store.terminalsById.get? terminal.id) terminal = true ∧
        list' = orderBy (withTerminal store terminal).terminalPosition
          (list.filter (· ≠ terminal.id) ++ if P terminal then [terminal.id] else []) ∧
        (P terminal = true → ∀ other ∈ (store.terminalsById.values.dropWhile fun other =>
          other.id ≠ terminal.id).tail, P other = true → other.position ≠ terminal.position) ∨
      list' = list ∧ ∃ previous, store.terminalsById.get? terminal.id = some previous ∧
        previous.position = terminal.position ∧ P previous = P terminal) :
    list' = orderBy (withTerminal store terminal).terminalPosition
      (((withTerminal store terminal).terminalsById.values.filter P).map MuxTerminal.id) := by
  obtain ⟨before, after, hvalues, hinserted, hothers, htail⟩ := terminal_split hkeyed terminal
  have hmem : ∀ other ∈ before ++ after, other ∈ store.terminalsById.values := by
    intro other hother
    rw [hvalues]
    rcases mem_append.mp hother with hbef | hafter
    · exact mem_append_left _ (mem_append_left _ hbef)
    · exact mem_append_right _ hafter
  have hids : ∀ id ∈ (before.filter P).map MuxTerminal.id ++ (after.filter P).map MuxTerminal.id,
      ∃ other ∈ before ++ after, other.id = id := by
    intro id hid
    rw [← map_append, ← filter_append] at hid
    obtain ⟨other, hother, rfl⟩ := List.mem_map.mp hid
    exact ⟨other, (mem_filter.mp hother).1, rfl⟩
  have hposn : ∀ id ∈ (before.filter P).map MuxTerminal.id ++
      (after.filter P).map MuxTerminal.id, store.terminalPosition id =
        (withTerminal store terminal).terminalPosition id := by
    intro id hid
    obtain ⟨other, hother, rfl⟩ := hids id hid
    obtain ⟨hbef, hafter⟩ := withTerminal_position hkeyed (hmem other hother) (hothers other hother)
    exact hbef.trans hafter.symm
  rw [hvalues, filter_append, filter_append, map_append, map_append] at hlist
  have hnew : ([terminal].filter P).map MuxTerminal.id =
      if P terminal then [terminal.id] else [] := by
    by_cases hlisted : P terminal = true
    · simp [hlisted]
    · simp [hlisted]
  show list' = orderBy _ (((store.terminalsById.insert terminal.id terminal).values.filter P).map _)
  rw [hinserted, filter_append, filter_append, map_append, map_append, hnew]
  rcases hlist' with ⟨-, rfl, hrivals⟩ | ⟨rfl, previous, hprev, hsame, hlisted⟩
  · apply refreshed hlist
    · intro id hid
      obtain ⟨old, hold, rfl⟩ := List.mem_map.mp hid
      exact hkeyed _ _ (mem_toList.mp (mem_filter.mp hold).1)
    · split
      · exact .inr rfl
      · exact .inl rfl
    · intro hid
      obtain ⟨other, hother, hsame⟩ := hids _ hid
      exact hothers other hother hsame
    · exact hposn
    · by_cases hlisted : P terminal = true
      · right
        intro id hid
        obtain ⟨other, hother, rfl⟩ := List.mem_map.mp hid
        obtain ⟨hafter, hother'⟩ := mem_filter.mp hother
        have hbehind := mem_append_right before hafter
        rw [withTerminal_own, (withTerminal_position hkeyed (hmem other hbehind)
          (hothers other hbehind)).2]
        exact hrivals hlisted other (htail ▸ hafter) hother'
      · exact .inl (if_neg hlisted)
  · have hid : previous.id = terminal.id := hkeyed _ _ hprev
    rw [hprev] at hlist
    have hold : ((some previous).toList.filter P).map MuxTerminal.id =
        if P terminal then [terminal.id] else [] := by
      rw [← hlisted, ← hid]
      by_cases hprev : P previous = true
      · simp [hprev]
      · simp [hprev]
    rw [hold] at hlist
    rw [hlist]
    apply orderBy_congr
    intro id hmember
    rcases mem_append.mp hmember with hfirst | hafter
    · rcases mem_append.mp hfirst with hbef | hown
      · exact hposn id (mem_append_left _ hbef)
      have hown' : id = terminal.id := by
        split at hown
        · exact mem_singleton.mp hown
        · cases hown
      rw [hown', withTerminal_own, ← hsame]
      unfold terminalPosition
      rw [hprev]
      rfl
    · exact hposn id (mem_append_right _ hafter)

theorem updated_bySession {previous : Option MuxTerminal} {next : MuxTerminal}
    (hid : ∀ old, previous = some old → old.id = next.id) (key : SessionId)
    (huntouched : (previous.filter fun old => !old.archived).map MuxTerminal.sessionId ≠ some key →
      next.id ∉ listAt store.terminalIdsBySession key ∧
        orderBy store.terminalPosition (listAt store.terminalIdsBySession key) =
          listAt store.terminalIdsBySession key) :
    listAt (store.updateTerminalIndexes previous next).terminalIdsBySession key =
      orderBy store.terminalPosition ((listAt store.terminalIdsBySession key).filter (· ≠ next.id) ++
        if (store.listedIn next).map (fun _ => next.sessionId) = some key then [next.id] else []) := by
  have h := listAt_updated store.terminalPosition
    ((previous.filter fun old => !old.archived).map MuxTerminal.sessionId)
    ((store.listedIn next).map fun _ => next.sessionId) next.id key huntouched
  unfold updateTerminalIndexes
  cases hrem : previous.filter fun old => !old.archived with
  | none =>
    rw [hrem] at h
    cases hlisted : store.listedIn next with
    | none | some =>
      rw [hlisted] at h
      exact h
  | some old =>
    rw [hrem] at h
    have hold : old.id = next.id := hid old (filter_eq_some_iff.mp hrem).1
    rw [← hold] at h ⊢
    cases hlisted : store.listedIn next with
    | none =>
      rw [hlisted] at h
      exact h
    | some tabId =>
      rw [hlisted] at h
      simp only [hold] at h ⊢
      exact h

theorem updated_byTab {previous : Option MuxTerminal} {next : MuxTerminal}
    (hid : ∀ old, previous = some old → old.id = next.id) (key : SessionTabId)
    (huntouched : (previous.filter fun old => !old.archived).bind store.tabIdForTerminal ≠ some key →
      next.id ∉ listAt store.terminalIdsByTab key ∧
        orderBy store.terminalPosition (listAt store.terminalIdsByTab key) =
          listAt store.terminalIdsByTab key) :
    listAt (store.updateTerminalIndexes previous next).terminalIdsByTab key =
      orderBy store.terminalPosition ((listAt store.terminalIdsByTab key).filter (· ≠ next.id) ++
        if store.listedIn next = some key then [next.id] else []) := by
  have h := listAt_updated store.terminalPosition
    ((previous.filter fun old => !old.archived).bind store.tabIdForTerminal)
    (store.listedIn next) next.id key huntouched
  unfold updateTerminalIndexes
  cases hrem : previous.filter fun old => !old.archived with
  | none =>
    rw [hrem] at h
    cases hlisted : store.listedIn next with
    | none =>
      rw [hlisted] at h
      exact h
    | some tabId =>
      rw [hlisted] at h
      exact h
  | some old =>
    rw [hrem] at h
    have hold : old.id = next.id := hid old (filter_eq_some_iff.mp hrem).1
    simp only [bind_some] at h ⊢
    cases htab : store.tabIdForTerminal old with
    | none =>
      rw [htab] at h
      cases hlisted : store.listedIn next with
      | none =>
        rw [hlisted] at h
        exact h
      | some tabId =>
        rw [hlisted] at h
        exact h
    | some oldTab =>
      rw [htab] at h
      cases hlisted : store.listedIn next with
      | none | some =>
        rw [hlisted] at h
        simp only [hold]
        exact h

theorem listedIn_some {tabId : SessionTabId} (h : store.listedIn terminal = some tabId) :
    terminal.archived = false ∧ store.tabIdForTerminal terminal = some tabId := by
  unfold listedIn at h
  obtain ⟨hlive, hlisted⟩ := ite_none_left_eq_some.mp h
  rw [or_eq_true, not_or] at hlive
  exact ⟨eq_false_iff.mpr hlive.1, (filter_eq_some_iff.mp hlisted).1⟩

theorem Unrivalled.apart (hrivals : Unrivalled store terminal)
    (hchanged : indexChanged (store.terminalsById.get? terminal.id) terminal = true)
    (hlisted : (store.listedIn terminal).isSome = true) {other : MuxTerminal}
    (hother : other ∈ (store.terminalsById.values.dropWhile fun other =>
      other.id ≠ terminal.id).tail)
    (hsome : (store.listedIn other).isSome = true)
    (hsame : other.sessionId = terminal.sessionId ∨ store.listedIn other = store.listedIn terminal) :
    other.position ≠ terminal.position := by
  intro hposn
  have hnone := filter_eq_nil_iff.mp (hrivals hchanged hlisted) other hother
  apply hnone
  rw [and_eq_true, and_eq_true, or_eq_true, decide_eq_true_eq, decide_eq_true_eq, decide_eq_true_eq]
  exact ⟨⟨hposn, hsome⟩, hsame⟩

theorem unchanged_listed (h : ¬ indexChanged (store.terminalsById.get? terminal.id) terminal = true)
    (hid : ∀ old, store.terminalsById.get? terminal.id = some old → old.id = terminal.id) :
    ∃ previous, store.terminalsById.get? terminal.id = some previous ∧
      previous.position = terminal.position ∧ previous.sessionId = terminal.sessionId ∧
      store.listedIn previous = store.listedIn terminal := by
  unfold indexChanged at h
  rw [not_eq_true, not_eq_false', Option.any_eq_true] at h
  obtain ⟨previous, hprev, hsame⟩ := h
  simp only [and_eq_true, decide_eq_true_eq] at hsame
  obtain ⟨⟨⟨hsess, htab⟩, harch⟩, hposn⟩ := hsame
  refine ⟨previous, hprev, hposn, hsess, ?_⟩
  unfold listedIn tabIdForTerminal MuxTerminal.archived
  rw [hsess, htab, harch, hid previous hprev]

theorem Agrees.upsert (h : Agrees store) (hkeyed : KeyedBy MuxTerminal.id store.terminalsById)
    (hrivals : Unrivalled store terminal) : Agrees (store.upsertTerminal terminal) := by
  have hid : ∀ old, store.terminalsById.get? terminal.id = some old → old.id = terminal.id :=
    fun old hold => hkeyed _ _ hold
  unfold upsertTerminal
  show Agrees (if _ then (withTerminal store terminal).updateTerminalIndexes
    (store.terminalsById.get? terminal.id) terminal else withTerminal store terminal)
  split
  · rename_i hchanged
    refine ⟨h.sessions, h.tabs, fun key => ?_, fun key => ?_⟩
    · refine upsert_list (P := fun other => (store.listedIn other).isSome && other.sessionId = key)
        hkeyed (h.bySession key) (.inl ⟨hchanged, ?_, ?_⟩)
      · rw [updated_bySession hid]
        · congr 2
          apply if_congr _ rfl rfl
          rw [map_eq_some_iff, and_eq_true, isSome_iff_exists, decide_eq_true_eq]
          constructor
          · rintro ⟨tabId, htab, hkey⟩
            exact ⟨⟨tabId, htab⟩, hkey⟩
          · rintro ⟨⟨tabId, htab⟩, hkey⟩
            exact ⟨tabId, htab, hkey⟩
        · intro hrem
          apply upsert_untouched hkeyed (h.bySession key)
          intro previous hprev
          rw [eq_false_iff]
          intro hlisted
          rw [and_eq_true, isSome_iff_exists, decide_eq_true_eq] at hlisted
          obtain ⟨⟨tabId, htab⟩, hkey⟩ := hlisted
          apply hrem
          rw [hprev, filter_some, if_pos (by rw [(listedIn_some htab).1]; rfl)]
          exact congrArg some hkey
      · intro hlisted other hother hsame
        rw [and_eq_true, decide_eq_true_eq] at hlisted hsame
        exact hrivals.apart hchanged hlisted.1 hother hsame.1 (.inl (hsame.2.trans hlisted.2.symm))
    · refine upsert_list (P := fun other => store.listedIn other = some key)
        hkeyed (h.byTab key) (.inl ⟨hchanged, ?_, ?_⟩)
      · rw [updated_byTab hid]
        · congr 2
          apply if_congr _ rfl rfl
          rw [decide_eq_true_eq]
          exact Iff.rfl
        intro hrem
        apply upsert_untouched hkeyed (h.byTab key)
        intro previous hprev
        rw [decide_eq_false_iff_not]
        intro hlisted
        apply hrem
        obtain ⟨hlive, htab⟩ := listedIn_some hlisted
        rw [hprev, filter_some, if_pos (by rw [hlive]; rfl)]
        exact htab
      · intro hlisted other hother hsame
        rw [decide_eq_true_eq] at hlisted hsame
        exact hrivals.apart hchanged (by rw [hlisted]; rfl) hother (by rw [hsame]; rfl)
          (.inr (hsame.trans hlisted.symm))
  · rename_i hchanged
    obtain ⟨previous, hprev, hposn, hsess, hlisted⟩ := unchanged_listed hchanged hid
    refine ⟨h.sessions, h.tabs, fun key => ?_, fun key => ?_⟩
    · apply upsert_list (P := fun other => (store.listedIn other).isSome && other.sessionId = key)
        hkeyed (h.bySession key)
      exact .inr ⟨rfl, previous, hprev, hposn, by rw [hlisted, hsess]⟩
    · apply upsert_list (P := fun other => store.listedIn other = some key) hkeyed (h.byTab key)
      exact .inr ⟨rfl, previous, hprev, hposn, by rw [hlisted]⟩

end Upsert

/-! ### Closes that are over -/

theorem shiftRemove_contains {κ : Type} [DecidableEq κ] {pending : IndexMap κ Nat} {id key : κ}
    (h : key ≠ id) : (pending.shiftRemove id).contains key = pending.contains key := by
  unfold IndexMap.contains
  rw [get?_shiftRemove, if_neg h]

theorem Agrees.pending (h : Agrees store) {terminals : IndexMap MuxTerminalId Nat}
    {tabs : IndexMap SessionTabId Nat} (hvis : ∀ tab ∈ store.tabsById.values,
      ({ store with pendingTerminalCloses := terminals, pendingTabCloses := tabs } :
        MuxSessionStore).tabVisible tab = store.tabVisible tab)
    (hlisted : ∀ terminal ∈ store.terminalsById.values,
      ({ store with pendingTerminalCloses := terminals, pendingTabCloses := tabs } :
        MuxSessionStore).listedIn terminal = store.listedIn terminal) :
    Agrees { store with pendingTerminalCloses := terminals, pendingTabCloses := tabs } := by
  refine ⟨h.sessions, fun key => ?_, fun key => ?_, fun key => ?_⟩
  · refine (h.tabs key).trans (congrArg (fun tabs : List SessionTab => orderBy store.tabPosition
      (tabs.map SessionTab.id)) ?_)
    apply filter_congr
    intro tab hmem
    rw [hvis tab hmem]
  · refine (h.bySession key).trans (congrArg (fun terminals : List MuxTerminal => orderBy store.terminalPosition
      (terminals.map MuxTerminal.id)) ?_)
    apply filter_congr
    intro terminal hmem
    rw [hlisted terminal hmem]
  · refine (h.byTab key).trans (congrArg (fun terminals : List MuxTerminal => orderBy store.terminalPosition
      (terminals.map MuxTerminal.id)) ?_)
    apply filter_congr
    intro terminal hmem
    rw [hlisted terminal hmem]

theorem Agrees.confirmTerminal (h : Agrees store)
    (hkeyed : KeyedBy MuxTerminal.id store.terminalsById) {id : MuxTerminalId}
    (hover : ∀ terminal, store.terminalsById.get? id = some terminal → terminal.archived = true) :
    Agrees { store with pendingTerminalCloses := store.pendingTerminalCloses.shiftRemove id } := by
  apply h.pending
  · exact fun _ _ => rfl
  · intro terminal hmem
    unfold listedIn
    by_cases hid : terminal.id = id
    · rw [hover terminal (hid ▸ terminalAt hkeyed hmem)]
      rfl
    · simp only [shiftRemove_contains hid]
      rfl

theorem tabAt (hkeyed : KeyedBy SessionTab.id store.tabsById) {tab : SessionTab}
    (hmem : tab ∈ store.tabsById.values) : store.tabsById.get? tab.id = some tab := by
  obtain ⟨key, hget⟩ := mem_values.mp hmem
  rw [hkeyed key tab hget]
  exact hget

theorem Agrees.tabIdForTerminal_known (h : Agrees store)
    (hkeyed : KeyedBy SessionTab.id store.tabsById) {terminal : MuxTerminal} {tabId : SessionTabId}
    (htab : store.tabIdForTerminal terminal = some tabId) :
    ∃ tab, store.tabsById.get? tabId = some tab := by
  rcases (orElse_eq_some _ _ _).mp htab with hown | ⟨-, hhead⟩
  · exact contains_iff.mp (filter_eq_some_iff.mp hown).2
  have hmem := mem_of_head? hhead
  rw [h.tabs, mem_orderBy] at hmem
  obtain ⟨tab, hfiltered, rfl⟩ := List.mem_map.mp hmem
  exact ⟨tab, tabAt hkeyed (mem_filter.mp hfiltered).1⟩

theorem Agrees.confirmTab (h : Agrees store) (hkeyed : KeyedBy SessionTab.id store.tabsById)
    {id : SessionTabId} (hover : ∀ tab, store.tabsById.get? id = some tab → tab.archived = true) :
    Agrees { store with pendingTabCloses := store.pendingTabCloses.shiftRemove id } := by
  apply h.pending
  · intro tab hmem
    unfold tabVisible
    by_cases hid : tab.id = id
    · rw [hover tab (hid ▸ tabAt hkeyed hmem)]
      rfl
    · simp only [shiftRemove_contains hid]
  · intro terminal _
    unfold listedIn
    show (if _ then none else (store.tabIdForTerminal terminal).filter _) = _
    cases htab : store.tabIdForTerminal terminal with
    | none => rfl
    | some tabId =>
      split
      · rfl
      by_cases hid : tabId = id
      · obtain ⟨tab, hget⟩ := h.tabIdForTerminal_known hkeyed htab
        have harch : (store.tabsById.get? tabId).any SessionTab.archived = true := by
          rw [hget]
          exact hover tab (hid ▸ hget)
        simp only [filter_some, harch]
        rfl
      · simp only [filter_some, shiftRemove_contains hid]

theorem upsertTerminal_pending {terminal : MuxTerminal} (harch : terminal.archived = true)
    (pending : IndexMap MuxTerminalId Nat) :
    ({ store with pendingTerminalCloses := pending } : MuxSessionStore).upsertTerminal terminal =
      { store.upsertTerminal terminal with pendingTerminalCloses := pending } := by
  have hnone : ∀ any : MuxSessionStore, any.listedIn terminal = none := by
    intro any
    unfold listedIn
    rw [harch]
    rfl
  unfold upsertTerminal
  simp only
  split
  · unfold updateTerminalIndexes
    simp only [hnone]
    rfl
  · rfl

end Agreement

end Yaade.Mux.Client

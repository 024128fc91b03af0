import Mathlib.Data.List.Perm.Basic
import Yaade.Lister.FilterTree

/-!
The tree state of the lister: the children it caches, the calls it waits for, and
the rows it shows.
-/

namespace Yaade.Lister

open Yaade.Library List Function

abbrev ListerNodeId := String

structure ListerNode where
  id : ListerNodeId
  isBranch : Bool
  searchText : Utf16.Units
  deriving DecidableEq

/-- What a call of `getChildren` returns. A promise may also reject. -/
inductive Reply where
  | null
  | array (entries : List ListerNode)
  | promise (entries : List ListerNode)

def Reply.entries : Reply → List ListerNode
  | .null => []
  | .array entries => entries
  | .promise entries => entries

/-- A data source: its roots at a time, what its `n`th call returns, and the
height of its nodes, which is finite as its trees are. -/
structure ListerDataSource where
  roots : Nat → List ListerNode
  getChildren : Nat → ListerNodeId → Reply
  height : ListerNodeId → Nat
  lower : ∀ n id, ∀ child ∈ (getChildren n id).entries, height child.id < height id

inductive Outcome where
  | null
  | answered
  | rejected
  deriving DecidableEq

/-- A call of `getChildren`; `fresh` while its source is the current one and
nothing has been invalidated since. -/
structure Asked where
  id : ListerNodeId
  generation : Nat
  entries : List ListerNode
  fresh : Bool
  deriving DecidableEq

/-- The tree state, with the calls that are outstanding, those that are done, and
what was expanded at the last `reloadExpanded`. -/
structure ListerTreeState where
  source : ListerDataSource
  childCache : ListerNodeId → Option (List ListerNode)
  loading : ListerNodeId → Option Nat
  expanded : List ListerNodeId
  generation : Nat
  waiting : List Asked
  done : List (Asked × Outcome)
  reloaded : List ListerNodeId

structure FlatEntry where
  node : ListerNode
  depth : Nat
  expanded : Bool
  loading : Bool
  deriving DecidableEq

inductive Event where
  | toggle (id : ListerNodeId)
  | setExpanded (ids : List ListerNodeId)
  | ensureChildren (id : ListerNodeId)
  | invalidate
  | reloadExpanded
  | switchSource (next : ListerDataSource)
  | settle (call : Asked) (resolved : Bool)

namespace ListerTreeState

def create (source : ListerDataSource) (initiallyExpanded : List ListerNodeId) :
    ListerTreeState where
  source := source
  childCache _ := none
  loading _ := none
  expanded := initiallyExpanded.eraseDups
  generation := 0
  waiting := []
  done := []
  reloaded := []

section Steps

variable (state : ListerTreeState)

def cache (id : ListerNodeId) (entries : List ListerNode) : ListerTreeState :=
  { state with childCache := Function.update state.childCache id (some entries) }

/-- What a call does up to the point where it waits for its promise. -/
def ask (id : ListerNodeId) (result : Reply) : ListerTreeState :=
  let call : Asked := ⟨id, state.generation, result.entries, true⟩
  match result with
  | .null => { state with done := state.done ++ [(call, .null)] }
  | .array entries => { state.cache id entries with done := state.done ++ [(call, .answered)] }
  | .promise _ =>
    { state with
      loading := Function.update state.loading id (some state.generation)
      waiting := state.waiting ++ [call] }

def ensureChildren (id : ListerNodeId) : ListerTreeState :=
  if (state.childCache id).isSome ∨ state.loading id = some state.generation then state
  else state.ask id (state.source.getChildren (state.waiting.length + state.done.length) id)

/-- The rest of a call, once its promise has settled. -/
def settle (call : Asked) (resolved : Bool) : ListerTreeState :=
  if call ∈ state.waiting then
    { state with
      waiting := state.waiting.erase call
      done := state.done ++ [(call, if resolved then .answered else .rejected)]
      childCache := if resolved ∧ state.generation = call.generation
        then Function.update state.childCache call.id (some call.entries) else state.childCache
      loading := if state.loading call.id = some call.generation
        then Function.update state.loading call.id none else state.loading }
  else state

def toggle (id : ListerNodeId) : ListerTreeState :=
  if id ∈ state.expanded then { state with expanded := state.expanded.erase id }
  else ensureChildren { state with expanded := state.expanded ++ [id] } id

def setExpanded (ids : List ListerNodeId) : ListerTreeState :=
  { state with expanded := ids.eraseDups }

/-- The calls made so far are of no more use. -/
def outdate : ListerTreeState :=
  { state with
    waiting := state.waiting.map ({ · with fresh := false })
    done := state.done.map fun entry => ({ entry.1 with fresh := false }, entry.2) }

def setSource (next : ListerDataSource) : ListerTreeState :=
  { state.outdate with source := next }

def invalidate : ListerTreeState :=
  { state.outdate with
    generation := state.generation + 1
    childCache := fun _ => none
    loading := fun _ => none
    reloaded := [] }

def reloadExpanded : ListerTreeState :=
  { state.expanded.foldl ensureChildren state.invalidate with reloaded := state.expanded }

def step : Event → ListerTreeState
  | .toggle id => state.toggle id
  | .setExpanded ids => state.setExpanded ids
  | .ensureChildren id => state.ensureChildren id
  | .invalidate => state.invalidate
  | .reloadExpanded => state.reloadExpanded
  | .switchSource next => (state.setSource next).reloadExpanded
  | .settle call resolved => state.settle call resolved

def run (events : List Event) : ListerTreeState := events.foldl step state

/-! ## Rows -/

def entry (node : ListerNode) (depth : Nat) : FlatEntry :=
  ⟨node, depth, state.expanded.contains node.id, (state.loading node.id).isSome⟩

/-- The children that are shown under a node. -/
def shown (node : ListerNode) : Option (List ListerNode) :=
  if node.isBranch && state.expanded.contains node.id then state.childCache node.id else none

def walkNodes (walk : List ListerNode → List FlatEntry → Option (List FlatEntry)) (depth : Nat) :
    List ListerNode → List FlatEntry → Option (List FlatEntry)
  | [], rows => some rows
  | node :: nodes, rows =>
    let rows := rows ++ [state.entry node depth]
    let rows := match state.shown node with
      | some children => walk children rows
      | none => some rows
    rows.bind (walkNodes walk depth nodes)

/-- `walk` as far as it goes with `fuel` calls within one another. -/
def walk : Nat → Nat → List ListerNode → List FlatEntry → Option (List FlatEntry)
  | 0, depth => state.walkNodes (fun _ _ => none) depth
  | fuel + 1, depth => state.walkNodes (walk fuel (depth + 1)) depth

def flatten (fuel now : Nat) : Option (List FlatEntry) :=
  state.walk fuel 0 (state.source.roots now) []

end Steps

/-! ## Fresh children -/

def calls (state : ListerTreeState) : List Asked := state.waiting ++ state.done.map (·.1)

/-- The children of a node are there, or waited for, or a call gave none. -/
def Loaded (state : ListerTreeState) (id : ListerNodeId) : Prop :=
  (state.childCache id).isSome ∨ (state.loading id).isSome ∨
    ∃ entry ∈ state.done, entry.1.fresh ∧ entry.1.id = id ∧ entry.2 ≠ .answered

/-- What is known of a call that was made. -/
structure Known (source : ListerDataSource) (generation : Nat) (call : Asked) : Prop where
  bounded : call.generation ≤ generation
  fresh : call.fresh ↔ call.generation = generation
  lower : call.fresh → ∀ child ∈ call.entries, source.height child.id < source.height call.id

/-- What holds in every state the lister reaches. -/
structure Sound (state : ListerTreeState) : Prop where
  calls : ∀ call ∈ state.calls, Known state.source state.generation call
  cached : ∀ id entries, state.childCache id = some entries →
    ∃ call, (call, Outcome.answered) ∈ state.done ∧ call.fresh ∧ call.id = id ∧
      call.entries = entries
  loading : ∀ id generation, state.loading id = some generation ↔
    generation = state.generation ∧ ∃ call ∈ state.waiting, call.fresh ∧ call.id = id
  single : ∀ id, (state.waiting.filter fun call => call.fresh && call.id == id).length ≤ 1
  reloaded : ∀ id ∈ state.reloaded, state.Loaded id

section Preserved

variable {state : ListerTreeState} {id other : ListerNodeId} {ids : List ListerNodeId}
  {call : Asked} {resolved : Bool}

theorem create_sound (source : ListerDataSource) : (create source ids).Sound where
  calls := nofun
  cached := nofun
  loading _ _ := ⟨nofun, fun h => nomatch h.2⟩
  single _ := Nat.zero_le 1
  reloaded := nofun

theorem outdate_calls : state.outdate.calls = state.calls.map ({ · with fresh := false }) := by
  simp [outdate, calls]

/-- After `invalidate` no call is fresh and nothing is kept. -/
theorem invalidate_sound (h : ∀ call ∈ state.calls, call.generation ≤ state.generation) :
    state.invalidate.Sound := by
  have hcalls : ∀ call ∈ state.invalidate.calls,
      call.fresh = false ∧ call.generation ≤ state.generation := by
    intro call hcall
    change call ∈ state.outdate.calls at hcall
    rw [outdate_calls] at hcall
    obtain ⟨old, hold, rfl⟩ := mem_map.mp hcall
    exact ⟨rfl, h old hold⟩
  have hwaiting : ∀ call ∈ state.invalidate.waiting, call.fresh = false := fun call hcall =>
    (hcalls call (mem_append_left _ hcall)).1
  refine ⟨fun call hcall => ?_, nofun, fun id generation => ⟨nofun, ?_⟩, fun id => ?_, nofun⟩
  · obtain ⟨hfresh, hgeneration⟩ := hcalls call hcall
    have hne : call.generation ≠ state.invalidate.generation := (Nat.lt_succ_of_le hgeneration).ne
    exact ⟨hgeneration.trans (Nat.le_succ _), by simp [hfresh, hne], by simp [hfresh]⟩
  · rintro ⟨-, call, hcall, hfresh, -⟩
    rw [hwaiting call hcall] at hfresh
    cases hfresh
  · rw [filter_eq_nil_iff.mpr fun call hcall => by simp [hwaiting call hcall]]
    exact Nat.zero_le 1

theorem Loaded.mono {next : ListerTreeState}
    (hcache : ∀ id, (state.childCache id).isSome → (next.childCache id).isSome)
    (hloading : ∀ id, (state.loading id).isSome → (next.loading id).isSome)
    (hdone : state.done ⊆ next.done) (h : state.Loaded id) : next.Loaded id := by
  rcases h with h | h | ⟨entry, hentry, h⟩
  · exact .inl (hcache id h)
  · exact .inr (.inl (hloading id h))
  · exact .inr (.inr ⟨entry, hdone hentry, h⟩)

theorem isSome_update {α : Type} {f : ListerNodeId → Option α} {value : α}
    (h : (f other).isSome) : (Function.update f id (some value) other).isSome := by
  rw [update_apply]
  split
  · rfl
  · exact h

/-- What `ensureChildren` leaves: the state is sound, the children of the node are
loaded, and so are those that were. -/
structure Ensured (state : ListerTreeState) (id : ListerNodeId) (next : ListerTreeState) :
    Prop where
  sound : next.Sound
  loaded : next.Loaded id
  kept : ∀ other, state.Loaded other → next.Loaded other
  expanded : next.expanded = state.expanded

section Ask

variable {entries : List ListerNode} (h : state.Sound)
include h

theorem Sound.known (hlower : ∀ child ∈ entries,
      state.source.height child.id < state.source.height id) (call : Asked)
    (hcall : call ∈ state.calls ∨ call = ⟨id, state.generation, entries, true⟩) :
    Known state.source state.generation call := by
  rcases hcall with hcall | rfl
  · exact h.calls call hcall
  · exact ⟨le_rfl, by simp, fun _ => hlower⟩

theorem ask_null : state.Ensured id (state.ask id .null) := by
  have hkept : ∀ other, state.Loaded other → (state.ask id .null).Loaded other :=
    fun _ => .mono (fun _ h => h) (fun _ h => h) (subset_append_left _ _)
  have hlower : ∀ child ∈ ([] : List ListerNode),
      state.source.height child.id < state.source.height id := nofun
  have hknown := h.known hlower
  refine ⟨⟨fun call hmem => hknown call ?_, fun other entries hentries => ?_, h.loading, h.single,
    fun other hother => hkept other (h.reloaded other hother)⟩, ?_, hkept, rfl⟩
  · simpa [calls, ask, Reply.entries, or_assoc] using hmem
  · obtain ⟨call, hdone, hrest⟩ := h.cached other entries hentries
    exact ⟨call, mem_append_left _ hdone, hrest⟩
  · exact .inr (.inr ⟨_, mem_concat_self, rfl, rfl, nofun⟩)

theorem ask_array (hlower : ∀ child ∈ entries,
      state.source.height child.id < state.source.height id) :
    state.Ensured id (state.ask id (.array entries)) := by
  have hkept : ∀ other, state.Loaded other → (state.ask id (.array entries)).Loaded other :=
    fun _ => .mono (fun _ => isSome_update) (fun _ h => h) (subset_append_left _ _)
  have hknown := h.known hlower
  refine ⟨⟨fun call hmem => hknown call ?_, fun other others hothers => ?_, h.loading, h.single,
    fun other hother => hkept other (h.reloaded other hother)⟩, ?_, hkept, rfl⟩
  · simpa [calls, ask, cache, Reply.entries, or_assoc] using hmem
  · change Function.update state.childCache id (some entries) other = some others at hothers
    rw [update_apply] at hothers
    split at hothers
    · rename_i hid
      exact ⟨_, mem_concat_self, rfl, hid.symm, Option.some.inj hothers⟩
    · obtain ⟨call, hdone, hrest⟩ := h.cached other others hothers
      exact ⟨call, mem_append_left _ hdone, hrest⟩
  · exact .inl (by simp [ask, cache])

theorem ask_promise (hidle : state.loading id ≠ some state.generation) (hlower : ∀ child ∈ entries,
      state.source.height child.id < state.source.height id) :
    state.Ensured id (state.ask id (.promise entries)) := by
  have hunasked : ∀ call ∈ state.waiting, call.fresh → call.id ≠ id := by
    intro call hmem hfresh hid
    exact hidle ((h.loading id state.generation).mpr ⟨rfl, call, hmem, hfresh, hid⟩)
  have hkept : ∀ other, state.Loaded other → (state.ask id (.promise entries)).Loaded other :=
    fun _ => .mono (fun _ h => h) (fun _ => isSome_update) (fun _ h => h)
  have hknown := h.known hlower
  refine ⟨⟨fun call hmem => hknown call ?_, h.cached, fun other generation => ?_, fun other => ?_,
    fun other hother => hkept other (h.reloaded other hother)⟩, ?_, hkept, rfl⟩
  · simpa [calls, ask, Reply.entries, or_assoc, or_comm, or_left_comm] using hmem
  · change Function.update state.loading id (some state.generation) other = _ ↔ _
    rw [update_apply]
    by_cases hother : other = id
    · rw [if_pos hother]
      constructor
      · rintro ⟨⟩
        exact ⟨rfl, _, mem_concat_self, rfl, hother.symm⟩
      · rintro ⟨rfl, -⟩
        rfl
    · rw [if_neg hother, h.loading]
      refine and_congr_right fun _ => exists_congr fun call => ?_
      simp only [ask, mem_append, mem_singleton, or_and_right, iff_self_or]
      rintro ⟨rfl, -, hid⟩
      exact absurd hid.symm hother
  · change (List.filter _ (state.waiting ++ [_])).length ≤ 1
    rw [filter_append, length_append]
    by_cases hother : id = other
    · subst hother
      rw [filter_eq_nil_iff.mpr]
      · exact (Nat.zero_add _).trans_le (length_filter_le _ _)
      · intro call hmem
        simpa using fun hfresh => hunasked call hmem hfresh
    · simpa [hother] using h.single other
  · exact .inr (.inl (by simp [ask]))

end Ask

theorem ensureChildren_ensured (h : state.Sound) : state.Ensured id (state.ensureChildren id) := by
  unfold ensureChildren
  split
  · rename_i hkept
    refine ⟨h, ?_, fun _ hother => hother, rfl⟩
    rcases hkept with hcached | hloading
    · exact .inl hcached
    · exact .inr (.inl (by rw [hloading]; rfl))
  · rename_i hmissing
    have hlower := state.source.lower (state.waiting.length + state.done.length) id
    cases hresult : state.source.getChildren (state.waiting.length + state.done.length) id with
    | null => exact ask_null h
    | array entries => exact ask_array h (by rwa [hresult] at hlower)
    | promise entries => exact ask_promise h (not_or.mp hmissing).2 (by rwa [hresult] at hlower)

theorem settle_sound (h : state.Sound) : (state.settle call resolved).Sound := by
  unfold settle
  split
  · rename_i hmem
    have hknown := h.calls call (mem_append_left _ hmem)
    have hlast : (call, if resolved then Outcome.answered else .rejected) ∈
        state.done ++ [(call, if resolved then .answered else .rejected)] :=
      mem_concat_self
    have hloading : call.fresh → state.loading call.id = some call.generation := fun hfresh =>
      (h.loading _ _).mpr ⟨hknown.fresh.mp hfresh, call, hmem, hfresh, rfl⟩
    -- the call that settles was the only fresh one for its node
    have halone : call.fresh → ∀ other ∈ state.waiting.erase call, other.fresh →
        other.id ≠ call.id := by
      intro hfresh other hother hotherFresh hid
      have hsplit := ((perm_cons_erase hmem).filter
        fun other => other.fresh && other.id == call.id).length_eq
      rw [filter_cons_of_pos (by simp [hfresh]), length_cons] at hsplit
      have hin : other ∈ (state.waiting.erase call).filter
          fun other => other.fresh && other.id == call.id :=
        mem_filter.mpr ⟨hother, by simp [hotherFresh, hid]⟩
      have hpos := length_pos_of_mem hin
      have := h.single call.id
      omega
    refine ⟨fun other hother => h.calls other ?_, fun id entries hentries => ?_,
      fun id generation => ?_, fun id => ?_, fun id hid => ?_⟩
    · simp only [calls, map_append, mem_append] at hother ⊢
      rcases hother with hother | hother | hother
      · exact .inl (mem_of_mem_erase hother)
      · exact .inr hother
      · exact .inl (mem_singleton.mp hother ▸ hmem)
    · have hold : ∀ entries, state.childCache id = some entries → _ := fun entries =>
        h.cached id entries
      dsimp only at hentries
      split at hentries
      · rename_i hkept
        obtain ⟨rfl, hgeneration⟩ := hkept
        rw [update_apply] at hentries
        split at hentries
        · rename_i hid
          exact ⟨call, hlast, hknown.fresh.mpr hgeneration.symm, hid.symm, Option.some.inj hentries⟩
        · obtain ⟨other, hdone, hrest⟩ := hold entries hentries
          exact ⟨other, mem_append_left _ hdone, hrest⟩
      · obtain ⟨other, hdone, hrest⟩ := hold entries hentries
        exact ⟨other, mem_append_left _ hdone, hrest⟩
    · have hsame : (¬ call.fresh ∨ id ≠ call.id) →
          ((∃ other ∈ state.waiting.erase call, other.fresh ∧ other.id = id) ↔
            ∃ other ∈ state.waiting, other.fresh ∧ other.id = id) := by
        intro hdiffers
        refine exists_congr fun other => and_congr_left fun hother => mem_erase_of_ne ?_
        rintro rfl
        rcases hdiffers with hstale | hid
        · exact hstale hother.1
        · exact hid hother.2.symm
      dsimp only
      split
      · rename_i hmarked
        have hfresh := hknown.fresh.mpr ((h.loading _ _).mp hmarked).1
        rw [update_apply]
        split
        · rename_i hid
          refine ⟨nofun, ?_⟩
          rintro ⟨-, other, hother, hotherFresh, hotherId⟩
          exact absurd (hotherId.trans hid) (halone hfresh other hother hotherFresh)
        · rename_i hid
          rw [h.loading, hsame (.inr hid)]
      · rename_i hunmarked
        rw [h.loading, hsame (.inl fun hfresh => hunmarked (hloading hfresh))]
    · exact ((erase_sublist.filter _).length_le).trans (h.single id)
    · rcases h.reloaded id hid with hcached | hwaited | ⟨entry, hentry, hnothing⟩
      · refine .inl ?_
        dsimp only
        split
        · exact isSome_update hcached
        · exact hcached
      · by_cases hdrop : state.loading call.id = some call.generation ∧ id = call.id
        · obtain ⟨hmarked, rfl⟩ := hdrop
          have hgeneration := ((h.loading _ _).mp hmarked).1
          cases resolved with
          | true => exact .inl (by simp [hgeneration])
          | false =>
            exact .inr (.inr ⟨_, hlast, hknown.fresh.mpr hgeneration, rfl, nofun⟩)
        · refine .inr (.inl ?_)
          dsimp only
          split
          · rename_i hmarked
            rwa [update_of_ne fun hid => hdrop ⟨hmarked, hid⟩]
          · exact hwaited
      · exact .inr (.inr ⟨entry, mem_append_left _ hentry, hnothing⟩)
  · exact h

theorem foldl_ensured (ids : List ListerNodeId) (h : state.Sound) :
    (ids.foldl ensureChildren state).Sound ∧
      (∀ id ∈ ids, (ids.foldl ensureChildren state).Loaded id) ∧
      (∀ id, state.Loaded id → (ids.foldl ensureChildren state).Loaded id) ∧
      (ids.foldl ensureChildren state).expanded = state.expanded := by
  induction ids generalizing state with
  | nil => exact ⟨h, nofun, fun _ h => h, rfl⟩
  | cons first ids ih =>
    have hfirst : state.Ensured first _ := ensureChildren_ensured h
    obtain ⟨hsound, hloaded, hkept, hexpanded⟩ := ih hfirst.sound
    refine ⟨hsound, fun id hid => ?_, fun id hid => hkept id (hfirst.kept id hid),
      hexpanded.trans hfirst.expanded⟩
    rcases mem_cons.mp hid with rfl | hid
    · exact hkept id hfirst.loaded
    · exact hloaded id hid

theorem reloadExpanded_sound (h : ∀ call ∈ state.calls, call.generation ≤ state.generation) :
    state.reloadExpanded.Sound := by
  obtain ⟨hsound, hloaded, -, -⟩ := foldl_ensured state.expanded (invalidate_sound h)
  exact { hsound with reloaded := hloaded }

theorem step_sound (h : state.Sound) (event : Event) : (state.step event).Sound := by
  have hbounded : ∀ call ∈ state.calls, call.generation ≤ state.generation := fun call hcall =>
    (h.calls call hcall).bounded
  cases event with
  | toggle id =>
    change (state.toggle id).Sound
    unfold toggle
    split
    · exact { h with }
    · have hexpanded : Sound { state with expanded := state.expanded ++ [id] } := { h with }
      exact (ensureChildren_ensured hexpanded).sound
  | setExpanded ids => exact { h with }
  | ensureChildren id => exact (ensureChildren_ensured h).sound
  | invalidate => exact invalidate_sound hbounded
  | reloadExpanded => exact reloadExpanded_sound hbounded
  | switchSource next =>
    refine reloadExpanded_sound fun call hcall => ?_
    change call ∈ state.outdate.calls at hcall
    rw [outdate_calls] at hcall
    obtain ⟨old, hold, rfl⟩ := mem_map.mp hcall
    exact hbounded old hold
  | settle call resolved => exact settle_sound h

theorem run_sound (h : state.Sound) (events : List Event) : (state.run events).Sound := by
  induction events generalizing state with
  | nil => exact h
  | cons event events ih => exact ih (step_sound h event)

/-! ## Shown rows -/

end Preserved

/-- The rows of a list of nodes at a depth: each node's own, followed by those of
its cached children where it is an expanded branch. -/
inductive Preorder (state : ListerTreeState) : Nat → List ListerNode → List FlatEntry → Prop
  | nil {depth : Nat} : Preorder state depth [] []
  | leaf {depth : Nat} {node : ListerNode} {nodes : List ListerNode} {rows : List FlatEntry} :
      state.shown node = none → Preorder state depth nodes rows →
      Preorder state depth (node :: nodes) (state.entry node depth :: rows)
  | branch {depth : Nat} {node : ListerNode} {nodes children : List ListerNode}
      {under rows : List FlatEntry} : state.shown node = some children →
      Preorder state (depth + 1) children under → Preorder state depth nodes rows →
      Preorder state depth (node :: nodes) (state.entry node depth :: (under ++ rows))

section Rows

variable {state : ListerTreeState} {depth level fuel bound : Nat} {node : ListerNode}
  {nodes children : List ListerNode} {rows : List FlatEntry}

theorem lower_of_shown (h : state.Sound) (hshown : state.shown node = some children) :
    ∀ child ∈ children, state.source.height child.id < state.source.height node.id := by
  unfold shown at hshown
  split at hshown
  · obtain ⟨call, hdone, hfresh, hid, rfl⟩ := h.cached _ _ hshown
    have hcall : call ∈ state.calls := mem_append_right _ (mem_map.mpr ⟨_, hdone, rfl⟩)
    exact hid ▸ (h.calls call hcall).lower hfresh
  · cases hshown

theorem walkNodes_preorder {walk : List ListerNode → List FlatEntry → Option (List FlatEntry)}
    (hwalk : ∀ node ∈ nodes, ∀ children, state.shown node = some children →
      ∃ under, state.Preorder (depth + 1) children under ∧
        ∀ rows, walk children rows = some (rows ++ under)) :
    ∃ under, state.Preorder depth nodes under ∧
      ∀ rows, state.walkNodes walk depth nodes rows = some (rows ++ under) := by
  induction nodes with
  | nil => exact ⟨[], .nil, fun rows => by rw [walkNodes, append_nil]⟩
  | cons node nodes ih =>
    obtain ⟨after, hafter, hrest⟩ := ih fun other hother => hwalk other (mem_cons_of_mem _ hother)
    cases hshown : state.shown node with
    | none =>
      refine ⟨_, .leaf hshown hafter, fun rows => ?_⟩
      simp [walkNodes, hshown, hrest]
    | some children =>
      obtain ⟨under, hunder, hchildren⟩ := hwalk node mem_cons_self children hshown
      refine ⟨_, .branch hshown hunder hafter, fun rows => ?_⟩
      simp [walkNodes, hshown, hchildren, hrest]

/-- With more fuel than the nodes are high, the walk shows the rows in pre-order. -/
theorem walk_preorder (h : state.Sound)
    (hfuel : ∀ node ∈ nodes, state.source.height node.id < fuel) :
    ∃ under, state.Preorder depth nodes under ∧
      ∀ rows, state.walk fuel depth nodes rows = some (rows ++ under) := by
  induction fuel generalizing depth nodes with
  | zero => exact walkNodes_preorder fun node hnode => absurd (hfuel node hnode) (Nat.not_lt_zero _)
  | succ fuel ih =>
    refine walkNodes_preorder fun node hnode children hshown => ih fun child hchild => ?_
    have hlower := lower_of_shown h hshown child hchild
    have hnode := hfuel node hnode
    omega

theorem Preorder.unique {others : List FlatEntry} (h : state.Preorder depth nodes rows)
    (hothers : state.Preorder depth nodes others) : others = rows := by
  induction h generalizing others with
  | nil =>
    cases hothers
    rfl
  | leaf hshown _ ih =>
    cases hothers with
    | leaf _ hrest => rw [ih hrest]
    | branch hchildren =>
      rw [hshown] at hchildren
      cases hchildren
  | branch hshown _ _ ihUnder ihRows =>
    cases hothers with
    | leaf hnone =>
      rw [hshown] at hnone
      cases hnone
    | branch hchildren hunder hrest =>
      rw [hshown] at hchildren
      cases hchildren
      rw [ihUnder hunder, ihRows hrest]

/-- The depths of rows that start at a depth and stay at or below it. -/
structure Rising (depth : Nat) (rows : List FlatEntry) : Prop where
  chain : rows.IsChain fun row next => next.depth ≤ row.depth + 1
  head : ∀ row ∈ rows.head?, row.depth = depth
  least : ∀ row ∈ rows, depth ≤ row.depth

theorem Preorder.rising (h : state.Preorder depth nodes rows) : Rising depth rows := by
  induction h with
  | nil => exact ⟨.nil, nofun, nofun⟩
  | leaf _ _ ih =>
    refine ⟨isChain_cons.mpr ⟨fun row hrow => ?_, ih.chain⟩, ?_, ?_⟩
    · exact (ih.head row hrow).le.trans (Nat.le_succ _)
    · rintro row ⟨⟩
      rfl
    · exact forall_mem_cons.mpr ⟨le_rfl, ih.least⟩
  | @branch depth node nodes children under rows _ _ _ ihUnder ihRows =>
    refine ⟨isChain_cons.mpr ⟨fun row hrow => ?_, ?_⟩, ?_, ?_⟩
    · cases under with
      | nil => exact (ihRows.head row hrow).le.trans (Nat.le_succ _)
      | cons first under => exact (ihUnder.head row hrow).le
    · refine isChain_append.mpr ⟨ihUnder.chain, ihRows.chain, fun row hrow next hnext => ?_⟩
      have hrow := ihUnder.least row (mem_of_getLast? hrow)
      rw [ihRows.head next hnext]
      omega
    · rintro row ⟨⟩
      rfl
    · refine forall_mem_cons.mpr ⟨le_rfl, fun row hrow => ?_⟩
      rcases mem_append.mp hrow with hrow | hrow
      · exact (Nat.le_succ depth).trans (ihUnder.least row hrow)
      · exact ihRows.least row hrow

end Rows

end ListerTreeState

/-- A shown row as the filter sees it. -/
def FlatEntry.filterRow (row : FlatEntry) : TreeFilterRow :=
  ⟨row.node.searchText, row.depth, row.expanded, row.node.isBranch⟩

namespace ListerTreeState

theorem Rising.outline {rows : List FlatEntry} (h : Rising 0 rows) :
    Outline (depthOf (rows.map FlatEntry.filterRow)) rows.length := by
  constructor
  · cases rows with
    | nil => rfl
    | cons row rows => exact h.head row rfl
  · intro i hi
    by_cases hnext : i + 1 < rows.length
    · have hstep := isChain_iff_getElem.mp h.chain i hnext
      simpa [depthOf, FlatEntry.filterRow, hi, hnext] using hstep
    · simp [depthOf, hnext]

theorem exists_bound (height : ListerNode → Nat) (nodes : List ListerNode) :
    ∃ bound, ∀ node ∈ nodes, height node < bound := by
  induction nodes with
  | nil => exact ⟨0, nofun⟩
  | cons first nodes ih =>
    obtain ⟨bound, hbound⟩ := ih
    refine ⟨max (height first + 1) bound, forall_mem_cons.mpr ⟨by omega, fun node hnode => ?_⟩⟩
    exact (hbound node hnode).trans_le (le_max_right _ _)

/-- What the lister shows comes from the current source, and from calls made since
the last invalidation. -/
structure Fresh (state : ListerTreeState) : Prop where
  cached : ∀ id entries, state.childCache id = some entries →
    ∃ call, (call, Outcome.answered) ∈ state.done ∧ call.fresh ∧ call.id = id ∧
      call.entries = entries
  loading : ∀ id, (state.loading id).isSome ↔ ∃ call ∈ state.waiting, call.fresh ∧ call.id = id
  single : ∀ id, (state.waiting.filter fun call => call.fresh && call.id == id).length ≤ 1
  reloaded : ∀ id ∈ state.reloaded, state.Loaded id
  rows : ∀ now, ∃ rows enough, (∀ fuel ≥ enough, state.flatten fuel now = some rows) ∧
    state.Preorder 0 (state.source.roots now) rows ∧
    Outline (depthOf (rows.map FlatEntry.filterRow)) rows.length

end ListerTreeState

end Yaade.Lister

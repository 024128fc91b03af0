import Yaade.Library.Transition

/-!
How many terminals the host keeps.
-/

namespace Yaade.Terminal.Capacity

open Yaade.Library Option List

def maxEntries : Nat := 64

/-- The identifier of a terminal: the time, and the number it drew. -/
structure TerminalId where
  millis : Nat
  number : Nat
  deriving DecidableEq

/-- A disposal: it looks the entry up, asks its owner, and removes it. -/
inductive DisposeStage where
  | looking (id : TerminalId)
  | requesting (id : TerminalId)
  | removing (id : TerminalId)
  deriving DecidableEq

/-- A create after its test of the capacity. It ends with the insertion. -/
inductive CreateStage where
  | collecting
  | searching (ids : List TerminalId)
  | inspecting (id : TerminalId) (rest : List TerminalId)
  | evicting (stage : DisposeStage)
  | spawning
  | inserting (id : TerminalId)
  deriving DecidableEq

/-- The host. `exited` are the terminals of which the process has exited,
`evicted` those that a create took out of the map. -/
structure TerminalHost where
  entries : List TerminalId
  exited : List TerminalId
  creates : List CreateStage
  disposes : List DisposeStage
  nextId : Nat
  evicted : List TerminalId
  deriving DecidableEq

/-- `create` is the test of a new call; the other steps name their call by its
place among the calls under way. An owner may fail to answer. -/
inductive HostAction where
  | create
  | collect (call : Nat)
  | search (call : Nat)
  | inspect (call : Nat) (answered : Bool)
  | evict (call : Nat) (answered : Bool)
  | spawn (call : Nat) (millis : Option Nat)
  | insert (call : Nat)
  | dispose (id : TerminalId)
  | advance (call : Nat) (answered : Bool)
  | exit (id : TerminalId)

namespace TerminalHost

def new : TerminalHost where
  entries := []
  exited := []
  creates := []
  disposes := []
  nextId := 0
  evicted := []

variable (host : TerminalHost)

def disposeStep (answered : Bool) : DisposeStage → Option DisposeStage
  | .looking id => if id ∈ host.entries then some (.requesting id) else none
  | .requesting id => if answered then some (.removing id) else none
  | .removing _ => none

def removes : DisposeStage → List TerminalId
  | .removing id => [id]
  | _ => []

def remove (ids : List TerminalId) : TerminalHost :=
  { host with entries := host.entries.filter fun id => id ∉ ids }

def setCreate (call : Nat) (stage : CreateStage) : TerminalHost :=
  { host with creates := host.creates.set call stage }

def endCreate (call : Nat) : TerminalHost :=
  { host with creates := host.creates.eraseIdx call }

def step : HostAction → Option TerminalHost
  | .create =>
    let stage := if host.entries.length ≥ maxEntries then .collecting else .spawning
    some { host with creates := host.creates ++ [stage] }
  | .collect call =>
    match host.creates[call]? with
    | some .collecting => some (host.setCreate call (.searching host.entries))
    | _ => none
  | .search call =>
    match host.creates[call]? with
    | some (.searching []) => some (host.endCreate call)
    | some (.searching (id :: rest)) => some (host.setCreate call
        (if id ∈ host.entries then .inspecting id rest else .searching rest))
    | _ => none
  | .inspect call answered =>
    match host.creates[call]? with
    | some (.inspecting id rest) => some (host.setCreate call
        (if answered ∧ id ∈ host.exited then .evicting (.looking id) else .searching rest))
    | _ => none
  | .evict call answered =>
    match host.creates[call]? with
    | some (.evicting stage) =>
      let next := match host.disposeStep answered stage with
        | some stage => CreateStage.evicting stage
        | none => .spawning
      some { (host.remove (removes stage)).setCreate call next with
        evicted := host.evicted ++ (removes stage).filter fun id => id ∈ host.entries }
    | _ => none
  | .spawn call millis =>
    match host.creates[call]? with
    | some .spawning =>
      match millis with
      | none => some (host.endCreate call)
      | some millis => some { host.setCreate call (.inserting ⟨millis, host.nextId + 1⟩) with
          nextId := host.nextId + 1 }
    | _ => none
  | .insert call =>
    match host.creates[call]? with
    | some (.inserting id) => some { host.endCreate call with entries := host.entries ++ [id] }
    | _ => none
  | .dispose id => some { host with disposes := host.disposes ++ [.looking id] }
  | .advance call answered =>
    match host.disposes[call]? with
    | some stage => some { host.remove (removes stage) with
        disposes := match host.disposeStep answered stage with
          | some stage => host.disposes.set call stage
          | none => host.disposes.eraseIdx call }
    | none => none
  | .exit id => if id ∈ host.entries then some { host with exited := host.exited ++ [id] } else none

end TerminalHost

def capacitySystem : System TerminalHost HostAction where
  initial host := host = .new
  step := TerminalHost.step

/-- Creates that passed the test fit besides the one that is tested, or there
are none; and an owner that gives no answer leaves its terminal in a host that
is not full. -/
def Fits (host : TerminalHost) : HostAction → Prop
  | .create => host.entries.length + host.creates.length < maxEntries ∨ host.creates = []
  | .evict call false => ∀ id, host.creates[call]? = some (.evicting (.requesting id)) →
      host.entries.length < maxEntries
  | _ => True

/-! ## Only terminals that have exited are evicted -/

def CreateStage.victim : CreateStage → Option TerminalId
  | .evicting (.looking id) => some id
  | .evicting (.requesting id) => some id
  | .evicting (.removing id) => some id
  | _ => none

/-- Victims and what was evicted have exited. -/
structure Exited (host : TerminalHost) : Prop where
  victims : ∀ stage ∈ host.creates, ∀ id, stage.victim = some id → id ∈ host.exited
  evicted : ∀ id ∈ host.evicted, id ∈ host.exited

variable {host next : TerminalHost}

section Evictions

theorem Exited.setCreate (h : Exited host) {call : Nat} {stage : CreateStage}
    (hstage : ∀ id, stage.victim = some id → id ∈ host.exited) : Exited (host.setCreate call stage) where
  victims other hother id hid := by
    rcases mem_or_eq_of_mem_set hother with hmem | rfl
    · exact h.victims other hmem id hid
    · exact hstage id hid
  evicted := h.evicted

theorem Exited.endCreate (h : Exited host) (call : Nat) : Exited (host.endCreate call) where
  victims other hother := h.victims other (mem_of_mem_eraseIdx hother)
  evicted := h.evicted

theorem disposeStep_victim {stage : DisposeStage} {next : DisposeStage} {answered : Bool}
    (h : host.disposeStep answered stage = some next) :
    (CreateStage.evicting next).victim = (CreateStage.evicting stage).victim := by
  cases stage with
  | looking | requesting =>
    obtain ⟨-, hnext⟩ := ite_none_right_eq_some.mp h
    cases hnext
    rfl
  | removing id => cases h

theorem Exited.step (h : Exited host) {action : HostAction} (hstep : host.step action = some next) :
    Exited next := by
  cases action with
  | create =>
    cases hstep
    refine ⟨fun stage hstage id hid => ?_, h.evicted⟩
    rcases mem_append.mp hstage with hmem | hnew
    · exact h.victims stage hmem id hid
    · rw [mem_singleton.mp hnew] at hid
      split at hid <;> cases hid
  | collect call =>
    simp only [TerminalHost.step] at hstep
    split at hstep
    · cases hstep
      exact h.setCreate fun id hid => nomatch hid
    · cases hstep
  | search call =>
    simp only [TerminalHost.step] at hstep
    split at hstep
    · cases hstep
      exact h.endCreate call
    · cases hstep
      refine h.setCreate fun id hid => ?_
      split at hid <;> cases hid
    · cases hstep
  | inspect call answered =>
    simp only [TerminalHost.step] at hstep
    split at hstep
    · cases hstep
      refine h.setCreate fun id hid => ?_
      split at hid
      · rename_i hexited
        cases hid
        exact hexited.2
      · cases hid
    · cases hstep
  | evict call answered =>
    simp only [TerminalHost.step] at hstep
    split at hstep
    · rename_i stage hstage
      cases hstep
      have hvictim := h.victims _ (mem_of_getElem? hstage)
      have hset : Exited ((host.remove (TerminalHost.removes stage)).setCreate call
          (match host.disposeStep answered stage with
            | some stage => .evicting stage
            | none => .spawning)) := by
        have hrem : Exited (host.remove (TerminalHost.removes stage)) := ⟨h.victims, h.evicted⟩
        refine hrem.setCreate fun id hid => ?_
        split at hid
        · rename_i next hnext
          exact hvictim id ((disposeStep_victim hnext).symm.trans hid)
        · cases hid
      refine ⟨hset.victims, fun id hid => ?_⟩
      rcases mem_append.mp hid with hold | hnew
      · exact h.evicted id hold
      cases stage with
      | looking other | requesting other => cases hnew
      | removing other =>
        obtain rfl := mem_singleton.mp (mem_filter.mp hnew).1
        exact hvictim id rfl
    · cases hstep
  | spawn call millis =>
    simp only [TerminalHost.step] at hstep
    split at hstep
    · split at hstep
      · cases hstep
        exact h.endCreate call
      cases hstep
      rename_i time
      have hset : Exited (host.setCreate call (.inserting ⟨time, host.nextId + 1⟩)) :=
        h.setCreate fun id hid => nomatch hid
      exact ⟨hset.victims, hset.evicted⟩
    · cases hstep
  | insert call =>
    simp only [TerminalHost.step] at hstep
    split at hstep
    · cases hstep
      exact ⟨(h.endCreate call).victims, h.evicted⟩
    · cases hstep
  | dispose id =>
    cases hstep
    exact ⟨h.victims, h.evicted⟩
  | advance call answered =>
    simp only [TerminalHost.step] at hstep
    split at hstep
    · cases hstep
      exact ⟨h.victims, h.evicted⟩
    · cases hstep
  | exit id =>
    obtain ⟨-, hnext⟩ := ite_none_right_eq_some.mp hstep
    cases hnext
    exact ⟨fun stage hstage other hother =>
      mem_append_left _ (h.victims stage hstage other hother),
      fun other hother => mem_append_left _ (h.evicted other hother)⟩

end Evictions

/-! ## The host is never over its capacity -/

def CreateStage.Evicts (entries : List TerminalId) : CreateStage → Prop
  | .collecting | .searching _ => True
  | .inspecting id _ => id ∈ entries
  | .evicting (.looking id) | .evicting (.requesting id) | .evicting (.removing id) =>
    id ∈ entries
  | .spawning | .inserting _ => False

def Roomy (host : TerminalHost) : Prop :=
  host.entries.length + host.creates.length ≤ maxEntries ∨
    host.entries.length ≤ maxEntries ∧ ∃ stage, host.creates = [stage] ∧ stage.Evicts host.entries

section Room

theorem Roomy.entries_le (h : Roomy host) : host.entries.length ≤ maxEntries := by
  rcases h with hfits | ⟨hfull, -⟩
  · omega
  · exact hfull

theorem remove_length_le (host : TerminalHost) (ids : List TerminalId) :
    (host.remove ids).entries.length ≤ host.entries.length :=
  length_filter_le _ _

section

variable (h : Roomy host)
include h

theorem Roomy.setCreate {call : Nat} {stage next : CreateStage}
    (hcall : host.creates[call]? = some stage)
    (hnext : host.creates = [stage] → host.entries.length = maxEntries →
      stage.Evicts host.entries → next.Evicts host.entries) : Roomy (host.setCreate call next) := by
  have hlength : (host.setCreate call next).creates.length = host.creates.length := length_set
  by_cases hfits : host.entries.length + host.creates.length ≤ maxEntries
  · left
    rw [hlength]
    exact hfits
  rcases h with hroom | ⟨hfull, first, hcreates, hevicts⟩
  · exact absurd hroom hfits
  right
  have hzero : call = 0 := by
    by_contra hne
    have hnone : host.creates[call]? = none := by
      rw [hcreates, List.getElem?_eq_none_iff, length_singleton]
      omega
    rw [hnone] at hcall
    cases hcall
  subst hzero
  rw [hcreates, getElem?_cons_zero, Option.some.injEq] at hcall
  subst hcall
  rw [hcreates, length_singleton] at hfits
  have hlimit : host.entries.length = maxEntries := by omega
  refine ⟨hfull, next, ?_, hnext hcreates hlimit hevicts⟩
  show host.creates.set 0 next = [next]
  rw [hcreates]
  rfl

theorem Roomy.endCreate {call : Nat} {stage : CreateStage}
    (hcall : host.creates[call]? = some stage) : Roomy (host.endCreate call) := by
  have hlength : (host.endCreate call).creates.length + 1 = host.creates.length := by
    obtain ⟨hless, -⟩ := List.getElem?_eq_some_iff.mp hcall
    have herase : (host.creates.eraseIdx call).length = host.creates.length - 1 :=
      length_eraseIdx_of_lt hless
    show (host.creates.eraseIdx call).length + 1 = host.creates.length
    omega
  left
  show host.entries.length + (host.endCreate call).creates.length ≤ maxEntries
  rcases h with hfits | ⟨hfull, first, hcreates, -⟩
  · omega
  · rw [hcreates, length_singleton] at hlength
    omega

theorem Roomy.remove (ids : List TerminalId) : Roomy (host.remove ids) := by
  have hle := remove_length_le host ids
  rcases h with hfits | ⟨hfull, stage, hcreates, hevicts⟩
  · left
    show (host.remove ids).entries.length + host.creates.length ≤ maxEntries
    omega
  by_cases hsame : (host.remove ids).entries.length = host.entries.length
  · have hentries : (host.remove ids).entries = host.entries :=
      List.Sublist.eq_of_length filter_sublist hsame
    refine .inr ⟨hentries ▸ hfull, stage, hcreates, ?_⟩
    rw [hentries]
    exact hevicts
  · left
    show (host.remove ids).entries.length + host.creates.length ≤ maxEntries
    rw [hcreates, length_singleton]
    omega

theorem Roomy.insert {call : Nat} {id : TerminalId}
    (hcall : host.creates[call]? = some (.inserting id)) :
    Roomy { host.endCreate call with entries := host.entries ++ [id] } := by
  obtain ⟨hless, hget⟩ := List.getElem?_eq_some_iff.mp hcall
  have hcreates : (host.creates.eraseIdx call).length = host.creates.length - 1 :=
    length_eraseIdx_of_lt hless
  have hentries : (host.entries ++ [id]).length = host.entries.length + 1 := length_append
  left
  show (host.entries ++ [id]).length + (host.creates.eraseIdx call).length ≤ maxEntries
  rcases h with hfits | ⟨-, first, hfirst, hevicts⟩
  · omega
  -- a create that makes room is not at its insertion
  have hinserting : CreateStage.inserting id ∈ [first] := hfirst ▸ mem_of_getElem? hcall
  rw [← mem_singleton.mp hinserting] at hevicts
  exact hevicts.elim

theorem Roomy.evict {call : Nat} {stage : DisposeStage} {answered : Bool}
    (hcall : host.creates[call]? = some (.evicting stage))
    (hfits : Fits host (.evict call answered)) :
    Roomy ((host.remove (TerminalHost.removes stage)).setCreate call
      (match host.disposeStep answered stage with
        | some stage => .evicting stage
        | none => .spawning)) := by
  have hrem : (host.remove (TerminalHost.removes stage)).creates[call]? =
      some (.evicting stage) := hcall
  refine (h.remove _).setCreate hrem ?_
  intro hcreates hlimit hevicts
  cases stage with
  | looking id =>
    have hmem : id ∈ host.entries := (mem_filter.mp hevicts).1
    simp only [TerminalHost.disposeStep, if_pos hmem]
    exact hevicts
  | requesting id =>
    cases answered with
    | true => exact hevicts
    | false =>
      -- the host was not full when the owner gave no answer
      have hless := hfits id hcall
      have hle := remove_length_le host (TerminalHost.removes (.requesting id))
      omega
  | removing id =>
    have hmem := (mem_filter.mp hevicts).2
    simp [TerminalHost.removes] at hmem

theorem Roomy.step {action : HostAction} (hfits : Fits host action)
    (hstep : host.step action = some next) : Roomy next := by
  cases action with
  | create =>
    cases hstep
    have hlength : (host.creates ++ [if host.entries.length ≥ maxEntries then CreateStage.collecting
        else .spawning]).length = host.creates.length + 1 := length_append
    have hle := h.entries_le
    by_cases hfull : host.entries.length ≥ maxEntries
    · right
      have hnone : host.creates = [] := by
        rcases hfits with hroom | hnone
        · omega
        · exact hnone
      refine ⟨hle, .collecting, ?_, trivial⟩
      rw [if_pos hfull, hnone, nil_append]
    · left
      show host.entries.length + (host.creates ++ [_]).length ≤ maxEntries
      rw [hlength]
      rcases hfits with hroom | hnone
      · omega
      · rw [hnone, length_nil]
        omega
  | collect call =>
    simp only [TerminalHost.step] at hstep
    split at hstep
    · rename_i hcall
      cases hstep
      exact h.setCreate hcall fun _ _ _ => trivial
    · cases hstep
  | search call =>
    simp only [TerminalHost.step] at hstep
    split at hstep
    · rename_i hcall
      cases hstep
      exact h.endCreate hcall
    · rename_i id rest hcall
      cases hstep
      refine h.setCreate hcall fun _ _ _ => ?_
      split
      · assumption
      · trivial
    · cases hstep
  | inspect call answered =>
    simp only [TerminalHost.step] at hstep
    split at hstep
    · rename_i id rest hcall
      cases hstep
      refine h.setCreate hcall fun hcreates hlimit hevicts => ?_
      split
      · exact hevicts
      · trivial
    · cases hstep
  | evict call answered =>
    simp only [TerminalHost.step] at hstep
    split at hstep
    · rename_i stage hcall
      cases hstep
      exact h.evict hcall hfits
    · cases hstep
  | spawn call millis =>
    simp only [TerminalHost.step] at hstep
    split at hstep
    · rename_i hcall
      split at hstep
      · cases hstep
        exact h.endCreate hcall
      cases hstep
      rename_i time
      have hset : Roomy (host.setCreate call (.inserting ⟨time, host.nextId + 1⟩)) :=
        h.setCreate hcall fun _ _ hevicts => hevicts
      exact hset
    · cases hstep
  | insert call =>
    simp only [TerminalHost.step] at hstep
    split at hstep
    · rename_i id hcall
      cases hstep
      exact h.insert hcall
    · cases hstep
  | dispose id =>
    cases hstep
    exact h
  | advance call answered =>
    simp only [TerminalHost.step] at hstep
    split at hstep
    · rename_i stage hcall
      cases hstep
      exact h.remove _
    · cases hstep
  | exit id =>
    obtain ⟨-, hnext⟩ := ite_none_right_eq_some.mp hstep
    cases hnext
    exact h

end

end Room

/-- In every interleaving only terminals of which the process has exited are
evicted. The host stays within its capacity as long as creates fit besides each
other when they are tested, and owners answer when the host is full. -/
theorem capacity_kept {host : TerminalHost} (hreachable : capacitySystem.Reachable host) :
    (∀ id ∈ host.evicted, id ∈ host.exited) ∧
      (capacitySystem.Run Fits host → host.entries.length ≤ maxEntries) := by
  constructor
  · have hexited : Exited host := by
      refine System.Run.invariant ?_ (fun _ _ _ h _ hstep => h.step hstep) hreachable
      rintro _ rfl
      constructor
      · intro stage hstage
        cases hstage
      · intro id hid
        cases hid
    exact hexited.evicted
  · intro hrun
    have hroomy : Roomy host := by
      refine System.Run.invariant ?_ (fun _ _ _ h hfits hstep => h.step hfits hstep) hrun
      rintro _ rfl
      exact .inl (Nat.zero_le maxEntries)
    exact hroomy.entries_le

/-! ## Full hosts -/

def fill (count : Nat) : List HostAction :=
  (List.range count).flatMap fun _ => [.create, .spawn 0 (some 0), .insert 0]

def replaced : List HostAction :=
  fill maxEntries ++ [.exit ⟨0, 1⟩, .create, .collect 0, .search 0, .inspect 0 true, .evict 0 true,
    .evict 0 true, .evict 0 true, .spawn 0 (some 0), .insert 0]

def crowded : List HostAction :=
  List.replicate (maxEntries + 1) .create ++
    (List.range (maxEntries + 1)).map (fun call => .spawn call (some 0)) ++
    List.replicate (maxEntries + 1) (.insert 0)

def fits (host : TerminalHost) : HostAction → Bool
  | .create => decide (host.entries.length + host.creates.length < maxEntries ∨ host.creates = [])
  | .evict _ answered => answered
  | _ => true

theorem fits_of_check {host : TerminalHost} {action : HostAction}
    (h : fits host action = true) : Fits host action := by
  cases action with
  | create =>
    have hroom : host.entries.length + host.creates.length < maxEntries ∨ host.creates = [] :=
      of_decide_eq_true h
    exact hroom
  | evict call answered =>
    cases answered with
    | true => trivial
    | false => cases h
  | _ => trivial

theorem capacity_kept_replaced : ∃ host, capacitySystem.Run Fits host ∧
    host.evicted = [⟨0, 1⟩] ∧ (∀ id ∈ host.evicted, id ∈ host.exited) ∧
      host.entries.length ≤ maxEntries := by
  have hany : (capacitySystem.replay fits .new replaced).any
      (fun host => decide (host.evicted = [⟨0, 1⟩])) = true := by decide +kernel
  obtain ⟨host, hhost, hevicted⟩ := (any_eq_true _ _).mp hany
  have hrun : capacitySystem.Run Fits host :=
    System.replay_run (System.Run.start rfl) (fun _ _ _ => fits_of_check) hhost
  have hkept := capacity_kept hrun.reachable
  exact ⟨host, hrun, of_decide_eq_true hevicted, hkept.1, hkept.2 hrun⟩

theorem capacity_exceeded : ¬ ∀ host, capacitySystem.Reachable host →
    host.entries.length ≤ maxEntries ∧ ∀ id ∈ host.evicted, id ∈ host.exited := by
  intro hall
  have hany : (capacitySystem.replay (fun _ _ => true) .new crowded).any
      (fun host => decide (maxEntries < host.entries.length)) = true := by decide +kernel
  obtain ⟨host, hhost, hover⟩ := (any_eq_true _ _).mp hany
  have hreached : capacitySystem.Reachable host :=
    System.replay_run (System.Run.start rfl) (fun _ _ _ _ => trivial) hhost
  exact absurd (hall host hreached).1 (Nat.not_le.mpr (of_decide_eq_true hover))

end Yaade.Terminal.Capacity

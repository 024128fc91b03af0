import Yaade.Workers.Leases

/-!
The leases of render updates.
-/

namespace Yaade.Workers.RenderLeases

open Yaade.Library Yaade.Render Option List

/-- The builder is the generation that it belongs to; storage is known by a number. -/
structure Lease where
  builder : Nat
  slotId : Nat
  leaseToken : Nat
  storage : Nat
  deriving DecidableEq

def Lease.held (lease : Lease) : Nat × Nat := (lease.slotId, lease.leaseToken)

def Lease.key (lease : Lease) : Nat × Nat × Nat := (lease.builder, lease.held)

/-- The builder with its owners, the messages from and to the worker and the
updates that were obtained, with their `released` flags. `issued` are all leases
ever built, `reclaimed` those whose return was accepted. -/
structure World where
  builder : Nat
  slots : List BuilderSlot
  storages : List Nat
  owners : List Lease
  fresh : Nat
  generation : Nat
  recovering : Bool
  posted : List Lease
  obtained : List (Lease × Bool)
  commands : List (Nat × Lease)
  issued : List Lease
  reclaimed : List Lease
  deriving DecidableEq

inductive Action where
  | tryBuild (grow : Bool)
  | release (lease : Lease)
  | reclaim (lease : Lease) (valid : Bool)
  | trimIdle (due : Bool)
  | fail
  | recover
  | ready
  | receive
  | releaseRenderUpdate (index : Nat) (accepted : Bool)
  | process
  deriving DecidableEq

namespace World

def create : World where
  builder := 1
  slots := List.replicate 3 ⟨false, 0⟩
  storages := [0, 1, 2]
  owners := []
  fresh := 3
  generation := 1
  recovering := false
  posted := []
  obtained := []
  commands := []
  issued := []
  reclaimed := []

def tryBuild (world : World) (grow : Bool) : World :=
  match takeSlot world.slots with
  | none => world
  | some (slotId, leaseToken, slots) =>
    let storage := if grow then world.fresh else world.storages.getD slotId 0
    let lease := ⟨world.builder, slotId, leaseToken, storage⟩
    { world with
      slots := slots
      storages := world.storages.set slotId storage
      owners := world.owners ++ [lease]
      fresh := world.fresh + 1
      posted := world.posted ++ [lease]
      issued := world.issued ++ [lease] }

def Matches (world : World) (lease : Lease) : Prop :=
  world.slots[lease.slotId]? = some ⟨true, lease.leaseToken⟩

instance (world : World) (lease : Lease) : Decidable (world.Matches lease) :=
  inferInstanceAs (Decidable (_ = _))

def reclaim (world : World) (lease : Lease) (valid : Bool) : World :=
  if world.Matches lease ∧ valid = true then
    { world with
      slots := world.slots.set lease.slotId ⟨false, lease.leaseToken⟩
      storages := world.storages.set lease.slotId lease.storage
      reclaimed := world.reclaimed ++ [lease] }
  else world

def release (world : World) (lease : Lease) : World :=
  if lease ∈ world.owners then
    { world with owners := world.owners.erase lease }.reclaim lease true
  else world

def trimIdle (world : World) (due : Bool) : World :=
  if due && !world.slots.any BuilderSlot.inFlight then
    { world with
      storages := [world.fresh, world.fresh + 1, world.fresh + 2]
      fresh := world.fresh + 3 }
  else world

def fail (world : World) : World :=
  if world.recovering then world
  else { world with recovering := true, generation := world.generation + 1 }

def releaseRenderUpdate (world : World) (index : Nat) (accepted : Bool) : World :=
  match world.obtained[index]? with
  | some (lease, false) =>
    if world.recovering then world
    else { world with
      obtained := world.obtained.set index (lease, true)
      commands := world.commands ++ if accepted then [(world.generation, lease)] else [] }
  | _ => world

def step (world : World) : Action → Option World
  | .tryBuild grow => some (world.tryBuild grow)
  | .release lease => some (world.release lease)
  | .reclaim lease valid => some (world.reclaim lease valid)
  | .trimIdle due => some (world.trimIdle due)
  | .fail => some world.fail
  | .recover =>
    if world.builder < world.generation then
      some { world with
        builder := world.generation
        slots := List.replicate 3 ⟨false, 0⟩
        storages := [world.fresh, world.fresh + 1, world.fresh + 2]
        owners := []
        fresh := world.fresh + 3 }
    else none
  | .ready =>
    if world.recovering ∧ world.builder = world.generation then
      some { world with recovering := false }
    else none
  | .receive =>
    match world.posted with
    | lease :: rest => some { world with
        posted := rest
        obtained := world.obtained ++
          if lease.builder = world.generation then [(lease, false)] else [] }
    | [] => none
  | .releaseRenderUpdate index accepted => some (world.releaseRenderUpdate index accepted)
  | .process =>
    match world.commands with
    | (generation, lease) :: rest =>
      if generation = world.builder then
        some ({ world with commands := rest }.reclaim lease true)
      else some { world with commands := rest }
    | [] => none

end World

def leaseSystem : System World Action where
  initial world := world = .create
  step := World.step

namespace World

def live (world : World) : List Lease :=
  world.issued.filter fun lease => lease.builder = world.builder ∧ lease ∉ world.reclaimed

def hasFreeSlot (world : World) : Bool := world.slots.any fun slot => !slot.inFlight

def written? (world : World) (grow : Bool) : Option Nat :=
  (takeSlot world.slots).map fun taken =>
    if grow then world.fresh else world.storages.getD taken.1 0

/-- At most three leases are in flight, each in its slot until it is returned;
no storage of a lease that was not returned is written; a lease is reclaimed
once, and when all were given back there is a free slot. -/
structure Exclusive (world : World) : Prop where
  few : world.live.length ≤ 3
  occupied : ∀ lease ∈ world.live, world.Matches lease
  unwritten : ∀ lease ∈ world.issued, lease ∉ world.reclaimed → ∀ grow,
    world.written? grow ≠ some lease.storage
  once : world.reclaimed.Nodup
  free : world.commands = [] →
    (∀ lease ∈ world.issued, lease.builder = world.builder →
      lease ∈ world.reclaimed ∨ (lease, true) ∈ world.obtained) → world.hasFreeSlot = true

end World

/-- A lease that comes back is one of the builder, or matches no slot; the queue
to the worker takes each return. -/
def Own (world : World) : Action → Prop
  | .process => ∀ generation lease rest, world.commands = (generation, lease) :: rest →
      generation = world.builder → lease.builder = world.builder ∨ ¬ world.Matches lease
  | .reclaim lease _ =>
    (lease ∈ world.issued ∧ lease.builder = world.builder) ∨ ¬ world.Matches lease
  | .releaseRenderUpdate _ accepted => accepted = true
  | _ => True

namespace World

/-- The slots are those of the live leases, and each slot has storage of its own. -/
structure Slotted (world : World) : Prop where
  leased : Leased world.slots (world.live.map Lease.held)
  covered : ∀ index leaseToken, world.slots[index]? = some ⟨true, leaseToken⟩ →
    ∃ lease ∈ world.live, lease.held = (index, leaseToken)
  three : world.slots.length = 3
  tokens : ∀ lease ∈ world.issued, lease.builder = world.builder →
    ∃ slot, world.slots[lease.slotId]? = some slot ∧ lease.leaseToken ≤ slot.leaseToken

structure Stored (world : World) : Prop where
  counted : world.storages.length = 3
  apart : ∀ (index other storage : Nat), world.storages[index]? = some storage →
    world.storages[other]? = some storage → index = other
  below : ∀ (index storage : Nat), world.storages[index]? = some storage → storage < world.fresh
  issuedBelow : ∀ lease ∈ world.issued, lease.storage < world.fresh
  own : ∀ lease ∈ world.live, world.storages[lease.slotId]? = some lease.storage
  earlier : ∀ lease ∈ world.issued, lease ∉ world.reclaimed → lease.builder ≠ world.builder →
    ∀ index : Nat, world.storages[index]? ≠ some lease.storage

/-- Where the messages and the updates that were obtained come from. -/
structure Known (world : World) : Prop where
  issuedOnce : (world.issued.map Lease.key).Nodup
  reclaimedOnce : world.reclaimed.Nodup
  returned : ∀ lease ∈ world.reclaimed, lease ∈ world.issued
  past : ∀ lease ∈ world.issued, lease.builder ≤ world.builder
  current : world.builder ≤ world.generation
  settled : world.recovering = false → world.builder = world.generation
  owned : ∀ lease ∈ world.owners, lease ∈ world.issued ∧ lease.builder = world.builder
  sent : ∀ lease ∈ world.posted, lease ∈ world.issued
  known : ∀ entry ∈ world.obtained, entry.1 ∈ world.issued
  ordered : ∀ command ∈ world.commands, command.2 ∈ world.issued

def Under (world : World) : Prop :=
  ∀ lease, (lease, true) ∈ world.obtained → lease.builder = world.builder →
    lease ∈ world.reclaimed ∨ (world.builder, lease) ∈ world.commands

structure Sound (world : World) : Prop extends Slotted world, Stored world, Known world where
  under : world.Under

section Steps

variable {world world' : World} {lease : Lease}

theorem mem_live : lease ∈ world.live ↔
    lease ∈ world.issued ∧ lease.builder = world.builder ∧ lease ∉ world.reclaimed := by
  simp [live]

theorem Known.eq_of_key (h : Known world) {other : Lease} (hlease : lease ∈ world.issued)
    (hother : other ∈ world.issued) (hkey : lease.key = other.key) : lease = other :=
  inj_on_of_nodup_map h.issuedOnce hlease hother hkey

theorem Sound.live_of_matches (h : Sound world) (hiss : lease ∈ world.issued)
    (hbuilder : lease.builder = world.builder) (hmatches : world.Matches lease) :
    lease ∈ world.live := by
  obtain ⟨other, hother, hheld⟩ := h.covered _ _ hmatches
  have hmem := mem_live.mp hother
  have hkey : other.key = lease.key := by
    unfold Lease.key
    rw [hheld, hmem.2.1, hbuilder]
    rfl
  rwa [← h.eq_of_key hmem.1 hiss hkey]

theorem Slotted.matches_of_live (h : Slotted world) (hlive : lease ∈ world.live) :
    world.Matches lease := h.leased.flight _ (List.mem_map_of_mem hlive)

theorem sound_create : Sound create where
  leased := ⟨forall_mem_nil _, nodup_nil⟩
  covered index leaseToken hget := by
    cases eq_of_mem_replicate (mem_of_getElem? hget)
  three := rfl
  tokens _ hmem := absurd hmem not_mem_nil
  counted := rfl
  apart index other storage hindex hother := by
    have hnodup : create.storages.Nodup := by decide
    exact (getElem?_inj (List.getElem?_eq_some_iff.mp hindex).1 hnodup).mp
      (hindex.trans hother.symm)
  below index storage hget := by
    have hall : ∀ storage ∈ create.storages, storage < create.fresh := by decide
    exact hall storage (mem_of_getElem? hget)
  issuedBelow _ hmem := absurd hmem not_mem_nil
  own _ hmem := absurd hmem not_mem_nil
  earlier _ hmem := absurd hmem not_mem_nil
  issuedOnce := nodup_nil
  reclaimedOnce := nodup_nil
  returned _ hmem := absurd hmem not_mem_nil
  past _ hmem := absurd hmem not_mem_nil
  current := le_rfl
  settled _ := rfl
  owned _ hmem := absurd hmem not_mem_nil
  sent _ hmem := absurd hmem not_mem_nil
  known _ hmem := absurd hmem not_mem_nil
  ordered _ hmem := absurd hmem not_mem_nil
  under _ hmem := absurd hmem not_mem_nil

theorem stored_fresh {fresh : Nat} (hstorages : world.storages = [fresh, fresh + 1, fresh + 2])
    (hfresh : world.fresh = fresh + 3) (hbelow : ∀ lease ∈ world.issued, lease.storage < fresh)
    (hnone : ∀ lease ∈ world.issued, lease.builder = world.builder → lease ∈ world.reclaimed) :
    Stored world := by
  have hmem : ∀ {index storage : Nat}, world.storages[index]? = some storage →
      storage = fresh + index ∧ index < 3 := by
    intro index storage hget
    rw [hstorages] at hget
    match index, hget with
    | 0, hget => simp at hget; omega
    | 1, hget => simp at hget; omega
    | 2, hget => simp at hget; omega
    | _ + 3, hget => simp at hget
  refine ⟨?_, fun index other storage hindex hother => ?_, fun index storage hget => ?_,
    fun lease hiss => ?_, fun lease hlive => ?_, fun lease hiss _ _ index hget => ?_⟩
  · rw [hstorages]
    rfl
  · have hfirst := hmem hindex
    have hsecond := hmem hother
    omega
  · have hstorage := hmem hget
    omega
  · rw [hfresh]
    exact Nat.lt_add_right 3 (hbelow lease hiss)
  · obtain ⟨hiss, hbuilder, hout⟩ := mem_live.mp hlive
    exact absurd (hnone lease hiss hbuilder) hout
  · have hstorage := hmem hget
    have hless := hbelow lease hiss
    omega

theorem takeSlot_token {slots : List BuilderSlot} {taken : Nat × Nat × List BuilderSlot}
    (h : takeSlot slots = some taken) :
    ∃ slot, slots[taken.1]? = some slot ∧ slot.inFlight = false ∧
      taken.2.1 = slot.leaseToken + 1 := by
  induction slots generalizing taken with
  | nil => cases h
  | cons first rest ih =>
    rw [takeSlot] at h
    split at h
    · obtain ⟨later, hlater, rfl⟩ := map_eq_some_iff.mp h
      exact ih hlater
    rename_i hfirst
    cases h
    exact ⟨first, rfl, Bool.eq_false_iff.mpr hfirst, rfl⟩

section Build

variable {taken : Nat × Nat × List BuilderSlot} {storage : Nat}

def built (world : World) (taken : Nat × Nat × List BuilderSlot) (storage : Nat) : World :=
  { world with
    slots := taken.2.2
    storages := world.storages.set taken.1 storage
    owners := world.owners ++ [⟨world.builder, taken.1, taken.2.1, storage⟩]
    fresh := world.fresh + 1
    posted := world.posted ++ [⟨world.builder, taken.1, taken.2.1, storage⟩]
    issued := world.issued ++ [⟨world.builder, taken.1, taken.2.1, storage⟩] }

section

variable (h : Sound world)
include h

section

variable (htake : takeSlot world.slots = some taken)
include htake

theorem Sound.new_key : ∀ lease ∈ world.issued,
      lease.key ≠ Lease.key ⟨world.builder, taken.1, taken.2.1, storage⟩ := by
  intro lease hiss hkey
  obtain ⟨hbuilder, hheld⟩ := Prod.mk.inj hkey
  obtain ⟨hslot, htoken⟩ := Prod.mk.inj hheld
  obtain ⟨slot, hget, hle⟩ := h.tokens lease hiss hbuilder
  obtain ⟨free, hfree, -, hnext⟩ := takeSlot_token htake
  have hslot' : lease.slotId = taken.1 := hslot
  have htoken' : lease.leaseToken = taken.2.1 := htoken
  rw [hslot', hfree] at hget
  cases hget
  omega

theorem Sound.new_issued :
    (⟨world.builder, taken.1, taken.2.1, storage⟩ : Lease) ∉ world.issued := fun hmem =>
  h.new_key htake _ hmem rfl

theorem Sound.built_live : (world.built taken storage).live =
      world.live ++ [⟨world.builder, taken.1, taken.2.1, storage⟩] := by
  have hout : (⟨world.builder, taken.1, taken.2.1, storage⟩ : Lease) ∉ world.reclaimed :=
    fun hmem => h.new_issued htake (h.returned _ hmem)
  unfold live built
  dsimp only
  rw [filter_append]
  congr 1
  simp [hout]

theorem Sound.built_slotted : Slotted (world.built taken storage) where
  leased := by
    rw [h.built_live htake, map_append]
    exact (h.leased.take htake).perm (perm_append_singleton _ _).symm
  covered index leaseToken hget := by
    rw [h.built_live htake]
    rcases (takeSlot_some htake).2 index _ hget with hold | ⟨rfl, hslot⟩
    · obtain ⟨lease, hlease, hheld⟩ := h.covered index leaseToken hold
      exact ⟨lease, mem_append_left _ hlease, hheld⟩
    · cases hslot
      exact ⟨_, mem_concat_self, rfl⟩
  three := (takeSlot_some htake).1.trans h.three
  tokens lease hiss hbuilder := by
    obtain ⟨⟨free, hfree, -⟩, hslots⟩ := takeSlot_free htake
    obtain ⟨-, -, hnext⟩ := takeSlot_token htake
    have hbound : taken.1 < world.slots.length := (List.getElem?_eq_some_iff.mp hfree).1
    have hself : (world.built taken storage).slots[taken.1]? = some ⟨true, taken.2.1⟩ := by
      show taken.2.2[taken.1]? = _
      rw [hslots, getElem?_set_self hbound]
    rcases mem_snoc.mp hiss with hold | rfl
    · obtain ⟨slot, hget, hle⟩ := h.tokens lease hold hbuilder
      by_cases hslot : lease.slotId = taken.1
      · obtain ⟨same, hsame, -, hnext⟩ := takeSlot_token htake
        rw [hslot, hsame] at hget
        cases hget
        refine ⟨_, hslot ▸ hself, ?_⟩
        show lease.leaseToken ≤ taken.2.1
        omega
      · refine ⟨slot, ?_, hle⟩
        show taken.2.2[lease.slotId]? = _
        rw [hslots, getElem?_set_ne (Ne.symm hslot)]
        exact hget
    · exact ⟨_, hself, le_rfl⟩

section

variable (hstorage : storage = world.fresh ∨ world.storages[taken.1]? = some storage)
include hstorage

/-- The storage is that of the free slot, or new. -/
theorem Sound.built_stored :
    Stored (world.built taken storage) := by
  obtain ⟨⟨free, hfree, hidle⟩, -⟩ := takeSlot_free htake
  have hbound : taken.1 < world.storages.length := by
    rw [h.counted, ← h.three]
    exact (List.getElem?_eq_some_iff.mp hfree).1
  have hself : (world.storages.set taken.1 storage)[taken.1]? = some storage :=
    getElem?_set_self hbound
  have hother : ∀ {index : Nat}, index ≠ taken.1 →
      (world.storages.set taken.1 storage)[index]? = world.storages[index]? :=
    fun hne => getElem?_set_ne hne.symm
  have hbelow : storage < world.fresh + 1 := by
    rcases hstorage with rfl | hold
    · exact Nat.lt_succ_self _
    · exact Nat.lt_succ_of_lt (h.below _ _ hold)
  -- No other slot has the storage.
  have happart : ∀ {index : Nat}, index ≠ taken.1 → world.storages[index]? ≠ some storage := by
    intro index hne hget
    rcases hstorage with rfl | hold
    · exact absurd (h.below _ _ hget) (Nat.lt_irrefl _)
    · exact hne (h.apart _ _ _ hget hold)
  refine ⟨?_, fun index other kept hindex hget => ?_, fun index kept hget => ?_,
    fun lease hiss => ?_, fun lease hlive => ?_, fun lease hiss hout hbuilder index hget => ?_⟩
  · exact (length_set ..).trans h.counted
  · have hindex' : (world.storages.set taken.1 storage)[index]? = some kept := hindex
    have hget' : (world.storages.set taken.1 storage)[other]? = some kept := hget
    by_cases hfirst : index = taken.1
    · by_cases hsecond : other = taken.1
      · rw [hfirst, hsecond]
      rw [hfirst, hself] at hindex'
      rw [hother hsecond, ← hindex'] at hget'
      exact absurd hget' (happart hsecond)
    · by_cases hsecond : other = taken.1
      · rw [hsecond, hself] at hget'
        rw [hother hfirst, ← hget'] at hindex'
        exact absurd hindex' (happart hfirst)
      · rw [hother hfirst] at hindex'
        rw [hother hsecond] at hget'
        exact h.apart _ _ _ hindex' hget'
  · have hget' : (world.storages.set taken.1 storage)[index]? = some kept := hget
    show kept < world.fresh + 1
    by_cases hindex : index = taken.1
    · rw [hindex, hself] at hget'
      cases hget'
      exact hbelow
    · rw [hother hindex] at hget'
      exact Nat.lt_succ_of_lt (h.below _ _ hget')
  · rcases mem_snoc.mp hiss with hold | rfl
    · exact Nat.lt_succ_of_lt (h.issuedBelow lease hold)
    · exact hbelow
  · rw [h.built_live htake] at hlive
    rcases mem_snoc.mp hlive with hold | rfl
    · have hne : lease.slotId ≠ taken.1 := by
        intro hsame
        have hmatches := h.matches_of_live hold
        unfold Matches at hmatches
        rw [hsame, hfree] at hmatches
        cases hmatches
        cases hidle
      exact (hother hne).trans (h.own lease hold)
    · exact hself
  · have hget' : (world.storages.set taken.1 storage)[index]? = some lease.storage := hget
    have hold : lease ∈ world.issued := by
      rcases mem_append.mp hiss with hold | hnew
      · exact hold
      · rw [mem_singleton.mp hnew] at hbuilder
        exact absurd rfl hbuilder
    by_cases hindex : index = taken.1
    · rw [hindex, hself] at hget'
      rcases hstorage with rfl | hfrom
      · have hless := h.issuedBelow lease hold
        rw [← Option.some.inj hget'] at hless
        exact absurd hless (Nat.lt_irrefl _)
      · exact h.earlier lease hold hout hbuilder taken.1 (hfrom.trans hget')
    · rw [hother hindex] at hget'
      exact h.earlier lease hold hout hbuilder index hget'

theorem Sound.built :
    Sound (world.built taken storage) where
  __ := h
  toSlotted := h.built_slotted htake
  toStored := h.built_stored htake hstorage
  issuedOnce := by
    show ((world.issued ++ [_]).map Lease.key).Nodup
    rw [map_append]
    refine nodup_append.mpr ⟨h.issuedOnce, nodup_singleton _, ?_⟩
    intro key hkey other hother heq
    obtain ⟨lease, hlease, rfl⟩ := List.mem_map.mp hkey
    rw [mem_singleton.mp hother] at heq
    exact h.new_key htake lease hlease heq
  returned lease hmem := mem_append_left _ (h.returned lease hmem)
  past lease hmem := by
    rcases mem_snoc.mp hmem with hold | rfl
    · exact h.past lease hold
    · exact le_rfl
  owned lease hmem := by
    rcases mem_snoc.mp hmem with hold | rfl
    · exact ⟨mem_append_left _ (h.owned lease hold).1, (h.owned lease hold).2⟩
    · exact ⟨mem_concat_self, rfl⟩
  sent lease hmem := by
    rcases mem_append.mp hmem with hold | hnew
    · exact mem_append_left _ (h.sent lease hold)
    · exact mem_append_right _ hnew
  known entry hmem := mem_append_left _ (h.known entry hmem)
  ordered command hmem := mem_append_left _ (h.ordered command hmem)

end

end

end

end Build

theorem Sound.tryBuild (h : Sound world) (grow : Bool) : Sound (world.tryBuild grow) := by
  unfold World.tryBuild
  split
  · exact h
  rename_i slotId leaseToken slots htake
  refine h.built htake ?_
  cases grow with
  | true => exact .inl rfl
  | false =>
    obtain ⟨⟨free, hfree, -⟩, -⟩ := takeSlot_free htake
    have hbound : slotId < world.storages.length := by
      rw [h.counted, ← h.three]
      exact (List.getElem?_eq_some_iff.mp hfree).1
    right
    simp [getElem?_eq_getElem hbound]

def returnedTo (world : World) (lease : Lease) : World :=
  { world with
    slots := world.slots.set lease.slotId ⟨false, lease.leaseToken⟩
    storages := world.storages.set lease.slotId lease.storage
    reclaimed := world.reclaimed ++ [lease] }

section

variable (h : Sound world)
include h

theorem Sound.returned_live (hlive : lease ∈ world.live) :
    (lease :: (world.returnedTo lease).live).Perm world.live := by
  have hnodup : world.live.Nodup := (List.Nodup.of_map _ h.issuedOnce).filter _
  have herase : (world.returnedTo lease).live = world.live.erase lease := by
    rw [hnodup.erase_eq_filter]
    unfold live returnedTo
    dsimp only
    rw [List.filter_filter]
    refine filter_congr fun other _ => ?_
    simp only [mem_append, mem_singleton, not_or, Bool.decide_and, decide_not, Bool.and_comm]
    by_cases hsame : other = lease <;> simp [hsame]
  rw [herase]
  exact (perm_cons_erase hlive).symm

theorem Sound.returnedTo_storages (hlive : lease ∈ world.live) :
    (world.returnedTo lease).storages = world.storages := by
  refine ext_getElem? fun index => ?_
  show (world.storages.set lease.slotId lease.storage)[index]? = _
  have hown := h.own lease hlive
  by_cases hindex : lease.slotId = index
  · subst hindex
    rw [getElem?_set_self (List.getElem?_eq_some_iff.mp hown).1, hown]
  · exact getElem?_set_ne hindex

theorem Sound.returnedTo (hlive : lease ∈ world.live) : Sound (world.returnedTo lease) := by
  have hperm := h.returned_live hlive
  have hmem := mem_live.mp hlive
  have hsub : ∀ other ∈ (world.returnedTo lease).live, other ∈ world.live := fun other hother =>
    hperm.subset (mem_cons_of_mem _ hother)
  have hmatches := h.matches_of_live hlive
  have hbound := (List.getElem?_eq_some_iff.mp hmatches).1
  have hself : (world.returnedTo lease).slots[lease.slotId]? = some ⟨false, lease.leaseToken⟩ :=
    getElem?_set_self hbound
  have hother : ∀ {index : Nat}, index ≠ lease.slotId →
      (world.returnedTo lease).slots[index]? = world.slots[index]? :=
    fun hne => getElem?_set_ne hne.symm
  refine ⟨⟨?_, fun index leaseToken hget => ?_, ?_, fun other hiss hbuilder => ?_⟩,
    ⟨?_, ?_, ?_, h.issuedBelow, fun other hother => ?_, fun other hiss hout => ?_⟩,
    { h with
      reclaimedOnce := ?_
      returned := fun other hother => ?_ }, fun other hother hbuilder => ?_⟩
  · have hleased := h.leased.perm (hperm.symm.map Lease.held)
    exact hleased.reclaim ⟨false, lease.leaseToken⟩
  · by_cases hindex : index = lease.slotId
    · rw [hindex, hself] at hget
      cases hget
    rw [hother hindex] at hget
    obtain ⟨other, hlive', hheld⟩ := h.covered index leaseToken hget
    have hne : other ≠ lease := by
      rintro rfl
      exact hindex (Prod.mk.inj hheld).1.symm
    exact ⟨other, (mem_cons.mp (hperm.mem_iff.mpr hlive')).resolve_left hne, hheld⟩
  · exact (length_set ..).trans h.three
  · obtain ⟨slot, hget, hle⟩ := h.tokens other hiss hbuilder
    by_cases hindex : other.slotId = lease.slotId
    · refine ⟨_, hindex ▸ hself, ?_⟩
      rw [hindex, hmatches] at hget
      cases hget
      exact hle
    · exact ⟨slot, (hother hindex).trans hget, hle⟩
  · rw [h.returnedTo_storages hlive]
    exact h.counted
  · rw [h.returnedTo_storages hlive]
    exact h.apart
  · rw [h.returnedTo_storages hlive]
    exact h.below
  · rw [h.returnedTo_storages hlive]
    exact h.own other (hsub other hother)
  · rw [h.returnedTo_storages hlive]
    exact h.earlier other hiss fun hin => hout (mem_append_left _ hin)
  · refine nodup_append.mpr ⟨h.reclaimedOnce, nodup_singleton _, ?_⟩
    intro other hin same hsame heq
    rw [heq, mem_singleton.mp hsame] at hin
    exact hmem.2.2 hin
  · rcases mem_snoc.mp hother with hold | rfl
    · exact h.returned other hold
    · exact hmem.1
  · exact (h.under other hother hbuilder).imp_left fun hin => mem_append_left _ hin

theorem Sound.reclaim {valid : Bool}
    (hown : (lease ∈ world.issued ∧ lease.builder = world.builder) ∨ ¬ world.Matches lease) :
    Sound (world.reclaim lease valid) := by
  unfold World.reclaim
  split
  · rename_i htaken
    obtain ⟨hiss, hbuilder⟩ := hown.resolve_right fun hnot => hnot htaken.1
    exact h.returnedTo (h.live_of_matches hiss hbuilder htaken.1)
  · exact h

theorem Sound.release : Sound (world.release lease) := by
  unfold World.release
  split
  · rename_i hmem
    have hkept : Sound { world with owners := world.owners.erase lease } :=
      ⟨{ h with },
        { h with },
        { h with
          owned := fun other hother => h.owned other (mem_of_mem_erase hother) }, h.under⟩
    exact hkept.reclaim (.inl (h.owned lease hmem))
  · exact h

theorem Sound.trimIdle (due : Bool) : Sound (world.trimIdle due) := by
  unfold World.trimIdle
  split
  · rename_i hdue
    have hidle : ∀ slot ∈ world.slots, slot.inFlight = false := by
      simpa using (Bool.and_eq_true_iff.mp hdue).2
    have hreturned : ∀ lease ∈ world.issued, lease.builder = world.builder →
        lease ∈ world.reclaimed := by
      intro lease hiss hbuilder
      by_contra hout
      have hmatches := h.matches_of_live (mem_live.mpr ⟨hiss, hbuilder, hout⟩)
      have hbusy := hidle _ (mem_of_getElem? hmatches)
      cases hbusy
    exact ⟨{ h with },
      stored_fresh rfl rfl h.issuedBelow hreturned,
      { h with }, h.under⟩
  · exact h

theorem Sound.fail : Sound world.fail := by
  unfold World.fail
  split
  · exact h
  exact ⟨{ h with },
    { h with },
    { h with
      current := Nat.le_succ_of_le h.current
      settled := fun hsettl => (nomatch hsettl) }, h.under⟩

theorem Sound.recover (hstep : world.step .recover = some world') : Sound world' := by
  obtain ⟨hless, hnext⟩ := ite_none_right_eq_some.mp hstep
  have hnone : ∀ lease ∈ world.issued, lease.builder ≠ world.generation := fun lease hiss =>
    (lt_of_le_of_lt (h.past lease hiss) hless).ne
  cases hnext
  have hlive : live { world with
      builder := world.generation
      slots := List.replicate 3 ⟨false, 0⟩
      storages := [world.fresh, world.fresh + 1, world.fresh + 2]
      owners := []
      fresh := world.fresh + 3 } = [] := by
    refine filter_eq_nil_iff.mpr fun lease hiss hkept => ?_
    exact hnone lease hiss (of_decide_eq_true hkept).1
  refine ⟨⟨?_, fun index leaseToken hget => ?_, rfl, fun lease hiss hbuilder => ?_⟩,
    stored_fresh rfl rfl h.issuedBelow
      (fun lease hiss hbuilder => absurd hbuilder (hnone lease hiss)),
    { h with
      past := fun lease hiss => ?_
      current := le_rfl
      settled := fun _ => rfl
      owned := forall_mem_nil _ },
    fun lease hobtained hbuilder => ?_⟩
  · rw [hlive]
    exact ⟨forall_mem_nil _, nodup_nil⟩
  · cases eq_of_mem_replicate (mem_of_getElem? hget)
  · exact absurd hbuilder (hnone lease hiss)
  · exact (h.past lease hiss).trans hless.le
  · exact absurd hbuilder (hnone lease (h.known _ hobtained))

theorem Sound.ready (hstep : world.step .ready = some world') : Sound world' := by
  obtain ⟨⟨-, hbuilder⟩, hnext⟩ := ite_none_right_eq_some.mp hstep
  cases hnext
  exact ⟨{ h with },
    { h with },
    { h with settled := fun _ => hbuilder }, h.under⟩

end

section

variable (h : Sound world)
include h

theorem Sound.receive (hstep : world.step .receive = some world') : Sound world' := by
  simp only [World.step] at hstep
  split at hstep
  · rename_i lease rest hposted
    cases hstep
    refine ⟨{ h with },
      { h with },
      { h with
        sent := fun other hmem => h.sent other (hposted ▸ mem_cons_of_mem _ hmem)
        known := fun entry hmem => ?_ }, fun other hmem hbuilder => ?_⟩
    · rcases mem_append.mp hmem with hold | hnew
      · exact h.known entry hold
      split at hnew
      · rw [mem_singleton.mp hnew]
        exact h.sent lease (hposted ▸ mem_cons_self)
      · exact absurd hnew not_mem_nil
    · rcases mem_append.mp hmem with hold | hnew
      · exact h.under other hold hbuilder
      split at hnew
      · cases mem_singleton.mp hnew
      · exact absurd hnew not_mem_nil
  · cases hstep

theorem Sound.releaseRenderUpdate (index : Nat) : Sound (world.releaseRenderUpdate index true) := by
  unfold World.releaseRenderUpdate
  split
  · rename_i lease hget
    split
    · exact h
    rename_i hsettl
    have hbuilder := h.settled (Bool.not_eq_true _ ▸ hsettl)
    have hiss := h.known _ (mem_of_getElem? hget)
    refine ⟨{ h with },
      { h with },
      { h with
        known := fun entry hmem => ?_
        ordered := fun command hmem => ?_ }, fun other hmem hof => ?_⟩
    · rcases mem_or_eq_of_mem_set hmem with hold | rfl
      · exact h.known entry hold
      · exact hiss
    · rcases mem_snoc.mp hmem with hold | rfl
      · exact h.ordered command hold
      · exact hiss
    · rcases mem_or_eq_of_mem_set hmem with hold | heq
      · exact (h.under other hold hof).imp_right fun hsent => mem_append_left _ hsent
      cases heq
      right
      refine mem_append_right _ (mem_singleton.mpr ?_)
      rw [← hbuilder]
  · exact h

/-- What is on the way back of the builder is accepted or was. -/
theorem Sound.process (hown : Own world .process)
    (hstep : world.step .process = some world') : Sound world' := by
  simp only [World.step] at hstep
  split at hstep
  · rename_i generation lease rest hcommands
    have hiss := h.ordered _ (hcommands ▸ mem_cons_self)
    have hordered : ∀ command ∈ rest, command.2 ∈ world.issued := fun command hmem =>
      h.ordered command (hcommands ▸ mem_cons_of_mem _ hmem)
    have hunder : ∀ other, (other, true) ∈ world.obtained → other.builder = world.builder →
        other ∈ world.reclaimed ∨ (generation = world.builder ∧ other = lease) ∨
          (world.builder, other) ∈ rest := by
      intro other hmem hbuilder
      refine (h.under other hmem hbuilder).imp_right fun hsent => ?_
      rw [hcommands] at hsent
      rcases mem_cons.mp hsent with heq | hrest
      · cases heq
        exact .inl ⟨rfl, rfl⟩
      · exact .inr hrest
    have hknown : Known { world with commands := rest } := { h with ordered := hordered }
    have hslotted : Slotted { world with commands := rest } := { h with }
    have hstored : Stored { world with commands := rest } := { h with }
    split at hstep
    · rename_i hgen
      cases hstep
      by_cases hmatches : world.Matches lease
      · have hlive : lease ∈ world.live := h.live_of_matches hiss
          ((hown _ _ _ hcommands hgen).resolve_right fun hnot => hnot hmatches) hmatches
        have hback := h.returnedTo hlive
        have hreclaim : World.reclaim { world with commands := rest } lease true =
            { world.returnedTo lease with commands := rest } := if_pos ⟨hmatches, rfl⟩
        rw [hreclaim]
        refine ⟨{ hback with },
          { hback with },
          { hback with ordered := hordered },
          fun other hmem hbuilder => ?_⟩
        rcases hunder other hmem hbuilder with hin | ⟨-, rfl⟩ | hrest
        · exact .inl (mem_append_left _ hin)
        · exact .inl mem_concat_self
        · exact .inr hrest
      · have hreclaim : World.reclaim { world with commands := rest } lease true =
            { world with commands := rest } := if_neg fun htaken => hmatches htaken.1
        rw [hreclaim]
        refine ⟨hslotted, hstored, hknown, fun other hmem hbuilder => ?_⟩
        rcases hunder other hmem hbuilder with hin | ⟨-, rfl⟩ | hrest
        · exact .inl hin
        · left
          by_contra hout
          exact hmatches (h.matches_of_live (mem_live.mpr ⟨hiss, hbuilder, hout⟩))
        · exact .inr hrest
    · rename_i hgen
      cases hstep
      refine ⟨hslotted, hstored, hknown, fun other hmem hbuilder => ?_⟩
      rcases hunder other hmem hbuilder with hin | ⟨hsame, -⟩ | hrest
      · exact .inl hin
      · exact absurd hsame hgen
      · exact .inr hrest
  · cases hstep

theorem Sound.step {action : Action} (hown : Own world action)
    (hstep : world.step action = some world') : Sound world' := by
  cases action with
  | tryBuild grow =>
    cases hstep
    exact h.tryBuild grow
  | release lease =>
    cases hstep
    exact h.release
  | reclaim lease valid =>
    cases hstep
    exact h.reclaim hown
  | trimIdle due =>
    cases hstep
    exact h.trimIdle due
  | fail =>
    cases hstep
    exact h.fail
  | recover => exact h.recover hstep
  | ready => exact h.ready hstep
  | receive => exact h.receive hstep
  | releaseRenderUpdate index accepted =>
    cases hstep
    cases hown
    exact h.releaseRenderUpdate index
  | process => exact h.process hown hstep

theorem Sound.exclusive : world.Exclusive where
  few := by
    have hle := h.leased.length_le
    rwa [length_map, h.three] at hle
  occupied _ hlive := h.matches_of_live hlive
  unwritten lease hiss hout grow hwrt := by
    obtain ⟨taken, htake, hstorage⟩ := map_eq_some_iff.mp hwrt
    obtain ⟨⟨free, hfree, hidle⟩, -⟩ := takeSlot_free htake
    have hbound : taken.1 < world.storages.length := by
      rw [h.counted, ← h.three]
      exact (List.getElem?_eq_some_iff.mp hfree).1
    cases grow with
    | true =>
      have hless := h.issuedBelow lease hiss
      rw [← hstorage] at hless
      exact absurd hless (Nat.lt_irrefl _)
    | false =>
      have hget : world.storages[taken.1]? = some lease.storage := by
        rw [← hstorage]
        simp [getElem?_eq_getElem hbound]
      by_cases hbuilder : lease.builder = world.builder
      · have hlive := mem_live.mpr ⟨hiss, hbuilder, hout⟩
        have hslot := h.apart _ _ _ hget (h.own lease hlive)
        have hmatches := h.matches_of_live hlive
        unfold Matches at hmatches
        rw [← hslot, hfree] at hmatches
        cases hmatches
        cases hidle
      · exact h.earlier lease hiss hout hbuilder taken.1 hget
  once := h.reclaimedOnce
  free hcommands hreturned := by
    have hlive : world.live = [] := by
      refine eq_nil_iff_forall_not_mem.mpr fun lease hlive => ?_
      obtain ⟨hiss, hbuilder, hout⟩ := mem_live.mp hlive
      rcases hreturned lease hiss hbuilder with hin | hreleased
      · exact hout hin
      rcases h.under lease hreleased hbuilder with hin | hsent
      · exact hout hin
      · rw [hcommands] at hsent
        cases hsent
    have hbound : 0 < world.slots.length := by
      rw [h.three]
      exact Nat.succ_pos _
    refine List.any_eq_true.mpr ⟨world.slots[0], getElem_mem hbound, ?_⟩
    cases hslot : world.slots[0] with
    | mk inFlight leaseToken =>
      cases inFlight with
      | false => rfl
      | true =>
        obtain ⟨lease, hmem, -⟩ := h.covered 0 leaseToken
          ((getElem?_eq_getElem hbound).trans (congrArg some hslot))
        rw [hlive] at hmem
        cases hmem

end

end Steps

end World

/-- In every run in which leases come back to their own builder, they are exclusive. -/
theorem leases_exclusive {world : World} (hrun : leaseSystem.Run Own world) : world.Exclusive :=
  World.Sound.exclusive <| hrun.invariant
    (fun _ hinitial => hinitial ▸ World.sound_create)
    fun _ _ _ hsound hown hstep => World.Sound.step hsound hown hstep

theorem leases_exclusive_returned :
    World.Exclusive ((World.create.tryBuild false).reclaim ⟨1, 0, 1, 0⟩ true) :=
  leases_exclusive <| by
    have hcreate : leaseSystem.Run Own World.create := .start rfl
    have hbuild := hcreate.next (a := Action.tryBuild false) trivial rfl
    exact hbuild.next (a := Action.reclaim ⟨1, 0, 1, 0⟩ true) (.inl (by decide)) rfl

/-- An update from before a recovery frees the slot of one from after it. -/
theorem not_exclusive_recovered : ¬ ∀ world, leaseSystem.Reachable world → world.Exclusive := by
  intro h
  have hcreate : leaseSystem.Reachable World.create := .start rfl
  have hbuild := hcreate.next (a := Action.tryBuild false) trivial rfl
  have hreceive := hbuild.next (a := Action.receive) trivial rfl
  have hfail := hreceive.next (a := Action.fail) trivial rfl
  have hrecover := hfail.next (a := Action.recover) trivial rfl
  have hready := hrecover.next (a := Action.ready) trivial rfl
  have hagain := hready.next (a := Action.tryBuild false) trivial rfl
  have hrelease := hagain.next (a := Action.releaseRenderUpdate 0 true) trivial rfl
  have hprocess := hrelease.next (a := Action.process) trivial rfl
  exact absurd ((h _ hprocess).occupied ⟨2, 0, 1, 4⟩ (by decide)) (by decide)

end Yaade.Workers.RenderLeases

import Yaade.Terminal.Control
import Yaade.Library.Transition

/-!
What holds of the leases of a terminal in every reachable state of the
registry, and why a revoked writer lease never authorises a command again.
-/

namespace Yaade.Terminal

open Yaade.Library TerminalControlState List Option IndexMap

theorem le_nextGeneration (generation : Nat) : generation ≤ nextGeneration generation := by
  unfold nextGeneration
  split <;> omega

/-! ## One map of leases -/

/-- Each lease stands under its own id and fits; a connection holds at most one. -/
structure WellKept (fits : RuntimeTerminalLease → Prop)
    (leases : IndexMap String RuntimeTerminalLease) : Prop where
  kept : ∀ key lease, leases.get? key = some lease → lease.leaseId = key ∧ fits lease
  single : ∀ key other lease lease', leases.get? key = some lease →
    leases.get? other = some lease' → lease.principalId = lease'.principalId →
    lease.connectionId = lease'.connectionId → key = other

section Leases

variable {fits fits' : RuntimeTerminalLease → Prop}
  {leases fewer : IndexMap String RuntimeTerminalLease}

theorem heldLease_none {principalId connectionId : String}
    (h : heldLease leases principalId connectionId = none) {key : String}
    {lease : RuntimeTerminalLease} (hget : leases.get? key = some lease) :
    ¬ (lease.principalId = principalId ∧ lease.connectionId = connectionId) := by
  have hnot := find?_eq_none.mp h lease (mem_values.mpr ⟨key, hget⟩)
  simpa [RuntimeTerminalLease.heldBy] using hnot

theorem wellKept_empty : WellKept fits .empty := by
  constructor
  · intro key lease h
    cases h
  · intro key other lease lease' h
    cases h

section

variable (h : WellKept fits leases)
include h

theorem WellKept.part
    (hpart : ∀ key lease, fewer.get? key = some lease → leases.get? key = some lease) :
    WellKept fits fewer where
  kept key lease hget := h.kept key lease (hpart key lease hget)
  single key other lease lease' hkey hother :=
    h.single key other lease lease' (hpart key lease hkey) (hpart other lease' hother)

theorem WellKept.mono (hfits : ∀ lease, fits lease → fits' lease) : WellKept fits' leases where
  kept key lease hget := ⟨(h.kept key lease hget).1, hfits lease (h.kept key lease hget).2⟩
  single := h.single

theorem WellKept.retain (p : String → RuntimeTerminalLease → Bool) :
    WellKept fits (leases.retain p) :=
  h.part fun _ _ hget => (get?_retain_eq_some.mp hget).1

theorem WellKept.renew (leaseId : String) (terms : LeaseTerms)
    (hfits : ∀ lease, fits lease → fits (renewed terms lease)) :
    WellKept fits (leases.modify leaseId (renewed terms)) := by
  have hbef : ∀ key lease', (leases.modify leaseId (renewed terms)).get? key = some lease' →
      ∃ lease, leases.get? key = some lease ∧ (lease' = lease ∨ lease' = renewed terms lease) := by
    intro key lease' hget
    rw [get?_modify] at hget
    split at hget
    · obtain ⟨lease, hlease, rfl⟩ := map_eq_some_iff.mp hget
      exact ⟨lease, hlease, .inr rfl⟩
    · exact ⟨lease', hget, .inl rfl⟩
  constructor
  · intro key lease' hget
    obtain ⟨lease, hlease, rfl | rfl⟩ := hbef key lease' hget
    · exact h.kept key _ hlease
    · exact ⟨(h.kept key lease hlease).1, hfits lease (h.kept key lease hlease).2⟩
  · intro key other lease₁ lease₂ hkey hother hprincipal hcnx
    obtain ⟨before₁, hbefore₁, hlease₁⟩ := hbef key lease₁ hkey
    obtain ⟨before₂, hbefore₂, hlease₂⟩ := hbef other lease₂ hother
    apply h.single key other before₁ before₂ hbefore₁ hbefore₂
    · rcases hlease₁ with rfl | rfl <;> rcases hlease₂ with rfl | rfl <;> exact hprincipal
    · rcases hlease₁ with rfl | rfl <;> rcases hlease₂ with rfl | rfl <;> exact hcnx

theorem WellKept.insert {lease : RuntimeTerminalLease}
    (hfits : fits lease) (hheld : heldLease leases lease.principalId lease.connectionId = none) :
    WellKept fits (leases.insert lease.leaseId lease) := by
  constructor
  · intro key found hget
    rw [get?_insert] at hget
    split at hget
    · rename_i hkey
      cases hget
      exact ⟨hkey.symm, hfits⟩
    · exact h.kept key found hget
  · intro key other found found' hkey hother hprincipal hcnx
    rw [get?_insert] at hkey hother
    split at hkey <;> split at hother
    · rename_i hfirst hsecond
      rw [hfirst, hsecond]
    · cases hkey
      exact absurd ⟨hprincipal.symm, hcnx.symm⟩ (heldLease_none hheld hother)
    · cases hother
      exact absurd ⟨hprincipal, hcnx⟩ (heldLease_none hheld hkey)
    · exact h.single key other found found' hkey hother hprincipal hcnx

end

end Leases

/-! ## The primary writer -/

/-- The primary writer holds one of the writer leases, and there is none only
if there is no writer. -/
def Points (primaryWriterId : Option String) (writers : IndexMap String RuntimeTerminalLease) :
    Prop :=
  match primaryWriterId with
  | none => writers.isEmpty = true
  | some id => writers.contains id = true

section Points

variable {writers : IndexMap String RuntimeTerminalLease} {primaryWriterId : Option String}

theorem points_first (writers : IndexMap String RuntimeTerminalLease) :
    Points (writers.first?.map Prod.fst) writers := by
  cases hfirst : writers.first? with
  | none => exact first?_eq_none.mp hfirst
  | some entry => exact IndexMap.contains_iff.mpr ⟨_, first?_get? hfirst⟩

section

variable (h : Points primaryWriterId writers)
include h

theorem Points.none_iff : primaryWriterId = none ↔ writers.isEmpty = true := by
  cases primaryWriterId with
  | none => exact ⟨fun _ => h, fun _ => rfl⟩
  | some id =>
    obtain ⟨lease, hlease⟩ := IndexMap.contains_iff.mp h
    constructor
    · intro hnone
      cases hnone
    · intro hempty
      rw [IndexMap.isEmpty_iff.mp hempty id] at hlease
      cases hlease

theorem Points.renew (leaseId : String) (terms : LeaseTerms) :
    Points primaryWriterId (writers.modify leaseId (renewed terms)) := by
  cases primaryWriterId with
  | none =>
    apply IndexMap.isEmpty_iff.mpr
    intro key
    rw [get?_modify, IndexMap.isEmpty_iff.mp h key]
    simp
  | some id =>
    obtain ⟨lease, hlease⟩ := IndexMap.contains_iff.mp h
    apply IndexMap.contains_iff.mpr
    rw [get?_modify, hlease]
    split <;> exact ⟨_, rfl⟩

theorem Points.insert (lease : RuntimeTerminalLease) :
    Points (if primaryWriterId.isNone then some lease.leaseId else primaryWriterId)
      (writers.insert lease.leaseId lease) := by
  cases primaryWriterId with
  | none =>
    apply IndexMap.contains_iff.mpr
    exact ⟨lease, by simp⟩
  | some id =>
    obtain ⟨found, hfound⟩ := IndexMap.contains_iff.mp h
    apply IndexMap.contains_iff.mpr
    rw [get?_insert, hfound]
    split <;> exact ⟨_, rfl⟩

end

end Points

/-! ## One terminal -/

def WriterLease (terminalId : String) (known : String → Prop) (generation : Nat)
    (lease : RuntimeTerminalLease) : Prop :=
  lease.terminalId = terminalId ∧ lease.leaseGeneration = generation ∧ known lease.leaseId

/-- What holds of the control state of a terminal whose lease ids are all `known`. -/
structure Sound (terminalId : String) (known : String → Prop) (state : TerminalControlState) :
    Prop where
  writers : WellKept (WriterLease terminalId known state.leaseGeneration) state.writers
  observers : WellKept (fun lease => lease.terminalId = terminalId) state.observers
  primary : Points state.primaryWriterId state.writers

/-- What an operation may do to the control state of a terminal. -/
structure Proceeds (terminalId : String) (fresh : String → Prop)
    (before after : TerminalControlState) : Prop where
  generation : before.leaseGeneration ≤ after.leaseGeneration
  writers : ∀ id, after.writers.contains id = true → before.writers.contains id = true ∨ fresh id
  sound : ∀ known, (∀ id, fresh id → known id) → Sound terminalId known before →
    Sound terminalId known after

section Proceeds

variable {terminalId : String} {fresh fresh' known known' : String → Prop}
  {state middle after : TerminalControlState}

theorem Sound.mono (h : Sound terminalId known state) (hknown : ∀ id, known id → known' id) :
    Sound terminalId known' state where
  writers := h.writers.mono fun _ hlease => ⟨hlease.1, hlease.2.1, hknown _ hlease.2.2⟩
  observers := h.observers
  primary := h.primary

theorem Proceeds.refl : Proceeds terminalId fresh state state where
  generation := le_rfl
  writers _ h := .inl h
  sound _ _ h := h

theorem Proceeds.trans (h : Proceeds terminalId fresh state middle)
    (h' : Proceeds terminalId fresh middle after) : Proceeds terminalId fresh state after where
  generation := Nat.le_trans h.generation h'.generation
  writers id hid := by
    rcases h'.writers id hid with hmiddle | hfresh
    · exact h.writers id hmiddle
    · exact .inr hfresh
  sound known hfresh hsound := h'.sound known hfresh (h.sound known hfresh hsound)

theorem Proceeds.mono (h : Proceeds terminalId fresh state after)
    (hfresh : ∀ id, fresh id → fresh' id) : Proceeds terminalId fresh' state after where
  generation := h.generation
  writers id hid := Or.imp_right (hfresh id) (h.writers id hid)
  sound known hknown := h.sound known fun id hid => hknown id (hfresh id hid)

variable {p : String → RuntimeTerminalLease → Bool}

theorem retain_isEmpty {leases : IndexMap String RuntimeTerminalLease} (h : leases.isEmpty = true) :
    (leases.retain p).isEmpty = true := by
  apply IndexMap.isEmpty_iff.mpr
  intro key
  apply eq_none_iff_forall_ne_some.mpr
  intro lease hlease
  have hget := (get?_retain_eq_some.mp hlease).1
  rw [IndexMap.isEmpty_iff.mp h key] at hget
  cases hget

theorem retain_contains {leases : IndexMap String RuntimeTerminalLease} {id : String}
    (h : (leases.retain p).contains id = true) : leases.contains id = true := by
  obtain ⟨lease, hlease⟩ := IndexMap.contains_iff.mp h
  exact IndexMap.contains_iff.mpr ⟨lease, (get?_retain_eq_some.mp hlease).1⟩

theorem retain_proceeds (p q : String → RuntimeTerminalLease → Bool)
    {primaryWriterId : Option String} (hprimary : Points state.primaryWriterId state.writers →
      Points primaryWriterId (state.writers.retain p)) : Proceeds terminalId fresh state
      { state with
        writers := state.writers.retain p
        observers := state.observers.retain q
        primaryWriterId := primaryWriterId } where
  generation := le_rfl
  writers _ h := .inl (retain_contains h)
  sound _ _ h := ⟨h.writers.retain p, h.observers.retain q, hprimary h.primary⟩

theorem purge_proceeds (state : TerminalControlState) (now : Int) :
    Proceeds terminalId fresh state (state.purge now) := by
  apply retain_proceeds
  intro _
  split
  · exact points_first _
  rename_i hkept
  cases hprimary : state.primaryWriterId with
  | none => simp [hprimary] at hkept
  | some id => simpa [hprimary, Points] using hkept

theorem renewLease_proceeds (state : TerminalControlState) (leaseId : String)
    (terms : LeaseTerms) : Proceeds terminalId fresh state (state.renewLease leaseId terms).2 := by
  unfold renewLease
  split
  · constructor
    · exact le_rfl
    · intro id hid
      left
      obtain ⟨lease, hlease⟩ := IndexMap.contains_iff.mp hid
      rw [get?_modify] at hlease
      split at hlease
      · obtain ⟨found, hfound, -⟩ := map_eq_some_iff.mp hlease
        exact IndexMap.contains_iff.mpr ⟨found, hfound⟩
      · exact IndexMap.contains_iff.mpr ⟨lease, hlease⟩
    · intro known _ h
      exact ⟨h.writers.renew leaseId terms fun _ hlease => hlease, h.observers,
        h.primary.renew leaseId terms⟩
  · constructor
    · exact le_rfl
    · intro id hid
      exact .inl hid
    · intro known _ h
      exact ⟨h.writers, h.observers.renew leaseId terms fun _ hlease => hlease, h.primary⟩
  · exact .refl

theorem insertWriter_proceeds {lease : RuntimeTerminalLease} {primaryWriterId : Option String}
    (hfresh : fresh lease.leaseId) (hterm : lease.terminalId = terminalId)
    (hgen : lease.leaseGeneration = state.leaseGeneration)
    (hheld : heldLease state.writers lease.principalId lease.connectionId = none)
    (hprimary : Points state.primaryWriterId state.writers →
      Points primaryWriterId (state.writers.insert lease.leaseId lease)) :
    Proceeds terminalId fresh state
      { state with
        writers := state.writers.insert lease.leaseId lease
        primaryWriterId := primaryWriterId } where
  generation := le_rfl
  writers id hid := by
    obtain ⟨found, hfound⟩ := IndexMap.contains_iff.mp hid
    rw [get?_insert] at hfound
    split at hfound
    · rename_i hid
      rw [hid]
      exact .inr hfresh
    · exact .inl (IndexMap.contains_iff.mpr ⟨found, hfound⟩)
  sound known hknown h := by
    constructor
    · exact h.writers.insert ⟨hterm, hgen, hknown _ hfresh⟩ hheld
    · exact h.observers
    · exact hprimary h.primary

variable {observers : IndexMap String RuntimeTerminalLease}

theorem raise_proceeds
    (hempty : Points state.primaryWriterId state.writers → state.writers.isEmpty = true)
    (hobservers : ∀ key lease, observers.get? key = some lease →
      state.observers.get? key = some lease) : Proceeds terminalId fresh state
      { state with
        observers := observers
        leaseGeneration := nextGeneration state.leaseGeneration } where
  generation := le_nextGeneration _
  writers _ hid := .inl hid
  sound known _ h := by
    have hnone := IndexMap.isEmpty_iff.mp (hempty h.primary)
    constructor
    · constructor
      · intro key lease hget
        rw [hnone key] at hget
        cases hget
      · exact h.writers.single
    · exact h.observers.part hobservers
    · exact h.primary

theorem observers_proceeds
    (hobservers : WellKept (fun lease => lease.terminalId = terminalId) state.observers →
      WellKept (fun lease => lease.terminalId = terminalId) observers) :
    Proceeds terminalId fresh state { state with observers := observers } where
  generation := le_rfl
  writers _ hid := .inl hid
  sound _ _ h := ⟨h.writers, hobservers h.observers, h.primary⟩

section

variable (state : TerminalControlState)

theorem commandIds_proceeds (commandIds : IndexMap String Int) :
    Proceeds terminalId fresh state { state with commandIds := commandIds } where
  generation := le_rfl
  writers _ hid := .inl hid
  sound _ _ h := ⟨h.writers, h.observers, h.primary⟩

theorem stopObserving_proceeds (principalId connectionId : String) :
    Proceeds terminalId fresh state (state.stopObserving principalId connectionId) := by
  unfold stopObserving
  split
  · exact observers_proceeds fun h => h.retain _
  · exact .refl

theorem openGeneration_proceeds : Proceeds terminalId fresh state state.openGeneration := by
  unfold openGeneration
  split
  · rename_i hnone
    apply raise_proceeds
    · intro hpoints
      exact hpoints.none_iff.mp (isNone_iff_eq_none.mp hnone)
    · intro key lease hget
      exact hget
  · exact .refl

@[simp] theorem stopObserving_writers (principalId connectionId : String) :
    (state.stopObserving principalId connectionId).writers = state.writers := by
  unfold stopObserving
  split <;> rfl

@[simp] theorem openGeneration_writers : state.openGeneration.writers = state.writers := by
  unfold openGeneration
  split <;> rfl

section

variable (request : TerminalLeaseRequest)

theorem acquireWriter_proceeds
    (terms : LeaseTerms) (nextId : String) (hterm : request.terminalId = terminalId) :
    Proceeds terminalId
      (fun id => (state.acquireWriter request terms nextId).usedId = true ∧
        id = "lease-" ++ nextId)
      state (state.acquireWriter request terms nextId).state := by
  unfold acquireWriter
  split
  · exact renewLease_proceeds state _ terms
  rename_i hheld
  apply (stopObserving_proceeds state request.principalId request.connectionId).trans
  apply (openGeneration_proceeds _).trans
  apply insertWriter_proceeds
  · exact ⟨rfl, rfl⟩
  · exact hterm
  · rfl
  · simpa [newLease] using hheld
  · exact fun hpoints => hpoints.insert _

theorem acquireObserver_proceeds
    (terms : LeaseTerms) (nextId : String) (hterm : request.terminalId = terminalId) :
    Proceeds terminalId fresh state (state.acquireObserver request terms nextId).state := by
  unfold acquireObserver
  split
  · exact renewLease_proceeds state _ terms
  · rename_i hheld
    exact observers_proceeds fun h => h.insert hterm hheld

theorem acquire_proceeds
    (terms : LeaseTerms) (nextId : String) (hterm : request.terminalId = terminalId) :
    Proceeds terminalId
      (fun id => (state.acquire request terms nextId).usedId = true ∧ id = "lease-" ++ nextId)
      state (state.acquire request terms nextId).state := by
  apply (purge_proceeds state terms.now).trans
  unfold acquire
  cases request.mode with
  | writer => exact acquireWriter_proceeds _ request terms nextId hterm
  | observer => exact acquireObserver_proceeds _ request terms nextId hterm

end

theorem renew_proceeds (leaseId principalId connectionId : String) (terms : LeaseTerms) :
    Proceeds terminalId fresh state
      (state.renew terminalId leaseId principalId connectionId terms).state := by
  apply (purge_proceeds state terms.now).trans
  unfold renew
  simp only
  split
  · exact .refl
  split
  · exact .refl
  · exact renewLease_proceeds _ leaseId terms

theorem release_proceeds
    (leaseId principalId connectionId : String) : Proceeds terminalId fresh state
      (state.release terminalId leaseId principalId connectionId).state := by
  unfold release
  split
  · exact .refl
  split
  · exact .refl
  apply retain_proceeds
  intro hpoints
  split
  · exact points_first _
  rename_i hother
  cases hprimary : state.primaryWriterId with
  | none =>
    rw [hprimary] at hpoints
    exact retain_isEmpty hpoints
  | some id =>
    rw [hprimary] at hpoints hother
    obtain ⟨lease, hlease⟩ := IndexMap.contains_iff.mp hpoints
    have hid : id ≠ leaseId := by
      rintro rfl
      exact hother (by simp [hlease])
    exact IndexMap.contains_iff.mpr ⟨lease, get?_retain_eq_some.mpr ⟨hlease, bne_iff_ne.mpr hid⟩⟩

theorem withoutConnection_proceeds (connectionId : String) :
    Proceeds terminalId fresh state (state.withoutConnection connectionId).1 := by
  apply retain_proceeds
  intro hpoints
  cases hprimary : state.primaryWriterId with
  | none => exact points_first _
  | some id =>
    rw [filter_some]
    split
    · rename_i hkept
      rw [hprimary] at hpoints
      obtain ⟨lease, hlease⟩ := IndexMap.contains_iff.mp hpoints
      apply IndexMap.contains_iff.mpr
      refine ⟨lease, get?_retain_eq_some.mpr ⟨hlease, ?_⟩⟩
      rw [bne_iff_ne]
      intro hgone
      have hcont : (state.writers.retain fun _ lease =>
          lease.connectionId == connectionId).contains id = true :=
        IndexMap.contains_iff.mpr ⟨lease, get?_retain_eq_some.mpr ⟨hlease, beq_iff_eq.mpr hgone⟩⟩
      rw [hcont] at hkept
      cases hkept
    · exact points_first _

end

theorem heldLease_isEmpty {leases : IndexMap String RuntimeTerminalLease}
    (hempty : leases.isEmpty = true) (principalId connectionId : String) :
    heldLease leases principalId connectionId = none := by
  have hentries : leases.entries = [] := List.isEmpty_iff.mp hempty
  simp [heldLease, IndexMap.values, hentries]

theorem points_insert_self (writers : IndexMap String RuntimeTerminalLease)
    (lease : RuntimeTerminalLease) :
    Points (some lease.leaseId) (writers.insert lease.leaseId lease) :=
  IndexMap.contains_iff.mpr ⟨lease, by simp⟩

section

variable (state : TerminalControlState)

theorem promoteObserver_proceeds (terms : LeaseTerms)
    (nextId : String) (hempty : state.writers.isEmpty = true) {observer : RuntimeTerminalLease}
    (hterm : observer.terminalId = terminalId) :
    Proceeds terminalId (fun id => id = "lease-" ++ nextId) state
      (state.promoteObserver observer terms nextId) := by
  apply (raise_proceeds (fun _ => hempty) fun _ _ => get?_dropFirst_eq_some).trans
  apply insertWriter_proceeds
  · rfl
  · exact hterm
  · rfl
  · exact heldLease_isEmpty hempty _ _
  · exact fun _ => points_insert_self _ _

theorem promote_proceeds (terms : LeaseTerms) (nextId : String)
    (hempty : state.writers.isEmpty = true) : Proceeds terminalId
      (fun id => (state.promote terms nextId).2 = true ∧ id = "lease-" ++ nextId)
      state (state.promote terms nextId).1 := by
  unfold promote
  split
  · exact .refl
  rename_i key observer hfirst
  have hany := @promoteObserver_proceeds _ state terms nextId hempty observer rfl
  constructor
  · exact hany.generation
  · intro id hid
    exact (hany.writers id hid).imp_right fun hfresh => ⟨rfl, hfresh⟩
  · intro known hfresh h
    have hterm := (h.observers.kept key observer (first?_get? hfirst)).2
    exact (promoteObserver_proceeds state terms nextId hempty hterm).sound known
      (fun id hid => hfresh id ⟨rfl, hid⟩) h

theorem releaseConnection_proceeds (connectionId : String)
    (terms : LeaseTerms) (nextId : String) : Proceeds terminalId
      (fun id => (state.releaseConnection connectionId terms nextId).2 = true ∧
        id = "lease-" ++ nextId)
      state (state.releaseConnection connectionId terms nextId).1 := by
  apply (purge_proceeds state terms.now).trans
  apply (withoutConnection_proceeds _ connectionId).trans
  unfold releaseConnection
  simp only
  split
  · rename_i hlast
    exact promote_proceeds _ terms nextId (Bool.and_eq_true_iff.mp hlast).2
  · exact .refl

theorem forceTakeover_proceeds
    (epoch principalId connectionId : String) (terms : LeaseTerms) (leaseId : String) :
    Proceeds terminalId (fun id => id = "lease-" ++ leaseId) state
      (state.forceTakeover terminalId epoch principalId connectionId terms leaseId).2 := by
  have hcleared : Proceeds terminalId (fun id => id = "lease-" ++ leaseId) state
      { state with primaryWriterId := none, writers := .empty } :=
    { generation := le_rfl
      writers := fun id hid => by cases hid
      sound := fun _ _ h => ⟨wellKept_empty, h.observers, rfl⟩ }
  apply hcleared.trans
  apply (raise_proceeds (fun _ => rfl) fun _ _ hget =>
    (get?_retain_eq_some.mp hget).1).trans
  apply insertWriter_proceeds
  · rfl
  · rfl
  · rfl
  · rfl
  · exact fun _ => points_insert_self _ _

theorem forceTakeover_writers
    (epoch principalId connectionId : String) (terms : LeaseTerms) (leaseId id : String)
    (h : (state.forceTakeover terminalId epoch principalId connectionId terms
      leaseId).2.writers.contains id = true) : id = "lease-" ++ leaseId := by
  obtain ⟨lease, hlease⟩ := IndexMap.contains_iff.mp h
  simp only [forceTakeover, newLease, get?_insert] at hlease
  split at hlease
  · assumption
  · cases hlease

theorem authorizeMutation_proceeds (fence : TerminalMutationFence) (terms : LeaseTerms) :
    Proceeds terminalId fresh state (state.authorizeMutation fence terms).state := by
  apply (purge_proceeds state terms.now).trans
  unfold authorizeMutation
  simp only
  split
  · exact .refl
  split
  · exact .refl
  split
  · exact .refl
  · exact (commandIds_proceeds _ _).trans (renewLease_proceeds _ fence.leaseId terms)

end

end Proceeds

/-! ## The registry -/

def MadeBetween (makeId : Nat → String) (low high : Nat) (id : String) : Prop :=
  ∃ count, low ≤ count ∧ count < high ∧ id = "lease-" ++ makeId count

/-- What operations may do to the registry. A terminal they add starts
without leases. -/
structure Advances (before after : TerminalControlRegistry) : Prop where
  source : after.makeId = before.makeId
  made : before.made ≤ after.made
  kept : ∀ terminalId state, before.terminals.get? terminalId = some state →
    ∃ state', after.terminals.get? terminalId = some state' ∧
      Proceeds terminalId (MadeBetween before.makeId before.made after.made) state state'
  added : ∀ terminalId state', before.terminals.get? terminalId = none →
    after.terminals.get? terminalId = some state' → ∃ epoch, Proceeds terminalId
      (MadeBetween before.makeId before.made after.made) (.registered epoch) state'

section Advances

variable {registry before middle after : TerminalControlRegistry}

theorem MadeBetween.mono {makeId : Nat → String} {low low' high high' : Nat} {id : String}
    (h : MadeBetween makeId low high id) (hlow : low' ≤ low) (hhigh : high ≤ high') :
    MadeBetween makeId low' high' id := by
  obtain ⟨count, hleast, hmost, hid⟩ := h
  exact ⟨count, by omega, by omega, hid⟩

theorem advances_idle (hsource : after.makeId = before.makeId) (hmade : before.made ≤ after.made)
    (hterms : after.terminals = before.terminals) : Advances before after where
  source := hsource
  made := hmade
  kept terminalId state hstate := ⟨state, hterms ▸ hstate, .refl⟩
  added terminalId state' hnone hsome := by
    rw [hterms, hnone] at hsome
    cases hsome

theorem advances_one {id : String} {state state' : TerminalControlState}
    (hsource : after.makeId = before.makeId) (hmade : before.made ≤ after.made)
    (hterms : after.terminals = before.terminals.insert id state')
    (hstate : before.terminals.get? id = some state)
    (hproceeds : Proceeds id (MadeBetween before.makeId before.made after.made)
      state state') : Advances before after where
  source := hsource
  made := hmade
  kept other found hfound := by
    rw [hterms, get?_insert]
    split
    · rename_i hother
      rw [hother, hstate] at hfound
      cases hfound
      exact ⟨state', rfl, hother ▸ hproceeds⟩
    · exact ⟨found, hfound, .refl⟩
  added other found hnone hfound := by
    rw [hterms, get?_insert] at hfound
    split at hfound
    · rename_i hother
      rw [hother, hstate] at hnone
      cases hnone
    · rw [hnone] at hfound
      cases hfound

theorem Advances.trans (h : Advances before middle) (h' : Advances middle after) :
    Advances before after := by
  have hfirst : ∀ terminalId state state', Proceeds terminalId
      (MadeBetween before.makeId before.made middle.made) state state' → Proceeds terminalId
      (MadeBetween before.makeId before.made after.made) state state' :=
    fun _ _ _ hproceeds => hproceeds.mono fun id hid => hid.mono le_rfl h'.made
  have hsecond : ∀ terminalId state state', Proceeds terminalId
      (MadeBetween middle.makeId middle.made after.made) state state' → Proceeds terminalId
      (MadeBetween before.makeId before.made after.made) state state' := by
    intro terminalId state state' hproceeds
    rw [h.source] at hproceeds
    exact hproceeds.mono fun id hid => hid.mono h.made le_rfl
  constructor
  · exact h'.source.trans h.source
  · exact Nat.le_trans h.made h'.made
  · intro terminalId state hstate
    obtain ⟨state', hstate', hto⟩ := h.kept terminalId state hstate
    obtain ⟨state'', hstate'', hfrom⟩ := h'.kept terminalId state' hstate'
    exact ⟨state'', hstate'', (hfirst _ _ _ hto).trans (hsecond _ _ _ hfrom)⟩
  · intro terminalId state' hnone hsome
    cases hmiddle : middle.terminals.get? terminalId with
    | none =>
      obtain ⟨epoch, hadded⟩ := h'.added terminalId state' hmiddle hsome
      exact ⟨epoch, hsecond _ _ _ hadded⟩
    | some state =>
      obtain ⟨epoch, hadded⟩ := h.added terminalId state hnone hmiddle
      obtain ⟨found, hfound, hkept⟩ := h'.kept terminalId state hmiddle
      rw [hsome] at hfound
      cases hfound
      exact ⟨epoch, (hfirst _ _ _ hadded).trans (hsecond _ _ _ hkept)⟩

theorem tick_advances (registry : TerminalControlRegistry) : Advances registry registry.tick :=
  advances_idle rfl le_rfl rfl

theorem commit_advances {terminalId : String} {state state' : TerminalControlState}
    {usedId : Bool} (hstate : registry.terminals.get? terminalId = some state)
    (hproceeds : Proceeds terminalId (fun id => usedId = true ∧ id = "lease-" ++ registry.nextId)
      state state') : Advances registry (registry.commit terminalId state' usedId) := by
  apply @advances_one registry _ terminalId state state'
  · rfl
  · unfold TerminalControlRegistry.commit
    simp only
    split <;> omega
  · rfl
  · exact hstate
  · apply hproceeds.mono
    rintro id ⟨rfl, rfl⟩
    exact ⟨registry.made, le_rfl, Nat.lt_succ_self _, rfl⟩

theorem stateForEpoch_ok {id epoch : String} {state : TerminalControlState}
    (h : registry.stateForEpoch id epoch = .ok state) :
    registry.terminals.get? id = some state := by
  unfold TerminalControlRegistry.stateForEpoch TerminalControlRegistry.stateOf at h
  cases hstate : registry.terminals.get? id with
  | none => simp [hstate] at h
  | some found =>
    simp only [hstate] at h
    split at h
    · cases h
    · cases h
      rfl

theorem operate_cases {α : Type} (registry : TerminalControlRegistry)
    (id epoch : String) (operation : TerminalControlState → Outcome α) :
    (∃ error, registry.operate id epoch operation = (.error error, registry)) ∨
      ∃ state, registry.terminals.get? id = some state ∧
        registry.operate id epoch operation = ((operation state).result,
          registry.commit id (operation state).state (operation state).usedId) := by
  unfold TerminalControlRegistry.operate
  cases hstate : registry.stateForEpoch id epoch with
  | error error => exact .inl ⟨error, rfl⟩
  | ok state => exact .inr ⟨state, stateForEpoch_ok hstate, rfl⟩

theorem operate_advances {α : Type} {terminalId epoch : String}
    {operation : TerminalControlState → Outcome α} (hproceeds : ∀ state, Proceeds terminalId
      (fun id => (operation state).usedId = true ∧ id = "lease-" ++ registry.nextId)
      state (operation state).state) :
    Advances registry (registry.operate terminalId epoch operation).2 := by
  rcases operate_cases registry terminalId epoch operation with
    ⟨error, hoperate⟩ | ⟨state, hstate, hoperate⟩
  · rw [hoperate]
    exact advances_idle rfl le_rfl rfl
  · rw [hoperate]
    exact commit_advances hstate (hproceeds state)

theorem registerTerminal_advances (registry : TerminalControlRegistry) (terminalId epoch : String) :
    Advances registry (registry.registerTerminal terminalId epoch).2 := by
  have hidle : Advances registry registry := advances_idle rfl le_rfl rfl
  unfold TerminalControlRegistry.registerTerminal
  split
  · exact hidle
  split
  · split <;> exact hidle
  rename_i hnone
  constructor
  · rfl
  · exact le_rfl
  · intro other state hstate
    have hother : other ≠ terminalId := by
      rintro rfl
      rw [hnone] at hstate
      cases hstate
    exact ⟨state, by simp [TerminalControlRegistry.commit, hother, hstate], .refl⟩
  · intro other state hother hstate
    simp only [TerminalControlRegistry.commit, get?_insert] at hstate
    split at hstate
    · cases hstate
      exact ⟨epoch, .refl⟩
    · rw [hother] at hstate
      cases hstate

theorem releaseEach_advances (connectionId : String) (terms : LeaseTerms)
    (terminalIds : List String) (registry : TerminalControlRegistry) :
    Advances registry (registry.releaseEach connectionId terms terminalIds) := by
  induction terminalIds generalizing registry with
  | nil => exact advances_idle rfl le_rfl rfl
  | cons terminalId rest ih =>
    unfold TerminalControlRegistry.releaseEach
    split
    · exact ih registry
    rename_i state hstate
    exact (commit_advances hstate (releaseConnection_proceeds state connectionId terms
      registry.nextId)).trans (ih _)

section

variable (registry : TerminalControlRegistry)

theorem releaseConnection_advances (connectionId : String) :
    Advances registry (registry.releaseConnection connectionId) :=
  (tick_advances registry).trans (releaseEach_advances connectionId _ _ _)

theorem forceTakeover_cases (id epoch principalId connectionId : String) :
    (∃ error, (registry.forceTakeover id epoch principalId connectionId) =
        (.error error, { registry.tick with made := registry.made + 1 })) ∨
      ∃ state lease state', registry.terminals.get? id = some state ∧
        state.forceTakeover id epoch principalId connectionId registry.terms
          registry.nextId = (lease, state') ∧
        registry.forceTakeover id epoch principalId connectionId =
          (.ok lease, { registry.tick with
            made := registry.made + 1
            terminals := registry.terminals.insert id state' }) := by
  rcases operate_cases { registry.tick with made := registry.made + 1 } id epoch
      (fun state =>
        let taken := state.forceTakeover id epoch principalId connectionId
          registry.terms registry.nextId
        ⟨.ok taken.1, taken.2, false⟩) with ⟨error, hoperate⟩ | ⟨state, hstate, hoperate⟩
  · exact .inl ⟨error, hoperate⟩
  · exact .inr ⟨state, _, _, hstate, rfl, hoperate⟩

theorem forceTakeover_advances
    (terminalId epoch principalId connectionId : String) : Advances registry
      (registry.forceTakeover terminalId epoch principalId connectionId).2 := by
  rcases forceTakeover_cases registry terminalId epoch principalId connectionId with
    ⟨error, htakeover⟩ | ⟨state, lease, state', hstate, hstep, htakeover⟩
  · rw [htakeover]
    exact advances_idle rfl (Nat.le_succ _) rfl
  rw [htakeover]
  apply @advances_one registry _ terminalId state state'
  · rfl
  · exact Nat.le_succ _
  · rfl
  · exact hstate
  · have hproceeds := @forceTakeover_proceeds terminalId state epoch principalId
      connectionId registry.terms registry.nextId
    rw [hstep] at hproceeds
    apply hproceeds.mono
    rintro id rfl
    exact ⟨registry.made, le_rfl, Nat.lt_succ_self _, rfl⟩

theorem transfer_cases (terminalId terminalEpoch leaseId
    principalId connectionId targetPrincipalId targetConnectionId : String) :
    ∃ checked, Advances registry checked ∧
      ((∃ error, registry.transfer terminalId terminalEpoch leaseId principalId connectionId
          targetPrincipalId targetConnectionId = (.error error, checked)) ∨
        registry.transfer terminalId terminalEpoch leaseId principalId connectionId
          targetPrincipalId targetConnectionId =
            checked.forceTakeover terminalId terminalEpoch targetPrincipalId
              targetConnectionId) := by
  have hcheck : Advances registry.tick (registry.tick.operate terminalId terminalEpoch
      fun state =>
        let state := state.purge registry.terms.now
        (⟨state.transferable terminalId leaseId principalId connectionId, state, false⟩ :
          Outcome Unit)).2 :=
    operate_advances fun state => purge_proceeds state registry.terms.now
  refine ⟨_, (tick_advances registry).trans hcheck, ?_⟩
  unfold TerminalControlRegistry.transfer
  split
  · rename_i error checked hoperate
    rw [hoperate]
    exact .inl ⟨error, rfl⟩
  · rename_i checked hoperate
    rw [hoperate]
    exact .inr rfl

theorem transfer_advances (terminalId terminalEpoch leaseId
    principalId connectionId targetPrincipalId targetConnectionId : String) :
    Advances registry (registry.transfer terminalId terminalEpoch leaseId principalId connectionId
      targetPrincipalId targetConnectionId).2 := by
  obtain ⟨checked, hchecked, ⟨error, htransfer⟩ | htransfer⟩ := transfer_cases registry terminalId
    terminalEpoch leaseId principalId connectionId targetPrincipalId targetConnectionId
  · rw [htransfer]
    exact hchecked
  · rw [htransfer]
    exact hchecked.trans (forceTakeover_advances checked _ _ _ _)

end

theorem stateOf_ok {id : String} {state : TerminalControlState}
    (h : registry.stateOf id = .ok state) : registry.terminals.get? id = some state := by
  unfold TerminalControlRegistry.stateOf at h
  cases hfound : registry.terminals.get? id with
  | none => simp [hfound] at h
  | some found =>
    simp only [hfound, Except.ok.injEq] at h
    rw [h]

theorem inspect_advances {α : Type} (registry : TerminalControlRegistry) (id : String)
    (read : TerminalControlState → α) : Advances registry (registry.inspect id read).2 := by
  apply (tick_advances registry).trans
  unfold TerminalControlRegistry.inspect
  split
  · exact advances_idle rfl le_rfl rfl
  · rename_i state hstate
    exact commit_advances (stateOf_ok hstate) (purge_proceeds state _)

theorem Advances.contains (h : Advances before after) {terminalId id : String}
    {state' : TerminalControlState} (hstate' : after.terminals.get? terminalId = some state')
    (hid : state'.writers.contains id = true) :
    MadeBetween before.makeId before.made after.made id ∨
      ∃ state, before.terminals.get? terminalId = some state ∧
        state.writers.contains id = true := by
  cases hstate : before.terminals.get? terminalId with
  | none =>
    obtain ⟨epoch, hadded⟩ := h.added terminalId state' hstate hstate'
    rcases hadded.writers id hid with hbef | hfresh
    · cases hbef
    · exact .inl hfresh
  | some state =>
    obtain ⟨found, hfound, hkept⟩ := h.kept terminalId state hstate
    rw [hstate'] at hfound
    cases hfound
    rcases hkept.writers id hid with hbef | hfresh
    · exact .inr ⟨state, rfl, hbef⟩
    · exact .inl hfresh

theorem sound_registered (id epoch : String) (known : String → Prop) :
    Sound id known (.registered epoch) :=
  ⟨wellKept_empty, wellKept_empty, rfl⟩

theorem Advances.sound (h : Advances before after)
    (hbef : ∀ terminalId state, before.terminals.get? terminalId = some state →
      Sound terminalId (MadeBetween before.makeId 0 before.made) state)
    {terminalId : String} {state' : TerminalControlState}
    (hstate' : after.terminals.get? terminalId = some state') :
    Sound terminalId (MadeBetween after.makeId 0 after.made) state' := by
  have hfresh : ∀ id, MadeBetween before.makeId before.made after.made id →
      MadeBetween after.makeId 0 after.made id := by
    intro id hid
    rw [h.source]
    exact hid.mono (Nat.zero_le _) le_rfl
  cases hstate : before.terminals.get? terminalId with
  | none =>
    obtain ⟨epoch, hadded⟩ := h.added terminalId state' hstate hstate'
    exact hadded.sound _ hfresh (sound_registered terminalId epoch _)
  | some state =>
    obtain ⟨found, hfound, hkept⟩ := h.kept terminalId state hstate
    rw [hstate'] at hfound
    cases hfound
    apply hkept.sound _ hfresh
    apply (hbef terminalId state hstate).mono
    intro id hid
    rw [h.source]
    exact hid.mono le_rfl h.made

end Advances

/-! ## Runs -/

inductive LeaseCall where
  | registerTerminal (terminalId terminalEpoch : String)
  | acquire (request : TerminalLeaseRequest)
  | renew (terminalId terminalEpoch leaseId principalId connectionId : String)
  | release (terminalId terminalEpoch leaseId principalId connectionId : String)
  | releaseConnection (connectionId : String)
  | forceTakeover (terminalId terminalEpoch principalId connectionId : String)
  | transfer (terminalId terminalEpoch leaseId principalId connectionId
      targetPrincipalId targetConnectionId : String)
  | authorizeMutation (fence : TerminalMutationFence)
  | writer (terminalId : String)
  | list (terminalId : String)

namespace LeaseCall

def run (registry : TerminalControlRegistry) : LeaseCall → Bool × TerminalControlRegistry
  | registerTerminal terminalId terminalEpoch =>
    (registry.registerTerminal terminalId terminalEpoch).map Except.isOk id
  | acquire request => (registry.acquire request).map Except.isOk id
  | renew terminalId terminalEpoch leaseId principalId connectionId =>
    (registry.renew terminalId terminalEpoch leaseId principalId connectionId).map Except.isOk id
  | release terminalId terminalEpoch leaseId principalId connectionId =>
    (registry.release terminalId terminalEpoch leaseId principalId connectionId).map
      Except.isOk id
  | releaseConnection connectionId => (true, registry.releaseConnection connectionId)
  | forceTakeover terminalId terminalEpoch principalId connectionId =>
    (registry.forceTakeover terminalId terminalEpoch principalId connectionId).map Except.isOk id
  | transfer terminalId terminalEpoch leaseId principalId connectionId
      targetPrincipalId targetConnectionId =>
      (registry.transfer terminalId terminalEpoch leaseId principalId connectionId
        targetPrincipalId targetConnectionId).map Except.isOk id
  | authorizeMutation fence => (registry.authorizeMutation fence).map Except.isOk id
  | writer terminalId => (registry.writer terminalId).map Except.isOk id
  | list terminalId => (registry.list terminalId).map Except.isOk id

def takesFrom : LeaseCall → Option String
  | forceTakeover terminalId _ _ _ => some terminalId
  | transfer terminalId _ _ _ _ _ _ => some terminalId
  | _ => none

theorem run_advances (registry : TerminalControlRegistry) (call : LeaseCall) :
    Advances registry (call.run registry).2 := by
  cases call with
  | registerTerminal terminalId terminalEpoch =>
    exact registerTerminal_advances registry terminalId terminalEpoch
  | acquire request =>
    exact (tick_advances registry).trans (operate_advances fun state =>
      acquire_proceeds state request registry.terms registry.nextId rfl)
  | renew terminalId terminalEpoch leaseId principalId connectionId =>
    exact (tick_advances registry).trans (operate_advances fun state =>
      renew_proceeds state leaseId principalId connectionId registry.terms)
  | release terminalId terminalEpoch leaseId principalId connectionId =>
    exact operate_advances fun state =>
      release_proceeds state leaseId principalId connectionId
  | releaseConnection connectionId => exact releaseConnection_advances registry connectionId
  | forceTakeover terminalId terminalEpoch principalId connectionId =>
    exact forceTakeover_advances registry terminalId terminalEpoch principalId connectionId
  | transfer terminalId terminalEpoch leaseId principalId connectionId
      targetPrincipalId targetConnectionId =>
      exact transfer_advances registry terminalId terminalEpoch leaseId principalId connectionId
        targetPrincipalId targetConnectionId
  | authorizeMutation fence =>
    exact (tick_advances registry).trans (operate_advances fun state =>
      authorizeMutation_proceeds state fence registry.terms)
  | writer terminalId => exact inspect_advances registry terminalId _
  | list terminalId => exact inspect_advances registry terminalId _

end LeaseCall

theorem takeover_contains {registry : TerminalControlRegistry}
    {terminalId epoch principalId connectionId : String} {state' : TerminalControlState}
    (hok : (registry.forceTakeover terminalId epoch principalId connectionId).1.isOk = true)
    (hstate' : (registry.forceTakeover terminalId epoch principalId
      connectionId).2.terminals.get? terminalId = some state')
    {id : String} (hid : state'.writers.contains id = true) : id = "lease-" ++ registry.nextId := by
  rcases forceTakeover_cases registry terminalId epoch principalId connectionId with
    ⟨error, htakeover⟩ | ⟨state, lease, after, -, hstep, htakeover⟩
  · rw [htakeover] at hok
    cases hok
  rw [htakeover] at hstate'
  simp only [get?_insert, if_true, Option.some.injEq] at hstate'
  subst hstate'
  exact forceTakeover_writers state epoch principalId connectionId registry.terms _ id
    (by rw [hstep]; exact hid)

theorem takesFrom_contains {registry : TerminalControlRegistry} {call : LeaseCall}
    {terminalId : String} (htakes : call.takesFrom = some terminalId)
    (hok : (call.run registry).1 = true) {state' : TerminalControlState}
    (hstate' : (call.run registry).2.terminals.get? terminalId = some state') {id : String}
    (hid : state'.writers.contains id = true) :
    ∃ count, registry.made ≤ count ∧ id = "lease-" ++ registry.makeId count := by
  cases call with
  | forceTakeover terminalId terminalEpoch principalId connectionId =>
    cases htakes
    exact ⟨registry.made, le_rfl, takeover_contains hok hstate' hid⟩
  | transfer terminalId terminalEpoch leaseId principalId connectionId
      targetPrincipalId targetConnectionId =>
      cases htakes
      obtain ⟨checked, hchecked, ⟨error, htransfer⟩ | htransfer⟩ := transfer_cases registry
        terminalId terminalEpoch leaseId principalId connectionId targetPrincipalId
        targetConnectionId
      · simp only [LeaseCall.run, htransfer] at hok
        cases hok
      simp only [LeaseCall.run, htransfer] at hok hstate'
      have hmade := takeover_contains hok hstate' hid
      rw [TerminalControlRegistry.nextId, hchecked.source] at hmade
      exact ⟨checked.made, hchecked.made, hmade⟩
  | _ => cases htakes

/-- The registry, every writer lease a terminal ever had, and those that a
takeover or a transfer revoked. -/
structure LeaseWorld where
  registry : TerminalControlRegistry
  issued : List RuntimeTerminalLease
  revoked : List RuntimeTerminalLease

def writerLeases (registry : TerminalControlRegistry) : List RuntimeTerminalLease :=
  registry.terminals.values.flatMap fun state => state.writers.values

def LeaseCall.revokes (issued : List RuntimeTerminalLease) (call : LeaseCall) (ok : Bool) :
    List RuntimeTerminalLease :=
  match call.takesFrom with
  | some terminalId => if ok then issued.filter fun lease => lease.terminalId == terminalId else []
  | none => []

def LeaseWorld.call (world : LeaseWorld) (call : LeaseCall) : LeaseWorld where
  registry := (call.run world.registry).2
  issued := world.issued ++ writerLeases (call.run world.registry).2
  revoked := world.revoked ++ call.revokes world.issued (call.run world.registry).1

def leaseSystem (clock : Nat → Int) (leaseTtlMs : Int) (makeId : Nat → String)
    (iso : Int → String) : System LeaseWorld LeaseCall where
  initial world :=
    world = ⟨{ TerminalControlRegistry.new clock makeId iso with leaseTtlMs := leaseTtlMs }, [], []⟩
  step world call := some (world.call call)

/-- The ids of issued leases are used up, and no revoked lease is held. -/
structure Secure (makeId : Nat → String) (world : LeaseWorld) : Prop where
  source : world.registry.makeId = makeId
  sound : ∀ terminalId state, world.registry.terminals.get? terminalId = some state →
    Sound terminalId (MadeBetween world.registry.makeId 0 world.registry.made) state
  issued : ∀ lease ∈ world.issued, MadeBetween makeId 0 world.registry.made lease.leaseId
  revoked : ∀ lease ∈ world.revoked, MadeBetween makeId 0 world.registry.made lease.leaseId ∧
    ∀ state, world.registry.terminals.get? lease.terminalId = some state →
      ¬ state.writers.contains lease.leaseId = true

section Runs

variable {clock : Nat → Int} {leaseTtlMs : Int} {makeId : Nat → String} {iso : Int → String}
  {world : LeaseWorld}

section

variable (hfresh : Function.Injective makeId)
include hfresh

theorem MadeBetween.disjoint {made : Nat} {id : String}
    (h : MadeBetween makeId 0 made id) {count : Nat} (hcount : made ≤ count) :
    id ≠ "lease-" ++ makeId count := by
  obtain ⟨earlier, -, hlt, rfl⟩ := h
  intro heq
  have hsame : earlier = count := hfresh (String.append_right_inj _ |>.mp heq)
  omega

theorem secure_step (h : Secure makeId world) (call : LeaseCall) {world' : LeaseWorld}
    (hstep : (leaseSystem clock leaseTtlMs makeId iso).step world call = some world') :
    Secure makeId world' := by
  have hadvances := call.run_advances world.registry
  cases hstep
  have hsource : (call.run world.registry).2.makeId = makeId := hadvances.source.trans h.source
  have hsound : ∀ terminalId state, (call.run world.registry).2.terminals.get? terminalId =
      some state → Sound terminalId
        (MadeBetween (call.run world.registry).2.makeId 0 (call.run world.registry).2.made) state :=
    fun _ _ hstate => hadvances.sound h.sound hstate
  have holder : ∀ id, MadeBetween makeId 0 world.registry.made id →
      MadeBetween makeId 0 (call.run world.registry).2.made id :=
    fun id hid => hid.mono le_rfl hadvances.made
  constructor
  · exact hsource
  · exact hsound
  · intro lease hlease
    rcases mem_append.mp hlease with hbef | hnow
    · exact holder _ (h.issued lease hbef)
    obtain ⟨state, hstate, hmem⟩ := mem_flatMap.mp hnow
    obtain ⟨terminalId, hget⟩ := mem_values.mp hstate
    obtain ⟨key, hkey⟩ := mem_values.mp hmem
    have hknown := ((hsound _ _ hget).writers.kept key lease hkey).2.2.2
    rw [hsource] at hknown
    exact hknown
  · intro lease hlease
    rcases mem_append.mp hlease with hbef | hnow
    · obtain ⟨hid, habsent⟩ := h.revoked lease hbef
      refine ⟨holder _ hid, fun state' hstate' hcont => ?_⟩
      rcases hadvances.contains hstate' hcont with hnew | ⟨state, hstate, hheld⟩
      · obtain ⟨count, hcount, -, hmade⟩ := hnew
        rw [h.source] at hmade
        exact hid.disjoint hfresh hcount hmade
      · exact habsent state hstate hheld
    · unfold LeaseCall.revokes at hnow
      cases htakes : call.takesFrom with
      | none => simp [htakes] at hnow
      | some terminalId =>
        simp only [htakes] at hnow
        split at hnow
        · rename_i hok
          obtain ⟨hiss, hterm⟩ := mem_filter.mp hnow
          have hid := h.issued lease hiss
          refine ⟨holder _ hid, fun state' hstate' hcont => ?_⟩
          rw [beq_iff_eq.mp hterm] at hstate'
          obtain ⟨count, hcount, hmade⟩ := takesFrom_contains htakes hok hstate' hcont
          rw [h.source] at hmade
          exact hid.disjoint hfresh hcount hmade
        · cases hnow

theorem secure_reachable (hreachable : (leaseSystem clock leaseTtlMs makeId iso).Reachable world) :
    Secure makeId world := by
  apply System.Run.invariant _ _ hreachable
  · rintro s rfl
    constructor
    · rfl
    · intro terminalId state hstate
      cases hstate
    · intro lease hmem
      cases hmem
    · intro lease hmem
      cases hmem
  · intro s call s' hsecure _ hstep
    exact secure_step hfresh hsecure call hstep

end

theorem authorizeMutation_absent {registry : TerminalControlRegistry}
    {fence : TerminalMutationFence}
    (habsent : ∀ state, registry.terminals.get? fence.terminalId = some state →
      ¬ state.writers.contains fence.leaseId = true) :
    ∃ error, (registry.authorizeMutation fence).1 = .error error := by
  unfold TerminalControlRegistry.authorizeMutation
  rcases operate_cases registry.tick fence.terminalId fence.terminalEpoch
      (fun state => state.authorizeMutation fence registry.terms) with
    ⟨error, hoperate⟩ | ⟨state, hstate, hoperate⟩
  · rw [hoperate]
    exact ⟨error, rfl⟩
  rw [hoperate]
  unfold TerminalControlState.authorizeMutation
  simp only
  split
  · exact ⟨_, rfl⟩
  rename_i writer hwriter
  have hheld := (get?_retain_eq_some.mp hwriter).1
  exact absurd (IndexMap.contains_iff.mpr ⟨writer, hheld⟩) (habsent state hstate)

/-- What the leases of a registered terminal satisfy. -/
structure LeaseInvariant (state : TerminalControlState) : Prop where
  primaryNone : state.primaryWriterId = none ↔ state.writers.isEmpty = true
  primarySome : ∀ id, state.primaryWriterId = some id → state.writers.contains id = true
  writerIds : ∀ key lease, state.writers.get? key = some lease → lease.leaseId = key
  observerIds : ∀ key lease, state.observers.get? key = some lease → lease.leaseId = key
  generations : ∀ key lease, state.writers.get? key = some lease →
    lease.leaseGeneration = state.leaseGeneration
  oneWriter : ∀ key other lease lease', state.writers.get? key = some lease →
    state.writers.get? other = some lease' → lease.principalId = lease'.principalId →
    lease.connectionId = lease'.connectionId → key = other
  oneObserver : ∀ key other lease lease', state.observers.get? key = some lease →
    state.observers.get? other = some lease' → lease.principalId = lease'.principalId →
    lease.connectionId = lease'.connectionId → key = other

theorem Sound.leaseInvariant {terminalId : String} {known : String → Prop}
    {state : TerminalControlState} (h : Sound terminalId known state) : LeaseInvariant state where
  primaryNone := h.primary.none_iff
  primarySome id hid := by
    have hpoints := h.primary
    rw [hid] at hpoints
    exact hpoints
  writerIds key lease hget := (h.writers.kept key lease hget).1
  observerIds key lease hget := (h.observers.kept key lease hget).1
  generations key lease hget := (h.writers.kept key lease hget).2.2.1
  oneWriter := h.writers.single
  oneObserver := h.observers.single

/-- In every run the leases of every terminal stay consistent, generations
never fall, and a fence of a revoked lease is never authorised. -/
theorem leases_sound (hfresh : Function.Injective makeId)
    (hreachable : (leaseSystem clock leaseTtlMs makeId iso).Reachable world) :
    (∀ terminalId state, world.registry.terminals.get? terminalId = some state →
      LeaseInvariant state ∧
        ∀ call world', (leaseSystem clock leaseTtlMs makeId iso).step world call = some world' →
          ∃ state', world'.registry.terminals.get? terminalId = some state' ∧
            state.leaseGeneration ≤ state'.leaseGeneration) ∧
      ∀ lease ∈ world.revoked, ∀ fence : TerminalMutationFence,
        fence.terminalId = lease.terminalId → fence.leaseId = lease.leaseId →
        ∃ error, (world.registry.authorizeMutation fence).1 = .error error := by
  have hsecure := secure_reachable hfresh hreachable
  constructor
  · intro terminalId state hstate
    refine ⟨(hsecure.sound terminalId state hstate).leaseInvariant, ?_⟩
    intro call world' hstep
    cases hstep
    obtain ⟨state', hstate', hproceeds⟩ :=
      (call.run_advances world.registry).kept terminalId state hstate
    exact ⟨state', hstate', hproceeds.generation⟩
  · intro lease hlease fence hterm hid
    apply authorizeMutation_absent
    rw [hterm, hid]
    exact (hsecure.revoked lease hlease).2

/-- A writer lease that its terminal lost, by whatever call, stays refused
whatever calls follow. -/
theorem lost_leases_refused (hfresh : Function.Injective makeId)
    (hreach : (leaseSystem clock leaseTtlMs makeId iso).Reachable world) {after : LeaseWorld}
    (hpath : (leaseSystem clock leaseTtlMs makeId iso).Path (fun _ _ => True) world after)
    {lease : RuntimeTerminalLease} (hissued : lease ∈ world.issued)
    (hlost : ∀ state, world.registry.terminals.get? lease.terminalId = some state →
      ¬ state.writers.contains lease.leaseId = true)
    {fence : TerminalMutationFence} (hterm : fence.terminalId = lease.terminalId)
    (hid : fence.leaseId = lease.leaseId) :
    ∃ error, (after.registry.authorizeMutation fence).1 = .error error := by
  have hsecure := secure_reachable hfresh hreach
  have hadvances : Advances world.registry after.registry := by
    induction hpath with
    | refl => exact advances_idle rfl le_rfl rfl
    | next _ _ hstep ih =>
      cases hstep
      exact ih.trans (LeaseCall.run_advances _ _)
  apply authorizeMutation_absent
  rw [hterm, hid]
  intro state hstate hheld
  rcases hadvances.contains hstate hheld with ⟨count, hcount, -, hmade⟩ | ⟨old, hold, hbef⟩
  · rw [hsecure.source] at hmade
    exact (hsecure.issued lease hissued).disjoint hfresh hcount hmade
  · exact hlost old hold hbef

end Runs

/-! A writer, an observer that takes over, and the fence of the first writer. -/

def countedId (count : Nat) : String := String.ofList (List.replicate count 'x')

theorem countedId_injective : Function.Injective countedId := by
  intro a b h
  have hlist : List.replicate a 'x' = List.replicate b 'x' := String.ofList_injective h
  simpa using congrArg List.length hlist

def takeoverTrace : List LeaseCall :=
  [.registerTerminal "t" "e",
    .acquire ⟨"t", "e", "ann", "c1", .writer⟩,
    .acquire ⟨"t", "e", "bob", "c2", .observer⟩,
    .forceTakeover "t" "e" "bob" "c2"]

theorem leases_sound_takeover :
    ∃ world, (leaseSystem (fun reading => reading) 15000 countedId fun _ => "").Reachable world ∧
      (∃ lease ∈ world.revoked, lease.connectionId = "c1") ∧
      ∀ lease ∈ world.revoked, ∀ fence : TerminalMutationFence,
        fence.terminalId = lease.terminalId → fence.leaseId = lease.leaseId →
        ∃ error, (world.registry.authorizeMutation fence).1 = .error error := by
  have hrun : ∃ world, (leaseSystem (fun reading => reading) 15000 countedId fun _ => "").replay
      (fun _ _ => true) ⟨{ TerminalControlRegistry.new (fun reading => reading) countedId
        (fun _ => "") with leaseTtlMs := 15000 }, [], []⟩ takeoverTrace = some world ∧
      ∃ lease ∈ world.revoked, lease.connectionId = "c1" := by
    have hany : ((leaseSystem (fun reading => reading) 15000 countedId fun _ => "").replay
        (fun _ _ => true) ⟨{ TerminalControlRegistry.new (fun reading => reading) countedId
          (fun _ => "") with leaseTtlMs := 15000 }, [], []⟩ takeoverTrace).any
        (fun world => decide (∃ lease ∈ world.revoked, lease.connectionId = "c1")) = true := by
      decide
    obtain ⟨world, hworld, hlease⟩ := (Option.any_eq_true _ _).mp hany
    exact ⟨world, hworld, of_decide_eq_true hlease⟩
  obtain ⟨world, hrpl, hrevoked⟩ := hrun
  have hreachable := System.replay_run (System.Run.start rfl) (fun _ _ _ _ => trivial) hrpl
  exact ⟨world, hreachable, hrevoked, (leases_sound countedId_injective hreachable).2⟩

theorem lost_leases_refused_released :
    ∃ world, (leaseSystem (fun reading => reading) 15000 countedId fun _ => "").Reachable world ∧
      (∃ lease ∈ world.issued, lease.connectionId = "c1") ∧
      ∀ lease ∈ world.issued, ∀ fence : TerminalMutationFence,
        fence.terminalId = lease.terminalId → fence.leaseId = lease.leaseId →
        ∃ error, (world.registry.authorizeMutation fence).1 = .error error := by
  have hstart : (leaseSystem (fun reading => reading) 15000 countedId fun _ => "").Reachable _ :=
    System.Run.start rfl
  have hreach := ((hstart.next (a := .registerTerminal "t" "e") trivial rfl).next
    (a := .acquire ⟨"t", "e", "ann", "c1", .writer⟩) trivial rfl).next
      (a := .releaseConnection "c1") trivial rfl
  refine ⟨_, hreach, by decide, fun lease hissued fence => ?_⟩
  refine lost_leases_refused countedId_injective hreach .refl hissued fun state hstate => ?_
  obtain rfl := mem_singleton.mp hissued
  cases hstate
  decide

end Yaade.Terminal

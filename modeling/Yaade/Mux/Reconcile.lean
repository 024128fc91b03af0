import Yaade.Library.IndexMap
import Yaade.Library.Transition

/-!
The client's requests for the list of sessions.
-/

namespace Yaade.Mux

open Yaade.Library List Option IndexMap

/-- A snapshot of the sessions: how many of the server's mutations are in it. -/
structure SessionsSnapshot where
  mutations : Nat
  deriving DecidableEq

/-- A `listSessions` request: when it was issued, and the reply if the server
has answered. -/
structure ListRequest where
  issued : Nat
  reply : Option SessionsSnapshot
  deriving DecidableEq

/-- The events that announce that mutations may have been missed. -/
inductive RepairEvent where
  | hostReconnected
  | hostReplayGap
  | runtimeSnapshot
  deriving DecidableEq

/-- What was merged into the store: when it was requested and what it holds. -/
structure Merged where
  requested : Nat
  snapshot : SessionsSnapshot
  deriving DecidableEq

/-- The last event that asked for a repair: when it came, and how many
mutations the server had made by then. -/
structure Repair where
  time : Nat
  mutations : Nat
  deriving DecidableEq

/-- The started client with its requests, and the server it asks. -/
structure MuxClient where
  clock : Nat
  mutations : Nat
  requests : IndexMap Nat ListRequest
  nextRequest : Nat
  reconcilePromise : Option Nat
  merged : Option Merged
  repair : Option Repair
  failed : Bool

namespace MuxClient

def start (mutations : Nat) : MuxClient := ⟨0, mutations, .empty, 0, none, none, none, false⟩

def hydrate (client : MuxClient) : MuxClient :=
  { client with
    requests := client.requests.insert client.nextRequest ⟨client.clock, none⟩
    nextRequest := client.nextRequest + 1 }

def reconcile (client : MuxClient) : MuxClient :=
  if client.reconcilePromise.isSome then client
  else { client.hydrate with reconcilePromise := some client.nextRequest }

def onRepair (_event : RepairEvent) (client : MuxClient) : MuxClient :=
  { client.reconcile with repair := some ⟨client.clock, client.mutations⟩ }

end MuxClient

inductive ClientAction where
  | mutate
  | repair (event : RepairEvent)
  | hydrate
  | reconcile
  | answer (request : Nat)
  | arrive (request : Nat)
  | fail (request : Nat)
  | settle
  deriving DecidableEq

/-- One step: the server mutates its state or answers, an event comes, the user
interface asks, a reply arrives or a request fails, or the shared promise is
given up. -/
def clientStep (client : MuxClient) (action : ClientAction) : Option MuxClient :=
  (match action with
    | .mutate => some { client with mutations := client.mutations + 1 }
    | .repair event => some (client.onRepair event)
    | .hydrate => some client.hydrate
    | .reconcile => some client.reconcile
    | .answer id =>
      match client.requests.get? id with
      | some ⟨issued, none⟩ => some { client with
          requests := client.requests.insert id ⟨issued, some ⟨client.mutations⟩⟩ }
      | _ => none
    | .arrive id =>
      match client.requests.get? id with
      | some ⟨issued, some snapshot⟩ => some { client with
          requests := client.requests.shiftRemove id
          merged := some ⟨issued, snapshot⟩ }
      | _ => none
    | .fail id =>
      if client.requests.contains id then some { client with
        requests := client.requests.shiftRemove id
        failed := true }
      else none
    | .settle =>
      match client.reconcilePromise with
      | none => none
      | some id =>
        if client.requests.contains id then none
        else some { client with reconcilePromise := none }).map
    fun next : MuxClient => { next with clock := next.clock + 1 }

def clientSystem : System MuxClient ClientAction where
  initial client := ∃ mutations, client = .start mutations
  step := clientStep

def MuxClient.Settled (client : MuxClient) : Prop :=
  client.requests.entries = [] ∧ client.failed = false

/-- The last snapshot merged was requested no earlier than the last event that
asked for a repair, and holds what the server had by then. -/
def MuxClient.Fresh (client : MuxClient) : Prop :=
  ∀ repair, client.repair = some repair → ∃ merged, client.merged = some merged ∧
    repair.time ≤ merged.requested ∧ repair.mutations ≤ merged.snapshot.mutations

/-- No event comes while a request is shared, and no reply to an older request
arrives after the reply that repairs. -/
def Repairs (client : MuxClient) : ClientAction → Prop
  | .repair _ => client.reconcilePromise = none
  | .arrive id => ∀ request repair merged, client.requests.get? id = some request →
      client.repair = some repair → client.merged = some merged →
      repair.time ≤ merged.requested → repair.time ≤ request.issued
  | _ => True

/-- Requests that are under way, and the last one that arrived. -/
structure ReconcileSound (client : MuxClient) : Prop where
  issued : ∀ id request, client.requests.get? id = some request → request.issued < client.clock
  fresh : ∀ id, client.nextRequest ≤ id → client.requests.get? id = none
  promised : ∀ id, client.reconcilePromise = some id → id < client.nextRequest
  current : ∀ repair, client.repair = some repair →
    repair.time < client.clock ∧ repair.mutations ≤ client.mutations
  answered : ∀ repair id request snapshot, client.repair = some repair →
    client.requests.get? id = some request → repair.time ≤ request.issued →
    request.reply = some snapshot → repair.mutations ≤ snapshot.mutations
  repairing : ∀ repair, client.repair = some repair → client.failed = true ∨
    (∃ merged, client.merged = some merged ∧ repair.time ≤ merged.requested ∧
      repair.mutations ≤ merged.snapshot.mutations) ∨
    ∃ id request, client.requests.get? id = some request ∧ repair.time ≤ request.issued

section Steps

variable {client client' : MuxClient} {action : ClientAction}

theorem ReconcileSound.tick (h : ReconcileSound client) :
    ReconcileSound { client with clock := client.clock + 1 } := by
  refine { h with issued := fun id request hget => ?_, current := fun repair hrepair => ?_ }
  · have hiss := h.issued id request hget
    simp only
    omega
  · obtain ⟨htime, hmutations⟩ := h.current repair hrepair
    exact ⟨Nat.lt_succ_of_lt htime, hmutations⟩

theorem ReconcileSound.hydrate (h : ReconcileSound client) :
    ReconcileSound { client.hydrate with clock := client.clock + 1 } := by
  unfold MuxClient.hydrate
  refine ⟨fun id request hget => ?_, fun id hid => ?_, fun id hid => ?_, fun repair hrepair => ?_,
    fun repair id request snapshot hrepair hget htime hreply => ?_, fun repair hrepair => ?_⟩
  · simp only [get?_insert] at hget
    split at hget
    · cases hget
      exact Nat.lt_succ_self _
    · exact Nat.lt_succ_of_lt (h.issued id request hget)
  · simp only [get?_insert] at hid ⊢
    rw [if_neg (by omega)]
    exact h.fresh id (by omega)
  · have hpromised := h.promised id hid
    simp only
    omega
  · obtain ⟨htime, hmutations⟩ := h.current repair hrepair
    exact ⟨Nat.lt_succ_of_lt htime, hmutations⟩
  · simp only [get?_insert] at hget
    split at hget
    · cases hget
      cases hreply
    · exact h.answered repair id request snapshot hrepair hget htime hreply
  · rcases h.repairing repair hrepair with hfailed | hmerged | ⟨id, request, hget, htime⟩
    · exact .inl hfailed
    · exact .inr (.inl hmerged)
    refine .inr (.inr ⟨id, request, ?_, htime⟩)
    simp only [get?_insert]
    split
    · rename_i hid
      rw [h.fresh id (by omega)] at hget
      cases hget
    · exact hget

theorem reconcile_step (h : ReconcileSound client) (hrepairs : Repairs client action)
    (hstep : clientSystem.step client action = some client') : ReconcileSound client' := by
  obtain ⟨next, hnext, rfl⟩ := map_eq_some_iff.mp hstep
  cases action with
  | mutate =>
    cases hnext
    refine { h with issued := h.tick.issued, current := fun repair hrepair => ?_ }
    obtain ⟨htime, hmutations⟩ := h.tick.current repair hrepair
    exact ⟨htime, Nat.le_succ_of_le hmutations⟩
  | repair event =>
    cases hnext
    have hnone : client.reconcilePromise = none := hrepairs
    have hhydrate := h.hydrate
    unfold MuxClient.onRepair MuxClient.reconcile
    rw [hnone]
    simp only [isSome_none, Bool.false_eq_true, if_false]
    refine ⟨hhydrate.issued, hhydrate.fresh, ?_, ?_, ?_, ?_⟩
    · rintro id hid
      cases hid
      exact Nat.lt_succ_self _
    · rintro repair hrepair
      cases hrepair
      exact ⟨Nat.lt_succ_self _, le_rfl⟩
    · rintro repair id request snapshot hrepair hget htime hreply
      cases hrepair
      simp only [MuxClient.hydrate, get?_insert] at hget
      split at hget
      · cases hget
        cases hreply
      have hiss := h.issued id request hget
      simp only at htime
      omega
    · rintro repair hrepair
      cases hrepair
      refine .inr (.inr ⟨client.nextRequest, ⟨client.clock, none⟩, ?_, le_rfl⟩)
      simp [MuxClient.hydrate]
  | hydrate =>
    cases hnext
    exact h.hydrate
  | reconcile =>
    cases hnext
    unfold MuxClient.reconcile
    split
    · exact h.tick
    have hhydrate := h.hydrate
    refine { hhydrate with promised := ?_ }
    rintro id hid
    cases hid
    exact Nat.lt_succ_self _
  | answer id =>
    simp only at hnext
    split at hnext
    · rename_i issued hget
      cases hnext
      refine ⟨?_, ?_, h.promised, h.tick.current, ?_, ?_⟩
      · intro other request hother
        simp only [get?_insert] at hother
        split at hother
        · cases hother
          have hiss := h.issued id _ hget
          simp only at hiss ⊢
          omega
        · exact h.tick.issued other request hother
      · intro other hfresh
        simp only [get?_insert]
        split
        · rename_i hid
          subst hid
          rw [h.fresh _ hfresh] at hget
          cases hget
        · exact h.fresh other hfresh
      · intro repair other request snapshot hrepair hother htime hreply
        simp only [get?_insert] at hother
        split at hother
        · cases hother
          cases hreply
          exact (h.current repair hrepair).2
        · exact h.answered repair other request snapshot hrepair hother htime hreply
      · intro repair hrepair
        rcases h.repairing repair hrepair with hfailed | hmerged | ⟨other, request, hother, htime⟩
        · exact .inl hfailed
        · exact .inr (.inl hmerged)
        right
        right
        by_cases hid : other = id
        · subst hid
          rw [hget] at hother
          cases hother
          exact ⟨other, ⟨issued, some ⟨client.mutations⟩⟩, by simp, htime⟩
        · exact ⟨other, request, by simp [hid, hother], htime⟩
    · cases hnext
  | arrive id =>
    simp only at hnext
    split at hnext
    · rename_i issued snapshot hget
      cases hnext
      refine ⟨?_, ?_, h.promised, h.tick.current, ?_, ?_⟩
      · intro other request hother
        exact h.tick.issued other request (get?_shiftRemove_eq_some.mp hother).2
      · intro other hfresh
        simp only [get?_shiftRemove]
        split
        · rfl
        · exact h.fresh other hfresh
      · intro repair other request reply hrepair hother htime hreply
        exact h.answered repair other request reply hrepair
          (get?_shiftRemove_eq_some.mp hother).2 htime hreply
      · intro repair hrepair
        by_cases htime : repair.time ≤ issued
        · exact .inr (.inl ⟨⟨issued, snapshot⟩, rfl, htime,
            h.answered repair id _ snapshot hrepair hget htime rfl⟩)
        rcases h.repairing repair hrepair with
          hfailed | ⟨merged, hmerged, hlate, -⟩ | ⟨other, request, hother, hlate⟩
        · exact .inl hfailed
        · exact absurd (hrepairs _ repair merged hget hrepair hmerged hlate) htime
        refine .inr (.inr ⟨other, request, ?_, hlate⟩)
        simp only [get?_shiftRemove]
        rw [if_neg]
        · exact hother
        rintro rfl
        rw [hget] at hother
        cases hother
        exact htime hlate
    · cases hnext
  | fail id =>
    obtain ⟨-, hnext⟩ := ite_none_right_eq_some.mp hnext
    cases hnext
    refine ⟨?_, ?_, h.promised, h.tick.current, ?_, fun _ _ => .inl rfl⟩
    · intro other request hother
      exact h.tick.issued other request (get?_shiftRemove_eq_some.mp hother).2
    · intro other hfresh
      simp only [get?_shiftRemove]
      split
      · rfl
      · exact h.fresh other hfresh
    · intro repair other request reply hrepair hother htime hreply
      exact h.answered repair other request reply hrepair
        (get?_shiftRemove_eq_some.mp hother).2 htime hreply
  | settle =>
    simp only at hnext
    split at hnext
    · cases hnext
    split at hnext
    · cases hnext
    cases hnext
    exact ⟨h.tick.issued, h.fresh, (fun _ hid => by cases hid), h.tick.current, h.answered,
      h.repairing⟩

theorem reconcile_sound (hrun : clientSystem.Run Repairs client) : ReconcileSound client := by
  apply hrun.invariant
  · rintro start ⟨mutations, rfl⟩
    exact ⟨(nofun), fun _ _ => rfl, (nofun),
      (nofun), (nofun), (nofun)⟩
  · exact fun _ _ _ h hrepairs hstep => reconcile_step h hrepairs hstep

end Steps

/-- What was missed is there once all requests have settled. -/
theorem reconcile_fresh {client : MuxClient} (hrun : clientSystem.Run Repairs client)
    (hsettl : client.Settled) : client.Fresh := by
  intro repair hrepair
  obtain ⟨hnone, hfailed⟩ := hsettl
  rcases (reconcile_sound hrun).repairing repair hrepair with hfail | hmerged | ⟨id, request, hget, -⟩
  · rw [hfailed] at hfail
    cases hfail
  · exact hmerged
  have hmem := get?_eq_some.mp hget
  rw [hnone] at hmem
  cases hmem

/-- A reconnect while a mutation is missed, repaired before the next event. -/
theorem reconcile_fresh_sample :
    ∃ client, clientSystem.Run Repairs client ∧ client.Settled ∧ client.Fresh ∧
      client.merged = some ⟨1, ⟨1⟩⟩ := by
  have hrun : clientSystem.Run Repairs (.start 0) := .start ⟨0, rfl⟩
  have hmutated := @System.Run.next _ _ _ _ _ _ ClientAction.mutate hrun trivial rfl
  have hrepair := @System.Run.next _ _ _ _ _ _ (ClientAction.repair .hostReconnected) hmutated rfl rfl
  have hanswer := @System.Run.next _ _ _ _ _ _ (ClientAction.answer 0) hrepair trivial rfl
  have harrive := @System.Run.next _ _ _ _ _ _ (ClientAction.arrive 0) hanswer
    (fun _ _ _ _ _ hmerged => by cases hmerged) rfl
  have hsettle := @System.Run.next _ _ _ _ _ _ ClientAction.settle harrive trivial rfl
  exact ⟨_, hsettle, ⟨rfl, rfl⟩, reconcile_fresh hsettle ⟨rfl, rfl⟩, rfl⟩

/-- The second event shares the request of the first, which was answered before
the mutation it was to repair. -/
theorem reconcile_shared : ∃ client, clientSystem.Reachable client ∧ client.Settled ∧
      client.reconcilePromise = none ∧ ¬ client.Fresh := by
  have hrpl : (clientSystem.replay (fun _ _ => true) (.start 0)
      [.repair .hostReconnected, .answer 0, .mutate, .repair .hostReplayGap, .arrive 0,
        .settle]).any (fun client => client.requests.entries == [] && !client.failed &&
          client.reconcilePromise == none && client.repair == some ⟨3, 1⟩ &&
          client.merged == some ⟨0, ⟨0⟩⟩) = true := by
    decide
  obtain ⟨client, hclient, hends⟩ := (Option.any_eq_true _ _).mp hrpl
  simp only [Bool.and_eq_true, Bool.not_eq_true', beq_iff_eq] at hends
  obtain ⟨⟨⟨⟨hnone, hfailed⟩, hpromise⟩, hrepair⟩, hmerged⟩ := hends
  refine ⟨client, System.replay_run (.start ⟨0, rfl⟩) (fun _ _ _ _ => trivial) hclient,
    ⟨hnone, hfailed⟩, hpromise, ?_⟩
  intro hfresh
  obtain ⟨merged, hsame, hlate, -⟩ := hfresh _ hrepair
  rw [hmerged] at hsame
  cases hsame
  exact absurd hlate (by decide)

end Yaade.Mux

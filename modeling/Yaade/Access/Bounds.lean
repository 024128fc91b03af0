import Mathlib.Data.List.TakeWhile
import Yaade.Access.RateLimit

/-!
How much the service keeps in memory.
-/

namespace Yaade.Access

open Yaade.Library Option IndexMap
open List hiding beq_eq_decide

/-! ## A table with its queue -/

/-- A table within its limit, its keys all in the queue, and at most `strays`
more places in the queue than entries in the table. -/
structure Queued {ν : Type} (limit strays : Nat) (order : List String) (map : IndexMap String ν) :
    Prop where
  fits : map.length ≤ limit
  queued : ∀ key ∈ map.keys, key ∈ order
  lag : order.length ≤ map.length + strays

section Tables

variable {ν : Type} {limit strays : Nat} {order : List String} {map map' : IndexMap String ν}

theorem length_keys (map : IndexMap String ν) : map.keys.length = map.length :=
  length_map _

theorem length_shiftRemove_le (map : IndexMap String ν) (key : String) :
    map.length ≤ (map.shiftRemove key).length + 1 := by
  cases hget : map.get? key with
  | none =>
    rw [shiftRemove_absent hget]
    exact Nat.le_succ _
  | some value =>
    have hperm := (shiftRemove_perm hget).length_eq
    rw [length_cons] at hperm
    exact Nat.le_of_eq hperm

theorem length_retain (p : String → ν → Bool) (map : IndexMap String ν) :
    map.length = (map.retain p).length + map.entries.countP fun entry => !p entry.1 entry.2 := by
  rw [IndexMap.length, length_eq_countP_add_countP (p := fun entry => p entry.1 entry.2)]
  simp [IndexMap.length, IndexMap.retain, countP_eq_length_filter]

theorem keys_retain (p : String → ν → Bool) (map : IndexMap String ν) :
    ∀ key ∈ (map.retain p).keys, key ∈ map.keys :=
  fun _ hkey => (filter_sublist.map Prod.fst).subset hkey

theorem evict_queued (hqueued : ∀ key ∈ map.keys, key ∈ order)
    (hlag : order.length ≤ map.length + strays) :
    Queued limit strays (evict limit order map).1 (evict limit order map).2 := by
  induction order generalizing map with
  | nil =>
    have hempty : map.keys = [] := eq_nil_iff_forall_not_mem.mpr fun key hkey =>
      not_mem_nil (hqueued key hkey)
    have hlength := length_keys map
    rw [hempty, length_nil] at hlength
    exact ⟨hlength ▸ Nat.zero_le limit, hqueued, hlag⟩
  | cons oldest rest ih =>
    rw [evict]
    split
    · refine ih (fun key hkey => ?_) ?_
      · rw [keys_shiftRemove, mem_filter, bne_iff_ne] at hkey
        exact mem_of_ne_of_mem hkey.2 (hqueued key hkey.1)
      · have hrem := length_shiftRemove_le map oldest
        rw [length_cons] at hlag
        omega
    · rename_i hsmall
      exact ⟨Nat.le_of_not_lt hsmall, hqueued, hlag⟩

namespace Queued

theorem empty (limit strays : Nat) : Queued limit strays [] (IndexMap.empty : IndexMap String ν) :=
  ⟨Nat.zero_le _, fun _ hkey => hkey, Nat.zero_le _⟩

section

variable (h : Queued limit strays order map)
include h

theorem mono {more : Nat} (hmore : strays ≤ more) : Queued limit more order map :=
  ⟨h.fits, h.queued, h.lag.trans (Nat.add_le_add_left hmore _)⟩

theorem leave {left : Nat}
    (hkeys : ∀ key ∈ map'.keys, key ∈ map.keys) (hlength : map.length = map'.length + left) :
    Queued limit (strays + left) order map' := by
  refine ⟨?_, fun key hkey => h.queued key (hkeys key hkey), ?_⟩
  · exact (Nat.le_add_right _ left).trans (hlength ▸ h.fits)
  · have hlag := h.lag
    omega

theorem retain (p : String → ν → Bool) :
    Queued limit (strays + map.entries.countP fun entry => !p entry.1 entry.2) order (map.retain p) :=
  h.leave (keys_retain p map) (length_retain p map)

theorem remove (key : String) :
    Queued limit (strays + if map.contains key then 1 else 0) order (map.shiftRemove key) := by
  cases hget : map.get? key with
  | none =>
    rw [shiftRemove_absent hget]
    exact h.mono (Nat.le_add_right _ _)
  | some value =>
    have hcont : map.contains key = true := contains_iff.mpr ⟨value, hget⟩
    rw [if_pos hcont]
    refine h.leave (keys_retain _ map) ?_
    have hperm := (shiftRemove_perm hget).length_eq
    rw [length_cons] at hperm
    exact hperm

theorem push (key : String) (value : ν) : Queued limit (strays + if map.contains key then 1 else 0)
      (evict limit (order ++ [key]) (map.insert key value)).1
      (evict limit (order ++ [key]) (map.insert key value)).2 := by
  have hlag := h.lag
  cases hget : map.get? key with
  | none =>
    have hcont : map.contains key = false := by simp [IndexMap.contains, hget]
    have hkeys := keys_insert_new hget value
    refine evict_queued (fun other hother => ?_) ?_
    · rw [hkeys] at hother
      exact mem_append.mpr ((mem_append.mp hother).imp_left (h.queued other))
    · have hlength := congrArg List.length hkeys
      simp only [length_keys, length_append, length_singleton] at hlength
      simp only [length_append, length_singleton, hcont]
      omega
  | some old =>
    have hcont : map.contains key = true := contains_iff.mpr ⟨old, hget⟩
    have hkeys := keys_insert_old hget value
    refine evict_queued (fun other hother => ?_) ?_
    · rw [hkeys] at hother
      exact mem_append_left _ (h.queued other hother)
    · have hlength := congrArg List.length hkeys
      simp only [length_keys] at hlength
      simp only [length_append, length_singleton, hcont, if_true]
      omega

end

end Queued

end Tables

/-! ## What leaves the tables without eviction -/

def PendingChallenge.expired (now : Instant) (challenge : PendingChallenge) : Bool :=
  challenge.expiresAt ≤ now

def Session.expired (now : Instant) (session : Session) : Bool :=
  session.expiresAt ≤ now

def stale (now : Instant) (failures : List Instant) : Bool :=
  failures.all fun instant => failureWindow ≤ now - instant

def Ephemeral.expired (ephemeral : Ephemeral) (now : Instant) : Nat :=
  ephemeral.challenges.entries.countP (fun entry => entry.2.expired now) +
    ephemeral.sessions.entries.countP (fun entry => entry.2.expired now) +
    ephemeral.failures.entries.countP (fun entry => stale now entry.2)

def held {ν : Type} (map : IndexMap String ν) (key : String) : Nat :=
  if map.contains key then 1 else 0

/-- The entries that a step takes out of the tables other than by eviction
(they expired, were used, rotated or revoked, or a success cleared them), and
the keys it queues while they are in the table. -/
def Call.strays (world : AuthWorld) (env : Surroundings) : Call → Nat
  | .pairAssert _ | .sessionGet _ => world.ephemeral.expired world.clock
  | .recordFailure key _ => world.ephemeral.expired world.clock +
      held (world.ephemeral.cleanup world.clock).failures key
  | .challengePut _ => world.ephemeral.expired world.clock +
      held (world.ephemeral.cleanup world.clock).challenges env.random
  | .authenticateAssert input =>
    if !validDeviceId input.deviceId || input.nonce.utf8ByteSize > 128 ||
        input.signature.utf8ByteSize > 2048 then 0
    else world.ephemeral.expired world.clock
  | .authenticateTake input => world.ephemeral.expired world.clock +
      held (world.ephemeral.cleanup world.clock).challenges input.nonce
  | .authenticateOpen input .. =>
    held world.ephemeral.failures input.deviceId + held world.ephemeral.sessions env.random
  | .rotateRemove token => world.ephemeral.expired world.clock +
      held (world.ephemeral.cleanup world.clock).sessions token
  | .rotatePut .. => held world.ephemeral.sessions env.random
  | .revokeDrop deviceId _ =>
    world.ephemeral.sessions.entries.countP fun entry => entry.2.deviceId = deviceId
  | .pairLookup _ | .pairConsume .. | .pairInsert .. | .challengeRow _ | .authenticateRow ..
  | .authenticateTouch _ | .sessionRow .. | .sessionTouch .. | .rotateRow .. | .rotateTouch _
  | .rotateAudit _ | .revokeRow _ => 0

def AuthAction.strays (world : AuthWorld) : AuthAction → Nat
  | .step id env =>
    match world.threads.get? id with
    | some thread => thread.call.strays world env
    | none => 0
  | _ => 0

/-- The three tables of the service and their queues. -/
structure Ephemeral.Bounded (strays : Nat) (ephemeral : Ephemeral) : Prop where
  challenges : Queued maxChallenges strays ephemeral.challengeOrder ephemeral.challenges
  sessions : Queued maxSessions strays ephemeral.sessionOrder ephemeral.sessions
  failures : Queued maxFailureKeys strays ephemeral.failureOrder ephemeral.failures

namespace Ephemeral.Bounded

variable {ephemeral : Ephemeral} {strays : Nat}

theorem empty (strays : Nat) : Ephemeral.empty.Bounded strays :=
  ⟨Queued.empty _ _, Queued.empty _ _, Queued.empty _ _⟩

theorem mono (h : ephemeral.Bounded strays) {more : Nat} (hmore : strays ≤ more) :
    ephemeral.Bounded more :=
  ⟨h.challenges.mono hmore, h.sessions.mono hmore, h.failures.mono hmore⟩

theorem cleanup_failures_length (ephemeral : Ephemeral) (now : Instant) :
    ephemeral.failures.length = (ephemeral.cleanup now).failures.length +
      ephemeral.failures.entries.countP (fun entry => stale now entry.2) := by
  have hmapped := length_retain (fun _ failures => !failures.isEmpty)
    (ephemeral.failures.mapValues fun failures =>
      failures.dropWhile fun instant => now - instant ≥ failureWindow)
  have hlength : (ephemeral.failures.mapValues fun failures =>
      failures.dropWhile fun instant => now - instant ≥ failureWindow).length =
        ephemeral.failures.length := length_map _
  rw [hlength] at hmapped
  rw [hmapped]
  congr 1
  unfold IndexMap.mapValues
  simp only [countP_map]
  refine countP_congr fun entry _ => ?_
  simp [stale, dropWhile_eq_nil_iff]

section

variable (h : ephemeral.Bounded strays)
include h

theorem cleanup (now : Instant) :
    (ephemeral.cleanup now).Bounded (strays + ephemeral.expired now) := by
  have hchallenges := h.challenges.retain fun _ challenge => challenge.expiresAt > now
  have hsessions := h.sessions.retain fun _ session => session.expiresAt > now
  have hfailures : Queued maxFailureKeys
      (strays + ephemeral.failures.entries.countP fun entry => stale now entry.2)
      ephemeral.failureOrder (ephemeral.cleanup now).failures := by
    refine h.failures.leave (fun key hkey => ?_) (cleanup_failures_length ephemeral now)
    have hmapped := keys_retain _ _ key hkey
    rw [IndexMap.keys, IndexMap.mapValues, List.map_map] at hmapped
    exact hmapped
  have hexpired : ∀ entry : String × PendingChallenge,
      (!decide (entry.2.expiresAt > now)) = entry.2.expired now := fun entry => by
    rw [PendingChallenge.expired, ← decide_not]
    exact decide_eq_decide.mpr Nat.not_lt
  have hended : ∀ entry : String × Session,
      (!decide (entry.2.expiresAt > now)) = entry.2.expired now := fun entry => by
    rw [Session.expired, ← decide_not]
    exact decide_eq_decide.mpr Nat.not_lt
  simp only [hexpired] at hchallenges
  simp only [hended] at hsessions
  unfold Ephemeral.expired
  exact ⟨hchallenges.mono (by omega), hsessions.mono (by omega), hfailures.mono (by omega)⟩

theorem putChallenge (nonce : String)
    (challenge : PendingChallenge) : (ephemeral.putChallenge nonce challenge).Bounded
      (strays + held ephemeral.challenges nonce) :=
  ⟨h.challenges.push nonce challenge, h.sessions.mono (Nat.le_add_right _ _),
    h.failures.mono (Nat.le_add_right _ _)⟩

theorem putSession (token : String) (session : Session) :
    (ephemeral.putSession token session).Bounded (strays + held ephemeral.sessions token) :=
  ⟨h.challenges.mono (Nat.le_add_right _ _), h.sessions.push token session,
    h.failures.mono (Nat.le_add_right _ _)⟩

theorem recordFailure (key : String) (now : Instant) : (ephemeral.recordFailure key now).Bounded
      (strays + (ephemeral.expired now + held (ephemeral.cleanup now).failures key)) := by
  have hclean := h.cleanup now
  rw [← Nat.add_assoc]
  exact ⟨hclean.challenges.mono (Nat.le_add_right _ _), hclean.sessions.mono (Nat.le_add_right _ _),
    hclean.failures.push key _⟩

theorem takeChallenge (nonce : String) :
    ({ ephemeral with challenges := ephemeral.challenges.shiftRemove nonce } : Ephemeral).Bounded
      (strays + held ephemeral.challenges nonce) :=
  ⟨h.challenges.remove nonce, h.sessions.mono (Nat.le_add_right _ _),
    h.failures.mono (Nat.le_add_right _ _)⟩

theorem removeSession (token : String) :
    ({ ephemeral with sessions := ephemeral.sessions.shiftRemove token } : Ephemeral).Bounded
      (strays + held ephemeral.sessions token) :=
  ⟨h.challenges.mono (Nat.le_add_right _ _), h.sessions.remove token,
    h.failures.mono (Nat.le_add_right _ _)⟩

theorem clearFailures (key : String) :
    ({ ephemeral with failures := ephemeral.failures.shiftRemove key } : Ephemeral).Bounded
      (strays + held ephemeral.failures key) :=
  ⟨h.challenges.mono (Nat.le_add_right _ _), h.sessions.mono (Nat.le_add_right _ _),
    h.failures.remove key⟩

end

end Ephemeral.Bounded

/-! ## Every run of the service -/

variable {verify : String → String → String → Bool} {world : AuthWorld}

section Steps

variable {strays : Nat}

/-- One step of a call, whatever call it is. -/
theorem Ephemeral.Bounded.advance (h : world.ephemeral.Bounded strays) (id : Nat)
    (thread : Thread) (env : Surroundings) :
    (world.advance verify id thread env).1.ephemeral.Bounded
      (strays + thread.call.strays world env) := by
  obtain ⟨call, since, revokedBefore⟩ := thread
  cases call with
  | pairAssert input =>
    simp only [AuthWorld.advance, Call.strays]
    repeat' split
    all_goals exact h.cleanup world.clock
  | pairLookup | pairConsume | challengeRow | authenticateRow | sessionRow | rotateRow =>
    simp only [AuthWorld.advance, Call.strays]
    repeat' split
    all_goals exact h
  | pairInsert | authenticateTouch | sessionTouch | rotateTouch | rotateAudit | revokeRow =>
    simp only [AuthWorld.advance, Call.strays]
    split
    all_goals exact h
  | recordFailure key passed => exact h.recordFailure key world.clock
  | challengePut deviceId =>
    have hput := (h.cleanup world.clock).putChallenge env.random
      ⟨deviceId, env.instant + challengeTtl⟩
    rw [Nat.add_assoc] at hput
    exact hput
  | authenticateAssert input =>
    simp only [AuthWorld.advance, Call.strays]
    split
    · exact h
    · split
      all_goals exact h.cleanup world.clock
  | authenticateTake input =>
    have htake := (h.cleanup world.clock).takeChallenge input.nonce
    rw [Nat.add_assoc] at htake
    exact htake
  | authenticateOpen input challenge checkedAt device =>
    have hput := (h.clearFailures input.deviceId).putSession env.random
      ⟨input.deviceId, device.scopes, env.instant + sessionTtl⟩
    rw [Nat.add_assoc] at hput
    exact hput
  | sessionGet token =>
    simp only [AuthWorld.advance, Call.strays]
    split
    all_goals exact h.cleanup world.clock
  | rotateRemove token =>
    have hclean := h.cleanup world.clock
    have hremove := hclean.removeSession token
    rw [Nat.add_assoc] at hremove
    simp only [AuthWorld.advance, Call.strays]
    split
    · exact hclean.mono (Nat.add_le_add_left (Nat.le_add_right _ _) _)
    · exact hremove
  | rotatePut token session => exact h.putSession env.random _
  | revokeDrop deviceId changed =>
    have hdrop := h.sessions.retain fun _ session => session.deviceId != deviceId
    have hdropped : ∀ entry : String × Session,
        (!(entry.2.deviceId != deviceId)) = decide (entry.2.deviceId = deviceId) := fun entry => by
      simp [bne, beq_eq_decide]
    simp only [hdropped] at hdrop
    exact ⟨h.challenges.mono (Nat.le_add_right _ _), hdrop, h.failures.mono (Nat.le_add_right _ _)⟩

theorem Ephemeral.Bounded.step (h : world.ephemeral.Bounded strays) {action : AuthAction}
    {next : AuthWorld} (hstep : authStep verify world action = some next) :
    next.ephemeral.Bounded (strays + action.strays world) := by
  cases action with
  | tick | begin =>
    cases hstep
    exact h
  | createPairingCode id code expiresAt =>
    obtain ⟨-, heq⟩ := ite_none_left_eq_some.mp hstep
    cases heq
    exact h
  | step id env =>
    simp only [authStep] at hstep
    cases hthr : world.threads.get? id with
    | none =>
      rw [hthr] at hstep
      cases hstep
    | some thread =>
      rw [hthr] at hstep
      obtain ⟨-, heq⟩ := ite_none_right_eq_some.mp hstep
      cases heq
      simp only [AuthAction.strays, hthr]
      exact h.advance id thread env
  | restart =>
    cases hstep
    exact Ephemeral.Bounded.empty _

end Steps

def countedSystem (verifySignature : String → String → String → Bool) :
    System (AuthWorld × Nat) AuthAction where
  initial state := (authSystem verifySignature).initial state.1 ∧ state.2 = 0
  step state action :=
    (authStep verifySignature state.1 action).map fun next =>
      (next, state.2 + action.strays state.1)

def WithinBudget (budget : Nat) (state : AuthWorld × Nat) (action : AuthAction) : Prop :=
  state.2 + action.strays state.1 ≤ budget

section Runs

variable {verifySignature : String → String → String → Bool} {state : AuthWorld × Nat}
  {allowed : AuthWorld × Nat → AuthAction → Prop}

theorem counted_bounded (h : (countedSystem verifySignature).Run allowed state) :
    state.1.ephemeral.Bounded state.2 := by
  apply h.invariant
  · rintro ⟨start, count⟩ ⟨⟨codes, rfl⟩, rfl⟩
    exact Ephemeral.Bounded.empty 0
  · intro s action s' hs _ hstep
    obtain ⟨next, hnext, rfl⟩ := map_eq_some_iff.mp hstep
    exact hs.step hnext

theorem counted_of_run (h : (authSystem verifySignature).Reachable world) :
    ∃ count, (countedSystem verifySignature).Reachable (world, count) := by
  apply h.invariant
  · intro start hstart
    exact ⟨0, .start ⟨hstart, rfl⟩⟩
  · intro s action s' hs _ hstep
    obtain ⟨count, hcount⟩ := hs
    have hstep' : authStep verifySignature s action = some s' := hstep
    refine ⟨count + action.strays s, hcount.next (a := action) trivial ?_⟩
    simp [countedSystem, hstep']

theorem counted_le {budget : Nat}
    (h : (countedSystem verifySignature).Run (WithinBudget budget) state) : state.2 ≤ budget := by
  apply h.invariant
  · rintro ⟨start, count⟩ ⟨-, rfl⟩
    exact Nat.zero_le _
  · intro s action s' _ hwithin hstep
    obtain ⟨next, -, rfl⟩ := map_eq_some_iff.mp hstep
    exact hwithin

/-- The tables are within their limits and every key is queued. -/
structure Evictable (ephemeral : Ephemeral) : Prop where
  challenges : ephemeral.challenges.length ≤ maxChallenges
  sessions : ephemeral.sessions.length ≤ maxSessions
  failures : ephemeral.failures.length ≤ maxFailureKeys
  challengeKeys : ∀ nonce ∈ ephemeral.challenges.keys, nonce ∈ ephemeral.challengeOrder
  sessionKeys : ∀ token ∈ ephemeral.sessions.keys, token ∈ ephemeral.sessionOrder
  failureKeys : ∀ key ∈ ephemeral.failures.keys, key ∈ ephemeral.failureOrder

/-- The queues are no longer than the limits and an allowance. -/
structure ShortQueues (allowance : Nat) (ephemeral : Ephemeral) : Prop where
  challenges : ephemeral.challengeOrder.length ≤ maxChallenges + allowance
  sessions : ephemeral.sessionOrder.length ≤ maxSessions + allowance
  failures : ephemeral.failureOrder.length ≤ maxFailureKeys + allowance

theorem Ephemeral.Bounded.evictable {ephemeral : Ephemeral} {strays : Nat}
    (h : ephemeral.Bounded strays) : Evictable ephemeral :=
  ⟨h.challenges.fits, h.sessions.fits, h.failures.fits, h.challenges.queued, h.sessions.queued,
    h.failures.queued⟩

theorem Ephemeral.Bounded.short {ephemeral : Ephemeral} {strays : Nat}
    (h : ephemeral.Bounded strays) : ShortQueues strays ephemeral :=
  ⟨h.challenges.lag.trans (Nat.add_le_add_right h.challenges.fits _),
    h.sessions.lag.trans (Nat.add_le_add_right h.sessions.fits _),
    h.failures.lag.trans (Nat.add_le_add_right h.failures.fits _)⟩

/-- In every run the tables keep to their limits and every key is queued; the
queues keep to the limits and the budget in the runs that leave no more keys
behind than that. -/
theorem ephemeral_bounded (verifySignature : String → String → String → Bool) :
    (∀ world, (authSystem verifySignature).Reachable world → Evictable world.ephemeral) ∧
      ∀ budget state, (countedSystem verifySignature).Run (WithinBudget budget) state →
        ShortQueues budget state.1.ephemeral := by
  constructor
  · intro world hworld
    obtain ⟨count, hcount⟩ := counted_of_run hworld
    exact (counted_bounded hcount).evictable
  · intro budget state hrun
    exact ((counted_bounded hrun).mono (counted_le hrun)).short

end Runs

/-! ## Requests that are turned away -/

section Invalid

theorem run_invalid {failures : IndexMap String (List Instant)} {order : List String}
    {log : List FailureEntry} {calls : Nat}
    (hrun : (authSystem verify).Reachable (failedWorld failures order log calls))
    (hzero : ∀ entry ∈ failures.entries, entry.2 ≠ [] ∧ ∀ time ∈ entry.2, time = 0)
    (hsmall : (failures.insert "invalid-device"
      ((failures.get? "invalid-device").getD [] ++ [0])).length ≤ maxFailureKeys) :
    (authSystem verify).Reachable (failedWorld
      (failures.insert "invalid-device" ((failures.get? "invalid-device").getD [] ++ [0]))
      (order ++ ["invalid-device"]) (log ++ [.failure "invalid-device" 0 false]) (calls + 1)) := by
  have hclean := cleanup_start order hzero
  have hbegun : (authSystem verify).Reachable
      (failingWorld failures order log calls (.authenticateAssert ⟨"", "", ""⟩)) :=
    System.Run.next hrun (a := .begin (.authenticate ⟨"", "", ""⟩)) trivial rfl
  have hassert : (authSystem verify).Reachable
      (failingWorld failures order log calls (.recordFailure "invalid-device" false)) :=
    System.Run.next hbegun (a := .step calls ⟨false, "", 0, 0⟩) trivial (failing_step rfl)
  refine System.Run.next hassert (a := .step calls ⟨false, "", 0, 0⟩) trivial ?_
  have hget : (failingWorld failures order log calls
      (.recordFailure "invalid-device" false)).threads.get? calls =
        some ⟨.recordFailure "invalid-device" false, 0, []⟩ := by
    unfold failingWorld
    rw [get?_insert, if_pos rfl]
  have hevict : evict _ (order ++ ["invalid-device"]) _ = _ := evict_small hsmall
  have hevictions : AuthWorld.evictions _ (order ++ ["invalid-device"]) _ = _ :=
    evictions_small hsmall
  simp only [authSystem, authStep, hget]
  rw [if_pos ⟨le_rfl, le_rfl⟩]
  simp only [AuthWorld.advance, failingWorld, failedWorld, AuthWorld.start,
    AuthWorld.failureEntries, Ephemeral.recordFailure, hclean, shiftRemove_single,
    Ephemeral.pushFailure, Ephemeral.evictFailures, hevict, hevictions]

theorem invalid_requests (count : Nat) : ∃ failures order log calls,
    (authSystem verify).Reachable (failedWorld failures order log calls) ∧
      order.length = count ∧ (∀ key ∈ failures.keys, key = "invalid-device") ∧
      ∀ entry ∈ failures.entries, entry.2 ≠ [] ∧ ∀ time ∈ entry.2, time = 0 := by
  induction count with
  | zero =>
    exact ⟨.empty, [], [], 0, .start ⟨.empty, rfl⟩, rfl, fun _ hkey => (nomatch hkey),
      fun _ hentry => (nomatch hentry)⟩
  | succ count ih =>
    obtain ⟨failures, order, log, calls, hrun, hlength, hkeys, hzero⟩ := ih
    have hnext : ∀ key ∈ (failures.insert "invalid-device"
        ((failures.get? "invalid-device").getD [] ++ [0])).keys, key = "invalid-device" := by
      intro key hkey
      obtain ⟨times, htimes⟩ := mem_keys.mp hkey
      rw [get?_insert] at htimes
      split at htimes
      · assumption
      · exact hkeys key (mem_keys.mpr ⟨times, htimes⟩)
    have hsmall : (failures.insert "invalid-device"
        ((failures.get? "invalid-device").getD [] ++ [0])).length ≤ maxFailureKeys := by
      have hone : (failures.insert "invalid-device"
          ((failures.get? "invalid-device").getD [] ++ [0])).keys.length ≤ 1 :=
        have hsub : _ ⊆ ["invalid-device"] := fun key hkey => mem_singleton.mpr (hnext key hkey)
        ((IndexMap.nodup _).subperm hsub).length_le
      rw [length_keys] at hone
      exact hone.trans (by decide)
    refine ⟨_, _, _, _, run_invalid hrun hzero hsmall, ?_, hnext, zero_insert hzero _⟩
    rw [length_append, length_singleton, hlength]

/-- No constant bounds the queue of failures. -/
theorem failureOrder_unbounded : ¬ ∃ bound, ∀ world,
    (authSystem fun _ _ _ => false).Reachable world →
      world.ephemeral.failureOrder.length ≤ bound := by
  rintro ⟨bound, hbound⟩
  obtain ⟨failures, order, log, calls, hrun, hlength, -, -⟩ :=
    @invalid_requests (fun _ _ _ => false) (bound + 1)
  have hle : order.length ≤ bound := hbound _ hrun
  omega

end Invalid

def invalidTwice : List AuthAction :=
  [.begin (.authenticate ⟨"", "", ""⟩), .step 0 ⟨false, "", 0, 0⟩, .step 0 ⟨false, "", 0, 0⟩,
    .begin (.authenticate ⟨"", "", ""⟩), .step 1 ⟨false, "", 0, 0⟩, .step 1 ⟨false, "", 0, 0⟩]

theorem ephemeral_bounded_sample : ∃ state,
    (countedSystem fun _ _ _ => false).Run (WithinBudget 1) state ∧
      state.1.ephemeral.failureOrder = ["invalid-device", "invalid-device"] ∧
      ShortQueues 1 state.1.ephemeral := by
  have hrpl : ((countedSystem fun _ _ _ => false).replay
      (fun state action => decide (state.2 + action.strays state.1 ≤ 1))
      (.start .empty, 0) invalidTwice).isSome = true := by decide
  obtain ⟨state, hstate⟩ := isSome_iff_exists.mp hrpl
  have hrun : (countedSystem fun _ _ _ => false).Run (WithinBudget 1) state :=
    System.replay_run (System.Run.start ⟨⟨.empty, rfl⟩, rfl⟩)
      (fun s action _ hcheck => by simpa [WithinBudget] using hcheck) hstate
  have horder : (((countedSystem fun _ _ _ => false).replay
      (fun state action => decide (state.2 + action.strays state.1 ≤ 1))
      (.start .empty, 0) invalidTwice).map fun state => state.1.ephemeral.failureOrder) =
        some ["invalid-device", "invalid-device"] := by decide
  rw [hstate] at horder
  exact ⟨state, hrun, some_injective _ horder, (ephemeral_bounded _).2 1 state hrun⟩

end Yaade.Access

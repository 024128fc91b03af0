import Yaade.Access.DeviceAuth

/-!
Where a session comes from.
-/

namespace Yaade.Access

open Yaade.Library List Option IndexMap

/-- What is drawn at random is new, and no one presents a token that was drawn
but not returned to anyone. -/
def FreshDraws (world : AuthWorld) : AuthAction → Prop
  | .begin request => ∀ token ∈ request.presents,
      token ∈ world.returned.map Prod.fst ∨ token ∉ world.issues.map Issue.token
  | .step _ env => env.random ∉ world.issues.map Issue.token ∧ env.random ∉ world.presented ∧
      env.random ∉ world.challenged.map Prod.fst
  | _ => True

variable {verifySignature : String → String → String → Bool}

/-- From a token back to an authentication of the device: its nonce came from a
challenge of the device less than the challenge's lifetime before the check,
was taken by that call, and is signed with the device's stored key. -/
inductive Chain (verifySignature : String → String → String → Bool) (world : AuthWorld)
    (deviceId : String) : String → Prop where
  | authenticated {issue : Issue} {call : Nat} {nonce signature : String}
      {checkedAt issuedAt : Instant} {device : Device} (hissue : issue ∈ world.issues)
      (hdevice : issue.deviceId = deviceId)
      (horigin : issue.origin = .authenticated call nonce signature checkedAt)
      (hchal : (nonce, deviceId, issuedAt) ∈ world.challenged)
      (hbef : issuedAt ≤ checkedAt) (htimely : checkedAt < issuedAt + challengeTtl)
      (htaken : (nonce, call) ∈ world.taken)
      (hstored : world.devices.get? deviceId = some device)
      (hverified : verifySignature device.publicKey nonce signature = true) :
      Chain verifySignature world deviceId issue.token
  | rotated {issue : Issue} {token : String} (hissue : issue ∈ world.issues)
      (hdevice : issue.deviceId = deviceId) (horigin : issue.origin = .rotated token)
      (hconsumed : token ∈ world.consumed) (hchain : Chain verifySignature world deviceId token) :
      Chain verifySignature world deviceId issue.token

/-- What a later state keeps. -/
structure Grows (world world' : AuthWorld) : Prop where
  clock : world.clock ≤ world'.clock
  devices : ∀ deviceId device, world.devices.get? deviceId = some device →
    ∃ device', world'.devices.get? deviceId = some device' ∧
      device'.publicKey = device.publicKey ∧ device'.scopes = device.scopes
  paired : world.paired ⊆ world'.paired
  revoked : world.revoked ⊆ world'.revoked
  challenged : world.challenged ⊆ world'.challenged
  taken : world.taken ⊆ world'.taken
  presented : world.presented ⊆ world'.presented
  issues : world.issues ⊆ world'.issues
  unpresented : ∀ issue ∈ world'.issues, issue ∈ world.issues ∨ issue.token ∉ world.presented
  consumed : world.consumed ⊆ world'.consumed
  returned : world.returned ⊆ world'.returned

theorem Grows.refl (world : AuthWorld) : Grows world world :=
  ⟨le_rfl, fun _ device h => ⟨device, h, rfl, rfl⟩, fun _ h => h, fun _ h => h,
    fun _ h => h, fun _ h => h, fun _ h => h, fun _ h => h, fun _ h => .inl h, fun _ h => h,
    fun _ h => h⟩

theorem Chain.mono {world world' : AuthWorld} (hgrows : Grows world world')
    {deviceId token : String} (h : Chain verifySignature world deviceId token) :
    Chain verifySignature world' deviceId token := by
  induction h with
  | authenticated hissue hdevice horigin hchal hbef htimely htaken hstored hverified =>
    obtain ⟨device', hstored', hkey, -⟩ := hgrows.devices _ _ hstored
    exact .authenticated (hgrows.issues hissue) hdevice horigin (hgrows.challenged hchal)
      hbef htimely (hgrows.taken htaken) hstored' (hkey ▸ hverified)
  | rotated hissue hdevice horigin hconsumed _ ih =>
    exact .rotated (hgrows.issues hissue) hdevice horigin (hgrows.consumed hconsumed) ih

def Issued (world : AuthWorld) (token : String) (session : Session) : Prop :=
  ∃ issue ∈ world.issues, issue.token = token ∧ issue.deviceId = session.deviceId ∧
    issue.scopes = session.scopes ∧ session.expiresAt = issue.issuedAt + sessionTtl

def ReturnedBy (world : AuthWorld) (token : String) (moment : Instant) : Prop :=
  ∃ time ≤ moment, (token, time) ∈ world.returned

/-- What a `session` call may say: the token is that of a session of the device,
and was returned less than the lifetime of a session before it was looked up; no
rotation had consumed it by then, and the device was not revoked before the
call. -/
structure AnswerSound (verifySignature : String → String → String → Bool) (world : AuthWorld)
    (answer : SessionAnswer) : Prop where
  chain : Chain verifySignature world answer.deviceId answer.token
  returned : ∃ time ≤ answer.lookedUpAt, (answer.token, time) ∈ world.returned ∧
    answer.lookedUpAt < time + sessionTtl
  notConsumed : answer.token ∉ answer.consumed
  notRevoked : answer.deviceId ∉ answer.revokedBefore
  paired : (answer.deviceId, answer.scopes) ∈ world.paired
  notAdmin : DeviceScope.admin ∉ answer.scopes

theorem AnswerSound.mono {world world' : AuthWorld} (hgrows : Grows world world')
    {answer : SessionAnswer} (h : AnswerSound verifySignature world answer) :
    AnswerSound verifySignature world' answer := by
  obtain ⟨time, hle, hreturned, hlate⟩ := h.returned
  exact ⟨h.chain.mono hgrows, ⟨time, hle, hgrows.returned hreturned, hlate⟩, h.notConsumed,
    h.notRevoked, hgrows.paired h.paired, h.notAdmin⟩

def CallSound (verifySignature : String → String → String → Bool) (world : AuthWorld) (id : Nat)
    (thread : Thread) : Prop :=
  match thread.call with
  | .pairConsume _ _ scopes | .pairInsert _ scopes =>
    normalizedScopes scopes = scopes ∧ DeviceScope.admin ∉ scopes
  | .authenticateRow input (some challenge) =>
    ∃ issuedAt ≤ thread.since, (input.nonce, challenge.deviceId, issuedAt) ∈ world.challenged ∧
      challenge.expiresAt = issuedAt + challengeTtl ∧ (input.nonce, id) ∈ world.taken
  | .authenticateOpen input _ checkedAt device =>
    (∃ issuedAt ≤ checkedAt, (input.nonce, input.deviceId, issuedAt) ∈ world.challenged ∧
      checkedAt < issuedAt + challengeTtl) ∧ (input.nonce, id) ∈ world.taken ∧
    ∃ row, world.devices.get? input.deviceId = some row ∧ row.scopes = device.scopes ∧
      verifySignature row.publicKey input.nonce input.signature = true
  | .authenticateTouch token | .rotateTouch token | .rotateAudit token =>
    ∃ issue ∈ world.issues, issue.token = token
  | .sessionGet token => token ∈ world.presented ∧
      (token ∈ world.returned.map Prod.fst ∨ token ∉ world.issues.map Issue.token)
  | .sessionRow token session lookedUpAt consumed =>
    Issued world token session ∧ ReturnedBy world token lookedUpAt ∧
      lookedUpAt < session.expiresAt ∧ token ∉ consumed
  | .sessionTouch token session lookedUpAt consumed =>
    (Issued world token session ∧ ReturnedBy world token lookedUpAt ∧
      lookedUpAt < session.expiresAt ∧ token ∉ consumed) ∧
    session.deviceId ∉ thread.revokedBefore
  | .rotateRow token session | .rotatePut token session =>
    Issued world token session ∧ token ∈ world.consumed
  | _ => True

structure ThreadSound (verifySignature : String → String → String → Bool) (world : AuthWorld)
    (id : Nat) (thread : Thread) : Prop where
  revoked : thread.revokedBefore ⊆ world.revoked
  call : CallSound verifySignature world id thread

theorem Issued.mono {world world' : AuthWorld} (hgrows : Grows world world') {token : String}
    {session : Session} (h : Issued world token session) : Issued world' token session := by
  obtain ⟨issue, hissue, hrest⟩ := h
  exact ⟨issue, hgrows.issues hissue, hrest⟩

theorem ReturnedBy.mono {world world' : AuthWorld} (hgrows : Grows world world') {token : String}
    {moment : Instant} (h : ReturnedBy world token moment) : ReturnedBy world' token moment := by
  obtain ⟨time, hle, hreturned⟩ := h
  exact ⟨time, hle, hgrows.returned hreturned⟩

/-- What a call holds does not depend on what others do. -/
theorem ThreadSound.mono {world world' : AuthWorld} (hgrows : Grows world world') {id : Nat}
    {thread : Thread} (h : ThreadSound verifySignature world id thread) :
    ThreadSound verifySignature world' id thread := by
  refine ⟨fun _ hmem => hgrows.revoked (h.revoked hmem), ?_⟩
  have hcall := h.call
  obtain ⟨call, since, revokedBefore⟩ := thread
  cases call with
  | pairConsume | pairInsert => exact hcall
  | authenticateRow input challenge =>
    cases challenge with
    | none => trivial
    | some challenge =>
      obtain ⟨issuedAt, hle, hchal, hexpires, htaken⟩ := hcall
      exact ⟨issuedAt, hle, hgrows.challenged hchal, hexpires, hgrows.taken htaken⟩
  | authenticateOpen input challenge checkedAt device =>
    obtain ⟨⟨issuedAt, hle, hchal, htimely⟩, htaken, row, hrow, hscopes, hverified⟩ := hcall
    obtain ⟨row', hrow', hkey, hscopes'⟩ := hgrows.devices _ _ hrow
    exact ⟨⟨issuedAt, hle, hgrows.challenged hchal, htimely⟩, hgrows.taken htaken, row',
      hrow', hscopes'.trans hscopes, hkey ▸ hverified⟩
  | authenticateTouch | rotateTouch | rotateAudit =>
    obtain ⟨issue, hissue, htoken⟩ := hcall
    exact ⟨issue, hgrows.issues hissue, htoken⟩
  | sessionGet token =>
    obtain ⟨hpresented, hknown⟩ := hcall
    refine ⟨hgrows.presented hpresented, ?_⟩
    rcases hknown with hreturned | hnew
    · exact .inl (map_subset _ hgrows.returned hreturned)
    right
    intro hmem
    obtain ⟨issue, hissue, rfl⟩ := List.mem_map.mp hmem
    rcases hgrows.unpresented issue hissue with hold | hunpresented
    · exact hnew (List.mem_map.mpr ⟨issue, hold, rfl⟩)
    · exact hunpresented hpresented
  | sessionRow token session lookedUpAt consumed =>
    obtain ⟨hiss, hreturned, hrest⟩ := hcall
    exact ⟨hiss.mono hgrows, hreturned.mono hgrows, hrest⟩
  | sessionTouch token session lookedUpAt consumed =>
    obtain ⟨⟨hiss, hreturned, hrest⟩, hrevoked⟩ := hcall
    exact ⟨⟨hiss.mono hgrows, hreturned.mono hgrows, hrest⟩, hrevoked⟩
  | rotateRow | rotatePut =>
    obtain ⟨hiss, hconsumed⟩ := hcall
    exact ⟨hiss.mono hgrows, hgrows.consumed hconsumed⟩
  | _ => trivial

/-! ## The tables -/

structure AuthTables (verifySignature : String → String → String → Bool) (world : AuthWorld) :
    Prop where
  devices : ∀ deviceId device, world.devices.get? deviceId = some device →
    (deviceId, device.scopes) ∈ world.paired ∧ normalizedScopes device.scopes = device.scopes ∧
      DeviceScope.admin ∉ device.scopes
  paired : ∀ deviceId scopes, (deviceId, scopes) ∈ world.paired →
    ∃ device, world.devices.get? deviceId = some device
  pairedOnce : (world.paired.map Prod.fst).Nodup
  revoked : ∀ deviceId ∈ world.revoked, ∃ device, world.devices.get? deviceId = some device ∧
    device.revoked = true
  challenges : ∀ nonce challenge, world.ephemeral.challenges.get? nonce = some challenge →
    (∃ issuedAt, (nonce, challenge.deviceId, issuedAt) ∈ world.challenged ∧
      challenge.expiresAt = issuedAt + challengeTtl) ∧ nonce ∉ world.taken.map Prod.fst
  challenged : ∀ nonce deviceId issuedAt, (nonce, deviceId, issuedAt) ∈ world.challenged →
    issuedAt ≤ world.clock
  taken : ∀ nonce id, (nonce, id) ∈ world.taken → nonce ∈ world.challenged.map Prod.fst
  takenOnce : (world.taken.map Prod.fst).Nodup
  sessions : ∀ token session, world.ephemeral.sessions.get? token = some session →
    Issued world token session ∧ token ∉ world.consumed
  issuesOnce : (world.issues.map Issue.token).Nodup
  issues : ∀ issue ∈ world.issues, Chain verifySignature world issue.deviceId issue.token ∧
    (issue.deviceId, issue.scopes) ∈ world.paired ∧ DeviceScope.admin ∉ issue.scopes ∧
    issue.issuedAt ≤ world.clock
  consumed : ∀ token ∈ world.consumed, token ∈ world.issues.map Issue.token
  returned : ∀ token time, (token, time) ∈ world.returned →
    ∃ issue ∈ world.issues, issue.token = token ∧ issue.issuedAt ≤ time ∧ time ≤ world.clock
  answers : ∀ answer ∈ world.answers, AnswerSound verifySignature world answer

section Ephemeral

variable {ephemeral : Ephemeral} {now : Instant} {key token nonce : String}

theorem cleanup_challenges {challenge : PendingChallenge}
    (h : (ephemeral.cleanup now).challenges.get? nonce = some challenge) :
    ephemeral.challenges.get? nonce = some challenge :=
  (get?_retain_eq_some.mp h).1

theorem cleanup_sessions {session : Session}
    (h : (ephemeral.cleanup now).sessions.get? token = some session) :
    ephemeral.sessions.get? token = some session ∧ now < session.expiresAt := by
  obtain ⟨hget, hlate⟩ := get?_retain_eq_some.mp h
  exact ⟨hget, of_decide_eq_true hlate⟩

theorem putSession_sessions {session other : Session} {old : String}
    (h : (ephemeral.putSession token session).sessions.get? old = some other) :
    old = token ∧ other = session ∨ ephemeral.sessions.get? old = some other := by
  have hget := evict_get? h
  rw [get?_insert] at hget
  split at hget
  · rename_i hold
    exact .inl ⟨hold, (Option.some.inj hget).symm⟩
  · exact .inr hget

theorem putChallenge_challenges {challenge other : PendingChallenge} {old : String}
    (h : (ephemeral.putChallenge nonce challenge).challenges.get? old = some other) :
    old = nonce ∧ other = challenge ∨ ephemeral.challenges.get? old = some other := by
  have hget := evict_get? h
  rw [get?_insert] at hget
  split at hget
  · rename_i hold
    exact .inl ⟨hold, (Option.some.inj hget).symm⟩
  · exact .inr hget

end Ephemeral

/-! ## Scopes -/

theorem normalize_nodup (scopes result : List DeviceScope) (h : result.Nodup) :
    (scopes.foldl (fun result scope =>
      if scope ∈ result then result else result ++ [scope]) result).Nodup := by
  induction scopes generalizing result with
  | nil => exact h
  | cons scope rest ih =>
    apply ih
    simp only
    split
    · exact h
    rename_i hnew
    exact nodup_append.mpr ⟨h, nodup_singleton _, by
      rintro a ha b hb rfl
      exact hnew (mem_singleton.mp hb ▸ ha)⟩

theorem normalize_self (scopes result : List DeviceScope) (h : (result ++ scopes).Nodup) :
    scopes.foldl (fun result scope =>
      if scope ∈ result then result else result ++ [scope]) result = result ++ scopes := by
  induction scopes generalizing result with
  | nil => rw [append_nil]; rfl
  | cons scope rest ih =>
    have hnew : scope ∉ result := fun hmem =>
      (nodup_append.mp h).2.2 scope hmem scope mem_cons_self rfl
    rw [foldl_cons, if_neg hnew, ih _ (by rw [append_assoc]; exact h),
      append_assoc]
    rfl

theorem normalizedScopes_idem (scopes : List DeviceScope) :
    normalizedScopes (normalizedScopes scopes) = normalizedScopes scopes := by
  have hself : ∀ result : List DeviceScope, result.Nodup → result ≠ [] →
      normalizedScopes result = result := by
    intro result hnodup hne
    unfold normalizedScopes
    rw [normalize_self result [] (by rw [nil_append]; exact hnodup), nil_append]
    cases result with
    | nil => exact absurd rfl hne
    | cons scope rest => rfl
  apply hself
  · unfold normalizedScopes
    simp only
    split
    · exact nodup_singleton _
    · exact normalize_nodup scopes [] nodup_nil
  · unfold normalizedScopes
    simp only
    split
    · exact cons_ne_nil _ _
    rename_i hsome
    rintro hnil
    rw [hnil] at hsome
    exact hsome rfl

/-! ## One step of a call -/

section Advance

variable {world : AuthWorld} {id : Nat} {thread : Thread} {env : Surroundings}

/-- What an advance from one state to the next leaves. -/
structure Advanced (verifySignature : String → String → String → Bool) (world next : AuthWorld) :
    Prop where
  grows : Grows world next
  tables : AuthTables verifySignature next

theorem Advanced.of_grows {next : AuthWorld} (hgrows : Grows world next)
    (h : Grows world next → AuthTables verifySignature next) :
    Advanced verifySignature world next := ⟨hgrows, h hgrows⟩

section

variable (h : AuthTables verifySignature world)
include h

theorem AuthTables.issues_mono {next : AuthWorld} (hgrows : Grows world next) :
    ∀ issue ∈ world.issues, Chain verifySignature next issue.deviceId issue.token ∧
      (issue.deviceId, issue.scopes) ∈ world.paired ∧ DeviceScope.admin ∉ issue.scopes ∧
      issue.issuedAt ≤ world.clock :=
  fun issue hissue => ⟨(h.issues issue hissue).1.mono hgrows, (h.issues issue hissue).2⟩

theorem AuthTables.answers_mono {next : AuthWorld} (hgrows : Grows world next) :
    ∀ answer ∈ world.answers, AnswerSound verifySignature next answer :=
  fun answer hanswer => (h.answers answer hanswer).mono hgrows

theorem AuthTables.shrink (ephemeral : Ephemeral)
    (hchallenges : ∀ nonce challenge, ephemeral.challenges.get? nonce = some challenge →
      world.ephemeral.challenges.get? nonce = some challenge)
    (hsessions : ∀ token session, ephemeral.sessions.get? token = some session →
      world.ephemeral.sessions.get? token = some session) (failureLog : List FailureEntry) :
    Advanced verifySignature world
      { world with ephemeral := ephemeral, failureLog := failureLog } := by
  refine .of_grows { Grows.refl world with } fun hgrows => ?_
  exact { h with
    challenges := fun nonce challenge hget =>
      h.challenges nonce challenge (hchallenges nonce challenge hget)
    sessions := fun token session hget => h.sessions token session (hsessions token session hget)
    issues := h.issues_mono hgrows
    answers := h.answers_mono hgrows }

theorem AuthTables.cleanup (now : Instant) :
    Advanced verifySignature world { world with ephemeral := world.ephemeral.cleanup now } :=
  h.shrink _ (fun _ _ => cleanup_challenges) (fun _ _ hget => (cleanup_sessions hget).1)
    world.failureLog

/-- A new device is paired. -/
theorem AuthTables.pair {deviceId : String} (publicKey : String)
    {scopes : List DeviceScope} (hnew : world.devices.get? deviceId = none)
    (hnormal : normalizedScopes scopes = scopes) (hadmin : DeviceScope.admin ∉ scopes) :
    Advanced verifySignature world { world with
        devices := world.devices.insert deviceId ⟨publicKey, scopes, false⟩
        paired := world.paired ++ [(deviceId, scopes)] } := by
  have hkept : ∀ other device, world.devices.get? other = some device →
      (world.devices.insert deviceId ⟨publicKey, scopes, false⟩).get? other = some device := by
    intro other device hget
    rw [get?_insert, if_neg]
    · exact hget
    · rintro rfl
      rw [hnew] at hget
      cases hget
  refine .of_grows { Grows.refl world with
    devices := fun other device hget => ⟨device, hkept other device hget, rfl, rfl⟩
    paired := subset_append_left _ _ } fun hgrows => ?_
  refine { h with
    devices := ?_, paired := ?_, pairedOnce := ?_, revoked := ?_, issues := ?_
    answers := h.answers_mono hgrows }
  · intro other device hget
    rw [get?_insert] at hget
    split at hget
    · rename_i hother
      cases hget
      exact ⟨mem_append_right _ (mem_singleton.mpr (by rw [hother])), hnormal, hadmin⟩
    · obtain ⟨hpaired, hrest⟩ := h.devices other device hget
      exact ⟨mem_append_left _ hpaired, hrest⟩
  · intro other otherScopes hmem
    rw [get?_insert]
    split
    · exact ⟨_, rfl⟩
    rename_i hother
    rcases mem_append.mp hmem with hold | hlast
    · exact h.paired other otherScopes hold
    · exact absurd (congrArg Prod.fst (mem_singleton.mp hlast)) hother
  · rw [map_append]
    refine nodup_append.mpr ⟨h.pairedOnce, nodup_singleton _, ?_⟩
    intro other hother last hlast hsame
    obtain ⟨⟨_, otherScopes⟩, hmem, rfl⟩ := List.mem_map.mp hother
    obtain ⟨device, hget⟩ := h.paired _ _ hmem
    have hid := hsame.trans (mem_singleton.mp hlast)
    simp only at hid
    rw [hid, hnew] at hget
    cases hget
  · intro other hother
    obtain ⟨device, hget, hrevoked⟩ := h.revoked other hother
    exact ⟨device, hkept other device hget, hrevoked⟩
  · intro issue hissue
    obtain ⟨hchain, hpaired, hrest⟩ := h.issues issue hissue
    exact ⟨hchain.mono hgrows, mem_append_left _ hpaired, hrest⟩

end

section

variable (h : AuthTables verifySignature world)
include h

/-- A challenge is handed out. -/
theorem AuthTables.challenge (deviceId : String)
    {nonce : String} {instant : Instant} (hfresh : nonce ∉ world.challenged.map Prod.fst)
    (hinstant : instant ≤ world.clock) :
    Advanced verifySignature world { world with
        ephemeral := (world.ephemeral.cleanup world.clock).putChallenge nonce
          ⟨deviceId, instant + challengeTtl⟩
        challenged := world.challenged ++ [(nonce, deviceId, instant)] } := by
  refine .of_grows { Grows.refl world with challenged := subset_append_left _ _ } fun hgrows => ?_
  refine { h with
    challenges := ?_, challenged := ?_, taken := ?_, sessions := ?_
    issues := h.issues_mono hgrows, answers := h.answers_mono hgrows }
  · intro other challenge hget
    rcases putChallenge_challenges hget with ⟨rfl, rfl⟩ | hold
    · refine ⟨⟨instant, mem_concat_self, rfl⟩, ?_⟩
      intro hmem
      obtain ⟨⟨_, call⟩, htaken, rfl⟩ := List.mem_map.mp hmem
      exact hfresh (h.taken _ _ htaken)
    · obtain ⟨⟨issuedAt, hchal, hexpires⟩, hrest⟩ :=
        h.challenges other challenge (cleanup_challenges hold)
      exact ⟨⟨issuedAt, mem_append_left _ hchal, hexpires⟩, hrest⟩
  · intro other device issuedAt hmem
    rcases mem_append.mp hmem with hold | hlast
    · exact h.challenged other device issuedAt hold
    · cases mem_singleton.mp hlast
      exact hinstant
  · intro other call hmem
    rw [map_append]
    exact mem_append_left _ (h.taken other call hmem)
  · intro token session hget
    exact h.sessions token session (cleanup_sessions hget).1

/-- A challenge is taken. -/
theorem AuthTables.take (id : Nat) {nonce : String}
    {challenge : PendingChallenge}
    (hget : (world.ephemeral.cleanup world.clock).challenges.get? nonce = some challenge) :
    Advanced verifySignature world { world with
        ephemeral := { world.ephemeral.cleanup world.clock with
          challenges := (world.ephemeral.cleanup world.clock).challenges.shiftRemove nonce }
        taken := world.taken ++ [(nonce, id)] } := by
  obtain ⟨⟨issuedAt, hchal, -⟩, huntaken⟩ := h.challenges nonce challenge (cleanup_challenges hget)
  refine .of_grows { Grows.refl world with taken := subset_append_left _ _ } fun hgrows => ?_
  refine { h with
    challenges := ?_, taken := ?_, takenOnce := ?_, sessions := ?_
    issues := h.issues_mono hgrows, answers := h.answers_mono hgrows }
  · intro other found hother
    obtain ⟨hne, hother⟩ := get?_shiftRemove_eq_some.mp hother
    obtain ⟨hiss, hnot⟩ := h.challenges other found (cleanup_challenges hother)
    refine ⟨hiss, ?_⟩
    rw [map_append, mem_append, not_or]
    exact ⟨hnot, fun hlast => hne (mem_singleton.mp hlast)⟩
  · intro other call hmem
    rcases mem_append.mp hmem with hold | hlast
    · exact h.taken other call hold
    · cases mem_singleton.mp hlast
      exact List.mem_map.mpr ⟨_, hchal, rfl⟩
  · rw [map_append]
    refine nodup_append.mpr ⟨h.takenOnce, nodup_singleton _, ?_⟩
    intro other hother last hlast hsame
    have hnonce : other = nonce := hsame.trans (mem_singleton.mp hlast)
    exact huntaken (hnonce ▸ hother)
  · intro token session hsess
    exact h.sessions token session (cleanup_sessions hsess).1

/-- A session is put into the table. -/
theorem AuthTables.issue (issue : Issue)
    (ephemeral : Ephemeral) (failureLog : List FailureEntry)
    (hfresh : issue.token ∉ world.issues.map Issue.token) (hunpresented : issue.token ∉ world.presented)
    (hchallenges : ephemeral.challenges = world.ephemeral.challenges)
    (hsessions : ephemeral.sessions = world.ephemeral.sessions)
    (hpaired : (issue.deviceId, issue.scopes) ∈ world.paired)
    (hadmin : DeviceScope.admin ∉ issue.scopes) (hissuedAt : issue.issuedAt ≤ world.clock)
    (hchain : ∀ world', Grows world world' → issue ∈ world'.issues →
      Chain verifySignature world' issue.deviceId issue.token) :
    Advanced verifySignature world { world with
        ephemeral := ephemeral.putSession issue.token
          ⟨issue.deviceId, issue.scopes, issue.issuedAt + sessionTtl⟩
        issues := world.issues ++ [issue]
        failureLog := failureLog } := by
  have hpresented : ∀ other ∈ world.issues ++ [issue],
      other ∈ world.issues ∨ other.token ∉ world.presented := by
    intro other hother
    rcases mem_append.mp hother with hold | hlast
    · exact .inl hold
    · cases mem_singleton.mp hlast
      exact .inr hunpresented
  refine .of_grows { Grows.refl world with
    issues := subset_append_left _ _, unpresented := hpresented } fun hgrows => ?_
  refine { h with
    challenges := ?_, sessions := ?_, issuesOnce := ?_, issues := ?_, consumed := ?_
    returned := ?_, answers := h.answers_mono hgrows }
  · intro nonce challenge hget
    exact h.challenges nonce challenge (hchallenges ▸ hget)
  · intro token session hget
    rcases putSession_sessions hget with ⟨rfl, rfl⟩ | hold
    · refine ⟨⟨issue, mem_concat_self, rfl, rfl, rfl, rfl⟩, ?_⟩
      intro hconsumed
      exact hfresh (h.consumed _ hconsumed)
    · rw [hsessions] at hold
      obtain ⟨hiss, hnot⟩ := h.sessions token session hold
      exact ⟨hiss.mono hgrows, hnot⟩
  · rw [map_append]
    refine nodup_append.mpr ⟨h.issuesOnce, nodup_singleton _, ?_⟩
    rintro other hother last hlast rfl
    exact hfresh (mem_singleton.mp hlast ▸ hother)
  · intro other hother
    rcases mem_append.mp hother with hold | hlast
    · exact ⟨(h.issues other hold).1.mono hgrows, (h.issues other hold).2⟩
    · cases mem_singleton.mp hlast
      exact ⟨hchain _ hgrows hother, hpaired, hadmin, hissuedAt⟩
  · intro token hconsumed
    exact map_subset _ hgrows.issues (h.consumed token hconsumed)
  · intro token time hreturned
    obtain ⟨other, hother, hrest⟩ := h.returned token time hreturned
    exact ⟨other, hgrows.issues hother, hrest⟩

theorem AuthTables.return {token : String}
    (hissue : ∃ issue ∈ world.issues, issue.token = token) :
    Advanced verifySignature world { world with returned := world.returned ++ [(token, world.clock)] } := by
  refine .of_grows { Grows.refl world with returned := subset_append_left _ _ } fun hgrows => ?_
  refine { h with
    returned := ?_, issues := h.issues_mono hgrows, answers := h.answers_mono hgrows }
  intro other time hmem
  rcases mem_append.mp hmem with hold | hlast
  · exact h.returned other time hold
  cases mem_singleton.mp hlast
  obtain ⟨issue, hmem', rfl⟩ := hissue
  exact ⟨issue, hmem', rfl, (h.issues issue hmem').2.2.2, le_rfl⟩

theorem AuthTables.answer (answer : SessionAnswer)
    (hanswer : AnswerSound verifySignature world answer) :
    Advanced verifySignature world { world with answers := world.answers ++ [answer] } := by
  refine .of_grows { Grows.refl world with } fun hgrows => ?_
  refine { h with issues := h.issues_mono hgrows, answers := ?_ }
  intro other hmem
  rcases mem_append.mp hmem with hold | hlast
  · exact h.answers_mono hgrows other hold
  · cases mem_singleton.mp hlast
    exact hanswer.mono hgrows

end

section

variable (h : AuthTables verifySignature world)
include h

theorem AuthTables.consume {token : String} {session : Session}
    (hget : (world.ephemeral.cleanup world.clock).sessions.get? token = some session) :
    Advanced verifySignature world { world with
        ephemeral := { world.ephemeral.cleanup world.clock with
          sessions := (world.ephemeral.cleanup world.clock).sessions.shiftRemove token }
        consumed := world.consumed ++ [token] } := by
  obtain ⟨⟨issue, hissue, htoken, -⟩, -⟩ := h.sessions token session (cleanup_sessions hget).1
  refine .of_grows { Grows.refl world with consumed := subset_append_left _ _ } fun hgrows => ?_
  refine { h with
    challenges := ?_, sessions := ?_, consumed := ?_
    issues := h.issues_mono hgrows, answers := h.answers_mono hgrows }
  · intro nonce challenge hchallenge
    exact h.challenges nonce challenge (cleanup_challenges hchallenge)
  · intro other found hother
    obtain ⟨hne, hother⟩ := get?_shiftRemove_eq_some.mp hother
    obtain ⟨hiss, hnot⟩ := h.sessions other found (cleanup_sessions hother).1
    refine ⟨hiss, ?_⟩
    rw [mem_append, not_or]
    exact ⟨hnot, fun hlast => hne (mem_singleton.mp hlast)⟩
  · intro other hother
    rcases mem_append.mp hother with hold | hlast
    · exact h.consumed other hold
    · cases mem_singleton.mp hlast
      exact List.mem_map.mpr ⟨issue, hissue, htoken⟩

/-- A device is revoked in the database. -/
theorem AuthTables.revoke (deviceId : String) : Advanced verifySignature world { world with
        devices := world.devices.modify deviceId fun device => { device with revoked := true }
        revoked := if world.devices.contains deviceId then world.revoked ++ [deviceId]
          else world.revoked } := by
  have hkept : ∀ other device, world.devices.get? other = some device →
      ∃ device', (world.devices.modify deviceId fun device =>
          { device with revoked := true }).get? other = some device' ∧
        device'.publicKey = device.publicKey ∧ device'.scopes = device.scopes ∧
        (device.revoked = true ∨ other = deviceId → device'.revoked = true) := by
    intro other device hget
    rw [get?_modify, hget]
    split
    · exact ⟨_, rfl, rfl, rfl, fun _ => rfl⟩
    · rename_i hother
      exact ⟨device, rfl, rfl, rfl, fun h => h.resolve_right hother⟩
  refine .of_grows { Grows.refl world with devices := ?_, revoked := ?_ } fun hgrows => ?_
  · intro other device hget
    obtain ⟨device', hget', hkey, hscopes, -⟩ := hkept other device hget
    exact ⟨device', hget', hkey, hscopes⟩
  · simp only
    split
    · exact subset_append_left _ _
    · exact List.Subset.refl _
  refine { h with
    devices := ?_, paired := ?_, revoked := ?_
    issues := h.issues_mono hgrows, answers := h.answers_mono hgrows }
  · intro other device hget
    rw [get?_modify] at hget
    split at hget
    · obtain ⟨old, hold, rfl⟩ := map_eq_some_iff.mp hget
      exact h.devices other old hold
    · exact h.devices other device hget
  · intro other scopes hmem
    obtain ⟨device, hget⟩ := h.paired other scopes hmem
    obtain ⟨device', hget', -⟩ := hkept other device hget
    exact ⟨device', hget'⟩
  · intro other hother
    have hcases : other ∈ world.revoked ∨ other = deviceId ∧
        ∃ device, world.devices.get? deviceId = some device := by
      simp only at hother
      split at hother
      · rename_i hcont
        rcases mem_append.mp hother with hold | hlast
        · exact .inl hold
        · exact .inr ⟨mem_singleton.mp hlast, isSome_iff_exists.mp hcont⟩
      · exact .inl hother
    rcases hcases with hold | ⟨rfl, device, hget⟩
    · obtain ⟨device, hget, hrevoked⟩ := h.revoked other hold
      obtain ⟨device', hget', -, -, hset⟩ := hkept other device hget
      exact ⟨device', hget', hset (.inl hrevoked)⟩
    · obtain ⟨device', hget', -, -, hset⟩ := hkept other device hget
      exact ⟨device', hget', hset (.inr rfl)⟩

/-- One step of a call keeps the tables sound, takes nothing back, and leaves
the call with what it then holds. -/
theorem advance_sound
    (hthr : ThreadSound verifySignature world id thread) (hsince : thread.since ≤ env.instant)
    (hinstant : env.instant ≤ world.clock) (hrandom : env.random ∉ world.issues.map Issue.token)
    (hunpresented : env.random ∉ world.presented)
    (hnonce : env.random ∉ world.challenged.map Prod.fst) :
    Advanced verifySignature world (world.advance verifySignature id thread env).1 ∧
      ∀ call, (world.advance verifySignature id thread env).2 = some call →
        CallSound verifySignature (world.advance verifySignature id thread env).1 id
          { thread with call := call, since := world.clock } := by
  have hcleanup := h.cleanup world.clock
  have hsame : Advanced verifySignature world world := ⟨Grows.refl world, h⟩
  have hend : ∀ {P : Call → Prop} (call : Call), none = some call → P call := nofun
  obtain ⟨call, since, revokedBefore⟩ := thread
  have hcall := hthr.call
  cases call with
  | pairAssert input =>
    simp only [AuthWorld.advance]
    split
    · exact ⟨hcleanup, hend⟩
    split
    · exact ⟨hcleanup, fun _ h => by cases h; trivial⟩
    split
    · exact ⟨hcleanup, hend⟩
    · exact ⟨hcleanup, fun _ h => by cases h; trivial⟩
  | pairLookup input =>
    simp only [AuthWorld.advance]
    split
    · exact ⟨hsame, hend⟩
    split
    · exact ⟨hsame, fun _ h => by cases h; trivial⟩
    split
    · exact ⟨hsame, hend⟩
    rename_i hadmin
    exact ⟨hsame, fun _ h => by
      cases h
      exact ⟨normalizedScopes_idem _, hadmin⟩⟩
  | pairConsume input pairingId scopes =>
    simp only [AuthWorld.advance]
    split
    · exact ⟨hsame, hend⟩
    split
    · exact ⟨hsame, fun _ h => by cases h; trivial⟩
    split
    · exact ⟨hsame, fun _ h => by cases h; trivial⟩
    refine ⟨.of_grows { Grows.refl world with } fun hgrows => ?_,
      fun _ hnext => by cases hnext; exact hcall⟩
    exact { h with issues := h.issues_mono hgrows, answers := h.answers_mono hgrows }
  | pairInsert input scopes =>
    simp only [AuthWorld.advance]
    split
    · exact ⟨hsame, hend⟩
    rename_i hfails
    simp only [Bool.or_eq_true, not_or, Bool.not_eq_true] at hfails
    have hnew := isSome_eq_false_iff.mp hfails.2
    have hdone := h.pair input.publicKey (isNone_iff_eq_none.mp hnew) hcall.1 hcall.2
    exact ⟨hdone, hend⟩
  | recordFailure key passed =>
    have hdone := h.shrink (world.ephemeral.recordFailure key world.clock)
      (fun _ _ => cleanup_challenges) (fun _ _ hget => (cleanup_sessions hget).1)
      (world.failureLog ++ world.failureEntries key passed)
    exact ⟨hdone, hend⟩
  | challengeRow deviceId =>
    simp only [AuthWorld.advance]
    split
    · exact ⟨hsame, hend⟩
    split
    · exact ⟨hsame, hend⟩
    split
    · exact ⟨hsame, hend⟩
    · exact ⟨hsame, fun _ h => by cases h; trivial⟩
  | challengePut deviceId =>
    have hdone := h.challenge deviceId hnonce hinstant
    exact ⟨hdone, hend⟩
  | authenticateAssert input =>
    simp only [AuthWorld.advance]
    split
    · exact ⟨hsame, fun _ h => by cases h; trivial⟩
    split
    · exact ⟨hcleanup, hend⟩
    · exact ⟨hcleanup, fun _ h => by cases h; trivial⟩
  | authenticateTake input =>
    simp only [AuthWorld.advance]
    cases hget : (world.ephemeral.cleanup world.clock).challenges.get? input.nonce with
    | none =>
      simp only [isSome_none, Bool.false_eq_true, if_false]
      have hdone := h.shrink
        ({ world.ephemeral.cleanup world.clock with
          challenges := (world.ephemeral.cleanup world.clock).challenges.shiftRemove input.nonce })
        (fun nonce challenge hother => by
          exact cleanup_challenges (get?_shiftRemove_eq_some.mp hother).2)
        (fun _ _ hsess => (cleanup_sessions hsess).1) world.failureLog
      exact ⟨hdone, fun _ h => by cases h; trivial⟩
    | some challenge =>
      simp only [isSome_some, if_true]
      have hdone := h.take id hget
      refine ⟨hdone, fun _ hnext => ?_⟩
      cases hnext
      obtain ⟨⟨issuedAt, hchal, hexpires⟩, -⟩ := h.challenges _ _ (cleanup_challenges hget)
      exact ⟨issuedAt, h.challenged _ _ _ hchal, hchal, hexpires, mem_concat_self⟩
  | authenticateRow input challenge =>
    simp only [AuthWorld.advance]
    split
    · exact ⟨hsame, fun _ h => by cases h; trivial⟩
    rename_i kept hkept
    split
    · exact ⟨hsame, hend⟩
    split
    · exact ⟨hsame, fun _ h => by cases h; trivial⟩
    rename_i row hrow
    split
    · exact ⟨hsame, fun _ h => by cases h; trivial⟩
    rename_i hgood
    refine ⟨hsame, fun _ hnext => ?_⟩
    cases hnext
    obtain ⟨rfl, hfits⟩ := filter_eq_some_iff.mp hkept
    simp only [Bool.and_eq_true, decide_eq_true_eq] at hfits
    simp only [Bool.or_eq_true, not_or, Bool.not_eq_true, Bool.not_eq_false'] at hgood
    obtain ⟨issuedAt, hbef, hchal, hexpires, htaken⟩ := hcall
    obtain ⟨-, hnormal, -⟩ := h.devices _ _ hrow
    refine ⟨⟨issuedAt, Nat.le_trans hbef hsince, hfits.1 ▸ hchal, ?_⟩, htaken, row,
      hrow, hnormal.symm, hgood.2⟩
    have hlate := hfits.2
    rw [hexpires] at hlate
    exact hlate
  | authenticateOpen input challenge checkedAt device =>
    obtain ⟨⟨issuedAt, hbef, hchal, htimely⟩, htaken, row, hrow, hscopes, hverified⟩ := hcall
    obtain ⟨hpaired, -, hadmin⟩ := h.devices _ _ hrow
    rw [hscopes] at hpaired hadmin
    have hdone := h.issue
      ⟨env.random, input.deviceId, device.scopes, env.instant,
        .authenticated id input.nonce input.signature checkedAt⟩
      { world.ephemeral with
        failures := world.ephemeral.failures.shiftRemove input.deviceId }
      (world.failureLog ++ [.success input.deviceId])
      hrandom hunpresented rfl rfl hpaired hadmin hinstant
      (fun world' hgrows hissue => by
        obtain ⟨row', hrow', hkey, -⟩ := hgrows.devices _ _ hrow
        exact .authenticated hissue rfl rfl (hgrows.challenged hchal) hbef htimely
          (hgrows.taken htaken) hrow' (hkey ▸ hverified))
    refine ⟨hdone, fun _ hnext => ?_⟩
    cases hnext
    exact ⟨_, mem_concat_self, rfl⟩
  | authenticateTouch | rotateAudit =>
    simp only [AuthWorld.advance]
    split
    · exact ⟨hsame, hend⟩
    · have hdone := h.return hcall
      exact ⟨hdone, hend⟩
  | sessionGet token =>
    simp only [AuthWorld.advance]
    split
    · exact ⟨hcleanup, hend⟩
    rename_i session hsess
    refine ⟨hcleanup, fun _ hnext => ?_⟩
    cases hnext
    obtain ⟨hold, hlate⟩ := cleanup_sessions hsess
    obtain ⟨hiss, hnot⟩ := h.sessions token session hold
    have hreturned : token ∈ world.returned.map Prod.fst := by
      refine hcall.2.resolve_right fun hnone => ?_
      obtain ⟨issue, hissue, rfl, -⟩ := hiss
      exact hnone (List.mem_map.mpr ⟨issue, hissue, rfl⟩)
    obtain ⟨⟨other, time⟩, hmem, rfl⟩ := List.mem_map.mp hreturned
    obtain ⟨-, -, -, -, hpast⟩ := h.returned _ _ hmem
    exact ⟨hiss, ⟨time, hpast, hmem⟩, hlate, hnot⟩
  | sessionRow token session lookedUpAt consumed =>
    simp only [AuthWorld.advance]
    split
    · exact ⟨hsame, hend⟩
    split
    · exact ⟨hsame, hend⟩
    rename_i device hdevice
    split
    · exact ⟨hsame, hend⟩
    rename_i hlive
    refine ⟨hsame, fun _ hnext => ?_⟩
    cases hnext
    refine ⟨hcall, fun hmem => hlive ?_⟩
    obtain ⟨found, hfound, hrevoked⟩ := h.revoked _ (hthr.revoked hmem)
    rw [hdevice] at hfound
    cases hfound
    exact hrevoked
  | sessionTouch token session lookedUpAt consumed =>
    simp only [AuthWorld.advance]
    split
    · exact ⟨hsame, hend⟩
    obtain ⟨⟨⟨issue, hissue, htoken, hdevice, hscopes, hexpires⟩, ⟨time, hle, hreturned⟩, hlate,
      hnot⟩, hrevoked⟩ := hcall
    obtain ⟨hchain, hpaired, hadmin, -⟩ := h.issues issue hissue
    rw [htoken, hdevice] at hchain
    rw [hdevice, hscopes] at hpaired
    rw [hscopes] at hadmin
    obtain ⟨other, hother, hsametoken, hissuedAt, -⟩ := h.returned token time hreturned
    have hone : other = issue :=
      inj_on_of_nodup_map h.issuesOnce hother hissue (hsametoken.trans htoken.symm)
    rw [hone] at hissuedAt
    rw [hexpires] at hlate
    have hlife : lookedUpAt < time + sessionTtl :=
      Nat.lt_of_lt_of_le hlate (Nat.add_le_add_right hissuedAt sessionTtl)
    have hdone := h.answer
      ⟨token, session.deviceId, session.scopes, lookedUpAt, consumed, revokedBefore⟩
      ⟨hchain, ⟨time, hle, hreturned, hlife⟩, hnot, hrevoked, hpaired, hadmin⟩
    exact ⟨hdone, hend⟩
  | rotateRemove token =>
    simp only [AuthWorld.advance]
    split
    · exact ⟨hcleanup, hend⟩
    rename_i session hsess
    have hdone := h.consume hsess
    refine ⟨hdone, fun _ hnext => ?_⟩
    cases hnext
    exact ⟨(h.sessions token session (cleanup_sessions hsess).1).1.mono hdone.grows,
      mem_concat_self⟩
  | rotateRow token session =>
    simp only [AuthWorld.advance]
    split
    · exact ⟨hsame, hend⟩
    split
    · exact ⟨hsame, hend⟩
    split
    · exact ⟨hsame, hend⟩
    · exact ⟨hsame, fun _ hnext => by cases hnext; exact hcall⟩
  | rotatePut token session =>
    obtain ⟨⟨issue, hissue, htoken, hdevice, hscopes, -⟩, hconsumed⟩ := hcall
    obtain ⟨hchain, hpaired, hadmin, -⟩ := h.issues issue hissue
    rw [htoken, hdevice] at hchain
    rw [hdevice, hscopes] at hpaired
    rw [hscopes] at hadmin
    have hdone := h.issue
      ⟨env.random, session.deviceId, session.scopes, world.clock, .rotated token⟩
      world.ephemeral world.failureLog
      hrandom hunpresented rfl rfl hpaired hadmin le_rfl
      (fun world' hgrows hissue => .rotated hissue rfl rfl (hgrows.consumed hconsumed)
        (hchain.mono hgrows))
    refine ⟨hdone, fun _ hnext => ?_⟩
    cases hnext
    exact ⟨_, mem_concat_self, rfl⟩
  | rotateTouch token =>
    simp only [AuthWorld.advance]
    split
    · exact ⟨hsame, hend⟩
    · exact ⟨hsame, fun _ hnext => by cases hnext; exact hcall⟩
  | revokeRow deviceId =>
    simp only [AuthWorld.advance]
    split
    · exact ⟨hsame, hend⟩
    · have hdone := h.revoke deviceId
      exact ⟨hdone, fun _ h => by cases h; trivial⟩
  | revokeDrop deviceId changed =>
    have hdone := h.shrink
      ({ world.ephemeral with
        sessions := world.ephemeral.sessions.retain fun _ session => session.deviceId != deviceId })
      (fun _ _ hget => hget) (fun _ _ hget => (get?_retain_eq_some.mp hget).1)
      world.failureLog
    exact ⟨hdone, hend⟩

end

end Advance

/-! ## Runs -/

structure AuthSound (verifySignature : String → String → String → Bool) (world : AuthWorld) :
    Prop where
  tables : AuthTables verifySignature world
  threads : ∀ id thread, world.threads.get? id = some thread →
    ThreadSound verifySignature world id thread

section Runs

variable {world world' : AuthWorld} {action : AuthAction}

theorem AuthTables.elapse (h : AuthTables verifySignature world) {clock : Instant}
    (hclock : world.clock ≤ clock) (threads : IndexMap Nat Thread) (nextThread : Nat)
    {presented : List String} (hpresented : world.presented ⊆ presented)
    (codes : IndexMap String PairingCode) :
    Advanced verifySignature world { world with
        clock := clock, threads := threads, nextThread := nextThread, presented := presented
        codes := codes } := by
  refine .of_grows { Grows.refl world with clock := hclock, presented := hpresented }
    fun hgrows => ?_
  refine { h with
    challenged := ?_, issues := ?_, returned := ?_, answers := h.answers_mono hgrows }
  · exact fun nonce deviceId issuedAt hmem =>
      Nat.le_trans (h.challenged nonce deviceId issuedAt hmem) hclock
  · intro issue hissue
    obtain ⟨hchain, hpaired, hadmin, hpast⟩ := h.issues_mono hgrows issue hissue
    exact ⟨hchain, hpaired, hadmin, Nat.le_trans hpast hclock⟩
  · intro token time hmem
    obtain ⟨issue, hissue, htoken, hle, hpast⟩ := h.returned token time hmem
    exact ⟨issue, hissue, htoken, hle, Nat.le_trans hpast hclock⟩

theorem auth_step (h : AuthSound verifySignature world) (hfresh : FreshDraws world action)
    (hstep : (authSystem verifySignature).step world action = some world') :
    AuthSound verifySignature world' := by
  cases action with
  | tick milliseconds =>
    cases hstep
    obtain ⟨hgrows, htables⟩ := h.tables.elapse (Nat.le_add_right world.clock milliseconds)
      world.threads world.nextThread (List.Subset.refl _)
      world.codes
    exact ⟨htables, fun id thread hthr => (h.threads id thread hthr).mono hgrows⟩
  | createPairingCode id code expiresAt =>
    obtain ⟨-, hstep⟩ := ite_none_left_eq_some.mp hstep
    cases hstep
    obtain ⟨hgrows, htables⟩ := h.tables.elapse (Nat.le_refl world.clock)
      world.threads world.nextThread (List.Subset.refl _)
      (world.codes.insert id ⟨code, expiresAt, false⟩)
    exact ⟨htables, fun id thread hthr => (h.threads id thread hthr).mono hgrows⟩
  | begin request =>
    cases hstep
    obtain ⟨hgrows, htables⟩ := h.tables.elapse (Nat.le_refl world.clock)
      (world.threads.insert world.nextThread ⟨request.call, world.clock, world.revoked⟩)
      (world.nextThread + 1)
      (subset_append_left world.presented request.presents) world.codes
    refine ⟨htables, fun id thread hthr => ?_⟩
    rw [get?_insert] at hthr
    split at hthr
    · cases hthr
      refine ⟨List.Subset.refl _, ?_⟩
      cases request with
      | session token =>
        exact ⟨mem_concat_self, hfresh token (mem_singleton.mpr rfl)⟩
      | _ => trivial
    · exact (h.threads id thread hthr).mono hgrows
  | step id env =>
    simp only [authSystem, authStep] at hstep
    split at hstep
    · cases hstep
    rename_i thread hthr
    obtain ⟨⟨hsince, hinstant⟩, hstep⟩ := ite_none_right_eq_some.mp hstep
    obtain ⟨hrandom, hunpresented, hnonce⟩ := hfresh
    have hsound := h.threads id thread hthr
    obtain ⟨⟨hgrows, htables⟩, hcall⟩ := advance_sound h.tables hsound hsince hinstant hrandom
      hunpresented hnonce
    obtain ⟨hclock, hthreads⟩ := advance_frame verifySignature world id thread env
    generalize world.advance verifySignature id thread env = result at *
    obtain ⟨next, call⟩ := result
    simp only at hgrows htables hcall hclock hthreads hstep
    cases call with
    | none =>
      cases hstep
      obtain ⟨hgrows', htables'⟩ := htables.elapse (Nat.le_refl next.clock)
        (next.threads.shiftRemove id) next.nextThread
        (List.Subset.refl _) next.codes
      refine ⟨htables', fun other found hother => ?_⟩
      simp only [get?_shiftRemove] at hother
      split at hother
      · cases hother
      · rw [hthreads] at hother
        exact ((h.threads other found hother).mono hgrows).mono hgrows'
    | some call =>
      cases hstep
      obtain ⟨hgrows', htables'⟩ := htables.elapse (Nat.le_refl next.clock)
        (next.threads.insert id { thread with call := call, since := next.clock }) next.nextThread
        (List.Subset.refl _) next.codes
      refine ⟨htables', fun other found hother => ?_⟩
      simp only [get?_insert] at hother
      split at hother
      · rename_i hid
        cases hother
        subst hid
        have hrevoked : thread.revokedBefore ⊆ next.revoked := fun _ hmem =>
          hgrows.revoked (hsound.revoked hmem)
        have hheld : ThreadSound verifySignature next other
            { thread with call := call, since := next.clock } :=
          ⟨hrevoked, by rw [hclock]; exact hcall call rfl⟩
        exact hheld.mono hgrows'
      · rw [hthreads] at hother
        exact ((h.threads other found hother).mono hgrows).mono hgrows'
  | restart =>
    cases hstep
    obtain ⟨hgrows, htables⟩ := h.tables.elapse (Nat.le_refl world.clock)
      .empty world.nextThread (List.Subset.refl _)
      world.codes
    obtain ⟨hgrows', htables'⟩ := htables.shrink .empty
      (fun _ _ hget => by cases hget) (fun _ _ hget => by cases hget) world.failureLog
    exact ⟨htables', fun _ _ hthr => by cases hthr⟩

theorem auth_sound (hrun : (authSystem verifySignature).Run FreshDraws world) :
    AuthSound verifySignature world := by
  apply hrun.invariant
  · rintro start ⟨codes, rfl⟩
    refine ⟨⟨?_, ?_, nodup_nil, ?_, ?_, ?_, ?_, nodup_nil, ?_, nodup_nil, ?_, ?_, ?_, ?_⟩, ?_⟩
    · exact fun _ _ hget => by cases hget
    · exact fun _ _ hmem => by cases hmem
    · exact fun _ hmem => by cases hmem
    · exact fun _ _ hget => by cases hget
    · exact fun _ _ _ hmem => by cases hmem
    · exact fun _ _ hmem => by cases hmem
    · exact fun _ _ hget => by cases hget
    · exact fun _ hmem => by cases hmem
    · exact fun _ hmem => by cases hmem
    · exact fun _ _ hmem => by cases hmem
    · exact fun _ hmem => by cases hmem
    · exact fun _ _ hget => by cases hget
  · exact fun _ _ _ h hfresh hstep => auth_step h hfresh hstep

end Runs

instance (world : AuthWorld) (action : AuthAction) : Decidable (FreshDraws world action) :=
  match action with
  | .begin request => inferInstanceAs (Decidable (∀ token ∈ request.presents,
      token ∈ world.returned.map Prod.fst ∨ token ∉ world.issues.map Issue.token))
  | .step _ env => inferInstanceAs (Decidable (env.random ∉ world.issues.map Issue.token ∧
      env.random ∉ world.presented ∧ env.random ∉ world.challenged.map Prod.fst))
  | .tick _ | .createPairingCode _ _ _ | .restart => isTrue trivial

def sampleSession : List AuthAction :=
  let step (id : Nat) (random : String) : AuthAction := .step id ⟨false, random, 0, 0⟩
  [.createPairingCode "p" "ABCDEF0123".toList 10,
    .begin (.pair ⟨"abcdef0123".toList, some "device-1", "key", true, none⟩),
    step 0 "", step 0 "", step 0 "", step 0 "",
    .begin (.challenge "device-1"), step 1 "", step 1 "nonce",
    .begin (.authenticate ⟨"device-1", "nonce", "key"⟩),
    step 2 "", step 2 "", step 2 "", step 2 "token", step 2 "",
    .begin (.session "token"), step 3 "", step 3 "", step 3 ""]

end Yaade.Access

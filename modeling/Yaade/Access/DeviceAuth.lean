import Yaade.Library.IndexMap
import Yaade.Library.Transition

/-!
Paired devices and their sessions.
-/

namespace Yaade.Access

open Yaade.Library

abbrev Instant := Nat

def challengeTtl : Nat := 60 * 1000
def sessionTtl : Nat := 15 * 60 * 1000
def failureWindow : Nat := 60 * 1000
def failureLimit : Nat := 8
def maxChallenges : Nat := 1024
def maxSessions : Nat := 4096
def maxFailureKeys : Nat := 4096

inductive DeviceScope where
  | observe
  | control
  | admin
  deriving DecidableEq

/-- A row of the devices table; the scopes are kept as JSON text there. -/
structure Device where
  publicKey : String
  scopes : List DeviceScope
  revoked : Bool
  deriving DecidableEq

structure PairingCode where
  code : List Char
  expiresAt : Nat
  used : Bool
  deriving DecidableEq

structure PairDevice where
  code : List Char
  deviceId : Option String
  publicKey : String
  publicKeyValid : Bool
  scopes : Option (List DeviceScope)
  deriving DecidableEq

structure AuthenticateDevice where
  deviceId : String
  nonce : String
  signature : String
  deriving DecidableEq

structure PendingChallenge where
  deviceId : String
  expiresAt : Instant
  deriving DecidableEq

structure Session where
  deviceId : String
  scopes : List DeviceScope
  expiresAt : Instant
  deriving DecidableEq

structure Ephemeral where
  challenges : IndexMap String PendingChallenge
  challengeOrder : List String
  sessions : IndexMap String Session
  sessionOrder : List String
  failures : IndexMap String (List Instant)
  failureOrder : List String
  deriving DecidableEq

def Ephemeral.empty : Ephemeral := ⟨.empty, [], .empty, [], .empty, []⟩

def evict {ν : Type} (limit : Nat) : List String → IndexMap String ν →
    List String × IndexMap String ν
  | [], map => ([], map)
  | oldest :: rest, map =>
    if map.length > limit then evict limit rest (map.shiftRemove oldest) else (oldest :: rest, map)

theorem evict_get? {ν : Type} {limit : Nat} {order : List String} {map : IndexMap String ν} {key : String}
    {value : ν} (h : (evict limit order map).2.get? key = some value) :
    map.get? key = some value := by
  induction order generalizing map with
  | nil => exact h
  | cons oldest rest ih =>
    unfold evict at h
    split at h
    · have hrest := ih h
      exact (IndexMap.get?_shiftRemove_eq_some.mp hrest).2
    · exact h

namespace Ephemeral

variable (ephemeral : Ephemeral)

def evictChallenges : Ephemeral :=
  let (order, challenges) := evict maxChallenges ephemeral.challengeOrder ephemeral.challenges
  { ephemeral with challengeOrder := order, challenges := challenges }

def evictSessions : Ephemeral :=
  let (order, sessions) := evict maxSessions ephemeral.sessionOrder ephemeral.sessions
  { ephemeral with sessionOrder := order, sessions := sessions }

def cleanup (now : Instant) : Ephemeral :=
  { ephemeral with
    challenges := ephemeral.challenges.retain fun _ challenge => challenge.expiresAt > now
    sessions := ephemeral.sessions.retain fun _ session => session.expiresAt > now
    failures := (ephemeral.failures.mapValues fun failures =>
        failures.dropWhile fun instant => now - instant ≥ failureWindow).retain
      fun _ failures => !failures.isEmpty }

def rateLimited (key : String) : Bool :=
  ((ephemeral.failures.get? key).getD []).length ≥ failureLimit

def pushFailure (key : String) (now : Instant) : Ephemeral :=
  { ephemeral with
    failures := ephemeral.failures.insert key ((ephemeral.failures.get? key).getD [] ++ [now])
    failureOrder := ephemeral.failureOrder ++ [key] }

def evictFailures : Ephemeral :=
  let (order, failures) := evict maxFailureKeys ephemeral.failureOrder ephemeral.failures
  { ephemeral with failureOrder := order, failures := failures }

def recordFailure (key : String) (now : Instant) : Ephemeral :=
  ((ephemeral.cleanup now).pushFailure key now).evictFailures

def putSession (token : String) (session : Session) : Ephemeral :=
  ({ ephemeral with
    sessions := ephemeral.sessions.insert token session
    sessionOrder := ephemeral.sessionOrder ++ [token] }).evictSessions

def putChallenge (nonce : String) (challenge : PendingChallenge) : Ephemeral :=
  ({ ephemeral with
    challenges := ephemeral.challenges.insert nonce challenge
    challengeOrder := ephemeral.challengeOrder ++ [nonce] }).evictChallenges

end Ephemeral

def validDeviceId (id : String) : Bool :=
  8 ≤ id.utf8ByteSize && id.utf8ByteSize ≤ 96 &&
    id.toList.all fun c => c.isAlphanum || c = '_' || c = '-'

def normalizedScopes (scopes : List DeviceScope) : List DeviceScope :=
  let result := scopes.foldl (fun result scope =>
    if scope ∈ result then result else result ++ [scope]) []
  if result.isEmpty then [.control] else result

def normalizedCode (code : List Char) : List Char :=
  (((code.dropWhile Char.isWhitespace).reverse.dropWhile Char.isWhitespace).reverse).map Char.toUpper

def validCode (code : List Char) : Bool :=
  code.length = 10 && code.all fun c => c.isDigit || ('A' ≤ c && c ≤ 'F')

/-! ## Calls -/

inductive Request where
  | pair (input : PairDevice)
  | challenge (deviceId : String)
  | authenticate (input : AuthenticateDevice)
  | session (token : String)
  | rotate (token : String)
  | revoke (deviceId : String)
  deriving DecidableEq

/-- Where a call is, named after what it does next. -/
inductive Call where
  | pairAssert (input : PairDevice)
  | pairLookup (input : PairDevice)
  | pairConsume (input : PairDevice) (pairingId : String) (scopes : List DeviceScope)
  | pairInsert (input : PairDevice) (scopes : List DeviceScope)
  | recordFailure (key : String) (passed : Bool)
  | challengeRow (deviceId : String)
  | challengePut (deviceId : String)
  | authenticateAssert (input : AuthenticateDevice)
  | authenticateTake (input : AuthenticateDevice)
  | authenticateRow (input : AuthenticateDevice) (challenge : Option PendingChallenge)
  | authenticateOpen (input : AuthenticateDevice) (challenge : PendingChallenge)
      (checkedAt : Instant) (device : Device)
  | authenticateTouch (token : String)
  | sessionGet (token : String)
  | sessionRow (token : String) (session : Session) (lookedUpAt : Instant) (consumed : List String)
  | sessionTouch (token : String) (session : Session) (lookedUpAt : Instant) (consumed : List String)
  | rotateRemove (token : String)
  | rotateRow (token : String) (session : Session)
  | rotatePut (token : String) (session : Session)
  | rotateTouch (token : String)
  | rotateAudit (token : String)
  | revokeRow (deviceId : String)
  | revokeDrop (deviceId : String) (changed : Bool)
  deriving DecidableEq

def Request.call : Request → Call
  | .pair input => .pairAssert input
  | .challenge deviceId => .challengeRow deviceId
  | .authenticate input => .authenticateAssert input
  | .session token => .sessionGet token
  | .rotate token => .rotateRemove token
  | .revoke deviceId => .revokeRow deviceId

/-- A call under way: since when it is where it is, and which devices were
revoked when it began. -/
structure Thread where
  call : Call
  since : Instant
  revokedBefore : List String
  deriving DecidableEq

/-- What a step of a call finds: whether the database fails, what is drawn at
random, the moment it read the clock before it took the lock, and the wall
clock. -/
structure Surroundings where
  storageFails : Bool
  random : String
  instant : Instant
  wall : Nat
  deriving DecidableEq

/-- Where a session comes from. -/
inductive Origin where
  | authenticated (call : Nat) (nonce signature : String) (checkedAt : Instant)
  | rotated (token : String)
  deriving DecidableEq

/-- A token that was put into the table of sessions. -/
structure Issue where
  token : String
  deviceId : String
  scopes : List DeviceScope
  issuedAt : Instant
  origin : Origin
  deriving DecidableEq

/-- What a `session` call returned, the moment it looked the token up, which
tokens had been consumed by then and which devices had been revoked before the
call. -/
structure SessionAnswer where
  token : String
  deviceId : String
  scopes : List DeviceScope
  lookedUpAt : Instant
  consumed : List String
  revokedBefore : List String
  deriving DecidableEq

/-- What happened to the failures of a key. -/
inductive FailureEntry where
  | failure (key : String) (time : Instant) (passed : Bool)
  | success (key : String)
  | evicted (key : String) (keys : Nat)
  deriving DecidableEq

structure AuthWorld where
  clock : Instant
  ephemeral : Ephemeral
  devices : IndexMap String Device
  codes : IndexMap String PairingCode
  threads : IndexMap Nat Thread
  nextThread : Nat
  paired : List (String × List DeviceScope)
  revoked : List String
  challenged : List (String × String × Instant)
  taken : List (String × Nat)
  presented : List String
  issues : List Issue
  consumed : List String
  returned : List (String × Instant)
  answers : List SessionAnswer
  failureLog : List FailureEntry

namespace AuthWorld

def start (codes : IndexMap String PairingCode) : AuthWorld :=
  ⟨0, .empty, .empty, codes, .empty, 0, [], [], [], [], [], [], [], [], [], []⟩

variable (verifySignature : String → String → String → Bool)

def evictions (limit : Nat) : List String → IndexMap String (List Instant) → List FailureEntry
  | [], _ => []
  | oldest :: rest, map =>
    if map.length > limit then
      .evicted oldest map.length :: evictions limit rest (map.shiftRemove oldest)
    else []

def failureEntries (world : AuthWorld) (key : String) (passed : Bool) : List FailureEntry :=
  let pushed := (world.ephemeral.cleanup world.clock).pushFailure key world.clock
  .failure key world.clock passed :: evictions maxFailureKeys pushed.failureOrder pushed.failures

def advance (world : AuthWorld) (id : Nat) (thread : Thread) (env : Surroundings) :
    AuthWorld × Option Call :=
  match thread.call with
  | .pairAssert input =>
    let ephemeral := world.ephemeral.cleanup world.clock
    let world := { world with ephemeral := ephemeral }
    if ephemeral.rateLimited "pair" then (world, none)
    else if !validCode (normalizedCode input.code) then (world, some (.recordFailure "pair" true))
    else if !input.publicKeyValid then (world, none)
    else (world, some (.pairLookup input))
  | .pairLookup input =>
    if env.storageFails then (world, none)
    else
      match (world.codes.entries.filter fun entry =>
          entry.2.code = normalizedCode input.code && !entry.2.used &&
            entry.2.expiresAt > env.wall).argmax fun entry => entry.2.expiresAt with
      | none => (world, some (.recordFailure "pair" true))
      | some (pairingId, _) =>
        let scopes := normalizedScopes (input.scopes.getD [.control])
        if DeviceScope.admin ∈ scopes then (world, none)
        else (world, some (.pairConsume input pairingId scopes))
  | .pairConsume input pairingId scopes =>
    if env.storageFails then (world, none)
    else
      match world.codes.get? pairingId with
      | none => (world, some (.recordFailure "pair" true))
      | some code =>
        if code.used || code.expiresAt ≤ env.wall then
          (world, some (.recordFailure "pair" true))
        else
          ({ world with codes := world.codes.insert pairingId { code with used := true } },
            some (.pairInsert input scopes))
  | .pairInsert input scopes =>
    let deviceId := (input.deviceId.filter validDeviceId).getD env.random
    if env.storageFails || world.devices.contains deviceId then (world, none)
    else
      ({ world with
        devices := world.devices.insert deviceId ⟨input.publicKey, scopes, false⟩
        paired := world.paired ++ [(deviceId, scopes)] }, none)
  | .recordFailure key passed =>
    ({ world with
      ephemeral := world.ephemeral.recordFailure key world.clock
      failureLog := world.failureLog ++ world.failureEntries key passed }, none)
  | .challengeRow deviceId =>
    if !validDeviceId deviceId || env.storageFails then (world, none)
    else
      match world.devices.get? deviceId with
      | none => (world, none)
      | some device =>
        if device.revoked then (world, none) else (world, some (.challengePut deviceId))
  | .challengePut deviceId =>
    ({ world with
      ephemeral := (world.ephemeral.cleanup world.clock).putChallenge env.random
        ⟨deviceId, env.instant + challengeTtl⟩
      challenged := world.challenged ++ [(env.random, deviceId, env.instant)] }, none)
  | .authenticateAssert input =>
    if !validDeviceId input.deviceId || input.nonce.utf8ByteSize > 128 ||
        input.signature.utf8ByteSize > 2048 then
      (world, some (.recordFailure "invalid-device" false))
    else
      let ephemeral := world.ephemeral.cleanup world.clock
      let world := { world with ephemeral := ephemeral }
      if ephemeral.rateLimited input.deviceId then (world, none)
      else (world, some (.authenticateTake input))
  | .authenticateTake input =>
    let ephemeral := world.ephemeral.cleanup world.clock
    let challenge := ephemeral.challenges.get? input.nonce
    ({ world with
      ephemeral := { ephemeral with challenges := ephemeral.challenges.shiftRemove input.nonce }
      taken := if challenge.isSome then world.taken ++ [(input.nonce, id)] else world.taken },
      some (.authenticateRow input challenge))
  | .authenticateRow input challenge =>
    match challenge.filter fun challenge =>
        challenge.deviceId = input.deviceId && challenge.expiresAt > env.instant with
    | none => (world, some (.recordFailure input.deviceId true))
    | some challenge =>
      if env.storageFails then (world, none)
      else
        match world.devices.get? input.deviceId with
        | none => (world, some (.recordFailure input.deviceId true))
        | some device =>
          if device.revoked || !verifySignature device.publicKey input.nonce input.signature then
            (world, some (.recordFailure input.deviceId true))
          else (world, some (.authenticateOpen input challenge env.instant
            { device with scopes := normalizedScopes device.scopes }))
  | .authenticateOpen input _ checkedAt device =>
    ({ world with
      ephemeral := ({ world.ephemeral with
          failures := world.ephemeral.failures.shiftRemove input.deviceId }).putSession env.random
        ⟨input.deviceId, device.scopes, env.instant + sessionTtl⟩
      issues := world.issues ++ [⟨env.random, input.deviceId, device.scopes, env.instant,
        .authenticated id input.nonce input.signature checkedAt⟩]
      failureLog := world.failureLog ++ [.success input.deviceId] },
      some (.authenticateTouch env.random))
  | .authenticateTouch token =>
    if env.storageFails then (world, none)
    else ({ world with returned := world.returned ++ [(token, world.clock)] }, none)
  | .sessionGet token =>
    let ephemeral := world.ephemeral.cleanup world.clock
    let world := { world with ephemeral := ephemeral }
    match ephemeral.sessions.get? token with
    | none => (world, none)
    | some session => (world, some (.sessionRow token session world.clock world.consumed))
  | .sessionRow token session lookedUpAt consumed =>
    if env.storageFails then (world, none)
    else
      match world.devices.get? session.deviceId with
      | none => (world, none)
      | some device =>
        if device.revoked then (world, none)
        else (world, some (.sessionTouch token session lookedUpAt consumed))
  | .sessionTouch token session lookedUpAt consumed =>
    if env.storageFails then (world, none)
    else ({ world with answers := world.answers ++ [⟨token, session.deviceId, session.scopes,
      lookedUpAt, consumed, thread.revokedBefore⟩] }, none)
  | .rotateRemove token =>
    let ephemeral := world.ephemeral.cleanup world.clock
    match ephemeral.sessions.get? token with
    | none => ({ world with ephemeral := ephemeral }, none)
    | some session =>
      ({ world with
        ephemeral := { ephemeral with sessions := ephemeral.sessions.shiftRemove token }
        consumed := world.consumed ++ [token] }, some (.rotateRow token session))
  | .rotateRow token session =>
    if env.storageFails then (world, none)
    else
      match world.devices.get? session.deviceId with
      | none => (world, none)
      | some device =>
        if device.revoked then (world, none) else (world, some (.rotatePut token session))
  | .rotatePut token session =>
    ({ world with
      ephemeral := world.ephemeral.putSession env.random
        ⟨session.deviceId, session.scopes, world.clock + sessionTtl⟩
      issues := world.issues ++ [⟨env.random, session.deviceId, session.scopes, world.clock,
        .rotated token⟩] }, some (.rotateTouch env.random))
  | .rotateTouch token => if env.storageFails then (world, none) else (world, some (.rotateAudit token))
  | .rotateAudit token =>
    if env.storageFails then (world, none)
    else ({ world with returned := world.returned ++ [(token, world.clock)] }, none)
  | .revokeRow deviceId =>
    if env.storageFails then (world, none)
    else
      ({ world with
        devices := world.devices.modify deviceId fun device => { device with revoked := true }
        revoked := if world.devices.contains deviceId then world.revoked ++ [deviceId]
          else world.revoked }, some (.revokeDrop deviceId (world.devices.contains deviceId)))
  | .revokeDrop deviceId _ =>
    ({ world with ephemeral := { world.ephemeral with
      sessions := world.ephemeral.sessions.retain fun _ session =>
        session.deviceId != deviceId } }, none)

end AuthWorld

theorem advance_frame (verify : String → String → String → Bool) (world : AuthWorld)
    (id : Nat) (thread : Thread) (env : Surroundings) :
    (world.advance verify id thread env).1.clock = world.clock ∧
      (world.advance verify id thread env).1.threads = world.threads := by
  obtain ⟨call, since, revokedBefore⟩ := thread
  constructor
  · cases call <;> simp only [AuthWorld.advance] <;> (repeat' split) <;> rfl
  · cases call <;> simp only [AuthWorld.advance] <;> (repeat' split) <;> rfl

inductive AuthAction where
  | tick (milliseconds : Nat)
  | createPairingCode (id : String) (code : List Char) (expiresAt : Nat)
  | begin (request : Request)
  | step (id : Nat) (env : Surroundings)
  /-- a new process with the same database -/
  | restart

def Request.presents : Request → List String
  | .session token | .rotate token => [token]
  | _ => []

def authStep (verifySignature : String → String → String → Bool) (world : AuthWorld) :
    AuthAction → Option AuthWorld
  | .tick milliseconds => some { world with clock := world.clock + milliseconds }
  | .createPairingCode id code expiresAt =>
    if world.codes.contains id then none
    else some { world with codes := world.codes.insert id ⟨code, expiresAt, false⟩ }
  | .begin request => some { world with
      threads := world.threads.insert world.nextThread ⟨request.call, world.clock, world.revoked⟩
      nextThread := world.nextThread + 1
      presented := world.presented ++ request.presents }
  | .step id env =>
    match world.threads.get? id with
    | none => none
    | some thread =>
      if thread.since ≤ env.instant ∧ env.instant ≤ world.clock then
        let (world, call) := world.advance verifySignature id thread env
        some { world with threads :=
          match call with
          | some call => world.threads.insert id
              { thread with call := call, since := world.clock }
          | none => world.threads.shiftRemove id }
      else none
  | .restart => some { world with ephemeral := .empty, threads := .empty }

def authSystem (verifySignature : String → String → String → Bool) :
    System AuthWorld AuthAction where
  initial world := ∃ codes, world = .start codes
  step := authStep verifySignature

end Yaade.Access

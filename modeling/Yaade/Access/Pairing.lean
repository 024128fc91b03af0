import Yaade.Access.DeviceAuth

/-!
Pairing a device, job by job.
-/

namespace Yaade.Access

open Yaade.Library List Option IndexMap

inductive DeviceAuthError where
  | invalid (message : String)
  | rateLimited
  | storage (message : String)
  deriving DecidableEq

/-! ## The jobs -/

/-- The tables that pairing reads and writes. -/
structure AuthDatabase where
  codes : IndexMap String PairingCode
  devices : IndexMap String Device
  /-- the actions of the audit events, with the device of each -/
  auditEvents : List (String × String)
  deriving DecidableEq

namespace AuthDatabase

variable (database : AuthDatabase)

def lookupCode (code : List Char) (now : Nat) : Option String :=
  ((database.codes.entries.filter fun entry =>
    entry.2.code = code && !entry.2.used && entry.2.expiresAt > now).argmax
      fun entry => entry.2.expiresAt).map Prod.fst

def consumable (pairingId : String) (now : Nat) : Bool :=
  (database.codes.get? pairingId).any fun code => !code.used && code.expiresAt > now

def markUsed (pairingId : String) : AuthDatabase :=
  { database with
    codes := database.codes.modify pairingId fun code => { code with used := true } }

def insertDevice (id : String) (device : Device) : AuthDatabase :=
  { database with devices := database.devices.insert id device }

def audit (action deviceId : String) : AuthDatabase :=
  { database with auditEvents := database.auditEvents ++ [(action, deviceId)] }

end AuthDatabase

/-! ## The call -/

/-- What a step of a call finds: an error with which the database refuses the
job, the text of its refusal of a device id that exists, the UUID drawn, and
the wall clock. -/
structure PairEnv where
  failure : Option String
  conflict : String
  uuid : String
  wall : Nat
  deriving DecidableEq

/-- Where a call is, named after what it does next. -/
inductive PairCall where
  | assertNotRateLimited (input : PairDevice)
  | lookup (input : PairDevice)
  | consume (input : PairDevice) (pairingId : String) (scopes : List DeviceScope) (now : Nat)
  | insert (input : PairDevice) (scopes : List DeviceScope)
  | audit (deviceId : String)
  | recordFailure (error : DeviceAuthError)
  deriving DecidableEq

def PairDevice.newId (input : PairDevice) (env : PairEnv) : String :=
  (input.deviceId.filter validDeviceId).getD ("dev-" ++ env.uuid)

def PairDevice.device (input : PairDevice) (scopes : List DeviceScope) : Device :=
  ⟨input.publicKey, scopes, false⟩

/-- The service, its calls under way, and a record of which call marked which
code, which call stored which device, and what each call returned. -/
structure PairWorld where
  clock : Instant
  ephemeral : Ephemeral
  database : AuthDatabase
  calls : IndexMap Nat PairCall
  nextCall : Nat
  consumed : List (Nat × String)
  stored : List (Nat × String)
  results : List (Nat × Except DeviceAuthError String)

inductive PairNext where
  | call (next : PairCall)
  | done (result : Except DeviceAuthError String)

namespace PairWorld

def advance (world : PairWorld) (id : Nat) (env : PairEnv) : PairCall → PairWorld × PairNext
  | .assertNotRateLimited input =>
    let ephemeral := world.ephemeral.cleanup world.clock
    let world := { world with ephemeral := ephemeral }
    if ephemeral.rateLimited "pair" then (world, .done (.error .rateLimited))
    else if !validCode (normalizedCode input.code) then
      (world, .call (.recordFailure (.invalid "invalid pairing code")))
    else if !input.publicKeyValid then
      (world, .done (.error (.invalid "invalid device public key")))
    else (world, .call (.lookup input))
  | .lookup input =>
    match env.failure with
    | some message => (world, .done (.error (.storage message)))
    | none =>
      match world.database.lookupCode (normalizedCode input.code) env.wall with
      | none => (world, .call (.recordFailure (.invalid "pairing code expired")))
      | some pairingId =>
        let scopes := normalizedScopes (input.scopes.getD [.control])
        if DeviceScope.admin ∈ scopes then
          (world, .done
            (.error (.invalid "admin pairing requires a local administrator")))
        else (world, .call (.consume input pairingId scopes env.wall))
  | .consume input pairingId scopes now =>
    match env.failure with
    | some message => (world, .done (.error (.storage message)))
    | none =>
      if world.database.consumable pairingId now then
        ({ world with
          database := world.database.markUsed pairingId
          consumed := world.consumed ++ [(id, pairingId)] }, .call (.insert input scopes))
      else (world, .call (.recordFailure (.invalid "pairing code already used")))
  | .insert input scopes =>
    match env.failure with
    | some message => (world, .done (.error (.storage message)))
    | none =>
      if world.database.devices.contains (input.newId env) then
        (world, .done (.error (.storage env.conflict)))
      else
        ({ world with
          database := world.database.insertDevice (input.newId env) (input.device scopes)
          stored := world.stored ++ [(id, input.newId env)] },
          .call (.audit (input.newId env)))
  | .audit deviceId =>
    match env.failure with
    | some message => (world, .done (.error (.storage message)))
    | none => ({ world with database := world.database.audit "device.paired" deviceId },
        .done (.ok deviceId))
  | .recordFailure error =>
    ({ world with ephemeral := world.ephemeral.recordFailure "pair" world.clock },
      .done (.error error))

def settle (world : PairWorld) (id : Nat) : PairNext → PairWorld
  | .call next => { world with calls := world.calls.insert id next }
  | .done result => { world with
      calls := world.calls.shiftRemove id
      results := world.results ++ [(id, result)] }

end PairWorld

inductive PairAction where
  | tick (milliseconds : Nat)
  | createPairingCode (id : String) (code : List Char) (expiresAt : Nat)
  | pair (input : PairDevice)
  | step (id : Nat) (env : PairEnv)

def pairStep (world : PairWorld) : PairAction → Option PairWorld
  | .tick milliseconds => some { world with clock := world.clock + milliseconds }
  | .createPairingCode id code expiresAt =>
    if world.database.codes.contains id then none
    else some { world with database := { world.database with
      codes := world.database.codes.insert id ⟨code, expiresAt, false⟩ } }
  | .pair input => some { world with
      calls := world.calls.insert world.nextCall (.assertNotRateLimited input)
      nextCall := world.nextCall + 1 }
  | .step id env =>
    match world.calls.get? id with
    | none => none
    | some call =>
      let (world, next) := world.advance id env call
      some (world.settle id next)

def PairWorld.start (clock : Instant) (ephemeral : Ephemeral) (database : AuthDatabase) :
    PairWorld :=
  ⟨clock, ephemeral, database, .empty, 0, [], [], []⟩

def pairSystem : System PairWorld PairAction where
  initial world := ∃ clock ephemeral database,
    (∀ id code, database.codes.get? id = some code → code.used = false) ∧
      world = .start clock ephemeral database
  step := pairStep

/-! ## What one step does -/

def PairCall.early : PairCall → Bool
  | .assertNotRateLimited _ | .lookup _ | .consume .. | .recordFailure _ => true
  | .insert .. | .audit _ => false

/-- The outcomes of a step, by what they write. -/
inductive PairEffect (world : PairWorld) (id : Nat) (env : PairEnv) :
    PairCall → PairWorld → PairNext → Prop where
  | turnedAway {call : PairCall} (ephemeral : Ephemeral) (error : DeviceAuthError)
      (hcall : call.early = true) :
      PairEffect world id env call { world with ephemeral := ephemeral } (.done (.error error))
  | goesOn {call : PairCall} (ephemeral : Ephemeral) (next : PairCall) (hcall : call.early = true)
      (hnext : next.early = true) :
      PairEffect world id env call { world with ephemeral := ephemeral } (.call next)
  | consumes {input : PairDevice} {pairingId : String} {scopes : List DeviceScope} {now : Nat}
      {code : PairingCode} (hcode : world.database.codes.get? pairingId = some code)
      (hunused : code.used = false) :
      PairEffect world id env (.consume input pairingId scopes now)
        { world with
          database := world.database.markUsed pairingId
          consumed := world.consumed ++ [(id, pairingId)] } (.call (.insert input scopes))
  | stores {input : PairDevice} {scopes : List DeviceScope} (hkept : env.failure = none)
      (hnew : world.database.devices.contains (input.newId env) = false) :
      PairEffect world id env (.insert input scopes)
        { world with
          database := world.database.insertDevice (input.newId env) (input.device scopes)
          stored := world.stored ++ [(id, input.newId env)] } (.call (.audit (input.newId env)))
  | loses {input : PairDevice} {scopes : List DeviceScope} (error : DeviceAuthError)
      (hfails : env.failure.isSome = true ∨
        world.database.devices.contains (input.newId env) = true) :
      PairEffect world id env (.insert input scopes) world (.done (.error error))
  | audited {deviceId : String} (hkept : env.failure = none) :
      PairEffect world id env (.audit deviceId)
        { world with database := world.database.audit "device.paired" deviceId }
        (.done (.ok deviceId))
  | unaudited {deviceId : String} (error : DeviceAuthError) (hfails : env.failure.isSome = true) :
      PairEffect world id env (.audit deviceId) world (.done (.error error))

theorem PairWorld.advance_effect (world : PairWorld) (id : Nat) (env : PairEnv) (call : PairCall) :
    PairEffect world id env call (world.advance id env call).1 (world.advance id env call).2 := by
  cases call with
  | assertNotRateLimited input =>
    simp only [PairWorld.advance]
    split
    · exact .turnedAway _ _ rfl
    split
    · exact .goesOn _ _ rfl rfl
    split
    · exact .turnedAway _ _ rfl
    · exact .goesOn _ _ rfl rfl
  | lookup input =>
    simp only [PairWorld.advance]
    split
    · exact .turnedAway world.ephemeral _ rfl
    split
    · exact .goesOn world.ephemeral _ rfl rfl
    split
    · exact .turnedAway world.ephemeral _ rfl
    · exact .goesOn world.ephemeral _ rfl rfl
  | consume input pairingId scopes now =>
    simp only [PairWorld.advance]
    split
    · exact .turnedAway world.ephemeral _ rfl
    split
    · rename_i hconsumable
      obtain ⟨code, hcode, hfree⟩ := (Option.any_eq_true _ _).mp hconsumable
      rw [Bool.and_eq_true, Bool.not_eq_true'] at hfree
      exact .consumes hcode hfree.1
    · exact .goesOn world.ephemeral _ rfl rfl
  | insert input scopes =>
    simp only [PairWorld.advance]
    split
    · rename_i message hfailure
      exact .loses _ (.inl (hfailure ▸ rfl))
    rename_i hkept
    split
    · rename_i hknown
      exact .loses _ (.inr hknown)
    · rename_i hnew
      exact .stores hkept (eq_false_of_ne_true hnew)
  | audit deviceId =>
    simp only [PairWorld.advance]
    split
    · rename_i message hfailure
      exact .unaudited _ (hfailure ▸ rfl)
    · rename_i hkept
      exact .audited hkept
  | recordFailure error => exact .turnedAway _ _ rfl

/-! ## Every interleaving of calls -/

def Entered (record : List (Nat × String)) (id : Nat) : Prop := ∃ entry, (id, entry) ∈ record

theorem entered_append {record : List (Nat × String)} {id other : Nat} {entry : String} :
    Entered (record ++ [(id, entry)]) other ↔ Entered record other ∨ other = id := by
  simp only [Entered, mem_append, mem_singleton, Prod.mk.injEq, exists_or]
  exact or_congr Iff.rfl ⟨fun ⟨_, h, _⟩ => h, fun h => ⟨_, h, rfl⟩⟩

def Stage (consumed stored : List (Nat × String)) (id : Nat) : PairCall → Prop
  | .insert .. => Entered consumed id ∧ ¬Entered stored id
  | .audit deviceId => Entered consumed id ∧ (id, deviceId) ∈ stored
  | .assertNotRateLimited _ | .lookup _ | .consume .. | .recordFailure _ =>
    ¬Entered consumed id ∧ ¬Entered stored id

/-- What the tables, the calls and the record say of one another in every run. -/
structure Accounted (world : PairWorld) : Prop where
  calls : ∀ id call, world.calls.get? id = some call →
    id < world.nextCall ∧ Stage world.consumed world.stored id call
  consumed : ∀ id pairingId, (id, pairingId) ∈ world.consumed → id < world.nextCall ∧
    ∃ code, world.database.codes.get? pairingId = some code ∧ code.used = true
  stored : ∀ id deviceId, (id, deviceId) ∈ world.stored → id < world.nextCall ∧
    world.database.devices.contains deviceId = true
  single : (world.consumed.map Prod.snd).Nodup
  used : ∀ pairingId code, world.database.codes.get? pairingId = some code → code.used = true →
    ∃ id, (id, pairingId) ∈ world.consumed
  results : ∀ id result, (id, result) ∈ world.results →
    id < world.nextCall ∧ world.calls.contains id = false
  backed : ∀ id, Entered world.stored id → Entered world.consumed id
  succeeded : ∀ id deviceId, (id, .ok deviceId) ∈ world.results →
    Entered world.consumed id ∧ (id, deviceId) ∈ world.stored

variable {env : PairEnv} {world next : PairWorld} {call : PairCall} {id other : Nat}

section Steps

variable {consumed consumed' stored stored' : List (Nat × String)}

theorem stage_early (h : call.early = true) :
    Stage consumed stored id call ↔ ¬Entered consumed id ∧ ¬Entered stored id := by
  cases call <;> first | exact Iff.rfl | cases h

theorem Stage.congr (hconsumed : Entered consumed' id ↔ Entered consumed id)
    (hstored : ∀ deviceId, (id, deviceId) ∈ stored' ↔ (id, deviceId) ∈ stored)
    (h : Stage consumed stored id call) : Stage consumed' stored' id call := by
  have hstores : Entered stored' id ↔ Entered stored id := exists_congr hstored
  cases call with
  | insert input scopes => exact ⟨hconsumed.mpr h.1, fun hs => h.2 (hstores.mp hs)⟩
  | audit deviceId => exact ⟨hconsumed.mpr h.1, (hstored deviceId).mpr h.2⟩
  | assertNotRateLimited _ | lookup _ | consume _ _ _ _ | recordFailure _ =>
    exact ⟨fun hm => h.1 (hconsumed.mp hm), fun hs => h.2 (hstores.mp hs)⟩

theorem PairWorld.get?_settle {outcome : PairNext} {found : PairCall}
    (h : (world.settle id outcome).calls.get? other = some found) :
    (other = id ∧ outcome = .call found) ∨ (other ≠ id ∧ world.calls.get? other = some found) := by
  cases outcome with
  | call next =>
    simp only [PairWorld.settle, get?_insert] at h
    split at h
    · cases h
      exact .inl ⟨‹_›, rfl⟩
    · exact .inr ⟨‹_›, h⟩
  | done result =>
    simp only [PairWorld.settle, get?_shiftRemove] at h
    split at h
    · cases h
    · exact .inr ⟨‹_›, h⟩

theorem over_settle (hcall : world.calls.get? id = some call) {outcome : PairNext}
    (hover : world.calls.contains other = false) :
    (world.settle id outcome).calls.contains other = false := by
  have hne : other ≠ id := by
    rintro rfl
    rw [IndexMap.contains, hcall] at hover
    cases hover
  cases outcome with
  | call next =>
    show (world.calls.insert id next).contains other = false
    rw [IndexMap.contains, get?_insert, if_neg hne]
    exact hover
  | done result =>
    show (world.calls.shiftRemove id).contains other = false
    rw [IndexMap.contains, get?_shiftRemove, if_neg hne]
    exact hover

namespace Accounted

section

variable (h : Accounted world)
include h

section

variable (hcall : world.calls.get? id = some call)
include hcall

theorem settled
    (outcome : PairNext) : ∀ other result, (other, result) ∈ (world.settle id outcome).results →
      other < world.nextCall ∧ (world.settle id outcome).calls.contains other = false := by
  intro other result hres
  cases outcome with
  | call next =>
    obtain ⟨hlt, hover⟩ := h.results other result hres
    exact ⟨hlt, over_settle hcall hover⟩
  | done returned =>
    rcases mem_append.mp hres with hold | hnew
    · obtain ⟨hlt, hover⟩ := h.results other result hold
      exact ⟨hlt, over_settle hcall hover⟩
    cases mem_singleton.mp hnew
    refine ⟨(h.calls id call hcall).1, ?_⟩
    show (world.calls.shiftRemove id).contains id = false
    rw [IndexMap.contains, get?_shiftRemove, if_pos rfl]
    rfl

theorem fail (ephemeral : Ephemeral) (error : DeviceAuthError) :
    Accounted ({ world with ephemeral := ephemeral }.settle id (.done (.error error))) where
  __ := h
  calls other found hfound := by
    rcases PairWorld.get?_settle hfound with ⟨-, hcall⟩ | ⟨-, hfound⟩
    · cases hcall
    · obtain ⟨hlt, hstage⟩ := h.calls other found hfound
      exact ⟨hlt, hstage.congr Iff.rfl fun _ => Iff.rfl⟩
  results := h.settled hcall (.done (.error error))
  succeeded other deviceId hres := by
    rcases mem_append.mp hres with hold | hnew
    · exact h.succeeded other deviceId hold
    · cases mem_singleton.mp hnew

theorem goOn (hearly : call.early = true) {later : PairCall} (hlater : later.early = true)
    (ephemeral : Ephemeral) :
    Accounted ({ world with ephemeral := ephemeral }.settle id (.call later)) where
  __ := h
  calls other found hfound := by
    rcases PairWorld.get?_settle hfound with ⟨rfl, hnext⟩ | ⟨-, hfound⟩
    · cases hnext
      obtain ⟨hlt, hstage⟩ := h.calls other call hcall
      exact ⟨hlt, (stage_early hlater).mpr ((stage_early hearly).mp hstage)⟩
    · obtain ⟨hlt, hstage⟩ := h.calls other found hfound
      exact ⟨hlt, hstage.congr Iff.rfl fun _ => Iff.rfl⟩
  results := h.settled hcall (.call later)

end

/-- A call marks a code that no call has marked. -/
theorem consume {input : PairDevice} {pairingId : String}
    {scopes : List DeviceScope} {now : Nat} {code : PairingCode}
    (hcall : world.calls.get? id = some (.consume input pairingId scopes now))
    (hcode : world.database.codes.get? pairingId = some code) (hunused : code.used = false) :
    Accounted ({ world with
      database := world.database.markUsed pairingId
      consumed := world.consumed ++ [(id, pairingId)] }.settle id
        (.call (.insert input scopes))) where
  calls other found hfound := by
    rcases PairWorld.get?_settle hfound with ⟨rfl, hnext⟩ | ⟨hother, hfound⟩
    · cases hnext
      obtain ⟨hlt, -, hstored⟩ := h.calls other _ hcall
      exact ⟨hlt, entered_append.mpr (.inr rfl), hstored⟩
    · obtain ⟨hlt, hstage⟩ := h.calls other found hfound
      refine ⟨hlt, hstage.congr ?_ fun _ => Iff.rfl⟩
      exact entered_append.trans (or_iff_left hother)
  consumed other marked hmarked := by
    have hcodes : ∀ key, (world.database.markUsed pairingId).codes.get? key =
        if key = pairingId then (world.database.codes.get? key).map
          (fun code => { code with used := true }) else world.database.codes.get? key :=
      fun key => get?_modify _ _ _ _
    rcases mem_append.mp hmarked with hold | hnew
    · obtain ⟨hlt, found, hfound, hused⟩ := h.consumed other marked hold
      refine ⟨hlt, ?_⟩
      show ∃ found, (world.database.markUsed pairingId).codes.get? marked = some found ∧ _
      rw [hcodes, hfound]
      split
      · exact ⟨_, rfl, rfl⟩
      · exact ⟨found, rfl, hused⟩
    · cases mem_singleton.mp hnew
      refine ⟨(h.calls id _ hcall).1, ?_⟩
      show ∃ found, (world.database.markUsed pairingId).codes.get? pairingId = some found ∧ _
      rw [hcodes, hcode, if_pos rfl]
      exact ⟨_, rfl, rfl⟩
  stored := h.stored
  single := by
    show ((world.consumed ++ [(id, pairingId)]).map Prod.snd).Nodup
    rw [map_append, map_singleton, nodup_append]
    refine ⟨h.single, nodup_singleton _, ?_⟩
    rintro marked hmarked _ hlast rfl
    cases mem_singleton.mp hlast
    obtain ⟨⟨other, _⟩, hentry, rfl⟩ := List.mem_map.mp hmarked
    obtain ⟨-, found, hfound, hused⟩ := h.consumed other _ hentry
    rw [hcode] at hfound
    cases hfound
    rw [hunused] at hused
    cases hused
  used marked found hfound hused := by
    have hget : (world.database.markUsed pairingId).codes.get? marked = some found := hfound
    rw [AuthDatabase.markUsed, get?_modify] at hget
    split at hget
    · rename_i heq
      exact ⟨id, heq ▸ mem_concat_self⟩
    · obtain ⟨other, hother⟩ := h.used marked found hget hused
      exact ⟨other, mem_append_left _ hother⟩
  results := h.settled hcall (.call (.insert input scopes))
  backed other hstored := entered_append.mpr (.inl (h.backed other hstored))
  succeeded other deviceId hres := by
    obtain ⟨hmarked, hstored⟩ := h.succeeded other deviceId hres
    exact ⟨entered_append.mpr (.inl hmarked), hstored⟩

theorem store {input : PairDevice}
    {scopes : List DeviceScope} (hcall : world.calls.get? id = some (.insert input scopes)) :
    Accounted ({ world with
      database := world.database.insertDevice (input.newId env) (input.device scopes)
      stored := world.stored ++ [(id, input.newId env)] }.settle id
        (.call (.audit (input.newId env)))) where
  __ := h
  calls other found hfound := by
    rcases PairWorld.get?_settle hfound with ⟨rfl, hnext⟩ | ⟨hother, hfound⟩
    · cases hnext
      obtain ⟨hlt, hmarked, -⟩ := h.calls other _ hcall
      exact ⟨hlt, hmarked, mem_concat_self⟩
    · obtain ⟨hlt, hstage⟩ := h.calls other found hfound
      refine ⟨hlt, hstage.congr Iff.rfl fun deviceId => ?_⟩
      show (other, deviceId) ∈ world.stored ++ [(id, input.newId env)] ↔ _
      simp [hother]
  stored other deviceId hstored := by
    show other < world.nextCall ∧
      (world.database.devices.insert (input.newId env) (input.device scopes)).contains deviceId = true
    rcases mem_append.mp hstored with hold | hnew
    · obtain ⟨hlt, hknown⟩ := h.stored other deviceId hold
      obtain ⟨device, hdevice⟩ := contains_iff.mp hknown
      refine ⟨hlt, contains_iff.mpr ?_⟩
      rw [get?_insert]
      split
      · exact ⟨_, rfl⟩
      · exact ⟨device, hdevice⟩
    · cases mem_singleton.mp hnew
      refine ⟨(h.calls id _ hcall).1, contains_iff.mpr ⟨input.device scopes, ?_⟩⟩
      rw [get?_insert, if_pos rfl]
  results := h.settled hcall (.call (.audit (input.newId env)))
  backed other hstored := by
    rcases entered_append.mp hstored with hold | rfl
    · exact h.backed other hold
    · exact (h.calls other _ hcall).2.1
  succeeded other deviceId hres := by
    obtain ⟨hmarked, hstored⟩ := h.succeeded other deviceId hres
    exact ⟨hmarked, mem_append_left _ hstored⟩

theorem succeed {deviceId : String} (hcall : world.calls.get? id = some (.audit deviceId)) :
    Accounted ({ world with database := world.database.audit "device.paired" deviceId }.settle id
      (.done (.ok deviceId))) where
  __ := h
  calls other found hfound := by
    rcases PairWorld.get?_settle hfound with ⟨-, hnext⟩ | ⟨-, hfound⟩
    · cases hnext
    · obtain ⟨hlt, hstage⟩ := h.calls other found hfound
      exact ⟨hlt, hstage.congr Iff.rfl fun _ => Iff.rfl⟩
  results := h.settled hcall (.done (.ok deviceId))
  succeeded other returned hres := by
    rcases mem_append.mp hres with hold | hnew
    · exact h.succeeded other returned hold
    · cases mem_singleton.mp hnew
      exact (h.calls id _ hcall).2

theorem effect (hcall : world.calls.get? id = some call)
    {outcome : PairNext} (heffect : PairEffect world id env call next outcome) :
    Accounted (next.settle id outcome) := by
  cases heffect with
  | turnedAway ephemeral error hearly => exact h.fail hcall ephemeral error
  | goesOn ephemeral later hearly hlater => exact h.goOn hcall hearly hlater ephemeral
  | consumes hcode hunused => exact h.consume hcall hcode hunused
  | stores hkept hnew => exact h.store hcall
  | loses error | unaudited error => exact h.fail hcall world.ephemeral error
  | audited hkept => exact h.succeed hcall

theorem create {pairingId : String} {code : List Char} {expiresAt : Nat}
    (hnew : world.database.codes.contains pairingId = false) :
    Accounted { world with database := { world.database with
      codes := world.database.codes.insert pairingId ⟨code, expiresAt, false⟩ } } where
  __ := h
  consumed id marked hmarked := by
    obtain ⟨hlt, found, hfound, hused⟩ := h.consumed id marked hmarked
    refine ⟨hlt, found, ?_, hused⟩
    have hne : marked ≠ pairingId := by
      rintro rfl
      rw [IndexMap.contains, hfound] at hnew
      cases hnew
    show (world.database.codes.insert pairingId _).get? marked = some found
    rw [get?_insert, if_neg hne, hfound]
  used marked found hfound hused := by
    have hget : (world.database.codes.insert pairingId ⟨code, expiresAt, false⟩).get? marked =
        some found := hfound
    rw [get?_insert] at hget
    split at hget
    · cases hget
      cases hused
    · exact h.used marked found hget hused

theorem begin (input : PairDevice) : Accounted { world with
      calls := world.calls.insert world.nextCall (.assertNotRateLimited input)
      nextCall := world.nextCall + 1 } where
  __ := h
  calls id found hfound := by
    have hget : (world.calls.insert world.nextCall (.assertNotRateLimited input)).get? id =
        some found := hfound
    rw [get?_insert] at hget
    split at hget
    · rename_i heq
      cases hget
      subst heq
      refine ⟨Nat.lt_succ_self _, ?_, ?_⟩
      · rintro ⟨marked, hentry⟩
        exact Nat.lt_irrefl _ (h.consumed _ _ hentry).1
      · rintro ⟨device, hentry⟩
        exact Nat.lt_irrefl _ (h.stored _ _ hentry).1
    · obtain ⟨hlt, hstage⟩ := h.calls id found hget
      exact ⟨Nat.lt_succ_of_lt hlt, hstage⟩
  consumed id marked hmarked :=
    ⟨Nat.lt_succ_of_lt (h.consumed id marked hmarked).1, (h.consumed id marked hmarked).2⟩
  stored id deviceId hstored :=
    ⟨Nat.lt_succ_of_lt (h.stored id deviceId hstored).1, (h.stored id deviceId hstored).2⟩
  results id result hres := by
    obtain ⟨hlt, hover⟩ := h.results id result hres
    refine ⟨Nat.lt_succ_of_lt hlt, ?_⟩
    show (world.calls.insert world.nextCall _).contains id = false
    rw [IndexMap.contains, get?_insert, if_neg (Nat.ne_of_lt hlt)]
    exact hover

end

theorem step (h : Accounted world) {action : PairAction} (hstep : pairStep world action = some next) :
    Accounted next := by
  cases action with
  | tick milliseconds =>
    cases hstep
    exact { h with }
  | createPairingCode pairingId code expiresAt =>
    obtain ⟨hnew, heq⟩ := ite_none_left_eq_some.mp hstep
    cases heq
    exact h.create (eq_false_of_ne_true hnew)
  | pair input =>
    cases hstep
    exact h.begin input
  | step id env =>
    simp only [pairStep] at hstep
    cases hcall : world.calls.get? id with
    | none =>
      rw [hcall] at hstep
      cases hstep
    | some call =>
      rw [hcall] at hstep
      cases hstep
      exact h.effect hcall (world.advance_effect id env call)

theorem of_reachable (h : pairSystem.Reachable world) : Accounted world := by
  apply h.invariant
  · rintro _ ⟨clock, ephemeral, database, hunused, rfl⟩
    refine ⟨fun _ _ hget => (nomatch hget), fun _ _ hmem => (nomatch hmem),
      fun _ _ hmem => (nomatch hmem), nodup_nil, fun id code hcode hused => ?_,
      fun _ _ hmem => (nomatch hmem), fun _ ⟨_, hmem⟩ => (nomatch hmem),
      fun _ _ hmem => (nomatch hmem)⟩
    have hfree := hunused id code hcode
    rw [hfree] at hused
    cases hused
  · intro s action s' hs _ hstep
    exact hs.step hstep

end Accounted

end Steps

/-! ## Atomic pairing -/

/-- A code is marked by one call at most, and a call that succeeds has marked
one and stored its device. -/
structure SingleUse (world : PairWorld) : Prop where
  single : ∀ pairingId first second, (first, pairingId) ∈ world.consumed →
    (second, pairingId) ∈ world.consumed → first = second
  succeeded : ∀ id deviceId, (id, .ok deviceId) ∈ world.results →
    Entered world.consumed id ∧ (id, deviceId) ∈ world.stored ∧
      world.database.devices.contains deviceId = true

/-- A used code is paid for: the call that marked it has stored a device or is
still under way. A device was stored for a used code. A call that returned an
error has marked no code and stored no device. -/
structure Atomic (world : PairWorld) : Prop where
  used : ∀ pairingId code, world.database.codes.get? pairingId = some code → code.used = true →
    ∃ id, (id, pairingId) ∈ world.consumed ∧
      (world.calls.contains id = true ∨ Entered world.stored id)
  stored : ∀ id, Entered world.stored id → ∃ pairingId code, (id, pairingId) ∈ world.consumed ∧
    world.database.codes.get? pairingId = some code ∧ code.used = true
  failed : ∀ id error, (id, .error error) ∈ world.results →
    ¬Entered world.consumed id ∧ ¬Entered world.stored id

/-- A job after a code was marked does not fail: the device id is new, and the
database takes the device and the audit event. -/
def PairCall.Passes (world : PairWorld) (env : PairEnv) : PairCall → Prop
  | .insert input _ =>
    env.failure = none ∧ world.database.devices.contains (input.newId env) = false
  | .audit _ => env.failure = none
  | .assertNotRateLimited _ | .lookup _ | .consume .. | .recordFailure _ => True

instance (world : PairWorld) (env : PairEnv) (call : PairCall) :
    Decidable (call.Passes world env) :=
  match call with
  | .insert input _ => inferInstanceAs (Decidable
      (env.failure = none ∧ world.database.devices.contains (input.newId env) = false))
  | .audit _ => inferInstanceAs (Decidable (env.failure = none))
  | .assertNotRateLimited _ | .lookup _ | .consume .. | .recordFailure _ => isTrue trivial

def Unfailing (world : PairWorld) : PairAction → Prop
  | .step id env => ∀ call ∈ world.calls.get? id, call.Passes world env
  | _ => True

/-- What holds of the calls over and under way as long as no late job fails. -/
structure Clean (world : PairWorld) : Prop where
  paid : ∀ id, Entered world.consumed id →
    world.calls.contains id = true ∨ Entered world.stored id
  failed : ∀ id error, (id, .error error) ∈ world.results →
    ¬Entered world.consumed id ∧ ¬Entered world.stored id

theorem Accounted.singleUse {world : PairWorld} (h : Accounted world) : SingleUse world where
  single pairingId first second hfirst hsecond := by
    have heq := inj_on_of_nodup_map h.single hfirst hsecond rfl
    exact congrArg Prod.fst heq
  succeeded id deviceId hres := by
    obtain ⟨hmarked, hstored⟩ := h.succeeded id deviceId hres
    exact ⟨hmarked, hstored, (h.stored id deviceId hstored).2⟩

theorem Accounted.atomic_iff {world : PairWorld} (h : Accounted world) :
    Atomic world ↔ Clean world := by
  constructor
  · intro hatomic
    refine ⟨fun id ⟨pairingId, hmarked⟩ => ?_, hatomic.failed⟩
    obtain ⟨-, code, hcode, hused⟩ := h.consumed id pairingId hmarked
    obtain ⟨other, hother, hpaid⟩ := hatomic.used pairingId code hcode hused
    rw [h.singleUse.single pairingId id other hmarked hother]
    exact hpaid
  · intro hclean
    refine ⟨fun pairingId code hcode hused => ?_, fun id hstored => ?_, hclean.failed⟩
    · obtain ⟨id, hmarked⟩ := h.used pairingId code hcode hused
      exact ⟨id, hmarked, hclean.paid id ⟨pairingId, hmarked⟩⟩
    · obtain ⟨pairingId, hmarked⟩ := h.backed id hstored
      obtain ⟨-, code, hcode, hused⟩ := h.consumed id pairingId hmarked
      exact ⟨pairingId, code, hmarked, hcode, hused⟩

section Clean

theorem Accounted.ne_of_result (h : Accounted world) (hcall : world.calls.get? id = some call)
    {result : Except DeviceAuthError String} (hres : (other, result) ∈ world.results) :
    other ≠ id := by
  rintro rfl
  have hover := (h.results other result hres).2
  rw [IndexMap.contains, hcall] at hover
  cases hover

theorem contains_settle_call (later : PairCall) (hother : world.calls.contains other = true ∨ other = id) :
    (world.settle id (.call later)).calls.contains other = true := by
  show (world.calls.insert id later).contains other = true
  rw [IndexMap.contains, get?_insert]
  split
  · rfl
  · rename_i hne
    exact hother.resolve_right hne

theorem contains_settle_done (result : Except DeviceAuthError String) (hne : other ≠ id)
    (hother : world.calls.contains other = true) :
    (world.settle id (.done result)).calls.contains other = true := by
  show (world.calls.shiftRemove id).contains other = true
  rw [IndexMap.contains, get?_shiftRemove, if_neg hne]
  exact hother

/-- One step of a call under way keeps the books clean, unless a late job fails. -/
theorem Clean.effect (hclean : Clean world) (h : Accounted world)
    (hcall : world.calls.get? id = some call) {outcome : PairNext}
    (heffect : PairEffect world id env call next outcome)
    (hunfailing : Unfailing world (.step id env)) : Clean (next.settle id outcome) := by
  have hstage := (h.calls id call hcall).2
  cases heffect with
  | turnedAway ephemeral error hearly =>
    obtain ⟨hunmarked, hunstored⟩ := (stage_early hearly).mp hstage
    refine ⟨fun other hmarked => ?_, fun other result hres => ?_⟩
    · have hne : other ≠ id := fun heq => hunmarked (heq ▸ hmarked)
      exact (hclean.paid other hmarked).imp_left (contains_settle_done _ hne)
    · rcases mem_append.mp hres with hold | hnew
      · exact hclean.failed other result hold
      · cases mem_singleton.mp hnew
        exact ⟨hunmarked, hunstored⟩
  | goesOn ephemeral later hearly hlater =>
    refine ⟨fun other hmarked => ?_, hclean.failed⟩
    exact (hclean.paid other hmarked).imp_left fun hunder => contains_settle_call _ (.inl hunder)
  | consumes hcode hunused =>
    refine ⟨fun other hmarked => ?_, fun other error hres => ?_⟩
    · rcases entered_append.mp hmarked with hold | hnew
      · exact (hclean.paid other hold).imp_left fun hunder => contains_settle_call _ (.inl hunder)
      · exact .inl (contains_settle_call _ (.inr hnew))
    · obtain ⟨hunmarked, hunstored⟩ := hclean.failed other error hres
      refine ⟨fun hmarked => ?_, hunstored⟩
      exact (entered_append.mp hmarked).elim hunmarked (h.ne_of_result hcall hres)
  | stores hkept hnew =>
    refine ⟨fun other hmarked => ?_, fun other error hres => ?_⟩
    · rcases hclean.paid other hmarked with hunder | hstored
      · exact .inl (contains_settle_call _ (.inl hunder))
      · exact .inr (entered_append.mpr (.inl hstored))
    · obtain ⟨hunmarked, hunstored⟩ := hclean.failed other error hres
      refine ⟨hunmarked, fun hstored => ?_⟩
      exact (entered_append.mp hstored).elim hunstored (h.ne_of_result hcall hres)
  | loses error hfails =>
    obtain ⟨hkept, hnew⟩ := hunfailing _ hcall
    rw [hkept, hnew] at hfails
    exact absurd hfails (by decide)
  | audited hkept =>
    refine ⟨fun other hmarked => ?_, fun other error hres => ?_⟩
    · by_cases heq : other = id
      · exact .inr ⟨_, heq ▸ hstage.2⟩
      · exact (hclean.paid other hmarked).imp_left (contains_settle_done _ heq)
    · rcases mem_append.mp hres with hold | hnew
      · exact hclean.failed other error hold
      · cases mem_singleton.mp hnew
  | unaudited error hfails =>
    have hkept : env.failure = none := hunfailing _ hcall
    rw [hkept] at hfails
    cases hfails

theorem not_clean_of_failing (h : Accounted world) (hcall : world.calls.get? id = some call)
    {outcome : PairNext} (heffect : PairEffect world id env call next outcome)
    (hfailing : ¬call.Passes world env) : ¬Clean (next.settle id outcome) := by
  intro hclean
  have hstage := (h.calls id call hcall).2
  have hlast : ∀ result, (id, result) ∈ world.results ++ [(id, result)] := fun result =>
    mem_concat_self
  cases heffect with
  | turnedAway | goesOn =>
    refine hfailing ?_
    cases call <;> trivial
  | consumes hcode hunused => exact hfailing trivial
  | stores hkept hnew => exact hfailing ⟨hkept, hnew⟩
  | loses error | unaudited error => exact (hclean.failed id error (hlast _)).1 hstage.1
  | audited hkept => exact hfailing hkept

theorem clean_step_iff (hclean : Clean world) (h : Accounted world) {action : PairAction}
    (hstep : pairStep world action = some next) : Clean next ↔ Unfailing world action := by
  cases action with
  | tick milliseconds =>
    cases hstep
    exact iff_of_true ⟨hclean.paid, hclean.failed⟩ trivial
  | createPairingCode pairingId code expiresAt =>
    obtain ⟨-, heq⟩ := ite_none_left_eq_some.mp hstep
    cases heq
    exact iff_of_true ⟨hclean.paid, hclean.failed⟩ trivial
  | pair input =>
    cases hstep
    refine iff_of_true ⟨fun id hmarked => ?_, hclean.failed⟩ trivial
    refine (hclean.paid id hmarked).imp_left fun hunder => ?_
    show (world.calls.insert world.nextCall _).contains id = true
    rw [IndexMap.contains, get?_insert]
    split
    · rfl
    · exact hunder
  | step id env =>
    simp only [pairStep] at hstep
    cases hcall : world.calls.get? id with
    | none =>
      rw [hcall] at hstep
      cases hstep
    | some call =>
      rw [hcall] at hstep
      cases hstep
      have heffect := world.advance_effect id env call
      refine ⟨fun hnext found hfound => ?_, fun hunfailing => ?_⟩
      · cases hcall.symm.trans hfound
        exact by_contra fun hfailing => not_clean_of_failing h hcall heffect hfailing hnext
      · exact hclean.effect h hcall heffect hunfailing

theorem clean_of_run (h : pairSystem.Run Unfailing world) : Clean world := by
  suffices Clean world ∧ Accounted world from this.1
  apply h.invariant
  · rintro _ ⟨clock, ephemeral, database, hunused, rfl⟩
    refine ⟨⟨fun _ ⟨_, hmem⟩ => (nomatch hmem), fun _ _ hmem => (nomatch hmem)⟩, ?_⟩
    exact Accounted.of_reachable (System.Run.start ⟨clock, ephemeral, database, hunused, rfl⟩)
  · intro s action s' hs hunfailing hstep
    exact ⟨(clean_step_iff hs.1 hs.2 hstep).mpr hunfailing, hs.2.step hstep⟩

end Clean

def pairing (call : Nat) (code : List Char) (deviceId : String) : List PairAction :=
  let step : PairAction := .step call ⟨none, "UNIQUE constraint failed: devices.id", "u", 0⟩
  [.pair ⟨code, some deviceId, "key", true, none⟩, step, step, step, step, step]

/-- Two codes for one device: the second call fails at its insert and is over
with that step. -/
def pairedTwice : List PairAction :=
  [.createPairingCode "p" "ABCDEF0123".toList 10, .createPairingCode "q" "0123456789".toList 10] ++
    pairing 0 "ABCDEF0123".toList "device-1" ++ (pairing 1 "0123456789".toList "device-1").dropLast

def freshPairing : PairWorld := .start 0 .empty ⟨.empty, .empty, []⟩

theorem freshPairing_initial : pairSystem.initial freshPairing :=
  ⟨0, .empty, ⟨.empty, .empty, []⟩, fun _ _ hcode => (nomatch hcode), rfl⟩

end Yaade.Access

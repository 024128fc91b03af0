import Yaade.Terminal.Owner
import Yaade.Library.Except

/-!
Mutations of a terminal as they come over the wire: the arguments of a route,
their schema, and the command a request becomes.
-/

namespace Yaade.Terminal

open Yaade.Library

/-- A number as JSON keeps it. -/
inductive JsonNumber where
  | posInt (value : UInt64)
  | negInt (value : Int64)
  | float (text : String)
  deriving DecidableEq

inductive Json where
  | null
  | bool (value : Bool)
  | number (value : JsonNumber)
  | string (value : String)
  | array (items : List Json)
  | object (fields : List (String × Json))

namespace Json

def asStr : Json → Option String
  | string value => some value
  | _ => none

def asU64 : Json → Option Nat
  | number (.posInt value) => some value.toNat
  | _ => none

def isString (json : Json) : Bool := json.asStr.isSome

def isNumber : Json → Bool
  | number _ => true
  | _ => false

def isObject : Json → Bool
  | object _ => true
  | _ => false

def field? (fields : List (String × Json)) (name : String) : Option Json :=
  (fields.find? fun field => field.1 == name).map Prod.snd

end Json

def fenceFields : List String :=
  ["terminalId", "terminalEpoch", "leaseId", "leaseGeneration", "principalId", "connectionId",
    "commandId"]

def fenceFromFields : List Json → Option TerminalMutationFence
  | [terminalId, terminalEpoch, leaseId, leaseGeneration, principalId, connectionId,
      commandId] => do
      some
        { terminalId := ← terminalId.asStr
          terminalEpoch := ← terminalEpoch.asStr
          leaseId := ← leaseId.asStr
          leaseGeneration := ← leaseGeneration.asU64
          principalId := ← principalId.asStr
          connectionId := ← connectionId.asStr
          commandId := ← commandId.asStr }
  | _ => none

def decodeFence : Json → Option TerminalMutationFence
  | .object fields => (fenceFields.mapM (Json.field? fields)).bind fenceFromFields
  | .array items => fenceFromFields items
  | _ => none

def mutationFence (value : Option Json) : Option TerminalMutationFence := value.bind decodeFence

structure Principal where
  principalId : String
  connectionId : String
  canControl : Bool
  deriving DecidableEq

inductive MutationChannel where
  | write
  | writeBinary
  | resize
  | dispose
  deriving DecidableEq

def MutationChannel.name : MutationChannel → String
  | write => "terminal:write"
  | writeBinary => "terminal:writeBinary"
  | resize => "terminal:resize"
  | dispose => "terminal:dispose"

inductive RouteError where
  | scopeDenied (channel : String)
  | invalid (message : String)
  | terminal (error : TerminalError)
  deriving DecidableEq

/-- A request for a mutation and the channel its reply goes to. -/
structure MutationRequest where
  principal : Principal
  channel : MutationChannel
  args : List Json
  reply : Nat

def MutationChannel.fenceIndex : MutationChannel → Nat
  | write | writeBinary => 2
  | resize => 3
  | dispose => 1

def MutationRequest.fenceArgument (request : MutationRequest) : Option Json :=
  request.args[request.channel.fenceIndex]?

def argIs (p : Json → Bool) (args : List Json) (index : Nat) : Bool := (args[index]?).any p

def validRouteArgs (channel : MutationChannel) (args : List Json) : Bool :=
  match channel with
  | .write | .writeBinary =>
    (args.length == 2 || args.length == 3) && argIs Json.isString args 0 &&
      argIs Json.isString args 1 && (args.length == 2 || argIs Json.isObject args 2)
  | .resize =>
    (args.length == 3 || args.length == 4) && argIs Json.isString args 0 &&
      argIs Json.isNumber args 1 && argIs Json.isNumber args 2 &&
      (args.length == 3 || argIs Json.isObject args 3)
  | .dispose => args.length == 1 && argIs Json.isString args 0

def stringArg (args : List Json) (index : Nat) : Except RouteError String :=
  match ((args[index]?).bind Json.asStr).filter fun value => !value.isEmpty with
  | some value => .ok value
  | none => .error (.invalid ("argument " ++ toString index ++ " must be a string"))

def numberArg (args : List Json) (index : Nat) : Except RouteError Nat :=
  match (args[index]?).bind Json.asU64 with
  | some value => .ok value
  | none => .error (.invalid ("argument " ++ toString index ++ " must be a number"))

def maxWriteBytes : Nat := 1024 * 1024

def utf8Bytes (text : String) : List UInt8 := text.toList.flatMap String.utf8EncodeChar

def sizeArg (size default : Nat) : Nat := if size < 2 ^ 16 then size else default

def writeCommand (entry : TerminalEntry) (request : MutationRequest) (id : String)
    (data : List UInt8) : Except RouteError TerminalCommand :=
  if data.length > maxWriteBytes then
    .error (.terminal (.invalid "terminal write exceeds 1 MiB"))
  else if id ≠ entry.id then .error (.terminal (.notFound id))
  else .ok (.authorizeAndWrite request.principal.principalId request.principal.connectionId
    (mutationFence request.fenceArgument) data request.reply)

/-- The command that a request sends to the owner of the terminal, or why it
sends none. -/
def dispatchMutation (decodeBase64 : String → Except String (List UInt8)) (entry : TerminalEntry)
    (request : MutationRequest) : Except RouteError TerminalCommand := do
  if !request.principal.canControl then
    .error (.scopeDenied request.channel.name)
  else if !validRouteArgs request.channel request.args then
    .error (.invalid ("arguments for " ++ request.channel.name ++
      " do not match the host route schema"))
  else
    let id ← stringArg request.args 0
    match request.channel with
    | .write =>
      let text ← stringArg request.args 1
      writeCommand entry request id (utf8Bytes text)
    | .writeBinary =>
      let encoded ← stringArg request.args 1
      match decodeBase64 encoded with
      | .error message => .error (.terminal (.invalid message))
      | .ok data => writeCommand entry request id data
    | .resize =>
      let cols ← numberArg request.args 1
      let rows ← numberArg request.args 2
      if id ≠ entry.id then .error (.terminal (.notFound id))
      else .ok (.authorizeAndResize request.principal.principalId
        request.principal.connectionId (mutationFence request.fenceArgument) (sizeArg cols 80)
        (sizeArg rows 24) request.reply)
    | .dispose =>
      if id ≠ entry.id then .error (.terminal (.notFound id))
      else .ok (.authorizeAndDispose request.principal.principalId
        request.principal.connectionId (mutationFence request.fenceArgument) request.reply)

def MutationRequest.caller (request : MutationRequest) : Caller :=
  ⟨request.principal.principalId, request.principal.connectionId,
    mutationFence request.fenceArgument⟩

theorem writeCommand_caller {entry : TerminalEntry} {request : MutationRequest} {id : String}
    {data : List UInt8} {command : TerminalCommand}
    (h : writeCommand entry request id data = .ok command) :
    command.caller = some request.caller := by
  unfold writeCommand at h
  split at h
  · cases h
  split at h
  · cases h
  · cases h
    rfl

theorem dispatch_caller {decodeBase64 : String → Except String (List UInt8)}
    {entry : TerminalEntry} {request : MutationRequest} {command : TerminalCommand}
    (h : dispatchMutation decodeBase64 entry request = .ok command) :
    command.caller = some request.caller := by
  unfold dispatchMutation at h
  split at h
  · cases h
  split at h
  · cases h
  obtain ⟨id, hid, h⟩ := bind_ok.mp h
  cases hchannel : request.channel with
  | write =>
    rw [hchannel] at h
    obtain ⟨text, -, h⟩ := bind_ok.mp h
    exact writeCommand_caller h
  | writeBinary =>
    rw [hchannel] at h
    obtain ⟨encoded, -, h⟩ := bind_ok.mp h
    cases hdata : decodeBase64 encoded with
    | error message =>
      rw [hdata] at h
      cases h
    | ok data =>
      rw [hdata] at h
      exact writeCommand_caller h
  | resize =>
    rw [hchannel] at h
    obtain ⟨cols, -, h⟩ := bind_ok.mp h
    obtain ⟨rows, -, h⟩ := bind_ok.mp h
    split at h
    · cases h
    · cases h
      rfl
  | dispose =>
    rw [hchannel] at h
    simp only at h
    split at h
    · cases h
    · cases h
      rfl

end Yaade.Terminal

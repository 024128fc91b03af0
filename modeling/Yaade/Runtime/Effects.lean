import Yaade.Library.Program
import Yaade.Store.Operations

/-!
What a request to the runtime acts on: the store, the event hub and the
terminal host.
-/

namespace Yaade.Runtime

open Yaade.Library Yaade.Store

inductive TerminalError where
  | notFound (id : String)
  | limit
  | invalid (what : String)
  | runtime (what : String)
  | control (message : String)
  | history (message : String)
  deriving DecidableEq, Repr

def TerminalError.message : TerminalError → String
  | .notFound id => "terminal not found: " ++ id
  | .limit => "too many terminals (max 64); close a terminal before creating another"
  | .invalid what => "invalid terminal input: " ++ what
  | .runtime what => "terminal runtime failure: " ++ what
  | .control message | .history message => message

inductive RuntimeError where
  | store (error : StoreError)
  | terminal (error : TerminalError)
  | invalid (what : String)
  deriving DecidableEq, Repr

/-- The tags of the events that carry a session. -/
inductive SessionTag where
  | created
  | updated
  | archived
  | restored
  deriving DecidableEq, Repr

inductive TabTag where
  | created
  | updated
  | archived
  deriving DecidableEq, Repr

inductive TerminalTag where
  | created
  | updated
  deriving DecidableEq, Repr

/-- The payload of a `mux:event`. An archived terminal is announced by its id
and revision alone. -/
inductive MuxEvent where
  | session (tag : SessionTag) (session : AppSession)
  | tab (tag : TabTag) (tab : SessionTab)
  | terminal (tag : TerminalTag) (terminal : MuxTerminal)
  | terminalArchived (muxTerminalId : String) (revision : Nat) (occurredAt : String)
  deriving DecidableEq, Repr

/-- What `TerminalHost::create` reports of the PTY it started. -/
structure TerminalCreateResult where
  id : String
  processIdentity : Option ProcessIdentity
  deriving DecidableEq, Repr

/-- The calls a request makes, with the types of their answers. -/
inductive HostEffect : Type → Type 1 where
  | store {α : Type} (call : StoreCall α) : HostEffect α
  | emit (event : MuxEvent) : HostEffect Unit
  | create (args : List String) : HostEffect (Except TerminalError TerminalCreateResult)
  | dispose (ptyId : String) : HostEffect (Except TerminalError Unit)

abbrev HostM (α : Type) := Program.Fallible HostEffect RuntimeError α

def read {α : Type} (call : StoreCall α) : HostM α :=
  ExceptT.lift (Program.perform (.store call))

def write {α : Type} (call : StoreCall (Except StoreError α)) : HostM α :=
  Program.attempt .store (.store call)

def emit (event : MuxEvent) : HostM Unit :=
  ExceptT.lift (Program.perform (.emit event))

def emitAll (events : List MuxEvent) : HostM Unit :=
  ExceptT.lift (Program.performAll (events.map .emit))

def emitSession (tag : SessionTag) (session : AppSession) : HostM Unit :=
  emit (.session tag session)

def emitTab (tag : TabTag) (tab : SessionTab) : HostM Unit :=
  emit (.tab tag tab)

def emitTerminal (tag : TerminalTag) (terminal : MuxTerminal) : HostM Unit :=
  emit (.terminal tag terminal)

def emitTerminalUpdated (terminal : MuxTerminal) : HostM Unit :=
  emitTerminal .updated terminal

def archivedEvent (terminal : MuxTerminal) : MuxEvent :=
  .terminalArchived terminal.id terminal.revision terminal.updatedAt

def emitTerminalArchived (terminal : MuxTerminal) : HostM Unit :=
  emit (archivedEvent terminal)

def disposeMuxPty (ptyId : String) : HostM Unit :=
  .call (.dispose ptyId) fun
    | .ok () => .done (.ok ())
    | .error (.notFound _) => .done (.ok ())
    | .error error => .done (.error (.terminal error))

def disposeOutput (terminal : MuxTerminal) : HostM Unit :=
  match terminal.output.ptyId with
  | some ptyId => disposeMuxPty ptyId
  | none => pure ()

end Yaade.Runtime

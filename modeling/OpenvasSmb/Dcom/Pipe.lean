import OpenvasSmb.Dcerpc.Connection

/-!
# Pipes of an object exporter

`dcom_get_pipe_send` and `dcom_get_pipe_recv` of `lib/com/dcom/main.c` on one object exporter,
with what they use of `dcerpc_bind_send`, `dcerpc_alter_context_send` and the handlers of the
replies. An exporter keeps the last pipe; a call for another interface than the pipe was last
negotiated for sends an alter context on it. Any number of calls can be on their way, and each
step of one is an event.

The server is in the answers: a reply, or a failure (not sent, timed out, connection lost), with
or without the server having accepted what was offered. A pipe records what was accepted on its
connection. Other calls do not see the pipe a call connects before it is returned, so a connection
with all its string bindings is one event. The security mechanism decides how many alter contexts
follow the bind.

An `IUnknown` is its interface id. That a pipe is freed under a call is not modelled.
-/

namespace OpenvasSmb.Dcom

open Kit Dcerpc

/-- `struct GUID`. -/
abbrev Guid := BitVec 128

/-- `struct dcerpc_syntax_id`. -/
structure SyntaxId where
  uuid : Guid
  ifVersion : UInt32
  deriving DecidableEq

variable (tables : List SyntaxId)

/-- `idl_iface_by_uuid`: the first registered interface with the id. -/
def idlIfaceByUuid (uuid : Guid) : Option SyntaxId :=
  tables.find? fun table => table.uuid == uuid

/-! ## Negotiation -/

/-- A presentation context as it is offered: `context_id` of the pipe and abstract syntax. -/
abbrev Offer := UInt32 × SyntaxId

/-- `struct dcerpc_pipe`. `accepted` are the contexts the server has accepted, by their number on
the wire; `agreed` says that the one offered last is among them. -/
structure Pipe where
  contextId : UInt32
  abstractSyntax : SyntaxId
  lastFaultCode : UInt32
  accepted : List (UInt16 × SyntaxId)
  agreed : Bool

def dcerpcPipeInit : Pipe := ⟨0, ⟨0, 0⟩, 0, [], false⟩

namespace Pipe

/-- The context id in the requests of the pipe; the field is of 16 bits. -/
def requestContext (p : Pipe) : UInt16 := p.contextId.toUInt16

def offer (p : Pipe) : Offer := (p.contextId, p.abstractSyntax)

def accept (offer : Offer) (p : Pipe) : Pipe :=
  { p with
    accepted := p.accepted ++ [(offer.1.toUInt16, offer.2)]
    agreed := p.agreed || p.offer == offer }

end Pipe

/-- The two ways to offer a context. -/
inductive Negotiation
  | bind
  | alter

def dcerpcBindSend (p : Pipe) (abstractSyntax : SyntaxId) : Pipe :=
  { p with abstractSyntax := abstractSyntax, agreed := false }

def dcerpcAlterContextSend (p : Pipe) (abstractSyntax : SyntaxId) : Pipe :=
  { p with abstractSyntax := abstractSyntax, contextId := p.contextId + 1, agreed := false }

/-- What becomes of a bind or alter context. -/
inductive Answer
  /-- A reply, given to its handler on the connection. -/
  | reply (pkt : NcacnPacket) (conn : Connection)
  /-- No reply comes through; the server may have accepted all the same. -/
  | failed (status : { s : NtStatus // s.isOk = false }) (accepted : Bool)

namespace Answer

def status : Negotiation → Answer → NtStatus
  | .bind, reply pkt conn => (dcerpcBindRecvHandler pkt conn).1
  | .alter, reply pkt conn => (dcerpcAlterRecvHandler pkt conn).1
  | _, failed s _ => s.val

/-- Whether the server has accepted the context. -/
def accepts : Negotiation → Answer → Bool
  | .bind, reply pkt _ =>
    match pkt.payload with
    | .bindAck ack => ack.isAccepted
    | _ => false
  | .alter, reply pkt _ =>
    match pkt.payload with
    | .alterResp ack => ack.isAccepted
    | _ => false
  | _, failed _ accepted => accepted

end Answer

/-- One exchange on a pipe that no one else uses. -/
def Pipe.negotiate (p : Pipe) (kind : Negotiation) (abstractSyntax : SyntaxId) (answer : Answer) :
    NtStatus × Pipe :=
  let p :=
    match kind with
    | .bind => dcerpcBindSend p abstractSyntax
    | .alter => dcerpcAlterContextSend p abstractSyntax
  (answer.status kind, if answer.accepts kind then p.accept p.offer else p)

/-- `bind_auth_next_step` and `bind_auth_recv_alter`: alter contexts for the same interface. -/
def bindAuthAlter : List Answer → Pipe → NtStatus × Pipe
  | [], p => (.ok, p)
  | answer :: rest, p =>
    let (status, p) := p.negotiate .alter p.abstractSyntax answer
    if status.isOk then bindAuthAlter rest p else (status, p)

/-- `dcerpc_bind_auth_send` up to its end. Nothing is sent if the security mechanism begins
with an empty token. -/
def dcerpcBindAuth (abstractSyntax : SyntaxId) : List Answer → Pipe → NtStatus × Pipe
  | [], p => (.ok, p)
  | answer :: rest, p =>
    let (status, p) := p.negotiate .bind abstractSyntax answer
    if status.isOk then bindAuthAlter rest p else (status, p)

/-- One string binding: whether the server is reached, the answers to the bind and the alter
contexts, and whether the security mechanism is content. -/
structure Attempt where
  reached : Bool
  answers : List Answer
  authenticated : Bool

/-- `dcerpc_pipe_connect_b`. The outer `none` is a NULL interface table that is read. -/
def dcerpcPipeConnectB (table : Option SyntaxId) (attempt : Attempt) : Option (Option Pipe) :=
  if !attempt.reached then some none
  else
    match table with
    | none => none
    | some abstractSyntax =>
      let (status, p) := dcerpcBindAuth abstractSyntax attempt.answers dcerpcPipeInit
      some (if status.isOk && attempt.authenticated then some p else none)

/-- `try_next_binding` and `bind_new_pipe_continue`, over the bindings in the order in which
they are tried. -/
def tryNextBinding (table : Option SyntaxId) : List Attempt → Option (Except NtStatus Pipe)
  | [] => some (.error .invalidAddress)
  | attempt :: rest =>
    match dcerpcPipeConnectB table attempt with
    | none => none
    | some none => tryNextBinding table rest
    | some (some p) => some (.ok p)

/-! ## Calls -/

/-- Where a call of `dcom_get_pipe` is. A pipe is named by its place in the list of pipes. -/
inductive Stage
  | altering (pipe : Nat) (offer : Offer)
  | binding
  | finished (result : Except NtStatus Nat)
  | returned

structure Call where
  iface : Guid
  stage : Stage

/-- `struct dcom_object_exporter`, with all pipes that were made for it and all calls. -/
structure Exporter where
  pipes : List Pipe := []
  pipe : Option Nat := none
  calls : List Call := []

namespace Exporter

/-- The pipe of the exporter, unless it is invalid. -/
def validPipe (ox : Exporter) : Option Nat :=
  ox.pipe.filter fun i => (ox.pipes[i]?.map (·.lastFaultCode)).getD 0 == 0

/-- `reuse_existing_pipe`. Nothing is returned if the interface table is NULL and read. -/
def reuseExistingPipe (iface : Guid) (i : Nat) (ox : Exporter) :
    Option Exporter :=
  match ox.pipes[i]? with
  | none => none
  | some p =>
    if p.abstractSyntax.uuid ≠ iface then
      match idlIfaceByUuid tables iface with
      | none => none
      | some abstractSyntax =>
        let p := dcerpcAlterContextSend p abstractSyntax
        some { ox with
          pipes := ox.pipes.set i p
          calls := ox.calls ++ [⟨iface, .altering i p.offer⟩] }
    else some { ox with calls := ox.calls ++ [⟨iface, .finished (.ok i)⟩] }

def dcomGetPipeSend (iface : Guid) (ox : Exporter) : Option Exporter :=
  let ox := { ox with pipe := ox.validPipe }
  match ox.pipe with
  | some i => reuseExistingPipe tables iface i ox
  | none => some { ox with calls := ox.calls ++ [⟨iface, .binding⟩] }

/-- A call comes to another stage. -/
def advance (ox : Exporter) (k : Nat) (call : Call) (stage : Stage) : Exporter :=
  { ox with calls := ox.calls.set k { call with stage := stage } }

/-- `dcerpc_alter_recv_handler` and `reuse_existing_pipe_continue`. -/
def reuseExistingPipeContinue (k : Nat) (answer : Answer) (ox : Exporter) : Option Exporter :=
  match ox.calls[k]? with
  | some call =>
    match call.stage with
    | .altering i offer =>
      let status := answer.status .alter
      let ox := if answer.accepts .alter then
        { ox with pipes := ox.pipes.modify i (·.accept offer) } else ox
      some (ox.advance k call (.finished (if status.isOk then .ok i else .error status)))
    | _ => none
  | none => none

/-- `bind_new_pipe`, up to its end. -/
def bindNewPipe (k : Nat) (attempts : List Attempt) (ox : Exporter) :
    Option Exporter :=
  match ox.calls[k]? with
  | some call =>
    match call.stage with
    | .binding =>
      match tryNextBinding (idlIfaceByUuid tables call.iface) attempts with
      | none => none
      | some (.error status) => some (ox.advance k call (.finished (.error status)))
      | some (.ok p) =>
        some ({ ox with pipes := ox.pipes ++ [p] }.advance k call
          (.finished (.ok ox.pipes.length)))
    | _ => none
  | none => none

/-- What a call returned: the interface it was for, and the status or the pipe. -/
abbrev Returned := Guid × Except NtStatus Nat

def dcomGetPipeRecv (k : Nat) (ox : Exporter) : Option (Returned × Exporter) :=
  match ox.calls[k]? with
  | some call =>
    match call.stage with
    | .finished (.error status) => some ((call.iface, .error status), ox.advance k call .returned)
    | .finished (.ok i) =>
      some ((call.iface, .ok i), { ox with pipe := some i }.advance k call .returned)
    | _ => none
  | none => none

end Exporter

/-! ## Steps -/

/-- What can happen on an exporter. -/
inductive Event
  /-- `dcom_get_pipe_send` is called for an interface. -/
  | send (iface : Guid)
  /-- The alter context of a call is answered. -/
  | answered (call : Nat) (answer : Answer)
  /-- A call goes through the string bindings. -/
  | connected (call : Nat) (attempts : List Attempt)
  /-- `dcom_get_pipe_recv` is called. -/
  | recv (call : Nat)
  /-- A request on a pipe ends with a fault. -/
  | fault (pipe : Nat) (code : UInt32)

/-- One step; only `dcom_get_pipe_recv` returns something. -/
def step (ox : Exporter) :
    Event → Option (Option Exporter.Returned × Exporter)
  | .send iface => (ox.dcomGetPipeSend tables iface).map fun ox => (none, ox)
  | .answered k answer => (ox.reuseExistingPipeContinue k answer).map fun ox => (none, ox)
  | .connected k attempts => (ox.bindNewPipe tables k attempts).map fun ox => (none, ox)
  | .recv k => (ox.dcomGetPipeRecv k).map fun (returned, ox) => (some returned, ox)
  | .fault i code =>
    some (none, { ox with pipes := ox.pipes.modify i ({ · with lastFaultCode := code }) })

def exporter : Machine Exporter Event (Option Exporter.Returned) :=
  ⟨step tables⟩

end OpenvasSmb.Dcom

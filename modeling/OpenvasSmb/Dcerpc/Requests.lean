import OpenvasSmb.Dcerpc.Connection
import OpenvasSmb.Kit.DList

/-!
# The requests of a connection in memory

The life of `struct rpc_request` in `librpc/rpc/dcerpc.c`: requests are allocated, linked into
`request_queue` or `pending`, shipped, answered, timed out, freed by their owners, and failed when
the connection dies, on top of the read credits of `librpc/rpc/dcerpc_sock.c`. The links and the
heads of the two lists are pointers in memory (`Linked`); all else is on a `Board`.

Calls of the client program are events, and what a callback does comes as events after the one
that ran it. Callbacks are the last thing a function does, except in `dcerpc_connection_dead`,
which runs them in a loop: while the connection is `dying`, every round is an event (`deadRound`),
and the client program may act between two rounds.

`none` is a step after which nothing can be described: a pointer to a freed request is followed,
or the loop that ships fragments is never left.
-/

namespace OpenvasSmb.Dcerpc.Requests

open Kit

variable {W : Type}

/-! ## State -/

/-- The address of a request; addresses are not used again. -/
abbrev Ref := Nat

/-- The lists of a connection. -/
inductive Chain where
  | pending
  | requestQueue
  deriving DecidableEq

/-- `enum rpc_request_state`. -/
inductive RequestState where
  | pending
  | done
  deriving DecidableEq

/-- `struct rpc_request` without its links. Whether it was sent as a whole, and how often its
callback has run, is only recorded. -/
structure Slot where
  request : RpcRequest
  state : RequestState
  status : NtStatus
  callback : Bool
  timer : Bool
  freed : Bool
  sent : Bool
  callbackRuns : Nat

def Slot.new (request : RpcRequest) : Slot :=
  ⟨request, .pending, .ok, false, false, false, false, 0⟩

/-- A request reaches its final state. -/
def Slot.finish (slot : Slot) : Slot := { slot with state := .done }

/-- A request reaches its final state with a status. -/
def Slot.complete (status : NtStatus) (slot : Slot) : Slot :=
  { slot with state := .done, status := status }

/-- All fragments of a request are sent. -/
def Slot.ship (slot : Slot) : Slot := { slot with status := .ok, sent := true }

/-- `if (req->async.callback) req->async.callback(req)`. -/
def Slot.runCallback (slot : Slot) : Slot :=
  if slot.callback then { slot with callbackRuns := slot.callbackRuns + 1 } else slot

/-- The request at an address, if there is one and it is not freed. -/
def liveSlot (requests : List Slot) (r : Ref) : Option Slot :=
  requests[r]?.filter fun slot => !slot.freed

/-- `struct sock_private`, with `recv_disable` of its packet context. -/
structure SockPrivate where
  alive : Bool
  pendingReads : UInt32
  recvDisable : Bool
  deriving DecidableEq

def sockSendRead (sock : SockPrivate) : SockPrivate :=
  let reads := sock.pendingReads + 1
  { sock with
    pendingReads := reads
    recvDisable := if reads = 1 then false else sock.recvDisable }

/-- `sock_process_recv`, up to the call of `recv_data`. -/
def sockProcessRecv (sock : SockPrivate) : SockPrivate :=
  let reads := sock.pendingReads - 1
  { sock with
    pendingReads := reads
    recvDisable := if reads = 0 then true else sock.recvDisable }

/-- Where the loop of `dcerpc_connection_dead` stands: the requests whose destructor was replaced,
and the one that is freed next. What was in the two lists before is only recorded. -/
structure Dying where
  status : NtStatus
  denied : List Ref
  current : Option Ref
  before : List Ref
  deriving DecidableEq

/-- `struct dcerpc_connection` with its socket, its requests, and the state of the environment. -/
structure Board (W : Type) where
  requests : List Slot
  callId : UInt32
  security : SecurityState
  srvMaxRecvFrag : Nat
  sock : SockPrivate
  dying : Option Dying
  w : W

namespace Board

/-- A connection on a new socket: `dcerpc_connection_init` and
`continue_socket_connect`. -/
def init (w : W) : Board W where
  requests := []
  callId := 1
  security := ⟨none, false⟩
  srvMaxRecvFrag := 0
  sock := ⟨true, 0, true⟩
  dying := none
  w := w

variable (b : Board W)

/-- The request at an address, if there is one and it is not freed. -/
def slot (r : Ref) : Option Slot := liveSlot b.requests r

/-- Change the request at an address. -/
def modify (r : Ref) (g : Slot → Slot) : Board W :=
  { b with requests := b.requests.modify r g }

def push (slot : Slot) : Board W := { b with requests := b.requests ++ [slot] }

def next : Ref := b.requests.length

/-- Whether a packet carries the call id of the request. -/
def matchesCall (callId : UInt32) (r : Ref) : Bool :=
  match b.requests[r]? with
  | none => false
  | some slot => slot.request.callId == callId

/-- Whether the destructor of the request was replaced. -/
def denies (r : Ref) : Bool :=
  match b.dying with
  | none => false
  | some d => d.denied.contains r

end Board

/-- The links of the requests and the heads of the lists. -/
abbrev RequestLists := Linked Chain Ref

/-- A connection with its requests. -/
abbrev State (W : Type) := Board W × RequestLists

/-- The mechanism over the socket: nothing is sent on a dead one. -/
def onSocket (M : Mechanism W) (sock : SockPrivate) : Mechanism W :=
  if sock.alive then M
  else { M with sendRequest := fun w => (.connectionDisconnected, w) }

section Code

variable (M : Mechanism W) (rounds : Nat)

/-! ## Submission -/

variable (r : Ref) (pkt : NcacnPacket) (b : Board W) (l : RequestLists) (slot : Slot)

/-- `dcerpc_ship_next_request`, once it has found that it ships the request. -/
def shipHead (b : Board W) (l : RequestLists) : Option (State W) := do
  let l ← l.remove .requestQueue r
  let l ← l.add .pending r
  match shipRequest (onSocket M b.sock) rounds b.srvMaxRecvFrag slot.request b.security b.w with
  | (_, .sent, sec, w) =>
    some ({ b with security := sec, w := w, sock := sockSendRead b.sock }.modify r Slot.ship, l)
  | (_, .failed status, sec, w) =>
    -- nobody is told
    (l.remove .pending r).map fun l =>
      ({ b with security := sec, w := w }.modify r (Slot.complete status), l)
  | (_, .endless, _, _) => none

def dcerpcShipNextRequest : Option (State W) :=
  match l.head .requestQueue with
  | none => some (b, l)
  | some r =>
    match b.slot r with
    | none => none
    | some slot =>
      if !slot.request.asyncCall && (l.head .pending).isSome then some (b, l)
      else shipHead M rounds r slot b l

/-- What a caller of `dcerpc_request_send` asks for; whether the pipe has a `request_timeout`, and a
callback is registered on the request. -/
structure Submission where
  asyncCall : Bool
  call : Call
  timeout : Bool
  callback : Bool

variable (sub : Submission)

def Submission.request (callId : UInt32) : RpcRequest :=
  ⟨callId, .request, sub.asyncCall, sub.call, []⟩

/-- The timer and the callback of a request that was submitted. -/
def Submission.register (slot : Slot) : Slot :=
  { slot with timer := sub.timeout, callback := sub.callback }

/-- `dcerpc_request_send`, and the registration of the callback by the caller. -/
def dcerpcRequestSend (b : Board W) (l : RequestLists) : Option (State W) := do
  let r := b.next
  let id := nextCallId b.callId
  let l ← (l.alloc r).addEnd b.requests.length .requestQueue r
  let s ← dcerpcShipNextRequest M rounds
    ({ b with callId := id }.push (.new (sub.request id))) l
  return (s.1.modify r sub.register, s.2)

/-- The request of a bind or alter context, whose callback is
`dcerpc_composite_fail`. -/
def Slot.handled (callId : UInt32) (kind : RequestKind) : Slot :=
  { Slot.new (handledRequest callId kind) with callback := true }

/-- A bind or alter context is sent, and a timer runs. -/
def Slot.await : Slot := { slot with timer := true, sent := true }

/-- `dcerpc_bind_send` and `dcerpc_alter_context_send`. If the send fails, the request stays
pending. -/
def sendHandled (kind : RequestKind) (b : Board W) (l : RequestLists) : Option (State W) := do
  let r := b.next
  let l ← (l.alloc r).addEnd b.requests.length .pending r
  match (onSocket M b.sock).sendRequest b.w with
  | (status, w) =>
    let b := b.push (.handled b.callId kind)
    if status.isOk then
      some ({ b with w := w, sock := sockSendRead b.sock }.modify r Slot.await, l)
    else some ({ b with w := w }, l)

def dcerpcAuth3 : Board W :=
  { b with callId := nextCallId b.callId, w := ((onSocket M b.sock).sendRequest b.w).2 }

/-! ## Replies -/

/-- What `recv_handler` changes on the connection; the handlers look at nothing else of
it. -/
def recvHandler (kind : RequestKind) (pkt : NcacnPacket) (b : Board W) : Board W :=
  let conn := { dcerpcConnectionInit with
    security := b.security, srvMaxRecvFrag := b.srvMaxRecvFrag }
  let conn :=
    match kind with
    | .request => conn
    | .bind => (dcerpcBindRecvHandler pkt conn).2
    | .authAlter => (dcerpcAlterRecvHandler pkt conn).2
    | .alter => (dcerpcAlterRecvHandler pkt conn).2
  { b with security := conn.security, srvMaxRecvFrag := conn.srvMaxRecvFrag }

/-- The label `req_done` of `dcerpc_request_recv_data`. -/
def requestDone (g : Slot → Slot) (b : Board W) (l : RequestLists) :
    Option (State W) := do
  let l ← l.remove .pending r
  let s ← dcerpcShipNextRequest M rounds
    (b.modify r fun slot => (g slot).finish) l
  return (s.1.modify r Slot.runCallback, s.2)

def Slot.append (stub : Bytes) (slot : Slot) : Slot :=
  { slot with request := { slot.request with payload := slot.request.payload ++ stub } }

def Slot.setStatus (status : NtStatus) (slot : Slot) : Slot := { slot with status := status }

/-- A packet for a request without `recv_handler`. -/
def requestReply (pulled : PulledStub) (b : Board W) (l : RequestLists) :
    Option (State W) :=
  match pkt.payload with
  | .fault code =>
    requestDone M rounds r
      (Slot.setStatus (if code = 5 then .accessDenied else .netWriteFault)) b l
  | .response _ =>
    if !pulled.status.isOk then
      requestDone M rounds r (Slot.setStatus pulled.status) b l
    else if !payloadFits slot.request.payload pulled.stub then
      requestDone M rounds r (Slot.setStatus .noMemory) b l
    else if !pkt.last then
      some ({ b with sock := sockSendRead b.sock }.modify r (Slot.append pulled.stub), l)
    else requestDone M rounds r (Slot.append pulled.stub) b l
  | _ => requestDone M rounds r (Slot.setStatus .netWriteFault) b l

/-- `dcerpc_request_recv_data` from the search for the request on. -/
def dispatchPacket (pulled : PulledStub) (b : Board W) (l : RequestLists) :
    Option (State W) :=
  match Linked.search l.cells (b.matchesCall pkt.callId) b.requests.length (l.head .pending) with
  | none => none
  | some none => some (b, l)
  | some (some r) =>
    match b.slot r with
    | none => none
    | some slot =>
      if slot.request.kind = .request then requestReply M rounds r pkt slot pulled b l
      else
        (l.remove .pending r).map fun l =>
          (recvHandler slot.request.kind pkt (b.modify r Slot.finish), l)

def dcerpcRequestRecvData :
    Option (State W) :=
  match verifyResponse M pkt b.security b.w with
  | (pulled, w) => dispatchPacket M rounds pkt pulled { b with w := w } l

/-! ## Timeouts, frees and the end -/

/-- The timer of a request has run. -/
def Slot.expire : Slot := { slot with timer := false }

def dcerpcTimeoutHandler : Option (State W) :=
  match b.slot r with
  | none => none
  | some slot =>
    let b := b.modify r Slot.expire
    if slot.state = .done then some (b, l)
    else
      (l.remove .pending r).map fun l =>
        (b.modify r fun slot => (slot.complete .ioTimeout).runCallback, l)

/-- What `talloc_free` leaves of a request: its timer goes with it. -/
def Slot.free : Slot := { slot with freed := true, timer := false }

/-- The memory of a request is given back. -/
def freeSlot : Option (State W) :=
  (l.free r).map fun l => (b.modify r Slot.free, l)

/-- The owner frees a request: `dcerpc_req_destructor`, or
`dcerpc_req_deny_destructor`. -/
def freeRequest : Option (State W) :=
  if b.denies r then some (b, l)
  else do
    let l ← l.remove .pending r
    freeSlot r b l

/-- The owner of a bind or alter context frees its composite context, and the request with it. If
that is kept by `dcerpc_req_deny_destructor`, its callback will look at the freed context. -/
def releaseHandled : Option (State W) :=
  if b.denies r then
    match b.slot r with
    | none => none
    | some slot => if slot.state = .done then some (b, l) else none
  else freeSlot r b l

/-- `dcerpc_connection_dead` up to its loop. -/
def dcerpcConnectionDead (status : NtStatus) (b : Board W) (l : RequestLists) : Option (State W) := do
  let denied ← Linked.walk l.cells b.requests.length (l.head .pending)
  let queued := (Linked.walk l.cells b.requests.length (l.head .requestQueue)).getD []
  return ({ b with dying := some ⟨status, denied, none, denied ++ queued⟩ }, l)

/-- The request of the last round is freed, if there was one. -/
def freeCurrent (d : Dying) (b : Board W) (l : RequestLists) : Option (State W) :=
  match d.current with
  | none => some (b, l)
  | some r => freeSlot r b l

/-- The first pending request gets the error, or the loop is over. -/
def failHead (d : Dying) (b : Board W) (l : RequestLists) : Option (State W) :=
  match l.head .pending with
  | none => some ({ b with dying := none }, l)
  | some r =>
    match b.slot r with
    | none => none
    | some _ =>
      (l.remove .pending r).map fun l =>
        ({ b with dying := some { d with current := some r } }.modify r
          fun slot => (slot.complete d.status).runCallback, l)

/-- One round of the loop of `dcerpc_connection_dead`, from the end of the callback of
the round before. -/
def deadRound : Option (State W) :=
  match b.dying with
  | none => none
  | some d => do
      let s ← freeCurrent d b l
      failHead d s.1 s.2

/-! ## The machine -/

/-- What may happen: calls of the client program (`gensec` is what an authenticated bind does
besides sending), packets, timeouts, the loss of the socket, and the rounds of the loop of
`dcerpc_connection_dead`. -/
inductive Event where
  | request (sub : Submission)
  | bind
  | alterContext
  | auth3
  | gensec (input : Bytes) (security : SecurityState)
  | freed (r : Ref)
  | released (r : Ref)
  | packet (pkt : NcacnPacket)
  | badPacket (status : NtStatus)
  | timeout (r : Ref)
  | lost (status : NtStatus)
  | deadRound

def handle : Event → Option (State W)
  | .request sub => dcerpcRequestSend M rounds sub b l
  | .bind => sendHandled M .bind b l
  | .alterContext => sendHandled M .alter b l
  | .auth3 => some (dcerpcAuth3 M b, l)
  | .gensec input security =>
    some ({ b with security := security, w := (M.update input b.w).2.2 }, l)
  | .freed r => freeRequest r b l
  | .released r => releaseHandled r b l
  | .packet pkt => dcerpcRequestRecvData M rounds pkt { b with sock := sockProcessRecv b.sock } l
  | .badPacket status =>
    -- after the loop no request is left for the packet
    dcerpcConnectionDead status { b with sock := sockProcessRecv b.sock } l
  | .timeout r => dcerpcTimeoutHandler r b l
  | .lost status => dcerpcConnectionDead status { b with sock := { b.sock with alive := false } } l
  | .deadRound => deadRound b l

/-- Whether the client program is running: outside the loop of
`dcerpc_connection_dead`, or in a callback of the loop. -/
def clientRuns : Bool :=
  match b.dying with
  | none => true
  | some d =>
    match d.current with
    | none => false
    | some r => b.requests[r]?.any (·.callback)

/-- Requests are freed by their owners, timers belong to requests that are not freed, and no packet
is delivered on a dead socket or while receiving is disabled. -/
def enabled : Event → Bool
  | .freed r => clientRuns b && (b.slot r).any (·.request.kind = .request)
  | .released r => clientRuns b && (b.slot r).any (·.request.kind ≠ .request)
  | .packet _ => b.dying.isNone && (b.sock.alive && !b.sock.recvDisable)
  | .badPacket status => b.dying.isNone && (b.sock.alive && !b.sock.recvDisable) && !status.isOk
  | .timeout r => b.dying.isNone && (b.slot r).any (·.timer)
  | .lost status => b.dying.isNone && !status.isOk
  | .deadRound => b.dying.isSome
  | _ => clientRuns b

/-- The requests of a connection as a machine over events. -/
def requests : Machine (State W) Event Unit where
  step := fun s ev =>
    if enabled s.1 ev then (handle M rounds s.1 s.2 ev).map fun s => ((), s) else none

end Code

def init (w : W) : State W := (.init w, ⟨fun _ => none, fun _ => none⟩)

end OpenvasSmb.Dcerpc.Requests

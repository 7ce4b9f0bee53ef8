import OpenvasSmb.Dcerpc.Sign
import OpenvasSmb.Ndr.Pull
import OpenvasSmb.Kit.Machine

/-!
# A client connection and its authenticated bind

The connection of `librpc/rpc/dcerpc.c` with its pending and queued requests, the packet dispatch,
and the authenticated bind of `librpc/rpc/dcerpc_auth.c`, whose composite context is `bindAuth`.

The connection is a machine over `Event`s: calls of the client program, packets parsed by
`ncacn_pull`, timeouts, freed requests and the loss of the transport. A step logs what was done
(`Action`). A step after which nothing can be described (the source walks over a freed request, or
never leaves the loop that ships fragments) sets `halted`, after which there is no step.
-/

namespace OpenvasSmb.Dcerpc

open Kit

/-! ## State -/

/-- Who completes a pending request: a caller of `dcerpc_request_send`, the bind or an alter context
of an authenticated bind, or a caller of `dcerpc_alter_context`. All but the first have a
`recv_handler`. -/
inductive RequestKind where
  | request
  | bind
  | authAlter
  | alter
  deriving DecidableEq

/-- What a caller of `dcerpc_request_send` passes, with the context id of the
pipe. -/
structure Call where
  object : Option Guid
  contextId : UInt16
  opnum : UInt16
  stub : Bytes
  deriving DecidableEq

/-- `struct rpc_request`. -/
structure RpcRequest where
  callId : UInt32
  kind : RequestKind
  asyncCall : Bool
  call : Call
  payload : Bytes
  deriving DecidableEq

/-- The request that stands for a bind or an alter context, which has no stub. -/
def handledRequest (callId : UInt32) (kind : RequestKind) : RpcRequest :=
  ⟨callId, kind, false, ⟨none, 0, 0, []⟩, []⟩

/-- A request packet that was sent, and whether a read was to be triggered. -/
structure Fragment where
  pkt : RequestPacket
  signed : SignedPacket
  triggerRead : Bool
  deriving DecidableEq

/-- The composite context of `dcerpc_bind_auth_send`: not started, waiting for the reply to its bind
(with `more_processing`) or to an alter context, or finished with a status. -/
inductive BindAuth where
  | idle
  | waitBind (moreProcessing : Bool)
  | waitAlter
  | finished (status : NtStatus)
  deriving DecidableEq

/-- What happened so far, for statements about a run; no function of the source
reads it. -/
structure History where
  bindSent : Bool
  bindAcked : Bool
  lastUpdate : Option NtStatus
  deriving DecidableEq

/-- `struct dcerpc_connection` with the authenticated bind that runs on it. -/
structure Connection where
  callId : UInt32
  security : SecurityState
  srvMaxRecvFrag : Nat
  pending : List RpcRequest
  requestQueue : List RpcRequest
  bindAuth : BindAuth
  history : History
  halted : Bool
  deriving DecidableEq

def dcerpcConnectionInit : Connection where
  callId := 1
  security := ⟨none, false⟩
  srvMaxRecvFrag := 0
  pending := []
  requestQueue := []
  bindAuth := .idle
  history := ⟨false, false, none⟩
  halted := false

/-- The packets sent besides requests. -/
inductive AuthPacket where
  | bind
  | alter
  | auth3
  deriving DecidableEq

inductive Action where
  | update (input : Bytes) (status : NtStatus) (output : Bytes)
  | sentAuth (ptype : AuthPacket) (callId : UInt32) (trailer : Option DcerpcAuth)
  | sentRequest (fragment : Fragment)
  | verified (check : Protection) (status : NtStatus)
  | accepted (callId : UInt32) (stub : Bytes)
  | completed (callId : UInt32) (status : NtStatus) (payload : Bytes)
  | alterDone (status : NtStatus)
  | bindAuthDone (status : NtStatus)
  deriving DecidableEq

/-- What a function of the connection leaves behind: its log, the connection and
the state of the environment. -/
abbrev Result (W : Type) := List Action × Connection × W

variable {W : Type}

/-- Log something before a result. -/
def Result.after (log : List Action) (r : Result W) : Result W := (log ++ r.1, r.2)

def nextCallId (callId : UInt32) : UInt32 :=
  if callId + 1 = 0 then callId + 2 else callId + 1

/-! ## Requests -/

/-- How the loop of `dcerpc_ship_next_request` ends: with the last fragment, with
a push or send that failed, or not at all. -/
inductive Shipped where
  | sent
  | failed (status : NtStatus)
  | endless
  deriving DecidableEq

/-- `pfc_flags` of the next fragment. -/
def fragmentFlags (flags : UInt8) (first last : Bool) : UInt8 :=
  let flags := flags &&& ~~~(pfcFlagFirst ||| pfcFlagLast)
  let flags := if first then flags ||| pfcFlagFirst else flags
  if last then flags ||| pfcFlagLast else flags

/-- The packet of the next fragment: `chunk` bytes of those that remain of
`total`. -/
def RequestPacket.fragment (pkt : RequestPacket) (total chunk : Nat) (remaining : Bytes) :
    RequestPacket :=
  { pkt with
    pfcFlags := fragmentFlags pkt.pfcFlags (remaining.length == total) (chunk == remaining.length)
    stub := remaining.take chunk }

/-- The loop of `dcerpc_ship_next_request` over the stub bytes that remain of `total`; `pkt` is the
packet of the round before. Without `fuel` no chunk makes progress. -/
def sendFragments (M : Mechanism W) (chunkSize total : Nat) :
    Nat → RequestPacket → SecurityState → W → Bytes → List Fragment × Shipped × SecurityState × W
  | 0, _, sec, w, _ => ([], .endless, sec, w)
  | fuel + 1, pkt, sec, w, remaining =>
    let chunk := min chunkSize remaining.length
    let lastFrag := chunk == remaining.length
    let pkt := pkt.fragment total chunk remaining
    match ncacnPushRequestSign M sec w pkt with
    | (.error status, sec, w) => ([], .failed status, sec, w)
    | (.ok signed, sec, w) =>
      match M.sendRequest w with
      | (status, w) =>
        if !status.isOk then ([⟨pkt, signed, lastFrag⟩], .failed status, sec, w)
        else if lastFrag then ([⟨pkt, signed, lastFrag⟩], .sent, sec, w)
        else
          match sendFragments M chunkSize total fuel pkt sec w (remaining.drop chunk) with
          | (fragments, r) => (⟨pkt, signed, lastFrag⟩ :: fragments, r)

/-- `srv_max_recv_frag - (DCERPC_MAX_SIGN_SIZE + DCERPC_REQUEST_LENGTH)`, less the
size of the object GUID, in 32-bit arithmetic. -/
def chunkSize (srvMaxRecvFrag : Nat) (object : Bool) : Nat :=
  (srvMaxRecvFrag + 2 ^ 32 - (dcerpcMaxSignSize + dcerpcRequestLength) -
    if object then 16 else 0) % 2 ^ 32

/-- The packet `dcerpc_ship_next_request` fills in before its loop. -/
def RpcRequest.packet (req : RpcRequest) : RequestPacket where
  pfcFlags := if req.call.object.isSome then pfcFlagOrpc else 0
  callId := req.callId
  allocHint := UInt32.ofNat req.call.stub.length
  contextId := req.call.contextId
  opnum := req.call.opnum
  object := req.call.object
  stub := []

variable (M : Mechanism W) (rounds : Nat) (status : NtStatus) (conn : Connection) (w : W)

/-- The fragments of a request. A loop that never ends is observed for `rounds`
fragments more than a loop that ends can have. -/
def shipRequest (srvMaxRecvFrag : Nat) (req : RpcRequest)
    (sec : SecurityState) (w : W) : List Fragment × Shipped × SecurityState × W :=
  sendFragments M (chunkSize srvMaxRecvFrag req.call.object.isSome) req.call.stub.length
    (req.call.stub.length + 1 + rounds) req.packet sec w req.call.stub

/-- `dcerpc_ship_next_request`. A failed push or send takes the request out of the pending list
without telling its caller. -/
def dcerpcShipNextRequest :
    Result W :=
  match conn.requestQueue with
  | [] => ([], conn, w)
  | req :: queue =>
    if !req.asyncCall && !conn.pending.isEmpty then ([], conn, w)
    else
      match shipRequest M rounds conn.srvMaxRecvFrag req conn.security w with
      | (fragments, shipped, sec, w) =>
        let conn := { conn with requestQueue := queue, security := sec }
        (fragments.map .sentRequest,
          match shipped with
          | .sent => { conn with pending := req :: conn.pending }
          | .failed _ => conn
          | .endless => { conn with pending := req :: conn.pending, halted := true },
          w)

def dcerpcRequestSend (asyncCall : Bool) (call : Call) : Result W :=
  let id := nextCallId conn.callId
  let req : RpcRequest := ⟨id, .request, asyncCall, call, []⟩
  dcerpcShipNextRequest M rounds
    { conn with callId := id, requestQueue := conn.requestQueue ++ [req] } w

/-! ## Binds and alter contexts -/

/-- The common part of `dcerpc_bind_send` and `dcerpc_alter_context_send`: the request becomes the
last of the pending ones, and the packet has `auth_info` as its trailer. -/
def sendHandled (ptype : AuthPacket) (kind : RequestKind)
    (conn : Connection) (w : W) : NtStatus × Result W :=
  match M.sendRequest w with
  | (status, w) =>
    (status, [.sentAuth ptype conn.callId conn.security.authInfo],
      { conn with pending := conn.pending ++ [handledRequest conn.callId kind] }, w)

def dcerpcBindSend : NtStatus × Result W :=
  sendHandled M .bind .bind
    { conn with history := { conn.history with bindSent := true } } w

def dcerpcAlterContextSend (kind : RequestKind) (conn : Connection) (w : W) :
    NtStatus × Result W :=
  sendHandled M .alter kind conn w

def dcerpcAuth3 : NtStatus × Result W :=
  let id := nextCallId conn.callId
  match M.sendRequest w with
  | (status, w) =>
    (status, [.sentAuth .auth3 id conn.security.authInfo], { conn with callId := id }, w)

/-- The composite context of the authenticated bind completes. -/
def finishBindAuth : Result W :=
  ([.bindAuthDone status], { conn with bindAuth := .finished status }, w)

/-- A composite context waits for a request that was just sent. If the send failed, it fails and
frees the request, which stays in the pending list. -/
def continueBindAuth (wait : BindAuth) (sent : NtStatus × Result W) : Result W :=
  match sent with
  | (status, log, conn, w) =>
    if status.isOk then (log, { conn with bindAuth := wait }, w)
    else .after log (finishBindAuth status { conn with halted := true } w)

/-- `gensec_update`, with the credentials it is given. -/
def gensecUpdate (input : Bytes) (conn : Connection) (w : W) :
    NtStatus × Bytes × Result W :=
  match M.update input w with
  | (status, output, w) =>
    (status, output, [.update input status output],
      { conn with history := { conn.history with lastUpdate := some status } }, w)

/-- Store the mechanism's token in `auth_info`. -/
def setCredentials (auth : DcerpcAuth) (token : Bytes) (conn : Connection) : Connection :=
  { conn with security :=
      { conn.security with authInfo := some { auth with credentials := token } } }

/-- The part of `bind_auth_next_step` that follows `gensec_update`. -/
def sendToken (auth : DcerpcAuth) (status : NtStatus) (token : Bytes)
    (conn : Connection) (w : W) : Result W :=
  let moreProcessing := status == .moreProcessingRequired
  let status := if moreProcessing then .ok else status
  if !status.isOk then finishBindAuth status conn w
  else if token.length = 0 then finishBindAuth status conn w
  else if !moreProcessing then
    match dcerpcAuth3 M (setCredentials auth token conn) w with
    | (status, log, conn, w) => .after log (finishBindAuth status conn w)
  else
    continueBindAuth .waitAlter
      (dcerpcAlterContextSend M .authAlter (setCredentials auth token conn) w)

def bindAuthNextStep : Result W :=
  match conn.security.authInfo with
  | none => ([], { conn with halted := true }, w)
  | some auth =>
    match gensecUpdate M auth.credentials conn w with
    | (status, token, log, conn, w) => .after log (sendToken M auth status token conn w)

/-- `bind_auth_recv_bindreply`, given what `dcerpc_bind_recv` returns. -/
def bindAuthRecvBindreply :
    Result W :=
  match conn.bindAuth with
  | .waitBind moreProcessing =>
    if !status.isOk then finishBindAuth status conn w
    else if !moreProcessing then finishBindAuth status conn w
    else bindAuthNextStep M conn w
  | _ => ([], conn, w)

/-- `bind_auth_recv_alter`, given what `dcerpc_alter_context_recv` returns. -/
def bindAuthRecvAlter :
    Result W :=
  match conn.bindAuth with
  | .waitAlter =>
    if !status.isOk then finishBindAuth status conn w else bindAuthNextStep M conn w
  | _ => ([], conn, w)

/-- What the caller of `dcerpc_bind_auth_send` asks for, the number drawn for the context id, and
how the calls before the first `gensec_update` end: `dcerpc_init_syntaxes` and `gensec_client_start`
(`start`), and those up to `gensec_start_mech_by_authtype` (`setup`). -/
structure BindRequest where
  authType : UInt8
  authLevel : UInt8
  contextId : UInt32
  start : NtStatus
  setup : NtStatus

/-- The `auth_info` that `dcerpc_bind_auth_send` sets up. -/
def BindRequest.authInfo (r : BindRequest) : DcerpcAuth :=
  ⟨r.authType, r.authLevel, 0, 0, r.contextId, []⟩

def dcerpcBindAuthSend (r : BindRequest) (conn : Connection) (w : W) :
    Result W :=
  if !r.start.isOk then finishBindAuth r.start conn w
  else if !r.setup.isOk then
    finishBindAuth r.setup { conn with security := { conn.security with genericState := true } } w
  else
    let conn := { conn with security := ⟨some r.authInfo, true⟩ }
    match gensecUpdate M [] conn w with
    | (status, token, log, conn, w) =>
      let moreProcessing := status == .moreProcessingRequired
      if !status.isOk && !moreProcessing then .after log (finishBindAuth status conn w)
      else if token.length = 0 then .after log (finishBindAuth status conn w)
      else
        .after log (continueBindAuth (.waitBind moreProcessing)
          (dcerpcBindSend M (setCredentials r.authInfo token conn) w))

/-! ## Replies -/

/-- The trailer of a `bind_ack` or `alter_resp` is pulled into `auth_info`. -/
def pullTrailer (blob : Bytes) (conn : Connection) : NtStatus × Connection :=
  match conn.security.authInfo with
  | none => (.ok, conn)
  | some auth =>
    if blob.length = 0 then (.ok, conn)
    else
      match ndrPullDcerpcAuth blob auth with
      | (status, auth) =>
        (status, { conn with security := { conn.security with authInfo := some auth } })

/-- The test `num_results == 0 || ctx_list[0].result != 0`, negated. -/
def BindAck.isAccepted (ack : BindAck) : Bool :=
  match ack.ctxList with
  | [] => false
  | ctx :: _ => ctx.result == 0

variable (pkt : NcacnPacket)

/-- `dcerpc_bind_recv_handler`: the status its composite context ends with. -/
def dcerpcBindRecvHandler (conn : Connection) : NtStatus × Connection :=
  match pkt.payload with
  | .bindNak reason => (dcerpcMapReason reason, conn)
  | .bindAck ack =>
    if ack.isAccepted then
      pullTrailer ack.authInfo
        { conn with
          srvMaxRecvFrag := ack.maxRecvFrag.toNat
          history := { conn.history with bindAcked := true } }
    else (.netWriteFault, conn)
  | _ => (.netWriteFault, conn)

/-- `dcerpc_alter_recv_handler`: the status its composite context ends with. -/
def dcerpcAlterRecvHandler (conn : Connection) : NtStatus × Connection :=
  match pkt.payload with
  | .alterResp ack =>
    match ack.ctxList with
    | [ctx] =>
      if ctx.result ≠ 0 then (dcerpcMapReason ctx.reason, conn)
      else pullTrailer ack.authInfo conn
    | _ => if ack.isAccepted then pullTrailer ack.authInfo conn else (.netWriteFault, conn)
  | _ => (.netWriteFault, conn)

/-- The check that opens `dcerpc_request_recv_data`. -/
def verifyResponse (sec : SecurityState) (w : W) :
    PulledStub × W :=
  match pkt.payload, sec.active with
  | .response stub, some auth => ncacnPullRequestAuth M auth w pkt.authLength.toNat stub
  | .response stub, none => (⟨.ok, stub, none⟩, w)
  | _, _ => (⟨.ok, [], none⟩, w)

/-- The requests of the pending list with the packet's call id; the first one
takes the packet. -/
def NcacnPacket.isFor (req : RpcRequest) : Bool := req.callId == pkt.callId

variable (pkt : NcacnPacket)

/-- The label `req_done` of `dcerpc_request_recv_data`. -/
def requestDone (status : NtStatus) (payload : Bytes) (conn : Connection) (w : W) : Result W :=
  match dcerpcShipNextRequest M rounds { conn with pending := conn.pending.eraseP pkt.isFor } w with
  | (log, conn, w) => (log ++ [.completed pkt.callId status payload], conn, w)

/-- Whether `talloc_realloc` makes room for the stub of a fragment behind the payload. A packet has
less than `2 ^ 16` bytes, so that the sum of the lengths does not wrap. -/
def payloadFits (payload stub : Bytes) : Bool :=
  stub.isEmpty || payload.length + stub.length < Ndr.maxTallocSize

/-- A packet for a request without `recv_handler`. -/
def requestReply (req : RpcRequest) (pulled : PulledStub) (conn : Connection) (w : W) : Result W :=
  match pkt.payload with
  | .fault code =>
    requestDone M rounds pkt (if code = 5 then .accessDenied else .netWriteFault)
      req.payload conn w
  | .response _ =>
    if !pulled.status.isOk then requestDone M rounds pkt pulled.status req.payload conn w
    else if !payloadFits req.payload pulled.stub then
      requestDone M rounds pkt .noMemory req.payload conn w
    else
      let payload := req.payload ++ pulled.stub
      if !pkt.last then
        let pending := conn.pending.modify (conn.pending.findIdx pkt.isFor)
          fun req => { req with payload := payload }
        ([.accepted pkt.callId pulled.stub], { conn with pending := pending }, w)
      else .after [.accepted pkt.callId pulled.stub]
        (requestDone M rounds pkt .ok payload conn w)
  | _ => requestDone M rounds pkt .netWriteFault req.payload conn w

/-- A packet for a request with a `recv_handler`, which is no longer pending. -/
def handlerReply (kind : RequestKind) (conn : Connection) (w : W) : Result W :=
  match kind with
  | .request => ([], conn, w)
  | .bind =>
    match dcerpcBindRecvHandler pkt conn with
    | (status, conn) => bindAuthRecvBindreply M status conn w
  | .authAlter =>
    match dcerpcAlterRecvHandler pkt conn with
    | (status, conn) => bindAuthRecvAlter M status conn w
  | .alter =>
    match dcerpcAlterRecvHandler pkt conn with
    | (status, conn) => ([.alterDone status], conn, w)

def dcerpcRequestRecvData (conn : Connection) (w : W) : Result W :=
  match verifyResponse M pkt conn.security w with
  | (pulled, w) =>
    let checks := pulled.check.toList.map fun c => .verified c.1 c.2
    match conn.pending.find? pkt.isFor with
    | none => (checks, conn, w)
    | some req =>
      if req.kind = .request then .after checks (requestReply M rounds pkt req pulled conn w)
      else .after checks
        (handlerReply M pkt req.kind
          { conn with pending := conn.pending.eraseP pkt.isFor } w)

/-! ## Failures -/

/-- The callback of a request that failed with the status given: the caller's, or
`dcerpc_composite_fail`, which fails the bind or alter context. -/
def failRequest (req : RpcRequest) (conn : Connection) :
    List Action × Connection :=
  match req.kind, conn.bindAuth with
  | .request, _ => ([.completed req.callId status req.payload], conn)
  | .alter, _ => ([.alterDone status], conn)
  | .bind, .waitBind _ => ([.bindAuthDone status], { conn with bindAuth := .finished status })
  | .authAlter, .waitAlter => ([.bindAuthDone status], { conn with bindAuth := .finished status })
  | _, _ => ([], conn)

/-- `dcerpc_timeout_handler` for the pending request at a position. -/
def dcerpcTimeoutHandler (i : Nat) (conn : Connection) : List Action × Connection :=
  match conn.pending[i]? with
  | none => ([], conn)
  | some req =>
    failRequest .ioTimeout req { conn with pending := conn.pending.eraseIdx i }

/-- The queue after `DLIST_REMOVE` with the head of the pending list: the first request stays, cut
off from the others, and any other request is unlinked. -/
def dequeue (i : Nat) (queue : List RpcRequest) : List RpcRequest :=
  if i = 0 then queue.take 1 else queue.eraseIdx i

/-- `dcerpc_timeout_handler` for the queued request at a position. -/
def dcerpcTimeoutQueued (i : Nat) (conn : Connection) : List Action × Connection :=
  match conn.requestQueue[i]? with
  | none => ([], conn)
  | some req =>
    failRequest .ioTimeout req { conn with requestQueue := dequeue i conn.requestQueue }

/-- `dcerpc_connection_dead`: every pending request gets the error. -/
def dcerpcConnectionDead : List Action × Connection :=
  conn.pending.foldl
    (fun (log, conn) req =>
      match failRequest status req conn with
      | (log', conn) => (log ++ log', conn))
    ([], { conn with pending := [] })

/-! ## The machine -/

/-- What may happen to a connection. -/
inductive Event where
  | bindAuth (r : BindRequest)
  | request (asyncCall : Bool) (call : Call)
  | alterContext
  | packet (pkt : NcacnPacket)
  | timeout (i : Nat)
  | queueTimeout (i : Nat)
  | freed (i : Nat)
  | queueFreed (i : Nat)
  | lost (status : NtStatus)

/-- One event on a connection that is not halted. -/
def handle : Event → Result W
  | .bindAuth r => dcerpcBindAuthSend M r conn w
  | .request asyncCall call => dcerpcRequestSend M rounds conn w asyncCall call
  | .alterContext =>
    match dcerpcAlterContextSend M .alter conn w with
    | (status, log, conn, w) =>
      if status.isOk then (log, conn, w)
      else (log ++ [.alterDone status], { conn with halted := true }, w)
  | .packet pkt => dcerpcRequestRecvData M rounds pkt conn w
  | .timeout i =>
    match dcerpcTimeoutHandler i conn with
    | (log, conn) => (log, conn, w)
  | .queueTimeout i =>
    match dcerpcTimeoutQueued i conn with
    | (log, conn) => (log, conn, w)
  | .freed i => ([], { conn with pending := conn.pending.eraseIdx i }, w)
  | .queueFreed i =>
    -- the queue still starts with the first request after it is freed
    ([], { conn with requestQueue := dequeue i conn.requestQueue, halted := i == 0 }, w)
  | .lost status =>
    -- an empty blob counts as a network error
    match dcerpcConnectionDead (if status.isOk then .unexpectedNetworkError else status) conn with
    | (log, conn) => (log, conn, w)

/-- One authenticated bind is started on a connection, and only plain requests are freed by their
owners. -/
def enabled : Event → Bool
  | .bindAuth _ => conn.bindAuth == .idle
  | .freed i => (conn.pending[i]?.map (·.kind)) == some .request
  | .queueFreed i => conn.requestQueue[i]?.isSome
  | _ => true

/-- The connection as a machine over events. -/
def connection :
    Machine (Connection × W) Event (List Action) where
  step := fun (conn, w) ev =>
    if conn.halted || !enabled conn ev then none
    else some (handle M rounds conn w ev)

end OpenvasSmb.Dcerpc

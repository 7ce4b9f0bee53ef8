import OpenvasSmb.Dcerpc.Packet

/-!
# Signing requests and checking responses

`ncacn_push_request_sign` and `ncacn_pull_request_auth` of `librpc/rpc/dcerpc.c`. Both go by the
authentication level in the connection's security state. The mechanism (gensec) and the transport
are parameters: a `Mechanism W` may answer in any way that depends on a hidden state `W`.

A request is pushed with its padding and a trailer whose signature is blank, a range of it is
handed to the mechanism, and the signature is filled in (`SignedPacket`).
-/

namespace OpenvasSmb.Dcerpc

/-- The mechanism behind `generic_state` and the transport's send function, over a hidden state `W`.
`sealPacket` and `signPacket` get the data to protect and the packet up to the signature, and answer
with a signature; buffers that are sealed or unsealed in place come back. -/
structure Mechanism (W : Type) where
  update : Bytes → W → NtStatus × Bytes × W
  sigSize : Nat → W → Nat
  sealPacket : Bytes → Bytes → W → NtStatus × Bytes × Bytes × W
  signPacket : Bytes → Bytes → W → NtStatus × Bytes × W
  unsealPacket : Bytes → Bytes → W → NtStatus × Bytes × W
  checkPacket : Bytes → Bytes → W → NtStatus × W
  sendRequest : W → NtStatus × W

/-- What is done to a fragment, or checked on a response. -/
inductive Protection where
  | none
  | connect
  | sign
  | seal
  deriving DecidableEq

/-- `struct dcerpc_security`; `genericState` says that the gensec context is
there. -/
structure SecurityState where
  authInfo : Option DcerpcAuth
  genericState : Bool
  deriving DecidableEq

/-- The test `security_state.auth_info && security_state.generic_state`. -/
def SecurityState.active (sec : SecurityState) : Option DcerpcAuth :=
  if sec.genericState then sec.authInfo else none

/-- A buffer after a function that works in place has written `new` at its
start. -/
def inPlace (old new : Bytes) : Bytes :=
  new.take old.length ++ old.drop new.length

/-- A range of bytes of a packet. -/
structure Span where
  start : Nat
  size : Nat
  deriving DecidableEq

/-- The bytes of a blob in a range. -/
def Span.slice (span : Span) (blob : Bytes) : Bytes := (blob.drop span.start).take span.size

/-- A blob after a function that works on a range of it in place. -/
def Span.update (span : Span) (blob data : Bytes) : Bytes :=
  overwrite blob span.start (inPlace (span.slice blob) data)

/-- A request packet as it goes out: what was done to it and to which range, and its trailer. -/
structure SignedPacket where
  protection : Protection
  handed : Option Span
  blob : Bytes
  trailer : Option DcerpcAuth
  deriving DecidableEq

/-- The padding that brings a stub to a multiple of 16 bytes. -/
def authPadding (stub : Bytes) : Nat := (16 - stub.length % 16) % 16

def dcerpcConnectVerifier : Bytes := [1, 0, 0, 0] ++ List.replicate 12 0

def dcerpcCheckConnectVerifier (blob : Bytes) : NtStatus :=
  if blob.length ≠ 16 ∨ u32 blob ≠ 1 then .accessDenied else .ok

/-- The range `ncacn_push_request_sign` hands to the mechanism:
`blob->data + DCERPC_REQUEST_LENGTH` and `payload_length`. -/
def payloadSpan (pkt : RequestPacket) : Span :=
  ⟨dcerpcRequestLength, pkt.stub.length + authPadding pkt.stub⟩

def paddedPacket (pkt : RequestPacket) : Bytes :=
  ndrPushNcacnPacket pkt 0 ++ List.replicate (authPadding pkt.stub) 0

/-- `auth_info` with the padding of a packet and the credentials given. -/
def DcerpcAuth.forPacket (auth : DcerpcAuth) (pkt : RequestPacket) (creds : Bytes) : DcerpcAuth :=
  { auth with authPadLength := UInt8.ofNat (authPadding pkt.stub), credentials := creds }

/-- The trailer is added and the lengths are filled in. -/
def withVerifier (padded : Bytes) (auth : DcerpcAuth) : Bytes :=
  let blob := ndrPushDcerpcAuth padded auth
  dcerpcSetAuthLength (dcerpcSetFragLength blob blob.length) auth.credentials.length

/-- The blank signature at the end of a packet gives way to the one the mechanism
made. -/
def replaceSignature (blob : Bytes) (blank : Nat) (creds : Bytes) : Bytes :=
  let blob := dcerpcSetAuthLength (blob.take (blob.length - blank) ++ creds) creds.length
  -- the mechanism could not tell the size beforehand
  if blank = 0 then dcerpcSetFragLength blob (dcerpcGetFragLength blob + creds.length) else blob

variable {W : Type} (M : Mechanism W)

/-- `ncacn_push_request_sign`: the packet to send or an error, and the security state afterwards
(the padding length stays in `auth_info`). -/
def ncacnPushRequestSign (sec : SecurityState) (w : W) (pkt : RequestPacket) :
    Except NtStatus SignedPacket × SecurityState × W :=
  match sec.active with
  | none => (.ok ⟨.none, none, ncacnPushAuth pkt sec.authInfo, sec.authInfo⟩, sec, w)
  | some auth =>
    let span := payloadSpan pkt
    let blank := List.replicate (M.sigSize span.size w) 0
    let blob := withVerifier (paddedPacket pkt) (auth.forPacket pkt blank)
    let pdu := blob.take (blob.length - blank.length)
    let keep (creds : Bytes) : SecurityState :=
      { sec with authInfo := some (auth.forPacket pkt creds) }
    if auth.authLevel = levelPrivacy then
      match M.sealPacket (span.slice blob) pdu w with
      | (status, data, creds, w) =>
        if status.isOk then
          (.ok ⟨.seal, some span, replaceSignature (span.update blob data) blank.length creds,
            some (auth.forPacket pkt creds)⟩, keep [], w)
        else (.error status, keep blank, w)
    else if auth.authLevel = levelIntegrity then
      match M.signPacket (span.slice blob) pdu w with
      | (status, creds, w) =>
        if status.isOk then
          (.ok ⟨.sign, some span, replaceSignature blob blank.length creds,
            some (auth.forPacket pkt creds)⟩, keep [], w)
        else (.error status, keep blank, w)
    else if auth.authLevel = levelConnect then
      let auth := auth.forPacket pkt dcerpcConnectVerifier
      (.ok ⟨.connect, none, withVerifier (paddedPacket pkt) auth, some auth⟩, keep [], w)
    else if auth.authLevel = levelNone then
      let auth := auth.forPacket pkt []
      (.ok ⟨.none, none, withVerifier (paddedPacket pkt) auth, some auth⟩, keep [], w)
    else (.error .invalidLevel, keep auth.credentials, w)

/-- What `ncacn_pull_request_auth` made of a response, and the check that was run. -/
structure PulledStub where
  status : NtStatus
  stub : Bytes
  check : Option (Protection × NtStatus)

/-- The switch of `ncacn_pull_request_auth` on the level in the connection. -/
def checkResponse (level : UInt8) (w : W) (stub creds : Bytes) :
    NtStatus × Bytes × Option Protection × W :=
  if level = levelPrivacy then
    match M.unsealPacket stub creds w with
    | (status, data, w) => (status, inPlace stub data, some .seal, w)
  else if level = levelIntegrity then
    match M.checkPacket stub creds w with
    | (status, w) => (status, stub, some .sign, w)
  else if level = levelConnect then (dcerpcCheckConnectVerifier creds, stub, some .connect, w)
  else if level = levelNone then (.ok, stub, some .none, w)
  else (.invalidLevel, stub, none, w)

/-- `ncacn_pull_request_auth`, for a connection whose security state is
active. -/
def ncacnPullRequestAuth (auth : DcerpcAuth) (w : W) (authLength : Nat)
    (stubAndVerifier : Bytes) : PulledStub × W :=
  if authLength = 0 ∧ auth.authLevel = levelConnect then (⟨.ok, stubAndVerifier, none⟩, w)
  else if stubAndVerifier.length < 8 + authLength then
    (⟨.infoLengthMismatch, stubAndVerifier, none⟩, w)
  else
    let size := stubAndVerifier.length - (8 + authLength)
    -- the trailer is pulled into a local record, every field of which is filled
    let pulled := (ndrPullDcerpcAuth (stubAndVerifier.drop size) auth).2
    match checkResponse M auth.authLevel w (stubAndVerifier.take size) pulled.credentials with
    | (status, stub, check, w) =>
      let check := check.map (·, status)
      if stub.length < pulled.authPadLength.toNat then (⟨.infoLengthMismatch, stub, check⟩, w)
      else (⟨status, stub.take (stub.length - pulled.authPadLength.toNat), check⟩, w)

end OpenvasSmb.Dcerpc

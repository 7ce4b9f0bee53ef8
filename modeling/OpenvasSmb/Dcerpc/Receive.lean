import OpenvasSmb.Dcerpc.Connection

/-!
# From the socket to the dispatch

`packet_recv` of `lib/stream/packet.c` with `sock_complete_packet`, and `dcerpc_recv_data` with
`ncacn_pull`: how a stream is cut into blobs, and what becomes of a blob. A blob that cannot be
parsed kills the connection, but the function goes on to `dcerpc_request_recv_data` with a freed
blob and a packet set only as far as the pull got.

What the uncleared `struct ncacn_packet` held before is a parameter (`Unset`). A read outside the
blob or through a pointer that was never set is `none`.
-/

namespace OpenvasSmb.Dcerpc

open Kit

variable {W : Type}

/-! ## Framing -/

/-- `sock_complete_packet`: the size of the packet, or `STATUS_MORE_ENTRIES`. -/
def sockCompletePacket (blob : Bytes) : Option Nat :=
  if blob.length < 10 then none
  else if dcerpcGetFragLength blob > blob.length then none
  else some (dcerpcGetFragLength blob)

/-- What `packet_recv` makes of the bytes it has read. -/
inductive Framed where
  | incomplete
  | failed (status : NtStatus)
  | delivered (blob rest : Bytes)
  deriving DecidableEq

/-- `packet_recv` once bytes have arrived. Truncating the blob to no bytes frees it,
which counts as a failed allocation. -/
def packetRecv (received : Bytes) : Framed :=
  match sockCompletePacket received with
  | none => .incomplete
  | some 0 => .failed .noMemory
  | some size => .delivered (received.take size) (received.drop size)

/-! ## Parsing -/

/-- The fields of `struct ncacn_packet` before its payload that are read later. -/
structure PacketHeader where
  ptype : UInt8
  pfcFlags : UInt8
  authLength : UInt16
  callId : UInt32

/-- What the memory of the packet held before, with the length of the stub. -/
structure Unset where
  header : PacketHeader
  stubLength : Nat

/-- `DCERPC_PKT_RESPONSE`. -/
def pktResponse : UInt8 := 2

/-- A number in the byte order of the packet. -/
def number (big : Bool) (blob : Bytes) (offset size : Nat) : Nat :=
  let field := (blob.drop offset).take size
  if big then ofLe field.reverse else ofLe field

/-- The fields are pulled in order, until the blob ends. -/
def PacketHeader.pulled (header : PacketHeader) (big : Bool) (blob : Bytes) : PacketHeader where
  ptype := blob[2]?.getD header.ptype
  pfcFlags := blob[3]?.getD header.pfcFlags
  authLength := if blob.length < 12 then header.authLength else .ofNat (number big blob 10 2)
  callId := if blob.length < 16 then header.callId else .ofNat (number big blob 12 4)

/-- The generated pulls of the payloads other than a response, from packet type, byte
order and the whole blob. -/
abbrev PayloadPull := UInt8 → Bool → Bytes → Except NtStatus Payload

/-- How `ndr_pull_ncacn_packet` ends; a failure leaves the fields pulled so far. -/
inductive PulledPacket where
  | packet (pkt : NcacnPacket)
  | failed (status : NtStatus) (header : PacketHeader)

/-- `ndr_pull_dcerpc_response`: seven bytes, and the stub at the next multiple of eight. -/
def ndrPullDcerpcResponse (blob : Bytes) : Except NtStatus Payload :=
  if blob.length < 23 then .error .bufferTooSmall else .ok (.response (blob.drop 24))

def ndrPullNcacnPacket (G : PayloadPull) (big : Bool) (blob : Bytes) (header : PacketHeader) :
    PulledPacket :=
  let header := header.pulled big blob
  if blob.length < 16 then .failed .bufferTooSmall header
  else
    match if header.ptype = pktResponse then ndrPullDcerpcResponse blob
      else G header.ptype big blob with
    | .error status => .failed status header
    | .ok payload =>
      .packet ⟨header.callId, header.authLength, header.pfcFlags &&& pfcFlagLast != 0, payload⟩

/-- `ncacn_pull`: the byte order is read before anything is known about the length. -/
def ncacnPull (G : PayloadPull) (blob : Bytes) (header : PacketHeader) : Option PulledPacket :=
  match blob[4]? with
  | none => none
  | some drep => some (ndrPullNcacnPacket G (drep &&& 0x10 == 0) blob header)

/-! ## Dispatch -/

/-- `ncacn_pull_request_auth` reads the verifier through the pointer of a stub that was never set.
-/
def readsUnsetStub (sec : SecurityState) (header : PacketHeader) (stubLength : Nat) : Bool :=
  match sec.active with
  | none => false
  | some auth =>
    header.ptype == pktResponse &&
      !(header.authLength == 0 && auth.authLevel == levelConnect) &&
      decide (8 + header.authLength.toNat ≤ stubLength)

/-- The packet `dcerpc_request_recv_data` sees when the pull has failed. -/
def PacketHeader.unparsed (header : PacketHeader) (stubLength : Nat) : NcacnPacket :=
  ⟨header.callId, header.authLength, header.pfcFlags &&& pfcFlagLast != 0,
    if header.ptype = pktResponse then .response (List.replicate stubLength 0)
    else .other header.ptype⟩

def dcerpcRecvData (M : Mechanism W) (rounds : Nat) (G : PayloadPull) (unset : Unset)
    (blob : Bytes) (status : NtStatus) (conn : Connection) (w : W) : Option (Result W) :=
  let status := if status.isOk && blob.length == 0 then .unexpectedNetworkError else status
  if !status.isOk then
    match dcerpcConnectionDead status conn with
    | (log, conn) => some (log, conn, w)
  else
    match ncacnPull G blob unset.header with
    | none => none
    | some (.packet pkt) => some (dcerpcRequestRecvData M rounds pkt conn w)
    | some (.failed status header) =>
      match dcerpcConnectionDead status conn with
      | (log, conn) =>
        -- there is no return here
        if readsUnsetStub conn.security header unset.stubLength then none
        else some (.after log
          (dcerpcRequestRecvData M rounds (header.unparsed unset.stubLength) conn w))

end OpenvasSmb.Dcerpc

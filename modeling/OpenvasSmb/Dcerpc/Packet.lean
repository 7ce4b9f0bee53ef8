import OpenvasSmb.Kit.Bytes
import OpenvasSmb.Util.Status

/-!
# DCE/RPC packets and authentication trailers

The data of `librpc/idl/dcerpc.idl` that the client side of a connection reads and writes: the
trailer `dcerpc_auth`, the request packet in bytes, and the packets of a server as `ncacn_pull`
delivers them. Fields no modelled function reads (the association group, the secondary address,
transfer syntaxes, the allocation hint of a response) are left out.

The pushes are written as `pidl` lays them out for the IDL, in little-endian order (the binding
option `bigendian` is left out).
-/

namespace OpenvasSmb.Dcerpc

open Kit

/-! ## Authentication trailers -/

/-- `struct dcerpc_auth`. -/
structure DcerpcAuth where
  authType : UInt8
  authLevel : UInt8
  authPadLength : UInt8
  authReserved : UInt8
  authContextId : UInt32
  credentials : Bytes
  deriving DecidableEq

variable (blob : Bytes)

/-- `DCERPC_AUTH_LEVEL_*`. -/
def levelNone : UInt8 := 1
def levelConnect : UInt8 := 2
def levelIntegrity : UInt8 := 5
def levelPrivacy : UInt8 := 6

/-- A 32-bit little-endian field (`ndr_pull_uint32` without the big-endian flag). -/
def u32 (b : Bytes) : UInt32 := UInt32.ofNat (ofLe (b.take 4))

/-- `ndr_pull_dcerpc_auth` into the record given, which keeps its other fields when the blob ends.
-/
def ndrPullDcerpcAuth (auth : DcerpcAuth) : NtStatus × DcerpcAuth :=
  let filled := { auth with
    authType := blob[0]?.getD auth.authType
    authLevel := blob[1]?.getD auth.authLevel
    authPadLength := blob[2]?.getD auth.authPadLength
    authReserved := blob[3]?.getD auth.authReserved }
  if blob.length < 8 then (.bufferTooSmall, filled)
  else (.ok, { filled with
    authContextId := u32 (blob.drop 4)
    credentials := blob.drop 8 })

/-- `NDR_PUSH_ALIGN(ndr, 4)`: the zero bytes up to a multiple of four. -/
def alignment : Bytes := List.replicate ((4 - blob.length % 4) % 4) 0

/-- `ndr_push_dcerpc_auth` at the end of a packet. -/
def ndrPushDcerpcAuth (auth : DcerpcAuth) : Bytes :=
  blob ++ alignment blob ++
    ([auth.authType, auth.authLevel, auth.authPadLength, auth.authReserved] ++
      toLe 4 auth.authContextId.toNat) ++ auth.credentials

/-! ## Request packets -/

/-- `struct GUID`, in the 16 bytes that `ndr_push_GUID` writes. -/
structure Guid where
  bytes : Bytes
  length_bytes : bytes.length = 16
  deriving DecidableEq

/-- `DCERPC_PFC_FLAG_*`. -/
def pfcFlagFirst : UInt8 := 0x01
def pfcFlagLast : UInt8 := 0x02
def pfcFlagOrpc : UInt8 := 0x80

def dcerpcRequestLength : Nat := 24

def dcerpcMaxSignSize : Nat := 32

/-- `struct ncacn_packet` of a request. The GUID is a member of the packet that is
only written under `DCERPC_PFC_FLAG_ORPC`. -/
structure RequestPacket where
  pfcFlags : UInt8
  callId : UInt32
  allocHint : UInt32
  contextId : UInt16
  opnum : UInt16
  object : Option Guid
  stub : Bytes
  deriving DecidableEq

variable (pkt : RequestPacket)

/-- What `LIBNDR_FLAG_OBJECT_PRESENT` adds to the header. -/
def RequestPacket.objectBytes : Bytes :=
  if pkt.pfcFlags &&& pfcFlagOrpc = 0 then [] else (pkt.object.map Guid.bytes).getD []

/-- The 24 bytes every request packet starts with. -/
def RequestPacket.header (fragLength authLength : Nat) : Bytes :=
  [5, 0, 0, pkt.pfcFlags, 0x10, 0, 0, 0] ++ toLe 2 fragLength ++ toLe 2 authLength ++
    toLe 4 pkt.callId.toNat ++ toLe 4 pkt.allocHint.toNat ++ toLe 2 pkt.contextId.toNat ++
    toLe 2 pkt.opnum.toNat

/-- `ndr_push_ncacn_packet` of a request; `frag_length` is not known yet. The stub follows the
header without a gap. -/
def ndrPushNcacnPacket (authLength : Nat) : Bytes :=
  pkt.header 0 authLength ++ pkt.objectBytes ++ pkt.stub

/-- A part of a blob that is written over. -/
def overwrite (offset : Nat) (new : Bytes) : Bytes :=
  blob.take offset ++ new ++ blob.drop (offset + new.length)

def dcerpcSetFragLength (v : Nat) : Bytes := overwrite blob 8 (toLe 2 v)

def dcerpcSetAuthLength (v : Nat) : Bytes := overwrite blob 10 (toLe 2 v)

/-- `dcerpc_get_frag_length`; the data representation decides the byte order. -/
def dcerpcGetFragLength : Nat :=
  let field := (blob.drop 8).take 2
  if (blob[4]?.getD 0) &&& 0x10 = 0 then ofLe field.reverse else ofLe field

/-- `ncacn_push_auth` of a request. -/
def ncacnPushAuth : Option DcerpcAuth → Bytes
  | none =>
    let blob := ndrPushNcacnPacket pkt 0
    dcerpcSetFragLength blob blob.length
  | some auth =>
    let blob := ndrPushDcerpcAuth (ndrPushNcacnPacket pkt auth.credentials.length) auth
    dcerpcSetFragLength blob blob.length

/-! ## Packets of a server -/

/-- One entry of the result list of a `bind_ack` or `alter_resp`
(`dcerpc_ack_ctx`). -/
structure AckCtx where
  result : UInt16
  reason : UInt16

/-- `struct dcerpc_bind_ack`, also used for `alter_resp`. -/
structure BindAck where
  maxXmitFrag : UInt16
  maxRecvFrag : UInt16
  ctxList : List AckCtx
  authInfo : Bytes

/-- The packet types with the parts the client reads; `other` stands for every
type that no handler treats specially. -/
inductive Payload where
  | response (stubAndVerifier : Bytes)
  | fault (status : UInt32)
  | bindAck (ack : BindAck)
  | bindNak (rejectReason : UInt16)
  | alterResp (ack : BindAck)
  | other (ptype : UInt8)

/-- `struct ncacn_packet` as parsed from the wire. `last` is
`DCERPC_PFC_FLAG_LAST`. -/
structure NcacnPacket where
  callId : UInt32
  authLength : UInt16
  last : Bool
  payload : Payload

/-- An accepting `bind_ack` with the trailer given. -/
def bindAckWith (trailer : Bytes) : NcacnPacket :=
  ⟨1, 1, true, .bindAck ⟨5840, 5840, [⟨0, 0⟩], trailer⟩⟩

def dcerpcMapReason (reason : UInt16) : NtStatus :=
  if reason = 1 then .rpcUnsupportedNameSyntax
  else if reason = 8 then .invalidParameter
  else .unsuccessful

end OpenvasSmb.Dcerpc

import OpenvasSmb.Kit.Bytes
import OpenvasSmb.Kit.Keystream
import OpenvasSmb.Util.Status

/-!
# NTLMSSP signing and sealing (`auth/ntlmssp/ntlmssp_sign.c`)

The cipher and the hash functions are parameters: `arcfour_init` makes a state of a key,
`arcfour_crypt_sbox` adds the bytes of a keystream to a buffer. The members of the union `crypt`
are kept side by side; `neg_flags` selects one.

The packet functions take a data buffer and the whole PDU, of which the buffer is a part for their
callers (`dcerpc.c`, `gensec_ntlmssp_wrap`): the PDU is a function of what the data buffer holds.
-/

namespace OpenvasSmb

namespace NtStatus

/-- `NT_STATUS_NO_USER_SESSION_KEY`. -/
def noUserSessionKey : NtStatus := ⟨0xC0000202⟩

end NtStatus

namespace Ntlmssp

open Kit

/-! ## Flags and constants -/

def negotiateLmKey : UInt32 := 0x00000080
def negotiateNtlm2 : UInt32 := 0x00080000
def negotiate128 : UInt32 := 0x20000000
def negotiateKeyExch : UInt32 := 0x40000000
def negotiate56 : UInt32 := 0x80000000

/-- `NTLMSSP_SIGN_VERSION`. -/
def signVersion : Nat := 1

def cliSign : String := "session key to client-to-server signing key magic constant"
def cliSeal : String := "session key to client-to-server sealing key magic constant"
def srvSign : String := "session key to server-to-client signing key magic constant"
def srvSeal : String := "session key to server-to-client sealing key magic constant"

/-- `enum ntlmssp_role`. -/
inductive Role where
  | server
  | client

/-- `enum ntlmssp_direction`. -/
inductive Direction where
  | send
  | receive

/-! ## The cipher and the hash functions -/

/-- ARCFOUR over states `κ`, MD5, HMAC-MD5 and CRC-32. -/
structure Primitives (κ : Type) where
  arcfourInit : Bytes → κ
  next : Keystream κ
  md5 : Bytes → Bytes
  hmacMd5 : Bytes → Bytes → Bytes
  length_hmacMd5 : ∀ key text, (hmacMd5 key text).length = 16
  crc32 : Bytes → UInt32

/-- The bytes that `arcfour_crypt_sbox` works on, whose length argument is an `int`. -/
def cryptLength (length : Nat) : Nat := (BitVec.ofNat 32 length).toInt.toNat

variable {κ : Type} (P : Primitives κ)

def arcfourCryptSbox (k : κ) (data : Bytes) : Bytes × κ :=
  P.next.xorFirst (cryptLength data.length) k data

/-! ## The state -/

/-- `crypt.ntlm`. -/
structure Ntlm (κ : Type) where
  seqNum : UInt32
  arcfourState : κ

/-- `crypt.ntlm2`. -/
structure Ntlm2 (κ : Type) where
  sendSeqNum : UInt32
  recvSeqNum : UInt32
  sendSignKey : Bytes
  recvSignKey : Bytes
  sendSealArcfourState : κ
  recvSealArcfourState : κ

/-- `struct gensec_ntlmssp_state`, as far as signing reads it. -/
structure State (κ : Type) where
  role : Role
  sessionKey : Bytes
  negFlags : UInt32
  ntlm : Ntlm κ
  ntlm2 : Ntlm2 κ

def State.has (s : State κ) (flag : UInt32) : Bool := s.negFlags &&& flag ≠ 0

/-! ## Signatures -/

variable (s : State κ) (data : Bytes) (pdu : Bytes → Bytes)

/-- The NTLM2 signature: version, eight bytes of the digest, sequence number. -/
def ntlm2Signature (digest : Bytes) (seqNum : UInt32) : Bytes :=
  toLe 4 signVersion ++ digest ++ toLe 4 seqNum.toNat

/-- What `msrpc_gen` makes of "dddd" for an NTLM signature. -/
def ntlmSignature (crc seqNum : UInt32) : Bytes :=
  toLe 4 signVersion ++ (toLe 4 0 ++ toLe 4 crc.toNat ++ toLe 4 seqNum.toNat)

/-- `ntlmssp_make_packet_signature`. -/
def makePacketSignature (data wholePdu : Bytes) (direction : Direction)
    (encryptSig : Bool) : Bytes × State κ :=
  if s.has negotiateNtlm2 then
    match direction with
    | .send =>
      let seqNum := s.ntlm2.sendSeqNum
      let n := { s.ntlm2 with sendSeqNum := s.ntlm2.sendSeqNum + 1 }
      let digest := (P.hmacMd5 n.sendSignKey (toLe 4 seqNum.toNat ++ wholePdu)).take 8
      if encryptSig ∧ s.has negotiateKeyExch then
        let (digest, k) := arcfourCryptSbox P n.sendSealArcfourState digest
        (ntlm2Signature digest seqNum, { s with ntlm2 := { n with sendSealArcfourState := k } })
      else (ntlm2Signature digest seqNum, { s with ntlm2 := n })
    | .receive =>
      let seqNum := s.ntlm2.recvSeqNum
      let n := { s.ntlm2 with recvSeqNum := s.ntlm2.recvSeqNum + 1 }
      let digest := (P.hmacMd5 n.recvSignKey (toLe 4 seqNum.toNat ++ wholePdu)).take 8
      if encryptSig ∧ s.has negotiateKeyExch then
        let (digest, k) := arcfourCryptSbox P n.recvSealArcfourState digest
        (ntlm2Signature digest seqNum, { s with ntlm2 := { n with recvSealArcfourState := k } })
      else (ntlm2Signature digest seqNum, { s with ntlm2 := n })
  else
    let sig := ntlmSignature (P.crc32 data) s.ntlm.seqNum
    let (tail, k) := arcfourCryptSbox P s.ntlm.arcfourState (sig.drop 4)
    (sig.take 4 ++ tail, { s with ntlm := ⟨s.ntlm.seqNum + 1, k⟩ })

/-- `gensec_ntlmssp_sign_packet`: the signature. -/
def signPacket : Bytes × State κ :=
  makePacketSignature P s data (pdu data) .send true

/-- `gensec_ntlmssp_check_packet`. A short signature is only logged; the lengths are compared
before the bytes. -/
def checkPacket (sig : Bytes) :
    NtStatus × State κ :=
  if s.sessionKey.length = 0 then (.noUserSessionKey, s)
  else
    let (localSig, s') := makePacketSignature P s data (pdu data) .receive true
    if s.has negotiateNtlm2 then
      (if localSig.length ≠ sig.length ∨ localSig ≠ sig then .accessDenied else .ok, s')
    else
      (if localSig.length ≠ sig.length ∨ localSig.drop 8 ≠ sig.drop 8 then .accessDenied else .ok,
        s')

/-- `gensec_ntlmssp_seal_packet`: the status, the data buffer, the signature. -/
def sealPacket :
    NtStatus × Bytes × Bytes × State κ :=
  if s.sessionKey.length = 0 then (.noUserSessionKey, data, [], s)
  else if s.has negotiateNtlm2 then
    let (sig, s) := makePacketSignature P s data (pdu data) .send false
    let (data, k) := arcfourCryptSbox P s.ntlm2.sendSealArcfourState data
    if s.has negotiateKeyExch then
      let (digest, k) := arcfourCryptSbox P k ((sig.drop 4).take 8)
      (.ok, data, sig.take 4 ++ digest ++ sig.drop 12,
        { s with ntlm2 := { s.ntlm2 with sendSealArcfourState := k } })
    else (.ok, data, sig, { s with ntlm2 := { s.ntlm2 with sendSealArcfourState := k } })
  else
    let sig := ntlmSignature (P.crc32 data) s.ntlm.seqNum
    let (data, k) := arcfourCryptSbox P s.ntlm.arcfourState data
    let (tail, k) := arcfourCryptSbox P k (sig.drop 4)
    (.ok, data, sig.take 4 ++ tail, { s with ntlm := ⟨s.ntlm.seqNum + 1, k⟩ })

/-- `gensec_ntlmssp_unseal_packet`: the status and the data buffer. -/
def unsealPacket (sig : Bytes) :
    NtStatus × Bytes × State κ :=
  if s.sessionKey.length = 0 then (.noUserSessionKey, data, s)
  else if s.has negotiateNtlm2 then
    let (data, k) := arcfourCryptSbox P s.ntlm2.recvSealArcfourState data
    let (status, s) := checkPacket P
      { s with ntlm2 := { s.ntlm2 with recvSealArcfourState := k } } data pdu sig
    (status, data, s)
  else
    let (data, k) := arcfourCryptSbox P s.ntlm.arcfourState data
    let (status, s) := checkPacket P { s with ntlm := { s.ntlm with arcfourState := k } } data pdu sig
    (status, data, s)

/-! ## Setting up -/

/-- `calc_ntlmv2_key`; the constant goes in with its NUL. -/
def calcNtlmv2Key (sessionKey : Bytes) (constant : String) : Bytes :=
  P.md5 (sessionKey ++ (constant.toList.map (fun c => UInt8.ofNat c.toNat) ++ [0]))

def ntlmsspWeakendKey : Bytes :=
  if s.sessionKey.length < 16 then s.sessionKey
  else if s.has negotiateLmKey then
    if s.has negotiate56 then s.sessionKey.take 7 ++ [0xa0]
    else s.sessionKey.take 5 ++ [0xe5, 0x38, 0xb0]
  else s.sessionKey

/-- The session key that the NTLM2 sealing keys are made of. -/
def weakSessionKey : Bytes :=
  if s.has negotiate128 then s.sessionKey
  else if s.has negotiate56 then s.sessionKey.take 7
  else s.sessionKey.take 5

/-- The constants of a role: signing and sealing what it sends, signing and sealing what it
receives. -/
def Role.constants : Role → String × String × String × String
  | .client => (cliSign, cliSeal, srvSign, srvSeal)
  | .server => (srvSign, srvSeal, cliSign, cliSeal)

def ntlmsspSignInit : NtStatus × State κ :=
  if s.sessionKey.length < 8 then (.noUserSessionKey, s)
  else if s.has negotiateNtlm2 then
    let (sendSign, sendSeal, recvSign, recvSeal) := s.role.constants
    (.ok, { s with ntlm2 :=
      { sendSeqNum := 0
        recvSeqNum := 0
        sendSignKey := calcNtlmv2Key P s.sessionKey sendSign
        recvSignKey := calcNtlmv2Key P s.sessionKey recvSign
        sendSealArcfourState := P.arcfourInit (calcNtlmv2Key P (weakSessionKey s) sendSeal)
        recvSealArcfourState := P.arcfourInit (calcNtlmv2Key P (weakSessionKey s) recvSeal) } })
  else (.ok, { s with ntlm := ⟨0, P.arcfourInit (ntlmsspWeakendKey s)⟩ })

end Ntlmssp

end OpenvasSmb

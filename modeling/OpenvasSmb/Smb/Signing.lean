import OpenvasSmb.Smb.Request

/-!
# SMB signing

The client side of `libcli/raw/smb_signing.c`. The digest is a parameter. Outgoing packets are
not modelled beyond the sequence number a request is given.
-/

namespace OpenvasSmb.Smb

open Kit

/-- `enum smb_signing_engine_state`. -/
inductive SigningState
  | off
  | bsrspyl
  | on
  deriving DecidableEq

/-- `struct smb_signing_context`. -/
structure SigningContext where
  signingState : SigningState := .off
  macKey : Bytes := []
  nextSeqNum : UInt32 := 0
  allowSmbSigning : Bool := false
  doingSigning : Bool := false
  mandatorySigning : Bool := false
  seenValid : Bool := false

/-- `enum smb_signing_state`, the values of `lp_client_signing`. -/
inductive ClientSigning
  | off
  | supported
  | required
  | auto

variable (secMode : Nat) (s : SigningContext)

def smbcliSetSigningOff : SigningContext :=
  { s with doingSigning := false, nextSeqNum := 0, macKey := [], signingState := .off }

/-- `smbcli_init_signing`, on a transport that is all zero. -/
def smbcliInitSigning (clientSigning : ClientSigning) : SigningContext :=
  let s := smbcliSetSigningOff {}
  match clientSigning with
  | .off => { s with allowSmbSigning := false }
  | .supported | .auto => { s with allowSmbSigning := true }
  | .required => { s with allowSmbSigning := true, mandatorySigning := true }

/-- `set_smb_signing_common` and `smbcli_set_smb_signing_common`; `secMode` is what the server
has negotiated. -/
def smbcliSetSmbSigningCommon : Bool :=
  !s.doingSigning && s.allowSmbSigning && secMode &&& 0x0C != 0

def smbcliTempSetSigning : SigningContext :=
  if smbcliSetSmbSigningCommon secMode s then
    { smbcliSetSigningOff s with macKey := [], signingState := .bsrspyl }
  else s

def smbcliTransportSimpleSetSigning (userSessionKey response : Bytes)
    (s : SigningContext) : SigningContext :=
  if smbcliSetSmbSigningCommon secMode s then
    { s with macKey := userSessionKey ++ response, nextSeqNum := 0, signingState := .on }
  else s

def signingGood (good : Bool) : Bool × SigningContext :=
  if good then (true, { s with doingSigning := true, seenValid := true })
  else if !s.seenValid then (true, smbcliSetSigningOff s)
  else (false, s)

/-- `smbcli_request_calculate_sign_mac` with `smbcli_req_allocate_seq_num`: the sequence number
of the request. -/
def smbcliRequestCalculateSignMac (singleIncrement : Bool) (req : Request) (s : SigningContext) :
    Request × SigningContext :=
  match s.signingState with
  | .off | .bsrspyl => (req, s)
  | .on =>
    ({ req with seqNum := s.nextSeqNum },
      { s with nextSeqNum := s.nextSeqNum + if singleIncrement then 1 else 2 })

section Check

variable (md5 : Bytes → Bytes)

def checkSignedIncomingMessage (inn : RequestBuffer) (macKey : Bytes) (seqNum : UInt32) :
    Option Bool :=
  if inn.size < 26 then some false
  else if macKey = [] then some false
  else do
    let hdr ← inn.hdr
    let head ← hdr.slice 0 14
    let serverSentMac ← hdr.slice 14 8
    let tail ← hdr.slice 22 (inn.size - 26)
    let sequenceBuf := toLe 4 seqNum.toNat ++ [0, 0, 0, 0]
    some (serverSentMac == (md5 (macKey ++ head ++ sequenceBuf ++ tail)).take 8)

def smbcliRequestCheckSignMac (req : Request) (s : SigningContext) :
    Option (Bool × SigningContext) :=
  match s.signingState with
  | .off => some (true, s)
  | .bsrspyl | .on =>
    if req.inn.size < 22 then some (false, s)
    else
      (checkSignedIncomingMessage md5 req.inn s.macKey (req.seqNum + 1)).map (signingGood s)

end Check

end OpenvasSmb.Smb

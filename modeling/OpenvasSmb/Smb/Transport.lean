import OpenvasSmb.Smb.Signing

/-!
# The SMB transport

What `libcli/raw/clitransport.c` does with a packet of the NBT layer: it is matched to the
pending requests by its multiplex id, checked, and given to the request. A step returns what
became of the packet; a request that was completed has left the list. The handlers of the
callers run after that and are not part of the step. `transport->error` is not read by any
modelled function.
-/

namespace OpenvasSmb.Smb

open Kit

/-- `struct smbcli_transport`: the pending requests, the one added last in front. -/
structure Transport where
  pending : List Request := []
  readbrawPending : Bool := false
  signInfo : SigningContext := {}

structure OplockBreak where
  tid : Nat
  fnum : Nat
  level : Nat

inductive Received
  | oplockBreak (info : OplockBreak)
  | discarded
  | completed (req : Request)

/-! ## Reading the header -/

variable (t : Transport) (req : Request) (p : Packet)

/-- `hdr` of a packet. -/
def Packet.hdr : Ptr := ⟨p, 4⟩

/-- `vwv` of a packet. -/
def Packet.vwv : Ptr := ⟨p, 37⟩

namespace Packet

variable {p : Packet} {i : Nat}

theorem hdr_cval (h : i + 5 ≤ p.size) : ∃ v, p.hdr.cval i = some v :=
  Ptr.exists_cval.mpr (show 4 + i + 1 ≤ p.size by omega)

theorem hdr_sval (h : i + 6 ≤ p.size) : ∃ v, p.hdr.sval i = some v :=
  Ptr.exists_sval.mpr (show 4 + i + 2 ≤ p.size by omega)

theorem hdr_ival (h : i + 8 ≤ p.size) : ∃ v, p.hdr.ival i = some v :=
  Ptr.exists_ival.mpr (show 4 + i + 4 ≤ p.size by omega)

theorem vwv_cval (h : i + 38 ≤ p.size) : ∃ v, p.vwv.cval i = some v :=
  Ptr.exists_cval.mpr (show 37 + i + 1 ≤ p.size by omega)

theorem vwv_sval (h : i + 39 ≤ p.size) : ∃ v, p.vwv.sval i = some v :=
  Ptr.exists_sval.mpr (show 37 + i + 2 ≤ p.size by omega)

end Packet

/-- `smbcli_handle_oplock_break`; nothing is handled unless all fields fit. -/
def smbcliHandleOplockBreak : Option (Option OplockBreak) :=
  if p.size ≠ 55 then some none
  else do
    let flg ← p.hdr.cval 9
    let com ← p.hdr.cval 4
    let mid ← p.hdr.sval 30
    let word6 ← p.vwv.sval 12
    let word7 ← p.vwv.sval 14
    if flg &&& 0x80 ≠ 0 ∨ com ≠ 0x24 ∨ mid ≠ 0xFFFF ∨ word6 ≠ 0 ∨ word7 ≠ 0 then some none
    else
      let tid ← p.hdr.sval 24
      let fnum ← p.vwv.sval 4
      let level ← p.vwv.cval 7
      some (some ⟨tid, fnum, level⟩)

/-- The multiplex id and the word count; both are zero in a short packet. The limit does not
count the NBT header. -/
def midAndWct : Option (Nat × Nat) :=
  if p.size ≥ 35 then do
    let mid ← p.hdr.sval 30
    let wct ← p.hdr.cval 32
    some (mid, wct)
  else some (0, 0)

/-- Whether `smbcli_handle_ntcancel_reply` takes the packet for the reply to an `ntcancel`. -/
def isNtcancelReply : Option Bool :=
  if req.ntcancel = 0 then some false
  else if p.size < 39 then some false
  else do
    let flg ← p.hdr.cval 9
    let com ← p.hdr.cval 4
    some (flg &&& 0x80 != 0 && com == 0xA4)

def headerStatus (hdr : Ptr) : Option NtStatus := do
  let flags2 ← hdr.sval 10
  if flags2 &&& 0x4000 = 0 then
    let errorClass ← hdr.cval 5
    let code ← hdr.sval 7
    some (if errorClass = 0 ∧ code = 0 then .ok
      else ⟨UInt32.ofNat (0xF1000000 ||| (errorClass <<< 16) ||| code)⟩)
  else
    let code ← hdr.ival 5
    some ⟨UInt32.ofNat code⟩

/-! ## Giving the packet to a request -/

namespace Transport

/-- The request leaves the list of pending requests. -/
def complete : Received × Transport :=
  (.completed req, { t with pending := t.pending.eraseP (·.id == req.id) })

/-- The request is completed with `SMBCLI_REQUEST_DONE`. -/
def done (t : Transport) (req : Request) : Received × Transport :=
  t.complete { req with state := .done }

/-- The request is completed with `SMBCLI_REQUEST_ERROR`. -/
def failed : Received × Transport :=
  t.complete { req with state := .error }

/-- The first `ntcancel` of the request is removed. -/
def removeNtcancel : Transport :=
  { t with
    pending := t.pending.map fun r =>
      if r.id = req.id then { req with ntcancel := req.ntcancel - 1 } else r }

/-- The first pending request with the multiplex id. -/
def find (t : Transport) (mid : Nat) : Option Request := t.pending.find? (·.mid == mid)

end Transport

/-- The pointers of the reply. The size in the packet is cut to what is there. -/
def fillIn (wct : Nat) : Option RequestBuffer := do
  let dataSize ← p.vwv.sval (2 * wct)
  some
    { buffer := some p
      hdr := some p.hdr
      vwv := some p.vwv
      wct := wct
      data := some ⟨p, 39 + 2 * wct⟩
      dataSize :=
        if p.size < 39 + 2 * wct + dataSize then p.size - (39 + 2 * wct) else dataSize }

section Receive

variable (md5 : Bytes → Bytes)

/-- `smbcli_transport_finish_recv` from the match to its end. -/
def fillReply (t : Transport) (req : Request) (p : Packet) (wct : Nat) :
    Option (Received × Transport) :=
  let req := { req with inn := { req.inn with buffer := some p } }
  -- NBT session replies
  if p.size ≥ 4 ∧ p.bytes.head? ≠ some 0 then some (t.done { req with status := .ok })
  else if p.size < 39 then some (t.failed req)
  else if p.size < 39 + 2 * wct then some (t.failed { req with status := .unsuccessful })
  else do
    let inn ← fillIn p wct
    let status ← headerStatus p.hdr
    let req := { req with inn := inn, status := status }
    let (good, signInfo) ← smbcliRequestCheckSignMac md5 req t.signInfo
    let t := { t with signInfo := signInfo }
    some (if good then t.done req else t.failed { req with status := .accessDenied })

/-- A packet that is no oplock break is matched to a request. -/
def matchReply (t : Transport) (p : Packet) : Option (Received × Transport) := do
  let (mid, wct) ← midAndWct p
  match t.find mid with
  | none => some (.discarded, t)
  | some req =>
    if ← isNtcancelReply req p then some (.discarded, t.removeNtcancel req)
    else fillReply md5 t req p wct

def smbcliTransportFinishRecv (t : Transport) (p : Packet) : Option (Received × Transport) := do
  match ← smbcliHandleOplockBreak p with
  | some info => some (.oplockBreak info, t)
  | none =>
    if t.readbrawPending then
      -- the reply to a readbraw can be of any form
      let t := { t with readbrawPending := false }
      match t.pending.head? with
      | none => some (.discarded, t)
      | some req => some (t.done { req with inn := { req.inn with buffer := some p } })
    else matchReply md5 t p

end Receive

/-- `smbcli_timeout_handler`, on a request that is pending. -/
def smbcliTimeoutHandler (t : Transport) (req : Request) : Received × Transport :=
  t.failed { req with status := .ioTimeout }

/-- `smbcli_request_send` and `smbcli_transport_send`, on a socket that is open. -/
def smbcliRequestSend (singleIncrement : Bool) (req : Request) (t : Transport) :
    Request × Transport :=
  let (req, signInfo) := smbcliRequestCalculateSignMac singleIncrement req t.signInfo
  let req := { req with state := .recv }
  (req, { t with signInfo := signInfo, pending := req :: t.pending })

/-! ## Chained replies -/

/-- `smbcli_chained_advance` from the place of the next reply on. -/
def advanceTo (inn : RequestBuffer) (buffer : Ptr) : Option (NtStatus × RequestBuffer) :=
  if buffer.ofs + 3 > inn.size then some (.bufferTooSmall, inn)
  else do
    let wct ← buffer.cval 0
    let vwv : Ptr := ⟨buffer.packet, buffer.ofs + 1⟩
    let inn := { inn with vwv := some vwv, wct := wct }
    if buffer.ofs + 3 + wct * 2 > inn.size then some (.bufferTooSmall, inn)
    else
      let dataSize ← vwv.sval (2 * wct)
      let inn :=
        { inn with data := some ⟨buffer.packet, vwv.ofs + 2 + wct * 2⟩, dataSize := dataSize }
      some (if buffer.ofs + 3 + wct * 2 + dataSize > inn.size then .bufferTooSmall else .ok, inn)

def smbcliChainedAdvance (inn : RequestBuffer) : Option (NtStatus × RequestBuffer) := do
  let vwv ← inn.vwv
  let command ← vwv.cval 0
  if command = 0xFF then some (.notFound, inn)
  else
    let hdr ← inn.hdr
    let ofs ← vwv.sval 2
    advanceTo inn ⟨hdr.packet, hdr.ofs + ofs⟩

end OpenvasSmb.Smb

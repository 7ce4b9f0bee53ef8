import OpenvasSmb.Kit.Bytes
import OpenvasSmb.Util.Status

/-!
# Requests of the SMB client

`struct smbcli_request` of `libcli/raw/libcliraw.h` with the reply it holds. `hdr`, `vwv` and
`data` point into the memory of the packet the reply came in. The packet of an earlier reply stays
allocated as long as the request, so a pointer that was not set again leads into an older packet:
a pointer names its packet. A read outside of it, or through NULL, is `none`.
-/

namespace OpenvasSmb.Smb

open Kit

/-! ## Packets and pointers -/

/-- A packet in memory, with its NBT header. The serial number tells packets of the same bytes
apart. -/
structure Packet where
  serial : Nat
  bytes : Bytes
  deriving DecidableEq

/-- The length of the packet, with the NBT header. -/
def Packet.size (p : Packet) : Nat := p.bytes.length

/-- A pointer into a packet. -/
structure Ptr where
  packet : Packet
  ofs : Nat
  deriving DecidableEq

namespace Ptr

variable (q : Ptr)

/-- `n` bytes from the pointer plus `i` on. -/
def slice (i n : Nat) : Option Bytes :=
  if q.ofs + i + n ≤ q.packet.size then some ((q.packet.bytes.drop (q.ofs + i)).take n) else none

def cval (i : Nat) : Option Nat := (q.slice i 1).map ofLe

def sval (i : Nat) : Option Nat := (q.slice i 2).map ofLe

def ival (i : Nat) : Option Nat := (q.slice i 4).map ofLe

/-- The `n` bytes at the pointer are in the packet. -/
def Inside (n : Nat) (p : Packet) : Prop := q.packet = p ∧ q.ofs + n ≤ p.size

instance (q : Ptr) (n : Nat) (p : Packet) : Decidable (q.Inside n p) :=
  inferInstanceAs (Decidable (_ ∧ _))

variable {q : Ptr} {i n : Nat} {bytes : Bytes}

theorem slice_eq_some : q.slice i n = some bytes ↔
    q.ofs + i + n ≤ q.packet.size ∧ (q.packet.bytes.drop (q.ofs + i)).take n = bytes := by
  unfold slice
  by_cases h : q.ofs + i + n ≤ q.packet.size <;> simp [h]

theorem slice_of_le (h : q.ofs + i + n ≤ q.packet.size) :
    q.slice i n = some ((q.packet.bytes.drop (q.ofs + i)).take n) :=
  slice_eq_some.mpr ⟨h, rfl⟩

theorem length_of_slice (h : q.slice i n = some bytes) : bytes.length = n := by
  obtain ⟨hle, rfl⟩ := slice_eq_some.mp h
  rw [List.length_take, List.length_drop]
  have hsize : q.packet.size = q.packet.bytes.length := rfl
  omega

theorem exists_ofLe_slice : (∃ v, (q.slice i n).map ofLe = some v) ↔
    q.ofs + i + n ≤ q.packet.size := by
  constructor
  · rintro ⟨v, hv⟩
    obtain ⟨bytes, hbytes, -⟩ := Option.map_eq_some_iff.mp hv
    exact (slice_eq_some.mp hbytes).1
  · intro h
    exact ⟨_, by rw [slice_of_le h, Option.map_some]⟩

theorem exists_cval : (∃ v, q.cval i = some v) ↔ q.ofs + i + 1 ≤ q.packet.size :=
  exists_ofLe_slice

theorem exists_sval : (∃ v, q.sval i = some v) ↔ q.ofs + i + 2 ≤ q.packet.size :=
  exists_ofLe_slice

theorem exists_ival : (∃ v, q.ival i = some v) ↔ q.ofs + i + 4 ≤ q.packet.size :=
  exists_ofLe_slice

theorem ofLe_slice_lt {v : Nat} (h : (q.slice i n).map ofLe = some v) : v < 256 ^ n := by
  obtain ⟨bytes, hbytes, rfl⟩ := Option.map_eq_some_iff.mp h
  rw [← length_of_slice hbytes]
  exact ofLe_lt bytes

end Ptr

/-! ## Requests -/

/-- `struct request_buffer` of a reply. -/
structure RequestBuffer where
  buffer : Option Packet := none
  hdr : Option Ptr := none
  vwv : Option Ptr := none
  wct : Nat := 0
  data : Option Ptr := none
  dataSize : Nat := 0
  deriving DecidableEq

namespace RequestBuffer

/-- The `size` field. -/
def size (inn : RequestBuffer) : Nat := (inn.buffer.map Packet.size).getD 0

/-- The reply is inside the packet with its words, the size behind them and the data. -/
structure Within (inn : RequestBuffer) (p : Packet) : Prop where
  buffer : inn.buffer = some p
  hdr : ∃ q, inn.hdr = some q ∧ q.Inside 33 p
  vwv : ∃ q, inn.vwv = some q ∧ q.Inside (2 * inn.wct + 2) p
  data : ∃ q, inn.data = some q ∧ q.Inside inn.dataSize p

instance (inn : RequestBuffer) (p : Packet) : Decidable (inn.Within p) :=
  decidable_of_iff (inn.buffer = some p ∧ (∃ q ∈ inn.hdr, q.Inside 33 p) ∧
    (∃ q ∈ inn.vwv, q.Inside (2 * inn.wct + 2) p) ∧ ∃ q ∈ inn.data, q.Inside inn.dataSize p)
    ⟨fun ⟨h₁, h₂, h₃, h₄⟩ => ⟨h₁, h₂, h₃, h₄⟩, fun h => ⟨h.buffer, h.hdr, h.vwv, h.data⟩⟩

/-- The reply is inside the packet the request was completed with. -/
def InPacket (inn : RequestBuffer) : Prop := ∃ p ∈ inn.buffer, inn.Within p

instance (inn : RequestBuffer) : Decidable inn.InPacket :=
  inferInstanceAs (Decidable (∃ p ∈ inn.buffer, inn.Within p))

end RequestBuffer

/-- `enum smbcli_request_state`. -/
inductive RequestState
  | init
  | recv
  | done
  | error
  deriving DecidableEq

/-- `struct smbcli_request`. -/
structure Request where
  /-- The address of the request. -/
  id : Nat
  /-- The request is an SMB message: it was not set up by `smbcli_request_setup_nonsmb` only. -/
  smb : Bool := true
  mid : Nat
  state : RequestState := .init
  status : NtStatus := .ok
  seqNum : UInt32 := 0
  /-- How many `ntcancel` requests were sent for this one. -/
  ntcancel : Nat := 0
  inn : RequestBuffer := {}

/-- `smbcli_request_destroy`: the status that is returned. -/
def smbcliRequestDestroy (req : Request) : NtStatus :=
  if req.state = .error ∧ req.status.isOk then .internalError else req.status

end OpenvasSmb.Smb

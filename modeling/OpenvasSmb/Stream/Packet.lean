import OpenvasSmb.Dcerpc.Packet
import OpenvasSmb.Kit.Framing
import OpenvasSmb.Kit.Machine
import OpenvasSmb.Ndr.Pull

/-!
# The packet layer

The receive side of `lib/stream/packet.c`: a `struct packet_context` reads from a socket into
`partial` and gives complete packets to a callback. `packet_recv` is cut at the call of the
callback: a step runs up to that call or to the return, and what stands behind the call is run by
the step in which the callback returns. While a callback runs every other step can be taken; the
callbacks that have not returned are counted in `running`.

The socket is the list of the bytes it has not delivered. How many `socket_pending` announces, how
many are delivered at a time and what errors there are is up to the step, and so is what
uninitialised memory holds: `talloc_realloc_size` fails for no bytes and for `MAX_TALLOC_SIZE`
bytes or more, and `data_blob_realloc` then stores the NULL and keeps the length, from where a
later call goes on with fresh memory. Other allocations succeed. The comparisons of pointers in
front of `socket_recv` are left out: they hold of no allocation.
-/

namespace OpenvasSmb.Stream

open Kit Dcerpc List
open Ndr (maxTallocSize)

/-! ## Blobs and memory -/

/-- A `DATA_BLOB`: its bytes, or a length with a NULL pointer. -/
inductive Blob
  | held (p : Bytes)
  | lost (length : Nat)

namespace Blob

/-- The `length` field. -/
def length : Blob → Nat
  | held p => p.length
  | lost n => n

/-- The bytes that can be read. -/
def data : Blob → Bytes
  | held p => p
  | lost _ => []

/-- `blob.length = n` on a copy of the blob. -/
def withLength (n : Nat) : Blob → Blob
  | held p => held (p.take n)
  | lost _ => lost n

end Blob

/-- `data_blob_realloc`; new memory holds `garbage`. -/
def dataBlobRealloc (garbage : Nat → UInt8) (blob : Blob) (length : Nat) : NtStatus × Blob :=
  if length = 0 ∨ maxTallocSize ≤ length then (.noMemory, .lost blob.length)
  else (.ok, .held ((List.range length).map fun i => blob.data[i]?.getD (garbage i)))

/-! ## Complete packets -/

/-- `sock_complete_packet`; `size` is what `*size` holds before. Nothing is returned if it
reads through a NULL pointer. -/
def sockCompletePacket (blob : Blob) (size : Nat) : Option (NtStatus × Nat) :=
  if blob.length < 10 then some (.moreEntries, size)
  else
    match blob with
    | .lost _ => none
    | .held p =>
      let size := dcerpcGetFragLength p
      some (if p.length < size then .moreEntries else .ok, size)

/-- The `smb_len` macro. -/
def smbLen (p : Bytes) : Nat := ofLe ((p.drop 1).take 3).reverse

def packetFullRequestNbt (blob : Blob) (size : Nat) : Option (NtStatus × Nat) :=
  if blob.length < 4 then some (.moreEntries, size)
  else
    match blob with
    | .lost _ => none
    | .held p =>
      let size := 4 + smbLen p
      some (if p.length < size then .moreEntries else .ok, size)

/-- The framings: what `packet_set_full_request` is called with. -/
inductive Framing
  | dcerpc
  | nbt

/-- `pc->full_request`. -/
def Framing.fullRequest : Framing → Blob → Nat → Option (NtStatus × Nat)
  | dcerpc => sockCompletePacket
  | nbt => packetFullRequestNbt

/-! ## The context -/

/-- What is set before the first packet: `full_request`, `initial_read`, and whether there is
an event context. -/
structure Config where
  framing : Framing
  initialRead : UInt32
  ev : Bool

/-- A `packet_context` with its socket, the running callbacks, the blobs handed out and the number
of `packet_next_event` timers. -/
structure State where
  partialBlob : Blob := .held []
  numRead : Nat := 0
  packetSize : Nat := 0
  /-- `pc->sock` is not NULL. -/
  sock : Bool := true
  serialise : Bool := false
  processing : Nat := 0
  recvDisable : Bool := false
  busy : Bool := false
  destructorCalled : Bool := false
  /-- `EVENT_FD_READ` of `pc->fde`. -/
  fdReadable : Bool := true
  unread : Bytes
  running : Nat := 0
  handed : List Bytes := []
  timers : Nat := 0
  freed : Bool := false

/-- What the socket and the memory do in a step. -/
structure Env where
  /-- The status and the number of bytes from `socket_pending`. -/
  pending : NtStatus × UInt64
  /-- The status and the number of bytes from `socket_recv`. -/
  received : NtStatus × Nat
  garbage : Nat → UInt8

/-- How a step ends: in a return, in a return after `packet_error`, or in the callback. -/
inductive Outcome
  | returned
  | failed (status : NtStatus)
  | callback (blob : Bytes)

variable (c : Config) (env : Env)

/-- `packet_error`. What the error handler does are steps of their own. -/
def packetError (s : State) (status : NtStatus) : Outcome × State :=
  (.failed status, { s with sock := false })

/-- The packet is cut off and given to the callback. -/
def handOver (s : State) (p : Bytes) : Outcome × State :=
  -- a packet that is not the last of the buffer is cut by reallocating the blob
  let (status, blob) :=
    if s.packetSize < s.numRead then dataBlobRealloc env.garbage (.held p) s.packetSize
    else (.ok, .held p)
  let s := { s with partialBlob := .held (p.drop s.packetSize) }
  if !status.isOk then packetError s status
  else
    (.callback blob.data,
      { s with
        numRead := s.numRead - s.packetSize
        packetSize := 0
        processing := if s.serialise then 1 else s.processing
        busy := true
        running := s.running + 1
        handed := s.handed ++ [blob.data] })

/-- `packet_recv` from the label `next_partial` to the callback. -/
def nextPartial (s : State) : Option (Outcome × State) :=
  let (status, blob) :=
    if s.partialBlob.length ≠ s.numRead then
      dataBlobRealloc env.garbage s.partialBlob s.numRead
    else (.ok, s.partialBlob)
  let s := { s with partialBlob := blob }
  if !status.isOk then some (packetError s status)
  else
    match c.framing.fullRequest (s.partialBlob.withLength s.numRead) s.packetSize with
    | none => none
    | some (status, size) =>
      let s := { s with packetSize := size }
      if status.isErr then some (packetError s status)
      else if !status.isOk then some (.returned, s)
      else if s.numRead < s.packetSize then some (packetError s .invalidParameter)
      else
        match s.partialBlob.withLength s.numRead with
        | .lost _ => none
        | .held p => some (handOver env s p)

/-- How many bytes `packet_recv` asks the socket for. No socket announces more bytes than
there are. -/
def npending (s : State) : Option (NtStatus × Nat) :=
  if s.packetSize ≠ 0 then some (.ok, s.packetSize - s.numRead)
  else if c.initialRead ≠ 0 then
    some (.ok, (c.initialRead.toNat + 2 ^ 32 - s.numRead) % 2 ^ 32)
  else if !s.sock then some (.connectionDisconnected, 0)
  else if s.unread.length < env.pending.2.toNat then none
  else some (env.pending.1, env.pending.2.toNat)

/-- `packet_recv` from `socket_recv` on. No answer of a socket has more bytes than were asked
for, or than there are. -/
def receive (s : State) (n : Nat) : Option (Outcome × State) :=
  let (status, nread) := if s.sock then env.received else (.connectionDisconnected, 0)
  if status.isErr then some (packetError s status)
  else if !status.isOk then some (.returned, s)
  else if nread = 0 then some (packetError s .endOfFile)
  else if n < nread ∨ s.unread.length < nread then none
  else
    match s.partialBlob with
    | .lost _ => none
    | .held p =>
      nextPartial c env { s with
        partialBlob := .held (overwrite p s.numRead (s.unread.take nread))
        unread := s.unread.drop nread
        numRead := (s.numRead + nread) % 2 ^ 32 }

/-- `packet_recv` where more bytes are needed. -/
def recvMore (s : State) : Option (Outcome × State) :=
  match npending c env s with
  | none => none
  | some (status, n) =>
    if !status.isOk then some (packetError s status)
    else if n = 0 then some (packetError s .endOfFile)
    else if (n + s.numRead) % 2 ^ 64 < n then some (packetError s .invalidParameter)
    else if (n + s.numRead) % 2 ^ 64 < s.numRead then some (packetError s .invalidParameter)
    else
      let (status, blob) :=
        if s.partialBlob.length < n + s.numRead then
          dataBlobRealloc env.garbage s.partialBlob (n + s.numRead)
        else (.ok, s.partialBlob)
      let s := { s with partialBlob := blob }
      if !status.isOk then some (packetError s status)
      else if s.partialBlob.length < s.numRead + n then some (packetError s .invalidParameter)
      else receive c env s n

/-- `packet_recv`, up to its return or the callback. -/
def packetRecv (s : State) : Option (Outcome × State) :=
  if s.processing ≠ 0 then
    some (.returned, { s with fdReadable := false, processing := s.processing + 1 })
  else if s.recvDisable then some (.returned, { s with fdReadable := false })
  else if s.packetSize ≠ 0 ∧ s.packetSize ≤ s.numRead then nextPartial c env s
  else recvMore c env s

/-- `packet_recv` behind the callback. -/
def callbackReturned (status : NtStatus) (s : State) :
    Option (Outcome × State) :=
  let s := { s with busy := false }
  if s.destructorCalled then some (.returned, { s with freed := true })
  else
    let s := { s with
      fdReadable := s.fdReadable || decide (1 < s.processing)
      processing := 0 }
    if !status.isOk then some (packetError s status)
    else if s.partialBlob.length = 0 then some (.returned, s)
    else if !c.ev then nextPartial c env s
    else
      match c.framing.fullRequest (s.partialBlob.withLength s.numRead) s.packetSize with
      | none => none
      | some (status, size) =>
        let s := { s with packetSize := size }
        if status.isErr then some (packetError s status)
        else if !status.isOk then some (.returned, s)
        else some (.returned, { s with timers := s.timers + 1 })

def packetNextEvent (s : State) : Option (Outcome × State) :=
  if s.numRead ≠ 0 ∧ s.packetSize ≠ 0 ∧ s.packetSize ≤ s.numRead then packetRecv c env s
  else some (.returned, s)

def packetRecvDisable (s : State) : State :=
  { s with fdReadable := false, recvDisable := true }

/-- `packet_recv_enable`; a timer cannot be added without an event context. -/
def packetRecvEnable (s : State) : Option State :=
  let s := { s with fdReadable := true, recvDisable := false }
  if s.numRead ≠ 0 ∧ s.numRead ≤ s.packetSize then
    if c.ev then some { s with timers := s.timers + 1 } else none
  else some s

/-- `talloc_free` on the context: `packet_destructor` refuses it while `busy` is set. -/
def tallocFree (s : State) : State :=
  if s.busy then { s with destructorCalled := true } else { s with freed := true }

/-! ## Steps -/

/-- What can happen to a context. -/
inductive Event
  /-- `packet_recv` is called. -/
  | recv (env : Env)
  /-- A `packet_next_event` timer fires. -/
  | timer (env : Env)
  /-- The callback called last returns. -/
  | returns (status : NtStatus) (env : Env)
  | disable
  | enable
  /-- `packet_set_serialise` is called. -/
  | serialise
  /-- `talloc_free` is called on the context. -/
  | free

/-- One step. A context that is freed takes none. -/
def step (s : State) (event : Event) : Option (Outcome × State) :=
  if s.freed then none
  else
    match event with
    | .recv env => packetRecv c env s
    | .timer env =>
      if s.timers = 0 then none else packetNextEvent c env { s with timers := s.timers - 1 }
    | .returns status env =>
      if s.running = 0 then none
      else callbackReturned c env status { s with running := s.running - 1 }
    | .disable => some (.returned, packetRecvDisable s)
    | .enable => (packetRecvEnable c s).map fun s => (.returned, s)
    | .serialise => some (.returned, { s with serialise := true })
    | .free => some (.returned, tallocFree s)

def machine : Machine State Event Outcome := ⟨step c⟩

/-- A context on which nothing has happened yet. -/
def start (stream : Bytes) : State := { unread := stream }

/-! ## Sizes of packets -/

/-- The length of the first packet, as the header tells it. -/
def Framing.size : Framing → Bytes → Option Nat
  | dcerpc, p => if p.length < 10 then none else some (dcerpcGetFragLength p)
  | nbt, p => if p.length < 4 then none else some (4 + smbLen p)

/-- The part of `partial` that has been read. -/
def State.buffered (s : State) : Bytes := s.partialBlob.data.take s.numRead

theorem Framing.fullRequest_held (f : Framing) (p : Bytes) (size : Nat) :
    f.fullRequest (.held p) size = some (
      match f.size p with
      | none => (.moreEntries, size)
      | some n => (if p.length < n then .moreEntries else .ok, n)) := by
  cases f with
  | dcerpc =>
    by_cases h : p.length < 10 <;>
      simp [fullRequest, Framing.size, sockCompletePacket, Blob.length, h]
  | nbt =>
    by_cases h : p.length < 4 <;>
      simp [fullRequest, Framing.size, packetFullRequestNbt, Blob.length, h]

theorem Framing.size_nil (f : Framing) : f.size [] = none := by
  cases f <;> rfl

theorem smbLen_append {p : Bytes} (h : ¬ p.length < 4) (q : Bytes) :
    smbLen (p ++ q) = smbLen p := by
  rw [smbLen, smbLen, drop_append_of_le_length (by omega),
    take_append_of_le_length (by rw [length_drop]; omega)]

theorem dcerpcGetFragLength_append {p : Bytes} (h : ¬ p.length < 10) (q : Bytes) :
    dcerpcGetFragLength (p ++ q) = dcerpcGetFragLength p := by
  rw [dcerpcGetFragLength, dcerpcGetFragLength, drop_append_of_le_length (by omega),
    take_append_of_le_length (by rw [length_drop]; omega),
    getElem?_append_left (by omega)]

theorem Framing.size_stable (f : Framing) : Stable f.size := by
  intro front n h rest
  cases f with
  | dcerpc =>
    simp only [Framing.size, length_append] at h ⊢
    split_ifs at h with hlen
    rw [if_neg (by omega), dcerpcGetFragLength_append hlen, h]
  | nbt =>
    simp only [Framing.size, length_append] at h ⊢
    split_ifs at h with hlen
    rw [if_neg (by omega), smbLen_append hlen, h]

theorem ofLe_lt_of_length_le {p : Bytes} (h : p.length ≤ 3) : ofLe p < 2 ^ 24 :=
  calc ofLe p < 256 ^ p.length := ofLe_lt p
    _ ≤ 256 ^ 3 := Nat.pow_le_pow_right (by decide) h
    _ = 2 ^ 24 := by decide

/-- No packet is too long for an allocation. -/
theorem Framing.size_lt {f : Framing} {p : Bytes} {n : Nat} (h : f.size p = some n) :
    n < maxTallocSize := by
  unfold maxTallocSize
  cases f with
  | dcerpc =>
    have hfield : ((p.drop 8).take 2).length ≤ 3 := by
      rw [length_take]
      omega
    have hle := ofLe_lt_of_length_le hfield
    have hbe := ofLe_lt_of_length_le (p := ((p.drop 8).take 2).reverse)
      (by rwa [length_reverse])
    simp only [Framing.size, dcerpcGetFragLength] at h
    split_ifs at h <;> obtain rfl := Option.some.inj h <;> omega
  | nbt =>
    have hbe := ofLe_lt_of_length_le (p := ((p.drop 1).take 3).reverse)
      (by rw [length_reverse, length_take]; omega)
    simp only [Framing.size, smbLen] at h
    split_ifs at h
    obtain rfl := Option.some.inj h
    omega

end OpenvasSmb.Stream

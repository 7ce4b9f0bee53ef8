import OpenvasSmb.Kit.Machine
import OpenvasSmb.Ndr.Pull
import OpenvasSmb.Smb.Transport

/-!
# Replies in several packets

`smb_raw_trans2_recv` (also used for trans) and `smb_raw_nttrans_recv` of `libcli/raw/rawtrans.c`.
A reply to a transaction comes in *lumps*: every packet announces the totals of data and
parameters and brings a part of each, with its place in the buffers allocated for the totals of
the first packet. The two functions read the numbers at different places and in different widths
(`TransFormat`); the first makes the request pending again for the next packet, the second does
not.

The buffers hold `none` where nothing was written yet. Words that are read, copies and the replies
that the loops went through are logged (`Access`). A read outside of the packet of a pointer, or a
write outside of the buffers, ends in `crashed`. The event loop itself does not fail.
-/

namespace OpenvasSmb.Smb

open Kit
open Ndr (maxTallocSize)

/-! ## Formats -/

/-- Where the numbers of a reply are: offsets from `vwv`, in bytes. -/
structure TransFormat where
  width : Nat
  totalParam : Nat
  totalData : Nat
  paramCount : Nat
  paramOfs : Nat
  paramDisp : Nat
  dataCount : Nat
  dataOfs : Nat
  dataDisp : Nat
  minWct : Nat
  setupCount : Nat
  setupWidth : Nat
  /-- Where the counters of the received bytes wrap around. -/
  counter : Nat

variable (md5 : Bytes → Bytes) (req : Request) (inn : RequestBuffer)

/-- The numbers of `smb_raw_trans2_recv`. -/
def trans2Format : TransFormat where
  width := 2
  totalParam := 0
  totalData := 2
  paramCount := 6
  paramOfs := 8
  paramDisp := 10
  dataCount := 12
  dataOfs := 14
  dataDisp := 16
  minWct := 10
  setupCount := 18
  setupWidth := 2
  counter := 2 ^ 64

/-- The numbers of `smb_raw_nttrans_recv`. -/
def nttransFormat : TransFormat where
  width := 4
  totalParam := 3
  totalData := 7
  paramCount := 11
  paramOfs := 15
  paramDisp := 19
  dataCount := 23
  dataOfs := 27
  dataDisp := 31
  minWct := 18
  setupCount := 35
  setupWidth := 1
  counter := 2 ^ 32

/-- One lump: how many bytes, where they are behind the header, and where they belong. -/
structure Lump where
  total : Nat
  count : Nat
  ofs : Nat
  disp : Nat
  deriving DecidableEq

def number (ofs n : Nat) : Option Nat := do
  let vwv ← inn.vwv
  (vwv.slice ofs n).map ofLe

variable (f : TransFormat) (inn : RequestBuffer)

def TransFormat.dataLump : Option Lump := do
  let total ← number inn f.totalData f.width
  let count ← number inn f.dataCount f.width
  let ofs ← number inn f.dataOfs f.width
  let disp ← number inn f.dataDisp f.width
  some ⟨total, count, ofs, disp⟩

def TransFormat.paramLump : Option Lump := do
  let total ← number inn f.totalParam f.width
  let count ← number inn f.paramCount f.width
  let ofs ← number inn f.paramOfs f.width
  let disp ← number inn f.paramDisp f.width
  some ⟨total, count, ofs, disp⟩

/-! ## State -/

/-- A memory access while a reply is held. -/
inductive Access
  /-- `n` bytes of the words. -/
  | word (inn : RequestBuffer) (ofs n : Nat)
  /-- A lump is copied to a buffer of `alloc` bytes. -/
  | copy (inn : RequestBuffer) (lump : Lump) (alloc : Nat)
  deriving DecidableEq

/-- A buffer that is being filled. -/
structure Area where
  mem : List (Option UInt8) := []
  total : Nat := 0
  received : Nat := 0
  deriving DecidableEq

/-- The variables of the functions, with the log. -/
structure TransState where
  data : Area := {}
  params : Area := {}
  setup : List Nat := []
  log : List Access := []
  passes : List RequestBuffer := []
  deriving DecidableEq

/-- How a part of the functions ends: in a return, or with more to be received or not. -/
inductive TransResult
  | crashed
  | returned (status : NtStatus) (st : TransState)
  | complete (st : TransState)
  | going (st : TransState)
  deriving DecidableEq

/-! ## The first reply -/

/-- The words that `transFirst` reads before the setup. -/
def TransFormat.firstWords : List Access :=
  [.word inn f.totalData f.width, .word inn f.totalParam f.width,
    .word inn f.setupCount f.setupWidth]

/-- `talloc_size` or `data_blob_talloc`. -/
def Area.alloc (total : Nat) : Area := ⟨List.replicate total none, total, 0⟩

/-- From the check of the word count to the loop. -/
def transFirst : TransResult :=
  if inn.wct < f.minWct then .returned .invalidParameter {}
  else
    match number inn f.totalData f.width, number inn f.totalParam f.width,
        number inn f.setupCount f.setupWidth with
    | some totalData, some totalParam, some setupWord =>
      let st : TransState := { log := f.firstWords inn }
      -- `out.setup_count` is a `uint8_t`
      let setupCount := setupWord % 256
      if totalData ≥ maxTallocSize ∨ totalParam ≥ maxTallocSize then .returned .noMemory st
      else if inn.wct ≠ f.minWct + setupCount then .returned .invalidParameter st
      else
        match (List.range setupCount).mapM fun i => number inn (2 * (f.minWct + i)) 2 with
        | none => .crashed
        | some setup =>
          .going
            { data := .alloc totalData
              params := .alloc totalParam
              setup := setup
              log := st.log ++ (List.range setupCount).map fun i =>
                .word inn (2 * (f.minWct + i)) 2 }
    | _, _, _ => .crashed

/-! ## One pass of the loop -/

def TransFormat.lumpWords : List Access :=
  [f.totalData, f.totalParam, f.paramCount, f.paramOfs, f.paramDisp, f.dataCount, f.dataOfs,
    f.dataDisp].map fun ofs => .word inn ofs f.width

def rawTransOob (lump : Lump) : Bool :=
  if lump.count = 0 then false
  else
    match inn.hdr, inn.data with
    | some hdr, some data =>
      hdr.ofs + lump.ofs < data.ofs || hdr.ofs + lump.ofs ≥ data.ofs + inn.dataSize ||
        lump.count > inn.dataSize || hdr.ofs + lump.ofs + lump.count > data.ofs + inn.dataSize
    | _, _ => true

/-- The total of the lump; it can only shrink. -/
def Area.announce (a : Area) (lump : Lump) : Area := { a with total := lump.total }

/-- The bytes stand at their place. -/
def Area.store (a : Area) (disp : Nat) (bytes : Bytes) : Area :=
  { a with mem := a.mem.take disp ++ bytes.map some ++ a.mem.drop (disp + bytes.length) }

/-- The `memcpy` of a lump. -/
def Area.copy (a : Area) (inn : RequestBuffer) (lump : Lump) : Option Area :=
  if lump.count = 0 then some a
  else do
    let hdr ← inn.hdr
    let bytes ← hdr.slice lump.ofs lump.count
    if lump.disp + lump.count ≤ a.mem.length then some (a.store lump.disp bytes) else none

/-- The bytes of a lump are counted. -/
def Area.count (a : Area) (lump : Lump) : Area :=
  { a with received := (a.received + lump.count) % f.counter }

variable (st : TransState)

/-- All announced bytes have been counted. -/
def TransState.isComplete : Bool :=
  st.data.total ≤ st.data.received && st.params.total ≤ st.params.received

def lumpCopies (data param : Lump) : List Access :=
  (if data.count = 0 then [] else [.copy inn data st.data.mem.length]) ++
    if param.count = 0 then [] else [.copy inn param st.params.mem.length]

def transPass : TransResult :=
  match f.dataLump inn, f.paramLump inn with
  | some data, some param =>
    let st := { st with log := st.log ++ f.lumpWords inn, passes := st.passes ++ [inn] }
    if data.total > st.data.total ∨ param.total > st.params.total then
      .returned .bufferTooSmall st
    else
      let st := { st with data := st.data.announce data, params := st.params.announce param }
      -- the sums are of 32 bits
      if (data.count + data.disp) % 2 ^ 32 > st.data.total ∨
          (param.count + param.disp) % 2 ^ 32 > st.params.total then
        .returned .bufferTooSmall st
      else if rawTransOob inn param || rawTransOob inn data then .returned .bufferTooSmall st
      else
        match st.data.copy inn data, st.params.copy inn param with
        | some dataArea, some paramArea =>
          let st :=
            { st with
              data := dataArea.count f data
              params := paramArea.count f param
              log := st.log ++ lumpCopies inn st data param }
          if st.isComplete then .complete st else .going st
        | _, _ => .crashed
  | _, _ => .crashed

/-! ## The functions -/

/-- A function that waits for its request. -/
inductive Phase
  | first
  | loop (st : TransState)
  | ended
  deriving DecidableEq

/-- What a pass of `smb_raw_trans2_recv` leads to. -/
def trans2Pass : TransResult :=
  match transPass trans2Format req.inn st with
  | .complete st => .returned (smbcliRequestDestroy req) st
  | result => result

/-- `smb_raw_trans2_recv` from one wait to the next: the request has been completed. -/
def trans2Resume : Phase → TransResult
  | .first =>
    if req.state ≠ .done ∨ req.status.isErr then .returned (smbcliRequestDestroy req) {}
    else
      match transFirst trans2Format req.inn with
      | .going st => trans2Pass req st
      | result => result
  | .loop st =>
    if req.state ≠ .done then .returned .unsuccessful st else trans2Pass req st
  | .ended => .crashed

def hasCommand (command : Nat) : Option Bool := do
  let hdr ← inn.hdr
  let com ← hdr.cval 4
  some (com == command)

/-- What `smb_raw_nttrans_recv` does with a reply before it looks at the lengths: nothing is
returned if it goes on. -/
def nttransCheck : Option TransResult :=
  if req.state ≠ .done ∨ req.status.isErr then some (.returned (smbcliRequestDestroy req) st)
  else
    match hasCommand req.inn 0xA0 with
    | none => some .crashed
    | some false => some (.returned .unsuccessful st)
    | some true => none

/-- The loop of `smb_raw_nttrans_recv`, for a number of passes. The request stays done. -/
def nttransLoop (req : Request) : Nat → TransState → TransResult
  | 0, st => .going st
  | fuel + 1, st =>
    if st.isComplete then .returned (smbcliRequestDestroy req) st
    else
      match transPass nttransFormat req.inn st with
      | .complete st => .returned (smbcliRequestDestroy req) st
      | .going st =>
        match nttransCheck req st with
        | some result => result
        | none => nttransLoop req fuel st
      | result => result

/-- `smb_raw_nttrans_recv`, after the request has been completed. -/
def nttransResume (fuel : Nat) (req : Request) : TransResult :=
  match nttransCheck req {} with
  | some result => result
  | none =>
    match transFirst nttransFormat req.inn with
    | .going st => nttransLoop req fuel st
    | result => result

/-! ## Runs -/

/-- What can happen while a function waits. -/
inductive NetEvent
  | packet (bytes : Bytes)
  /-- The timer of a request. -/
  | timeout (id : Nat)

/-- A transport on which a function waits for a request; `replies` are those that completed it. -/
structure Waiting where
  transport : Transport
  serial : Nat := 0
  phase : Phase := .first
  replies : List Packet := []

/-- `event_loop_once`. Nothing is returned if the receive routine reads outside the packet. -/
def eventLoopOnce (w : Waiting) : NetEvent → Option (Received × Transport)
  | .packet bytes => smbcliTransportFinishRecv md5 w.transport ⟨w.serial, bytes⟩
  | .timeout id =>
    match w.transport.pending.find? (·.id == id) with
    | none => some (.discarded, w.transport)
    | some req => some (smbcliTimeoutHandler w.transport req)

/-- `smbcli_request_receive_more`: the request is pending again. -/
def Transport.receiveMore (t : Transport) (req : Request) : Transport :=
  { t with pending := { req with state := .recv } :: t.pending }

/-- The state after an event that does not concern the request. -/
def Waiting.next (w : Waiting) (t : Transport) : Waiting :=
  { w with transport := t, serial := w.serial + 1 }

/-- The state after an event that completes the request. -/
def Waiting.reply (w : Waiting) (t : Transport) (event : NetEvent) : Waiting :=
  { w.next t with
    replies := w.replies ++
      match event with
      | .packet bytes => [⟨w.serial, bytes⟩]
      | .timeout _ => [] }

/-- One event while a function waits for the request `me`; `resume` is the function up to its
next wait. -/
def waitStep (me : Nat) (resume : Request → Phase → TransResult) (w : Waiting)
    (event : NetEvent) : Option (Option TransResult × Waiting) :=
  if w.phase = .ended then none
  else do
    let (received, t) ← eventLoopOnce md5 w event
    match received with
    | .completed req =>
      if req.id = me then
        let w := w.reply t event
        match resume req w.phase with
        | .going st =>
          some (some (.going st), { w with transport := t.receiveMore req, phase := .loop st })
        | result => some (some result, { w with phase := .ended })
      else some (none, w.next t)
    | .discarded | .oplockBreak _ => some (none, w.next t)

/-- The runs of `smb_raw_trans2_recv`. -/
def trans2 (me : Nat) : Machine Waiting NetEvent (Option TransResult) :=
  ⟨waitStep md5 me trans2Resume⟩

/-- The runs of `smb_raw_nttrans_recv`, for a number of passes; the function waits only once. A
result `going` is a loop that is not over. -/
def nttrans (me fuel : Nat) :
    Machine Waiting NetEvent (Option TransResult) :=
  ⟨waitStep md5 me fun req _ => nttransResume fuel req⟩

end OpenvasSmb.Smb

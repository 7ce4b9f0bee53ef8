import OpenvasSmb.Ndr.Pull
import OpenvasSmb.Kit.Memory

/-!
# The flag word of NDR streams (`librpc/ndr/libndr.h`, `ndr_basic.c`, `ndr_string.c`)

`struct ndr_push` and `struct ndr_pull` carry a word of flags that decides about the alignment
and the byte order of what is coded next. Here it is an argument of the primitives.

The output of a push is `Kit.Output`, grown by `ndr_push_expand`; offsets stay below the limit of
`talloc`, so `uint32_t` sums with a small number do not wrap.
-/

namespace OpenvasSmb.Ndr

open Kit

/-! ## The flags -/

variable (flags : UInt32)

def libndrFlagBigendian : UInt32 := 0x1
def libndrFlagNoalign : UInt32 := 0x2
def libndrFlagLittleEndian : UInt32 := 0x8000000
def libndrFlagPadCheck : UInt32 := 0x10000000

/-- A flag test `ndr->flags & bit`. -/
def testFlag (flags bit : UInt32) : Bool := flags &&& bit != 0

def ndrBe : Bool :=
  flags &&& (libndrFlagBigendian ||| libndrFlagLittleEndian) == libndrFlagBigendian

/-- The next multiple of `n`, in the arithmetic of `uint32_t`. -/
def alignUp (n off : Nat) : Nat := u32 (off + (n - 1)) / n * n

/-- A four-byte number in the order of the stream. -/
def toOrder (v : Nat) : Bytes :=
  if ndrBe flags then (toLe 4 v).reverse else toLe 4 v

/-- The number that bytes in the order of the stream denote. -/
def ofOrder (bytes : Bytes) : Nat :=
  if ndrBe flags then ofLe bytes.reverse else ofLe bytes

/-! ## Pulls -/

/-- `NDR_PULL_ALIGN`. The check of the padding reads the bytes it is about to skip, and
reports those that are not zero. -/
def ndrPullAlign (n : Nat) : Pull Unit := fun v off =>
  if testFlag flags libndrFlagNoalign then pullAlign v off
  else if testFlag flags libndrFlagPadCheck ∧ v.data.length < v.origin + alignUp n off then .fault
  else pullAlign v (alignUp n off)

def ndrPullUint32 : Pull Nat := do
  ndrPullAlign flags 4
  needBytes 4
  let bytes ← takeBytes 4
  pure (ofOrder flags bytes)

/-- `convert_string_talloc` asks for three bytes for every byte of the source, and two
more. -/
def roomToConvert (n : Nat) : Bool := 2 + n * 3 < maxTallocSize

/-! ## Pushes -/

/-- Why a push ends early. -/
inductive PushError where
  | status (s : NtStatus)
  /-- An access the language does not define. -/
  | fault

/-- `ndr_push_expand`. -/
def ndrAllocator : Allocator PushError where
  limit := maxTallocSize
  step := 1024
  wrap := 2 ^ 32
  full := .status .noMemory
  wild := .fault
  backward := .status .bufferTooSmall

/-- What a push leaves: the output, or the reason why it ended. -/
abbrev Pushed := Except PushError Output

/-- `ndr_push_init_ctx`, over memory with any content. -/
def ndrPushInit (mem : Memory) : Output := { mem, offset := 0, alloc := 1024 }

def ndrPushBlob (out : Output) : Bytes := out.mem.bytes out.offset

def ndrPushUint8 (v : UInt8) (out : Output) : Pushed := ndrAllocator.put [v] out

/-- The loop of `NDR_PUSH_ALIGN`. -/
def pushPad : Nat → Output → Pushed
  | 0, out => .ok out
  | n + 1, out => do
      let out ← ndrPushUint8 0 out
      pushPad n out

def ndrPushAlign (n : Nat) (out : Output) : Pushed :=
  if testFlag flags libndrFlagNoalign then .ok out
  else pushPad (alignUp n out.offset - out.offset) out

def ndrPushUint32 (v : Nat) (out : Output) : Pushed := do
  let out ← ndrPushAlign flags 4 out
  ndrAllocator.put (toOrder flags v) out

/-- `strlen` of a string in the character set of the program, UTF-8. -/
def strlen (s : String) : Nat := s.toList.foldr (fun c n => c.utf8Size + n) 0

/-- `convert_string_talloc` from a string and its terminator to the DOS character set;
a NULL string is not converted. -/
def toDosTerminated (charset : Charset) : Option String → Option Bytes
  | none => none
  | some s => if roomToConvert (strlen s + 1) then charset.toDos s else none

end OpenvasSmb.Ndr

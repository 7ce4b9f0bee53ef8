import OpenvasSmb.Ndr.Flags

/-!
# The primitive types of NDR streams (`librpc/ndr/ndr_basic.c`)

The numbers of two and eight bytes and the byte arrays, next to `ndr_push_uint8`,
`ndr_push_uint32` and their pulls. A number of eight bytes is two words, each of them in
the byte order of the stream: the low word first in a `udlong` and a `hyper`, the high
word first in a `udlongr`.
-/

namespace OpenvasSmb.Ndr

open Kit

variable (flags : UInt32)

/-- A two-byte number in the order of the stream. -/
def toOrder16 (v : Nat) : Bytes :=
  if ndrBe flags then (toLe 2 v).reverse else toLe 2 v

/-! ## Pushes -/

def ndrPushUint16 (v : UInt16) (out : Output) : Pushed := do
  let out ← ndrPushAlign flags 2 out
  ndrAllocator.put (toOrder16 flags v.toNat) out

def ndrPushUdlong (v : UInt64) (out : Output) : Pushed := do
  let out ← ndrPushAlign flags 4 out
  ndrAllocator.put (toOrder flags (v.toNat % 2 ^ 32) ++ toOrder flags (v.toNat >>> 32)) out

def ndrPushUdlongr (v : UInt64) (out : Output) : Pushed := do
  let out ← ndrPushAlign flags 4 out
  ndrAllocator.put (toOrder flags (v.toNat >>> 32) ++ toOrder flags (v.toNat % 2 ^ 32)) out

def ndrPushHyper (v : UInt64) (out : Output) : Pushed := do
  let out ← ndrPushAlign flags 8 out
  ndrPushUdlong flags v out

def ndrPushBytes (data : Bytes) (out : Output) : Pushed := ndrAllocator.put data out

/-! ## Pulls -/

def ndrPullUint16 : Pull UInt16 := do
  ndrPullAlign flags 2
  needBytes 2
  let bytes ← takeBytes 2
  pure (.ofNat (ofOrder flags bytes))

def ndrPullUdlong : Pull UInt64 := do
  ndrPullAlign flags 4
  needBytes 8
  let bytes ← takeBytes 8
  pure (.ofNat (ofOrder flags (bytes.take 4) ||| ofOrder flags (bytes.drop 4) <<< 32))

def ndrPullUdlongr : Pull UInt64 := do
  ndrPullAlign flags 4
  needBytes 8
  let bytes ← takeBytes 8
  pure (.ofNat (ofOrder flags (bytes.take 4) <<< 32 ||| ofOrder flags (bytes.drop 4)))

def ndrPullHyper : Pull UInt64 := do
  ndrPullAlign flags 8
  ndrPullUdlong flags

def ndrPullBytes (n : Nat) : Pull Bytes := do
  needBytes n
  takeBytes n

/-! ## Sequences -/

/-- A primitive type, with the length of a byte array. -/
inductive PrimType where
  | uint8 | uint16 | uint32 | udlong | udlongr | hyper
  | bytes (n : Nat)

inductive Prim where
  | uint8 (v : UInt8)
  | uint16 (v : UInt16)
  | uint32 (v : UInt32)
  | udlong (v : UInt64)
  | udlongr (v : UInt64)
  | hyper (v : UInt64)
  | bytes (data : Bytes)

def Prim.type : Prim → PrimType
  | uint8 _ => .uint8
  | uint16 _ => .uint16
  | uint32 _ => .uint32
  | udlong _ => .udlong
  | udlongr _ => .udlongr
  | hyper _ => .hyper
  | bytes data => .bytes data.length

def Prim.push : Prim → Output → Pushed
  | uint8 v => ndrPushUint8 v
  | uint16 v => ndrPushUint16 flags v
  | uint32 v => ndrPushUint32 flags v.toNat
  | udlong v => ndrPushUdlong flags v
  | udlongr v => ndrPushUdlongr flags v
  | hyper v => ndrPushHyper flags v
  | bytes data => ndrPushBytes data

def PrimType.pull : PrimType → Pull Prim
  | uint8 => return .uint8 (.ofNat (← pullUint8))
  | uint16 => return .uint16 (← ndrPullUint16 flags)
  | uint32 => return .uint32 (.ofNat (← ndrPullUint32 flags))
  | udlong => return .udlong (← ndrPullUdlong flags)
  | udlongr => return .udlongr (← ndrPullUdlongr flags)
  | hyper => return .hyper (← ndrPullHyper flags)
  | bytes n => return .bytes (← ndrPullBytes n)

/-- Values pushed one after the other. -/
def pushAll (flags : UInt32) : List Prim → Output → Pushed
  | [], out => .ok out
  | p :: rest, out => do
      let out ← p.push flags out
      pushAll flags rest out

/-- Types pulled one after the other. -/
def pullAll (flags : UInt32) : List PrimType → Pull (List Prim)
  | [] => pure []
  | t :: rest => do
      let p ← t.pull flags
      let others ← pullAll flags rest
      pure (p :: others)

end OpenvasSmb.Ndr

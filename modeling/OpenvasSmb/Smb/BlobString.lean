import OpenvasSmb.Kit.Text
import OpenvasSmb.Util.Status

/-!
# Strings in a blob (`libcli/raw/rawrequest.c`)

`smbcli_blob_pull_string` reads the length of a string at one offset of a blob and the string at
another one. A read that leaves the blob gives `none`. The sizes are `size_t`, and the length from
the wire and what is left of the blob go through an `int`. A negative count given to `strnlen` is
a `size_t` of at least `2 ^ 63`, no bound for any object. (`src_len - 1` overflows for the
smallest `int`, which C leaves open; it is compared exactly.)
-/

namespace OpenvasSmb.Smb

open Kit

/-- Conversion to `int`. -/
def int32 (x : Int) : Int := x.bmod (2 ^ 32)

/-- Subtraction of a constant from a `size_t`. -/
def sizeSub (a b : Nat) : Nat := if b ≤ a then a - b else 2 ^ 64 + a - b

def strAscii : UInt32 := 4

def strUnicode : UInt32 := 8

def strNoalign : UInt32 := 16

def strLen8bit : UInt32 := 64

def strLenNoterm : UInt32 := 256

/-- The charset conversions to the local one; `none` when they fail. -/
structure Charsets where
  utf16 : Bytes → Option Bytes
  dos : Bytes → Option Bytes

structure PulledString where
  s : Option Bytes := none
  /-- The length on the wire, once it was read. -/
  privateLength : Option Nat := none
  consumed : Nat := 0
  /-- The range that was given to a converter: its offset and its length. -/
  passed : Option (Nat × Nat) := none

/-- The loop of `utf16_len_n`. -/
def utf16Loop (src : Bytes) (n : Nat) : Nat → Nat → Option Nat
  | 0, len => some len
  | fuel + 1, len =>
    if len + 2 < n then
      match readLe src len 2 with
      | none => none
      | some 0 => some len
      | some _ => utf16Loop src n fuel (len + 2)
    else some len

def utf16LenN (src : Bytes) (n : Nat) : Option Nat :=
  (utf16Loop src n n 0).map fun len => if len + 2 ≤ n then len + 2 else len

/-- `ucs2_align`, for an offset from the base. -/
def ucs2Align (ofs : Nat) (flags : UInt32) : Bool :=
  if flags &&& (strNoalign ||| strAscii) ≠ 0 then false else ofs % 2 == 1

/-- What is left of the blob, cut to the length from the wire. -/
def limitLen (srcLen byteLen : Int) : Int :=
  if byteLen ≠ -1 ∧ srcLen > byteLen then byteLen else srcLen

/-- The end of both functions: a range of the blob is converted. A negative length is a
`size_t` that no object has. -/
def convertRange (convert : Bytes → Option Bytes) (blob : Bytes) (ofs : Nat) (len : Int)
    (consumed : Bytes → Nat) : Option PulledString :=
  if len < 0 then none
  else
    match convert ((blob.drop ofs).take len.toNat) with
    | none => some { passed := some (ofs, len.toNat) }
    | some dest =>
      some { s := some dest, consumed := consumed dest, passed := some (ofs, len.toNat) }

section Pull

variable (charsets : Charsets) (unicode : Bool) (blob : Bytes)

def smbcliBlobPullUcs2 (ofs : Nat) (byteLen : Int) (flags : UInt32) :
    Option PulledString :=
  if blob.length ≤ ofs then some {}
  else
    let srcLen := limitLen (int32 (blob.length - ofs : Int)) byteLen
    let aligned := flags &&& strNoalign = 0 ∧ ucs2Align ofs flags = true
    let ofs := if aligned then ofs + 1 else ofs
    let srcLen := if aligned then int32 (srcLen - 1) else srcLen
    if srcLen < 2 then some {}
    else
      (utf16LenN (blob.drop ofs) srcLen.toNat).bind fun (srcLen2 : Nat) =>
        convertRange charsets.utf16 blob ofs (srcLen2 : Int) fun _ =>
          srcLen2 + if aligned then 1 else 0

def smbcliBlobPullAscii (ofs : Nat) (byteLen : Int) : Option PulledString :=
  let srcLen := int32 (blob.length - ofs : Int)
  if srcLen < 0 then some {}
  else
    let srcLen := limitLen srcLen byteLen
    (strnlen (blob.drop ofs) (if srcLen < 0 then none else some srcLen.toNat)).bind fun found =>
      let srcLen2 := int32 found
      -- the termination is included if the end of the packet was not reached
      let srcLen2 := if srcLen2 < srcLen - 1 then srcLen2 + 1 else srcLen2
      convertRange charsets.dos blob ofs srcLen2 List.length

/-- Whether the string is pulled as UTF-16. `unicode` says that there is no session, or one
with unicode strings. -/
def pullsUnicode (flags : UInt32) : Prop :=
  flags &&& strAscii = 0 ∧ (unicode = true ∨ flags &&& strUnicode ≠ 0)

instance (unicode : Bool) (flags : UInt32) : Decidable (pullsUnicode unicode flags) :=
  inferInstanceAs (Decidable (_ ∧ _))

/-- `smbcli_blob_pull_string` from the length on. -/
def pullString (privateLength : Nat) (strOffset : UInt16) (flags : UInt32) : Option PulledString :=
  let byteLen := int32 privateLength
  if pullsUnicode unicode flags then
    let align := if strOffset.toNat % 2 = 1 ∧ flags &&& strNoalign = 0 then 1 else 0
    let extra := if flags &&& strLenNoterm ≠ 0 then 2 else 0
    (smbcliBlobPullUcs2 charsets blob (strOffset.toNat + align) byteLen flags).map fun r =>
      { r with privateLength := some privateLength, consumed := align + extra + r.consumed }
  else
    let extra := if flags &&& strLenNoterm ≠ 0 then 1 else 0
    (smbcliBlobPullAscii charsets blob strOffset.toNat byteLen).map fun r =>
      { r with privateLength := some privateLength, consumed := extra + r.consumed }

def lengthBytes (flags : UInt32) : Nat := if flags &&& strLen8bit ≠ 0 then 1 else 4

def smbcliBlobPullString (lenOffset strOffset : UInt16) (flags : UInt32) : Option PulledString :=
  if lenOffset.toNat > sizeSub blob.length (lengthBytes flags) then some {}
  else
    (readLe blob lenOffset.toNat (lengthBytes flags)).bind fun privateLength =>
      pullString charsets unicode blob privateLength strOffset flags

end Pull

end OpenvasSmb.Smb

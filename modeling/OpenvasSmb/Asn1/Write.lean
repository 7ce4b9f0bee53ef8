import OpenvasSmb.Asn1.Read
import OpenvasSmb.Kit.Text

/-!
# The ASN.1 writer (`libcli/util/asn1.c`)

Writing works on the same `Asn1Data`, at the cursor; a tag is pushed with a one-byte length, which
`asn1PopTag` replaces, moving the content up for more octets.

An OID is written from its text. At a part that is not a number `strtol` makes no progress, and
the loop of `asn1_write_OID` goes on for ever; writers that may not return yield an `Option`.
-/

namespace OpenvasSmb.Asn1

open Kit UInt8

variable (d : Asn1Data)

/-- `memcpy` of `p` to position `pos` of the buffer, which grows if it must. -/
def overwrite (data : Bytes) (pos : Nat) (p : Bytes) : Bytes :=
  data.take pos ++ p ++ data.drop (pos + p.length)

def asn1Write (p : Bytes) : Asn1Data :=
  if d.hasError then d
  else { d with data := overwrite d.data d.ofs p, ofs := d.ofs + p.length }

def asn1WriteUint8 (v : UInt8) : Asn1Data := asn1Write d [v]

def asn1PushTag (tag : UInt8) : Asn1Data :=
  let d := asn1WriteUint8 d tag
  asn1WriteUint8 { d with nesting := ⟨d.ofs, 0⟩ :: d.nesting } 0xff

/-- The length octets `asn1_pop_tag` puts in place of the provisional one. -/
def popLength (len : Nat) : Bytes :=
  if 0xFFFF < len then
    [0x83, ofNat (len / 2 ^ 16), ofNat (len / 2 ^ 8), ofNat len]
  else if 255 < len then [0x82, ofNat (len / 2 ^ 8), ofNat len]
  else if 127 < len then [0x81, ofNat len]
  else [ofNat len]

/-- `asn1_pop_tag`: zero bytes at the end make room for the content. After an error the tag stays
open. -/
def asn1PopTag : Asn1Data :=
  match d.nesting with
  | [] => d.fail
  | n :: rest =>
    let len := d.ofs - (n.start + 1)
    let octets := popLength len
    let extra := octets.length - 1
    if d.hasError ∧ 0 < extra then d
    else
      let content := (d.data.drop (n.start + 1)).take len
      let d := asn1Write d (List.replicate extra 0)
      { d with data := overwrite d.data n.start (octets ++ content), nesting := rest }

/-- `push_int_bigendian`, over the octets of the value from the lowest one. -/
def pushIntBigendian (negative : Bool) : Nat → Nat → Asn1Data → Asn1Data
  | 0, _, d => d
  | fuel + 1, i, d =>
    let lowest := ofNat i
    let i := i / 256
    let d := if i ≠ 0 then pushIntBigendian negative fuel i d else d
    let nothingYet := (d.nesting.head?.map fun n => n.start + 1) = some d.ofs
    if nothingYet ∧ negative ∧ lowest = 0xFF then d
    else if nothingYet ∧ negative ∧ lowest &&& 0x80 = 0 then
      asn1WriteUint8 (asn1WriteUint8 d 0xff) lowest
    else if nothingYet ∧ negative = false ∧ lowest &&& 0x80 ≠ 0 then
      asn1WriteUint8 (asn1WriteUint8 d 0) lowest
    else asn1WriteUint8 d lowest

/-- `asn1_write_implicit_Integer`; four octets hold any `int`. -/
def asn1WriteImplicitInteger (i : Int) : Asn1Data :=
  if i = -1 then asn1WriteUint8 d 0xff
  else pushIntBigendian (decide (i < 0)) 4 (i % 2 ^ 32).toNat d

def asn1WriteInteger (i : Int) : Asn1Data :=
  asn1PopTag (asn1WriteImplicitInteger (asn1PushTag d asn1Integer) i)

/-! ## Object identifiers -/

def arcOctets (v : Nat) : Bytes :=
  (if 2 ^ 28 ≤ v then [0x80 ||| ofNat (v / 2 ^ 28)] else []) ++
  (if 2 ^ 21 ≤ v then [0x80 ||| ofNat (v / 2 ^ 21)] else []) ++
  (if 2 ^ 14 ≤ v then [0x80 ||| ofNat (v / 2 ^ 14)] else []) ++
  (if 2 ^ 7 ≤ v then [0x80 ||| ofNat (v / 2 ^ 7)] else []) ++
  [ofNat v &&& 0x7f]

/-- The `while (*p)` loop of `asn1_write_OID`; `none` when `strtol` does not
advance. The bound is the length of the text. -/
def writeArcs : Nat → List Char → Asn1Data → Option Asn1Data
  | _, [], d => some d
  | 0, _ :: _, _ => none
  | fuel + 1, p, d =>
    let (v, rest) := strtol p
    if rest.length < p.length then
      writeArcs fuel rest (asn1Write d (arcOctets (v % 2 ^ 32).toNat))
    else none

/-- `asn1_write_OID`. A failing write inside leaves the error flag set, which is
what the callers look at. -/
def asn1WriteOID (oid : String) : Option Asn1Data :=
  let d := asn1PushTag d asn1Oid
  let (v, p) := strtol oid.toList
  let (v2, p) := strtol p
  let d := asn1WriteUint8 d (ofNat ((40 * (v % 2 ^ 32) + v2 % 2 ^ 32) % 2 ^ 32).toNat)
  (writeArcs p.length p d).map asn1PopTag

def asn1WriteOctetString (p : Bytes) : Asn1Data :=
  asn1PopTag (asn1Write (asn1PushTag d asn1OctetString) p)

def asn1WriteEnumerated (v : UInt8) : Asn1Data :=
  asn1PopTag (asn1WriteUint8 (asn1PushTag d asn1Enumerated) v)

end OpenvasSmb.Asn1

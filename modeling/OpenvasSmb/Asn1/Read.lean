import OpenvasSmb.Util.Status

/-!
# The ASN.1 reader (`libcli/util/asn1.c`)

`Asn1Data` is `struct asn1_data`: the buffer, the cursor, the stack of open tags and the sticky
error flag. Functions return the C result with the changed structure. `length` of the source is
the length of `data`; every move of the cursor is checked, so it never passes it.

A tag length is a `size_t`, the rest of a tag a signed 32-bit `int`, an OID arc a `uint_t` modulo
`2^32`. The loops take a bound on their rounds; a round consumes a byte or sets the error flag, so
the buffer length is enough.
-/

namespace OpenvasSmb.Asn1

/-- `struct nesting`, without its link: the stack is a list. -/
structure Nesting where
  start : Nat
  taglen : Nat
  deriving DecidableEq

/-- `struct asn1_data`. -/
structure Asn1Data where
  data : Bytes
  ofs : Nat
  nesting : List Nesting
  hasError : Bool
  deriving DecidableEq

def intMax : Nat := 2147483647

def asn1Context (x : UInt8) : UInt8 := x + 0xa0
def asn1Application (x : UInt8) : UInt8 := x + 0x60
def asn1Sequence (x : UInt8) : UInt8 := x + 0x30
def asn1GeneralString : UInt8 := 0x1b
def asn1OctetString : UInt8 := 0x4
def asn1Oid : UInt8 := 0x6
def asn1Integer : UInt8 := 0x2
def asn1Enumerated : UInt8 := 0xa

/-- `asn1_load` on a zeroed structure. -/
def asn1Load (blob : Bytes) : Asn1Data := ⟨blob, 0, [], false⟩

/-- The cursor and error flag assignments of the source. -/
def Asn1Data.fail (d : Asn1Data) : Asn1Data := { d with hasError := true }

variable (d : Asn1Data)

/-- `asn1_peek`. An out-of-data failure moves the cursor to the end. -/
def asn1Peek (len : Nat) : Option Bytes × Asn1Data :=
  if intMax - len < d.ofs then (none, d)
  else if d.data.length < d.ofs + len then (none, { d with ofs := d.data.length })
  else (some ((d.data.drop d.ofs).take len), d)

def asn1Read (len : Nat) : Option Bytes × Asn1Data :=
  match asn1Peek d len with
  | (none, d) => (none, d.fail)
  | (some p, d) => (some p, { d with ofs := d.ofs + len })

def asn1ReadUint8 : Option UInt8 × Asn1Data :=
  match asn1Read d 1 with
  | (some p, d) => (p.head?, d)
  | (none, d) => (none, d)

def asn1PeekUint8 : Option UInt8 × Asn1Data :=
  match asn1Peek d 1 with
  | (some p, d) => (p.head?, d)
  | (none, d) => (none, d)

theorem asn1PeekUint8_some {d d' : Asn1Data} {b : UInt8}
    (h : asn1PeekUint8 d = (some b, d')) : d' = d := by
  unfold asn1PeekUint8 asn1Peek at h
  by_cases hmax : intMax - 1 < d.ofs
  · simp [hmax] at h
  · by_cases hlen : d.data.length < d.ofs + 1
    · simp [hmax, hlen] at h
    · simp only [hmax, hlen, if_false, Prod.mk.injEq] at h
      exact h.2.symm

/-- `asn1_tag_remaining`. The comparison with the bytes left in the buffer is
unsigned, so a negative rest fails it. -/
def asn1TagRemaining : Int × Asn1Data :=
  if d.hasError then (-1, d)
  else match d.nesting with
    | [] => (-1, d.fail)
    | n :: _ =>
      let remaining : Int := Int.bmod ((n.taglen : Int) - ((d.ofs : Int) - n.start)) (2 ^ 32)
      if remaining < 0 ∨ ((d.data.length - d.ofs : Nat) : Int) < remaining then (-1, d.fail)
      else (remaining, d)

/-- The length octets after the first one of the long form. -/
def readTaglen : Nat → Nat → Asn1Data → Option Nat × Asn1Data
  | 0, taglen, d => (some taglen, d)
  | n + 1, taglen, d =>
    match asn1ReadUint8 d with
    | (none, d) => (none, d)
    | (some b, d) => readTaglen n ((taglen * 256 + b.toNat) % 2 ^ 64) d

/-- The length part of `asn1_start_tag`. The long form reads at least one octet,
also for the count 0. -/
def readLength : Option Nat × Asn1Data :=
  match asn1ReadUint8 d with
  | (none, d) => (none, d)
  | (some b, d) =>
    if b &&& 0x80 ≠ 0 then
      match asn1ReadUint8 d with
      | (none, d) => (none, d)
      | (some b', d) => readTaglen ((b &&& 0x7f).toNat - 1) b'.toNat d
    else (some b.toNat, d)

def asn1StartTag (tag : UInt8) : Bool × Asn1Data :=
  match asn1ReadUint8 d with
  | (none, d) => (false, d)
  | (some b, d) =>
    if b ≠ tag then (false, d.fail)
    else match readLength d with
      | (none, d) => (false, d)
      | (some taglen, d) =>
        let d := { d with nesting := ⟨d.ofs, taglen⟩ :: d.nesting }
        let (remaining, d) := asn1TagRemaining d
        if remaining = -1 then (false, d) else (!d.hasError, d)

def asn1EndTag : Bool × Asn1Data :=
  let (remaining, d) := asn1TagRemaining d
  if remaining ≠ 0 then (false, d.fail)
  else match d.nesting with
    | [] => (false, d.fail)
    | _ :: rest => (true, { d with nesting := rest })

/-! ## Elements -/

/-- One arc of an OID: the `do … while` of `asn1_read_OID`. A failed read leaves `b` as it was. -/
def readArc : Nat → UInt8 → Nat → Asn1Data → UInt8 × Nat × Asn1Data
  | 0, b, v, d => (b, v, d.fail)
  | fuel + 1, b, v, d =>
    let (r, d) := asn1ReadUint8 d
    let b := r.getD b
    let v := (v * 128 + (b &&& 0x7f).toNat) % 2 ^ 32
    if d.hasError = false ∧ b &&& 0x80 ≠ 0 then readArc fuel b v d else (b, v, d)

/-- The arcs of an OID, each appended to the text with a blank before it. -/
def readArcs : Nat → UInt8 → String → Asn1Data → String × Asn1Data
  | 0, _, text, d => (text, d.fail)
  | fuel + 1, b, text, d =>
    if d.hasError then (text, d)
    else
      let (remaining, d) := asn1TagRemaining d
      if 0 < remaining then
        let (b, v, d) := readArc (d.data.length + 1) b 0 d
        readArcs fuel b (text ++ " " ++ toString v) d
      else (text, d)

/-- `asn1_read_OID`. The first component is the text stored in `*OID`, or `none`
when nothing is stored; the C result is "stored and no error". -/
def asn1ReadOID : Option String × Asn1Data :=
  match asn1StartTag d asn1Oid with
  | (false, d) => (none, d)
  | (true, d) =>
    let (r, d) := asn1ReadUint8 d
    let b := r.getD 0
    let text := toString (b.toNat / 40) ++ " " ++ toString (b.toNat % 40)
    let (text, d) := readArcs (d.data.length + 1) b text d
    (some text, (asn1EndTag d).2)

def asn1CheckOID (oid : String) : Bool × Asn1Data :=
  match asn1ReadOID d with
  | (some id, d) =>
    if d.hasError then (false, d)
    else if id ≠ oid then (false, d.fail) else (true, d)
  | (none, d) => (false, d)

/-- `asn1_read_LDAPString`: the bytes up to the end of the tag. -/
def asn1ReadLDAPString : Option Bytes × Asn1Data :=
  let (len, d) := asn1TagRemaining d
  if len < 0 then (none, d.fail)
  else
    let (p, d) := asn1Read d len.toNat
    if d.hasError then (none, d) else (p, d)

def asn1ReadGeneralString : Option Bytes × Asn1Data :=
  match asn1StartTag d asn1GeneralString with
  | (false, d) => (none, d)
  | (true, d) =>
    match asn1ReadLDAPString d with
    | (none, d) => (none, d)
    | (some s, d) =>
      let (r, d) := asn1EndTag d
      (if r then some s else none, d)

/-- `asn1_read_OctetString`: the blob, with a NULL data pointer after a failure. -/
def asn1ReadOctetString : Option Bytes × Asn1Data :=
  match asn1StartTag d asn1OctetString with
  | (false, d) => (none, d)
  | (true, d) =>
    let (len, d) := asn1TagRemaining d
    if len < 0 then (none, d.fail)
    else
      let (p, d) := asn1Read d len.toNat
      let d := (asn1EndTag d).2
      if d.hasError then (none, d) else (p, d)

/-- `asn1_read_implicit_Integer`: the octets of the tag shifted into an `int`. -/
def readInteger : Nat → Int → Asn1Data → Int × Asn1Data
  | 0, i, d => (i, d.fail)
  | fuel + 1, i, d =>
    if d.hasError then (i, d)
    else
      let (remaining, d) := asn1TagRemaining d
      if 0 < remaining then
        match asn1ReadUint8 d with
        | (none, d) => (i, d)
        | (some b, d) => readInteger fuel (Int.bmod (i * 256 + b.toNat) (2 ^ 32)) d
      else (i, d)

/-- `asn1_read_Integer`: the value stored in `*i`. -/
def asn1ReadInteger : Int × Asn1Data :=
  match asn1StartTag d asn1Integer with
  | (false, d) => (0, d)
  | (true, d) =>
    let (i, d) := readInteger (d.data.length + 1) 0 d
    if d.hasError then (i, d) else (i, (asn1EndTag d).2)

end OpenvasSmb.Asn1

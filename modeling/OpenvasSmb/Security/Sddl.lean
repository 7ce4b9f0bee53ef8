import OpenvasSmb.Security.Sid
import OpenvasSmb.Security.Guid

/-!
# Security descriptors as text (`libcli/security/sddl.c`)

A security descriptor has an owner, a group and two access control lists, each of which may be
absent. Its text is made of the parts `O:`, `G:`, `D:` and `S:`, with nothing between them. SIDs
are written as a two-letter code where there is one, the flags of an ACL and the fields of an ACE
through flag maps, and what has no name in hexadecimal.

Both directions return NULL when they give up; a read through a NULL domain, or before the first
sub-authority of a SID, is a fault of its own.
-/

namespace OpenvasSmb.Security

open Kit

/-- How a conversion can go wrong. -/
inductive Failure where
  /-- NULL is returned. -/
  | null
  /-- Memory is read that is not there. -/
  | fault
deriving DecidableEq

/-- `struct security_ace_object`, with both members of its unions. -/
structure AceObject where
  flags : BitVec 32
  type : Guid
  inheritedType : Guid
deriving DecidableEq

/-- `struct security_ace`. -/
structure SecurityAce where
  type : BitVec 32
  flags : BitVec 8
  accessMask : BitVec 32
  object : AceObject
  trustee : DomSid
deriving DecidableEq

/-- `struct security_acl`. -/
structure SecurityAcl where
  revision : Nat
  aces : List SecurityAce
deriving DecidableEq

/-- `struct security_descriptor`. -/
structure SecurityDescriptor where
  revision : Nat
  type : BitVec 16
  ownerSid : Option DomSid
  groupSid : Option DomSid
  sacl : Option SecurityAcl
  dacl : Option SecurityAcl
deriving DecidableEq

/-! ## The tables -/

/-- The first part of `sid_codes`. -/
def wellKnownSids : List (List Char × List Char) :=
  [("AO".toList, "S-1-5-32-548".toList), ("BA".toList, "S-1-5-32-544".toList),
   ("RU".toList, "S-1-5-32-554".toList), ("PO".toList, "S-1-5-32-550".toList),
   ("RS".toList, "S-1-5-32-553".toList), ("AU".toList, "S-1-5-11".toList),
   ("SY".toList, "S-1-5-18".toList), ("PS".toList, "S-1-5-10".toList),
   ("WD".toList, "S-1-1-0".toList), ("ED".toList, "S-1-5-9".toList),
   ("CO".toList, "S-1-3-0".toList), ("CG".toList, "S-1-3-1".toList)]

/-- The second part of `sid_codes`, whose entries have a RID instead of a SID. -/
def domainRids : List (List Char × UInt32) :=
  [("DA".toList, 512), ("EA".toList, 519), ("DD".toList, 516), ("DU".toList, 513),
   ("CA".toList, 517)]

def aceTypes : FlagMap 32 :=
  [("AU".toList, 2), ("AL".toList, 3), ("OA".toList, 5), ("OD".toList, 6), ("OU".toList, 7),
   ("OL".toList, 8), ("A".toList, 0), ("D".toList, 1)]

def aceFlags : FlagMap 32 :=
  [("OI".toList, 0x01), ("CI".toList, 0x02), ("NP".toList, 0x04), ("IO".toList, 0x08),
   ("ID".toList, 0x10), ("SA".toList, 0x40), ("FA".toList, 0x80)]

def aceAccessMask : FlagMap 32 :=
  [("RP".toList, 0x00000010), ("WP".toList, 0x00000020), ("CR".toList, 0x00000100),
   ("CC".toList, 0x00000001), ("DC".toList, 0x00000002), ("LC".toList, 0x00000004),
   ("LO".toList, 0x00000080), ("RC".toList, 0x00020000), ("WO".toList, 0x00080000),
   ("WD".toList, 0x00040000), ("SD".toList, 0x00010000), ("DT".toList, 0x00000040),
   ("SW".toList, 0x00000008), ("GA".toList, 0x10000000), ("GR".toList, 0x80000000),
   ("GW".toList, 0x40000000), ("GX".toList, 0x20000000)]

def aclFlags : FlagMap 32 :=
  [("P".toList, 0x1000), ("AR".toList, 0x0100), ("AI".toList, 0x0400)]

def secDescDaclPresent : BitVec 16 := 0x0004

def secDescSaclPresent : BitVec 16 := 0x0010

def secDescSelfRelative : BitVec 16 := 0x8000

/-! ## Encoding -/

variable (domain : Option DomSid) (letter : Char) (sddl : List Char)

/-- `sddl_encode_sid`. The last sub-authority is looked at without asking whether there is
one. -/
def sddlEncodeSid (sid : DomSid) : Except Failure (List Char) :=
  let sidstr := domSidString (some sid)
  match wellKnownSids.find? fun e => e.2 == sidstr with
  | some e => .ok e.1
  | none =>
    if domSidInDomain domain sid then
      match sid.subAuths.getLast? with
      | none => .error .fault
      | some rid =>
        match domainRids.find? fun e => e.2 == rid with
        | some e => .ok e.1
        | none => .ok sidstr
    else .ok sidstr

/-- The ACE types whose GUIDs are printed. The source names the third one twice. -/
def guidsPrinted (type : BitVec 32) : Bool := type == 5 || type == 6 || type == 7 || type == 7

/-- The text of an access mask: `0x%08x` when it has a bit without a name. -/
def maskText (mask : BitVec 32) : List Char :=
  match aceAccessMask.toText mask true with
  | some text => text
  | none => '0' :: 'x' :: hexPad 8 mask.toNat

/-- The GUID of an object ACE, if it is marked as present. -/
def guidText (ace : SecurityAce) (present : BitVec 32) (guid : Guid) : List Char :=
  if guidsPrinted ace.type ∧ ace.object.flags &&& present ≠ 0 then guidString guid else []

def sddlEncodeAce (ace : SecurityAce) : Except Failure (List Char) :=
  match aceTypes.toText ace.type true, aceFlags.toText (ace.flags.setWidth 32) true,
      sddlEncodeSid domain ace.trustee with
  | none, _, _ => .error .null
  | some _, none, _ => .error .null
  | some _, some _, .error e => .error e
  | some type, some flags, .ok trustee =>
    .ok (type ++ ';' :: (flags ++ ';' :: (maskText ace.accessMask ++
      ';' :: (guidText ace 1 ace.object.type ++
        ';' :: (guidText ace 2 ace.object.inheritedType ++ ';' :: trustee)))))

/-- The loop of `sddl_encode_acl`. -/
def encodeAces (domain : Option DomSid) : List SecurityAce → Except Failure (List Char)
  | [] => .ok []
  | ace :: aces =>
    match sddlEncodeAce domain ace with
    | .error e => .error e
    | .ok text =>
      match encodeAces domain aces with
      | .error e => .error e
      | .ok texts => .ok ('(' :: (text ++ ')' :: texts))

def sddlEncodeAcl (acl : SecurityAcl) (flags : BitVec 32) :
    Except Failure (List Char) :=
  match aclFlags.toText flags false with
  | none => .error .null
  | some text =>
    match encodeAces domain acl.aces with
    | .error e => .error e
    | .ok aces => .ok (text ++ aces)

/-- The part of the text for the owner or the group. -/
def sidPart :
    Option DomSid → Except Failure (List Char)
  | none => .ok []
  | some sid =>
    match sddlEncodeSid domain sid with
    | .error e => .error e
    | .ok text => .ok (letter :: ':' :: text)

/-- The part of the text for an ACL that is there and said to be present. -/
def aclPart (present : Bool) (flags : BitVec 32) :
    Option SecurityAcl → Except Failure (List Char)
  | none => .ok []
  | some acl =>
    if present then
      match sddlEncodeAcl domain acl flags with
      | .error e => .error e
      | .ok text => .ok (letter :: ':' :: text)
    else .ok []

variable (sd : SecurityDescriptor)

/-- The control flags of the DACL, where `acl_flags` has them. -/
def SecurityDescriptor.daclFlags : BitVec 32 := sd.type.setWidth 32

/-- The control flags of the SACL, one bit further up than those of the DACL. -/
def SecurityDescriptor.saclFlags : BitVec 32 :=
  (sd.type >>> 1).setWidth 32

def sddlEncode (domain : Option DomSid) : Except Failure (List Char) :=
  match sidPart domain 'O' sd.ownerSid with
  | .error e => .error e
  | .ok owner =>
  match sidPart domain 'G' sd.groupSid with
  | .error e => .error e
  | .ok group =>
  match aclPart domain 'D' (sd.type &&& secDescDaclPresent != 0) sd.daclFlags sd.dacl with
  | .error e => .error e
  | .ok dacl =>
  match aclPart domain 'S' (sd.type &&& secDescSaclPresent != 0) sd.saclFlags sd.sacl with
  | .error e => .error e
  | .ok sacl => .ok (owner ++ (group ++ (dacl ++ sacl)))

/-! ## Decoding -/

/-- `sddl_decode_sid`. The numeric form is parsed out of all of the text that is left. -/
def sddlDecodeSid :
    Except Failure (DomSid × List Char) :=
  if ['S', '-'].isPrefixOf sddl then
    match domSidParseTalloc sddl with
    | some sid => .ok (sid, (sddl.drop 2).dropWhile fun c => c == '-' || c.isDigit)
    | none => .error .null
  else
    match wellKnownSids.find? fun e => e.1.isPrefixOf sddl with
    | some e =>
      match domSidParseTalloc e.2 with
      | some sid => .ok (sid, sddl.drop 2)
      | none => .error .null
    | none =>
      match domainRids.find? fun e => e.1.isPrefixOf sddl with
      | some e =>
        match domain with
        | some domain => .ok (domSidAddRid domain e.2, sddl.drop 2)
        | none => .error .fault
      | none => .error .null

/-- The tokens of an ACE: `n` times the text up to a semicolon, then the rest. -/
def tokens : Nat → List Char → Option (List (List Char))
  | 0, s => some [s]
  | n + 1, s =>
    match s.dropWhile fun c => c != ';' with
    | [] => none
    | _ :: rest => (tokens n rest).map ((s.takeWhile fun c => c != ';') :: ·)

/-- `strtol` with base 16 on a text that starts with `0x`, as a `uint32_t`. -/
def strtolHex (s : List Char) : BitVec 32 :=
  BitVec.ofNat 32 (min (2 ^ 63 - 1) (readHex s.length 0 (s.drop 2)).1)

def decodeMask (tok : List Char) : Option (BitVec 32) :=
  if ['0', 'x'].isPrefixOf tok then some (strtolHex tok)
  else (aceAccessMask.read tok).map Prod.fst

/-- A GUID token; an empty one stands for no GUID. -/
def decodeGuid (tok : List Char) (present : BitVec 32) : Option (BitVec 32 × Guid) :=
  if tok = [] then some (0, guidZero) else (guidFromString tok).map fun guid => (present, guid)

/-- `sddl_decode_ace`. What stands behind the trustee is not looked at. -/
def sddlDecodeAce (str : List Char) : Except Failure SecurityAce :=
  match tokens 5 str with
  | some [tok0, tok1, tok2, tok3, tok4, tok5] =>
    match aceTypes.read tok0, aceFlags.read tok1, decodeMask tok2, decodeGuid tok3 1,
        decodeGuid tok4 2 with
    | some type, some flags, some mask, some object, some inherited =>
      match sddlDecodeSid domain tok5 with
      | .error e => .error e
      | .ok trustee =>
        .ok { type := type.1, flags := flags.1.setWidth 8, accessMask := mask,
              object := ⟨object.1 ||| inherited.1, object.2, inherited.2⟩,
              trustee := trustee.1 }
    | _, _, _, _, _ => .error .null
  | _ => .error .null

/-- The loop of `sddl_decode_acl` over the ACEs. The bound is the length of the text. -/
def decodeAces (domain : Option DomSid) : Nat → List Char →
    Except Failure (List SecurityAce × List Char)
  | 0, sddl => .ok ([], sddl)
  | fuel + 1, sddl =>
    match sddl with
    | '(' :: body =>
      match body.dropWhile fun c => c != ')' with
      | [] => .error .null
      | _ :: rest =>
        match sddlDecodeAce domain (body.takeWhile fun c => c != ')') with
        | .error e => .error e
        | .ok ace =>
          match decodeAces domain fuel rest with
          | .error e => .error e
          | .ok (aces, rest) => .ok (ace :: aces, rest)
    | _ => .ok ([], sddl)

/-- What `sddl_decode_acl` takes for an ACL without flags and ACEs: a next part. -/
def nextPart : List Char → Bool
  | c :: ':' :: _ => c.isUpper
  | _ => false

/-- `sddl_decode_acl`: the ACL, its flags and the rest of the text. -/
def sddlDecodeAcl :
    Except Failure (SecurityAcl × BitVec 32 × List Char) :=
  if nextPart sddl then .ok (⟨2, []⟩, 0, sddl)
  else
    match aclFlags.read sddl with
    | none => .error .null
    | some (flags, rest) =>
      match decodeAces domain rest.length rest with
      | .error e => .error e
      | .ok (aces, rest) => .ok (⟨2, aces⟩, flags, rest)

/-- One part of the text, behind its letter and colon. A part with another letter is passed
over. -/
def decodePart
    (sddl : List Char) : Except Failure (SecurityDescriptor × List Char) :=
  if letter = 'D' then
    if sd.dacl.isSome then .error .null
    else
      match sddlDecodeAcl domain sddl with
      | .error e => .error e
      | .ok (acl, flags, rest) =>
        .ok ({ sd with dacl := some acl,
                       type := sd.type ||| flags.setWidth 16 ||| secDescDaclPresent }, rest)
  else if letter = 'S' then
    if sd.sacl.isSome then .error .null
    else
      match sddlDecodeAcl domain sddl with
      | .error e => .error e
      | .ok (acl, flags, rest) =>
        .ok ({ sd with sacl := some acl,
                       type := sd.type ||| (flags <<< 1).setWidth 16 ||| secDescSaclPresent },
          rest)
  else if letter = 'O' then
    if sd.ownerSid.isSome then .error .null
    else
      match sddlDecodeSid domain sddl with
      | .error e => .error e
      | .ok (sid, rest) => .ok ({ sd with ownerSid := some sid }, rest)
  else if letter = 'G' then
    if sd.groupSid.isSome then .error .null
    else
      match sddlDecodeSid domain sddl with
      | .error e => .error e
      | .ok (sid, rest) => .ok ({ sd with groupSid := some sid }, rest)
  else .ok (sd, sddl)

/-- The loop of `sddl_decode`. The bound is the length of the text. -/
def decodeLoop (domain : Option DomSid) : Nat → SecurityDescriptor → List Char →
    Except Failure SecurityDescriptor
  | 0, sd, _ => .ok sd
  | fuel + 1, sd, sddl =>
    match sddl with
    | [] => .ok sd
    | letter :: ':' :: rest =>
      match decodePart domain letter sd rest with
      | .error e => .error e
      | .ok (sd, rest) => decodeLoop domain fuel sd rest
    | _ => .error .null

def sddlDecode (domain : Option DomSid) : Except Failure SecurityDescriptor :=
  decodeLoop domain sddl.length ⟨1, secDescSelfRelative, none, none, none, none⟩ sddl

end OpenvasSmb.Security

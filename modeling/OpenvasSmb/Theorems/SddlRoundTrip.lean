import OpenvasSmb.Security.SddlRead
import Mathlib.Data.List.Forall2
import Mathlib.Tactic.IntervalCases

/-!
# Descriptors through their text

`sddl_decode` is meant to undo `sddl_encode`. It does so for exactly the descriptors of
`Kept`. The others fall into these classes:

* the numeric form of an owner or a group is parsed together with everything that follows
  it, so a dash further on makes the decoder give up (`Stumbles`);
* flags of a DACL without ACEs run into the `S:` of a SACL (`FlagsJoined`);
* an ACL that is not marked as present is left out, with its ACEs and its control flags;
* compound ACEs come back as object ACEs, alarm object ACEs lose their GUIDs, and SIDs lose
  the high octets of their authority or the sub-authorities between the domain and a
  well-known RID.
-/

namespace OpenvasSmb.Security

open Kit List BitVec

/-! ## What is compared -/

/-- The ACEs of an ACL that may be absent. -/
def acesOf (acl : Option SecurityAcl) : List SecurityAce := (acl.map SecurityAcl.aces).getD []

def IsObject (type : BitVec 32) : Prop := type = 5 ∨ type = 6 ∨ type = 7 ∨ type = 8

instance (type : BitVec 32) : Decidable (IsObject type) := inferInstanceAs (Decidable (_ ∨ _))

/-- Equal objects: the flags, and the GUIDs that they mark as present. -/
def SameObject (o' o : AceObject) : Prop :=
  o'.flags = o.flags ∧ (o.flags &&& 1 ≠ 0 → o'.type = o.type) ∧
    (o.flags &&& 2 ≠ 0 → o'.inheritedType = o.inheritedType)

structure SameAce (ace' ace : SecurityAce) : Prop where
  type : ace'.type = ace.type
  flags : ace'.flags = ace.flags
  accessMask : ace'.accessMask = ace.accessMask
  object : IsObject ace.type → SameObject ace'.object ace.object
  trustee : ace'.trustee = ace.trustee

/-- The protected and auto-inherit flags of the DACL. -/
def daclControl : BitVec 16 := 0x1500

/-- The protected and auto-inherit flags of the SACL. -/
def saclControl : BitVec 16 := 0x2A00

/-- Descriptors that are equal in owner, group, every ACE and those control flags. -/
structure SameDescriptor (sd' sd : SecurityDescriptor) : Prop where
  owner : sd'.ownerSid = sd.ownerSid
  group : sd'.groupSid = sd.groupSid
  dacl : List.Forall₂ SameAce (acesOf sd'.dacl) (acesOf sd.dacl)
  sacl : List.Forall₂ SameAce (acesOf sd'.sacl) (acesOf sd.sacl)
  control : sd'.type &&& (daclControl ||| saclControl) = sd.type &&& (daclControl ||| saclControl)

/-! ## What is kept -/

/-- A SID that its text says all about: the domain and a RID with a code, or one whose authority has
no high octets. -/
def SidKept (domain : Option DomSid) (sid : DomSid) : Prop :=
  (RidCoded domain sid → ∀ d ∈ domain, sid.subAuths.length = d.subAuths.length + 1) ∧
    (¬RidCoded domain sid → sid.octet 0 = 0 ∧ sid.octet 1 = 0)

instance (domain : Option DomSid) (sid : DomSid) : Decidable (SidKept domain sid) :=
  inferInstanceAs (Decidable (_ ∧ _))

/-- An ACE that its text says all about. -/
def AceKept (domain : Option DomSid) (ace : SecurityAce) : Prop :=
  ace.type ≠ 4 ∧ (IsObject ace.type → ace.object.flags &&& 3 = ace.object.flags) ∧
    (ace.type = 8 → ace.object.flags = 0) ∧ SidKept domain ace.trustee

instance (domain : Option DomSid) (ace : SecurityAce) : Decidable (AceKept domain ace) :=
  inferInstanceAs (Decidable (_ ∧ _))

structure Kept (domain : Option DomSid) (sd : SecurityDescriptor) : Prop where
  readable : ¬Stumbles domain sd
  owner : ∀ sid ∈ sd.ownerSid, SidKept domain sid
  group : ∀ sid ∈ sd.groupSid, SidKept domain sid
  dacl : ∀ acl ∈ sd.shownDacl, ∀ ace ∈ acl.aces, AceKept domain ace
  sacl : ∀ acl ∈ sd.shownSacl, ∀ ace ∈ acl.aces, AceKept domain ace
  hiddenDacl : sd.shownDacl = none → acesOf sd.dacl = [] ∧ sd.type &&& daclControl = 0
  hiddenSacl : sd.shownSacl = none → acesOf sd.sacl = [] ∧ sd.type &&& saclControl = 0

/-! ## SIDs and ACEs -/

theorem readSid_of_not_ridCoded {domain : Option DomSid} {sid : DomSid}
    (h : ¬RidCoded domain sid) : readSid domain sid = sid.printed := by
  by_cases hknown : WellKnown sid
  · simp only [readSid, hknown, if_true]
  · have hcode : ridCode domain sid = none := by
      cases hcode : ridCode domain sid with
      | none => rfl
      | some e => exact absurd ⟨hknown, by rw [hcode]; rfl⟩ h
    simp only [readSid, hcode, ite_self]

theorem ridCoded_cases {domain : Option DomSid} {sid : DomSid} (h : RidCoded domain sid) :
    ∃ d rid, domain = some d ∧ d.subAuths <+: sid.subAuths ∧ d.sidRevNum = sid.sidRevNum ∧
      d.idAuth = sid.idAuth ∧ sid.subAuths.getLast? = some rid ∧
      readSid domain sid = domSidAddRid d rid := by
  obtain ⟨hknown, hcode⟩ := h
  obtain ⟨e, hcode⟩ := Option.isSome_iff_exists.mp hcode
  have hin : domSidInDomain domain sid = true := by
    by_contra hin
    simp [ridCode, hin] at hcode
  cases domain with
  | none => cases hin
  | some d =>
    have hread : readSid (some d) sid = domSidAddRid d e.2 := by
      simp only [readSid, hknown, if_false, hcode]
    rw [ridCode, if_pos hin, Option.bind_eq_some_iff] at hcode
    obtain ⟨rid, hlast, hfind⟩ := hcode
    have hrid : e.2 = rid := by simpa using find?_some hfind
    simp only [domSidInDomain, Bool.and_eq_true, isPrefixOf_iff_prefix, beq_iff_eq] at hin
    exact ⟨d, rid, rfl, hin.1.1, hin.1.2, hin.2, hlast, by rw [hread, hrid]⟩

variable (domain : Option DomSid)

theorem readSid_eq_iff (sid : DomSid) : readSid domain sid = sid ↔ SidKept domain sid := by
  by_cases hcoded : RidCoded domain sid
  · obtain ⟨d, rid, rfl, hpre, hrev, hauth, hlast, hread⟩ := ridCoded_cases hcoded
    have hkept : SidKept (some d) sid ↔ sid.subAuths.length = d.subAuths.length + 1 := by
      simp [SidKept, hcoded]
    rw [hread, hkept]
    constructor
    · -- the length of the SID that is made is that of the domain and one more
      intro h
      have hlen := congrArg (fun s => s.subAuths.length) h
      simp only [domSidAddRid, DomSid.make, length_take, length_append, length_singleton] at hlen
      have hle := hpre.length_le
      rw [numAuths] at hlen
      split at hlen <;> omega
    · intro hlen
      have hsubs : d.subAuths ++ [rid] = sid.subAuths := by
        obtain ⟨more, hmore⟩ := hpre
        rw [← hmore] at hlast hlen ⊢
        have hone : more.length = 1 := by
          rw [length_append] at hlen
          omega
        obtain ⟨v, rfl⟩ := length_eq_one_iff.mp hone
        simp at hlast
        rw [hlast]
      have hshort : (d.subAuths ++ [rid]).length ≤ 127 := by
        rw [hsubs]
        exact sid.short
      rw [domSidAddRid, DomSid.make_of_short hshort]
      cases sid
      simp_all
  · rw [readSid_of_not_ridCoded hcoded, DomSid.printed_eq_iff]
    simp [SidKept, hcoded]

theorem readType_eq_iff (type : BitVec 32) : readType type = type ↔ type ≠ 4 := by
  by_cases h : type = 4
  · rw [h]
    decide
  · rw [readType, if_neg h]
    exact iff_of_true rfl h

theorem presence_flags (f : BitVec 32) :
    (if f &&& 1 ≠ 0 then 1 else 0) ||| (if f &&& 2 ≠ 0 then 2 else 0) = f &&& 3 := by
  have hbit : ∀ i, f &&& twoPow 32 i = 0 ∨ f &&& twoPow 32 i = .twoPow 32 i := by
    intro i
    rw [and_twoPow]
    split
    · exact .inr rfl
    · exact .inl rfl
  have hone : f &&& 1 = 0 ∨ f &&& 1 = 1 := hbit 0
  have htwo : f &&& 2 = 0 ∨ f &&& 2 = 2 := hbit 1
  have hsplit : f &&& 3 = f &&& 1 ||| f &&& 2 := by
    rw [show (3 : BitVec 32) = 1 ||| 2 from rfl, and_or_distrib_left]
  rw [hsplit]
  rcases hone with h1 | h1 <;> rcases htwo with h2 | h2 <;> rw [h1, h2] <;> rfl

variable {ace : SecurityAce}

theorem readObject_of_printed (h : guidsPrinted ace.type = true) :
    SameObject (readObject ace) ace.object ↔ ace.object.flags &&& 3 = ace.object.flags := by
  have hflags : (readObject ace).flags = ace.object.flags &&& 3 := by
    rw [← presence_flags]
    simp only [readObject, readGuid, h, true_and]
    split <;> split <;> rfl
  rw [SameObject, hflags]
  refine and_iff_left ⟨fun hpresent => ?_, fun hpresent => ?_⟩ <;>
    simp only [readObject, readGuid, h, true_and, if_pos hpresent]

theorem readObject_of_not_printed (h : guidsPrinted ace.type = false) :
    SameObject (readObject ace) ace.object ↔ ace.object.flags = 0 := by
  have hflags : (readObject ace).flags = 0 := by simp [readObject, readGuid, h]
  rw [SameObject, hflags]
  constructor
  · intro hsame
    exact hsame.1.symm
  · intro hzero
    simp [hzero]

theorem sameObject_iff (hobject : IsObject ace.type) :
    SameObject (readObject ace) ace.object ↔
      ace.object.flags &&& 3 = ace.object.flags ∧ (ace.type = 8 → ace.object.flags = 0) := by
  by_cases halarm : ace.type = 8
  · rw [readObject_of_not_printed (by rw [halarm]; decide)]
    constructor
    · intro hzero
      exact ⟨by simp [hzero], fun _ => hzero⟩
    · intro h
      exact h.2 halarm
  · have hprinted : guidsPrinted ace.type = true := by
      rcases hobject with h | h | h | h
      · rw [h]; decide
      · rw [h]; decide
      · rw [h]; decide
      · exact absurd h halarm
    rw [readObject_of_printed hprinted]
    exact (and_iff_left fun h => absurd h halarm).symm

theorem sameAce_iff (ace : SecurityAce) :
    SameAce (readAce domain ace) ace ↔ AceKept domain ace := by
  constructor
  · intro h
    refine ⟨(readType_eq_iff _).mp h.type, fun hobject => ((sameObject_iff hobject).mp
      (h.object hobject)).1, fun halarm => ?_, (readSid_eq_iff _ _).mp h.trustee⟩
    have hobject : IsObject ace.type := .inr (.inr (.inr halarm))
    exact ((sameObject_iff hobject).mp (h.object hobject)).2 halarm
  · rintro ⟨htype, hflags, halarm, htrustee⟩
    exact ⟨(readType_eq_iff _).mpr htype, rfl, rfl,
      fun hobject => (sameObject_iff hobject).mpr ⟨hflags hobject, halarm⟩,
      (readSid_eq_iff _ _).mpr htrustee⟩

theorem sameAces_iff : ∀ aces : List SecurityAce,
    List.Forall₂ SameAce (aces.map (readAce domain)) aces ↔ ∀ ace ∈ aces, AceKept domain ace := by
  intro aces
  induction aces with
  | nil => simp
  | cons ace aces ih =>
    rw [map_cons, forall₂_cons, ih, sameAce_iff, forall_mem_cons]

/-! ## ACLs and their control flags -/

/-- An ACL comes back as it was when it is shown and all its ACEs are kept, or when there
was nothing to show. -/
theorem sameAcl_iff {domain : Option DomSid} {acl shown : Option SecurityAcl}
    (hshown : ∀ a, shown = some a → acl = some a) :
    List.Forall₂ SameAce (acesOf (shown.map (readAcl domain))) (acesOf acl) ↔
      (∀ a ∈ shown, ∀ ace ∈ a.aces, AceKept domain ace) ∧ (shown = none → acesOf acl = []) := by
  cases shown with
  | none =>
    show List.Forall₂ SameAce [] (acesOf acl) ↔ _
    simp
  | some a =>
    rw [hshown a rfl]
    show List.Forall₂ SameAce (a.aces.map (readAce domain)) a.aces ↔ _
    rw [sameAces_iff]
    simp

variable (sd : SecurityDescriptor)

theorem daclFlags_word :
    (sd.daclFlags &&& aclFlags.bits).setWidth 16 = sd.type &&& daclControl := by
  rw [setWidth_and, SecurityDescriptor.daclFlags, setWidth_setWidth_of_le _ (by decide : 16 ≤ 32)]
  rfl

theorem saclFlags_word :
    ((sd.saclFlags &&& aclFlags.bits) <<< 1).setWidth 16 = sd.type &&& saclControl := by
  have hbits : aclFlags.bits = 0x1500#32 := rfl
  rw [hbits, SecurityDescriptor.saclFlags]
  ext i hi
  interval_cases i <;> simp [saclControl]

def flagsIf (shown : Bool) (flags : BitVec 16) : BitVec 16 := if shown then flags else 0

/-- The control word that is read back has the flags of the ACLs that are shown. -/
theorem control_readBack :
    (readBack domain sd).type &&& (daclControl ||| saclControl) =
      flagsIf sd.shownDacl.isSome (sd.type &&& daclControl) |||
        flagsIf sd.shownSacl.isSome (sd.type &&& saclControl) := by
  show saclType sd (daclType sd secDescSelfRelative) &&& (daclControl ||| saclControl) = _
  rw [saclType, daclType, daclFlags_word, saclFlags_word]
  generalize sd.shownDacl.isSome = dacl
  generalize sd.shownSacl.isSome = sacl
  ext i hi
  cases dacl <;> cases sacl <;> interval_cases i <;>
    simp [flagsIf, daclControl, saclControl, secDescSelfRelative, secDescDaclPresent,
      secDescSaclPresent]

theorem flagsIf_eq_iff (shown : Option SecurityAcl) (flags : BitVec 16) :
    flagsIf shown.isSome flags = flags ↔ (shown = none → flags = 0) := by
  cases shown with
  | some acl => exact iff_of_true rfl fun h => nomatch h
  | none =>
    constructor
    · intro h _
      exact h.symm
    · intro h
      exact (h rfl).symm

theorem control_iff :
    (readBack domain sd).type &&& (daclControl ||| saclControl) =
        sd.type &&& (daclControl ||| saclControl) ↔
      (sd.shownDacl = none → sd.type &&& daclControl = 0) ∧
        (sd.shownSacl = none → sd.type &&& saclControl = 0) := by
  rw [control_readBack, ← flagsIf_eq_iff, ← flagsIf_eq_iff, and_or_distrib_left]
  -- the two groups of flags can be told apart in the word they are put together in
  have hapart : ∀ (d s : Bool) (t : BitVec 16),
      (flagsIf d (t &&& daclControl) ||| flagsIf s (t &&& saclControl)) &&& daclControl =
        flagsIf d (t &&& daclControl) ∧
      (flagsIf d (t &&& daclControl) ||| flagsIf s (t &&& saclControl)) &&& saclControl =
        flagsIf s (t &&& saclControl) := by
    intro d s t
    constructor <;> ext i hi <;> cases d <;> cases s <;> interval_cases i <;>
      simp [flagsIf, daclControl, saclControl]
  constructor
  · intro h
    have hall := hapart true true sd.type
    have hsome := hapart sd.shownDacl.isSome sd.shownSacl.isSome sd.type
    rw [h] at hsome
    exact ⟨hsome.1.symm.trans hall.1, hsome.2.symm.trans hall.2⟩
  · rintro ⟨hdacl, hsacl⟩
    rw [hdacl, hsacl]

/-! ## The round trip -/

theorem map_readSid_eq_iff (domain sid : Option DomSid) :
    sid.map (readSid domain) = sid ↔ ∀ s ∈ sid, SidKept domain s := by
  cases sid with
  | none => simp
  | some s => simp [readSid_eq_iff]

theorem sameDescriptor_readBack_iff :
    SameDescriptor (readBack domain sd) sd ↔
      (∀ sid ∈ sd.ownerSid, SidKept domain sid) ∧ (∀ sid ∈ sd.groupSid, SidKept domain sid) ∧
      ((∀ acl ∈ sd.shownDacl, ∀ ace ∈ acl.aces, AceKept domain ace) ∧
        (sd.shownDacl = none → acesOf sd.dacl = [])) ∧
      ((∀ acl ∈ sd.shownSacl, ∀ ace ∈ acl.aces, AceKept domain ace) ∧
        (sd.shownSacl = none → acesOf sd.sacl = [])) ∧
      (sd.shownDacl = none → sd.type &&& daclControl = 0) ∧
      (sd.shownSacl = none → sd.type &&& saclControl = 0) := by
  have hdacl : ∀ a, sd.shownDacl = some a → sd.dacl = some a := fun a ha =>
    (Option.ite_none_right_eq_some.mp ha).2
  have hsacl : ∀ a, sd.shownSacl = some a → sd.sacl = some a := fun a ha =>
    (Option.ite_none_right_eq_some.mp ha).2
  rw [← map_readSid_eq_iff, ← map_readSid_eq_iff, ← sameAcl_iff hdacl, ← sameAcl_iff hsacl,
    ← control_iff domain]
  constructor
  · intro h
    exact ⟨h.owner, h.group, h.dacl, h.sacl, h.control⟩
  · rintro ⟨howner, hgroup, hdacl, hsacl, hcontrol⟩
    exact ⟨howner, hgroup, hdacl, hsacl, hcontrol⟩

/-- **Descriptors through their text.** A descriptor comes back equal exactly when it is one of
`Kept`. -/
theorem sddl_round_trip {sd : SecurityDescriptor} {domain : Option DomSid} {str : List Char}
    (htypes : AceTypesKnown sd) (h : sddlEncode sd domain = .ok str) :
    (∃ sd', sddlDecode str domain = .ok sd' ∧ SameDescriptor sd' sd) ↔ Kept domain sd := by
  rw [sddlDecode_encoded htypes h]
  by_cases hstumbles : Stumbles domain sd
  · refine iff_of_false ?_ fun hkept => hkept.readable hstumbles
    rintro ⟨sd', hdecode, -⟩
    rw [if_pos hstumbles] at hdecode
    cases hdecode
  · rw [if_neg hstumbles]
    have hsame : (∃ sd', (Except.ok (readBack domain sd) : Except Failure SecurityDescriptor) =
        .ok sd' ∧ SameDescriptor sd' sd) ↔ SameDescriptor (readBack domain sd) sd := by simp
    rw [hsame, sameDescriptor_readBack_iff]
    constructor
    · rintro ⟨howner, hgroup, ⟨hdacl, hdaclHidden⟩, ⟨hsacl, hsaclHidden⟩, hdaclFlags, hsaclFlags⟩
      exact ⟨hstumbles, howner, hgroup, hdacl, hsacl, fun hd => ⟨hdaclHidden hd, hdaclFlags hd⟩,
        fun hs => ⟨hsaclHidden hs, hsaclFlags hs⟩⟩
    · intro hkept
      exact ⟨hkept.owner, hkept.group, ⟨hkept.dacl, fun hd => (hkept.hiddenDacl hd).1⟩,
        ⟨hkept.sacl, fun hs => (hkept.hiddenSacl hs).1⟩, fun hd => (hkept.hiddenDacl hd).2,
        fun hs => (hkept.hiddenSacl hs).2⟩

/-! ## Samples -/

/-- A SID `S-1-5-` with the given sub-authorities. -/
def sampleSid (subs : List UInt32) (h : subs.length ≤ 127) : DomSid :=
  ⟨1, #v[0, 0, 0, 0, 0, 5], subs, h⟩

def accountSid : DomSid := sampleSid [21, 7, 1000] (by decide)

def accountDomain : DomSid := sampleSid [21, 7] (by decide)

/-- An ACE that allows everything to the administrators of the domain. -/
def adminsAce : SecurityAce :=
  ⟨0, 3, 0x10000000, ⟨0, guidZero, guidZero⟩, sampleSid [21, 7, 512] (by decide)⟩

/-- An owner in numbers, a code for the group and one protected ACE. -/
def keptDescriptor : SecurityDescriptor :=
  ⟨1, 0x9004, some accountSid, some (sampleSid [18] (by decide)), none, some ⟨2, [adminsAce]⟩⟩

/-- The same with an owner and a group in numbers. -/
def numericDescriptor : SecurityDescriptor :=
  { keptDescriptor with groupSid := some accountSid }

/-- A protected DACL without ACEs and an empty SACL. -/
def joinedDescriptor : SecurityDescriptor := ⟨1, 0x9014, none, none, some ⟨2, []⟩, some ⟨2, []⟩⟩

theorem sddl_round_trip_kept :
    AceTypesKnown keptDescriptor ∧ sddlEncode keptDescriptor (some accountDomain) =
      .ok "O:S-1-5-21-7-1000G:SYD:P(A;OICI;GA;;;DA)".toList ∧
    ∃ sd', sddlDecode "O:S-1-5-21-7-1000G:SYD:P(A;OICI;GA;;;DA)".toList (some accountDomain) =
      .ok sd' ∧ SameDescriptor sd' keptDescriptor :=
  ⟨by decide +kernel, by decide +kernel,
    (sddl_round_trip (by decide +kernel) (by decide +kernel)).mpr
      ⟨by decide, by decide, by decide, by decide,
        by decide, by decide, by decide⟩⟩

/-- The decoder does not read what the encoder wrote: an owner and a group in numbers, or
flags without ACEs before a SACL. -/
theorem sddl_not_read_back :
    (sddlEncode numericDescriptor (some accountDomain) =
        .ok "O:S-1-5-21-7-1000G:S-1-5-21-7-1000D:P(A;OICI;GA;;;DA)".toList ∧
      sddlDecode "O:S-1-5-21-7-1000G:S-1-5-21-7-1000D:P(A;OICI;GA;;;DA)".toList
        (some accountDomain) = .error .null) ∧
    (sddlEncode joinedDescriptor none = .ok "D:PS:".toList ∧
      sddlDecode "D:PS:".toList none = .error .null) :=
  ⟨⟨by decide +kernel, by decide +kernel⟩, by decide +kernel, by decide +kernel⟩

end OpenvasSmb.Security

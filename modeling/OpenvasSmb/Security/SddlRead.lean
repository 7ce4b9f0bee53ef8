import OpenvasSmb.Security.SddlFields

/-!
# What `sddl_decode` makes of an encoded text

The ACLs and the parts of a descriptor, over what is known of the fields. The whole
descriptor comes back as `readBack domain sd` (`sddlDecode_encoded`), unless the decoder
stumbles over the text.
-/

namespace OpenvasSmb.Security

open Kit List FlagMap Option

variable {flags : BitVec 32} {present : Bool} {letter : Char}
  {r : Except Failure SecurityDescriptor} {part rest text : List Char} {domain sid : Option DomSid}
  {acl : Option SecurityAcl} {sd sd0 : SecurityDescriptor}

/-! ## ACLs -/

theorem encodeAces_cons {ace : SecurityAce} {aces : List SecurityAce} {texts : List Char}
    (h : encodeAces domain (ace :: aces) = .ok texts) :
    ∃ text more, sddlEncodeAce domain ace = .ok text ∧ encodeAces domain aces = .ok more ∧
      texts = '(' :: (text ++ ')' :: more) := by
  rw [encodeAces] at h
  cases hace : sddlEncodeAce domain ace with
  | error e => simp [hace] at h
  | ok text =>
    cases hmore : encodeAces domain aces with
    | error e => simp [hace, hmore] at h
    | ok more =>
      simp only [hace, hmore, Except.ok.injEq] at h
      exact ⟨text, more, rfl, rfl, h.symm⟩

theorem decodeAces_encoded {domain : Option DomSid} {rest : List Char}
    (hrest : rest.head? ≠ some '(') : ∀ {aces : List SecurityAce} {texts : List Char},
    (∀ ace ∈ aces, ace.type.toNat ≤ 8) → encodeAces domain aces = .ok texts →
    ∀ fuel, aces.length ≤ fuel → decodeAces domain fuel (texts ++ rest) =
      .ok (aces.map (readAce domain), rest) := by
  intro aces
  induction aces with
  | nil =>
    intro texts _ henc fuel _
    cases henc
    show decodeAces domain fuel rest = .ok ([], rest)
    cases fuel with
    | zero => rfl
    | succ fuel =>
      cases rest with
      | nil => rfl
      | cons c cs =>
        have hc : c ≠ '(' := by simpa using hrest
        simp [decodeAces, hc]
  | cons ace aces ih =>
    intro texts htypes henc fuel hfuel
    obtain ⟨htype, htypes⟩ := forall_mem_cons.mp htypes
    obtain ⟨text, more, hace, hmore, rfl⟩ := encodeAces_cons henc
    cases fuel with
    | zero => simp at hfuel
    | succ fuel =>
      have hclose : ∀ c ∈ text, (c != ')') = true := by
        intro c hc
        rw [bne_iff_ne]
        rintro rfl
        exact bracket_not_mem_ace hace (.inl rfl) hc
      have hshape : '(' :: (text ++ ')' :: more) ++ rest =
          '(' :: (text ++ ')' :: (more ++ rest)) := by simp
      have hbody : (text ++ ')' :: (more ++ rest)).takeWhile (fun c => c != ')') = text := by
        rw [takeWhile_append_of_pos hclose]
        simp
      have hrest' : (text ++ ')' :: (more ++ rest)).dropWhile (fun c => c != ')') =
          ')' :: (more ++ rest) := by
        rw [dropWhile_append_of_pos hclose]
        simp
      rw [hshape, decodeAces]
      simp only [hbody, hrest', sddlDecodeAce_encoded htype hace,
        ih htypes hmore fuel (by simp at hfuel; omega), map_cons]

theorem length_le_encodeAces : ∀ {aces : List SecurityAce}
    {texts : List Char}, encodeAces domain aces = .ok texts → aces.length ≤ texts.length := by
  intro aces
  induction aces with
  | nil => intro texts _; exact Nat.zero_le _
  | cons ace aces ih =>
    intro texts h
    obtain ⟨text, more, -, hmore, rfl⟩ := encodeAces_cons h
    have := ih hmore
    simp only [length_cons, length_append]
    omega

theorem dash_mem_aces : ∀ {aces : List SecurityAce} {texts : List Char},
    encodeAces domain aces = .ok texts → ('-' ∈ texts ↔ ∃ ace ∈ aces, AceDashed domain ace) := by
  intro aces
  induction aces with
  | nil =>
    intro texts h
    cases h
    simp
  | cons ace aces ih =>
    intro texts h
    obtain ⟨text, more, hace, hmore, rfl⟩ := encodeAces_cons h
    simp only [mem_cons, mem_append, dash_mem_ace hace, ih hmore, Char.reduceEq,
      false_or, exists_eq_or_imp]

theorem sddlEncodeAcl_eq {acl : SecurityAcl} (h : sddlEncodeAcl domain acl flags = .ok text) :
    ∃ (es : FlagMap 32) (texts : List Char), (∀ e ∈ es, e ∈ aclFlags) ∧
      (∀ c ∈ names es, c.isUpper = true) ∧ es.bits = flags &&& aclFlags.bits ∧
      encodeAces domain acl.aces = .ok texts ∧ text = names es ++ texts := by
  rw [sddlEncodeAcl] at h
  cases hflags : aclFlags.toText flags false with
  | none => simp [hflags] at h
  | some names =>
    cases haces : encodeAces domain acl.aces with
    | error e => simp [hflags, haces] at h
    | ok texts =>
      simp only [hflags, haces, Except.ok.injEq] at h
      obtain ⟨es, hes, rfl, hbits, -⟩ := toText_names aclFlags_singleBits hflags
      exact ⟨es, texts, hes,
        fun c hc => isUpper_of_mem_toText (by decide) hflags hc, hbits, rfl, h.symm⟩

theorem nextPart_cons {c : Char} {t : List Char} (h : t.head? = some ':' → c.isUpper = false) :
    nextPart (c :: t) = false := by
  cases t with
  | nil => rfl
  | cons c' t =>
    by_cases hc' : c' = ':'
    · subst hc'
      exact h rfl
    · simp [nextPart, hc']

/-- Flag names are not taken for a next part. -/
theorem nextPart_names {names more : List Char} (hupper : ∀ c ∈ names, c.isUpper = true)
    (hne : names ≠ []) (hmore : more.head? ≠ some ':') : nextPart (names ++ more) = false := by
  cases names with
  | nil => exact absurd rfl hne
  | cons c names =>
    apply nextPart_cons
    intro hcolon
    cases names with
    | nil => exact absurd hcolon hmore
    | cons c' names =>
      have hc' := hupper c' (mem_cons_of_mem _ (mem_cons_self ..))
      rw [some.inj hcolon] at hc'
      exact absurd hc' (by decide)

/-- Nor is what comes behind them, when it does not start with a capital letter. -/
theorem nextPart_flags {names more : List Char} (hupper : ∀ c ∈ names, c.isUpper = true)
    (hplain : FlagMap.NoUpper more) (hmore : more.head? ≠ some ':') :
    nextPart (names ++ more) = false := by
  by_cases hnil : names = []
  · rw [hnil]
    cases more with
    | nil => rfl
    | cons c more => exact nextPart_cons fun _ => hplain c rfl
  · exact nextPart_names hupper hnil hmore

/-- **Reading back an ACL.** The decoder stumbles over flags that no ACE separates from a
part that follows. -/
theorem sddlDecodeAcl_encoded {acl : SecurityAcl} (htypes : ∀ ace ∈ acl.aces, ace.type.toNat ≤ 8)
    (h : sddlEncodeAcl domain acl flags = .ok text)
    (hrest : rest = [] ∨ ∃ r, rest = 'S' :: ':' :: r) :
    sddlDecodeAcl domain (text ++ rest) =
      if flags &&& aclFlags.bits ≠ 0 ∧ acl.aces = [] ∧ rest ≠ [] then .error .null
      else .ok (⟨2, acl.aces.map (readAce domain)⟩, flags &&& aclFlags.bits, rest) := by
  obtain ⟨es, texts, hes, hupper, hbits, haces, rfl⟩ := sddlEncodeAcl_eq h
  rw [← hbits, append_assoc]
  -- what comes behind the flags when they can be read
  have hread : FlagMap.NoUpper (texts ++ rest) → (texts ++ rest).head? ≠ some ':' →
      sddlDecodeAcl domain (names es ++ (texts ++ rest)) =
        .ok (⟨2, acl.aces.map (readAce domain)⟩, es.bits, rest) := by
    intro hplain hcolon
    have hopen : rest.head? ≠ some '(' := by
      rcases hrest with rfl | ⟨r, rfl⟩ <;> simp
    have hlen := length_le_encodeAces haces
    rw [sddlDecodeAcl, nextPart_flags hupper hplain hcolon, if_neg (by simp),
      read_names aclFlags_coded hplain hes]
    simp only [decodeAces_encoded hopen htypes haces (texts ++ rest).length
      (by rw [length_append]; omega)]
  cases hlist : acl.aces with
  | cons ace aces =>
    rw [hlist] at haces
    obtain ⟨text, more, -, -, rfl⟩ := encodeAces_cons haces
    rw [if_neg (by simp), ← hlist]
    exact hread (noUpper_of_not_isUpper (by decide) _) (by simp)
  | nil =>
    rw [hlist] at haces
    cases haces
    rcases hrest with rfl | ⟨r, rfl⟩
    · rw [if_neg (by simp), ← hlist]
      exact hread noUpper_nil (by simp)
    · by_cases hzero : es.bits = 0
      · obtain rfl := aclFlags_singleBits.eq_nil hes hzero
        rfl
      · have hnames : names es ≠ [] := by
          intro hnil
          have hlen := aclFlags_coded.length_le_names hes
          rw [hnil] at hlen
          exact hzero (by rw [length_eq_zero_iff.mp (Nat.le_zero.mp hlen)]; rfl)
        have hstuck : aclFlags.read (names es ++ 'S' :: ':' :: r) = none :=
          read_names_stuck aclFlags_coded rfl rfl rfl hes
        rw [if_pos ⟨hzero, rfl, by simp⟩, nil_append, sddlDecodeAcl,
          nextPart_names hupper hnames (by simp), if_neg (by simp), hstuck]

/-! ## Descriptors -/

/-- The DACL, if it gets into the text. -/
def SecurityDescriptor.shownDacl (sd : SecurityDescriptor) : Option SecurityAcl :=
  if sd.type &&& secDescDaclPresent ≠ 0 then sd.dacl else none

/-- The SACL, if it gets into the text. -/
def SecurityDescriptor.shownSacl (sd : SecurityDescriptor) : Option SecurityAcl :=
  if sd.type &&& secDescSaclPresent ≠ 0 then sd.sacl else none

def SidDashed (domain : Option DomSid) (sid : Option DomSid) : Prop :=
  ∃ s ∈ sid, Numeric domain s

instance (domain sid : Option DomSid) : Decidable (SidDashed domain sid) :=
  inferInstanceAs (Decidable (∃ s ∈ sid, Numeric domain s))

/-- An ACL in whose text there is a dash. -/
def AclDashed (domain : Option DomSid) (acl : Option SecurityAcl) : Prop :=
  ∃ a ∈ acl, ∃ ace ∈ a.aces, AceDashed domain ace

instance (domain : Option DomSid) (acl : Option SecurityAcl) : Decidable (AclDashed domain acl) :=
  inferInstanceAs (Decidable (∃ a ∈ acl, ∃ ace ∈ a.aces, AceDashed domain ace))

/-- The flags of the DACL run into the part of the SACL. -/
def FlagsJoined (sd : SecurityDescriptor) : Prop :=
  sd.daclFlags &&& aclFlags.bits ≠ 0 ∧ (∃ acl ∈ sd.shownDacl, acl.aces = []) ∧
    sd.shownSacl.isSome = true

instance (sd : SecurityDescriptor) : Decidable (FlagsJoined sd) :=
  inferInstanceAs (Decidable (_ ∧ _))

/-- The texts over which the decoder stumbles. -/
def Stumbles (domain : Option DomSid) (sd : SecurityDescriptor) : Prop :=
  (SidDashed domain sd.ownerSid ∧ (SidDashed domain sd.groupSid ∨
    AclDashed domain sd.shownDacl ∨ AclDashed domain sd.shownSacl)) ∨
  (SidDashed domain sd.groupSid ∧
    (AclDashed domain sd.shownDacl ∨ AclDashed domain sd.shownSacl)) ∨
  FlagsJoined sd

instance (domain : Option DomSid) (sd : SecurityDescriptor) : Decidable (Stumbles domain sd) :=
  inferInstanceAs (Decidable (_ ∨ _))

def readAcl (domain : Option DomSid) (acl : SecurityAcl) : SecurityAcl :=
  ⟨2, acl.aces.map (readAce domain)⟩

/-- The control word with the flags of a DACL that was read. -/
def daclType (sd : SecurityDescriptor) (type : BitVec 16) : BitVec 16 :=
  if sd.shownDacl.isSome then
    type ||| (sd.daclFlags &&& aclFlags.bits).setWidth 16 ||| secDescDaclPresent
  else type

/-- The control word with the flags of a SACL that was read. -/
def saclType (sd : SecurityDescriptor) (type : BitVec 16) : BitVec 16 :=
  if sd.shownSacl.isSome then
    type ||| ((sd.saclFlags &&& aclFlags.bits) <<< 1).setWidth 16 ||| secDescSaclPresent
  else type

def readBack (domain : Option DomSid) (sd : SecurityDescriptor) : SecurityDescriptor where
  revision := 1
  type := saclType sd (daclType sd secDescSelfRelative)
  ownerSid := sd.ownerSid.map (readSid domain)
  groupSid := sd.groupSid.map (readSid domain)
  sacl := sd.shownSacl.map (readAcl domain)
  dacl := sd.shownDacl.map (readAcl domain)

/-- The parts of an encoded text are empty, or start with their letter. -/
theorem sidPart_eq (h : sidPart domain letter sid = .ok part) :
    (sid = none ∧ part = []) ∨ ∃ s text, sid = some s ∧ sddlEncodeSid domain s = .ok text ∧
      part = letter :: ':' :: text := by
  cases sid with
  | none =>
    cases h
    exact .inl ⟨rfl, rfl⟩
  | some s =>
    rw [sidPart] at h
    cases henc : sddlEncodeSid domain s with
    | error e => simp [henc] at h
    | ok text =>
      simp only [henc, Except.ok.injEq] at h
      exact .inr ⟨s, text, rfl, henc, h.symm⟩

theorem aclPart_eq (h : aclPart domain letter present flags acl = .ok part) :
    ((if present then acl else none) = none ∧ part = []) ∨
      ∃ a text, (if present then acl else none) = some a ∧
        sddlEncodeAcl domain a flags = .ok text ∧ part = letter :: ':' :: text := by
  cases acl with
  | none =>
    cases h
    exact .inl ⟨ite_self _, rfl⟩
  | some a =>
    rw [aclPart] at h
    cases present with
    | false =>
      cases h
      exact .inl ⟨rfl, rfl⟩
    | true =>
      rw [if_pos rfl] at h
      cases henc : sddlEncodeAcl domain a flags with
      | error e => simp [henc] at h
      | ok text =>
        simp only [henc, Except.ok.injEq] at h
        exact .inr ⟨a, text, rfl, henc, h.symm⟩

theorem dash_mem_sidPart (hletter : letter ≠ '-') (h : sidPart domain letter sid = .ok part) :
    '-' ∈ part ↔ SidDashed domain sid := by
  rcases sidPart_eq h with ⟨rfl, rfl⟩ | ⟨s, text, rfl, henc, rfl⟩
  · simp [SidDashed]
  · simp [SidDashed, dash_mem_sid henc, hletter.symm]

theorem dash_mem_aclPart (hletter : letter ≠ '-')
    (h : aclPart domain letter present flags acl = .ok part) :
    '-' ∈ part ↔ AclDashed domain (if present then acl else none) := by
  rcases aclPart_eq h with ⟨hnone, rfl⟩ | ⟨a, text, hsome, henc, rfl⟩
  · simp [hnone, AclDashed]
  · obtain ⟨es, texts, -, hupper, -, haces, rfl⟩ := sddlEncodeAcl_eq henc
    have hnames : '-' ∉ names es := fun hc => absurd (hupper _ hc) (by decide)
    simp [hsome, AclDashed, hletter.symm, hnames, dash_mem_aces haces]

theorem PartEnd.append (hpart : PartEnd part) (hrest : PartEnd rest) : PartEnd (part ++ rest) := by
  cases part with
  | nil => exact hrest
  | cons c part => exact fun c' hc' => hpart c' hc'

theorem sidPart_partEnd (hletter : letter.isUpper = true)
    (h : sidPart domain letter sid = .ok part) : PartEnd part := by
  rcases sidPart_eq h with ⟨-, rfl⟩ | ⟨s, text, -, -, rfl⟩
  · exact partEnd_nil
  · rintro c ⟨⟩
    exact hletter

theorem aclPart_partEnd (hletter : letter.isUpper = true)
    (h : aclPart domain letter present flags acl = .ok part) : PartEnd part := by
  rcases aclPart_eq h with ⟨-, rfl⟩ | ⟨a, text, -, -, rfl⟩
  · exact partEnd_nil
  · rintro c ⟨⟩
    exact hletter

/-- The loop of the decoder, started on a text with a bound that is large enough, ends in a
result. -/
def Decodes (domain : Option DomSid) (sd : SecurityDescriptor) (s : List Char)
    (r : Except Failure SecurityDescriptor) : Prop :=
  ∀ fuel, s.length ≤ fuel → decodeLoop domain fuel sd s = r

theorem decodes_nil (domain : Option DomSid) (sd : SecurityDescriptor) :
    Decodes domain sd [] (.ok sd) := by
  intro fuel _
  cases fuel <;> rfl

/-- One round of the loop, over whose part the decoder may stumble. -/
theorem decodes_part {sd' : SecurityDescriptor} {stuck : Prop} [Decidable stuck]
    (hpart : decodePart domain letter sd (text ++ rest) =
      if stuck then .error .null else .ok (sd', rest)) (hrest : Decodes domain sd' rest r) :
    Decodes domain sd (letter :: ':' :: text ++ rest) (if stuck then .error .null else r) := by
  intro fuel hfuel
  cases fuel with
  | zero => simp at hfuel
  | succ fuel =>
    show decodeLoop domain (fuel + 1) sd (letter :: ':' :: (text ++ rest)) = _
    rw [decodeLoop, hpart]
    by_cases hstuck : stuck
    · simp only [if_pos hstuck]
    · simp only [if_neg hstuck]
      exact hrest fuel (by simp at hfuel; omega)

theorem decodes_sidPart (set : Option DomSid → SecurityDescriptor)
    (hset : ∀ s, decodePart domain letter (set none) s =
      (sddlDecodeSid domain s).map fun r => (set (some r.1), r.2))
    (hpart : sidPart domain letter sid = .ok part) (hrest : PartEnd rest)
    (hnext : Decodes domain (set (sid.map (readSid domain))) rest r) :
    Decodes domain (set none) (part ++ rest)
      (if SidDashed domain sid ∧ '-' ∈ rest then .error .null else r) := by
  rcases sidPart_eq hpart with ⟨rfl, rfl⟩ | ⟨s, text, rfl, henc, rfl⟩
  · exact hnext
  · have hdashed : SidDashed domain (some s) ↔ Numeric domain s := by simp [SidDashed]
    simp only [hdashed]
    refine decodes_part ?_ hnext
    rw [hset, sddlDecodeSid_encoded henc hrest.ends]
    split <;> rfl

theorem decodes_aclPart (set : Option (SecurityAcl × BitVec 32) → SecurityDescriptor)
    (hset : ∀ s, decodePart domain letter (set none) s =
      (sddlDecodeAcl domain s).map fun r => (set (some (r.1, r.2.1)), r.2.2))
    (htypes : ∀ a ∈ acl, ∀ ace ∈ a.aces, ace.type.toNat ≤ 8)
    (hpart : aclPart domain letter present flags acl = .ok part)
    (hrest : rest = [] ∨ ∃ r, rest = 'S' :: ':' :: r)
    (hnext : Decodes domain (set ((if present then acl else none).map fun a =>
      (readAcl domain a, flags &&& aclFlags.bits))) rest r) :
    Decodes domain (set none) (part ++ rest)
      (if flags &&& aclFlags.bits ≠ 0 ∧ (∃ a ∈ (if present then acl else none), a.aces = []) ∧
          rest ≠ [] then .error .null else r) := by
  rcases aclPart_eq hpart with ⟨hnone, rfl⟩ | ⟨a, text, hsome, henc, rfl⟩
  · rw [hnone] at hnext ⊢
    rwa [if_neg (by simp)]
  · have hmem : a ∈ acl := (ite_none_right_eq_some.mp hsome).2
    rw [hsome] at hnext ⊢
    simp only [mem_some_iff, exists_eq_left']
    refine decodes_part ?_ hnext
    rw [hset, sddlDecodeAcl_encoded (htypes a hmem) henc hrest]
    split <;> rfl

theorem sddlEncode_eq {str : List Char} (h : sddlEncode sd domain = .ok str) :
    ∃ owner group dacl sacl, sidPart domain 'O' sd.ownerSid = .ok owner ∧
      sidPart domain 'G' sd.groupSid = .ok group ∧
      aclPart domain 'D' (sd.type &&& secDescDaclPresent != 0) sd.daclFlags sd.dacl = .ok dacl ∧
      aclPart domain 'S' (sd.type &&& secDescSaclPresent != 0) sd.saclFlags sd.sacl = .ok sacl ∧
      str = owner ++ (group ++ (dacl ++ sacl)) := by
  rw [sddlEncode] at h
  cases howner : sidPart domain 'O' sd.ownerSid with
  | error e => simp [howner] at h
  | ok owner =>
  cases hgroup : sidPart domain 'G' sd.groupSid with
  | error e => simp [howner, hgroup] at h
  | ok group =>
  cases hdacl : aclPart domain 'D' (sd.type &&& secDescDaclPresent != 0) sd.daclFlags sd.dacl with
  | error e => simp only [howner, hgroup, hdacl, reduceCtorEq] at h
  | ok dacl =>
  cases hsacl : aclPart domain 'S' (sd.type &&& secDescSaclPresent != 0) sd.saclFlags sd.sacl with
  | error e => simp only [howner, hgroup, hdacl, hsacl, reduceCtorEq] at h
  | ok sacl =>
    simp only [howner, hgroup, hdacl, hsacl, Except.ok.injEq] at h
    exact ⟨owner, group, dacl, sacl, rfl, rfl, rfl, rfl, h.symm⟩

def AceTypesKnown (sd : SecurityDescriptor) : Prop :=
  (∀ acl ∈ sd.dacl, ∀ ace ∈ acl.aces, ace.type.toNat ≤ 8) ∧
    ∀ acl ∈ sd.sacl, ∀ ace ∈ acl.aces, ace.type.toNat ≤ 8

instance (sd : SecurityDescriptor) : Decidable (AceTypesKnown sd) :=
  inferInstanceAs (Decidable (_ ∧ _))

theorem shownDacl_eq (sd : SecurityDescriptor) : (if (sd.type &&& secDescDaclPresent != 0) = true
    then sd.dacl else none) = sd.shownDacl := by
  simp [SecurityDescriptor.shownDacl]

theorem shownSacl_eq (sd : SecurityDescriptor) : (if (sd.type &&& secDescSaclPresent != 0) = true
    then sd.sacl else none) = sd.shownSacl := by
  simp [SecurityDescriptor.shownSacl]

theorem decodes_dacl (htypes : AceTypesKnown sd) (hnone : sd0.dacl = none)
    (hpart : aclPart domain 'D' (sd.type &&& secDescDaclPresent != 0) sd.daclFlags sd.dacl =
      .ok part) (hrest : rest = [] ∨ ∃ r, rest = 'S' :: ':' :: r)
    (hnext : Decodes domain { sd0 with dacl := sd.shownDacl.map (readAcl domain),
                                       type := daclType sd sd0.type } rest r) :
    Decodes domain sd0 (part ++ rest)
      (if sd.daclFlags &&& aclFlags.bits ≠ 0 ∧ (∃ acl ∈ sd.shownDacl, acl.aces = []) ∧ rest ≠ []
        then .error .null else r) := by
  have hloop := decodes_aclPart (r := r)
    (fun read => read.elim sd0 fun a =>
      { sd0 with dacl := some a.1, type := sd0.type ||| a.2.setWidth 16 ||| secDescDaclPresent })
    (fun s => by
      simp only [decodePart, Option.elim, hnone]
      cases sddlDecodeAcl domain s <;> rfl) htypes.1 hpart hrest
  simp only [shownDacl_eq] at hloop
  apply hloop
  cases hacl : sd.shownDacl with
  | none =>
    rwa [hacl, map_none, ← hnone, daclType, hacl] at hnext
  | some acl =>
    rwa [hacl, daclType, hacl] at hnext

theorem decodes_sacl (htypes : AceTypesKnown sd) (hnone : sd0.sacl = none)
    (hpart : aclPart domain 'S' (sd.type &&& secDescSaclPresent != 0) sd.saclFlags sd.sacl =
      .ok part) :
    Decodes domain sd0 part
      (.ok { sd0 with sacl := sd.shownSacl.map (readAcl domain),
                      type := saclType sd sd0.type }) := by
  have hloop := decodes_aclPart
    (fun read => read.elim sd0 fun a =>
      { sd0 with sacl := some a.1,
                 type := sd0.type ||| (a.2 <<< 1).setWidth 16 ||| secDescSaclPresent })
    (fun s => by
      simp only [decodePart, Option.elim, hnone]
      cases sddlDecodeAcl domain s <;> rfl) htypes.2 hpart (.inl rfl) (decodes_nil domain _)
  rw [if_neg (by simp), append_nil, shownSacl_eq] at hloop
  cases hacl : sd.shownSacl with
  | none =>
    rw [hacl] at hloop
    rwa [map_none, ← hnone, saclType, hacl]
  | some acl =>
    rw [hacl] at hloop
    rwa [saclType, hacl]

/-- **Reading back a descriptor.** The text of a descriptor is read as `readBack` says,
unless the decoder stumbles over it. -/
theorem sddlDecode_encoded {str : List Char} (htypes : AceTypesKnown sd)
    (h : sddlEncode sd domain = .ok str) :
    sddlDecode str domain =
      if Stumbles domain sd then .error .null else .ok (readBack domain sd) := by
  obtain ⟨owner, group, dacl, sacl, howner, hgroup, hdacl, hsacl, rfl⟩ := sddlEncode_eq h
  -- what a part leaves behind it, in terms of the descriptor
  have hsaclRest : sacl = [] ∨ ∃ r, sacl = 'S' :: ':' :: r := by
    rcases aclPart_eq hsacl with ⟨-, rfl⟩ | ⟨a, text, -, -, rfl⟩
    · exact .inl rfl
    · exact .inr ⟨text, rfl⟩
  have hsaclShown : sacl ≠ [] ↔ sd.shownSacl.isSome = true := by
    rcases aclPart_eq hsacl with ⟨hnone, rfl⟩ | ⟨a, text, hsome, -, rfl⟩
    · rw [shownSacl_eq] at hnone
      simp [hnone]
    · rw [shownSacl_eq] at hsome
      simp [hsome]
  have hend : PartEnd (dacl ++ sacl) :=
    (aclPart_partEnd rfl hdacl).append (aclPart_partEnd rfl hsacl)
  have hacls : '-' ∈ dacl ++ sacl ↔
      AclDashed domain sd.shownDacl ∨ AclDashed domain sd.shownSacl := by
    rw [mem_append, dash_mem_aclPart (by decide) hdacl, dash_mem_aclPart (by decide) hsacl,
      shownDacl_eq, shownSacl_eq]
  have hgroups : '-' ∈ group ++ (dacl ++ sacl) ↔ SidDashed domain sd.groupSid ∨
      AclDashed domain sd.shownDacl ∨ AclDashed domain sd.shownSacl := by
    rw [mem_append, hacls, dash_mem_sidPart (by decide) hgroup]
  -- the loop, from the last part to the first
  have hloop : Decodes domain ⟨1, secDescSelfRelative, none, none, none, none⟩
      (owner ++ (group ++ (dacl ++ sacl))) _ :=
    decodes_sidPart (fun sid => ⟨1, secDescSelfRelative, sid, none, none, none⟩)
      (fun s => by simp only [decodePart]; cases sddlDecodeSid domain s <;> rfl)
      howner ((sidPart_partEnd rfl hgroup).append hend)
      (decodes_sidPart (fun sid => ⟨1, secDescSelfRelative, _, sid, none, none⟩)
        (fun s => by simp only [decodePart]; cases sddlDecodeSid domain s <;> rfl)
        hgroup hend
        (decodes_dacl htypes rfl hdacl hsaclRest (decodes_sacl htypes rfl hsacl)))
  rw [sddlDecode, hloop _ (Nat.le_refl _)]
  simp only [hgroups, hacls, hsaclShown]
  rw [← ite_or, ← ite_or]
  exact if_congr or_assoc rfl rfl

end OpenvasSmb.Security

import OpenvasSmb.Security.Sddl

/-!
# SIDs and ACEs in an encoded text

What the decoder reads from the text of a SID and of an ACE, in the place where the encoder
puts it. A SID comes back as `readSid domain sid` (`sddlDecodeSid_encoded`), unless it is
written in numbers and a dash comes behind it, and an ACE as `readAce domain ace`
(`sddlDecodeAce_encoded`).
-/

namespace OpenvasSmb.Security

open Kit List FlagMap

variable {c : Char} {sid : DomSid} {rest text : List Char} {domain : Option DomSid}
  {ace : SecurityAce}

/-! ## The tables -/

theorem aceFlags_coded : aceFlags.Coded :=
  ⟨upper_of_all (by decide), by decide⟩

theorem aceFlags_singleBits : aceFlags.SingleBits := ⟨by decide, by decide⟩

theorem aceAccessMask_coded : aceAccessMask.Coded :=
  ⟨upper_of_all (by decide), by decide⟩

theorem aceAccessMask_singleBits : aceAccessMask.SingleBits :=
  ⟨by decide, by decide⟩

theorem aclFlags_coded : aclFlags.Coded :=
  ⟨upper_of_all (by decide), by decide⟩

theorem aclFlags_singleBits : aclFlags.SingleBits := ⟨by decide, by decide⟩

def flagMaps : List (FlagMap 32) := [aceTypes, aceFlags, aceAccessMask, aclFlags]

theorem isUpper_of_mem_toText {map : FlagMap 32} (hmap : map ∈ flagMaps) {flags : BitVec 32}
    {checkAll : Bool} (h : map.toText flags checkAll = some text) (hc : c ∈ text) :
    c.isUpper = true := by
  have hall : ∀ map ∈ flagMaps, ∀ e ∈ map, e.1.all Char.isUpper = true := by decide
  obtain ⟨e, he, hce⟩ := mem_toText h hc
  exact all_eq_true.mp (hall map hmap e he) c hce

theorem noUpper_of_not_isUpper (h : c.isUpper = false) (s : List Char) :
    FlagMap.NoUpper (c :: s) := by
  intro c' hc'
  cases hc'
  exact h

theorem noUpper_nil : FlagMap.NoUpper [] := by
  intro c hc
  cases hc

/-! ## SIDs -/

/-- The RID for which a SID is given a code of the domain. -/
def ridCode (domain : Option DomSid) (sid : DomSid) : Option (List Char × UInt32) :=
  if domSidInDomain domain sid then
    sid.subAuths.getLast?.bind fun rid => domainRids.find? fun e => e.2 == rid
  else none

def WellKnown (sid : DomSid) : Prop := ∃ e ∈ wellKnownSids, e.2 = sid.text

instance (sid : DomSid) : Decidable (WellKnown sid) :=
  inferInstanceAs (Decidable (∃ e ∈ wellKnownSids, e.2 = sid.text))

/-- The SID is written with a code that stands for a RID of the domain. -/
def RidCoded (domain : Option DomSid) (sid : DomSid) : Prop :=
  ¬WellKnown sid ∧ (ridCode domain sid).isSome = true

instance (domain : Option DomSid) (sid : DomSid) : Decidable (RidCoded domain sid) :=
  inferInstanceAs (Decidable (_ ∧ _))

/-- The SID is written out in numbers. -/
def Numeric (domain : Option DomSid) (sid : DomSid) : Prop :=
  ¬WellKnown sid ∧ (ridCode domain sid).isSome = false

instance (domain : Option DomSid) (sid : DomSid) : Decidable (Numeric domain sid) :=
  inferInstanceAs (Decidable (_ ∧ _))

def readSid (domain : Option DomSid) (sid : DomSid) : DomSid :=
  if WellKnown sid then sid.printed
  else
    match domain, ridCode domain sid with
    | some domain, some e => domSidAddRid domain e.2
    | _, _ => sid.printed

theorem sddlEncodeSid_cases (h : sddlEncodeSid domain sid = .ok text) :
    (∃ e ∈ wellKnownSids, e.2 = sid.text ∧ text = e.1) ∨
    (RidCoded domain sid ∧ ∃ e ∈ domainRids, ridCode domain sid = some e ∧ text = e.1) ∨
    (Numeric domain sid ∧ text = sid.text) := by
  rw [sddlEncodeSid] at h
  simp only [domSidString_some] at h
  cases hknown : wellKnownSids.find? fun e => e.2 == sid.text with
  | some e =>
    rw [hknown] at h
    cases h
    exact .inl ⟨e, mem_of_find?_eq_some hknown, by simpa using find?_some hknown, rfl⟩
  | none =>
    have hnot : ¬WellKnown sid := by
      rintro ⟨e, he, htext⟩
      rw [find?_eq_none] at hknown
      exact hknown e he (by simpa using htext)
    simp only [hknown] at h
    by_cases hin : domSidInDomain domain sid = true
    · rw [if_pos hin] at h
      cases hlast : sid.subAuths.getLast? with
      | none => simp [hlast] at h
      | some rid =>
        simp only [hlast] at h
        cases hrid : domainRids.find? fun e => e.2 == rid with
        | some e =>
          simp only [hrid, Except.ok.injEq] at h
          have hcode : ridCode domain sid = some e := by simp [ridCode, hin, hlast, hrid]
          exact .inr (.inl ⟨⟨hnot, by rw [hcode]; rfl⟩, e,
            mem_of_find?_eq_some hrid, hcode, h.symm⟩)
        | none =>
          simp only [hrid, Except.ok.injEq] at h
          have hcode : ridCode domain sid = none := by simp [ridCode, hin, hlast, hrid]
          exact .inr (.inr ⟨⟨hnot, by rw [hcode]; rfl⟩, h.symm⟩)
    · rw [if_neg hin, Except.ok.injEq] at h
      have hcode : ridCode domain sid = none := by simp [ridCode, hin]
      exact .inr (.inr ⟨⟨hnot, by rw [hcode]; rfl⟩, h.symm⟩)

/-- A text that is at its end, or goes on with a capital letter. -/
def PartEnd (rest : List Char) : Prop := ∀ c, rest.head? = some c → c.isUpper = true

theorem partEnd_nil : PartEnd [] := by
  intro c hc
  cases hc

theorem PartEnd.ends (h : PartEnd rest) : Ends rest := by
  intro c hc
  have hupper : _ ∧ _ := of_decide_eq_true (h c hc)
  refine ⟨?_, ?_⟩
  · rw [Bool.eq_false_iff]
    intro hdigit
    simp only [Char.isDigit, Bool.and_eq_true, decide_eq_true_eq] at hdigit
    exact absurd (UInt32.le_trans hupper.1 hdigit.2) (by decide)
  · rintro rfl
    exact absurd hupper.1 (by decide)

theorem isPrefixOf_append {a b : List Char} (h : a.length = b.length) (rest : List Char) :
    a.isPrefixOf (b ++ rest) = (a == b) := by
  rw [Bool.eq_iff_iff, isPrefixOf_iff_prefix, beq_iff_eq]
  constructor
  · intro hpre
    exact (prefix_of_prefix_length_le hpre (prefix_append b rest)
      (Nat.le_of_eq h)).eq_of_length h
  · rintro rfl
    exact prefix_append a rest

theorem find_code {α : Type} {table : List (List Char × α)} (htable : ∀ e ∈ table, e.1.length = 2)
    {code : List Char} (hcode : code.length = 2) (rest : List Char) :
    (table.find? fun e => e.1.isPrefixOf (code ++ rest)) = table.find? fun e => e.1 == code := by
  induction table with
  | nil => rfl
  | cons e table ih =>
    obtain ⟨he, htable⟩ := forall_mem_cons.mp htable
    rw [find?_cons, find?_cons, ih htable, isPrefixOf_append (he.trans hcode.symm)]

theorem wellKnownSids_codes : ∀ e ∈ wellKnownSids, e.1.length = 2 ∧ (['S', '-'] == e.1) = false ∧
    (wellKnownSids.find? fun e' => e'.1 == e.1) = some e := by decide

theorem domainRids_codes : ∀ e ∈ domainRids, e.1.length = 2 ∧ (['S', '-'] == e.1) = false ∧
    (wellKnownSids.find? fun e' => e'.1 == e.1) = none ∧
    (domainRids.find? fun e' => e'.1 == e.1) = some e := by decide

theorem decode_wellKnown (domain : Option DomSid) {e : List Char × List Char}
    (he : e ∈ wellKnownSids) (htext : e.2 = sid.text) (rest : List Char) :
    sddlDecodeSid domain (e.1 ++ rest) = .ok (sid.printed, rest) := by
  obtain ⟨hlen, hplain, hfind⟩ := wellKnownSids_codes e he
  have hparse := domSidParseTalloc_text sid ends_nil
  rw [List.append_nil, if_neg (by simp), ← htext] at hparse
  have hdrop : (e.1 ++ rest).drop 2 = rest := by rw [← hlen, List.drop_left]
  rw [sddlDecodeSid, isPrefixOf_append (by rw [hlen]; rfl), hplain, if_neg (by simp),
    find_code (fun e he => (wellKnownSids_codes e he).1) hlen, hfind]
  simp only [hparse, hdrop]

theorem decode_ridCode (domain : DomSid) {e : List Char × UInt32} (he : e ∈ domainRids)
    (rest : List Char) :
    sddlDecodeSid (some domain) (e.1 ++ rest) = .ok (domSidAddRid domain e.2, rest) := by
  obtain ⟨hlen, hplain, hnone, hfind⟩ := domainRids_codes e he
  have hdrop : (e.1 ++ rest).drop 2 = rest := by rw [← hlen, drop_left]
  rw [sddlDecodeSid, isPrefixOf_append (by rw [hlen]; rfl), hplain, if_neg (by simp),
    find_code (fun e he => (wellKnownSids_codes e he).1) hlen, hnone]
  rw [find_code (fun e he => (domainRids_codes e he).1) hlen, hfind]
  simp only [hdrop]

theorem decode_numeric (domain : Option DomSid) (sid : DomSid) (hrest : Ends rest) :
    sddlDecodeSid domain (sid.text ++ rest) =
      if '-' ∈ rest then .error .null else .ok (sid.printed, rest) := by
  have hpre : ['S', '-'].isPrefixOf (sid.text ++ rest) = true := rfl
  have hdrop : (sid.text ++ rest).drop 2 = sid.text.drop 2 ++ rest := rfl
  have hskip : ((sid.text ++ rest).drop 2).dropWhile (fun c => c == '-' || c.isDigit) = rest := by
    rw [hdrop, dropWhile_append_of_pos]
    · cases rest with
      | nil => rfl
      | cons c cs =>
        obtain ⟨hdigit, hdash⟩ := hrest c rfl
        simp [hdigit, hdash]
    · intro c hc
      rcases sid.text_chars hc with rfl | hdigit
      · rfl
      · simp [hdigit]
  rw [sddlDecodeSid, if_pos hpre, domSidParseTalloc_text sid hrest, hskip]
  by_cases hdash : '-' ∈ rest
  · rw [if_pos hdash, if_pos hdash]
  · rw [if_neg hdash, if_neg hdash]

/-- **Reading back a SID.** It is read as `readSid` says, unless it is written in numbers
and there is a dash further on. -/
theorem sddlDecodeSid_encoded (h : sddlEncodeSid domain sid = .ok text) (hrest : Ends rest) :
    sddlDecodeSid domain (text ++ rest) =
      if Numeric domain sid ∧ '-' ∈ rest then .error .null
      else .ok (readSid domain sid, rest) := by
  rcases sddlEncodeSid_cases h with ⟨e, he, htext, rfl⟩ | ⟨⟨hnot, hsome⟩, e, he, hcode, rfl⟩ |
    ⟨hnum, rfl⟩
  · have hknown : WellKnown sid := ⟨e, he, htext⟩
    rw [decode_wellKnown domain he htext, if_neg fun hnum => hnum.1.1 hknown]
    simp only [readSid, hknown, if_true]
  · have hin : domSidInDomain domain sid = true := by
      by_contra hin
      simp [ridCode, hin] at hcode
    cases domain with
    | none => cases hin
    | some domain =>
      rw [decode_ridCode domain he, if_neg fun hnum => by simp [hnum.1.2] at hsome]
      simp only [readSid, hnot, if_false, hcode]
  · have hread : readSid domain sid = sid.printed := by
      have hcode : ridCode domain sid = none := by simpa using hnum.2
      simp only [readSid, hcode, ite_self]
    rw [decode_numeric domain sid hrest, hread]
    simp [hnum]

/-! ## ACEs -/

/-- The type that is read back: `OA` is also what compound ACEs are written as. -/
def readType (type : BitVec 32) : BitVec 32 := if type = 4 then 5 else type

/-- What is read back of a GUID, with its presence flag. -/
def readGuid (ace : SecurityAce) (present : BitVec 32) (guid : Guid) : BitVec 32 × Guid :=
  if guidsPrinted ace.type ∧ ace.object.flags &&& present ≠ 0 then (present, guid)
  else (0, guidZero)

def readObject (ace : SecurityAce) : AceObject :=
  let object := readGuid ace 1 ace.object.type
  let inherited := readGuid ace 2 ace.object.inheritedType
  ⟨object.1 ||| inherited.1, object.2, inherited.2⟩

def readAce (domain : Option DomSid) (ace : SecurityAce) : SecurityAce :=
  { ace with type := readType ace.type, object := readObject ace,
             trustee := readSid domain ace.trustee }

theorem tokens_append {n : Nat} {tok : List Char} (h : ';' ∉ tok) :
    tokens (n + 1) (tok ++ ';' :: rest) = (tokens n rest).map (tok :: ·) := by
  have hall : ∀ c ∈ tok, (c != ';') = true := by
    intro c hc
    rw [bne_iff_ne]
    rintro rfl
    exact h hc
  rw [tokens, dropWhile_append_of_pos hall, takeWhile_append_of_pos hall]
  simp

theorem read_type {type : BitVec 32} (hle : type.toNat ≤ 8)
    (h : aceTypes.toText type true = some text) :
    aceTypes.read text = some (readType type, []) := by
  have hall : ∀ t : Fin 9, (aceTypes.toText (BitVec.ofNat 32 t) true).bind aceTypes.read =
      some (readType (BitVec.ofNat 32 t), []) := by decide
  have htype := hall ⟨type.toNat, by omega⟩
  rwa [BitVec.ofNat_toNat, BitVec.setWidth_eq, h] at htype

theorem read_flags {flags : BitVec 8} (h : aceFlags.toText (flags.setWidth 32) true = some text) :
    aceFlags.read text = some (flags.setWidth 32, []) := by
  have hread := read_toText aceFlags_coded aceFlags_singleBits h noUpper_nil
  rwa [List.append_nil, and_bits_of_toText aceFlags_singleBits h] at hread

theorem decodeMask_maskText (mask : BitVec 32) : decodeMask (maskText mask) = some mask := by
  rw [maskText]
  cases htext : aceAccessMask.toText mask true with
  | some text =>
    -- a name does not look like a number
    have hplain : ['0', 'x'].isPrefixOf text = false := by
      cases text with
      | nil => rfl
      | cons c cs =>
        have hupper := isUpper_of_mem_toText (.tail _ (.tail _ (.head _))) htext (mem_cons_self ..)
        have hc : ('0' == c) = false := by
          rw [beq_eq_false_iff_ne]
          rintro rfl
          exact absurd hupper (by decide)
        simp [isPrefixOf, hc]
    have hread := read_toText aceAccessMask_coded aceAccessMask_singleBits htext
      noUpper_nil
    rw [List.append_nil, and_bits_of_toText aceAccessMask_singleBits htext] at hread
    rw [decodeMask, hplain, hread]
    rfl
  | none =>
    have hlt : mask.toNat < 16 ^ 8 := mask.isLt
    have hread := readHex_hexPad 8 2 0 [] hlt
    have hdigits : (readHex 10 0 (hexPad 8 mask.toNat)).1 = mask.toNat := by
      rw [List.append_nil] at hread
      rw [hread]
      simp [readHex]
    have hprefix : ['0', 'x'].isPrefixOf ('0' :: 'x' :: hexPad 8 mask.toNat) = true := rfl
    rw [decodeMask, if_pos hprefix, strtolHex]
    simp only [List.length_cons, length_hexPad, List.drop_succ_cons, List.drop_zero]
    rw [hdigits, Nat.min_eq_right (by omega), BitVec.ofNat_toNat, BitVec.setWidth_eq]

theorem decodeGuid_guidText (ace : SecurityAce) (present : BitVec 32) (guid : Guid) :
    decodeGuid (guidText ace present guid) present = some (readGuid ace present guid) := by
  rw [guidText, readGuid]
  split
  · have hne : guidString guid ≠ [] := ne_nil_of_mem (dash_mem_guidString guid)
    rw [decodeGuid, guidFromString_guidString]
    rfl
  · rfl

theorem sddlEncodeAce_eq (h : sddlEncodeAce domain ace = .ok text) :
    ∃ type flags trustee, aceTypes.toText ace.type true = some type ∧
      aceFlags.toText (ace.flags.setWidth 32) true = some flags ∧
      sddlEncodeSid domain ace.trustee = .ok trustee ∧
      text = type ++ ';' :: (flags ++ ';' :: (maskText ace.accessMask ++
        ';' :: (guidText ace 1 ace.object.type ++
          ';' :: (guidText ace 2 ace.object.inheritedType ++ ';' :: trustee)))) := by
  rw [sddlEncodeAce] at h
  cases htype : aceTypes.toText ace.type true with
  | none => simp [htype] at h
  | some type =>
    cases hflags : aceFlags.toText (ace.flags.setWidth 32) true with
    | none => simp [htype, hflags] at h
    | some flags =>
      cases htrustee : sddlEncodeSid domain ace.trustee with
      | error e => simp [htype, hflags, htrustee] at h
      | ok trustee =>
        simp only [htype, hflags, htrustee, Except.ok.injEq] at h
        exact ⟨type, flags, trustee, rfl, rfl, rfl, h.symm⟩

def IsMark (c : Char) : Prop := c = ';' ∨ c = ')' ∨ c = '('

def fieldChar (c : Char) : Bool :=
  c.isUpper || c.isDigit || ['-', 'x', 'a', 'b', 'c', 'd', 'e', 'f'].contains c

theorem fieldChar_of_isUpper (h : c.isUpper = true) : fieldChar c = true := by
  simp [fieldChar, h]

theorem fieldChar_digitChar {d : Nat} (hd : d < 16) :
    fieldChar (Nat.digitChar d) = true ∧ Nat.digitChar d ≠ '-' := by
  have hall : ∀ d : Fin 16, fieldChar (Nat.digitChar d) = true ∧ Nat.digitChar d ≠ '-' := by
    decide
  exact hall ⟨d, hd⟩

theorem IsMark.not_mem (h : IsMark c) (htext : ∀ c ∈ text, fieldChar c = true) : c ∉ text := by
  intro hc
  have hfield := htext c hc
  rcases h with rfl | rfl | rfl <;> exact absurd hfield (by decide)

theorem IsMark.not_mem_toText (h : IsMark c) {map : FlagMap 32} (hmap : map ∈ flagMaps)
    {flags : BitVec 32} {checkAll : Bool} (htext : map.toText flags checkAll = some text) :
    c ∉ text :=
  h.not_mem fun _ hc => fieldChar_of_isUpper (isUpper_of_mem_toText hmap htext hc)

theorem maskText_chars (mask : BitVec 32) : ∀ c ∈ maskText mask, fieldChar c = true ∧ c ≠ '-' := by
  intro c h
  rw [maskText] at h
  cases htext : aceAccessMask.toText mask true with
  | some text =>
    rw [htext] at h
    have hupper := isUpper_of_mem_toText (by decide) htext h
    refine ⟨fieldChar_of_isUpper hupper, ?_⟩
    rintro rfl
    exact absurd hupper (by decide)
  | none =>
    rw [htext] at h
    simp only [mem_cons] at h
    rcases h with rfl | rfl | h
    · decide
    · decide
    · obtain ⟨d, hd, rfl⟩ := exists_of_mem_hexPad h
      exact fieldChar_digitChar hd

theorem guidText_chars (ace : SecurityAce) (present : BitVec 32) (guid : Guid) :
    ∀ c ∈ guidText ace present guid, fieldChar c = true := by
  intro c h
  rw [guidText] at h
  split at h
  · rcases guidString_chars h with rfl | ⟨d, hd, rfl⟩
    · decide
    · exact (fieldChar_digitChar hd).1
  · cases h

theorem sidCodes_chars : (∀ e ∈ wellKnownSids, e.1.all Char.isUpper = true) ∧
    ∀ e ∈ domainRids, e.1.all Char.isUpper = true := by decide

theorem sddlEncodeSid_chars (h : sddlEncodeSid domain sid = .ok text) :
    ∀ c ∈ text, fieldChar c = true := by
  intro c hc
  rcases sddlEncodeSid_cases h with ⟨e, he, -, rfl⟩ | ⟨-, e, he, -, rfl⟩ | ⟨-, rfl⟩
  · exact fieldChar_of_isUpper (all_eq_true.mp (sidCodes_chars.1 e he) c hc)
  · exact fieldChar_of_isUpper (all_eq_true.mp (sidCodes_chars.2 e he) c hc)
  · have htext : sid.text = 'S' :: '-' :: sid.text.drop 2 := rfl
    rw [htext] at hc
    simp only [mem_cons] at hc
    rcases hc with rfl | rfl | hc
    · decide
    · decide
    · rcases sid.text_chars hc with rfl | hdigit
      · decide
      · simp [fieldChar, hdigit]

/-- **Reading back an ACE.** -/
theorem sddlDecodeAce_encoded (htype : ace.type.toNat ≤ 8)
    (h : sddlEncodeAce domain ace = .ok text) :
    sddlDecodeAce domain text = .ok (readAce domain ace) := by
  obtain ⟨type, flags, trustee, htypeText, hflagsText, htrustee, rfl⟩ := sddlEncodeAce_eq h
  have hsemi : IsMark ';' := .inl rfl
  have htokens : tokens 5 (type ++ ';' :: (flags ++ ';' :: (maskText ace.accessMask ++
      ';' :: (guidText ace 1 ace.object.type ++
        ';' :: (guidText ace 2 ace.object.inheritedType ++ ';' :: trustee))))) =
      some [type, flags, maskText ace.accessMask, guidText ace 1 ace.object.type,
        guidText ace 2 ace.object.inheritedType, trustee] := by
    rw [tokens_append (hsemi.not_mem_toText (by decide) htypeText),
      tokens_append (hsemi.not_mem_toText (by decide) hflagsText),
      tokens_append (hsemi.not_mem fun c hc => (maskText_chars _ c hc).1),
      tokens_append (hsemi.not_mem (guidText_chars _ _ _)),
      tokens_append (hsemi.not_mem (guidText_chars _ _ _))]
    rfl
  have hsid := sddlDecodeSid_encoded htrustee ends_nil
  rw [List.append_nil, if_neg (by simp)] at hsid
  rw [sddlDecodeAce, htokens]
  simp only [read_type htype htypeText, read_flags hflagsText, decodeMask_maskText,
    decodeGuid_guidText, hsid, BitVec.setWidth_setWidth_of_le _ (by decide : 8 ≤ 32),
    BitVec.setWidth_eq]
  rfl

theorem bracket_not_mem_ace {domain : Option DomSid} {ace : SecurityAce} {text : List Char}
    (h : sddlEncodeAce domain ace = .ok text) {c : Char} (hc : c = ')' ∨ c = '(') : c ∉ text := by
  obtain ⟨type, flags, trustee, htypeText, hflagsText, htrustee, rfl⟩ := sddlEncodeAce_eq h
  have hmark : IsMark c := .inr hc
  have hne : c ≠ ';' := by rcases hc with rfl | rfl <;> decide
  simp only [mem_append, mem_cons, not_or]
  exact ⟨hmark.not_mem_toText (by decide) htypeText, hne,
    hmark.not_mem_toText (by decide) hflagsText, hne,
    hmark.not_mem fun c hc => (maskText_chars _ c hc).1, hne, hmark.not_mem (guidText_chars _ _ _),
    hne, hmark.not_mem (guidText_chars _ _ _), hne, hmark.not_mem (sddlEncodeSid_chars htrustee)⟩

/-! ## Dashes -/

theorem dash_mem_sid (h : sddlEncodeSid domain sid = .ok text) :
    '-' ∈ text ↔ Numeric domain sid := by
  rcases sddlEncodeSid_cases h with ⟨e, he, htext, rfl⟩ | ⟨hrid, e, he, -, rfl⟩ | ⟨hnum, rfl⟩
  · refine iff_of_false (fun hc => ?_) fun hnum => hnum.1 ⟨e, he, htext⟩
    exact absurd (all_eq_true.mp (sidCodes_chars.1 e he) _ hc) (by decide)
  · refine iff_of_false (fun hc => ?_) fun hnum => by simp [RidCoded, hnum.2] at hrid
    exact absurd (all_eq_true.mp (sidCodes_chars.2 e he) _ hc) (by decide)
  · exact iff_of_true (mem_cons_of_mem _ (mem_cons_self ..)) hnum

/-- An ACE with a dash in its text: in the trustee or in a GUID. -/
def AceDashed (domain : Option DomSid) (ace : SecurityAce) : Prop :=
  Numeric domain ace.trustee ∨
    (guidsPrinted ace.type = true ∧ (ace.object.flags &&& 1 ≠ 0 ∨ ace.object.flags &&& 2 ≠ 0))

instance (domain : Option DomSid) (ace : SecurityAce) : Decidable (AceDashed domain ace) :=
  inferInstanceAs (Decidable (_ ∨ _))

theorem dash_mem_guidText (ace : SecurityAce) (present : BitVec 32) (guid : Guid) :
    '-' ∈ guidText ace present guid ↔
      guidsPrinted ace.type = true ∧ ace.object.flags &&& present ≠ 0 := by
  rw [guidText]
  split
  · exact iff_of_true (dash_mem_guidString guid) ‹_›
  · exact iff_of_false (by simp) ‹_›

theorem dash_mem_ace (h : sddlEncodeAce domain ace = .ok text) :
    '-' ∈ text ↔ AceDashed domain ace := by
  obtain ⟨type, flags, trustee, htypeText, hflagsText, htrustee, rfl⟩ := sddlEncodeAce_eq h
  have hupper : ∀ {map : FlagMap 32}, map ∈ flagMaps → ∀ {flags : BitVec 32} {text : List Char},
      map.toText flags true = some text → '-' ∉ text := by
    intro map hmap flags text htext hc
    exact absurd (isUpper_of_mem_toText hmap htext hc) (by decide)
  have htype := hupper (by decide) htypeText
  have hflags := hupper (by decide) hflagsText
  have hmask : '-' ∉ maskText ace.accessMask := fun hc => (maskText_chars _ _ hc).2 rfl
  have hsemi : '-' ≠ ';' := by decide
  simp only [mem_append, mem_cons, htype, hflags, hmask, hsemi, false_or,
    dash_mem_guidText, dash_mem_sid htrustee, AceDashed]
  rw [← or_assoc, ← and_or_left, or_comm]

end OpenvasSmb.Security

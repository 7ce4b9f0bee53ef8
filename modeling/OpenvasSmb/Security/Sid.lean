import Mathlib.Data.Vector.Defs
import OpenvasSmb.Kit.Text

/-!
# Security identifiers (`libcli/security/dom_sid.c`)

A SID is a revision, a six-octet identifier authority and a list of sub-authorities. Its text is
`S-`, the revision, the authority as one number and the sub-authorities, with dashes between them;
only the four low octets of the authority get into that number.

`dom_sid_parse_talloc` counts the sub-authorities as the dashes in *all* of the text it is given;
`domSidParseTalloc_text` says what that makes of a SID that something follows.
-/

namespace OpenvasSmb.Security

open Kit UInt8 Nat
open List hiding Vector

variable {c : Char} {rest : List Char} {n : Nat}

/-- `struct dom_sid`. The number of sub-authorities is an `int8_t`. -/
structure DomSid where
  sidRevNum : UInt8
  idAuth : Vector UInt8 6
  subAuths : List UInt32
  short : subAuths.length ≤ 127
deriving DecidableEq

variable (sid : DomSid)

/-- `id_auth[i]`. -/
def DomSid.octet (i : Nat) : UInt8 := sid.idAuth.toList.getD i 0

variable (sid : DomSid)

theorem DomSid.octet_eq {i : Nat} (h : i < 6) : sid.octet i = sid.idAuth[i] := by
  simp [octet, h]

/-- The low four octets of the authority, as a number. -/
def DomSid.ia : Nat :=
  (sid.octet 5).toNat + (sid.octet 4).toNat * 2 ^ 8 + (sid.octet 3).toNat * 2 ^ 16 +
    (sid.octet 2).toNat * 2 ^ 24

def subAuthText (v : UInt32) : List Char := '-' :: toDigits 10 v.toNat

/-- What `dom_sid_string` prints of a SID. -/
def DomSid.text : List Char :=
  'S' :: '-' :: (toDigits 10 sid.sidRevNum.toNat ++
    ('-' :: toDigits 10 sid.ia ++ sid.subAuths.flatMap subAuthText))

/-- The checks of `dom_sid_string` against the size of its buffer. -/
def inBuffer (maxlen : Nat) (text : List Char) : List Char :=
  if text.length < maxlen then text else "(SID ERR)".toList

def domSidString : Option DomSid → List Char
  | none => "(NULL SID)".toList
  | some sid => inBuffer (sid.subAuths.length * 11 + 25) sid.text

/-- The number of sub-authorities in its `int8_t`; loops over a negative one end at once. -/
def numAuths (n : Nat) : Nat := if n % 256 < 128 then n % 256 else 0

/-- A SID with the sub-authorities that are counted in `num_auths`. -/
def DomSid.make (sidRevNum : UInt8) (idAuth : Vector UInt8 6) (subAuths : List UInt32) :
    DomSid where
  sidRevNum := sidRevNum
  idAuth := idAuth
  subAuths := subAuths.take (numAuths subAuths.length)
  short := by
    rw [List.length_take, numAuths]
    split <;> omega

/-- The last loop of `dom_sid_parse_talloc`, over the counted sub-authorities. -/
def parseSubAuths : Nat → List Char → Option (List UInt32)
  | 0, _ => some []
  | n + 1, sidstr =>
    match sidstr with
    | '-' :: sidstr =>
      let (v, p) := strtoul sidstr
      if p = sidstr then none
      else (parseSubAuths n p).map (UInt32.ofNat v :: ·)
    | _ => none

/-- The authority that `dom_sid_parse_talloc` makes of a number. -/
def idAuthOf (ia : Nat) : Vector UInt8 6 :=
  #v[0, 0, ofNat (ia / 2 ^ 24), ofNat (ia / 2 ^ 16), ofNat (ia / 2 ^ 8),
    ofNat ia]

variable (sidstr : List Char)

/-- `dom_sid_parse_talloc` from the revision on. -/
def parseParts : Option DomSid :=
  let (rev, p) := strtol sidstr
  match p with
  | '-' :: sidstr =>
    let (ia, p) := strtol sidstr
    if p = sidstr then none
    else
      (parseSubAuths (p.count '-') p).map
        (DomSid.make (ofNat (rev % 2 ^ 32).toNat) (idAuthOf (ia % 2 ^ 32).toNat))
  | _ => none

def domSidParseTalloc : Option DomSid :=
  match sidstr with
  | c :: '-' :: sidstr => if c = 'S' ∨ c = 's' then parseParts sidstr else none
  | _ => none

def domSidAddRid (domain : DomSid) (rid : UInt32) : DomSid :=
  .make domain.sidRevNum domain.idAuth (domain.subAuths ++ [rid])

/-- `dom_sid_in_domain`: the domain need only be a first part of the SID. -/
def domSidInDomain (domain : Option DomSid) (sid : DomSid) : Bool :=
  match domain with
  | none => false
  | some domain =>
    domain.subAuths.isPrefixOf sid.subAuths && domain.sidRevNum == sid.sidRevNum &&
      domain.idAuth == sid.idAuth

/-! ## The text of a SID -/

theorem length_toDigits_le {k : Nat} (hk : 0 < k) (hn : n < 10 ^ k) :
    (toDigits 10 n).length ≤ k :=
  (length_toDigits_le_iff (by decide) hk).mpr hn

theorem DomSid.ia_lt : sid.ia < 2 ^ 32 := by
  have h5 := (sid.octet 5).toNat_lt
  have h4 := (sid.octet 4).toNat_lt
  have h3 := (sid.octet 3).toNat_lt
  have h2 := (sid.octet 2).toNat_lt
  rw [ia]
  omega

theorem length_subAuthTexts (subs : List UInt32) :
    (subs.flatMap subAuthText).length ≤ subs.length * 11 := by
  induction subs with
  | nil => exact le_refl _
  | cons v subs ih =>
    have hv := length_toDigits_le (n := v.toNat) (k := 10) (by decide)
      (by have := v.toNat_lt; omega)
    simp only [flatMap_cons, length_append, length_cons, subAuthText]
    omega

theorem DomSid.length_text :
    sid.text.length = (toDigits 10 sid.sidRevNum.toNat).length +
      (toDigits 10 sid.ia).length + (sid.subAuths.flatMap subAuthText).length + 3 := by
  rw [text, length_cons, length_cons, length_append, length_append, length_cons]
  ac_rfl

/-- The buffer of `dom_sid_string` is large enough for every SID. -/
@[simp] theorem domSidString_some : domSidString (some sid) = sid.text := by
  have hrev : (toDigits 10 sid.sidRevNum.toNat).length ≤ 3 :=
    length_toDigits_le (by decide) (by have := sid.sidRevNum.toNat_lt; omega)
  have hia : (toDigits 10 sid.ia).length ≤ 10 :=
    length_toDigits_le (by decide) (by have := sid.ia_lt; omega)
  have hsubs := length_subAuthTexts sid.subAuths
  have hlen := sid.length_text
  show inBuffer (sid.subAuths.length * 11 + 25) sid.text = sid.text
  rw [inBuffer, if_pos (by omega)]

theorem isDigit_of_mem_digits (h : c ∈ toDigits 10 n) : c.isDigit = true :=
  isDigit_of_mem_toDigits (by decide) (by decide) h

theorem dash_not_mem_digits (n : Nat) : '-' ∉ toDigits 10 n := by
  intro h
  exact absurd (isDigit_of_mem_digits h) (by decide)

theorem subAuthTexts_chars {subs : List UInt32} (h : c ∈ subs.flatMap subAuthText) :
    c = '-' ∨ c.isDigit = true := by
  obtain ⟨v, -, hc⟩ := mem_flatMap.mp h
  rcases mem_cons.mp hc with rfl | hc
  · exact .inl rfl
  · exact .inr (isDigit_of_mem_digits hc)

theorem DomSid.text_chars {sid : DomSid} (h : c ∈ sid.text.drop 2) :
    c = '-' ∨ c.isDigit = true := by
  simp only [text, drop_succ_cons, drop_zero, mem_append, mem_cons] at h
  rcases h with h | (rfl | h) | h
  · exact .inr (isDigit_of_mem_digits h)
  · exact .inl rfl
  · exact .inr (isDigit_of_mem_digits h)
  · exact subAuthTexts_chars h

/-! ## Reading it back -/

/-- A text that goes on with neither a digit nor a dash. -/
def Ends (rest : List Char) : Prop := ∀ c, rest.head? = some c → c.isDigit = false ∧ c ≠ '-'

theorem Ends.noDigit (h : Ends rest) : NoDigit rest := fun c hc => (h c hc).1

theorem ends_nil : Ends [] := by
  intro c hc
  cases hc

theorem noDigit_dash (s : List Char) : NoDigit ('-' :: s) := by
  intro c hc
  cases hc
  decide

/-- A decimal number below `bound`. -/
def fits (bound : Nat) (ds : List Char) : Bool := isDecimal ds && decimalValue ds < bound

theorem fits_iff {bound : Nat} {ds : List Char} :
    fits bound ds = true ↔ isDecimal ds = true ∧ decimalValue ds < bound := by
  rw [fits, Bool.and_eq_true, decide_eq_true_eq]

theorem fits_toDigits {bound : Nat} (h : n < bound) : fits bound (toDigits 10 n) = true :=
  fits_iff.mpr ⟨isDecimal_toDigits n, by rwa [decimalValue_toDigits]⟩

theorem dash_not_mem {ds : List Char} (h : isDecimal ds = true) : '-' ∉ ds := by
  rw [isDecimal, Bool.and_eq_true, all_eq_true] at h
  exact fun hmem => absurd (h.2 '-' hmem) (by decide)

/-- Numbers, with a dash in front of each. -/
def dashed (texts : List (List Char)) : List Char := texts.flatMap ('-' :: ·)

theorem noDigit_dashed (texts : List (List Char)) (h : Ends rest) :
    NoDigit (dashed texts ++ rest) := by
  cases texts with
  | nil => exact h.noDigit
  | cons t texts => exact noDigit_dash _

theorem strtoul_decimal {ds : List Char} (hds : fits (2 ^ 32) ds = true) (hrest : NoDigit rest) :
    strtoul (ds ++ rest) = (decimalValue ds, rest) := by
  obtain ⟨hdecimal, hlt⟩ := fits_iff.mp hds
  rw [strtoul, readNumber_decimal _ hdecimal hrest rfl, if_neg (by omega)]
  rfl

theorem ne_decimal_append {ds : List Char} (h : isDecimal ds = true) (rest : List Char) :
    rest ≠ ds ++ rest := by
  intro heq
  cases self_eq_append_left.mp heq
  cases h

section Texts

variable {texts : List (List Char)} (htexts : ∀ t ∈ texts, fits (2 ^ 32) t = true)
include htexts

/-- As many sub-authorities are read as there are dashes. A dash further on makes one more
expected than there is. -/
theorem parseSubAuths_dashed (extra : Nat) (hrest : Ends rest) :
    parseSubAuths (texts.length + extra) (dashed texts ++ rest) =
      if extra = 0 then some (texts.map fun t => UInt32.ofNat (decimalValue t)) else none := by
  induction texts with
  | nil =>
    cases extra with
    | zero => rfl
    | succ extra =>
      show parseSubAuths (0 + (extra + 1)) rest = none
      cases rest with
      | nil => rfl
      | cons c cs =>
        have hc : c ≠ '-' := (hrest c rfl).2
        simp [parseSubAuths, hc]
  | cons t texts ih =>
    have ht := htexts t (mem_cons_self ..)
    have hread := strtoul_decimal ht (noDigit_dashed texts hrest)
    have htext : dashed (t :: texts) ++ rest = '-' :: (t ++ (dashed texts ++ rest)) := by
      simp [dashed]
    rw [htext, length_cons, Nat.add_right_comm, parseSubAuths]
    simp only [hread, if_neg (ne_decimal_append (fits_iff.mp ht).1 _),
      ih fun t hmem => htexts t (mem_cons_of_mem _ hmem)]
    split <;> simp [*]

theorem count_dashed : (dashed texts).count '-' = texts.length := by
  induction texts with
  | nil => rfl
  | cons t texts ih =>
    have ht := dash_not_mem (fits_iff.mp (htexts t (mem_cons_self ..))).1
    rw [dashed, flatMap_cons, count_append, count_cons_self,
      count_eq_zero_of_not_mem ht, length_cons]
    have := ih fun t hmem => htexts t (mem_cons_of_mem _ hmem)
    rw [dashed] at this
    omega

/-- The dashes behind the numbers are counted too. -/
theorem parseParts_numbers {rev ia : List Char} (hrev : fits (2 ^ 8) rev = true)
    (hia : fits (2 ^ 32) ia = true) (hrest : Ends rest) :
    parseParts (rev ++ ('-' :: (ia ++ (dashed texts ++ rest)))) =
      if '-' ∈ rest then none
      else some (DomSid.make (ofNat (decimalValue rev)) (idAuthOf (decimalValue ia))
        (texts.map fun t => UInt32.ofNat (decimalValue t))) := by
  obtain ⟨hrev, hrevLt⟩ := fits_iff.mp hrev
  obtain ⟨hia, hiaLt⟩ := fits_iff.mp hia
  have hreadRev := strtol_decimal hrev (by omega)
    (noDigit_dash (ia ++ (dashed texts ++ rest))) rfl
  have hreadIa := strtol_decimal hia (by omega) (noDigit_dashed texts hrest) rfl
  have hcount : (dashed texts ++ rest).count '-' = texts.length + rest.count '-' := by
    rw [count_append, count_dashed htexts]
  have hrevWord : ((decimalValue rev : Int) % 2 ^ 32).toNat = decimalValue rev := by omega
  have hiaWord : ((decimalValue ia : Int) % 2 ^ 32).toNat = decimalValue ia := by omega
  simp only [parseParts, hreadRev, hreadIa, if_neg (ne_decimal_append hia _), hcount,
    parseSubAuths_dashed htexts _ hrest, hrevWord, hiaWord, count_eq_zero]
  by_cases hdash : '-' ∈ rest
  · simp [hdash]
  · simp [hdash]

end Texts

theorem numAuths_of_le (h : n ≤ 127) : numAuths n = n := by
  rw [numAuths]
  split <;> omega

theorem DomSid.make_of_short {rev : UInt8} {auth : Vector UInt8 6} {subs : List UInt32}
    (h : subs.length ≤ 127) : make rev auth subs = ⟨rev, auth, subs, h⟩ := by
  simp [make, numAuths_of_le h]

/-- What is left of a SID in its text: the two high octets of the authority are lost. -/
def DomSid.printed : DomSid := { sid with idAuth := idAuthOf sid.ia }

theorem DomSid.printed_eq_iff : sid.printed = sid ↔ sid.octet 0 = 0 ∧ sid.octet 1 = 0 := by
  have h5 := (sid.octet 5).toNat_lt
  have h4 := (sid.octet 4).toNat_lt
  have h3 := (sid.octet 3).toNat_lt
  have h2 := (sid.octet 2).toNat_lt
  have hauth : sid.printed = sid ↔ idAuthOf sid.ia = sid.idAuth := by
    cases sid
    simp [printed]
  rw [hauth]
  constructor
  · intro h
    rw [octet_eq sid (by decide), octet_eq sid (by decide), ← h]
    exact ⟨rfl, rfl⟩
  · rintro ⟨hzero, hone⟩
    apply Vector.ext
    intro i hi
    apply UInt8.toNat_inj.mp
    rw [← octet_eq sid hi]
    rcases i with _ | _ | _ | _ | _ | _ | i
    · exact congrArg toNat hzero.symm
    · exact congrArg toNat hone.symm
    · simp [idAuthOf, ia]; omega
    · simp [idAuthOf, ia]; omega
    · simp [idAuthOf, ia]; omega
    · simp [idAuthOf, ia]
    · omega

/-- The numbers of the sub-authorities. -/
def DomSid.subTexts : List (List Char) :=
  sid.subAuths.map fun v => toDigits 10 v.toNat

theorem DomSid.dashed_subTexts : dashed sid.subTexts = sid.subAuths.flatMap subAuthText :=
  flatMap_map ..

theorem DomSid.fits_subTexts : ∀ t ∈ sid.subTexts, fits (2 ^ 32) t = true := by
  intro t ht
  obtain ⟨v, -, rfl⟩ := mem_map.mp ht
  exact fits_toDigits v.toNat_lt

theorem domSidParseTalloc_cons :
    domSidParseTalloc ('S' :: '-' :: sidstr) = parseParts sidstr := rfl

/-- **Reading a SID out of a longer text.** The SID is read when no dash comes behind it,
and nothing is read otherwise. -/
theorem domSidParseTalloc_text (hrest : Ends rest) :
    domSidParseTalloc (sid.text ++ rest) = if '-' ∈ rest then none else some sid.printed := by
  have htext : sid.text ++ rest = 'S' :: '-' :: (toDigits 10 sid.sidRevNum.toNat ++
      ('-' :: (toDigits 10 sid.ia ++ (dashed sid.subTexts ++ rest)))) := by
    rw [sid.dashed_subTexts, DomSid.text, cons_append, cons_append, append_assoc,
      cons_append, cons_append, append_assoc]
  have hsubs : (sid.subTexts.map fun t => UInt32.ofNat (decimalValue t)) = sid.subAuths := by
    simp [DomSid.subTexts, Function.comp_def, decimalValue_toDigits]
  rw [htext, domSidParseTalloc_cons, parseParts_numbers sid.fits_subTexts
    (fits_toDigits sid.sidRevNum.toNat_lt) (fits_toDigits sid.ia_lt) hrest, hsubs,
    decimalValue_toDigits, decimalValue_toDigits, UInt8.ofNat_toNat,
    DomSid.make_of_short sid.short, DomSid.printed]

end OpenvasSmb.Security

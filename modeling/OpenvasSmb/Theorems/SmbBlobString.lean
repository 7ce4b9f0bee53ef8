import OpenvasSmb.Smb.BlobString

/-!
# Strings are pulled from inside the blob

`smbcli_blob_pull_string` is meant to read only inside the blob and to hand only a part of it to
the converters. A blob shorter than the length field makes the bound of the check wrap around. And
a 32-bit length from `0x80000000` to `0xFFFFFFFE` is a negative `int`, with which an ASCII string
is searched for its end without any bound; what saves such a read is a NUL in the blob. For all
others the reads stay inside (`blob_string_pulled_inside_iff`).
-/

namespace OpenvasSmb.Smb

open Kit Option

variable {blob : Bytes} {n ofs : Nat}

/-- Nothing is read outside the blob, and only a part of it is converted. -/
def PulledInside (blob : Bytes) (r : Option PulledString) : Prop :=
  ∃ p, r = some p ∧ ∀ q ∈ p.passed, q.1 + q.2 ≤ blob.length

/-- A search without a bound from the offset on ends inside the blob, at a place that an `int`
can say. -/
def NulAhead (blob : Bytes) (ofs : Nat) : Prop :=
  ∃ k ∈ (blob.drop ofs).findIdx? (· == 0), 0 ≤ int32 k

/-- The length field says a negative `int` other than -1. -/
def NegativeLength (blob : Bytes) (lenOffset : Nat) : Prop :=
  ∃ n ∈ readLe blob lenOffset 4, int32 n < -1

def PullSafe (unicode : Bool) (blob : Bytes) (lenOffset strOffset : UInt16) (flags : UInt32) :
    Prop :=
  lengthBytes flags ≤ blob.length ∧
    (lengthBytes flags = 4 → ¬pullsUnicode unicode flags → NegativeLength blob lenOffset.toNat →
      0 ≤ int32 (blob.length - strOffset.toNat : Int) → NulAhead blob strOffset.toNat)

/-! ## Machine integers -/

theorem int32_le {x : Int} (h : 0 ≤ x) : int32 x ≤ x := by
  simp only [int32, Int.bmod]
  split <;> omega

theorem int32_lt (x : Int) : int32 x < 2 ^ 31 := by
  simp only [int32, Int.bmod]
  split <;> omega

theorem int32_of_small {x : Int} (hle : -2 ^ 31 ≤ x) (hlt : x < 2 ^ 31) : int32 x = x := by
  simp only [int32, Int.bmod]
  split <;> omega

theorem int32_byte_length (h : readLe blob ofs 1 = some n) : 0 ≤ int32 n := by
  have hin : ofs + 1 ≤ blob.length := by
    by_contra hout
    rw [readLe, if_neg hout] at h
    cases h
  obtain ⟨v, hv, hread⟩ := readLe_some hin
  obtain rfl := some.inj (hread.symm.trans h)
  rw [int32_of_small (by omega) (by omega)]
  omega

theorem limitLen_le (srcLen byteLen : Int) : limitLen srcLen byteLen ≤ srcLen := by
  rw [limitLen]
  split <;> omega

/-! ## Looking for the end -/

theorem strnlen_unbounded : ∀ src : Bytes, strnlen src none = src.findIdx? (· == 0) := by
  intro src
  induction src with
  | nil => rfl
  | cons b src ih =>
    rw [List.findIdx?_cons]
    by_cases hb : b = 0
    · simp [strnlen, hb]
    · simp [strnlen, hb, ih]

/-- The loop over UTF-16 units reads inside the source. -/
theorem utf16Loop_total {src : Bytes} (hn : n ≤ src.length) : ∀ (fuel len : Nat),
    len ≤ n → ∃ k ≤ n, utf16Loop src n fuel len = some k := by
  intro fuel
  induction fuel with
  | zero =>
    intro len hlen
    exact ⟨len, hlen, rfl⟩
  | succ fuel ih =>
    intro len hlen
    by_cases hmore : len + 2 < n
    · have hread : ∃ v, readLe src len 2 = some v := ⟨_, if_pos (by omega)⟩
      obtain ⟨v, hv⟩ := hread
      rw [utf16Loop, if_pos hmore, hv]
      cases v with
      | zero => exact ⟨len, hlen, rfl⟩
      | succ v => exact ih (len + 2) (by omega)
    · rw [utf16Loop, if_neg hmore]
      exact ⟨len, hlen, rfl⟩

theorem utf16LenN_total {src : Bytes} (hn : n ≤ src.length) :
    ∃ k ≤ n, utf16LenN src n = some k := by
  obtain ⟨k, hk, hloop⟩ := utf16Loop_total hn n 0 (Nat.zero_le n)
  rw [utf16LenN, hloop]
  by_cases hmore : k + 2 ≤ n
  · exact ⟨k + 2, hmore, by rw [map_some, if_pos hmore]⟩
  · exact ⟨k, hk, by rw [map_some, if_neg hmore]⟩

/-! ## The two pulls -/

theorem convertRange_pulledInside (convert : Bytes → Option Bytes) {len : Int} (hpos : 0 ≤ len)
    (hfits : ofs + len.toNat ≤ blob.length) (consumed : Bytes → Nat) :
    PulledInside blob (convertRange convert blob ofs len consumed) := by
  rw [convertRange, if_neg (by omega)]
  cases convert ((blob.drop ofs).take len.toNat) with
  | none | some dest =>
    refine ⟨_, rfl, fun q hq => ?_⟩
    obtain rfl := some.inj hq
    exact hfits

theorem not_pulledInside_none (blob : Bytes) : ¬PulledInside blob none := by
  rintro ⟨p, hp, -⟩
  cases hp

theorem pulledInside_empty (blob : Bytes) : PulledInside blob (some {}) :=
  ⟨{}, rfl, nofun⟩

variable (charsets : Charsets)

/-- A UTF-16 string at an offset that needs no alignment is pulled from inside the blob. -/
theorem ucs2_pulledInside (blob : Bytes) (byteLen : Int) {flags : UInt32}
    (haligned : ¬(flags &&& strNoalign = 0 ∧ ucs2Align ofs flags = true)) :
    PulledInside blob (smbcliBlobPullUcs2 charsets blob ofs byteLen flags) := by
  rw [smbcliBlobPullUcs2]
  by_cases hofs : blob.length ≤ ofs
  · rw [if_pos hofs]
    exact pulledInside_empty blob
  · rw [if_neg hofs]
    simp only [if_neg haligned]
    by_cases hshort : limitLen (int32 (blob.length - ofs : Int)) byteLen < 2
    · rw [if_pos hshort]
      exact pulledInside_empty blob
    · rw [if_neg hshort]
      have hlimit := limitLen_le (int32 (blob.length - ofs : Int)) byteLen
      have hleft : int32 (blob.length - ofs : Int) ≤ (blob.length - ofs : Int) :=
        int32_le (by omega)
      have hn : (limitLen (int32 (blob.length - ofs : Int)) byteLen).toNat ≤
          (blob.drop ofs).length := by
        rw [List.length_drop]
        omega
      obtain ⟨k, hk, hfound⟩ := utf16LenN_total hn
      rw [hfound]
      exact convertRange_pulledInside _ (by omega) (by rw [Int.toNat_natCast]; omega) _

/-- With a length that is not negative, or with none, an ASCII string is pulled from inside the
blob. -/
theorem ascii_pulledInside (hofs : ofs < 2 ^ 16) {byteLen : Int} (hbyte : -1 ≤ byteLen) :
    PulledInside blob (smbcliBlobPullAscii charsets blob ofs byteLen) := by
  rw [smbcliBlobPullAscii]
  simp only
  by_cases hnone : int32 (blob.length - ofs : Int) < 0
  · rw [if_pos hnone]
    exact pulledInside_empty blob
  · rw [if_neg hnone]
    have hinside : 0 ≤ (blob.length - ofs : Int) := by
      by_contra hneg
      rw [int32_of_small (by omega) (by omega)] at hnone
      omega
    have hleft : int32 (blob.length - ofs : Int) ≤ (blob.length - ofs : Int) := int32_le hinside
    have hlimit := limitLen_le (int32 (blob.length - ofs : Int)) byteLen
    have hlt := int32_lt (blob.length - ofs : Int)
    have hpos : 0 ≤ limitLen (int32 (blob.length - ofs : Int)) byteLen := by
      rw [limitLen]
      split <;> omega
    generalize limitLen (int32 (blob.length - ofs : Int)) byteLen = srcLen at hlimit hpos ⊢
    obtain ⟨k, hk, hfound⟩ := strnlen_bounded (blob.drop ofs) (n := srcLen.toNat)
      (by rw [List.length_drop]; omega)
    have hint : int32 (k : Int) = k := int32_of_small (by omega) (by omega)
    rw [if_neg (by omega), hfound]
    apply convertRange_pulledInside
    · split <;> omega
    · split <;> omega

/-- With a negative length the search for the end has no bound. -/
theorem ascii_pulledInside_iff {byteLen : Int} (hbyte : byteLen < -1)
    (hofs : 0 ≤ int32 (blob.length - ofs : Int)) :
    PulledInside blob (smbcliBlobPullAscii charsets blob ofs byteLen) ↔ NulAhead blob ofs := by
  have hlimit : limitLen (int32 (blob.length - ofs : Int)) byteLen = byteLen := by
    rw [limitLen, if_pos (by omega)]
  rw [smbcliBlobPullAscii]
  simp only [if_neg (show ¬int32 (blob.length - ofs : Int) < 0 by omega), hlimit,
    if_pos (show byteLen < 0 by omega), strnlen_unbounded]
  cases hfound : (blob.drop ofs).findIdx? (· == 0) with
  | none =>
    refine iff_of_false (not_pulledInside_none blob) ?_
    rintro ⟨k, hk, -⟩
    rw [hfound] at hk
    cases hk
  | some k =>
    have hk : k < (blob.drop ofs).length := (List.findIdx?_eq_some_iff_findIdx_eq.mp hfound).1
    have hle : int32 (k : Int) ≤ k := int32_le (by omega)
    have hahead : NulAhead blob ofs ↔ 0 ≤ int32 (k : Int) := by simp [NulAhead, hfound]
    rw [hahead, bind_some]
    rw [List.length_drop] at hk
    by_cases hneg : int32 (k : Int) < 0
    · refine iff_of_false ?_ (by omega)
      rw [convertRange, if_pos (by split <;> omega)]
      exact not_pulledInside_none blob
    · refine iff_of_true ?_ (by omega)
      exact convertRange_pulledInside _ (by omega) (by omega) _

/-! ## The whole pull -/

theorem pulledInside_map {r : Option PulledString} {f : PulledString → PulledString}
    (hf : ∀ p, (f p).passed = p.passed) : PulledInside blob (r.map f) ↔ PulledInside blob r := by
  constructor
  · rintro ⟨p, hp, hpassed⟩
    obtain ⟨p', rfl, rfl⟩ := map_eq_some_iff.mp hp
    rw [hf] at hpassed
    exact ⟨p', rfl, hpassed⟩
  · rintro ⟨p, rfl, hpassed⟩
    refine ⟨f p, rfl, ?_⟩
    rwa [hf]

/-- From the length on, only the negative lengths of ASCII strings matter. -/
theorem pullString_pulledInside_iff (unicode : Bool) (blob : Bytes)
    (privateLength : Nat) (strOffset : UInt16) (flags : UInt32) :
    PulledInside blob (pullString charsets unicode blob privateLength strOffset flags) ↔
      (¬pullsUnicode unicode flags → int32 privateLength < -1 →
        0 ≤ int32 (blob.length - strOffset.toNat : Int) → NulAhead blob strOffset.toNat) := by
  rw [pullString]
  by_cases hunicode : pullsUnicode unicode flags
  · simp only [if_pos hunicode]
    refine (pulledInside_map ?_).trans ?_
    · intro p
      rfl
    refine iff_of_true (ucs2_pulledInside charsets blob _ ?_) fun h => absurd hunicode h
    -- an odd offset was moved on already
    rintro ⟨hnoalign, halign⟩
    rw [ucs2Align] at halign
    split at halign
    · cases halign
    · simp only [hnoalign, and_true, beq_iff_eq] at halign
      split at halign <;> omega
  · simp only [if_neg hunicode]
    refine (pulledInside_map ?_).trans ?_
    · intro p
      rfl
    by_cases hneg : int32 privateLength < -1
    · by_cases hofs : 0 ≤ int32 (blob.length - strOffset.toNat : Int)
      · rw [ascii_pulledInside_iff charsets hneg hofs]
        exact ⟨fun h _ _ _ => h, fun h => h hunicode hneg hofs⟩
      · refine iff_of_true ?_ fun _ _ h => absurd h hofs
        rw [smbcliBlobPullAscii]
        simp only [if_pos (show int32 (blob.length - strOffset.toNat : Int) < 0 by omega)]
        exact pulledInside_empty blob
    · refine iff_of_true (ascii_pulledInside charsets strOffset.toNat_lt (by omega)) ?_
      exact fun _ h => absurd h hneg

/-- **Strings are pulled from inside the blob** exactly if it is as long as the length field, and an
ASCII string with a negative length ends in it. -/
theorem blob_string_pulled_inside_iff (charsets : Charsets) (unicode : Bool) (blob : Bytes)
    (lenOffset strOffset : UInt16) (flags : UInt32) :
    PulledInside blob (smbcliBlobPullString charsets unicode blob lenOffset strOffset flags) ↔
      PullSafe unicode blob lenOffset strOffset flags := by
  rw [smbcliBlobPullString]
  have hone : lengthBytes flags = 1 ∨ lengthBytes flags = 4 := by
    rw [lengthBytes]
    split
    · exact .inl rfl
    · exact .inr rfl
  have hoffset := lenOffset.toNat_lt
  by_cases hshort : lengthBytes flags ≤ blob.length
  · rw [sizeSub, if_pos hshort]
    by_cases hbehind : lenOffset.toNat > blob.length - lengthBytes flags
    · rw [if_pos hbehind]
      refine iff_of_true (pulledInside_empty blob) ⟨hshort, ?_⟩
      rintro hfour - ⟨n, hn, -⟩
      rw [readLe, if_neg (by omega)] at hn
      cases hn
    · rw [if_neg hbehind]
      have hread : readLe blob lenOffset.toNat (lengthBytes flags) = some _ :=
        if_pos (by omega)
      rw [hread, bind_some, pullString_pulledInside_iff, PullSafe, and_iff_right hshort]
      rcases hone with hlen | hlen
      · refine iff_of_true (fun _ hneg => ?_) fun hfour => by omega
        rw [hlen] at hread hneg
        have := int32_byte_length hread
        omega
      · rw [hlen] at hread ⊢
        have hnegative : NegativeLength blob lenOffset.toNat ↔
            int32 (ofLe ((blob.drop lenOffset.toNat).take 4) : Int) < -1 := by
          simp [NegativeLength, hread]
        rw [hnegative]
        exact ⟨fun h _ => h, fun h => h rfl⟩
  · -- the check wraps around, and the length is read behind the end
    rw [sizeSub, if_neg hshort, if_neg (by omega)]
    refine iff_of_false ?_ fun h => hshort h.1
    rw [readLe, if_neg (by omega)]
    exact not_pulledInside_none blob

/-! ## Samples -/

/-- A blob of zero bytes is read, and a length of `0xFFFFFFFE` makes an ASCII string be searched
for its end behind the blob. -/
theorem pulled_outside :
    (smbcliBlobPullString ⟨some, some⟩ true [] 0 0 0 = none ∧
      smbcliBlobPullString ⟨some, some⟩ true [] 0 0 strLen8bit = none) ∧
    smbcliBlobPullString ⟨some, some⟩ false [0xFE, 0xFF, 0xFF, 0xFF, 0x41] 0 4 strAscii = none :=
  ⟨by decide, by decide⟩

end OpenvasSmb.Smb

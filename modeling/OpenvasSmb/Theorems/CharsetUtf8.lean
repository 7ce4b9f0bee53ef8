import OpenvasSmb.Charset.Utf8
import OpenvasSmb.Kit.Bytes

/-!
# UTF-8 and UTF-16 texts

A text is a list of characters, that is, of Unicode scalar values. `utf8_push` takes the
UTF-16LE form of a text to its UTF-8 form and `utf8_pull` takes that back, whatever the
text. `utf8_pull` accepts more than the UTF-8 forms of texts, though: characters that are
not minimally packed, surrogates, and numbers above `0x10FFFF`.
-/

namespace OpenvasSmb.Charset

open Kit Nat UInt8 String

/-! ## Texts -/

variable (c : Char) (text : List Char)

def utf16Char : Bytes :=
  let v := c.val.toNat
  if v ≤ 0xFFFF then [UInt8.ofNat (v % 256), UInt8.ofNat (v / 256)]
  else
    let w := v - 0x10000
    [UInt8.ofNat (w / 2 ^ 10 % 256), UInt8.ofNat (0xd8 + w / 2 ^ 18), UInt8.ofNat (w % 256),
      UInt8.ofNat (0xdc + w / 2 ^ 8 % 4)]

/-- The UTF-16LE form of a text. -/
def utf16 : Bytes := text.flatMap utf16Char

def utf8 : Bytes := text.flatMap utf8EncodeChar

theorem utf16_cons :
    utf16 (c :: text) = utf16Char c ++ utf16 text := List.flatMap_cons

theorem utf8_cons :
    utf8 (c :: text) = utf8EncodeChar c ++ utf8 text := List.flatMap_cons

/-- Well-formed UTF-16LE: whole units, and surrogates only as a pair of a high and a low
one. -/
inductive Utf16 : Bytes → Prop where
  | nil : Utf16 []
  | unit {uc0 uc1 : UInt8} {rest : Bytes} (h : uc1.toNat < 0xd8 ∨ 0xe0 ≤ uc1.toNat)
      (hrest : Utf16 rest) : Utf16 (uc0 :: uc1 :: rest)
  | pair {uc0 uc1 uc2 uc3 : UInt8} {rest : Bytes} (hhigh : 0xd8 ≤ uc1.toNat ∧ uc1.toNat < 0xdc)
      (hlow : 0xdc ≤ uc3.toNat ∧ uc3.toNat < 0xe0) (hrest : Utf16 rest) :
      Utf16 (uc0 :: uc1 :: uc2 :: uc3 :: rest)

/-! ## The tests and the bits of the converters -/

section Bits

variable {b : UInt8}

theorem and_high_eq_iff (k : Fin 8) {mask t : UInt8} (hmask : mask = UInt8.ofNat (256 - 2 ^ k.val))
    (ht : 2 ^ k.val ∣ t.toNat) :
    b &&& mask = t ↔ t.toNat ≤ b.toNat ∧ b.toNat < t.toNat + 2 ^ k.val := by
  obtain ⟨q, hq⟩ := ht
  have hpos : 0 < 2 ^ k.val := Nat.two_pow_pos _
  rw [← UInt8.toNat_inj, hmask, toNat_and_high, hq, Nat.mul_comm,
    Nat.mul_right_inj (Nat.ne_of_gt hpos)]
  constructor
  · intro h
    have hdiv := Nat.div_add_mod b.toNat (2 ^ k.val)
    rw [h] at hdiv
    omega
  · rintro ⟨hle, hlt⟩
    apply Nat.div_eq_of_lt_le
    · rwa [Nat.mul_comm]
    · rwa [Nat.add_mul, Nat.one_mul, Nat.mul_comm]

theorem and_80_iff : b &&& 0x80 = 0 ↔ b.toNat < 0x80 := by
  have h := and_high_eq_iff (b := b) (t := 0) 7 (show 0x80 = _ from rfl) (by decide)
  exact ⟨fun hb => (h.mp hb).2, fun hb => h.mpr ⟨zero_le _, hb⟩⟩

theorem and_e0_iff : b &&& 0xe0 = 0xc0 ↔ 0xc0 ≤ b.toNat ∧ b.toNat < 0xe0 :=
  and_high_eq_iff 5 rfl (by decide)

theorem and_f0_iff : b &&& 0xf0 = 0xe0 ↔ 0xe0 ≤ b.toNat ∧ b.toNat < 0xf0 :=
  and_high_eq_iff 4 rfl (by decide)

theorem and_f8_iff : b &&& 0xf8 = 0xf0 ↔ 0xf0 ≤ b.toNat ∧ b.toNat < 0xf8 :=
  and_high_eq_iff 3 rfl (by decide)

theorem and_c0_iff : b &&& 0xc0 = 0x80 ↔ 0x80 ≤ b.toNat ∧ b.toNat < 0xc0 :=
  and_high_eq_iff 6 rfl (by decide)

theorem and_f8_zero_iff : b &&& 0xf8 = 0 ↔ b.toNat < 8 := by
  have h := and_high_eq_iff (b := b) (t := 0) 3 (show 0xf8 = _ from rfl) (by decide)
  exact ⟨fun hb => (h.mp hb).2, fun hb => h.mpr ⟨zero_le _, hb⟩⟩

theorem and_fc_low_iff : b &&& 0xfc = 0xdc ↔ 0xdc ≤ b.toNat ∧ b.toNat < 0xe0 :=
  and_high_eq_iff 2 rfl (by decide)

theorem and_fc_high_iff : b &&& 0xfc = 0xd8 ↔ 0xd8 ≤ b.toNat ∧ b.toNat < 0xdc :=
  and_high_eq_iff 2 rfl (by decide)

theorem toNat_and_3f : (b &&& 0x3f).toNat = b.toNat % 64 := toNat_and_low 6 b

theorem toNat_and_f : (b &&& 0xF).toNat = b.toNat % 16 := toNat_and_low 4 b

theorem toNat_and_7 : (b &&& 0x7).toNat = b.toNat % 8 := toNat_and_low 3 b

theorem toNat_and_3 : (b &&& 0x3).toNat = b.toNat % 4 := toNat_and_low 2 b

/-- A byte that continues a character. -/
theorem or_80 (x : Nat) : 0x80 ||| (x &&& 0x3f) = 0x80 + x % 64 := by
  rw [show x &&& 0x3f = x % 64 from and_two_pow_sub_one_eq_mod x 6]
  exact or_eq_add (k := 6) (by decide) (mod_lt _ (by decide))

theorem toNat_shr2 : (b >>> 2).toNat = b.toNat / 4 := toNat_shiftRight 2 b

theorem toNat_shr6 : (b >>> 6).toNat = b.toNat / 64 := toNat_shiftRight 6 b

theorem toNat_shl6 : (b <<< 6).toNat = b.toNat % 4 * 64 := toNat_shiftLeft 6 b

theorem toNat_shl4 : (b <<< 4).toNat = b.toNat % 16 * 16 := toNat_shiftLeft 4 b

theorem toNat_shl2 : (b <<< 2).toNat = b.toNat % 64 * 4 := toNat_shiftLeft 2 b

/-- The low byte of a character of two or three bytes, from the last two of them. -/
theorem low_byte (c c' : UInt8) : (c <<< 6) ||| (c' &&& 0x3f) =
    UInt8.ofNat (c.toNat % 4 * 64 + c'.toNat % 64) := by
  apply UInt8.toNat_inj.mp
  rw [toNat_or (k := 6) (by rw [toNat_shl6]; omega) (by rw [toNat_and_3f]; omega), toNat_shl6,
    toNat_and_3f, UInt8.toNat_ofNat']
  omega

end Bits

/-! ## The branches of `utf8_pull` -/

section Pull

variable {c0 c1 c2 c3 : UInt8} {p : Bytes} {n : Nat}

theorem utf8Pull_one (hn : 2 ≤ n) (h0 : c0.toNat < 0x80) :
    utf8Pull (c0 :: p) n = (utf8Pull p (n - 2)).wrote [c0, 0] := by
  rw [utf8Pull.eq_def]
  simp only
  rw [if_neg (by omega), if_pos (and_80_iff.mpr h0)]

theorem utf8Pull_two (hn : 2 ≤ n) (h0 : 0xc0 ≤ c0.toNat ∧ c0.toNat < 0xe0)
    (h1 : 0x80 ≤ c1.toNat ∧ c1.toNat < 0xc0) :
    utf8Pull (c0 :: c1 :: p) n = (utf8Pull p (n - 2)).wrote
      [UInt8.ofNat (c0.toNat % 4 * 64 + c1.toNat % 64), UInt8.ofNat (c0.toNat / 4 % 8)] := by
  have hhigh : (c0 >>> 2) &&& 0x7 = UInt8.ofNat (c0.toNat / 4 % 8) := by
    apply UInt8.toNat_inj.mp
    rw [toNat_and_7, toNat_shr2, UInt8.toNat_ofNat']
    omega
  rw [utf8Pull.eq_def]
  simp only
  rw [if_neg (by omega), if_neg (by rw [and_80_iff]; omega), if_pos (and_e0_iff.mpr h0),
    if_neg (not_not.mpr (and_c0_iff.mpr h1)), low_byte c0 c1, hhigh]

theorem utf8Pull_three (hn : 2 ≤ n) (h0 : 0xe0 ≤ c0.toNat ∧ c0.toNat < 0xf0)
    (h1 : 0x80 ≤ c1.toNat ∧ c1.toNat < 0xc0) (h2 : 0x80 ≤ c2.toNat ∧ c2.toNat < 0xc0) :
    utf8Pull (c0 :: c1 :: c2 :: p) n = (utf8Pull p (n - 2)).wrote
      [ofNat (c1.toNat % 4 * 64 + c2.toNat % 64),
        UInt8.ofNat (c0.toNat % 16 * 16 + c1.toNat / 4 % 16)] := by
  have hhigh : ((c0 &&& 0xF) <<< 4) ||| ((c1 >>> 2) &&& 0xF) =
      UInt8.ofNat (c0.toNat % 16 * 16 + c1.toNat / 4 % 16) := by
    apply UInt8.toNat_inj.mp
    rw [toNat_or (k := 4) (by rw [toNat_shl4]; omega) (by rw [toNat_and_f]; omega), toNat_shl4,
      toNat_and_f, toNat_and_f, toNat_shr2, UInt8.toNat_ofNat']
    omega
  rw [utf8Pull.eq_def]
  simp only
  rw [if_neg (by omega), if_neg (by rw [and_80_iff]; omega),
    if_neg (by rw [and_e0_iff]; omega), if_pos (and_f0_iff.mpr h0),
    if_neg (by simp [and_c0_iff.mpr h1, and_c0_iff.mpr h2]), low_byte c1 c2, hhigh]

/-- The code point of four bytes. -/
def codepoint4 (c0 c1 c2 c3 : UInt8) : Nat :=
  c3.toNat % 64 + c2.toNat % 64 * 2 ^ 6 + c1.toNat % 64 * 2 ^ 12 + c0.toNat % 8 * 2 ^ 18

theorem codepoint4_eq : (c3 &&& 0x3f).toNat ||| ((c2 &&& 0x3f).toNat <<< 6) |||
    ((c1 &&& 0x3f).toNat <<< 12) ||| ((c0 &&& 0x7).toNat <<< 18) = codepoint4 c0 c1 c2 c3 := by
  simp only [toNat_and_3f, toNat_and_7, shiftLeft_eq]
  have h₁ : c3.toNat % 64 ||| c2.toNat % 64 * 2 ^ 6 = c3.toNat % 64 + c2.toNat % 64 * 2 ^ 6 :=
    or_eq_add' (k := 6) (by omega) (by omega)
  have h₂ : c3.toNat % 64 + c2.toNat % 64 * 2 ^ 6 ||| c1.toNat % 64 * 2 ^ 12 =
      c3.toNat % 64 + c2.toNat % 64 * 2 ^ 6 + c1.toNat % 64 * 2 ^ 12 :=
    or_eq_add' (k := 12) (by omega) (by omega)
  rw [h₁, h₂]
  exact or_eq_add' (k := 18) (by omega) (by omega)

theorem utf8Pull_four (hn : 4 ≤ n) (h0 : 0xf0 ≤ c0.toNat ∧ c0.toNat < 0xf8)
    (h1 : 0x80 ≤ c1.toNat ∧ c1.toNat < 0xc0) (h2 : 0x80 ≤ c2.toNat ∧ c2.toNat < 0xc0)
    (h3 : 0x80 ≤ c3.toNat ∧ c3.toNat < 0xc0) (hlo : 0x10000 ≤ codepoint4 c0 c1 c2 c3)
    (hhi : codepoint4 c0 c1 c2 c3 < 0x110000) :
    utf8Pull (c0 :: c1 :: c2 :: c3 :: p) n = (utf8Pull p (n - 4)).wrote
      [ofNat ((codepoint4 c0 c1 c2 c3 - 0x10000) / 2 ^ 10 % 256),
        ofNat (0xd8 + (codepoint4 c0 c1 c2 c3 - 0x10000) / 2 ^ 18),
        ofNat ((codepoint4 c0 c1 c2 c3 - 0x10000) % 256),
        ofNat (0xdc + (codepoint4 c0 c1 c2 c3 - 0x10000) / 2 ^ 8 % 4)] := by
  rw [utf8Pull.eq_def]
  simp only
  rw [if_neg (by omega), if_neg (by rw [and_80_iff]; omega),
    if_neg (by rw [and_e0_iff]; omega), if_neg (by rw [and_f0_iff]; omega),
    if_pos (and_f8_iff.mpr h0)]
  simp only [codepoint4_eq]
  rw [if_neg (by simp [and_c0_iff.mpr h1, and_c0_iff.mpr h2, and_c0_iff.mpr h3]),
    if_neg (by omega), if_neg (by omega)]
  have hw : codepoint4 c0 c1 c2 c3 - 0x10000 < 0x100000 := by omega
  generalize codepoint4 c0 c1 c2 c3 - 0x10000 = w at hw
  have hff : ∀ x : Nat, x &&& 0xFF = x % 256 := fun x => and_two_pow_sub_one_eq_mod x 8
  have hthree : ∀ x : Nat, x &&& 0x3 = x % 4 := fun x => and_two_pow_sub_one_eq_mod x 2
  simp only [hff, hthree, shiftRight_eq_div_pow]
  rw [or_eq_add' (k := 3) (x := w / 2 ^ 18) (by omega) (by decide),
    or_eq_add' (k := 2) (x := w / 2 ^ 8 % 4) (by omega) (by decide), add_comm (w / 2 ^ 18),
    add_comm (w / 2 ^ 8 % 4)]

end Pull

/-! ## The branches of `utf8_push` -/

section Push

variable {uc0 uc1 uc2 uc3 : UInt8} {p : Bytes} {n : Nat}

theorem utf8Push_one (hn : 1 ≤ n) (h0 : uc0.toNat < 0x80) :
    utf8Push (uc0 :: 0 :: p) n = (utf8Push p (n - 1)).wrote [uc0] := by
  rw [utf8Push.eq_def]
  simp only
  rw [if_neg (by omega), if_pos ⟨trivial, and_80_iff.mpr h0⟩]

theorem utf8Push_two (hn : 2 ≤ n) (h1 : uc1.toNat < 8) (h : 0x80 ≤ uc0.toNat + uc1.toNat * 256) :
    utf8Push (uc0 :: uc1 :: p) n = (utf8Push p (n - 2)).wrote
      [ofNat (0xc0 + uc0.toNat / 64 + uc1.toNat * 4), ofNat (0x80 + uc0.toNat % 64)] := by
  have h0 := uc0.toNat_lt
  have hlead : (0xc0 : UInt8) ||| (uc0 >>> 6) ||| (uc1 <<< 2) =
      UInt8.ofNat (0xc0 + uc0.toNat / 64 + uc1.toNat * 4) := by
    apply UInt8.toNat_inj.mp
    have hlow : uc0.toNat / 64 ||| uc1.toNat % 64 * 4 = uc0.toNat / 64 + uc1.toNat % 64 * 4 :=
      or_eq_add' (k := 2) (by omega) (by omega)
    have hsum : 0xc0 ||| (uc0.toNat / 64 + uc1.toNat % 64 * 4) =
        0xc0 + (uc0.toNat / 64 + uc1.toNat % 64 * 4) :=
      or_eq_add (k := 6) (by decide) (by omega)
    rw [UInt8.toNat_or, UInt8.toNat_or, toNat_shr6, toNat_shl2, Nat.or_assoc, hlow]
    refine hsum.trans ?_
    rw [UInt8.toNat_ofNat']
    omega
  have hcont : (0x80 : UInt8) ||| (uc0 &&& 0x3f) = UInt8.ofNat (0x80 + uc0.toNat % 64) := by
    apply UInt8.toNat_inj.mp
    rw [toNat_or (k := 6) (by decide) (by rw [toNat_and_3f]; omega), toNat_and_3f,
      UInt8.toNat_ofNat']
    change 128 + _ = _
    omega
  have hnot : ¬ (uc1 = 0 ∧ uc0 &&& 0x80 = 0) := by
    rintro ⟨rfl, h80⟩
    rw [and_80_iff] at h80
    change 0x80 ≤ uc0.toNat + 0 at h
    omega
  rw [utf8Push.eq_def]
  simp only
  rw [if_neg (by omega), if_neg hnot, if_pos (and_f8_zero_iff.mpr h1), if_neg (by omega), hlead,
    hcont]

theorem utf8Push_three (hn : 3 ≤ n) (h1 : 8 ≤ uc1.toNat)
    (hsur : uc1.toNat < 0xd8 ∨ 0xe0 ≤ uc1.toNat) :
    utf8Push (uc0 :: uc1 :: p) n = (utf8Push p (n - 3)).wrote
      [ofNat (0xe0 + uc1.toNat / 16),
        ofNat (0x80 + (uc0.toNat + uc1.toNat * 256) / 64 % 64),
        ofNat (0x80 + uc0.toNat % 64)] := by
  have h0 := uc0.toNat_lt
  have h1' := uc1.toNat_lt
  have hcode : uc0.toNat ||| uc1.toNat <<< 8 = uc0.toNat + uc1.toNat * 256 := by
    rw [shiftLeft_eq]
    exact or_eq_add' (k := 8) (by omega) (by omega)
  have hnot : ¬ (uc1 = 0 ∧ uc0 &&& 0x80 = 0) := by
    rintro ⟨rfl, -⟩
    exact absurd h1 (by decide)
  rw [utf8Push.eq_def]
  simp only [hcode]
  rw [if_neg (by omega), if_neg hnot, if_neg (by rw [and_f8_zero_iff]; omega),
    if_neg (by rw [and_fc_low_iff]; omega), if_pos (by rw [ne_eq, and_fc_high_iff]; omega),
    if_neg (by omega)]
  simp only [or_80, shiftRight_eq_div_pow]
  rw [or_eq_add (k := 4) (show 2 ^ 4 ∣ 0xe0 by decide) (by omega),
    show (uc0.toNat + uc1.toNat * 256) / 2 ^ 12 = uc1.toNat / 16 by omega,
    show (uc0.toNat + uc1.toNat * 256) % 64 = uc0.toNat % 64 by omega]

theorem utf8Push_four (hn : 4 ≤ n) (h1 : 0xd8 ≤ uc1.toNat ∧ uc1.toNat < 0xdc)
    (h3 : 0xdc ≤ uc3.toNat ∧ uc3.toNat < 0xe0) {v : Nat}
    (hv : v = 0x10000 + (uc2.toNat + uc3.toNat % 4 * 2 ^ 8 + uc0.toNat * 2 ^ 10 +
      uc1.toNat % 4 * 2 ^ 18)) :
    utf8Push (uc0 :: uc1 :: uc2 :: uc3 :: p) n = (utf8Push p (n - 4)).wrote
      [ofNat (0xf0 + v / 2 ^ 18), ofNat (0x80 + v / 2 ^ 12 % 64),
        ofNat (0x80 + v / 2 ^ 6 % 64), ofNat (0x80 + v % 64)] := by
  have h0 := uc0.toNat_lt
  have h2 := uc2.toNat_lt
  have hcode : 0x10000 + (uc2.toNat ||| ((uc3 &&& 0x3).toNat <<< 8) ||| (uc0.toNat <<< 10) |||
      ((uc1 &&& 0x3).toNat <<< 18)) = v := by
    simp only [toNat_and_3, shiftLeft_eq]
    have h₁ : uc2.toNat ||| uc3.toNat % 4 * 2 ^ 8 = uc2.toNat + uc3.toNat % 4 * 2 ^ 8 :=
      or_eq_add' (k := 8) (by omega) (by omega)
    have h₂ : uc2.toNat + uc3.toNat % 4 * 2 ^ 8 ||| uc0.toNat * 2 ^ 10 =
        uc2.toNat + uc3.toNat % 4 * 2 ^ 8 + uc0.toNat * 2 ^ 10 :=
      or_eq_add' (k := 10) (by omega) (by omega)
    rw [h₁, h₂, or_eq_add' (k := 18) (y := uc1.toNat % 4 * 2 ^ 18) (by omega) (by omega), hv]
  have hnot : ¬ (uc1 = 0 ∧ uc0 &&& 0x80 = 0) := by
    rintro ⟨rfl, -⟩
    exact absurd h1.1 (by decide)
  rw [utf8Push.eq_def]
  simp only [hcode]
  rw [if_neg (by omega), if_neg hnot, if_neg (by rw [and_f8_zero_iff]; omega),
    if_neg (by rw [and_fc_low_iff]; omega), if_neg (not_not.mpr (and_fc_high_iff.mpr h1)),
    if_neg (not_not.mpr (and_fc_low_iff.mpr h3)), if_neg (by omega)]
  simp only [or_80, shiftRight_eq_div_pow]
  rw [or_eq_add (k := 3) (show 2 ^ 3 ∣ 0xf0 by decide) (by omega)]

end Push

/-! ## Characters -/

section Characters

variable {p : Bytes} {n : Nat}

theorem char_cases :
    c.val.toNat < 0xd800 ∨ 0xdfff < c.val.toNat ∧ c.val.toNat < 0x110000 := c.valid

theorem toNat_ofNat_lt {x : Nat} (h : x < 256) : (ofNat x).toNat = x := by
  exact mod_eq_of_lt h

theorem utf8Pull_char (hn : (utf16Char c).length ≤ n) :
    utf8Pull (utf8EncodeChar c ++ p) n =
      (utf8Pull p (n - (utf16Char c).length)).wrote (utf16Char c) := by
  have hc := char_cases c
  unfold utf16Char at hn ⊢
  unfold utf8EncodeChar
  generalize c.val.toNat = v at hc hn
  have htail : ∀ x : Nat, (ofNat (x % 64 + 128)).toNat = x % 64 + 128 := fun x =>
    toNat_ofNat_lt (by omega)
  by_cases h16 : v ≤ 0xFFFF
  · simp only [if_pos h16] at hn ⊢
    by_cases h7 : v ≤ 127
    · have hv := toNat_ofNat_lt (show v < 256 by omega)
      simp only [if_pos h7]
      refine (utf8Pull_one hn (by omega)).trans ?_
      rw [show v % 256 = v by omega, show v / 256 = 0 by omega]
      rfl
    · simp only [if_neg h7]
      by_cases h11 : v ≤ 2047
      · have hlead := toNat_ofNat_lt (show v / 64 % 32 + 192 < 256 by omega)
        simp only [if_pos h11]
        refine (utf8Pull_two hn (by omega) (by rw [htail]; omega)).trans ?_
        rw [hlead, htail, show (v / 64 % 32 + 192) % 4 * 64 + (v % 64 + 128) % 64 = v % 256 by omega,
          show (v / 64 % 32 + 192) / 4 % 8 = v / 256 by omega]
        rfl
      · have hlead := toNat_ofNat_lt (show v / 4096 % 16 + 224 < 256 by omega)
        simp only [if_neg h11]
        refine (utf8Pull_three hn (by omega) (by rw [htail]; omega) (by rw [htail]; omega)).trans ?_
        rw [hlead, htail, htail,
          show (v / 64 % 64 + 128) % 4 * 64 + (v % 64 + 128) % 64 = v % 256 by omega,
          show (v / 4096 % 16 + 224) % 16 * 16 + (v / 64 % 64 + 128) / 4 % 16 = v / 256 by omega]
        rfl
  · have hlead := toNat_ofNat_lt (show v / 262144 % 8 + 240 < 256 by omega)
    have hcode : codepoint4 (ofNat (v / 262144 % 8 + 240)) (ofNat (v / 4096 % 64 + 128))
        (ofNat (v / 64 % 64 + 128)) (ofNat (v % 64 + 128)) = v := by
      rw [codepoint4, hlead, htail, htail, htail]
      omega
    simp only [if_neg h16, if_neg (show ¬ v ≤ 127 by omega), if_neg (show ¬ v ≤ 2047 by omega)]
      at hn ⊢
    refine (utf8Pull_four hn (by omega) (by rw [htail]; omega) (by rw [htail]; omega)
      (by rw [htail]; omega) (by rw [hcode]; omega) (by rw [hcode]; omega)).trans ?_
    rw [hcode]
    rfl

theorem utf8Push_char (hn : (utf8EncodeChar c).length ≤ n) :
    utf8Push (utf16Char c ++ p) n =
      (utf8Push p (n - (utf8EncodeChar c).length)).wrote (utf8EncodeChar c) := by
  have hc := char_cases c
  unfold utf16Char
  unfold utf8EncodeChar at hn ⊢
  generalize c.val.toNat = v at hc hn
  by_cases h16 : v ≤ 0xFFFF
  · have hlow := toNat_ofNat_lt (show v % 256 < 256 by omega)
    have hhigh := toNat_ofNat_lt (show v / 256 < 256 by omega)
    simp only [if_pos h16] at hn ⊢
    by_cases h7 : v ≤ 127
    · simp only [if_pos h7, show v / 256 = 0 by omega] at hn ⊢
      refine (utf8Push_one hn (by omega)).trans ?_
      rw [show v % 256 = v by omega]
      rfl
    · simp only [if_neg h7] at hn ⊢
      by_cases h11 : v ≤ 2047
      · simp only [if_pos h11] at hn ⊢
        refine (utf8Push_two hn (by omega) (by omega)).trans ?_
        rw [hlow, hhigh, show 0xc0 + v % 256 / 64 + v / 256 * 4 = v / 64 % 32 + 192 by omega,
          show 0x80 + v % 256 % 64 = v % 64 + 128 by omega]
        rfl
      · simp only [if_neg h11] at hn ⊢
        refine (utf8Push_three hn (by omega) (by omega)).trans ?_
        rw [hlow, hhigh, show 0xe0 + v / 256 / 16 = v / 4096 % 16 + 224 by omega,
          show 0x80 + (v % 256 + v / 256 * 256) / 64 % 64 = v / 64 % 64 + 128 by omega,
          show 0x80 + v % 256 % 64 = v % 64 + 128 by omega]
        rfl
  · simp only [if_neg h16, if_neg (show ¬ v ≤ 127 by omega), if_neg (show ¬ v ≤ 2047 by omega)]
      at hn ⊢
    have h₀ := toNat_ofNat_lt (show (v - 0x10000) / 2 ^ 10 % 256 < 256 by omega)
    have h₁ := toNat_ofNat_lt (show 0xd8 + (v - 0x10000) / 2 ^ 18 < 256 by omega)
    have h₂ := toNat_ofNat_lt (show (v - 0x10000) % 256 < 256 by omega)
    have h₃ := toNat_ofNat_lt (show 0xdc + (v - 0x10000) / 2 ^ 8 % 4 < 256 by omega)
    refine (utf8Push_four (v := v) hn (by omega) (by omega) (by rw [h₀, h₁, h₂, h₃]; omega)).trans ?_
    rw [show 0xf0 + v / 2 ^ 18 = v / 262144 % 8 + 240 by omega,
      show 0x80 + v / 2 ^ 12 % 64 = v / 4096 % 64 + 128 by omega,
      show 0x80 + v / 2 ^ 6 % 64 = v / 64 % 64 + 128 by omega,
      show 0x80 + v % 64 = v % 64 + 128 by omega]
    rfl

end Characters

/-! ## Texts -/

@[simp] theorem wrote_out (p : Bytes) (c : Converted) : (c.wrote p).out = p ++ c.out := rfl

theorem utf8Pull_text : ∀ (text : List Char) {n : Nat}, (utf16 text).length ≤ n →
    utf8Pull (utf8 text) n = ⟨utf16 text, [], n - (utf16 text).length, none⟩
  | [], n, _ => rfl
  | c :: text, n, hn => by
    rw [utf16_cons, List.length_append] at hn ⊢
    rw [utf8_cons, utf8Pull_char c (by omega), utf8Pull_text text (by omega), Converted.wrote,
      Nat.sub_sub]

theorem utf8Push_text : ∀ (text : List Char) {n : Nat}, (utf8 text).length ≤ n →
    utf8Push (utf16 text) n = ⟨utf8 text, [], n - (utf8 text).length, none⟩
  | [], n, _ => rfl
  | c :: text, n, hn => by
    rw [utf8_cons, List.length_append] at hn ⊢
    rw [utf16_cons, utf8Push_char c (by omega), utf8Push_text text (by omega), Converted.wrote,
      Nat.sub_sub]

theorem exists_char {v : Nat} (h : v < 0xd800 ∨ 0xdfff < v ∧ v < 0x110000) :
    ∃ c : Char, c.val.toNat = v := by
  have hv : (UInt32.ofNat v).toNat = v := by
    rw [UInt32.toNat_ofNat']
    omega
  exact ⟨⟨UInt32.ofNat v, by rw [UInt32.isValidChar, hv]; exact h⟩, hv⟩

theorem Utf16.exists_text {u : Bytes} (h : Utf16 u) : ∃ text, u = utf16 text := by
  induction h with
  | nil => exact ⟨[], rfl⟩
  | @unit uc0 uc1 rest hunit hrest ih =>
    obtain ⟨text, rfl⟩ := ih
    have h0 := uc0.toNat_lt
    have h1 := uc1.toNat_lt
    obtain ⟨c, hc⟩ := exists_char (v := uc0.toNat + uc1.toNat * 256) (by omega)
    refine ⟨c :: text, ?_⟩
    rw [utf16_cons, utf16Char, hc, if_pos (by omega),
      show (uc0.toNat + uc1.toNat * 256) % 256 = uc0.toNat by omega,
      show (uc0.toNat + uc1.toNat * 256) / 256 = uc1.toNat by omega, UInt8.ofNat_toNat,
      UInt8.ofNat_toNat]
    rfl
  | @pair uc0 uc1 uc2 uc3 rest hhigh hlow hrest ih =>
    obtain ⟨text, rfl⟩ := ih
    have h0 := uc0.toNat_lt
    have h2 := uc2.toNat_lt
    obtain ⟨c, hc⟩ := exists_char (v := 0x10000 + (uc2.toNat + uc3.toNat % 4 * 2 ^ 8 +
      uc0.toNat * 2 ^ 10 + uc1.toNat % 4 * 2 ^ 18)) (by omega)
    refine ⟨c :: text, ?_⟩
    rw [utf16_cons, utf16Char, hc]
    simp only
    rw [if_neg (by omega), Nat.add_sub_cancel_left]
    generalize hw : uc2.toNat + uc3.toNat % 4 * 2 ^ 8 + uc0.toNat * 2 ^ 10 +
      uc1.toNat % 4 * 2 ^ 18 = w
    rw [show w / 2 ^ 10 % 256 = uc0.toNat by omega, show 0xd8 + w / 2 ^ 18 = uc1.toNat by omega,
      show w % 256 = uc2.toNat by omega, show 0xdc + w / 2 ^ 8 % 4 = uc3.toNat by omega]
    simp only [UInt8.ofNat_toNat]
    rfl

theorem utf16_text : ∀ text : List Char, Utf16 (utf16 text)
  | [] => Utf16.nil
  | c :: text => by
    have hc := char_cases c
    have hrest := utf16_text text
    rw [utf16_cons, utf16Char]
    split
    · refine .unit ?_ hrest
      rw [toNat_ofNat_lt (by omega)]
      omega
    · refine .pair ?_ ?_ hrest
      all_goals
        rw [toNat_ofNat_lt (by omega)]
        omega

/-- More room does not change what an accepted input is converted to. -/
theorem utf8Pull_out_mono (b : Bytes) (n : Nat) : ∀ m, n ≤ m → (utf8Pull b n).errno = none →
    (utf8Pull b m).out = (utf8Pull b n).out := by
  -- one case for each way through the loop; the ways that stop with an error are last
  fun_induction utf8Pull b n with (intro m hm h)
  | case1 => rfl
  | case3 n c0 rest hroom hone ih =>
    rw [utf8Pull.eq_def]
    simp only
    rw [if_neg (by omega), if_pos hone, wrote_out, wrote_out, ih _ (by omega) h]
  | case5 c0 n hroom hone htwo c1 rest htail ih =>
    rw [utf8Pull.eq_def]
    simp only
    rw [if_neg (by omega), if_neg hone, if_pos htwo, if_neg htail, wrote_out, wrote_out,
      ih _ (by omega) h]
  | case8 c0 n hroom hone htwo hthree c1 c2 rest htail ih =>
    rw [utf8Pull.eq_def]
    simp only
    rw [if_neg (by omega), if_neg hone, if_neg htwo, if_pos hthree, if_neg htail, wrote_out,
      wrote_out, ih _ (by omega) h]
  | case11 c0 n hroom hone htwo hthree hfour c1 c2 c3 rest htail codepoint hsmall ih =>
    rw [utf8Pull.eq_def]
    simp only
    rw [if_neg (by omega), if_neg hone, if_neg htwo, if_neg hthree, if_pos hfour, if_neg htail,
      if_pos hsmall, wrote_out, wrote_out, ih _ (by omega) h]
  | case13 c0 n hroom hone htwo hthree hfour c1 c2 c3 rest htail codepoint hlarge hroom' w ih =>
    rw [utf8Pull.eq_def]
    simp only
    rw [if_neg (by omega), if_neg hone, if_neg htwo, if_neg hthree, if_pos hfour, if_neg htail,
      if_neg hlarge, if_neg (by omega), wrote_out, wrote_out, ih _ (by omega) h]
  | _ => simp [Converted.stop] at h

/-- **UTF-8 and UTF-16.** Well-formed UTF-16LE comes back from `utf8_push`. A byte string that
`utf8_pull` accepts comes back exactly when it is the UTF-8 form of a text. -/
theorem utf8_round_trip (u b : Bytes) (n : Nat) :
    (Utf16 u → ∃ b, (∀ n, b.length ≤ n → utf8Push u n = ⟨b, [], n - b.length, none⟩) ∧
      ∀ n, u.length ≤ n → utf8Pull b n = ⟨u, [], n - u.length, none⟩) ∧
    ((utf8Pull b n).errno = none →
      ((Utf16 (utf8Pull b n).out ∧ ∀ m, b.length ≤ m →
        utf8Push (utf8Pull b n).out m = ⟨b, [], m - b.length, none⟩) ↔
        ∃ text : List Char, b = utf8 text)) := by
  refine ⟨fun hu => ?_, fun haccept => ⟨?_, ?_⟩⟩
  · obtain ⟨text, rfl⟩ := hu.exists_text
    exact ⟨utf8 text, fun n hn => utf8Push_text text hn, fun n hn => utf8Pull_text text hn⟩
  · rintro ⟨hwell, hback⟩
    obtain ⟨text, htext⟩ := hwell.exists_text
    refine ⟨text, ?_⟩
    -- with room for both, the two outputs of `utf8_push` are one
    have h₁ := hback (b.length + (utf8 text).length) (by omega)
    rw [htext, utf8Push_text text (by omega)] at h₁
    exact (congrArg Converted.out h₁).symm
  · rintro ⟨text, rfl⟩
    have hout : (utf8Pull (utf8 text) n).out = utf16 text := by
      rw [← utf8Pull_out_mono _ n (n + (utf16 text).length) (by omega) haccept,
        utf8Pull_text text (by omega)]
    rw [hout]
    exact ⟨utf16_text text, fun m hm => utf8Push_text text hm⟩

/-- Characters of one, two, three and four bytes. -/
theorem utf8_round_trip_sample :
    Utf16 (utf8Pull [0x61, 0xc3, 0x9f, 0xe2, 0x82, 0xac, 0xf0, 0x9f, 0x98, 0x80] 10).out ∧
      ∀ m, 10 ≤ m →
        utf8Push (utf8Pull [0x61, 0xc3, 0x9f, 0xe2, 0x82, 0xac, 0xf0, 0x9f, 0x98, 0x80] 10).out m =
          ⟨[0x61, 0xc3, 0x9f, 0xe2, 0x82, 0xac, 0xf0, 0x9f, 0x98, 0x80], [], m - 10, none⟩ :=
  ((utf8_round_trip [] [0x61, 0xc3, 0x9f, 0xe2, 0x82, 0xac, 0xf0, 0x9f, 0x98, 0x80] 10).2
    (by decide)).mpr ⟨['a', 'ß', '€', '😀'], by decide⟩

/-- An overlong form, a surrogate and a number above `0x10FFFF` are accepted, and do not come back.
-/
theorem utf8Pull_accepts_more :
    utf8Pull [0xc0, 0x80] 2 = ⟨[0x00, 0x00], [], 0, none⟩ ∧
      utf8Push [0x00, 0x00] 2 = ⟨[0x00], [], 1, none⟩ ∧
    utf8Pull [0xed, 0xa0, 0x80] 2 = ⟨[0x00, 0xd8], [], 0, none⟩ ∧
      utf8Push [0x00, 0xd8] 4 = ⟨[], [0x00, 0xd8], 4, some .einval⟩ ∧
    utf8Pull [0xf4, 0x90, 0x80, 0x80] 4 = ⟨[0x00, 0xdc, 0x00, 0xdc], [], 0, none⟩ ∧
      utf8Push [0x00, 0xdc, 0x00, 0xdc] 4 =
        ⟨[], [0x00, 0xdc, 0x00, 0xdc], 4, some .eilseq⟩ := by
  decide

end OpenvasSmb.Charset

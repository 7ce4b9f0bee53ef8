import OpenvasSmb.Asn1.Codec
import Mathlib.Data.List.Induction

/-!
# The integer coder

`asn1_write_Integer` writes the octets of a two's complement number without the leading
ones that do not matter; `asn1_read_Integer` puts octets together from zero and does not
extend a sign. So a number comes back unless it is negative and short
(`value_intOctets`).
-/

namespace OpenvasSmb.Asn1

open List UInt8

/-- The highest octet: a leading `0xFF` of a negative number is dropped, and one whose high bit has
the wrong sign gets another in front. -/
def firstOctet (negative : Bool) (b : UInt8) : Bytes :=
  if negative ∧ b = 0xFF then []
  else if negative ∧ b &&& 0x80 = 0 then [0xff, b]
  else if negative = false ∧ b &&& 0x80 ≠ 0 then [0, b]
  else [b]

/-- The octets of a number of at most `fuel` octets. -/
def intOctets (negative : Bool) : Nat → Nat → Bytes
  | 0, _ => []
  | fuel + 1, i =>
    let high := if i / 256 ≠ 0 then intOctets negative fuel (i / 256) else []
    if high = [] then firstOctet negative (UInt8.ofNat i) else high ++ [UInt8.ofNat i]

/-- The number the reader puts together. -/
def beValue (octets : Bytes) : Nat := octets.foldl (fun v b => v * 256 + b.toNat) 0

theorem beValue_append (p : Bytes) (b : UInt8) : beValue (p ++ [b]) = beValue p * 256 + b.toNat := by
  simp [beValue]

theorem beValue_lt : ∀ p : Bytes, beValue p < 256 ^ p.length := by
  intro p
  induction p using reverseRecOn with
  | nil => simp [beValue]
  | append_singleton p b ih =>
    have hb := b.toNat_lt
    rw [beValue_append, length_append, length_singleton]
    omega

/-! ## Writing -/

variable {d : Asn1Data}

/-- Nothing was written into the innermost tag yet exactly when no octets were appended. -/
theorem nothingYet_iff {n : Nesting} {rest : List Nesting} (hnest : d.nesting = n :: rest)
    (hofs : d.ofs = n.start + 1) (p : Bytes) :
    ((d.append p).nesting.head?.map fun n => n.start + 1) = some (d.append p).ofs ↔ p = [] := by
  rw [append_nesting, hnest]
  simp only [head?_cons, Option.map_some, Option.some.injEq, Asn1Data.append, hofs]
  constructor
  · intro h
    exact length_eq_zero_iff.mp (by omega)
  · rintro rfl
    rfl

theorem pushIntBigendian_atEnd {n : Nesting} {rest : List Nesting} (negative : Bool) (hd : d.AtEnd)
    (hnest : d.nesting = n :: rest) (hofs : d.ofs = n.start + 1) :
    ∀ (fuel i : Nat), pushIntBigendian negative fuel i d = d.append (intOctets negative fuel i) := by
  intro fuel
  induction fuel with
  | zero => intro i; simp [pushIntBigendian, intOctets]
  | succ fuel ih =>
    intro i
    have hhigh : (if i / 256 ≠ 0 then pushIntBigendian negative fuel (i / 256) d else d) =
        d.append (if i / 256 ≠ 0 then intOctets negative fuel (i / 256) else []) := by
      split
      · exact ih _
      · simp
    rw [pushIntBigendian, intOctets]
    simp only [hhigh]
    generalize (if i / 256 ≠ 0 then intOctets negative fuel (i / 256) else []) = high
    have hwrite : ∀ p q, asn1Write (d.append p) q = d.append (p ++ q) := fun p q => by
      rw [asn1Write_atEnd (hd.append p), append_append]
    simp only [nothingYet_iff hnest hofs high, asn1WriteUint8, hwrite]
    by_cases hempty : high = []
    · simp only [hempty, true_and, if_true, nil_append, firstOctet, apply_ite d.append,
        singleton_append]
    · simp only [hempty, false_and, if_false]

variable {i : Int}

theorem asn1WriteInteger_atEnd (hd : d.AtEnd) (hi : i ≠ -1) :
    asn1WriteInteger d i =
      d.append (tlv asn1Integer (intOctets (decide (i < 0)) 4 (i % 2 ^ 32).toNat)) := by
  rw [asn1WriteInteger, asn1PushTag_atEnd hd, asn1WriteImplicitInteger, if_neg hi,
    pushIntBigendian_atEnd _ (hd.pushed _) rfl rfl, asn1PopTag_append hd]

/-! ## Reading -/

theorem readInteger_ahead : ∀ (octets : Bytes) (fuel : Nat) (i : Int) {d : Asn1Data} {p : Bytes},
    d.Ahead (octets ++ p) → d.Within octets.length → octets.length < fuel →
    readInteger fuel i d =
      (octets.foldl (fun i b => Int.bmod (i * 256 + b.toNat) (2 ^ 32)) i, d.skip octets.length)
  | [], fuel, i, d, p, h, hin, hfuel => by
    obtain ⟨fuel, rfl⟩ : ∃ k, fuel = k + 1 := ⟨fuel - 1, by omega⟩
    rw [readInteger, h.noError, hin.remaining]
    rfl
  | b :: octets, fuel, i, d, p, h, hin, hfuel => by
    obtain ⟨fuel, rfl⟩ : ∃ k, fuel = k + 1 := ⟨fuel - 1, by omega⟩
    rw [length_cons] at hfuel
    obtain ⟨hread, hahead⟩ := asn1ReadUint8_ahead h
    rw [readInteger, h.noError, hin.remaining]
    rw [length_cons, Nat.add_comm] at hin
    simp only [Bool.false_eq_true, if_false]
    rw [if_pos (by rw [length_cons]; omega), hread]
    simp only
    rw [readInteger_ahead octets fuel _ hahead hin.skip (by omega), skip_skip, foldl_cons,
      length_cons, Nat.add_comm]

/-- What is put together is the value of the octets as an `int`. -/
theorem foldl_bmod : ∀ octets : Bytes,
    octets.foldl (fun i b => Int.bmod (i * 256 + b.toNat) (2 ^ 32)) 0 =
      Int.bmod (beValue octets) (2 ^ 32) := by
  intro octets
  induction octets using reverseRecOn with
  | nil => rfl
  | append_singleton p b ih =>
    rw [foldl_append, foldl_cons, foldl_nil, beValue_append, ih, Int.natCast_add, Int.add_bmod,
      Int.bmod_mul_bmod, ← Int.add_bmod]
    rfl

theorem asn1ReadInteger_ahead {p octets : Bytes} (h : d.Ahead (tlv asn1Integer octets ++ p))
    (hlen : octets.length < 2 ^ 24) :
    asn1ReadInteger d =
      (octets.foldl (fun i b => Int.bmod (i * 256 + b.toNat) (2 ^ 32)) 0,
        d.skip (tlv asn1Integer octets).length) := by
  obtain ⟨hstart, hopened⟩ := asn1StartTag_ahead h
  have hin := hopened.inside
  rw [length_append] at hin
  rw [asn1ReadInteger, hstart]
  simp only
  rw [readInteger_ahead octets _ 0 hopened (Asn1Data.Within.opened h hlen) (by omega)]
  simp only [skip_hasError, hopened.noError, Bool.false_eq_true, if_false, asn1EndTag_opened h hlen]

/-! ## Two's complement -/

/-- The number that octets denote in two's complement: the highest one has the sign. -/
def signedValue : Bytes → Int
  | [] => 0
  | b :: p => p.foldl (fun v c => v * 256 + c.toNat) (b.toNat - if 128 ≤ b.toNat then 256 else 0)

/-- The octets denote `i`, and no octets that are fewer do. -/
structure Shortest (octets : Bytes) (i : Int) : Prop where
  nonempty : octets ≠ []
  value : signedValue octets = i
  least : ∀ other, other ≠ [] → signedValue other = i → octets.length ≤ other.length

theorem signedValue_append {p : Bytes} (hne : p ≠ []) (b : UInt8) :
    signedValue (p ++ [b]) = signedValue p * 256 + b.toNat := by
  cases p with
  | nil => exact absurd rfl hne
  | cons c p => simp [signedValue]

/-- What `m + 1` octets can denote. -/
def OctetRange (m : Nat) (i : Int) : Prop :=
  -((128 * 256 ^ m : Nat) : Int) ≤ i ∧ i < ((128 * 256 ^ m : Nat) : Int)

theorem OctetRange.mono {m n : Nat} (h : OctetRange m i) (hle : m ≤ n) : OctetRange n i := by
  have hpow : 256 ^ m ≤ 256 ^ n := Nat.pow_le_pow_right (by decide) hle
  unfold OctetRange at h ⊢
  omega

/-- Without the sign a negative number is too large by the power of its octets. -/
theorem signedValue_spec (p : Bytes) : ∀ m, p.length = m + 1 →
    OctetRange m (signedValue p) ∧
      (beValue p : Int) = signedValue p + if signedValue p < 0 then (256 ^ (m + 1) : Nat) else 0 := by
  induction p using reverseRecOn with
  | nil => simp
  | append_singleton p b ih =>
    intro m hm
    have hb := b.toNat_lt
    rw [length_append, length_singleton, Nat.add_left_inj] at hm
    cases m with
    | zero =>
      obtain rfl := length_eq_zero_iff.mp hm
      simp only [OctetRange, signedValue, beValue, nil_append, foldl_nil, foldl_cons]
      split <;> split <;> omega
    | succ m =>
      obtain ⟨hrange, hvalue⟩ := ih m hm
      rw [signedValue_append (ne_nil_of_length_eq_add_one hm), beValue_append, OctetRange]
      unfold OctetRange at hrange
      split at hvalue <;> split <;> omega

/-- The octets denote `i`, which is out of the range of one octet less. -/
def Tight (octets : Bytes) (i : Int) : Prop :=
  octets ≠ [] ∧ signedValue octets = i ∧
    (octets.length = 1 ∨ ¬ OctetRange (octets.length - 2) i)

variable {octets : Bytes}

theorem Tight.shortest (h : Tight octets i) : Shortest octets i := by
  obtain ⟨hne, hvalue, hout⟩ := h
  refine ⟨hne, hvalue, fun other hother hi => Nat.le_of_not_lt fun hlt => ?_⟩
  have hpos := length_pos_iff.mpr hother
  have hrange := (signedValue_spec other (other.length - 1) (by omega)).1
  rw [hi] at hrange
  exact hout.elim (by omega) fun hout => hout (hrange.mono (by omega))

theorem Tight.append {q : Int} (h : Tight octets q) (hzero : q ≠ 0) (hone : q ≠ -1) (b : UInt8) :
    Tight (octets ++ [b]) (q * 256 + b.toNat) := by
  obtain ⟨hne, hvalue, hout⟩ := h
  have hb := b.toNat_lt
  have hpos := length_pos_iff.mpr hne
  refine ⟨by simp, by rw [signedValue_append hne, hvalue], .inr fun hrange => ?_⟩
  rw [length_append, length_singleton, OctetRange] at hrange
  by_cases hlen : octets.length = 1
  · rw [hlen] at hrange
    omega
  · rw [show octets.length + 1 - 2 = octets.length - 2 + 1 by omega] at hrange
    rw [OctetRange] at hout
    omega

/-- Near zero the first octet decides. -/
theorem firstOctet_tight (hlow : -256 ≤ i) (hhigh : i < 256) :
    if i = -1 then firstOctet (decide (i < 0)) (ofNat (i % 256).toNat) = []
    else Tight (firstOctet (decide (i < 0)) (ofNat (i % 256).toNat)) i := by
  have hall : ∀ n : Fin 512, if (n.val : Int) - 256 = -1 then
      firstOctet (decide ((n.val : Int) - 256 < 0))
        (ofNat (((n.val : Int) - 256) % 256).toNat) = []
      else Tight (firstOctet (decide ((n.val : Int) - 256 < 0))
        (ofNat (((n.val : Int) - 256) % 256).toNat)) (n.val - 256) := by
    unfold Tight OctetRange
    decide +kernel
  have hi := hall ⟨(i + 256).toNat, by omega⟩
  rwa [show (((i + 256).toNat : Nat) : Int) - 256 = i by omega] at hi

/-- **What is written.** The octets of every number but -1 are the shortest ones; `u` is the
number as the unsigned one of its bits. -/
theorem intOctets_tight : ∀ (m : Nat) {i : Int} {u : Nat}, OctetRange m i →
    (u : Int) = i + (if i < 0 then ((256 ^ (m + 1) : Nat) : Int) else 0) →
    if i = -1 then intOctets (decide (i < 0)) (m + 1) u = []
    else Tight (intOctets (decide (i < 0)) (m + 1) u) i := by
  intro m
  induction m with
  | zero =>
    intro i u hi hu
    unfold OctetRange at hi
    have hfirst := firstOctet_tight (i := i) (by omega) (by omega)
    rw [show (i % 256).toNat = u by split at hu <;> omega] at hfirst
    simpa only [intOctets, ite_self, if_true] using hfirst
  | succ m ih =>
    intro i u hi hu
    unfold OctetRange at hi
    have hhigh := @ih (i / 256) (u / 256) (by unfold OctetRange; omega)
      (by split at hu <;> split <;> omega)
    have hlow : ofNat u = ofNat (i % 256).toNat := by
      rw [show (i % 256).toNat = u % 256 by split at hu <;> omega]
      exact ofNat_mod_size.symm
    rw [show decide (i / 256 < 0) = decide (i < 0) from decide_eq_decide.mpr (by omega)] at hhigh
    rw [intOctets, hlow]
    by_cases hnear : i / 256 = 0 ∨ i / 256 = -1
    · -- the octets above this one are all zero or all ones, and dropped
      have hnil : (if u / 256 ≠ 0 then intOctets (decide (i < 0)) (m + 1) (u / 256) else []) = [] := by
        obtain hzero | hone := hnear
        · rw [if_neg (by split at hu <;> omega)]
        · rw [if_pos hone] at hhigh
          rw [hhigh, ite_self]
      simp only [hnil, if_true]
      exact firstOctet_tight (by omega) (by omega)
    · rw [if_neg (by omega)] at hhigh
      have hi := hhigh.append (by omega) (by omega) (ofNat (i % 256).toNat)
      rw [toNat_ofNat', show i / 256 * 256 + (((i % 256).toNat % 2 ^ 8 : Nat) : Int) = i by
        omega] at hi
      simp only [if_pos (show u / 256 ≠ 0 by split at hu <;> omega), if_neg hhigh.1]
      rwa [if_neg (by omega)]

theorem Tight.length_le {m : Nat} (h : Tight octets i) (hi : OctetRange m i) :
    octets.length ≤ m + 1 := by
  refine Nat.le_of_not_lt fun hlt => ?_
  exact h.2.2.elim (by omega) fun hout => hout (hi.mono (by omega))

/-- What is left of an `int` without its sign. -/
theorem Tight.value_cases (h : Tight octets i) (hi : OctetRange 3 i) :
    0 ≤ i ∧ (beValue octets : Int) = i ∨ i < -2 ^ 23 ∧ (beValue octets : Int) = i + 2 ^ 32 ∨
      -2 ^ 23 ≤ i ∧ i < 0 ∧ beValue octets < 2 ^ 24 := by
  have hlen := h.length_le hi
  obtain ⟨hne, hvalue, hout⟩ := h
  have hpos := length_pos_iff.mpr hne
  obtain ⟨m, hm⟩ : ∃ m, octets.length = m + 1 := ⟨octets.length - 1, by omega⟩
  obtain ⟨hrange, hspec⟩ := signedValue_spec octets m hm
  have hlt := beValue_lt octets
  unfold OctetRange at hi hout hrange
  rw [hm] at hlen hout hlt
  obtain rfl | rfl | rfl | rfl : m = 0 ∨ m = 1 ∨ m = 2 ∨ m = 3 := by omega
  all_goals split at hspec <;> omega

/-- The octets of a number of 32 bits give it back, unless its nine highest bits are set. -/
theorem value_intOctets {u : Nat} (hu : u < 2 ^ 32) :
    (u < 0xFF800000 → beValue (intOctets (decide (2 ^ 31 ≤ u)) 4 u) = u) ∧
      (0xFF800000 ≤ u → beValue (intOctets (decide (2 ^ 31 ≤ u)) 4 u) < 2 ^ 24) ∧
      (intOctets (decide (2 ^ 31 ≤ u)) 4 u).length ≤ 4 := by
  obtain ⟨i, hi⟩ : ∃ i : Int, i = u - if 2 ^ 31 ≤ u then 2 ^ 32 else 0 := ⟨_, rfl⟩
  have hrange : OctetRange 3 i := by
    unfold OctetRange
    split at hi <;> omega
  have htight := intOctets_tight 3 hrange (u := u) (by split at hi <;> split <;> omega)
  rw [show decide (i < 0) = decide (2 ^ 31 ≤ u) from
    decide_eq_decide.mpr (by split at hi <;> omega)] at htight
  rw [show 3 + 1 = 4 from rfl] at htight
  split at htight
  · rw [htight]
    refine ⟨fun hlt => ?_, fun _ => by decide, by decide⟩
    split at hi <;> omega
  · have hcases := htight.value_cases hrange
    refine ⟨fun hlt => ?_, fun hge => ?_, htight.length_le hrange⟩
    · split at hi <;> omega
    · split at hi <;> omega

/-! ## The round trip -/

theorem asn1WriteInteger_tight (hd : d.AtEnd) (hi : OctetRange 3 i) :
    ∃ octets, asn1WriteInteger d i = d.append (tlv asn1Integer octets) ∧ Tight octets i := by
  by_cases hone : i = -1
  · refine ⟨[0xff], ?_, by rw [hone]; exact ⟨by simp, rfl, .inl rfl⟩⟩
    exact asn1PopTag_content hd (fun d => asn1WriteImplicitInteger d i) fun hd => by
      rw [asn1WriteImplicitInteger, if_pos hone]
      exact asn1Write_atEnd hd _
  · have htight := intOctets_tight 3 hi (u := (i % 2 ^ 32).toNat)
      (by unfold OctetRange at hi; split <;> omega)
    rw [if_neg hone] at htight
    exact ⟨_, asn1WriteInteger_atEnd hd hone, htight⟩

/-- `i` is written as the shortest octets that denote it, and read back from them. -/
def IntegerKept (i : Int) : Prop :=
  (∃ octets, (asn1WriteInteger (asn1Load []) i).data = tlv asn1Integer octets ∧
    Shortest octets i) ∧
  ∃ d, asn1ReadInteger (asn1Load (asn1WriteInteger (asn1Load []) i).data) = (i, d) ∧
    d.hasError = false

/-- **Integers come back** when they are not negative or need four octets: `asn1_read_Integer` does
not extend the sign. -/
theorem integer_kept_iff (i : Int32) : IntegerKept i.toInt ↔ 0 ≤ i.toInt ∨ i.toInt < -2 ^ 23 := by
  have hi : OctetRange 3 i.toInt := ⟨i.le_toInt, i.toInt_lt⟩
  obtain ⟨octets, hwrite, htight⟩ := asn1WriteInteger_tight Asn1Data.AtEnd.load hi
  have hlen := htight.length_le hi
  have hshort : octets.length < 2 ^ 24 := by omega
  have hread := asn1ReadInteger_ahead (ahead_load _ hshort) hshort
  have hdata : (asn1WriteInteger (asn1Load []) i.toInt).data = tlv asn1Integer octets := by
    rw [hwrite]
    rfl
  have hback : Int.bmod (beValue octets) (2 ^ 32) = i.toInt ↔ 0 ≤ i.toInt ∨ i.toInt < -2 ^ 23 := by
    have hcases := htight.value_cases hi
    unfold OctetRange at hi
    rw [Int.bmod_def]
    split <;> omega
  rw [← hback, IntegerKept, hdata, ← foldl_bmod, hread]
  constructor
  · rintro ⟨-, d, heq, -⟩
    exact (Prod.mk.inj heq).1
  · intro heq
    exact ⟨⟨octets, rfl, htight.shortest⟩, _, by rw [heq], rfl⟩

/-- -1 is written as one octet of ones and read back as 255. -/
theorem minus_one_read_as_255 : ¬ IntegerKept (-1) := by
  rintro ⟨-, d, hread, -⟩
  have hvalue : (asn1ReadInteger (asn1Load (asn1WriteInteger (asn1Load []) (-1)).data)).1 = 255 := by
    decide
  rw [hread] at hvalue
  simp at hvalue

end OpenvasSmb.Asn1

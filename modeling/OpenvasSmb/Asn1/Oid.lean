import Mathlib.Data.Nat.Log
import OpenvasSmb.Asn1.Codec

/-!
# The OID coder

`asn1_read_OID` makes a text of numbers out of the octets, `asn1_write_OID` takes such a
text apart with `strtol`. A text of the two parts of a first octet and of arcs below
`2 ^ 32` is turned by the writer into the octets of the same numbers
(`asn1WriteOID_text`), and from those the reader makes the same text again
(`asn1ReadOID_ahead`).
-/

namespace OpenvasSmb.Asn1

open Kit List Nat UInt8

/-- The text of an OID: two numbers, then the arcs. -/
def spacedText (a b : Nat) (arcs : List Nat) : String :=
  arcs.foldl (fun text v => text ++ " " ++ toString v) (toString a ++ " " ++ toString b)

/-- The text of an OID in which the first two numbers are the parts of an octet. -/
def oidText (b : UInt8) (arcs : List Nat) : String :=
  spacedText (b.toNat / 40) (b.toNat % 40) arcs

def oidOctets (b : UInt8) (arcs : List Nat) : Bytes := b :: arcs.flatMap arcOctets

/-- A text that the reader can make. -/
def Readable (oid : String) : Prop :=
  ∃ d d', asn1ReadOID d = (some oid, d') ∧ d'.hasError = false

/-! ## Writing -/

def arcsText (arcs : List Nat) : List Char := arcs.flatMap fun v => ' ' :: Nat.toDigits 10 v

theorem noDigit_arcsText (arcs : List Nat) : NoDigit (arcsText arcs) := by
  cases arcs with
  | nil => simp [NoDigit, arcsText]
  | cons v arcs =>
    intro c hc
    obtain rfl : ' ' = c := by simpa [arcsText] using hc
    decide

theorem toList_foldl_arcs : ∀ (arcs : List Nat) (text : String),
    (arcs.foldl (fun text v => text ++ " " ++ toString v) text).toList =
      text.toList ++ arcsText arcs
  | [], text => by simp [arcsText]
  | v :: arcs, text => by
    rw [foldl_cons, toList_foldl_arcs arcs]
    simp [arcsText]

theorem toList_spacedText (a b : Nat) (arcs : List Nat) :
    (spacedText a b arcs).toList =
      toDigits 10 a ++ (' ' :: (toDigits 10 b ++ arcsText arcs)) := by
  rw [spacedText, toList_foldl_arcs]
  simp

/-- The first two numbers of a text, one `strtol` after the other. -/
theorem strtol_spacedText {a b : Nat} (ha : a < 2 ^ 63) (hb : b < 2 ^ 63) (arcs : List Nat) :
    (strtol (spacedText a b arcs).toList).1 = a ∧
      strtol (strtol (spacedText a b arcs).toList).2 = ((b : Int), arcsText arcs) := by
  have hfirst : strtol (spacedText a b arcs).toList =
      ((a : Int), ' ' :: (toDigits 10 b ++ arcsText arcs)) := by
    refine strtol_number ha ?_ (by rw [toList_spacedText])
    intro c hc
    obtain rfl : ' ' = c := by simpa using hc
    decide
  rw [hfirst]
  refine ⟨rfl, strtol_number hb (noDigit_arcsText arcs) ?_⟩
  rw [dropWhile_cons_of_pos (by decide)]

theorem writeArcs_text : ∀ (arcs : List Nat) {fuel : Nat} {d : Asn1Data}, d.AtEnd →
    (∀ v ∈ arcs, v < 2 ^ 32) → (arcsText arcs).length ≤ fuel →
    writeArcs fuel (arcsText arcs) d = some (d.append (arcs.flatMap arcOctets))
  | [], fuel, d, _, _, _ => by simp [arcsText, writeArcs]
  | v :: arcs, fuel, d, hd, hlt, hfuel => by
    have htext : arcsText (v :: arcs) = ' ' :: (toDigits 10 v ++ arcsText arcs) := by
      simp [arcsText]
    have hv := hlt v (mem_cons_self ..)
    have hnumber : strtol (arcsText (v :: arcs)) = ((v : Int), arcsText arcs) := by
      refine strtol_number (by omega) (noDigit_arcsText arcs) ?_
      rw [htext, dropWhile_cons_of_pos (by decide)]
    rw [htext] at hfuel hnumber ⊢
    obtain ⟨fuel, rfl⟩ := Nat.exists_eq_add_of_lt (Nat.lt_of_lt_of_le (Nat.succ_pos _) hfuel)
    have hcut : ((v : Int) % 2 ^ 32).toNat = v := by omega
    have hshort : (arcsText arcs).length < (' ' :: (Nat.toDigits 10 v ++ arcsText arcs)).length := by
      simp only [length_cons, length_append]
      omega
    rw [writeArcs]
    · rw [hnumber]
      simp only
      rw [if_pos hshort, hcut, asn1Write_atEnd hd,
        writeArcs_text arcs (hd.append _) (fun x hx => hlt x (mem_cons_of_mem _ hx))
          (by omega), append_append]
      simp
    · simp

variable {arcs : List Nat} {d : Asn1Data}

/-- **Writing an OID.** A text of numbers is written as their octets, the first two of them
in one. -/
theorem asn1WriteOID_spacedText (hd : d.AtEnd) {a b : Nat} (hfirst : 40 * a + b < 256)
    (hlt : ∀ v ∈ arcs, v < 2 ^ 32) :
    asn1WriteOID d (spacedText a b arcs) =
      some (d.append (tlv asn1Oid (oidOctets (ofNat (40 * a + b)) arcs))) := by
  obtain ⟨ha, hb⟩ := strtol_spacedText (a := a) (b := b) (by omega) (by omega) arcs
  have hoctet : ((40 * ((a : Int) % 2 ^ 32) + (b : Int) % 2 ^ 32) % 2 ^ 32).toNat = 40 * a + b := by
    omega
  have hpushed := hd.pushed asn1Oid
  rw [asn1WriteOID, asn1PushTag_atEnd hd]
  simp only [hb, ha, hoctet, asn1WriteUint8, asn1Write_atEnd hpushed]
  rw [writeArcs_text arcs (hpushed.append _) hlt (le_refl _), append_append, Option.map_some,
    asn1PopTag_append hd]
  rfl

theorem asn1WriteOID_text (hd : d.AtEnd) {b : UInt8} (hlt : ∀ v ∈ arcs, v < 2 ^ 32) :
    asn1WriteOID d (oidText b arcs) = some (d.append (tlv asn1Oid (oidOctets b arcs))) := by
  have hb := b.toNat_lt
  have hoctet : 40 * (b.toNat / 40) + b.toNat % 40 = b.toNat := div_add_mod ..
  have hwrite := asn1WriteOID_spacedText hd (a := b.toNat / 40) (b := b.toNat % 40) (by omega) hlt
  rwa [hoctet, UInt8.ofNat_toNat] at hwrite

/-! ## Reading -/

section Octets

variable {d : Asn1Data} {p : Bytes} {c : UInt8}

/-- The octets of an arc: bit 7 is set in all but the last. -/
theorem arc_octet (x : Nat) :
    ((0x80 ||| ofNat x) &&& 0x80 ≠ 0 ∧
        ((0x80 ||| ofNat x) &&& 0x7f).toNat = x % 128) ∧
      (ofNat x &&& 0x7f) &&& 0x80 = 0 ∧
        ((ofNat x &&& 0x7f) &&& 0x7f).toNat = x % 128 := by
  have hall : ∀ n : Fin 256, ((0x80 ||| ofNat n.val) &&& 0x80 ≠ 0 ∧
        ((0x80 ||| ofNat n.val) &&& 0x7f).toNat = n.val % 128) ∧
      (ofNat n.val &&& 0x7f) &&& 0x80 = 0 ∧
        ((ofNat n.val &&& 0x7f) &&& 0x7f).toNat = n.val % 128 := by decide +kernel
  have hx := hall ⟨x % 256, mod_lt _ (by decide)⟩
  rwa [show ofNat (x % 256) = ofNat x from ofNat_mod_size,
    show x % 256 % 128 = x % 128 by omega] at hx

theorem readArc_continued (fuel : Nat) {b : UInt8} {v x : Nat}
    (h : d.Ahead ((0x80 ||| ofNat x) :: p)) :
    readArc (fuel + 1) b v d =
      readArc fuel (0x80 ||| ofNat x) ((v * 128 + x % 128) % 2 ^ 32) (d.skip 1) := by
  obtain ⟨⟨hbit, hval⟩, -⟩ := arc_octet x
  rw [readArc, (asn1ReadUint8_ahead h).1]
  simp only [Option.getD_some, skip_hasError, h.noError, hval, hbit, ne_eq, not_false_eq_true,
    and_self, if_true]

theorem readArc_last {fuel : Nat} {b : UInt8} {v x : Nat}
    (h : d.Ahead ((ofNat x &&& 0x7f) :: p)) :
    readArc (fuel + 1) b v d =
      (ofNat x &&& 0x7f, (v * 128 + x % 128) % 2 ^ 32, d.skip 1) := by
  obtain ⟨-, hbit, hval⟩ := arc_octet x
  rw [readArc, (asn1ReadUint8_ahead h).1]
  simp only [Option.getD_some, hval, hbit, ne_eq, not_true_eq_false, and_false, if_false]

/-- The octets of an arc in front of its last one, at most `n` of them. -/
def highOctets : Nat → Nat → Bytes
  | 0, _ => []
  | n + 1, w => if w = 0 then [] else highOctets n (w / 128) ++ [0x80 ||| UInt8.ofNat w]

theorem arcOctets_eq {v : Nat} (hv : v < 2 ^ 32) :
    arcOctets v = highOctets 4 (v / 128) ++ [UInt8.ofNat v &&& 0x7f] := by
  simp only [arcOctets, highOctets, Nat.div_div_eq_div_mul, Nat.reduceMul, Nat.reducePow]
  split_ifs <;> first | omega | rfl

theorem length_highOctets : ∀ (n : Nat) {v : Nat}, v < 128 ^ (n + 1) →
    (highOctets n (v / 128)).length = Nat.log 128 v
  | 0, v, hv => (Nat.log_of_lt hv).symm
  | n + 1, v, hv => by
    have hdiv : v / 128 < 128 ^ (n + 1) := Nat.div_lt_of_lt_mul (by rwa [Nat.mul_comm])
    rw [highOctets]
    split
    · exact (Nat.log_of_lt (by omega)).symm
    · rw [length_append, length_highOctets n hdiv, length_singleton,
        Nat.log_of_one_lt_of_le (by decide) (show 128 ≤ v by omega)]

theorem length_arcOctets {v : Nat} (hv : v < 2 ^ 32) :
    (arcOctets v).length = log 128 v + 1 := by
  rw [arcOctets_eq hv, length_append, length_highOctets 4 (by omega), length_singleton]

theorem readArc_highOctets : ∀ (n fuel : Nat) {w : Nat} {b : UInt8} {d : Asn1Data} {p : Bytes},
    w < 128 ^ n → w < 2 ^ 32 → d.Ahead (highOctets n w ++ p) →
    ∃ c, readArc (fuel + (highOctets n w).length) b 0 d =
      readArc fuel c w (d.skip (highOctets n w).length)
  | 0, fuel, w, b, d, p, hw, _, _ => by
    obtain rfl : w = 0 := by omega
    exact ⟨b, rfl⟩
  | n + 1, fuel, w, b, d, p, hw, hlt, h => by
    rw [highOctets] at h ⊢
    split at h
    · rename_i hzero
      rw [hzero]
      exact ⟨b, rfl⟩
    · rename_i hpos
      rw [append_assoc] at h
      have hdiv : w / 128 < 128 ^ n := Nat.div_lt_of_lt_mul (by rwa [Nat.mul_comm])
      obtain ⟨c, hc⟩ := readArc_highOctets n (fuel + 1) (b := b) hdiv (by omega) h
      have hvalue : (w / 128 * 128 + w % 128) % 2 ^ 32 = w := by omega
      have hnext := readArc_continued fuel (b := c) (v := w / 128) h.skip
      rw [hvalue] at hnext
      rw [if_neg hpos, length_append, length_singleton,
        show ∀ k, fuel + (k + 1) = fuel + 1 + k by omega]
      exact ⟨_, hc.trans hnext⟩

theorem readArc_ahead (fuel : Nat) (b : UInt8) {v : Nat} (hv : v < 2 ^ 32)
    (h : d.Ahead (arcOctets v ++ p)) (hfuel : 5 ≤ fuel) :
    readArc fuel b 0 d =
      (ofNat v &&& 0x7f, v, d.skip (arcOctets v).length) := by
  have hlength := length_arcOctets hv
  have hlog : log 128 v < 5 := log_lt_of_lt_pow' (by decide) (by omega)
  rw [arcOctets_eq hv] at h hlength ⊢
  rw [length_append, length_singleton] at hlength ⊢
  rw [append_assoc] at h
  obtain ⟨fuel, rfl⟩ : ∃ k, fuel = k + 1 + (highOctets 4 (v / 128)).length :=
    ⟨fuel - 1 - (highOctets 4 (v / 128)).length, by omega⟩
  obtain ⟨c, hc⟩ := readArc_highOctets 4 (fuel + 1) (b := b) (by omega) (by omega) h
  rw [hc, readArc_last h.skip, skip_skip, show (v / 128 * 128 + v % 128) % 2 ^ 32 = v by omega]

end Octets

theorem readArcs_ahead : ∀ (arcs : List Nat) (fuel : Nat) (b : UInt8) (text : String)
    {d : Asn1Data} {p : Bytes}, (∀ v ∈ arcs, v < 2 ^ 32) → d.Ahead (arcs.flatMap arcOctets ++ p) →
    d.Within (arcs.flatMap arcOctets).length → (arcs ≠ [] → 4 ≤ d.data.length) →
    arcs.length < fuel →
    readArcs fuel b text d = (arcs.foldl (fun text v => text ++ " " ++ toString v) text,
      d.skip (arcs.flatMap arcOctets).length)
  | [], fuel, b, text, d, p, _, h, hin, _, hfuel => by
    obtain ⟨fuel, rfl⟩ : ∃ k, fuel = k + 1 := ⟨fuel - 1, by omega⟩
    rw [readArcs, h.noError, hin.remaining]
    rfl
  | v :: arcs, fuel, b, text, d, p, hlt, h, hin, hdata, hfuel => by
    obtain ⟨fuel, rfl⟩ : ∃ k, fuel = k + 1 := ⟨fuel - 1, by omega⟩
    have hpos := length_arcOctets (hlt v (mem_cons_self ..))
    rw [flatMap_cons, length_append] at hin
    rw [flatMap_cons, append_assoc] at h
    have hread := readArc_ahead (d.data.length + 1) b
      (hlt v (mem_cons_self ..)) h (succ_le_succ (hdata (cons_ne_nil v arcs)))
    have hrest := readArcs_ahead arcs fuel (ofNat v &&& 0x7f)
      (text ++ " " ++ toString v) (fun x hx => hlt x (mem_cons_of_mem _ hx)) h.skip
      hin.skip (fun _ => hdata (cons_ne_nil v arcs)) (by simpa using hfuel)
    rw [readArcs, h.noError, hin.remaining]
    simp only [Bool.false_eq_true, if_false]
    rw [if_pos (by omega), hread]
    rw [hrest, skip_skip, flatMap_cons, length_append, foldl_cons]

/-- The size of the content of an OID with these arcs behind its first octet. -/
def oidSize (arcs : List Nat) : Nat := arcs.foldr (fun v n => Nat.log 128 v + 1 + n) 1

theorem length_oidOctets (b : UInt8) : ∀ {arcs : List Nat}, (∀ v ∈ arcs, v < 2 ^ 32) →
    (oidOctets b arcs).length = oidSize arcs
  | [], _ => rfl
  | v :: arcs, hlt => by
    have hrest := length_oidOctets b fun x hx => hlt x (mem_cons_of_mem _ hx)
    have hv := length_arcOctets (hlt v (mem_cons_self ..))
    simp only [oidOctets, flatMap_cons, length_cons, length_append, oidSize, foldr_cons] at hrest ⊢
    omega

theorem length_lt_oidSize : ∀ arcs : List Nat, arcs.length < oidSize arcs
  | [] => Nat.zero_lt_one
  | v :: arcs => by
    have hrest := length_lt_oidSize arcs
    simp only [oidSize, foldr_cons, length_cons] at hrest ⊢
    omega

/-- **Reading an OID.** From the octets of the numbers the reader makes their text. -/
theorem asn1ReadOID_ahead {p : Bytes} {b : UInt8} (hlt : ∀ v ∈ arcs, v < 2 ^ 32)
    (h : d.Ahead (tlv asn1Oid (oidOctets b arcs) ++ p))
    (hlen : (oidOctets b arcs).length < 2 ^ 24) :
    asn1ReadOID d =
      (some (oidText b arcs), d.skip (tlv asn1Oid (oidOctets b arcs)).length) := by
  obtain ⟨hstart, hopened⟩ := asn1StartTag_ahead h
  have hclose := asn1EndTag_opened h hlen
  have hwithin := Asn1Data.Within.opened h hlen
  have hcount := length_lt_oidSize arcs
  rw [← length_oidOctets b hlt] at hcount
  have hin := h.inside
  have hpl := popLength_length_pos (oidOctets b arcs).length
  have hlen_eq : (oidOctets b arcs).length = 1 + (arcs.flatMap arcOctets).length := by
    rw [oidOctets, length_cons]
    omega
  rw [length_append, length_tlv] at hin
  have hdata : (d.opened (oidOctets b arcs).length).data = d.data := rfl
  rw [asn1ReadOID, hstart]
  generalize d.opened (oidOctets b arcs).length = d₁ at hopened hclose hdata hwithin
  rw [hlen_eq] at hwithin
  obtain ⟨hfirst, hrest⟩ := asn1ReadUint8_ahead hopened
  have harcs := readArcs_ahead arcs ((d₁.skip 1).data.length + 1) b
    (toString (b.toNat / 40) ++ " " ++ toString (b.toNat % 40)) hlt hrest hwithin.skip
    (fun hne => by
      have := length_pos_iff.mpr hne
      rw [skip_data, hdata]
      omega)
    (by rw [skip_data, hdata]; omega)
  simp only [hfirst, Option.getD_some, harcs, skip_skip]
  rw [← hlen_eq, hclose]
  rfl

end OpenvasSmb.Asn1

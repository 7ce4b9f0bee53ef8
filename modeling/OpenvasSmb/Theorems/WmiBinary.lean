import OpenvasSmb.Theorems.WmiRegistry
import OpenvasSmb.Kit.Bytes

/-!
# The text of a binary registry value

`wmi_reg_get_bin_val` renders every byte with `"%0X"`, so a byte below 16 gives one digit and the
others two. A byte of two digits reads like two bytes of one, and two neighbours read like one
byte unless the first is 0. The bytes can be told from the text only where neither is there: zero
bytes and behind them at most one byte below 16 (`bin_val_recovered_iff`).
-/

namespace OpenvasSmb.Wmi

open Kit Wbem List UInt8 Option

variable {x : Bytes} {b c : UInt8}

/-! ## Digits -/

/-- A digit of `"%X"`. -/
def hexDigit (n : Nat) : Char := (Nat.digitChar n).toUpper

def byteDigits (b : UInt8) : List Char :=
  if b < 16 then [hexDigit b.toNat] else [hexDigit (b.toNat / 16), hexDigit (b.toNat % 16)]

/-- The digits of some bytes, as the loop appends them. -/
def hexText (x : Bytes) : List Char := x.flatMap byteDigits

theorem percentX_byte (b : UInt8) : percentX (b.toNat % 256) = .ofList (byteDigits b) := by
  apply forall_byte (P := fun b => percentX (b.toNat % 256) = .ofList (byteDigits b))
  decide +kernel

theorem hexDigit_inj {a b : Nat} (ha : a < 16) (hb : b < 16) (h : hexDigit a = hexDigit b) :
    a = b := by
  have hall : ∀ a b : Fin 16, hexDigit a = hexDigit b → a = b := by decide
  exact congrArg Fin.val (hall ⟨a, ha⟩ ⟨b, hb⟩ h)

theorem byteDigits_of_lt (h : b < 16) : byteDigits b = [hexDigit b.toNat] :=
  if_pos h

theorem byteDigits_of_ge (h : ¬b < 16) :
    byteDigits b = [hexDigit (b.toNat / 16), hexDigit (b.toNat % 16)] :=
  if_neg h

theorem byteDigits_ne_nil (b : UInt8) : byteDigits b ≠ [] := by
  rw [byteDigits]
  split <;> exact cons_ne_nil _ _

@[simp] theorem hexText_nil : hexText [] = [] := rfl

@[simp] theorem hexText_cons (b : UInt8) (x : Bytes) :
    hexText (b :: x) = byteDigits b ++ hexText x := List.flatMap_cons

@[simp] theorem hexText_append (x y : Bytes) : hexText (x ++ y) = hexText x ++ hexText y :=
  flatMap_append

theorem hexText_eq_nil (h : hexText x = []) : x = [] := by
  cases x with
  | nil => rfl
  | cons b x =>
    rw [hexText_cons, append_eq_nil_iff] at h
    exact absurd h.1 (byteDigits_ne_nil b)

theorem appendBytes_eq : ∀ (x : Bytes) (res : Option String),
    appendBytes res (x.map toNat) =
      if x = [] then res else some (res.getD "" ++ .ofList (hexText x)) := by
  intro x
  induction x with
  | nil =>
    intro res
    rfl
  | cons b x ih =>
    intro res
    rw [map_cons, appendBytes, ih, percentX_byte, if_neg (cons_ne_nil b x)]
    by_cases hx : x = []
    · simp [hx]
    · rw [if_neg hx, hexText_cons, String.ofList_append, getD_some, String.append_assoc]

theorem appendBytes_inj {y : Bytes} {res : Option String} :
    appendBytes res (x.map toNat) = appendBytes res (y.map toNat) ↔
      hexText x = hexText y := by
  have hlength : ∀ {x : Bytes}, x ≠ [] → ∀ {s t : String}, s = t ++ .ofList (hexText x) →
      t ≠ s := by
    rintro x hx s t rfl hst
    have hlen := congrArg (fun s => s.toList.length) hst
    simp only [String.toList_append, String.toList_ofList, length_append] at hlen
    exact hx (hexText_eq_nil (length_eq_zero_iff.mp (by omega)))
  rw [appendBytes_eq, appendBytes_eq]
  constructor
  · intro h
    split at h <;> split at h
    · next hx hy => rw [hx, hy]
    · next hx hy =>
        cases res with
        | none => cases h
        | some s => exact absurd (some.inj h) (hlength hy rfl)
    · next hx hy =>
        cases res with
        | none => cases h
        | some s => exact absurd (some.inj h).symm (hlength hx rfl)
    · have htext := congrArg String.toList (some.inj h)
      simpa using htext
  · intro h
    by_cases hx : x = []
    · have hy : y = [] := hexText_eq_nil (by rw [← h, hx, hexText_nil])
      rw [hx, hy]
    · have hy : y ≠ [] := by
        rintro rfl
        exact hx (hexText_eq_nil h)
      rw [if_neg hx, if_neg hy, h]

/-! ## Which bytes the text tells -/

/-- Zero bytes, and behind them at most one byte below 16. -/
def OneDigit (x : Bytes) : Prop := x = [] ∨ ∃ n b, b < 16 ∧ x = List.replicate n 0 ++ [b]

/-- The first digit tells a byte that has only one. -/
theorem byteDigits_head (hb : b < 16) {rest rest' : List Char}
    (h : byteDigits c ++ rest' = hexDigit b.toNat :: rest) (hc : c < 16) : c = b := by
  rw [byteDigits_of_lt hc] at h
  have hdigit : hexDigit c.toNat = hexDigit b.toNat := (cons.inj h).1
  exact UInt8.toNat_inj.mp (hexDigit_inj (UInt8.lt_iff_toNat_lt.mp hc)
    (UInt8.lt_iff_toNat_lt.mp hb) hdigit)

theorem OneDigit.recovered : ∀ (n : Nat) {b : UInt8}, b < 16 → ∀ {y : Bytes},
    hexText y = hexText (List.replicate n 0 ++ [b]) → y = List.replicate n 0 ++ [b] := by
  intro n
  induction n with
  | zero =>
    intro b hb y h
    simp only [replicate_zero, nil_append, hexText_cons, hexText_nil,
      append_nil, byteDigits_of_lt hb] at h ⊢
    cases y with
    | nil => cases h
    | cons c y =>
      rw [hexText_cons] at h
      by_cases hc : c < 16
      · obtain rfl := byteDigits_head hb h hc
        rw [byteDigits_of_lt hc] at h
        rw [hexText_eq_nil (cons.inj h).2]
      · rw [byteDigits_of_ge hc] at h
        cases (cons.inj h).2
  | succ n ih =>
    intro b hb y h
    cases y with
    | nil => cases h
    | cons c y =>
      rw [hexText_cons] at h
      by_cases hc : c < 16
      · obtain rfl := byteDigits_head (show (0 : UInt8) < 16 by decide) h hc
        rw [byteDigits_of_lt hc] at h
        rw [ih hb (cons.inj h).2]
        rfl
      · -- the first digit of a byte of two digits is not 0
        rw [byteDigits_of_ge hc] at h
        have hlt := c.toNat_lt
        have hdigit := hexDigit_inj (by omega) (by decide) (cons.inj h).1
        rw [lt_iff_toNat_lt, Nat.not_lt] at hc
        change 16 ≤ c.toNat at hc
        change c.toNat / 16 = 0 at hdigit
        omega

/-- A byte of two digits reads like two bytes. -/
theorem hexText_split (hb : ¬b < 16) (x y : Bytes) :
    hexText (x ++ ofNat (b.toNat / 16) :: ofNat (b.toNat % 16) :: y) =
      hexText (x ++ b :: y) := by
  have hlt := b.toNat_lt
  have hsmall : ∀ {n}, n < 16 → ofNat n < 16 := by
    intro n hn
    rwa [lt_iff_toNat_lt, toNat_ofNat_of_lt' (by show _ < 256; omega)]
  have hhigh : ofNat (b.toNat / 16) < 16 := hsmall (by omega)
  have hlow : ofNat (b.toNat % 16) < 16 := hsmall (by omega)
  rw [hexText_append, hexText_append, hexText_cons, hexText_cons, hexText_cons,
    byteDigits_of_lt hhigh, byteDigits_of_lt hlow, byteDigits_of_ge hb,
    toNat_ofNat_of_lt' (by show _ < 256; omega),
    toNat_ofNat_of_lt' (by show _ < 256; omega)]
  rfl

/-- Two digits are those of a byte, unless the first is 0. -/
theorem exists_byte (hb : b < 16) (hc : c < 16) (hzero : b ≠ 0) :
    ∃ d : UInt8, ¬d < 16 ∧ UInt8.ofNat (d.toNat / 16) = b ∧ UInt8.ofNat (d.toNat % 16) = c := by
  have hb' : b.toNat < 16 := UInt8.lt_iff_toNat_lt.mp hb
  have hc' : c.toNat < 16 := UInt8.lt_iff_toNat_lt.mp hc
  have hpos : b.toNat ≠ 0 := fun h => hzero (UInt8.toNat_inj.mp h)
  have hnat : (UInt8.ofNat (16 * b.toNat + c.toNat)).toNat = 16 * b.toNat + c.toNat :=
    UInt8.toNat_ofNat_of_lt' (by show _ < 256; omega)
  refine ⟨UInt8.ofNat (16 * b.toNat + c.toNat), ?_, ?_, ?_⟩
  · rw [UInt8.lt_iff_toNat_lt]
    show ¬_ < 16
    omega
  · rw [hnat, show (16 * b.toNat + c.toNat) / 16 = b.toNat by omega, UInt8.ofNat_toNat]
  · rw [hnat, show (16 * b.toNat + c.toNat) % 16 = c.toNat by omega, UInt8.ofNat_toNat]

theorem OneDigit.head_lt (h : OneDigit (c :: x)) : c < 16 := by
  rcases h with h | ⟨n, b, hb, h⟩
  · cases h
  · cases n with
    | zero =>
      cases h
      exact hb
    | succ n =>
      cases h
      decide

theorem OneDigit.zero_cons (h : OneDigit (c :: x)) : OneDigit (0 :: c :: x) := by
  rcases h with h | ⟨n, b, hb, h⟩
  · cases h
  · exact .inr ⟨n + 1, b, hb, by rw [h]; rfl⟩

/-- Where the bytes are not told by their text, others have the same. -/
theorem exists_same_text : ∀ x : Bytes, ¬OneDigit x → ∃ y, y ≠ x ∧ hexText y = hexText x := by
  intro x
  induction x with
  | nil =>
    intro hx
    exact absurd (.inl rfl) hx
  | cons b x ih =>
    intro hx
    by_cases hb : b < 16
    · cases x with
      | nil => exact absurd (.inr ⟨0, b, hb, rfl⟩) hx
      | cons c x =>
        by_cases hrest : OneDigit (c :: x)
        · -- not 0, and a byte of one digit behind it: they read like one byte
          have hc : c < 16 := hrest.head_lt
          have hzero : b ≠ 0 := by
            rintro rfl
            exact hx hrest.zero_cons
          obtain ⟨d, hd, hhigh, hlow⟩ := exists_byte hb hc hzero
          refine ⟨d :: x, ?_, ?_⟩
          · intro h
            have hlen := congrArg length h
            simp at hlen
          · have htext := hexText_split hd [] x
            rw [hhigh, hlow] at htext
            exact htext.symm
        · obtain ⟨y, hne, htext⟩ := ih hrest
          exact ⟨b :: y, fun h => hne (cons.inj h).2, by rw [hexText_cons, htext, hexText_cons b]⟩
    · refine ⟨_, ?_, hexText_split hb [] x⟩
      intro h
      have hlen := congrArg length h
      simp at hlen

/-! ## The function -/

/-- The registry provider returns the bytes as the value. -/
def SendsBytes (S : Provider) (q : ValueQuery) (x : Bytes) : Prop :=
  ∃ out, (execRegMethod S "GetBinaryValue" q).run = some (.ok out) ∧
    wbemClassObjectGet out "uValue" (.ofString none) =
      some (.ok, ⟨some (.nums 1), .nums (some (x.map UInt8.toNat))⟩)

theorem wmiRegGetBinVal_eq {S : Provider} {q : ValueQuery} (h : SendsBytes S q x)
    (array : CimUnion → Option (Option (List Nat))) (res : Option String) :
    wmiRegGetBinVal S array true q res = some (0, appendBytes res (x.map toNat)) := by
  obtain ⟨out, hout, hget⟩ := h
  rw [wmiRegGetBinVal, hout]
  simp only [hget]
  rfl

/-- The bytes can be recovered: no others give the same result, with the same `*res` before. -/
def Recovered (S : Bytes → Provider) (array : CimUnion → Option (Option (List Nat)))
    (q : ValueQuery) (res : Option String) (x : Bytes) : Prop :=
  ∀ y, y ≠ x →
    wmiRegGetBinVal (S y) array true q res ≠ wmiRegGetBinVal (S x) array true q res

/-- **Binary values** can be recovered from the text exactly if they are zero bytes with at most one
byte below 16 behind them. -/
theorem bin_val_recovered_iff {S : Bytes → Provider} {q : ValueQuery}
    (hsends : ∀ x, SendsBytes (S x) q x) (array : CimUnion → Option (Option (List Nat)))
    (res : Option String) (x : Bytes) : Recovered S array q res x ↔ OneDigit x := by
  have hsame : ∀ y, wmiRegGetBinVal (S y) array true q res =
      wmiRegGetBinVal (S x) array true q res ↔ hexText y = hexText x := by
    intro y
    rw [wmiRegGetBinVal_eq (hsends y), wmiRegGetBinVal_eq (hsends x), some.injEq,
      Prod.mk.injEq, and_iff_right rfl]
    exact appendBytes_inj
  constructor
  · intro h
    by_contra hx
    obtain ⟨y, hne, htext⟩ := exists_same_text x hx
    exact h y hne ((hsame y).mpr htext)
  · rintro (rfl | ⟨n, b, hb, rfl⟩) y hne hres
    · exact hne (hexText_eq_nil ((hsame y).mp hres))
    · exact hne (OneDigit.recovered n hb ((hsame y).mp hres))

/-! ## Samples -/

/-- A server that has the method, and answers it with the bytes. -/
def sendingBytes (x : Bytes) : Provider :=
  serving ["GetBinaryValue"] keyParameters [propertyOf "uValue" (cimFlagArray + cimUint8)]
    [.nums (some (x.map UInt8.toNat))]

theorem bin_val_recovered_zeros :
    Recovered sendingBytes (fun _ => none) ⟨0, some "SOFTWARE", some "Id"⟩ none [0, 0, 5] ∧
      OneDigit [0, 0, 5] :=
  have h : OneDigit [0, 0, 5] := .inr ⟨2, 5, by decide, rfl⟩
  ⟨(bin_val_recovered_iff (fun _ => ⟨_, rfl, rfl⟩) _ _ _).mpr h, h⟩

/-- The byte `0x11` and two bytes 1 give the same text. -/
theorem bin_val_not_recovered :
    wmiRegGetBinVal (sendingBytes [0x11]) (fun _ => none) true ⟨0, some "SOFTWARE", some "Id"⟩
        none = some (0, some "11") ∧
      wmiRegGetBinVal (sendingBytes [1, 1]) (fun _ => none) true ⟨0, some "SOFTWARE", some "Id"⟩
        none = some (0, some "11") := by
  decide

end OpenvasSmb.Wmi

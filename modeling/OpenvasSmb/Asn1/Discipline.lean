import OpenvasSmb.Asn1.Integer
import OpenvasSmb.Asn1.Oid

/-!
# What a reader without an error has done

No function of the coder clears the error flag. So every call in a run that ends without an error
did what it is meant to do, whatever the bytes are: the tags it opened are closed again, and the
cursor moved forward by at least the size of what was read (`Passes`). The cursor stays a C `int`,
up to the few bytes that `asn1_pop_tag` may add behind the last read.
-/

namespace OpenvasSmb.Asn1

open List Nat Asn1Data Int

variable (d d' : Asn1Data)

/-- From `d` to `d'` without an error: the open tags are the same, and the cursor moved
forward by `k` or more. -/
def Passes (k : Nat) : Prop :=
  d'.hasError = false → d.hasError = false ∧ d'.nesting = d.nesting ∧ d.ofs + k ≤ d'.ofs ∧
    d'.ofs ≤ max d.ofs (intMax + 6)

/-- A tag was opened; the cursor is in front of its content. -/
def Opens : Prop :=
  d'.hasError = false → d.hasError = false ∧ ∃ n : Nesting, d'.nesting = n :: d.nesting ∧
    n.start = d'.ofs ∧ d.ofs + 1 + (popLength n.taglen).length ≤ d'.ofs ∧
      d'.ofs ≤ max d.ofs (intMax + 6)

/-- A tag was closed; the cursor is where the tag ends, as far as an `int` can tell. -/
def Closes : Prop :=
  d'.hasError = false → d.hasError = false ∧ d'.ofs = d.ofs ∧
    ∃ n : Nesting, d.nesting = n :: d'.nesting ∧
      bmod ((n.taglen : Int) - ((d.ofs : Int) - n.start)) (2 ^ 32) = 0

variable {d d' d'' : Asn1Data} {k l : Nat}

theorem Passes.refl (d : Asn1Data) : Passes d d 0 := fun h => ⟨h, rfl, le_refl _, by omega⟩

/-- After an error nothing is claimed. -/
theorem of_error {P : Prop} (herr : d.hasError = true) : d.hasError = false → P := by
  simp [herr]

theorem Passes.fail : Passes d d'.fail k := of_error rfl

theorem Passes.trans (h : Passes d d' k) (h' : Passes d' d'' l) : Passes d d'' (k + l) := by
  intro hok
  obtain ⟨hok', hnest', hle', hmax'⟩ := h' hok
  obtain ⟨hok, hnest, hle, hmax⟩ := h hok'
  exact ⟨hok, hnest'.trans hnest, by omega, by omega⟩

theorem Passes.mono (h : Passes d d' k) (hle : l ≤ k) : Passes d d' l := fun hok => by
  obtain ⟨hok, hnest, hofs, hmax⟩ := h hok
  exact ⟨hok, hnest, by omega, hmax⟩

theorem popLength_length_mono {a b : Nat} (h : a ≤ b) :
    (popLength a).length ≤ (popLength b).length := by
  unfold popLength
  split_ifs <;> simp only [length_cons, length_nil] <;> omega

/-- An element whose content was read with at least `k` bytes is at least as long as an
element with `k` bytes of content. -/
theorem Passes.element {d₁ d₂ d₃ : Asn1Data} (hopen : Opens d d₁) (hread : Passes d₁ d₂ k)
    (hclose : Closes d₂ d₃) : Passes d d₃ (1 + k) := by
  intro hok
  obtain ⟨hok₂, hofs₂, n, hnest₂, -⟩ := hclose hok
  obtain ⟨hok₁, hnest₁, hle₁, hmax₁⟩ := hread hok₂
  obtain ⟨hok, m, hm, -, hle, hmax⟩ := hopen hok₁
  rw [hnest₁, hm] at hnest₂
  exact ⟨hok, (cons.inj hnest₂).2.symm, by omega, by omega⟩

/-! ## Primitives -/

/-- A read sets the error flag, or it moves the cursor past what it read. -/
theorem asn1Read_cases (len : Nat) (hlen : len ≤ intMax) :
    (∃ d', asn1Read d len = (none, d') ∧ d'.hasError = true) ∨
      (d.ofs + len ≤ intMax ∧ d.ofs + len ≤ d.data.length ∧
        asn1Read d len = (some ((d.data.drop d.ofs).take len), d.skip len)) := by
  unfold asn1Read asn1Peek
  by_cases hmax : intMax - len < d.ofs
  · rw [if_pos hmax]
    exact .inl ⟨_, rfl, rfl⟩
  · rw [if_neg hmax]
    by_cases hend : d.data.length < d.ofs + len
    · rw [if_pos hend]
      exact .inl ⟨_, rfl, rfl⟩
    · rw [if_neg hend]
      exact .inr ⟨by omega, by omega, rfl⟩

theorem asn1Read_passes (len : Nat) (hlen : len ≤ intMax) :
    Passes d (asn1Read d len).2 len ∧
      ((asn1Read d len).2.hasError = false →
        (asn1Read d len).1.isSome ∧ (asn1Read d len).2.ofs ≤ intMax) := by
  rcases asn1Read_cases (d := d) len hlen with ⟨d', hread, herr⟩ | ⟨hmax, -, hread⟩
  · rw [hread]
    exact ⟨of_error herr, of_error herr⟩
  · rw [hread]
    exact ⟨fun hok => ⟨hok, rfl, le_refl _, by simp only [skip]; omega⟩,
      fun _ => ⟨rfl, hmax⟩⟩

theorem asn1ReadUint8_cases (d : Asn1Data) :
    (∃ d', asn1ReadUint8 d = (none, d') ∧ d'.hasError = true) ∨
      ∃ b, d.data.drop d.ofs = b :: d.data.drop (d.ofs + 1) ∧ d.ofs + 1 ≤ intMax ∧
        asn1ReadUint8 d = (some b, d.skip 1) := by
  unfold asn1ReadUint8
  rcases asn1Read_cases (d := d) 1 (by decide) with ⟨d', hread, herr⟩ | ⟨hmax, hlen, hread⟩
  · rw [hread]
    exact .inl ⟨d', rfl, herr⟩
  · have hdrop := drop_eq_getElem_cons (l := d.data) (i := d.ofs) (by omega)
    exact .inr ⟨_, hdrop, hmax, by rw [hread, hdrop]; rfl⟩

theorem asn1ReadUint8_passes : Passes d (asn1ReadUint8 d).2 1 ∧
    ((asn1ReadUint8 d).2.hasError = false → (asn1ReadUint8 d).2.ofs ≤ intMax) := by
  rcases asn1ReadUint8_cases d with ⟨d', hread, herr⟩ | ⟨b, -, hmax, hread⟩
  · rw [hread]
    exact ⟨of_error herr, of_error herr⟩
  · rw [hread]
    exact ⟨fun hok => ⟨hok, rfl, le_refl _, by simp only [skip]; omega⟩,
      fun _ => hmax⟩

def Asn1Data.rest (d : Asn1Data) (n : Nesting) : Int :=
  bmod ((n.taglen : Int) - ((d.ofs : Int) - n.start)) (2 ^ 32)

/-- The rest of a tag is asked for without moving; a failure sets the error flag. -/
theorem asn1TagRemaining_cases (d : Asn1Data) :
    (∃ d', asn1TagRemaining d = (-1, d') ∧ d'.hasError = true) ∨
      ∃ n rest, d.nesting = n :: rest ∧ d.hasError = false ∧ 0 ≤ d.rest n ∧
        d.rest n ≤ (d.data.length - d.ofs : Nat) ∧ asn1TagRemaining d = (d.rest n, d) := by
  unfold asn1TagRemaining
  split
  · rename_i herr
    exact .inl ⟨d, rfl, herr⟩
  · rename_i herr
    cases hnest : d.nesting with
    | nil => exact .inl ⟨_, rfl, rfl⟩
    | cons n rest =>
      simp only
      split
      · exact .inl ⟨_, rfl, rfl⟩
      · refine .inr ⟨n, rest, rfl, eq_false_of_ne_true herr, ?_, ?_, rfl⟩ <;>
          simp only [Asn1Data.rest] <;> omega

theorem asn1TagRemaining_le : (asn1TagRemaining d).1 ≤ intMax := by
  rcases asn1TagRemaining_cases d with ⟨d', hnone, -⟩ | ⟨n, rest, -, -, -, -, hrest⟩
  · rw [hnone]
    omega
  · have hlt := bmod_lt (x := (n.taglen : Int) - ((d.ofs : Int) - n.start)) (m := 2 ^ 32)
      (by decide)
    rw [hrest]
    simp only [Asn1Data.rest, intMax]
    omega

theorem asn1TagRemaining_passes : Passes d (asn1TagRemaining d).2 0 := by
  rcases asn1TagRemaining_cases d with ⟨d', hrest, herr⟩ | ⟨n, rest, -, -, -, -, hrest⟩
  · rw [hrest]
    exact of_error herr
  · rw [hrest]
    exact .refl d

/-! ## Tags -/

/-- The number that length octets denote, and how many they are: two at least in the long form. -/
def lengthOctets : Bytes → Option (Nat × Nat)
  | [] => none
  | b :: p =>
    if b &&& 0x80 = 0 then some (b.toNat, 1)
    else
      let n := max 1 (b &&& 0x7f).toNat
      if p.length < n then none else some (beValue (p.take n), n + 1)

theorem popLength_lengthOctets {p : Bytes} {n k : Nat} (h : lengthOctets p = some (n, k)) :
    (popLength n).length ≤ k ∧ k ≤ p.length := by
  cases p with
  | nil => simp [lengthOctets] at h
  | cons b p =>
    simp only [lengthOctets] at h
    split at h
    · rename_i hshort
      obtain ⟨rfl, rfl⟩ := Prod.mk.inj (Option.some.inj h)
      have hall : ∀ m : Fin 256, UInt8.ofNat m.val &&& 0x80 = 0 → m.val < 128 := by decide +kernel
      have hb := hall ⟨b.toNat, b.toNat_lt⟩ (by rw [UInt8.ofNat_toNat]; exact hshort)
      simp only at hb
      rw [popLength, if_neg (by omega), if_neg (by omega), if_neg (by omega)]
      exact ⟨le_refl 1, Nat.le_add_left ..⟩
    · generalize hcount : max 1 (b &&& 0x7f).toNat = m at h
      split at h
      · simp at h
      · obtain ⟨rfl, rfl⟩ := Prod.mk.inj (Option.some.inj h)
        have hlt := beValue_lt (p.take m)
        rw [length_take_of_le (by omega)] at hlt
        have hle := popLength_length_le (beValue (p.take m))
        refine ⟨?_, by rw [length_cons]; omega⟩
        -- few octets hold a small length only
        obtain rfl | rfl | hmany : m = 1 ∨ m = 2 ∨ 3 ≤ m := by omega
        · rw [popLength, if_neg (by omega), if_neg (by omega)]
          split <;> simp
        · rw [popLength, if_neg (by omega)]
          split
          · simp
          · split <;> simp
        · omega

theorem readTaglen_cases : ∀ (n : Nat) (p : Bytes) (d : Asn1Data),
    (∃ d', readTaglen n (beValue p % 2 ^ 64) d = (none, d') ∧ d'.hasError = true) ∨
      (n ≤ (d.data.drop d.ofs).length ∧ (n = 0 ∨ d.ofs + n ≤ intMax) ∧
        readTaglen n (beValue p % 2 ^ 64) d =
          (some (beValue (p ++ (d.data.drop d.ofs).take n) % 2 ^ 64), d.skip n))
  | 0, p, d => .inr ⟨zero_le _, .inl rfl, by simp [readTaglen, skip]⟩
  | n + 1, p, d => by
    unfold readTaglen
    rcases asn1ReadUint8_cases d with ⟨d', hread, herr⟩ | ⟨b, hdrop, hmax, hread⟩
    · rw [hread]
      exact .inl ⟨d', rfl, herr⟩
    · rw [hread]
      have hvalue : (beValue p % 2 ^ 64 * 256 + b.toNat) % 2 ^ 64 =
          beValue (p ++ [b]) % 2 ^ 64 := by
        rw [beValue_append]
        omega
      simp only [hvalue]
      rcases readTaglen_cases n (p ++ [b]) (d.skip 1) with hnone | ⟨hlen, hmax', hsome⟩
      · exact .inl hnone
      · simp only [skip] at hlen hmax' hsome ⊢
        rw [hdrop, length_cons]
        refine .inr ⟨by omega, .inr (by omega), ?_⟩
        rw [hsome, append_assoc, add_assoc, add_comm 1 n]
        rfl

/-- The length is that of the length octets, in a `size_t`. -/
theorem readLength_cases (d : Asn1Data) :
    (∃ d', readLength d = (none, d') ∧ d'.hasError = true) ∨
      ∃ n k, lengthOctets (d.data.drop d.ofs) = some (n, k) ∧ d.ofs + k ≤ intMax ∧
        readLength d = (some (n % 2 ^ 64), d.skip k) := by
  unfold readLength
  rcases asn1ReadUint8_cases d with ⟨d', hread, herr⟩ | ⟨b, hdrop, hmax, hread⟩
  · rw [hread]
    exact .inl ⟨d', rfl, herr⟩
  · have hb := b.toNat_lt
    rw [hread, hdrop]
    simp only [lengthOctets]
    by_cases hlong : b &&& 0x80 = 0
    · rw [if_pos hlong, if_neg (by simp [hlong])]
      refine .inr ⟨_, _, rfl, hmax, ?_⟩
      rw [mod_eq_of_lt (by omega)]
    · rw [if_neg hlong, if_pos hlong]
      rcases asn1ReadUint8_cases (d.skip 1) with
        ⟨d', hread', herr⟩ | ⟨c, hdrop', hmax', hread'⟩
      · rw [hread']
        exact .inl ⟨d', rfl, herr⟩
      · rw [hread']
        have hc := c.toNat_lt
        have hone : beValue [c] % 2 ^ 64 = c.toNat := by
          simp only [beValue, foldl_cons, foldl_nil]
          omega
        have htaglen := readTaglen_cases ((b &&& 0x7f).toNat - 1) [c] ((d.skip 1).skip 1)
        rw [hone] at htaglen
        simp only [skip] at hdrop' hmax' htaglen ⊢
        rw [hdrop', length_cons]
        rcases htaglen with hnone | ⟨hlen, hmax'', hsome⟩
        · exact .inl hnone
        · have hcount : max 1 (b &&& 0x7f).toNat = (b &&& 0x7f).toNat - 1 + 1 := by omega
          rw [hcount, if_neg (by omega), hsome]
          refine .inr ⟨_, _, rfl, by omega, ?_⟩
          simp only [take_succ_cons, singleton_append, Prod.mk.injEq, true_and,
            mk.injEq, and_true]
          omega

/-- **A tag is opened** if it and its length are there, and the length, cut to an `int`, is not more
than what is left. -/
theorem asn1StartTag_cases (d : Asn1Data) (tag : UInt8) :
    (∃ d', asn1StartTag d tag = (false, d') ∧ d'.hasError = true) ∨
      ∃ n k, d.data.drop d.ofs = tag :: d.data.drop (d.ofs + 1) ∧
        lengthOctets (d.data.drop (d.ofs + 1)) = some (n, k) ∧ d.ofs + 1 + k ≤ intMax ∧
        d.ofs + 1 + k ≤ d.data.length ∧ 0 ≤ bmod n (2 ^ 32) ∧
        bmod n (2 ^ 32) ≤ (d.data.length - (d.ofs + 1 + k) : Nat) ∧ d.hasError = false ∧
        asn1StartTag d tag = (true, { d with
          ofs := d.ofs + 1 + k, nesting := ⟨d.ofs + 1 + k, n % 2 ^ 64⟩ :: d.nesting }) := by
  unfold asn1StartTag
  rcases asn1ReadUint8_cases d with ⟨d', hread, herr⟩ | ⟨b, hdrop, hmax, hread⟩
  · rw [hread]
    exact .inl ⟨d', rfl, herr⟩
  · rw [hread]
    simp only
    by_cases htag : b = tag
    · subst htag
      rw [if_neg (by simp)]
      rcases readLength_cases (d.skip 1) with ⟨d', hread', herr⟩ | ⟨n, k, hlen, hmax', hread'⟩
      · rw [hread']
        exact .inl ⟨d', rfl, herr⟩
      · rw [hread']
        simp only [skip_skip] at hlen hmax' ⊢
        rcases asn1TagRemaining_cases { d.skip (1 + k) with
            nesting := ⟨(d.skip (1 + k)).ofs, n % 2 ^ 64⟩ :: (d.skip (1 + k)).nesting } with
          ⟨d', hnone, herr⟩ | ⟨m, rest, hnest, hok, hpos, hle, hrest⟩
        · rw [hnone]
          exact .inl ⟨d', rfl, herr⟩
        · obtain ⟨rfl, -⟩ := cons.inj hnest
          have hmod : bmod ((n % 2 ^ 64 : Nat) : Int) (2 ^ 32) = bmod n (2 ^ 32) := by
            rw [← emod_bmod, ← emod_bmod (n : Int)]
            exact congrArg (bmod · (2 ^ 32)) (by omega)
          rw [hrest]
          simp only [Asn1Data.rest, Asn1Data.skip, Int.sub_self, Int.sub_zero, hmod]
            at hpos hle hok hmax'
          have hthere := (popLength_lengthOctets hlen).2
          have hlength := congrArg length hdrop
          simp only [length_drop, length_cons, Asn1Data.skip] at hthere hlength
          refine .inr ⟨n, k, hdrop, hlen, hmax', by omega, hpos, Nat.add_assoc .. ▸ hle, hok, ?_⟩
          simp only [Asn1Data.rest, Asn1Data.skip, Int.sub_self, Int.sub_zero, hmod, hok,
            Nat.add_assoc]
          rw [if_neg (by omega)]
          rfl
    · rw [if_pos htag]
      exact .inl ⟨_, rfl, rfl⟩

theorem asn1StartTag_opens (tag : UInt8) :
    (∃ d', asn1StartTag d tag = (false, d') ∧ d'.hasError = true) ∨
      ∃ d', asn1StartTag d tag = (true, d') ∧ Opens d d' := by
  rcases asn1StartTag_cases d tag with hfail | ⟨n, k, -, hlen, hmax, -, -, -, -, hstart⟩
  · exact .inl hfail
  · have hle := (popLength_lengthOctets hlen).1
    have hmono := popLength_length_mono (mod_le n (2 ^ 64))
    refine .inr ⟨_, hstart, fun hok => ⟨hok, _, rfl, rfl, ?_, ?_⟩⟩ <;> simp only <;> omega

theorem Opens.start (tag : UInt8) : Opens d (asn1StartTag d tag).2 := by
  rcases asn1StartTag_opens (d := d) tag with ⟨d₁, hstart, herr⟩ | ⟨d₁, hstart, hopen⟩
  · rw [hstart]
    exact of_error herr
  · rwa [hstart]

theorem asn1EndTag_cases (d : Asn1Data) :
    (∃ d', asn1EndTag d = (false, d') ∧ d'.hasError = true) ∨
      ∃ n rest, d.nesting = n :: rest ∧ d.hasError = false ∧ d.rest n = 0 ∧
        asn1EndTag d = (true, { d with nesting := rest }) := by
  unfold asn1EndTag
  rcases asn1TagRemaining_cases d with ⟨d', hrest, -⟩ | ⟨n, rest, hnest, hok, -, -, hrest⟩
  · rw [hrest]
    exact .inl ⟨_, rfl, rfl⟩
  · simp only [hrest, hnest]
    split
    · exact .inl ⟨_, rfl, rfl⟩
    · rename_i hzero
      exact .inr ⟨n, rest, rfl, hok, not_not.mp hzero, rfl⟩

theorem asn1EndTag_of_rest {n : Nesting} {rest : List Nesting} (hnest : d.nesting = n :: rest)
    (hok : d.hasError = false) (hzero : d.rest n = 0) :
    asn1EndTag d = (true, { d with nesting := rest }) := by
  have hrest : asn1TagRemaining d = (0, d) := by
    rw [Asn1Data.rest] at hzero
    rw [asn1TagRemaining, if_neg (by simp [hok])]
    simp only [hnest, hzero]
    rw [if_neg (by omega)]
  rw [asn1EndTag, hrest]
  simp [hnest]

theorem asn1EndTag_closes : Closes d (asn1EndTag d).2 := by
  rcases asn1EndTag_cases d with ⟨d', hend, herr⟩ | ⟨n, rest, hnest, hok, hzero, hend⟩
  · rw [hend]
    exact of_error herr
  · rw [hend]
    exact fun _ => ⟨hok, rfl, n, hnest, hzero⟩

/-! ## Object identifiers -/

theorem readArc_passes : ∀ (fuel : Nat) (b : UInt8) (v : Nat) (d : Asn1Data),
    (readArc fuel b v d).2.2.hasError = false →
    ∃ k, 1 ≤ k ∧ Passes d (readArc fuel b v d).2.2 k ∧
      (readArc fuel b v d).2.1 < (v + 1) * 128 ^ k ∧ (readArc fuel b v d).2.1 < 2 ^ 32 := by
  intro fuel
  induction fuel with
  | zero => intro b v d hok; simp [readArc, fail] at hok
  | succ fuel ih =>
    intro b v d hok
    have hread := (asn1ReadUint8_passes (d := d)).1
    simp only [readArc] at hok ⊢
    generalize asn1ReadUint8 d = result at hok hread ⊢
    generalize hc : result.1.getD b = c at hok ⊢
    have hlow : (c &&& 0x7f).toNat ≤ 127 := by
      exact and_le_right
    split at hok
    · rename_i hmore
      rw [if_pos hmore]
      obtain ⟨k, hk, hpass, hlt, hlt'⟩ := ih _ _ _ hok
      refine ⟨1 + k, by omega, hread.trans hpass, lt_of_lt_of_le hlt ?_, hlt'⟩
      rw [pow_add, ← mul_assoc]
      exact mul_le_mul_right _ (by omega)
    · rename_i hlast
      rw [if_neg hlast]
      exact ⟨1, le_refl 1, hread, by simp only; omega, mod_lt _ (by decide)⟩

theorem readArcs_passes : ∀ (fuel : Nat) (b : UInt8) (text : String) (d : Asn1Data),
    (readArcs fuel b text d).2.hasError = false →
    ∃ arcs : List Nat, (∀ v ∈ arcs, v < 2 ^ 32) ∧
      (readArcs fuel b text d).1 = arcs.foldl (fun text v => text ++ " " ++ toString v) text ∧
      Passes d (readArcs fuel b text d).2 (arcs.flatMap arcOctets).length := by
  intro fuel
  induction fuel with
  | zero => intro b text d hok; simp [readArcs, fail] at hok
  | succ fuel ih =>
    intro b text d hok
    have hpass₀ := asn1TagRemaining_passes (d := d)
    simp only [readArcs] at hok ⊢
    generalize asn1TagRemaining d = result at hok hpass₀ ⊢
    by_cases herr : d.hasError = true
    · rw [if_pos herr] at hok
      exact of_error herr hok
    · rw [if_neg herr] at hok ⊢
      by_cases hmore : 0 < result.1
      · simp only [if_pos hmore] at hok ⊢
        generalize hr : readArc (result.2.data.length + 1) b 0 result.2 = arc at hok ⊢
        obtain ⟨arcs, hlt, htext, hpass⟩ := ih _ _ _ hok
        have hok₁ := (hpass hok).1
        have harc := readArc_passes (result.2.data.length + 1) b 0 result.2
        rw [hr] at harc
        obtain ⟨k, hk, hpass₁, hval, hval'⟩ := harc hok₁
        refine ⟨arc.2.1 :: arcs, ?_, htext, ((hpass₀.trans hpass₁).trans hpass).mono ?_⟩
        · exact forall_mem_cons.2 ⟨hval', hlt⟩
        · have hlog : log 128 arc.2.1 < k := log_lt_of_lt_pow' (by omega) (by simpa using hval)
          rw [flatMap_cons, length_append, length_arcOctets hval']
          omega
      · simp only [if_neg hmore] at hok ⊢
        exact ⟨[], by simp, rfl, hpass₀⟩

def oidBytes (oid : String) : Bytes := ((asn1WriteOID (asn1Load []) oid).map (·.data)).getD []

theorem oidBytes_oidText {b : UInt8} {arcs : List Nat} (hlt : ∀ v ∈ arcs, v < 2 ^ 32) :
    oidBytes (oidText b arcs) = tlv asn1Oid (oidOctets b arcs) := by
  rw [oidBytes, asn1WriteOID_text Asn1Data.AtEnd.load hlt]
  rfl

variable {oid : String}

/-- An OID read without an error is the text of some numbers, whose octets were passed. -/
theorem asn1ReadOID_reads (h : asn1ReadOID d = (some oid, d')) (hok : d'.hasError = false) :
    ∃ b arcs d₁ d₂, (∀ v ∈ arcs, v < 2 ^ 32) ∧
      oid = oidText b arcs ∧ asn1StartTag d asn1Oid = (true, d₁) ∧ d₁.ofs ≤ intMax ∧
      Passes d₁ d₂ (oidOctets b arcs).length ∧ d' = (asn1EndTag d₂).2 := by
  unfold asn1ReadOID at h
  split at h
  · simp at h
  · rename_i d₁ hstart
    obtain ⟨hfirst, hint⟩ := asn1ReadUint8_passes (d := d₁)
    simp only [Prod.mk.injEq, Option.some.injEq] at h
    generalize asn1ReadUint8 d₁ = result at h hfirst hint
    generalize result.1.getD 0 = b at h
    have harcs := readArcs_passes (result.2.data.length + 1) b
      (toString (b.toNat / 40) ++ " " ++ toString (b.toNat % 40)) result.2
    generalize readArcs (result.2.data.length + 1) b
      (toString (b.toNat / 40) ++ " " ++ toString (b.toNat % 40)) result.2 = read at h harcs
    obtain ⟨rfl, rfl⟩ := h
    obtain ⟨hok₂, -⟩ := asn1EndTag_closes hok
    obtain ⟨arcs, hlt, htext, hpass⟩ := harcs hok₂
    obtain ⟨hok₁, -⟩ := hpass hok₂
    have hofs := (hfirst hok₁).2.2.1
    have hsmall := hint hok₁
    refine ⟨b, arcs, d₁, read.2, hlt, htext, hstart, by omega, (hfirst.trans hpass).mono ?_, rfl⟩
    rw [oidOctets, length_cons]
    omega

/-- **What an OID takes.** An OID that is read without an error took at least as many bytes
as it is written with. -/
theorem asn1ReadOID_passes (h : asn1ReadOID d = (some oid, d')) :
    Passes d d' (oidBytes oid).length := by
  intro hok
  obtain ⟨b, arcs, d₁, d₂, hlt, rfl, hstart, hsmall, hpass, rfl⟩ := asn1ReadOID_reads h hok
  obtain ⟨hok₂, hofs₂, n, hnest₂, hzero⟩ := asn1EndTag_closes hok
  obtain ⟨hok₁, hnest₁, hle₁, hmax₁⟩ := hpass hok₂
  have hopen : Opens d d₁ := by simpa only [hstart] using Opens.start (d := d) asn1Oid
  obtain ⟨hok₀, m, hm, hstart', hle', -⟩ := hopen hok₁
  rw [hnest₁, hm] at hnest₂
  obtain ⟨rfl, hnest⟩ := cons.inj hnest₂
  -- the length of the tag covers what was read of it
  have htaglen : (oidOctets b arcs).length ≤ m.taglen := by
    have hdvd := dvd_of_bmod_eq_zero hzero
    unfold intMax at hmax₁ hsmall
    omega
  have hmono := popLength_length_mono htaglen
  rw [oidBytes_oidText hlt, length_tlv]
  exact ⟨hok₀, hnest.symm, by omega, by omega⟩

theorem asn1ReadOID_none (h : asn1ReadOID d = (none, d')) : d'.hasError = true := by
  unfold asn1ReadOID at h
  rcases asn1StartTag_opens (d := d) asn1Oid with ⟨d₁, hstart, herr⟩ | ⟨d₁, hstart, -⟩
  · rw [hstart] at h
    exact (Prod.mk.inj h).2 ▸ herr
  · simp [hstart] at h

theorem Readable.exists_text (h : Readable oid) :
    ∃ b arcs, (∀ v ∈ arcs, v < 2 ^ 32) ∧ oid = oidText b arcs := by
  obtain ⟨d, d', hread, hok⟩ := h
  obtain ⟨b, arcs, -, -, hlt, htext, -⟩ := asn1ReadOID_reads hread hok
  exact ⟨b, arcs, hlt, htext⟩

theorem asn1WriteOID_readable (hoid : Readable oid) (hd : d.AtEnd) :
    asn1WriteOID d oid = some (d.append (oidBytes oid)) := by
  obtain ⟨b, arcs, hlt, rfl⟩ := hoid.exists_text
  rw [asn1WriteOID_text hd hlt, oidBytes_oidText hlt]

theorem asn1ReadOID_readable {p : Bytes} (hoid : Readable oid) (h : d.Ahead (oidBytes oid ++ p))
    (hlen : (oidBytes oid).length < 2 ^ 24) :
    asn1ReadOID d = (some oid, d.skip (oidBytes oid).length) := by
  obtain ⟨b, arcs, hlt, rfl⟩ := hoid.exists_text
  rw [oidBytes_oidText hlt] at h hlen ⊢
  rw [length_tlv] at hlen
  exact asn1ReadOID_ahead hlt h (by omega)

theorem Readable.length_pos (h : Readable oid) : 0 < (oidBytes oid).length := by
  obtain ⟨b, arcs, hlt, rfl⟩ := h.exists_text
  rw [oidBytes_oidText hlt, length_tlv]
  omega

/-! ## Other elements -/

theorem asn1ReadOctetString_passes : Passes d (asn1ReadOctetString d).2 0 := by
  unfold asn1ReadOctetString
  rcases asn1StartTag_opens (d := d) asn1OctetString with ⟨d₁, hstart, herr⟩ | ⟨d₁, hstart, hopen⟩
  · rw [hstart]
    exact of_error herr
  · rw [hstart]
    have hrest := asn1TagRemaining_passes (d := d₁)
    have hle := asn1TagRemaining_le (d := d₁)
    simp only
    generalize asn1TagRemaining d₁ = result at hrest hle
    split
    · exact .fail
    · have hread := (asn1Read_passes (d := result.2) result.1.toNat (by omega)).1
      have hclose := asn1EndTag_closes (d := (asn1Read result.2 result.1.toNat).2)
      split <;> exact (Passes.element hopen (hrest.trans hread) hclose).mono (zero_le _)

theorem asn1ReadLDAPString_passes : Passes d (asn1ReadLDAPString d).2 0 ∧
    ((asn1ReadLDAPString d).2.hasError = false →
      (asn1ReadLDAPString d).1.isSome ∧ (asn1ReadLDAPString d).2.ofs ≤ intMax) := by
  have hrest := asn1TagRemaining_passes (d := d)
  have hle := asn1TagRemaining_le (d := d)
  unfold asn1ReadLDAPString
  generalize asn1TagRemaining d = result at hrest hle
  simp only
  split
  · exact ⟨Passes.fail, fun h => by simp [fail] at h⟩
  · obtain ⟨hread, hint⟩ :=
      asn1Read_passes (d := result.2) result.1.toNat (by omega)
    split
    · rename_i herr
      exact ⟨of_error herr, of_error herr⟩
    · exact ⟨(hrest.trans hread).mono (zero_le _), hint⟩

theorem asn1ReadGeneralString_passes : Passes d (asn1ReadGeneralString d).2 0 ∧
    ((asn1ReadGeneralString d).2.hasError = false →
      (asn1ReadGeneralString d).2.ofs ≤ intMax) := by
  unfold asn1ReadGeneralString
  rcases asn1StartTag_opens (d := d) asn1GeneralString with
    ⟨d₁, hstart, herr⟩ | ⟨d₁, hstart, hopen⟩
  · rw [hstart]
    exact ⟨of_error herr, of_error herr⟩
  · rw [hstart]
    obtain ⟨hread, hsome⟩ := asn1ReadLDAPString_passes (d := d₁)
    simp only
    generalize asn1ReadLDAPString d₁ = read at hread hsome
    obtain ⟨r, d₂⟩ := read
    cases r with
    | none =>
      exact ⟨fun hok => absurd (hsome hok).1 (by simp), fun hok => absurd (hsome hok).1 (by simp)⟩
    | some p =>
      have hclose := asn1EndTag_closes (d := d₂)
      refine ⟨(Passes.element hopen hread hclose).mono (zero_le _), fun hok => ?_⟩
      obtain ⟨hok₂, hofs, -⟩ := hclose hok
      exact le_trans (le_of_eq hofs) (hsome hok₂).2

theorem readInteger_passes : ∀ (fuel : Nat) (i : Int) (d : Asn1Data),
    Passes d (readInteger fuel i d).2 0 := by
  intro fuel
  induction fuel with
  | zero => intro i d; exact .fail
  | succ fuel ih =>
    intro i d
    have hrest := asn1TagRemaining_passes (d := d)
    unfold readInteger
    generalize asn1TagRemaining d = result at hrest
    split
    · exact .refl d
    · simp only
      split
      · have hread := (asn1ReadUint8_passes (d := result.2)).1
        generalize asn1ReadUint8 result.2 = octet at hread
        obtain ⟨r, d₁⟩ := octet
        cases r with
        | none => exact (hrest.trans hread).mono (zero_le _)
        | some b => exact ((hrest.trans hread).trans (ih _ _)).mono (zero_le _)
      · exact hrest

theorem asn1ReadInteger_passes : Passes d (asn1ReadInteger d).2 0 := by
  unfold asn1ReadInteger
  rcases asn1StartTag_opens (d := d) asn1Integer with ⟨d₁, hstart, herr⟩ | ⟨d₁, hstart, hopen⟩
  · rw [hstart]
    exact of_error herr
  · rw [hstart]
    have hread := readInteger_passes (d₁.data.length + 1) 0 d₁
    have hclose := asn1EndTag_closes (d := (readInteger (d₁.data.length + 1) 0 d₁).2)
    simp only
    split
    · rename_i herr
      exact of_error herr
    · exact (Passes.element hopen hread hclose).mono (zero_le _)

/-! ## Tags written while reading -/

theorem asn1PushTag_opens {tag : UInt8} (hok : (asn1PushTag d tag).hasError = false) :
    d.hasError = false ∧ (asn1PushTag d tag).nesting = ⟨d.ofs + 1, 0⟩ :: d.nesting ∧
      (asn1PushTag d tag).ofs = d.ofs + 2 := by
  by_cases herr : d.hasError = true
  · simp [asn1PushTag, asn1WriteUint8, asn1Write, herr] at hok
  · simp [asn1PushTag, asn1WriteUint8, asn1Write, herr]

theorem asn1PopTag_closes (hok : (asn1PopTag d).hasError = false) :
    d.hasError = false ∧ (∃ n, d.nesting = n :: (asn1PopTag d).nesting) ∧
      d.ofs ≤ (asn1PopTag d).ofs ∧ (asn1PopTag d).ofs ≤ d.ofs + 3 := by
  unfold asn1PopTag at hok ⊢
  cases hnest : d.nesting with
  | nil => simp [hnest, fail] at hok
  | cons n rest =>
    have hlen := popLength_length_le (d.ofs - (n.start + 1))
    simp only [hnest] at hok ⊢
    by_cases herr : d.hasError = true
    · simp only [herr, true_and, asn1Write, if_true] at hok
      split at hok <;> simp [herr] at hok
    · simp only [herr, asn1Write, length_replicate] at hok ⊢
      simp only [Bool.false_eq_true, false_and, if_false]
      exact ⟨trivial, ⟨n, rfl⟩, by omega, by omega⟩

/-! ## Long contents -/

section Long

variable {tag : UInt8} (content : Bytes)

/-- What is read of a tag up to its end is not more than 24 bits of its length. -/
theorem length_read {len : Nat} (h : d.Ahead (tag :: popLength len))
    (hread : Passes (d.opened len) d' k) (hok : (asn1EndTag d').2.hasError = false) :
    k ≤ len % 2 ^ 24 := by
  obtain ⟨hok', hofs, n, hnest, hzero⟩ := asn1EndTag_closes hok
  obtain ⟨-, hnest', hle, hmax⟩ := hread hok'
  have hsmall := h.small
  rw [hnest'] at hnest
  obtain ⟨rfl, -⟩ := cons.inj hnest
  have hdvd := dvd_of_bmod_eq_zero hzero
  simp only [opened, skip] at hle hmax hdvd
  unfold intMax at hmax hsmall
  omega

/-- The octets in front of a content are ahead, however long the content is. -/
theorem ahead_header : (asn1Load (tlv tag content)).Ahead (tag :: popLength content.length) := by
  have hle := popLength_length_le content.length
  refine Asn1Data.Ahead.load (p := tag :: popLength content.length) content ?_
  rw [length_cons]
  unfold intMax
  omega

theorem asn1StartTag_load :
    asn1StartTag (asn1Load (tlv tag content)) tag =
      (true, (asn1Load (tlv tag content)).opened content.length) := by
  refine asn1StartTag_header (ahead_header content) ?_
  simp only [asn1Load, length_tlv]
  omega

end Long

end OpenvasSmb.Asn1

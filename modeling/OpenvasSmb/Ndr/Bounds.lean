import OpenvasSmb.Ndr.Pull

/-!
# Pulls stay in their buffer

`Safe` is what the decoders have in common. Started inside a view of a buffer, a safe pull ends
(never `endless`), moves forward by at least `k` bytes and not past the end of its view, and faults
exactly where a condition on what it reads fails. It runs alongside a twin, which may be the same
decoder with another budget, and both end alike.

A condition is put together from the conditions of the parts: `After` says what is asked of a part
if the parts in front of it can be read, `Each` and `Rounds` do so along a list and a loop. A pull
that asks for nothing is `Sure`.

The rules follow the constructors of the pull monad and the primitives of `Pull.lean`. The nesting
of objects enters in `Safe.subcontext4` only: the content of a sub-context starts at least 4 bytes
behind the view it is opened from.
-/

namespace OpenvasSmb.Ndr

open Kit View Outcome

/-- A buffer as the program can hold one: the contents of a `talloc` chunk. -/
structure Buffer where
  bytes : Bytes
  small : bytes.length < maxTallocSize

/-! ## Conditions -/

/-- A condition on what stands at an offset of a view. -/
abbrev Condition : Type := View → Nat → Prop

section Conditions

variable {α β : Type}

/-- Asked behind a part, if that part can be read. -/
def After (x : Pull α) (D : α → Condition) : Condition := fun v off =>
  ∀ a off', x v off = .ok (a, off') → D a v off'

/-- Asked of a part, and of what is behind it. -/
def Then (C : Condition) (x : Pull α) (D : α → Condition) : Condition := fun v off =>
  C v off ∧ After x D v off

/-- Asked of the parts for a list, one after the other. -/
def Each (f : α → Pull β) (C : α → Condition) : List α → Condition
  | [] => fun _ _ => True
  | a :: rest => Then (C a) (f a) fun _ => Each f C rest

/-- Asked of the rounds of a loop. -/
def Rounds (endofs : Nat) (item : Nat → Pull α) (C : Nat → Condition) : Nat → Nat → Condition
  | 0, _ => fun _ _ => True
  | fuel + 1, n => fun v off =>
    off < endofs → Then (C n) (item n) (fun _ => Rounds endofs item C fuel (n + 1)) v off

/-- Asked where a relative pointer leads. -/
def At (ptr : Nat) (C : Condition) : Condition := fun v _ =>
  u32 (ptr + v.base) ≤ v.size → C v (u32 (ptr + v.base))

/-- Asked of the content of a sub-context, unless it is empty. -/
def Boxed (C : View → Prop) : Condition :=
  After pullUint32 fun n v off => off + n ≤ v.size → n ≠ 0 →
    C { v with origin := v.origin + off, size := n, base := 0 }

end Conditions

/-! ## Outcomes -/

/-- The outcome of a pull next to that of its twin: a value or a status where the condition holds,
a fault where it does not. -/
inductive Agree {α : Type} (C : Prop) (Q : α → Prop) : Outcome α → Outcome α → Prop
  | ok {a : α} (hc : C) (h : Q a) : Agree C Q (.ok a) (.ok a)
  | error (hc : C) (s : NtStatus) : Agree C Q (.error s) (.error s)
  | fault (hc : ¬ C) : Agree C Q .fault .fault

/-- Ends with a value or a status. -/
abbrev Ends {α : Type} (Q : α → Prop) (x : Outcome α) : Prop := Agree True Q x x

section Agree

variable {α β : Type} {C : Prop} {Q : α → Prop} {R : β → Prop} {x y : Outcome α}

theorem Agree.congr {C' : Prop} (h : Agree C Q x y) (hc : C ↔ C') : Agree C' Q x y := by
  rwa [← propext hc]

theorem Agree.mono {Q' : α → Prop} (h : Agree C Q x y) (hq : ∀ a, Q a → Q' a) : Agree C Q' x y := by
  cases h with
  | ok hc h => exact .ok hc (hq _ h)
  | error hc s => exact .error hc s
  | fault hc => exact .fault hc

theorem Agree.bind {D : α → Prop} {f g : α → Outcome β} (h : Agree C Q x y)
    (hf : ∀ a, Q a → Agree (D a) R (f a) (g a)) :
    Agree (C ∧ ∀ a, x = .ok a → D a) R (x.bind f) (y.bind g) := by
  cases h with
  | ok hc hq => exact (hf _ hq).congr (by simp [hc])
  | error hc s => exact .error (by simp [hc]) s
  | fault hc => exact .fault (by simp [hc])

theorem Agree.then {f : α → Outcome β} (h : Agree C Q x y) (hf : ∀ a, Q a → Ends R (f a)) :
    Agree C R (x.bind f) (y.bind f) :=
  (h.bind hf).congr (by simp)

theorem Agree.ne_endless (h : Agree C Q x y) : x ≠ .endless := by
  cases h <;> simp

theorem Agree.settled_iff (h : Agree C Q x y) : x.settled = true ↔ C := by
  cases h <;> simp_all [settled]

theorem Agree.eq (h : Agree C Q x y) : x = y := by
  cases h <;> rfl

end Agree

/-! ## Safe pulls -/

/-- A view of the buffer, opened at `limit` or behind it, that lies inside. -/
structure Ready (b : Buffer) (limit : Nat) (v : View) : Prop where
  data_eq : v.data = b.bytes
  inside : v.origin + v.size ≤ b.bytes.length
  limit_le : limit ≤ v.origin

/-- Ends like its twin, moves forward by `k` bytes or more, and faults unless the condition holds. -/
def Safe {α : Type} (b : Buffer) (limit k : Nat) (C : Condition) (p q : Pull α) : Prop :=
  ∀ v off, Ready b limit v → off ≤ v.size →
    Agree (C v off) (fun r => off + k ≤ r.2 ∧ r.2 ≤ v.size) (p v off) (q v off)

/-- Safe whatever it reads. -/
abbrev Sure {α : Type} (b : Buffer) (limit k : Nat) (p : Pull α) : Prop :=
  Safe b limit k (fun _ _ => True) p p

/-- The same for the content of a sub-context. -/
def SafeContent {α : Type} (b : Buffer) (limit : Nat) (C : View → Prop)
    (content content' : View → Outcome α) : Prop :=
  ∀ v, Ready b limit v → 0 < v.size → Agree (C v) (fun _ => True) (content v) (content' v)

theorem u32_of_lt {n : Nat} (h : n < 2 ^ 32) : u32 n = n := Nat.mod_eq_of_lt h

/-- A difference that wraps around is larger than any view. -/
theorem u32Sub_le_iff {n m size : Nat} (hn : n < 2 ^ 32) (hm : m ≤ 2 ^ 28)
    (hsize : size < maxTallocSize) : u32Sub n m ≤ size ↔ m ≤ n ∧ n - m ≤ size := by
  unfold u32Sub u32
  unfold maxTallocSize at hsize
  omega

theorem u32Sub_of_le {n m : Nat} (h : m ≤ n) (hn : n < 2 ^ 32) : u32Sub n m = n - m := by
  unfold u32Sub u32
  omega

variable {α β : Type} {b : Buffer} {limit k j : Nat} {v : View} {off : Nat} {C : Condition}
  {D : α → Condition}

theorem Ready.size_lt (h : Ready b limit v) : v.size < maxTallocSize := by
  have hinside := h.inside
  have hsmall := b.small
  omega

/-- Sums of an offset and a size that was checked do not wrap around. -/
theorem Ready.u32_add (h : Ready b limit v) {n : Nat} (hle : off + n ≤ v.size) :
    u32 (off + n) = off + n := by
  have hsize := h.size_lt
  exact u32_of_lt (by unfold maxTallocSize at hsize; omega)

/-! ## The monad -/

theorem Safe.mono {p q : Pull α} (h : Safe b limit k C p q) (hle : j ≤ k) :
    Safe b limit j C p q := by
  intro v off hv hoff
  refine (h v off hv hoff).mono fun r hr => ?_
  omega

theorem Safe.weaken {p q : Pull α} (h : Safe b limit k C p q) : Safe b limit 0 C p q :=
  h.mono (Nat.zero_le _)

theorem Sure.pure (a : α) : Sure b limit 0 (pure a) := by
  intro v off _ hoff
  exact .ok trivial ⟨Nat.le_refl _, hoff⟩

theorem Sure.fail (s : NtStatus) : Sure b limit k (Pull.fail s : Pull α) := by
  intro v off _ _
  exact .error trivial s

theorem Sure.offset : Sure b limit 0 Pull.offset := by
  intro v off _ hoff
  exact .ok trivial ⟨Nat.le_refl _, hoff⟩

variable {f g : α → Pull β} {x y : Pull α}

theorem Safe.bind (hx : Safe b limit j C x y) (hf : ∀ a, Safe b limit k (D a) (f a) (g a)) :
    Safe b limit (j + k) (Then C x D) (x >>= f) (y >>= g) := by
  intro v off hv hoff
  refine ((hx v off hv hoff).bind (D := fun r => D r.1 v r.2) fun r hr =>
    (hf r.1 v r.2 hv hr.2).mono fun r' hr' => ?_).congr (by simp [Then, After])
  omega

theorem Safe.seq (hx : Safe b limit j C x y) (hf : ∀ a, Safe b limit k (D a) (f a) (g a)) :
    Safe b limit 0 (Then C x D) (x >>= f) (y >>= g) :=
  (hx.bind hf).weaken

/-- A part that asks for nothing comes first. -/
theorem Sure.bind (hx : Sure b limit j x) (hf : ∀ a, Safe b limit k (D a) (f a) (g a)) :
    Safe b limit (j + k) (After x D) (x >>= f) (x >>= g) := by
  intro v off hv hoff
  exact (Safe.bind hx hf v off hv hoff).congr (by simp [Then])

theorem Sure.after (hx : Sure b limit j x) (hf : ∀ a, Safe b limit k (D a) (f a) (g a)) :
    Safe b limit 0 (After x D) (x >>= f) (x >>= g) :=
  (hx.bind hf).weaken

/-- Parts that ask for nothing come last. -/
theorem Safe.before (hx : Safe b limit j C x y) (hf : ∀ a, Sure b limit k (f a)) :
    Safe b limit (j + k) C (x >>= f) (y >>= f) := by
  intro v off hv hoff
  exact (Safe.bind hx hf v off hv hoff).congr (by simp [Then, After])

theorem Safe.then (hx : Safe b limit j C x y) (hf : ∀ a, Sure b limit k (f a)) :
    Safe b limit 0 C (x >>= f) (y >>= f) :=
  (hx.before hf).weaken

/-! ## Primitives -/

theorem needBytes_eq (n : Nat) (hv : Ready b limit v) (hoff : off ≤ v.size) :
    needBytes n v off = if off + n ≤ v.size then .ok ((), off) else .error .bufferTooSmall := by
  have hsize := hv.size_lt
  unfold maxTallocSize at hsize
  unfold needBytes
  by_cases hn : n > v.size
  · rw [if_pos (.inl hn), if_neg (by omega)]
  · -- both summands are below 2 ^ 28: the check does not wrap around
    rw [u32_of_lt (by omega)]
    split <;> split <;> first | rfl | omega

theorem needBytes_ends (n : Nat) (hv : Ready b limit v) (hoff : off ≤ v.size) :
    Ends (fun r => r.2 = off ∧ off + n ≤ v.size) (needBytes n v off) := by
  rw [needBytes_eq n hv hoff]
  split
  case isTrue hle => exact .ok trivial ⟨rfl, hle⟩
  case isFalse => exact .error trivial _

theorem takeBytes_ends (n : Nat) (hv : Ready b limit v) (hn : off + n ≤ v.size) :
    Ends (fun r => r.1.length = n ∧ r.2 = off + n ∧ r.2 ≤ v.size) (takeBytes n v off) := by
  have hinside := hv.inside
  have hfits : v.origin + off + n ≤ v.data.length := by
    rw [hv.data_eq]
    omega
  simp only [takeBytes, bytesAt, hfits, if_true, hv.u32_add hn]
  refine .ok trivial ⟨?_, rfl, hn⟩
  simp only [List.length_take, List.length_drop]
  omega

theorem pullUintN_ends (n : Nat) (hv : Ready b limit v) (hoff : off ≤ v.size) :
    Ends (fun r => r.1 < 256 ^ n ∧ r.2 = off + n ∧ r.2 ≤ v.size) (pullUintN n v off) := by
  have halign : ¬ off > v.size := by omega
  simp only [pullUintN, Pull.bind_apply, pullAlign, halign, if_false, ok_bind]
  refine (needBytes_ends n hv hoff).then fun r hr => ?_
  obtain ⟨hr₂, hn⟩ := hr
  rw [hr₂]
  refine (takeBytes_ends n hv hn).then fun r' hr' => ?_
  refine .ok trivial ⟨?_, hr'.2⟩
  have hlt := ofLe_lt r'.1
  rwa [hr'.1] at hlt

theorem Sure.pullUintN (n : Nat) : Sure b limit n (pullUintN n) := by
  intro v off hv hoff
  refine (pullUintN_ends n hv hoff).mono fun r hr => ?_
  omega

theorem Sure.pullUint16 : Sure b limit 2 pullUint16 := .pullUintN 2

theorem Sure.pullUint32 : Sure b limit 4 pullUint32 := .pullUintN 4

theorem Sure.pullAlign : Sure b limit 0 pullAlign := by
  intro v off hv hoff
  have halign : ¬ off > v.size := by omega
  simp only [Ndr.pullAlign, halign, if_false]
  exact .ok trivial ⟨Nat.le_refl _, hoff⟩

theorem Sure.allocN (count elsize : Nat) : Sure b limit 0 (allocN count elsize) := by
  unfold Ndr.allocN
  split
  · exact .fail _
  · exact .pure _

/-- The 8-bit pull from anywhere, also from an offset that was never checked: the check wraps around
at the last offset of 32 bits. -/
theorem pullUint8_agree (hv : Ready b limit v) (hoff : off < 2 ^ 32) :
    Agree (0 < v.size → off ≠ 2 ^ 32 - 1) (fun r => r.2 = off + 1 ∧ r.2 ≤ v.size)
      (pullUint8 v off) (pullUint8 v off) := by
  have hsize := hv.size_lt
  have hsmall := b.small
  unfold maxTallocSize at hsize hsmall
  simp only [pullUint8, Pull.bind_apply, Ndr.needBytes]
  by_cases hlast : off = 2 ^ 32 - 1
  · by_cases hpos : 0 < v.size
    · have hwild : v.bytesAt off 1 = none := if_neg (by rw [hv.data_eq]; omega)
      rw [if_neg (by unfold u32; omega), ok_bind]
      simp only [takeBytes, hwild, fault_bind]
      exact .fault fun h => h hpos hlast
    · rw [if_pos (by omega)]
      exact .error (fun h => absurd h hpos) _
  · rw [u32_of_lt (by omega)]
    split
    case isTrue => exact .error (fun _ => hlast) _
    case isFalse hbad =>
      exact ((takeBytes_ends 1 hv (by omega)).then fun r hr => .ok trivial hr.2).congr
        (iff_of_true trivial fun _ => hlast)

theorem Sure.pullUint8 : Sure b limit 1 pullUint8 := by
  intro v off hv hoff
  have hsize := hv.size_lt
  unfold maxTallocSize at hsize
  refine ((pullUint8_agree hv (by omega)).mono fun r hr => ?_).congr (by simp; omega)
  omega

theorem Sure.pullNumber (width : Nat) : Sure b limit 0 (pullNumber width) := by
  unfold Ndr.pullNumber
  split
  · exact Sure.pullUint8.weaken
  · exact (Sure.pullUintN width).weaken

theorem pullAdvance_ends (n : Nat) (hn : off + n ≤ v.size) (hv : Ready b limit v) :
    Ends (fun r => off ≤ r.2 ∧ r.2 ≤ v.size) (pullAdvance n v off) := by
  have hfits : ¬ off + n > v.size := by omega
  simp only [Ndr.pullAdvance, hv.u32_add hn, hfits, if_false]
  exact .ok trivial ⟨by omega, hn⟩

theorem remainingBytes_ends (hv : Ready b limit v) (hoff : off ≤ v.size) :
    Ends (fun r => r.2 = off ∧ off + r.1.length ≤ v.size) (remainingBytes v off) := by
  have hinside := hv.inside
  have hfits : v.origin + off + (v.size - off) ≤ v.data.length := by
    rw [hv.data_eq]
    omega
  simp only [remainingBytes, bytesAt, hfits, if_true]
  refine .ok trivial ⟨rfl, ?_⟩
  simp only [List.length_take]
  omega

theorem convertString_ends (convert : Bytes → Option String) (source : Bytes)
    (hn : off + source.length ≤ v.size) (hv : Ready b limit v) :
    Ends (fun r => off ≤ r.2 ∧ r.2 ≤ v.size) (convertString convert source v off) := by
  unfold convertString
  cases (if source = [] then none else convert source) with
  | none => exact .error trivial _
  | some s => exact (pullAdvance_ends _ hn hv).then fun r hr => .ok trivial hr

theorem Sure.pullNullTerminated (scan : Bytes → Nat) (convert : Bytes → Option String) :
    Sure b limit 0 (pullNullTerminated scan convert) := by
  intro v off hv hoff
  simp only [Ndr.pullNullTerminated, Pull.bind_apply]
  refine (remainingBytes_ends hv hoff).then fun r hr => ?_
  rw [hr.1]
  have htaken : (r.1.take (scan r.1)).length ≤ r.1.length := List.length_take_le' _ _
  exact convertString_ends convert _ (by omega) hv

/-! ## Loops -/

theorem Sure.times {item : Pull α} (h : Sure b limit 0 item) :
    ∀ n, Sure b limit 0 (Pull.times item n) := by
  intro n
  induction n with
  | zero => exact .pure []
  | succ n ih => exact h.then fun a => ih.then fun rest => .pure _

theorem Sure.each (h : ∀ a, Sure b limit 0 (f a)) : ∀ items, Sure b limit 0 (Pull.each f items) := by
  intro items
  induction items with
  | nil => exact .pure []
  | cons a rest ih => exact (h a).then fun c => ih.then fun cs => .pure _

theorem Safe.each (h : ∀ a, Safe b limit 0 (D a) (f a) (g a)) :
    ∀ items, Safe b limit 0 (Each f D items) (Pull.each f items) (Pull.each g items) := by
  intro items
  induction items with
  | nil => exact Sure.pure []
  | cons a rest ih => exact (h a).seq fun c => ih.then fun cs => .pure _

variable {item : Nat → Pull α} {P : Nat → Condition} {endofs : Nat}

/-- Every round moves the offset, and the offset stays inside the view: one round
for each byte that is left is enough. -/
theorem Safe.whileBelow (h : ∀ n, Safe b limit 1 (P n) (item n) (item n)) :
    ∀ fuel n v off, Ready b limit v → off ≤ v.size → v.size < off + fuel →
      Agree (Rounds endofs item P fuel n v off) (fun r => off ≤ r.2 ∧ r.2 ≤ v.size)
        (Pull.whileBelow endofs item fuel n v off) (Pull.whileBelow endofs item fuel n v off) := by
  intro fuel
  induction fuel with
  | zero =>
    intro n v off _ hoff hfuel
    exact absurd hfuel (by omega)
  | succ fuel ih =>
    intro n v off hv hoff hfuel
    simp only [Pull.whileBelow, Rounds]
    split
    case isTrue hlt =>
      refine ((h n v off hv hoff).bind (D := fun r => Rounds endofs item P fuel (n + 1) v r.2)
        fun r hr => ?_).congr (by simp [hlt, Then, After])
      refine (ih (n + 1) v r.2 hv hr.2 (by omega)).then fun r' hr' => .ok trivial ⟨?_, hr'.2⟩
      exact Nat.le_trans (by omega) hr'.1
    case isFalse hge => exact .ok (fun h => absurd h hge) ⟨Nat.le_refl _, hoff⟩

theorem Safe.loopBelow (h : ∀ n, Safe b limit 1 (P n) (item n) (item n)) :
    Safe b limit 0 (fun v off => Rounds endofs item P (v.data.length + 1) 0 v off)
      (Pull.loopBelow endofs item) (Pull.loopBelow endofs item) := by
  intro v off hv hoff
  have hinside := hv.inside
  refine Safe.whileBelow h _ _ v off hv hoff ?_
  rw [hv.data_eq]
  omega

theorem rounds_of_true : ∀ {fuel n : Nat} {v : View} {off : Nat},
    Rounds endofs item (fun _ _ _ => True) fuel n v off := by
  intro fuel
  induction fuel with
  | zero => intros; trivial
  | succ fuel ih => exact fun _ => ⟨trivial, fun _ _ _ => ih⟩

theorem Sure.loopBelow (h : ∀ n, Sure b limit 1 (item n)) :
    Sure b limit 0 (Pull.loopBelow endofs item) := by
  intro v off hv hoff
  exact (Safe.loopBelow h v off hv hoff).congr (iff_true_intro rounds_of_true)

/-! ## Pointers and sub-contexts -/

theorem Safe.atRelative {ptr : Nat} {p q : Pull α} (h : Safe b limit k C p q) :
    Safe b limit 0 (At ptr C) (atRelative ptr p) (atRelative ptr q) := by
  intro v off hv hoff
  by_cases hbad : u32 (ptr + v.base) > v.size
  · simp only [Ndr.atRelative, hbad, if_true]
    exact .error (fun hle => absurd hle (by omega)) _
  · simp only [Ndr.atRelative, hbad, if_false]
    exact ((h v _ hv (by omega)).then fun r hr => .ok trivial ⟨Nat.le_refl _, hoff⟩).congr
      (by simp [At, Nat.le_of_not_lt hbad])

theorem Safe.subcontext4 {I : View → Prop} {content content' : View → Outcome α}
    (h : SafeContent b (limit + 4) I content content') :
    Safe b limit 0 (Boxed I) (subcontext4 content) (subcontext4 content') := by
  intro v off hv hoff
  have hinside := hv.inside
  have hlimit := hv.limit_le
  simp only [Ndr.subcontext4, Pull.bind_apply]
  refine ((pullUintN_ends 4 hv hoff).bind (D := fun r => r.2 + r.1 ≤ v.size → r.1 ≠ 0 →
    I { v with origin := v.origin + r.2, size := r.1, base := 0 }) fun r hr => ?_).congr
    (by simp [Boxed, After, Ndr.pullUint32])
  rw [needBytes_eq r.1 hv hr.2.2]
  split
  case isFalse hover => exact .error (fun h => absurd h hover) _
  case isTrue hcontent =>
    have hvalue : Agree (r.1 ≠ 0 → I { v with origin := v.origin + r.2, size := r.1, base := 0 })
        (fun q => q.2 = r.2) (subcontextContent content r.1 v r.2)
        (subcontextContent content' r.1 v r.2) := by
      unfold subcontextContent
      split
      case isTrue hzero => exact .ok (fun h => absurd hzero h) rfl
      case isFalse hpos =>
        have hready : Ready b (limit + 4)
            { v with origin := v.origin + r.2, size := r.1, base := 0 } :=
          ⟨hv.data_eq, by simp only; omega, by simp only; omega⟩
        refine ((h _ hready (by simp only; omega)).then fun a _ => ?_).congr (by simp [hpos])
        exact .ok trivial rfl
    refine (hvalue.then fun q hq => ?_).congr (by simp [hcontent])
    rw [hq]
    exact (pullAdvance_ends r.1 hcontent hv).then fun r'' hr'' =>
      .ok trivial ⟨Nat.le_trans (by omega) hr''.1, hr''.2⟩

end OpenvasSmb.Ndr

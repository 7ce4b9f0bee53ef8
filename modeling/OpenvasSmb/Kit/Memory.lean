import OpenvasSmb.Kit.Bytes

/-!
# Output buffers

A buffer that is written front to back, with fields that are filled in later. Its `Memory` is a
function of the address; nothing is known of an address that was never written.

The allocation grows with the writes. Sizes are machine words that wrap around at `wrap`, and a
request for `limit` bytes or more is refused. A write outside the allocation, after a wrapped
size, is `wild`.
-/

namespace OpenvasSmb.Kit

/-! ## Memory -/

/-- The bytes of a buffer by address. -/
abbrev Memory := Nat → UInt8

namespace Memory

/-- Writes a byte string. -/
def store (m : Memory) (off : Nat) (bytes : List UInt8) : Memory := fun a =>
  if off ≤ a then bytes[a - off]?.getD (m a) else m a

/-- The byte string stands at the address. -/
def Has (m : Memory) (off : Nat) (bytes : List UInt8) : Prop :=
  ∀ i b, bytes[i]? = some b → m (off + i) = b

/-- The two memories agree from `lo` up to `hi`. -/
def Same (m m' : Memory) (lo hi : Nat) : Prop := ∀ a, lo ≤ a → a < hi → m' a = m a

def bytes (m : Memory) (n : Nat) : List UInt8 := (List.range n).map m

variable {m m' : Memory} {off a n : Nat} {bs : List UInt8}

theorem store_of_lt (h : a < off) : m.store off bs a = m a := by
  rw [store, if_neg (by omega)]

theorem store_of_ge (h : off + bs.length ≤ a) : m.store off bs a = m a := by
  rw [store, List.getElem?_eq_none (by omega)]
  simp

theorem store_of_not_mem (h : ¬ (off ≤ a ∧ a < off + bs.length)) : m.store off bs a = m a := by
  rcases Nat.lt_or_ge a off with hlt | hge
  · exact store_of_lt hlt
  · exact store_of_ge (by omega)

theorem has_store (m : Memory) (off : Nat) (bs : List UInt8) : (m.store off bs).Has off bs := by
  intro i b hb
  simp [store, hb]

theorem Same.mono {lo hi lo' hi' : Nat} (h : m.Same m' lo hi) (hlo : lo ≤ lo') (hhi : hi' ≤ hi) :
    m.Same m' lo' hi' :=
  fun a ha ha' => h a (by omega) (by omega)

theorem Same.trans {m'' : Memory} {lo hi : Nat} (h : m.Same m' lo hi) (h' : m'.Same m'' lo hi) :
    m.Same m'' lo hi :=
  fun a ha ha' => (h' a ha ha').trans (h a ha ha')

theorem Has.congr (h : m.Has off bs) (hm : m.Same m' off (off + bs.length)) : m'.Has off bs := by
  intro i b hb
  have hi : i < bs.length := (List.getElem?_eq_some_iff.mp hb).1
  rw [hm (off + i) (by omega) (by omega)]
  exact h i b hb

theorem has_append {xs ys : List UInt8} :
    m.Has off (xs ++ ys) ↔ m.Has off xs ∧ m.Has (off + xs.length) ys := by
  constructor
  · intro h
    refine ⟨fun i b hb => ?_, fun i b hb => ?_⟩
    · have hi : i < xs.length := (List.getElem?_eq_some_iff.mp hb).1
      exact h i b (by rw [List.getElem?_append_left hi, hb])
    · rw [Nat.add_assoc]
      refine h (xs.length + i) b ?_
      rw [List.getElem?_append_right (by omega), Nat.add_sub_cancel_left, hb]
  · rintro ⟨hxs, hys⟩ i b hb
    rcases Nat.lt_or_ge i xs.length with hi | hi
    · rw [List.getElem?_append_left hi] at hb
      exact hxs i b hb
    · rw [List.getElem?_append_right hi] at hb
      have hy := hys (i - xs.length) b hb
      rwa [show off + xs.length + (i - xs.length) = off + i by omega] at hy

theorem has_cons {b : UInt8} : m.Has off (b :: bs) ↔ m off = b ∧ m.Has (off + 1) bs := by
  rw [show b :: bs = [b] ++ bs from rfl, has_append]
  refine and_congr_left' ⟨fun h => h 0 b rfl, fun h i c hc => ?_⟩
  cases i with
  | zero => exact h.trans (Option.some.inj hc)
  | succ i => simp at hc

@[simp] theorem length_bytes : (m.bytes n).length = n := by simp [bytes]

theorem getElem?_bytes (h : a < n) : (m.bytes n)[a]? = some (m a) := by
  simp [bytes, h]

end Memory

/-! ## Growing buffers -/

/-- A buffer that is being written. -/
structure Output where
  mem : Memory
  offset : Nat
  /-- How many bytes are allocated. -/
  alloc : Nat

/-- How a buffer grows. -/
structure Allocator (E : Type) where
  limit : Nat
  step : Nat
  wrap : Nat
  /-- The request is too large. -/
  full : E
  /-- The write is outside the allocation. -/
  wild : E
  /-- A pointer would lead backwards. -/
  backward : E

namespace Allocator

variable {E : Type} (A : Allocator E)

/-- Makes room for more than `size` bytes. -/
def expand (size : Nat) (s : Output) : Except E Output :=
  if s.alloc > size then .ok s
  else if max (s.alloc + A.step) ((size + 1) % A.wrap) ≥ A.limit then .error A.full
  else .ok { s with alloc := max (s.alloc + A.step) ((size + 1) % A.wrap) }

/-- Writes at the offset and moves past what was written. -/
def put (bytes : List UInt8) (s : Output) : Except E Output := do
  let s ← A.expand ((s.offset + bytes.length) % A.wrap) s
  if s.offset + bytes.length ≤ s.alloc then
    .ok { s with mem := s.mem.store s.offset bytes, offset := s.offset + bytes.length }
  else .error A.wild

/-- Writes at an earlier place and comes back. -/
def patch (place : Nat) (bytes : List UInt8) (s : Output) : Except E Output := do
  let t ← A.put bytes { s with offset := place }
  .ok { t with offset := s.offset }

/-- The offset is in the allocation, and the allocation below the limit. -/
structure Inside (s : Output) : Prop where
  offset_le : s.offset ≤ s.alloc
  alloc_lt : s.alloc < A.limit

variable {A} {s s' : Output} {size place : Nat} {bytes : List UInt8}

theorem bind_eq_ok {α β : Type} {x : Except E α} {f : α → Except E β} {b : β} :
    (x >>= f) = .ok b ↔ ∃ a, x = .ok a ∧ f a = .ok b := by
  cases x <;> simp [bind, Except.bind]

theorem expand_ok (h : A.expand size s = .ok s') :
    ∃ alloc, s' = { s with alloc } ∧ s.alloc ≤ alloc ∧ (s.alloc < A.limit → alloc < A.limit) ∧
      (size + 1 < A.wrap → size < alloc) := by
  unfold expand at h
  by_cases hbig : s.alloc > size
  · rw [if_pos hbig] at h
    obtain rfl := Except.ok.inj h
    exact ⟨s.alloc, rfl, Nat.le_refl _, id, fun _ => hbig⟩
  · rw [if_neg hbig] at h
    by_cases hfull : max (s.alloc + A.step) ((size + 1) % A.wrap) ≥ A.limit
    · rw [if_pos hfull] at h
      simp at h
    · rw [if_neg hfull] at h
      obtain rfl := Except.ok.inj h
      refine ⟨_, rfl, by omega, fun _ => by omega, fun hsize => ?_⟩
      rw [Nat.mod_eq_of_lt hsize]
      omega

theorem put_ok (h : A.put bytes s = .ok s') :
    ∃ alloc, s' = ⟨s.mem.store s.offset bytes, s.offset + bytes.length, alloc⟩ ∧
      s.alloc ≤ alloc ∧ s.offset + bytes.length ≤ alloc ∧
      (s.alloc < A.limit → alloc < A.limit) := by
  obtain ⟨t, ht, h⟩ := bind_eq_ok.mp h
  obtain ⟨alloc, rfl, hle, hlimit, -⟩ := expand_ok ht
  by_cases hroom : s.offset + bytes.length ≤ alloc
  · rw [if_pos hroom] at h
    exact ⟨alloc, (Except.ok.inj h).symm, hle, hroom, hlimit⟩
  · rw [if_neg hroom] at h
    simp at h

theorem patch_ok (h : A.patch place bytes s = .ok s') :
    ∃ alloc, s' = ⟨s.mem.store place bytes, s.offset, alloc⟩ ∧
      s.alloc ≤ alloc ∧ place + bytes.length ≤ alloc ∧ (s.alloc < A.limit → alloc < A.limit) := by
  obtain ⟨t, ht, h⟩ := bind_eq_ok.mp h
  obtain ⟨alloc, rfl, hle, hroom, hlimit⟩ := put_ok ht
  exact ⟨alloc, (Except.ok.inj h).symm, hle, hroom, hlimit⟩

end Allocator

end OpenvasSmb.Kit

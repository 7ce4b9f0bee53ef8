import OpenvasSmb.Kit.Memory

/-!
# Two-phase layouts

A structure with pointers is written in two runs over its fields. The *scalars* write the part of
fixed size: numbers, and a slot for every pointer. The *buffers* put what the pointers lead to on
a heap behind the scalars, one target after the other, and fill the slots with the distance from
the start of the heap.

A `Layout` is the list of fields; `Layout.scalars` and `Layout.buffers` are the two runs over an
output buffer. A `mark` is a slot that the second run fills with a number.

`Holds` says what the two runs leave in memory (`Layout.scalars_ok`, `Layout.buffers_ok`): every
field at its place, every pointer with the distance of its target. It is all a reader needs.
-/

namespace OpenvasSmb.Kit

/-! ## Layouts -/

/-- How the absence of a target is written. -/
inductive NullMark where
  | zeros
  | ones

/-- The fields of a structure. -/
inductive Layout (E : Type) where
  | done
  /-- The field cannot be written. -/
  | fail (e : E)
  | raw (bytes : List UInt8)
  /-- A slot that the second run fills with a number. -/
  | mark (value : Nat)
  /-- A pointer; `null` is how this pointer would be written without a target. -/
  | ref (null : NullMark) (target : Layout E)
  | seq (a b : Layout E)

variable {E : Type}

def Layout.all : List (Layout E) → Layout E
  | [] => .done
  | a :: rest => .seq a (all rest)

/-- A field that is a number or a pointer. -/
inductive Slot (E : Type) where
  | fail (e : E)
  | raw (bytes : List UInt8)
  | ref (null : NullMark) (target : Layout E)

def Slot.layout : Slot E → Layout E
  | .fail e => .fail e
  | .raw bytes => .raw bytes
  | .ref null target => .ref null target

/-- What stands in a slot before it is filled. -/
def placeholder : List UInt8 := toLe 4 0xFFFFFFFF

def Layout.size : Layout E → Nat
  | .done => 0
  | .fail _ => 0
  | .raw bytes => bytes.length
  | .mark _ => 4
  | .ref _ _ => 4
  | .seq a b => a.size + b.size

/-- What the targets take. -/
def Layout.heap : Layout E → Nat
  | .done => 0
  | .fail _ => 0
  | .raw _ => 0
  | .mark _ => 0
  | .ref _ target => target.size + target.heap
  | .seq a b => a.heap + b.heap

/-! ## The two runs -/

section Runs

variable (A : Allocator E)

/-- Fills a slot with the distance of the offset from the start of the heap. -/
def Allocator.link (base place : Nat) (s : Output) : Except E Output :=
  if place > s.offset ∨ s.offset < base then .error A.backward
  else A.patch place (toLe 4 (s.offset - base)) s

def Layout.scalars : Layout E → Output → Except E Output
  | .done, s => .ok s
  | .fail e, _ => .error e
  | .raw bytes, s => A.put bytes s
  | .mark _, s => A.put placeholder s
  | .ref _ _, s => A.put placeholder s
  | .seq a b, s => do
      let t ← a.scalars s
      b.scalars t

/-- The second run over a layout whose scalars are at `off`; the heap starts at
`base`. -/
def Layout.buffers (base : Nat) : Layout E → Nat → Output → Except E Output
  | .done, _, s => .ok s
  | .fail e, _, _ => .error e
  | .raw _, _, s => .ok s
  | .mark value, off, s => A.patch off (toLe 4 value) s
  | .ref _ target, off, s => do
      let t ← A.link base off s
      let t ← target.scalars A t
      target.buffers base s.offset t
  | .seq a b, off, s => do
      let t ← a.buffers base off s
      b.buffers base (off + a.size) t

end Runs

/-! ## What the runs leave in memory -/

/-- The scalars of the layout are at `off`, slots apart. -/
def Layout.Blank (m : Memory) : Layout E → Nat → Prop
  | .done, _ => True
  | .fail _, _ => False
  | .raw bytes, off => m.Has off bytes
  | .mark _, _ => True
  | .ref _ _, _ => True
  | .seq a b, off => a.Blank m off ∧ b.Blank m (off + a.size)

/-- The scalars of the layout are at `off`, with every slot filled, and what belongs to
it on the heap is at `h`. -/
def Layout.Holds (base : Nat) (m : Memory) : Layout E → Nat → Nat → Prop
  | .done, _, _ => True
  | .fail _, _, _ => False
  | .raw bytes, off, _ => m.Has off bytes
  | .mark value, off, _ => m.Has off (toLe 4 value)
  | .ref _ target, off, h =>
    m.Has off (toLe 4 (h - base)) ∧ target.Holds base m h (h + target.size)
  | .seq a b, off, h => a.Holds base m off h ∧ b.Holds base m (off + a.size) (h + a.heap)

/-! ## What the predicates depend on -/

section Congr

variable {m m' : Memory} {base : Nat}

theorem Layout.Blank.congr : ∀ (L : Layout E) {off : Nat},
    m.Same m' off (off + L.size) → L.Blank m off → L.Blank m' off
  | .done, _, _, _ => trivial
  | .fail _, _, _, h => h.elim
  | .raw _, _, hm, h => Memory.Has.congr h hm
  | .mark _, _, _, _ => trivial
  | .ref _ _, _, _, _ => trivial
  | .seq a b, off, hm, h => by
    simp only [size] at hm
    exact ⟨congr a (hm.mono (by omega) (by omega)) h.1,
      congr b (hm.mono (by omega) (by omega)) h.2⟩

theorem Layout.Holds.congr : ∀ (L : Layout E) {off h : Nat},
    m.Same m' off (off + L.size) → m.Same m' h (h + L.heap) →
    L.Holds base m off h → L.Holds base m' off h
  | .done, _, _, _, _, _ => trivial
  | .fail _, _, _, _, _, h => h.elim
  | .raw _, _, _, hm, _, hh => Memory.Has.congr hh hm
  | .mark _, _, _, hm, _, hh => Memory.Has.congr hh (by rwa [length_toLe])
  | .ref _ target, off, h, hm, hm', hh => by
    simp only [size, heap] at hm hm'
    exact ⟨hh.1.congr (by rwa [length_toLe]), congr target (hm'.mono (by omega) (by omega))
      (hm'.mono (by omega) (by omega)) hh.2⟩
  | .seq a b, off, h, hm, hm', hh => by
    simp only [size, heap] at hm hm'
    exact ⟨congr a (hm.mono (by omega) (by omega)) (hm'.mono (by omega) (by omega)) hh.1,
      congr b (hm.mono (by omega) (by omega)) (hm'.mono (by omega) (by omega)) hh.2⟩

end Congr

/-! ## The runs leave what the predicates say -/

section Runs

variable {A : Allocator E} {s t u : Output} {base n : Nat}

/-- `n` bytes were appended. -/
structure Allocator.Wrote (A : Allocator E) (s t : Output) (n : Nat) : Prop where
  inside : A.Inside t
  offset_eq : t.offset = s.offset + n
  below : s.mem.Same t.mem 0 s.offset

/-- `n` bytes were appended to the heap, and of what was there before only the `size` bytes
at `off` were touched. -/
structure Allocator.Filled (A : Allocator E) (s t : Output) (off size n : Nat) : Prop where
  inside : A.Inside t
  offset_eq : t.offset = s.offset + n
  frame : ∀ a, a < s.offset → ¬ (off ≤ a ∧ a < off + size) → t.mem a = s.mem a

open Allocator Layout Memory

theorem Allocator.Wrote.trans {k : Nat} (h : A.Wrote s t n) (h' : A.Wrote t u k) :
    A.Wrote s u (n + k) := by
  have ho := h.offset_eq
  have ho' := h'.offset_eq
  exact ⟨h'.inside, by omega, h.below.trans (h'.below.mono (Nat.le_refl _) (by omega))⟩

theorem Allocator.put_wrote {bytes : List UInt8} (hs : A.Inside s) (h : A.put bytes s = .ok t) :
    A.Wrote s t bytes.length ∧ t.mem.Has s.offset bytes := by
  obtain ⟨alloc, rfl, hle, hroom, hlimit⟩ := put_ok h
  exact ⟨⟨⟨hroom, hlimit hs.alloc_lt⟩, rfl, fun a _ ha => store_of_lt ha⟩,
    has_store _ _ _⟩

theorem Allocator.patch_filled {bytes : List UInt8} {place : Nat} (hs : A.Inside s)
    (h : A.patch place bytes s = .ok t) :
    A.Filled s t place bytes.length 0 ∧ t.mem.Has place bytes := by
  obtain ⟨alloc, rfl, hle, hroom, hlimit⟩ := patch_ok h
  have hin := hs.offset_le
  refine ⟨⟨⟨?_, hlimit hs.alloc_lt⟩, rfl, fun a _ ha => store_of_not_mem ha⟩,
    has_store _ _ _⟩
  simp only
  omega

theorem Allocator.link_filled {place : Nat} (hs : A.Inside s) (h : A.link base place s = .ok t) :
    A.Filled s t place 4 0 ∧ t.mem.Has place (toLe 4 (s.offset - base)) := by
  unfold link at h
  by_cases hback : place > s.offset ∨ s.offset < base
  · rw [if_pos hback] at h
    simp at h
  · rw [if_neg hback] at h
    have hfilled := patch_filled hs h
    rwa [length_toLe] at hfilled

/-- **The first run.** The scalars are appended; only the slots are still open. -/
theorem Layout.scalars_ok : ∀ (L : Layout E) {s t : Output}, A.Inside s →
    L.scalars A s = .ok t → A.Wrote s t L.size ∧ L.Blank t.mem s.offset
  | .done, s, t, hs, h => by
    obtain rfl := Except.ok.inj h
    exact ⟨⟨hs, rfl, fun _ _ _ => rfl⟩, trivial⟩
  | .fail _, s, t, _, h => by simp [scalars] at h
  | .raw bytes, s, t, hs, h => put_wrote hs h
  | .mark _, s, t, hs, h | .ref _ _, s, t, hs, h => ⟨(put_wrote hs h).1, trivial⟩
  | .seq a b, s, t, hs, h => by
    obtain ⟨s₁, h₁, h⟩ := bind_eq_ok.mp h
    obtain ⟨hw₁, hblank₁⟩ := scalars_ok a hs h₁
    obtain ⟨hw₂, hblank₂⟩ := scalars_ok b hw₁.inside h
    have ho := hw₁.offset_eq
    refine ⟨hw₁.trans hw₂, ?_, ?_⟩
    · exact Layout.Blank.congr a (hw₂.below.mono (Nat.zero_le _) (by omega)) hblank₁
    · rwa [ho] at hblank₂

/-- **The second run.** Slots are filled, targets are on the heap, and nothing else has changed. -/
theorem Layout.buffers_ok : ∀ (L : Layout E) {off : Nat} {s t : Output},
    A.Inside s → L.Blank s.mem off → off + L.size ≤ s.offset → base ≤ s.offset →
    L.buffers A base off s = .ok t →
    A.Filled s t off L.size L.heap ∧ L.Holds base t.mem off s.offset
  | .done, off, s, t, hs, _, _, _, h => by
    obtain rfl := Except.ok.inj h
    exact ⟨⟨hs, rfl, fun _ _ _ => rfl⟩, trivial⟩
  | .fail _, off, s, t, _, _, _, _, h => by simp [buffers] at h
  | .raw bytes, off, s, t, hs, hblank, _, _, h => by
    obtain rfl := Except.ok.inj h
    exact ⟨⟨hs, rfl, fun _ _ _ => rfl⟩, hblank⟩
  | .mark value, off, s, t, hs, _, _, _, h => by
    obtain ⟨hf, hhas⟩ := patch_filled hs h
    exact ⟨hf, hhas⟩
  | .ref null target, off, s, t, hs, _, hoff, hbase, h => by
    obtain ⟨s₁, h₁, h⟩ := bind_eq_ok.mp h
    obtain ⟨s₂, h₂, h⟩ := bind_eq_ok.mp h
    obtain ⟨hl, hslot⟩ := link_filled hs h₁
    obtain ⟨hw, hblank⟩ := scalars_ok target hl.inside h₂
    have hlo := hl.offset_eq
    have hwo := hw.offset_eq
    rw [hlo] at hblank hwo
    obtain ⟨hf, hholds⟩ := buffers_ok target hw.inside hblank (by omega) (by omega) h
    have hfo := hf.offset_eq
    simp only [size] at hoff
    -- below the heap only the slot has changed
    have hbelow : s₁.mem.Same t.mem 0 s.offset := fun a _ ha => by
      rw [hf.frame a (by omega) (by omega), hw.below a (Nat.zero_le _) (by omega)]
    refine ⟨⟨hf.inside, ?_, fun a ha hne => ?_⟩, ?_, ?_⟩
    · simp only [heap]
      omega
    · rw [hbelow a (Nat.zero_le _) ha, hl.frame a ha hne]
    · refine hslot.congr (hbelow.mono (Nat.zero_le _) ?_)
      rw [length_toLe]
      omega
    · rwa [hwo] at hholds
  | .seq a b, off, s, t, hs, hblank, hoff, hbase, h => by
    simp only [size] at hoff
    obtain ⟨s₁, h₁, h⟩ := bind_eq_ok.mp h
    obtain ⟨hf₁, hholds₁⟩ := buffers_ok a hs hblank.1 (by omega) hbase h₁
    have ho₁ := hf₁.offset_eq
    have hblank₂ : b.Blank s₁.mem (off + a.size) :=
      Layout.Blank.congr b (fun x hlo hhi => hf₁.frame x (by omega) (by omega)) hblank.2
    obtain ⟨hf₂, hholds₂⟩ := buffers_ok b hf₁.inside hblank₂ (by omega) (by omega) h
    have ho₂ := hf₂.offset_eq
    refine ⟨⟨hf₂.inside, ?_, fun x hx hne => ?_⟩, ?_, ?_⟩
    · simp only [heap]
      omega
    · simp only [size] at hne
      rw [hf₂.frame x (by omega) (by omega), hf₁.frame x hx (by omega)]
    · exact Layout.Holds.congr a (fun x hlo hhi => hf₂.frame x (by omega) (by omega))
        (fun x hlo hhi => hf₂.frame x (by omega) (by omega)) hholds₁
    · rwa [ho₁] at hholds₂

end Runs

end OpenvasSmb.Kit

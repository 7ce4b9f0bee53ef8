import OpenvasSmb.Ndr.Reads

/-!
# What a push leaves and a pull finds

`Spanned` says which bytes a push wrote. `Carries` ties a push to a pull: whatever the
push writes, the pull reads as the given value, from where the push started to where it
ended. Pushes that follow each other carry what the pulls in the same order read
(`Carries.seq`), so a round trip is put together from those of its parts.
-/

namespace OpenvasSmb.Ndr

open Kit Nat

/-! ## Alignment -/

/-- Where a number of `n` bytes is put. -/
def placeOf (flags : UInt32) (n off : Nat) : Nat :=
  if testFlag flags libndrFlagNoalign then off else alignUp n off

theorem alignUp_bounds {n off : Nat} (hpos : 0 < n) (hn : n ≤ 8) (h : off < 2 ^ 28) :
    off ≤ alignUp n off ∧ alignUp n off < off + n := by
  have hsum := div_add_mod' (off + (n - 1)) n
  have hmod := mod_lt (off + (n - 1)) hpos
  rw [alignUp, u32_of_lt (by omega)]
  omega

theorem placeOf_bounds (flags : UInt32) {n off : Nat} (hpos : 0 < n) (hn : n ≤ 8)
    (h : off < 2 ^ 28) : off ≤ placeOf flags n off ∧ placeOf flags n off < off + n := by
  have := alignUp_bounds hpos hn h
  unfold placeOf
  split <;> omega

/-! ## Spans -/

section Push

variable {s t u : Output} {n k : Nat} {flags : UInt32}

/-- The `n` bytes from the offset on were written, and nothing else was touched. -/
structure Spanned (s t : Output) (n : Nat) : Prop where
  inside : ndrAllocator.Inside t
  offset_eq : t.offset = s.offset + n
  frame : ∀ a, ¬ (s.offset ≤ a ∧ a < s.offset + n) → t.mem a = s.mem a
  grown : s.alloc ≤ t.alloc

theorem Spanned.refl (h : ndrAllocator.Inside s) : Spanned s s 0 :=
  ⟨h, rfl, fun _ _ => rfl, Nat.le_refl _⟩

theorem Spanned.trans (h : Spanned s t n) (h' : Spanned t u k) : Spanned s u (n + k) := by
  have ho := h.offset_eq
  have ho' := h'.offset_eq
  refine ⟨h'.inside, by omega, fun a ha => ?_, Nat.le_trans h.grown h'.grown⟩
  rw [h'.frame a (by omega), h.frame a (by omega)]

theorem put_spanned {bytes : Bytes} (hs : ndrAllocator.Inside s)
    (h : ndrAllocator.put bytes s = .ok t) :
    Spanned s t bytes.length ∧ t.mem.Has s.offset bytes := by
  obtain ⟨alloc, rfl, hle, hroom, hlimit⟩ := Allocator.put_ok h
  exact ⟨⟨⟨hroom, hlimit hs.alloc_lt⟩, rfl, fun a ha => Memory.store_of_not_mem ha, hle⟩,
    Memory.has_store _ _ _⟩

theorem pushPad_spanned : ∀ {n : Nat} {s t : Output}, ndrAllocator.Inside s →
    pushPad n s = .ok t → Spanned s t n := by
  intro n
  induction n with
  | zero =>
    intro s t hs h
    obtain rfl := Except.ok.inj h
    exact .refl hs
  | succ n ih =>
    intro s t hs h
    obtain ⟨u, hu, ht⟩ := Allocator.bind_eq_ok.mp h
    have hfirst := (put_spanned hs hu).1
    have hrest := hfirst.trans (ih hfirst.inside ht)
    rwa [add_comm] at hrest

theorem inside_offset_lt (hs : ndrAllocator.Inside s) : s.offset < 2 ^ 28 := by
  have hle := hs.offset_le
  have hlt : s.alloc < 2 ^ 28 := hs.alloc_lt
  omega

theorem pushAlign_spanned (hs : ndrAllocator.Inside s) (h : ndrPushAlign flags n s = .ok t) :
    Spanned s t (placeOf flags n s.offset - s.offset) := by
  unfold ndrPushAlign at h
  unfold placeOf
  by_cases hno : testFlag flags libndrFlagNoalign = true
  · rw [if_pos hno] at h ⊢
    obtain rfl := Except.ok.inj h
    rw [Nat.sub_self]
    exact .refl hs
  · rw [if_neg hno] at h ⊢
    exact pushPad_spanned hs h

end Push

theorem ndrPullAlign_of_le {v : View} {flags : UInt32} {n off : Nat}
    (hdata : v.origin + v.size ≤ v.data.length) (h : placeOf flags n off ≤ v.size) :
    ndrPullAlign flags n v off = .ok ((), placeOf flags n off) := by
  unfold ndrPullAlign
  unfold placeOf at h ⊢
  by_cases hno : testFlag flags libndrFlagNoalign = true
  · rw [if_pos hno] at h ⊢
    rw [if_pos hno, pullAlign_of_le h]
  · rw [if_neg hno] at h ⊢
    rw [if_neg hno, if_neg (by omega), pullAlign_of_le h]

/-! ## Round trips -/

/-- The view has what was pushed from `lo` on. -/
structure View.Holds (v : View) (lo : Nat) (t : Output) : Prop where
  shows : ∀ a, lo ≤ a → a < t.offset → v.data[v.origin + a]? = some (t.mem a)
  stop : t.offset ≤ v.size
  small : v.size < 2 ^ 32
  data : v.origin + v.size ≤ v.data.length

namespace View.Holds

variable {v : View} {s t : Output} {lo n : Nat}

theorem reads {off : Nat} {bytes : Bytes} (h : v.Holds lo t) (hb : t.mem.Has off bytes)
    (hlo : lo ≤ off) (hin : off + bytes.length ≤ t.offset) : v.Reads off bytes := by
  have hstop := h.stop
  refine ⟨fun i b hi => ?_, by omega, h.small⟩
  have hlt : i < bytes.length := (List.getElem?_eq_some_iff.mp hi).1
  rw [add_assoc, h.shows (off + i) (by omega) (by omega), hb i b hi]

theorem before (h : v.Holds lo t) (hspan : Spanned s t n) : v.Holds lo s := by
  have hoff := hspan.offset_eq
  have hstop := h.stop
  refine ⟨fun a ha hlt => ?_, by omega, h.small, h.data⟩
  rw [h.shows a ha (by omega), hspan.frame a (by omega)]

theorem mono {lo' : Nat} (h : v.Holds lo t) (hle : lo ≤ lo') : v.Holds lo' t :=
  ⟨fun a ha => h.shows a (by omega), h.stop, h.small, h.data⟩

end View.Holds

/-- The blob of a push has what was pushed, whatever follows it. -/
theorem holds_blob (t : Output) {rest : Bytes} (h : (ndrPushBlob t ++ rest).length < 2 ^ 32)
    (lo : Nat) : (View.ofBytes (ndrPushBlob t ++ rest)).Holds lo t :=
  ⟨fun a _ ha => shows_blob t rest a ha, by simp [View.ofBytes, ndrPushBlob], h,
    by simp [View.ofBytes]⟩

/-- Whatever the push writes, the pull reads as the value. -/
structure Carries {α : Type} (push : Output → Pushed) (pull : Pull α) (a : α) : Prop where
  spanned : ∀ {s t}, ndrAllocator.Inside s → push s = .ok t → ∃ n, Spanned s t n
  pulled : ∀ {s t v}, ndrAllocator.Inside s → push s = .ok t →
    View.Holds v s.offset t → pull v s.offset = .ok (a, t.offset)

section Carries

variable {α β : Type} {push push' : Output → Pushed} {pull : Pull α} {a : α} {b : β}

theorem carries_nothing (a : α) : Carries .ok (pure a) a := by
  refine ⟨fun hs h => ?_, fun hs h _ => ?_⟩
  · obtain rfl := Except.ok.inj h
    exact ⟨0, .refl hs⟩
  · obtain rfl := Except.ok.inj h
    rfl

theorem Carries.seq {pull' : α → Pull β} (h : Carries push pull a)
    (h' : Carries push' (pull' a) b) : Carries (fun s => push s >>= push') (pull >>= pull') b := by
  refine ⟨fun hs ht => ?_, fun hs ht hv => ?_⟩
  · obtain ⟨u, hu, ht⟩ := Allocator.bind_eq_ok.mp ht
    obtain ⟨n, hspan⟩ := h.spanned hs hu
    obtain ⟨k, hspan'⟩ := h'.spanned hspan.inside ht
    exact ⟨n + k, hspan.trans hspan'⟩
  · obtain ⟨u, hu, ht⟩ := Allocator.bind_eq_ok.mp ht
    obtain ⟨n, hspan⟩ := h.spanned hs hu
    obtain ⟨k, hspan'⟩ := h'.spanned hspan.inside ht
    have hle := hspan.offset_eq
    rw [Pull.bind_apply, h.pulled hs hu (hv.before hspan')]
    exact h'.pulled hspan.inside ht (hv.mono (by omega))

theorem carries_align (flags : UInt32) {n : Nat} (hpos : 0 < n) (hn : n ≤ 8) :
    Carries (ndrPushAlign flags n) (ndrPullAlign flags n) () := by
  refine ⟨fun hs h => ⟨_, pushAlign_spanned hs h⟩, fun hs h hv => ?_⟩
  have hplace := (placeOf_bounds flags hpos hn (inside_offset_lt hs)).1
  have hoff := (pushAlign_spanned hs h).offset_eq
  have hstop := hv.stop
  rw [ndrPullAlign_of_le hv.data (by omega)]
  congr 2
  omega

theorem carries_put {bytes : Bytes} {n : Nat} (hn : bytes.length = n) (decode : Bytes → α) :
    Carries (ndrAllocator.put bytes)
      (do needBytes n; let bytes ← takeBytes n; pure (decode bytes)) (decode bytes) := by
  subst hn
  refine ⟨fun hs h => ⟨_, (put_spanned hs h).1⟩, fun {s t v} hs h hv => ?_⟩
  obtain ⟨hspan, hhas⟩ := put_spanned hs h
  have hoff := hspan.offset_eq
  have hreads := hv.reads hhas (Nat.le_refl _) (Nat.le_of_eq hoff.symm)
  have htake : takeBytes bytes.length v s.offset = .ok (bytes, t.offset) := by
    rw [hoff]
    cases bytes with
    | nil =>
      have := hreads.inside
      have := hv.data
      have := hv.small
      rw [List.length_nil] at *
      rw [takeBytes, View.bytesAt, if_pos (by omega), List.take_zero]
      show Outcome.ok (_, u32 (s.offset + 0)) = _
      rw [u32_of_lt (by omega)]
    | cons b bytes => exact takeBytes_of_reads hreads (List.cons_ne_nil _ _)
  simp only [Pull.bind_apply, needBytes_of_reads hreads, Outcome.ok_bind, htake, Pull.pure_apply]

end Carries

/-! ## Numbers -/

theorem length_toOrder (flags : UInt32) (v : Nat) : (toOrder flags v).length = 4 := by
  unfold toOrder
  split <;> simp

theorem ofOrder_toOrder (flags : UInt32) {v : Nat} (h : v < 2 ^ 32) :
    ofOrder flags (toOrder flags v) = v := by
  have hle : ofLe (toLe 4 v) = v := by
    rw [ofLe_toLe, mod_eq_of_lt (by omega)]
  unfold ofOrder toOrder
  split <;> simp [hle]

theorem carries_uint32 (flags : UInt32) {v : Nat} (h : v < 2 ^ 32) :
    Carries (ndrPushUint32 flags v) (ndrPullUint32 flags) v := by
  have hbytes := carries_put (length_toOrder flags v) (ofOrder flags)
  rw [ofOrder_toOrder flags h] at hbytes
  exact (carries_align flags (by decide) (by decide)).seq hbytes

end OpenvasSmb.Ndr

import OpenvasSmb.Wbem.Bounds

/-!
# Decoding arbitrary bytes

Where the two decoders of the object stream leave the buffer, and that they end, for any bytes.

`ndr_pull_WbemClass`, `ndr_pull_WbemInstance_priv` and `copy_bits` of `ndr_dcom.c` go on without a
test in some places; the conditions of `Wbem/Bounds.lean` say what these need of the bytes.
-/

namespace OpenvasSmb.Wbem

open Kit Ndr View

variable (charset : Charset) (b : Buffer) (off : Fin (b.bytes.length + 1))

theorem ready_ofBytes : Ready b 0 (ofBytes b.bytes) :=
  ⟨rfl, by simp [ofBytes], Nat.zero_le _⟩

/-- Two runs of the decoder, with budgets that leave room. -/
theorem pullClassObject_agree {depth depth' : Nat} (h : b.bytes.length / 4 ≤ depth)
    (h' : b.bytes.length / 4 ≤ depth') :
    Agree (ObjectInside charset (pullObject charset depth) (Inside charset depth)
        (ofBytes b.bytes) off) (fun r => off.val + 0 ≤ r.2 ∧ r.2 ≤ b.bytes.length)
      (pullClassObject charset (pullObject charset depth) (ofBytes b.bytes) off)
      (pullClassObject charset (pullObject charset depth') (ofBytes b.bytes) off) := by
  have hobj : SafeContent b (0 + 4) (Inside charset depth) (pullObject charset depth)
      (pullObject charset depth') := safeContent_pullObject charset depth depth' _ (by omega) (by omega)
  exact safe_pullClassObject hobj _ off (ready_ofBytes b) (by simp only [ofBytes]; omega)

/-! ## Leaving the buffer -/

/-- **The decoders and the end of the buffer.** Each decoder comes to a value or a status iff at
every place it gets to the descriptor of a property is there, the byte of its flags is in the
buffer, its value is not a byte at the last offset of 32 bits, and a string of the derivation has a
slot. -/
theorem wbem_pull_in_bounds_iff (cls : Option (WbemClass WbemClassObject)) :
    ((ndrPullWbemClassObject charset (ofBytes b.bytes) off).settled = true ↔
      ObjectInside charset (pullObject charset (b.bytes.length / 4))
        (Inside charset (b.bytes.length / 4)) (ofBytes b.bytes) off) ∧
    ((ndrPullWbemClassObjectObject charset cls (ofBytes b.bytes) off).settled = true ↔
      ObjectObjectInside charset (pullObject charset (b.bytes.length / 4))
        (Inside charset (b.bytes.length / 4)) cls (ofBytes b.bytes) off) := by
  have hobj : SafeContent b (0 + 4) (Inside charset (b.bytes.length / 4))
      (pullObject charset (b.bytes.length / 4)) (pullObject charset (b.bytes.length / 4)) :=
    safeContent_pullObject charset _ _ _ (by omega) (by omega)
  refine ⟨?_, ?_⟩
  · exact (pullClassObject_agree charset b off (Nat.le_refl _) (Nat.le_refl _)).settled_iff
  · exact (safe_pullClassObjectObject hobj cls _ off.val (ready_ofBytes b)
      (by simp only [ofBytes]; omega)).settled_iff

/-- An object with `WCF_INSTANCE` whose class has one property without name, with the given
descriptor pointer and heap. -/
def onePropertyBytes (desc : Nat) (heap : Bytes) : Bytes :=
  [2] ++ toLe 4 (38 + heap.length) ++ [0] ++ toLe 4 nullFfffffff ++ toLe 4 1 ++ toLe 4 4 ++
    toLe 4 4 ++ toLe 4 1 ++ toLe 4 0 ++ toLe 4 desc ++ [0] ++
    toLe 4 (0x80000000 + heap.length) ++ heap

/-- A byte of padding and a descriptor: type, number and offset of the value. -/
def descHeap (cimtype nr offset : Nat) : Bytes :=
  [0] ++ toLe 4 cimtype ++ toLe 2 nr ++ toLe 4 offset ++ toLe 4 0 ++ toLe 4 4

/-- A NULL descriptor, a property number far behind the buffer, and a byte value at the offset that
wraps the range check around. -/
theorem wbem_pull_leaves_buffer :
    [onePropertyBytes 0 [], onePropertyBytes 1 (descHeap cimUint32 0xFFFF 0),
        onePropertyBytes 1 (descHeap cimUint8 0 (0xFFFFFFFF - 35))].map
      (fun bytes => (ndrPullWbemClassObject ⟨fun _ => none, fun _ => none, fun _ => none⟩
        (ofBytes bytes) 0).void) = [.fault, .fault, .fault] := by
  decide +kernel

/-! ## Termination -/

/-- **The decoder ends** within its loop budgets, and opens no object at a nesting depth above `n /
4` in a buffer of length `n`: a larger budget makes no difference. -/
theorem wbem_pull_terminates (more : Nat) :
    ndrPullWbemClassObject charset (ofBytes b.bytes) off ≠ .endless ∧
    pullClassObject charset (pullObject charset (b.bytes.length / 4 + more))
        (ofBytes b.bytes) off =
      ndrPullWbemClassObject charset (ofBytes b.bytes) off := by
  have hroom := pullClassObject_agree charset b off (Nat.le_refl (b.bytes.length / 4))
    (Nat.le_add_right _ more)
  exact ⟨hroom.ne_endless, hroom.eq.symm⟩

end OpenvasSmb.Wbem

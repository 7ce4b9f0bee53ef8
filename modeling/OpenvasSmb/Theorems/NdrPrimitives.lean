import OpenvasSmb.Ndr.Primitives
import OpenvasSmb.Ndr.Spans

/-!
# Round trips of primitive values

Every primitive push carries its value to the pull of its type, whatever the flags are;
so does a sequence of them, by `Carries.seq`.
-/

namespace OpenvasSmb.Ndr

open Kit Prim Nat

/-! ## The numbers -/

theorem Carries.map {α β : Type} {push : Output → Pushed} {pull : Pull α} {a : α}
    (h : Carries push pull a) (f : α → β) : Carries push (pull >>= fun a => pure (f a)) (f a) := by
  refine ⟨h.spanned, fun hs ht hv => ?_⟩
  rw [Pull.bind_apply, h.pulled hs ht hv]
  rfl

variable (flags : UInt32)

theorem length_toOrder16 (v : Nat) : (toOrder16 flags v).length = 2 := by
  unfold toOrder16
  split <;> simp

theorem ofOrder_toOrder16 {v : Nat} (h : v < 2 ^ 16) : ofOrder flags (toOrder16 flags v) = v := by
  have hle : ofLe (toLe 2 v) = v := by
    rw [ofLe_toLe, mod_eq_of_lt (by omega)]
  unfold ofOrder toOrder16
  split <;> simp [hle]

theorem carries_uint8 (v : UInt8) : Carries (ndrPushUint8 v) pullUint8 v.toNat := by
  refine ⟨fun hs h => ⟨_, (put_spanned hs h).1⟩, fun hs h hv => ?_⟩
  obtain ⟨hspan, hhas⟩ := put_spanned hs h
  have hoff := hspan.offset_eq
  rw [hoff]
  exact pullUint8_of_reads (hv.reads hhas (Nat.le_refl _) (Nat.le_of_eq hoff.symm))

theorem carries_uint16 (v : UInt16) : Carries (ndrPushUint16 flags v) (ndrPullUint16 flags) v := by
  have hbytes := carries_put (length_toOrder16 flags v.toNat) fun bytes =>
    UInt16.ofNat (ofOrder flags bytes)
  rw [ofOrder_toOrder16 flags v.toNat_lt, UInt16.ofNat_toNat] at hbytes
  exact (carries_align flags (by decide) (by decide)).seq hbytes

theorem words_read {first second : Nat} (hfirst : first < 2 ^ 32) (hsecond : second < 2 ^ 32) :
    (toOrder flags first ++ toOrder flags second).length = 8 ∧
      ofOrder flags ((toOrder flags first ++ toOrder flags second).take 4) = first ∧
      ofOrder flags ((toOrder flags first ++ toOrder flags second).drop 4) = second := by
  have hlen := length_toOrder flags first
  refine ⟨by rw [List.length_append, hlen, length_toOrder], ?_, ?_⟩
  · rw [List.take_left' hlen, ofOrder_toOrder flags hfirst]
  · rw [List.drop_left' hlen, ofOrder_toOrder flags hsecond]

theorem words_join (v : UInt64) :
    v.toNat % 2 ^ 32 < 2 ^ 32 ∧ v.toNat >>> 32 < 2 ^ 32 ∧
      UInt64.ofNat (v.toNat >>> 32 <<< 32 ||| v.toNat % 2 ^ 32) = v := by
  have hlt := v.toNat_lt
  have hlow : v.toNat % 2 ^ 32 < 2 ^ 32 := mod_lt _ (by decide)
  refine ⟨hlow, by rw [shiftRight_eq_div_pow]; omega, ?_⟩
  rw [← shiftLeft_add_eq_or_of_lt hlow, shiftLeft_eq, shiftRight_eq_div_pow,
    div_add_mod', UInt64.ofNat_toNat]

theorem carries_udlong (v : UInt64) : Carries (ndrPushUdlong flags v) (ndrPullUdlong flags) v := by
  obtain ⟨hlow, hhigh, hjoin⟩ := words_join v
  obtain ⟨hlen, hfirst, hsecond⟩ := words_read flags hlow hhigh
  have hbytes := carries_put hlen fun bytes => UInt64.ofNat
    (ofOrder flags (bytes.take 4) ||| ofOrder flags (bytes.drop 4) <<< 32)
  rw [hfirst, hsecond, Nat.or_comm, hjoin] at hbytes
  exact (carries_align flags (by decide) (by decide)).seq hbytes

theorem carries_udlongr (v : UInt64) :
    Carries (ndrPushUdlongr flags v) (ndrPullUdlongr flags) v := by
  obtain ⟨hlow, hhigh, hjoin⟩ := words_join v
  obtain ⟨hlen, hfirst, hsecond⟩ := words_read flags hhigh hlow
  have hbytes := carries_put hlen fun bytes => UInt64.ofNat
    (ofOrder flags (bytes.take 4) <<< 32 ||| ofOrder flags (bytes.drop 4))
  rw [hfirst, hsecond, hjoin] at hbytes
  exact (carries_align flags (by decide) (by decide)).seq hbytes

theorem carries_bytes (data : Bytes) :
    Carries (ndrPushBytes data) (ndrPullBytes data.length) data := by
  have h := carries_put (Eq.refl data.length) id
  have hend : (takeBytes data.length >>= fun bytes => pure (id bytes)) =
      takeBytes data.length := by
    funext v off
    rw [Pull.bind_apply]
    cases takeBytes data.length v off <;> rfl
  rwa [hend] at h

/-! ## Sequences -/

theorem Prim.carries (p : Prim) : Carries (p.push flags) (p.type.pull flags) p := by
  cases p with
  | uint8 v =>
    have h := (carries_uint8 v).map fun n => uint8 (.ofNat n)
    rwa [UInt8.ofNat_toNat] at h
  | uint16 v => exact (carries_uint16 flags v).map uint16
  | uint32 v =>
    have h := (carries_uint32 flags v.toNat_lt).map fun n => uint32 (.ofNat n)
    rwa [UInt32.ofNat_toNat] at h
  | udlong v => exact (carries_udlong flags v).map udlong
  | udlongr v => exact (carries_udlongr flags v).map udlongr
  | hyper v =>
    have halign := carries_align flags (n := 8) (by decide) (by decide)
    exact (halign.seq (carries_udlong flags v)).map hyper
  | bytes data => exact (carries_bytes data).map bytes

theorem pushAll_carries (prims : List Prim) :
    Carries (pushAll flags prims) (pullAll flags (prims.map type)) prims := by
  induction prims with
  | nil => exact carries_nothing []
  | cons p rest ih => exact (p.carries flags).seq (ih.map (p :: ·))

/-- **The round trip of a sequence** through an empty stream, up to the last byte. -/
theorem primitives_round_trip (flags : UInt32) (mem : Memory) (prims : List Prim) {out : Output}
    (h : pushAll flags prims (ndrPushInit mem) = .ok out) :
    pullAll flags (prims.map type) (View.ofBytes (ndrPushBlob out)) 0 =
      .ok (prims, (View.ofBytes (ndrPushBlob out)).size) := by
  have hinit : ndrAllocator.Inside (ndrPushInit mem) :=
    ⟨zero_le _, show 1024 < maxTallocSize by decide⟩
  have hcarries := pushAll_carries flags prims
  obtain ⟨n, hspan⟩ := hcarries.spanned hinit h
  have hsize : (View.ofBytes (ndrPushBlob out)).size = out.offset := Memory.length_bytes
  have hlt := inside_offset_lt hspan.inside
  have hblob : (ndrPushBlob out ++ []).length < 2 ^ 32 := by
    rw [List.append_nil]
    show (View.ofBytes (ndrPushBlob out)).size < _
    omega
  have hholds := holds_blob out hblob 0
  rw [List.append_nil] at hholds
  rw [hsize]
  exact hcarries.pulled hinit h hholds

/-- A byte, and a big-endian number behind its padding. -/
theorem primitives_round_trip_padded :
    ∃ out, pushAll libndrFlagBigendian [.uint8 7, .hyper 1] (ndrPushInit fun _ => 0) = .ok out ∧
      pullAll libndrFlagBigendian [.uint8, .hyper] (View.ofBytes (ndrPushBlob out)) 0 =
        .ok ([.uint8 7, .hyper 1], (View.ofBytes (ndrPushBlob out)).size) :=
  ⟨_, rfl, primitives_round_trip libndrFlagBigendian (fun _ => 0) [.uint8 7, .hyper 1] rfl⟩

end OpenvasSmb.Ndr

import Mathlib.Algebra.Group.Int.Defs
import Mathlib.Algebra.Group.Nat.Defs
import Mathlib.Data.List.Basic

/-!
# Little-endian numbers in byte strings, and bits of bytes

`ofLe` reads a whole byte string as a little-endian number, `toLe` writes the low
bytes of a number. The masks and shifts of byte-level code are turned into quotients and
remainders.
-/

namespace OpenvasSmb.Kit

open UInt8 Nat

variable (k : Fin 8) (b : UInt8)

/-- The number a byte string denotes, least significant byte first. -/
def ofLe : List UInt8 → Nat
  | [] => 0
  | b :: rest => b.toNat + 256 * ofLe rest

/-- The `n` low bytes of a number, least significant byte first. -/
def toLe : Nat → Nat → List UInt8
  | 0, _ => []
  | n + 1, v => ofNat v :: toLe n (v / 256)

@[simp] theorem length_toLe (n v : Nat) : (toLe n v).length = n := by
  induction n generalizing v with
  | zero => rfl
  | succ n ih => simp [toLe, ih]

theorem ofLe_lt (bytes : List UInt8) : ofLe bytes < 256 ^ bytes.length := by
  induction bytes with
  | nil => simp [ofLe]
  | cons byte rest ih =>
    have hbyte : byte.toNat < 256 := byte.toNat_lt
    simp only [ofLe, List.length_cons, pow_succ]
    omega

theorem ofLe_toLe (n v : Nat) : ofLe (toLe n v) = v % 256 ^ n := by
  induction n generalizing v with
  | zero => simp [toLe, ofLe, mod_one]
  | succ n ih =>
    have hbyte : (ofNat v).toNat = v % 256 := toNat_ofNat'
    rw [toLe, ofLe, ih, hbyte, pow_succ, mul_comm (256 ^ n), mod_mul]

/-! ## Bits -/

theorem or_eq_add {x y k : Nat} (hx : 2 ^ k ∣ x) (hy : y < 2 ^ k) : x ||| y = x + y := by
  obtain ⟨a, rfl⟩ := hx
  exact (two_pow_add_eq_or_of_lt hy a).symm

theorem or_eq_add' {x y k : Nat} (hx : x < 2 ^ k) (hy : 2 ^ k ∣ y) : x ||| y = x + y := by
  rw [Nat.or_comm, or_eq_add hy hx, Nat.add_comm]

theorem forall_byte {P : UInt8 → Prop} (h : ∀ n : Fin 256, P (ofNat n.val)) (b : UInt8) :
    P b := by
  have hb := h ⟨b.toNat, b.toNat_lt⟩
  rwa [UInt8.ofNat_toNat] at hb

theorem toNat_and_high :
    (b &&& ofNat (256 - 2 ^ k.val)).toNat = b.toNat / 2 ^ k.val * 2 ^ k.val := by
  exact forall_byte (P := fun b => ∀ k : Fin 8, (b &&& ofNat (256 - 2 ^ k.val)).toNat =
    b.toNat / 2 ^ k.val * 2 ^ k.val) (by decide +kernel) b k

theorem toNat_and_low :
    (b &&& UInt8.ofNat (2 ^ k.val - 1)).toNat = b.toNat % 2 ^ k.val := by
  have hlt : 2 ^ k.val - 1 < 256 := by
    have := Nat.pow_le_pow_right (show 0 < 2 by decide) (show k.val ≤ 7 by omega)
    omega
  rw [UInt8.toNat_and, UInt8.toNat_ofNat', mod_eq_of_lt (show 2 ^ k.val - 1 < 2 ^ 8 from hlt),
    and_two_pow_sub_one_eq_mod]

theorem toNat_shiftRight :
    (b >>> ofNat k.val).toNat = b.toNat / 2 ^ k.val := by
  rw [UInt8.toNat_shiftRight, UInt8.toNat_ofNat', shiftRight_eq_div_pow,
    show k.val % 2 ^ 8 % 8 = k.val by omega]

theorem toNat_shiftLeft :
    (b <<< ofNat k.val).toNat = b.toNat % 2 ^ (8 - k.val) * 2 ^ k.val := by
  rw [UInt8.toNat_shiftLeft, UInt8.toNat_ofNat', shiftLeft_eq,
    show k.val % 2 ^ 8 % 8 = k.val by omega, ← mul_mod_mul_right, ← pow_add,
    Nat.sub_add_cancel (by omega)]

theorem toNat_or {x y : UInt8} {k : Nat} (hx : 2 ^ k ∣ x.toNat) (hy : y.toNat < 2 ^ k) :
    (x ||| y).toNat = x.toNat + y.toNat := by
  rw [UInt8.toNat_or, or_eq_add hx hy]

end OpenvasSmb.Kit

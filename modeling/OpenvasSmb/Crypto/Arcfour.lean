import Mathlib.Logic.Equiv.Basic
import OpenvasSmb.Kit.Keystream
import OpenvasSmb.Util.Status

/-!
# ARCFOUR (`lib/crypto/arcfour.c`)

The S-box is indexed by bytes only, so it is a function on bytes; a key of length zero is a division
by zero. A call of `arcfour_crypt_sbox` goes over its data, whose length is `len`.
-/

namespace OpenvasSmb.Crypto

open Kit Function

variable {sbox : UInt8 → UInt8} {i j : UInt8}

/-- `struct arcfour_state`. -/
structure ArcfourState where
  sbox : UInt8 → UInt8
  indexI : UInt8
  indexJ : UInt8

/-- `tc = sbox[i]; sbox[i] = sbox[j]; sbox[j] = tc`. -/
def exchange (sbox : UInt8 → UInt8) (i j : UInt8) : UInt8 → UInt8 :=
  update (update sbox i (sbox j)) j (sbox i)

/-- A round of the second loop of `arcfour_init`, on the S-box and `j`. -/
def initRound (key : Bytes) : (UInt8 → UInt8) × UInt8 → Nat → Option ((UInt8 → UInt8) × UInt8)
  | (sbox, j), ind => do
    let j := j + (sbox (.ofNat ind) + (← key[ind % key.length]?))
    some (exchange sbox (.ofNat ind) j, j)

def arcfourInit (key : Bytes) : Option ArcfourState := do
  let (sbox, _) ← (List.range 256).foldlM (initRound key) (fun ind => ind, 0)
  some ⟨sbox, 0, 0⟩

/-- A round of `arcfour_crypt_sbox`: the byte that is added to the data. -/
def cryptRound : Keystream ArcfourState := fun s =>
  let i := s.indexI + 1
  let j := s.indexJ + s.sbox i
  let sbox := exchange s.sbox i j
  (sbox (sbox i + sbox j), ⟨sbox, i, j⟩)

def arcfourCryptSbox (s : ArcfourState) (data : Bytes) : Bytes × ArcfourState :=
  cryptRound.xor s data

/-- Calls of `arcfour_crypt_sbox` one after the other. -/
def cryptCalls (s : ArcfourState) (calls : List Bytes) : List Bytes × ArcfourState :=
  cryptRound.xorAll s calls

/-! ## The S-box -/

/-- Also for `i = j`, where the second assignment undoes the first. -/
theorem exchange_eq : exchange sbox i j = sbox ∘ Equiv.swap i j := by
  funext x
  rw [exchange, comp_apply, Equiv.swap_apply_def, update_apply]
  split_ifs <;> simp_all

theorem bijective_exchange (h : Bijective sbox) : Bijective (exchange sbox i j) := by
  rw [exchange_eq]
  exact h.comp (Equiv.bijective _)

/-- The rounds of `arcfour_init` go through for every key that has a byte. -/
theorem initRounds {key : Bytes} (hkey : key ≠ []) : ∀ (rounds : List Nat) {sbox : UInt8 → UInt8}
    (j : UInt8), Bijective sbox →
      ∃ r, rounds.foldlM (initRound key) (sbox, j) = some r ∧ Bijective r.1 := by
  intro rounds
  induction rounds with
  | nil => exact fun j h => ⟨_, rfl, h⟩
  | cons ind rounds ih =>
    intro sbox j h
    have hlt : ind % key.length < key.length := Nat.mod_lt _ (List.length_pos_iff.mpr hkey)
    rw [List.foldlM_cons, initRound, List.getElem?_eq_getElem hlt]
    exact ih _ (bijective_exchange h)

/-- **ARCFOUR.** Every key with a byte gives a state in which, after any calls, the S-box is a
permutation; the calls do what one call on all of their data does; and they are undone, call by
call, from a second state of the same key. -/
theorem arcfour_calls (key : Bytes) (hkey : key ≠ []) :
    ∃ s, arcfourInit key = some s ∧ ∀ calls : List Bytes,
      Bijective (cryptCalls s calls).2.sbox ∧
      arcfourCryptSbox s calls.flatten =
        ((cryptCalls s calls).1.flatten, (cryptCalls s calls).2) ∧
      cryptCalls s (cryptCalls s calls).1 = (calls, (cryptCalls s calls).2) := by
  obtain ⟨r, hr, hperm⟩ := initRounds hkey (List.range 256) 0 bijective_id
  refine ⟨⟨r.1, 0, 0⟩, ?_, fun calls => ⟨?_, ?_, ?_⟩⟩
  · rw [arcfourInit]
    exact hr ▸ rfl
  · have hinv := cryptRound.xor_inv (I := fun s => Bijective s.sbox) (fun _ => bijective_exchange)
      calls.flatten (k := ⟨r.1, 0, 0⟩) hperm
    rwa [cryptRound.xor_flatten] at hinv
  · exact cryptRound.xor_flatten _ calls
  · exact cryptRound.xorAll_xorAll _ calls

theorem arcfour_calls_one : ([1] : Bytes) ≠ [] ∧ ∃ s, arcfourInit [1] = some s ∧
    (cryptCalls s (cryptCalls s [[2, 3], [4]]).1).1 = [[2, 3], [4]] :=
  ⟨by decide, (arcfour_calls [1] (by decide)).imp fun _ hs =>
    ⟨hs.1, congrArg Prod.fst (hs.2 [[2, 3], [4]]).2.2⟩⟩

end OpenvasSmb.Crypto

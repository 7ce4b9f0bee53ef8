import Mathlib.Data.List.Basic

/-!
# Stream ciphers

A keystream generator gives one byte after the other out of a state. A text is enciphered
by adding the bytes to it, and deciphered by adding the same bytes again (`xor_xor`): the
two ends of a stream stay together as long as they started together.
-/

namespace OpenvasSmb.Kit

open List

/-- A generator of key bytes over states `κ`. -/
abbrev Keystream (κ : Type) := κ → UInt8 × κ

namespace Keystream

variable {κ : Type} (next : Keystream κ) (n : Nat) (k : κ) (text : List UInt8)

/-- A text with the next key bytes added, and the state behind them. -/
def xor : κ → List UInt8 → List UInt8 × κ
  | k, [] => ([], k)
  | k, b :: rest => ((b ^^^ (next k).1) :: (xor (next k).2 rest).1, (xor (next k).2 rest).2)

@[simp] theorem length_xor : (next.xor k text).1.length = text.length := by
  induction text generalizing k with
  | nil => rfl
  | cons b rest ih => simp only [xor, length_cons, ih]

/-- **The other end.** From the same state the enciphered text is deciphered, and the states
are the same again. -/
theorem xor_xor : next.xor k (next.xor k text).1 = (text, (next.xor k text).2) := by
  induction text generalizing k with
  | nil => rfl
  | cons b rest ih =>
    simp only [xor, ih]
    rw [UInt8.xor_assoc, UInt8.xor_self, UInt8.xor_zero]

/-- What the generator keeps holds behind every text. -/
theorem xor_inv {I : κ → Prop} (hnext : ∀ k, I k → I (next k).2) :
    ∀ (text : List UInt8) {k : κ}, I k → I (next.xor k text).2
  | [], _, h => h
  | _ :: rest, k, h => xor_inv hnext rest (hnext k h)

theorem xor_append (rest : List UInt8) :
    next.xor k (text ++ rest) = ((next.xor k text).1 ++ (next.xor (next.xor k text).2 rest).1,
      (next.xor (next.xor k text).2 rest).2) := by
  induction text generalizing k with
  | nil => rfl
  | cons b text ih => simp only [xor, cons_append, ih]

/-- Texts enciphered one after the other. -/
def xorAll : κ → List (List UInt8) → List (List UInt8) × κ
  | k, [] => ([], k)
  | k, text :: texts => ((next.xor k text).1 :: (xorAll (next.xor k text).2 texts).1,
      (xorAll (next.xor k text).2 texts).2)

/-- A text in pieces is enciphered like the whole. -/
theorem xor_flatten (texts : List (List UInt8)) :
    next.xor k texts.flatten = ((next.xorAll k texts).1.flatten, (next.xorAll k texts).2) := by
  induction texts generalizing k with
  | nil => rfl
  | cons text texts ih => rw [flatten_cons, xor_append, ih]; rfl

theorem xorAll_xorAll (texts : List (List UInt8)) :
    next.xorAll k (next.xorAll k texts).1 = (texts, (next.xorAll k texts).2) := by
  induction texts generalizing k with
  | nil => rfl
  | cons text texts ih => simp only [xorAll, xor_xor, ih]

/-- Only the first `n` bytes of a text are enciphered. -/
def xorFirst : List UInt8 × κ :=
  ((next.xor k (text.take n)).1 ++ text.drop n, (next.xor k (text.take n)).2)

@[simp] theorem length_xorFirst : (next.xorFirst n k text).1.length = text.length := by
  simp only [xorFirst, length_append, length_xor, length_take, length_drop]
  omega

theorem xorFirst_xorFirst :
    next.xorFirst n k (next.xorFirst n k text).1 = (text, (next.xorFirst n k text).2) := by
  have hparts : (next.xorFirst n k text).1.take n = (next.xor k (text.take n)).1 ∧
      (next.xorFirst n k text).1.drop n = text.drop n := by
    by_cases hn : n ≤ text.length
    · have hlen : (next.xor k (text.take n)).1.length = n := by
        rw [length_xor, length_take, Nat.min_eq_left hn]
      exact ⟨take_left' hlen, drop_left' hlen⟩
    · have hdrop : text.drop n = [] := drop_of_length_le (by omega)
      simp only [xorFirst, hdrop, append_nil]
      refine ⟨take_of_length_le ?_, drop_of_length_le ?_⟩ <;>
        rw [length_xor, length_take] <;> omega
  rw [xorFirst, hparts.1, hparts.2, xor_xor, take_append_drop]
  rfl

end Keystream

end OpenvasSmb.Kit

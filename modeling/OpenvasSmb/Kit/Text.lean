import OpenvasSmb.Kit.Bytes
import Mathlib.Data.Nat.Digits.Defs

/-!
# C strings

Strings as lists of characters, with the numbers that `strtol` reads at their head, and strings
in memory, which end at a zero byte or at a bound.
-/

namespace OpenvasSmb.Kit

open List Nat

abbrev Text := List Char

/-! ## Strings in memory -/

/-- A number of `n` bytes. -/
def readLe (blob : List UInt8) (ofs n : Nat) : Option Nat :=
  if ofs + n ≤ blob.length then some (ofLe ((blob.drop ofs).take n)) else none

theorem readLe_some {blob : List UInt8} {ofs n : Nat} (h : ofs + n ≤ blob.length) :
    ∃ v < 256 ^ n, readLe blob ofs n = some v := by
  have hlt := ofLe_lt ((blob.drop ofs).take n)
  rw [List.length_take_of_le (by rw [List.length_drop]; omega)] at hlt
  exact ⟨_, hlt, if_pos h⟩

/-- `strnlen`, with a bound or without. -/
def strnlen : List UInt8 → Option Nat → Option Nat
  | _, some 0 => some 0
  | [], _ => none
  | b :: src, max => if b = 0 then some 0 else (strnlen src (max.map (· - 1))).map (· + 1)

theorem strnlen_bounded : ∀ (src : List UInt8) {n : Nat}, n ≤ src.length →
    ∃ k ≤ n, strnlen src (some n) = some k := by
  intro src
  induction src with
  | nil =>
    intro n hn
    obtain rfl : n = 0 := by simpa using hn
    exact ⟨0, Nat.le_refl _, rfl⟩
  | cons b src ih =>
    intro n hn
    cases n with
    | zero => exact ⟨0, Nat.le_refl _, rfl⟩
    | succ n =>
      by_cases hb : b = 0
      · exact ⟨0, by omega, by simp [strnlen, hb]⟩
      · obtain ⟨k, hk, hfound⟩ := ih (show n ≤ src.length by simpa using hn)
        exact ⟨k + 1, by omega, by simp [strnlen, hb, hfound]⟩

/-! ## Numbers -/

/-- `isspace` in the C locale. -/
def isSpace (c : Char) : Bool :=
  c = ' ' || c = '\t' || c = '\n' || c = '\x0b' || c = '\x0c' || c = '\r'

/-- The digits at the head of a text, as a number, and what follows them. -/
def readDigits : Nat → List Char → Nat × List Char
  | v, [] => (v, [])
  | v, c :: cs => if c.isDigit then readDigits (v * 10 + (c.toNat - 48)) cs else (v, c :: cs)

/-- What the `strto` functions do in base 10: the value of a sign and digits and the rest of the
text, or 0 and the whole text. -/
def readNumber {α : Type} [Zero α] (value : Bool → Nat → α) (s : List Char) : α × List Char :=
  let (neg, digits) :=
    match s.dropWhile isSpace with
    | '-' :: cs => (true, cs)
    | '+' :: cs => (false, cs)
    | cs => (false, cs)
  match digits with
  | c :: _ =>
    if c.isDigit then
      let (v, rest) := readDigits 0 digits
      (value neg v, rest)
    else (0, s)
  | [] => (0, s)

/-- `strtol`: the value is clamped to `long`. -/
def strtol : List Char → Int × List Char :=
  readNumber fun neg v => if neg then max (-2 ^ 63) (-(v : Int)) else min (2 ^ 63 - 1) (v : Int)

/-- `strtoul`: a value that is too large is clamped, a negative one wraps. -/
def strtoul : List Char → Nat × List Char :=
  readNumber fun neg v =>
    if 2 ^ 64 ≤ v then 2 ^ 64 - 1 else if neg then (2 ^ 64 - v) % 2 ^ 64 else v

/-- A text that does not go on with a digit. -/
def NoDigit (cs : List Char) : Prop := ∀ c, cs.head? = some c → c.isDigit = false

theorem readDigits_append {rest : List Char} (hrest : NoDigit rest) : ∀ (ds : List Char) (v : Nat),
    (∀ c ∈ ds, c.isDigit = true) → readDigits v (ds ++ rest) = (ofDigitChars 10 ds v, rest)
  | [], v, _ => by
    cases rest with
    | nil => rfl
    | cons c cs =>
      rw [nil_append, readDigits, if_neg (by simp [hrest c rfl])]
      rfl
  | c :: ds, v, h => by
    have ih := readDigits_append hrest ds (v * 10 + (c.toNat - 48)) fun x hx =>
      h x (mem_cons_of_mem _ hx)
    rw [cons_append, readDigits, if_pos (h c (mem_cons_self ..)), ih, mul_comm]
    rfl

theorem isSpace_of_isDigit {c : Char} (h : c.isDigit = true) : isSpace c = false := by
  have hc : 48 ≤ c.toNat := by
    simp only [Char.isDigit, Bool.and_eq_true, decide_eq_true_eq] at h
    exact h.1
  simp only [isSpace, Bool.or_eq_false_iff, decide_eq_false_iff_not]
  refine ⟨⟨⟨⟨⟨?_, ?_⟩, ?_⟩, ?_⟩, ?_⟩, ?_⟩ <;> rintro rfl <;> revert hc <;> decide

theorem sign_ne_of_isDigit {c : Char} (h : c.isDigit = true) : c ≠ '-' ∧ c ≠ '+' := by
  refine ⟨?_, ?_⟩ <;> rintro rfl <;> revert h <;> decide

/-- A number in decimal digits, perhaps with leading zeros. -/
def isDecimal (ds : List Char) : Bool := !ds.isEmpty && ds.all Char.isDigit

def decimalValue (ds : List Char) : Nat := Nat.ofDigitChars 10 ds 0

theorem isDecimal_toDigits (n : Nat) : isDecimal (toDigits 10 n) = true := by
  have hpos := length_toDigits_pos (b := 10) (n := n)
  rw [isDecimal, Bool.and_eq_true, Bool.not_eq_true', isEmpty_eq_false_iff, all_eq_true]
  exact ⟨ne_nil_of_length_pos hpos, fun c hc =>
    isDigit_of_mem_toDigits (by decide) (by decide) hc⟩

theorem decimalValue_toDigits (n : Nat) : decimalValue (toDigits 10 n) = n :=
  ofDigitChars_toDigits (by decide) (by decide)

theorem readNumber_decimal {α : Type} [Zero α] (value : Bool → Nat → α) {s ds rest : List Char}
    (hds : isDecimal ds = true) (hrest : NoDigit rest)
    (hs : s.dropWhile isSpace = (ds ++ rest).dropWhile isSpace) :
    readNumber value s = (value false (decimalValue ds), rest) := by
  rw [isDecimal, Bool.and_eq_true, all_eq_true] at hds
  cases ds with
  | nil => cases hds.1
  | cons c cs =>
    have hc := hds.2 c (mem_cons_self ..)
    obtain ⟨hminus, hplus⟩ := sign_ne_of_isDigit hc
    have hread := readDigits_append hrest (c :: cs) 0 hds.2
    rw [cons_append] at hs hread
    rw [dropWhile_cons_of_neg (by simp [isSpace_of_isDigit hc])] at hs
    rw [readNumber, hs]
    simp [hminus, hplus, hc, hread, decimalValue]

theorem strtol_decimal {s ds rest : List Char} (hds : isDecimal ds = true)
    (hn : decimalValue ds < 2 ^ 63) (hrest : NoDigit rest)
    (hs : s.dropWhile isSpace = (ds ++ rest).dropWhile isSpace) :
    strtol s = ((decimalValue ds : Int), rest) := by
  rw [strtol, readNumber_decimal _ hds hrest hs]
  simp only [Bool.false_eq_true, if_false, Prod.mk.injEq, and_true]
  omega

theorem strtol_number {s rest : List Char} {n : Nat} (hn : n < 2 ^ 63) (hrest : NoDigit rest)
    (hs : s.dropWhile isSpace = (toDigits 10 n ++ rest).dropWhile isSpace) :
    strtol s = ((n : Int), rest) := by
  have hvalue := decimalValue_toDigits n
  rw [strtol_decimal (isDecimal_toDigits n) (by rwa [hvalue]) hrest hs, hvalue]

end OpenvasSmb.Kit

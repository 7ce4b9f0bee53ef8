import Mathlib.Data.List.Infix
import Mathlib.Tactic.Ring

/-!
# Letter codes and hexadecimal digits

A *flag map* gives a name to some sets of bits of a word. A word is spelled as the names of the
sets it meets, with nothing between them; a text is read by taking off, again and again, the first
name that it starts with. When the sets are single bits and no name starts another one, reading
gives back exactly the named bits (`read_toText`).

Numbers have a fixed number of hexadecimal digits, which are read up to a limit
(`readHex_hexPad`).
-/

namespace OpenvasSmb.Kit

open List Nat Option

/-- Names for sets of bits. -/
abbrev FlagMap (w : Nat) := List (List Char × BitVec w)

namespace FlagMap

variable {w : Nat} {flags : BitVec w} {checkAll : Bool} {es map : FlagMap w} {c : Char}
  {rest text : List Char} {e : List Char × BitVec w}

/-- Every bit that has a name. -/
def bits (map : FlagMap w) : BitVec w := map.foldr (fun e acc => e.2 ||| acc) 0

/-- The names of the bits, in the order of the map, and the bits left without one. -/
def spell : FlagMap w → BitVec w → List Char × BitVec w
  | [], flags => ([], flags)
  | (name, flag) :: map, flags =>
    if flags &&& flag ≠ 0 then
      let (text, left) := spell map (flags &&& ~~~flag)
      (name ++ text, left)
    else spell map flags

/-- A word as text: its name, or else the names of its bits. With `checkAll` every bit needs a name.
-/
def toText (map : FlagMap w) (flags : BitVec w) (checkAll : Bool) : Option (List Char) :=
  match map.find? fun e => e.2 == flags with
  | some e => some e.1
  | none =>
    let (text, left) := spell map flags
    if checkAll && left != 0 then none else some text

/-- The first entry whose name the text starts with. -/
def first (map : FlagMap w) (text : List Char) : Option (List Char × BitVec w) :=
  map.find? fun e => e.1.isPrefixOf text

/-- Names are taken off while the text goes on with a capital letter; `none` when none fits. -/
def readLoop (map : FlagMap w) : Nat → BitVec w → List Char → Option (BitVec w × List Char)
  | 0, flags, text => some (flags, text)
  | fuel + 1, flags, text =>
    match text.head? with
    | some c =>
      if c.isUpper then
        match map.first text with
        | some e => readLoop map fuel (flags ||| e.2) (text.drop e.1.length)
        | none => none
      else some (flags, text)
    | none => some (flags, text)

/-- The word that a text names, and what follows the names. -/
def read (map : FlagMap w) (text : List Char) : Option (BitVec w × List Char) :=
  readLoop map text.length 0 text

/-! ## What the bits are -/

/-- Every set is one bit, and no bit has two names. -/
structure SingleBits (map : FlagMap w) : Prop where
  single : ∀ e ∈ map, ∃ i < w, e.2 = BitVec.twoPow w i
  apart : map.Pairwise fun e e' => e.2 &&& e'.2 = 0

theorem SingleBits.tail (h : SingleBits (e :: map)) : SingleBits map :=
  ⟨fun e' he' => h.single e' (mem_cons_of_mem _ he'), (pairwise_cons.mp h.apart).2⟩

theorem SingleBits.none_or_all (h : SingleBits map) (he : e ∈ map) (flags : BitVec w) :
    flags &&& e.2 = 0 ∨ flags &&& e.2 = e.2 := by
  obtain ⟨i, -, hi⟩ := h.single e he
  rw [hi, BitVec.and_twoPow]
  split
  · exact .inr rfl
  · exact .inl rfl

@[simp] theorem bits_nil : bits ([] : FlagMap w) = 0 := rfl

@[simp] theorem bits_cons (e : List Char × BitVec w) (map : FlagMap w) :
    bits (e :: map) = e.2 ||| bits map := rfl

theorem SingleBits.eq_nil (h : SingleBits map) (hes : ∀ e ∈ es, e ∈ map) (hzero : bits es = 0) :
    es = [] := by
  cases es with
  | nil => rfl
  | cons e es =>
    obtain ⟨i, hi, hbit⟩ := h.single e (hes e (mem_cons_self ..))
    rw [bits_cons, hbit] at hzero
    have := congrArg (fun v : BitVec w => v.getLsbD i) hzero
    simp [hi] at this

theorem getElem_and_of_eq_zero {a b : BitVec w} (h : a &&& b = 0) {i : Nat} (hi : i < w) :
    (a[i] && b[i]) = false := by
  have hbit := congrArg (fun v : BitVec w => v[i]) h
  simpa using hbit

/-- The entries whose bit is in a word. -/
def named (map : FlagMap w) (flags : BitVec w) : FlagMap w :=
  map.filter fun e => flags &&& e.2 != 0

def names (map : FlagMap w) : List Char := map.flatMap Prod.fst

theorem named_of_set (h : flags &&& e.2 ≠ 0) (map : FlagMap w) :
    named (e :: map) flags = e :: named map flags :=
  filter_cons_of_pos (by simpa using h)

theorem named_of_unset (h : flags &&& e.2 = 0) (map : FlagMap w) :
    named (e :: map) flags = named map flags :=
  filter_cons_of_neg (by simpa using h)

/-- A named set is among the named bits. -/
theorem and_bits_of_mem : ∀ {map : FlagMap w} {e : List Char × BitVec w}, e ∈ map →
    e.2 &&& bits map = e.2 := by
  intro map
  induction map with
  | nil => intro e he; cases he
  | cons e' map ih =>
    intro e he
    rw [bits_cons]
    ext i hi
    rcases mem_cons.mp he with rfl | he
    · rw [BitVec.getElem_and, BitVec.getElem_or]
      cases e.2[i] <;> simp
    · have hbit := congrArg (fun v : BitVec w => v[i]) (ih he)
      simp only [BitVec.getElem_and, BitVec.getElem_or] at hbit ⊢
      cases hf : e.2[i]
      · rfl
      · rw [hf, Bool.true_and] at hbit
        rw [hbit, Bool.or_true]
        rfl

theorem named_clear (h : SingleBits (e :: map)) (flags : BitVec w) :
    named map (flags &&& ~~~e.2) = named map flags := by
  refine filter_congr fun e' he' => ?_
  have happart : e.2 &&& e'.2 = 0 := (pairwise_cons.mp h.apart).1 e' he'
  have hkeep : flags &&& ~~~e.2 &&& e'.2 = flags &&& e'.2 := by
    ext i hi
    have hbit := getElem_and_of_eq_zero happart hi
    rw [BitVec.getElem_and, BitVec.getElem_and, BitVec.getElem_not, BitVec.getElem_and]
    revert hbit
    generalize e.2[i] = a, e'.2[i] = b, flags[i] = f
    revert a b f
    decide
  rw [hkeep]

theorem spell_fst : ∀ {map : FlagMap w}, SingleBits map → ∀ flags : BitVec w,
    (spell map flags).1 = names (named map flags) := by
  intro map
  induction map with
  | nil => intro _ flags; rfl
  | cons e map ih =>
    intro h flags
    by_cases hset : flags &&& e.2 = 0
    · rw [spell, if_neg (by simpa using hset), ih h.tail, named_of_unset hset]
    · rw [spell, if_pos (by simpa using hset)]
      show e.1 ++ (spell map (flags &&& ~~~e.2)).1 = _
      rw [ih h.tail, named_clear h, named_of_set hset]
      rfl

/-- What spelling leaves is what has no name. -/
theorem spell_snd : ∀ {map : FlagMap w}, SingleBits map → ∀ flags : BitVec w,
    (spell map flags).2 = flags &&& ~~~(bits map) := by
  intro map
  induction map with
  | nil => intro _ flags; simp [spell]
  | cons e map ih =>
    intro h flags
    have hsplit : flags &&& ~~~(bits (e :: map)) = flags &&& ~~~e.2 &&& ~~~(bits map) := by
      ext i hi
      simp [Bool.and_assoc]
    by_cases hset : flags &&& e.2 = 0
    · have hclear : flags &&& ~~~e.2 = flags := by
        ext i hi
        have hbit := getElem_and_of_eq_zero hset hi
        cases hf : flags[i] <;> simp_all
      rw [spell, if_neg (by simpa using hset), ih h.tail, hsplit, hclear]
    · rw [spell, if_pos (by simpa using hset)]
      show (spell map (flags &&& ~~~e.2)).2 = _
      rw [ih h.tail, hsplit]

/-- The entries whose bit is set have together the named bits of the word. -/
theorem bits_named : ∀ {map : FlagMap w}, SingleBits map → ∀ flags : BitVec w,
    bits (named map flags) = flags &&& bits map := by
  intro map
  induction map with
  | nil => intro _ flags; simp [named]
  | cons e map ih =>
    intro h flags
    have hsplit : flags &&& bits (e :: map) = flags &&& e.2 ||| flags &&& bits map := by
      ext i hi
      simp [Bool.and_or_distrib_left]
    by_cases hset : flags &&& e.2 = 0
    · rw [named_of_unset hset, ih h.tail, hsplit, hset]
      simp
    · have hwhole := (h.none_or_all (mem_cons_self ..) flags).resolve_left hset
      rw [named_of_set hset, bits_cons, ih h.tail, hsplit, hwhole]

/-! ## Reading back -/

/-- Every name starts with a capital letter, and none starts another one. -/
structure Coded (map : FlagMap w) : Prop where
  upper : ∀ e ∈ map, ∃ c ∈ e.1.head?, c.isUpper = true
  free : ∀ e ∈ map, ∀ e' ∈ map, e.1 <+: e'.1 → e = e'

/-- The first half of `Coded`, as a computation. -/
theorem upper_of_all (h : map.all (fun e => e.1.head?.any Char.isUpper) = true) :
    ∀ e ∈ map, ∃ c ∈ e.1.head?, c.isUpper = true := by
  intro e he
  exact (any_eq_true _ _).mp (all_eq_true.mp h e he)

/-- A text that does not go on with a capital letter. -/
def NoUpper (text : List Char) : Prop := ∀ c ∈ text.head?, c.isUpper = false

section

variable (h : Coded map)
include h

theorem first_append (he : e ∈ map) (rest : List Char) :
    map.first (e.1 ++ rest) = some e := by
  have hmatch : e.1.isPrefixOf (e.1 ++ rest) = true := by simp
  cases hfirst : map.first (e.1 ++ rest) with
  | none =>
    rw [first, find?_eq_none] at hfirst
    exact absurd hmatch (hfirst e he)
  | some e' =>
    -- both names start the text, so one of them starts the other
    have he' : e' ∈ map := mem_of_find?_eq_some hfirst
    have hpre : e'.1 <+: e.1 ++ rest := by
      simpa using find?_some hfirst
    rcases prefix_or_prefix_of_prefix hpre (prefix_append e.1 rest) with hle | hle
    · rw [h.free e' he' e he hle]
    · rw [h.free e he e' he' hle]

theorem readLoop_cons (he : e ∈ map) (es : FlagMap w) (rest : List Char) (fuel : Nat)
    (flags : BitVec w) :
    map.readLoop (fuel + 1) flags (names (e :: es) ++ rest) =
      map.readLoop fuel (flags ||| e.2) (names es ++ rest) := by
  have htext : names (e :: es) ++ rest = e.1 ++ (names es ++ rest) := by simp [names]
  obtain ⟨c, hc, hupper⟩ := h.upper e he
  have hhead : (e.1 ++ (names es ++ rest)).head? = some c := by
    rw [head?_append, mem_def.mp hc]
    rfl
  rw [htext, readLoop, hhead]
  simp only [hupper, if_true, first_append h he, drop_left]

theorem readLoop_names (rest : List Char) (fuel : Nat) :
    ∀ es : FlagMap w, (∀ e ∈ es, e ∈ map) → ∀ flags : BitVec w,
    map.readLoop (es.length + fuel) flags (names es ++ rest) =
      map.readLoop fuel (flags ||| bits es) rest := by
  intro es
  induction es with
  | nil =>
    intro _ flags
    simp [names]
  | cons e es ih =>
    intro hes flags
    obtain ⟨he, hes⟩ := forall_mem_cons.mp hes
    rw [length_cons, add_right_comm, readLoop_cons h he, ih hes, bits_cons, BitVec.or_assoc]

theorem Coded.length_le_names : ∀ {es : FlagMap w},
    (∀ e ∈ es, e ∈ map) → es.length ≤ (names es).length := by
  intro es
  induction es with
  | nil => intro _; exact le_refl _
  | cons e es ih =>
    intro hes
    obtain ⟨he, hes⟩ := forall_mem_cons.mp hes
    obtain ⟨c, hc, -⟩ := h.upper e he
    have hpos : 0 < e.1.length := by
      cases hname : e.1 with
      | nil => simp [hname] at hc
      | cons c cs => simp
    have := ih hes
    simp only [names, flatMap_cons, length_append, length_cons] at this ⊢
    omega

theorem read_eq_readLoop (hes : ∀ e ∈ es, e ∈ map) (rest : List Char) :
    ∃ fuel, rest.length ≤ fuel ∧ map.read (names es ++ rest) = map.readLoop fuel (bits es) rest := by
  obtain ⟨k, hk⟩ := Nat.exists_eq_add_of_le (h.length_le_names hes)
  refine ⟨k + rest.length, Nat.le_add_left .., ?_⟩
  rw [read, length_append, hk, Nat.add_assoc, readLoop_names h _ _ es hes]
  simp

theorem read_names (hrest : NoUpper rest) (hes : ∀ e ∈ es, e ∈ map) :
    map.read (names es ++ rest) = some (bits es, rest) := by
  obtain ⟨fuel, -, hread⟩ := read_eq_readLoop h hes rest
  rw [hread]
  cases fuel with
  | zero => rfl
  | succ fuel =>
    rw [readLoop]
    cases hhead : rest.head? with
    | none => rfl
    | some c => simp [hrest c hhead]

/-- A capital letter that starts no name ends the reading. -/
theorem read_names_stuck (hc : rest.head? = some c) (hupper : c.isUpper = true)
    (hnone : map.first rest = none) (hes : ∀ e ∈ es, e ∈ map) :
    map.read (names es ++ rest) = none := by
  obtain ⟨fuel, hle, hread⟩ := read_eq_readLoop h hes rest
  rw [hread]
  cases fuel with
  | zero => simp [length_eq_zero_iff.mp (le_zero.mp hle)] at hc
  | succ fuel =>
    rw [readLoop, hc]
    simp [hupper, hnone]

end

/-- What a text of a word is made of: the names of some entries, which have together the
named bits of the word. -/
theorem toText_names (hbits : SingleBits map) (h : map.toText flags checkAll = some text) :
    ∃ es : FlagMap w, (∀ e ∈ es, e ∈ map) ∧ text = names es ∧ bits es = flags &&& bits map ∧
      (checkAll = true → flags &&& bits map = flags) := by
  rw [toText] at h
  cases hexact : map.find? fun e => e.2 == flags with
  | some e =>
    rw [hexact] at h
    have he : e ∈ map := mem_of_find?_eq_some hexact
    have hflag : e.2 = flags := by simpa using find?_some hexact
    have hnamed : flags &&& bits map = flags := by
      rw [← hflag]
      exact and_bits_of_mem he
    refine ⟨[e], by simpa using he, ?_, ?_, fun _ => hnamed⟩
    · simpa [names] using (some.inj h).symm
    · rw [hnamed]
      simp [hflag]
  | none =>
    have htext := spell_fst hbits flags
    have hleft := spell_snd hbits flags
    cases hspell : spell map flags with
    | mk spelled left =>
    rw [hspell] at htext hleft
    simp only [hexact, hspell, ite_none_left_eq_some, some.injEq] at h
    refine ⟨named map flags, fun e he => mem_of_mem_filter he, h.2.symm.trans htext,
      bits_named hbits flags, ?_⟩
    intro hcheck
    have hnone : flags &&& ~~~(bits map) = 0 := by
      rw [← hleft]
      simpa [hcheck] using h.1
    ext i hi
    have hbit := getElem_and_of_eq_zero hnone hi
    cases hf : flags[i] <;> simp_all

theorem mem_spell : ∀ {map : FlagMap w} {flags : BitVec w} {c : Char},
    c ∈ (spell map flags).1 → ∃ e ∈ map, c ∈ e.1 := by
  intro map
  induction map with
  | nil => intro flags c h; cases h
  | cons e map ih =>
    intro flags c h
    have hrest : ∀ flags, c ∈ (spell map flags).1 → ∃ e' ∈ e :: map, c ∈ e'.1 := by
      intro flags hc
      obtain ⟨e', he', hc'⟩ := ih hc
      exact ⟨e', mem_cons_of_mem _ he', hc'⟩
    rw [spell] at h
    split at h
    · rcases mem_append.mp h with hc | hc
      · exact ⟨e, mem_cons_self .., hc⟩
      · exact hrest _ hc
    · exact hrest _ h

theorem mem_toText (h : map.toText flags checkAll = some text) (hc : c ∈ text) :
    ∃ e ∈ map, c ∈ e.1 := by
  rw [toText] at h
  cases hexact : map.find? fun e => e.2 == flags with
  | some e =>
    rw [hexact] at h
    cases h
    exact ⟨e, mem_of_find?_eq_some hexact, hc⟩
  | none =>
    have hspelled : text = (spell map flags).1 := by
      cases hspell : spell map flags with
      | mk spelled left =>
      simp only [hexact, hspell, ite_none_left_eq_some, some.injEq] at h
      exact h.2.symm
    rw [hspelled] at hc
    exact mem_spell hc

/-- **Reading a spelled word.** A text of a word names exactly the bits of the word that have a
name, whatever comes behind. -/
theorem read_toText (hcoded : Coded map) (hbits : SingleBits map)
    (h : map.toText flags checkAll = some text) (hrest : NoUpper rest) :
    map.read (text ++ rest) = some (flags &&& bits map, rest) := by
  obtain ⟨es, hes, rfl, hall, -⟩ := toText_names hbits h
  rw [read_names hcoded hrest hes, hall]

/-- A word with a text that accounts for all its bits has only named bits. -/
theorem and_bits_of_toText (hbits : SingleBits map) (h : map.toText flags true = some text) :
    flags &&& bits map = flags := by
  obtain ⟨-, -, -, -, hall⟩ := toText_names hbits h
  exact hall rfl

end FlagMap

/-! ## Hexadecimal digits -/

/-- The lowest `w` hexadecimal digits of a number, the highest first. -/
def hexPad : Nat → Nat → List Char
  | 0, _ => []
  | w + 1, n => Nat.digitChar (n / 16 ^ w % 16) :: hexPad w (n % 16 ^ w)

def hexValue (c : Char) : Option Nat :=
  if '0' ≤ c ∧ c ≤ '9' then some (c.toNat - 48)
  else if 'a' ≤ c ∧ c ≤ 'f' then some (c.toNat - 87)
  else if 'A' ≤ c ∧ c ≤ 'F' then some (c.toNat - 55)
  else none

/-- At most `w` hexadecimal digits are read, with `v` the value read so far. -/
def readHex : Nat → Nat → List Char → Nat × List Char
  | 0, v, text => (v, text)
  | _ + 1, v, [] => (v, [])
  | w + 1, v, c :: text =>
    match hexValue c with
    | some d => readHex w (v * 16 + d) text
    | none => (v, c :: text)

@[simp] theorem length_hexPad : ∀ w n : Nat, (hexPad w n).length = w
  | 0, _ => rfl
  | w + 1, n => by simp [hexPad, length_hexPad w]

theorem hexValue_digitChar {d : Nat} (h : d < 16) : hexValue (digitChar d) = some d := by
  have hall : ∀ d : Fin 16, hexValue (digitChar d.val) = some d.val := by decide
  exact hall ⟨d, h⟩

theorem exists_of_mem_hexPad : ∀ {w n : Nat} {c : Char}, c ∈ hexPad w n →
    ∃ d < 16, c = digitChar d := by
  intro w
  induction w with
  | zero => intro n c h; cases h
  | succ w ih =>
    intro n c h
    rcases mem_cons.mp h with rfl | h
    · exact ⟨_, mod_lt _ (by decide), rfl⟩
    · exact ih h

/-- **Reading a padded number.** Its digits are taken, and the reading goes on from there. -/
theorem readHex_hexPad : ∀ (w : Nat) {n : Nat} (k v : Nat) (rest : List Char), n < 16 ^ w →
    readHex (w + k) v (hexPad w n ++ rest) = readHex k (v * 16 ^ w + n) rest := by
  intro w
  induction w with
  | zero =>
    intro n k v rest hn
    obtain rfl : n = 0 := by simpa using hn
    simp [hexPad]
  | succ w ih =>
    intro n k v rest hn
    have hpos : 0 < 16 ^ w := Nat.pow_pos (by decide)
    have hdigit : n / 16 ^ w % 16 = n / 16 ^ w := Nat.mod_eq_of_lt (by
      rw [Nat.div_lt_iff_lt_mul hpos, Nat.mul_comm]
      rwa [Nat.pow_succ] at hn)
    have hsum := Nat.div_add_mod n (16 ^ w)
    have hvalue : (v * 16 + n / 16 ^ w) * 16 ^ w + n % 16 ^ w = v * 16 ^ (w + 1) + n :=
      calc (v * 16 + n / 16 ^ w) * 16 ^ w + n % 16 ^ w
          = v * (16 ^ w * 16) + (16 ^ w * (n / 16 ^ w) + n % 16 ^ w) := by ring
        _ = v * 16 ^ (w + 1) + n := by rw [hsum, pow_succ]
    rw [hexPad, cons_append, add_right_comm, readHex,
      hexValue_digitChar (mod_lt _ (by decide))]
    show readHex (w + k) (v * 16 + n / 16 ^ w % 16) (hexPad w (n % 16 ^ w) ++ rest) = _
    rw [ih _ _ _ (mod_lt _ hpos), hdigit, hvalue]

end OpenvasSmb.Kit

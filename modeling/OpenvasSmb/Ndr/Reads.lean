import OpenvasSmb.Ndr.Bounds
import OpenvasSmb.Ndr.Flags

/-!
# Reading back

What the pulls return where the bytes of a view are known: `View.Has` says that a byte
string stands at an offset. Every lemma here turns such a fact, and the fact that the byte
string ends inside the view, into the result of a pull.
-/

namespace OpenvasSmb.Ndr

open Kit List

variable {v : View} {off n : Nat} {bytes : Bytes}

/-- The byte string stands at the offset. -/
def View.Has (v : View) (off : Nat) (bytes : Bytes) : Prop :=
  ∀ i b, bytes[i]? = some b → v.data[v.origin + off + i]? = some b

/-- The byte string stands at the offset and ends inside a view of less than
`2 ^ 32` bytes. -/
structure View.Reads (v : View) (off : Nat) (bytes : Bytes) : Prop where
  has : v.Has off bytes
  inside : off + bytes.length ≤ v.size
  small : v.size < 2 ^ 32

namespace View

theorem Has.append {xs ys : Bytes} (h : v.Has off (xs ++ ys)) :
    v.Has off xs ∧ v.Has (off + xs.length) ys := by
  constructor
  · intro i b hb
    have hi : i < xs.length := (List.getElem?_eq_some_iff.mp hb).1
    exact h i b (by rw [List.getElem?_append_left hi, hb])
  · intro i b hb
    have hy := h (xs.length + i) b (by
      rw [List.getElem?_append_right (by omega), Nat.add_sub_cancel_left, hb])
    rwa [show v.origin + (off + xs.length) + i = v.origin + off + (xs.length + i) by omega]

theorem Reads.left {xs ys : Bytes} (h : v.Reads off (xs ++ ys)) : v.Reads off xs := by
  have hlen := h.inside
  rw [length_append] at hlen
  exact ⟨h.has.append.1, by omega, h.small⟩

theorem Reads.right {xs ys : Bytes} (h : v.Reads off (xs ++ ys)) :
    v.Reads (off + xs.length) ys := by
  have hlen := h.inside
  rw [length_append] at hlen
  exact ⟨h.has.append.2, by omega, h.small⟩

theorem Has.drop_eq (h : v.Has off bytes) :
    ∃ rest, v.data.drop (v.origin + off) = bytes ++ rest := by
  refine ⟨v.data.drop (v.origin + off + bytes.length), ext_getElem? fun i => ?_⟩
  rw [getElem?_drop]
  rcases Nat.lt_or_ge i bytes.length with hi | hi
  · rw [getElem?_append_left hi, getElem?_eq_getElem hi]
    exact h i _ (getElem?_eq_getElem hi)
  · rw [getElem?_append_right hi, getElem?_drop]
    congr 1
    omega

theorem Has.length_le (h : v.Has off bytes) (hin : bytes ≠ []) :
    v.origin + off + bytes.length ≤ v.data.length := by
  have hpos := List.length_pos_iff.mpr hin
  have hlast := h (bytes.length - 1) _ (List.getElem?_eq_getElem (by omega))
  have := (List.getElem?_eq_some_iff.mp hlast).1
  omega

theorem Has.bytesAt (h : v.Has off bytes) (hin : bytes ≠ []) :
    v.bytesAt off bytes.length = some bytes := by
  obtain ⟨rest, hrest⟩ := h.drop_eq
  rw [View.bytesAt, if_pos (h.length_le hin), hrest, List.take_left]

end View

/-- The first `n` bytes of the view are those of the memory. -/
def Shows (v : View) (m : Memory) (n : Nat) : Prop :=
  ∀ a, a < n → v.data[v.origin + a]? = some (m a)

theorem Shows.reads {m : Memory} {n : Nat} {bytes : Bytes} (h : Shows v m n)
    (hsize : n ≤ v.size) (hsmall : v.size < 2 ^ 32) (hb : m.Has off bytes)
    (hin : off + bytes.length ≤ n) : v.Reads off bytes := by
  refine ⟨fun i b hi => ?_, by omega, hsmall⟩
  have hlt : i < bytes.length := (List.getElem?_eq_some_iff.mp hi).1
  rw [Nat.add_assoc, h (off + i) (by omega), hb i b hi]

theorem shows_blob (out : Output) (rest : Bytes) :
    Shows (View.ofBytes (ndrPushBlob out ++ rest)) out.mem out.offset := by
  intro a ha
  show (ndrPushBlob out ++ rest)[0 + a]? = _
  rw [Nat.zero_add, ndrPushBlob, List.getElem?_append_left (by simpa using ha),
    Memory.getElem?_bytes ha]

/-! ## Numbers -/

theorem needBytes_of_reads (h : v.Reads off bytes) :
    needBytes bytes.length v off = .ok ((), off) := by
  have := h.inside
  have := h.small
  rw [needBytes, if_neg]
  rw [u32_of_lt (by omega)]
  omega

theorem takeBytes_of_reads (h : v.Reads off bytes) (hin : bytes ≠ []) :
    takeBytes bytes.length v off = .ok (bytes, off + bytes.length) := by
  have := h.inside
  have := h.small
  rw [takeBytes, h.has.bytesAt hin]
  show Outcome.ok (bytes, u32 (off + bytes.length)) = _
  rw [u32_of_lt (by omega)]

theorem pullAlign_of_le (h : off ≤ v.size) : pullAlign v off = .ok ((), off) := by
  rw [pullAlign, if_neg (by omega)]

theorem pullUint8_of_reads {b : UInt8} (h : v.Reads off [b]) :
    pullUint8 v off = .ok (b.toNat, off + 1) := by
  have hneed := needBytes_of_reads h
  have htake := takeBytes_of_reads h (cons_ne_nil _ _)
  simp only [length_singleton] at hneed htake
  simp [pullUint8, hneed, htake, ofLe]

theorem pullUintN_of_reads (h : v.Reads off bytes) (hin : bytes ≠ []) (hn : n = bytes.length) :
    pullUintN n v off = .ok (ofLe bytes, off + n) := by
  have := h.inside
  subst hn
  simp only [pullUintN, Pull.bind_apply, pullAlign_of_le (show off ≤ v.size by omega),
    Outcome.ok_bind, needBytes_of_reads h, takeBytes_of_reads h hin, Pull.pure_apply]

/-! ## Strings -/

theorem asciiLenN_append {text : Bytes} (htext : ∀ b ∈ text, b ≠ 0) (rest : Bytes) :
    asciiLenN (text ++ 0 :: rest) = text.length + 1 := by
  induction text with
  | nil => simp [asciiLenN]
  | cons b text ih =>
    have hb : b ≠ 0 := htext b (mem_cons_self ..)
    have htail : ∀ c ∈ text, c ≠ 0 := fun c hc => htext c (mem_cons_of_mem _ hc)
    rw [cons_append, asciiLenN, if_neg hb, ih htail, length_cons]
    omega

/-- A text with its terminator is pulled as what it converts to. -/
theorem pullNullTerminated_of_reads {text : Bytes} {s : String} {convert : Bytes → Option String}
    (htext : ∀ b ∈ text, b ≠ 0) (h : v.Reads off (text ++ [0]))
    (hdata : v.origin + v.size ≤ v.data.length) (hs : convert (text ++ [0]) = some s) :
    pullNullTerminated asciiLenN convert v off = .ok (s, off + (text.length + 1)) := by
  have hne : text ++ [0] ≠ [] := by simp
  have hin := h.inside
  have hsmall := h.small
  rw [length_append, length_singleton] at hin
  obtain ⟨rest, hrest⟩ := h.has.drop_eq
  have hat : v.bytesAt off (v.size - off) =
      some (((text ++ [0]) ++ rest).take (v.size - off)) := by
    rw [View.bytesAt, if_pos (by omega), hrest]
  -- what is left of the view starts with the text and its terminator
  have hview : ((text ++ [0]) ++ rest).take (v.size - off) =
      text ++ 0 :: rest.take (v.size - off - (text.length + 1)) := by
    rw [take_append, take_of_length_le (by simp; omega), length_append, length_singleton]
    simp
  have hremaining : remainingBytes v off =
      .ok (text ++ 0 :: rest.take (v.size - off - (text.length + 1)), off) := by
    rw [remainingBytes, hat, hview]
  have hsource : (text ++ 0 :: rest.take (v.size - off - (text.length + 1))).take
      (text.length + 1) = text ++ [0] := by
    rw [take_append, take_of_length_le (by omega)]
    simp
  simp only [pullNullTerminated, Pull.bind_apply, hremaining, Outcome.ok_bind,
    asciiLenN_append htext, hsource, convertString, if_neg hne, hs]
  rw [pullAdvance, length_append, length_singleton, u32_of_lt (by omega), if_neg (by omega)]
  rfl

/-! ## ASCII -/

/-- A C string of ASCII characters. -/
def AsciiText (s : String) : Prop := ∀ c ∈ s.toList, 0 < c.toNat ∧ c.toNat < 128

instance (s : String) : Decidable (AsciiText s) :=
  decidable_of_iff (s.toList.all (fun c => decide (0 < c.toNat) && decide (c.toNat < 128)) = true)
    (by simp only [AsciiText, List.all_eq_true, Bool.and_eq_true, decide_eq_true_eq])

/-- Its bytes, without the terminator. -/
def asciiBytes (s : String) : Bytes := s.toList.map fun c => UInt8.ofNat c.toNat

/-- The DOS character set has the ASCII characters where ASCII has them. -/
structure Charset.AsciiCompatible (charset : Charset) : Prop where
  toDos : ∀ s, AsciiText s → charset.toDos s = some (asciiBytes s ++ [0])
  fromDos : ∀ s, AsciiText s → charset.fromDos (asciiBytes s ++ [0]) = some s

theorem asciiBytes_ne_zero {s : String} (h : AsciiText s) : ∀ b ∈ asciiBytes s, b ≠ 0 := by
  intro b hb
  obtain ⟨c, hc, rfl⟩ := mem_map.mp hb
  have hpos := h c hc
  intro hzero
  have hnat := congrArg UInt8.toNat hzero
  rw [UInt8.toNat_ofNat'] at hnat
  have : (0 : UInt8).toNat = 0 := rfl
  omega

theorem strlen_of_ascii {s : String} (h : AsciiText s) : strlen s = (asciiBytes s).length := by
  have hone : ∀ cs : List Char, (∀ c ∈ cs, c.toNat < 128) →
      cs.foldr (fun c n => c.utf8Size + n) 0 = cs.length := by
    intro cs hcs
    induction cs with
    | nil => rfl
    | cons c cs ih =>
      have hsize : c.utf8Size = 1 := by
        rw [Char.utf8Size_eq_one_iff]
        exact Nat.lt_succ_iff.mp (hcs c (mem_cons_self ..))
      simp only [foldr_cons, length_cons, hsize, ih fun d hd => hcs d (mem_cons_of_mem _ hd)]
      omega
  rw [asciiBytes, length_map]
  exact hone s.toList fun c hc => (h c hc).2

/-- Character sets in which only the ASCII characters exist. -/
def plainCharset : Charset where
  toDos s := some (asciiBytes s ++ [0])
  fromDos bytes := some (String.ofList ((bytes.takeWhile (· ≠ 0)).map fun b => Char.ofNat b.toNat))
  fromUtf16 _ := none

theorem plainCharset_ascii : plainCharset.AsciiCompatible := by
  refine ⟨fun s _ => rfl, fun s hs => ?_⟩
  have htake : (asciiBytes s ++ [0]).takeWhile (· ≠ 0) = asciiBytes s := by
    rw [takeWhile_append_of_pos]
    · simp
    · intro b hb
      simpa using asciiBytes_ne_zero hs b hb
  have hchars : (asciiBytes s).map (fun b => Char.ofNat b.toNat) = s.toList := by
    rw [asciiBytes, map_map]
    refine (map_congr_left fun c hc => ?_).trans (map_id _)
    have hlt := (hs c hc).2
    show Char.ofNat (UInt8.ofNat c.toNat).toNat = c
    rw [UInt8.toNat_ofNat', Nat.mod_eq_of_lt (by omega), Char.ofNat_toNat]
  show some (String.ofList _) = some s
  rw [htake, hchars, String.ofList_toList]

/-- What a string takes: the byte in front of it, the text and the terminator. -/
def cimstringBytes (s : String) : Bytes := 0 :: (asciiBytes s ++ [0])

theorem toDosTerminated_some {charset : Charset} (hc : charset.AsciiCompatible)
    {item : Option String} {bytes : Bytes} (hascii : ∀ s ∈ item, AsciiText s)
    (h : toDosTerminated charset item = some bytes) :
    ∃ s, item = some s ∧ bytes = asciiBytes s ++ [0] ∧
      roomToConvert ((asciiBytes s).length + 1) = true := by
  cases item with
  | none => simp [toDosTerminated] at h
  | some s =>
    have hs : AsciiText s := hascii s rfl
    rw [toDosTerminated, strlen_of_ascii hs] at h
    by_cases hroom : roomToConvert ((asciiBytes s).length + 1) = true
    · rw [if_pos hroom, hc.toDos s hs] at h
      exact ⟨s, rfl, (Option.some.inj h).symm, hroom⟩
    · rw [if_neg hroom] at h
      simp at h

end OpenvasSmb.Ndr

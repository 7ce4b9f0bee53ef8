import OpenvasSmb.Kit.Text
import OpenvasSmb.Util.Status

/-!
# Parsing a blob by a format (`auth/ntlmssp/ntlmssp_parse.c`)

`msrpc_parse` goes through a format and reads for each specifier a part of a blob: at the
head, or where a length and an offset at the head say. A read outside of the blob gives
`none`. No such read happens (`msrpc_parse_reads_inside`).
-/

namespace OpenvasSmb.Ntlmssp

open Kit Option

/-- The bytes of an object in memory, of which there are at most `PTRDIFF_MAX`. -/
structure DataBlob where
  data : Bytes
  object : data.length < 2 ^ 63

/-- `convert_string` to the local charset: the string in the destination, from what was there
before and the source. -/
structure Conversions where
  utf16 : Bytes → Bytes → Bytes
  dos : Bytes → Bytes → Bytes

/-- The specifiers `U`, `A`, `B`, `b`, `d` and `C` with the arguments that are read. -/
inductive Specifier where
  | unicode
  | ascii
  | blob
  | header (len : UInt32)
  | word
  | const (s : Bytes)

inductive Parsed where
  | string (s : Bytes)
  | blob (data : Bytes)
  | word (v : Nat)

structure Parser where
  headOfs : Nat := 0
  /-- The string in the buffer that all conversions share. -/
  p : Bytes
  /-- What was stored through the arguments. -/
  out : List Parsed := []

def Parser.put (x : Parsed) (s : Parser) : Parser := { s with out := s.out ++ [x] }

/-- A conversion into the buffer, and a copy of it. -/
def Parser.putString (p : Bytes) (s : Parser) : Parser := { s with p := p }.put (.string p)

section Parse

variable (conv : Conversions) (blob : Bytes)

def bytesAt (ofs n : Nat) : Option Bytes :=
  if ofs + n ≤ blob.length then some ((blob.drop ofs).take n) else none

/-- `NEED_DATA`, in a `size_t`. -/
def needData (headOfs amount : Nat) : Bool := (headOfs + amount) % 2 ^ 64 ≤ blob.length

/-- `pull_ascii`: the bytes that were read, and the string. -/
def pullAscii (p : Bytes) (ofs srcLen : Nat) (terminate : Bool) : Option (Nat × Bytes) := do
  let srcLen ←
    if terminate then
      if srcLen = 2 ^ 64 - 1 then (strnlen (blob.drop ofs) none).map (· + 1)
      else (strnlen (blob.drop ofs) (some srcLen)).map fun len =>
        if len < srcLen then len + 1 else len
    else some srcLen
  let src ← bytesAt blob ofs srcLen
  return (srcLen, conv.dos p src)

/-- `pull_ucs2` without alignment and termination. -/
def pullUcs2 (p : Bytes) (ofs srcLen : Nat) : Option Bytes :=
  (bytesAt blob ofs (srcLen / 2 * 2)).map (conv.utf16 p)

/-- The fields that are behind a pointer: a length, the length again and an offset. -/
def pointerField (empty : Parsed) (refused : Parser → Nat → Nat → Bool)
    (take : Parser → Nat → Nat → Option Parser) (s : Parser) : Option (Bool × Parser) :=
  if needData blob s.headOfs 8 then do
    let len1 ← readLe blob s.headOfs 2
    let len2 ← readLe blob (s.headOfs + 2) 2
    let ptr ← readLe blob (s.headOfs + 4) 4
    let s := { s with headOfs := s.headOfs + 8 }
    let stop := (ptr + len1) % 2 ^ 32
    if len1 = 0 ∧ len2 = 0 then return (true, s.put empty)
    else if len1 ≠ len2 ∨ stop < ptr ∨ stop < len1 ∨ blob.length < stop ∨ refused s ptr len1 then
      return (false, s)
    else return (true, ← take s ptr len1)
  else some (false, s)

def parseField (s : Parser) : Specifier → Option (Bool × Parser)
  | .unicode =>
    pointerField blob (.string []) (fun _ ptr len1 => len1 % 2 == 1 || blob.length < ptr)
      (fun s ptr len1 =>
        if 0 < len1 then (pullUcs2 conv blob s.p ptr len1).map s.putString
        else some (s.put (.string []))) s
  | .ascii =>
    pointerField blob (.string []) (fun _ ptr _ => blob.length < ptr)
      (fun s ptr len1 =>
        if 0 < len1 then (pullAscii conv blob s.p ptr len1 false).map fun r => s.putString r.2
        else some (s.put (.string []))) s
  | .blob =>
    pointerField blob (.blob []) (fun s _ _ => blob.length < s.headOfs)
      (fun s ptr len1 => (bytesAt blob ptr len1).map fun data => s.put (.blob data)) s
  | .header len =>
    -- the length is cut to the `uint16_t` it is kept in
    let len1 := len.toUInt16.toNat
    if needData blob s.headOfs len1 ∧ s.headOfs ≤ blob.length then
      (bytesAt blob s.headOfs len1).map fun data =>
        (true, { s.put (.blob data) with headOfs := s.headOfs + len1 })
    else some (false, s)
  | .word =>
    if needData blob s.headOfs 4 then
      (readLe blob s.headOfs 4).map fun v =>
        (true, { s.put (.word v) with headOfs := s.headOfs + 4 })
    else some (false, s)
  | .const str =>
    if blob.length < s.headOfs then some (false, s)
    else
      (pullAscii conv blob s.p s.headOfs (blob.length - s.headOfs) true).map fun r =>
        (r.2 == str, { s with headOfs := s.headOfs + r.1, p := r.2 })

def msrpcParse : Parser → List Specifier → Option (Bool × Parser)
  | s, [] => some (true, s)
  | s, specifier :: format =>
    match parseField conv blob s specifier with
    | some (true, s) => msrpcParse s format
    | r => r

end Parse

/-! ## Reads stay inside -/

variable (conv : Conversions) {blob : Bytes} {s : Parser} {ofs n : Nat}

/-- Nothing was read outside, and the head is in the blob. -/
def ReadsInside (blob : Bytes) (r : Option (Bool × Parser)) : Prop :=
  ∃ ok s, r = some (ok, s) ∧ s.headOfs ≤ blob.length

theorem ReadsInside.map {α : Type} {r : Option α} {a : α} {g : α → Bool × Parser} (h : r = some a)
    (hofs : (g a).2.headOfs ≤ blob.length) : ReadsInside blob (r.map g) :=
  ⟨(g a).1, (g a).2, by rw [h]; rfl, hofs⟩

theorem bytesAt_eq (h : ofs + n ≤ blob.length) :
    bytesAt blob ofs n = some ((blob.drop ofs).take n) :=
  if_pos h

theorem needData_iff (hblob : blob.length < 2 ^ 63) (hs : s.headOfs ≤ blob.length)
    (hn : n < 2 ^ 63) : needData blob s.headOfs n = true ↔ s.headOfs + n ≤ blob.length := by
  rw [needData, decide_eq_true_eq, Nat.mod_eq_of_lt (by omega)]

theorem pullAscii_all (p : Bytes) (h : ofs + n ≤ blob.length) :
    ∃ p', pullAscii conv blob p ofs n false = some (n, p') := by
  simp [pullAscii, bytesAt_eq h]

/-- A search for the termination ends where the blob does. -/
theorem pullAscii_rest (p : Bytes) (hblob : blob.length < 2 ^ 63) (hofs : ofs ≤ blob.length) :
    ∃ len p', pullAscii conv blob p ofs (blob.length - ofs) true = some (len, p') ∧
      ofs + len ≤ blob.length := by
  obtain ⟨k, hk, hfound⟩ := strnlen_bounded (blob.drop ofs) (n := blob.length - ofs) (by simp)
  obtain ⟨len, hlen, hin⟩ : ∃ len, (if k < blob.length - ofs then k + 1 else k) = len ∧
      ofs + len ≤ blob.length := ⟨_, rfl, by split <;> omega⟩
  refine ⟨len, conv.dos p ((blob.drop ofs).take len), ?_, hin⟩
  rw [pullAscii, if_pos rfl, if_neg (by omega), hfound]
  simp only [map_some, hlen, bind_eq_bind, bind_some, bytesAt_eq hin]
  rfl

/-- The sum of length and offset is compared with both and with the length of the blob. -/
theorem pointerField_inside {empty : Parsed} {refused : Parser → Nat → Nat → Bool}
    {take : Parser → Nat → Nat → Option Parser} (hblob : blob.length < 2 ^ 63)
    (hs : s.headOfs ≤ blob.length) (htake : ∀ t ptr len1, ptr + len1 ≤ blob.length →
      ∃ t', take t ptr len1 = some t' ∧ t'.headOfs = t.headOfs) :
    ReadsInside blob (pointerField blob empty refused take s) := by
  unfold pointerField
  by_cases hneed : needData blob s.headOfs 8 = true
  · have hhead := (needData_iff hblob hs (by decide)).mp hneed
    obtain ⟨len1, hlen1, hread1⟩ := readLe_some (n := 2) (show s.headOfs + 2 ≤ blob.length by omega)
    obtain ⟨len2, -, hread2⟩ :=
      readLe_some (n := 2) (show s.headOfs + 2 + 2 ≤ blob.length by omega)
    obtain ⟨ptr, hptr, hread3⟩ :=
      readLe_some (n := 4) (show s.headOfs + 4 + 4 ≤ blob.length by omega)
    rw [if_pos hneed, hread1, hread2, hread3]
    simp only [bind_eq_bind, bind_some]
    split
    · exact ⟨true, _, rfl, hhead⟩
    · split
      · exact ⟨false, _, rfl, hhead⟩
      · obtain ⟨t, ht, hofs⟩ := htake { s with headOfs := s.headOfs + 8 } ptr len1 (by omega)
        rw [ht]
        exact ⟨true, t, rfl, hofs ▸ hhead⟩
  · rw [if_neg hneed]
    exact ⟨false, s, rfl, hs⟩

theorem parseField_inside (hblob : blob.length < 2 ^ 63)
    (hs : s.headOfs ≤ blob.length) (specifier : Specifier) :
    ReadsInside blob (parseField conv blob s specifier) := by
  cases specifier with
  | unicode =>
    rw [parseField]
    refine pointerField_inside hblob hs fun t ptr len1 hin => ?_
    rw [pullUcs2, bytesAt_eq (by omega)]
    split <;> exact ⟨_, rfl, rfl⟩
  | ascii =>
    rw [parseField]
    refine pointerField_inside hblob hs fun t ptr len1 hin => ?_
    obtain ⟨p', hpull⟩ := pullAscii_all conv t.p hin
    rw [hpull]
    split <;> exact ⟨_, rfl, rfl⟩
  | blob =>
    rw [parseField]
    refine pointerField_inside hblob hs fun t ptr len1 hin => ?_
    rw [bytesAt_eq hin]
    exact ⟨_, rfl, rfl⟩
  | header len =>
    have hlen := len.toUInt16.toNat_lt
    simp only [parseField, needData_iff hblob hs (show len.toUInt16.toNat < 2 ^ 63 by omega)]
    split
    · rename_i hneed
      exact .map (bytesAt_eq hneed.1) hneed.1
    · exact ⟨false, s, rfl, hs⟩
  | word =>
    simp only [parseField, needData_iff hblob hs (show 4 < 2 ^ 63 by decide)]
    split
    · rename_i hneed
      obtain ⟨v, -, hread⟩ := readLe_some hneed
      exact .map hread hneed
    · exact ⟨false, s, rfl, hs⟩
  | const str =>
    obtain ⟨len, p', hpull, hin⟩ := pullAscii_rest conv s.p hblob hs
    rw [parseField, if_neg (by omega)]
    exact .map hpull hin

/-- **Nothing outside of the blob is read,** whatever the format and the bytes of the blob are. -/
theorem msrpc_parse_reads_inside (conv : Conversions) (blob : DataBlob) (p : Bytes)
    (format : List Specifier) :
    ReadsInside blob.data (msrpcParse conv blob.data { p := p } format) := by
  have hrun : ∀ (format : List Specifier) (s : Parser), s.headOfs ≤ blob.data.length →
      ReadsInside blob.data (msrpcParse conv blob.data s format) := by
    intro format
    induction format with
    | nil => exact fun s hs => ⟨true, s, rfl, hs⟩
    | cons specifier format ih =>
      intro s hs
      obtain ⟨ok, s', hfield, hs'⟩ := parseField_inside conv blob.object hs specifier
      rw [msrpcParse, hfield]
      cases ok with
      | true => exact ih s' hs'
      | false => exact ⟨false, s', rfl, hs'⟩
  exact hrun format _ (Nat.zero_le _)

end OpenvasSmb.Ntlmssp

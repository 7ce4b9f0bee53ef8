import OpenvasSmb.Theorems.SmartNext
import OpenvasSmb.Ndr.Bounds

/-!
# The record cursor of `WBEMDATA_Parse`

After each record the loop goes on at `ofs_next`, which is meant to be the end that the record
declares: its header of nine bytes and the length in it. The check compares with a sum in 32 bits,
so the cursor never passes the end of the data; but a declared end of `2 ^ 32` or more is wrapped,
most easily with the length `0xFFFFFFFF`, for which the check asks for no byte at all. For every
other record the cursor is the declared end (`record_cursor_iff`).
-/

namespace OpenvasSmb.Wbem

open Kit Ndr Outcome View

/-! ## Rounds of the loop -/

/-- The loop of `WBEMDATA_Parse` between two records: `ndr->offset` and what was decoded. -/
structure LoopState where
  offset : Nat
  parsed : Parsed

section Rounds

variable (charset : Charset) (v : View)

/-- One round: a record is decoded, and the cursor is set behind it. -/
def Passes (s t : LoopState) : Prop :=
  ∃ header off' datatype object off'', Opens v s.offset header off' datatype ∧
    pullRecordObject charset s.parsed.cache datatype header.guid v off' = .ok (object, off'') ∧
    t = ⟨header.next, s.parsed.take ⟨datatype, header.guid, object⟩⟩

inductive Rounds (s : LoopState) : Nat → LoopState → Prop
  | start : Rounds s 0 s
  | next {k : Nat} {t u : LoopState} : Rounds s k t → Passes charset v t u → Rounds s (k + 1) u

variable {charset v}

theorem parseRecords_passes {s t : LoopState} (h : Passes charset v s t) (n : Nat) :
    parseRecords charset v (n + 1) s.offset s.parsed = parseRecords charset v n t.offset t.parsed := by
  obtain ⟨header, off', datatype, object, off'', ⟨hheader, hdatatype⟩, hobject, rfl⟩ := h
  rw [parseRecords, hheader]
  simp [hdatatype, hobject]

theorem parseRecords_rounds {s t : LoopState} {k : Nat} (h : Rounds charset v s k t) (n : Nat) :
    parseRecords charset v (k + n) s.offset s.parsed =
      parseRecords charset v n t.offset t.parsed := by
  induction h generalizing n with
  | start => rw [Nat.zero_add]
  | @next k t u _ hpasses ih =>
    rw [show k + 1 + n = k + (n + 1) by omega, ih, parseRecords_passes hpasses]

theorem rounds_of_ok {s : LoopState} {n : Nat}
    (hok : (parseRecords charset v n s.offset s.parsed).2 = .ok ()) :
    ∀ k ≤ n, ∃ t, Rounds charset v s k t := by
  intro k
  induction k with
  | zero =>
    intro _
    exact ⟨s, .start⟩
  | succ k ih =>
    intro hk
    obtain ⟨t, ht⟩ := ih (by omega)
    rw [show n = k + (n - k - 1 + 1) by omega, parseRecords_rounds ht] at hok
    rcases parseRecords_succ charset v (n - k - 1) t.offset t.parsed with
      ⟨-, status, hne, heq⟩ | ⟨_, _, _, -, -, status, hne, heq⟩ |
      ⟨header, off', datatype, object, off'', hopens, hobject, -⟩
    iterate 2
      rw [heq] at hok
      exact absurd hok hne
    · exact ⟨_, ht.next ⟨header, off', datatype, object, off'', hopens, hobject, rfl⟩⟩

end Rounds

/-! ## What a record header says -/

/-- The `uint32_t` at an offset. -/
def uint32At (data : Bytes) (off : Nat) : Nat := ofLe ((data.drop off).take 4)

/-- Where the record says it ends. -/
def declaredEnd (data : Bytes) (start : Nat) : Nat := start + 9 + uint32At data (start + 4)

variable {data : Bytes} {off off' : Nat}

theorem pullAlign_offset {v : View} (h : pullAlign v off = .ok ((), off')) : off = off' := by
  rw [pullAlign] at h
  split at h <;> cases h
  rfl

theorem needBytes_ok {v : View} {n : Nat} (h : needBytes n v off = .ok ((), off')) :
    off = off' ∧ u32 (off + n) ≤ v.size := by
  rw [needBytes] at h
  split at h
  · cases h
  · cases h
    exact ⟨rfl, by omega⟩

theorem checkExpr_offset {v : View} {holds : Bool}
    (h : checkExpr holds v off = .ok ((), off')) : off = off' := by
  cases holds <;> cases h
  rfl

section

variable (hsize : data.length < 2 ^ 32)
include hsize

theorem takeBytes_ofBytes {n : Nat} {bytes : Bytes}
    (h : takeBytes n (ofBytes data) off = .ok (bytes, off')) :
    off' = off + n ∧ off' ≤ data.length ∧ bytes = (data.drop off).take n := by
  rw [takeBytes, bytesAt] at h
  simp only [ofBytes, Nat.zero_add] at h
  split at h
  · next bytes' hread =>
      split at hread
      · cases hread
        cases h
        rw [u32_of_lt (by omega)]
        exact ⟨rfl, ‹_›, rfl⟩
      · cases hread
  · cases h

theorem pullUint32_ofBytes {u : Nat} (h : pullUint32 (ofBytes data) off = .ok (u, off')) :
    off' = off + 4 ∧ off' ≤ data.length ∧ u = uint32At data off := by
  obtain ⟨⟨_, o⟩, halign, h₁⟩ := bind_eq_ok.mp h
  obtain ⟨⟨_, o'⟩, hneed, h₂⟩ := bind_eq_ok.mp h₁
  obtain ⟨⟨bytes, o''⟩, htake, h₃⟩ := bind_eq_ok.mp h₂
  cases h₃
  obtain rfl : off = o := pullAlign_offset halign
  obtain rfl : off = o' := (needBytes_ok hneed).1
  obtain ⟨hoff, hle, rfl⟩ := takeBytes_ofBytes hsize htake
  exact ⟨hoff, hle, rfl⟩

theorem pullUint8_ofBytes {u : Nat}
    (h : pullUint8 (ofBytes data) off = .ok (u, off')) : off' = off + 1 := by
  obtain ⟨⟨_, o⟩, hneed, h₁⟩ := bind_eq_ok.mp h
  obtain ⟨⟨bytes, o'⟩, htake, h₂⟩ := bind_eq_ok.mp h₁
  cases h₂
  obtain rfl : off = o := (needBytes_ok hneed).1
  exact (takeBytes_ofBytes hsize htake).1

theorem pullConst_ofBytes {c : Nat} (h : pullConst c (ofBytes data) off = .ok ((), off')) :
    off' = off + 4 ∧ off' ≤ data.length := by
  obtain ⟨⟨u, o⟩, hpull, h⟩ := bind_eq_ok.mp h
  obtain ⟨hoff, hle, -⟩ := pullUint32_ofBytes hsize hpull
  obtain rfl : o = off' := checkExpr_offset h
  exact ⟨hoff, hle⟩

/-- **A record header**: what it says and what was checked of it. -/
theorem pullRecordHeader_ofBytes {header : RecordHeader}
    (h : pullRecordHeader (ofBytes data) off = .ok (header, off')) :
    header.next = u32 (declaredEnd data off) ∧ header.next ≤ data.length := by
  obtain ⟨⟨_, o₁⟩, hnine, h⟩ := bind_eq_ok.mp h
  obtain ⟨⟨u, o₂⟩, hlength, h⟩ := bind_eq_ok.mp h
  obtain ⟨⟨datatype, o₃⟩, hdatatype, h⟩ := bind_eq_ok.mp h
  obtain ⟨⟨start, o₄⟩, hstart, h⟩ := bind_eq_ok.mp h
  obtain ⟨⟨_, o₅⟩, -, h⟩ := bind_eq_ok.mp h
  obtain ⟨⟨_, o₆⟩, -, h⟩ := bind_eq_ok.mp h
  obtain ⟨⟨guid, o₇⟩, -, h⟩ := bind_eq_ok.mp h
  cases h
  cases hstart
  obtain ⟨⟨u', o⟩, hpull, hlength⟩ := bind_eq_ok.mp hlength
  obtain ⟨⟨_, o'⟩, hneed, hlength⟩ := bind_eq_ok.mp hlength
  cases hlength
  obtain ⟨rfl, -⟩ := pullConst_ofBytes hsize hnine
  obtain ⟨hoff, -, rfl⟩ := pullUint32_ofBytes hsize hpull
  obtain ⟨rfl, hfits⟩ := needBytes_ok hneed
  obtain rfl := pullUint8_ofBytes hsize hdatatype
  subst hoff
  -- the check compares with the sum that the cursor is set to
  have hsum : u32 (off + 4 + 4 + u32 (uint32At data (off + 4) + 1)) =
      u32 (declaredEnd data off) := by
    simp only [u32, declaredEnd]
    omega
  have hnext : u32 (off + 4 + 4 + 1 + uint32At data (off + 4)) = u32 (declaredEnd data off) := by
    rw [declaredEnd]
  show u32 (off + 4 + 4 + 1 + uint32At data (off + 4)) = _ ∧
    u32 (off + 4 + 4 + 1 + uint32At data (off + 4)) ≤ _
  exact ⟨rfl, hsum ▸ hfits⟩

end

/-! ## The cursor -/

/-- The cursor after a record is the end it declares, is behind the start and inside the data. -/
def CursorRight (data : Bytes) (start next : Nat) : Prop :=
  next = declaredEnd data start ∧ start < next ∧ next ≤ data.length

/-- `WBEMDATA_Parse` passes record `k` on its way: the cursor goes from `start` to `next`. -/
def RecordPassed (charset : Charset) (data : Bytes) (cache : List PairGuidPtr)
    (uCount k start next : Nat) : Prop :=
  ∃ off s t, pullWbemdataHeader uCount (ofBytes data) 0 = .ok ((), off) ∧ k < uCount ∧
    Rounds charset (ofBytes data) ⟨off, { cache }⟩ k s ∧
    Passes charset (ofBytes data) s t ∧ s.offset = start ∧ t.offset = next

theorem recordPassed_of_ok {charset : Charset} {data : Bytes} {cache : List PairGuidPtr}
    {uCount : Nat} (hok : (wbemdataParse charset data data.length cache uCount).2 = .ok ()) :
    ∀ k < uCount, ∃ start next, RecordPassed charset data cache uCount k start next := by
  intro k hk
  rw [wbemdataParse] at hok
  simp only [if_neg (show ¬uCount = 0 by omega)] at hok
  cases hheader : pullWbemdataHeader uCount (ofBytes data) 0 with
  | ok r =>
    obtain ⟨_, off⟩ := r
    rw [show ({ data, size := data.length } : View) = ofBytes data from rfl, hheader] at hok
    obtain ⟨t, ht⟩ := rounds_of_ok (s := ⟨off, { cache }⟩) hok (k + 1) hk
    cases ht with
    | next hreached hpasses =>
      exact ⟨_, _, off, _, _, hheader, hk, hreached, hpasses, rfl, rfl⟩
  | _ =>
    rw [show ({ data, size := data.length } : View) = ofBytes data from rfl, hheader] at hok
    cases hok

/-- **The record cursor** is right after each record exactly if the declared end is a 32-bit number.
-/
theorem record_cursor_iff (charset : Charset) {data : Bytes} (hsize : data.length < 2 ^ 32)
    (cache : List PairGuidPtr) (uCount : Nat) {k start next : Nat}
    (hpassed : RecordPassed charset data cache uCount k start next) :
    CursorRight data start next ↔ declaredEnd data start < 2 ^ 32 := by
  obtain ⟨off, s, t, -, -, -, hpasses, rfl, rfl⟩ := hpassed
  obtain ⟨header, off', datatype, object, off'', ⟨hopens, -⟩, -, rfl⟩ := hpasses
  obtain ⟨hnext, hle⟩ := pullRecordHeader_ofBytes hsize hopens
  have hbehind : s.offset < declaredEnd data s.offset := by
    rw [declaredEnd]
    omega
  show CursorRight data s.offset header.next ↔ _
  constructor
  · rintro ⟨hend, -, -⟩
    omega
  · intro hlt
    have hend : header.next = declaredEnd data s.offset := hnext.trans (u32_of_lt hlt)
    exact ⟨hend, by omega, hle⟩

/-! ## Samples -/

/-- The data of a reply with one object, whose record declares the length. -/
def lengthBytes (length : Nat) : Bytes :=
  (wbemdataBytes []).dropLast.dropLast.dropLast.dropLast ++ toLe 4 1 ++
    toLe 4 9 ++ toLe 4 length ++ toLe 1 2 ++ toLe 4 0x18 ++ toLe 4 1 ++ List.replicate 16 0 ++ [0]

theorem record_cursor_of_length :
    ∃ start next, RecordPassed noStrings (lengthBytes 25) [] 1 0 start next ∧
      (CursorRight (lengthBytes 25) start next ↔ declaredEnd (lengthBytes 25) start < 2 ^ 32) := by
  have hok : (wbemdataParse noStrings (lengthBytes 25) (lengthBytes 25).length [] 1).2 = .ok () := by
    decide
  obtain ⟨start, next, hpassed⟩ := recordPassed_of_ok hok 0 (by decide)
  exact ⟨start, next, hpassed, record_cursor_iff noStrings (by decide) [] 1 hpassed⟩

/-- A record at 46 of length `0xFFFFFFFF` is passed, with the cursor inside its header. -/
theorem record_cursor_wraps :
    (wbemdataParse noStrings (lengthBytes 0xFFFFFFFF) (lengthBytes 0xFFFFFFFF).length [] 1).2 =
        .ok () ∧
      (pullRecordHeader (ofBytes (lengthBytes 0xFFFFFFFF)) 46).bind
        (fun r => .ok r.1.next) = .ok 54 ∧
      declaredEnd (lengthBytes 0xFFFFFFFF) 46 = 46 + 9 + 0xFFFFFFFF := by
  decide

end OpenvasSmb.Wbem

import Mathlib.Data.Vector.Defs
import OpenvasSmb.Kit.Text
import OpenvasSmb.Kit.TextCodes

/-!
# The text of a GUID (`librpc/ndr/uuid.c`)

`GUID_string` prints the eleven parts of a GUID with a format of fixed widths, and
`GUID_from_string` scans them with the same one. Both formats are lists of pieces here;
what is printed is scanned back (`scan_print`).
-/

namespace OpenvasSmb.Security

open Kit Nat
open List hiding Vector

/-- `struct GUID`. -/
structure Guid where
  timeLow : UInt32
  timeMid : UInt16
  timeHiAndVersion : UInt16
  clockSeq : Vector UInt8 2
  node : Vector UInt8 6
deriving DecidableEq

def guidZero : Guid := ⟨0, 0, 0, #v[0, 0], #v[0, 0, 0, 0, 0, 0]⟩

/-- A piece of a format: a character, or a hexadecimal number of a given width. -/
inductive Piece where
  | lit (c : Char)
  | hex (width : Nat)

def guidFormat : List Piece :=
  [.hex 8, .lit '-', .hex 4, .lit '-', .hex 4, .lit '-', .hex 2, .hex 2, .lit '-',
    .hex 2, .hex 2, .hex 2, .hex 2, .hex 2, .hex 2]

/-- `printf` of numbers that fit the widths of the format. -/
def print : List Piece → List Nat → List Char
  | .lit c :: format, values => c :: print format values
  | .hex width :: format, v :: values => hexPad width v ++ print format values
  | _, _ => []

/-- The digits of a scanned number, with `0x` before them or not, and at least one. -/
def scanDigits (width : Nat) (s : List Char) : Option (Nat × List Char) :=
  let marked := 2 ≤ width ∧ (['0', 'x'].isPrefixOf s ∨ ['0', 'X'].isPrefixOf s)
  let digits := if marked then s.drop 2 else s
  let (v, rest) := readHex (if marked then width - 2 else width) 0 digits
  if rest.length = digits.length then none else some (v, rest)

/-- A hexadecimal conversion of `sscanf` with a width. -/
def scanHex (width : Nat) (s : List Char) : Option (Nat × List Char) :=
  match s.dropWhile isSpace with
  | '-' :: s => (scanDigits (width - 1) s).map fun r => ((2 ^ 32 - r.1 % 2 ^ 32) % 2 ^ 32, r.2)
  | '+' :: s => scanDigits (width - 1) s
  | s => scanDigits width s

/-- `sscanf`: the numbers, when every conversion is made. -/
def scan : List Piece → List Char → Option (List Nat)
  | [], _ => some []
  | .lit c :: format, s =>
    match s with
    | c' :: s => if c' = c then scan format s else none
    | [] => none
  | .hex width :: format, s =>
    match scanHex width s with
    | some (v, s) => (scan format s).map (v :: ·)
    | none => none

/-- The parts of a GUID, in the order of the format. -/
def Guid.fields (guid : Guid) : List Nat :=
  [guid.timeLow.toNat, guid.timeMid.toNat, guid.timeHiAndVersion.toNat] ++
    guid.clockSeq.toList.map UInt8.toNat ++ guid.node.toList.map UInt8.toNat

/-- A GUID from eleven scanned numbers. -/
def Guid.ofFields : List Nat → Option Guid
  | [low, mid, hi, c0, c1, n0, n1, n2, n3, n4, n5] =>
    some ⟨UInt32.ofNat low, UInt16.ofNat mid, UInt16.ofNat hi, #v[UInt8.ofNat c0, UInt8.ofNat c1],
      #v[UInt8.ofNat n0, UInt8.ofNat n1, UInt8.ofNat n2, UInt8.ofNat n3, UInt8.ofNat n4,
        UInt8.ofNat n5]⟩
  | _ => none

def guidString (guid : Guid) : List Char := print guidFormat guid.fields

/-- `GUID_from_string`: the plain form, then the one in braces, whose closing brace does not count.
-/
def guidFromString (s : List Char) : Option Guid :=
  match scan guidFormat s with
  | some values => Guid.ofFields values
  | none => (scan (.lit '\x7b' :: guidFormat) s).bind Guid.ofFields

/-! ## Scanning what was printed -/

/-- The values fit the widths of a format. -/
def Fits : List Piece → List Nat → Prop
  | [], values => values = []
  | .lit _ :: format, values => Fits format values
  | .hex width :: format, v :: values => 0 < width ∧ v < 16 ^ width ∧ Fits format values
  | .hex _ :: _, [] => False

theorem digitChar_plain {d : Nat} (h : d < 16) :
    isSpace (digitChar d) = false ∧ digitChar d ≠ '-' ∧ digitChar d ≠ '+' ∧
      digitChar d ≠ 'x' ∧ digitChar d ≠ 'X' := by
  have hall : ∀ d : Fin 16, isSpace (digitChar d.val) = false ∧
      digitChar d.val ≠ '-' ∧ digitChar d.val ≠ '+' ∧
      digitChar d.val ≠ 'x' ∧ digitChar d.val ≠ 'X' := by decide
  exact hall ⟨d, h⟩

theorem scanDigits_hexPad {width v : Nat} (hw : 0 < width) (hv : v < 16 ^ width)
    (rest : List Char) : scanDigits width (hexPad width v ++ rest) = some (v, rest) := by
  -- no second digit is an x, so nothing is taken for a marker
  have hmark : ¬(2 ≤ width ∧ (['0', 'x'].isPrefixOf (hexPad width v ++ rest) ∨
      ['0', 'X'].isPrefixOf (hexPad width v ++ rest))) := by
    rintro ⟨htwo, hmarked⟩
    obtain ⟨w, rfl⟩ : ∃ w, width = w + 2 := ⟨width - 2, by omega⟩
    have hsecond := digitChar_plain (mod_lt (v % 16 ^ (w + 1) / 16 ^ w) (by decide : 0 < 16))
    simp only [hexPad, cons_append, isPrefixOf, Bool.and_eq_true, beq_iff_eq] at hmarked
    rcases hmarked with h | h
    · exact hsecond.2.2.2.1 h.2.1.symm
    · exact hsecond.2.2.2.2 h.2.1.symm
  have hread : readHex width 0 (hexPad width v ++ rest) = (v, rest) := by
    have := readHex_hexPad width 0 0 rest hv
    rwa [zero_mul, zero_add] at this
  simp only [scanDigits, if_neg hmark, hread]
  rw [if_neg]
  rw [length_append, length_hexPad]
  omega

theorem scanHex_hexPad {width v : Nat} (hw : 0 < width) (hv : v < 16 ^ width)
    (rest : List Char) : scanHex width (hexPad width v ++ rest) = some (v, rest) := by
  have hscan := scanDigits_hexPad hw hv rest
  obtain ⟨w, rfl⟩ : ∃ w, width = w + 1 := ⟨width - 1, by omega⟩
  obtain ⟨hspace, hminus, hplus, -⟩ :=
    digitChar_plain (mod_lt (v / 16 ^ w) (by decide : 0 < 16))
  rw [hexPad, cons_append] at hscan ⊢
  rw [scanHex, dropWhile_cons_of_neg (by simp [hspace])]
  simpa [hminus, hplus] using hscan

/-- **Scanning what was printed** with a format gives the numbers back. -/
theorem scan_print : ∀ {format : List Piece} {values : List Nat}, Fits format values →
    ∀ rest : List Char, scan format (print format values ++ rest) = some values := by
  intro format
  induction format with
  | nil =>
    intro values hfits rest
    cases hfits
    rfl
  | cons piece format ih =>
    intro values hfits rest
    cases piece with
    | lit c =>
      show scan (.lit c :: format) (c :: (print format values ++ rest)) = some values
      rw [scan, if_pos rfl, ih hfits]
    | hex width =>
      cases values with
      | nil => exact hfits.elim
      | cons v values =>
        obtain ⟨hw, hv, hfits⟩ := hfits
        rw [print, append_assoc, scan, scanHex_hexPad hw hv]
        show (scan format (print format values ++ rest)).map (v :: ·) = _
        rw [ih hfits]
        rfl

theorem mem_print : ∀ {format : List Piece} {values : List Nat} {c : Char},
    c ∈ print format values → Piece.lit c ∈ format ∨ ∃ d < 16, c = digitChar d := by
  intro format
  induction format with
  | nil => intro values c h; cases h
  | cons piece format ih =>
    intro values c h
    have hrest : ∀ values, c ∈ print format values →
        Piece.lit c ∈ piece :: format ∨ ∃ d < 16, c = digitChar d :=
      fun values hc => (ih hc).imp (mem_cons_of_mem _) id
    cases piece with
    | lit c' =>
      rcases mem_cons.mp h with rfl | h
      · exact .inl (mem_cons_self ..)
      · exact hrest _ h
    | hex width =>
      cases values with
      | nil => cases h
      | cons v values =>
        rcases mem_append.mp h with h | h
        · exact .inr (exists_of_mem_hexPad h)
        · exact hrest _ h

theorem vector_two (v : Vector UInt8 2) : #v[v[0], v[1]] = v := by
  apply Vector.ext
  intro i hi
  rcases i with _ | _ | i <;> first | rfl | omega

theorem vector_six (v : Vector UInt8 6) : #v[v[0], v[1], v[2], v[3], v[4], v[5]] = v := by
  apply Vector.ext
  intro i hi
  rcases i with _ | _ | _ | _ | _ | _ | i <;> first | rfl | omega

variable (guid : Guid)

theorem Guid.fields_eq :
    guid.fields = [guid.timeLow.toNat, guid.timeMid.toNat, guid.timeHiAndVersion.toNat,
      guid.clockSeq[0].toNat, guid.clockSeq[1].toNat, guid.node[0].toNat, guid.node[1].toNat,
      guid.node[2].toNat, guid.node[3].toNat, guid.node[4].toNat, guid.node[5].toNat] := by
  rw [fields]
  nth_rewrite 1 [← vector_two guid.clockSeq, ← vector_six guid.node]
  rfl

theorem Guid.ofFields_fields : ofFields guid.fields = some guid := by
  rw [fields_eq, ofFields]
  simp only [UInt32.ofNat_toNat, UInt16.ofNat_toNat, UInt8.ofNat_toNat, vector_two, vector_six]

theorem Guid.fits_fields : Fits guidFormat guid.fields := by
  have hoctet : ∀ b : UInt8, b.toNat < 16 ^ 2 := fun b => b.toNat_lt
  have hhalf : ∀ h : UInt16, h.toNat < 16 ^ 4 := fun h => h.toNat_lt
  have hword : guid.timeLow.toNat < 16 ^ 8 := guid.timeLow.toNat_lt
  rw [fields_eq]
  simp only [guidFormat, Fits, hoctet, hhalf, hword]
  decide

theorem guidString_chars {guid : Guid} {c : Char} (h : c ∈ guidString guid) :
    c = '-' ∨ ∃ d < 16, c = digitChar d := by
  rcases mem_print h with hlit | hdigit
  · simp [guidFormat] at hlit
    exact .inl hlit
  · exact .inr hdigit

theorem dash_mem_guidString : '-' ∈ guidString guid := by
  rw [guidString, Guid.fields_eq]
  simp [print, guidFormat]

/-- A GUID is read back from its text, whatever follows it. -/
theorem guidFromString_append (rest : List Char) :
    guidFromString (guidString guid ++ rest) = some guid := by
  rw [guidFromString, guidString, scan_print guid.fits_fields rest]
  exact guid.ofFields_fields

theorem guidFromString_guidString : guidFromString (guidString guid) = some guid := by
  have h := guidFromString_append guid []
  rwa [List.append_nil] at h

theorem length_guidString : (guidString guid).length = 36 := by
  rw [guidString, Guid.fields_eq]
  simp [print, guidFormat, length_hexPad]

end OpenvasSmb.Security

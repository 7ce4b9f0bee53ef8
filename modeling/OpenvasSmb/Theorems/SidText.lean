import Mathlib.Data.List.Forall2
import OpenvasSmb.Security.Sid

/-!
# SIDs and their text

`dom_sid_parse_talloc` reads back what `dom_sid_string` prints if the two high octets of the
authority are zero: they are not printed. In the other direction an accepted text says the same
as the text of the SID it was read as exactly if it is `Plain`. The parser also takes blanks and
signs in front of the numbers and anything without a dash behind them, cuts the revision to 8
bits and the other numbers to 32, and counts the sub-authorities in an `int8_t`.
-/

namespace OpenvasSmb.Security

open Kit List DomSid Nat Char

variable {a s : List Char} {n bound : Nat}

/-- Two parts of a text that differ in the case of letters, or in leading zeros. -/
def SameField (a b : List Char) : Prop :=
  a.map toUpper = b.map toUpper ∨
    isDecimal a = true ∧ isDecimal b = true ∧ decimalValue a = decimalValue b

/-- Two texts that differ in the case of letters and in leading zeros only. -/
def SameText (s t : List Char) : Prop := Forall₂ SameField (s.splitOn '-') (t.splitOn '-')

def PlainFields : List (List Char) → Prop
  | mark :: rev :: ia :: subs =>
    (mark = ['S'] ∨ mark = ['s']) ∧ fits (2 ^ 8) rev = true ∧ fits (2 ^ 32) ia = true ∧
      (∀ t ∈ subs, fits (2 ^ 32) t = true) ∧ subs.length ≤ 127
  | _ => False

/-- `S-` and numbers with dashes between them, each of which fits into its place. -/
def Plain (s : List Char) : Prop := PlainFields (s.splitOn '-')

theorem toUpper_cases (c : Char) : c.toUpper = c ∨
    97 ≤ c.toNat ∧ c.toNat ≤ 122 ∧ c.toUpper.toNat + 32 = c.toNat := by
  by_cases h : 'a'.val ≤ c.val ∧ c.val ≤ 'z'.val
  · have hlow : 97 ≤ c.val.toNat ∧ c.val.toNat ≤ 122 := h
    refine .inr ⟨hlow.1, hlow.2, ?_⟩
    delta toUpper
    rw [dif_pos h]
    show (c.val + ('A'.val - 'a'.val)).toNat + 32 = c.val.toNat
    rw [UInt32.toNat_add, show ('A'.val - 'a'.val).toNat = 2 ^ 32 - 32 by decide]
    omega
  · exact .inl (dif_neg h)

theorem toUpper_eq_S {c : Char} (h : c.toUpper = 'S') : c = 'S' ∨ c = 's' := by
  rcases toUpper_cases c with hsame | ⟨-, -, hlow⟩
  · exact .inl (hsame.symm.trans h)
  · rw [h] at hlow
    exact .inr (toNat_inj.mp hlow.symm)

theorem toUpper_eq_self {c : Char} (h : c.isDigit = true ∨ c.toUpper.isDigit = true) :
    c.toUpper = c := by
  rcases toUpper_cases c with hsame | ⟨hlow, -, hsum⟩
  · exact hsame
  · simp only [isDigit, Bool.and_eq_true, decide_eq_true_eq] at h
    have hnine : c.toNat ≤ 57 ∨ c.toUpper.toNat ≤ 57 := h.imp And.right And.right
    omega

/-- Digits have no case. -/
theorem fits_of_sameField (h : SameField a (toDigits 10 n)) (hn : n < bound) :
    fits bound a = true := by
  rcases h with hcase | ⟨ha, -, hvalue⟩
  · have hdigits : (toDigits 10 n).map toUpper = toDigits 10 n :=
      (map_congr_left fun c hc => toUpper_eq_self (.inl (isDigit_of_mem_digits hc))).trans (map_id' _)
    have ha : a.map toUpper = a := by
      refine (map_congr_left fun c hc => toUpper_eq_self (.inr ?_)).trans (map_id' _)
      have hmem : c.toUpper ∈ a.map toUpper := mem_map_of_mem hc
      rw [hcase, hdigits] at hmem
      exact isDigit_of_mem_digits hmem
    rw [ha, hdigits] at hcase
    exact hcase ▸ fits_toDigits hn
  · rw [decimalValue_toDigits] at hvalue
    exact fits_iff.mpr ⟨ha, hvalue ▸ hn⟩

theorem sameField_toDigits (h : isDecimal a = true) (hvalue : decimalValue a = n) :
    SameField a (toDigits 10 n) :=
  .inr ⟨h, isDecimal_toDigits n, by rw [hvalue, decimalValue_toDigits]⟩

theorem intercalate_dash (texts : List (List Char)) (a : List Char) :
    ['-'].intercalate (a :: texts) = a ++ dashed texts := by
  induction texts generalizing a with
  | nil => simp [dashed]
  | cons t texts ih =>
    rw [intercalate_cons_cons, ih]
    simp [dashed]

theorem DomSid.splitOn_text (sid : DomSid) : sid.text.splitOn '-' =
    ['S'] :: toDigits 10 sid.sidRevNum.toNat :: toDigits 10 sid.ia :: sid.subTexts := by
  have htext : sid.text = ['-'].intercalate (['S'] :: toDigits 10 sid.sidRevNum.toNat ::
      toDigits 10 sid.ia :: sid.subTexts) := by
    rw [intercalate_dash, text, ← sid.dashed_subTexts]
    rfl
  rw [htext, splitOn_intercalate _ _ (cons_ne_nil _ _)]
  intro t ht
  rcases mem_cons.mp ht with rfl | ht
  · decide
  rcases mem_cons.mp ht with rfl | ht
  · exact dash_not_mem_digits _
  rcases mem_cons.mp ht with rfl | ht
  · exact dash_not_mem_digits _
  · exact dash_not_mem (fits_iff.mp (sid.fits_subTexts t ht)).1

/-- A text that says what the text of a SID does is a plain one. -/
theorem plain_of_sameText {sid : DomSid} (h : SameText s sid.text) : Plain s := by
  rw [SameText, sid.splitOn_text] at h
  rw [Plain]
  obtain ⟨mark, _, hmark, hrest, heq⟩ := forall₂_cons_right_iff.mp h
  obtain ⟨rev, _, hrev, hrest', rfl⟩ := forall₂_cons_right_iff.mp hrest
  obtain ⟨ia, subs, hia, hsubs, rfl⟩ := forall₂_cons_right_iff.mp hrest'
  rw [heq]
  refine ⟨?_, fits_of_sameField hrev sid.sidRevNum.toNat_lt, fits_of_sameField hia sid.ia_lt,
    ?_, ?_⟩
  · rcases hmark with hcase | ⟨-, hno, -⟩
    · obtain ⟨c, rfl, hc⟩ := map_eq_singleton_iff.mp hcase
      exact (toUpper_eq_S hc).imp (congrArg fun c => [c]) (congrArg fun c => [c])
    · exact absurd hno (by decide)
  · intro t ht
    obtain ⟨i, hi, rfl⟩ := getElem_of_mem ht
    have hsub := hsubs.get hi (hsubs.length_eq ▸ hi)
    simp only [subTexts, get_eq_getElem, getElem_map] at hsub
    exact fits_of_sameField hsub (UInt32.toNat_lt _)
  · rw [hsubs.length_eq, subTexts, length_map]
    exact sid.short

theorem ia_idAuthOf {rev : UInt8} {subs : List UInt32} (hn : n < 2 ^ 32) :
    (make rev (idAuthOf n) subs).ia = n := by
  simp [ia, octet, make, idAuthOf]
  omega

/-- A plain text is read as the numbers that stand in it. -/
theorem sameText_of_plain {sid : DomSid} (hplain : Plain s)
    (hread : domSidParseTalloc s = some sid) : SameText s sid.text := by
  have hs : intercalate ['-'] (s.splitOn '-') = s := intercalate_splitOn '-'
  rw [Plain] at hplain
  generalize hfields : s.splitOn '-' = fields at hplain hs
  rcases fields with _ | ⟨mark, _ | ⟨rev, _ | ⟨ia, subs⟩⟩⟩
  · cases hplain
  · cases hplain
  · cases hplain
  obtain ⟨hmark, hrev, hia, hsubs, hlen⟩ := hplain
  have hparse : domSidParseTalloc s = parseParts (rev ++ ('-' :: (ia ++ (dashed subs ++ [])))) := by
    rw [← hs, intercalate_dash]
    rcases hmark with rfl | rfl <;> simp [dashed, domSidParseTalloc]
  rw [hparse, parseParts_numbers hsubs hrev hia ends_nil] at hread
  obtain ⟨hrev, hrevLt⟩ := fits_iff.mp hrev
  obtain ⟨hia, hiaLt⟩ := fits_iff.mp hia
  cases hread
  rw [SameText, hfields, splitOn_text, ia_idAuthOf hiaLt]
  refine .cons ?_ (.cons (sameField_toDigits hrev ?_) (.cons (sameField_toDigits hia rfl) ?_))
  · rcases hmark with rfl | rfl <;> exact .inl rfl
  · exact (mod_eq_of_lt hrevLt).symm
  · rw [make_of_short (by rwa [length_map]), subTexts, map_map,
      forall₂_map_right_iff, forall₂_same]
    intro t ht
    obtain ⟨hdecimal, hlt⟩ := fits_iff.mp (hsubs t ht)
    exact sameField_toDigits hdecimal (mod_eq_of_lt hlt).symm

/-- **SIDs through their text.** A SID comes back unless it has a high octet; an accepted text is,
up to case and leading zeros, what is printed of its SID exactly if it is plain. -/
theorem sid_text_round_trip (sid : DomSid) (s : List Char) :
    (domSidParseTalloc (domSidString (some sid)) = some sid ↔
      sid.octet 0 = 0 ∧ sid.octet 1 = 0) ∧
    (domSidParseTalloc s = some sid → (SameText s (domSidString (some sid)) ↔ Plain s)) := by
  refine ⟨?_, fun hread => ?_⟩
  · have hread := domSidParseTalloc_text sid ends_nil
    rw [List.append_nil, if_neg not_mem_nil] at hread
    rw [domSidString_some, hread, Option.some_inj, sid.printed_eq_iff]
  · rw [domSidString_some]
    exact ⟨plain_of_sameText, fun h => sameText_of_plain h hread⟩

def ntAuthority : DomSid := ⟨1, idAuthOf 5, [], Nat.zero_le _⟩

theorem sid_text_round_trip_sample :
    SameText "s-1-05-018".toList (domSidString (some ⟨1, idAuthOf 5, [18], by decide⟩)) :=
  ((sid_text_round_trip ⟨1, idAuthOf 5, [18], by decide⟩ "s-1-05-018".toList).2 (by decide)).mpr
    ⟨.inr rfl, rfl, rfl, by decide, by decide⟩

/-- A high octet is lost; text behind the numbers is ignored, and numbers are cut. -/
theorem sid_text_loses :
    domSidParseTalloc (domSidString (some ⟨1, #v[1, 0, 0, 0, 0, 5], [], by decide⟩)) =
        some ntAuthority ∧
      domSidString (some ntAuthority) = "S-1-5".toList ∧
      domSidParseTalloc "S-1-5 or 6".toList = some ntAuthority ∧
      domSidParseTalloc "S-257-4294967301".toList = some ntAuthority := by
  decide

end OpenvasSmb.Security

import OpenvasSmb.Asn1.Discipline

/-!
# Single elements

Three laws of `asn1.c` that hold of most inputs only. An OID comes back from its octets
(`oid_kept_iff`) unless its second number does not fit beside the first one in an octet;
`asn1_write_OID` ends (`oid_writing_ends_iff`) unless `strtol` finds no number where the
text goes on; and an opened tag has the length its octets denote (`tag_length_iff`) unless
that length does not fit into the C types it goes through.
-/

namespace OpenvasSmb.Asn1

open Kit List Nat Option Prod Asn1Data.AtEnd Char

variable {d d' d₁ d₂ d₃ : Asn1Data} {tag : UInt8}

/-! ## Object identifiers -/

variable (oid : String) (s : List Char)

/-- An OID is written, and the same text is read back from all of what was written. -/
def OidKept : Prop :=
  ∃ d, asn1WriteOID (asn1Load []) oid = some d ∧
    ∃ d', asn1ReadOID (asn1Load d.data) = (some oid, d') ∧ d'.hasError = false ∧
      d'.ofs = d.data.length

/-- A text that is read back has a second number below 40: no other is ever read. -/
theorem second_lt_of_oidText {a b : Nat} {arcs : List Nat} (ha : a < 2 ^ 63) (hb : b < 2 ^ 63)
    {c : UInt8} {arcs' : List Nat} (h : spacedText a b arcs = oidText c arcs') : b < 40 := by
  have hc := c.toNat_lt
  obtain ⟨-, hsecond⟩ := strtol_spacedText ha hb arcs
  obtain ⟨-, hsecond'⟩ := strtol_spacedText (a := c.toNat / 40) (b := c.toNat % 40) (by omega)
    (by omega) arcs'
  rw [h] at hsecond
  have heq := (mk.inj (hsecond.symm.trans hsecond')).1
  omega

/-- **OIDs round trip** if the second number is below 40 and the content has less than
`2 ^ 24` octets. -/
theorem oid_kept_iff {a b : Nat} {arcs : List Nat} (ha : a ≤ 2) (hb : b < 40 ∨ a = 2 ∧ b ≤ 175)
    (hlt : ∀ v ∈ arcs, v < 2 ^ 32) :
    OidKept (spacedText a b arcs) ↔ b < 40 ∧ oidSize arcs < 2 ^ 24 := by
  have hwrite := asn1WriteOID_spacedText load (by omega) hlt (a := a) (b := b)
  generalize hoctet : UInt8.ofNat (40 * a + b) = c at hwrite
  have hdata : ((asn1Load []).append (tlv asn1Oid (oidOctets c arcs))).data =
      tlv asn1Oid (oidOctets c arcs) := rfl
  rw [← length_oidOctets c hlt]
  constructor
  · rintro ⟨d, hd, d', hread, hok, -⟩
    obtain rfl := some.inj (hwrite.symm.trans hd)
    rw [hdata] at hread
    obtain ⟨c', arcs', d₁, d₂, hlt', htext, hstart, -, hpass, rfl⟩ := asn1ReadOID_reads hread hok
    refine ⟨second_lt_of_oidText (by omega) (by omega) htext, ?_⟩
    rw [asn1StartTag_load] at hstart
    obtain rfl := (mk.inj hstart).2
    -- the same text, so the octets that were written and those that were read are as many
    have hsame : (oidOctets c arcs).length = (oidOctets c' arcs').length := by
      have hbytes := oidBytes_oidText (b := c') hlt'
      rw [← htext, oidBytes, hwrite, map_some, getD_some, hdata] at hbytes
      have hlength := congrArg length hbytes
      rw [length_tlv, length_tlv] at hlength
      by_contra hne
      rcases lt_or_gt_of_ne hne with hless | hmore
      · have := popLength_length_mono (le_of_lt hless)
        omega
      · have := popLength_length_mono (le_of_lt hmore)
        omega
    have hle := length_read (ahead_header _) hpass hok
    omega
  · rintro ⟨hb40, hsize⟩
    have htext : spacedText a b arcs = oidText c arcs := by
      have hc : c.toNat = 40 * a + b := by
        rw [← hoctet, UInt8.toNat_ofNat']
        omega
      congr 1 <;> omega
    have hread := asn1ReadOID_ahead hlt (ahead_load asn1Oid hsize) hsize
    rw [← htext] at hread
    exact ⟨_, hwrite, _, hread, rfl, zero_add _⟩

/-- The arcs of SPNEGO. -/
theorem oid_kept_spnego : OidKept (spacedText 1 3 [6, 1, 5, 5, 2]) :=
  (oid_kept_iff (by decide) (by decide) (by decide)).mpr ⟨by decide, by decide⟩

/-- "2 100 3" is read back as "4 20 3". -/
theorem oid_two_hundred_not_kept : ¬ OidKept "2 100 3" := by
  rintro ⟨d, hd, d', hread, -⟩
  have hwritten : asn1WriteOID (asn1Load []) "2 100 3" = some ⟨[6, 2, 180, 3], 4, [], false⟩ := by
    decide
  obtain rfl := some.inj (hwritten.symm.trans hd)
  have htext : (asn1ReadOID (asn1Load [6, 2, 180, 3])).1 = some "4 20 3" := by decide
  exact absurd (some.inj ((congrArg fst hread).symm.trans htext)) (by decide)

/-! ## Texts of numbers -/

/-- What `strtol` takes: blanks, a sign or none, digits. -/
structure Number (blanks sign digits : List Char) : Prop where
  allBlank : ∀ c ∈ blanks, isSpace c = true
  oneSign : sign = [] ∨ sign = ['-'] ∨ sign = ['+']
  allDigits : ∀ c ∈ digits, c.isDigit = true
  anyDigit : digits ≠ []

/-- Numbers up to the end of the text. -/
inductive Numbers : List Char → Prop
  | nil : Numbers []
  | cons {blanks sign digits rest : List Char} (number : Number blanks sign digits)
      (ends : NoDigit rest) (more : Numbers rest) : Numbers (blanks ++ (sign ++ (digits ++ rest)))

/-- The text behind a sign. -/
def unsigned : List Char → List Char
  | '-' :: cs => cs
  | '+' :: cs => cs
  | cs => cs

theorem readDigits_rest : ∀ (cs : List Char) (v : Nat),
    (readDigits v cs).2 = cs.dropWhile isDigit
  | [], v => rfl
  | c :: cs, v => by
    rw [readDigits, dropWhile_cons]
    split
    · exact readDigits_rest cs _
    · rfl

theorem strtol_rest : (strtol s).2 =
    if (unsigned (s.dropWhile isSpace)).head?.any isDigit then
      (unsigned (s.dropWhile isSpace)).dropWhile isDigit
    else s := by
  unfold strtol readNumber
  cases s.dropWhile isSpace with
  | nil => rfl
  | cons c cs =>
    by_cases hsign : c = '-' ∨ c = '+'
    · rcases hsign with rfl | rfl
      all_goals cases cs with
        | nil => rfl
        | cons x xs => simp [unsigned, ← readDigits_rest (x :: xs) 0, apply_ite snd]
    · rw [not_or] at hsign
      simp [unsigned, hsign.1, hsign.2, ← readDigits_rest (c :: cs) 0, apply_ite snd]

theorem noDigit_dropWhile (cs : List Char) : NoDigit (cs.dropWhile isDigit) := by
  intro c hc
  have := head?_dropWhile_not isDigit cs
  rw [hc] at this
  simpa using this

/-- `strtol` takes a number, or it stays where it is. -/
theorem strtol_cases : (strtol s).2 = s ∨
    ∃ blanks sign digits, Number blanks sign digits ∧ NoDigit (strtol s).2 ∧
      s = blanks ++ (sign ++ (digits ++ (strtol s).2)) := by
  rw [strtol_rest]
  split
  · rename_i hdigit
    have hbody := takeWhile_append_dropWhile (p := isSpace) (l := s)
    generalize s.dropWhile isSpace = body at hdigit hbody
    obtain ⟨sign, hsign, hcut⟩ : ∃ sign, (sign = [] ∨ sign = ['-'] ∨ sign = ['+']) ∧
        body = sign ++ unsigned body := by
      unfold unsigned
      split
      · exact ⟨['-'], by simp, rfl⟩
      · exact ⟨['+'], by simp, rfl⟩
      · exact ⟨[], by simp, rfl⟩
    have hdigits := takeWhile_append_dropWhile (p := isDigit) (l := unsigned body)
    refine .inr ⟨s.takeWhile isSpace, sign, (unsigned body).takeWhile isDigit,
      ⟨?_, hsign, ?_, ?_⟩, noDigit_dropWhile _, ?_⟩
    iterate 2 exact all_eq_true.mp all_takeWhile
    · intro hnone
      cases hu : unsigned body with
      | nil => simp [hu] at hdigit
      | cons c cs =>
        simp only [hu, head?_cons, any_some] at hdigit hnone
        rw [takeWhile_cons_of_pos hdigit] at hnone
        exact absurd hnone (cons_ne_nil _ _)
    · rw [hdigits, ← hcut, hbody]
  · exact .inl rfl

theorem length_strtol_rest : (strtol s).2.length ≤ s.length := by
  rcases strtol_cases s with hstay | ⟨blanks, sign, digits, -, -, hs⟩
  · rw [hstay]
  · have hlength := congrArg length hs
    simp only [length_append] at hlength
    omega

theorem Number.strtol_rest {blanks sign digits rest : List Char} (h : Number blanks sign digits)
    (hrest : NoDigit rest) : (strtol (blanks ++ (sign ++ (digits ++ rest)))).2 = rest := by
  obtain ⟨c, cs, rfl⟩ := exists_cons_of_ne_nil h.anyDigit
  have hc := h.allDigits c (mem_cons_self ..)
  obtain ⟨hminus, hplus⟩ := sign_ne_of_isDigit hc
  have hblank : (sign ++ (c :: cs ++ rest)).dropWhile isSpace = sign ++ (c :: cs ++ rest) := by
    rcases h.oneSign with rfl | rfl | rfl
    · simp [isSpace_of_isDigit hc]
    · simp [show isSpace '-' = false by decide]
    · simp [show isSpace '+' = false by decide]
  have hunsigned : unsigned (sign ++ (c :: cs ++ rest)) = c :: cs ++ rest := by
    rcases h.oneSign with rfl | rfl | rfl
    · simp [unsigned, hminus, hplus]
    · rfl
    · rfl
  have hend : rest.dropWhile isDigit = rest := by
    cases rest with
    | nil => rfl
    | cons x xs => rw [dropWhile_cons_of_neg (by simp [hrest x rfl])]
  rw [Asn1.strtol_rest, dropWhile_append_of_pos h.allBlank, hblank, hunsigned]
  rw [if_pos (by simpa using hc), dropWhile_append_of_pos h.allDigits, hend]

/-- `strtol` goes from numbers to numbers, and to them only from numbers. -/
theorem numbers_strtol : Numbers (strtol s).2 ↔ Numbers s := by
  constructor
  · intro h
    rcases strtol_cases s with hstay | ⟨blanks, sign, digits, number, ends, hs⟩
    · rwa [hstay] at h
    · rw [hs]
      exact .cons number ends h
  · rintro (_ | ⟨number, ends, more⟩)
    · exact .nil
    · rwa [number.strtol_rest ends]

/-! ## The loop of `asn1_write_OID` -/

/-- A round of the loop, which is left when the text is used up. -/
def arcRound : List Char × Asn1Data → List Char × Asn1Data
  | ([], d) => ([], d)
  | (p, d) => ((strtol p).2, asn1Write d (arcOctets ((strtol p).1 % 2 ^ 32).toNat))

/-- The text and the data in front of the loop. -/
def oidStart : List Char × Asn1Data :=
  let (v, p) := strtol oid.toList
  let (v2, p) := strtol p
  (p, asn1WriteUint8 (asn1PushTag (asn1Load []) asn1Oid)
    (UInt8.ofNat ((40 * (v % 2 ^ 32) + v2 % 2 ^ 32) % 2 ^ 32).toNat))

theorem arcRound_text (x : List Char × Asn1Data) : (arcRound x).1 = (strtol x.1).2 := by
  obtain ⟨_ | ⟨c, cs⟩, d⟩ := x <;> rfl

theorem numbers_of_rounds : ∀ (n : Nat) {x : List Char × Asn1Data},
    (arcRound^[n] x).1 = [] → Numbers x.1
  | 0, x, h => by
    rw [show x.1 = [] from h]
    exact .nil
  | n + 1, x, h => by
    have hrest := numbers_of_rounds n h
    rwa [arcRound_text, numbers_strtol] at hrest

/-- On numbers the loop ends, with at most five octets for a character. -/
theorem rounds_of_numbers {p : List Char} (h : Numbers p) : ∀ {d : Asn1Data}, d.AtEnd →
    ∀ {fuel : Nat}, p.length ≤ fuel → ∃ n content, arcRound^[n] (p, d) = ([], d.append content) ∧
      writeArcs fuel p d = some (d.append content) ∧ content.length ≤ 5 * p.length := by
  induction h with
  | nil => exact fun hd fuel _ => ⟨0, [], by simp, by simp [writeArcs], by simp⟩
  | @cons blanks sign digits rest number ends more ih =>
    intro d hd fuel hfuel
    have hread := number.strtol_rest ends
    have hdigits := length_pos_iff.mpr number.anyDigit
    have hlength : rest.length < (blanks ++ (sign ++ (digits ++ rest))).length := by
      simp only [length_append]
      omega
    generalize blanks ++ (sign ++ (digits ++ rest)) = p at hread hfuel hlength
    obtain ⟨fuel, rfl⟩ : ∃ k, fuel = k + 1 := ⟨fuel - 1, by omega⟩
    obtain ⟨c, cs, rfl⟩ := exists_cons_of_length_pos (l := p) (by omega)
    generalize hoctets : arcOctets ((strtol (c :: cs)).1 % 2 ^ 32).toNat = octets
    have hfive : octets.length ≤ 5 := by
      have hv : ((strtol (c :: cs)).1 % 2 ^ 32).toNat < 2 ^ 32 := by omega
      have hlog := log_lt_of_lt_pow' (b := 128) (x := 5) (by decide)
        (lt_of_lt_of_le hv (by decide))
      rw [← hoctets, length_arcOctets hv]
      omega
    obtain ⟨n, content, hrounds, hwrite, hsize⟩ :=
      ih (hd.append octets) (show rest.length ≤ fuel by omega)
    rw [append_append] at hrounds hwrite
    refine ⟨n + 1, octets ++ content, ?_, ?_, ?_⟩
    · rw [Function.iterate_succ_apply, arcRound, hread, hoctets, asn1Write_atEnd hd, hrounds]
      simp
    · rw [writeArcs]
      · simp only [hread, hoctets, asn1Write_atEnd hd, if_pos hlength, hwrite]
      · simp
    · rw [length_append]
      omega

/-- **Writing an OID ends** for texts of numbers, and for no others, after at most five bytes for a
character. -/
theorem oid_writing_ends_iff :
    (∃ n d, arcRound^[n] (oidStart oid) = ([], d) ∧
        asn1WriteOID (asn1Load []) oid = some (asn1PopTag d) ∧
        (asn1PopTag d).data.length ≤ 5 * oid.length + 6) ↔
      Numbers oid.toList := by
  constructor
  · rintro ⟨n, d, h, -⟩
    have hrest := numbers_of_rounds n (congrArg fst h)
    rwa [oidStart, numbers_strtol, numbers_strtol] at hrest
  · intro h
    have hrest : Numbers (strtol (strtol oid.toList).2).2 := by
      rwa [numbers_strtol, numbers_strtol]
    have hlength : (strtol (strtol oid.toList).2).2.length ≤ oid.length := by
      exact le_trans (length_strtol_rest _) (length_strtol_rest _)
    have hpushed := load.pushed asn1Oid
    unfold oidStart asn1WriteOID
    simp only [asn1PushTag_atEnd load, asn1WriteUint8, asn1Write_atEnd hpushed]
    generalize UInt8.ofNat _ = octet
    obtain ⟨n, content, hrounds, hwrite, hsize⟩ :=
      rounds_of_numbers hrest (hpushed.append [octet]) (le_refl _)
    rw [append_append] at hrounds hwrite
    refine ⟨n, _, hrounds, by rw [hwrite, map_some], ?_⟩
    rw [asn1PopTag_append load]
    have htlv := length_tlv_le asn1Oid ([octet] ++ content)
    simp only [Asn1Data.append, asn1Load, nil_append, length_append, length_singleton] at htlv ⊢
    omega

/-- Behind "1.2" the loop stays at the point and writes an octet in each round. -/
theorem oid_writing_stays_at_point : ¬ ∃ n d, arcRound^[n] (oidStart "1.2") = ([], d) := by
  have hstay : ∀ (n : Nat) (x : List Char × Asn1Data), x.1 = ['.', '2'] →
      (arcRound^[n] x).1 = ['.', '2'] := by
    intro n
    induction n with
    | zero => exact fun x hx => hx
    | succ n ih =>
      intro x hx
      refine ih (arcRound x) ?_
      rw [arcRound_text, hx]
      decide
  rintro ⟨n, d, h⟩
  have htext := hstay n (oidStart "1.2") (by decide)
  rw [h] at htext
  simp at htext

/-! ## Lengths of tags -/

/-- What is done between opening a tag and closing it: bytes are read, and elements are read that
are closed again. After a failure no tag is closed any more. -/
inductive Reads : Asn1Data → Asn1Data → Prop
  | refl (d : Asn1Data) : Reads d d
  | read {d d' : Asn1Data} (before : Reads d d') {len : Nat} (hlen : len ≤ intMax) :
      Reads d (asn1Read d' len).2
  | peek {d d' : Asn1Data} (before : Reads d d') {len : Nat} (hlen : len ≤ intMax) :
      Reads d (asn1Peek d' len).2
  | remaining {d d' : Asn1Data} (before : Reads d d') : Reads d (asn1TagRemaining d').2
  | element {d d' d₁ d₂ d₃ : Asn1Data} {tag : UInt8} (before : Reads d d')
      (hstart : asn1StartTag d' tag = (true, d₁)) (inside : Reads d₁ d₂)
      (hend : asn1EndTag d₂ = (true, d₃)) : Reads d d₃

/-- The cursor has moved forward inside the buffer, and nothing else has changed. -/
structure Onward (d d' : Asn1Data) : Prop where
  noError : d.hasError = false
  data : d'.data = d.data
  nesting : d'.nesting = d.nesting
  forward : d.ofs ≤ d'.ofs
  inside : d'.ofs ≤ d.data.length
  int : d'.ofs ≤ max d.ofs intMax

theorem Reads.onward (h : Reads d d') : d.ofs ≤ d.data.length → d'.hasError = false →
    Onward d d' := by
  induction h with
  | refl d => exact fun hofs hok => ⟨hok, rfl, rfl, le_refl _, hofs, le_max_left ..⟩
  | @read d d' before len hlen ih =>
    intro hofs hok
    rcases asn1Read_cases (d := d') len hlen with ⟨d₁, hread, herr⟩ | ⟨hmax, hend, hread⟩
    · rw [hread] at hok
      exact of_error herr hok
    · rw [hread] at hok ⊢
      obtain ⟨hok, hdata, hnest, hle, hin, hint⟩ := ih hofs hok
      simp only [Asn1Data.skip]
      exact ⟨hok, hdata, hnest, by simp only; omega, by simp only; rw [← hdata]; omega,
        by simp only; omega⟩
  | @peek d d' before len hlen ih =>
    intro hofs hok
    unfold asn1Peek at hok ⊢
    by_cases hmax : intMax - len < d'.ofs
    · rw [if_pos hmax] at hok ⊢
      exact ih hofs hok
    · rw [if_neg hmax] at hok ⊢
      by_cases hend : d'.data.length < d'.ofs + len
      · rw [if_pos hend] at hok ⊢
        obtain ⟨hok, hdata, hnest, hle, hin, hint⟩ := ih hofs hok
        rw [← hdata] at hin
        exact ⟨hok, hdata, hnest, le_trans hle hin, le_of_eq (congrArg _ hdata),
          by simp only; omega⟩
      · rw [if_neg hend] at hok ⊢
        exact ih hofs hok
  | @remaining d d' before ih =>
    intro hofs hok
    rcases asn1TagRemaining_cases d' with ⟨d₁, hrest, herr⟩ | ⟨n, rest, -, -, -, -, hrest⟩
    · rw [hrest] at hok
      exact of_error herr hok
    · rw [hrest] at hok ⊢
      exact ih hofs hok
  | @element d d' d₁ d₂ d₃ tag before hstart inside hend ih ih' =>
    intro hofs hok
    rcases asn1EndTag_cases d₂ with ⟨_, hfalse, -⟩ | ⟨n, rest, hnest₂, hok₂, -, hclose⟩
    · simp [hend] at hfalse
    rcases asn1StartTag_cases d' tag with
      ⟨_, hfalse, -⟩ | ⟨n', k, -, -, hmax, hthere, -, -, hok', hopen⟩
    · simp [hstart] at hfalse
    obtain rfl := (mk.inj (hend.symm.trans hclose)).2
    obtain rfl := (mk.inj (hstart.symm.trans hopen)).2
    obtain ⟨hok₀, hdata, hnest, hle', hin, hint⟩ := ih hofs hok'
    obtain ⟨-, hdata₂, hnest', hle₂, hin₂, hint₂⟩ := ih' hthere hok₂
    rw [hnest'] at hnest₂
    obtain ⟨-, rfl⟩ := cons.inj hnest₂
    simp only at hdata₂ hle₂ hin₂ hint₂
    exact ⟨hok₀, hdata₂.trans hdata, hnest, by simp only; omega, by rw [← hdata]; exact hin₂,
      by simp only; omega⟩

/-- The content of an opened tag has `n` bytes: they are in the buffer, and the tag is closed
behind them and nowhere else. -/
def LengthKept (d : Asn1Data) (n : Nat) : Prop :=
  n ≤ d.data.length - d.ofs ∧
    ∀ d₂ d₃, Reads d d₂ → asn1EndTag d₂ = (true, d₃) → d₂.ofs = d.ofs + n

theorem bmod_eq_mod {n : Nat} (h : 0 ≤ Int.bmod n (2 ^ 32)) :
    Int.bmod n (2 ^ 32) = (n % 2 ^ 32 : Nat) ∧ n % 2 ^ 32 < 2 ^ 31 := by
  rw [Int.bmod_def] at h ⊢
  split at h <;> simp_all <;> omega

section Opened

variable {n : Nat} {rest : List Nesting} (hnest : d.nesting = ⟨d.ofs, n % 2 ^ 64⟩ :: rest)
  (hok : d.hasError = false) (hin : d.ofs ≤ d.data.length) (hmax : d.ofs ≤ intMax)
  (hpos : 0 ≤ Int.bmod n (2 ^ 32)) (hle : Int.bmod n (2 ^ 32) ≤ (d.data.length - d.ofs : Nat))
include hnest hin hmax

theorem closed_at (hreads : Reads d d₂) (hend : asn1EndTag d₂ = (true, d₃)) :
    d₂.ofs = d.ofs + n % 2 ^ 32 ∧ d₂.ofs ≤ intMax := by
  rcases asn1EndTag_cases d₂ with ⟨_, hfalse, -⟩ | ⟨m, rest, hnest₂, hok₂, hzero, -⟩
  · simp [hend] at hfalse
  obtain ⟨-, -, hsame, hforward, -, hint⟩ := hreads.onward hin hok₂
  rw [hsame, hnest] at hnest₂
  obtain ⟨rfl, -⟩ := cons.inj hnest₂
  have hdvd := Int.dvd_of_bmod_eq_zero hzero
  unfold intMax at hmax hint ⊢
  simp only at hdvd
  omega

include hok hpos hle in
theorem lengthKept_iff : LengthKept d n ↔
    n < 2 ^ 32 ∨ n ≤ d.data.length - d.ofs ∧ intMax < d.ofs + n % 2 ^ 32 := by
  obtain ⟨hmod, hlow⟩ := bmod_eq_mod hpos
  rw [hmod] at hle
  constructor
  · rintro ⟨hthere, hclosed⟩
    by_contra hlarge
    -- the low 32 bits of the length are read, and the tag is closed behind them
    have hread : (asn1Read d (n % 2 ^ 32)).2 = d.skip (n % 2 ^ 32) := by
      rw [asn1Read, asn1Peek, if_neg (by omega), if_neg (by omega)]
      rfl
    have hzero : (d.skip (n % 2 ^ 32)).rest ⟨d.ofs, n % 2 ^ 64⟩ = 0 := by
      refine Int.dvd_iff_bmod_eq_zero.mp ?_
      simp only [Asn1Data.skip]
      omega
    have hend := asn1EndTag_of_rest (d := d.skip (n % 2 ^ 32)) hnest hok hzero
    have hreads := Reads.read (Reads.refl d) (show n % 2 ^ 32 ≤ intMax by unfold intMax; omega)
    rw [hread] at hreads
    have hat := hclosed _ _ hreads hend
    simp only [Asn1Data.skip] at hat
    omega
  · intro hcond
    refine ⟨by omega, fun d₂ d₃ hreads hend => ?_⟩
    have := closed_at hnest hin hmax hreads hend
    omega

end Opened

/-- **A tag has the length its octets denote** if that is below `2 ^ 32`, or the buffer is too large
to be read up to where the tag could be closed. -/
theorem tag_length_iff (h : asn1StartTag d tag = (true, d₁)) :
    ∃ n k, lengthOctets (d.data.drop (d.ofs + 1)) = some (n, k) ∧ d₁.ofs = d.ofs + 1 + k ∧
      (LengthKept d₁ n ↔
        n < 2 ^ 32 ∨ n ≤ d₁.data.length - d₁.ofs ∧ intMax < d₁.ofs + n % 2 ^ 32) := by
  rcases asn1StartTag_cases d tag with
    ⟨_, hfalse, -⟩ | ⟨n, k, -, hlen, hmax, hthere, hpos, hle, hok, hopen⟩
  · simp [h] at hfalse
  obtain rfl := (mk.inj (h.symm.trans hopen)).2
  exact ⟨n, k, hlen, rfl, lengthKept_iff rfl hok hthere hmax hpos hle⟩

/-- A short sequence. -/
theorem tag_length_short : ∃ d₁, asn1StartTag (asn1Load [0x30, 1, 7]) 0x30 = (true, d₁) ∧
    LengthKept d₁ 1 := by
  refine ⟨_, rfl, ?_⟩
  obtain ⟨n, k, hlen, -, hiff⟩ := 
    tag_length_iff (show asn1StartTag (asn1Load [0x30, 1, 7]) 0x30 = (true, _) from rfl)
  obtain ⟨rfl, -⟩ := mk.inj (some.inj
    (hlen.symm.trans (show lengthOctets [1, 7] = some (1, 1) by decide)))
  exact hiff.mpr (.inl (by decide))

/-- Five octets denote `2 ^ 32 + 5`, and a tag with five bytes is opened. -/
theorem tag_length_five_octets :
    ∃ d₁, asn1StartTag (asn1Load [0x30, 0x85, 1, 0, 0, 0, 5, 1, 2, 3, 4, 5]) 0x30 = (true, d₁) ∧
      lengthOctets [0x85, 1, 0, 0, 0, 5, 1, 2, 3, 4, 5] = some (2 ^ 32 + 5, 6) ∧
      ¬ LengthKept d₁ (2 ^ 32 + 5) := by
  refine ⟨_, rfl, by decide, fun h => ?_⟩
  exact absurd h.1 (by decide)

end OpenvasSmb.Asn1

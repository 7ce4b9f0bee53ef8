import OpenvasSmb.Asn1.Write
import Mathlib.Tactic.SplitIfs

/-!
# What the writer writes and the reader reads

`asn1_pop_tag` shifts the content of a tag up to make room for the length octets; seen from
outside, a tag that is pushed, filled and popped appends one `tlv` (`asn1PopTag_append`). The
reader opens a `tlv` ahead of its cursor with the length modulo `2 ^ 24`, all that the longest
form holds (`asn1StartTag_ahead`).
-/

namespace OpenvasSmb.Asn1

open List Asn1Data Nat

variable {content p : Bytes} {b : UInt8}

/-- A tagged element: the tag, the length octets, the content. -/
def tlv (tag : UInt8) (content : Bytes) : Bytes := tag :: (popLength content.length ++ content)

/-! ## Writing -/

def Asn1Data.append (d : Asn1Data) (p : Bytes) : Asn1Data :=
  { d with data := d.data ++ p, ofs := d.ofs + p.length }

/-- The cursor is at the end of the buffer, and nothing has failed: how the writers are
used. -/
structure Asn1Data.AtEnd (d : Asn1Data) : Prop where
  ofs_eq : d.ofs = d.data.length
  noError : d.hasError = false

variable {d : Asn1Data} {tag : UInt8}

@[simp] theorem append_nesting (p : Bytes) : (d.append p).nesting = d.nesting := rfl

@[simp] theorem append_nil : d.append [] = d := by simp [append]

theorem append_append (p q : Bytes) : (d.append p).append q = d.append (p ++ q) := by
  simp [append, add_assoc]

theorem Asn1Data.AtEnd.append (hd : d.AtEnd) (p : Bytes) : (d.append p).AtEnd :=
  ⟨by simp [Asn1Data.append, hd.ofs_eq], hd.noError⟩

theorem Asn1Data.AtEnd.load : (asn1Load []).AtEnd := ⟨rfl, rfl⟩

theorem asn1Write_atEnd (hd : d.AtEnd) (p : Bytes) : asn1Write d p = d.append p := by
  rw [asn1Write, if_neg (by simp [hd.noError]), overwrite, hd.ofs_eq, List.take_length,
    List.drop_of_length_le (by omega), List.append_nil, append, hd.ofs_eq]

/-- The state a pushed tag leaves. -/
def Asn1Data.pushed (d : Asn1Data) (tag : UInt8) : Asn1Data :=
  { d.append [tag, 0xff] with nesting := ⟨d.ofs + 1, 0⟩ :: d.nesting }

theorem asn1PushTag_atEnd (hd : d.AtEnd) : asn1PushTag d tag = d.pushed tag := by
  have hend : ({ d.append [tag] with nesting := ⟨d.ofs + 1, 0⟩ :: d.nesting } : Asn1Data).AtEnd :=
    ⟨(hd.append [tag]).ofs_eq, hd.noError⟩
  have hwrite : asn1WriteUint8 d tag = d.append [tag] := asn1Write_atEnd hd [tag]
  rw [asn1PushTag, hwrite]
  refine (asn1Write_atEnd hend [0xff]).trans ?_
  simp [append, pushed]

theorem Asn1Data.AtEnd.pushed (hd : d.AtEnd) (tag : UInt8) : (d.pushed tag).AtEnd :=
  ⟨(hd.append _).ofs_eq, hd.noError⟩

theorem popLength_length_pos (len : Nat) : 0 < (popLength len).length := by
  unfold popLength
  split_ifs <;> simp

theorem popLength_length_le (len : Nat) : (popLength len).length ≤ 4 := by
  unfold popLength
  split_ifs <;> simp

/-- The length octets and the content replace everything from the provisional octet on. -/
theorem overwrite_content (pre content : Bytes) :
    overwrite (pre ++ 0xff :: content ++ List.replicate ((popLength content.length).length - 1) 0)
      pre.length (popLength content.length ++ content) =
      pre ++ popLength content.length ++ content := by
  have hpos := popLength_length_pos content.length
  rw [overwrite, drop_of_length_le ?_, append_assoc pre (0xff :: content)]
  · simp
  · simp only [length_append, length_cons, length_replicate]
    omega

/-- **A popped tag.** A tag that was filled with `content` is an element appended to what
was there before. -/
theorem asn1PopTag_append (hd : d.AtEnd) (content : Bytes) :
    asn1PopTag ((d.pushed tag).append content) = d.append (tlv tag content) := by
  have hofs := hd.ofs_eq
  have hpos := popLength_length_pos content.length
  have hend : ((d.pushed tag).append content).AtEnd := (hd.pushed tag).append content
  have hlen : ((d.pushed tag).append content).ofs - (d.ofs + 1 + 1) = content.length := by
    simp only [append, pushed, length_cons, length_nil]
    omega
  have hdata : ((d.pushed tag).append content).data = (d.data ++ [tag]) ++ 0xff :: content := by
    simp [append, pushed]
  have hcontent : (((d.pushed tag).append content).data.drop (d.ofs + 1 + 1)).take content.length
      = content := by
    rw [hdata, append_cons, drop_left' (by simp [hofs]), take_length]
  have hnesting : ((d.pushed tag).append content).nesting = ⟨d.ofs + 1, 0⟩ :: d.nesting := rfl
  rw [asn1PopTag, hnesting]
  simp only
  rw [hlen, hcontent, hend.noError, if_neg (by simp), asn1Write_atEnd hend]
  have hover := overwrite_content (d.data ++ [tag]) content
  rw [← hdata, length_append, length_singleton, ← hofs] at hover
  simp only [append] at hover ⊢
  rw [hover, tlv, append_assoc, append_assoc, singleton_append]
  simp only [pushed, append, length_replicate, length_cons,
    length_nil, length_append, mk.injEq, true_and, and_true]
  omega

/-- What appends its bytes to any buffer appends them as the content of a tag. -/
theorem asn1PopTag_content (hd : d.AtEnd) (write : Asn1Data → Asn1Data)
    (hwrite : ∀ {d : Asn1Data}, d.AtEnd → write d = d.append content) :
    asn1PopTag (write (asn1PushTag d tag)) = d.append (tlv tag content) := by
  rw [asn1PushTag_atEnd hd, hwrite (hd.pushed tag), asn1PopTag_append hd]

theorem asn1WriteOctetString_atEnd (hd : d.AtEnd) (p : Bytes) :
    asn1WriteOctetString d p = d.append (tlv asn1OctetString p) :=
  asn1PopTag_content hd (fun d => asn1Write d p) fun hd => asn1Write_atEnd hd p

/-! ## Reading -/

def Asn1Data.skip (d : Asn1Data) (n : Nat) : Asn1Data := { d with ofs := d.ofs + n }

@[simp] theorem skip_data (n : Nat) : (d.skip n).data = d.data := rfl

@[simp] theorem skip_hasError (n : Nat) : (d.skip n).hasError = d.hasError := rfl

theorem skip_skip (n m : Nat) : (d.skip n).skip m = d.skip (n + m) := by
  simp [skip, add_assoc]

/-- The bytes `p` are the next ones in the buffer, and nothing has failed. -/
structure Asn1Data.Ahead (d : Asn1Data) (p : Bytes) : Prop where
  noError : d.hasError = false
  small : d.ofs + p.length ≤ intMax
  inside : d.ofs + p.length ≤ d.data.length
  ahead : (d.data.drop d.ofs).take p.length = p

theorem Asn1Data.Ahead.load (q : Bytes) (h : p.length ≤ intMax) : (asn1Load (p ++ q)).Ahead p :=
  ⟨rfl, by simpa [asn1Load] using h, by simp [asn1Load], by simp [asn1Load]⟩

theorem Asn1Data.Ahead.whole (h : p.length ≤ intMax) : (asn1Load p).Ahead (p ++ []) := by
  have hload := Asn1Data.Ahead.load [] h
  rwa [List.append_nil] at hload ⊢

theorem Asn1Data.Ahead.left {q : Bytes} (h : d.Ahead (p ++ q)) : d.Ahead p := by
  have hin := h.inside
  have hsmall := h.small
  have hahead := h.ahead
  rw [List.length_append] at hin hsmall hahead
  refine ⟨h.noError, by omega, by omega, ?_⟩
  have htake := congrArg (take p.length) hahead
  rwa [take_take, Nat.min_eq_left (by omega), take_left] at htake

theorem Asn1Data.Ahead.skip {q : Bytes} (h : d.Ahead (p ++ q)) : (d.skip p.length).Ahead q := by
  have hin := h.inside
  have hsmall := h.small
  have hahead := h.ahead
  rw [length_append] at hin hsmall hahead
  have hdrop := congrArg (drop p.length) hahead
  rw [drop_take, Nat.add_sub_cancel_left, drop_drop, drop_left] at hdrop
  exact ⟨h.noError, by simp only [Asn1Data.skip]; omega, by simp only [Asn1Data.skip]; omega, hdrop⟩

theorem Asn1Data.Ahead.nest (h : d.Ahead p) (nesting : List Nesting) :
    ({ d with nesting } : Asn1Data).Ahead p :=
  ⟨h.noError, h.small, h.inside, h.ahead⟩

theorem asn1Peek_ahead (h : d.Ahead p) : asn1Peek d p.length = (some p, d) := by
  have hin := h.inside
  have hsmall := h.small
  rw [asn1Peek, if_neg (by omega), if_neg (by omega), h.ahead]

theorem asn1Read_ahead (h : d.Ahead p) : asn1Read d p.length = (some p, d.skip p.length) := by
  rw [asn1Read, asn1Peek_ahead h]
  rfl

theorem asn1ReadUint8_ahead (h : d.Ahead (b :: p)) :
    asn1ReadUint8 d = (some b, d.skip 1) ∧ (d.skip 1).Ahead p := by
  rw [← singleton_append] at h
  have hread := asn1Read_ahead h.left
  rw [length_singleton] at hread
  refine ⟨?_, h.skip⟩
  rw [asn1ReadUint8, hread]
  rfl

theorem asn1PeekUint8_ahead (h : d.Ahead (b :: p)) : asn1PeekUint8 d = (some b, d) := by
  rw [← singleton_append] at h
  have hpeek := asn1Peek_ahead h.left
  rw [length_singleton] at hpeek
  rw [asn1PeekUint8, hpeek]
  rfl

theorem short_form (len : Nat) (h : len ≤ 127) : UInt8.ofNat len &&& 0x80 = 0 := by
  have hall : ∀ n : Fin 128, UInt8.ofNat n.val &&& 0x80 = 0 := by decide
  exact hall ⟨len, by omega⟩

theorem readTaglen_ahead : ∀ (octets : Bytes) (taglen : Nat) {d : Asn1Data}, d.Ahead (octets ++ p) →
    readTaglen octets.length taglen d =
      (some (octets.foldl (fun taglen b => (taglen * 256 + b.toNat) % 2 ^ 64) taglen),
        d.skip octets.length)
  | [], _, _, _ => rfl
  | b :: octets, taglen, d, h => by
    obtain ⟨hread, h₁⟩ := asn1ReadUint8_ahead h
    rw [length_cons, readTaglen, hread]
    simp only [readTaglen_ahead octets _ h₁, skip_skip, foldl_cons, add_comm]

/-- The long form of a length: `c` has the number of the octets behind it. -/
theorem readLength_long {c : UInt8} (octets : Bytes) (hlong : c &&& 0x80 ≠ 0)
    (hcount : (c &&& 0x7f).toNat - 1 = octets.length) (h : d.Ahead (c :: b :: octets ++ p)) :
    readLength d =
      (some (octets.foldl (fun taglen b => (taglen * 256 + b.toNat) % 2 ^ 64) b.toNat),
        d.skip (2 + octets.length)) := by
  obtain ⟨e₁, h₁⟩ := asn1ReadUint8_ahead h
  obtain ⟨e₂, h₂⟩ := asn1ReadUint8_ahead h₁
  rw [readLength, e₁]
  simp only [hlong, ne_eq, not_false_eq_true, if_true, e₂, hcount]
  rw [readTaglen_ahead octets _ h₂, skip_skip, skip_skip, ← add_assoc]

/-- The length octets are read back, as far as they hold the length. -/
theorem readLength_ahead {len : Nat} (h : d.Ahead (popLength len ++ p)) :
    readLength d = (some (len % 2 ^ 24), d.skip (popLength len).length) := by
  unfold popLength at h ⊢
  split_ifs at h ⊢ with h3 h2 h1
  iterate 3
    refine (readLength_long _ (by decide) rfl h).trans (Prod.ext (congrArg some ?_) rfl)
    simp only [foldl_cons, foldl_nil, UInt8.toNat_ofNat']
    omega
  · rw [readLength, (asn1ReadUint8_ahead h).1]
    simp only [short_form len (by omega), ne_eq, not_true_eq_false, if_false,
      UInt8.toNat_ofNat', Prod.mk.injEq, Option.some.injEq]
    exact ⟨by omega, rfl⟩

/-- The rest of a tag, when the cursor is inside it and the tag inside the buffer. -/
theorem asn1TagRemaining_eq {n : Nesting} {rest : List Nesting} (herr : d.hasError = false)
    (hnest : d.nesting = n :: rest) (hsmall : n.taglen ≤ intMax) (hstart : n.start ≤ d.ofs)
    (hofs : d.ofs ≤ n.start + n.taglen) (hin : n.start + n.taglen ≤ d.data.length) :
    asn1TagRemaining d = (((n.start + n.taglen - d.ofs : Nat) : Int), d) := by
  unfold intMax at hsmall
  have hrest : Int.bmod ((n.taglen : Int) - ((d.ofs : Int) - n.start)) (2 ^ 32) =
      ((n.start + n.taglen - d.ofs : Nat) : Int) := by
    rw [Int.bmod_eq_of_le_mul_two] <;> omega
  rw [asn1TagRemaining, herr, hnest]
  simp only [Bool.false_eq_true, if_false]
  rw [hrest, if_neg (by omega)]

/-- The state an opened tag leaves. -/
def Asn1Data.opened (d : Asn1Data) (len : Nat) : Asn1Data :=
  { d.skip (1 + (popLength len).length) with
    nesting := ⟨d.ofs + (1 + (popLength len).length), len % 2 ^ 24⟩ :: d.nesting }

theorem asn1StartTag_header {len : Nat} (h : d.Ahead (tag :: popLength len))
    (hin : d.ofs + (1 + (popLength len).length) + len % 2 ^ 24 ≤ d.data.length) :
    asn1StartTag d tag = (true, d.opened len) := by
  obtain ⟨e₁, h₁⟩ := asn1ReadUint8_ahead h
  rw [← List.append_nil (popLength len)] at h₁
  have e₂ := readLength_ahead h₁
  have hnoError : (d.opened len).hasError = false := h.noError
  have hremaining : asn1TagRemaining (d.opened len) =
      (((len % 2 ^ 24 : Nat) : Int), d.opened len) := by
    have htaglen : len % 2 ^ 24 ≤ intMax := by
      unfold intMax
      omega
    refine (asn1TagRemaining_eq hnoError rfl htaglen (Nat.le_refl _) (Nat.le_add_right ..)
      hin).trans ?_
    rw [show (d.opened len).ofs = d.ofs + (1 + (popLength len).length) from rfl,
      Nat.add_sub_cancel_left]
  rw [asn1StartTag, e₁]
  simp only [ne_eq, not_true_eq_false, if_false, e₂, skip_skip]
  change (if (asn1TagRemaining (d.opened len)).1 = -1 then
      (false, (asn1TagRemaining (d.opened len)).2)
    else (!(asn1TagRemaining (d.opened len)).2.hasError, (asn1TagRemaining (d.opened len)).2)) = _
  rw [hremaining, hnoError]
  rfl

/-- **An opened tag.** With an element ahead the tag is opened; its length is the length of
the content modulo `2 ^ 24`. -/
theorem asn1StartTag_ahead (h : d.Ahead (tlv tag content ++ p)) :
    asn1StartTag d tag = (true, d.opened content.length) ∧
      (d.opened content.length).Ahead (content ++ p) := by
  have hin := h.inside
  rw [tlv, cons_append, append_assoc, ← cons_append] at h hin
  simp only [length_append, length_cons] at hin
  refine ⟨asn1StartTag_header h.left (by omega), ?_⟩
  have hcontent := h.skip
  rw [length_cons, add_comm] at hcontent
  exact hcontent.nest _

theorem asn1EndTag_eq {n : Nesting} {rest : List Nesting} (herr : d.hasError = false)
    (hnest : d.nesting = n :: rest) (hsmall : n.taglen ≤ intMax)
    (hofs : d.ofs = n.start + n.taglen) (hin : d.ofs ≤ d.data.length) :
    asn1EndTag d = (true, { d with nesting := rest }) := by
  rw [asn1EndTag, asn1TagRemaining_eq herr hnest hsmall (by omega) (by omega) (by omega),
    show n.start + n.taglen - d.ofs = 0 by omega]
  simp [hnest]

theorem length_tlv (tag : UInt8) (content : Bytes) :
    (tlv tag content).length = 1 + (popLength content.length).length + content.length := by
  simp only [tlv, length_cons, length_append]
  omega

theorem length_tlv_le (tag : UInt8) (content : Bytes) :
    (tlv tag content).length ≤ content.length + 5 := by
  have hle := popLength_length_le content.length
  rw [length_tlv]
  omega

theorem ahead_load (tag : UInt8) (hlen : content.length < 2 ^ 24) :
    (asn1Load (tlv tag content)).Ahead (tlv tag content ++ []) := by
  have hle := length_tlv_le tag content
  exact .whole (by unfold intMax; omega)

/-- **A closed tag.** A short tag that was read to its end leaves the cursor behind the element. -/
theorem asn1EndTag_opened (h : d.Ahead (tlv tag content ++ p)) (hlen : content.length < 2 ^ 24) :
    asn1EndTag ((d.opened content.length).skip content.length) =
      (true, d.skip (tlv tag content).length) := by
  have hin := h.inside
  rw [length_append, length_tlv] at hin
  have hmod : content.length % 2 ^ 24 = content.length := mod_eq_of_lt hlen
  have htaglen : content.length % 2 ^ 24 ≤ intMax := by
    unfold intMax
    omega
  refine (asn1EndTag_eq (d := (d.opened content.length).skip content.length) h.noError rfl htaglen
    ?_ ?_).trans ?_
  · simp only [skip, opened, hmod]
  · simp only [skip, opened]
    omega
  · rw [length_tlv]
    simp only [skip, opened, add_assoc]

/-- The cursor is inside the innermost open tag, `left` bytes before its end. -/
def Asn1Data.Within (d : Asn1Data) (left : Nat) : Prop :=
  d.hasError = false ∧ ∃ n rest, d.nesting = n :: rest ∧ n.taglen ≤ intMax ∧ n.start ≤ d.ofs ∧
    d.ofs + left = n.start + n.taglen ∧ d.ofs + left ≤ d.data.length

theorem Asn1Data.Within.remaining {left : Nat} (h : d.Within left) :
    asn1TagRemaining d = ((left : Int), d) := by
  obtain ⟨herr, n, rest, hnest, hsmall, hstart, hend, hin⟩ := h
  rw [asn1TagRemaining_eq herr hnest hsmall hstart (by omega) (by omega)]
  congr 2
  omega

theorem Asn1Data.Within.skip {k left : Nat} (h : d.Within (k + left)) : (d.skip k).Within left := by
  obtain ⟨herr, n, rest, hnest, hsmall, hstart, hend, hin⟩ := h
  exact ⟨herr, n, rest, hnest, hsmall, by simp only [Asn1Data.skip]; omega,
    by simp only [Asn1Data.skip]; omega, by simp only [Asn1Data.skip]; omega⟩

theorem Asn1Data.Within.opened (h : d.Ahead (tlv tag content ++ p))
    (hlen : content.length < 2 ^ 24) : (d.opened content.length).Within content.length := by
  have hin := h.inside
  rw [length_append, length_tlv] at hin
  have hmod : content.length % 2 ^ 24 = content.length := mod_eq_of_lt hlen
  refine ⟨h.noError, _, _, rfl, ?_, Nat.le_refl _, ?_, ?_⟩
  · simp only [hmod]
    unfold intMax
    omega
  · simp only [Asn1Data.opened, Asn1Data.skip, hmod]
  · simp only [Asn1Data.opened, Asn1Data.skip]
    omega

theorem asn1ReadOctetString_ahead (h : d.Ahead (tlv asn1OctetString content ++ p))
    (hlen : content.length < 2 ^ 24) :
    asn1ReadOctetString d = (some content, d.skip (tlv asn1OctetString content).length) := by
  obtain ⟨hstart, hopened⟩ := asn1StartTag_ahead h
  rw [asn1ReadOctetString, hstart]
  simp only [(Asn1Data.Within.opened h hlen).remaining]
  rw [if_neg (by omega), Int.toNat_natCast, asn1Read_ahead hopened.left]
  simp only [asn1EndTag_opened h hlen, skip_hasError, h.noError, Bool.false_eq_true, if_false]

end OpenvasSmb.Asn1

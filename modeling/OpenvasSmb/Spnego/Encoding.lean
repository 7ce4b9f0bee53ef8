import OpenvasSmb.Asn1.Discipline
import OpenvasSmb.Spnego.Parse

/-!
# The bytes of a SPNEGO token

`spnego_write_data` writes one element for every field that is there, in a fixed order
(`spnegoWriteData_eq`). `spnego_read_data` takes the elements as they come; with the bytes
of a token ahead, each round of its loop reads one of them.
-/

namespace OpenvasSmb.Spnego

open Asn1 List Option Nat Asn1Data.AtEnd UInt32

variable {content octets : Bytes} {fuel : Nat} {token : NegTokenInit} {f : UInt32}

/-! ## The elements -/

variable (flags : UInt32)

def mechTypesBytes : Option (List String) → Bytes
  | some (oid :: oids) =>
    tlv (asn1Context 0) (tlv (asn1Sequence 0) ((oid :: oids).flatMap oidBytes))
  | _ => []

/-- The octets of the flags: `SPNEGO_REQ_FLAG` itself is not sent. -/
def flagOctets : Bytes :=
  intOctets (decide (2 ^ 31 ≤ (flags &&& ~~~reqFlag).toNat)) 4 (flags &&& ~~~reqFlag).toNat

def reqFlagsBytes : Bytes :=
  if flags &&& reqFlag ≠ 0 then tlv (asn1Context 1) (tlv asn1Integer (flagOctets flags)) else []

/-- A blob in a context tag. -/
def octetsBytes (tag : UInt8) : Option Bytes → Bytes
  | some p => tlv tag (tlv asn1OctetString p)
  | none => []

/-- The mechListMIC of a negTokenInit goes out as a general string inside two more tags. -/
def initMechListMICBytes : Option Bytes → Bytes
  | some p => tlv (asn1Context 3)
      (tlv (asn1Sequence 0) (tlv (asn1Context 0) (tlv asn1GeneralString p)))
  | none => []

/-- The elements of a negTokenInit before the mechListMIC. -/
def initFront (token : NegTokenInit) : Bytes :=
  mechTypesBytes token.mechTypes ++
    (reqFlagsBytes token.reqFlags ++ octetsBytes (asn1Context 2) token.mechToken)

def initFieldsBytes (token : NegTokenInit) : Bytes :=
  initFront token ++ initMechListMICBytes token.mechListMIC

def negResultBytes (r : UInt8) : Bytes :=
  if r ≠ noneResult then tlv (asn1Context 0) (tlv asn1Enumerated [r]) else []

def supportedMechBytes : Option String → Bytes
  | some oid => tlv (asn1Context 1) (oidBytes oid)
  | none => []

def targFieldsBytes (token : NegTokenTarg) : Bytes :=
  negResultBytes token.negResult ++ (supportedMechBytes token.supportedMech ++
    (octetsBytes (asn1Context 2) token.responseToken ++
      octetsBytes (asn1Context 3) token.mechListMIC))

/-- What the outermost tag of a token holds. -/
def tokenContent (token : SpnegoData) : Bytes :=
  match token.type with
  | .negTokenInit => oidBytes gensecOidSpnego ++
      tlv (asn1Context 0) (tlv (asn1Sequence 0) (initFieldsBytes token.negTokenInit))
  | .negTokenTarg => tlv (asn1Sequence 0) (targFieldsBytes token.negTokenTarg)

def tokenTag : MessageType → UInt8
  | .negTokenInit => asn1Application 0
  | .negTokenTarg => asn1Context 1

abbrev MechsReadable (mechTypes : Option (List String)) : Prop :=
  ∀ oids, mechTypes = some oids → ∀ oid ∈ oids, Readable oid

/-- A token whose OIDs the OID coder can read. -/
structure OidsReadable (token : SpnegoData) : Prop where
  mechTypes : ∀ oids, token.negTokenInit.mechTypes = some oids → ∀ oid ∈ oids, Readable oid
  supportedMech : ∀ oid, token.negTokenTarg.supportedMech = some oid → Readable oid

/-! ## The flags -/

theorem reqFlag_getElem (i : Nat) (hi : i < 32) : reqFlag.toBitVec[i] = decide (i = 7) := by
  have hall : ∀ j : Fin 32, reqFlag.toBitVec.getLsbD j.val = decide (j.val = 7) := by decide
  exact hall ⟨i, hi⟩

theorem bit_of_reqFlag (h : f &&& reqFlag ≠ 0) : f.toBitVec[7] = true := by
  refine eq_true_of_ne_false fun hno => h ?_
  apply UInt32.toBitVec_inj.mp
  ext i hi
  simp only [UInt32.toBitVec_and, BitVec.getElem_and, reqFlag_getElem i hi]
  by_cases hi7 : i = 7
  · subst hi7
    simp [hno]
  · simp [hi7]

theorem or_reqFlag (h : f &&& reqFlag ≠ 0) : (f &&& ~~~reqFlag) ||| reqFlag = f := by
  have hbit := bit_of_reqFlag h
  apply UInt32.toBitVec_inj.mp
  ext i hi
  simp only [UInt32.toBitVec_and, UInt32.toBitVec_or, UInt32.toBitVec_not, BitVec.getElem_and,
    BitVec.getElem_or, BitVec.getElem_not, reqFlag_getElem i hi]
  by_cases hi7 : i = 7
  · subst hi7
    simp [hbit]
  · simp [hi7]

theorem flags_bit (f : UInt32) : (f &&& ~~~reqFlag).toNat / 2 ^ 7 % 2 = 0 := by
  have hbit : (f &&& ~~~reqFlag).toNat.testBit 7 = false := by
    rw [UInt32.toNat_and, testBit_and, show (~~~reqFlag).toNat.testBit 7 = false by decide,
      Bool.and_false]
  rw [testBit_eq_decide_div_mod_eq, decide_eq_false_iff_not] at hbit
  omega

theorem div_or_reqFlag (i : UInt32) : (i ||| reqFlag).toNat / 2 ^ 8 = i.toNat / 2 ^ 8 := by
  rw [UInt32.toNat_or, ← shiftRight_eq_div_pow, ← shiftRight_eq_div_pow,
    shiftRight_or_distrib, show reqFlag.toNat >>> 8 = 0 by decide, or_zero]

/-- **Which flags come back.** All with `SPNEGO_REQ_FLAG`, except those with the nine highest
bits set. -/
theorem flags_round_trip (h : f &&& reqFlag ≠ 0) :
    ofNat (beValue (flagOctets f)) ||| reqFlag = f ↔ f.toNat < 0xFF800000 := by
  have hor := or_reqFlag h
  have hdiv := div_or_reqFlag (f &&& ~~~reqFlag)
  rw [hor] at hdiv
  obtain ⟨hback, hshort, -⟩ := value_intOctets (f &&& ~~~reqFlag).toNat_lt
  constructor
  · intro heq
    refine Nat.lt_of_not_le fun hge => ?_
    have hread := div_or_reqFlag (ofNat (beValue (flagOctets f)))
    rw [heq, toNat_ofNat', flagOctets] at hread
    omega
  · intro hlt
    rw [flagOctets, hback (by omega), UInt32.ofNat_toNat, hor]

/-! ## Writing -/

section Write

variable {d : Asn1Data}

/-- `GENSEC_OID_SPNEGO` can be read from its own encoding. -/
theorem readable_gensecOidSpnego : Readable gensecOidSpnego :=
  ⟨asn1Load [0x06, 0x06, 0x2b, 0x06, 0x01, 0x05, 0x05, 0x02],
    (asn1ReadOID (asn1Load [0x06, 0x06, 0x2b, 0x06, 0x01, 0x05, 0x05, 0x02])).2,
    by decide, by decide⟩

theorem foldlM_asn1WriteOID : ∀ (oids : List String) {d : Asn1Data}, d.AtEnd →
    (∀ oid ∈ oids, Readable oid) →
    oids.foldlM asn1WriteOID d = some (d.append (oids.flatMap oidBytes))
  | [], d, _, _ => by simp
  | oid :: oids, d, hd, hoids => by
    rw [foldlM_cons, asn1WriteOID_readable (hoids oid (mem_cons_self ..)) hd,
      bind_eq_bind, bind_some, foldlM_asn1WriteOID oids (hd.append _)
        fun x hx => hoids x (mem_cons_of_mem _ hx), append_append, flatMap_cons]

theorem writeMechTypes_atEnd (hd : d.AtEnd) {mechTypes : Option (List String)}
    (hoids : MechsReadable mechTypes) :
    writeMechTypes d mechTypes = some (d.append (mechTypesBytes mechTypes)) := by
  match mechTypes with
  | none | some [] => simp [writeMechTypes, mechTypesBytes]
  | some (oid :: oids) =>
    have hpushed := (hd.pushed (asn1Context 0)).pushed (asn1Sequence 0)
    rw [writeMechTypes, asn1PushTag_atEnd hd, asn1PushTag_atEnd (hd.pushed _),
      foldlM_asn1WriteOID _ hpushed (hoids _ rfl), map_some,
      asn1PopTag_append (hd.pushed _), asn1PopTag_append hd, mechTypesBytes]

theorem flags_ne :
    Int.bmod ((flags &&& ~~~reqFlag).toNat : Int) (2 ^ 32) ≠ -1 := by
  have hbit := flags_bit flags
  rw [Int.bmod_def]
  split <;> omega

theorem writeReqFlags_atEnd (hd : d.AtEnd) (flags : UInt32) :
    writeReqFlags d flags = d.append (reqFlagsBytes flags) := by
  unfold writeReqFlags reqFlagsBytes
  split
  · have hlt := (flags &&& ~~~reqFlag).toNat_lt
    refine asn1PopTag_content hd (fun d => asn1WriteInteger d _) fun hd => ?_
    rw [asn1WriteInteger_atEnd hd (flags_ne flags), flagOctets]
    obtain ⟨hsign, hmod⟩ : (Int.bmod ((flags &&& ~~~reqFlag).toNat : Int) (2 ^ 32) < 0 ↔
        2 ^ 31 ≤ (flags &&& ~~~reqFlag).toNat) ∧
        (Int.bmod ((flags &&& ~~~reqFlag).toNat : Int) (2 ^ 32) % 2 ^ 32).toNat =
          (flags &&& ~~~reqFlag).toNat := by
      rw [Int.bmod_def]
      split <;> omega
    rw [hmod, decide_eq_decide.mpr hsign]
  · simp

theorem writeOctets_atEnd (hd : d.AtEnd) (tag : UInt8) (blob : Option Bytes) :
    writeOctets tag d blob = d.append (octetsBytes tag blob) := by
  cases blob with
  | none => simp [writeOctets, octetsBytes]
  | some p =>
    exact asn1PopTag_content hd (fun d => asn1WriteOctetString d p)
      fun hd => asn1WriteOctetString_atEnd hd p

theorem writeInitMechListMIC_atEnd (hd : d.AtEnd) (blob : Option Bytes) :
    writeInitMechListMIC d blob = d.append (initMechListMICBytes blob) := by
  cases blob with
  | none => simp [writeInitMechListMIC, initMechListMICBytes]
  | some p =>
    have h₁ := hd.pushed (asn1Context 3)
    have h₂ := h₁.pushed (asn1Sequence 0)
    have h₃ := h₂.pushed (asn1Context 0)
    simp only [writeInitMechListMIC, asn1PushTag_atEnd hd, asn1PushTag_atEnd h₁,
      asn1PushTag_atEnd h₂, asn1PushTag_atEnd h₃, asn1Write_atEnd (h₃.pushed _),
      asn1PopTag_append h₃, asn1PopTag_append h₂, asn1PopTag_append h₁, asn1PopTag_append hd,
      initMechListMICBytes]

theorem writeNegTokenInit_atEnd (hd : d.AtEnd) (hoids : MechsReadable token.mechTypes) :
    writeNegTokenInit d token =
      some (d.append (tlv (asn1Context 0) (tlv (asn1Sequence 0) (initFieldsBytes token)))) := by
  have hpushed := (hd.pushed (asn1Context 0)).pushed (asn1Sequence 0)
  simp only [writeNegTokenInit, bind_eq_bind, Option.pure_def, asn1PushTag_atEnd hd,
    asn1PushTag_atEnd (hd.pushed _), writeMechTypes_atEnd hpushed hoids, bind_some,
    writeReqFlags_atEnd (hpushed.append _), writeOctets_atEnd (hpushed.append _),
    writeInitMechListMIC_atEnd (hpushed.append _), append_append]
  rw [asn1PopTag_append (hd.pushed _), asn1PopTag_append hd, initFieldsBytes, initFront,
    append_assoc (mechTypesBytes _)]

theorem writeNegResult_atEnd (hd : d.AtEnd) (r : UInt8) :
    writeNegResult d r = d.append (negResultBytes r) := by
  unfold writeNegResult negResultBytes
  split
  · refine asn1PopTag_content hd (fun d => asn1WriteEnumerated d _) fun hd => ?_
    exact asn1PopTag_content hd (fun d => asn1WriteUint8 d _)
      fun hd => asn1Write_atEnd hd _
  · simp

theorem writeSupportedMech_atEnd (hd : d.AtEnd) {mech : Option String}
    (hoid : ∀ oid, mech = some oid → Readable oid) :
    writeSupportedMech d mech = some (d.append (supportedMechBytes mech)) := by
  cases mech with
  | none => simp [writeSupportedMech, supportedMechBytes]
  | some oid =>
    rw [writeSupportedMech, asn1PushTag_atEnd hd, asn1WriteOID_readable (hoid _ rfl) (hd.pushed _),
      map_some, asn1PopTag_append hd, supportedMechBytes]

theorem writeNegTokenTarg_atEnd (hd : d.AtEnd) {token : NegTokenTarg}
    (hoid : ∀ oid, token.supportedMech = some oid → Readable oid) :
    writeNegTokenTarg d token =
      some (d.append (tlv (asn1Context 1) (tlv (asn1Sequence 0) (targFieldsBytes token)))) := by
  have hpushed := (hd.pushed (asn1Context 1)).pushed (asn1Sequence 0)
  simp only [writeNegTokenTarg, bind_eq_bind, Option.pure_def, asn1PushTag_atEnd hd,
    asn1PushTag_atEnd (hd.pushed _), writeNegResult_atEnd hpushed,
    writeSupportedMech_atEnd (hpushed.append _) hoid, bind_some,
    writeOctets_atEnd (hpushed.append _), append_append, append_assoc]
  rw [asn1PopTag_append (hd.pushed _), asn1PopTag_append hd, targFieldsBytes]

/-- **What is written.** Any token with readable OIDs is written, one element for each
field that is there. -/
theorem spnegoWriteData_eq {token : SpnegoData} (h : OidsReadable token) :
    spnegoWriteData token = some (some (tlv (tokenTag token.type) (tokenContent token))) := by
  unfold spnegoWriteData tokenContent tokenTag
  cases htype : token.type with
  | negTokenInit =>
    have hpushed := load.pushed (asn1Application 0)
    simp only [asn1PushTag_atEnd load, bind_eq_bind, Option.pure_def,
      asn1WriteOID_readable readable_gensecOidSpnego hpushed, bind_some,
      writeNegTokenInit_atEnd (hpushed.append _) h.mechTypes, append_append,
      asn1PopTag_append load]
    rfl
  | negTokenTarg =>
    simp only [writeNegTokenTarg_atEnd load h.supportedMech, bind_eq_bind,
      Option.pure_def, bind_some]
    rfl

end Write

/-! ## Reading -/

variable {σ ρ : Type}

/-- With `bytes` ahead in the innermost tag, `n` rounds at most of the loop `run` go past them and
change what has been read from `s` to `s'`. -/
def Moves (run : Nat → σ → Asn1Data → ρ) (n : Nat) (bytes : Bytes) (s s' : σ) : Prop :=
  ∀ (d : Asn1Data) (p : Bytes) (left fuel : Nat), d.Ahead (bytes ++ p) →
    d.Within (bytes.length + left) →
    ∃ fuel', fuel ≤ fuel' ∧ run (fuel + n) s d = run fuel' s' (d.skip bytes.length)

variable {run : Nat → σ → Asn1Data → ρ}

theorem Moves.refl (n : Nat) (s : σ) :
    Moves run n [] s s := fun _ _ _ fuel _ _ => ⟨fuel + n, by omega, rfl⟩

theorem Moves.trans {m n : Nat} {p q : Bytes}
    {s t u : σ} (h : Moves run n p s t) (h' : Moves run m q t u) :
    Moves run (m + n) (p ++ q) s u := by
  intro d rest left fuel hahead hin
  rw [append_assoc] at hahead
  rw [length_append, add_assoc] at hin
  obtain ⟨fuel₁, hle₁, hrun₁⟩ := h d (q ++ rest) _ (fuel + m) hahead hin
  obtain ⟨fuel₂, hle₂, hrun₂⟩ := h' _ rest left (fuel₁ - m) hahead.skip hin.skip
  refine ⟨fuel₂, by omega, ?_⟩
  rw [← Nat.add_assoc, hrun₁, ← Nat.sub_add_cancel (show m ≤ fuel₁ by omega), hrun₂, skip_skip,
    length_append]

/-- A blob that may be absent: nothing is sent for it, and nothing is stored. -/
theorem Moves.optional {s : σ} {context : UInt8}
    (blob : Option Bytes) (store : Option Bytes → σ) (hnone : store none = s)
    (hlen : (octetsBytes context blob).length < 2 ^ 24)
    (hsome : ∀ {octets : Bytes}, (tlv asn1OctetString octets).length < 2 ^ 24 →
      Moves run 1 (tlv context (tlv asn1OctetString octets)) s (store (some octets))) :
    Moves run 1 (octetsBytes context blob) s (store blob) := by
  cases blob with
  | none =>
    rw [hnone]
    exact .refl 1 s
  | some octets =>
    rw [octetsBytes, length_tlv context] at hlen
    exact hsome (by omega)

section Read

variable {d : Asn1Data} {p : Bytes}

/-- With `bytes` ahead, the reader takes them for `a` and goes past them. -/
def Reads {α : Type} (reader : Asn1Data → α × Asn1Data) (bytes : Bytes) (a : α) : Prop :=
  ∀ ⦃d : Asn1Data⦄ ⦃p : Bytes⦄, d.Ahead (bytes ++ p) → reader d = (a, d.skip bytes.length)

section Loops

variable {round : σ → Asn1Data → σ × Asn1Data} {s s' : σ} {bytes : Bytes}

/-- A loop goes past the bytes that its round reads. -/
theorem Reads.moves (hround : Reads (round s) bytes s') (hpos : 0 < bytes.length) :
    Moves (whileRemaining round) 1 bytes s s' := by
  intro d p left fuel h hin
  have hread := hround h
  refine ⟨fuel, le_refl _, ?_⟩
  rw [whileRemaining, h.noError, hin.remaining]
  simp only [Bool.false_eq_true, if_false]
  rw [if_pos (by omega), hread]

/-- A field loop goes past an element that its `switch` reads. -/
theorem Reads.movesField {field : UInt8 → σ → Asn1Data → σ × Asn1Data} {context : UInt8}
    (hfield : Reads (field context s) (tlv context content) s') :
    Moves (whileRemaining (fieldRound field)) 1 (tlv context content) s s' := by
  refine Reads.moves (fun d p h => ?_) (by rw [length_tlv]; omega)
  rw [fieldRound, asn1PeekUint8_ahead h]
  exact hfield h

/-- A loop at the end of its tag, or in front of an error, is over. -/
theorem whileRemaining_over (hend : d.hasError = false → (asn1TagRemaining d).1 = 0) :
    (whileRemaining round fuel s d).1 = s := by
  cases fuel with
  | zero => rfl
  | succ fuel =>
    rw [whileRemaining]
    by_cases herr : d.hasError = true
    · rw [if_pos herr]
    · rw [if_neg herr]
      simp only [hend (eq_false_of_ne_true herr)]
      rfl

/-- A loop ends behind the last bytes of its tag. -/
theorem Moves.finish {n : Nat} (hmoves : Moves (whileRemaining round) n bytes s s')
    (h : d.Ahead (bytes ++ p)) (hin : d.Within bytes.length) (hfuel : n < fuel) :
    whileRemaining round fuel s d = (s', d.skip bytes.length) := by
  obtain ⟨fuel', hle, hrun⟩ := hmoves d p 0 (fuel - n) h hin
  obtain ⟨fuel', rfl⟩ : ∃ k, fuel' = k + 1 := ⟨fuel' - 1, by omega⟩
  have hzero : (d.skip bytes.length).Within 0 := Asn1Data.Within.skip hin
  rw [Nat.sub_add_cancel hfuel.le] at hrun
  rw [hrun, whileRemaining, hzero.1, hzero.remaining]
  rfl

end Loops

/-- An element is read between the start and the end of its tag. -/
theorem Reads.element {α : Type} {reader : Asn1Data → α × Asn1Data} {a : α} {tag : UInt8}
    (hread : Reads reader content a) (h : d.Ahead (tlv tag content ++ p))
    (hlen : content.length < 2 ^ 24) :
    ∃ d', reader (asn1StartTag d tag).2 = (a, d') ∧
      (asn1EndTag d').2 = d.skip (tlv tag content).length := by
  obtain ⟨hstart, h₁⟩ := asn1StartTag_ahead h
  rw [hstart]
  exact ⟨_, hread h₁, by rw [asn1EndTag_opened h hlen]⟩

/-- An element in an element: its content is ahead and ends the inner tag, and both tags close
behind. -/
theorem nested_ahead {outer inner : UInt8} (h : d.Ahead (tlv outer (tlv inner content) ++ p))
    (hlen : (tlv inner content).length < 2 ^ 24) :
    ∃ d₂, (asn1StartTag (asn1StartTag d outer).2 inner).2 = d₂ ∧ d₂.Ahead (content ++ p) ∧
      d₂.Within content.length ∧ 4 ≤ d₂.data.length ∧
      (asn1EndTag (asn1EndTag (d₂.skip content.length)).2).2 =
        d.skip (tlv outer (tlv inner content)).length := by
  obtain ⟨hstart₁, h₁⟩ := asn1StartTag_ahead h
  obtain ⟨hstart₂, h₂⟩ := asn1StartTag_ahead h₁
  have hlen' : content.length < 2 ^ 24 := by
    rw [length_tlv] at hlen
    omega
  have hdata : 4 ≤ d.data.length := by
    have hin := h.inside
    have hpos := popLength_length_pos content.length
    have hpos' := popLength_length_pos (tlv inner content).length
    rw [length_append, length_tlv outer] at hin
    rw [length_tlv] at hin hpos'
    omega
  refine ⟨_, by rw [hstart₁, hstart₂], h₂, .opened h₁ hlen', hdata, ?_⟩
  rw [asn1EndTag_opened h₁ hlen', asn1EndTag_opened h hlen]

theorem moves_mechTypes : ∀ (oids read : List String), (∀ oid ∈ oids, Readable oid) →
    (oids.flatMap oidBytes).length < 2 ^ 24 →
    ∃ n ≤ (oids.flatMap oidBytes).length,
      Moves readMechTypes n (oids.flatMap oidBytes) (some read) (some (read ++ oids))
  | [], read, _, _ => ⟨0, le_refl _, by rw [List.append_nil]; exact .refl 0 _⟩
  | oid :: oids, read, hoids, hlen => by
    have hoid := hoids oid (mem_cons_self ..)
    rw [flatMap_cons, length_append] at hlen ⊢
    obtain ⟨n, hn, hmoves⟩ := moves_mechTypes oids (read ++ [oid])
      (fun x hx => hoids x (mem_cons_of_mem _ hx)) (by omega)
    have hround : Moves readMechTypes 1 (oidBytes oid) (some read) (some (read ++ [oid])) := by
      refine Reads.moves (fun d p h => ?_) hoid.length_pos
      rw [asn1ReadOID_readable hoid h (by omega)]
      rfl
    refine ⟨n + 1, by have hpos := hoid.length_pos; omega, ?_⟩
    rw [append_cons]
    exact hround.trans hmoves

theorem reads_mechTypes {oids : List String} (hoids : ∀ oid ∈ oids, Readable oid)
    (hlen : (tlv (asn1Sequence 0) (oids.flatMap oidBytes)).length < 2 ^ 24) :
    Reads (readInitField (asn1Context 0) token)
      (tlv (asn1Context 0) (tlv (asn1Sequence 0) (oids.flatMap oidBytes)))
      (some { token with mechTypes := some oids }) := by
  intro d p h
  have hsize := hlen
  rw [length_tlv] at hsize
  obtain ⟨d₂, hstart, h₂, hin, -, hclose⟩ := nested_ahead h hlen
  have hle := h₂.inside
  rw [length_append] at hle
  rw [readInitField, if_pos rfl]
  obtain ⟨n, hn, hmoves⟩ := moves_mechTypes oids [] hoids (by omega)
  have hread : readMechTypes (d₂.data.length + 1) (some []) d₂ = _ :=
    hmoves.finish h₂ hin (by omega)
  simp only [hstart, hread, hclose, map_some, nil_append]

theorem reads_reqFlags (hlen : (tlv asn1Integer octets).length < 2 ^ 24) :
    Reads (readInitField (asn1Context 1) token) (tlv (asn1Context 1) (tlv asn1Integer octets))
      (some { token with reqFlags := ofNat (beValue octets) ||| reqFlag }) := by
  intro d p h
  obtain ⟨d', hread, hclose⟩ := Reads.element
    (fun _ _ h => asn1ReadInteger_ahead h (by rw [length_tlv] at hlen; omega)) h hlen
  rw [readInitField, if_neg (by decide), if_pos rfl]
  have hmod : (Int.bmod (beValue octets) (2 ^ 32) % 2 ^ 32).toNat = beValue octets % 2 ^ 32 := by
    have : Int.bmod (beValue octets) (2 ^ 32) % 2 ^ 32 = beValue octets % 2 ^ 32 := Int.bmod_emod
    omega
  simp only [hread, hclose, foldl_bmod, hmod]
  rw [show ofNat (beValue octets % 2 ^ 32) = ofNat (beValue octets) from
    ofNat_mod_size]

theorem octets_ahead {tag : UInt8} (h : d.Ahead (tlv tag (tlv asn1OctetString octets) ++ p))
    (hlen : (tlv asn1OctetString octets).length < 2 ^ 24) :
    ∃ d', asn1ReadOctetString (asn1StartTag d tag).2 = (some octets, d') ∧
      (asn1EndTag d').2 = d.skip (tlv tag (tlv asn1OctetString octets)).length :=
  Reads.element
    (fun _ _ h => asn1ReadOctetString_ahead h (by rw [length_tlv] at hlen; omega)) h hlen

theorem reads_mechToken (hlen : (tlv asn1OctetString octets).length < 2 ^ 24) :
    Reads (readInitField (asn1Context 2) token) (tlv (asn1Context 2) (tlv asn1OctetString octets))
      (some { token with mechToken := some octets }) := by
  intro d p h
  obtain ⟨d', hread, hclose⟩ := octets_ahead h hlen
  rw [readInitField, if_neg (by decide), if_neg (by decide), if_pos rfl]
  simp only [hread, hclose]

theorem moves_initField {token' : NegTokenInit} {context : UInt8}
    (hfield : Reads (readInitField context token) (tlv context content) (some token')) :
    Moves readInitFields 1 (tlv context content) (some token) (some token') :=
  Reads.movesField hfield

/-- The mechTypes a token is read back with: an empty array is not sent. -/
def sentMechTypes : Option (List String) → Option (List String)
  | some (oid :: oids) => some (oid :: oids)
  | _ => none

/-- The flags a token is read back with. -/
def sentFlags : UInt32 :=
  if flags &&& reqFlag ≠ 0 then ofNat (beValue (flagOctets flags)) ||| reqFlag else 0

/-- What the elements before the mechListMIC are read as. -/
def initRead (token : NegTokenInit) : NegTokenInit :=
  { mechTypes := sentMechTypes token.mechTypes, reqFlags := sentFlags token.reqFlags,
    mechToken := token.mechToken }

theorem moves_initRead (hoids : MechsReadable token.mechTypes)
    (hlen : (initFront token).length < 2 ^ 24) :
    Moves readInitFields 3 (initFront token) (some {}) (some (initRead token)) := by
  rw [initFront, length_append, length_append] at hlen
  have hmech : Moves readInitFields 1 (mechTypesBytes token.mechTypes) (some {})
      (some { mechTypes := sentMechTypes token.mechTypes }) := by
    match hm : token.mechTypes with
    | none | some [] => exact .refl 1 _
    | some (oid :: oids) =>
      rw [hm, mechTypesBytes, length_tlv] at hlen
      exact moves_initField (reads_mechTypes (hoids _ hm) (by omega))
  have hflags : ∀ m, Moves readInitFields 1 (reqFlagsBytes token.reqFlags) (some { mechTypes := m })
      (some { mechTypes := m, reqFlags := sentFlags token.reqFlags }) := by
    intro m
    unfold reqFlagsBytes at hlen ⊢
    unfold sentFlags
    split
    · rename_i hflag
      rw [if_pos hflag, length_tlv] at hlen
      exact moves_initField (reads_reqFlags (by omega))
    · exact .refl 1 _
  refine hmech.trans ((hflags _).trans (?_ : Moves readInitFields 1 _ _ (some (initRead token))))
  exact .optional token.mechToken (fun b => some { initRead token with mechToken := b }) rfl
    (by omega) fun hlen => moves_initField (reads_mechToken hlen)

theorem readInitFields_front
    (hoids : MechsReadable token.mechTypes) (h : d.Ahead (initFieldsBytes token ++ p))
    (hin : d.Within (initFieldsBytes token).length)
    (hlen : (initFieldsBytes token).length < 2 ^ 24) (hdata : 4 ≤ d.data.length) :
    (d.skip (initFront token).length).Ahead (initMechListMICBytes token.mechListMIC ++ p) ∧
    (d.skip (initFront token).length).Within (initMechListMICBytes token.mechListMIC).length ∧
    ∃ fuel, readInitFields (d.data.length + 1) (some {}) d =
      readInitFields (fuel + 1) (some (initRead token)) (d.skip (initFront token).length) := by
  rw [initFieldsBytes, append_assoc] at h
  rw [initFieldsBytes, length_append] at hin hlen
  obtain ⟨fuel, hfuel, hrun⟩ := moves_initRead hoids (by omega) d _ _ (d.data.length - 2) h hin
  obtain ⟨fuel, rfl⟩ : ∃ k, fuel = k + 1 := ⟨fuel - 1, by omega⟩
  refine ⟨h.skip, hin.skip, fuel, ?_⟩
  rw [← hrun]
  congr 1
  omega

theorem readNegTokenInit_ahead (hoids : MechsReadable token.mechTypes)
    (h : d.Ahead (tlv (asn1Context 0) (tlv (asn1Sequence 0) (initFieldsBytes token)) ++ p))
    (hlen : (tlv (asn1Sequence 0) (initFieldsBytes token)).length < 2 ^ 24)
    (hmic : token.mechListMIC = none) :
    readNegTokenInit d = (some (initRead token),
      d.skip (tlv (asn1Context 0) (tlv (asn1Sequence 0) (initFieldsBytes token))).length) := by
  have hsize := hlen
  rw [length_tlv] at hsize
  obtain ⟨d₂, hstart, h₂, hin, hdata, hclose⟩ := nested_ahead h hlen
  have hbytes : initFieldsBytes token = initFront token := by
    rw [initFieldsBytes, hmic, initMechListMICBytes, List.append_nil]
  rw [hbytes] at h₂ hin hclose hsize ⊢
  have hread : readInitFields (d₂.data.length + 1) (some {}) d₂ = _ :=
    (moves_initRead hoids (by omega)).finish h₂ hin (by omega)
  rw [readNegTokenInit]
  simp only [hstart, hread, hclose]

/-! ### The mechListMIC of a negTokenInit -/

theorem readPrincipal_passes : Passes d (readPrincipal d).2 0 := by
  intro hok
  unfold readPrincipal at hok ⊢
  simp only at hok ⊢
  have hgeneral := asn1ReadGeneralString_passes
    (d := asn1PushTag (asn1PushTag d (asn1Sequence 0)) (asn1Context 0))
  obtain ⟨hok₅, ⟨m₂, hm₂⟩, hle₅, hmax₅⟩ := asn1PopTag_closes hok
  obtain ⟨hok₄, ⟨m₁, hm₁⟩, hle₄, hmax₄⟩ := asn1PopTag_closes hok₅
  obtain ⟨hpass, hint⟩ := hgeneral
  obtain ⟨hok₃, hnest₃, hle₃, -⟩ := hpass hok₄
  obtain ⟨hok₂, hnest₂, hofs₂⟩ := asn1PushTag_opens hok₃
  obtain ⟨hok₁, hnest₁, hofs₁⟩ := asn1PushTag_opens hok₂
  have hsmall := hint hok₄
  rw [hm₂] at hm₁
  rw [hnest₃, hnest₂, hnest₁] at hm₁
  simp only [cons.injEq] at hm₁
  exact ⟨hok₁, hm₁.2.2.symm, by omega, by omega⟩

theorem readInitMechListMIC_ahead (token : NegTokenInit)
    (h : d.Ahead (tlv (asn1Context 3) (tlv (asn1Sequence 0) content) ++ p)) :
    readInitMechListMIC token d =
      ({ token with targetPrincipal :=
          (readPrincipal (d.opened (tlv (asn1Sequence 0) content).length)).1 },
        (asn1EndTag (readPrincipal (d.opened (tlv (asn1Sequence 0) content).length)).2).2) := by
  obtain ⟨hstart, h₁⟩ := asn1StartTag_ahead h
  have hpeek : asn1PeekUint8 (d.opened (tlv (asn1Sequence 0) content).length) =
      (some (asn1Sequence 0), d.opened (tlv (asn1Sequence 0) content).length) :=
    asn1PeekUint8_ahead h₁
  rw [readInitMechListMIC, hstart]
  simp only [hpeek]
  rfl

/-- **The mechListMIC is lost.** What is written of it is not an octet string: the reader takes it
for a principal name. -/
theorem readInitFields_mechListMIC
    (h : d.Ahead (tlv (asn1Context 3) (tlv (asn1Sequence 0) content) ++ p))
    (hin : d.Within (tlv (asn1Context 3) (tlv (asn1Sequence 0) content)).length)
    (hlen : (tlv (asn1Context 3) (tlv (asn1Sequence 0) content)).length < 2 ^ 24) :
    ∃ principal, (readInitFields (fuel + 1) (some token) d).1 =
      some { token with targetPrincipal := principal } := by
  have hread := readInitMechListMIC_ahead token h
  have hpeek : asn1PeekUint8 d = (some (asn1Context 3), d) := asn1PeekUint8_ahead h
  have hfield : readInitField (asn1Context 3) token d =
      (some (readInitMechListMIC token d).1, (readInitMechListMIC token d).2) := by
    rw [readInitField, if_neg (by decide), if_neg (by decide), if_neg (by decide), if_pos rfl]
  refine ⟨(readPrincipal (d.opened (tlv (asn1Sequence 0) content).length)).1, ?_⟩
  rw [readInitFields, whileRemaining, h.noError, hin.remaining]
  rw [length_tlv] at hlen hin ⊢
  simp only [Bool.false_eq_true, if_false]
  rw [if_pos (by omega), fieldRound, hpeek]
  simp only [hfield, hread]
  refine whileRemaining_over fun hok => ?_
  -- the tag that is closed here ends where the sequence ends
  generalize hL : (tlv (asn1Sequence 0) content).length = L at hlen hin hok
  have hpass := readPrincipal_passes (d := d.opened L)
  generalize readPrincipal (d.opened L) = read at hok hpass
  obtain ⟨hok₂, hofs₂, n, hnest₂, hzero⟩ := asn1EndTag_closes hok
  obtain ⟨-, hnest₁, hle₁, hmax₁⟩ := hpass hok₂
  obtain ⟨-, m, rest, hm, -, -, hend, -⟩ := hin
  rw [hnest₁] at hnest₂
  obtain ⟨rfl, hnest⟩ := cons.inj hnest₂
  have hsmall := h.small
  have hdvd := Int.dvd_of_bmod_eq_zero hzero
  simp only [Asn1Data.opened, Asn1Data.skip] at hle₁ hmax₁ hdvd
  unfold intMax at hmax₁ hsmall
  generalize asn1EndTag read.2 = closed at hok hofs₂ hnest
  rw [asn1TagRemaining, hok, ← hnest, hm]
  have hofs : (m.taglen : Int) - ((closed.2.ofs : Int) - m.start) = 0 := by omega
  simp only [hofs, Int.zero_bmod, Bool.false_eq_true, if_false]
  rw [if_neg (by omega)]

/-! ### negTokenTarg -/

variable {token : NegTokenTarg}

theorem moves_targField {fields : List TargField} {field : TargField} {context : UInt8}
    (hfield : Reads (readTargField context) (tlv context content) (some field)) :
    Moves readTargFields 1 (tlv context content) fields (fields ++ [field]) :=
  Reads.movesField fun d p h => by rw [hfield h]; rfl

theorem reads_negResult (r : UInt8) :
    Reads (readTargField (asn1Context 0)) (tlv (asn1Context 0) (tlv asn1Enumerated [r]))
      (some (.negResult r)) := by
  intro d p h
  obtain ⟨d₂, hstart, h₂, -, -, hclose⟩ := nested_ahead h (by simp [tlv, popLength])
  obtain ⟨hread, -⟩ := asn1ReadUint8_ahead h₂
  rw [readTargField, if_pos rfl]
  simp only [hstart, hread, map_some]
  rw [← hclose, length_singleton]

theorem reads_supportedMech {oid : String} (hoid : Readable oid)
    (hlen : (oidBytes oid).length < 2 ^ 24) :
    Reads (readTargField (asn1Context 1)) (tlv (asn1Context 1) (oidBytes oid))
      (some (.supportedMech oid)) := by
  intro d p h
  obtain ⟨d', hread, hclose⟩ := Reads.element (fun _ _ h => asn1ReadOID_readable hoid h hlen) h hlen
  rw [readTargField, if_neg (by decide), if_pos rfl]
  simp only [hread, hclose, map_some]

theorem reads_responseToken (hlen : (tlv asn1OctetString octets).length < 2 ^ 24) :
    Reads (readTargField (asn1Context 2)) (tlv (asn1Context 2) (tlv asn1OctetString octets))
      (some (.responseToken (some octets))) := by
  intro d p h
  obtain ⟨d', hread, hclose⟩ := octets_ahead h hlen
  rw [readTargField, if_neg (by decide), if_neg (by decide), if_pos rfl]
  simp only [hread, hclose]

theorem reads_mechListMIC (hlen : (tlv asn1OctetString octets).length < 2 ^ 24) :
    Reads (readTargField (asn1Context 3)) (tlv (asn1Context 3) (tlv asn1OctetString octets))
      (some (.mechListMIC (some octets))) := by
  intro d p h
  obtain ⟨d', hread, hclose⟩ := octets_ahead h hlen
  rw [readTargField, if_neg (by decide), if_neg (by decide), if_neg (by decide), if_pos rfl]
  simp only [hread, hclose]

/-- What a negTokenTarg is read back as: a negResult that is not sent is read as 0. -/
def targRead (token : NegTokenTarg) : NegTokenTarg :=
  { token with negResult := if token.negResult ≠ noneResult then token.negResult else 0 }

/-- The fields that are sent. -/
def sentFields (token : NegTokenTarg) : List TargField :=
  (if token.negResult ≠ noneResult then [.negResult token.negResult] else []) ++
    (token.supportedMech.map .supportedMech).toList ++
    (token.responseToken.map fun octets => .responseToken (some octets)).toList ++
    (token.mechListMIC.map fun octets => .mechListMIC (some octets)).toList

theorem foldl_sentFields (token : NegTokenTarg) :
    (sentFields token).foldl .put {} = targRead token := by
  obtain ⟨negResult, supportedMech, responseToken, mechListMIC⟩ := token
  unfold sentFields targRead
  cases supportedMech <;> cases responseToken <;> cases mechListMIC <;> split <;> rfl

theorem moves_sentFields
    (hoid : ∀ oid, token.supportedMech = some oid → Readable oid)
    (hlen : (targFieldsBytes token).length < 2 ^ 24) :
    Moves readTargFields 4 (targFieldsBytes token) [] (sentFields token) := by
  rw [targFieldsBytes, length_append, length_append, length_append] at hlen
  have hresult : Moves readTargFields 1 (negResultBytes token.negResult) []
      (if token.negResult ≠ noneResult then [.negResult token.negResult] else []) := by
    unfold negResultBytes
    split
    · exact moves_targField (reads_negResult _)
    · exact .refl 1 _
  have hmech : ∀ fields, Moves readTargFields 1 (supportedMechBytes token.supportedMech) fields
      (fields ++ (token.supportedMech.map .supportedMech).toList) := by
    intro fields
    cases hm : token.supportedMech with
    | none =>
      rw [map_none, toList_none, List.append_nil]
      exact .refl 1 fields
    | some oid =>
      rw [hm, supportedMechBytes, length_tlv] at hlen
      exact moves_targField (reads_supportedMech (hoid _ hm) (by omega))
  have htoken := fun fields => Moves.optional token.responseToken
    (fun blob => fields ++ (blob.map fun octets => .responseToken (some octets)).toList)
    (List.append_nil fields) (by omega) fun hlen => moves_targField (reads_responseToken hlen)
  have hmic := fun fields => Moves.optional token.mechListMIC
    (fun blob => fields ++ (blob.map fun octets => .mechListMIC (some octets)).toList)
    (List.append_nil fields) (by omega) fun hlen => moves_targField (reads_mechListMIC hlen)
  exact hresult.trans ((hmech _).trans ((htoken _).trans (hmic _)))

theorem readNegTokenTarg_ahead
    (hoid : ∀ oid, token.supportedMech = some oid → Readable oid)
    (h : d.Ahead (tlv (asn1Context 1) (tlv (asn1Sequence 0) (targFieldsBytes token)) ++ p))
    (hlen : (tlv (asn1Sequence 0) (targFieldsBytes token)).length < 2 ^ 24) :
    readNegTokenTarg d = (sentFields token,
      d.skip (tlv (asn1Context 1) (tlv (asn1Sequence 0) (targFieldsBytes token))).length) := by
  have hsize := hlen
  rw [length_tlv] at hsize
  obtain ⟨d₂, hstart, h₂, hin, hdata, hclose⟩ := nested_ahead h hlen
  have hread : readTargFields (d₂.data.length + 1) [] d₂ = _ :=
    (moves_sentFields hoid (by omega)).finish h₂ hin (by omega)
  simp only [readNegTokenTarg, hstart, hread, hclose]

end Read

end OpenvasSmb.Spnego

import OpenvasSmb.Spnego.Encoding

/-!
# Tokens that come back

`spnego_read_data` on what `spnego_write_data` has written. An empty mechTypes array and a
negResult of `SPNEGO_NONE_RESULT` are not sent, flags without `SPNEGO_REQ_FLAG` are dropped,
negative flags lose their sign, the mechListMIC of a negTokenInit is sent in a form that is read
as something else, and a length of more than 24 bits is cut. `spnego_round_trip` says that this is
all.

A token whose encoding is too long is not read, whatever the bytes behind the cut length look
like: reading the OIDs takes at least as many bytes as they were written with, more than the tag
has.
-/

namespace OpenvasSmb.Spnego

open Asn1 List Option Prod Passes ReadResult Nat

/-! ## How far the readers go -/

variable (mechTypes : Option (List String))

section Passes

variable {d d' : Asn1Data}

def mechSize : Nat :=
  ((mechTypes.getD []).flatMap oidBytes).length

section Loops

variable {σ : Type} (size : σ → Nat)

/-- A loop takes what its rounds take. -/
theorem whileRemaining_passes {round : σ → Asn1Data → σ × Asn1Data}
    (hround : ∀ s d, Passes d (round s d).2 (size (round s d).1 - size s)) : ∀ fuel s d,
    Passes d (whileRemaining round fuel s d).2
      (size (whileRemaining round fuel s d).1 - size s) := by
  intro fuel
  induction fuel with
  | zero => intro s d; exact fail
  | succ fuel ih =>
    intro s d
    have hrest := asn1TagRemaining_passes (d := d)
    rw [whileRemaining]
    generalize asn1TagRemaining d = result at hrest
    split
    · rename_i herr
      exact of_error herr
    · simp only
      split
      · exact ((hrest.trans (hround s result.2)).trans (ih _ _)).mono (by omega)
      · exact hrest.mono (by simp)

theorem fieldRound_passes {field : UInt8 → σ → Asn1Data → σ × Asn1Data}
    (hfield : ∀ context s d, Passes d (field context s d).2 (size (field context s d).1 - size s))
    (s : σ) (d : Asn1Data) :
    Passes d (fieldRound field s d).2 (size (fieldRound field s d).1 - size s) := by
  rw [fieldRound]
  cases hpeek : asn1PeekUint8 d with
  | mk r d₁ =>
    cases r with
    | none => exact fail
    | some context =>
      obtain rfl := asn1PeekUint8_some hpeek
      exact hfield context s _

end Loops

theorem readMechTypes_passes (fuel : Nat) :
    Passes d (readMechTypes fuel (some []) d).2
      (mechSize (readMechTypes fuel (some []) d).1) := by
  refine whileRemaining_passes mechSize (fun oids d => ?_) fuel (some []) d
  simp only
  cases hread : asn1ReadOID d with
  | mk r d₁ =>
    cases r with
    | none => exact of_error (asn1ReadOID_none hread)
    | some oid =>
      refine (asn1ReadOID_passes hread).mono ?_
      cases oids <;> simp [mechSize]

theorem passes_tag {tag : UInt8} {k : Nat} (h : Passes (asn1StartTag d tag).2 d' k) :
    Passes d (asn1EndTag d').2 k :=
  (element (.start _) h asn1EndTag_closes).mono (by omega)

theorem readInitMechListMIC_passes (token : NegTokenInit) :
    Passes d (readInitMechListMIC token d).2 0 ∧
      (readInitMechListMIC token d).1.mechTypes = token.mechTypes := by
  unfold readInitMechListMIC
  simp only
  cases hpeek : asn1PeekUint8 (asn1StartTag d (asn1Context 3)).2 with
  | mk r d₁ =>
    cases r with
    | none => exact ⟨fail, rfl⟩
    | some b =>
      obtain rfl := asn1PeekUint8_some hpeek
      simp only
      split
      · exact ⟨passes_tag asn1ReadOctetString_passes, rfl⟩
      · exact ⟨passes_tag readPrincipal_passes, rfl⟩

def initMechSize (token : Option NegTokenInit) : Nat := mechSize (token.bind (·.mechTypes))

/-- A field of a negTokenInit takes what the mechTypes read with it were written with. -/
theorem readInitField_passes (context : UInt8) (token : NegTokenInit) :
    Passes d (readInitField context token d).2
      (initMechSize (readInitField context token d).1 - initMechSize (some token)) := by
  unfold readInitField
  split_ifs
  · -- mechTypes
    have hread := readMechTypes_passes
      (d := (asn1StartTag (asn1StartTag d (asn1Context 0)).2 (asn1Sequence 0)).2)
    refine (passes_tag (passes_tag (hread _))).mono ((sub_le ..).trans ?_)
    simp only [initMechSize]
    generalize (readMechTypes _ _ _).1 = mechTypes
    cases mechTypes <;> rfl
  · -- reqFlags
    exact (passes_tag asn1ReadInteger_passes).mono (by simp [initMechSize])
  · -- mechToken
    exact (passes_tag asn1ReadOctetString_passes).mono (by simp [initMechSize])
  · -- mechListMIC
    obtain ⟨hpass, hsame⟩ := readInitMechListMIC_passes (d := d) token
    exact hpass.mono (by simp [initMechSize, hsame])
  · exact fail

theorem readInitFields_passes (fuel : Nat) :
    Passes d (readInitFields fuel (some {}) d).2
      (initMechSize (readInitFields fuel (some {}) d).1) := by
  refine whileRemaining_passes initMechSize ?_ fuel (some {}) d
  refine fieldRound_passes initMechSize fun context token d => ?_
  cases token with
  | none => exact (Passes.refl d).mono (by simp)
  | some token => exact readInitField_passes context token

theorem readNegTokenInit_passes {token : NegTokenInit} (h : readNegTokenInit d = (some token, d')) :
    Passes d d' (mechSize token.mechTypes) := by
  simp only [readNegTokenInit, Prod.mk.injEq] at h
  obtain ⟨htoken, rfl⟩ := h
  have hread := readInitFields_passes
    (d := (asn1StartTag (asn1StartTag d (asn1Context 0)).2 (asn1Sequence 0)).2)
  exact (passes_tag (passes_tag (hread _))).mono (by rw [htoken]; rfl)

theorem asn1CheckOID_passes {oid : String} : Passes d (asn1CheckOID d oid).2 0 := by
  unfold asn1CheckOID
  cases hread : asn1ReadOID d with
  | mk r d₁ =>
    cases r with
    | none => exact fun hok => absurd hok (by simp [asn1ReadOID_none hread])
    | some id =>
      simp only
      split
      · rename_i herr
        exact of_error herr
      · split
        · exact fail
        · exact (asn1ReadOID_passes hread).mono (zero_le _)

def targMechSize (token : NegTokenTarg) : Nat := ((token.supportedMech.map oidBytes).getD []).length

/-- A field of a negTokenTarg takes what the supportedMech read with it was written with. -/
theorem readTargField_passes (context : UInt8) (token : NegTokenTarg) :
    Passes d (readTargField context d).2
      (targMechSize ((readTargField context d).1.toList.foldl NegTokenTarg.put token) -
        targMechSize token) := by
  unfold readTargField
  split_ifs
  · -- negResult
    have hread := (asn1ReadUint8_passes
      (d := (asn1StartTag (asn1StartTag d (asn1Context 0)).2 asn1Enumerated).2)).1
    simp only
    refine (passes_tag (passes_tag hread)).mono ?_
    cases (asn1ReadUint8
      (asn1StartTag (asn1StartTag d (asn1Context 0)).2 asn1Enumerated).2).1 <;>
      simp [targMechSize, NegTokenTarg.put]
  · -- supportedMech
    simp only
    cases hread : asn1ReadOID (asn1StartTag d (asn1Context 1)).2 with
    | mk r d₁ =>
      cases r with
      | none =>
        have herr := asn1ReadOID_none hread
        intro hok
        exact absurd (asn1EndTag_closes hok).1 (by simp [herr])
      | some oid =>
        exact (passes_tag (asn1ReadOID_passes hread)).mono
          (by simp [targMechSize, NegTokenTarg.put])
  iterate 2
    exact (passes_tag asn1ReadOctetString_passes).mono (by simp [targMechSize, NegTokenTarg.put])
  · exact fail

def fieldsMechSize (fields : List TargField) : Nat := targMechSize (fields.foldl .put {})

theorem readTargFields_passes (fuel : Nat) :
    Passes d (readTargFields fuel [] d).2 (fieldsMechSize (readTargFields fuel [] d).1) := by
  refine whileRemaining_passes fieldsMechSize ?_ fuel [] d
  refine fieldRound_passes fieldsMechSize fun context fields d => ?_
  have hfield := readTargField_passes (d := d) context (fields.foldl .put {})
  rwa [← foldl_append] at hfield

end Passes

/-! ## Encodings that are too long -/

abbrev Short (blob : Option Bytes) : Prop := ∀ p, blob = some p → p.length < 2 ^ 16

variable {blob : Option Bytes}

theorem length_octetsBytes (tag : UInt8) (h : Short blob) : (octetsBytes tag blob).length < 2 ^ 17 := by
  cases blob with
  | none => simp [octetsBytes]
  | some p =>
    have hp := h p rfl
    have hle := length_tlv_le asn1OctetString p
    exact lt_of_le_of_lt (length_tlv_le _ _) (by omega)

theorem length_initMechListMICBytes (h : Short blob) : (initMechListMICBytes blob).length < 2 ^ 17 := by
  cases blob with
  | none => simp [initMechListMICBytes]
  | some p =>
    have hp := h p rfl
    have h₁ := length_tlv_le asn1GeneralString p
    have h₂ := length_tlv_le (asn1Context 0) (tlv asn1GeneralString p)
    have h₃ := length_tlv_le (asn1Sequence 0) (tlv (asn1Context 0) (tlv asn1GeneralString p))
    exact lt_of_le_of_lt (length_tlv_le _ _) (by omega)

theorem length_reqFlagsBytes (flags : UInt32) : (reqFlagsBytes flags).length ≤ 15 := by
  unfold reqFlagsBytes
  split
  · have h₁ := length_tlv_le asn1Integer (flagOctets flags)
    have h₂ : (flagOctets flags).length ≤ 4 := (value_intOctets (UInt32.toNat_lt _)).2.2
    exact le_trans (length_tlv_le _ _) (by omega)
  · simp

theorem length_mechTypesBytes :
    (mechTypesBytes mechTypes).length ≤ mechSize mechTypes + 10 := by
  match mechTypes with
  | none | some [] => simp [mechTypesBytes]
  | some (oid :: oids) =>
    exact Nat.le_trans (length_tlv_le _ _) (Nat.add_le_add_right (length_tlv_le _ _) 5)

/-! ## The round trip -/

/-- A token as the callers build it: one body, OIDs that can be read, blobs of less than
`2 ^ 16` bytes. -/
structure Encodable (token : SpnegoData) : Prop where
  oids : OidsReadable token
  mechToken : ∀ p, token.negTokenInit.mechToken = some p → p.length < 2 ^ 16
  initMechListMIC : ∀ p, token.negTokenInit.mechListMIC = some p → p.length < 2 ^ 16
  responseToken : ∀ p, token.negTokenTarg.responseToken = some p → p.length < 2 ^ 16
  targMechListMIC : ∀ p, token.negTokenTarg.mechListMIC = some p → p.length < 2 ^ 16
  oneBody : match token.type with
    | .negTokenInit => token.negTokenTarg = {}
    | .negTokenTarg => token.negTokenInit = {}

/-- The tokens that come back. -/
def ComesBack (token : SpnegoData) : Prop :=
  (tokenContent token).length < 2 ^ 24 ∧
    match token.type with
    | .negTokenInit =>
      token.negTokenInit.mechTypes ≠ some [] ∧
      (token.negTokenInit.reqFlags = 0 ∨
        token.negTokenInit.reqFlags &&& reqFlag ≠ 0 ∧
          token.negTokenInit.reqFlags.toNat < 0xFF800000) ∧
      token.negTokenInit.mechListMIC = none ∧ token.negTokenInit.targetPrincipal = none
    | .negTokenTarg => token.negTokenTarg.negResult ≠ noneResult

theorem sentMechTypes_eq_iff :
    sentMechTypes mechTypes = mechTypes ↔ mechTypes ≠ some [] := by
  match mechTypes with
  | none | some [] | some (oid :: oids) => simp [sentMechTypes]

theorem sentFlags_eq_iff (flags : UInt32) :
    sentFlags flags = flags ↔ flags = 0 ∨ flags &&& reqFlag ≠ 0 ∧ flags.toNat < 0xFF800000 := by
  unfold sentFlags
  by_cases hflag : flags &&& reqFlag = 0
  · simp only [hflag, ne_eq, not_true_eq_false, if_false, false_and, or_false]
    exact eq_comm
  · have hne : flags ≠ 0 := by
      rintro rfl
      exact hflag (by decide)
    simp only [ne_eq, hflag, not_false_eq_true, if_true, flags_round_trip hflag, hne, false_or,
      true_and]

theorem initRead_eq_iff (token : NegTokenInit) :
    initRead token = token ↔ token.mechTypes ≠ some [] ∧
      (token.reqFlags = 0 ∨ token.reqFlags &&& reqFlag ≠ 0 ∧ token.reqFlags.toNat < 0xFF800000) ∧
      token.mechListMIC = none ∧ token.targetPrincipal = none := by
  obtain ⟨mechTypes, reqFlags, mechToken, mechListMIC, targetPrincipal⟩ := token
  simp only [initRead, NegTokenInit.mk.injEq, sentMechTypes_eq_iff, sentFlags_eq_iff, true_and]
  rw [eq_comm (a := none) (b := mechListMIC), eq_comm (a := none) (b := targetPrincipal)]

theorem targRead_eq_iff (token : NegTokenTarg) :
    targRead token = token ↔ token.negResult ≠ noneResult := by
  obtain ⟨negResult, supportedMech, responseToken, mechListMIC⟩ := token
  simp only [targRead, NegTokenTarg.mk.injEq, and_true]
  by_cases h : negResult = noneResult
  · subst h
    decide
  · simp [h]

/-! ### negTokenInit -/

section Init

variable {token : SpnegoData}

theorem spnegoReadData_init :
    spnegoReadData (tlv (asn1Application 0) content) =
      match readNegTokenInit (asn1CheckOID ((asn1Load (tlv (asn1Application 0) content)).opened
        content.length) gensecOidSpnego).2 with
      | (none, _) => .fault
      | (some token, d) =>
        if (asn1EndTag d).2.hasError then .refused
        else .read { type := .negTokenInit, negTokenInit := token } := by
  have hpeek : asn1PeekUint8 (asn1Load (tlv (asn1Application 0) content)) =
      (some (asn1Application 0), asn1Load (tlv (asn1Application 0) content)) :=
    asn1PeekUint8_ahead (ahead_header content)
  rw [spnegoReadData, if_neg (by rw [length_tlv]; omega), hpeek]
  rcases hread : readNegTokenInit (asn1CheckOID ((asn1Load (tlv (asn1Application 0)
    content)).opened content.length) gensecOidSpnego).2 with ⟨_ | token, d⟩ <;>
  simp only [if_true, asn1StartTag_load, hread]

theorem asn1CheckOID_ahead {d : Asn1Data} {oid : String} {p : Bytes} (hoid : Readable oid)
    (h : d.Ahead (oidBytes oid ++ p)) (hlen : (oidBytes oid).length < 2 ^ 24) :
    asn1CheckOID d oid = (true, d.skip (oidBytes oid).length) := by
  rw [asn1CheckOID, asn1ReadOID_readable hoid h hlen]
  simp only [skip_hasError, h.noError, Bool.false_eq_true, if_false, ne_eq, not_true_eq_false]

/-- A negTokenInit that is read takes what its mechTypes were written with, and the length
of the outermost tag has that. -/
theorem mechSize_le_of_read {content : Bytes} {token' : SpnegoData}
    (h : spnegoReadData (tlv (asn1Application 0) content) = .read token') :
    mechSize token'.negTokenInit.mechTypes ≤ content.length % 2 ^ 24 := by
  rw [spnegoReadData_init] at h
  split at h
  · simp at h
  · rename_i token d' hread
    split at h
    · simp at h
    · rename_i hok
      obtain rfl := read.inj h
      have hpass := asn1CheckOID_passes.trans (readNegTokenInit_passes hread)
      rw [zero_add] at hpass
      exact length_read (ahead_header content) hpass (eq_false_of_ne_true hok)

theorem length_oidBytes_spnego : (oidBytes gensecOidSpnego).length = 8 := by decide

variable {token : NegTokenInit}

/-- The content of the outermost tag of a negTokenInit. -/
def initContent (token : NegTokenInit) : Bytes :=
  oidBytes gensecOidSpnego ++
    tlv (asn1Context 0) (tlv (asn1Sequence 0) (initFieldsBytes token))

theorem length_initContent_le (hblob : Short token.mechToken) (hmic : Short token.mechListMIC) :
    (initContent token).length < mechSize token.mechTypes + 2 ^ 19 := by
  have h₁ := length_tlv_le (asn1Sequence 0) (initFieldsBytes token)
  have h₂ := length_tlv_le (asn1Context 0) (tlv (asn1Sequence 0) (initFieldsBytes token))
  have h₃ := length_mechTypesBytes token.mechTypes
  have h₄ := length_reqFlagsBytes token.reqFlags
  have h₅ := length_octetsBytes (asn1Context 2) hblob
  have h₆ := length_initMechListMICBytes hmic
  simp only [initContent, length_append, length_oidBytes_spnego, initFieldsBytes, initFront]
    at h₁ h₂ ⊢
  omega

def behindOid (token : NegTokenInit) : Asn1Data :=
  ((asn1Load (tlv (asn1Application 0) (initContent token))).opened (initContent token).length).skip
    (oidBytes gensecOidSpnego).length

theorem asn1CheckOID_init (hlen : (initContent token).length < 2 ^ 24) :
    (asn1CheckOID ((asn1Load (tlv (asn1Application 0) (initContent token))).opened
      (initContent token).length) gensecOidSpnego).2 = behindOid token ∧
    (behindOid token).Ahead
      (tlv (asn1Context 0) (tlv (asn1Sequence 0) (initFieldsBytes token)) ++ []) := by
  have hopened : ((asn1Load (tlv (asn1Application 0) (initContent token))).opened
      (initContent token).length).Ahead (oidBytes gensecOidSpnego ++
        (tlv (asn1Context 0) (tlv (asn1Sequence 0) (initFieldsBytes token)) ++ [])) := by
    exact (asn1StartTag_ahead (ahead_load (asn1Application 0) hlen)).2
  rw [asn1CheckOID_ahead readable_gensecOidSpnego hopened (by rw [length_oidBytes_spnego]; decide)]
  exact ⟨rfl, hopened.skip⟩

theorem length_fields_of_initContent (hlen : (initContent token).length < 2 ^ 24) :
    (tlv (asn1Sequence 0) (initFieldsBytes token)).length < 2 ^ 24 := by
  rw [initContent, length_append, length_tlv] at hlen
  omega

theorem mechListMIC_eq_none_of_read (hoids : MechsReadable token.mechTypes)
    (hlen : (initContent token).length < 2 ^ 24) {token' : SpnegoData}
    (h : spnegoReadData (tlv (asn1Application 0) (initContent token)) = .read token') :
    token'.negTokenInit.mechListMIC = none := by
  obtain ⟨hcheck, hahead⟩ := asn1CheckOID_init hlen
  have hlen' := length_fields_of_initContent hlen
  have hsize := hlen'
  rw [length_tlv] at hsize
  have hfields : ∃ principal, (readNegTokenInit (behindOid token)).1 =
      some { initRead token with targetPrincipal := principal } := by
    obtain ⟨d₂, hstart, h₂, hin, hdata, -⟩ := nested_ahead hahead hlen'
    obtain ⟨hmic, hin, fuel, hread⟩ := readInitFields_front hoids h₂ hin (by omega) hdata
    simp only [readNegTokenInit, hstart, hread]
    cases hm : token.mechListMIC with
    | none =>
      rw [hm] at hin
      exact ⟨none, by rw [readInitFields, whileRemaining, hin.1, hin.remaining]; rfl⟩
    | some p =>
      rw [hm] at hin hmic
      refine readInitFields_mechListMIC hmic hin ?_
      rw [length_tlv, initFieldsBytes, length_append, hm] at hlen'
      exact lt_of_le_of_lt (by rw [initMechListMICBytes]; omega) hlen'
  obtain ⟨principal, hfields⟩ := hfields
  rw [spnegoReadData_init, hcheck] at h
  generalize readNegTokenInit (behindOid token) = read at hfields h
  obtain ⟨_, d⟩ := read
  obtain rfl := hfields
  simp only at h
  split at h
  · simp at h
  · obtain rfl := read.inj h
    rfl

theorem spnegoReadData_init_eq (hoids : MechsReadable token.mechTypes)
    (hlen : (initContent token).length < 2 ^ 24) (hmic : token.mechListMIC = none) :
    spnegoReadData (tlv (asn1Application 0) (initContent token)) =
      .read { type := .negTokenInit, negTokenInit := initRead token } := by
  obtain ⟨hcheck, hahead⟩ := asn1CheckOID_init hlen
  have hclose := asn1EndTag_opened (ahead_load (asn1Application 0) hlen) hlen
  have hskip : (behindOid token).skip
      (tlv (asn1Context 0) (tlv (asn1Sequence 0) (initFieldsBytes token))).length =
      ((asn1Load (tlv (asn1Application 0) (initContent token))).opened
        (initContent token).length).skip (initContent token).length := by
    rw [behindOid, skip_skip, ← length_append]
    rfl
  rw [spnegoReadData_init, hcheck, readNegTokenInit_ahead hoids hahead
    (length_fields_of_initContent hlen) hmic]
  simp only [hskip, hclose]
  rfl

theorem spnegoReadData_init_iff (hoids : MechsReadable token.mechTypes)
    (hblob : Short token.mechToken) (hmic : Short token.mechListMIC) :
    spnegoReadData (tlv (asn1Application 0) (initContent token)) =
      .read { type := .negTokenInit, negTokenInit := token } ↔
      (initContent token).length < 2 ^ 24 ∧ initRead token = token := by
  constructor
  · intro h
    have hlen : (initContent token).length < 2 ^ 24 := by
      have hbound := length_initContent_le hblob hmic
      have hsize := mechSize_le_of_read h
      simp only at hsize
      omega
    have hnone : token.mechListMIC = none := mechListMIC_eq_none_of_read hoids hlen h
    rw [spnegoReadData_init_eq hoids hlen hnone] at h
    have htoken := read.inj h
    exact ⟨hlen, congrArg SpnegoData.negTokenInit htoken⟩
  · rintro ⟨hlen, heq⟩
    have hnone : token.mechListMIC = none := ((initRead_eq_iff token).mp heq).2.2.1
    rw [spnegoReadData_init_eq hoids hlen hnone, heq]

end Init

/-! ### negTokenTarg -/

section Targ

theorem spnegoReadData_targ :
    spnegoReadData (tlv (asn1Context 1) content) =
      if (readNegTokenTarg (asn1Load (tlv (asn1Context 1) content))).2.hasError then .refused
      else .read { type := .negTokenTarg, negTokenTarg :=
        (readNegTokenTarg (asn1Load (tlv (asn1Context 1) content))).1.foldl .put {} } := by
  have hpeek : asn1PeekUint8 (asn1Load (tlv (asn1Context 1) content)) =
      (some (asn1Context 1), asn1Load (tlv (asn1Context 1) content)) :=
    asn1PeekUint8_ahead (ahead_header content)
  rw [spnegoReadData, if_neg (by rw [length_tlv]; omega), hpeek]
  simp only [show asn1Context 1 ≠ asn1Application 0 by decide, if_false, if_true]

theorem targMechSize_le_of_read {content : Bytes} {token : SpnegoData}
    (h : spnegoReadData (tlv (asn1Context 1) content) = .read token) :
    targMechSize token.negTokenTarg ≤ content.length % 2 ^ 24 := by
  rw [spnegoReadData_targ] at h
  split at h
  · simp at h
  · rename_i hok
    obtain rfl := read.inj h
    rw [Bool.not_eq_true, readNegTokenTarg, asn1StartTag_load] at hok
    rw [readNegTokenTarg, asn1StartTag_load]
    simp only at hok ⊢
    exact length_read (ahead_header content) (passes_tag (readTargFields_passes _)) hok

theorem length_supportedMechBytes (token : NegTokenTarg) :
    (supportedMechBytes token.supportedMech).length ≤ targMechSize token + 5 := by
  unfold targMechSize
  cases token.supportedMech with
  | none => simp [supportedMechBytes]
  | some oid =>
    exact length_tlv_le _ _

theorem length_targContent_le {token : NegTokenTarg}
    (hblob : Short token.responseToken) (hmic : Short token.mechListMIC) :
    (tlv (asn1Sequence 0) (targFieldsBytes token)).length < targMechSize token + 2 ^ 19 := by
  have h₁ := length_tlv_le (asn1Sequence 0) (targFieldsBytes token)
  have h₂ := length_supportedMechBytes token
  have h₃ := length_octetsBytes (asn1Context 2) hblob
  have h₄ := length_octetsBytes (asn1Context 3) hmic
  have h₅ : (negResultBytes token.negResult).length ≤ 5 := by
    unfold negResultBytes
    split <;> simp [tlv, popLength]
  simp only [targFieldsBytes, length_append] at h₁ ⊢
  omega

theorem spnegoReadData_targ_iff {token : NegTokenTarg}
    (hoid : ∀ oid, token.supportedMech = some oid → Readable oid)
    (hblob : Short token.responseToken) (hmic : Short token.mechListMIC) :
    spnegoReadData (tlv (asn1Context 1) (tlv (asn1Sequence 0) (targFieldsBytes token))) =
      .read { type := .negTokenTarg, negTokenTarg := token } ↔
      (tlv (asn1Sequence 0) (targFieldsBytes token)).length < 2 ^ 24 ∧ targRead token = token := by
  have heq : (tlv (asn1Sequence 0) (targFieldsBytes token)).length < 2 ^ 24 →
      spnegoReadData (tlv (asn1Context 1) (tlv (asn1Sequence 0) (targFieldsBytes token))) =
        .read { type := .negTokenTarg, negTokenTarg := targRead token } := by
    intro hlen
    rw [spnegoReadData_targ, readNegTokenTarg_ahead hoid (ahead_load (asn1Context 1) hlen) hlen,
      foldl_sentFields]
    rfl
  constructor
  · intro h
    have hlen : (tlv (asn1Sequence 0) (targFieldsBytes token)).length < 2 ^ 24 := by
      have hbound := length_targContent_le hblob hmic
      have hsize := targMechSize_le_of_read h
      simp only at hsize
      omega
    rw [heq hlen] at h
    exact ⟨hlen, congrArg SpnegoData.negTokenTarg (read.inj h)⟩
  · rintro ⟨hlen, hsame⟩
    rw [heq hlen, hsame]

end Targ

/-- **The SPNEGO round trip.** A token comes back exactly when nothing in it is lost on the way. -/
theorem spnego_round_trip (token : SpnegoData) (h : Encodable token) :
    (∃ bytes, spnegoWriteData token = some (some bytes) ∧ spnegoReadData bytes = .read token) ↔
      ComesBack token := by
  rw [spnegoWriteData_eq h.oids]
  simp only [some.injEq, exists_eq_left']
  obtain ⟨type, init, targ⟩ := token
  cases type with
  | negTokenInit =>
    obtain rfl : targ = {} := h.oneBody
    have hiff := spnegoReadData_init_iff h.oids.mechTypes h.mechToken h.initMechListMIC
    rwa [initRead_eq_iff] at hiff
  | negTokenTarg =>
    obtain rfl : init = {} := h.oneBody
    have hiff := spnegoReadData_targ_iff h.oids.supportedMech h.responseToken h.targMechListMIC
    rwa [targRead_eq_iff] at hiff

/-- The round trip of a token with two mechTypes, flags and a mechToken. -/
theorem spnego_round_trip_init : ∃ bytes, spnegoWriteData { negTokenInit :=
        { mechTypes := some [gensecOidSpnego, gensecOidSpnego], reqFlags := 0x80,
          mechToken := some [1, 2, 3] } } = some (some bytes) ∧
      spnegoReadData bytes = .read { negTokenInit :=
        { mechTypes := some [gensecOidSpnego, gensecOidSpnego], reqFlags := 0x80,
          mechToken := some [1, 2, 3] } } := by
  refine (spnego_round_trip _ ⟨⟨?_, ?_⟩, ?_, ?_, ?_, ?_, rfl⟩).mpr ⟨by decide, ?_⟩
  · rintro oids ⟨⟩ oid hoid
    obtain rfl : oid = gensecOidSpnego := by simpa using hoid
    exact readable_gensecOidSpnego
  · simp
  · rintro p ⟨⟩
    decide
  · simp
  · simp
  · simp
  · decide

/-- A negTokenTarg with `SPNEGO_NONE_RESULT` comes back with `SPNEGO_ACCEPT_COMPLETED`. -/
theorem none_result_lost :
    Encodable { type := .negTokenTarg, negTokenTarg := { negResult := noneResult } } ∧
      spnegoWriteData { type := .negTokenTarg, negTokenTarg := { negResult := noneResult } } =
        some (some [0xa1, 0x02, 0x30, 0x00]) ∧
      spnegoReadData [0xa1, 0x02, 0x30, 0x00] =
        .read { type := .negTokenTarg, negTokenTarg := { negResult := acceptCompleted } } ∧
      noneResult ≠ acceptCompleted := by
  refine ⟨⟨⟨?_, ?_⟩, ?_, ?_, ?_, ?_, rfl⟩, by decide, by decide, by decide⟩ <;>
    rintro p ⟨⟩

end OpenvasSmb.Spnego

import OpenvasSmb.Asn1.Write

/-!
# SPNEGO tokens (`auth/gensec/spnego.h`, `spnego_parse.c`)

`spnegoReadData` and `spnegoWriteData` with the two token bodies. A `DATA_BLOB` whose pointer is
tested by the writer, and a C string that may be NULL, is an `Option`.

The body of a negTokenTarg is a sequence of optional fields in any order, stored into a zeroed
structure. The model reads a list of `TargField`s and stores them with `NegTokenTarg.put`; the
list keeps whether a negResult was there at all (`explicitNegResult`), since an absent one leaves
the same 0 behind as `SPNEGO_ACCEPT_COMPLETED`.
-/

namespace OpenvasSmb.Spnego

open Asn1

variable (d : Asn1Data)

def gensecOidSpnego : String := "1 3 6 1 5 5 2"

/-! ## The structures -/

/-- `SPNEGO_ACCEPT_COMPLETED`. -/
def acceptCompleted : UInt8 := 0
/-- `SPNEGO_ACCEPT_INCOMPLETE`. -/
def acceptIncomplete : UInt8 := 1
/-- `SPNEGO_REJECT`. -/
def reject : UInt8 := 2
/-- `SPNEGO_NONE_RESULT`. -/
def noneResult : UInt8 := 3

/-- `SPNEGO_REQ_FLAG`. -/
def reqFlag : UInt32 := 0x80

/-- `struct spnego_negTokenInit`; `mechTypes` is the NULL-terminated array. -/
structure NegTokenInit where
  mechTypes : Option (List String) := none
  reqFlags : UInt32 := 0
  mechToken : Option Bytes := none
  mechListMIC : Option Bytes := none
  targetPrincipal : Option Bytes := none
  deriving DecidableEq

/-- `struct spnego_negTokenTarg`; the defaults are what `ZERO_STRUCTP` leaves. -/
structure NegTokenTarg where
  negResult : UInt8 := 0
  supportedMech : Option String := none
  responseToken : Option Bytes := none
  mechListMIC : Option Bytes := none
  deriving DecidableEq

/-- `enum spnego_message_type`. -/
inductive MessageType where
  | negTokenInit
  | negTokenTarg
  deriving DecidableEq

/-- `struct spnego_data`; the zero value of `type` is `SPNEGO_NEG_TOKEN_INIT`. -/
structure SpnegoData where
  type : MessageType := .negTokenInit
  negTokenInit : NegTokenInit := {}
  negTokenTarg : NegTokenTarg := {}
  deriving DecidableEq

/-- `spnego_free_data`: the blobs are released and the structure zeroed. -/
def spnegoFreeData (_ : SpnegoData) : SpnegoData := {}

/-! ## The loops of the readers -/

section Loops

variable {σ : Type}

/-- `while (!asn1->has_error && 0 < asn1_tag_remaining(asn1))`, over what has been read so far. -/
def whileRemaining (round : σ → Asn1Data → σ × Asn1Data) : Nat → σ → Asn1Data → σ × Asn1Data
  | 0, s, d => (s, d.fail)
  | fuel + 1, s, d =>
    if d.hasError then (s, d)
    else
      let (remaining, d) := asn1TagRemaining d
      if 0 < remaining then
        let (s, d) := round s d
        whileRemaining round fuel s d
      else (s, d)

/-- A round for the field whose tag comes next; without one it sets the error, and the loop ends. -/
def fieldRound (field : UInt8 → σ → Asn1Data → σ × Asn1Data) (s : σ) (d : Asn1Data) :
    σ × Asn1Data :=
  match asn1PeekUint8 d with
  | (none, d) => (s, d.fail)
  | (some context, d) => field context s d

end Loops

/-! ## negTokenTarg -/

/-- One field of a negTokenTarg body as read. -/
inductive TargField where
  | negResult (r : UInt8)
  | supportedMech (oid : String)
  | responseToken (blob : Option Bytes)
  | mechListMIC (blob : Option Bytes)

def TargField.negResult? : TargField → Option UInt8
  | .negResult r => some r
  | _ => none

/-- Store a field; a later one of the same kind replaces an earlier one. -/
def NegTokenTarg.put (token : NegTokenTarg) : TargField → NegTokenTarg
  | .negResult r => { token with negResult := r }
  | .supportedMech oid => { token with supportedMech := some oid }
  | .responseToken blob => { token with responseToken := blob }
  | .mechListMIC blob => { token with mechListMIC := blob }

/-- The `switch (context)` of `read_negTokenTarg`; nothing is stored only together with an error. -/
def readTargField (context : UInt8) (d : Asn1Data) : Option TargField × Asn1Data :=
  if context = asn1Context 0 then
    let d := (asn1StartTag d (asn1Context 0)).2
    let d := (asn1StartTag d asn1Enumerated).2
    let (r, d) := asn1ReadUint8 d
    (r.map .negResult, (asn1EndTag (asn1EndTag d).2).2)
  else if context = asn1Context 1 then
    let (oid, d) := asn1ReadOID (asn1StartTag d (asn1Context 1)).2
    (oid.map .supportedMech, (asn1EndTag d).2)
  else if context = asn1Context 2 then
    let (blob, d) := asn1ReadOctetString (asn1StartTag d (asn1Context 2)).2
    (some (.responseToken blob), (asn1EndTag d).2)
  else if context = asn1Context 3 then
    let (blob, d) := asn1ReadOctetString (asn1StartTag d (asn1Context 3)).2
    (some (.mechListMIC blob), (asn1EndTag d).2)
  else (none, d.fail)

/-- The field loop of `read_negTokenTarg`. -/
def readTargFields : Nat → List TargField → Asn1Data → List TargField × Asn1Data :=
  whileRemaining (fieldRound fun context fields d =>
    let (field, d) := readTargField context d
    (fields ++ field.toList, d))

/-- `read_negTokenTarg`: the fields in the order read. -/
def readNegTokenTarg : List TargField × Asn1Data :=
  let d := (asn1StartTag d (asn1Context 1)).2
  let d := (asn1StartTag d (asn1Sequence 0)).2
  let (fields, d) := readTargFields (d.data.length + 1) [] d
  (fields, (asn1EndTag (asn1EndTag d).2).2)

/-! ## negTokenInit -/

/-- The mechTypes loop of `read_negTokenInit`. When no OID can be started the slot is left as
`talloc_realloc` handed it out, and is then tested: `none`. -/
def readMechTypes : Nat → Option (List String) → Asn1Data → Option (List String) × Asn1Data :=
  whileRemaining fun oids d =>
    let (oid, d) := asn1ReadOID d
    (oids.bind fun oids => oid.map fun oid => oids ++ [oid], d)

variable (d : Asn1Data)

/-- The second form of the mechListMIC: its two tags are opened with `asn1_push_tag`, which
writes into the buffer. -/
def readPrincipal : Option Bytes × Asn1Data :=
  let (principal, d) :=
    asn1ReadGeneralString (asn1PushTag (asn1PushTag d (asn1Sequence 0)) (asn1Context 0))
  (principal, asn1PopTag (asn1PopTag d))

/-- mechListMIC of `read_negTokenInit`. -/
def readInitMechListMIC (token : NegTokenInit) (d : Asn1Data) : NegTokenInit × Asn1Data :=
  let d := (asn1StartTag d (asn1Context 3)).2
  match asn1PeekUint8 d with
  | (none, d) => (token, d.fail)
  | (some typePeek, d) =>
    if typePeek = asn1OctetString then
      let (blob, d) := asn1ReadOctetString d
      ({ token with mechListMIC := blob }, (asn1EndTag d).2)
    else
      let (principal, d) := readPrincipal d
      ({ token with targetPrincipal := principal }, (asn1EndTag d).2)

/-- The `switch (context)` of `read_negTokenInit`. -/
def readInitField (context : UInt8) (token : NegTokenInit) (d : Asn1Data) :
    Option NegTokenInit × Asn1Data :=
  if context = asn1Context 0 then
    let d := (asn1StartTag d (asn1Context 0)).2
    let d := (asn1StartTag d (asn1Sequence 0)).2
    let (mechTypes, d) := readMechTypes (d.data.length + 1) (some []) d
    (mechTypes.map fun m => { token with mechTypes := some m },
      (asn1EndTag (asn1EndTag d).2).2)
  else if context = asn1Context 1 then
    let (flags, d) := asn1ReadInteger (asn1StartTag d (asn1Context 1)).2
    (some { token with reqFlags := UInt32.ofNat (flags % 2 ^ 32).toNat ||| reqFlag },
      (asn1EndTag d).2)
  else if context = asn1Context 2 then
    let (blob, d) := asn1ReadOctetString (asn1StartTag d (asn1Context 2)).2
    (some { token with mechToken := blob }, (asn1EndTag d).2)
  else if context = asn1Context 3 then
    let (token, d) := readInitMechListMIC token d
    (some token, d)
  else (some token, d.fail)

/-- The field loop of `read_negTokenInit`. -/
def readInitFields : Nat → Option NegTokenInit → Asn1Data → Option NegTokenInit × Asn1Data :=
  whileRemaining (fieldRound fun context token d =>
    match token with
    | none => (none, d)
    | some token => readInitField context token d)

/-- `read_negTokenInit`; `none` as in `readMechTypes`. -/
def readNegTokenInit : Option NegTokenInit × Asn1Data :=
  let d := (asn1StartTag d (asn1Context 0)).2
  let d := (asn1StartTag d (asn1Sequence 0)).2
  let (token, d) := readInitFields (d.data.length + 1) (some {}) d
  (token, (asn1EndTag (asn1EndTag d).2).2)

/-! ## Whole tokens -/

/-- What `spnego_read_data` does with a blob. -/
inductive ReadResult where
  /-- An uninitialised pointer was followed. -/
  | fault
  /-- The result -1. -/
  | refused
  | read (token : SpnegoData)
  deriving DecidableEq

def spnegoReadData (blob : Bytes) : ReadResult :=
  if blob.length = 0 then .refused
  else
    match asn1PeekUint8 (asn1Load blob) with
    | (none, _) => .refused
    | (some context, d) =>
      if context = asn1Application 0 then
        let d := (asn1StartTag d (asn1Application 0)).2
        let d := (asn1CheckOID d gensecOidSpnego).2
        match readNegTokenInit d with
        | (none, _) => .fault
        | (some token, d) =>
          let d := (asn1EndTag d).2
          if d.hasError then .refused
          else .read { type := .negTokenInit, negTokenInit := token }
      else if context = asn1Context 1 then
        let (fields, d) := readNegTokenTarg d
        if d.hasError then .refused
        else .read { type := .negTokenTarg, negTokenTarg := fields.foldl NegTokenTarg.put {} }
      else .refused

/-- The negResult a negTokenTarg blob carries on the wire, if any: the value of
the last such field. -/
def explicitNegResult (blob : Bytes) : Option UInt8 :=
  ((readNegTokenTarg (asn1Load blob)).1.filterMap TargField.negResult?).getLast?

/-- The negResult a list of fields leaves in a token. -/
private theorem foldl_put_negResult (fields : List TargField) :
    ∀ token : NegTokenTarg, (fields.foldl NegTokenTarg.put token).negResult =
      (fields.filterMap TargField.negResult?).getLast?.getD token.negResult := by
  induction fields with
  | nil => intro token; rfl
  | cons field rest ih =>
    intro token
    rw [List.foldl_cons, ih]
    cases field with
    | negResult r =>
      rw [List.filterMap_cons_some (by rfl), List.getLast?_cons]
      rfl
    | supportedMech oid => rfl
    | responseToken blob => rfl
    | mechListMIC blob => rfl

/-- A negTokenTarg carries the negResult of the structure, or none at all and
the structure has 0. -/
theorem negResult_eq_explicit {blob : Bytes} {token : SpnegoData}
    (hread : spnegoReadData blob = .read token) (htype : token.type = .negTokenTarg) :
    token.negTokenTarg.negResult = (explicitNegResult blob).getD 0 := by
  unfold spnegoReadData at hread
  split at hread
  · simp at hread
  · split at hread
    · simp at hread
    · rename_i context d hpeek
      have hd := asn1PeekUint8_some hpeek
      subst hd
      split at hread
      · -- a negTokenInit has the other type
        simp only at hread
        split at hread
        · simp at hread
        · split at hread
          · simp at hread
          · injection hread with htok
            subst htok
            simp at htype
      · split at hread
        · simp only at hread
          split at hread
          · simp at hread
          · injection hread with htok
            subst htok
            exact foldl_put_negResult _ _
        · simp at hread

/-- The mechTypes part of `write_negTokenInit`. -/
def writeMechTypes : Option (List String) → Option Asn1Data
  | some (oid :: oids) =>
    ((oid :: oids).foldlM asn1WriteOID
      (asn1PushTag (asn1PushTag d (asn1Context 0)) (asn1Sequence 0))).map
        fun d => asn1PopTag (asn1PopTag d)
  | _ => some d

/-- The reqFlags part of `write_negTokenInit`. -/
def writeReqFlags (flags : UInt32) : Asn1Data :=
  if flags &&& reqFlag ≠ 0 then
    asn1PopTag (asn1WriteInteger (asn1PushTag d (asn1Context 1))
      (Int.bmod (flags &&& ~~~reqFlag).toNat (2 ^ 32)))
  else d

/-- A blob that is there is written as an octet string in a context tag. -/
def writeOctets (tag : UInt8) (d : Asn1Data) : Option Bytes → Asn1Data
  | some p => asn1PopTag (asn1WriteOctetString (asn1PushTag d tag) p)
  | none => d

/-- The mechListMIC part of `write_negTokenInit`. -/
def writeInitMechListMIC : Option Bytes → Asn1Data
  | some p =>
    let d := asn1PushTag d (asn1Context 3)
    let d := asn1PushTag (asn1PushTag d (asn1Sequence 0)) (asn1Context 0)
    let d := asn1Write (asn1PushTag d asn1GeneralString) p
    asn1PopTag (asn1PopTag (asn1PopTag (asn1PopTag d)))
  | none => d

def writeNegTokenInit (token : NegTokenInit) : Option Asn1Data := do
  let d := asn1PushTag (asn1PushTag d (asn1Context 0)) (asn1Sequence 0)
  let d ← writeMechTypes d token.mechTypes
  let d := writeReqFlags d token.reqFlags
  let d := writeOctets (asn1Context 2) d token.mechToken
  let d := writeInitMechListMIC d token.mechListMIC
  pure (asn1PopTag (asn1PopTag d))

/-- The negResult part of `write_negTokenTarg`. -/
def writeNegResult (r : UInt8) : Asn1Data :=
  if r ≠ noneResult then asn1PopTag (asn1WriteEnumerated (asn1PushTag d (asn1Context 0)) r) else d

/-- The supportedMech part of `write_negTokenTarg`. -/
def writeSupportedMech : Option String → Option Asn1Data
  | some oid => (asn1WriteOID (asn1PushTag d (asn1Context 1)) oid).map asn1PopTag
  | none => some d

def writeNegTokenTarg (token : NegTokenTarg) : Option Asn1Data := do
  let d := asn1PushTag (asn1PushTag d (asn1Context 1)) (asn1Sequence 0)
  let d := writeNegResult d token.negResult
  let d ← writeSupportedMech d token.supportedMech
  let d := writeOctets (asn1Context 2) d token.responseToken
  let d := writeOctets (asn1Context 3) d token.mechListMIC
  pure (asn1PopTag (asn1PopTag d))

/-- `spnego_write_data`: `none` when it does not return, `some none` for the
result -1, else the blob. -/
def spnegoWriteData (token : SpnegoData) : Option (Option Bytes) := do
  let d := asn1Load []
  let d ← match token.type with
    | .negTokenInit => do
        let d ← asn1WriteOID (asn1PushTag d (asn1Application 0)) gensecOidSpnego
        let d ← writeNegTokenInit d token.negTokenInit
        pure (asn1PopTag d)
    | .negTokenTarg => writeNegTokenTarg d token.negTokenTarg
  pure (if d.hasError then none else some d.data)

end OpenvasSmb.Spnego

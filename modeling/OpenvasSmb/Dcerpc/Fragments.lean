import OpenvasSmb.Dcerpc.Frame

/-!
# The fragments of a request

What `ncacn_push_request_sign` makes of a request packet and what the loop of
`dcerpc_ship_next_request` hands to it: how long a packet is on the wire, which
flags it carries, and that every fragment was pushed under the security state the
loop started with, up to padding and credentials.
-/

namespace OpenvasSmb.Dcerpc

open Kit List

variable {W : Type} {blob : Bytes} {M : Mechanism W} {pkt : RequestPacket} {sec : SecurityState}
  {w : W}

/-! ## Flags -/

theorem fragmentFlags_orpc (flags : UInt8) (first last : Bool) :
    fragmentFlags flags first last &&& pfcFlagOrpc = flags &&& pfcFlagOrpc := by
  revert flags
  cases first <;> cases last <;> exact forall_byte (by decide +kernel)

theorem fragmentFlags_first (flags : UInt8) (first last : Bool) :
    fragmentFlags flags first last &&& pfcFlagFirst ≠ 0 ↔ first = true := by
  revert flags
  cases first <;> cases last <;> exact forall_byte (by decide +kernel)

theorem fragmentFlags_last (flags : UInt8) (first last : Bool) :
    fragmentFlags flags first last &&& pfcFlagLast ≠ 0 ↔ last = true := by
  revert flags
  cases first <;> cases last <;> exact forall_byte (by decide +kernel)

/-! ## The length of a packet -/

@[simp] theorem length_header (pkt : RequestPacket) (fragLength authLength : Nat) :
    (pkt.header fragLength authLength).length = 24 := by
  simp [RequestPacket.header]

theorem length_objectBytes (pkt : RequestPacket) :
    pkt.objectBytes.length = 0 ∨ pkt.objectBytes.length = 16 := by
  unfold RequestPacket.objectBytes
  split_ifs
  · exact .inl rfl
  · cases pkt.object with
    | none => exact .inl rfl
    | some guid => exact .inr guid.length_bytes

@[simp] theorem length_ndrPushNcacnPacket (pkt : RequestPacket) (authLength : Nat) :
    (ndrPushNcacnPacket pkt authLength).length =
      24 + pkt.objectBytes.length + pkt.stub.length := by
  simp only [ndrPushNcacnPacket, length_append, length_header]

theorem length_overwrite {new : Bytes} {offset : Nat} (h : offset + new.length ≤ blob.length) :
    (overwrite blob offset new).length = blob.length := by
  simp only [overwrite, length_append, length_take, length_drop]
  omega

theorem length_dcerpcSetFragLength (h : 24 ≤ blob.length) (v : Nat) :
    (dcerpcSetFragLength blob v).length = blob.length :=
  length_overwrite (by rw [length_toLe]; omega)

theorem length_dcerpcSetAuthLength (h : 24 ≤ blob.length) (v : Nat) :
    (dcerpcSetAuthLength blob v).length = blob.length :=
  length_overwrite (by rw [length_toLe]; omega)

theorem length_inPlace (old new : Bytes) : (inPlace old new).length = old.length := by
  simp only [inPlace, length_append, length_take, length_drop]
  omega

theorem length_ndrPushDcerpcAuth (blob : Bytes) (auth : DcerpcAuth) :
    (ndrPushDcerpcAuth blob auth).length =
      blob.length + (4 - blob.length % 4) % 4 + (8 + auth.credentials.length) := by
  simp only [ndrPushDcerpcAuth, alignment, length_append, length_replicate, length_toLe,
    length_cons, length_nil]
  omega

@[simp] theorem length_paddedPacket (pkt : RequestPacket) :
    (paddedPacket pkt).length =
      24 + pkt.objectBytes.length + (pkt.stub.length + authPadding pkt.stub) := by
  simp only [paddedPacket, length_append, length_ndrPushNcacnPacket, length_replicate]
  omega

/-- The padded packet ends where a trailer may start. -/
theorem length_withVerifier (pkt : RequestPacket) (auth : DcerpcAuth) :
    (withVerifier (paddedPacket pkt) auth).length =
      24 + pkt.objectBytes.length + (pkt.stub.length + authPadding pkt.stub) +
        (8 + auth.credentials.length) := by
  have hpushed := length_ndrPushDcerpcAuth (paddedPacket pkt) auth
  rw [length_paddedPacket] at hpushed
  have hlong : 24 ≤ (ndrPushDcerpcAuth (paddedPacket pkt) auth).length := by omega
  have haligned : (4 - (24 + pkt.objectBytes.length +
      (pkt.stub.length + authPadding pkt.stub)) % 4) % 4 = 0 := by
    have hobject := length_objectBytes pkt
    unfold authPadding
    omega
  simp only [withVerifier]
  rw [length_dcerpcSetAuthLength, length_dcerpcSetFragLength hlong, hpushed, haligned]
  · rfl
  · rwa [length_dcerpcSetFragLength hlong]

theorem length_replaceSignature {blank : Nat} (creds : Bytes) (h : 24 + blank ≤ blob.length) :
    (replaceSignature blob blank creds).length = blob.length - blank + creds.length := by
  have hcut : (blob.take (blob.length - blank) ++ creds).length =
      blob.length - blank + creds.length := by
    rw [length_append, length_take]
    omega
  have hset : (dcerpcSetAuthLength (blob.take (blob.length - blank) ++ creds)
      creds.length).length = blob.length - blank + creds.length := by
    rw [length_dcerpcSetAuthLength (by omega), hcut]
  simp only [replaceSignature]
  split_ifs
  · rw [length_dcerpcSetFragLength (by omega), hset]
  · exact hset

/-- A chunk of the stub on the wire, with the padding the security state asks
for. -/
def SecurityState.paddedLength (sec : SecurityState) (chunk : Nat) : Nat :=
  match sec.active, sec.authInfo with
  | some _, _ => chunk + (16 - chunk % 16) % 16
  | none, some _ => chunk + (4 - chunk % 4) % 4
  | none, none => chunk

def verifierLength : Option DcerpcAuth → Nat
  | none => 0
  | some auth => 8 + auth.credentials.length

theorem length_update {data : Bytes} {span : Span} (h : span.start + span.size ≤ blob.length) :
    (span.update blob data).length = blob.length := by
  have hslice : (inPlace (span.slice blob) data).length = span.size := by
    rw [length_inPlace, Span.slice, length_take, length_drop]
    omega
  exact length_overwrite (by rw [hslice]; exact h)

/-- **The length of a request packet on the wire.** Header, GUID, chunk with
padding, verifier. -/
theorem ncacnPushRequestSign_length {signed : SignedPacket}
    (h : (ncacnPushRequestSign M sec w pkt).1 = .ok signed) :
    signed.blob.length = 24 + pkt.objectBytes.length + sec.paddedLength pkt.stub.length +
      verifierLength signed.trailer := by
  unfold ncacnPushRequestSign at h
  cases hactive : sec.active with
  | none =>
    simp only [hactive, Except.ok.injEq] at h
    subst h
    have hobject := length_objectBytes pkt
    cases hauth : sec.authInfo with
    | none =>
      simp only [ncacnPushAuth, SecurityState.paddedLength, verifierLength, hactive, hauth]
      have hlong : 24 ≤ (ndrPushNcacnPacket pkt 0).length := by
        rw [length_ndrPushNcacnPacket]
        omega
      rw [length_dcerpcSetFragLength hlong, length_ndrPushNcacnPacket]
      rfl
    | some auth =>
      have hpushed := length_ndrPushDcerpcAuth
        (ndrPushNcacnPacket pkt auth.credentials.length) auth
      rw [length_ndrPushNcacnPacket] at hpushed
      simp only [ncacnPushAuth, SecurityState.paddedLength, verifierLength, hactive, hauth]
      rw [length_dcerpcSetFragLength (by omega)]
      omega
  | some auth =>
    have hpadded : sec.paddedLength pkt.stub.length = pkt.stub.length + authPadding pkt.stub := by
      simp [SecurityState.paddedLength, hactive, authPadding]
    have hblob := length_withVerifier pkt
      (auth.forPacket pkt (replicate (M.sigSize (payloadSpan pkt).size w) 0))
    simp only [DcerpcAuth.forPacket, length_replicate] at hblob
    simp only [hactive] at h
    rw [hpadded]
    split_ifs at h
    -- sealed: the payload is rewritten in place, then the signature replaced
    · obtain rfl := Except.ok.inj h
      simp only [DcerpcAuth.forPacket, length_replicate, verifierLength]
      have hinside : (payloadSpan pkt).start + (payloadSpan pkt).size ≤
          24 + pkt.objectBytes.length + (pkt.stub.length + authPadding pkt.stub) := by
        simp only [payloadSpan, dcerpcRequestLength]
        omega
      rw [length_replaceSignature, length_update]
      · omega
      · omega
      · rw [length_update]
        · omega
        · omega
    -- signed: only the signature is replaced
    · obtain rfl := Except.ok.inj h
      simp only [DcerpcAuth.forPacket, length_replicate, verifierLength]
      rw [length_replaceSignature _ (by rw [hblob]; omega)]
      omega
    all_goals
      obtain rfl := Except.ok.inj h
      exact length_withVerifier pkt _

/-! ## Where a fragment comes from -/

/-- The security state up to what a push leaves in it. -/
structure Kept (sec sec' : SecurityState) : Prop where
  key : sec'.key = sec.key
  inactive : sec.active = none → sec' = sec

theorem Kept.refl (sec : SecurityState) : Kept sec sec := ⟨rfl, fun _ => rfl⟩

theorem Kept.trans {sec₁ sec₂ sec₃ : SecurityState} (h₁ : Kept sec₁ sec₂) (h₂ : Kept sec₂ sec₃) :
    Kept sec₁ sec₃ := by
  refine ⟨h₂.key.trans h₁.key, ?_⟩
  intro hactive
  have heq := h₁.inactive hactive
  rw [← heq] at hactive ⊢
  exact h₂.inactive hactive

theorem ncacnPushRequestSign_kept (M : Mechanism W) (sec : SecurityState) (w : W)
    (pkt : RequestPacket) : Kept sec (ncacnPushRequestSign M sec w pkt).2.1 := by
  refine ⟨ncacnPushRequestSign_key M sec w pkt, ?_⟩
  intro hactive
  simp [ncacnPushRequestSign, hactive]

/-- A fragment of the packet `pkt`: at most `limit` bytes of the stub, pushed under
the security state `sec`. -/
structure FragmentOf (M : Mechanism W) (sec : SecurityState) (pkt : RequestPacket) (limit : Nat)
    (fragment : Fragment) : Prop where
  callId : fragment.pkt.callId = pkt.callId
  orpc : fragment.pkt.pfcFlags &&& pfcFlagOrpc = pkt.pfcFlags &&& pfcFlagOrpc
  object : fragment.pkt.object = pkt.object
  length_le : fragment.pkt.stub.length ≤ limit
  pushed : ∃ sec' w, Kept sec sec' ∧
    (ncacnPushRequestSign M sec' w fragment.pkt).1 = .ok fragment.signed

theorem FragmentOf.objectBytes {limit : Nat} {fragment : Fragment}
    (h : FragmentOf M sec pkt limit fragment) : fragment.pkt.objectBytes = pkt.objectBytes := by
  rw [RequestPacket.objectBytes, RequestPacket.objectBytes, h.orpc, h.object]

/-- Every fragment the loop sends is a fragment of the packet it started with. -/
theorem sendFragments_fragmentOf (M : Mechanism W) (size total : Nat) :
    ∀ fuel pkt sec w remaining,
      ∀ fragment ∈ (sendFragments M size total fuel pkt sec w remaining).1,
        FragmentOf M sec pkt (min size remaining.length) fragment := by
  intro fuel
  induction fuel with
  | zero => intro pkt sec w remaining fragment h; exact absurd h (by simp [sendFragments])
  | succ fuel ih =>
    intro pkt sec w remaining fragment h
    have hkept := ncacnPushRequestSign_kept M sec w
      (pkt.fragment total (min size remaining.length) remaining)
    unfold sendFragments at h
    simp only at h
    split at h
    · simp at h
    · rename_i signed sec' w' hpush
      have hfirst : ∀ last, FragmentOf M sec pkt (min size remaining.length)
          ⟨pkt.fragment total (min size remaining.length) remaining, signed, last⟩ := by
        intro last
        refine ⟨rfl, fragmentFlags_orpc _ _ _, rfl, ?_, sec, w, .refl sec, ?_⟩
        · exact length_take_le _ _
        · exact congrArg Prod.fst hpush
      rw [hpush] at hkept
      split_ifs at h
      iterate 2
        rw [mem_singleton.mp h]
        exact hfirst _
      · rcases mem_cons.mp h with rfl | h
        · exact hfirst _
        -- a later round works on a packet that differs in flags and stub only
        · obtain ⟨hid, horpc, hobject, hlength, sec₂, w₂, hkept₂, hpushed⟩ :=
            ih _ _ _ _ fragment h
          refine ⟨hid, horpc.trans (fragmentFlags_orpc _ _ _), hobject, ?_, sec₂, w₂,
            hkept.trans hkept₂, hpushed⟩
          rw [length_drop] at hlength
          omega

/-! ## How the loop ends -/

/-- With a chunk size the loop ends: there are at most as many rounds as bytes, and
one for an empty stub. -/
theorem sendFragments_ends (M : Mechanism W) {size : Nat} (total : Nat) :
    ∀ fuel pkt sec w remaining, remaining.length < fuel → (0 < size ∨ remaining = []) →
      (sendFragments M size total fuel pkt sec w remaining).2.1 ≠ .endless := by
  intro fuel
  induction fuel with
  | zero => intro pkt sec w remaining hfuel; exact absurd hfuel (Nat.not_lt_zero _)
  | succ fuel ih =>
    intro pkt sec w remaining hfuel hsize
    unfold sendFragments
    simp only
    split
    · simp
    · split_ifs with _ hlast
      · simp
      · simp
      · have hne : min size remaining.length ≠ remaining.length := by simpa using hlast
        have hpos : 0 < size := by
          rcases hsize with hpos | rfl
          · exact hpos
          · simp at hne
        refine ih _ _ _ _ ?_ (.inl hpos)
        rw [length_drop]
        omega

/-! ## Failures -/

theorem ncacnPushRequestSign_error {sec' : SecurityState} {w' : W} {status : NtStatus}
    (h : ncacnPushRequestSign M sec w pkt = (.error status, sec', w')) : status ≠ .ok := by
  have hbad : ∀ {st : NtStatus}, ¬ st.isOk = true → st ≠ .ok :=
    fun hst heq => hst ((NtStatus.isOk_iff _).mpr heq)
  have hlevel : NtStatus.invalidLevel ≠ .ok := by decide
  unfold ncacnPushRequestSign at h
  split at h
  · exact absurd (congrArg Prod.fst h) (by simp)
  · simp only at h
    split_ifs at h with hseal hok hsign hok hconnect hnone
    all_goals have herror := congrArg Prod.fst h
    all_goals simp only [reduceCtorEq, Except.error.injEq] at herror
    · exact herror ▸ hbad hok
    · exact herror ▸ hbad hok
    · exact herror ▸ hlevel

/-- A request that could not be sent carries an error. -/
theorem sendFragments_failed {chunkSize total fuel : Nat} {sec' : SecurityState} {w' : W}
    {remaining : Bytes} {fragments : List Fragment} {status : NtStatus}
    (h : sendFragments M chunkSize total fuel pkt sec w remaining =
      (fragments, .failed status, sec', w')) : status ≠ .ok := by
  induction fuel generalizing pkt sec sec' w w' remaining fragments with
  | zero => exact absurd (congrArg (·.2.1) h) (by simp [sendFragments])
  | succ fuel ih =>
    unfold sendFragments at h
    simp only at h
    split at h
    · rename_i hpush
      have hstatus := congrArg (·.2.1) h
      simp only [Shipped.failed.injEq] at hstatus
      exact hstatus ▸ ncacnPushRequestSign_error hpush
    · split_ifs at h with hfailed hlast
      · have hstatus := congrArg (·.2.1) h
        simp only [Shipped.failed.injEq] at hstatus
        rintro rfl
        rw [hstatus] at hfailed
        simp at hfailed
      · exact absurd (congrArg (·.2.1) h) (by simp)
      · rename_i signed sec₁ w₁ hpush
        rcases hrest : sendFragments M chunkSize total fuel
          (pkt.fragment total (min chunkSize remaining.length) remaining) sec₁
          (M.sendRequest w₁).2 (remaining.drop (min chunkSize remaining.length))
          with ⟨fragments', shipped, sec₂, w₂⟩
        rw [hrest] at h
        have hshipped := congrArg (·.2.1) h
        subst hshipped
        exact ih hrest

end OpenvasSmb.Dcerpc

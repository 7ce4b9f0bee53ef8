import OpenvasSmb.Dcerpc.Fragments

/-!
# Request packets on the wire

Three facts about the fragments `dcerpc_ship_next_request` makes of a request.

The range that is sealed at PRIVACY starts right after the fixed header, so with an object GUID it
covers the GUID and leaves the last 16 bytes of the padded stub in clear. The chunk size is a
32-bit difference that may be zero or wrap, and does not count the padding, so a fragment may be
longer than the server accepts, or the loop may not end. With a chunk size, and if all sends
succeed, the fragments are a faithful division of the stub.
-/

namespace OpenvasSmb.Dcerpc

open Kit List Option SecurityState RequestPacket

variable {W : Type} {M : Mechanism W} {maxRecvFrag size total : Nat} {pkt : RequestPacket}
  {sec sec' : SecurityState} {signed : SignedPacket} {w : W}

/-! ## What is sealed -/

/-- The position belongs to the stub or its padding: it comes after header and
GUID, and before the trailer. -/
def RequestPacket.InPayload (pkt : RequestPacket) (i : Nat) : Prop :=
  (pkt.header 0 0).length + pkt.objectBytes.length ≤ i ∧
    i < (pkt.header 0 0).length + pkt.objectBytes.length +
      (pkt.stub.length + authPadding pkt.stub)

/-- The mechanism was handed exactly the stub and its padding. -/
def SealsPayload (fragment : Fragment) : Prop :=
  ∃ span, fragment.signed.handed = some span ∧
    ∀ i, (span.start ≤ i ∧ i < span.start + span.size) ↔ fragment.pkt.InPayload i

theorem ncacnPushRequestSign_handed {auth : DcerpcAuth} (hactive : sec.active = some auth)
    (hlevel : auth.authLevel = levelPrivacy)
    (h : (ncacnPushRequestSign M sec w pkt).1 = .ok signed) :
    signed.handed = some (payloadSpan pkt) := by
  simp only [ncacnPushRequestSign, hactive, hlevel, if_true] at h
  split_ifs at h
  obtain rfl := Except.ok.inj h
  rfl

/-- The range that is handed over starts with the stub iff there is no GUID, or
nothing to seal. -/
theorem payloadSpan_exact_iff (pkt : RequestPacket) :
    (∀ i, ((payloadSpan pkt).start ≤ i ∧ i < (payloadSpan pkt).start + (payloadSpan pkt).size) ↔
      pkt.InPayload i) ↔ pkt.objectBytes = [] ∨ pkt.stub = [] := by
  simp only [payloadSpan, RequestPacket.InPayload, length_header, dcerpcRequestLength,
    ← length_eq_zero_iff]
  have hpadding : authPadding pkt.stub < 16 ∧
      (pkt.stub.length = 0 → authPadding pkt.stub = 0) := by
    unfold authPadding
    omega
  constructor
  · intro h
    have h₂₄ := h 24
    omega
  · intro h i
    omega

theorem packet_objectBytes (req : RpcRequest) :
    req.packet.objectBytes.length = if req.call.object.isSome then 16 else 0 := by
  have horpc : pfcFlagOrpc ≠ 0 := by decide
  unfold objectBytes RpcRequest.packet
  cases req.call.object with
  | none => simp
  | some guid => simp [horpc, guid.length_bytes]

/-- **Sealing and the object GUID.** At PRIVACY level every fragment has exactly its stub and
padding sealed iff the request has no object GUID or the fragment carries no stub byte. -/
theorem sealed_range_exact_iff (M : Mechanism W) (rounds maxRecvFrag : Nat) (req : RpcRequest)
    (sec : SecurityState) (w : W) {auth : DcerpcAuth} (hactive : sec.active = some auth)
    (hlevel : auth.authLevel = levelPrivacy) :
    ∀ fragment ∈ (shipRequest M rounds maxRecvFrag req sec w).1,
      (SealsPayload fragment ↔ req.call.object = none ∨ fragment.pkt.stub = []) := by
  intro fragment hfragment
  have hof := sendFragments_fragmentOf M _ _ _ _ _ _ _ fragment hfragment
  obtain ⟨sec', w', hkept, hpushed⟩ := hof.pushed
  -- the level is still the one the loop started with
  have hkey : sec'.key = (some auth.key, true) := by
    rw [hkept.key, key, authInfo_of_active hactive]
    unfold active at hactive
    split_ifs at hactive with hgeneric
    simp [hgeneric]
  obtain ⟨auth', hactive', hauth'⟩ := active_key hkey
  have hlevel' : auth'.authLevel = levelPrivacy := (congrArg (·.2.1) hauth').trans hlevel
  have hhanded := ncacnPushRequestSign_handed hactive' hlevel' hpushed
  have hobject : fragment.pkt.objectBytes = [] ↔ req.call.object = none := by
    rw [hof.objectBytes, ← length_eq_zero_iff, packet_objectBytes]
    cases req.call.object <;> simp
  rw [← hobject, ← payloadSpan_exact_iff]
  constructor
  · rintro ⟨span, hspan, h⟩
    rw [hhanded, some.injEq] at hspan
    rwa [hspan]
  · intro h
    exact ⟨_, hhanded, h⟩

/-- A mechanism that complements what it seals, with signatures of 16 bytes. -/
def complementMechanism : Mechanism Unit where
  update _ _ := (.ok, [], ())
  sigSize _ _ := 16
  sealPacket data _ _ := (.ok, data.map (~~~ ·), List.replicate 16 9, ())
  signPacket _ _ _ := (.ok, List.replicate 16 9, ())
  unsealPacket data _ _ := (.ok, data.map (~~~ ·), ())
  checkPacket _ _ _ := (.ok, ())
  sendRequest _ := (.ok, ())

/-- A connection authenticated at the level given. -/
def securityAt (level : UInt8) : SecurityState := ⟨some ⟨10, level, 0, 0, 5, []⟩, true⟩

/-- A GUID of sixteen equal bytes. -/
def guidOf (b : UInt8) : Guid := ⟨List.replicate 16 b, List.length_replicate⟩

/-- A request with the GUID and the stub given. -/
def requestOf (object : Option Guid) (stub : Bytes) : RpcRequest :=
  ⟨7, .request, true, ⟨object, 0, 3, stub⟩, []⟩

theorem sealed_range_exact_without_guid :
    ∃ fragment ∈ (shipRequest complementMechanism 0 5840 (requestOf none [1, 2, 3])
        (securityAt levelPrivacy) ()).1, SealsPayload fragment := by
  refine ⟨_, mem_cons_self, ?_⟩
  refine (sealed_range_exact_iff complementMechanism 0 5840 (requestOf none [1, 2, 3])
    (securityAt levelPrivacy) () rfl rfl _ mem_cons_self).mpr (.inl rfl)

/-- A DCOM request: what is sealed is the GUID `aa … aa`, and the stub `1, 2, 3` goes
out in clear. -/
theorem sealed_range_covers_guid :
    (shipRequest complementMechanism 0 5840 (requestOf (some (guidOf 0xaa)) [1, 2, 3])
        (securityAt levelPrivacy) ()).1.map (fun f => (f.signed.handed, f.signed.blob)) =
      [(some ⟨24, 16⟩, [5, 0, 0, 0x83, 0x10, 0, 0, 0, 80, 0, 16, 0, 7, 0, 0, 0, 3, 0, 0, 0, 0, 0,
        3, 0] ++ List.replicate 16 0x55 ++ ([1, 2, 3] ++ List.replicate 13 0) ++
        [10, 6, 13, 0, 5, 0, 0, 0] ++ List.replicate 16 9)] ∧
    ¬ ∀ fragment ∈ (shipRequest complementMechanism 0 5840
        (requestOf (some (guidOf 0xaa)) [1, 2, 3]) (securityAt levelPrivacy) ()).1,
      SealsPayload fragment := by
  refine ⟨by decide, ?_⟩
  intro h
  obtain ⟨span, hspan, hexact⟩ := h _ mem_cons_self
  obtain rfl : span = ⟨24, 16⟩ := (some.inj hspan).symm
  have h₂₄ := (hexact 24).mp (by decide)
  exact absurd h₂₄.1 (by decide)

/-! ## How long a fragment is -/

/-- The mechanism's signatures have at most 16 bytes. -/
def ShortSignatures (M : Mechanism W) : Prop :=
  ∀ data pdu w, (M.sealPacket data pdu w).2.2.1.length ≤ 16 ∧
    (M.signPacket data pdu w).2.1.length ≤ 16

/-- The request failed, or its fragments are all out and none is longer than the
server accepts. -/
def FailsOrFits (maxRecvFrag : Nat) (r : List Fragment × Shipped × SecurityState × W) : Prop :=
  (∃ status, r.2.1 = .failed status) ∨
    (r.2.1 = .sent ∧ ∀ fragment ∈ r.1, fragment.signed.blob.length ≤ maxRecvFrag)

/-- The levels `ncacn_push_request_sign` knows. -/
def knownLevel (level : UInt8) : Prop :=
  level = levelPrivacy ∨ level = levelIntegrity ∨ level = levelConnect ∨ level = levelNone

/-- The level of an authenticated connection is one `ncacn_push_request_sign`
knows. -/
def SecurityState.KnownLevel (sec : SecurityState) : Prop :=
  ∀ auth, sec.active = some auth → knownLevel auth.authLevel

/-- The longest verifier: 16 bytes of credentials but for level NONE, or what
`auth_info` holds if there is no mechanism. -/
def SecurityState.verifierRoom (sec : SecurityState) : Nat :=
  match sec.active with
  | some auth => 8 + if auth.authLevel = levelNone then 0 else 16
  | none => verifierLength sec.authInfo

/-- What the code sets aside in a fragment, and the header that is really sent. -/
def reserved (object : Bool) : Nat := 56 + if object then 16 else 0

/-- The stub bytes of the first fragment: as many as fit, and all of them if the
server accepts less than what is set aside. -/
def firstChunk (maxRecvFrag : Nat) (object : Bool) (length : Nat) : Nat :=
  if maxRecvFrag < reserved object then length else min length (maxRecvFrag - reserved object)

/-- The condition on the level, the GUID, the length of the stub and the size the
server announced. -/
def FirstFragmentFits (sec : SecurityState) (object : Bool) (maxRecvFrag length : Nat) : Prop :=
  sec.KnownLevel →
    (length = 0 ∨ maxRecvFrag ≠ reserved object) ∧
      24 + (if object then 16 else 0) + sec.paddedLength (firstChunk maxRecvFrag object length) +
        sec.verifierRoom ≤ maxRecvFrag

theorem paddedLength_mono (sec : SecurityState) {a b : Nat} (h : a ≤ b) :
    sec.paddedLength a ≤ sec.paddedLength b := by
  unfold paddedLength
  split <;> omega

theorem le_paddedLength (sec : SecurityState) (a : Nat) : a ≤ sec.paddedLength a := by
  unfold paddedLength
  split <;> omega

theorem Kept.level (h : Kept sec sec') :
    sec'.active.map (·.authLevel) = sec.active.map (·.authLevel) := by
  have hgeneric : sec'.genericState = sec.genericState := congrArg (·.2) h.key
  have hinfo := congrArg (·.1.map fun k => k.2.1) h.key
  simp only [SecurityState.key, Option.map_map] at hinfo
  unfold SecurityState.active
  rw [hgeneric]
  split_ifs
  · exact hinfo
  · rfl

theorem Kept.isSome (h : Kept sec sec') :
    sec'.active.isSome = sec.active.isSome ∧ sec'.authInfo.isSome = sec.authInfo.isSome :=
  ⟨by simpa using congrArg Option.isSome h.level,
    by simpa [SecurityState.key] using congrArg (·.1.isSome) h.key⟩

theorem Kept.paddedLength (h : Kept sec sec') (chunk : Nat) :
    sec'.paddedLength chunk = sec.paddedLength chunk := by
  obtain ⟨hactive, hinfo⟩ := h.isSome
  unfold SecurityState.paddedLength
  cases h₁ : sec.active <;> cases h₂ : sec'.active <;> cases h₃ : sec.authInfo <;>
    cases h₄ : sec'.authInfo <;> simp_all

theorem Kept.verifierRoom (h : Kept sec sec') : sec'.verifierRoom = sec.verifierRoom := by
  cases hactive : sec.active with
  | none => rw [h.inactive hactive]
  | some auth =>
    have hlevel := h.level
    rw [hactive] at hlevel
    obtain ⟨auth', hactive', hlevel'⟩ := map_eq_some_iff.mp hlevel
    simp [SecurityState.verifierRoom, hactive, hactive', hlevel']

theorem ncacnPushRequestSign_verifier (hM : ShortSignatures M)
    (h : (ncacnPushRequestSign M sec w pkt).1 = .ok signed) :
    verifierLength signed.trailer ≤ sec.verifierRoom := by
  unfold ncacnPushRequestSign at h
  cases hactive : sec.active with
  | none =>
    simp only [hactive] at h
    obtain rfl := Except.ok.inj h
    simp [verifierRoom, hactive]
  | some auth =>
    simp only [hactive] at h
    simp only [verifierRoom, hactive]
    split_ifs at h with hprivacy _ hintegrity _ hconnect hnone
    all_goals obtain rfl := Except.ok.inj h
    · rw [hprivacy]
      exact Nat.add_le_add_left (hM _ _ _).1 8
    · rw [hintegrity]
      exact Nat.add_le_add_left (hM _ _ _).2 8
    · rw [hconnect]
      exact Nat.le_refl _
    · exact Nat.le_add_right _ _

theorem FragmentOf.length_blob_le (hM : ShortSignatures M) {limit : Nat} {fragment : Fragment}
    (h : FragmentOf M sec pkt limit fragment) :
    fragment.signed.blob.length ≤
      24 + pkt.objectBytes.length + sec.paddedLength limit + sec.verifierRoom := by
  obtain ⟨sec', w, hkept, hpushed⟩ := h.pushed
  have hlength := ncacnPushRequestSign_length hpushed
  have hverifier := ncacnPushRequestSign_verifier hM hpushed
  have hpadded := paddedLength_mono sec h.length_le
  rw [h.objectBytes, hkept.paddedLength] at hlength
  rw [hkept.verifierRoom] at hverifier
  omega

theorem chunkSize_eq (h : maxRecvFrag < 2 ^ 16) (object : Bool) :
    chunkSize maxRecvFrag object =
      if maxRecvFrag < reserved object then 2 ^ 32 + maxRecvFrag - reserved object
      else maxRecvFrag - reserved object := by
  unfold chunkSize reserved dcerpcMaxSignSize dcerpcRequestLength
  cases object <;> simp only [Bool.false_eq_true, if_false, if_true] <;> split_ifs <;> omega

/-- The first chunk of the code is the one the condition speaks of, or both are far
too long. -/
theorem min_chunkSize (h : maxRecvFrag < 2 ^ 16) (object : Bool) (length : Nat) :
    min (chunkSize maxRecvFrag object) length = firstChunk maxRecvFrag object length ∨
      (maxRecvFrag < reserved object ∧ 2 ^ 31 ≤ min (chunkSize maxRecvFrag object) length ∧
        min (chunkSize maxRecvFrag object) length ≤ firstChunk maxRecvFrag object length) := by
  have hreserved : reserved object ≤ 72 := by unfold reserved; split_ifs <;> omega
  rw [chunkSize_eq h]
  unfold firstChunk
  split_ifs <;> omega

/-- At a level the code does not know, the first push fails. -/
theorem sendFragments_unknown {fuel : Nat} {remaining : Bytes} (h : ¬ sec.KnownLevel) :
    (sendFragments M size total (fuel + 1) pkt sec w remaining).2.1 = .failed .invalidLevel := by
  simp only [SecurityState.KnownLevel, knownLevel, not_forall, not_or] at h
  obtain ⟨auth, hactive, hprivacy, hintegrity, hconnect, hnone⟩ := h
  simp [sendFragments, ncacnPushRequestSign, hactive, hprivacy, hintegrity, hconnect, hnone]

theorem failsOrFits_of_fits (hM : ShortSignatures M) {rounds : Nat} (hmax : maxRecvFrag < 2 ^ 16)
    {req : RpcRequest} (w : W)
    (h : FirstFragmentFits sec req.call.object.isSome maxRecvFrag req.call.stub.length) :
    FailsOrFits maxRecvFrag (shipRequest M rounds maxRecvFrag req sec w) := by
  by_cases hknown : sec.KnownLevel
  swap
  · left
    refine ⟨.invalidLevel, ?_⟩
    rw [shipRequest, show req.call.stub.length + 1 + rounds =
      req.call.stub.length + rounds + 1 by omega]
    exact sendFragments_unknown hknown
  obtain ⟨hsize, hfits⟩ := h hknown
  have hends : (shipRequest M rounds maxRecvFrag req sec w).2.1 ≠ .endless := by
    refine sendFragments_ends M _ _ _ _ _ _ (by omega) ?_
    rcases hsize with hempty | hsize
    · exact .inr (length_eq_zero_iff.mp hempty)
    · left
      rw [chunkSize_eq hmax]
      have hreserved : reserved req.call.object.isSome ≤ 72 := by
        unfold reserved; split_ifs <;> omega
      split_ifs <;> omega
  cases hshipped : (shipRequest M rounds maxRecvFrag req sec w).2.1 with
  | failed status => exact .inl ⟨status, hshipped⟩
  | endless => exact absurd hshipped hends
  | sent =>
    refine .inr ⟨hshipped, ?_⟩
    intro fragment hfragment
    have hlength := (sendFragments_fragmentOf M _ _ _ _ _ _ _ fragment hfragment).length_blob_le hM
    have hmono := paddedLength_mono sec (a := min
      (chunkSize maxRecvFrag req.call.object.isSome) req.call.stub.length)
      (b := firstChunk maxRecvFrag req.call.object.isSome req.call.stub.length) (by
        rcases min_chunkSize hmax req.call.object.isSome req.call.stub.length with h | h
        · exact Nat.le_of_eq h
        · exact h.2.2)
    rw [packet_objectBytes] at hlength
    omega

/-- The complementing mechanism protects every packet, with a verifier that takes all the room. -/
theorem complementMechanism_push (hknown : sec.KnownLevel) (pkt : RequestPacket) :
    ∃ signed sec', ncacnPushRequestSign complementMechanism sec () pkt = (.ok signed, sec', ()) ∧
      verifierLength signed.trailer = sec.verifierRoom := by
  unfold ncacnPushRequestSign
  cases hactive : sec.active with
  | none => exact ⟨_, _, rfl, by simp [verifierRoom, hactive]⟩
  | some auth =>
    have hi : levelIntegrity ≠ levelPrivacy := by decide
    have hc : levelConnect ≠ levelPrivacy ∧ levelConnect ≠ levelIntegrity := by decide
    have hn : levelNone ≠ levelPrivacy ∧ levelNone ≠ levelIntegrity ∧
      levelNone ≠ levelConnect := by decide
    have hok : NtStatus.ok.isOk = true := rfl
    simp only [verifierRoom, hactive, complementMechanism, hok, if_true]
    rcases hknown auth hactive with h | h | h | h
    · exact ⟨_, _, by rw [if_pos h], by simp [h, hn.1.symm, verifierLength, DcerpcAuth.forPacket]⟩
    · exact ⟨_, _, by rw [h, if_neg hi, if_pos rfl],
        by simp [h, hn.2.1.symm, verifierLength, DcerpcAuth.forPacket]⟩
    · exact ⟨_, _, by rw [h, if_neg hc.1, if_neg hc.2, if_pos rfl],
        by simp [h, hn.2.2.symm, verifierLength, DcerpcAuth.forPacket, dcerpcConnectVerifier]⟩
    · exact ⟨_, _, by rw [h, if_neg hn.1, if_neg hn.2.1, if_neg hn.2.2, if_pos rfl],
        by simp [h, verifierLength, DcerpcAuth.forPacket]⟩

theorem Kept.knownLevel (h : Kept sec sec') (hknown : sec.KnownLevel) : sec'.KnownLevel := by
  intro auth' hactive'
  have hlevel := h.level
  rw [hactive'] at hlevel
  obtain ⟨auth, hactive, hlevel⟩ := map_eq_some_iff.mp hlevel.symm
  have heq : auth.authLevel = auth'.authLevel := hlevel
  rw [← heq]
  exact hknown auth hactive

theorem complementMechanism_round (size total fuel : Nat) (hknown : sec.KnownLevel)
    (pkt : RequestPacket) (remaining : Bytes) :
    ∃ fragment sec', Kept sec sec' ∧
      fragment.signed.blob.length = 24 + pkt.objectBytes.length +
        sec.paddedLength (min size remaining.length) + sec.verifierRoom ∧
      sendFragments complementMechanism size total (fuel + 1) pkt sec () remaining =
        if min size remaining.length = remaining.length then ([fragment], .sent, sec', ())
        else
          let r := sendFragments complementMechanism size total fuel fragment.pkt sec' ()
            (remaining.drop (min size remaining.length))
          (fragment :: r.1, r.2) := by
  obtain ⟨signed, sec', hpush, hverifier⟩ := complementMechanism_push hknown
    (pkt.fragment total (min size remaining.length) remaining)
  have hkept := ncacnPushRequestSign_kept complementMechanism sec ()
    (pkt.fragment total (min size remaining.length) remaining)
  have hlength := ncacnPushRequestSign_length (congrArg Prod.fst hpush)
  rw [hpush] at hkept
  refine ⟨⟨pkt.fragment total (min size remaining.length) remaining, signed,
    min size remaining.length == remaining.length⟩, sec', hkept, ?_, ?_⟩
  · rw [hlength, hverifier]
    have hobject : (pkt.fragment total (min size remaining.length) remaining).objectBytes =
        pkt.objectBytes := by
      simp [objectBytes, fragment, fragmentFlags_orpc]
    have hstub : (pkt.fragment total (min size remaining.length) remaining).stub.length =
        min size remaining.length := by
      simp [fragment]
    rw [hobject, hstub]
  · have hsend : complementMechanism.sendRequest () = (.ok, ()) := rfl
    simp [sendFragments, hpush, hsend]

theorem complementMechanism_not_failed (status : NtStatus) :
    ∀ fuel pkt sec remaining, sec.KnownLevel →
      (sendFragments complementMechanism size total fuel pkt sec () remaining).2.1 ≠
        .failed status := by
  intro fuel
  induction fuel with
  | zero => intro pkt sec remaining _; simp [sendFragments]
  | succ fuel ih =>
    intro pkt sec remaining hknown
    obtain ⟨fragment, sec', hkept, -, hround⟩ :=
      complementMechanism_round _ _ _ hknown pkt remaining
    rw [hround]
    split_ifs
    · simp
    · exact ih _ _ _ (hkept.knownLevel hknown)

/-- Chunks of no bytes: the loop goes on for as long as it is watched. -/
theorem complementMechanism_endless :
    ∀ fuel pkt sec remaining, sec.KnownLevel → remaining ≠ [] →
      (sendFragments complementMechanism 0 total fuel pkt sec () remaining).2.1 = .endless := by
  intro fuel
  induction fuel with
  | zero => intro pkt sec remaining _ _; rfl
  | succ fuel ih =>
    intro pkt sec remaining hknown hne
    obtain ⟨fragment, sec', hkept, -, hround⟩ :=
      complementMechanism_round _ _ _ hknown pkt remaining
    rw [hround]
    have hlength : 0 ≠ remaining.length := fun h => hne (length_eq_zero_iff.mp h.symm)
    simp only [Nat.zero_min, hlength, if_false, drop_zero]
    exact ih _ _ _ (hkept.knownLevel hknown) hne

/-- **Fragments and the size the server announced.** Shipping fails or sends finitely many fragments
that are not too long, whatever the mechanism (with signatures of at most 16 bytes) and the
transport do, iff the first fragment fits and the chunk size is not zero. -/
theorem fragments_within_max_recv_frag_iff (maxRecvFrag : UInt16) (sec : SecurityState)
    (req : RpcRequest) :
    (∀ (W : Type) (M : Mechanism W) (w : W), ShortSignatures M → ∃ rounds,
      FailsOrFits maxRecvFrag.toNat (shipRequest M rounds maxRecvFrag.toNat req sec w)) ↔
    FirstFragmentFits sec req.call.object.isSome maxRecvFrag.toNat req.call.stub.length := by
  have hmax : maxRecvFrag.toNat < 2 ^ 16 := maxRecvFrag.toNat_lt
  constructor
  · intro h hknown
    have hM : ShortSignatures complementMechanism := fun _ _ _ => ⟨Nat.le_refl 16, Nat.le_refl 16⟩
    obtain ⟨rounds, h⟩ := h Unit complementMechanism () hM
    -- the complementing mechanism never fails, so all fragments are out and fit
    rcases h with ⟨status, h⟩ | ⟨hsent, hfits⟩
    · exact absurd h (complementMechanism_not_failed status _ _ _ _ hknown)
    refine ⟨?_, ?_⟩
    · by_contra hzero
      rw [not_or, not_not] at hzero
      have hsize : chunkSize maxRecvFrag.toNat req.call.object.isSome = 0 := by
        rw [chunkSize_eq hmax, hzero.2]
        simp
      rw [shipRequest, hsize, complementMechanism_endless _ _ _ _ hknown
        (fun h => hzero.1 (by rw [h]; rfl))] at hsent
      exact Shipped.noConfusion hsent
    · obtain ⟨fragment, sec', -, hlength, hround⟩ := complementMechanism_round
        (chunkSize maxRecvFrag.toNat req.call.object.isSome) req.call.stub.length
        (req.call.stub.length + rounds) hknown req.packet req.call.stub
      have hmem : fragment ∈ (shipRequest complementMechanism rounds maxRecvFrag.toNat req sec
          ()).1 := by
        rw [shipRequest, show req.call.stub.length + 1 + rounds =
          req.call.stub.length + rounds + 1 by omega, hround]
        split_ifs <;> exact mem_cons_self
      have hfirst := hfits fragment hmem
      rw [hlength, packet_objectBytes] at hfirst
      rcases min_chunkSize hmax req.call.object.isSome req.call.stub.length with heq | hlong
      · rwa [heq] at hfirst
      · have hle := le_paddedLength sec (min (chunkSize maxRecvFrag.toNat
          req.call.object.isSome) req.call.stub.length)
        omega
  · intro h W M w hM
    exact ⟨0, failsOrFits_of_fits hM hmax w h⟩

/-- With 56 the chunk size is zero and a request is never finished; with 20 it wraps and the packet
has 25 bytes; with 73 padding makes the sealed packet 80 bytes long. -/
theorem fragments_exceed_max_recv_frag :
    (∀ rounds, (shipRequest complementMechanism rounds 56 (requestOf none [1]) ⟨none, false⟩
      ()).2.1 = .endless) ∧
    (∀ rounds, ¬ FailsOrFits 56 (shipRequest complementMechanism rounds 56 (requestOf none [1])
      ⟨none, false⟩ ())) ∧
    (shipRequest complementMechanism 0 20 (requestOf none [1]) ⟨none, false⟩ ()).1.map
      (fun f => f.signed.blob.length) = [25] ∧
    (shipRequest complementMechanism 0 73 (requestOf none (List.replicate 17 1))
      (securityAt levelPrivacy) ()).1.map (fun f => f.signed.blob.length) = [80] := by
  have hknown : (⟨none, false⟩ : SecurityState).KnownLevel := by
    intro auth h
    exact absurd h (by simp [active])
  have hendless : ∀ rounds, (shipRequest complementMechanism rounds 56 (requestOf none [1])
      ⟨none, false⟩ ()).2.1 = .endless := by
    intro rounds
    have hsize : chunkSize 56 (requestOf none [1]).call.object.isSome = 0 := by decide
    exact complementMechanism_endless _ _ _ _ hknown (by decide)
  refine ⟨hendless, ?_, by decide +kernel, by decide +kernel⟩
  rintro rounds (⟨status, h⟩ | ⟨h, -⟩) <;> simp [hendless] at h

/-! ## What the fragments carry -/

def RequestPacket.Has (pkt : RequestPacket) (flag : UInt8) : Prop := pkt.pfcFlags &&& flag ≠ 0

/-- The fragments of a request, in the order in which they are sent. -/
structure Divides (req : RpcRequest) (fragments : List Fragment) : Prop where
  callId : ∀ fragment ∈ fragments, fragment.pkt.callId = req.callId
  stub : (fragments.map (·.pkt.stub)).flatten = req.call.stub
  first : ∀ i fragment, fragments[i]? = some fragment → (fragment.pkt.Has pfcFlagFirst ↔ i = 0)
  last : ∀ i fragment, fragments[i]? = some fragment →
    (fragment.pkt.Has pfcFlagLast ↔ i + 1 = fragments.length)
  orpc : ∀ fragment ∈ fragments, (fragment.pkt.Has pfcFlagOrpc ↔ req.call.object.isSome = true)
  read : ∀ i fragment, fragments[i]? = some fragment →
    (fragment.triggerRead = true ↔ i + 1 = fragments.length)
  nonempty : fragments ≠ []

/-- What the loop sends from some point on: the bytes that remain, the FIRST flag only if none is
gone, the LAST flag and the read with the last fragment. -/
structure Tail (total : Nat) (remaining : Bytes) (fragments : List Fragment) : Prop where
  stub : (fragments.map (·.pkt.stub)).flatten = remaining
  first : ∀ i fragment, fragments[i]? = some fragment →
    (fragment.pkt.Has pfcFlagFirst ↔ i = 0 ∧ remaining.length = total)
  last : ∀ i fragment, fragments[i]? = some fragment →
    (fragment.pkt.Has pfcFlagLast ↔ i + 1 = fragments.length)
  read : ∀ i fragment, fragments[i]? = some fragment →
    (fragment.triggerRead = true ↔ i + 1 = fragments.length)
  nonempty : fragments ≠ []

theorem Tail.last_round (total : Nat) (pkt : RequestPacket) (signed : SignedPacket)
    (remaining : Bytes) :
    Tail total remaining [⟨pkt.fragment total remaining.length remaining, signed, true⟩] := by
  have hzero : ∀ {i : Nat} {a b : Fragment}, [a][i]? = some b → i = 0 ∧ a = b := by
    intro i a b h
    cases i with
    | zero => exact ⟨rfl, some.inj h⟩
    | succ i => simp at h
  refine ⟨?_, ?_, ?_, ?_, by simp⟩
  · simp [fragment]
  · intro i fragment h
    obtain ⟨rfl, rfl⟩ := hzero h
    simp only [RequestPacket.Has, fragment, fragmentFlags_first, beq_iff_eq, true_and]
  · intro i fragment h
    obtain ⟨rfl, rfl⟩ := hzero h
    simp only [RequestPacket.Has, fragment, fragmentFlags_last, beq_self_eq_true,
      length_singleton]
  · intro i fragment h
    obtain ⟨rfl, rfl⟩ := hzero h
    simp

/-- A round before the last one: some bytes go out, and fewer remain. -/
theorem Tail.cons_round {chunk : Nat} {remaining : Bytes} {rest : List Fragment}
    (hchunk : 0 < chunk) (hmore : chunk < remaining.length) (htotal : remaining.length ≤ total)
    (h : Tail total (remaining.drop chunk) rest) :
    Tail total remaining
      (⟨pkt.fragment total chunk remaining, signed, false⟩ :: rest) := by
  have hrest : 0 < rest.length := length_pos_iff.mpr h.nonempty
  refine ⟨?_, ?_, ?_, ?_, by simp⟩
  · rw [map_cons, flatten_cons, h.stub]
    exact take_append_drop chunk remaining
  · intro i fragment hi
    cases i with
    | zero =>
      obtain rfl := some.inj hi
      simp only [RequestPacket.Has, fragment, fragmentFlags_first, beq_iff_eq,
        true_and]
    | succ i =>
      rw [h.first i fragment hi, length_drop]
      omega
  · intro i fragment hi
    cases i with
    | zero =>
      obtain rfl := some.inj hi
      have hne : (chunk == remaining.length) = false := beq_false_of_ne (by omega)
      simp only [RequestPacket.Has, fragment, fragmentFlags_last, hne,
        length_cons, Bool.false_eq_true, false_iff]
      omega
    | succ i =>
      rw [h.last i fragment hi, length_cons]
      omega
  · intro i fragment hi
    cases i with
    | zero =>
      obtain rfl := some.inj hi
      simp only [length_cons, Bool.false_eq_true, false_iff]
      omega
    | succ i =>
      rw [h.read i fragment hi, length_cons]
      omega

theorem sendFragments_tail (hsize : 0 < size) :
    ∀ fuel pkt sec w remaining, remaining.length ≤ total →
      (sendFragments M size total fuel pkt sec w remaining).2.1 = .sent →
      Tail total remaining (sendFragments M size total fuel pkt sec w remaining).1 := by
  intro fuel
  induction fuel with
  | zero => intro pkt sec w remaining _ h; exact absurd h (by simp [sendFragments])
  | succ fuel ih =>
    intro pkt sec w remaining htotal h
    unfold sendFragments at h ⊢
    simp only at h ⊢
    split at h
    · simp at h
    · -- a failed send contradicts the outcome
      split_ifs at h ⊢ with hsend hlast
      · have heq : min size remaining.length = remaining.length := by simpa using hlast
        rw [hlast, heq]
        exact .last_round total pkt _ remaining
      · have hne : min size remaining.length ≠ remaining.length := by simpa using hlast
        have hfalse : (min size remaining.length == remaining.length) = false := by
          simpa using hlast
        rw [hfalse]
        refine .cons_round (by omega) (by omega) htotal (ih _ _ _ _ ?_ h)
        rw [length_drop]
        omega

/-- **Fragmentation.** For every stub and every chunk size greater than zero: if no push and no send
fails, the loop ends, and the fragments carry the call id, divide the stub in order, have the FIRST
and LAST flags exactly on the first and the last, the ORPC flag on all or none, and trigger one
read. -/
theorem fragments_divide_stub (M : Mechanism W) {size : Nat} (hsize : 0 < size) (rounds : Nat)
    (req : RpcRequest) (sec : SecurityState) (w : W)
    (hsends : ∀ status, (sendFragments M size req.call.stub.length
      (req.call.stub.length + 1 + rounds) req.packet sec w req.call.stub).2.1 ≠ .failed status) :
    (sendFragments M size req.call.stub.length (req.call.stub.length + 1 + rounds) req.packet
      sec w req.call.stub).2.1 = .sent ∧
    Divides req (sendFragments M size req.call.stub.length (req.call.stub.length + 1 + rounds)
      req.packet sec w req.call.stub).1 := by
  have hends := sendFragments_ends M req.call.stub.length (req.call.stub.length + 1 + rounds)
    req.packet sec w req.call.stub (by omega) (.inl hsize)
  have hof := sendFragments_fragmentOf M size req.call.stub.length
    (req.call.stub.length + 1 + rounds) req.packet sec w req.call.stub
  have htail := sendFragments_tail (M := M) hsize (req.call.stub.length + 1 + rounds) req.packet sec
    w req.call.stub (Nat.le_refl _)
  generalize sendFragments M size req.call.stub.length (req.call.stub.length + 1 + rounds) req.packet
    sec w req.call.stub = r at *
  have hsent : r.2.1 = .sent := by
    cases hshipped : r.2.1 with
    | sent => rfl
    | failed status => exact absurd hshipped (hsends status)
    | endless => exact absurd hshipped hends
  replace htail := htail hsent
  refine ⟨hsent, fun f hf => (hof f hf).callId, htail.stub, ?_, htail.last, ?_, htail.read,
    htail.nonempty⟩
  · intro i fragment hi
    rw [htail.first i fragment hi]
    simp
  · intro fragment hfragment
    rw [RequestPacket.Has, (hof fragment hfragment).orpc]
    unfold RpcRequest.packet
    cases req.call.object <;> simp [pfcFlagOrpc]

/-- Two full chunks of four bytes. -/
theorem fragments_divide_stub_of_eight :
    Divides (requestOf none [1, 2, 3, 4, 5, 6, 7, 8])
      (sendFragments complementMechanism 4 8 9 (requestOf none [1, 2, 3, 4, 5, 6, 7, 8]).packet
        (securityAt levelIntegrity) () [1, 2, 3, 4, 5, 6, 7, 8]).1 := by
  have hknown : (securityAt levelIntegrity).KnownLevel := by
    intro auth h
    obtain rfl : _ = auth := some.inj h
    exact .inr (.inl rfl)
  exact (fragments_divide_stub complementMechanism (by decide) 0 _ _ () fun status =>
    complementMechanism_not_failed status _ _ _ _ hknown).2

end OpenvasSmb.Dcerpc

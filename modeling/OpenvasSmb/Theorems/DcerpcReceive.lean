import OpenvasSmb.Dcerpc.Receive
import OpenvasSmb.Theorems.DcerpcPayload

/-!
# Packets that cannot be parsed

The connection is marked dead and no request is left for the packet, so nothing is
dispatched. Getting there is not safe, though: the byte order is read from the fifth
byte of a blob that may be shorter, and on an authenticated connection the verifier of
a truncated response is looked for through a pointer that was never set.
-/

namespace OpenvasSmb.Dcerpc

open Kit List PacketHeader Option

variable {W : Type} {blob : Bytes} {M : Mechanism W} {header : PacketHeader} {G : PayloadPull}
  {w : W}

/-- Whatever the stack held: no read leaves the blob, and one that cannot be parsed only kills the
connection. -/
def RejectsUnparsed (M : Mechanism W) (rounds : Nat) (G : PayloadPull) (conn : Connection) (w : W)
    (blob : Bytes) : Prop :=
  ∀ unset, ∃ r, dcerpcRecvData M rounds G unset blob .ok conn w = some r ∧
    ∀ status header, ncacnPull G blob unset.header = some (.failed status header) →
      r = ((dcerpcConnectionDead status conn).1, (dcerpcConnectionDead status conn).2, w)

/-- The blob has the byte that is read first; and a response that ends before its stub comes without
security, or at level CONNECT with an authentication length of zero. -/
def SafeToParse (sec : SecurityState) (blob : Bytes) : Prop :=
  5 ≤ blob.length ∧
    ∀ auth, sec.active = some auth → blob.length < 23 → blob[2]? = some pktResponse →
      auth.authLevel = levelConnect ∧ 12 ≤ blob.length ∧ blob[10]? = some 0 ∧ blob[11]? = some 0

/-! ## A dead connection -/

theorem dcerpcConnectionDead_pending (status : NtStatus) (conn : Connection) :
    (dcerpcConnectionDead status conn).2.pending = [] := by
  refine dcerpcConnectionDead_induction (R := fun _ c c' => c'.pending = c.pending) status conn
    (fun _ => rfl) ?_
  intro log c₁ c₂ req h
  rw [← h]
  unfold failRequest
  split <;> rfl

theorem dcerpcRequestRecvData_unmatched (rounds : Nat) {pkt : NcacnPacket} {conn : Connection}
    (hpending : conn.pending = []) (hcheck : (verifyResponse M pkt conn.security w).1.check = none)
    (hw : (verifyResponse M pkt conn.security w).2 = w) :
    dcerpcRequestRecvData M rounds pkt conn w = ([], conn, w) := by
  unfold dcerpcRequestRecvData
  simp [hpending, hcheck, hw]

/-- Unless the verifier is read, the mechanism is not asked. -/
theorem verifyResponse_unparsed {sec : SecurityState} {stubLength : Nat}
    (h : readsUnsetStub sec header stubLength = false) :
    (verifyResponse M (header.unparsed stubLength) sec w).1.check = none ∧
      (verifyResponse M (header.unparsed stubLength) sec w).2 = w := by
  unfold verifyResponse unparsed
  cases hactive : sec.active with
  | none => split_ifs <;> exact ⟨rfl, rfl⟩
  | some auth =>
    by_cases hresponse : header.ptype = pktResponse
    swap
    · simp [hresponse]
    simp only [hresponse, if_true]
    simp only [readsUnsetStub, hactive, hresponse, beq_self_eq_true, Bool.true_and,
      Bool.and_eq_false_iff, Bool.not_eq_eq_eq_not, Bool.not_false, Bool.and_eq_true, beq_iff_eq,
      decide_eq_false_iff_not, Nat.not_le] at h
    rcases h with ⟨hlength, hlevel⟩ | hshort
    · simp [ncacnPullRequestAuth, hlength, hlevel]
    · unfold ncacnPullRequestAuth
      split_ifs with hconnect hmismatch
      · exact ⟨rfl, rfl⟩
      · exact ⟨rfl, rfl⟩
      · exact absurd (by simpa using hshort) hmismatch

/-! ## The header as far as it goes -/

theorem packetRecv_delivered {received rest : Bytes}
    (h : packetRecv received = .delivered blob rest) : 0 < blob.length := by
  unfold packetRecv at h
  split at h
  · simp at h
  · simp at h
  · rename_i size hzero hsize
    obtain ⟨rfl, -⟩ := Framed.delivered.inj h
    have hle : size ≤ received.length := by
      unfold sockCompletePacket at hsize
      split_ifs at hsize with _ hlong
      have heq := some.inj hsize
      omega
    have hpos : size ≠ 0 := hzero
    rw [length_take]
    omega

theorem ofLe_pair_eq_zero (a b : UInt8) : UInt16.ofNat (ofLe [a, b]) = 0 ↔ a = 0 ∧ b = 0 := by
  have ha := a.toNat_lt
  have hb := b.toNat_lt
  have hsum : ofLe [a, b] = a.toNat + 256 * b.toNat := by simp [ofLe]
  rw [← UInt16.toNat_inj, UInt16.toNat_ofNat', ← UInt8.toNat_inj, ← UInt8.toNat_inj]
  simp only [UInt16.toNat_zero, UInt8.toNat_zero]
  omega

/-- The authentication length is zero iff both its bytes are, in either byte order. -/
theorem pulled_authLength_eq_zero (hlength : 12 ≤ blob.length) (big : Bool) (header : PacketHeader)
    : (header.pulled big blob).authLength = 0 ↔ blob[10]? = some 0 ∧ blob[11]? = some 0 := by
  have hfield : (blob.drop 10).take 2 = [blob[10], blob[11]] := by
    rw [drop_eq_getElem_cons (by omega), drop_eq_getElem_cons (by omega)]
    rfl
  have hlong : ¬ blob.length < 12 := by omega
  rw [getElem?_eq_getElem (by omega), getElem?_eq_getElem (by omega), some.injEq,
    some.injEq]
  simp only [pulled, hlong, if_false, number, hfield]
  cases big with
  | false => exact ofLe_pair_eq_zero _ _
  | true => exact (ofLe_pair_eq_zero _ _).trans and_comm

/-- A response fails to parse exactly when it ends before its stub. -/
theorem ndrPullNcacnPacket_response {big : Bool}
    (hptype : (header.pulled big blob).ptype = pktResponse) :
    if blob.length < 23 then
      ndrPullNcacnPacket G big blob header = .failed .bufferTooSmall (header.pulled big blob)
    else ∃ pkt, ndrPullNcacnPacket G big blob header = .packet pkt := by
  unfold ndrPullNcacnPacket ndrPullDcerpcResponse
  simp only [hptype, if_true]
  split_ifs with hlong hshort hshort
  · rfl
  · rfl
  · omega
  · exact ⟨_, rfl⟩

/-- The header a failed pull leaves is the one pulled from the blob. -/
theorem ndrPullNcacnPacket_failed {big : Bool} {left : PacketHeader} {status : NtStatus}
    (h : ndrPullNcacnPacket G big blob header = .failed status left) :
    left = header.pulled big blob := by
  unfold ndrPullNcacnPacket at h
  simp only at h
  split_ifs at h
  · exact (PulledPacket.failed.inj h).2.symm
  all_goals
    split at h
    · exact (PulledPacket.failed.inj h).2.symm
    · simp at h

/-! ## The theorem -/

theorem dcerpcRecvData_eq {rounds : Nat} {unset : Unset} {conn : Connection}
    (hblob : 0 < blob.length) :
    dcerpcRecvData M rounds G unset blob .ok conn w =
      match ncacnPull G blob unset.header with
      | none => none
      | some (.packet pkt) => some (dcerpcRequestRecvData M rounds pkt conn w)
      | some (.failed status header) =>
        if readsUnsetStub conn.security header unset.stubLength then none
        else some (.after (dcerpcConnectionDead status conn).1
          (dcerpcRequestRecvData M rounds (header.unparsed unset.stubLength)
            (dcerpcConnectionDead status conn).2 w)) := by
  have hne : (blob.length == 0) = false := beq_false_of_ne (by omega)
  cases hpull : ncacnPull G blob unset.header with
  | none => simp [dcerpcRecvData, hne, hpull]
  | some pulled =>
    cases pulled with
    | packet pkt => simp [dcerpcRecvData, hne, hpull]
    | failed status header =>
      simp [dcerpcRecvData, hne, hpull, (dcerpcConnectionDead_fails status conn).security]

/-- **Packets that cannot be parsed** do nothing but kill the connection, and no read leaves the
blob, iff the blob has five bytes and is not a truncated response on an authenticated connection
(level CONNECT without verifier excepted). -/
theorem unparsed_packet_rejected_iff (M : Mechanism W) (rounds : Nat) (G : PayloadPull)
    (conn : Connection) (w : W) {received blob rest : Bytes}
    (hdelivered : packetRecv received = .delivered blob rest) :
    RejectsUnparsed M rounds G conn w blob ↔ SafeToParse conn.security blob := by
  have hblob := packetRecv_delivered hdelivered
  constructor
  · intro h
    have hfive : 5 ≤ blob.length := by
      by_contra hshort
      obtain ⟨r, hr, -⟩ := h ⟨⟨0, 0, 0, 0⟩, 0⟩
      have hnone : blob[4]? = none := getElem?_eq_none (by omega)
      rw [dcerpcRecvData_eq hblob, ncacnPull, hnone] at hr
      simp at hr
    refine ⟨hfive, ?_⟩
    intro auth hactive hshort hresponse
    -- a stack on which the stub looks long and the authentication length is not zero
    obtain ⟨r, hr, -⟩ := h ⟨⟨0, 0, 1, 0⟩, 2 ^ 17⟩
    obtain ⟨drep, hdrep⟩ : ∃ drep, blob[4]? = some drep :=
      ⟨_, getElem?_eq_getElem (by omega)⟩
    have hptype : (pulled ⟨0, 0, 1, 0⟩ (drep &&& 0x10 == 0) blob).ptype =
        pktResponse := by
      simp [pulled, hresponse]
    have hfailed := ndrPullNcacnPacket_response (G := G) hptype
    rw [if_pos hshort] at hfailed
    rw [dcerpcRecvData_eq hblob, ncacnPull, hdrep] at hr
    simp only [hfailed] at hr
    have hunread : readsUnsetStub conn.security
        (pulled ⟨0, 0, 1, 0⟩ (drep &&& 0x10 == 0) blob) (2 ^ 17) = false := by
      by_contra hreads
      rw [if_pos (by simpa using hreads)] at hr
      exact absurd hr (some_ne_none r).symm
    have hlong : 8 + (pulled ⟨0, 0, 1, 0⟩ (drep &&& 0x10 == 0)
        blob).authLength.toNat ≤ 2 ^ 17 := by
      have := (pulled ⟨0, 0, 1, 0⟩ (drep &&& 0x10 == 0) blob).authLength.toNat_lt
      omega
    simp only [readsUnsetStub, hactive, hptype, beq_self_eq_true, Bool.true_and, hlong,
      decide_true, Bool.and_true, Bool.not_eq_eq_eq_not, Bool.not_false, Bool.and_eq_true,
      beq_iff_eq] at hunread
    have htwelve : 12 ≤ blob.length := by
      by_contra hless
      have hone : (pulled ⟨0, 0, 1, 0⟩ (drep &&& 0x10 == 0) blob).authLength = 1 := by
        simp only [pulled]
        rw [if_pos (by omega)]
      rw [hone] at hunread
      exact absurd hunread.1 (by decide)
    exact ⟨hunread.2, htwelve, (pulled_authLength_eq_zero htwelve _ _).mp hunread.1⟩
  · rintro ⟨hfive, hsafe⟩ unset
    obtain ⟨drep, hdrep⟩ : ∃ drep, blob[4]? = some drep :=
      ⟨_, getElem?_eq_getElem (by omega)⟩
    have hncacn : ncacnPull G blob unset.header =
        some (ndrPullNcacnPacket G (drep &&& 0x10 == 0) blob unset.header) := by
      rw [ncacnPull, hdrep]
    rw [dcerpcRecvData_eq hblob, hncacn]
    cases hpull : ndrPullNcacnPacket G (drep &&& 0x10 == 0) blob unset.header with
    | packet pkt => exact ⟨_, rfl, fun status header h => absurd h (by simp)⟩
    | failed status header =>
      obtain rfl := ndrPullNcacnPacket_failed hpull
      have hunread : readsUnsetStub conn.security
          (unset.header.pulled (drep &&& 0x10 == 0) blob) unset.stubLength = false := by
        unfold readsUnsetStub
        cases hactive : conn.security.active with
        | none => rfl
        | some auth =>
          by_cases hptype : (unset.header.pulled (drep &&& 0x10 == 0) blob).ptype = pktResponse
          swap
          · simp [hptype]
          -- the pull of a response failed, so it is a truncated one
          have hshort : blob.length < 23 := by
            by_contra hlong
            have hparsed := ndrPullNcacnPacket_response (G := G) hptype
            rw [if_neg hlong, hpull] at hparsed
            simp at hparsed
          have hresponse : blob[2]? = some pktResponse := by
            have htwo : blob[2]? = some blob[2] := getElem?_eq_getElem (by omega)
            rw [pulled, htwo] at hptype
            rw [htwo]
            exact congrArg some hptype
          obtain ⟨hlevel, htwelve, hzero⟩ := hsafe auth hactive hshort hresponse
          have hlength := (pulled_authLength_eq_zero htwelve (drep &&& 0x10 == 0)
            unset.header).mpr hzero
          simp [hlevel, hlength]
      obtain ⟨hcheck, hw⟩ := verifyResponse_unparsed (M := M) (w := w) hunread
      rw [← (dcerpcConnectionDead_fails status conn).security] at hcheck hw
      have hdropped := dcerpcRequestRecvData_unmatched rounds
        (dcerpcConnectionDead_pending status conn) hcheck hw
      simp only [hunread, Bool.false_eq_true, if_false, hdropped, Result.after, append_nil]
      refine ⟨_, rfl, ?_⟩
      intro status' header' h
      obtain ⟨rfl, -⟩ := PulledPacket.failed.inj (some.inj h)
      rfl

/-- A fault that ends within its header, followed by two more bytes. -/
def truncatedFault : Bytes :=
  [5, 0, 3, 3, 0x10, 0, 0, 0, 12, 0, 0, 0] ++ [1, 2]

theorem unparsed_packet_rejected_of_fault :
    RejectsUnparsed (judgingMechanism .ok) 0 (fun _ _ _ => .error .bufferTooSmall)
      sealedConnection 0 (truncatedFault.take 12) := by
  have hdelivered : packetRecv truncatedFault = .delivered (truncatedFault.take 12) [1, 2] := by
    decide
  refine (unparsed_packet_rejected_iff (judgingMechanism .ok) 0 _ sealedConnection 0
    hdelivered).mpr ⟨by decide, ?_⟩
  intro auth hactive hshort hresponse
  exact absurd hresponse (by decide)

/-- A blob of four bytes, and a response of 16 bytes on an authenticated connection, if the stack
happens to hold a long stub. -/
theorem unparsed_packet_reads_outside :
    (packetRecv [5, 0, 2, 3, 0x10, 0, 0, 0, 4, 0] = .delivered [5, 0, 2, 3] [0x10, 0, 0, 0, 4, 0] ∧
      dcerpcRecvData (judgingMechanism .ok) 0 (fun _ _ _ => .error .bufferTooSmall)
        ⟨⟨0, 0, 0, 0⟩, 0⟩ [5, 0, 2, 3] .ok dcerpcConnectionInit 0 = none) ∧
    (packetRecv [5, 0, 2, 3, 0x10, 0, 0, 0, 16, 0, 0, 0, 2, 0, 0, 0] =
        .delivered [5, 0, 2, 3, 0x10, 0, 0, 0, 16, 0, 0, 0, 2, 0, 0, 0] [] ∧
      dcerpcRecvData (judgingMechanism .ok) 0 (fun _ _ _ => .error .bufferTooSmall)
        ⟨⟨0, 0, 0, 0⟩, 8⟩ [5, 0, 2, 3, 0x10, 0, 0, 0, 16, 0, 0, 0, 2, 0, 0, 0] .ok
        sealedConnection 0 = none) := by
  refine ⟨⟨by decide, ?_⟩, by decide, ?_⟩
  · rfl
  · rfl

end OpenvasSmb.Dcerpc

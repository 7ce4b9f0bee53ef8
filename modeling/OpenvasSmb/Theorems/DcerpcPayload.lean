import OpenvasSmb.Theorems.DcerpcLevel

/-!
# What reaches the payload of a request

On a connection that asks for INTEGRITY or PRIVACY, the bytes of a response reach a
request's payload only after the mechanism has accepted them. The check is chosen by
the level in `auth_info`, and the reply handlers let the server write that field: once
a trailer has put NONE or CONNECT there, unverified stubs are accepted.
-/

namespace OpenvasSmb.Dcerpc

open Kit List SecurityState

variable {W : Type} {s : Connection × W} {ev : Event} {log : List Action} {M : Mechanism W}
  {rounds : Nat} {pkt : NcacnPacket} {status : NtStatus} {w : W}

/-! ## The property -/

/-- The stub of a response that the mechanism accepts, with the verifier and the padding cut off. -/
def VerifiedStub (M : Mechanism W) (w : W) (pkt : NcacnPacket) (stub : Bytes) : Prop :=
  ∃ body trailer pad, pkt.payload = .response (body ++ trailer) ∧
    trailer.length = 8 + pkt.authLength.toNat ∧ trailer[2]? = some pad ∧
    pad.toNat ≤ body.length ∧
    (((M.checkPacket body (trailer.drop 8) w).1 = .ok ∧
        stub = body.take (body.length - pad.toNat)) ∨
      ((M.unsealPacket body (trailer.drop 8) w).1 = .ok ∧
        stub = (inPlace body (M.unsealPacket body (trailer.drop 8) w).2.1).take
          (body.length - pad.toNat)))

/-- The event brings the request a verified stub. -/
def Brings (M : Mechanism W) (s : Connection × W) (ev : Event) (req : RpcRequest)
    (stub : Bytes) : Prop :=
  ∃ pkt, ev = .packet pkt ∧ pkt.callId = req.callId ∧ VerifiedStub M s.2 pkt stub

/-- A step adds nothing to a payload but a verified stub with its call id, and what it returns with
`NT_STATUS_OK` is a payload with such a stub added. -/
structure PayloadsVerified (M : Mechanism W) (s : Connection × W) (ev : Event)
    (log : List Action) (s' : Connection × W) : Prop where
  grows : ∀ req' ∈ s'.1.requests, req'.payload = [] ∨ ∃ req ∈ s.1.requests,
    req' = req ∨ ∃ stub, Brings M s ev req stub ∧ req' = { req with payload := req.payload ++ stub }
  returned : ∀ id payload, .completed id .ok payload ∈ log → ∃ req ∈ s.1.pending,
    req.callId = id ∧ ∃ stub, Brings M s ev req stub ∧ payload = req.payload ++ stub

/-- A trailer that is parsed into `auth_info` does not ask for NONE or CONNECT. -/
def LevelCondition (s : Connection × W) (ev : Event) : Prop :=
  ∀ pkt, ev = .packet pkt → ∀ blob, pkt.trailer s.1 = some blob →
    ∀ level, blob[1]? = some level → level ≠ levelNone ∧ level ≠ levelConnect

/-! ## Requests that come back -/

/-- No request comes back with `NT_STATUS_OK`. -/
def NothingReturned (log : List Action) : Prop := ∀ id payload, .completed id .ok payload ∉ log

theorem nothingReturned_append {log' : List Action} :
    NothingReturned (log ++ log') ↔ NothingReturned log ∧ NothingReturned log' := by
  simp only [NothingReturned, mem_append, not_or, forall_and]

theorem AuthOnly.nothingReturned (h : AuthOnly log) : NothingReturned log := by
  intro id payload hmem
  exact absurd (h _ hmem) (by simp [Action.isAuth])

theorem Fails.nothingReturned {c c' : Connection} (h : Fails status log c c')
    (hbad : status ≠ .ok) : NothingReturned log := by
  intro id payload hmem
  have hfails := h.log _ hmem
  simp only [Action.failsWith, beq_iff_eq] at hfails
  exact hbad hfails.symm

theorem Ships.nothingReturned {c c' : Connection} (h : Ships log c c') : NothingReturned log := by
  intro id payload hmem
  obtain ⟨fragment, hsent⟩ := h.log _ hmem
  simp at hsent

theorem Drawn.payloadsVerified {s' : Connection × W} (h : Drawn s.1 s'.1)
    (hlog : NothingReturned log) : PayloadsVerified M s ev log s' := by
  refine ⟨?_, fun id payload hmem => absurd hmem (hlog id payload)⟩
  intro req' hreq'
  rcases h req' hreq' with hnew | hold
  · exact .inl hnew
  · exact .inr ⟨req', hold, .inl rfl⟩

theorem requestDone_drawn (M : Mechanism W) (rounds : Nat) (pkt : NcacnPacket) (status : NtStatus)
    (payload : Bytes) (conn : Connection) (w : W) :
    Drawn conn (requestDone M rounds pkt status payload conn w).2.1 ∧
      ∀ id returned, .completed id .ok returned ∈
          (requestDone M rounds pkt status payload conn w).1 →
        id = pkt.callId ∧ status = .ok ∧ returned = payload := by
  obtain ⟨log, hlog, hships⟩ := requestDone_ships M rounds pkt status payload conn w
  refine ⟨hships.drawn, ?_⟩
  intro id returned h
  rw [hlog] at h
  rcases mem_append.mp h with h | h
  · exact absurd h (hships.nothingReturned id returned)
  · cases mem_singleton.mp h
    exact ⟨rfl, rfl, rfl⟩

theorem mem_modify_findIdx {p : RpcRequest → Bool} {l : List RpcRequest} {req req' : RpcRequest}
    {f : RpcRequest → RpcRequest} (hfind : l.find? p = some req)
    (h : req' ∈ l.modify (l.findIdx p) f) : req' ∈ l ∨ req' = f req := by
  obtain ⟨j, hj⟩ := mem_iff_getElem?.mp h
  rw [getElem?_modify] at hj
  obtain ⟨b, hb, hj⟩ := Option.map_eq_some_iff.mp hj
  split_ifs at hj with hidx
  · rw [find?_eq_getElem?_findIdx, hidx, hb] at hfind
    exact .inr (by rw [← hj, Option.some.inj hfind])
  · exact .inl (hj ▸ mem_iff_getElem?.mpr ⟨j, hb⟩)

theorem requestReply_payloadsVerified (rounds : Nat) {req : RpcRequest} {pulled : PulledStub}
    (hfind : s.1.pending.find? pkt.isFor = some req)
    (hverified : ∀ stub, pkt.payload = .response stub → pulled.status = .ok →
      VerifiedStub M s.2 pkt pulled.stub) :
    PayloadsVerified M s (.packet pkt) (requestReply M rounds pkt req pulled s.1 w).1
      (requestReply M rounds pkt req pulled s.1 w).2 := by
  have hmem : req ∈ s.1.pending := mem_of_find?_eq_some hfind
  have hid : req.callId = pkt.callId := by simpa [NcacnPacket.isFor] using find?_some hfind
  rcases requestReply_cases M rounds pkt req pulled s.1 w with
    ⟨status, hbad, heq⟩ | ⟨⟨stub, hpayload⟩, hok, heq | heq⟩ <;> rw [heq]
  · obtain ⟨hdrawn, hreturned⟩ := requestDone_drawn M rounds pkt status req.payload s.1 w
    exact hdrawn.payloadsVerified fun id payload h => hbad (hreturned id payload h).2.1
  all_goals
    have hbrings : Brings M s (.packet pkt) req pulled.stub :=
      ⟨pkt, rfl, hid.symm, hverified stub hpayload hok⟩
  -- more fragments are to come: the payload of the pending request grows
  · refine ⟨?_, by simp⟩
    intro req' hreq'
    rcases mem_append.mp hreq' with h | h
    · rcases mem_modify_findIdx hfind h with h | h
      · exact .inr ⟨req', mem_append_left _ h, .inl rfl⟩
      · exact .inr ⟨req, mem_append_left _ hmem, .inr ⟨_, hbrings, h⟩⟩
    · exact .inr ⟨req', mem_append_right _ h, .inl rfl⟩
  -- the last fragment: the payload is returned
  · obtain ⟨hdrawn, hreturned⟩ :=
      requestDone_drawn M rounds pkt .ok (req.payload ++ pulled.stub) s.1 w
    refine ⟨?_, ?_⟩
    · intro req' hreq'
      rcases hdrawn req' hreq' with hnew | hold
      · exact .inl hnew
      · exact .inr ⟨req', hold, .inl rfl⟩
    · intro id payload h
      rcases mem_append.mp h with h | h
      · simp at h
      · obtain ⟨rfl, -, rfl⟩ := hreturned id payload h
        exact ⟨req, hmem, hid, pulled.stub, hbrings, rfl⟩

/-! ## The check -/

/-- Neither NONE nor CONNECT: `ncacn_pull_request_auth` lets the mechanism check the
packet, or refuses it. -/
def Checking (sec : SecurityState) : Prop :=
  ∃ key, sec.key = (some key, true) ∧ key.2.1 ≠ levelNone ∧ key.2.1 ≠ levelConnect

/-- A check that succeeds at such a level was made by the mechanism. -/
theorem checkResponse_ok {level : UInt8} {body creds : Bytes} (hnone : level ≠ levelNone)
    (hconnect : level ≠ levelConnect) (hok : (checkResponse M level w body creds).1 = .ok) :
    ((M.checkPacket body creds w).1 = .ok ∧ (checkResponse M level w body creds).2.1 = body) ∨
      ((M.unsealPacket body creds w).1 = .ok ∧
        (checkResponse M level w body creds).2.1 =
          inPlace body (M.unsealPacket body creds w).2.1) := by
  unfold checkResponse at hok ⊢
  split_ifs at hok ⊢
  · exact .inr ⟨hok, rfl⟩
  · exact .inl ⟨hok, rfl⟩
  · have hinvalid : NtStatus.invalidLevel ≠ .ok := by decide
    exact absurd hok hinvalid

theorem ncacnPullRequestAuth_verified {auth : DcerpcAuth} {sv : Bytes}
    (hnone : auth.authLevel ≠ levelNone) (hconnect : auth.authLevel ≠ levelConnect)
    (hpayload : pkt.payload = .response sv)
    (hok : (ncacnPullRequestAuth M auth w pkt.authLength.toNat sv).1.status = .ok) :
    VerifiedStub M w pkt (ncacnPullRequestAuth M auth w pkt.authLength.toNat sv).1.stub := by
  have hmismatch : NtStatus.infoLengthMismatch ≠ .ok := by decide
  unfold ncacnPullRequestAuth at hok ⊢
  simp only [hconnect, and_false, if_false] at hok ⊢
  by_cases hshort : sv.length < 8 + pkt.authLength.toNat
  · simp only [hshort, if_true] at hok
    exact absurd hok hmismatch
  -- the verifier is the end of the packet
  obtain ⟨body, trailer, rfl, hlength⟩ : ∃ body trailer, sv = body ++ trailer ∧
      trailer.length = 8 + pkt.authLength.toNat := by
    refine ⟨sv.take (sv.length - (8 + pkt.authLength.toNat)),
      sv.drop (sv.length - (8 + pkt.authLength.toNat)), (take_append_drop _ _).symm, ?_⟩
    rw [length_drop]
    omega
  have hsize : (body ++ trailer).length - (8 + pkt.authLength.toNat) = body.length := by
    rw [length_append]
    omega
  obtain ⟨pad, hpad⟩ : ∃ pad, trailer[2]? = some pad :=
    ⟨trailer[2], getElem?_eq_getElem (by omega)⟩
  have hpulled : (ndrPullDcerpcAuth trailer auth).2.credentials = trailer.drop 8 ∧
      (ndrPullDcerpcAuth trailer auth).2.authPadLength = pad := by
    have hlong : ¬ trailer.length < 8 := by omega
    simp [ndrPullDcerpcAuth, hlong, hpad]
  simp only [hsize, take_left, drop_left, hpulled.1, hpulled.2] at hok ⊢
  split_ifs at hok ⊢ with hpadded
  · exact absurd hok hmismatch
  · refine ⟨body, trailer, pad, hpayload, hlength, hpad, ?_⟩
    rcases checkResponse_ok hnone hconnect hok with ⟨haccepted, heq⟩ | ⟨haccepted, heq⟩
    · rw [heq] at hpadded ⊢
      exact ⟨by omega, .inl ⟨haccepted, rfl⟩⟩
    · have hbody := length_inPlace body (M.unsealPacket body (trailer.drop 8) w).2.1
      rw [heq] at hpadded
      rw [heq, hbody]
      exact ⟨by omega, .inr ⟨haccepted, rfl⟩⟩

theorem verifyResponse_verified {sec : SecurityState} {sv : Bytes} (hchecking : Checking sec)
    (hpayload : pkt.payload = .response sv) (hok : (verifyResponse M pkt sec w).1.status = .ok) :
    VerifiedStub M w pkt (verifyResponse M pkt sec w).1.stub := by
  obtain ⟨key, hkey, hnone, hconnect⟩ := hchecking
  obtain ⟨auth, hactive, rfl⟩ := active_key hkey
  simp only [verifyResponse, hpayload, hactive] at hok ⊢
  exact ncacnPullRequestAuth_verified hnone hconnect hpayload hok

/-! ## Runs -/

theorem dcerpcRequestRecvData_payloadsVerified (hchecking : Checking s.1.security) :
    PayloadsVerified M s (.packet pkt) (dcerpcRequestRecvData M rounds pkt s.1 s.2).1
      (dcerpcRequestRecvData M rounds pkt s.1 s.2).2 := by
  have hchecks : NothingReturned ((verifyResponse M pkt s.1.security s.2).1.check.toList.map
      fun c => Action.verified c.1 c.2) := by
    intro id payload h
    simp at h
  unfold dcerpcRequestRecvData
  cases hfind : s.1.pending.find? pkt.isFor with
  | none => exact Drawn.payloadsVerified (.refl s.1) hchecks
  | some req =>
    simp only
    split_ifs
    · obtain ⟨hgrows, hreturned⟩ := requestReply_payloadsVerified rounds
        (w := (verifyResponse M pkt s.1.security s.2).2) hfind
        fun sv hpayload hok => verifyResponse_verified hchecking hpayload hok
      refine ⟨hgrows, ?_⟩
      intro id payload h
      rcases mem_append.mp h with h | h
      · exact absurd h (hchecks id payload)
      · exact hreturned id payload h
    · have hreply := handlerReply_replies M pkt req.kind
        { s.1 with pending := s.1.pending.eraseP pkt.isFor }
        (verifyResponse M pkt s.1.security s.2).2
      exact ((Drawn.erased pkt s.1).trans hreply.drawn).payloadsVerified
        (nothingReturned_append.mpr ⟨hchecks, hreply.log.nothingReturned⟩)

theorem handle_payloadsVerified (M : Mechanism W) (rounds : Nat) (hev : ∀ r, ev ≠ .bindAuth r)
    (hchecking : Checking s.1.security) :
    PayloadsVerified M s ev (handle M rounds s.1 s.2 ev).1 (handle M rounds s.1 s.2 ev).2 := by
  by_cases hfailure : ev.isFailure = true
  · obtain ⟨status, hbad, hfails⟩ := handle_fails M rounds s.1 s.2 hfailure
    exact hfails.drawn.payloadsVerified (hfails.nothingReturned hbad)
  cases ev with
  | bindAuth r => exact absurd rfl (hev r)
  | request asyncCall call =>
    have hships := dcerpcRequestSend_ships M rounds s.1 s.2 asyncCall call
    exact hships.drawn.payloadsVerified hships.nothingReturned
  | alterContext =>
    obtain ⟨hserves, -, -⟩ := handle_alterContext_serves M rounds s.1 s.2
    exact hserves.drawn.payloadsVerified hserves.authOnly.nothingReturned
  | packet pkt => exact dcerpcRequestRecvData_payloadsVerified hchecking
  | _ => exact absurd rfl hfailure

/-- A started bind on a connection that has responses checked. -/
def CheckingConn (s : Connection × W) : Prop :=
  s.1.bindAuth ≠ .idle ∧ Checking s.1.security

theorem checking_step {s' : Connection × W} (hinv : CheckingConn s)
    (h : (connection M rounds).step s ev = some (log, s')) (hcond : LevelCondition s ev) :
    CheckingConn s' := by
  obtain ⟨hhandle, hev⟩ := connection_step hinv.1 h
  obtain ⟨key, hkey, hnone, hconnect⟩ := hinv.2
  have hs' : s' = (handle M rounds s.1 s.2 ev).2 := by rw [hhandle]
  refine ⟨?_, ?_⟩
  · rw [hs']
    exact (handle_moves M rounds s.1 s.2 hev).1.ne_idle hinv.1
  · by_cases hpkt : ∃ pkt, ev = .packet pkt
    · obtain ⟨pkt, rfl⟩ := hpkt
      have hpulled : s'.1.security.key = pulledKey (pkt.trailer s.1) s.1.security := by
        rw [hs']
        exact (dcerpcRequestRecvData_key M rounds pkt s.1 s.2).1
      cases hblob : pkt.trailer s.1 with
      | none =>
        rw [hblob] at hpulled
        exact ⟨key, hpulled.trans hkey, hnone, hconnect⟩
      | some blob =>
        obtain ⟨auth, hactive, rfl⟩ := active_key hkey
        have hgeneric : s.1.security.genericState = true := congrArg (·.2) hkey
        rw [hblob, pulledKey, authInfo_of_active hactive, hgeneric] at hpulled
        refine ⟨_, hpulled, ?_⟩
        -- the level is the trailer's, or the old one if the trailer ends before it
        have hlevel : (ndrPullDcerpcAuth blob auth).2.key.2.1 =
            blob[1]?.getD auth.authLevel := by
          unfold ndrPullDcerpcAuth DcerpcAuth.key
          split_ifs <;> rfl
        rw [hlevel]
        cases hb : blob[1]? with
        | none => exact ⟨hnone, hconnect⟩
        | some level => exact hcond pkt rfl blob hblob level hb
    · have hkept := (handle_moves M rounds s.1 s.2 hev).2 fun pkt h => hpkt ⟨pkt, h⟩
      rw [hs']
      exact ⟨key, hkept.trans hkey, hnone, hconnect⟩

/-- **Only verified bytes reach a payload** of a connection whose bind was started at INTEGRITY or
PRIVACY, in every run in which no trailer of a `bind_ack` or `alter_resp` asks for NONE or CONNECT.
-/
theorem payloads_verified_of_levels (M : Mechanism W) (rounds : Nat) {conn : Connection} (w : W)
    (hstarted : conn.bindAuth ≠ .idle) {auth : DcerpcAuth}
    (hactive : conn.security.active = some auth)
    (hlevel : auth.authLevel = levelIntegrity ∨ auth.authLevel = levelPrivacy) (events : List Event)
    (hcond : (connection M rounds).EachStep (fun s ev _ _ => LevelCondition s ev) (conn, w)
      events) : (connection M rounds).EachStep (PayloadsVerified M) (conn, w) events := by
  have hchecking : Checking conn.security := by
    have hgeneric : conn.security.genericState = true := by
      unfold active at hactive
      split_ifs at hactive with hgeneric
      exact hgeneric
    refine ⟨auth.key, ?_, ?_⟩
    · rw [key, authInfo_of_active hactive, hgeneric]
      rfl
    · show auth.authLevel ≠ levelNone ∧ auth.authLevel ≠ levelConnect
      rcases hlevel with h | h <;> rw [h] <;> decide
  refine Machine.EachStep.of_inv (I := CheckingConn) ?_ events (conn, w) ⟨hstarted, hchecking⟩ hcond
  intro s ev log s' hinv h hc
  obtain ⟨hhandle, hev⟩ := connection_step hinv.1 h
  have hverified := handle_payloadsVerified M rounds hev hinv.2
  rw [hhandle] at hverified
  exact ⟨checking_step hinv h hc, hverified⟩

/-- A mechanism for a bind of two legs that gives the same verdict on every
response. -/
def judgingMechanism (verdict : NtStatus) : Mechanism Nat :=
  { twoLegMechanism with
    unsealPacket := fun data _ n => (verdict, data, n)
    checkPacket := fun _ _ n => (verdict, n) }

/-- A connection after a bind at PRIVACY with one request on its way. -/
def sealedConnection : Connection :=
  { dcerpcConnectionInit with
    callId := 2
    security := ⟨some ⟨10, levelPrivacy, 0, 0, 5, []⟩, true⟩
    srvMaxRecvFrag := 5840
    pending := [⟨2, .request, true, ⟨none, 0, 3, [1, 2, 3]⟩, []⟩]
    bindAuth := .finished .ok }

/-- A response of two bytes with two bytes of padding and a signature of one byte. -/
theorem payloads_verified_of_sealed_response :
    (connection (judgingMechanism .ok) 0).EachStep (PayloadsVerified (judgingMechanism .ok))
      (sealedConnection, 0)
      [.packet ⟨2, 1, true, .response ([9, 9, 0, 0] ++ [10, 6, 2, 0, 5, 0, 0, 0, 7])⟩] := by
  refine payloads_verified_of_levels (judgingMechanism .ok) 0 0 (by decide) rfl (.inr rfl) _ ?_
  intro log s hstep
  refine ⟨?_, trivial⟩
  rintro pkt h blob hblob level -
  cases h
  -- the packet answers a plain request, so no trailer is parsed
  have hnone : NcacnPacket.trailer
      ⟨2, 1, true, .response ([9, 9, 0, 0] ++ [10, 6, 2, 0, 5, 0, 0, 0, 7])⟩
      sealedConnection = none := by decide
  exact absurd (hnone.symm.trans hblob) (by simp)

/-- The client asks for PRIVACY, the `bind_ack` puts CONNECT into `auth_info`, and a response
without verifier is returned with `NT_STATUS_OK`. -/
theorem payload_takes_unverified_stub :
    ((connection (judgingMechanism .accessDenied) 0).run (dcerpcConnectionInit, 0)
        [.bindAuth privacyBind, .packet (bindAckWith [10, 2, 0, 0, 5, 0, 0, 0, 2]),
          .request true ⟨none, 0, 3, [1, 2, 3]⟩,
          .packet ⟨3, 0, true, .response [9, 9]⟩]).map Prod.fst =
      some (some [.accepted 3 [9, 9], .completed 3 .ok [9, 9]]) ∧
    ¬ (connection (judgingMechanism .accessDenied) 0).EachStep
      (PayloadsVerified (judgingMechanism .accessDenied)) (dcerpcConnectionInit, 0)
      [.bindAuth privacyBind, .packet (bindAckWith [10, 2, 0, 0, 5, 0, 0, 0, 2]),
        .request true ⟨none, 0, 3, [1, 2, 3]⟩, .packet ⟨3, 0, true, .response [9, 9]⟩] := by
  have hdenied : NtStatus.accessDenied ≠ .ok := by decide
  refine ⟨by decide, ?_⟩
  intro h
  obtain ⟨-, h⟩ := h _ _ rfl
  obtain ⟨-, h⟩ := h _ _ rfl
  obtain ⟨-, h⟩ := h _ _ rfl
  obtain ⟨⟨-, hreturned⟩, -⟩ := h _ _ rfl
  obtain ⟨req, -, -, stub, ⟨pkt, -, -, body, trailer, pad, -, -, -, -, hcheck⟩, -⟩ :=
    hreturned 3 [9, 9] (by decide)
  rcases hcheck with ⟨hok, -⟩ | ⟨hok, -⟩
  · exact hdenied hok
  · exact hdenied hok

end OpenvasSmb.Dcerpc

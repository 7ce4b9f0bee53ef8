import OpenvasSmb.Dcerpc.Fragments

/-!
# The authentication level of a connection

A caller of `dcerpc_bind_auth_send` asks for a type, a level and, through a random number, a
context id. `LevelKept` says what this should mean for every step: `auth_info` still carries the
three, and once the bind has succeeded every request fragment is signed or sealed as the level
says and no stub is accepted from a response that was not checked that way.

The reply handlers pull the server's trailer into the record that also holds the level in use, so
`LevelKept` holds exactly as long as these trailers repeat what was asked for
(`bind_auth_level_iff`); a server can lower the level with one byte (`bind_ack_lowers_level`).
-/

namespace OpenvasSmb.Dcerpc

open Kit List SecurityState Option Prod

variable {W : Type} {r : BindRequest} {conn : Connection} {s : Connection × W} {ev : Event}
  {log : List Action} {M : Mechanism W} {rounds : Nat} {pkt : NcacnPacket} {sec : SecurityState}
  {w : W}

/-! ## The property -/

def BindRequest.key (r : BindRequest) : UInt8 × UInt8 × UInt32 :=
  (r.authType, r.authLevel, r.contextId)

/-- Sealed at PRIVACY, signed at INTEGRITY. -/
def protectionAt (level : UInt8) : Protection :=
  if level = levelPrivacy then .seal else .sign

/-- A fragment goes out under the type, level and context id asked for. -/
def FragmentAs (r : BindRequest) (fragment : SignedPacket) : Prop :=
  fragment.protection = protectionAt r.authLevel ∧
    ∃ auth, fragment.trailer = some auth ∧ auth.key = r.key

/-- An action of a step with the log given is protected as asked for. -/
def ProtectedAs (r : BindRequest) (log : List Action) : Action → Prop
  | .sentRequest fragment => FragmentAs r fragment.signed
  | .accepted _ _ => .verified (protectionAt r.authLevel) .ok ∈ log
  | _ => True

/-- A step keeps type, level and context id, and after the bind it sends and accepts nothing that is
protected otherwise. -/
def LevelKept (r : BindRequest) (s : Connection × W) (_ : Event) (log : List Action)
    (s' : Connection × W) : Prop :=
  (∀ auth, s'.1.security.authInfo = some auth → auth.key = r.key) ∧
    (s.1.bindAuth = .finished .ok → ∀ act ∈ log, ProtectedAs r log act)

/-- As far as the trailer goes, it carries the type, level and context id asked
for. -/
def TrailerAgrees (r : BindRequest) (blob : Bytes) : Prop :=
  (∀ b, blob[0]? = some b → b = r.authType) ∧ (∀ b, blob[1]? = some b → b = r.authLevel) ∧
    (8 ≤ blob.length → u32 (blob.drop 4) = r.contextId)

/-- A packet whose trailer is parsed into an existing `auth_info` carries what was
asked for. -/
def TrailerCondition (r : BindRequest) (s : Connection × W) (ev : Event) : Prop :=
  ∀ pkt, ev = .packet pkt → s.1.security.authInfo.isSome = true →
    ∀ blob, pkt.trailer s.1 = some blob → TrailerAgrees r blob

/-! ## Fragments -/

/-- The level of the bind asks for signatures. -/
abbrev BindRequest.Protecting (r : BindRequest) : Prop :=
  r.authLevel = levelIntegrity ∨ r.authLevel = levelPrivacy

theorem ncacnPushRequestSign_protects {pkt : RequestPacket} {fragment : SignedPacket}
    (hkey : sec.key = (some r.key, true)) (hlevel : r.Protecting)
    (h : (ncacnPushRequestSign M sec w pkt).1 = .ok fragment) : FragmentAs r fragment := by
  obtain ⟨auth, hactive, hauth⟩ := active_key hkey
  have hauthLevel : auth.authLevel = r.authLevel := congrArg (·.2.1) hauth
  unfold ncacnPushRequestSign at h
  rw [hactive] at h
  simp only [hauthLevel] at h
  have hne : levelIntegrity ≠ levelPrivacy := by decide
  rcases hlevel with hlevel | hlevel
  all_goals
    simp only [hlevel, hne, if_false, if_true] at h
    split_ifs at h
    injection h with h
    subst h
    exact ⟨by simp [protectionAt, hlevel, hne], _, rfl, by rw [← hauth]; rfl⟩

section Protecting

variable (hlevel : r.Protecting) (hkey : conn.security.key = (some r.key, true))

include hlevel hkey

theorem dcerpcShipNextRequest_protects :
    ∀ act ∈ (dcerpcShipNextRequest M rounds conn w).1,
      ∃ fragment, act = .sentRequest fragment ∧ FragmentAs r fragment.signed := by
  intro act hact
  unfold dcerpcShipNextRequest at hact
  split at hact
  · simp at hact
  · split_ifs at hact
    · simp at hact
    · obtain ⟨fragment, hfragment, rfl⟩ := mem_map.mp hact
      obtain ⟨sec, w', hkept, hpushed⟩ :=
        (sendFragments_fragmentOf M _ _ _ _ _ _ _ fragment hfragment).pushed
      refine ⟨fragment, rfl, ncacnPushRequestSign_protects (hkept.key.trans hkey) hlevel hpushed⟩

theorem requestDone_protects {status : NtStatus} {payload : Bytes} (log : List Action) :
    ∀ act ∈ (requestDone M rounds pkt status payload conn w).1, ProtectedAs r log act := by
  intro act hact
  rcases mem_append.mp hact with hact | hact
  · obtain ⟨fragment, rfl, hfragment⟩ :=
      dcerpcShipNextRequest_protects hlevel (by exact hkey) act hact
    exact hfragment
  · rw [mem_singleton.mp hact]
    trivial

/-! ## Responses -/

omit hkey in
/-- A response that passes on a connection with the level asked for was checked
at that level. -/
theorem ncacnPullRequestAuth_checks {auth : DcerpcAuth} {authLength : Nat} {stub : Bytes}
    (hauth : auth.key = r.key)
    (hok : (ncacnPullRequestAuth M auth w authLength stub).1.status = .ok) :
    (ncacnPullRequestAuth M auth w authLength stub).1.check =
      some (protectionAt r.authLevel, .ok) := by
  have hauthLevel : auth.authLevel = r.authLevel := congrArg (·.2.1) hauth
  have hconnect : ¬ (authLength = 0 ∧ auth.authLevel = levelConnect) := by
    rw [hauthLevel]
    rcases hlevel with h | h <;> rw [h] <;> rintro ⟨-, h⟩ <;> exact absurd h (by decide)
  have hmismatch : NtStatus.infoLengthMismatch ≠ .ok := by decide
  have hne : levelIntegrity ≠ levelPrivacy := by decide
  unfold ncacnPullRequestAuth at hok ⊢
  simp only [hconnect, if_false] at hok ⊢
  by_cases hshort : stub.length < 8 + authLength
  · simp only [hshort, if_true] at hok
    exact absurd hok hmismatch
  · simp only [hshort, if_false, hauthLevel] at hok ⊢
    split_ifs at hok ⊢
    · exact absurd hok hmismatch
    · rcases hlevel with hlevel | hlevel
      · simp only [checkResponse, hlevel, hne, if_false, if_true] at hok ⊢
        simp [hok, protectionAt, hne]
      · simp only [checkResponse, hlevel, if_true] at hok ⊢
        simp [hok, protectionAt]

theorem verifyResponse_checks {stub : Bytes} (hpayload : pkt.payload = .response stub)
    (hok : (verifyResponse M pkt conn.security w).1.status = .ok) :
    (verifyResponse M pkt conn.security w).1.check = some (protectionAt r.authLevel, .ok) := by
  obtain ⟨auth, hactive, hauth⟩ := active_key hkey
  simp only [verifyResponse, hpayload, hactive] at hok ⊢
  exact ncacnPullRequestAuth_checks hlevel hauth hok

theorem requestReply_protects {req : RpcRequest} {pulled : PulledStub}
    (hchecked : ∀ stub, pkt.payload = .response stub → pulled.status = .ok →
      .verified (protectionAt r.authLevel) .ok ∈ log) :
    ∀ act ∈ (requestReply M rounds pkt req pulled conn w).1, ProtectedAs r log act := by
  have haccepted : ∀ stub, pkt.payload = .response stub → pulled.status = .ok →
      ∀ act ∈ [Action.accepted pkt.callId pulled.stub], ProtectedAs r log act := by
    intro stub hpayload hok act hact
    rw [mem_singleton.mp hact]
    exact hchecked stub hpayload hok
  rcases requestReply_cases M rounds pkt req pulled conn w with
    ⟨status, -, heq⟩ | ⟨⟨stub, hpayload⟩, hok, heq | heq⟩ <;> rw [heq]
  · exact requestDone_protects hlevel hkey log
  · exact haccepted stub hpayload hok
  · intro act hact
    rcases mem_append.mp hact with hact | hact
    · exact haccepted stub hpayload hok act hact
    · exact requestDone_protects hlevel hkey log act hact

omit hlevel hkey in
theorem AuthOnly.protectedAs {log' : List Action} (h : AuthOnly log') :
    ∀ act ∈ log', ProtectedAs r log act := by
  intro act hact
  have hauth := h act hact
  cases act <;> trivial

omit hlevel hkey in
theorem Fails.protectedAs {status : NtStatus} {c c' : Connection} {log' : List Action}
    (h : Fails status log' c c') : ∀ act ∈ log', ProtectedAs r log act := by
  intro act hact
  have hfails := h.log act hact
  cases act <;> trivial

theorem dcerpcRequestRecvData_protects :
    ∀ act ∈ (dcerpcRequestRecvData M rounds pkt conn w).1,
      ProtectedAs r (dcerpcRequestRecvData M rounds pkt conn w).1 act := by
  have hchecks : ∀ log act, act ∈ (verifyResponse M pkt conn.security w).1.check.toList.map
      (fun c => Action.verified c.1 c.2) → ProtectedAs r log act := by
    intro log act hact
    obtain ⟨c, -, rfl⟩ := mem_map.mp hact
    trivial
  intro act hact
  unfold dcerpcRequestRecvData at hact ⊢
  simp only at hact ⊢
  split at hact
  · exact hchecks _ act hact
  · split_ifs at hact ⊢
    · rcases mem_append.mp hact with hact | hact
      · exact hchecks _ act hact
      · refine requestReply_protects hlevel hkey ?_ act hact
        intro stub hpayload hok
        refine mem_append_left _ ?_
        rw [verifyResponse_checks hlevel hkey hpayload hok]
        exact mem_singleton.mpr rfl
    · rcases mem_append.mp hact with hact | hact
      · exact hchecks _ act hact
      · exact (handlerReply_replies M pkt _ _ _).log.protectedAs act hact

theorem handle_protects (hev : ∀ r, ev ≠ .bindAuth r) : ∀ act ∈ (handle M rounds conn w ev).1,
      ProtectedAs r (handle M rounds conn w ev).1 act := by
  by_cases hfailure : ev.isFailure = true
  · obtain ⟨status, -, hfails⟩ := handle_fails M rounds conn w hfailure
    exact hfails.protectedAs
  cases ev with
  | bindAuth r => exact absurd rfl (hev r)
  | request asyncCall call =>
    intro act hact
    obtain ⟨fragment, rfl, hfragment⟩ :=
      dcerpcShipNextRequest_protects hlevel (by exact hkey) act hact
    exact hfragment
  | alterContext => exact (handle_alterContext_serves M rounds conn w).1.authOnly.protectedAs
  | packet pkt => exact dcerpcRequestRecvData_protects hlevel hkey
  | _ => exact absurd rfl hfailure

end Protecting

/-! ## Trailers -/

theorem getD_eq_iff {α : Type} (o : Option α) (a : α) : o.getD a = a ↔ ∀ b, o = some b → b = a := by
  cases o <;> simp

theorem ndrPullDcerpcAuth_key_iff {auth : DcerpcAuth} (hauth : auth.key = r.key) (blob : Bytes) :
    (ndrPullDcerpcAuth blob auth).2.key = r.key ↔ TrailerAgrees r blob := by
  simp only [DcerpcAuth.key, BindRequest.key, Prod.mk.injEq] at hauth
  obtain ⟨htype, hlevel, hctx⟩ := hauth
  unfold ndrPullDcerpcAuth TrailerAgrees
  simp only [htype, hlevel]
  split_ifs with hshort
  · have hlong : ¬ 8 ≤ blob.length := by omega
    simp [DcerpcAuth.key, BindRequest.key, getD_eq_iff, hctx, hlong]
  · have hlong : 8 ≤ blob.length := by omega
    simp [DcerpcAuth.key, BindRequest.key, getD_eq_iff, hlong]

/-! ## Runs -/

/-- After `dcerpc_bind_auth_send`: the connection has the key asked for, or the
bind failed before there was an `auth_info`. -/
def Keyed (r : BindRequest) (s : Connection × W) : Prop :=
  s.1.bindAuth ≠ .idle ∧
    (s.1.security.key = (some r.key, true) ∨
      (s.1.security.authInfo = none ∧ ∃ status, status ≠ .ok ∧ s.1.bindAuth = .finished status))

theorem SecurityState.authInfo_eq_none_iff (sec : SecurityState) :
    sec.authInfo = none ↔ sec.key.1 = none := by
  simp [key]

theorem handle_pulledKey (M : Mechanism W) (rounds : Nat) (conn : Connection) (w : W)
    (hev : ∀ r, ev ≠ .bindAuth r) :
    ∃ blob, (handle M rounds conn w ev).2.1.security.key = pulledKey blob conn.security ∧
      (blob = none ∨ ∃ pkt, ev = .packet pkt ∧ blob = pkt.trailer conn) := by
  by_cases hpkt : ∃ pkt, ev = .packet pkt
  · obtain ⟨pkt, rfl⟩ := hpkt
    exact ⟨_, (dcerpcRequestRecvData_key M rounds pkt conn w).1, .inr ⟨pkt, rfl, rfl⟩⟩
  · exact ⟨none, (handle_moves M rounds conn w hev).2 fun pkt h => hpkt ⟨pkt, h⟩, .inl rfl⟩

theorem pulledKey_fst_none {blob : Option Bytes} (h : sec.authInfo = none) :
    (pulledKey blob sec).1 = none := by
  cases blob <;> simp [pulledKey, key, h]

theorem pulledKey_snd (blob : Option Bytes) (sec : SecurityState) :
    (pulledKey blob sec).2 = sec.genericState := by
  cases blob <;> rfl

theorem keyed_step {s' : Connection × W} (hinv : Keyed r s)
    (h : (connection M rounds).step s ev = some (log, s')) (hkept : LevelKept r s ev log s') :
    Keyed r s' := by
  obtain ⟨hstarted, hkey⟩ := hinv
  obtain ⟨hhandle, hev⟩ := connection_step hstarted h
  have hmoves := (handle_moves M rounds s.1 s.2 hev).1
  obtain ⟨blob, hpulled, -⟩ := handle_pulledKey M rounds s.1 s.2 hev
  rw [hhandle] at hmoves hpulled
  refine ⟨hmoves.ne_idle hstarted, ?_⟩
  rcases hkey with hkey | ⟨hnone, status, hbad, hfinished⟩
  · left
    obtain ⟨auth, hactive, hauth⟩ := active_key hkey
    have hsome : (pulledKey blob s.1.security).1.isSome = true := by
      cases blob <;>
        simp [pulledKey, key, authInfo_of_active hactive]
    have hgeneric : s.1.security.genericState = true := congrArg snd hkey
    rw [← hpulled] at hsome
    obtain ⟨auth', hauth'⟩ : ∃ auth', s'.1.security.authInfo = some auth' := by
      simpa [key, isSome_iff_exists] using hsome
    have hsnd : s'.1.security.genericState = true := by
      have := congrArg snd hpulled
      rw [pulledKey_snd] at this
      exact this.trans hgeneric
    simp [key, hauth', hsnd, hkept.1 auth' hauth']
  · right
    rw [hfinished] at hmoves
    refine ⟨?_, status, hbad, hmoves.finished⟩
    rw [authInfo_eq_none_iff, hpulled]
    exact pulledKey_fst_none hnone

theorem levelKept_step_iff {s' : Connection × W} (hlevel : r.Protecting) (hinv : Keyed r s)
    (h : (connection M rounds).step s ev = some (log, s')) :
    LevelKept r s ev log s' ↔ TrailerCondition r s ev := by
  obtain ⟨hstarted, hkey⟩ := hinv
  obtain ⟨hhandle, hev⟩ := connection_step hstarted h
  rcases hkey with hkey | ⟨hnone, status, hbad, hfinished⟩
  · -- the connection has the key asked for: what matters is the trailer pulled now
    obtain ⟨auth, hactive, hauth⟩ := active_key hkey
    have hauthInfo := authInfo_of_active hactive
    have hprotects := hhandle ▸ handle_protects hlevel hkey hev
    constructor
    · intro hkept pkt hpkt _ blob hblob
      subst hpkt
      have hpulled := (dcerpcRequestRecvData_key M rounds pkt s.1 s.2).1
      rw [show dcerpcRequestRecvData M rounds pkt s.1 s.2 = (log, s') from hhandle, hblob]
        at hpulled
      have hfst := congrArg fst hpulled
      simp only [key, pulledKey, hauthInfo, map_some] at hfst
      obtain ⟨auth', hauth', hpull⟩ := map_eq_some_iff.mp hfst
      rw [← ndrPullDcerpcAuth_key_iff hauth blob, ← hpull]
      exact hkept.1 auth' hauth'
    · intro hcond
      refine ⟨?_, fun _ => hprotects⟩
      intro auth' hauth'
      obtain ⟨blob, hpulled, hblob⟩ := handle_pulledKey M rounds s.1 s.2 hev
      rw [hhandle] at hpulled
      have hfst := congrArg fst hpulled
      simp only [key, hauth', map_some] at hfst
      cases blob with
      | none =>
        simp only [pulledKey, hkey] at hfst
        exact some.inj hfst
      | some blob =>
        rcases hblob with hblob | ⟨pkt, hpkt, hblob⟩
        · simp at hblob
        · have hagrees := hcond pkt hpkt (by simp [hauthInfo]) blob hblob.symm
          simp only [pulledKey, hauthInfo, map_some, some.injEq] at hfst
          rw [hfst]
          exact (ndrPullDcerpcAuth_key_iff hauth blob).mpr hagrees
  · -- no `auth_info` to pull into, and no bind that succeeded
    have hcond : TrailerCondition r s ev := fun pkt _ hsome => by simp [hnone] at hsome
    obtain ⟨blob, hpulled, -⟩ := handle_pulledKey M rounds s.1 s.2 hev
    rw [hhandle] at hpulled
    have hnone' : s'.1.security.authInfo = none := by
      rw [authInfo_eq_none_iff, hpulled]
      exact pulledKey_fst_none hnone
    refine iff_of_true ⟨?_, ?_⟩ hcond
    · intro auth' hauth'
      rw [hnone'] at hauth'
      simp at hauth'
    · intro hok
      rw [hfinished, BindAuth.finished.injEq] at hok
      exact absurd hok hbad

theorem dcerpcBindAuthSend_keyed (M : Mechanism W) (r : BindRequest) (w : W) :
    Keyed r (dcerpcBindAuthSend M r dcerpcConnectionInit w).2 := by
  unfold dcerpcBindAuthSend
  split_ifs with hstart hsetup
  · refine ⟨BindAuth.noConfusion, .inr ⟨rfl, r.start, ?_, rfl⟩⟩
    intro h
    simp [h] at hstart
  · refine ⟨BindAuth.noConfusion, .inr ⟨rfl, r.setup, ?_, rfl⟩⟩
    intro h
    simp [h] at hsetup
  · simp only
    split_ifs
    iterate 2 exact ⟨BindAuth.noConfusion, .inl rfl⟩
    · rcases continueBindAuth_cases (.waitBind _) _ with ⟨-, heq⟩ | ⟨-, heq⟩ <;> rw [heq] <;>
        exact ⟨BindAuth.noConfusion, .inl rfl⟩

theorem keyed_authInfo (h : Keyed r s) :
    ∀ auth, s.1.security.authInfo = some auth → auth.key = r.key := by
  intro auth hauth
  rcases h.2 with hkey | ⟨hnone, -⟩
  · simpa [key, hauth] using congrArg fst hkey
  · rw [hnone] at hauth
    simp at hauth

/-- **The level of a connection is the server's to choose.** For every mechanism, transport and
sequence of events after a bind at INTEGRITY or PRIVACY: type, level and context id are kept and all
later traffic is protected as asked for, iff every trailer that is parsed repeats them. -/
theorem bind_auth_level_iff (M : Mechanism W) (rounds : Nat) (w : W) (r : BindRequest)
    (hlevel : r.authLevel = levelIntegrity ∨ r.authLevel = levelPrivacy) (events : List Event) :
    (connection M rounds).EachStep (LevelKept r) (dcerpcConnectionInit, w)
        (.bindAuth r :: events) ↔
      (connection M rounds).EachStep (fun s ev _ _ => TrailerCondition r s ev)
        (dcerpcConnectionInit, w) (.bindAuth r :: events) := by
  refine Machine.eachStep_cons_congr fun log s' hstep => ?_
  -- the bind itself is started with the key asked for
  have hs' : dcerpcBindAuthSend M r dcerpcConnectionInit w = (log, s') := some.inj hstep
  have hkeyed : Keyed r s' := by
    have := dcerpcBindAuthSend_keyed M r w
    rwa [hs'] at this
  refine ⟨iff_of_true ?_ (fun pkt h => by simp at h), fun _ => ?_⟩
  · exact ⟨keyed_authInfo hkeyed, fun h => by simp [dcerpcConnectionInit] at h⟩
  · exact Machine.eachStep_congr (fun _ _ _ _ => keyed_step)
      (fun _ _ _ _ => levelKept_step_iff hlevel) events s' hkeyed

/-! ## A server that lowers the level -/

/-- A mechanism that asks for one more leg and then accepts; its signatures are
one byte long. -/
def twoLegMechanism : Mechanism Nat where
  update _ n := if n = 0 then (.moreProcessingRequired, [1], 1) else (.ok, [3], n + 1)
  sigSize _ _ := 1
  sealPacket data _ n := (.ok, data, [7], n)
  signPacket _ _ n := (.ok, [7], n)
  unsealPacket data _ n := (.ok, data, n)
  checkPacket _ _ n := (.ok, n)
  sendRequest n := (.ok, n)

/-- NTLMSSP at PRIVACY with context id 5. -/
def privacyBind : BindRequest := ⟨10, levelPrivacy, 5, .ok, .ok⟩

/-- The trailer asked for, with a token of one byte. -/
theorem bind_auth_level_kept_by_agreeing_ack :
    (connection twoLegMechanism 0).EachStep (LevelKept privacyBind) (dcerpcConnectionInit, 0)
      [.bindAuth privacyBind, .packet (bindAckWith [10, 6, 0, 0, 5, 0, 0, 0, 2]),
        .request true ⟨none, 0, 3, [1, 2, 3]⟩] := by
  refine (bind_auth_level_iff twoLegMechanism 0 0 privacyBind (.inr rfl) _).mpr ?_
  intro log s hstep
  refine ⟨fun pkt h => by simp at h, ?_⟩
  intro log' s' hstep'
  refine ⟨?_, fun log'' s'' _ => ⟨fun pkt h => by simp at h, trivial⟩⟩
  intro pkt hpkt _ blob hblob
  cases hpkt
  cases hstep
  have hblob' : blob = [10, 6, 0, 0, 5, 0, 0, 0, 2] := by
    refine some.inj (hblob.symm.trans ?_)
    decide
  subst hblob'
  exact ⟨by simp [privacyBind], by simp [privacyBind, levelPrivacy], by decide⟩

/-- The connection after a bind whose `bind_ack` carried a trailer for level
CONNECT. -/
def loweredConnection : Connection :=
  { dcerpcConnectionInit with
    callId := 2
    security := ⟨some ⟨10, levelConnect, 0, 0, 5, [3]⟩, true⟩
    srvMaxRecvFrag := 5840
    bindAuth := .finished .ok
    history := ⟨true, true, some .ok⟩ }

/-- The request packet that follows, with its padding and the constant verifier
of level CONNECT. -/
def loweredRequest : Bytes :=
  [5, 0, 0, 3, 0x10, 0, 0, 0] ++ toLe 2 64 ++ toLe 2 16 ++ toLe 4 3 ++ toLe 4 3 ++ toLe 2 0 ++
    toLe 2 3 ++ ([1, 2, 3] ++ List.replicate 13 0) ++ [10, 2, 13, 0] ++ toLe 4 5 ++
    dcerpcConnectVerifier

/-- A `bind_ack` whose trailer says CONNECT: the bind succeeds, and the next request goes out in
clear. -/
theorem bind_ack_lowers_level :
    ((connection twoLegMechanism 0).run (dcerpcConnectionInit, 0)
        [.bindAuth privacyBind, .packet (bindAckWith [10, 2, 0, 0, 5, 0, 0, 0, 2])]).map snd =
      some (loweredConnection, 2) ∧
    ((connection twoLegMechanism 0).run (loweredConnection, 2)
        [.request true ⟨none, 0, 3, [1, 2, 3]⟩]).map fst =
      some (some [.sentRequest ⟨⟨3, 3, 3, 0, 3, none, [1, 2, 3]⟩,
        ⟨.connect, none, loweredRequest, some ⟨10, 2, 13, 0, 5, dcerpcConnectVerifier⟩⟩,
        true⟩]) ∧
    ¬ (connection twoLegMechanism 0).EachStep (LevelKept privacyBind) (dcerpcConnectionInit, 0)
      [.bindAuth privacyBind, .packet (bindAckWith [10, 2, 0, 0, 5, 0, 0, 0, 2])] := by
  refine ⟨by decide, by decide +kernel, ?_⟩
  intro h
  obtain ⟨-, h⟩ := h _ _ rfl
  obtain ⟨⟨h, -⟩, -⟩ := h _ _ rfl
  exact absurd (h _ rfl) (by decide)

end OpenvasSmb.Dcerpc

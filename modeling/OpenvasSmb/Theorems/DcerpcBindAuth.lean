import OpenvasSmb.Dcerpc.Frame

/-!
# What an authenticated bind has established when it succeeds

`dcerpc_bind_auth` should complete with success only after a bind was sent and acknowledged and
the mechanism's last word was `NT_STATUS_OK`, and in between the mechanism should be fed the
server's tokens (`BindAuthSound`). Only three shapes of exchange break this
(`bind_auth_sound_iff`): the mechanism is content at once, or asks for more, without a token to
send, or an accepted reply has no trailer, so that the client's own token is fed back.
-/

namespace OpenvasSmb.Dcerpc

open Kit Option Dcerpc.Action

variable {W : Type} (M : Mechanism W) (rounds : Nat) (w : W) {blob token payload : Bytes}
  {c c' conn : Connection} {log : List Action} {pkt : NcacnPacket} {status : NtStatus}

/-! ## The property -/

/-- The token a reply of the server carries, empty when it has no trailer. -/
def carriedToken (pkt : NcacnPacket) : Bytes :=
  match pkt.payload with
  | .bindAck ack => ack.authInfo.drop 8
  | .alterResp ack => ack.authInfo.drop 8
  | _ => []

/-- A bind that has succeeded was sent and acknowledged, and the mechanism said OK
last. -/
def SuccessEarned (conn : Connection) : Prop :=
  conn.bindAuth = .finished .ok →
    conn.history.bindSent = true ∧ conn.history.bindAcked = true ∧
      conn.history.lastUpdate = some .ok

/-- After a step, success is earned; and once started, the mechanism is only fed the tokens of
packets. -/
def BindAuthSound (_ : Connection × W) (ev : Event) (log : List Action)
    (s' : Connection × W) : Prop :=
  SuccessEarned s'.1 ∧
    ∀ input status output, .update input status output ∈ log →
      (∃ r, ev = .bindAuth r) ∨ ∃ pkt, ev = .packet pkt ∧ input = carriedToken pkt

/-- The credentials in `auth_info` once a trailer was pulled; `none` when that is cut short. -/
def pulledToken (blob : Bytes) (sec : SecurityState) : Option Bytes :=
  sec.authInfo.bind fun auth =>
    if blob.length = 0 then some auth.credentials
    else if blob.length < 8 then none
    else some (blob.drop 8)

/-- The token fed to the mechanism when a reply arrives; `none` when the bind does not go on with
it. -/
def fedBy (pkt : NcacnPacket) (kind : RequestKind) (conn : Connection) : Option Bytes :=
  match kind, conn.bindAuth with
  | .bind, .waitBind true => (handledTrailer pkt .bind).bind (pulledToken · conn.security)
  | .authAlter, .waitAlter => (handledTrailer pkt .authAlter).bind (pulledToken · conn.security)
  | _, _ => none

/-- The token that a packet makes the bind feed to the mechanism. -/
def fedToken (pkt : NcacnPacket) (conn : Connection) : Option Bytes :=
  (conn.pending.find? pkt.isFor).bind fun req => fedBy pkt req.kind conn

/-- Whether a reply has an authentication trailer. -/
def hasTrailer (pkt : NcacnPacket) : Bool :=
  match pkt.payload with
  | .bindAck ack => ack.authInfo.length ≠ 0
  | .alterResp ack => ack.authInfo.length ≠ 0
  | _ => false

/-- The mechanism does not start out content without a token, every reply the bind goes on with has
a trailer (or no credentials are left to be taken for one), and the mechanism does not ask for more
without a token. -/
def ExchangeCondition (M : Mechanism W) (s : Connection × W) (ev : Event) : Prop :=
  match ev with
  | .bindAuth r => r.start = .ok → r.setup = .ok →
      ¬ ((M.update [] s.2).1 = .ok ∧ (M.update [] s.2).2.1 = [])
  | .packet pkt => ∀ token, fedToken pkt s.1 = some token →
      (hasTrailer pkt = true ∨ token = []) ∧
        ¬ ((M.update token s.2).1 = .moreProcessingRequired ∧ (M.update token s.2).2.1 = [])
  | _ => True

/-! ## Steps that do not reach the mechanism -/

/-- The mechanism is not asked, and the bind stays, fails, or ends with the reply to a bind after
which the mechanism wanted nothing more. -/
structure Unfed (log : List Action) (c c' : Connection) : Prop extends HistoryGrows c c' where
  log : ∀ act ∈ log, act.isUpdate = false
  bindAuth : c'.bindAuth = c.bindAuth ∨ (∃ status, status ≠ .ok ∧ c'.bindAuth = .finished status) ∨
    (c.bindAuth = .waitBind false ∧ c'.bindAuth = .finished .ok ∧ c'.history.bindAcked = true)

theorem Undisturbed.unfed (h : Undisturbed c c') (hlog : ∀ act ∈ log, act.isUpdate = false) :
    Unfed log c c' :=
  ⟨.of_eq h.history, hlog, .inl h.bindAuth⟩

theorem Ships.no_update (h : Ships log c c') : ∀ act ∈ log, act.isUpdate = false := by
  intro act hact
  obtain ⟨fragment, rfl⟩ := h.log act hact
  rfl

theorem requestDone_no_update :
    ∀ act ∈ (requestDone M rounds pkt status payload conn w).1, act.isUpdate = false := by
  obtain ⟨log, hlog, hships⟩ := requestDone_ships M rounds pkt status payload conn w
  rw [hlog]
  simpa [or_imp, forall_and, isUpdate] using hships.no_update

theorem requestReply_no_update {req : RpcRequest} {pulled : PulledStub} :
    ∀ act ∈ (requestReply M rounds pkt req pulled conn w).1, act.isUpdate = false := by
  rcases requestReply_cases M rounds pkt req pulled conn w with
    ⟨status, -, heq⟩ | ⟨-, -, heq | heq⟩ <;> rw [heq]
  · exact requestDone_no_update M rounds w
  · simp [isUpdate]
  · simpa [Result.after, isUpdate] using requestDone_no_update M rounds w

theorem Fails.unfed (h : Fails status log c c') (hbad : status ≠ .ok) : Unfed log c c' := by
  refine ⟨.of_eq h.history, ?_, h.bindAuth.imp_right fun hfinished => .inl ⟨status, hbad, hfinished⟩⟩
  intro act hact
  have hfails := h.log act hact
  cases act <;> first | rfl | exact absurd hfails (by simp [failsWith])

/-! ## Replies to binds and alter contexts -/

theorem pullTrailer_token (conn : Connection) (h : pulledToken blob conn.security = some token) :
    (pullTrailer blob conn).1 = .ok ∧
      ∃ auth, (pullTrailer blob conn).2.security.authInfo = some auth ∧
        auth.credentials = token := by
  obtain ⟨auth, hauth, h⟩ := bind_eq_some_iff.mp h
  unfold pullTrailer
  rw [hauth]
  split_ifs at h ⊢ with hempty hshort
  · exact ⟨rfl, auth, hauth, some.inj h⟩
  · simp only [ndrPullDcerpcAuth, hshort, if_false]
    exact ⟨trivial, _, rfl, some.inj h⟩

theorem pullTrailer_no_token (h : pulledToken blob conn.security = none) :
    (pullTrailer blob conn).1 ≠ .ok ∨ (pullTrailer blob conn).2.security.authInfo = none := by
  unfold pulledToken at h
  unfold pullTrailer
  cases hauth : conn.security.authInfo with
  | none => exact .inr hauth
  | some auth =>
    rw [hauth, bind_some] at h
    split_ifs at h ⊢ with hempty hshort
    · left
      simp only [ndrPullDcerpcAuth, hshort, if_true]
      exact (by decide : NtStatus.bufferTooSmall ≠ .ok)

theorem fedBy_eq_some_iff {kind : RequestKind} :
    fedBy pkt kind conn = some token ↔ Awaits kind true conn.bindAuth ∧
      (handledTrailer pkt kind).bind (pulledToken · conn.security) = some token := by
  unfold fedBy Awaits
  split
  · rename_i hwait
    simp [hwait]
  · rename_i hwait
    simp [hwait]
  · rename_i hbind halter
    simp only [reduceCtorEq, false_iff, not_and]
    rintro (⟨hkind, hwait⟩ | ⟨hkind, hwait, -⟩) _
    · exact hbind hkind hwait
    · exact halter hkind hwait

/-- A reply that feeds the mechanism is one call of `bind_auth_next_step`, with the token in
`auth_info`. -/
theorem handlerReply_fed {kind : RequestKind} (conn : Connection)
    (h : fedBy pkt kind conn = some token) :
    ∃ conn₁ auth, handlerReply M pkt kind conn w = bindAuthNextStep M conn₁ w ∧
      conn₁.security.authInfo = some auth ∧ auth.credentials = token ∧
      HistoryGrows conn conn₁ ∧ (kind = .bind → conn₁.history.bindAcked = true) ∧
      Awaits kind true conn.bindAuth := by
  obtain ⟨hawaits, htoken⟩ := fedBy_eq_some_iff.mp h
  obtain ⟨blob, hblob, htoken⟩ := bind_eq_some_iff.mp htoken
  have hkind : kind = .bind ∨ kind = .authAlter := hawaits.imp And.left And.left
  obtain ⟨status, conn₁, hanswers, hpulled, hacked, hpull⟩ :=
    handlerReply_answers M pkt hkind conn w
  rw [hblob] at hpull
  obtain ⟨hok, auth, hauth, hcreds⟩ := pullTrailer_token conn htoken
  obtain ⟨rfl, hsecurity⟩ := hpull
  refine ⟨conn₁, auth, ?_, by rw [hsecurity, hauth], hcreds, hpulled.toHistoryGrows,
    fun hkind => hacked hkind hok, hawaits⟩
  rw [← hpulled.bindAuth] at hawaits
  rcases hanswers with ⟨hnot, -⟩ | ⟨more, hmore, heq⟩
  · exact absurd hawaits (hnot true)
  · rw [heq, if_pos ⟨hok, hmore.more_eq hawaits⟩]

theorem handlerReply_unfed {kind : RequestKind} (conn : Connection)
    (h : fedBy pkt kind conn = none) :
    Unfed (handlerReply M pkt kind conn w).1 conn (handlerReply M pkt kind conn w).2.1 := by
  by_cases hkind : kind = .bind ∨ kind = .authAlter
  · obtain ⟨status, conn₁, hanswers, hpulled, hacked, hpull⟩ :=
      handlerReply_answers M pkt hkind conn w
    have hgrows := hpulled.toHistoryGrows
    rcases hanswers with ⟨-, heq⟩ | ⟨more, hawaits, heq⟩ <;> rw [heq]
    · exact ⟨hgrows, by simp, .inl hpulled.bindAuth⟩
    · split_ifs with hnext
      · -- the bind would go on, but there is no `auth_info`
        obtain ⟨hok, rfl⟩ := hnext
        have hnone : conn₁.security.authInfo = none := by
          cases hblob : handledTrailer pkt kind with
          | none =>
            rw [hblob] at hpull
            exact absurd hok hpull
          | some blob =>
            rw [hblob] at hpull
            obtain ⟨rfl, hsecurity⟩ := hpull
            rw [hsecurity]
            refine (pullTrailer_no_token ?_).resolve_left (not_not.mpr hok)
            rw [eq_none_iff_forall_ne_some] at h ⊢
            exact fun token htoken => h token (fedBy_eq_some_iff.mpr
              ⟨hpulled.bindAuth ▸ hawaits, by rw [hblob]; exact htoken⟩)
        rw [bindAuthNextStep, hnone]
        exact ⟨⟨hgrows.sent, hgrows.acked, hgrows.update⟩, by simp, .inl hpulled.bindAuth⟩
      · refine ⟨⟨hgrows.sent, hgrows.acked, hgrows.update⟩,
          by simp [finishBindAuth, isUpdate], .inr ?_⟩
        by_cases hok : status = .ok
        · rw [hpulled.bindAuth] at hawaits
          rcases hawaits with ⟨hbind, hwait⟩ | ⟨-, -, hmore⟩
          · have hmore : more = false := by simpa [hok] using hnext
            exact .inr ⟨hmore ▸ hwait, by simp [finishBindAuth, hok], hacked hbind hok⟩
          · exact absurd ⟨hok, hmore⟩ hnext
        · exact .inl ⟨status, hok, rfl⟩
  cases kind with
  | request => exact ⟨.of_eq rfl, by simp [handlerReply], .inl rfl⟩
  | alter =>
    have hpulled := dcerpcAlterRecvHandler_pulled pkt conn
    exact ⟨hpulled.toHistoryGrows, by simp [handlerReply, isUpdate], .inl hpulled.bindAuth⟩
  | _ => exact absurd (by simp) hkind

/-! ## Packets -/

theorem Unfed.after {log' : List Action} (h : Unfed log' c c')
    (hlog : ∀ act ∈ log, act.isUpdate = false) : Unfed (log ++ log') c c' := by
  refine { h with log := ?_ }
  intro act hact
  rcases List.mem_append.mp hact with hact | hact
  · exact hlog act hact
  · exact h.log act hact

theorem verified_not_update (check : Option (Protection × NtStatus)) :
    ∀ act ∈ check.toList.map (fun c => verified c.1 c.2), act.isUpdate = false := by
  intro act hact
  obtain ⟨c, -, rfl⟩ := List.mem_map.mp hact
  rfl

theorem dcerpcRequestRecvData_unfed (h : fedToken pkt conn = none) :
    Unfed (dcerpcRequestRecvData M rounds pkt conn w).1 conn
      (dcerpcRequestRecvData M rounds pkt conn w).2.1 := by
  unfold fedToken at h
  unfold dcerpcRequestRecvData
  cases hfind : conn.pending.find? pkt.isFor with
  | none => exact ⟨.of_eq rfl, verified_not_update _, .inl rfl⟩
  | some req =>
    rw [hfind] at h
    simp only
    split_ifs
    · exact ((requestReply_undisturbed M rounds pkt req _ conn _).unfed
        (requestReply_no_update M rounds _)).after (verified_not_update _)
    · have hreply := handlerReply_unfed M (verifyResponse M pkt conn.security w).2
        { conn with pending := conn.pending.eraseP pkt.isFor } h
      exact Unfed.after ⟨⟨hreply.sent, hreply.acked, hreply.update⟩, hreply.log,
        hreply.bindAuth⟩ (verified_not_update _)

/-- A reply that feeds the mechanism is not a response, so nothing is verified
before. -/
theorem dcerpcRequestRecvData_fed (h : fedToken pkt conn = some token) :
    ∃ conn₁ auth, dcerpcRequestRecvData M rounds pkt conn w = bindAuthNextStep M conn₁ w ∧
      conn₁.security.authInfo = some auth ∧ auth.credentials = token ∧
      HistoryGrows conn conn₁ ∧
      ((conn.bindAuth = .waitBind true ∧ conn₁.history.bindAcked = true) ∨
        conn.bindAuth = .waitAlter) := by
  obtain ⟨req, hfind, hfed⟩ := bind_eq_some_iff.mp h
  obtain ⟨conn₁, auth, heq, hauth, hcreds, hgrows, hacked, hkind⟩ :=
    handlerReply_fed M w { conn with pending := conn.pending.eraseP pkt.isFor } hfed
  have hpayload : ∀ stub, pkt.payload ≠ .response stub := by
    intro stub hresponse
    have htoken := (fedBy_eq_some_iff.mp hfed).2
    simp [handledTrailer, hresponse] at htoken
  have hverify : verifyResponse M pkt conn.security w = (⟨.ok, [], none⟩, w) := by
    unfold verifyResponse
    cases hp : pkt.payload with
    | response stub => exact absurd hp (hpayload stub)
    | _ => rfl
  refine ⟨conn₁, auth, ?_, hauth, hcreds, ⟨hgrows.sent, hgrows.acked, hgrows.update⟩, ?_⟩
  · have hne : req.kind ≠ .request := by
      rcases hkind with ⟨hkind, -⟩ | ⟨hkind, -⟩ <;> simp [hkind]
    simp only [dcerpcRequestRecvData, hverify, hfind, hne, if_false, heq]
    rfl
  · rcases hkind with ⟨hkind, hwait⟩ | ⟨-, hwait, -⟩
    · exact .inl ⟨hwait, hacked hkind⟩
    · exact .inr hwait

theorem handledTrailer_payload {kind : RequestKind} (h : handledTrailer pkt kind = some blob) :
    ∃ ack, (pkt.payload = .bindAck ack ∨ pkt.payload = .alterResp ack) ∧ blob = ack.authInfo := by
  unfold handledTrailer at h
  split at h <;> simp at h
  all_goals rename_i ack hpayload; exact ⟨ack, by simp [hpayload], h.2.symm⟩

/-- A packet feeds the mechanism what it carries iff it has a trailer or there are
no credentials to be taken for one. -/
theorem fedToken_eq_carried_iff (h : fedToken pkt conn = some token) :
    token = carriedToken pkt ↔ (hasTrailer pkt = true ∨ token = []) := by
  have hpulled : ∀ blob, pulledToken blob conn.security = some token →
      (token = blob.drop 8 ↔ (blob.length ≠ 0 ∨ token = [])) := by
    intro blob hblob
    obtain ⟨auth, -, hblob⟩ := bind_eq_some_iff.mp hblob
    split_ifs at hblob with hempty hshort
    · rw [List.eq_nil_of_length_eq_zero hempty]
      simp
    · simp [← some.inj hblob, hempty]
  have hhandled : ∀ kind blob, handledTrailer pkt kind = some blob →
      carriedToken pkt = blob.drop 8 ∧ (hasTrailer pkt = true ↔ blob.length ≠ 0) := by
    intro kind blob hblob
    obtain ⟨ack, hpayload, rfl⟩ := handledTrailer_payload hblob
    rcases hpayload with hpayload | hpayload <;> simp [carriedToken, hasTrailer, hpayload]
  obtain ⟨req, -, hfed⟩ := bind_eq_some_iff.mp h
  obtain ⟨blob, hblob, htoken⟩ := bind_eq_some_iff.mp (fedBy_eq_some_iff.mp hfed).2
  obtain ⟨hcarried, htrailer⟩ := hhandled _ blob hblob
  rw [hcarried, htrailer]
  exact hpulled blob htoken

/-! ## Runs -/

/-- The connection when an answer of the mechanism has been noted. -/
def noteUpdate (status : NtStatus) (conn : Connection) : Connection :=
  { conn with history := { conn.history with lastUpdate := some status } }

theorem bindAuthNextStep_some {auth : DcerpcAuth} (h : conn.security.authInfo = some auth) :
    bindAuthNextStep M conn w =
      let answer := M.update auth.credentials w
      .after [.update auth.credentials answer.1 answer.2.1]
        (sendToken M auth answer.1 answer.2.1 (noteUpdate answer.1 conn) answer.2.2) := by
  unfold bindAuthNextStep
  rw [h]
  rfl

/-- What holds between the events of an authenticated bind. -/
structure BindInv (c : Connection) : Prop where
  started : c.bindAuth ≠ .idle
  waitBind : ∀ more, c.bindAuth = .waitBind more →
    c.history.bindSent = true ∧ (more = false → c.history.lastUpdate = some .ok)
  waitAlter : c.bindAuth = .waitAlter →
    c.history.bindSent = true ∧ c.history.bindAcked = true
  finished : SuccessEarned c

theorem successEarned_of_failed (hbad : status ≠ .ok) (hc : c.bindAuth = .finished status) :
    SuccessEarned c := by
  intro hdone
  exact absurd (BindAuth.finished.inj (hc.symm.trans hdone)) hbad

theorem bindInv_of_finished (hc : c.bindAuth = .finished status) (hearned : SuccessEarned c) :
    BindInv c :=
  ⟨by simp [hc], by simp [hc], by simp [hc], hearned⟩

/-- A step that does not reach the mechanism keeps the invariant. -/
theorem BindInv.unfed (hinv : BindInv c) (h : Unfed log c c') : BindInv c' := by
  rcases h.bindAuth with hsame | ⟨status, hbad, hfailed⟩ | ⟨hwait, hdone, hacked⟩
  · refine ⟨by rw [hsame]; exact hinv.started, ?_, ?_, ?_⟩
    · intro more hmore
      rw [h.sent, h.update]
      exact hinv.waitBind more (hsame.symm.trans hmore)
    · intro hwait
      obtain ⟨hsent, hacked⟩ := hinv.waitAlter (hsame.symm.trans hwait)
      exact ⟨h.sent.trans hsent, h.acked hacked⟩
    · intro hdone
      obtain ⟨hsent, hacked, hupdate⟩ := hinv.finished (hsame.symm.trans hdone)
      exact ⟨h.sent.trans hsent, h.acked hacked, h.update.trans hupdate⟩
  · exact bindInv_of_finished hfailed (successEarned_of_failed hbad hfailed)
  · refine bindInv_of_finished hdone fun _ => ?_
    obtain ⟨hsent, hupdate⟩ := hinv.waitBind false hwait
    exact ⟨h.sent.trans hsent, hacked, h.update.trans (hupdate rfl)⟩

/-- Every event but the start of a bind and a reply that goes on with it. -/
theorem handle_unfed {ev : Event} (hev : ∀ r, ev ≠ .bindAuth r)
    (hfed : ∀ pkt, ev = .packet pkt → fedToken pkt conn = none) :
    Unfed (handle M rounds conn w ev).1 conn (handle M rounds conn w ev).2.1 := by
  by_cases hfailure : ev.isFailure = true
  · obtain ⟨status, hbad, hfails⟩ := handle_fails M rounds conn w hfailure
    exact hfails.unfed hbad
  cases ev with
  | bindAuth r => exact absurd rfl (hev r)
  | request asyncCall call =>
    have hships := dcerpcRequestSend_ships M rounds conn w asyncCall call
    exact hships.toUndisturbed.unfed hships.no_update
  | alterContext =>
    obtain ⟨-, hundisturbed, hlog⟩ := handle_alterContext_serves M rounds conn w
    exact hundisturbed.unfed hlog
  | packet pkt => exact dcerpcRequestRecvData_unfed M rounds w (hfed pkt rfl)
  | _ => exact absurd rfl hfailure

/-- A reply that goes on with the bind: the mechanism is fed the token once, and
one leg follows. -/
theorem handle_fed (hinv : BindInv conn) (hfed : fedToken pkt conn = some token) :
    ∃ conn₁ rest, (handle M rounds conn w (.packet pkt)).1 =
        .update token (M.update token w).1 (M.update token w).2.1 :: rest ∧
      conn₁.history = ⟨true, true, some (M.update token w).1⟩ ∧
      Leg (M.update token w).1 (M.update token w).2.1 rest conn₁
        (handle M rounds conn w (.packet pkt)).2.1 := by
  obtain ⟨conn₁, auth, heq, hauth, hcreds, hgrows, hwait⟩ :=
    dcerpcRequestRecvData_fed M rounds w hfed
  have hsent : conn₁.history.bindSent = true ∧ conn₁.history.bindAcked = true := by
    rw [hgrows.sent]
    rcases hwait with ⟨hwait, hacked⟩ | hwait
    · exact ⟨(hinv.waitBind true hwait).1, hacked⟩
    · exact ⟨(hinv.waitAlter hwait).1, hgrows.acked (hinv.waitAlter hwait).2⟩
  have hstep : handle M rounds conn w (.packet pkt) = bindAuthNextStep M conn₁ w := heq
  rw [hstep, bindAuthNextStep_some M w hauth, hcreds]
  refine ⟨noteUpdate (M.update token w).1 conn₁, _, rfl, ?_, sendToken_leg M _ _ _ hauth⟩
  simp [noteUpdate, hsent.1, hsent.2]

/-- The steps of a bind that was started: sound exactly under the condition, and
then the invariant goes on. -/
theorem bindAuthSound_step {M : Mechanism W} {rounds : Nat} {s s' : Connection × W} {ev : Event}
    (hinv : BindInv s.1) (h : (connection M rounds).step s ev = some (log, s')) :
    (BindAuthSound s ev log s' ↔ ExchangeCondition M s ev) ∧
      (BindAuthSound s ev log s' → BindInv s'.1) := by
  obtain ⟨hhandle, hev⟩ := connection_step hinv.started h
  by_cases hfed : ∃ pkt token, ev = .packet pkt ∧ fedToken pkt s.1 = some token
  · -- a reply that goes on with the bind
    obtain ⟨pkt, token, rfl, htoken⟩ := hfed
    obtain ⟨conn₁, rest, hlog, hhistory, hleg⟩ := handle_fed M rounds s.2 hinv htoken
    rw [hhandle] at hlog hleg
    simp only at hlog hleg
    have hupdates : (∀ input status output, .update input status output ∈ log →
        (∃ r, Event.packet pkt = .bindAuth r) ∨
          ∃ pkt', Event.packet pkt = .packet pkt' ∧ input = carriedToken pkt') ↔
        token = carriedToken pkt := by
      rw [hlog]
      constructor
      · intro hall
        rcases hall token _ _ List.mem_cons_self with ⟨r, hr⟩ | ⟨pkt', hpkt, hinput⟩
        · simp at hr
        · rw [hinput, Event.packet.inj hpkt]
      · intro hcarried input status output hmem
        rcases List.mem_cons.mp hmem with heq | hmem
        · exact .inr ⟨pkt, rfl, (update.inj heq).1.trans hcarried⟩
        · exact absurd (hleg.log _ hmem) (by simp [isUpdate])
    have hearned : SuccessEarned s'.1 ↔ ¬ ((M.update token s.2).1 = .moreProcessingRequired ∧
        (M.update token s.2).2.1 = []) := by
      unfold SuccessEarned
      rw [hleg.history, hhistory]
      constructor
      · rintro hsuccess ⟨hmore, hempty⟩
        have hupdate := (hsuccess (hleg.silent hmore hempty)).2.2
        rw [hmore] at hupdate
        simp at hupdate
      · intro hcond hdone
        rcases hleg.success hdone with hok | hsilent
        · exact ⟨rfl, rfl, by rw [hok]⟩
        · exact absurd hsilent hcond
    refine ⟨?_, ?_⟩
    · unfold BindAuthSound ExchangeCondition
      rw [hupdates, hearned, fedToken_eq_carried_iff htoken]
      constructor
      · rintro ⟨hcond, htrailer⟩ token' htoken'
        obtain rfl : token = token' := some.inj (htoken.symm.trans htoken')
        exact ⟨htrailer, hcond⟩
      · intro hcond
        exact ⟨(hcond token htoken).2, (hcond token htoken).1⟩
    · rintro ⟨hsuccess, -⟩
      rcases hleg.bindAuth with hwait | ⟨final, hfinal⟩
      · refine ⟨by simp [hwait], by simp [hwait], ?_, hsuccess⟩
        intro _
        rw [hleg.history, hhistory]
        exact ⟨rfl, rfl⟩
      · exact bindInv_of_finished hfinal hsuccess
  · -- nothing reaches the mechanism
    have hnone : ∀ pkt, ev = .packet pkt → fedToken pkt s.1 = none := by
      intro pkt hpkt
      cases htoken : fedToken pkt s.1 with
      | none => rfl
      | some token => exact absurd ⟨pkt, token, hpkt, htoken⟩ hfed
    have hunfed := handle_unfed M rounds s.2 hev hnone
    rw [hhandle] at hunfed
    have hinv' := hinv.unfed hunfed
    refine ⟨iff_of_true ⟨hinv'.finished, ?_⟩ ?_, fun _ => hinv'⟩
    · intro input status output hmem
      exact absurd (hunfed.log _ hmem) (by simp [isUpdate])
    · cases ev with
      | bindAuth r => exact absurd rfl (hev r)
      | packet pkt =>
        intro token htoken
        rw [hnone pkt rfl] at htoken
        simp at htoken
      | _ => trivial

/-- A bind that was just sent, or whose send failed. -/
theorem bindInv_of_sent (more : Bool) (sent : NtStatus × Result W)
    (hsent : sent.2.2.1.history.bindSent = true)
    (hmore : more = false → sent.2.2.1.history.lastUpdate = some .ok) :
    SuccessEarned (continueBindAuth (.waitBind more) sent).2.1 ∧
      BindInv (continueBindAuth (.waitBind more) sent).2.1 := by
  rcases continueBindAuth_cases (.waitBind more) sent with ⟨-, heq⟩ | ⟨hbad, heq⟩ <;> rw [heq]
  · refine ⟨fun h => BindAuth.noConfusion h, BindAuth.noConfusion, ?_,
      fun h => BindAuth.noConfusion h, fun h => BindAuth.noConfusion h⟩
    intro more' hwait
    have hsame : more = more' := BindAuth.waitBind.inj hwait
    exact ⟨hsent, hsame ▸ hmore⟩
  · have hearned := successEarned_of_failed (c := (Result.after sent.2.1 (finishBindAuth sent.1
      { sent.2.2.1 with halted := true } sent.2.2.2)).2.1) hbad rfl
    exact ⟨hearned, bindInv_of_finished rfl hearned⟩

/-- The call that starts the bind. -/
theorem dcerpcBindAuthSend_sound (r : BindRequest) :
    (SuccessEarned (dcerpcBindAuthSend M r dcerpcConnectionInit w).2.1 ↔
      ExchangeCondition M (dcerpcConnectionInit, w) (.bindAuth r)) ∧
    (SuccessEarned (dcerpcBindAuthSend M r dcerpcConnectionInit w).2.1 →
      BindInv (dcerpcBindAuthSend M r dcerpcConnectionInit w).2.1) := by
  have hnotOk : ∀ status : NtStatus, (!status.isOk) = true ↔ status ≠ .ok := by
    intro status
    rw [Bool.not_eq_true', ← Bool.not_eq_true, NtStatus.isOk_iff]
  unfold dcerpcBindAuthSend ExchangeCondition
  split_ifs with hstart hsetup
  · rw [hnotOk] at hstart
    refine ⟨iff_of_true (successEarned_of_failed hstart rfl) ?_, bindInv_of_finished rfl⟩
    exact fun h => absurd h hstart
  · rw [hnotOk] at hsetup
    refine ⟨iff_of_true (successEarned_of_failed hsetup rfl) ?_, bindInv_of_finished rfl⟩
    exact fun _ h => absurd h hsetup
  · rw [hnotOk, not_not] at hstart hsetup
    simp only [hstart, hsetup, true_implies]
    cases hanswer : M.update [] w with
    | mk status answer =>
      obtain ⟨token, w'⟩ := answer
      simp only [gensecUpdate, hanswer]
      split_ifs with hbad hempty
      · -- the mechanism fails at once
        rw [Bool.and_eq_true, hnotOk] at hbad
        refine ⟨iff_of_true (successEarned_of_failed hbad.1 rfl) ?_, bindInv_of_finished rfl⟩
        exact fun h => hbad.1 h.1
      · -- no token to send: success iff the mechanism is content
        refine ⟨?_, bindInv_of_finished rfl⟩
        constructor
        · rintro hearned ⟨rfl, -⟩
          exact absurd (hearned rfl).2.1 Bool.false_ne_true
        · intro hcond
          refine successEarned_of_failed ?_ rfl
          exact fun h => hcond ⟨h, List.length_eq_zero_iff.mp hempty⟩
      · -- the bind goes out with the first token
        have hsound := bindInv_of_sent (status == .moreProcessingRequired)
          (dcerpcBindSend M (setCredentials r.authInfo token (noteUpdate status
            { dcerpcConnectionInit with security := ⟨some r.authInfo, true⟩ })) w') rfl (by
            intro hmore
            rw [hmore, Bool.not_false, Bool.and_true, hnotOk, not_not] at hbad
            rw [hbad]
            rfl)
        refine ⟨iff_of_true hsound.1 ?_, fun _ => hsound.2⟩
        exact fun h => hempty (by rw [h.2]; rfl)

/-- **What success of an authenticated bind means.** For every mechanism, transport and sequence of
events: success is earned at every step and the mechanism is fed the server's tokens only, iff every
step meets `ExchangeCondition`. -/
theorem bind_auth_sound_iff (M : Mechanism W) (rounds : Nat) (w : W) (r : BindRequest)
    (events : List Event) :
    (connection M rounds).EachStep BindAuthSound (dcerpcConnectionInit, w)
        (.bindAuth r :: events) ↔
      (connection M rounds).EachStep (fun s ev _ _ => ExchangeCondition M s ev)
        (dcerpcConnectionInit, w) (.bindAuth r :: events) := by
  refine Machine.eachStep_cons_congr fun log s' hstep => ?_
  have hs' : dcerpcBindAuthSend M r dcerpcConnectionInit w = (log, s') := some.inj hstep
  obtain ⟨hiff, hinv⟩ := dcerpcBindAuthSend_sound M w r
  rw [hs'] at hiff hinv
  have hfirst : BindAuthSound (dcerpcConnectionInit, w) (.bindAuth r) log s' ↔
      SuccessEarned s'.1 := and_iff_left fun _ _ _ _ => .inl ⟨r, rfl⟩
  rw [hfirst]
  refine ⟨hiff, fun hearned => ?_⟩
  exact Machine.eachStep_congr (I := fun s => BindInv s.1)
    (fun _ _ _ _ hinv h => (bindAuthSound_step hinv h).2)
    (fun _ _ _ _ hinv h => (bindAuthSound_step hinv h).1)
    events s' (hinv hearned)

/-! ## The three exchanges -/

/-- A mechanism that gives the answers of a list in turn. -/
def answering (answers : List (NtStatus × Bytes)) : Mechanism Nat where
  update _ n := ((answers.getD n (.invalidParameter, [])).1,
    (answers.getD n (.invalidParameter, [])).2, n + 1)
  sigSize _ _ := 16
  sealPacket data _ n := (.ok, data, [], n)
  signPacket _ _ n := (.ok, [], n)
  unsealPacket data _ n := (.ok, data, n)
  checkPacket _ _ n := (.ok, n)
  sendRequest n := (.ok, n)

/-- A bind with NTLMSSP at INTEGRITY. -/
def integrityBind : BindRequest := ⟨10, levelIntegrity, 5, .ok, .ok⟩

/-- A mechanism that is content at once, or asks for more, without a token: success. An
acknowledgement without a trailer: the client's token `[1]` is fed back to it. -/
theorem bind_auth_unsound_exchanges :
    ¬ (connection (answering [(.ok, [])]) 0).EachStep BindAuthSound (dcerpcConnectionInit, 0)
        [.bindAuth integrityBind] ∧
    ¬ (connection (answering [(.moreProcessingRequired, [1]), (.moreProcessingRequired, [])])
        0).EachStep BindAuthSound (dcerpcConnectionInit, 0)
        [.bindAuth integrityBind, .packet (bindAckWith [10, 5, 0, 0, 5, 0, 0, 0, 2])] ∧
    ¬ (connection (answering [(.moreProcessingRequired, [1]), (.ok, [3])]) 0).EachStep
        BindAuthSound (dcerpcConnectionInit, 0)
        [.bindAuth integrityBind, .packet (bindAckWith [])] := by
  refine ⟨?_, ?_, ?_⟩
  · intro h
    obtain ⟨⟨hearned, -⟩, -⟩ := h _ _ rfl
    exact absurd (hearned (by decide)).1 (by decide)
  · intro h
    obtain ⟨-, h⟩ := h _ _ rfl
    obtain ⟨⟨hearned, -⟩, -⟩ := h _ _ rfl
    exact absurd (hearned (by decide)).2.2 (by decide)
  · intro h
    obtain ⟨-, h⟩ := h _ _ rfl
    obtain ⟨⟨-, hfed⟩, -⟩ := h _ _ rfl
    rcases hfed [1] .ok [3] (by decide) with ⟨r, hr⟩ | ⟨pkt, hpkt, hinput⟩
    · simp at hr
    · rw [← Event.packet.inj hpkt] at hinput
      exact absurd hinput (by decide)

end OpenvasSmb.Dcerpc

import OpenvasSmb.Dcerpc.Connection

/-!
# What the functions of a connection leave alone

The authentication type, level and context id in `auth_info` are the key of a connection's
security state. Shipping and completing requests leaves the key, the authenticated bind and the
history as they are (`Undisturbed`, `Ships`); failing them can only end a bind that waits
(`Fails`); the functions of the bind keep the key and neither send requests nor accept stubs
(`Serves`, `AuthOnly`). Only `pullTrailer` can change the key (`Pulled`), and the bind moves on
only while it waits for a reply (`Moves`).
-/

namespace OpenvasSmb.Dcerpc

open List SecurityState NtStatus Dcerpc.Action Option

variable {W : Type} {c c' c₁ c₂ c₃ : Connection} {log log' : List Action}

/-- Type, level and context id of a trailer. -/
def DcerpcAuth.key (auth : DcerpcAuth) : UInt8 × UInt8 × UInt32 :=
  (auth.authType, auth.authLevel, auth.authContextId)

/-- The key of `auth_info`, and whether the gensec context is there. -/
def SecurityState.key (sec : SecurityState) : Option (UInt8 × UInt8 × UInt32) × Bool :=
  (sec.authInfo.map DcerpcAuth.key, sec.genericState)

theorem SecurityState.active_key {sec : SecurityState} {k : UInt8 × UInt8 × UInt32}
    (h : sec.key = (some k, true)) : ∃ auth, sec.active = some auth ∧ auth.key = k := by
  cases sec with
  | mk authInfo genericState =>
    cases authInfo with
    | none => simp [key] at h
    | some auth =>
      simp only [key, map_some, Prod.mk.injEq, some.injEq] at h
      exact ⟨auth, by simp [active, h.2], h.1⟩

theorem SecurityState.authInfo_of_active {sec : SecurityState} {auth : DcerpcAuth}
    (h : sec.active = some auth) : sec.authInfo = some auth := by
  unfold active at h
  split at h
  · exact h
  · simp at h

/-! ## Requests that are only moved -/

def Connection.requests (conn : Connection) : List RpcRequest := conn.pending ++ conn.requestQueue

/-- Every request was there before, or is new. -/
def Drawn (c c' : Connection) : Prop :=
  ∀ req' ∈ c'.requests, req'.payload = [] ∨ req' ∈ c.requests

theorem Drawn.refl (c : Connection) : Drawn c c := fun _ h => .inr h

theorem Drawn.trans (h₁ : Drawn c₁ c₂) (h₂ : Drawn c₂ c₃) : Drawn c₁ c₃ := by
  intro req h
  rcases h₂ req h with hnew | h
  · exact .inl hnew
  · exact h₁ req h

theorem Drawn.of_sublists (hpending : c'.pending.Sublist c.pending)
    (hqueue : c'.requestQueue.Sublist c.requestQueue) : Drawn c c' := by
  intro req h
  rcases mem_append.mp h with h | h
  · exact .inr (mem_append_left _ (hpending.subset h))
  · exact .inr (mem_append_right _ (hqueue.subset h))

theorem Drawn.of_eq (hpending : c'.pending = c.pending)
    (hqueue : c'.requestQueue = c.requestQueue) : Drawn c c' :=
  .of_sublists (by rw [hpending]) (by rw [hqueue])

theorem Drawn.erased (pkt : NcacnPacket) (c : Connection) :
    Drawn c { c with pending := c.pending.eraseP pkt.isFor } :=
  .of_sublists eraseP_sublist (List.Sublist.refl _)

/-! ## Shipping requests -/

/-- Nothing happened to the key, the authenticated bind and the history. -/
structure Undisturbed (c c' : Connection) : Prop where
  key : c'.security.key = c.security.key
  bindAuth : c'.bindAuth = c.bindAuth
  history : c'.history = c.history

theorem Undisturbed.refl (c : Connection) : Undisturbed c c := ⟨rfl, rfl, rfl⟩

variable (M : Mechanism W)

theorem ncacnPushRequestSign_key (sec : SecurityState) (w : W)
    (pkt : RequestPacket) : (ncacnPushRequestSign M sec w pkt).2.1.key = sec.key := by
  unfold ncacnPushRequestSign
  split
  · rfl
  · rename_i auth hactive
    have hauth := authInfo_of_active hactive
    simp only
    -- every branch stores the record it found, with other credentials and padding
    split_ifs <;> simp [key, DcerpcAuth.key, DcerpcAuth.forPacket, hauth]

theorem sendFragments_key (size total : Nat) :
    ∀ fuel pkt sec w remaining,
      (sendFragments M size total fuel pkt sec w remaining).2.2.1.key = sec.key := by
  intro fuel
  induction fuel with
  | zero => intro pkt sec w remaining; rfl
  | succ fuel ih =>
    intro pkt sec w remaining
    have hkey := ncacnPushRequestSign_key M sec w
      (pkt.fragment total (min size remaining.length) remaining)
    unfold sendFragments
    simp only
    split
    · rename_i status sec' w' hpush
      rwa [hpush] at hkey
    · rename_i signed sec' w' hpush
      rw [hpush] at hkey
      split_ifs
      · exact hkey
      · exact hkey
      · exact (ih _ _ _ _).trans hkey

/-- Requests are sent, and nothing else happens. -/
structure Ships (log : List Action) (c c' : Connection) : Prop extends Undisturbed c c' where
  drawn : Drawn c c'
  log : ∀ act ∈ log, ∃ fragment, act = .sentRequest fragment

variable (rounds : Nat) (pkt : NcacnPacket) (status : NtStatus) (payload : Bytes)
  (req : RpcRequest) (pulled : PulledStub) (kind : RequestKind) (token : Bytes) (conn : Connection)
  (w : W)

theorem dcerpcShipNextRequest_ships :
    Ships (dcerpcShipNextRequest M rounds conn w).1 conn
      (dcerpcShipNextRequest M rounds conn w).2.1 := by
  have hnothing : Ships [] conn conn := ⟨.refl conn, .refl conn, by simp⟩
  unfold dcerpcShipNextRequest
  split
  · exact hnothing
  · rename_i req queue hqueue
    have hkey := sendFragments_key M (chunkSize conn.srvMaxRecvFrag req.call.object.isSome)
      req.call.stub.length (req.call.stub.length + 1 + rounds) req.packet conn.security w
      req.call.stub
    have hmoved : ∀ req' ∈ req :: conn.pending ++ queue, req'.payload = [] ∨
        req' ∈ conn.requests := by
      intro req' h
      right
      rw [Connection.requests, hqueue]
      simp only [cons_append, mem_cons, mem_append] at h ⊢
      tauto
    split_ifs
    · exact hnothing
    · simp only [shipRequest]
      split
      · exact ⟨⟨hkey, rfl, rfl⟩, hmoved, by simp⟩
      · exact ⟨⟨hkey, rfl, rfl⟩, fun req' h => hmoved req' (mem_cons_of_mem _ h), by simp⟩
      · exact ⟨⟨hkey, rfl, rfl⟩, hmoved, by simp⟩

theorem dcerpcRequestSend_ships (asyncCall : Bool) (call : Call) :
    Ships (dcerpcRequestSend M rounds conn w asyncCall call).1 conn
      (dcerpcRequestSend M rounds conn w asyncCall call).2.1 := by
  have hships := dcerpcShipNextRequest_ships M rounds
    { conn with
      callId := nextCallId conn.callId
      requestQueue := conn.requestQueue ++
        [⟨nextCallId conn.callId, .request, asyncCall, call, []⟩] } w
  refine ⟨⟨hships.key, hships.bindAuth, hships.history⟩, .trans ?_ hships.drawn, hships.log⟩
  intro req' h
  simp only [Connection.requests, mem_append, mem_singleton] at h ⊢
  rcases h with h | h | rfl
  · exact .inr (.inl h)
  · exact .inr (.inr h)
  · exact .inl rfl

theorem requestDone_ships :
    ∃ log, (requestDone M rounds pkt status payload conn w).1 =
        log ++ [.completed pkt.callId status payload] ∧
      Ships log conn (requestDone M rounds pkt status payload conn w).2.1 := by
  have hships := dcerpcShipNextRequest_ships M rounds
    { conn with pending := conn.pending.eraseP pkt.isFor } w
  exact ⟨_, rfl, ⟨hships.key, hships.bindAuth, hships.history⟩,
    (Drawn.erased pkt conn).trans hships.drawn, hships.log⟩

/-- A packet for a plain request completes it with an error, or its stub is accepted. -/
theorem requestReply_cases :
    (∃ status, status ≠ .ok ∧ requestReply M rounds pkt req pulled conn w =
      requestDone M rounds pkt status req.payload conn w) ∨
    ((∃ stub, pkt.payload = .response stub) ∧ pulled.status = .ok ∧
      (requestReply M rounds pkt req pulled conn w =
        ([.accepted pkt.callId pulled.stub],
          { conn with
            pending := conn.pending.modify (conn.pending.findIdx pkt.isFor) fun req' =>
              { req' with payload := req.payload ++ pulled.stub } }, w) ∨
      requestReply M rounds pkt req pulled conn w = .after [.accepted pkt.callId pulled.stub]
        (requestDone M rounds pkt .ok (req.payload ++ pulled.stub) conn w))) := by
  unfold requestReply
  split
  · refine .inl ⟨_, ?_, rfl⟩
    split_ifs <;> decide
  · rename_i stub hpayload
    split_ifs with hbad _ hmore
    · exact .inl ⟨_, fun hok => by simp [hok] at hbad, rfl⟩
    · exact .inl ⟨_, by decide, rfl⟩
    · exact .inr ⟨⟨stub, hpayload⟩, by simpa [isOk_iff] using hbad, .inl rfl⟩
    · exact .inr ⟨⟨stub, hpayload⟩, by simpa [isOk_iff] using hbad, .inr rfl⟩
  · exact .inl ⟨_, by decide, rfl⟩

theorem requestReply_undisturbed :
    Undisturbed conn (requestReply M rounds pkt req pulled conn w).2.1 := by
  have hdone : ∀ status payload,
      Undisturbed conn (requestDone M rounds pkt status payload conn w).2.1 := by
    intro status payload
    obtain ⟨log, -, hships⟩ := requestDone_ships M rounds pkt status payload conn w
    exact hships.toUndisturbed
  rcases requestReply_cases M rounds pkt req pulled conn w with
    ⟨status, -, heq⟩ | ⟨-, -, heq | heq⟩ <;> rw [heq]
  · exact hdone status req.payload
  · exact ⟨rfl, rfl, rfl⟩
  · exact hdone .ok (req.payload ++ pulled.stub)

/-! ## Failing requests -/

/-- The bind stays where it is, or it was waiting for a reply and has started. -/
def Moves (a b : BindAuth) : Prop :=
  b = a ∨ ((a = .waitAlter ∨ ∃ more, a = .waitBind more) ∧ b ≠ .idle)

theorem Moves.refl (a : BindAuth) : Moves a a := .inl rfl

theorem Moves.trans {a b c : BindAuth} (h₁ : Moves a b) (h₂ : Moves b c) : Moves a c := by
  rcases h₁ with rfl | ⟨hwait, hb⟩
  · exact h₂
  · rcases h₂ with rfl | ⟨_, hc⟩
    · exact .inr ⟨hwait, hb⟩
    · exact .inr ⟨hwait, hc⟩

theorem Moves.finished {b : BindAuth} {status : NtStatus} (h : Moves (.finished status) b) :
    b = .finished status := by
  rcases h with rfl | ⟨hwait, _⟩
  · rfl
  · simp at hwait

theorem Moves.ne_idle {a b : BindAuth} (h : Moves a b) (ha : a ≠ .idle) : b ≠ .idle := by
  rcases h with rfl | ⟨_, hb⟩
  · exact ha
  · exact hb

/-- Whether an action tells of a failure with the status given. -/
def Action.failsWith (status : NtStatus) : Action → Bool
  | .completed _ result _ => result == status
  | .alterDone _ => true
  | .bindAuthDone _ => true
  | _ => false

/-- Requests are taken out of the lists and fail. -/
structure Fails (status : NtStatus) (log : List Action) (c c' : Connection) : Prop where
  security : c'.security = c.security
  history : c'.history = c.history
  drawn : Drawn c c'
  moves : Moves c.bindAuth c'.bindAuth
  bindAuth : c'.bindAuth = c.bindAuth ∨ c'.bindAuth = .finished status
  log : ∀ act ∈ log, act.failsWith status = true

theorem Fails.refl (status : NtStatus) (c : Connection) : Fails status [] c c :=
  ⟨rfl, rfl, .refl c, .refl _, .inl rfl, by simp⟩

theorem Fails.trans {status : NtStatus} (h₁ : Fails status log c₁ c₂) (h₂ : Fails status log' c₂ c₃) :
    Fails status (log ++ log') c₁ c₃ := by
  refine ⟨h₂.security.trans h₁.security, h₂.history.trans h₁.history, h₁.drawn.trans h₂.drawn,
    h₁.moves.trans h₂.moves, ?_, ?_⟩
  · rcases h₂.bindAuth with hsame | hfinished
    · rw [hsame]
      exact h₁.bindAuth
    · exact .inr hfinished
  · intro act hact
    rcases mem_append.mp hact with hact | hact
    · exact h₁.log act hact
    · exact h₂.log act hact

theorem failRequest_fails :
    Fails status (failRequest status req conn).1 conn (failRequest status req conn).2 := by
  unfold failRequest
  split
  iterate 2 exact ⟨rfl, rfl, .refl _, .refl _, .inl rfl, by simp [failsWith]⟩
  · rename_i more _ hwait
    exact ⟨rfl, rfl, .of_eq rfl rfl, .inr ⟨.inr ⟨more, hwait⟩, by simp⟩, .inr rfl,
      by simp [failsWith]⟩
  · rename_i _ hwait
    exact ⟨rfl, rfl, .of_eq rfl rfl, .inr ⟨.inl hwait, by simp⟩, .inr rfl,
      by simp [failsWith]⟩
  · exact .refl status conn

/-- A relation that failing one request preserves holds across the loss of the
connection. -/
theorem dcerpcConnectionDead_induction {R : List Action → Connection → Connection → Prop}
    (hrefl : ∀ conn, R [] conn conn) (hstep : ∀ log c₁ c₂ req, R log c₁ c₂ →
      R (log ++ (failRequest status req c₂).1) c₁ (failRequest status req c₂).2) :
    R (dcerpcConnectionDead status conn).1 { conn with pending := [] }
      (dcerpcConnectionDead status conn).2 := by
  refine foldlRecOn (motive := fun acc : List Action × Connection =>
    R acc.1 { conn with pending := [] } acc.2) conn.pending _ (hrefl _) ?_
  exact fun acc hacc req _ => hstep acc.1 _ acc.2 req hacc

theorem dcerpcConnectionDead_fails :
    Fails status (dcerpcConnectionDead status conn).1 { conn with pending := [] }
      (dcerpcConnectionDead status conn).2 :=
  dcerpcConnectionDead_induction (R := Fails status) status conn (.refl status)
    fun _ _ _ req h => h.trans (failRequest_fails status req _)

theorem dequeue_sublist (i : Nat) (queue : List RpcRequest) : (dequeue i queue).Sublist queue := by
  unfold dequeue
  split_ifs
  · exact take_sublist _ _
  · exact eraseIdx_sublist _ _

/-- The events that fail requests or take them away. -/
def Event.isFailure : Event → Bool
  | .timeout _ => true
  | .queueTimeout _ => true
  | .freed _ => true
  | .queueFreed _ => true
  | .lost _ => true
  | _ => false

theorem handle_fails {ev : Event} (hev : ev.isFailure = true) :
    ∃ status, status ≠ .ok ∧
      Fails status (handle M rounds conn w ev).1 conn (handle M rounds conn w ev).2.1 := by
  have htaken : ∀ (status : NtStatus) (conn' : Connection),
      conn'.security = conn.security → conn'.history = conn.history →
      conn'.bindAuth = conn.bindAuth → conn'.pending.Sublist conn.pending →
      conn'.requestQueue.Sublist conn.requestQueue → Fails status [] conn conn' :=
    fun status conn' hsecurity hhistory hbind hpending hqueue =>
      ⟨hsecurity, hhistory, .of_sublists hpending hqueue, .inl hbind, .inl hbind, by simp⟩
  have herased : ∀ i, Fails .ioTimeout [] conn { conn with pending := conn.pending.eraseIdx i } :=
    fun i => htaken _ _ rfl rfl rfl (eraseIdx_sublist _ _) (List.Sublist.refl _)
  have hcut : ∀ (i : Nat) (halted : Bool), Fails .ioTimeout [] conn
      { conn with requestQueue := dequeue i conn.requestQueue, halted := halted } :=
    fun i halted => htaken _ _ rfl rfl rfl (List.Sublist.refl _) (dequeue_sublist i _)
  have htimeout : ioTimeout ≠ .ok := by decide
  cases ev with
  | timeout i =>
    simp only [handle, dcerpcTimeoutHandler]
    split
    · exact ⟨_, htimeout, .refl _ conn⟩
    · exact ⟨_, htimeout, (herased i).trans (failRequest_fails _ _ _)⟩
  | queueTimeout i =>
    simp only [handle, dcerpcTimeoutQueued]
    split
    · exact ⟨_, htimeout, .refl _ conn⟩
    · exact ⟨_, htimeout, (hcut i conn.halted).trans (failRequest_fails _ _ _)⟩
  | freed i => exact ⟨_, htimeout, herased i⟩
  | queueFreed i => exact ⟨_, htimeout, hcut i _⟩
  | lost status =>
    refine ⟨if status.isOk then .unexpectedNetworkError else status, ?_, ?_⟩
    · split_ifs with hok
      · decide
      · exact fun h => hok ((isOk_iff status).mpr h)
    · exact (htaken _ { conn with pending := [] } rfl rfl rfl (nil_sublist _)
        (List.Sublist.refl _)).trans (dcerpcConnectionDead_fails _ conn)
  | _ => exact absurd hev (by simp [Event.isFailure])

/-! ## Logs of the authenticated bind -/

/-- Whether an action belongs to a bind or an alter context. -/
def Action.isAuth : Action → Bool
  | .update _ _ _ => true
  | .sentAuth _ _ _ => true
  | .alterDone _ => true
  | .bindAuthDone _ => true
  | _ => false

/-- Everything in the log belongs to a bind or an alter context. -/
def AuthOnly (log : List Action) : Prop := ∀ act ∈ log, act.isAuth = true

@[simp] theorem authOnly_nil : AuthOnly [] := by simp [AuthOnly]

@[simp] theorem authOnly_cons (act : Action) (log : List Action) :
    AuthOnly (act :: log) ↔ act.isAuth = true ∧ AuthOnly log := by simp [AuthOnly]

@[simp] theorem authOnly_append : AuthOnly (log ++ log') ↔ AuthOnly log ∧ AuthOnly log' := by
  simp [AuthOnly, or_imp, forall_and]

/-- Whether an action calls `gensec_update`. -/
def Action.isUpdate : Action → Bool
  | .update _ _ _ => true
  | _ => false

/-! ## The authenticated bind -/

/-- A function of the authenticated bind: the key stays, requests are only sent, and
the bind does not go back to its start. -/
structure Serves (log : List Action) (c c' : Connection) : Prop where
  key : c'.security.key = c.security.key
  drawn : Drawn c c'
  started : c'.bindAuth = c.bindAuth ∨ c'.bindAuth ≠ .idle
  authOnly : AuthOnly log

theorem Serves.refl (c : Connection) : Serves [] c c := ⟨rfl, .refl c, .inl rfl, authOnly_nil⟩

theorem finishBindAuth_serves :
    Serves (finishBindAuth status conn w).1 conn (finishBindAuth status conn w).2.1 :=
  ⟨rfl, .of_eq rfl rfl, .inr BindAuth.noConfusion, by simp [finishBindAuth, isAuth]⟩

theorem continueBindAuth_cases (wait : BindAuth) (sent : NtStatus × Result W) :
    (sent.1 = .ok ∧ continueBindAuth wait sent =
      (sent.2.1, { sent.2.2.1 with bindAuth := wait }, sent.2.2.2)) ∨
    (sent.1 ≠ .ok ∧ continueBindAuth wait sent = .after sent.2.1
      (finishBindAuth sent.1 { sent.2.2.1 with halted := true } sent.2.2.2)) := by
  unfold continueBindAuth
  by_cases hok : sent.1.isOk = true
  · exact .inl ⟨(isOk_iff _).mp hok, by simp [hok]⟩
  · exact .inr ⟨fun h => hok ((isOk_iff _).mpr h), by simp [hok]⟩

theorem setCredentials_key {auth : DcerpcAuth} {conn : Connection}
    (h : conn.security.authInfo = some auth) (token : Bytes) :
    (setCredentials auth token conn).security.key = conn.security.key := by
  simp [setCredentials, key, DcerpcAuth.key, h]

variable (auth : DcerpcAuth)

theorem sendToken_more :
    sendToken M auth .moreProcessingRequired token conn w =
      if token.length = 0 then finishBindAuth .ok conn w
      else continueBindAuth .waitAlter
        (dcerpcAlterContextSend M .authAlter (setCredentials auth token conn) w) := by
  simp [sendToken]

theorem sendToken_ok :
    sendToken M auth .ok token conn w =
      if token.length = 0 then finishBindAuth .ok conn w
      else
        let sent := dcerpcAuth3 M (setCredentials auth token conn) w
        .after sent.2.1 (finishBindAuth sent.1 sent.2.2.1 sent.2.2.2) := by
  have hmore : (ok == moreProcessingRequired) = false := by decide
  simp [sendToken, hmore]

theorem sendToken_error {status : NtStatus} (token : Bytes)
    (conn : Connection) (w : W) (hok : status ≠ .ok) (hmore : status ≠ .moreProcessingRequired) :
    sendToken M auth status token conn w = finishBindAuth status conn w := by
  have herror : status.isOk = false := by
    rwa [← Bool.not_eq_true, isOk_iff]
  simp [sendToken, hmore, herror]

theorem sendHandled_drawn (ptype : AuthPacket) (kind : RequestKind)
    (conn : Connection) (w : W) : Drawn conn (sendHandled M ptype kind conn w).2.2.1 := by
  intro req' h
  simp only [sendHandled, Connection.requests, mem_append, mem_singleton] at h ⊢
  rcases h with (h | rfl) | h
  · exact .inr (.inl h)
  · exact .inl rfl
  · exact .inr (.inr h)

theorem handle_alterContext_serves :
    Serves (handle M rounds conn w .alterContext).1 conn
        (handle M rounds conn w .alterContext).2.1 ∧
      Undisturbed conn (handle M rounds conn w .alterContext).2.1 ∧
      ∀ act ∈ (handle M rounds conn w .alterContext).1, act.isUpdate = false := by
  have hdrawn := sendHandled_drawn M .alter .alter conn w
  by_cases hok : (sendHandled M .alter .alter conn w).1.isOk = true
  all_goals simp only [handle, dcerpcAlterContextSend, hok, if_true, if_false, Bool.false_eq_true]
  · exact ⟨⟨rfl, hdrawn, .inl rfl, by simp [sendHandled, isAuth]⟩, ⟨rfl, rfl, rfl⟩,
      by simp [sendHandled, isUpdate]⟩
  · exact ⟨⟨rfl, hdrawn.trans (.of_eq rfl rfl), .inl rfl, by simp [sendHandled, isAuth]⟩,
      ⟨rfl, rfl, rfl⟩, by simp [sendHandled, isUpdate]⟩

/-- What `bind_auth_next_step` does once the mechanism has answered with a status
and a token. -/
structure Leg (status : NtStatus) (token : Bytes) (log : List Action) (c c' : Connection) : Prop
    extends Serves log c c' where
  log : ∀ act ∈ log, act.isUpdate = false
  history : c'.history = c.history
  bindAuth : c'.bindAuth = .waitAlter ∨ ∃ final, c'.bindAuth = .finished final
  success : c'.bindAuth = .finished .ok →
    status = .ok ∨ (status = .moreProcessingRequired ∧ token = [])
  silent : status = .moreProcessingRequired → token = [] → c'.bindAuth = .finished .ok

theorem sendToken_leg {auth : DcerpcAuth} (status : NtStatus) (token : Bytes)
    {conn : Connection} (w : W) (h : conn.security.authInfo = some auth) :
    Leg status token (sendToken M auth status token conn w).1 conn
      (sendToken M auth status token conn w).2.1 := by
  have hlength : token.length = 0 ↔ token = [] := length_eq_zero_iff
  have hkey := setCredentials_key h token
  have hfinish : ∀ final : NtStatus,
      (final = .ok → status = .ok ∨ (status = .moreProcessingRequired ∧ token = [])) →
      (status = .moreProcessingRequired → token = [] → final = .ok) →
      Leg status token (finishBindAuth final conn w).1 conn (finishBindAuth final conn w).2.1 :=
    fun final hsuccess hsilent => ⟨finishBindAuth_serves final conn w,
      by simp [finishBindAuth, isUpdate], rfl, .inr ⟨final, rfl⟩,
      fun h => hsuccess (BindAuth.finished.inj h), fun hmore hempty => by
        rw [hsilent hmore hempty]; rfl⟩
  by_cases hmore : status = .moreProcessingRequired
  · rw [hmore, sendToken_more]
    rw [hmore] at hfinish
    split_ifs with hempty
    · exact hfinish .ok (fun _ => .inr ⟨rfl, hlength.mp hempty⟩) (fun _ _ => rfl)
    · have hdrawn := sendHandled_drawn M .alter .authAlter (setCredentials auth token conn) w
      rcases continueBindAuth_cases .waitAlter
        (dcerpcAlterContextSend M .authAlter (setCredentials auth token conn) w) with
        ⟨-, heq⟩ | ⟨hbad, heq⟩ <;> rw [heq]
      · exact ⟨⟨hkey, hdrawn, .inr BindAuth.noConfusion,
            by simp [dcerpcAlterContextSend, sendHandled, isAuth]⟩,
          by simp [dcerpcAlterContextSend, sendHandled, isUpdate], rfl, .inl rfl,
          fun h => BindAuth.noConfusion h, fun _ h => absurd (hlength.mpr h) hempty⟩
      · exact ⟨⟨hkey, hdrawn, .inr BindAuth.noConfusion, by
            simp [Result.after, dcerpcAlterContextSend, sendHandled, finishBindAuth,
              isAuth]⟩, by
            simp [Result.after, dcerpcAlterContextSend, sendHandled, finishBindAuth,
              isUpdate], rfl, .inr ⟨_, rfl⟩,
          fun h => absurd (BindAuth.finished.inj h) hbad,
          fun _ h => absurd (hlength.mpr h) hempty⟩
  · by_cases hok : status = .ok
    · rw [hok, sendToken_ok]
      rw [hok] at hfinish
      split_ifs with hempty
      · exact hfinish .ok (fun _ => .inl rfl) (fun _ _ => rfl)
      · exact ⟨⟨hkey, .of_eq rfl rfl, .inr BindAuth.noConfusion, by
            simp [Result.after, dcerpcAuth3, finishBindAuth, isAuth]⟩, by
            simp [Result.after, dcerpcAuth3, finishBindAuth, isUpdate], rfl,
          .inr ⟨_, rfl⟩, fun _ => .inl rfl, fun h => absurd h (by decide)⟩
    · rw [sendToken_error M auth token conn w hok hmore]
      exact hfinish status .inl (fun h => absurd h hmore)

theorem bindAuthNextStep_serves :
    Serves (bindAuthNextStep M conn w).1 conn (bindAuthNextStep M conn w).2.1 := by
  unfold bindAuthNextStep
  split
  · exact ⟨rfl, .of_eq rfl rfl, .inl rfl, authOnly_nil⟩
  · rename_i auth hauth
    have hupdated : (gensecUpdate M auth.credentials conn w).2.2.2.1.security.authInfo =
        some auth := hauth
    have hleg := sendToken_leg M (M.update auth.credentials w).1 (M.update auth.credentials w).2.1
      (M.update auth.credentials w).2.2 hupdated
    refine ⟨hleg.key, .trans (.of_eq rfl rfl) hleg.drawn, hleg.started, ?_⟩
    exact authOnly_append.mpr ⟨by simp [isAuth], hleg.authOnly⟩

/-- The bind waits for the reply to a request of this kind, and goes on with it if
`more`. -/
def Awaits (kind : RequestKind) (more : Bool) (b : BindAuth) : Prop :=
  (kind = .bind ∧ b = .waitBind more) ∨ (kind = .authAlter ∧ b = .waitAlter ∧ more = true)

theorem Awaits.more_eq {kind : RequestKind} {more : Bool} {b : BindAuth} (h : Awaits kind more b)
    (h' : Awaits kind true b) : more = true := by
  rcases h with ⟨-, h⟩ | ⟨-, -, h⟩
  · rcases h' with ⟨-, h'⟩ | ⟨-, h', -⟩
    · exact BindAuth.waitBind.inj (h.symm.trans h')
    · exact absurd (h.symm.trans h') (by simp)
  · exact h

/-- What the callbacks of a bind do with the status of a reply: nothing, unless the bind waits for
it; otherwise the bind ends or goes on. -/
def Answers (kind : RequestKind) (status : NtStatus) (conn : Connection) (w : W)
    (r : Result W) : Prop :=
  ((∀ more, ¬ Awaits kind more conn.bindAuth) ∧ r = ([], conn, w)) ∨
  ∃ more, Awaits kind more conn.bindAuth ∧ r =
    if status = .ok ∧ more = true then bindAuthNextStep M conn w else finishBindAuth status conn w

theorem bindAuthRecvBindreply_answers :
    Answers M .bind status conn w (bindAuthRecvBindreply M status conn w) := by
  unfold bindAuthRecvBindreply
  split
  · rename_i more hwait
    refine .inr ⟨more, .inl ⟨rfl, hwait⟩, ?_⟩
    simp only [← isOk_iff]
    cases status.isOk <;> cases more <;> rfl
  · rename_i hother
    exact .inl ⟨fun more h => hother more (by simpa [Awaits] using h), rfl⟩

theorem bindAuthRecvAlter_answers :
    Answers M .authAlter status conn w (bindAuthRecvAlter M status conn w) := by
  unfold bindAuthRecvAlter
  split
  · rename_i hwait
    refine .inr ⟨true, .inr ⟨rfl, hwait, rfl⟩, ?_⟩
    simp only [← isOk_iff]
    cases status.isOk <;> rfl
  · rename_i hother
    exact .inl ⟨fun more h => hother (by simpa [Awaits] using h : _ ∧ more = true).1, rfl⟩

variable {M status kind conn w} in
theorem Answers.serves {r : Result W} (h : Answers M kind status conn w r) :
    Serves r.1 conn r.2.1 ∧ Moves conn.bindAuth r.2.1.bindAuth := by
  rcases h with ⟨-, rfl⟩ | ⟨more, hawaits, heq⟩
  · exact ⟨.refl conn, .refl _⟩
  · have hwait : conn.bindAuth = .waitAlter ∨ ∃ more, conn.bindAuth = .waitBind more := by
      rcases hawaits with ⟨-, hwait⟩ | ⟨-, hwait, -⟩
      · exact .inr ⟨more, hwait⟩
      · exact .inl hwait
    have hserves : Serves r.1 conn r.2.1 := by
      rw [heq]
      split_ifs
      · exact bindAuthNextStep_serves M conn w
      · exact finishBindAuth_serves status conn w
    refine ⟨hserves, ?_⟩
    rcases hserves.started with hsame | hstarted
    · exact .inl hsame
    · exact .inr ⟨hwait, hstarted⟩

/-! ## The trailers that are parsed -/

/-- The trailer a reply handler parses into `auth_info`: that of an accepting reply it expects. -/
def handledTrailer (pkt : NcacnPacket) (kind : RequestKind) : Option Bytes :=
  match kind, pkt.payload with
  | .bind, .bindAck ack => if ack.isAccepted then some ack.authInfo else none
  | .authAlter, .alterResp ack => if ack.isAccepted then some ack.authInfo else none
  | .alter, .alterResp ack => if ack.isAccepted then some ack.authInfo else none
  | _, _ => none

/-- The trailer that a packet brings into `auth_info`, through the first request with its call id.
-/
def NcacnPacket.trailer (pkt : NcacnPacket) (conn : Connection) : Option Bytes :=
  (conn.pending.find? pkt.isFor).bind fun req => handledTrailer pkt req.kind

/-- The key once a trailer has been pulled. -/
def pulledKey (blob : Option Bytes) (sec : SecurityState) :
    Option (UInt8 × UInt8 × UInt32) × Bool :=
  match blob with
  | none => sec.key
  | some blob => (sec.authInfo.map fun auth => (ndrPullDcerpcAuth blob auth).2.key,
      sec.genericState)

theorem ndrPullDcerpcAuth_nil : (ndrPullDcerpcAuth [] auth).2 = auth := by
  simp [ndrPullDcerpcAuth]

/-- The history at most learns of an acknowledged bind. -/
structure HistoryGrows (c c' : Connection) : Prop where
  sent : c'.history.bindSent = c.history.bindSent
  acked : c.history.bindAcked = true → c'.history.bindAcked = true
  update : c'.history.lastUpdate = c.history.lastUpdate

theorem HistoryGrows.of_eq (h : c'.history = c.history) : HistoryGrows c c' := by
  constructor <;> simp [h]

/-- A trailer, if there is one, is pulled into `auth_info`. -/
structure Pulled (blob : Option Bytes) (c c' : Connection) : Prop extends HistoryGrows c c' where
  key : c'.security.key = pulledKey blob c.security
  drawn : Drawn c c'
  bindAuth : c'.bindAuth = c.bindAuth

theorem Pulled.none (c : Connection) : Pulled none c c := ⟨.of_eq rfl, rfl, .refl c, rfl⟩

theorem pullTrailer_pulled (blob : Bytes) (conn : Connection) :
    Pulled (some blob) conn (pullTrailer blob conn).2 := by
  unfold pullTrailer
  split
  · rename_i hnone
    exact ⟨.of_eq rfl, by simp [pulledKey, key, hnone], .refl conn, rfl⟩
  · rename_i auth hauth
    split_ifs with hempty
    · -- an empty blob is not pulled, and pulling it would change nothing
      rw [eq_nil_of_length_eq_zero hempty]
      exact ⟨.of_eq rfl, by simp [pulledKey, key, hauth, ndrPullDcerpcAuth_nil],
        .refl conn, rfl⟩
    · exact ⟨.of_eq rfl, by simp [pulledKey, key, hauth], .of_eq rfl rfl, rfl⟩

/-- The connection when an accepting `bind_ack` has been noted. -/
def noteAck (ack : BindAck) (conn : Connection) : Connection :=
  { conn with
    srvMaxRecvFrag := ack.maxRecvFrag.toNat
    history := { conn.history with bindAcked := true } }

theorem dcerpcMapReason_ne_ok (reason : UInt16) : dcerpcMapReason reason ≠ .ok := by
  unfold dcerpcMapReason
  split_ifs <;> decide

/-- The handlers pull the trailer of an accepting reply and of no other. -/
theorem dcerpcBindRecvHandler_eq :
    (∃ ack, handledTrailer pkt .bind = some ack.authInfo ∧
      dcerpcBindRecvHandler pkt conn = pullTrailer ack.authInfo (noteAck ack conn)) ∨
    (∃ status, status ≠ .ok ∧ handledTrailer pkt .bind = none ∧
      dcerpcBindRecvHandler pkt conn = (status, conn)) := by
  have hfault : netWriteFault ≠ .ok := by decide
  unfold dcerpcBindRecvHandler handledTrailer
  cases pkt.payload with
  | bindAck ack =>
    by_cases haccepted : ack.isAccepted = true
    · exact .inl ⟨ack, by simp [haccepted], by simp [haccepted, noteAck]⟩
    · exact .inr ⟨_, hfault, by simp [haccepted], by simp [haccepted]⟩
  | bindNak reason => exact .inr ⟨_, dcerpcMapReason_ne_ok reason, rfl, rfl⟩
  | _ => exact .inr ⟨_, hfault, rfl, rfl⟩

theorem dcerpcAlterRecvHandler_eq :
    (∃ blob, handledTrailer pkt .authAlter = some blob ∧
      dcerpcAlterRecvHandler pkt conn = pullTrailer blob conn) ∨
    (∃ status, status ≠ .ok ∧ handledTrailer pkt .authAlter = none ∧
      dcerpcAlterRecvHandler pkt conn = (status, conn)) := by
  have hfault : netWriteFault ≠ .ok := by decide
  unfold dcerpcAlterRecvHandler handledTrailer
  cases pkt.payload with
  | alterResp ack =>
    rcases hctx : ack.ctxList with _ | ⟨ctx, _ | ⟨ctx', rest⟩⟩ <;>
      simp only [BindAck.isAccepted, hctx]
    · exact .inr ⟨_, hfault, by simp, by simp⟩
    all_goals by_cases hresult : ctx.result = 0
    · exact .inl ⟨ack.authInfo, by simp [hresult], by simp [hresult]⟩
    · exact .inr ⟨_, dcerpcMapReason_ne_ok ctx.reason, by simp [hresult], by simp [hresult]⟩
    · exact .inl ⟨ack.authInfo, by simp [hresult], by simp [hresult]⟩
    · exact .inr ⟨_, hfault, by simp [hresult], by simp [hresult]⟩
  | _ => exact .inr ⟨_, hfault, rfl, rfl⟩

/-- A reply to the bind or to one of its alter contexts: its trailer is pulled, and the
callback gets the status. -/
theorem handlerReply_answers (pkt : NcacnPacket) {kind : RequestKind}
    (hkind : kind = .bind ∨ kind = .authAlter) (conn : Connection) (w : W) :
    ∃ status conn₁, Answers M kind status conn₁ w (handlerReply M pkt kind conn w) ∧
      Pulled (handledTrailer pkt kind) conn conn₁ ∧
      (kind = .bind → status = .ok → conn₁.history.bindAcked = true) ∧
      (handledTrailer pkt kind).elim (status ≠ .ok) fun blob =>
        status = (pullTrailer blob conn).1 ∧ conn₁.security = (pullTrailer blob conn).2.security := by
  rcases hkind with rfl | rfl
  · refine ⟨(dcerpcBindRecvHandler pkt conn).1, (dcerpcBindRecvHandler pkt conn).2,
      bindAuthRecvBindreply_answers M _ _ w, ?_⟩
    rcases dcerpcBindRecvHandler_eq pkt conn with ⟨ack, hack, heq⟩ | ⟨status, hbad, hnone, heq⟩
    · have hpulled := pullTrailer_pulled ack.authInfo (noteAck ack conn)
      rw [heq, hack]
      refine ⟨⟨⟨hpulled.sent, fun _ => hpulled.acked rfl, hpulled.update⟩, hpulled.key,
        hpulled.drawn, hpulled.bindAuth⟩, fun _ _ => hpulled.acked rfl, ?_⟩
      simp only [pullTrailer, noteAck, elim_some]
      split
      · exact ⟨rfl, rfl⟩
      · split_ifs <;> exact ⟨rfl, rfl⟩
    · rw [heq, hnone]
      exact ⟨.none conn, fun _ hok => absurd hok hbad, hbad⟩
  · refine ⟨(dcerpcAlterRecvHandler pkt conn).1, (dcerpcAlterRecvHandler pkt conn).2,
      bindAuthRecvAlter_answers M _ _ w, ?_⟩
    rcases dcerpcAlterRecvHandler_eq pkt conn with ⟨blob, hblob, heq⟩ | ⟨status, hbad, hnone, heq⟩
    · rw [heq, hblob]
      exact ⟨pullTrailer_pulled blob conn, by simp, rfl, rfl⟩
    · rw [heq, hnone]
      exact ⟨.none conn, by simp, hbad⟩

theorem dcerpcAlterRecvHandler_pulled :
    Pulled (handledTrailer pkt .alter) conn (dcerpcAlterRecvHandler pkt conn).2 := by
  have hsame : handledTrailer pkt .alter = handledTrailer pkt .authAlter := by
    unfold handledTrailer
    cases pkt.payload <;> rfl
  rcases dcerpcAlterRecvHandler_eq pkt conn with ⟨blob, hblob, heq⟩ | ⟨status, -, hnone, heq⟩
  · rw [hsame, hblob, heq]
    exact pullTrailer_pulled blob conn
  · rw [hsame, hnone, heq]
    exact .none conn

/-- A packet for a request with a `recv_handler`. -/
structure Replies (blob : Option Bytes) (log : List Action) (c c' : Connection) : Prop where
  key : c'.security.key = pulledKey blob c.security
  drawn : Drawn c c'
  moves : Moves c.bindAuth c'.bindAuth
  log : AuthOnly log

theorem handlerReply_replies :
    Replies (handledTrailer pkt kind) (handlerReply M pkt kind conn w).1 conn
      (handlerReply M pkt kind conn w).2.1 := by
  by_cases hkind : kind = .bind ∨ kind = .authAlter
  · obtain ⟨status, conn₁, hanswers, hpulled, -, -⟩ := handlerReply_answers M pkt hkind conn w
    obtain ⟨hserves, hmoves⟩ := hanswers.serves
    exact ⟨hserves.key.trans hpulled.key, hpulled.drawn.trans hserves.drawn,
      hpulled.bindAuth ▸ hmoves, hserves.authOnly⟩
  cases kind with
  | request => exact ⟨rfl, .refl conn, .refl _, authOnly_nil⟩
  | alter =>
    have hpulled := dcerpcAlterRecvHandler_pulled pkt conn
    exact ⟨hpulled.key, hpulled.drawn, .inl hpulled.bindAuth, by simp [handlerReply, isAuth]⟩
  | _ => exact absurd (by simp) hkind

/-! ## Events -/

/-- A packet changes the key exactly as pulling its trailer does, and the bind moves
on only if it waits. -/
theorem dcerpcRequestRecvData_key :
    (dcerpcRequestRecvData M rounds pkt conn w).2.1.security.key =
        pulledKey (pkt.trailer conn) conn.security ∧
      Moves conn.bindAuth (dcerpcRequestRecvData M rounds pkt conn w).2.1.bindAuth := by
  unfold dcerpcRequestRecvData NcacnPacket.trailer
  cases conn.pending.find? pkt.isFor with
  | none => exact ⟨rfl, .refl _⟩
  | some req =>
    simp only [bind_some]
    split_ifs with hkind
    · have hreply := requestReply_undisturbed M rounds pkt req
        (verifyResponse M pkt conn.security w).1 conn (verifyResponse M pkt conn.security w).2
      rw [hkind]
      exact ⟨hreply.key, .inl hreply.bindAuth⟩
    · have hreply := handlerReply_replies M pkt req.kind
        { conn with pending := conn.pending.eraseP pkt.isFor }
        (verifyResponse M pkt conn.security w).2
      exact ⟨hreply.key, hreply.moves⟩

/-- The bind moves on only if it waits, and only packets change the key. -/
theorem handle_moves {ev : Event} (hev : ∀ r, ev ≠ .bindAuth r) :
    Moves conn.bindAuth (handle M rounds conn w ev).2.1.bindAuth ∧
      ((∀ pkt, ev ≠ .packet pkt) →
        (handle M rounds conn w ev).2.1.security.key = conn.security.key) := by
  by_cases hfailure : ev.isFailure = true
  · obtain ⟨status, -, hfails⟩ := handle_fails M rounds conn w hfailure
    exact ⟨hfails.moves, fun _ => congrArg SecurityState.key hfails.security⟩
  cases ev with
  | bindAuth r => exact absurd rfl (hev r)
  | request asyncCall call =>
    have hships := dcerpcRequestSend_ships M rounds conn w asyncCall call
    exact ⟨.inl hships.bindAuth, fun _ => hships.key⟩
  | alterContext =>
    obtain ⟨-, hsame, -⟩ := handle_alterContext_serves M rounds conn w
    exact ⟨.inl hsame.bindAuth, fun _ => hsame.key⟩
  | packet pkt =>
    exact ⟨(dcerpcRequestRecvData_key M rounds pkt conn w).2, fun hpkt => absurd rfl (hpkt pkt)⟩
  | _ => exact absurd rfl hfailure

/-- A step that is taken is a step of `handle`, and not the start of a bind once
one was started. -/
theorem connection_step {M : Mechanism W} {rounds : Nat} {s s' : Connection × W} {ev : Event}
    {log : List Action} (hstarted : s.1.bindAuth ≠ .idle)
    (h : (connection M rounds).step s ev = some (log, s')) :
    handle M rounds s.1 s.2 ev = (log, s') ∧ ∀ r, ev ≠ .bindAuth r := by
  simp only [connection, Bool.or_eq_true, ite_none_left_eq_some] at h
  obtain ⟨henabled, h⟩ := h
  refine ⟨some.inj h, ?_⟩
  rintro r rfl
  exact henabled (.inr (by simp [enabled, hstarted]))

end OpenvasSmb.Dcerpc

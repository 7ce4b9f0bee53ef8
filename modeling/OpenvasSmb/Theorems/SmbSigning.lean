import OpenvasSmb.Theorems.SmbSessionSetup

/-!
# SMB signing that is required

If the client requires signing, a session setup succeeds only with signing on and a reply whose
signature was checked, and from then on every reply that completes a request with success has been
checked, with two exceptions. The earliest protocols have no session setup, so nothing is
enforced. And the signature is not looked at in a packet that is an NBT session reply (its type is
not zero), nor in one that comes while a readbraw is pending.
-/

namespace OpenvasSmb.Smb

open Kit List Received Client Option

variable {E : Type} {m : Mechanism E} {md5 : Bytes → Bytes} {c c' : Client E} {seen : Seen}
  {event : NetEvent} {w : Waiting} {t t' : Transport} {req : Request}

/-- The packet is taken without a look at its signature. -/
def Unchecked (t : Transport) : NetEvent → Prop
  | .packet bytes => t.readbrawPending = true ∨ 4 ≤ bytes.length ∧ bytes.head? ≠ some 0
  | .timeout _ => False

/-- A setup with credentials that succeeds has signing on and a verified reply; from then on every
request that succeeds has one. -/
def SignedFromThenOn (md5 : Bytes → Bytes) (c : Client E) (seen : Seen) (c' : Client E) : Prop :=
  (∀ outcome ∈ seen.outcome, outcome.status.isOk = true → outcome.io.anonymous = false →
    c'.session.transport.signInfo.doingSigning = true ∧
    c'.session.transport.signInfo.signingState = .on ∧
    ∃ req ∈ seen.received, Verified md5 c.session.transport.signInfo req) ∧
  (c.secured = true → ∀ req ∈ seen.received, req.state = .done → req.status.isOk = true →
    Verified md5 c.session.transport.signInfo req)

/-- There is a session setup, and no packet is taken unchecked for a request after it. -/
def Guards (c : Client E) : ClientEvent → Prop
  | .setup io =>
    io.anonymous = false → Protocol.lanman1.rank ≤ c.session.negotiate.protocol.rank
  | .net event => c.secured = true → c.session.transport.pending ≠ [] →
    ¬Unchecked c.session.transport event
  | .send _ _ | .more _ => True

/-! ## Events -/

/-- How a request was completed: with an error, unchecked, or checked. -/
def Arrived (md5 : Bytes → Bytes) (t : Transport) (event : NetEvent) (req : Request)
    (t' : Transport) : Prop :=
  ∃ r₀ ∈ t.pending, r₀.id = req.id ∧
    ((req.state = .error ∧ (req.status = r₀.status ∨ isOkOrMore req.status = false)) ∨
    (req.state = .done ∧ Unchecked t event ∧ req.inn.wct = r₀.inn.wct) ∨
    (req.state = .done ∧ (t'.signInfo.doingSigning = true → Verified md5 t.signInfo req)))

/-- What an event does to the transport. -/
structure Watched (t t' : Transport) : Prop where
  sound : t'.signInfo.Sound
  mandatory : t'.signInfo.mandatorySigning = t.signInfo.mandatorySigning
  doing : t.signInfo.doingSigning = true → t'.signInfo.doingSigning = true
  shrinks : t.Shrinks t'

theorem Watched.of_eq (hsound : t.signInfo.Sound) (hsign : t'.signInfo = t.signInfo)
    (hshrinks : t.Shrinks t') : Watched t t' :=
  ⟨hsign ▸ hsound, by rw [hsign], by rw [hsign]; exact id, hshrinks⟩

theorem shrinks_complete (t : Transport) (req : Request) (signInfo : SigningContext)
    (readbrawPending : Bool) :
    t.Shrinks
      ({ t with signInfo := signInfo, readbrawPending := readbrawPending }.complete req).2 :=
  Transport.shrinks_of_subset fun _ hr => mem_of_mem_eraseP hr

theorem fillReply_watched {p : Packet} {wct : Nat} {received : Received}
    (hsound : t.signInfo.Sound) (hreq : req ∈ t.pending)
    (h : fillReply md5 t req p wct = some (received, t')) :
    Watched t t' ∧
      ∀ req', received = .completed req' → Arrived md5 t (.packet p.bytes) req' t' := by
  by_cases hlen : 4 ≤ p.size
  · obtain ⟨hnbt, heq⟩ | ⟨-, -, status, hstatus, heq⟩ |
      ⟨inn, status, good, signInfo, hfilled, heq⟩ := fillReply_cases md5 t req wct hlen
    · obtain ⟨rfl, rfl⟩ := answer_inj (h.symm.trans heq)
      refine ⟨.of_eq hsound rfl (shrinks_complete t _ _ _), fun req' hreq' => ?_⟩
      obtain rfl := completed.inj hreq'
      exact ⟨req, hreq, rfl, .inr (.inl ⟨rfl, .inr ⟨hlen, hnbt⟩, rfl⟩)⟩
    · obtain ⟨rfl, rfl⟩ := answer_inj (h.symm.trans heq)
      refine ⟨.of_eq hsound rfl (shrinks_complete t _ _ _), fun req' hreq' => ?_⟩
      obtain rfl := completed.inj hreq'
      refine ⟨req, hreq, rfl, .inl ⟨rfl, ?_⟩⟩
      obtain rfl | rfl := hstatus
      · exact .inl rfl
      · exact .inr (show isOkOrMore .unsuccessful = false by decide)
    · obtain ⟨hsound', hmandatory, hdoing, hverified⟩ := checkSignMac_cases hsound hfilled.checked
      cases good
      all_goals
        obtain ⟨rfl, rfl⟩ := answer_inj (h.symm.trans heq)
        refine ⟨⟨hsound', hmandatory, hdoing, shrinks_complete t _ signInfo t.readbrawPending⟩,
          fun req' hreq' => ?_⟩
        obtain rfl := completed.inj hreq'
        refine ⟨req, hreq, rfl, ?_⟩
      · exact .inl ⟨rfl, .inr (show isOkOrMore .accessDenied = false by decide)⟩
      · exact .inr (.inr ⟨rfl, hverified rfl⟩)
  · rw [fillReply, if_neg (fun h => hlen h.1), if_pos (by omega)] at h
    obtain ⟨rfl, rfl⟩ := answer_inj h
    refine ⟨.of_eq hsound rfl (shrinks_complete t _ _ _), fun req' hreq' => ?_⟩
    obtain rfl := completed.inj hreq'
    exact ⟨req, hreq, rfl, .inl ⟨rfl, .inl rfl⟩⟩

theorem eventLoopOnce_watched {received : Received} (hsound : w.transport.signInfo.Sound)
    (h : eventLoopOnce md5 w event = some (received, t')) :
    Watched w.transport t' ∧
      ∀ req, received = .completed req → Arrived md5 w.transport event req t' := by
  cases event with
  | timeout id =>
    simp only [eventLoopOnce] at h
    cases hfind : w.transport.pending.find? (·.id == id) with
    | none =>
      rw [hfind] at h
      obtain ⟨rfl, rfl⟩ := answer_inj h
      exact ⟨.of_eq hsound rfl (Transport.shrinks_of_subset fun _ hr => hr),
        fun req hreq => by simp at hreq⟩
    | some req =>
      rw [hfind] at h
      obtain ⟨rfl, rfl⟩ := answer_inj h
      refine ⟨.of_eq hsound rfl (shrinks_complete _ _ _ _), fun req' hreq' => ?_⟩
      obtain rfl := completed.inj hreq'
      exact ⟨req, mem_of_find?_eq_some hfind, rfl,
        .inl ⟨rfl, .inr (show isOkOrMore .ioTimeout = false by decide)⟩⟩
  | packet bytes =>
    obtain ⟨info, rfl, rfl⟩ | ⟨rfl, hsign, hshrinks⟩ | ⟨hraw, req, hhead, heq⟩ |
      ⟨-, mid, wct, req, -, hfind, hfill⟩ := finishRecv_cases h
    · exact ⟨.of_eq hsound rfl (Transport.shrinks_of_subset fun _ hr => hr),
        fun req hreq => by simp at hreq⟩
    · exact ⟨.of_eq hsound hsign hshrinks, fun req hreq => by simp at hreq⟩
    · obtain ⟨rfl, rfl⟩ := Prod.mk.inj heq
      refine ⟨.of_eq hsound rfl (shrinks_complete _ _ _ _), fun req' hreq' => ?_⟩
      obtain rfl := completed.inj hreq'
      exact ⟨req, mem_of_mem_head? hhead, rfl, .inr (.inl ⟨rfl, .inl hraw, rfl⟩)⟩
    · exact fillReply_watched hsound (Transport.find_mem hfind) hfill

/-! ## The invariant -/

/-- Signing is on once a setup has succeeded, and the request of a setup that is going on has not
been answered. -/
structure Client.Guarded (c : Client E) : Prop where
  sound : c.session.transport.signInfo.Sound
  mandatory : c.session.transport.signInfo.mandatorySigning = true
  secured : c.secured = true → c.session.transport.signInfo.doingSigning = true
  pendingIds : ∀ r ∈ c.session.transport.pending, r.id < c.session.nextId
  idleIds : ∀ r ∈ c.idle, r.id < c.session.nextId
  setupId : ∀ setup ∈ c.setup, setup.reqId < c.session.nextId
  idleOther : ∀ setup ∈ c.setup, ∀ r ∈ c.idle, r.id ≠ setup.reqId
  blank : ∀ setup ∈ c.setup, ∀ r ∈ c.session.transport.pending, r.id = setup.reqId →
    r.inn = {} ∧ r.status = .ok

namespace Client.Guarded

variable (h : c.Guarded)
include h

theorem after (hwatched : Watched c.session.transport t) :
    (c.after t).Guarded where
  sound := hwatched.sound
  mandatory := hwatched.mandatory.trans h.mandatory
  secured := fun hsecured => hwatched.doing (h.secured hsecured)
  pendingIds := by
    intro r hr
    obtain ⟨r₀, hr₀, hid, -⟩ := hwatched.shrinks r hr
    rw [← hid]
    exact h.pendingIds r₀ hr₀
  idleIds := h.idleIds
  setupId := h.setupId
  idleOther := h.idleOther
  blank := by
    intro setup hsetup r hr hreq
    obtain ⟨r₀, hr₀, hid, hinn, hstatus⟩ := hwatched.shrinks r hr
    rw [← hinn, ← hstatus]
    exact h.blank setup hsetup r₀ hr₀ (hid.trans hreq)

theorem grows {s : Session E} {setup? : Option Setup} (hgrows : c.session.Grows s)
    (hsetup : ∀ setup ∈ setup?, setup ∈ c.setup ∨ setup.Sent c.session s) :
    { c with session := s, setup := setup? }.Guarded where
  sound := hgrows.sign.sound h.sound
  mandatory := hgrows.sign.mandatory.trans h.mandatory
  secured := fun hsecured => hgrows.sign.doing.trans (h.secured hsecured)
  pendingIds := by
    intro r hr
    obtain hr | ⟨-, hhigh, -⟩ := hgrows.pending r hr
    · exact Nat.lt_of_lt_of_le (h.pendingIds r hr) hgrows.ids
    · exact hhigh
  idleIds := fun r hr => Nat.lt_of_lt_of_le (h.idleIds r hr) hgrows.ids
  setupId := by
    intro setup hmem
    obtain hold | hsent := hsetup setup hmem
    · exact Nat.lt_of_lt_of_le (h.setupId setup hold) hgrows.ids
    · exact hsent.high
  idleOther := by
    intro setup hmem r hr
    obtain hold | hsent := hsetup setup hmem
    · exact h.idleOther setup hold r hr
    · exact Nat.ne_of_lt (Nat.lt_of_lt_of_le (h.idleIds r hr) hsent.low)
  blank := by
    intro setup hmem r hr hreq
    obtain hr | ⟨hlow, -, hblank⟩ := hgrows.pending r hr
    · obtain hold | hsent := hsetup setup hmem
      · exact h.blank setup hold r hr hreq
      · have hlow := hsent.low
        have hlt := h.pendingIds r hr
        omega
    · exact hblank

theorem finish {io : SetupIo} {setup? : Option Setup} {status : NtStatus}
    (hsigned : status.isOk = true → io.anonymous = false →
      c.session.transport.signInfo.doingSigning = true) :
    (c.finish io setup? status).2.Guarded where
  sound := h.sound
  mandatory := h.mandatory
  secured := by
    intro hsecured
    have hsecured : (c.secured || (status.isOk && !io.anonymous)) = true := hsecured
    rw [Bool.or_eq_true, Bool.and_eq_true, Bool.not_eq_true'] at hsecured
    obtain hold | ⟨hok, hcredentials⟩ := hsecured
    · exact h.secured hold
    · exact hsigned hok hcredentials
  pendingIds := h.pendingIds
  idleIds := h.idleIds
  setupId := fun setup hmem => by simp [Client.finish] at hmem
  idleOther := fun setup hmem => by simp [Client.finish] at hmem
  blank := fun setup hmem => by simp [Client.finish] at hmem

end Client.Guarded

/-! ## Steps -/

theorem Arrived.verified {setup : Setup} (h : Arrived md5 t event req t')
    (hblank : ∀ r ∈ t.pending, r.id = req.id → r.inn = {} ∧ r.status = .ok)
    (htaken : Taken setup req req.status ∨ FailedWithMore req)
    (hdoing : t'.signInfo.doingSigning = true) : Verified md5 t.signInfo req := by
  obtain ⟨r₀, hr₀, hid, ⟨hstate, hstatus⟩ | ⟨hstate, -, hwords⟩ | ⟨-, hverified⟩⟩ := h
  · obtain htaken | ⟨-, hmore⟩ := htaken
    · exact absurd (hstate.symm.trans htaken.done) (by simp)
    · rw [hmore, (hblank r₀ hr₀ hid).2] at hstatus
      exact absurd hstatus (by decide)
  · obtain htaken | ⟨herror, -⟩ := htaken
    · rw [htaken.words, (hblank r₀ hr₀ hid).1] at hwords
      cases hlevel : setup.level <;> simp [hlevel, SetupLevel.words] at hwords
    · exact absurd (hstate.symm.trans herror) (by simp)
  · exact hverified hdoing

section

variable (h : c.Guarded)
include h

theorem client_net_signed (hstep : c.step md5 m (.net event) = some (seen, c'))
    (hguards : Guards c (.net event)) : c'.Guarded ∧ SignedFromThenOn md5 c seen c' := by
  obtain ⟨received, t, hevent, hnext⟩ := step_net_cases hstep
  obtain ⟨hwatched, harrived⟩ := eventLoopOnce_watched h.sound hevent
  have hafter := h.after hwatched
  obtain ⟨-, rfl, rfl⟩ | ⟨req, rfl, hdeliver⟩ := hnext
  · exact ⟨hafter, fun outcome hmem => by simp at hmem, fun _ req hmem => by simp at hmem⟩
  · have hstate := (eventLoopOnce_brings hevent).state
    have harrived := harrived req rfl
    obtain ⟨r₀, hr₀, hid₀, -⟩ := id harrived
    -- once a setup has succeeded
    have hthen : c.secured = true → ∀ req' ∈ (some req : Option Request), req'.state = .done →
        req'.status.isOk = true → Verified md5 c.session.transport.signInfo req' := by
      intro hsecured req' hmem hdone _
      obtain rfl := some.inj hmem
      obtain ⟨-, -, -, ⟨herror, -⟩ | ⟨-, hunchecked, -⟩ | ⟨-, hverified⟩⟩ := harrived
      · exact absurd (hdone.symm.trans herror) (by simp)
      · exact absurd hunchecked (hguards hsecured (ne_nil_of_mem hr₀))
      · exact hverified (hwatched.doing (h.secured hsecured))
    obtain ⟨rfl, rfl, hother⟩ | ⟨setup, progress, s', hsetup, hid, hturn, hnext⟩ :=
      deliver_cases hstate hdeliver
    · refine ⟨⟨hafter.sound, hafter.mandatory, hafter.secured, hafter.pendingIds, ?_,
        hafter.setupId, ?_, hafter.blank⟩, fun outcome hmem => by simp at hmem, hthen⟩
      · intro r hr
        obtain rfl | hr := mem_cons.mp hr
        · rw [← hid₀]
          exact h.pendingIds r₀ hr₀
        · exact hafter.idleIds r hr
      · intro setup hmem r hr
        obtain rfl | hr := mem_cons.mp hr
        · exact hother setup hmem
        · exact hafter.idleOther setup hmem r hr
    · obtain ⟨setup', rfl, rfl, rfl⟩ | ⟨setup', status, rfl, rfl, rfl⟩ := hnext
      · refine ⟨hafter.grows hturn.grows fun setup'' hmem => .inr ?_,
          fun outcome hmem => by simp at hmem, hthen⟩
        obtain rfl := some.inj hmem
        exact (hturn.again setup' rfl).sent
      · obtain ⟨hio, -, hsuccess⟩ := hturn.finished setup' status rfl
        have hgrown : { c.after t with session := s' }.Guarded :=
          hafter.grows hturn.grows fun setup'' hmem => .inl hmem
        have hdoing : status.isOk = true → setup'.io.anonymous = false →
            s'.transport.signInfo.doingSigning = true := by
          intro hok hcredentials
          exact (hsuccess hok).signed hgrown.mandatory (hio ▸ hcredentials)
        refine ⟨hgrown.finish hdoing, fun outcome hmem hok hcredentials => ?_, hthen⟩
        obtain rfl := some.inj hmem
        have hon := hdoing hok hcredentials
        refine ⟨hon, hgrown.sound.on hon, req, rfl, ?_⟩
        refine harrived.verified (fun r hr hreq => ?_) (hsuccess hok).taken
          (hturn.grows.sign.doing.symm.trans hon)
        exact h.blank setup hsetup r hr (hreq.trans hid)

theorem client_setup_signed {io : SetupIo} (hstep : c.step md5 m (.setup io) = some (seen, c'))
    (hguards : Guards c (.setup io)) :
    c'.Guarded ∧ SignedFromThenOn md5 c seen c' := by
  obtain ⟨-, hreceived, ⟨hold, houtcome, rfl⟩ | ⟨s', hgrows, ⟨status, hfailed, houtcome, rfl⟩ |
    ⟨setup, hsent, -, -, houtcome, rfl⟩⟩⟩ := step_setup_cases hstep
  · -- no session setup at all
    have hanonymous : io.anonymous = false → False := fun hcredentials =>
      absurd hold (Nat.not_lt.mpr (hguards hcredentials))
    refine ⟨h.finish fun _ hcredentials => (hanonymous hcredentials).elim, ?_, ?_⟩
    · intro outcome hmem _ hcredentials
      obtain rfl := some.inj (houtcome.symm.trans hmem)
      exact (hanonymous hcredentials).elim
    · exact fun _ req hmem => by simp [hreceived] at hmem
  · have hgrown : { c with session := s' }.Guarded := h.grows hgrows fun setup hmem => .inl hmem
    refine ⟨hgrown.finish fun hok => ?_, fun outcome hmem hok => ?_, ?_⟩
    · exact absurd hok (by simp [hfailed])
    · obtain rfl := some.inj (houtcome.symm.trans hmem)
      exact absurd hok (by simp [hfailed])
    · exact fun _ req hmem => by simp [hreceived] at hmem
  · refine ⟨h.grows hgrows fun setup' hmem => .inr (some.inj hmem ▸ hsent), ?_, ?_⟩
    · exact fun outcome hmem => by simp [houtcome] at hmem
    · exact fun _ req hmem => by simp [hreceived] at hmem

theorem client_send_signed {singleIncrement readbraw : Bool}
    (hstep : c.step md5 m (.send singleIncrement readbraw) = some (seen, c')) :
    c'.Guarded ∧ SignedFromThenOn md5 c seen c' := by
  obtain ⟨rfl, rfl⟩ := answer_inj hstep
  have hgrown : { c with session := (c.session.send singleIncrement).2 }.Guarded :=
    h.grows (c.session.send_grows singleIncrement).1 fun setup hmem => .inl hmem
  exact ⟨⟨hgrown.sound, hgrown.mandatory, hgrown.secured, hgrown.pendingIds, hgrown.idleIds,
    hgrown.setupId, hgrown.idleOther, hgrown.blank⟩,
    fun outcome hmem => by simp at hmem, fun _ req hmem => by simp at hmem⟩

theorem client_more_signed {id : Nat} (hstep : c.step md5 m (.more id) = some (seen, c')) :
    c'.Guarded ∧ SignedFromThenOn md5 c seen c' := by
  rw [step] at hstep
  cases hfind : c.idle.find? (·.id == id) with
  | none => simp [hfind] at hstep
  | some req =>
    rw [hfind] at hstep
    obtain ⟨rfl, rfl⟩ := answer_inj hstep
    have hmem := mem_of_find?_eq_some hfind
    refine ⟨⟨h.sound, h.mandatory, h.secured, ?_, ?_, h.setupId, ?_, ?_⟩,
      fun outcome hmem => by simp at hmem, fun _ req hmem => by simp at hmem⟩
    · intro r hr
      obtain rfl | hr := mem_cons.mp hr
      · exact h.idleIds req hmem
      · exact h.pendingIds r hr
    · exact fun r hr => h.idleIds r (mem_of_mem_eraseP hr)
    · exact fun setup hsetup r hr => h.idleOther setup hsetup r (mem_of_mem_eraseP hr)
    · intro setup hsetup r hr hreq
      obtain rfl | hr := mem_cons.mp hr
      · exact absurd hreq (h.idleOther setup hsetup req hmem)
      · exact h.blank setup hsetup r hr hreq

theorem client_step_signed {event : ClientEvent}
    (hstep : (client md5 m).step c event = some (seen, c')) (hguards : Guards c event) :
    c'.Guarded ∧ SignedFromThenOn md5 c seen c' := by
  have hstep : c.step md5 m event = some (seen, c') := hstep
  cases event with
  | setup io => exact client_setup_signed h hstep hguards
  | send singleIncrement readbraw => exact client_send_signed h hstep
  | more id => exact client_more_signed h hstep
  | net event => exact client_net_signed h hstep hguards

end

theorem start_guarded (negotiate : Negotiate) (env : E) :
    (start .required negotiate env).Guarded where
  sound := SigningContext.sound_init .required
  mandatory := rfl
  secured := fun h => by simp [start] at h
  pendingIds := fun r hr => absurd hr not_mem_nil
  idleIds := fun r hr => absurd hr not_mem_nil
  setupId := fun setup hmem => by simp [start] at hmem
  idleOther := fun setup hmem => by simp [start] at hmem
  blank := fun setup hmem => by simp [start] at hmem

/-- **Signed from then on.** In every run of a client that requires signing, in which the protocol
has session setups and no packet is taken unchecked after a setup: a setup with credentials succeeds
only with signing on and its last reply verified, and from then on each request that succeeds was
verified for its sequence number. -/
theorem signed_from_then_on (md5 : Bytes → Bytes) (m : Mechanism E) (negotiate : Negotiate)
    (env : E) (events : List ClientEvent)
    (hguards : (client md5 m).EachStep (fun c event _ _ => Guards c event)
      (.start .required negotiate env) events) :
    (client md5 m).EachStep (fun c _ seen c' => SignedFromThenOn md5 c seen c')
      (.start .required negotiate env) events := by
  refine Machine.EachStep.of_inv (I := Client.Guarded) ?_ events _ (start_guarded _ _) hguards
  exact fun c event seen c' h hstep hguards => client_step_signed h hstep hguards

/-! ## Samples -/

instance (t : Transport) (event : NetEvent) : Decidable (Unchecked t event) :=
  match event with
  | .packet _ => inferInstanceAs (Decidable (_ ∨ _ ∧ _))
  | .timeout _ => .isFalse id

instance (c : Client E) (event : ClientEvent) : Decidable (Guards c event) :=
  match event with
  | .setup io => inferInstanceAs (Decidable (io.anonymous = false → _))
  | .net event => inferInstanceAs (Decidable (c.secured = true → _ ≠ [] → ¬Unchecked _ event))
  | .send _ _ | .more _ => .isTrue trivial

/-- A digest whose bytes are all seven. -/
def sevens (_ : Bytes) : Bytes := List.replicate 16 7

/-- A server that signs and sends a challenge. -/
def signingServer : Negotiate := { protocol := .nt1, secMode := 0x0E, useSpnego := false }

/-- A session setup whose reply is signed, and a request after it. -/
theorem signed_from_then_on_request :
    (client sevens (scripted (some [1]))).EachStep
      (fun c _ seen c' => SignedFromThenOn sevens c seen c') (.start .required signingServer [])
      [.setup {}, setupReply 1 0 7 3 [], .send false false, setupReply 2 0 7 3 []] :=
  signed_from_then_on _ _ _ _ _ (.of_check _ _ (by decide))

/-- The status of a setup, whether signing is on, and the completed request with its state and
status. -/
def signingEnd {E : Type} (run : Option (Option Seen × Client E)) :
    Option (Option NtStatus × Bool × Option (RequestState × NtStatus)) :=
  run.bind fun (seen, c) => seen.map fun seen =>
    (seen.outcome.map (·.status), c.session.transport.signInfo.doingSigning,
      seen.received.map fun req => (req.state, req.status))

/-- In the core protocol a setup succeeds without signing. Later a packet of the NBT type 0x82, or
any packet while a readbraw is pending, completes a request with success. -/
theorem unsigned_success :
    signingEnd ((client sevens (scripted none)).run (.start .required { protocol := .core } [])
      [.setup {}]) = some (some .ok, false, none) ∧
    signingEnd ((client sevens (scripted (some [1]))).run (.start .required signingServer [])
      [.setup {}, setupReply 1 0 7 3 [], .send false false,
        .net (.packet ([0x82] ++ replicate 33 0 ++ [2, 0, 0, 0, 0]))]) =
        some (none, true, some (.done, .ok)) ∧
    signingEnd ((client sevens (scripted (some [1]))).run (.start .required signingServer [])
      [.setup {}, setupReply 1 0 7 3 [], .send false true, .net (.packet [1, 2, 3])]) =
        some (none, true, some (.done, .ok)) ∧
    signingEnd ((client sevens (scripted (some [1]))).run (.start .required signingServer [])
      [.setup {}, setupReply 1 0 7 3 [], .send false false, setupReply 2 0 8 3 []]) =
        some (none, true, some (.error, .accessDenied)) :=
  ⟨by decide, by decide, by decide, by decide⟩

end OpenvasSmb.Smb

import OpenvasSmb.Smb.Lumps
import OpenvasSmb.Smb.SessionSetup

/-!
# What the parts of a session setup do

One lemma for each function: how it changes the transport (`Session.Grows`), what it sends, and
how it ends.
-/

namespace OpenvasSmb.Smb

open Kit Option NtStatus Session

variable {result : Except NtStatus Setup} {status : NtStatus} {progress : Progress}

/-! ## Signing -/

namespace SigningContext

variable {s s' : SigningContext}

/-- Signing is on once a valid packet has been seen, and only then; there is no key before. -/
structure Sound (s : SigningContext) : Prop where
  seen : s.seenValid = s.doingSigning
  on : s.doingSigning = true → s.signingState = .on
  temp : s.signingState = .bsrspyl → s.macKey = []

theorem sound_init (clientSigning : ClientSigning) : (smbcliInitSigning clientSigning).Sound := by
  cases clientSigning <;>
    exact ⟨rfl, by simp [smbcliInitSigning, smbcliSetSigningOff], fun _ => rfl⟩

/-- A new signing implementation is set only if signing is not on. -/
theorem setCommon_doing {secMode : Nat} (h : smbcliSetSmbSigningCommon secMode s = true) :
    s.doingSigning = false := by
  simp only [smbcliSetSmbSigningCommon, Bool.and_eq_true, Bool.not_eq_true'] at h
  exact h.1.1

/-- Neither function that sets signing switches it on or off. -/
structure Kept (s s' : SigningContext) : Prop where
  sound : s.Sound → s'.Sound
  doing : s'.doingSigning = s.doingSigning
  mandatory : s'.mandatorySigning = s.mandatorySigning

theorem Kept.refl (s : SigningContext) : s.Kept s := ⟨id, rfl, rfl⟩

theorem Kept.trans {s'' : SigningContext} (h : s.Kept s') (h' : s'.Kept s'') : s.Kept s'' :=
  ⟨h'.sound ∘ h.sound, h'.doing.trans h.doing, h'.mandatory.trans h.mandatory⟩

theorem kept_temp (secMode : Nat) (s : SigningContext) :
    s.Kept (smbcliTempSetSigning secMode s) := by
  unfold smbcliTempSetSigning
  split
  · have hdoing := setCommon_doing ‹_›
    refine ⟨fun hsound => ⟨?_, fun h => absurd h (by simp [smbcliSetSigningOff]), fun _ => rfl⟩,
      hdoing.symm, rfl⟩
    show s.seenValid = false
    rw [hsound.seen, hdoing]
  · exact .refl s

theorem kept_simple (secMode : Nat) (key response : Bytes) (s : SigningContext) :
    s.Kept (smbcliTransportSimpleSetSigning secMode key response s) := by
  unfold smbcliTransportSimpleSetSigning
  split
  · exact ⟨fun hsound => ⟨hsound.seen, fun _ => rfl, fun h => absurd h (by simp)⟩, rfl, rfl⟩
  · exact .refl s

theorem kept_calculate (singleIncrement : Bool) (req : Request) (s : SigningContext) :
    s.Kept (smbcliRequestCalculateSignMac singleIncrement req s).2 := by
  unfold smbcliRequestCalculateSignMac
  split
  · exact .refl s
  · exact .refl s
  · exact ⟨fun hsound => ⟨hsound.seen, hsound.on, hsound.temp⟩, rfl, rfl⟩

end SigningContext

/-- The signature of the reply was checked, for the sequence number of the request. -/
def Verified (md5 : Bytes → Bytes) (s : SigningContext) (req : Request) : Prop :=
  checkSignedIncomingMessage md5 req.inn s.macKey (req.seqNum + 1) = some true

theorem signingGood_cases {s : SigningContext} (hsound : s.Sound) (good : Bool)
    (hon : good = true → s.signingState = .on) :
    (signingGood s good).2.Sound ∧
      (signingGood s good).2.mandatorySigning = s.mandatorySigning ∧
      (s.doingSigning = true → (signingGood s good).2.doingSigning = true) ∧
      ((signingGood s good).1 = true → (signingGood s good).2.doingSigning = true →
        good = true) := by
  cases good with
  | true =>
    have hstate := hon rfl
    exact ⟨⟨rfl, fun _ => hstate, fun h => absurd (h.symm.trans hstate) (by simp)⟩, rfl,
      fun _ => rfl, fun _ _ => rfl⟩
  | false =>
    rw [signingGood, if_neg (by simp)]
    by_cases hseen : s.seenValid = true
    · rw [if_neg (by simp [hseen])]
      exact ⟨hsound, rfl, id, fun h => absurd h (by simp)⟩
    · rw [if_pos (by simpa using hseen)]
      have hdoing : s.doingSigning = false := by
        rw [← hsound.seen]
        simpa using hseen
      refine ⟨⟨?_, fun h => absurd h (by simp [smbcliSetSigningOff]), fun _ => rfl⟩, rfl, ?_, ?_⟩
      · show s.seenValid = false
        simpa using hseen
      · exact fun h => absurd (hdoing.symm.trans h) (by simp)
      · exact fun _ h => absurd h (by simp [smbcliSetSigningOff])

/-- What a look at the signature can do: it verifies the reply if signing is on after it, and
signing that is on stays on. -/
theorem checkSignMac_cases {md5 : Bytes → Bytes} {req : Request} {s s' : SigningContext}
    {good : Bool} (hsound : s.Sound) (h : smbcliRequestCheckSignMac md5 req s = some (good, s')) :
    s'.Sound ∧ s'.mandatorySigning = s.mandatorySigning ∧
      (s.doingSigning = true → s'.doingSigning = true) ∧
      (good = true → s'.doingSigning = true → Verified md5 s req) := by
  have hcheck : s.signingState ≠ .off → smbcliRequestCheckSignMac md5 req s =
      if req.inn.size < 22 then some (false, s)
      else (checkSignedIncomingMessage md5 req.inn s.macKey (req.seqNum + 1)).map
        (signingGood s) := by
    intro hoff
    unfold smbcliRequestCheckSignMac
    split
    · exact absurd ‹_› hoff
    · rfl
    · rfl
  by_cases hoff : s.signingState = .off
  · rw [smbcliRequestCheckSignMac, hoff] at h
    obtain ⟨rfl, rfl⟩ := answer_inj h
    refine ⟨hsound, rfl, id, fun _ hdoing => ?_⟩
    exact absurd (hoff.symm.trans (hsound.on hdoing)) (by simp)
  · rw [hcheck hoff] at h
    split at h
    · obtain ⟨rfl, rfl⟩ := answer_inj h
      exact ⟨hsound, rfl, id, fun h => absurd h (by simp)⟩
    · obtain ⟨verified, hverified, heq⟩ := map_eq_some_iff.mp h
      -- without a key nothing is verified
      have hon : verified = true → s.signingState = .on := by
        intro htrue
        cases hstate : s.signingState with
        | off => exact absurd hstate hoff
        | on => rfl
        | bsrspyl =>
          rw [htrue, checkSignedIncomingMessage, hsound.temp hstate] at hverified
          simp at hverified
      obtain ⟨hsound', hmandatory, hkept, hgood⟩ := signingGood_cases hsound verified hon
      rw [heq] at hsound' hmandatory hkept hgood
      refine ⟨hsound', hmandatory, hkept, fun htrue hdoing => ?_⟩
      rw [Verified, hverified, hgood htrue hdoing]

/-! ## Sessions -/

variable {E : Type} {m : Mechanism E} {s s' : Session E} {setup setup' : Setup} {req : Request}

namespace Session

/-- What the functions of a setup do to the transport: signing is not switched on or off, and
requests may be sent. -/
structure Grows (s s' : Session E) : Prop where
  sign : s.transport.signInfo.Kept s'.transport.signInfo
  ids : s.nextId ≤ s'.nextId
  pending : ∀ r ∈ s'.transport.pending, r ∈ s.transport.pending ∨
    s.nextId ≤ r.id ∧ r.id < s'.nextId ∧ r.inn = {} ∧ r.status = .ok

theorem Grows.of_eq (ht : s'.transport = s.transport) (hid : s'.nextId = s.nextId) :
    s.Grows s' := by
  refine ⟨?_, Nat.le_of_eq hid.symm, fun r hr => .inl ?_⟩
  · rw [ht]
    exact .refl _
  · rwa [← ht]

theorem Grows.from {s₀ : Session E} (h : s₀.Grows s') (ht : s₀.transport = s.transport)
    (hid : s₀.nextId = s.nextId) : s.Grows s' :=
  ⟨ht ▸ h.sign, hid ▸ h.ids, ht ▸ hid ▸ h.pending⟩

theorem Grows.trans {s'' : Session E} (h : s.Grows s') (h' : s'.Grows s'') : s.Grows s'' := by
  refine ⟨h.sign.trans h'.sign, Nat.le_trans h.ids h'.ids, fun r hr => ?_⟩
  have hids := h.ids
  have hids' := h'.ids
  obtain hr | ⟨hlow, hhigh, hblank⟩ := h'.pending r hr
  · obtain hr | ⟨hlow, hhigh, hblank⟩ := h.pending r hr
    · exact .inl hr
    · exact .inr ⟨hlow, by omega, hblank⟩
  · exact .inr ⟨by omega, hhigh, hblank⟩

theorem ask_grows {α : Type} (f : E → α × E) : s.Grows (s.ask f).2 := .of_eq rfl rfl

theorem tempSetSigning_grows (s : Session E) : s.Grows s.tempSetSigning :=
  ⟨SigningContext.kept_temp _ _, Nat.le_refl _, fun _ h => .inl h⟩

theorem simpleSetSigning_grows (s : Session E) (key response : Bytes) :
    s.Grows (s.simpleSetSigning key response) :=
  ⟨SigningContext.kept_simple _ _ _ _, Nat.le_refl _, fun _ h => .inl h⟩

theorem calculateSignMac_same (singleIncrement : Bool) (req : Request) (s : SigningContext) :
    (smbcliRequestCalculateSignMac singleIncrement req s).1.id = req.id ∧
      (smbcliRequestCalculateSignMac singleIncrement req s).1.inn = req.inn ∧
      (smbcliRequestCalculateSignMac singleIncrement req s).1.status = req.status := by
  unfold smbcliRequestCalculateSignMac
  cases s.signingState <;> exact ⟨rfl, rfl, rfl⟩

/-- A new request has a new address, and has not been answered. -/
theorem send_grows (s : Session E) (singleIncrement : Bool) :
    s.Grows (s.send singleIncrement).2 ∧ (s.send singleIncrement).1.id = s.nextId ∧
      (s.send singleIncrement).2.nextId = s.nextId + 1 := by
  obtain ⟨hid, hinn, hstatus⟩ := calculateSignMac_same singleIncrement
    { id := s.nextId, mid := smbcliTransportNextMid s.transport.pending 65536 s.nextMid }
    s.transport.signInfo
  refine ⟨⟨SigningContext.kept_calculate _ _ _, Nat.le_succ _, fun r hr => ?_⟩, hid, rfl⟩
  obtain rfl | hr := List.mem_cons.mp hr
  · exact .inr ⟨Nat.le_of_eq hid.symm, Nat.lt_succ_of_le (Nat.le_of_eq hid), hinn, hstatus⟩
  · exact .inl hr

end Session

/-! ## The first request -/

theorem isOk_of_not_okOrMore (h : ¬isOkOrMore status = true) : status.isOk = false := by
  rw [isOkOrMore, Bool.or_eq_true, not_or] at h
  simpa using h.1

/-- The results of `gensec_update` as they are kept. -/
def Setup.Asked (setup : Setup) : Prop :=
  setup.level = .spnego →
    isOkOrMore setup.gensecStatus = true ∧ setup.updates.getLast? = some setup.gensecStatus

structure Setup.Sent (s s' : Session E) (setup : Setup) : Prop where
  low : s.nextId ≤ setup.reqId
  high : setup.reqId < s'.nextId

theorem smbRawSesssetupSend_sent (setup : Setup) (s : Session E) :
    s.Grows (smbRawSesssetupSend setup s).2 ∧
      (smbRawSesssetupSend setup s).1.Sent s (smbRawSesssetupSend setup s).2 := by
  obtain ⟨hgrows, hid, hnext⟩ := s.send_grows false
  exact ⟨hgrows, Nat.le_of_eq hid.symm, Nat.lt_of_le_of_lt (Nat.le_of_eq hid) (by
    rw [show (smbRawSesssetupSend setup s).2 = (s.send false).2 from rfl]; omega)⟩

/-- What the start of a setup leads to: a request has been sent, or there is an error. -/
structure Started (setup : Setup) (s : Session E) (r : Except NtStatus Setup × Session E) :
    Prop where
  grows : s.Grows r.2
  sent : ∀ setup', r.1 = .ok setup' → setup'.Sent s r.2 ∧ setup'.io = setup.io ∧
    setup'.level = setup.level ∧ setup'.Asked
  failed : ∀ status, r.1 = .error status → status.isOk = false

theorem Started.error (hgrows : s.Grows s') (h : status.isOk = false) :
    Started setup s (.error status, s') :=
  ⟨hgrows, fun _ h => by simp at h, fun _ heq => Except.error.inj heq ▸ h⟩

theorem Started.send (hgrows : s.Grows s') (hio : setup'.io = setup.io)
    (hlevel : setup'.level = setup.level) (hasked : setup'.Asked) :
    Started setup s (.ok (smbRawSesssetupSend setup' s').1, (smbRawSesssetupSend setup' s').2) := by
  obtain ⟨hgrows', hsent⟩ := smbRawSesssetupSend_sent setup' s'
  refine ⟨hgrows.trans hgrows', fun setup'' h => ?_, fun _ h => by simp at h⟩
  obtain rfl := Except.ok.inj h
  exact ⟨⟨Nat.le_trans hgrows.ids hsent.low, hsent.high⟩, hio, hlevel, hasked⟩

theorem challengeSetup_started {sign : Bytes → Bytes → Session E → Session E}
    (hold : setup.level ≠ .spnego)
    (hsign : ∀ key response (s : Session E), s.Grows (sign key response s)) :
    Started setup s (challengeSetup m setup.level sign setup s) := by
  have hasked : setup.Asked := fun h => absurd h hold
  unfold challengeSetup
  simp only
  split
  · split
    · exact .error (ask_grows _) (eq_false_of_ne_true ‹_›)
    · exact .send ((ask_grows _).trans ((hsign _ _ _).trans (.of_eq rfl rfl))) rfl rfl hasked
  · split
    · exact .send (.of_eq rfl rfl) rfl rfl hasked
    · exact .error (.of_eq rfl rfl) rfl

theorem chooseMech_error {secblob : Bytes} {e : E} (h : (chooseMech m secblob e).1 = .error status) :
    status.isOk = false := by
  unfold chooseMech at h
  simp only at h
  split at h
  · split at h
    · simp at h
    · split at h
      · simp at h
      · obtain rfl := Except.error.inj h
        exact eq_false_of_ne_true ‹_›
  · simp at h

theorem sessionSetupSpnego_started (hlevel : setup.level = .spnego) :
    Started setup s (sessionSetupSpnego m setup s) := by
  have hsetup : { setup with level := .spnego } = setup := by rw [← hlevel]
  unfold sessionSetupSpnego
  simp only [hsetup]
  have hgrows : s.Grows (s.tempSetSigning.ask (allOk [m.gensecClientStart, m.gensecSetCredentials,
      m.gensecSetTargetHostname, m.gensecSetTargetService])).2 :=
    s.tempSetSigning_grows.trans (ask_grows _)
  generalize s.tempSetSigning.ask _ = started at hgrows
  split
  · exact .error hgrows (eq_false_of_ne_true ‹_›)
  · have hgrows₂ := hgrows.trans (ask_grows (chooseMech m started.2.negotiate.secblob))
    split <;> rename_i hchoose <;> rw [hchoose] at hgrows₂
    · exact .error hgrows₂ (chooseMech_error (e := started.2.env) (congrArg Prod.fst hchoose))
    · rename_i oid s₂
      generalize (if oid = .spnego then s₂.negotiate.secblob else []) = token
      have hgrows₃ := hgrows₂.trans (ask_grows (m.gensecUpdate token))
      split
      · exact .error hgrows₃ (isOk_of_not_okOrMore ‹_›)
      · rename_i hmore
        refine .send (hgrows₃.trans ?_) rfl rfl fun _ => ⟨not_not.mp hmore, List.getLast?_concat⟩
        split
        · exact simpleSetSigning_grows _ _ []
        · exact .of_eq rfl rfl

/-- What the start of a setup does. -/
theorem sessionSetup_started (setup : Setup) (s : Session E) :
    Started setup s (sessionSetup m setup s) := by
  unfold sessionSetup sessionSetupOld sessionSetupNt1
  split <;> rename_i hlevel
  · rw [← hlevel]
    exact challengeSetup_started (by simp [hlevel]) fun _ _ s => .of_eq rfl rfl
  · rw [← hlevel]
    exact challengeSetup_started (by simp [hlevel]) fun key response s =>
      s.simpleSetSigning_grows key response
  · exact sessionSetupSpnego_started hlevel

/-! ## request_handler -/

/-- A reply that is taken: it was received, its status is a success or asks for more, and it has
the right number of words. -/
structure Taken (setup : Setup) (req : Request) (status : NtStatus) : Prop where
  done : req.state = .done
  status : req.status = status
  words : req.inn.wct = setup.level.words

/-- A request that failed, though its status asks for more. -/
def FailedWithMore (req : Request) : Prop :=
  req.state = .error ∧ req.status = .moreProcessingRequired

theorem smbRawSesssetupRecv_cases (hstate : req.state = .done ∨ req.state = .error)
    (h : smbRawSesssetupRecv req setup = some (status, setup')) :
    (isOkOrMore status = true →
      Taken setup req status ∨ FailedWithMore req ∧ status = .moreProcessingRequired) ∧
      ∃ outVuid outSecblob,
        setup' = { setup with outVuid := outVuid, outSecblob := outSecblob } := by
  have hdestroy : ∀ status, req.state = .done →
      smbcliRequestDestroy { req with status := status } = status := by
    intro status hdone
    rw [smbcliRequestDestroy, if_neg (by simp [hdone])]
  unfold smbRawSesssetupRecv at h
  split at h
  · rename_i hdone
    obtain ⟨rfl, rfl⟩ := answer_inj h
    have herror : req.state = .error := hstate.resolve_left hdone
    refine ⟨fun hmore => .inr ?_, setup.outVuid, setup.outSecblob, rfl⟩
    rw [smbcliRequestDestroy] at hmore ⊢
    by_cases hok : req.status.isOk = true
    · rw [if_pos ⟨herror, hok⟩] at hmore
      exact absurd hmore (by decide)
    · rw [if_neg fun h => hok h.2] at hmore ⊢
      rw [isOkOrMore, Bool.or_eq_true, beq_iff_eq] at hmore
      have hstatus := hmore.resolve_left hok
      exact ⟨⟨herror, hstatus⟩, hstatus⟩
  rename_i hdone
  have hdone := not_not.mp hdone
  have hstatus : smbcliRequestDestroy req = req.status := hdestroy req.status hdone
  split at h
  · rename_i hfailed
    obtain ⟨rfl, rfl⟩ := answer_inj h
    refine ⟨fun hmore => ?_, setup.outVuid, setup.outSecblob, rfl⟩
    rw [hstatus, isOkOrMore] at hmore
    simp [hfailed.1, hfailed.2] at hmore
  split at h
  · rw [hdestroy _ hdone] at h
    obtain ⟨rfl, rfl⟩ := answer_inj h
    exact ⟨fun hmore => absurd hmore (by decide), setup.outVuid, setup.outSecblob, rfl⟩
  rename_i hwords
  rw [hstatus] at h
  have htaken : Taken setup req req.status := ⟨hdone, rfl, not_not.mp hwords⟩
  obtain ⟨hdr, -, h⟩ := bind_eq_some_iff.mp h
  obtain ⟨vwv, -, h⟩ := bind_eq_some_iff.mp h
  obtain ⟨vuid, -, h⟩ := bind_eq_some_iff.mp h
  simp only at h
  split at h
  iterate 2
    obtain ⟨rfl, rfl⟩ := answer_inj h
    exact ⟨fun _ => .inl htaken, vuid, setup.outSecblob, rfl⟩
  obtain ⟨len, -, h⟩ := bind_eq_some_iff.mp h
  split at h
  · obtain ⟨rfl, rfl⟩ := answer_inj h
    exact ⟨fun _ => .inl htaken, vuid, [], rfl⟩
  · obtain ⟨secblob, -, h⟩ := bind_eq_some_iff.mp h
    obtain ⟨rfl, rfl⟩ := answer_inj h
    exact ⟨fun _ => .inl htaken, vuid, secblob, rfl⟩

def Signed (setup : Setup) (s : Session E) : Prop :=
  s.transport.signInfo.mandatorySigning = true → setup.io.anonymous = false →
    s.transport.signInfo.doingSigning = true

/-- The state after a round or a start. -/
structure Setup.Continues (s s' : Session E) (setup setup' : Setup) : Prop where
  sent : setup'.Sent s s'
  io : setup'.io = setup.io
  level : setup'.level = setup.level
  asked : setup.Asked → setup'.Asked

/-- What a reply leads to: another request is sent, or the setup is over, with `P` after a
success. -/
structure Turn (setup : Setup) (s : Session E) (P : Setup → Session E → Prop)
    (r : Progress × Session E) : Prop where
  grows : s.Grows r.2
  again : ∀ setup', r.1 = .again setup' → setup.Continues s r.2 setup'
  finished : ∀ setup' status, r.1 = .finished setup' status → setup'.io = setup.io ∧
    setup'.level = setup.level ∧ (status.isOk = true → P setup' r.2)

section Turn

variable {P : Setup → Session E → Prop} {s₁ : Session E} {r : Progress × Session E}

theorem Turn.imp {P₁ : Setup → Session E → Prop} (h : Turn setup' s₁ P₁ r) (hgrows : s.Grows s₁)
    (hio : setup'.io = setup.io) (hlevel : setup'.level = setup.level)
    (hasked : setup.Asked → setup'.Asked) (himp : ∀ setup'', P₁ setup'' r.2 → P setup'' r.2) :
    Turn setup s P r := by
  refine ⟨hgrows.trans h.grows, fun setup'' heq => ?_, fun setup'' status heq => ?_⟩
  · obtain ⟨hsent, hio', hlevel', hasked'⟩ := h.again setup'' heq
    exact ⟨⟨Nat.le_trans hgrows.ids hsent.low, hsent.high⟩, hio'.trans hio, hlevel'.trans hlevel,
      hasked' ∘ hasked⟩
  · obtain ⟨hio', hlevel', hok⟩ := h.finished setup'' status heq
    exact ⟨hio'.trans hio, hlevel'.trans hlevel, fun hsuccess => himp _ (hok hsuccess)⟩

/-- The end of `request_handler`: after a success signing is on if it is required. -/
theorem enforceSigning_turn (hgrows : s.Grows s₁) (hio : setup'.io = setup.io)
    (hlevel : setup'.level = setup.level)
    (hok : status.isOk = true → Signed setup' s₁ → P setup' s₁) :
    Turn setup s P (enforceSigning setup' status s₁) := by
  unfold enforceSigning
  simp only
  split
  · refine ⟨hgrows, fun _ h => by simp at h, fun setup'' status' h => ?_⟩
    obtain ⟨rfl, rfl⟩ := Progress.finished.inj h
    exact ⟨hio, hlevel, fun hok => absurd hok (by decide)⟩
  · rename_i hallowed
    refine ⟨hgrows, fun _ h => by simp at h, fun setup'' status' h => ?_⟩
    obtain ⟨rfl, rfl⟩ := Progress.finished.inj h
    refine ⟨hio, hlevel, fun hsuccess => hok hsuccess fun hmandatory hcredentials => ?_⟩
    by_contra hdoing
    exact hallowed ⟨hsuccess, by simp [hcredentials], hdoing, hmandatory⟩

/-- What a round leads to after the mechanism has been asked: its token is sent, or there is none
and the setup is over. -/
theorem spnegoSend_turn
    (hok : setup.inSecblob = [] → status.isOk = true → ∀ s', Signed setup s' → P setup s') :
    Turn setup s P (spnegoSend m setup status s) := by
  have hkey : ∃ s₁, s.Grows s₁ ∧ s₁.nextId = s.nextId ∧ spnegoSend m setup status s =
      if setup.inSecblob ≠ [] then
        (.again (smbRawSesssetupSend setup { s₁ with vuid := setup.ioVuid }).1,
          { (smbRawSesssetupSend setup { s₁ with vuid := setup.ioVuid }).2 with vuid := s₁.vuid })
      else enforceSigning setup status s₁ := by
    unfold spnegoSend
    cases m.gensecSessionKey s.env with
    | none => exact ⟨s, .of_eq rfl rfl, rfl, rfl⟩
    | some key =>
      exact ⟨_, (simpleSetSigning_grows { s with userSessionKey := some key } key []).from
        rfl rfl, rfl, rfl⟩
  obtain ⟨s₁, hgrows, hids, heq⟩ := hkey
  rw [heq]
  split
  · obtain ⟨hgrows', hsent⟩ := smbRawSesssetupSend_sent setup { s₁ with vuid := setup.ioVuid }
    refine ⟨(hgrows.trans (hgrows'.from rfl rfl)).trans (.of_eq rfl rfl), fun setup' h => ?_,
      fun _ _ h => by simp at h⟩
    obtain rfl := Progress.again.inj h
    exact ⟨⟨hids ▸ hsent.low, hsent.high⟩, rfl, rfl, id⟩
  · rename_i htoken
    exact enforceSigning_turn hgrows rfl rfl fun hsuccess => hok (not_not.mp htoken) hsuccess s₁

/-- A success of a round: the reply was a success or asked for more, and the mechanism is done. -/
structure RoundOk (m : Mechanism E) (setup : Setup) (status : NtStatus) (s : Session E)
    (setup' : Setup) (s' : Session E) : Prop where
  signed : Signed setup s'
  replies : setup'.replies = setup.replies
  reply : isOkOrMore status = true
  asked : setup.gensecStatus = .moreProcessingRequired →
    (m.gensecUpdate setup.outSecblob s.env).1 = (.ok, []) ∧ setup'.updates.getLast? = some .ok
  notAsked : setup.gensecStatus ≠ .moreProcessingRequired →
    status = .ok ∧ setup'.updates = setup.updates

theorem spnegoRound_turn :
    Turn setup s (RoundOk m setup status s) (spnegoRound m setup status s) := by
  unfold spnegoRound
  split
  · rename_i hreply
    exact enforceSigning_turn (.of_eq rfl rfl) rfl rfl fun hsuccess =>
      absurd hsuccess (by simp [isOk_of_not_okOrMore hreply])
  · rename_i hreply
    have hreply := not_not.mp hreply
    split
    · rename_i hmore
      simp only
      have hgrows : s.Grows (s.ask (m.gensecUpdate setup.outSecblob)).2 := ask_grows _
      have hanswer : (m.gensecUpdate setup.outSecblob s.env).1 =
        (s.ask (m.gensecUpdate setup.outSecblob)).1 := rfl
      generalize s.ask (m.gensecUpdate setup.outSecblob) = asked at hgrows hanswer
      split
      · rename_i hfailed
        exact enforceSigning_turn hgrows rfl rfl fun hsuccess =>
          absurd hsuccess (by simp [isOk_of_not_okOrMore hfailed])
      · rename_i hok
        refine (spnegoSend_turn (P := RoundOk m setup status s) fun htoken hsuccess s' hsigned =>
          ?_).imp hgrows rfl rfl (fun _ _ => ⟨not_not.mp hok, List.getLast?_concat⟩) fun _ => id
        have hdone : asked.1 = (.ok, []) := Prod.ext ((isOk_iff _).mp hsuccess) htoken
        refine ⟨hsigned, rfl, hreply, fun _ => ⟨hanswer.trans hdone, ?_⟩,
          fun hnot => absurd hmore hnot⟩
        rw [hdone]
        exact List.getLast?_concat
    · rename_i hmore
      refine (@spnegoSend_turn _ _ m s { setup with inSecblob := [] } _
        fun _ hsuccess s' hsigned => ?_).imp (.of_eq rfl rfl) rfl rfl id fun _ => id
      exact ⟨hsigned, rfl, hreply, fun h => absurd h hmore,
        fun _ => ⟨(isOk_iff _).mp hsuccess, rfl⟩⟩

structure SwitchOk (m : Mechanism E) (setup : Setup) (status : NtStatus) (s : Session E)
    (setup' : Setup) (s' : Session E) : Prop where
  signed : Signed setup s'
  replies : setup'.replies = setup.replies
  reply : isOkOrMore status = true
  spnego : setup.level = .spnego → RoundOk m setup status s setup' s'
  other : setup.level ≠ .spnego → status = .ok

theorem setupRound_turn : Turn setup s (SwitchOk m setup status s) (setupRound m setup status s) := by
  have hother : setup.level ≠ .spnego →
      Turn setup s (SwitchOk m setup status s) (enforceSigning setup status s) := by
    intro hlevel
    refine enforceSigning_turn (.of_eq rfl rfl) rfl rfl fun hsuccess hsigned => ?_
    exact ⟨hsigned, rfl, by rw [isOkOrMore, hsuccess, Bool.true_or], fun h => absurd h hlevel,
      fun _ => (isOk_iff _).mp hsuccess⟩
  unfold setupRound
  split <;> rename_i hlevel
  · exact hother (by simp [hlevel])
  · exact hother (by simp [hlevel])
  · refine spnegoRound_turn.imp (.of_eq rfl rfl) rfl rfl id fun _ hok => ?_
    exact ⟨hok.signed, hok.replies, hok.reply, fun _ => hok, fun hnot => absurd hlevel hnot⟩

end Turn

/-- The server asks for more, and the mechanism is done with nothing more to say. -/
def Hasty (m : Mechanism E) (setup : Setup) (req : Request) (e : E) : Prop :=
  ∃ reply ∈ smbRawSesssetupRecv req setup, reply.1 = .moreProcessingRequired ∧
    setup.level = .spnego ∧ setup.gensecStatus = .moreProcessingRequired ∧
    (m.gensecUpdate reply.2.outSecblob e).1 = (.ok, [])

/-- A success of `request_handler`. -/
structure HandlerOk (m : Mechanism E) (setup : Setup) (req : Request) (s : Session E)
    (setup' : Setup) (s' : Session E) : Prop where
  signed : Signed setup s'
  taken : Taken setup req req.status ∨ FailedWithMore req
  replies : setup'.replies.getLast? = some req.status
  server : req.status = .ok ∨ Hasty m setup req s.env
  updates : setup.level = .spnego → setup.Asked → setup'.updates.getLast? = some .ok

/-- The switch, in a session that is the same or has failed to start again. -/
theorem setupRound_handled {s₁ : Session E} {setup₀ : Setup}
    (hstate : req.state = .done ∨ req.state = .error)
    (hrecv : smbRawSesssetupRecv req setup = some (status, setup₀)) (hgrows : s.Grows s₁)
    (hsame : isOkOrMore status = true → s₁ = s) :
    Turn setup s (HandlerOk m setup req s) (setupRound m { setup₀ with
      ioVuid := setup₀.outVuid, replies := setup₀.replies ++ [req.status] } status s₁) := by
  obtain ⟨htaken, outVuid, outSecblob, rfl⟩ := smbRawSesssetupRecv_cases hstate hrecv
  refine setupRound_turn.imp hgrows rfl rfl id fun setup' hok => ?_
  obtain ⟨hsigned, hreplies, hreply, hspnego, hother⟩ := hok
  obtain rfl := hsame hreply
  have htaken := htaken hreply
  have hserver : status = .ok → req.status = .ok := by
    rintro rfl
    obtain htaken | ⟨-, hmore⟩ := htaken
    · exact htaken.status
    · exact absurd hmore (by decide)
  refine ⟨hsigned, ?_, ?_, ?_, ?_⟩
  · obtain htaken | ⟨hfailed, -⟩ := htaken
    · exact .inl ⟨htaken.done, rfl, htaken.words⟩
    · exact .inr hfailed
  · rw [hreplies]
    exact List.getLast?_concat
  · by_cases hcase : setup.level = .spnego
    · by_cases hmore : setup.gensecStatus = .moreProcessingRequired
      · rw [isOkOrMore, Bool.or_eq_true, beq_iff_eq] at hreply
        obtain hreply | hreply := hreply
        · exact .inl (hserver ((isOk_iff _).mp hreply))
        · subst hreply
          exact .inr ⟨_, hrecv, rfl, hcase, hmore, ((hspnego hcase).asked hmore).1⟩
      · exact .inl (hserver ((hspnego hcase).notAsked hmore).1)
    · exact .inl (hserver (hother hcase))
  · intro hcase hasked
    by_cases hmore : setup.gensecStatus = .moreProcessingRequired
    · exact ((hspnego hcase).asked hmore).2
    · obtain ⟨hkept, hlast⟩ := hasked hcase
      rw [((hspnego hcase).notAsked hmore).2]
      rw [isOkOrMore, Bool.or_eq_true, beq_iff_eq] at hkept
      exact hlast.trans (congrArg some ((isOk_iff _).mp (hkept.resolve_right hmore)))

theorem requestHandler_handled {r : Progress × Session E}
    (hstate : req.state = .done ∨ req.state = .error)
    (h : requestHandler m setup req s = some r) : Turn setup s (HandlerOk m setup req s) r := by
  obtain ⟨⟨status, setup₀⟩, hrecv, h⟩ := bind_eq_some_iff.mp h
  simp only at h
  split at h
  · rename_i hfailure
    have hnot : isOkOrMore status = true → False := by
      rw [hfailure]
      decide
    have hgrows : s.Grows ({ s with vuid := 0 }.ask m.cliCredentialsWrongPassword).2 :=
      .of_eq rfl rfl
    generalize { s with vuid := 0 }.ask m.cliCredentialsWrongPassword = asked at h hgrows
    split at h
    · have hstarted := sessionSetup_started (m := m) { setup₀ with
        ioVuid := setup₀.outVuid, replies := setup₀.replies ++ [req.status] } asked.2
      split at h <;> rename_i hstart <;> rw [hstart] at hstarted <;> obtain rfl := some.inj h
      · obtain ⟨-, outVuid, outSecblob, rfl⟩ := smbRawSesssetupRecv_cases hstate hrecv
        refine ⟨hgrows.trans hstarted.grows, fun setup' heq => ?_, fun _ _ heq => by simp at heq⟩
        obtain ⟨hsent, hio, hlevel, hasked⟩ :=
          hstarted.sent setup' (congrArg Except.ok (Progress.again.inj heq))
        exact ⟨⟨Nat.le_trans hgrows.ids hsent.low, hsent.high⟩, hio, hlevel, fun _ => hasked⟩
      · exact setupRound_handled hstate hrecv (hgrows.trans hstarted.grows) fun h => (hnot h).elim
    · obtain rfl := some.inj h
      exact setupRound_handled hstate hrecv hgrows fun h => (hnot h).elim
  · obtain rfl := some.inj h
    exact setupRound_handled hstate hrecv (.of_eq rfl rfl) fun _ => rfl

/-! ## Clients -/

namespace Client

variable {c c' : Client E} {seen : Seen} {md5 : Bytes → Bytes}

/-- What becomes of a request that was completed: it is given back to its sender, or handled by
the session setup. -/
theorem deliver_cases (hstate : req.state = .done ∨ req.state = .error)
    (h : c.deliver m req = some (seen, c')) :
    (seen = { received := some req } ∧ c' = { c with idle := req :: c.idle } ∧
      ∀ setup ∈ c.setup, req.id ≠ setup.reqId) ∨
    ∃ setup progress s', c.setup = some setup ∧ req.id = setup.reqId ∧
      Turn setup c.session (HandlerOk m setup req c.session) (progress, s') ∧
      ((∃ setup', progress = .again setup' ∧ seen = { received := some req } ∧
        c' = { c with session := s', setup := some setup' }) ∨
      ∃ setup' status, progress = .finished setup' status ∧
        seen = { received := some req, outcome := some ⟨setup'.io, some setup', status⟩ } ∧
        c' = ({ c with session := s' }.finish setup'.io (some setup') status).2) := by
  unfold deliver at h
  split at h <;> rename_i hsetup
  · obtain ⟨rfl, rfl⟩ := answer_inj h
    exact .inl ⟨rfl, rfl, fun setup hmem => by simp [hsetup] at hmem⟩
  · rename_i setup
    split at h <;> rename_i hid
    · obtain ⟨⟨progress, s'⟩, hhandler, h⟩ := bind_eq_some_iff.mp h
      refine .inr ⟨setup, progress, s', hsetup, hid, requestHandler_handled hstate hhandler, ?_⟩
      cases progress with
      | again setup' =>
        obtain ⟨rfl, rfl⟩ := answer_inj h
        exact .inl ⟨setup', rfl, rfl, rfl⟩
      | finished setup' status =>
        obtain ⟨rfl, rfl⟩ := answer_inj h
        exact .inr ⟨setup', status, rfl, rfl, rfl⟩
    · obtain ⟨rfl, rfl⟩ := answer_inj h
      exact .inl ⟨rfl, rfl, fun setup' hmem => by rwa [← some.inj (hsetup.symm.trans hmem)]⟩

theorem step_setup_cases {io : SetupIo} (h : c.step md5 m (.setup io) = some (seen, c')) :
    c.setup = none ∧ seen.received = none ∧
      ((c.session.negotiate.protocol.rank < Protocol.lanman1.rank ∧
        seen.outcome = some ⟨io, none, .ok⟩ ∧ c' = (c.finish io none .ok).2) ∨
      ∃ s', c.session.Grows s' ∧
        ((∃ status, status.isOk = false ∧ seen.outcome = some ⟨io, none, status⟩ ∧
          c' = ({ c with session := s' }.finish io none status).2) ∨
        ∃ setup, setup.Sent c.session s' ∧ setup.io = io ∧ setup.Asked ∧ seen.outcome = none ∧
          c' = { c with session := s', setup := some setup })) := by
  have hstarted := sessionSetup_started (m := m)
    { io := io, level := c.session.negotiate.level io } c.session
  simp only [step, smbCompositeSesssetupSend] at h
  generalize sessionSetup m { io := io, level := c.session.negotiate.level io } c.session = started
    at h hstarted
  obtain ⟨hgrows, hsent, hfailed⟩ := hstarted
  split at h
  · simp at h
  · rename_i hnone
    refine ⟨by simpa using hnone, ?_⟩
    by_cases hold : c.session.negotiate.protocol.rank < Protocol.lanman1.rank
    · simp only [if_pos hold] at h
      obtain ⟨rfl, rfl⟩ := answer_inj h
      exact ⟨rfl, .inl ⟨hold, rfl, rfl⟩⟩
    · simp only [if_neg hold] at h
      obtain ⟨result, s'⟩ := started
      cases result with
      | error status =>
        simp only at h
        split at h
        · simp at h
        · obtain ⟨rfl, rfl⟩ := answer_inj h
          exact ⟨rfl, .inr ⟨s', hgrows, .inl ⟨status, hfailed status rfl, rfl, rfl⟩⟩⟩
      | ok setup =>
        obtain ⟨rfl, rfl⟩ := answer_inj h
        obtain ⟨hsent, hio, -, hasked⟩ := hsent setup rfl
        exact ⟨rfl, .inr ⟨s', hgrows, .inr ⟨setup, hsent, hio, hasked, rfl, rfl⟩⟩⟩

theorem step_net_cases {event : NetEvent} (h : c.step md5 m (.net event) = some (seen, c')) :
    ∃ received t,
      eventLoopOnce md5 { transport := c.session.transport, serial := c.serial } event =
        some (received, t) ∧
      (((∀ req, received ≠ .completed req) ∧ seen = {} ∧ c' = c.after t) ∨
      ∃ req, received = .completed req ∧ (c.after t).deliver m req = some (seen, c')) := by
  obtain ⟨⟨received, t⟩, hevent, h⟩ := bind_eq_some_iff.mp h
  refine ⟨received, t, hevent, ?_⟩
  cases received with
  | discarded | oplockBreak info =>
    obtain ⟨rfl, rfl⟩ := answer_inj h
    exact .inl ⟨by simp, rfl, rfl⟩
  | completed req => exact .inr ⟨req, rfl, h⟩

end Client

end OpenvasSmb.Smb

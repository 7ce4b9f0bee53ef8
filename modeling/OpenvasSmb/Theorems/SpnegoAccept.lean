import OpenvasSmb.Spnego.Update

/-!
# When a SPNEGO client takes the negotiation as accepted

A client should report `NT_STATUS_OK`, or enter `SPNEGO_DONE`, only on a token that carries
accept-completed and with a mechanism that reported success (`AcceptsOnly`). The code tests
`negResult` after `spnego_free_data` has zeroed the token, and 0 is `SPNEGO_ACCEPT_COMPLETED`, so
the test never refuses; an absent negResult decodes to the same 0; an empty output of a mechanism
that wants to go on ends the negotiation; and a change of mechanism keeps `no_response_expected`.

Over every run of a client the property holds at every step iff every step meets
`AcceptCondition`, a condition on the token, the mechanism's answer to it and the state before
(`spnego_client_accept_iff`).
-/

namespace OpenvasSmb.Spnego

open Option NtStatus

variable {W : Type} {G : Gensec W} {input : Bytes} {token : NegTokenTarg}
  {o : NtStatus × Option Bytes} {s s' : SpnegoState} {st st' : SpnegoState × W} {r : TargAnswer W}
  {w w' : W}

/-! ## The property -/

/-- The sub mechanism's latest answer was success. -/
def MechOk (s : SpnegoState) : Prop :=
  ∃ ctx, s.subSecSecurity = some ctx ∧ ctx.lastUpdate = some .ok

/-- `NT_STATUS_OK` is returned, or `SPNEGO_DONE` entered, only on an explicit accept-completed and
after success of the mechanism. -/
def AcceptsOnly (before : SpnegoState × W) (input : Bytes) (out : NtStatus × Option Bytes)
    (after : SpnegoState × W) : Prop :=
  (out.1 = .ok ∨ (before.1.statePosition ≠ .done ∧ after.1.statePosition = .done)) →
    explicitNegResult input = some acceptCompleted ∧ MechOk after.1

/-! ## The condition -/

/-- The token asks for a mechanism other than the current one. -/
def AsksOther (s : SpnegoState) (token : NegTokenTarg) : Prop :=
  token.negResult = acceptIncomplete ∧ token.supportedMech ≠ s.negOid

/-- A mechanism's answer that neither fails nor has anything to send. -/
def Finishes (answer : NtStatus × Option Bytes × W) : Prop :=
  isMoreOrOk answer.1 = true ∧ (answer.2.1.getD []).length = 0

/-- The condition on a token that was read and its response blob:
* a token that asks for another mechanism gets a non-empty answer from it, or an
  error;
* once no response is expected, an empty token without a negResult is not sent,
  and the current mechanism is the one that succeeded;
* otherwise the mechanism stops sending only on an explicit accept-completed, and
  with success. -/
def TokenCondition (G : Gensec W) (s : SpnegoState) (w : W) (input : Bytes)
    (token : NegTokenTarg) (response : Bytes) : Prop :=
  (AsksOther s token → ∀ mech ops, token.supportedMech = some mech → s.negOid.isSome →
      gensecSecurityByOid G.mechs mech = some ops →
      ∀ w₁ w₂, G.subcontextStart w = (.ok, w₁) → G.startMech ops w₁ = (.ok, w₂) →
        ¬ Finishes (G.update ops response w₂)) ∧
  (s.noResponseExpected = true → token.negResult = acceptCompleted → response.length = 0 →
    explicitNegResult input = some acceptCompleted ∧ MechOk s) ∧
  (¬ AsksOther s token → token.negResult ≠ reject → s.noResponseExpected = false →
    ∀ ctx ops, s.subSecSecurity = some ctx → ctx.ops = some ops →
      Finishes (G.update ops response w) →
        explicitNegResult input = some acceptCompleted ∧ (G.update ops response w).1 = .ok)

/-- The condition on one step: it only concerns a client that waits for a
negTokenTarg and gets one it can read. -/
def AcceptCondition (G : Gensec W) (st : SpnegoState × W) (input : Bytes) : Prop :=
  st.1.statePosition = .clientTarg →
    ∀ token, spnegoReadData input = .read token → token.type = st.1.expectedPacket →
      TokenCondition G st.1 st.2 input token.negTokenTarg (token.negTokenTarg.responseToken.getD [])

/-! ## Mechanisms that are there -/

/-- The sub context is there, with its operations. -/
def SubPresent (s : SpnegoState) : Prop :=
  ∃ ctx ops, s.subSecSecurity = some ctx ∧ ctx.ops = some ops

/-- The sub mechanism and the OID it was chosen by are there. -/
def Ready (s : SpnegoState) : Prop :=
  SubPresent s ∧ s.negOid.isSome

/-- `gensec_subcontext_start` answers `NT_STATUS_OK` or `NT_STATUS_NO_MEMORY`. -/
def PlainStart (G : Gensec W) : Prop :=
  ∀ w, (G.subcontextStart w).1 ≠ .moreProcessingRequired

theorem invalidParameter_ne_more : invalidParameter ≠ .moreProcessingRequired := by
  decide

/-! ## The mechanism part of a step -/

/-- `switchMech` once the new mechanism is found and started. -/
theorem switchMech_started {mech : String} {ops : SecurityOps} {response : Bytes}
    {w₁ w₂ : W} (hops : gensecSecurityByOid G.mechs mech = some ops)
    (hsub : G.subcontextStart w = (.ok, w₁)) (hstart : G.startMech ops w₁ = (.ok, w₂)) :
    switchMech G s mech response w =
      some ((G.update ops response w₂).1, some (G.update ops response w₂).2.1, { s with
          subSecSecurity := some ⟨some ops, some (G.update ops response w₂).1⟩
          negOid := some mech }, (G.update ops response w₂).2.2) := by
  simp [switchMech, hops, hsub, hstart, gensecUpdate]

/-- `switchMech` touches only the sub context and the OID; an answer without an output is an error,
and one with an output comes from a mechanism that was started. -/
theorem switchMech_cases {mech : String} {response : Bytes}
    (h : switchMech G s mech response w = some r) :
    (r.2.2.1.statePosition = s.statePosition ∧ r.2.2.1.expectedPacket = s.expectedPacket) ∧
      ((r.2.1 = none ∧ r.1 ≠ .ok ∧ r.2.2.1.negOid = s.negOid ∧
          (PlainStart G → r.1 = .moreProcessingRequired → SubPresent r.2.2.1)) ∨
        ∃ ops w₁ w₂, gensecSecurityByOid G.mechs mech = some ops ∧
          G.subcontextStart w = (.ok, w₁) ∧ G.startMech ops w₁ = (.ok, w₂)) := by
  unfold switchMech at h
  cases hsub : G.subcontextStart w with
  | mk status₁ w₁ =>
    by_cases hok : status₁.isOk = true
    · obtain rfl := (isOk_iff _).mp hok
      cases hops : gensecSecurityByOid G.mechs mech with
      | none =>
        simp [hsub, hops] at h
        simp [← h, invalidParameter_ne_more]
      | some ops =>
        cases hstart : G.startMech ops w₁ with
        | mk status₂ w₂ =>
          by_cases hok₂ : status₂.isOk = true
          · obtain rfl := (isOk_iff _).mp hok₂
            simp [hsub, hops, hstart, gensecUpdate] at h
            exact ⟨by simp [← h], Or.inr ⟨ops, w₁, w₂, rfl, rfl, hstart⟩⟩
          · simp [hsub, hops, hstart, hok₂] at h
            simp [← h, (isOk_iff _).not.mp hok₂, SubPresent]
    · simp [hsub, hok] at h
      have hmore : PlainStart G → status₁ ≠ .moreProcessingRequired := fun hplain heq =>
        hplain w (by rw [hsub, heq])
      simp only [← h, true_and]
      exact .inl ⟨(isOk_iff _).not.mp hok, fun hplain heq => absurd heq (hmore hplain)⟩

/-- The mechanism is switched, as `strcmp` came out different; or is done already; or gets the
response. -/
theorem targAnswer_cases (h : targAnswer G s token w = some r) :
    (AsksOther s token ∧ ∃ mech, token.supportedMech = some mech ∧ s.negOid.isSome ∧
      switchMech G s mech (token.responseToken.getD []) w = some r) ∨
    (¬ AsksOther s token ∧ s.noResponseExpected = true ∧
      r = (if token.negResult = acceptCompleted ∧ (token.responseToken.getD []).length = 0
            then ok else .invalidParameter, some none, s, w)) ∨
    (¬ AsksOther s token ∧ s.noResponseExpected = false ∧ ∃ ctx ops answer,
      s.subSecSecurity = some ctx ∧ ctx.ops = some ops ∧
      G.update ops (token.responseToken.getD []) w = answer ∧
      r = (answer.1, some answer.2.1, { s with
          subSecSecurity := some { ctx with lastUpdate := some answer.1 }
          noResponseExpected := answer.1.isOk }, answer.2.2)) := by
  simp only [targAnswer, bind_eq_bind, bind_eq_some_iff] at h
  obtain ⟨mech?, hreq, h⟩ := h
  cases mech? with
  | some mech =>
    left
    simp only [requestedMech] at hreq
    split at hreq
    · rename_i hinc
      simp only [bind_eq_bind, bind_eq_some_iff, some.injEq, ite_none_right_eq_some] at hreq
      obtain ⟨mech', hmech, own, hown, hne, rfl⟩ := hreq
      exact ⟨⟨hinc, by simpa [hmech, hown] using hne⟩, mech', hmech, by simp [hown], h⟩
    · cases hreq
  | none =>
    right
    have hask : ¬ AsksOther s token := by
      rintro ⟨hinc, hne⟩
      simp only [requestedMech, hinc, if_true, bind_eq_bind, bind_eq_some_iff, some.injEq] at hreq
      obtain ⟨mech', hmech, own, hown, hsame⟩ := hreq
      have heq : mech' = own := by simpa using hsame
      exact hne (by rw [hmech, hown, heq])
    cases hno : s.noResponseExpected with
    | true =>
      refine .inl ⟨hask, rfl, ?_⟩
      by_cases hres : token.negResult = acceptCompleted
      · by_cases hlen : (token.responseToken.getD []).length = 0 <;>
          simpa [hno, hres, hlen] using h.symm
      · simpa [hno, hres] using h.symm
    | false =>
      refine .inr ⟨hask, rfl, ?_⟩
      cases hsub : s.subSecSecurity with
      | none => simp [hno, hsub, gensecUpdate] at h
      | some ctx =>
        cases hops : ctx.ops with
        | none => simp [hno, hsub, gensecUpdate, hops] at h
        | some ops =>
          refine ⟨ctx, ops, G.update ops (token.responseToken.getD []) w, rfl, hops, rfl, ?_⟩
          simpa [hno, hsub, gensecUpdate, hops] using h.symm

/-- The mechanism part keeps the position and the expected packet, and reports a mechanism that
could not be started with an error. -/
theorem targAnswer_frame (h : targAnswer G s token w = some r) :
    (r.2.2.1.statePosition = s.statePosition ∧ r.2.2.1.expectedPacket = s.expectedPacket) ∧
      (r.2.1 = none → r.1 ≠ .ok) := by
  rcases targAnswer_cases h with ⟨-, mech, -, -, h⟩ | ⟨-, -, rfl⟩ | ⟨-, -, _, _, _, -, -, -, rfl⟩
  · obtain ⟨hframe, ⟨-, hne, -⟩ | ⟨ops, w₁, w₂, hops, hsub, hstart⟩⟩ := switchMech_cases h
    · exact ⟨hframe, fun _ => hne⟩
    · rw [switchMech_started hops hsub hstart, some.injEq] at h
      exact ⟨hframe, fun hnone => by simp [← h] at hnone⟩
  · simp
  · simp

/-- The answers of the mechanism part that end the negotiation: neither an error
nor anything to send. -/
def Ends (status : NtStatus) (answer : Option (Option Bytes)) : Prop :=
  ∃ out, answer = some out ∧ isMoreOrOk status = true ∧ (out.getD []).length = 0

/-- The answers that end the negotiation are justified iff the token meets the condition. -/
private theorem targAnswer_condition {status : NtStatus} {answer : Option (Option Bytes)}
    (hexplicit : token.negResult = (explicitNegResult input).getD 0)
    (hrej : token.negResult ≠ reject) (h : targAnswer G s token w = some (status, answer, s', w')) :
    (Ends status answer → explicitNegResult input = some acceptCompleted ∧ MechOk s') ↔
    TokenCondition G s w input token (token.responseToken.getD []) := by
  rcases targAnswer_cases h with ⟨hask, mech, hmech, hown, h⟩ | ⟨hask, hno, hr⟩ |
    ⟨hask, hno, ctx, ops, ans, hsub, hops, rfl, hr⟩
  · -- accept-incomplete is never accept-completed, so no answer may finish
    have hne : explicitNegResult input ≠ some acceptCompleted := by
      intro heq
      rw [hask.1, heq] at hexplicit
      exact absurd hexplicit (by decide)
    have hnot : token.negResult ≠ acceptCompleted := by
      rw [hask.1]
      decide
    constructor
    · intro hgood
      refine ⟨?_, fun _ hres => absurd hres hnot, fun hno => absurd hask hno⟩
      intro _ mech' ops hmech' _ hops w₁ w₂ hsub hstart hfin
      obtain rfl : mech = mech' := some.inj (hmech.symm.trans hmech')
      rw [switchMech_started hops hsub hstart] at h
      cases h
      exact hne (hgood ⟨_, rfl, hfin⟩).1
    · rintro ⟨hother, -, -⟩ ⟨out, rfl, hfin⟩
      obtain ⟨-, ⟨hnone, -⟩ | ⟨ops, w₁, w₂, hops, hsub, hstart⟩⟩ := switchMech_cases h
      · cases hnone
      · rw [switchMech_started hops hsub hstart] at h
        cases h
        exact absurd hfin (hother hask mech ops hmech hown hops w₁ w₂ hsub hstart)
  · -- nothing is asked of the mechanism; the token alone decides
    cases hr
    constructor
    · intro hgood
      refine ⟨fun hother => absurd hother hask, ?_, fun _ _ hfalse => by simp [hno] at hfalse⟩
      intro _ hres hlen
      exact hgood ⟨none, rfl, by rw [if_pos ⟨hres, hlen⟩]; rfl, rfl⟩
    · rintro ⟨-, hempty, -⟩ ⟨out, -, hmore, -⟩
      split at hmore
      · rename_i hboth
        exact hempty hno hboth.1 hboth.2
      · exact absurd hmore (by decide)
  · cases hr
    constructor
    · intro hgood
      refine ⟨fun hother => absurd hother hask, fun htrue => by simp [hno] at htrue, ?_⟩
      intro _ _ _ ctx' ops' hsub' hops' hfin
      obtain rfl : ctx = ctx' := some.inj (hsub.symm.trans hsub')
      obtain rfl : ops = ops' := some.inj (hops.symm.trans hops')
      -- success of the mechanism is success of the answer just given
      simpa [MechOk] using hgood ⟨_, rfl, hfin⟩
    · rintro ⟨-, -, hlast⟩ ⟨out, hout, hfin⟩
      cases hout
      simpa [MechOk] using hlast hask hrej hno ctx ops hsub hops hfin

/-! ## Single steps -/

/-- The positions a client can be in, and the packet it then waits for. -/
def ClientPosition (s : SpnegoState) : Prop :=
  s.statePosition = .clientStart ∨
    (s.statePosition = .clientTarg ∧ s.expectedPacket = .negTokenTarg) ∨
    s.statePosition = .done

/-- A reply that neither succeeds nor ends the negotiation accepts nothing. -/
private theorem acceptsOnly_of_same (hstatus : o.1 ≠ .ok) (hpos : s'.statePosition ≠ .done) :
    AcceptsOnly (s, w) input o (s', w') := by
  rintro (hok | ⟨-, hdone⟩)
  · exact absurd hok hstatus
  · exact absurd hdone hpos

/-- A client that waits for a negTokenTarg refuses the token, or hands it to the mechanism; then it
waits on, or is done, as the test of the zeroed negResult never refuses. -/
theorem updateClientTarg_cases (hpos : s.statePosition = .clientTarg)
    (h : updateClientTarg G s input w = some (o, s', w')) :
    (s' = s ∧ o.1 ≠ .ok ∧ ∀ token, spnegoReadData input = .read token →
      token.type = s.expectedPacket → token.negTokenTarg.negResult = reject) ∨
    ∃ token status answer s₁ w₁, spnegoReadData input = .read token ∧
      token.type = s.expectedPacket ∧ token.negTokenTarg.negResult ≠ reject ∧
      targAnswer G s token.negTokenTarg w = some (status, answer, s₁, w₁) ∧
      (answer = none → o.1 = status) ∧
      ((¬ Ends status answer ∧ o.1 ≠ .ok ∧ s' = s₁) ∨
        (Ends status answer ∧ s' = { s₁ with statePosition := .done })) := by
  simp only [updateClientTarg, fails] at h
  split at h
  · rename_i hlen
    cases h
    exact Or.inl ⟨rfl, by simp, fun token hread => by simp [spnegoReadData, hlen] at hread⟩
  · cases hread : spnegoReadData input with
    | fault => simp [hread] at h
    | refused =>
      simp only [hread] at h
      cases h
      exact Or.inl ⟨rfl, by simp, fun token hread => by cases hread⟩
    | read token =>
      have hsame : ∀ token', ReadResult.read token = .read token' → token' = token := by
        rintro _ ⟨⟩
        rfl
      simp only [hread] at h
      split at h
      · rename_i htype
        cases h
        refine Or.inl ⟨rfl, by simp, fun token' hread' htype' => ?_⟩
        exact absurd (hsame _ hread' ▸ htype') htype
      split at h
      · rename_i hrej
        cases h
        exact Or.inl ⟨rfl, by simp, fun token' hread' _ => hsame _ hread' ▸ hrej⟩
      rename_i htype hrej
      simp only [bind_eq_bind, bind_eq_some_iff] at h
      obtain ⟨⟨status, answer, s₁, w₁⟩, hans, h⟩ := h
      obtain ⟨⟨hpos₁, -⟩, hnone⟩ := targAnswer_frame hans
      refine .inr ⟨token, status, answer, s₁, w₁, rfl, not_not.mp htype, hrej, hans, ?_⟩
      have hstay : { s₁ with statePosition := .clientTarg } = s₁ := by rw [← hpos, ← hpos₁]
      cases answer with
      | none =>
        cases h
        exact ⟨fun _ => rfl, Or.inl ⟨by simp [Ends], hnone rfl, rfl⟩⟩
      | some out =>
        refine ⟨nofun, ?_⟩
        simp only at h
        split at h
        · rename_i hmore
          cases h
          refine Or.inl ⟨fun ⟨_, _, hmore', _⟩ => by simp [hmore] at hmore', ?_, rfl⟩
          rintro rfl
          exact absurd hmore (by decide)
        rename_i hmore
        split at h
        · rename_i hsend
          refine .inl ⟨fun ⟨_, hout, _, hlen⟩ => hsend (some.inj hout ▸ hlen), ?_⟩
          simp only [bind_eq_some_iff] at h
          obtain ⟨blob, -, h⟩ := h
          split at h
          · cases h
            simp
          · cases h
            exact ⟨by simp, hstay⟩
        · rename_i hempty
          cases h
          exact Or.inr ⟨⟨out, rfl, by simpa using hmore, not_not.mp hempty⟩, rfl⟩

/-- A client that waits for a negTokenTarg goes on waiting or is done. -/
private theorem clientTarg_position (hpos : s.statePosition = .clientTarg)
    (hexp : s.expectedPacket = .negTokenTarg) (h : updateClientTarg G s input w = some (o, s', w')) :
    ClientPosition s' := by
  rcases updateClientTarg_cases hpos h with
    ⟨rfl, -⟩ | ⟨token, status, answer, s₁, w₁, -, -, -, hans, -, ⟨-, -, rfl⟩ | ⟨-, rfl⟩⟩
  · exact .inr (.inl ⟨hpos, hexp⟩)
  · obtain ⟨⟨hpos₁, hexp₁⟩, -⟩ := targAnswer_frame hans
    exact .inr (.inl ⟨hpos₁.trans hpos, hexp₁.trans hexp⟩)
  · exact .inr (.inr rfl)

/-- One step of a client that waits for a negTokenTarg. -/
private theorem clientTarg_step (hpos : s.statePosition = .clientTarg)
    (hexp : s.expectedPacket = .negTokenTarg) (h : updateClientTarg G s input w = some (o, s', w'))
    : AcceptsOnly (s, w) input o (s', w') ↔ AcceptCondition G (s, w) input := by
  rcases updateClientTarg_cases hpos h with
    ⟨rfl, hne, hrej⟩ | ⟨token, status, answer, s₁, w₁, hread, htype, hrej, hans, -, hend⟩
  · refine iff_of_true (acceptsOnly_of_same hne (by simp [hpos])) ?_
    intro _ token hread htype
    have hreject := hrej token hread htype
    refine ⟨fun hask => ?_, fun _ hres => ?_, fun _ hne => absurd hreject hne⟩
    · exact absurd (hreject.symm.trans hask.1) (by decide)
    · exact absurd (hreject.symm.trans hres) (by decide)
  · have hcond : AcceptCondition G (s, w) input ↔ TokenCondition G s w input
        token.negTokenTarg (token.negTokenTarg.responseToken.getD []) := by
      constructor
      · intro hcond
        exact hcond hpos token hread htype
      · intro hcond _ token' hread' _
        obtain rfl : token = token' := by simpa using hread.symm.trans hread'
        exact hcond
    rw [hcond, ← targAnswer_condition (negResult_eq_explicit hread (htype.trans hexp)) hrej hans]
    rcases hend with ⟨hend, hne, rfl⟩ | ⟨hend, rfl⟩
    · have hpos₁ : s'.statePosition = s.statePosition := (targAnswer_frame hans).1.1
      exact iff_of_true (acceptsOnly_of_same hne (by simp [hpos₁, hpos])) (absurd · hend)
    · constructor
      · intro hgood _
        exact hgood (Or.inr ⟨by simp [hpos], rfl⟩)
      · intro hgood _
        exact hgood hend

/-! ## The start -/

theorem gensecUpdate_started (op : SecurityOps) (input : Bytes) (w : W) :
    gensecUpdate G (some { ops := some op }) input w =
      some ((G.update op input w).1, (G.update op input w).2.1,
        ⟨some op, some (G.update op input w).1⟩, (G.update op input w).2.2) :=
  rfl

/-- Producing the first negTokenInit never reports success, and asks for more only with a
mechanism that was started. -/
theorem createNegTokenInit_more : ∀ mechs out s w r, s.statePosition = .clientStart →
    createNegTokenInit G mechs out s w = some r →
    r.1 ≠ .ok ∧ (PlainStart G → r.1 = .moreProcessingRequired → Ready r.2.2.1) := by
  intro mechs
  induction mechs with
  | nil =>
    intro out s w r _ h
    cases h
    exact ⟨by simp, fun _ hmore => absurd hmore invalidParameter_ne_more⟩
  | cons entry rest ih =>
    intro out s w r hpos h
    simp only [createNegTokenInit, firstPacket, hpos, if_true, true_and,
      gensecUpdate_started, bind_eq_bind, bind_some] at h
    split at h
    · rename_i hok
      cases h
      exact ⟨(isOk_iff _).not.mp (by simpa using hok), fun hplain hmore => absurd hmore (hplain w)⟩
    split at h
    · exact ih _ _ _ _ rfl h
    split at h
    · exact ih _ _ _ _ rfl h
    · -- the token is written, or the writer refuses
      simp only [bind_eq_some_iff] at h
      obtain ⟨blob, -, h⟩ := h
      split at h
      · cases h
        exact ⟨by simp, fun _ hmore => absurd hmore invalidParameter_ne_more⟩
      · cases h
        exact ⟨by simp, fun _ _ => ⟨⟨_, _, rfl, rfl⟩, rfl⟩⟩

/-- The mechanism loop returns and does not move the position. It leaves no mechanism, or one
that was started. -/
theorem tryMechs_returns : ∀ mechs status out s w, ∃ r,
    tryMechs G mechs status out s w = some r ∧ r.state.statePosition = s.statePosition ∧
    (s.subSecSecurity = none →
      (r.returned = true → PlainStart G → r.status ≠ .moreProcessingRequired ∧ r.status ≠ .ok) ∧
      (r.state.subSecSecurity = none ∨ Ready r.state)) := by
  intro mechs
  induction mechs with
  | nil => exact fun status out s w => ⟨_, rfl, rfl, fun hnone => ⟨nofun, .inl hnone⟩⟩
  | cons entry rest ih =>
    intro status out s w
    simp only [tryMechs, gensecUpdate_started, bind_eq_bind, bind_some]
    split
    · rename_i hok
      exact ⟨_, rfl, rfl, fun _ => ⟨fun _ hplain => ⟨hplain w,
        (isOk_iff _).not.mp (by simpa using hok)⟩, .inl rfl⟩⟩
    split
    · obtain ⟨r, hr, hpos, hrest⟩ := ih _ _ _ _
      exact ⟨r, hr, hpos, fun _ => hrest rfl⟩
    split
    · obtain ⟨r, hr, hpos, hrest⟩ := ih _ _ _ _
      exact ⟨r, hr, hpos, fun _ => hrest rfl⟩
    · exact ⟨_, rfl, rfl, fun _ => ⟨nofun, .inr ⟨⟨_, _, rfl, rfl⟩, rfl⟩⟩⟩

private theorem parseConclude_position (r : LoopResult W) :
    (parseConclude r).2.2.1.statePosition = r.state.statePosition := by
  unfold parseConclude
  repeat' split
  all_goals rfl

theorem parseConclude_ready (r : LoopResult W)
    (hreturned : r.returned = true → r.status ≠ .moreProcessingRequired ∧ r.status ≠ .ok)
    (hready : r.state.subSecSecurity = none ∨ Ready r.state)
    (hmore : isMoreOrOk (parseConclude r).1 = true) : Ready (parseConclude r).2.2.1 := by
  unfold parseConclude at hmore ⊢
  split at hmore
  · rename_i h
    simp [isMoreOrOk, isOk_iff, hreturned h] at hmore
  split at hmore
  · exact absurd (show isMoreOrOk .invalidParameter = true from hmore) (by decide)
  rename_i hreturned hsub
  have hhere : Ready r.state := hready.resolve_left (by simpa using hsub)
  rw [if_neg hreturned, if_neg hsub]
  split
  · exact hhere
  split
  · exact hhere
  · rename_i hinvalid hother
    rw [if_neg hinvalid, if_neg hother] at hmore
    exact absurd hmore hother

/-- A client that parses the server's negTokenInit stays where it is. It goes on only with a
mechanism that was started. -/
theorem parseNegTokenInit_returns (hpos : s.statePosition = .clientStart)
    (mechType : Option (List String)) (unwrapped : Bytes) (w : W) :
    ∃ r, gensecSpnegoParseNegTokenInit G s mechType unwrapped w = some r ∧
      r.2.2.1.statePosition = .clientStart ∧ (s.subSecSecurity = none → PlainStart G →
        isMoreOrOk r.1 = true → Ready r.2.2.1) := by
  simp only [gensecSpnegoParseNegTokenInit, hpos, reduceCtorEq, if_false, bind_some]
  cases hsub : s.subSecSecurity with
  | none =>
    obtain ⟨loop, hloop, hpos', hrest⟩ := tryMechs_returns (G := G)
      (gensecSecurityByOidList G.mechs mechType gensecOidSpnego) .invalidParameter none s w
    simp only [isNone_none, and_self, if_true, hloop, map_some]
    refine ⟨_, rfl, (parseConclude_position loop).trans (hpos'.trans hpos), fun _ hplain => ?_⟩
    obtain ⟨hreturned, hready⟩ := hrest hsub
    exact parseConclude_ready loop (fun h => hreturned h hplain) hready
  | some ctx => exact ⟨_, rfl, (parseConclude_position _).trans hpos, nofun⟩

/-- The first step of a client never accepts. It asks for more only with a mechanism that was
started. -/
theorem clientStart_step (hpos : s.statePosition = .clientStart)
    (h : updateClientStart G s input w = some (o, s', w')) :
    o.1 ≠ .ok ∧ s'.statePosition ≠ .done ∧ ClientPosition s' ∧
      (PlainStart G → s.subSecSecurity = none → o.1 = .moreProcessingRequired →
        s'.statePosition = .clientTarg ∧ Ready s') := by
  have hfails : ∀ {status s₁ w₁}, isMoreOrOk status = false → s₁.statePosition = .clientStart →
      fails status s₁ w₁ = some (o, s', w') → o.1 ≠ .ok ∧ s'.statePosition ≠ .done ∧
      ClientPosition s' ∧ (PlainStart G → s.subSecSecurity = none →
        o.1 = .moreProcessingRequired → s'.statePosition = .clientTarg ∧ Ready s') := by
    intro status s₁ w₁ hnot hpos₁ hf
    cases hf
    refine ⟨?_, by simp [hpos₁], Or.inl hpos₁, fun _ _ hmore => ?_⟩
    · rintro rfl
      exact absurd hnot (by decide)
    · obtain rfl : status = .moreProcessingRequired := hmore
      exact absurd hnot (by decide)
  unfold updateClientStart at h
  split at h
  · simp only [gensecSpnegoCreateNegTokenInit, bind_eq_bind, bind_eq_some_iff] at h
    obtain ⟨⟨status, out, s₁, w₁⟩, hcreate, h⟩ := h
    cases h
    obtain ⟨hne, hready⟩ := createNegTokenInit_more _ _ _ _ _ hpos hcreate
    exact ⟨hne, by simp, Or.inr (Or.inl ⟨rfl, rfl⟩), fun hplain _ hmore =>
      ⟨rfl, hready hplain hmore⟩⟩
  · cases hread : spnegoReadData input with
    | fault => simp [hread] at h
    | refused =>
      simp only [hread] at h
      exact hfails (by decide) hpos h
    | read token =>
      simp only [hread] at h
      split at h
      · exact hfails (by decide) hpos h
      · obtain ⟨⟨status, out, s₁, w₁⟩, hparse, hpos₁, hready⟩ :=
          parseNegTokenInit_returns (G := G) hpos token.negTokenInit.mechTypes
            (token.negTokenInit.mechToken.getD []) w
        simp only [hparse, bind_eq_bind, bind_some] at h
        split at h
        · rename_i hnot
          exact hfails hnot hpos₁ h
        · rename_i hmore
          simp only [bind_eq_some_iff] at h
          obtain ⟨blob, -, h⟩ := h
          split at h
          · exact hfails (by decide) hpos₁ h
          · cases h
            exact ⟨by simp, by simp, Or.inr (Or.inl ⟨rfl, rfl⟩), fun hplain hnone _ =>
              ⟨rfl, hready hnone hplain (by simpa using hmore)⟩⟩

/-! ## Runs -/

theorem spnego_step (h : (spnego G).step st input = some (o, st')) :
    gensecSpnegoUpdate G st.1 input st.2 = some (o, st'.1, st'.2) := by
  simp only [spnego, map_eq_some_iff] at h
  obtain ⟨⟨o₁, s₁, w₁⟩, hupd, heq⟩ := h
  obtain ⟨rfl, rfl⟩ := heq
  exact hupd

/-- The client positions are closed under updates. -/
theorem clientPosition_step (hinv : ClientPosition st.1)
    (h : (spnego G).step st input = some (o, st')) : ClientPosition st'.1 := by
  have hupd := spnego_step h
  unfold gensecSpnegoUpdate at hupd
  rcases hinv with hpos | ⟨hpos, hexp⟩ | hpos
  · rw [hpos] at hupd
    exact (clientStart_step hpos hupd).2.2.1
  · rw [hpos] at hupd
    exact clientTarg_position hpos hexp hupd
  · rw [hpos] at hupd
    simp only [fails, some.injEq, Prod.mk.injEq] at hupd
    exact Or.inr (Or.inr (by rw [← hupd.2.1, hpos]))

/-- One update of a client accepts only what it may accept iff it meets the
condition. -/
theorem acceptsOnly_step_iff (hinv : ClientPosition st.1)
    (h : (spnego G).step st input = some (o, st')) :
    AcceptsOnly st input o st' ↔ AcceptCondition G st input := by
  have hupd := spnego_step h
  unfold gensecSpnegoUpdate at hupd
  rcases hinv with hpos | ⟨hpos, hexp⟩ | hpos
  · rw [hpos] at hupd
    obtain ⟨hne, hdone, -, -⟩ := clientStart_step hpos hupd
    refine iff_of_true (acceptsOnly_of_same hne hdone) (fun htarg => ?_)
    exact absurd (hpos.symm.trans htarg) (by simp)
  · rw [hpos] at hupd
    exact clientTarg_step hpos hexp hupd
  · rw [hpos] at hupd
    simp only [fails, some.injEq, Prod.mk.injEq] at hupd
    refine iff_of_true ?_ (fun htarg => absurd (hpos.symm.trans htarg) (by simp))
    rintro (hok | ⟨hne, -⟩)
    · rw [← hupd.1] at hok
      simp at hok
    · exact absurd hpos hne

/-- **A client accepts only what was accepted, exactly under the condition**: for every mechanism
and sequence of tokens, at every update, `NT_STATUS_OK` or `SPNEGO_DONE` follows only an explicit
accept-completed and success of the mechanism, iff every update meets `AcceptCondition`. -/
theorem spnego_client_accept_iff (G : Gensec W) (w : W) (tokens : List Bytes) :
    (spnego G).EachStep AcceptsOnly (gensecSpnegoClientStart, w) tokens ↔
      (spnego G).EachStep (fun st input _ _ => AcceptCondition G st input)
        (gensecSpnegoClientStart, w) tokens :=
  Kit.Machine.eachStep_congr (fun _ _ _ _ hinv h _ => clientPosition_step hinv h)
    (fun _ _ _ _ hinv h => acceptsOnly_step_iff hinv h) tokens _ (.inl rfl)

/-! ## Runs that accept too much -/

/-- A gensec layer with one backend whose answers are a list, taken in turn. -/
def scripted (script : List (NtStatus × Option Bytes)) : Gensec Nat where
  mechs := [⟨"ntlmssp", some ["1 3 6 1 4 1 311 2 2 10"]⟩]
  subcontextStart n := (.ok, n)
  startMech _ n := (.ok, n)
  update _ _ n :=
    let answer := script.getD n (.invalidParameter, none)
    (answer.1, answer.2, n + 1)
  magic _ := none
  principal := none

/-- A negTokenTarg with an empty body: no field at all. -/
def emptyTarg : Bytes := [0xa1, 0x02, 0x30, 0x00]

/-- **Accepted without an accept.** The server sends a negTokenTarg without a negResult. A mechanism
that then has nothing to send makes the client return `NT_STATUS_OK`, or enter `SPNEGO_DONE`
although it wants to go on. -/
theorem spnego_client_accepts_absent_negResult :
    ¬ (spnego (scripted [(.moreProcessingRequired, some [1]), (.ok, none)])).EachStep AcceptsOnly
        (gensecSpnegoClientStart, 0) [[], emptyTarg] ∧
    ¬ (spnego (scripted [(.moreProcessingRequired, some [1]),
        (.moreProcessingRequired, none)])).EachStep AcceptsOnly
        (gensecSpnegoClientStart, 0) [[], emptyTarg] := by
  have hnone : explicitNegResult emptyTarg = none := by decide
  constructor
  all_goals
    intro h
    obtain ⟨-, h⟩ := h _ _ rfl
    obtain ⟨hacc, -⟩ := h _ _ rfl
    obtain ⟨hneg, -⟩ := hacc (by decide)
    exact absurd (hnone.symm.trans hneg) (by simp)

end OpenvasSmb.Spnego

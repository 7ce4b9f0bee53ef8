import OpenvasSmb.Dcom.Pipe

/-!
# The context of a pipe that is returned

`reuse_existing_pipe` notes the new interface in the pipe and `dcerpc_alter_context_send` counts
up its context id before the server is asked. If the server refuses, or no answer comes, both
stay: the next call for that interface finds the pipe bound to it and returns it at once. So does
a call that comes before the answer, and a call for a third interface changes the context id under
the others.

The context id of a returned pipe is one the server has accepted in every run in which a pipe is
asked for the interface it was last negotiated for only after the server has accepted that, and
for another one only while no other call uses it.
-/

namespace OpenvasSmb.Dcom

open Kit Dcerpc List Option Answer

variable {tables : List SyntaxId} {ox ox' : Exporter} {o : Option Exporter.Returned}

/-- The server has accepted the context id of the requests for the interface. -/
def Pipe.Serves (p : Pipe) (iface : Guid) : Prop :=
  ∃ abstractSyntax : SyntaxId,
    abstractSyntax.uuid = iface ∧ (p.requestContext, abstractSyntax) ∈ p.accepted

/-- A pipe that is returned with success serves the interface it was asked for. -/
def ContextAccepted (o : Option Exporter.Returned) (ox : Exporter) : Prop :=
  ∀ iface i, o = some (iface, .ok i) → ∃ p, ox.pipes[i]? = some p ∧ p.Serves iface

def Stage.pipe : Stage → Option Nat
  | .altering i _ => some i
  | .finished (.ok i) => some i
  | .finished (.error _) | .binding | .returned => none

/-- The pipe that the next call would use. -/
def Exporter.reusable (ox : Exporter) : Option (Nat × Pipe) :=
  ox.validPipe.bind fun i => ox.pipes[i]?.map fun p => (i, p)

/-- The condition on a step. The security mechanism has something to send with the bind. -/
def Considerate (ox : Exporter) : Event → Prop
  | .send iface =>
    match ox.reusable with
    | none => True
    | some (i, p) =>
      if p.abstractSyntax.uuid = iface then p.agreed = true
      else ∀ call ∈ ox.calls, call.stage.pipe ≠ some i
  | .connected _ attempts =>
    ∀ attempt ∈ attempts, attempt.reached = true → attempt.answers ≠ []
  | .answered _ _ | .recv _ | .fault _ _ => True

/-! ## Negotiation -/

/-- A pipe knows whether the context it offered last was accepted. -/
def Pipe.Honest (p : Pipe) : Prop :=
  p.agreed = true → (p.requestContext, p.abstractSyntax) ∈ p.accepted

theorem Pipe.Honest.accept {p : Pipe} (h : p.Honest) (offer : Offer) : (p.accept offer).Honest := by
  intro hagreed
  show (p.requestContext, p.abstractSyntax) ∈ p.accepted ++ [(offer.1.toUInt16, offer.2)]
  rw [Pipe.accept, Bool.or_eq_true, beq_iff_eq] at hagreed
  rcases hagreed with hagreed | rfl
  · exact mem_append_left _ (h hagreed)
  · exact mem_append_right _ (mem_singleton.mpr rfl)

theorem dcerpcMapReason_isOk (reason : UInt16) : (dcerpcMapReason reason).isOk = false := by
  unfold dcerpcMapReason
  split_ifs <;> rfl

theorem Answer.accepts_bindAck {pkt : NcacnPacket} {conn : Connection} {ack : BindAck}
    (h : pkt.payload = .bindAck ack) : (reply pkt conn).accepts .bind = ack.isAccepted := by
  simp only [accepts, h]

theorem Answer.accepts_alterResp {pkt : NcacnPacket} {conn : Connection} {ack : BindAck}
    (h : pkt.payload = .alterResp ack) :
    (reply pkt conn).accepts .alter = ack.isAccepted := by
  simp only [accepts, h]

/-- A bind or alter context succeeds only if the server accepts. -/
theorem Answer.accepts_of_status {kind : Negotiation} {answer : Answer}
    (h : (answer.status kind).isOk = true) : answer.accepts kind = true := by
  cases answer with
  | failed status accepted =>
    have hfail : (failed status accepted).status kind = status.val := by cases kind <;> rfl
    rw [hfail, status.property] at h
    exact absurd h (by decide)
  | reply pkt conn =>
    have hfault : ¬ NtStatus.netWriteFault.isOk = true := by decide
    cases kind with
    | bind =>
      simp only [status, dcerpcBindRecvHandler] at h
      split at h
      · rw [dcerpcMapReason_isOk] at h
        exact absurd h (by decide)
      · rename_i ack hack
        split_ifs at h with haccepted
        · rwa [accepts_bindAck hack]
        · exact absurd h hfault
      · exact absurd h hfault
    | alter =>
      simp only [status, dcerpcAlterRecvHandler] at h
      split at h
      · rename_i ack hack
        rw [accepts_alterResp hack]
        split at h
        · rename_i ctx hctx
          split_ifs at h with hresult
          · rw [dcerpcMapReason_isOk] at h
            exact absurd h (by decide)
          · rw [not_not] at hresult
            simp [BindAck.isAccepted, hctx, hresult]
        · split_ifs at h with haccepted
          · exact haccepted
          · exact absurd h hfault
      · exact absurd h hfault

/-- The server has accepted the pipe's context for the abstract syntax. -/
structure Pipe.Agreed (p : Pipe) (abstractSyntax : SyntaxId) : Prop where
  honest : p.Honest
  agreed : p.agreed = true
  negotiated : p.abstractSyntax = abstractSyntax

theorem Pipe.negotiate_ok (p : Pipe) (kind : Negotiation) (abstractSyntax : SyntaxId)
    (answer : Answer) (h : (p.negotiate kind abstractSyntax answer).1.isOk = true) :
    (p.negotiate kind abstractSyntax answer).2.Agreed abstractSyntax := by
  have haccepts : answer.accepts kind = true := accepts_of_status h
  have hsent : ∀ q : Pipe, q.agreed = false → q.abstractSyntax = abstractSyntax →
      (q.accept q.offer).Agreed abstractSyntax := by
    intro q hpending habstract
    have hhonest : q.Honest := fun hagreed => absurd (hpending.symm.trans hagreed) (by simp)
    refine ⟨hhonest.accept _, ?_, habstract⟩
    show (q.agreed || q.offer == q.offer) = true
    rw [beq_self_eq_true, Bool.or_true]
  simp only [Pipe.negotiate, haccepts, if_true]
  cases kind with
  | bind | alter => exact hsent _ rfl rfl

theorem bindAuthAlter_ok (answers : List Answer) : ∀ {p : Pipe} {abstractSyntax : SyntaxId},
    p.Agreed abstractSyntax → (bindAuthAlter answers p).1.isOk = true →
      (bindAuthAlter answers p).2.Agreed abstractSyntax := by
  induction answers with
  | nil => intro p abstractSyntax hp _; exact hp
  | cons answer rest ih =>
    intro p abstractSyntax hp h
    have hleg := Pipe.negotiate_ok p .alter p.abstractSyntax answer
    rw [hp.negotiated] at hleg
    simp only [bindAuthAlter, hp.negotiated] at h ⊢
    split_ifs at h with hok
    · rw [if_pos hok]
      exact ih (hleg hok) h
    · exact absurd h hok

/-- A connection that succeeds has an accepted context, if anything was sent. -/
theorem tryNextBinding_ok {table : Option SyntaxId} {attempts : List Attempt} {p : Pipe}
    (hsent : ∀ attempt ∈ attempts, attempt.reached = true → attempt.answers ≠ [])
    (h : tryNextBinding table attempts = some (.ok p)) :
    ∃ abstractSyntax, table = some abstractSyntax ∧ p.Agreed abstractSyntax := by
  induction attempts with
  | nil => simp [tryNextBinding] at h
  | cons attempt rest ih =>
    have hrest := ih fun attempt hmem => hsent attempt (mem_cons_of_mem _ hmem)
    have hfirst := hsent attempt mem_cons_self
    simp only [tryNextBinding, dcerpcPipeConnectB] at h
    cases hreached : attempt.reached with
    | false =>
      rw [hreached] at h
      exact hrest h
    | true =>
      cases table with
      | none => simp [hreached] at h
      | some abstractSyntax =>
        simp only [hreached, Bool.not_true, Bool.false_eq_true, if_false] at h
        split_ifs at h with hok
        · obtain rfl := Except.ok.inj (some.inj h)
          refine ⟨abstractSyntax, rfl, ?_⟩
          rw [Bool.and_eq_true] at hok
          replace hok := hok.1
          cases hanswers : attempt.answers with
          | nil => exact absurd hanswers (hfirst hreached)
          | cons answer rest =>
            rw [hanswers] at hok
            simp only [dcerpcBindAuth] at hok ⊢
            split_ifs at hok with hbound
            · rw [if_pos hbound]
              exact bindAuthAlter_ok rest (Pipe.negotiate_ok _ _ _ _ hbound) hok
            · exact absurd hok hbound
        · exact hrest h

/-! ## Calls on their way -/

/-- What a call relies on. -/
def Call.Sound (pipes : List Pipe) (call : Call) : Prop :=
  match call.stage with
  | .altering i offer =>
    ∃ p, pipes[i]? = some p ∧ p.offer = offer ∧ offer.2.uuid = call.iface
  | .finished (.ok i) =>
    ∃ p, pipes[i]? = some p ∧ p.agreed = true ∧ p.abstractSyntax.uuid = call.iface
  | .finished (.error _) | .binding | .returned => True

variable {call : Call}

theorem Call.Sound.mono {pipes pipes' : List Pipe} (h : call.Sound pipes)
    (hkept : ∀ i p, call.stage.pipe = some i → pipes[i]? = some p →
      ∃ p', pipes'[i]? = some p' ∧ p'.offer = p.offer ∧ (p.agreed = true → p'.agreed = true)) :
    call.Sound pipes' := by
  obtain ⟨iface, stage⟩ := call
  cases stage with
  | altering i offer =>
    obtain ⟨p, hp, rfl, hiface⟩ := h
    obtain ⟨p', hp', hoffer, -⟩ := hkept i p rfl hp
    exact ⟨p', hp', hoffer, hiface⟩
  | binding | returned => trivial
  | finished result =>
    cases result with
    | error status => trivial
    | ok i =>
      obtain ⟨p, hp, hagreed, hiface⟩ := h
      obtain ⟨p', hp', hoffer, hagreed'⟩ := hkept i p rfl hp
      have habstract : p'.abstractSyntax = p.abstractSyntax := congrArg Prod.snd hoffer
      exact ⟨p', hp', hagreed' hagreed, by rw [habstract, hiface]⟩

/-- The invariant of the runs. -/
structure Exporter.Inv (ox : Exporter) : Prop where
  honest : ∀ p ∈ ox.pipes, p.Honest
  sound : ∀ call ∈ ox.calls, call.Sound ox.pipes

theorem Exporter.Inv.init : ({} : Exporter).Inv :=
  ⟨fun _ hp => absurd hp not_mem_nil, fun _ hcall => absurd hcall not_mem_nil⟩

section

variable (h : ox.Inv)
include h

theorem Exporter.Inv.modify (i : Nat) {g : Pipe → Pipe} (hhonest : ∀ p, p.Honest → (g p).Honest)
    (hoffer : ∀ p, (g p).offer = p.offer) (hagreed : ∀ p, p.agreed = true → (g p).agreed = true) :
    ({ ox with pipes := ox.pipes.modify i g } : Exporter).Inv := by
  refine ⟨fun p hp => ?_, fun call hcall => ?_⟩
  · obtain ⟨j, hj⟩ := mem_iff_getElem?.mp hp
    rw [getElem?_modify] at hj
    cases hold : ox.pipes[j]? with
    | none => simp [hold] at hj
    | some q =>
      have hq := h.honest q (mem_of_getElem? hold)
      rw [hold] at hj
      obtain rfl := some.inj hj
      split_ifs
      · exact hhonest q hq
      · exact hq
  · refine (h.sound call hcall).mono fun j p _ hp => ?_
    show ∃ p', (ox.pipes.modify i g)[j]? = some p' ∧ _
    rw [getElem?_modify, hp]
    refine ⟨_, rfl, ?_⟩
    split_ifs
    · exact ⟨hoffer p, hagreed p⟩
    · exact ⟨rfl, id⟩

variable {pipe : Option Nat}

theorem Exporter.Inv.calls {calls : List Call}
    (hcalls : ∀ call ∈ calls, call ∈ ox.calls ∨ call.Sound ox.pipes) :
    ({ ox with pipe := pipe, calls := calls } : Exporter).Inv := by
  refine ⟨h.honest, fun call hcall => ?_⟩
  rcases hcalls call hcall with hold | hnew
  · exact h.sound call hold
  · exact hnew

theorem Exporter.Inv.push (hcall : call.Sound ox.pipes) :
    ({ ox with pipe := pipe, calls := ox.calls ++ [call] } : Exporter).Inv := by
  refine h.calls fun call' hmem => ?_
  rcases mem_append.mp hmem with hold | hnew
  · exact .inl hold
  · exact .inr (mem_singleton.mp hnew ▸ hcall)

theorem Exporter.Inv.advance (k : Nat) {stage : Stage}
    (hstage : ({ call with stage := stage } : Call).Sound ox.pipes) :
    (ox.advance k call stage).Inv := by
  refine h.calls fun call' hmem => ?_
  rcases mem_or_eq_of_mem_set hmem with hold | rfl
  · exact .inl hold
  · exact .inr hstage

/-! ## Steps -/

variable {iface : Guid}

/-- The next alter context on a pipe that no other call uses. -/
theorem Exporter.Inv.alter {i : Nat} {p : Pipe} (hp : ox.pipes[i]? = some p)
    (hfree : ∀ call ∈ ox.calls, call.stage.pipe ≠ some i) {abstractSyntax : SyntaxId}
    (hiface : abstractSyntax.uuid = iface) :
    ({ pipes := ox.pipes.set i (dcerpcAlterContextSend p abstractSyntax), pipe := pipe
       calls := ox.calls ++
         [⟨iface, .altering i (dcerpcAlterContextSend p abstractSyntax).offer⟩] } : Exporter).Inv := by
  have hlt : i < ox.pipes.length := (List.getElem?_eq_some_iff.mp hp).1
  refine ⟨fun q hq => ?_, fun call hcall => ?_⟩
  · rcases List.mem_or_eq_of_mem_set hq with hold | rfl
    · exact h.honest q hold
    · exact fun hagreed => absurd hagreed (by simp [dcerpcAlterContextSend])
  · rcases List.mem_append.mp hcall with hold | hnew
    · refine (h.sound call hold).mono fun j q hj hq => ⟨q, ?_, rfl, id⟩
      have hne : i ≠ j := fun heq => hfree call hold (heq ▸ hj)
      show (ox.pipes.set i _)[j]? = some q
      rw [getElem?_set_ne hne, hq]
    · obtain rfl := mem_singleton.mp hnew
      refine ⟨_, ?_, rfl, hiface⟩
      show (ox.pipes.set i _)[i]? = _
      rw [getElem?_set_self hlt]

end

theorem idlIfaceByUuid_uuid {abstractSyntax : SyntaxId}
    (h : idlIfaceByUuid tables iface = some abstractSyntax) : abstractSyntax.uuid = iface := by
  have hfound := find?_some h
  exact eq_of_beq hfound

section

variable (h : ox.Inv)
include h

theorem Exporter.Inv.dcomGetPipeSend (hcond : Considerate ox (.send iface))
    (hstep : ox.dcomGetPipeSend tables iface = some ox') : ox'.Inv := by
  unfold Exporter.dcomGetPipeSend at hstep
  simp only [Considerate, Exporter.reusable] at hcond
  cases hvalid : ox.validPipe with
  | none =>
    simp only [hvalid] at hstep
    obtain rfl := some.inj hstep
    exact h.push trivial
  | some i =>
    simp only [hvalid, Exporter.reuseExistingPipe] at hstep
    cases hp : ox.pipes[i]? with
    | none => simp [hp] at hstep
    | some p =>
      simp only [hvalid, hp, bind_some, map_some] at hcond
      simp only [hp] at hstep
      by_cases hsame : p.abstractSyntax.uuid = iface
      · rw [if_pos hsame] at hcond
        rw [if_neg (not_not.mpr hsame)] at hstep
        obtain rfl := some.inj hstep
        exact h.push ⟨p, hp, hcond, hsame⟩
      · rw [if_neg hsame] at hcond
        rw [if_pos hsame] at hstep
        cases htable : idlIfaceByUuid tables iface with
        | none => simp [htable] at hstep
        | some abstractSyntax =>
          simp only [htable] at hstep
          obtain rfl := some.inj hstep
          exact h.alter hp hcond (idlIfaceByUuid_uuid htable)

theorem Exporter.Inv.reuseExistingPipeContinue {k : Nat} {answer : Answer}
    (hstep : ox.reuseExistingPipeContinue k answer = some ox') : ox'.Inv := by
  unfold Exporter.reuseExistingPipeContinue at hstep
  cases hcall : ox.calls[k]? with
  | none => simp [hcall] at hstep
  | some call =>
    have hsound := h.sound call (mem_of_getElem? hcall)
    obtain ⟨iface, stage⟩ := call
    cases stage with
    | binding | finished | returned => simp [hcall] at hstep
    | altering i offer =>
      obtain ⟨p, hp, hoffer, hiface⟩ := hsound
      simp only [hcall] at hstep
      obtain rfl := some.inj hstep
      cases haccepts : answer.accepts .alter with
      | false =>
        have hfailed : (answer.status .alter).isOk = false := by
          by_contra hok
          rw [accepts_of_status (eq_true_of_ne_false hok)] at haccepts
          exact absurd haccepts (by decide)
        simp only [hfailed, Bool.false_eq_true, if_false]
        exact h.advance k trivial
      | true =>
        have hpipes : ({ ox with pipes := ox.pipes.modify i (·.accept offer) } :
            Exporter).Inv :=
          h.modify i (fun q hq => hq.accept offer) (fun q => rfl)
            (fun q hq => by simp [Pipe.accept, hq])
        refine hpipes.advance k ?_
        split_ifs
        · -- the pipe still offers what the call has offered
          refine ⟨p.accept offer, ?_, ?_, ?_⟩
          · show (ox.pipes.modify i (·.accept offer))[i]? = _
            rw [getElem?_modify_eq, hp]
            rfl
          · show (p.agreed || p.offer == offer) = true
            rw [hoffer, beq_self_eq_true, Bool.or_true]
          · rw [← hiface, ← hoffer]
            rfl
        · trivial

theorem Exporter.Inv.bindNewPipe {k : Nat} {attempts : List Attempt}
    (hcond : Considerate ox (.connected k attempts))
    (hstep : ox.bindNewPipe tables k attempts = some ox') : ox'.Inv := by
  unfold Exporter.bindNewPipe at hstep
  cases hcall : ox.calls[k]? with
  | none => simp [hcall] at hstep
  | some call =>
    obtain ⟨iface, stage⟩ := call
    cases stage with
    | altering | finished | returned => simp [hcall] at hstep
    | binding =>
      simp only [hcall] at hstep
      cases htried : tryNextBinding (idlIfaceByUuid tables iface) attempts with
      | none => simp [htried] at hstep
      | some result =>
        cases result with
        | error status =>
          simp only [htried] at hstep
          obtain rfl := some.inj hstep
          exact h.advance k trivial
        | ok p =>
          obtain ⟨abstractSyntax, htable, hagreed⟩ := tryNextBinding_ok hcond htried
          simp only [htried] at hstep
          obtain rfl := some.inj hstep
          have hpipes : ({ ox with pipes := ox.pipes ++ [p] } : Exporter).Inv := by
            refine ⟨fun q hq => ?_, fun call hold => ?_⟩
            · rcases mem_append.mp hq with hold | hnew
              · exact h.honest q hold
              · exact mem_singleton.mp hnew ▸ hagreed.honest
            · refine (h.sound call hold).mono fun j q _ hq => ⟨q, ?_, rfl, id⟩
              show (ox.pipes ++ [p])[j]? = some q
              rw [List.getElem?_append_left (List.getElem?_eq_some_iff.mp hq).1, hq]
          refine hpipes.advance k ⟨p, ?_, hagreed.agreed, ?_⟩
          · show (ox.pipes ++ [p])[ox.pipes.length]? = some p
            rw [List.getElem?_concat_length]
          · rw [hagreed.negotiated]
            exact idlIfaceByUuid_uuid htable

theorem Exporter.Inv.dcomGetPipeRecv {k : Nat} {returned : Exporter.Returned}
    (hstep : ox.dcomGetPipeRecv k = some (returned, ox')) :
    ox'.Inv ∧ ContextAccepted (some returned) ox' := by
  unfold Exporter.dcomGetPipeRecv at hstep
  cases hcall : ox.calls[k]? with
  | none => simp [hcall] at hstep
  | some call =>
    have hsound := h.sound call (mem_of_getElem? hcall)
    obtain ⟨iface, stage⟩ := call
    cases stage with
    | altering | binding | returned => simp [hcall] at hstep
    | finished result =>
      cases result with
      | error status =>
        simp only [hcall] at hstep
        obtain ⟨rfl, rfl⟩ := answer_inj hstep
        exact ⟨h.advance k trivial, fun _ _ hreturned => by simp at hreturned⟩
      | ok i =>
        simp only [hcall] at hstep
        obtain ⟨rfl, rfl⟩ := answer_inj hstep
        have hox : ({ ox with pipe := some i } : Exporter).Inv := ⟨h.honest, h.sound⟩
        refine ⟨hox.advance k trivial, fun iface' i' hreturned => ?_⟩
        obtain ⟨rfl, hi⟩ := answer_inj hreturned
        obtain rfl := Except.ok.inj hi
        obtain ⟨p, hp, hagreed, hiface⟩ := hsound
        exact ⟨p, hp, p.abstractSyntax, hiface, h.honest p (mem_of_getElem? hp) hagreed⟩

/-- **One step.** -/
theorem Exporter.Inv.step {event : Event} (hcond : Considerate ox event)
    (hstep : step tables ox event = some (o, ox')) : ox'.Inv ∧ ContextAccepted o ox' := by
  have hnone : ∀ ox, ContextAccepted none ox := fun ox iface i ho => absurd ho (by simp)
  have hquiet : ∀ {r : Option Exporter}, r.map (none, ·) = some (o, ox') →
      (∀ {ox'}, r = some ox' → ox'.Inv) → ox'.Inv ∧ ContextAccepted o ox' := by
    intro r hr hinv
    obtain ⟨ox₁, hox, heq⟩ := map_eq_some_iff.mp hr
    obtain ⟨rfl, rfl⟩ := Prod.mk.inj heq
    exact ⟨hinv hox, hnone _⟩
  cases event with
  | send iface => exact hquiet hstep (h.dcomGetPipeSend hcond)
  | answered k answer => exact hquiet hstep h.reuseExistingPipeContinue
  | connected k attempts => exact hquiet hstep (h.bindNewPipe hcond)
  | recv k =>
    obtain ⟨⟨returned, ox₁⟩, hox, heq⟩ := map_eq_some_iff.mp hstep
    obtain ⟨rfl, rfl⟩ := Prod.mk.inj heq
    exact h.dcomGetPipeRecv hox
  | fault i code =>
    obtain ⟨rfl, rfl⟩ := answer_inj hstep
    exact ⟨h.modify i (fun _ hq => hq) (fun _ => rfl) (fun _ hq => hq), hnone _⟩

end

/-! ## Runs -/

/-- **The server knows the context.** In every run whose steps are considerate, a pipe that is
returned with success has a context id that the server has accepted for the interface. -/
theorem returned_context_accepted (tables : List SyntaxId) (events : List Event)
    (hcond : (exporter tables).EachStep (fun ox event _ _ => Considerate ox event) {} events) :
    (exporter tables).EachStep (fun _ _ o ox' => ContextAccepted o ox') {} events := by
  refine Machine.EachStep.of_inv (I := Exporter.Inv) ?_ events _ .init hcond
  intro ox event o ox' hinv hstep hconsiderate
  exact hinv.step hconsiderate hstep

instance (ox : Exporter) (event : Event) : Decidable (Considerate ox event) :=
  match event with
  | .send iface =>
    match h : ox.reusable with
    | none => .isTrue (by simp only [Considerate, h])
    | some (i, p) =>
      decidable_of_iff (if p.abstractSyntax.uuid = iface then p.agreed = true
        else ∀ call ∈ ox.calls, call.stage.pipe ≠ some i) (by simp only [Considerate, h])
  | .connected _ attempts => inferInstanceAs (Decidable
      (∀ attempt ∈ attempts, attempt.reached = true → attempt.answers ≠ []))
  | .answered _ _ | .recv _ | .fault _ _ => inferInstanceAs (Decidable True)

/-- The replies of a server to a bind and to an alter context, with a result. -/
def bindReply (result : UInt16) : Answer :=
  .reply ⟨1, 0, true, .bindAck ⟨5840, 5840, [⟨result, 0⟩], []⟩⟩ dcerpcConnectionInit

def alterReply (result : UInt16) : Answer :=
  .reply ⟨1, 0, true, .alterResp ⟨5840, 5840, [⟨result, 0⟩], []⟩⟩ dcerpcConnectionInit

/-- A connection for interface 1. -/
def firstCall : List Event :=
  [.send 1, .connected 0 [⟨true, [bindReply 0], true⟩], .recv 0]

/-- An interface that is refused, and then the first one again. -/
theorem returned_context_accepted_again :
    (exporter [⟨1, 0⟩, ⟨2, 0⟩]).EachStep (fun _ _ o ox' => ContextAccepted o ox') {}
      (firstCall ++ [.send 2, .answered 1 (alterReply 2), .recv 1,
        .send 1, .answered 2 (alterReply 0), .recv 2]) :=
  returned_context_accepted _ _ (.of_check _ _ (by decide))

/-- An interface that is refused is returned with success the second time; and a second call returns
the pipe before the server has answered the first. -/
theorem refused_context_returned :
    (∃ ox p, (exporter [⟨1, 0⟩, ⟨2, 0⟩]).run {}
        (firstCall ++ [.send 2, .answered 1 (alterReply 2), .recv 1, .send 2, .recv 2]) =
        some (some (some (2, .ok 0)), ox) ∧
      ox.pipes = [p] ∧ p.requestContext = 1 ∧ p.accepted = [(0, ⟨1, 0⟩)] ∧ ¬ p.Serves 2) ∧
    ∃ ox p, (exporter [⟨1, 0⟩, ⟨2, 0⟩]).run {} (firstCall ++ [.send 2, .send 2, .recv 2]) =
        some (some (some (2, .ok 0)), ox) ∧
      ox.pipes = [p] ∧ p.requestContext = 1 ∧ p.accepted = [(0, ⟨1, 0⟩)] ∧ ¬ p.Serves 2 := by
  have hserves : ∀ p : Pipe, p.accepted = [(0, ⟨1, 0⟩)] → ¬ p.Serves 2 := by
    rintro p haccepted ⟨abstractSyntax, huuid, hmem⟩
    rw [haccepted, mem_singleton] at hmem
    obtain rfl := (Prod.mk.inj hmem).2
    exact absurd huuid (by decide)
  exact ⟨⟨_, _, rfl, rfl, rfl, rfl, hserves _ rfl⟩, ⟨_, _, rfl, rfl, rfl, rfl, hserves _ rfl⟩⟩

end OpenvasSmb.Dcom

import OpenvasSmb.Theorems.DcerpcLists

/-!
# Call ids and callbacks

Two things a caller relies on: an answer matches at most one pending request, and a
callback runs once. Call ids come from a counter, but binds and alter contexts take the
number that the last request has got (`pending_call_ids_distinct`). A callback is run by
whoever completes a request, except by `dcerpc_ship_next_request`, which completes the
requests it cannot send and tells nobody (`callbacks_run_once`).
-/

namespace OpenvasSmb.Dcerpc.Requests

open Kit List Option

variable {W : Type} {M : Mechanism W} {rounds : Nat} {b b' : Board W} {p q p' q' : List Ref}
  {ev : Event} {rs : List Slot} {r : Ref} {slot : Slot} {g : Slot → Slot} {s : State W}

/-! ## Call ids -/

def Board.callIdOf (b : Board W) (r : Ref) : Option UInt32 :=
  b.requests[r]?.map (·.request.callId)

/-- The pending requests have different call ids. -/
def DistinctCallIds (s : State W) : Prop :=
  ∃ p, IsDList s.2 .pending p ∧ (p.map s.1.callIdOf).Nodup

/-- The counter has a next value, and a bind or alter context, which takes the present value, does
not share it: the request submitted last has another call id or does not wait any more. -/
def CallIdsLeft (s : State W) : Event → Prop
  | .request _ | .auth3 => s.1.callId ≠ 0xFFFFFFFF
  | .bind | .alterContext => ∀ slot, s.1.requests.getLast? = some slot →
      slot.request.callId = s.1.callId → slot.state = .done ∨ slot.freed = true
  | _ => True

/-- No request that waits, pending or queued, has the call id of the request that the
event submits. -/
def CallIdFree (s : State W) (ev : Event) : Prop :=
  ∀ slot, newSlot s.1 ev = some slot → ∀ r old, s.1.requests[r]? = some old →
    Waiting s.1.requests r → old.request.callId ≠ slot.request.callId

/-- Requests that wait are told apart by their call ids. -/
def IdsDiffer (rs : List Slot) : Prop :=
  ∀ (r r' : Ref) (slot slot' : Slot), Waiting rs r → Waiting rs r' → rs[r]? = some slot →
    rs[r']? = some slot' → slot.request.callId = slot'.request.callId → r = r'

theorem Advances.waited {rs' : List Slot} {now : Slot} (h : Advances rs rs')
    (hnow : rs'[r]? = some now) (hwaiting : Waiting rs' r) :
    ∃ old, rs[r]? = some old ∧ old.Later now ∧ Waiting rs r := by
  obtain ⟨old, hold, hlater⟩ := h.back hnow
  exact ⟨old, hold, hlater, h.evolves.waiting (List.getElem?_eq_some_iff.mp hold).1 hwaiting⟩

theorem IdsDiffer.advances {rs' : List Slot} (h : IdsDiffer rs) (hadvances : Advances rs rs') :
    IdsDiffer rs' := by
  intro r r' slot slot' hr hr' hslot hslot' heq
  obtain ⟨old, hold, hlater, hw⟩ := hadvances.waited hslot hr
  obtain ⟨old', hold', hlater', hw'⟩ := hadvances.waited hslot' hr'
  exact h r r' old old' hw hw' hold hold' (hlater.callId.symm.trans (heq.trans hlater'.callId))

/-- A request that waits is an old one that waited before, or the new one. -/
theorem push_cases {new : Slot} (hslot : (rs ++ [new])[r]? = some slot)
    (hwaiting : Waiting (rs ++ [new]) r) :
    (rs[r]? = some slot ∧ Waiting rs r) ∨ (r = rs.length ∧ slot = new) := by
  rcases Nat.lt_trichotomy r rs.length with hlt | heq | hgt
  · rw [getElem?_append_left hlt] at hslot
    exact .inl ⟨hslot, (Evolves.push rs new).waiting hlt hwaiting⟩
  · subst heq
    rw [getElem?_concat_length] at hslot
    exact .inr ⟨rfl, (some.inj hslot).symm⟩
  · rw [getElem?_eq_none] at hslot
    · simp at hslot
    · rwa [length_append]

theorem IdsDiffer.push (h : IdsDiffer rs) {new : Slot}
    (hfree : ∀ r old, rs[r]? = some old → Waiting rs r →
      old.request.callId ≠ new.request.callId) : IdsDiffer (rs ++ [new]) := by
  intro r r' slot slot' hr hr' hslot hslot' heq
  rcases push_cases hslot hr with ⟨hold, hw⟩ | ⟨rfl, rfl⟩ <;>
    rcases push_cases hslot' hr' with ⟨hold', hw'⟩ | ⟨rfl, rfl⟩
  · exact h r r' slot slot' hw hw' hold hold' heq
  · exact absurd heq (hfree r slot hold hw)
  · exact absurd heq.symm (hfree r' slot' hold' hw')
  · rfl

theorem Step.idsDiffer (h : Step M rounds s.1 p q ev b' p' q') (hdiffer : IdsDiffer s.1.requests)
    (hfree : CallIdFree s ev) : IdsDiffer b'.requests := by
  refine .advances ?_ h.grows
  cases hnew : newSlot s.1 ev with
  | none =>
    rwa [toList_none, append_nil]
  | some slot => exact hdiffer.push (hfree slot hnew)

/-- No request that waits is ahead of the counter, and only the last one can be level with it. -/
def BehindCounter (b : Board W) : Prop :=
  ∀ r slot, b.requests[r]? = some slot → Waiting b.requests r →
    slot.request.callId.toNat ≤ b.callId.toNat ∧
      (slot.request.callId = b.callId → r + 1 = b.requests.length)

theorem toNat_add_one {n : UInt32} (h : n ≠ 0xFFFFFFFF) : (n + 1).toNat = n.toNat + 1 := by
  have hlt : n.toNat < 0xFFFFFFFF :=
    Nat.lt_of_le_of_ne (Nat.le_of_lt_succ n.toNat_lt) fun heq => h (UInt32.toNat_inj.mp heq)
  rw [UInt32.toNat_add, UInt32.toNat_one, Nat.mod_eq_of_lt (by omega)]

theorem toNat_nextCallId {n : UInt32} (h : n ≠ 0xFFFFFFFF) :
    (nextCallId n).toNat = n.toNat + 1 := by
  have hnext := toNat_add_one h
  rw [nextCallId, if_neg, hnext]
  intro hzero
  simp [hzero] at hnext

/-- What the counter gives is free. -/
theorem BehindCounter.callIdFree (h : BehindCounter s.1) (hleft : CallIdsLeft s ev) :
    CallIdFree s ev := by
  have hhandled : (∀ slot, s.1.requests.getLast? = some slot → slot.request.callId = s.1.callId →
      slot.state = .done ∨ slot.freed = true) → ∀ r old, s.1.requests[r]? = some old →
      Waiting s.1.requests r → old.request.callId ≠ s.1.callId := by
    intro hlast r old hold hwaiting heq
    have hr := (h r old hold hwaiting).2 heq
    refine (waiting_iff_of_slot hold).mp hwaiting (hlast old ?_ heq)
    rw [getLast?_eq_getElem?, ← hr]
    exact hold
  intro slot hnew r old hold hwaiting heq
  cases ev with
  | request sub =>
    obtain rfl := some.inj hnew
    have hle := (h r old hold hwaiting).1
    rw [heq] at hle
    have hnext := toNat_nextCallId hleft
    change (nextCallId s.1.callId).toNat ≤ _ at hle
    omega
  | bind | alterContext =>
    obtain rfl := some.inj hnew
    exact hhandled hleft r old hold hwaiting heq
  | _ => cases hnew

theorem newSlot_callId (h : newSlot b ev = some slot) :
    slot.request.callId = ev.counter b.callId := by
  cases ev with
  | request | bind | alterContext => rw [← some.inj h]; rfl
  | _ => cases h

theorem Step.behindCounter (h : Step M rounds s.1 p q ev b' p' q') (hbehind : BehindCounter s.1)
    (hleft : CallIdsLeft s ev) : BehindCounter b' := by
  intro r now hnow hwaiting
  obtain ⟨old, hold, hlater, hw⟩ := h.grows.waited hnow hwaiting
  have hlength := h.grows.length
  have hfree := hbehind.callIdFree hleft
  rw [hlater.callId, h.callId]
  have hmoved : ev.counter s.1.callId = s.1.callId ∨
      (ev.counter s.1.callId).toNat = s.1.callId.toNat + 1 := by
    cases ev with
    | request | auth3 => exact .inr (toNat_nextCallId hleft)
    | _ => exact .inl rfl
  have hle : s.1.requests[r]? = some old → Waiting s.1.requests r →
      old.request.callId.toNat ≤ (ev.counter s.1.callId).toNat := by
    intro hold hw
    have hbefore := (hbehind r old hold hw).1
    rcases hmoved with heq | hnext
    · rwa [heq]
    · omega
  cases hnew : newSlot s.1 ev with
  | none =>
    rw [hnew, toList_none, append_nil] at hold hw hlength
    refine ⟨hle hold hw, fun heq => ?_⟩
    obtain ⟨hbefore, hlast⟩ := hbehind r old hold hw
    rcases hmoved with hsame | hnext
    · rw [hlength]
      exact hlast (heq.trans hsame)
    · rw [heq] at hbefore
      omega
  | some slot =>
    rw [hnew] at hold hw hlength
    have hid := newSlot_callId hnew
    rcases push_cases hold hw with ⟨hold, hw⟩ | ⟨rfl, rfl⟩
    · exact ⟨hle hold hw, fun heq => absurd (heq.trans hid.symm) (hfree slot hnew r old hold hw)⟩
    · rw [hid]
      exact ⟨Nat.le_refl _, fun _ => by rw [hlength, length_append]; rfl⟩

theorem IdsDiffer.distinct (h : IdsDiffer s.1.requests) (hinv : Inv s p q) : DistinctCallIds s := by
  refine ⟨p, hinv.held.isDList .pending, ?_⟩
  refine List.Nodup.map_on ?_ (hinv.held.threads.nodup .pending)
  intro r hr r' hr' heq
  obtain ⟨slot, hr₁⟩ := (hinv.agree.waiting hr).get
  obtain ⟨slot', hr₂⟩ := (hinv.agree.waiting hr').get
  rw [Board.callIdOf, Board.callIdOf, hr₁, hr₂] at heq
  exact h r r' slot slot' (hinv.agree.waiting hr) (hinv.agree.waiting hr') hr₁ hr₂
    (some.inj heq)

/-- **Distinct call ids** of the pending requests, in every run whose steps are tidy and in which the
counter does not run out and no bind or alter context shares a call id. -/
theorem pending_call_ids_distinct (M : Mechanism W) (rounds : Nat) (w : W) (events : List Event)
    (hcond : (requests M rounds).EachStep (fun s ev _ _ => Tidy s ev ∧ CallIdsLeft s ev) (init w)
      events) :
    (requests M rounds).EachStep (fun _ _ _ s' => DistinctCallIds s') (init w) events := by
  refine eachStep_of_steps (X := fun b _ _ => IdsDiffer b.requests ∧ BehindCounter b) ?_ ?_ hcond
  · exact ⟨fun _ _ _ _ _ _ hslot => by simp [Board.init] at hslot,
      fun _ _ hslot => by simp [Board.init] at hslot⟩
  · rintro s s' ev p q p' q' _ hinv' ⟨hdiffer, hbehind⟩ _ hleft hstep
    have hdiffer' := hstep.idsDiffer hdiffer (hbehind.callIdFree hleft)
    exact ⟨⟨hdiffer', hstep.behindCounter hbehind hleft⟩, hdiffer'.distinct hinv'⟩

def asyncCall : Submission := ⟨true, ⟨none, 0, 3, [1, 2, 3]⟩, true, true⟩

/-- Two asynchronous calls on a new connection. -/
theorem pending_call_ids_distinct_of_two :
    (requests twoLegMechanism 0).EachStep (fun _ _ _ s' => DistinctCallIds s') (init 0)
      [.request asyncCall, .request asyncCall] := by
  refine pending_call_ids_distinct twoLegMechanism 0 0 _ ?_
  intro o s h
  obtain ⟨rfl, rfl⟩ := answer_inj h
  refine ⟨⟨trivial, show (1 : UInt32) ≠ _ by decide⟩, fun o' s' h' => ?_⟩
  exact ⟨⟨trivial, show (2 : UInt32) ≠ _ by decide⟩, trivial⟩

/-- An alter context takes the call id of the request that is on its way. -/
theorem alter_context_reuses_call_id :
    ((requests twoLegMechanism 0).run (init 0) [.request asyncCall, .alterContext]).map
      (fun r => (Linked.walk r.2.2.cells 2 (r.2.2.head .pending),
        r.2.1.requests.map (·.request.callId))) = some (some [0, 1], [2, 2]) ∧
    ¬ (requests twoLegMechanism 0).EachStep (fun _ _ _ s' => DistinctCallIds s') (init 0)
      [.request asyncCall, .alterContext] := by
  refine ⟨by decide, ?_⟩
  intro h
  obtain ⟨-, h⟩ := h _ _ rfl
  obtain ⟨⟨p, hlist, hnodup⟩, -⟩ := h _ _ rfl
  obtain rfl := hlist.eq_of_walk (show Linked.walk _ 2 _ = some [0, 1] from rfl)
  exact absurd hnodup (by decide)

/-! ## Callbacks -/

/-- A registered callback runs at most once, and has run when the request is done. -/
def CallbacksRunOnce (s : State W) : Prop :=
  ∀ slot ∈ s.1.requests, slot.request.kind = .request → slot.callback = true →
    slot.callbackRuns ≤ 1 ∧ (slot.state = .done → slot.callbackRuns = 1)

def firstQueued (s : State W) : Option RpcRequest :=
  (s.2.head .requestQueue).bind fun r => (s.1.slot r).map (·.request)

/-- Pushing and sending a request does not fail. -/
def Sendable (M : Mechanism W) (rounds : Nat) (b : Board W) (w : W) (req : RpcRequest) : Prop :=
  ∀ status, (shipRequest (onSocket M b.sock) rounds b.srvMaxRecvFrag req b.security w).2.1 ≠
    .failed status

theorem Sendable.of_sent {w : W} {req : RpcRequest}
    (h : (shipRequest (onSocket M b.sock) rounds b.srvMaxRecvFrag req b.security w).2.1 = .sent) :
    Sendable M rounds b w req := by
  intro status hfailed
  rw [h] at hfailed
  simp at hfailed

/-- No push and no send of the next request fails: where a request is submitted, and where a packet
arrives. A synchronous call is the next request only when nothing else is pending. -/
def SendsSucceed (M : Mechanism W) (rounds : Nat) (s : State W) : Event → Prop
  | .request sub =>
    let req := (firstQueued s).getD (sub.request (nextCallId s.1.callId))
    req.asyncCall = true ∨ s.2.head .pending = none → Sendable M rounds s.1 s.1.w req
  | .packet pkt =>
    ∀ req, firstQueued s = some req → (req.asyncCall = true ∨ ∃ r, Sole s.2 .pending r) →
      Sendable M rounds s.1 (verifyResponse M pkt s.1.security s.1.w).2 req
  | _ => True

/-- How often the callback of a request has run. -/
def Slot.Called (slot : Slot) : Prop :=
  slot.request.kind = .request →
    slot.callbackRuns = if slot.callback = true ∧ slot.state = .done then 1 else 0

/-- The callbacks of all requests, but one that is being completed, have run as they
should. -/
def CalledBut (rs : List Slot) (skip : Option Ref) : Prop :=
  ∀ (r : Ref) (slot : Slot), rs[r]? = some slot → skip ≠ some r → slot.Called

theorem CalledBut.modify {skip : Option Ref} (h : CalledBut rs skip) (r : Ref)
    (hg : ∀ slot, rs[r]? = some slot → skip ≠ some r → slot.Called → (g slot).Called) :
    CalledBut (rs.modify r g) skip := by
  intro a slot' hslot' hskip
  obtain ⟨-, hslot⟩ | ⟨slot, rfl, hslot, rfl⟩ := exists_of_modify hslot'
  · exact h a slot' hslot hskip
  · exact hg slot hslot hskip (h a slot hslot hskip)

/-- The request that was skipped has been called after all. -/
theorem CalledBut.close (h : CalledBut rs (some r))
    (hg : ∀ slot, rs[r]? = some slot → (g slot).Called) : CalledBut (rs.modify r g) none := by
  intro a slot' hslot' _
  obtain ⟨hne, hslot⟩ | ⟨slot, rfl, hslot, rfl⟩ := exists_of_modify hslot'
  · exact h a slot' hslot (by simpa using Ne.symm hne)
  · exact hg slot hslot

theorem CalledBut.skip (h : CalledBut rs none) (r : Ref) (g : Slot → Slot) :
    CalledBut (rs.modify r g) (some r) := by
  intro a slot' hslot' hskip
  obtain ⟨-, hslot⟩ | ⟨slot, rfl, -, -⟩ := exists_of_modify hslot'
  · exact h a slot' hslot (by simp)
  · exact absurd rfl hskip

theorem CalledBut.push (h : CalledBut rs none) (hslot : slot.Called) :
    CalledBut (rs ++ [slot]) none := by
  intro r slot' hslot' hskip
  rcases mem_append.mp (mem_of_getElem? hslot') with hmem | hmem
  · obtain ⟨a, ha⟩ := mem_iff_getElem?.mp hmem
    exact h a slot' ha (by simp)
  · rwa [mem_singleton.mp hmem]

theorem Slot.Called.complete {slot' : Slot} (h : slot.Called) (hstate : slot.state = .pending)
    (hkind : slot'.request.kind = slot.request.kind)
    (hruns : slot'.callbackRuns = slot.callbackRuns) (hdone : slot'.state = .done) :
    slot'.runCallback.Called := by
  have hzero : slot.request.kind = .request → slot.callbackRuns = 0 := by
    intro hk
    have hcalled := h hk
    simpa [hstate] using hcalled
  unfold Slot.runCallback
  split_ifs with hcb
  all_goals
    intro hk
    have hruns' : slot'.callbackRuns = 0 := hruns.trans (hzero (hkind.symm.trans hk))
    simp [hruns', hcb, hdone]

/-- Pushing and sending the first request of the queue does not fail. -/
def HeadSendable (M : Mechanism W) (rounds : Nat) (b : Board W) (p q : List Ref) : Prop :=
  ∀ r q' slot, q = r :: q' → b.slot r = some slot → slot.request.asyncCall = true ∨ p = [] →
    Sendable M rounds b b.w slot.request

/-- What is not in the queue is not touched when the queue is shipped. -/
theorem Ships.slot_eq (h : Ships M rounds b p q b' p' q') (hr : r ∉ q) :
    b'.requests[r]? = b.requests[r]? := by
  cases h with
  | idle => rfl
  | sent hq | failed hq =>
    refine getElem?_modify_of_ne ?_ _
    rintro rfl
    exact hr (hq ▸ mem_cons_self)

theorem Ships.called (h : Ships M rounds b p q b' p' q') {skip : Option Ref}
    (hcalled : CalledBut b.requests skip)
    (hsends : HeadSendable M rounds b p q) : CalledBut b'.requests skip := by
  cases h with
  | idle => exact hcalled
  | sent => exact hcalled.modify _ fun _ _ _ hslot => hslot
  | failed hq hslot hready hship =>
    have hfailed := congrArg (·.2.1) hship
    exact absurd hfailed (hsends _ _ _ hq hslot hready _)

/-- Unless a send fails, requests wait as before. -/
theorem Ships.state (h : Ships M rounds b p q b' p' q') (hsends : HeadSendable M rounds b p q)
    {slot' : Slot} (hslot : b.requests[r]? = some slot) (hslot' : b'.requests[r]? = some slot') :
    slot'.state = slot.state := by
  cases h with
  | idle => rw [some.inj (hslot.symm.trans hslot')]
  | sent =>
    obtain ⟨-, hold⟩ | ⟨old, rfl, hold, rfl⟩ := exists_of_modify hslot'
    · rw [some.inj (hslot.symm.trans hold)]
    · rw [some.inj (hslot.symm.trans hold)]
      rfl
  | failed hq hslot hready hship =>
    have hfailed := congrArg (·.2.1) hship
    exact absurd hfailed (hsends _ _ _ hq hslot hready _)

theorem firstQueued_eq (hinv : Inv s p q) {q' : List Ref} (hq : q = r :: q')
    (hslot : s.1.slot r = some slot) : firstQueued s = some slot.request := by
  have hhead : s.2.head .requestQueue = some r := by rw [hinv.held.head_requestQueue, hq]; rfl
  rw [firstQueued, hhead, bind_some, hslot]
  rfl

theorem firstQueued_received {pkt : NcacnPacket} (hinv : Inv s p q) {a : Ref} {q' : List Ref}
    (hr : r ∈ p) (hq : q = a :: q') (hslot : ((received M pkt s.1).modify r g).slot a = some slot) :
    firstQueued s = some slot.request := by
  have hne : a ≠ r := by
    rintro rfl
    exact hinv.agree.pending_notMem hr (hq ▸ mem_cons_self)
  exact firstQueued_eq hinv hq ((liveSlot_modify_of_ne hne g).symm.trans hslot)

/-- What a submission ships: the first request of the queue, or its own. -/
theorem SendsSucceed.request {sub : Submission} (hinv : Inv s p q)
    (hsends : SendsSucceed M rounds s (.request sub)) :
    HeadSendable M rounds ({ s.1 with callId := nextCallId s.1.callId }.push
      (.new (sub.request (nextCallId s.1.callId)))) p (q ++ [s.1.next]) := by
  intro r q' slot hq hslot hready
  obtain ⟨hslot, hfreed⟩ := liveSlot_eq_some.mp hslot
  rw [push_requests] at hslot
  have hfirst : slot.request = (firstQueued s).getD (sub.request (nextCallId s.1.callId)) := by
    cases q with
    | nil =>
      obtain ⟨rfl, -⟩ := cons.inj hq
      rw [Board.next, getElem?_concat_length] at hslot
      rw [← some.inj hslot, firstQueued, hinv.held.head_requestQueue]
      rfl
    | cons a q =>
      obtain ⟨rfl, -⟩ := List.cons.inj hq
      obtain ⟨old, hold⟩ := ((hinv.agree.listed a).mp (by simp)).get
      have hlt := (List.getElem?_eq_some_iff.mp hold).1
      rw [List.getElem?_append_left hlt] at hslot
      rw [firstQueued_eq hinv rfl (liveSlot_eq_some.mpr ⟨hslot, hfreed⟩), getD_some]
  rw [hfirst] at hready ⊢
  refine hsends (hready.imp_right ?_)
  rintro rfl
  exact hinv.held.head_pending

/-- What a packet ships, once it has completed the request `r`. -/
theorem SendsSucceed.packet {pkt : NcacnPacket} (hinv : Inv s p q)
    (hsends : SendsSucceed M rounds s (.packet pkt)) (hr : r ∈ p) (g : Slot → Slot) :
    HeadSendable M rounds ((received M pkt s.1).modify r g) (p.erase r) q := by
  intro a q' slot hq hslot hready
  refine hsends _ (firstQueued_received hinv hr hq hslot) (hready.imp_right fun hp => ⟨r, ?_⟩)
  rcases erase_eq_nil_iff.mp hp with rfl | hp
  · simp at hr
  · exact hinv.held.sole_pending.mpr hp

theorem called_handled {kind : RequestKind} {callId : UInt32} (h : ev.handledKind = some kind) :
    (Slot.handled callId kind).Called := by
  intro hkind
  obtain rfl : kind = .request := hkind
  cases ev <;> exact absurd h (by simp [Event.handledKind])

theorem Step.called (hinv : Inv s p q) (h : Step M rounds s.1 p q ev b' p' q')
    (hcalled : CalledBut s.1.requests none) (hsends : SendsSucceed M rounds s ev) :
    CalledBut b'.requests none := by
  have hfree : ∀ {rs : List Slot} (r : Ref), CalledBut rs none →
      CalledBut (rs.modify r .free) none := fun r h => h.modify r fun _ _ _ hslot => hslot
  have hfreed : ∀ d : Dying, CalledBut (freedCurrent d s.1).requests none := by
    intro d
    unfold Requests.freedCurrent
    split
    · exact hcalled
    · exact hfree _ hcalled
  cases h with
  | request hships =>
    have hnext := SendsSucceed.request hinv hsends
    refine (hships.called (hcalled.push fun _ => rfl) hnext).modify _ ?_
    intro slot hslot _ hold
    have hstate := hships.state hnext getElem?_concat_length hslot
    intro hkind
    have hruns := hold hkind
    have hpending : slot.state = .pending := hstate
    simp [Submission.register, hpending, hruns]
  | handledSent hkind =>
    exact (hcalled.push (called_handled hkind)).modify _ fun _ _ _ hslot => hslot
  | handledUnsent hkind => exact hcalled.push (called_handled hkind)
  | quiet _ hrequests =>
    rwa [hrequests]
  | freed | released => exact hfree _ hcalled
  | unmatched | badPacket | lost => exact hcalled
  | answered hfound hslot hkind =>
    refine hcalled.modify _ fun slot hs _ _ hk => ?_
    have heq := some.inj (hs.symm.trans (liveSlot_eq_some.mp hslot).1)
    exact absurd (heq ▸ hk) hkind
  | fragment | expired => exact hcalled.modify _ fun _ _ _ hslot => hslot
  | @finished pkt r slot part b₁ _ _ hfound hslot _ _ hships =>
    have hr : r ∈ p := mem_of_find?_eq_some hfound
    have hrq := hinv.agree.pending_notMem hr
    have hnext := SendsSucceed.packet hinv hsends hr fun slot => (part.mark slot).finish
    refine .close (hships.called (hcalled.skip r _) hnext) ?_
    intro slot' hslot'
    rw [hships.slot_eq hrq] at hslot'
    have hold := (liveSlot_eq_some.mp hslot).1
    obtain rfl := some.inj ((getElem?_modify_self hold _).symm.trans hslot')
    have hstate := (hinv.agree.waiting hr).state_eq hold
    exact (hcalled r slot hold (by simp)).complete hstate (part.later slot).kind (part.runs slot)
      rfl
  | @timeout r slot hslot hstate =>
    have hexpired : CalledBut (s.1.requests.modify r .expire) none :=
      hcalled.modify r fun _ _ _ hslot => hslot
    refine hexpired.modify r ?_
    intro slot' hslot' _ hcalled'
    have hold := (liveSlot_eq_some.mp hslot).1
    obtain rfl := some.inj ((getElem?_modify_self hold _).symm.trans hslot')
    exact hcalled'.complete hstate rfl rfl rfl
  | deadEnd => exact hfreed _
  | @deadNext d r p' hdying hp =>
    have hr : r ∈ p := hp ▸ mem_cons_self
    refine (hfreed d).modify r ?_
    intro slot hslot _ hcalled'
    have hwaiting := (hinv.settled.freedCurrent hinv.agree hdying).waiting hr
    exact hcalled'.complete (hwaiting.state_eq hslot) rfl rfl rfl

/-- **Callbacks run once**, by the event that completes the request, in every run in which no push
and no send of the next request fails. -/
theorem callbacks_run_once (M : Mechanism W) (rounds : Nat) (w : W) (evs : List Event)
    (hcond : (requests M rounds).EachStep (fun s ev _ _ => Tidy s ev ∧ SendsSucceed M rounds s ev)
      (init w) evs) :
    (requests M rounds).EachStep (fun _ _ _ s' => CallbacksRunOnce s') (init w) evs := by
  refine eachStep_of_steps (X := fun b _ _ => CalledBut b.requests none) ?_ ?_ hcond
  · intro r slot hslot
    exact absurd hslot (by simp [Board.init])
  · intro s s' p q p' q' ev hinv _ hcalled _ hsends hstep
    have hcalled' := hstep.called hinv hcalled hsends
    refine ⟨hcalled', ?_⟩
    intro slot hslot hkind hcallback
    obtain ⟨r, hr⟩ := mem_iff_getElem?.mp hslot
    have hruns := hcalled' r slot hr (by simp) hkind
    constructor
    · rw [hruns]
      split_ifs <;> decide
    · intro hdone
      rw [hruns, if_pos ⟨hcallback, hdone⟩]

def answer (callId : UInt32) : NcacnPacket := ⟨callId, 0, true, .response [9]⟩

/-- A call that is sent and answered. -/
theorem callbacks_run_once_of_answer :
    (requests twoLegMechanism 0).EachStep (fun _ _ _ s' => CallbacksRunOnce s') (init 0)
      [.request asyncCall, .packet (answer 2)] := by
  refine callbacks_run_once twoLegMechanism 0 0 _ ?_
  intro o s h
  refine ⟨⟨trivial, fun _ => .of_sent (by decide)⟩, ?_⟩
  obtain ⟨rfl, rfl⟩ := answer_inj h
  intro o' s' h'
  refine ⟨⟨trivial, ?_⟩, trivial⟩
  -- the queue is empty
  intro req hreq
  have hnone : none = some req := hreq
  exact absurd hnone (some_ne_none req).symm

/-- A call after the connection is lost is done at once, and its callback never run. A queued
request that times out is sent later, answered, and called back twice. -/
theorem callbacks_not_run_once :
    ((requests twoLegMechanism 0).run (init 0)
        [.lost .unexpectedNetworkError, .deadRound, .request asyncCall]).map
      (fun r => r.2.1.requests.map fun slot => (slot.state, slot.callback, slot.callbackRuns)) =
        some [(.done, true, 0)] ∧
    ((requests twoLegMechanism 0).run (init 0)
        [.request syncCall, .request syncCall, .timeout 1, .packet (answer 2),
          .packet (answer 3)]).map
      (fun r => r.2.1.requests.map fun slot => (slot.state, slot.callback, slot.callbackRuns)) =
        some [(.done, true, 1), (.done, true, 2)] ∧
    ¬ (requests twoLegMechanism 0).EachStep (fun _ _ _ s' => CallbacksRunOnce s') (init 0)
      [.lost .unexpectedNetworkError, .deadRound, .request asyncCall] := by
  refine ⟨by decide, by decide, ?_⟩
  intro h
  obtain ⟨-, h⟩ := h _ _ rfl
  obtain ⟨-, h⟩ := h _ _ rfl
  obtain ⟨honce, -⟩ := h _ _ rfl
  have hruns := (honce _ mem_cons_self rfl rfl).2 rfl
  exact absurd hruns (by decide)

end OpenvasSmb.Dcerpc.Requests

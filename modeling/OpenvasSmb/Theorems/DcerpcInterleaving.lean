import OpenvasSmb.Dcerpc.Fragments
import OpenvasSmb.Theorems.DcerpcProgress

/-!
# Interleaved responses

The fragments of the responses to several calls arrive in any order. Every packet is taken, if what
is next in the queue can then be shipped (`packet_step`). As long as the requests that wait have
different call ids, what becomes of a request is what the packets with its own call id make of it
(`run_own_parts`). So it succeeds with its last fragment, if nothing went wrong before and memory is
found for all of them, and its payload is the stubs of its own fragments in the order of their
arrival (`interleaved_calls`).
-/

namespace OpenvasSmb.Dcerpc.Requests

open Kit List Slot

variable {W : Type} {M : Mechanism W} {rounds : Nat} {s s' : State W} {b b' : Board W}
  {p q p' q' : List Ref} {r : Ref} {slot : Slot} {pkt : NcacnPacket}

/-! ## One call by itself -/

/-- What a packet makes of the request it is an answer to. -/
def Slot.take (slot : Slot) (part : Part) : Slot :=
  if slot.state = .done then slot
  else
    match part.behind slot.request.payload with
    | .more stub => slot.append stub
    | .last stub => (slot.append stub).finish.runCallback
    | .failure status => (slot.setStatus status).finish.runCallback

/-- The stub of a response whose last fragment has come, with no failure before it. -/
def wholeStub : List Part → Option Bytes
  | .more stub :: rest => (wholeStub rest).map (stub ++ ·)
  | .last stub :: _ => some stub
  | _ => none

/-- The request has succeeded exactly if a whole stub has come that there is memory for, and then it
has got it. -/
def Slot.Reassembled (slot : Slot) (parts : List Part) (slot' : Slot) : Prop :=
  (slot'.state = .done ∧ slot'.status = .ok ↔ ∃ stub, wholeStub parts = some stub ∧
    (slot.request.payload ++ stub).length < Ndr.maxTallocSize) ∧
  ∀ stub, wholeStub parts = some stub →
    (slot.request.payload ++ stub).length < Ndr.maxTallocSize →
    slot'.request.payload = slot.request.payload ++ stub

theorem Slot.take_kept (slot : Slot) (part : Part) :
    (slot.take part).request.callId = slot.request.callId ∧
      (slot.take part).request.kind = slot.request.kind ∧ (slot.take part).freed = slot.freed := by
  unfold take runCallback
  split_ifs
  · exact ⟨rfl, rfl, rfl⟩
  · split <;> (try split_ifs) <;> exact ⟨rfl, rfl, rfl⟩

theorem foldl_take_done (h : slot.state = .done) (parts : List Part) :
    parts.foldl take slot = slot := by
  induction parts with
  | nil => rfl
  | cons part rest ih =>
    have htake : slot.take part = slot := if_pos h
    rw [foldl_cons, htake, ih]

/-- A part that ends a request decides what becomes of it. -/
theorem foldl_take_ends (part : Part) (hstate : slot.state = .pending)
    (hends : ∀ stub, part.behind slot.request.payload ≠ .more stub) (rest : List Part) :
    ((part :: rest).foldl take slot).state = .done ∧
      ((part :: rest).foldl take slot).status =
        ((part.behind slot.request.payload).mark slot).status ∧
      ((part :: rest).foldl take slot).request =
        ((part.behind slot.request.payload).mark slot).request := by
  have hpending : ¬ slot.state = .done := by simp [hstate]
  have hrun : ∀ slot : Slot, slot.finish.runCallback.state = .done ∧
      slot.finish.runCallback.status = slot.status ∧
        slot.finish.runCallback.request = slot.request := by
    intro slot
    unfold runCallback
    split_ifs <;> exact ⟨rfl, rfl, rfl⟩
  have htake : slot.take part = ((part.behind slot.request.payload).mark slot).finish.runCallback := by
    rw [Slot.take, if_neg hpending]
    split <;> rename_i heq <;> rw [heq]
    · exact absurd heq (hends _)
    · rfl
    · rfl
  rw [foldl_cons, htake, foldl_take_done (hrun _).1]
  exact hrun _

theorem reassembled_foldl_take {parts : List Part} (hstate : slot.state = .pending)
    (hsound : slot.Sound) (hfailures : ∀ status, .failure status ∈ parts → status ≠ .ok) :
    slot.Reassembled parts (parts.foldl take slot) := by
  induction parts generalizing slot with
  | nil => simp [Reassembled, hstate, wholeStub]
  | cons part rest ih =>
    obtain ⟨hok, hlt⟩ := hsound hstate
    have hends := foldl_take_ends part hstate
    -- the part is a failure, or its stub is too long, and so is that of the whole response
    have hfails : ∀ status, part.behind slot.request.payload = .failure status → status ≠ .ok →
        (∀ whole, wholeStub (part :: rest) = some whole →
          ¬ (slot.request.payload ++ whole).length < Ndr.maxTallocSize) →
        slot.Reassembled (part :: rest) ((part :: rest).foldl take slot) := by
      intro status hbehind hstatus hlong
      obtain ⟨-, heq, -⟩ := hends (by simp [hbehind]) rest
      rw [hbehind] at heq
      exact ⟨iff_of_false (fun h => hstatus (heq.symm.trans h.2)) fun ⟨whole, hw, hlen⟩ =>
        hlong whole hw hlen, fun whole hw hlen => absurd hlen (hlong whole hw)⟩
    cases part with
    | more stub =>
      have hassoc : ∀ tail, slot.request.payload ++ (stub ++ tail) =
          (slot.append stub).request.payload ++ tail := fun tail => (append_assoc ..).symm
      by_cases hfits : payloadFits slot.request.payload stub = true
      · have hbehind : (Part.more stub).behind slot.request.payload = .more stub := if_pos hfits
        have htake : slot.take (.more stub) = slot.append stub := by
          rw [Slot.take, if_neg (by simp [hstate]), hbehind]
        obtain ⟨hiff, hpayload⟩ := @ih (slot.append stub) hstate
          ((Part.later_append hbehind).sound hsound) fun status hmem =>
            hfailures status (mem_cons_of_mem _ hmem)
        rw [foldl_cons, htake, Reassembled, hiff]
        simp only [wholeStub, Option.map_eq_some_iff]
        refine ⟨⟨?_, ?_⟩, ?_⟩
        · rintro ⟨tail, htail, hlen⟩
          exact ⟨_, ⟨tail, htail, rfl⟩, hassoc tail ▸ hlen⟩
        · rintro ⟨_, ⟨tail, htail, rfl⟩, hlen⟩
          exact ⟨tail, htail, hassoc tail ▸ hlen⟩
        · rintro _ ⟨tail, htail, rfl⟩ hlen
          rw [hpayload tail htail (hassoc tail ▸ hlen), hassoc]
      · refine hfails .noMemory (if_neg hfits) (by decide) fun whole hwhole hlen => ?_
        obtain ⟨tail, -, rfl⟩ := Option.map_eq_some_iff.mp hwhole
        rw [hassoc, length_append] at hlen
        exact hfits ((payloadFits_iff hlt).mpr (Nat.lt_of_le_of_lt (Nat.le_add_right ..) hlen))
    | last stub =>
      by_cases hfits : payloadFits slot.request.payload stub = true
      · have hbehind : (Part.last stub).behind slot.request.payload = .last stub := if_pos hfits
        obtain ⟨hdone, hstatus, hrequest⟩ := hends (by simp [hbehind]) rest
        rw [hbehind] at hstatus hrequest
        refine ⟨iff_of_true ⟨hdone, hstatus.trans hok⟩ ⟨stub, rfl, (payloadFits_iff hlt).mp hfits⟩, ?_⟩
        intro whole hwhole _
        rw [← Option.some.inj hwhole, hrequest]
        rfl
      · refine hfails .noMemory (if_neg hfits) (by decide) fun whole hwhole hlen => ?_
        exact hfits ((payloadFits_iff hlt).mpr (Option.some.inj hwhole ▸ hlen))
    | failure status =>
      exact hfails status rfl (hfailures status mem_cons_self) fun _ hwhole => nomatch hwhole

/-! ## The calls of a connection -/

/-- What a run brings for one call, in the order of arrival. -/
def partsFor (M : Mechanism W) (rounds : Nat) (callId : UInt32) :
    State W → List NcacnPacket → List Part
  | _, [] => []
  | s, pkt :: rest =>
    (if pkt.callId = callId then [partOf pkt (verifyResponse M pkt s.1.security s.1.w).1] else []) ++
      match (requests M rounds).step s (.packet pkt) with
      | none => []
      | some (_, s') => partsFor M rounds callId s' rest

theorem partOf_failure {pulled : PulledStub} {status : NtStatus}
    (h : partOf pkt pulled = .failure status) : status ≠ .ok := by
  rintro rfl
  unfold partOf at h
  split at h
  · have hcode := Part.failure.inj h
    split_ifs at hcode <;> exact absurd hcode (by decide)
  · split_ifs at h with hbad
    simp [Part.failure.inj h] at hbad
  · exact absurd (Part.failure.inj h) (by decide)

theorem failure_mem_partsFor {status : NtStatus} {callId : UInt32} (pkts : List NcacnPacket)
    (s : State W) (h : .failure status ∈ partsFor M rounds callId s pkts) : status ≠ .ok := by
  induction pkts generalizing s with
  | nil => simp [partsFor] at h
  | cons pkt rest ih =>
    rcases mem_append.mp h with hnow | hrest
    · split_ifs at hnow
      · exact partOf_failure (mem_singleton.mp hnow).symm
      · simp at hnow
    · split at hrest
      · simp at hrest
      · exact ih _ hrest

theorem Ships.queue_subset (h : Ships M rounds b p q b' p' q') : q' ⊆ q := by
  cases h with
  | idle => exact List.Subset.refl q
  | sent hq | failed hq => exact hq ▸ subset_cons_self ..

/-- A packet changes the request it is an answer to as if there were no other, and no other
request that is not queued. -/
theorem Step.packet_slot (h : Step M rounds s.1 p q (.packet pkt) b' p' q') (hinv : Inv s p q)
    (hids : IdsDiffer s.1.requests) (hq : r ∉ q) (hslot : s.1.requests[r]? = some slot)
    (hfreed : slot.freed = false) (hkind : slot.request.kind = .request) :
    q' ⊆ q ∧ b'.requests[r]? = some (if pkt.callId = slot.request.callId then
      slot.take (partOf pkt (verifyResponse M pkt s.1.security s.1.w).1) else slot) := by
  -- a request that is in neither list is done
  have hdone : r ∉ p → ∀ part, slot.take part = slot := by
    intro hp part
    have hout : ¬ Waiting s.1.requests r := fun hwaiting =>
      (mem_append.mp ((hinv.agree.listed r).mpr hwaiting)).elim hp hq
    refine if_pos ?_
    simpa [waiting_iff_of_slot hslot, hfreed] using hout
  have hother : ∀ {a : Ref}, p.find? (s.1.matchesCall pkt.callId) = some a → r ≠ a →
      (if pkt.callId = slot.request.callId then
        slot.take (partOf pkt (verifyResponse M pkt s.1.security s.1.w).1) else slot) = slot := by
    intro a hfound hne
    split_ifs with hid
    · refine hdone (fun hp => hne ?_) _
      have ha := hinv.agree.waiting (mem_of_find?_eq_some hfound)
      obtain ⟨slot', hslot', -⟩ := id ha
      refine hids r a slot slot' (hinv.agree.waiting hp) ha hslot (liveSlot_eq_some.mp hslot').1 ?_
      rw [matchesCall_eq_true hslot' (find?_some hfound), hid]
    · rfl
  have hown : ∀ {slot' : Slot}, p.find? (s.1.matchesCall pkt.callId) = some r →
      s.1.slot r = some slot' → slot' = slot ∧ pkt.callId = slot.request.callId ∧
        slot.state ≠ .done := by
    intro slot' hfound hslot'
    obtain rfl := Option.some.inj ((liveSlot_eq_some.mp hslot').1.symm.trans hslot)
    refine ⟨rfl, (matchesCall_eq_true hslot' (find?_some hfound)).symm, ?_⟩
    rw [(hinv.agree.waiting (mem_of_find?_eq_some hfound)).state_eq hslot]
    decide
  cases h with
  | handledSent hnew | handledUnsent hnew => simp [Event.handledKind] at hnew
  | quiet _ _ _ _ hev => exact absurd rfl (hev pkt)
  | unmatched hnone =>
    refine ⟨List.Subset.refl q, hslot.trans ?_⟩
    split_ifs with hid
    · rw [hdone fun hp => ?_]
      refine find?_eq_none.mp hnone r hp ?_
      rw [Board.matchesCall, hslot, hid]
      exact beq_self_eq_true _
    · rfl
  | @answered _ a slot' hfound hslot' hkind' =>
    have hne : r ≠ a := by
      rintro rfl
      exact hkind' ((hown hfound hslot').1 ▸ hkind)
    rw [hother hfound hne]
    exact ⟨List.Subset.refl q, (getElem?_modify_of_ne hne _).trans hslot⟩
  | @fragment _ a slot' stub hfound hslot' _ hpart =>
    refine ⟨List.Subset.refl q, ?_⟩
    by_cases hra : r = a
    · subst hra
      obtain ⟨rfl, hid, hstate⟩ := hown hfound hslot'
      rw [if_pos hid, Slot.take, if_neg hstate, hpart]
      exact getElem?_modify_self hslot _
    · rw [hother hfound hra]
      exact (getElem?_modify_of_ne hra _).trans hslot
  | @finished _ a slot' part b₁ _ _ hfound hslot' _ hpart hships =>
    refine ⟨hships.queue_subset, ?_⟩
    have hkept := hships.slot_eq hq
    by_cases hra : r = a
    · subst hra
      obtain ⟨rfl, hid, hstate⟩ := hown hfound hslot'
      rw [if_pos hid, Slot.take, if_neg hstate, hpart.1, modify_requests,
        getElem?_modify_self (hkept.trans (getElem?_modify_self hslot _)) _]
      cases part with
      | more stub => exact absurd rfl (hpart.2 stub)
      | last stub | failure status => rfl
    · rw [hother hfound hra]
      rw [modify_requests, getElem?_modify_of_ne hra, hkept]
      exact (getElem?_modify_of_ne hra _).trans hslot

/-! ## Every packet is taken -/

/-- The request that is shipped next is not sent in pieces of no bytes. -/
def RoomForStub (s : State W) : Prop :=
  ∀ req, firstQueued s = some req →
    0 < chunkSize s.1.srvMaxRecvFrag req.call.object.isSome ∨ req.call.stub = []

theorem dcerpcShipNextRequest_isSome (M : Mechanism W) (rounds : Nat) {l : RequestLists}
    (hheld : Held b.requests l p q) (hagree : Agree b.requests p q)
    (hroom : ∀ {a q' slot}, q = a :: q' → b.slot a = some slot →
      0 < chunkSize b.srvMaxRecvFrag slot.request.call.object.isSome ∨
        slot.request.call.stub = []) : (dcerpcShipNextRequest M rounds b l).isSome := by
  unfold dcerpcShipNextRequest
  rw [hheld.head_requestQueue]
  cases q with
  | nil => rfl
  | cons a q' =>
    obtain ⟨slot, hslot, -⟩ := (hagree.listed a).mp (mem_append_right p mem_cons_self)
    have hslot : b.slot a = some slot := hslot
    obtain ⟨l₁, l₂, hremove, hadd, hheld₂, ha⟩ :=
      head_to_pending hheld hagree rfl (Option.isSome_of_eq_some hslot)
    obtain ⟨l₃, hremove', -⟩ := hheld₂.take_pending (Option.isSome_of_eq_some hslot) ha
    have hends := sendFragments_ends (onSocket M b.sock) slot.request.call.stub.length
      (slot.request.call.stub.length + 1 + rounds) slot.request.packet b.security b.w
      slot.request.call.stub (by omega) (hroom rfl hslot)
    simp only [head?_cons, hslot]
    split_ifs
    · rfl
    · simp only [shipHead, hremove, hadd, Option.bind_eq_bind, Option.bind_some]
      split
      · rfl
      · rw [hremove']
        rfl
      · rename_i hship
        exact absurd (congrArg (·.2.1) hship) hends

/-- **Progress.** A packet that is delivered is taken. -/
theorem packet_step (hinv : Inv s p q) (henabled : enabled s.1 (.packet pkt) = true)
    (hroom : RoomForStub s) : ∃ s', (requests M rounds).step s (.packet pkt) = some ((), s') := by
  suffices hsome : (dispatchPacket M rounds pkt (verifyResponse M pkt s.1.security s.1.w).1
      (received M pkt s.1) s.2).isSome by
    obtain ⟨s', hs'⟩ := Option.isSome_iff_exists.mp hsome
    exact ⟨s', (if_pos henabled).trans (congrArg (Option.map _) hs')⟩
  have hsearch : Linked.search s.2.cells ((received M pkt s.1).matchesCall pkt.callId)
      (received M pkt s.1).requests.length (s.2.head .pending) =
        some (p.find? (s.1.matchesCall pkt.callId)) :=
    hinv.held.search_pending (s.1.matchesCall pkt.callId)
  unfold dispatchPacket
  rw [hsearch]
  cases hfound : p.find? (s.1.matchesCall pkt.callId) with
  | none => rfl
  | some a =>
    have ha : a ∈ p := mem_of_find?_eq_some hfound
    obtain ⟨slot, hslot⟩ := Option.isSome_iff_exists.mp (hinv.agree.waiting ha).of_slot
    have hslot' : (received M pkt s.1).slot a = some slot := hslot
    obtain ⟨l₁, hremove, hheld₁⟩ := hinv.held.take_pending (Option.isSome_of_eq_some hslot)
      (hinv.agree.pending_notMem ha)
    simp only [hslot']
    split_ifs with hkind
    · have hdone : ∀ g : Slot → Slot, (∀ slot, (g slot).freed = slot.freed) →
          (requestDone M rounds a g (received M pkt s.1) s.2).isSome := by
        intro g hg
        have hships := dcerpcShipNextRequest_isSome M rounds
          (b := (received M pkt s.1).modify a fun slot => (g slot).finish)
          (hheld₁.keep (g := fun slot => (g slot).finish) hg a)
          (hinv.agree.retire_pending (retires_finish g) ha)
          fun hq hslot => hroom _ (firstQueued_received hinv ha hq hslot)
        obtain ⟨s', hs'⟩ := Option.isSome_iff_exists.mp hships
        simp only [requestDone, hremove, Option.bind_eq_bind, Option.bind_some, hs']
        rfl
      unfold requestReply
      split
      · exact hdone _ fun _ => rfl
      · split_ifs
        · exact hdone _ fun _ => rfl
        · exact hdone _ fun _ => rfl
        · rfl
        · exact hdone _ fun _ => rfl
      · exact hdone _ fun _ => rfl
    · rw [hremove]
      rfl

/-! ## Whole runs -/

/-- The packets are delivered one after the other: at each of them the connection receives, and
what is next in the queue can be shipped. -/
def Delivered (M : Mechanism W) (rounds : Nat) : State W → List NcacnPacket → Prop
  | _, [] => True
  | s, pkt :: rest => (enabled s.1 (.packet pkt) = true ∧ RoomForStub s) ∧
      ∀ s', (requests M rounds).step s (.packet pkt) = some ((), s') → Delivered M rounds s' rest

/-- A request that is not queued becomes what the packets with its call id make of it. -/
theorem run_own_parts (pkts : List NcacnPacket) (hinv : Inv s p q)
    (hids : IdsDiffer s.1.requests) (hq : r ∉ q) (hslot : s.1.requests[r]? = some slot)
    (hfreed : slot.freed = false) (hkind : slot.request.kind = .request)
    (hdelivered : Delivered M rounds s pkts) :
    ∃ o s', (requests M rounds).run s (pkts.map .packet) = some (o, s') ∧
      s'.1.requests[r]? =
        some ((partsFor M rounds slot.request.callId s pkts).foldl take slot) := by
  induction pkts generalizing s p q slot with
  | nil => exact ⟨none, s, rfl, hslot⟩
  | cons pkt rest ih =>
    obtain ⟨⟨henabled, hroom⟩, hrest⟩ := hdelivered
    obtain ⟨s₁, hstep⟩ : ∃ s₁, (requests M rounds).step s (.packet pkt) = some ((), s₁) :=
      packet_step hinv henabled hroom
    have htidy : Tidy s (.packet pkt) := trivial
    obtain ⟨p₁, q₁, hlists, hinv₁⟩ := requests_refines hinv htidy hstep
    have hids₁ := hlists.idsDiffer hids fun slot hnew => by simp [newSlot, Event.handledKind] at hnew
    obtain ⟨hsub, hslot₁⟩ := hlists.packet_slot hinv hids hq hslot hfreed hkind
    have hq₁ : r ∉ q₁ := fun hmem => hq (hsub hmem)
    have hnext : ∀ {now : Slot}, s₁.1.requests[r]? = some now → now.freed = false →
        now.request.kind = .request → now.request.callId = slot.request.callId →
        ∃ o s', (requests M rounds).run s ((pkt :: rest).map .packet) = some (o, s') ∧
          s'.1.requests[r]? =
            some ((partsFor M rounds slot.request.callId s₁ rest).foldl take now) := by
      intro now hnow hfreed hkind hcallId
      obtain ⟨o, s', hrun, hget⟩ := ih hinv₁ hids₁ hq₁ hnow hfreed hkind (hrest s₁ hstep)
      obtain ⟨o', hrun'⟩ := Machine.run_of_step hstep hrun
      exact ⟨o', s', hrun', hcallId ▸ hget⟩
    simp only [partsFor, hstep, foldl_append]
    split_ifs at hslot₁ ⊢ with hid
    · obtain ⟨hcallId, hkind₁, hfreed₁⟩ := slot.take_kept
        (partOf pkt (verifyResponse M pkt s.1.security s.1.w).1)
      exact hnext hslot₁ (hfreed₁.trans hfreed) (hkind₁.trans hkind) hcallId
    · exact hnext hslot₁ hfreed hkind rfl

/-- **Interleaved responses.** In every state that a tidy run has reached, while waiting requests
have different call ids, a pending request becomes what the packets with its call id make of it: it
succeeds iff its last fragment comes with no failure before it and the payload stays below the
limit of an allocation, and its payload is then the stubs of its own fragments, in order. -/
theorem interleaved_calls (M : Mechanism W) (rounds : Nat) (w : W) (events : List Event)
    {o : Option Unit} (pkts : List NcacnPacket)
    (htidy : (requests M rounds).EachStep (fun s ev _ _ => Tidy s ev) (init w) events)
    (hreached : (requests M rounds).run (init w) events = some (o, s))
    (hids : IdsDiffer s.1.requests) (hp : IsDList s.2 .pending p) (hr : r ∈ p)
    (hslot : s.1.slot r = some slot) (hkind : slot.request.kind = .request)
    (hdelivered : Delivered M rounds s pkts) :
    ∃ o' s' slot', (requests M rounds).run s (pkts.map .packet) = some (o', s') ∧
      s'.1.requests[r]? = some slot' ∧
      slot' = (partsFor M rounds slot.request.callId s pkts).foldl take slot ∧
      slot.Reassembled (partsFor M rounds slot.request.callId s pkts) slot' := by
  obtain ⟨p', q, hinv, hsound⟩ := inv_of_run htidy hreached
  obtain rfl := hp.eq_of_walk hinv.held.walk_pending
  obtain ⟨hget, hfreed⟩ := liveSlot_eq_some.mp hslot
  have hstate := (hinv.agree.waiting hr).state_eq hget
  obtain ⟨o', s', hrun, hslot'⟩ := run_own_parts pkts hinv hids (hinv.agree.pending_notMem hr) hget
    hfreed hkind hdelivered
  exact ⟨o', s', _, hrun, hslot', rfl, reassembled_foldl_take hstate
    (hsound slot (mem_of_getElem? hget)) fun status => failure_mem_partsFor pkts s⟩

theorem idsDiffer_of_nodup {rs : List Slot} (h : (rs.map (·.request.callId)).Nodup) :
    IdsDiffer rs := by
  intro r r' slot slot' _ _ hslot hslot' heq
  refine (List.getElem?_inj ?_ h).mp (by simp [hslot, hslot', heq])
  simpa using (List.getElem?_eq_some_iff.mp hslot).1

/-- A connection with two calls on their way. -/
def twoCalls : State Nat :=
  (((requests twoLegMechanism 0).run (init 0) [.request asyncCall, .request asyncCall]).map
    (·.2)).getD (init 0)

/-- The response to the first call comes in two fragments, the other response between them. -/
theorem interleaved_calls_of_two :
    ∃ o s' slot', (requests twoLegMechanism 0).run twoCalls
        ([{ answer 2 with last := false }, answer 3, answer 2].map .packet) = some (o, s') ∧
      s'.1.requests[0]? = some slot' ∧ slot'.state = .done ∧ slot'.status = .ok ∧
        slot'.request.payload = [9, 9] := by
  have htidy : (requests twoLegMechanism 0).EachStep (fun s ev _ _ => Tidy s ev) (init 0)
      [.request asyncCall, .request asyncCall] := fun _ _ _ => ⟨trivial, fun _ _ _ => ⟨trivial, trivial⟩⟩
  have hreached : (requests twoLegMechanism 0).run (init 0)
      [.request asyncCall, .request asyncCall] = some (some (), twoCalls) := rfl
  obtain ⟨p, q, hinv, -⟩ := inv_of_run htidy hreached
  have hp : IsDList twoCalls.2 .pending p := hinv.held.isDList .pending
  have hr : 0 ∈ p := by simp [hp.eq_of_walk (show Linked.walk _ 2 _ = some [1, 0] from rfl)]
  have hdelivered : Delivered twoLegMechanism 0 twoCalls
      [{ answer 2 with last := false }, answer 3, answer 2] := by
    refine ⟨⟨rfl, nofun⟩, fun s₁ h₁ => ?_⟩
    obtain ⟨-, rfl⟩ := answer_inj h₁
    refine ⟨⟨rfl, nofun⟩, fun s₂ h₂ => ?_⟩
    obtain ⟨-, rfl⟩ := answer_inj h₂
    exact ⟨⟨rfl, nofun⟩, fun _ _ => trivial⟩
  obtain ⟨o, s', slot', hrun, hslot', -, hdone, hpayload⟩ := interleaved_calls twoLegMechanism 0 0 _ _
    htidy hreached (idsDiffer_of_nodup (by decide)) hp hr rfl rfl hdelivered
  obtain ⟨hstate, hstatus⟩ := hdone.mpr ⟨[9, 9], rfl, by decide⟩
  exact ⟨o, s', slot', hrun, hslot', hstate, hstatus, hpayload [9, 9] rfl (by decide)⟩

/-! ## A long response -/

/-- A fragment of the response to the first call. -/
def fragmentOf (stub : Bytes) (last : Bool) : NcacnPacket := ⟨2, 0, last, .response stub⟩

/-- A connection with one call on its way, whose response has begun. -/
def begun (payload : Bytes) : State Nat :=
  let s := (((requests twoLegMechanism 0).run (init 0) [.request asyncCall]).map (·.2)).getD (init 0)
  (s.1.modify 0 (append payload), s.2)

variable {payload stub : Bytes}

theorem begun_step_fits (h : payloadFits payload stub = true) :
    (requests twoLegMechanism 0).step (begun payload) (.packet (fragmentOf stub false)) =
      some ((), begun (payload ++ stub)) := by
  have hstep : (requests twoLegMechanism 0).step (begun payload) (.packet (fragmentOf stub false)) =
      (if !payloadFits payload stub then _ else _ : Option (State Nat)).map fun s => ((), s) := rfl
  have hsock : sockSendRead (sockProcessRecv (begun []).1.sock) = (begun []).1.sock := by decide
  rw [hstep, h]
  exact congrArg (fun sock => some ((), { (begun (payload ++ stub)).1 with sock := sock },
    (begun payload).2)) hsock

theorem begun_step_unfit (h : payloadFits payload stub = false) (last : Bool) :
    ∃ s', (requests twoLegMechanism 0).step (begun payload) (.packet (fragmentOf stub last)) =
      some ((), s') ∧ s'.1.requests.map (fun slot => (slot.state, slot.status)) =
        [(.done, .noMemory)] := by
  have hstep : (requests twoLegMechanism 0).step (begun payload) (.packet (fragmentOf stub last)) =
      (if !payloadFits payload stub then _ else _ : Option (State Nat)).map fun s => ((), s) := rfl
  rw [hstep, h]
  exact ⟨_, rfl, rfl⟩

/-- `n` fragments, and the last one. -/
def longReply (n : Nat) (stub : Bytes) : List NcacnPacket :=
  replicate n (fragmentOf stub false) ++ [fragmentOf stub true]

theorem begun_run (n : Nat) (hbelow : payload.length + n * stub.length < Ndr.maxTallocSize)
    (habove : Ndr.maxTallocSize ≤ payload.length + (n + 1) * stub.length) :
    ∃ o s', (requests twoLegMechanism 0).run (begun payload) ((longReply n stub).map .packet) =
        some (o, s') ∧
      s'.1.requests.map (fun slot => (slot.state, slot.status)) = [(.done, .noMemory)] ∧
      (wholeStub (partsFor twoLegMechanism 0 2 (begun payload) (longReply n stub))).isSome := by
  induction n generalizing payload with
  | zero =>
    have hlt : payload.length < Ndr.maxTallocSize := by omega
    have hunfit : payloadFits payload stub = false := by
      rw [← Bool.not_eq_true, payloadFits_iff hlt, length_append]
      omega
    obtain ⟨s', hstep, hslots⟩ := begun_step_unfit hunfit true
    obtain ⟨o, hrun⟩ := Machine.run_of_step hstep
      (show (requests twoLegMechanism 0).run s' [] = some (none, s') from rfl)
    exact ⟨o, s', hrun, hslots, rfl⟩
  | succ n ih =>
    rw [Nat.succ_mul] at hbelow
    rw [Nat.succ_mul] at habove
    have hlt : payload.length < Ndr.maxTallocSize := by omega
    have hfits : payloadFits payload stub = true := by
      rw [payloadFits_iff hlt, length_append]
      omega
    have hstep := begun_step_fits hfits
    obtain ⟨o, s', hrun, hslots, hwhole⟩ := @ih (payload ++ stub) (by rw [length_append]; omega)
      (by rw [length_append]; omega)
    obtain ⟨o', hrun'⟩ := Machine.run_of_step hstep hrun
    refine ⟨o', s', hrun', hslots, ?_⟩
    have hparts : partsFor twoLegMechanism 0 2 (begun payload) (longReply (n + 1) stub) =
        .more stub :: partsFor twoLegMechanism 0 2 (begun (payload ++ stub)) (longReply n stub) := by
      rw [longReply, replicate_succ, cons_append, partsFor, hstep]
      rfl
    rw [hparts, wholeStub, Option.isSome_map]
    exact hwhole

/-- A response of 4099 fragments with 65500 bytes each: the last one comes and none has failed, but
an allocation has no room for it. -/
theorem long_reply_fails :
    ∃ o s', (requests twoLegMechanism 0).run (init 0)
        (.request asyncCall :: (longReply 4098 (replicate 65500 0)).map .packet) = some (o, s') ∧
      s'.1.requests.map (fun slot => (slot.state, slot.status)) = [(.done, .noMemory)] ∧
      (wholeStub (partsFor twoLegMechanism 0 2 (begun [])
        (longReply 4098 (replicate 65500 0)))).isSome := by
  have hstep : (requests twoLegMechanism 0).step (init 0) (.request asyncCall) =
      some ((), begun []) := rfl
  have hlength : (replicate 65500 (0 : UInt8)).length = 65500 := length_replicate
  obtain ⟨o, s', hrun, h⟩ := @begun_run [] (replicate 65500 0) 4098
    (by rw [hlength]; decide) (by rw [hlength]; decide)
  obtain ⟨o', hrun'⟩ := Machine.run_of_step hstep hrun
  exact ⟨o', s', hrun', h⟩

end OpenvasSmb.Dcerpc.Requests

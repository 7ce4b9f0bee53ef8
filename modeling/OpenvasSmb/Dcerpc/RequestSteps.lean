import OpenvasSmb.Dcerpc.RequestLists

/-!
# What an event does to the requests

`Ships` and `Step` are the machine without its pointers: what `dcerpc_ship_next_request` and each
event does to the board, the pending list and the queue, one constructor for each way of the
source. `requests_refines` connects the two levels: from a state whose pointers are those of two
lists, a tidy step of the machine is one of these and leads to such a state again. What holds of
every run is proved from `Step` alone.
-/

namespace OpenvasSmb.Dcerpc.Requests

open Kit List Option Slot

variable {W : Type} {ev : Event} {p' q' : List Ref} {r : Ref} {g : Slot → Slot}

/-! ## The lists without pointers -/

/-- `dcerpc_ship_next_request`: the queue is empty or has to wait, its first request is
sent, or that fails. -/
inductive Ships (M : Mechanism W) (rounds : Nat) (b : Board W) (p q : List Ref) :
    Board W → List Ref → List Ref → Prop
  | idle (hidle : q = [] ∨ p ≠ []) : Ships M rounds b p q b p q
  | sent {r : Ref} {q' : List Ref} {slot : Slot} {fragments : List Fragment}
      {sec : SecurityState} {w : W} (hq : q = r :: q') (hslot : b.slot r = some slot)
      (hready : slot.request.asyncCall = true ∨ p = [])
      (hship : shipRequest (onSocket M b.sock) rounds b.srvMaxRecvFrag slot.request b.security b.w =
        (fragments, .sent, sec, w)) :
      Ships M rounds b p q
        ({ b with security := sec, w := w, sock := sockSendRead b.sock }.modify r Slot.ship)
        (r :: p) q'
  | failed {r : Ref} {q' : List Ref} {slot : Slot} {fragments : List Fragment}
      {status : NtStatus} {sec : SecurityState} {w : W} (hq : q = r :: q')
      (hslot : b.slot r = some slot) (hready : slot.request.asyncCall = true ∨ p = [])
      (hship : shipRequest (onSocket M b.sock) rounds b.srvMaxRecvFrag slot.request b.security b.w =
        (fragments, .failed status, sec, w)) :
      Ships M rounds b p q ({ b with security := sec, w := w }.modify r (Slot.complete status)) p q'

/-- The connection after a packet was taken off the socket and checked. -/
def received (M : Mechanism W) (pkt : NcacnPacket) (b : Board W) : Board W :=
  { b with sock := sockProcessRecv b.sock, w := (verifyResponse M pkt b.security b.w).2 }

/-- The board after the request of the last round of the loop of
`dcerpc_connection_dead` was freed. -/
def freedCurrent (d : Dying) (b : Board W) : Board W :=
  match d.current with
  | none => b
  | some r => b.modify r Slot.free

/-- The kind of a request with a `recv_handler` that an event submits. -/
def Event.handledKind : Event → Option RequestKind
  | .bind => some .bind
  | .alterContext => some .alter
  | _ => none

/-- The request that an event allocates. -/
def newSlot (b : Board W) (ev : Event) : Option Slot :=
  match ev with
  | .request sub => some (.new (sub.request (nextCallId b.callId)))
  | ev => ev.handledKind.map (Slot.handled b.callId)

/-- The counter after an event. -/
def Event.counter (callId : UInt32) : Event → UInt32
  | .request _ | .auth3 => nextCallId callId
  | _ => callId

/-- What a packet is for the request that it is an answer to. -/
inductive Part where
  | more (stub : Bytes)
  | last (stub : Bytes)
  | failure (status : NtStatus)

def partOf (pkt : NcacnPacket) (pulled : PulledStub) : Part :=
  match pkt.payload with
  | .fault code => .failure (if code = 5 then .accessDenied else .netWriteFault)
  | .response _ =>
    if !pulled.status.isOk then .failure pulled.status
    else if !pkt.last then .more pulled.stub
    else .last pulled.stub
  | _ => .failure .netWriteFault

/-- A part whose stub does not fit behind the payload is a failure. -/
def Part.behind (payload : Bytes) : Part → Part
  | .more stub => if payloadFits payload stub then .more stub else .failure .noMemory
  | .last stub => if payloadFits payload stub then .last stub else .failure .noMemory
  | .failure status => .failure status

/-- The part of the stub, or the failure, is noted. -/
def Part.mark : Part → Slot → Slot
  | .more stub | .last stub => Slot.append stub
  | .failure status => Slot.setStatus status

/-- What an event does to the board, the pending list and the queue. -/
inductive Step (M : Mechanism W) (rounds : Nat) (b : Board W) (p q : List Ref) :
    Event → Board W → List Ref → List Ref → Prop
  | request {sub : Submission} {b' : Board W} {p' q' : List Ref}
      (hships : Ships M rounds
        ({ b with callId := nextCallId b.callId }.push (.new (sub.request (nextCallId b.callId))))
        p (q ++ [b.next]) b' p' q') :
      Step M rounds b p q (.request sub) (b'.modify b.next sub.register) p' q'
  | handledSent {ev : Event} {kind : RequestKind} {w : W} (hkind : ev.handledKind = some kind)
      (hsend : (onSocket M b.sock).sendRequest b.w = (.ok, w)) :
      Step M rounds b p q ev
        ({ b.push (.handled b.callId kind) with w := w, sock := sockSendRead b.sock }.modify b.next
          Slot.await) (p ++ [b.next]) q
  | handledUnsent {ev : Event} {kind : RequestKind} {status : NtStatus} {w : W}
      (hkind : ev.handledKind = some kind)
      (hsend : (onSocket M b.sock).sendRequest b.w = (status, w)) (hstatus : status ≠ .ok) :
      Step M rounds b p q ev { b.push (.handled b.callId kind) with w := w } (p ++ [b.next]) q
  | quiet {ev : Event} {b' : Board W} (hnew : newSlot b ev = none)
      (hrequests : b'.requests = b.requests) (hsock : b'.sock = b.sock)
      (hdying : b'.dying = b.dying) (hev : ∀ pkt, ev ≠ .packet pkt)
      (hcallId : b'.callId = ev.counter b.callId) :
      Step M rounds b p q ev b' p q
  | freed {r : Ref} (hq : q.head? ≠ some r) :
      Step M rounds b p q (.freed r) (b.modify r Slot.free) (p.erase r) (q.erase r)
  | released {r : Ref} (hr : ¬ Waiting b.requests r) :
      Step M rounds b p q (.released r) (b.modify r Slot.free) p q
  | unmatched {pkt : NcacnPacket} (hnone : p.find? (b.matchesCall pkt.callId) = none) :
      Step M rounds b p q (.packet pkt) (received M pkt b) p q
  | answered {pkt : NcacnPacket} {r : Ref} {slot : Slot}
      (hfound : p.find? (b.matchesCall pkt.callId) = some r) (hslot : b.slot r = some slot)
      (hkind : slot.request.kind ≠ .request) :
      Step M rounds b p q (.packet pkt)
        (recvHandler slot.request.kind pkt ((received M pkt b).modify r Slot.finish))
        (p.erase r) q
  | fragment {pkt : NcacnPacket} {r : Ref} {slot : Slot} {stub : Bytes}
      (hfound : p.find? (b.matchesCall pkt.callId) = some r) (hslot : b.slot r = some slot)
      (hkind : slot.request.kind = .request)
      (hpart : (partOf pkt (verifyResponse M pkt b.security b.w).1).behind slot.request.payload =
        .more stub) :
      Step M rounds b p q (.packet pkt)
        ({ received M pkt b with sock := sockSendRead (sockProcessRecv b.sock) }.modify r
          (Slot.append stub)) p q
  | finished {pkt : NcacnPacket} {r : Ref} {slot : Slot} {part : Part} {b' : Board W}
      {p' q' : List Ref} (hfound : p.find? (b.matchesCall pkt.callId) = some r)
      (hslot : b.slot r = some slot) (hkind : slot.request.kind = .request)
      (hpart : (partOf pkt (verifyResponse M pkt b.security b.w).1).behind slot.request.payload =
        part ∧ ∀ stub, part ≠ .more stub)
      (hships : Ships M rounds ((received M pkt b).modify r fun slot => (part.mark slot).finish)
        (p.erase r) q b' p' q') :
      Step M rounds b p q (.packet pkt) (b'.modify r Slot.runCallback) p' q'
  | badPacket {status : NtStatus} :
      Step M rounds b p q (.badPacket status)
        { b with
          sock := sockProcessRecv b.sock
          dying := some ⟨status, p, none, p ++ q⟩ } p q
  | lost {status : NtStatus} :
      Step M rounds b p q (.lost status)
        { b with
          sock := { b.sock with alive := false }
          dying := some ⟨status, p, none, p ++ q⟩ } p q
  | expired {r : Ref} {slot : Slot} (hslot : b.slot r = some slot) (hdone : slot.state = .done) :
      Step M rounds b p q (.timeout r) (b.modify r Slot.expire) p q
  | timeout {r : Ref} {slot : Slot} (hslot : b.slot r = some slot)
      (hstate : slot.state = .pending) (hq : q.head? ≠ some r) :
      Step M rounds b p q (.timeout r)
        ((b.modify r Slot.expire).modify r fun slot => (slot.complete .ioTimeout).runCallback)
        (p.erase r) (q.erase r)
  | deadEnd {d : Dying} (hdying : b.dying = some d) (hp : p = []) :
      Step M rounds b p q .deadRound { freedCurrent d b with dying := none } [] q
  | deadNext {d : Dying} {r : Ref} {p' : List Ref} (hdying : b.dying = some d) (hp : p = r :: p') :
      Step M rounds b p q .deadRound
        ({ freedCurrent d b with dying := some { d with current := some r } }.modify r
          fun slot => (slot.complete d.status).runCallback) p' q

/-! ## Changes of a request -/

@[simp] theorem modify_requests (b : Board W) (r : Ref) (g : Slot → Slot) :
    (b.modify r g).requests = b.requests.modify r g := rfl

@[simp] theorem push_requests (b : Board W) (slot : Slot) :
    (b.push slot).requests = b.requests ++ [slot] := rfl

theorem Slot.runCallback_state (slot : Slot) : slot.runCallback.state = slot.state := by
  unfold runCallback
  split_ifs <;> rfl

theorem Slot.runCallback_freed (slot : Slot) : slot.runCallback.freed = slot.freed := by
  unfold runCallback
  split_ifs <;> rfl

theorem keeps_ship : Keeps ship := fun _ => ⟨rfl, rfl⟩

theorem keeps_register (sub : Submission) : Keeps sub.register := fun _ => ⟨rfl, rfl⟩

theorem keeps_await : Keeps await := fun _ => ⟨rfl, rfl⟩

theorem keeps_append (stub : Bytes) : Keeps (append stub) := fun _ => ⟨rfl, rfl⟩

theorem keeps_expire : Keeps expire := fun _ => ⟨rfl, rfl⟩

theorem keeps_runCallback : Keeps runCallback :=
  fun slot => ⟨slot.runCallback_state, slot.runCallback_freed⟩

variable (status : NtStatus)

theorem retires_complete : Retires (complete status) := fun _ => .inl rfl

theorem retires_finish (g : Slot → Slot) : Retires fun slot => (g slot).finish := fun _ => .inl rfl

theorem retires_completed : Retires fun slot => (slot.complete status).runCallback :=
  fun slot => .inl (runCallback_state (slot.complete status))

theorem Part.freed (part : Part) (slot : Slot) : (part.mark slot).finish.freed = slot.freed := by
  cases part <;> rfl

theorem Part.runs (part : Part) (slot : Slot) :
    (part.mark slot).finish.callbackRuns = slot.callbackRuns := by
  cases part <;> rfl

theorem Part.sent (part : Part) (slot : Slot) : (part.mark slot).finish.sent = slot.sent := by
  cases part <;> rfl

/-! ## The pointers follow -/

variable {M : Mechanism W} {rounds : Nat} {b b' : Board W} {l l' : RequestLists} {p q : List Ref}

/-- A step of the lists leads to the board, and to lists that the pointers are those of. -/
abbrev Refines (M : Mechanism W) (rounds : Nat) (b : Board W) (p q : List Ref) (ev : Event)
    (b' : Board W) (l' : RequestLists) : Prop :=
  ∃ p' q', Step M rounds b p q ev b' p' q' ∧ Held b'.requests l' p' q'

section Refines

variable (hheld : Held b.requests l p q) (hagree : Agree b.requests p q)

include hheld hagree

/-- The first request of the queue can be made the first of the pending list. -/
theorem head_to_pending (hq : q = r :: q') (hlive : (b.slot r).isSome) :
    ∃ l₁ l₂, l.remove .requestQueue r = some l₁ ∧ l₁.add .pending r = some l₂ ∧
      Held b.requests l₂ (r :: p) q' ∧ r ∉ q' := by
  subst hq
  obtain ⟨-, hnodup, hapart⟩ := nodup_append.mp hagree.nodup
  have hrp : r ∉ p := fun hp => hapart r hp r mem_cons_self rfl
  have hrq : r ∉ q' := (nodup_cons.mp hnodup).1
  obtain ⟨l₁, hremove, hheld₁⟩ := hheld.remove .requestQueue hlive fun
    | .pending, _ => fun heq => hrp (mem_of_mem_head? heq)
    | .requestQueue, hne => absurd rfl hne
  rw [erase_of_not_mem hrp, erase_cons_head] at hheld₁
  obtain ⟨l₂, hadd, hheld₂⟩ := hheld₁.add_pending hlive hrp hrq
  exact ⟨l₁, l₂, hremove, hadd, hheld₂, hrq⟩

theorem shipHead_refines {slot : Slot} (hq : q = r :: q') (hslot : b.slot r = some slot)
    (hready : slot.request.asyncCall = true ∨ p = [])
    (h : shipHead M rounds r slot b l = some (b', l')) :
    ∃ p' q', Ships M rounds b p q b' p' q' ∧ Held b'.requests l' p' q' := by
  have hlive := isSome_of_eq_some hslot
  obtain ⟨l₁, l₂, hremove, hadd, hheld₂, hrq⟩ := head_to_pending hheld hagree hq hlive
  subst hq
  unfold shipHead at h
  simp only [hremove, hadd, bind_eq_bind, bind_some] at h
  rcases hship : shipRequest (onSocket M b.sock) rounds b.srvMaxRecvFrag slot.request b.security b.w
    with ⟨fragments, shipped, sec, w⟩
  rw [hship] at h
  cases shipped with
  | sent =>
    obtain ⟨rfl, rfl⟩ := answer_inj h
    exact ⟨r :: p, q', .sent rfl hslot hready hship, hheld₂.keep keeps_ship.freed r⟩
  | failed status =>
    obtain ⟨l₃, hremove', hheld₃⟩ := hheld₂.take_pending hlive hrq
    rw [erase_cons_head] at hheld₃
    simp only [hremove', map_some] at h
    obtain ⟨rfl, rfl⟩ := answer_inj h
    refine ⟨p, q', .failed rfl hslot hready hship, ?_⟩
    exact hheld₃.keep (g := complete status) (fun _ => rfl) r
  | endless => simp at h

theorem dcerpcShipNextRequest_refines (h : dcerpcShipNextRequest M rounds b l = some (b', l')) :
    ∃ p' q', Ships M rounds b p q b' p' q' ∧ Held b'.requests l' p' q' := by
  unfold dcerpcShipNextRequest at h
  rw [hheld.head_requestQueue, hheld.head_pending] at h
  cases q with
  | nil =>
    obtain ⟨rfl, rfl⟩ := answer_inj h
    exact ⟨p, [], .idle (.inl rfl), hheld⟩
  | cons r q' =>
    simp only [head?_cons] at h
    cases hslot : b.slot r with
    | none => simp [hslot] at h
    | some slot =>
      simp only [hslot] at h
      split_ifs at h with hwait
      · obtain ⟨rfl, rfl⟩ := answer_inj h
        refine ⟨p, r :: q', .idle (.inr ?_), hheld⟩
        rintro rfl
        simp at hwait
      · refine shipHead_refines hheld hagree rfl hslot ?_ h
        cases p with
        | nil => exact .inr rfl
        | cons a p => exact .inl (by simpa using hwait)

omit hheld in
theorem Ships.agree (h : Ships M rounds b p q b' p' q') : Agree b'.requests p' q' := by
  cases h with
  | idle => exact hagree
  | sent hq =>
    subst hq
    exact hagree.ship.keep keeps_ship _
  | failed hq =>
    subst hq
    exact hagree.drop (retires_complete _)

theorem dcerpcRequestSend_refines {sub : Submission}
    (h : dcerpcRequestSend M rounds sub b l = some (b', l')) :
    Refines M rounds b p q (.request sub) b' l' := by
  obtain ⟨l₁, hadd, hheld₁⟩ := hheld.addEnd_requestQueue
    (.new (sub.request (nextCallId b.callId))) rfl
  have hagree₁ : Agree (b.requests ++ [.new (sub.request (nextCallId b.callId))]) p
      (q ++ [b.requests.length]) := hagree.push rfl rfl
  unfold dcerpcRequestSend Board.next at h
  simp only [hadd, bind_eq_bind, bind_some, bind_eq_some_iff] at h
  obtain ⟨⟨b₂, l₂⟩, hship, h⟩ := h
  obtain ⟨rfl, rfl⟩ := answer_inj h
  obtain ⟨p', q', hships, hheld₂⟩ := dcerpcShipNextRequest_refines hheld₁ hagree₁ hship
  exact ⟨p', q', .request hships, hheld₂.keep (keeps_register sub).freed _⟩

omit hagree in
theorem sendHandled_refines {kind : RequestKind} (hkind : ev.handledKind = some kind)
    (h : sendHandled M kind b l = some (b', l')) : Refines M rounds b p q ev b' l' := by
  obtain ⟨l₁, hadd, hheld₁⟩ := hheld.addEnd_pending (.handled b.callId kind) rfl
  rcases hsend : (onSocket M b.sock).sendRequest b.w with ⟨status, w⟩
  unfold sendHandled Board.next at h
  simp only [hadd, hsend, bind_eq_bind, bind_some] at h
  split_ifs at h with hok
  · obtain ⟨rfl, rfl⟩ := answer_inj h
    obtain rfl := (NtStatus.isOk_iff status).mp hok
    exact ⟨_, q, .handledSent hkind hsend, hheld₁.keep keeps_await.freed _⟩
  · obtain ⟨rfl, rfl⟩ := answer_inj h
    refine ⟨_, q, .handledUnsent hkind hsend ?_, hheld₁⟩
    rintro rfl
    exact hok NtStatus.isOk_ok

theorem requestReply_refines {pkt : NcacnPacket} {slot : Slot}
    (hfound : p.find? (b.matchesCall pkt.callId) = some r) (hslot : b.slot r = some slot)
    (hkind : slot.request.kind = .request)
    (h : requestReply M rounds r pkt slot (verifyResponse M pkt b.security b.w).1
      (received M pkt b) l = some (b', l')) : Refines M rounds b p q (.packet pkt) b' l' := by
  have hr : r ∈ p := mem_of_find?_eq_some hfound
  have hdone : ∀ part, (partOf pkt (verifyResponse M pkt b.security b.w).1).behind
      slot.request.payload = part ∧ (∀ stub, part ≠ .more stub) →
      requestDone M rounds r part.mark (received M pkt b) l = some (b', l') →
      Refines M rounds b p q (.packet pkt) b' l' := by
    intro part hpart h
    obtain ⟨l₁, hremove, hheld₁⟩ :=
      hheld.take_pending (hagree.waiting hr).of_slot (hagree.pending_notMem hr)
    have hagree₁ := hagree.retire_pending (retires_finish part.mark) hr
    unfold requestDone at h
    simp only [hremove, bind_eq_bind, bind_some, bind_eq_some_iff] at h
    obtain ⟨⟨b₂, l₂⟩, hship, h⟩ := h
    obtain ⟨rfl, rfl⟩ := answer_inj h
    obtain ⟨p', q', hships, hheld₂⟩ :=
      dcerpcShipNextRequest_refines (hheld₁.keep part.freed r) hagree₁ hship
    exact ⟨p', q', .finished hfound hslot hkind hpart hships,
      hheld₂.keep runCallback_freed r⟩
  unfold requestReply at h
  cases hpayload : pkt.payload with
  | response stub =>
    simp only [hpayload] at h
    split_ifs at h with hbad hfits hmore
    · exact hdone (.failure _) ⟨by simp only [partOf, hpayload, if_pos hbad, Part.behind], by simp⟩ h
    · refine hdone (.failure .noMemory) ⟨?_, by simp⟩ h
      simp only [partOf, hpayload, if_neg hbad]
      split_ifs <;> exact if_neg (by simpa using hfits)
    · obtain ⟨rfl, rfl⟩ := answer_inj h
      refine ⟨p, q, .fragment hfound hslot hkind ?_, hheld.keep (keeps_append _).freed r⟩
      simp only [partOf, hpayload, if_neg hbad, if_pos hmore]
      exact if_pos (by simpa using hfits)
    · refine hdone (.last _) ⟨?_, by simp⟩ h
      simp only [partOf, hpayload, if_neg hbad, if_neg hmore]
      exact if_pos (by simpa using hfits)
  | _ =>
    simp only [hpayload] at h
    exact hdone (.failure _) ⟨by simp only [partOf, hpayload, Part.behind], by simp⟩ h

theorem dispatchPacket_refines {pkt : NcacnPacket}
    (h : dispatchPacket M rounds pkt (verifyResponse M pkt b.security b.w).1 (received M pkt b) l =
      some (b', l')) : Refines M rounds b p q (.packet pkt) b' l' := by
  have hsearch : Linked.search l.cells ((received M pkt b).matchesCall pkt.callId)
      (received M pkt b).requests.length (l.head .pending) =
        some (p.find? (b.matchesCall pkt.callId)) :=
    hheld.search_pending (b.matchesCall pkt.callId)
  unfold dispatchPacket at h
  rw [hsearch] at h
  cases hfound : p.find? (b.matchesCall pkt.callId) with
  | none =>
    simp only [hfound] at h
    obtain ⟨rfl, rfl⟩ := answer_inj h
    exact ⟨p, q, .unmatched hfound, hheld⟩
  | some r =>
    have hr : r ∈ p := mem_of_find?_eq_some hfound
    obtain ⟨slot, hslot⟩ := isSome_iff_exists.mp (hagree.waiting hr).of_slot
    have hslot' : (received M pkt b).slot r = some slot := hslot
    simp only [hfound, hslot'] at h
    split_ifs at h with hkind
    · exact requestReply_refines hheld hagree hfound hslot hkind h
    · obtain ⟨l₁, hremove, hheld₁⟩ :=
        hheld.take_pending (hagree.waiting hr).of_slot (hagree.pending_notMem hr)
      simp only [hremove, map_some] at h
      obtain ⟨rfl, rfl⟩ := answer_inj h
      exact ⟨p.erase r, q, .answered hfound hslot hkind,
        hheld₁.keep (g := finish) (fun _ => rfl) r⟩

omit hagree in
theorem dcerpcTimeoutHandler_refines (htidy : Waiting b.requests r → l.head .requestQueue ≠ some r)
    (h : dcerpcTimeoutHandler r b l = some (b', l')) :
    Refines M rounds b p q (.timeout r) b' l' := by
  unfold dcerpcTimeoutHandler at h
  cases hslot : b.slot r with
  | none => simp [hslot] at h
  | some slot =>
    simp only [hslot] at h
    split_ifs at h with hdone
    · obtain ⟨rfl, rfl⟩ := answer_inj h
      exact ⟨p, q, .expired hslot hdone, hheld.keep keeps_expire.freed r⟩
    · have hstate : slot.state = .pending := by
        cases hs : slot.state with
        | pending => rfl
        | done => exact absurd hs hdone
      have hq : q.head? ≠ some r := by
        rw [← hheld.head_requestQueue]
        exact htidy ⟨slot, hslot, hstate⟩
      obtain ⟨l₁, hremove, hheld₁⟩ := hheld.remove_pending (isSome_of_eq_some hslot) hq
      simp only [hremove, map_some] at h
      obtain ⟨rfl, rfl⟩ := answer_inj h
      refine ⟨_, _, .timeout hslot hstate hq, ?_⟩
      exact (hheld₁.keep keeps_expire.freed r).keep
        (fun slot => runCallback_freed (slot.complete .ioTimeout)) r

omit hagree in
theorem freeSlot_refines (hp : r ∉ p) (hq : r ∉ q) (h : freeSlot r b l = some (b', l')) :
    b' = b.modify r free ∧ Held b'.requests l' p q := by
  unfold freeSlot at h
  cases hfree : l.free r with
  | none => simp [hfree] at h
  | some l₁ =>
    simp only [hfree, map_some] at h
    obtain ⟨rfl, rfl⟩ := answer_inj h
    exact ⟨rfl, hheld.free hp hq hfree⟩

theorem freeRequest_refines (hlive : (b.slot r).isSome)
    (htidy : b.denies r = false → l.head .requestQueue ≠ some r)
    (h : freeRequest r b l = some (b', l')) : Refines M rounds b p q (.freed r) b' l' := by
  unfold freeRequest at h
  split_ifs at h with hdenies
  · obtain ⟨rfl, rfl⟩ := answer_inj h
    exact ⟨p, q, .quiet rfl rfl rfl rfl (by simp) rfl, hheld⟩
  · have hq : q.head? ≠ some r := by
      rw [← hheld.head_requestQueue]
      exact htidy (by simpa using hdenies)
    obtain ⟨l₁, hremove, hheld₁⟩ := hheld.remove_pending hlive hq
    simp only [hremove, bind_eq_bind, bind_some] at h
    obtain ⟨hnp, hnq, -⟩ := nodup_append.mp hagree.nodup
    obtain ⟨rfl, hheld₂⟩ := freeSlot_refines hheld₁ hnp.not_mem_erase hnq.not_mem_erase h
    exact ⟨_, _, .freed hq, hheld₂⟩

theorem releaseHandled_refines (htidy : b.denies r = false → ¬ Waiting b.requests r)
    (h : releaseHandled r b l = some (b', l')) : Refines M rounds b p q (.released r) b' l' := by
  unfold releaseHandled at h
  split_ifs at h with hdenies
  · cases hslot : b.slot r with
    | none => simp [hslot] at h
    | some slot =>
      simp only [hslot] at h
      split_ifs at h
      obtain ⟨rfl, rfl⟩ := answer_inj h
      exact ⟨p, q, .quiet rfl rfl rfl rfl (by simp) rfl, hheld⟩
  · have hwaiting := htidy (by simpa using hdenies)
    obtain ⟨hp, hq⟩ := hagree.loose hwaiting
    obtain ⟨rfl, hheld'⟩ := freeSlot_refines hheld hp hq h
    exact ⟨p, q, .released hwaiting, hheld'⟩

omit hagree in
theorem dcerpcConnectionDead_eq :
    dcerpcConnectionDead status b l =
      some ({ b with dying := some ⟨status, p, none, p ++ q⟩ }, l) := by
  unfold dcerpcConnectionDead
  rw [hheld.walk_pending, hheld.walk_requestQueue]
  rfl

/-- The request whose callback ran last does not wait. -/
def Settled (b : Board W) : Prop :=
  ∀ d r, b.dying = some d → d.current = some r → ¬ Waiting b.requests r ∧ r < b.requests.length

theorem deadRound_refines (hsettled : Settled b) (h : deadRound b l = some (b', l')) :
    Refines M rounds b p q .deadRound b' l' := by
  unfold deadRound at h
  cases hdying : b.dying with
  | none => simp [hdying] at h
  | some d =>
    simp only [hdying, bind_eq_bind, bind_eq_some_iff] at h
    obtain ⟨⟨b₁, l₁⟩, hfree, h⟩ := h
    obtain ⟨rfl, hheld₁⟩ : b₁ = freedCurrent d b ∧ Held b₁.requests l₁ p q := by
      unfold freeCurrent at hfree
      unfold freedCurrent
      cases hcurrent : d.current with
      | none =>
        simp only [hcurrent] at hfree
        obtain ⟨rfl, rfl⟩ := answer_inj hfree
        exact ⟨rfl, hheld⟩
      | some r =>
        simp only [hcurrent] at hfree
        obtain ⟨hp, hq⟩ := hagree.loose (hsettled d r hdying hcurrent).1
        exact freeSlot_refines hheld hp hq hfree
    unfold failHead at h
    rw [hheld₁.head_pending] at h
    cases p with
    | nil =>
      obtain ⟨rfl, rfl⟩ := answer_inj h
      exact ⟨[], q, .deadEnd hdying rfl, hheld₁⟩
    | cons r p' =>
      simp only [head?_cons] at h
      cases hslot : (freedCurrent d b).slot r with
      | none => simp [hslot] at h
      | some slot =>
        have hrq := hagree.pending_notMem (r := r) mem_cons_self
        obtain ⟨l₂, hremove, hheld₂⟩ := hheld₁.take_pending (isSome_of_eq_some hslot) hrq
        rw [erase_cons_head] at hheld₂
        simp only [hslot, hremove, map_some] at h
        obtain ⟨rfl, rfl⟩ := answer_inj h
        refine ⟨p', q, .deadNext hdying rfl, ?_⟩
        exact hheld₂.keep (fun slot => runCallback_freed (slot.complete d.status)) r

/-! ## The refinement -/

/-- The event takes no request out of memory, or out of a list, that another list has. -/
def Tidy (s : State W) : Event → Prop
  | .freed r => s.1.denies r = false → s.2.head .requestQueue ≠ some r
  | .released r => s.1.denies r = false → ¬ Waiting s.1.requests r
  | .timeout r => Waiting s.1.requests r → s.2.head .requestQueue ≠ some r
  | _ => True

theorem handle_refines (hsettled : Settled b) (henabled : enabled b ev = true)
    (htidy : Tidy (b, l) ev) (h : handle M rounds b l ev = some (b', l')) :
    Refines M rounds b p q ev b' l' := by
  cases ev with
  | request sub => exact dcerpcRequestSend_refines hheld hagree h
  | bind | alterContext => exact sendHandled_refines hheld rfl h
  | auth3 | gensec input security =>
    obtain ⟨rfl, rfl⟩ := answer_inj h
    exact ⟨p, q, .quiet rfl rfl rfl rfl (by simp) rfl, hheld⟩
  | freed r =>
    cases hslot : b.slot r with
    | none => simp [enabled, hslot] at henabled
    | some slot => exact freeRequest_refines hheld hagree (by rw [hslot]; rfl) htidy h
  | released r => exact releaseHandled_refines hheld hagree htidy h
  | packet pkt => exact dispatchPacket_refines hheld hagree h
  | badPacket status =>
    have hdead := dcerpcConnectionDead_eq (b := { b with sock := sockProcessRecv b.sock })
      status hheld
    obtain ⟨rfl, rfl⟩ := answer_inj (hdead.symm.trans h)
    exact ⟨p, q, .badPacket, hheld⟩
  | timeout r => exact dcerpcTimeoutHandler_refines hheld htidy h
  | lost status =>
    have hdead := dcerpcConnectionDead_eq (b := { b with sock := { b.sock with alive := false } })
      status hheld
    obtain ⟨rfl, rfl⟩ := answer_inj (hdead.symm.trans h)
    exact ⟨p, q, .lost, hheld⟩
  | deadRound => exact deadRound_refines hheld hagree hsettled h

end Refines

/-! ## Requests only move forward -/

/-- A request that waits has not failed, and memory was found for its payload. -/
def Slot.Sound (slot : Slot) : Prop :=
  slot.state = .pending → slot.status = .ok ∧ slot.request.payload.length < Ndr.maxTallocSize

/-- A request keeps its call id and kind, and stays done, freed and sound. -/
structure Slot.Later (slot slot' : Slot) : Prop where
  callId : slot'.request.callId = slot.request.callId
  kind : slot'.request.kind = slot.request.kind
  done : slot.state = .done → slot'.state = .done
  freed : slot.freed = true → slot'.freed = true
  sound : slot.Sound → slot'.Sound

theorem Slot.Later.refl (slot : Slot) : slot.Later slot := ⟨rfl, rfl, id, id, id⟩

theorem Slot.Later.trans {s₁ s₂ s₃ : Slot} (h : s₁.Later s₂) (h' : s₂.Later s₃) : s₁.Later s₃ :=
  ⟨h'.callId.trans h.callId, h'.kind.trans h.kind, h'.done ∘ h.done, h'.freed ∘ h.freed,
    h'.sound ∘ h.sound⟩

/-- No request disappears, and each one is later than it was. -/
def Evolves (rs rs' : List Slot) : Prop :=
  ∀ (r : Ref) (slot : Slot), rs[r]? = some slot → ∃ slot', rs'[r]? = some slot' ∧ slot.Later slot'

variable (rs : List Slot) (slot : Slot)

theorem Evolves.refl : Evolves rs rs := fun _ slot h => ⟨slot, h, .refl slot⟩

theorem Evolves.trans {rs₁ rs₂ rs₃ : List Slot} (h : Evolves rs₁ rs₂) (h' : Evolves rs₂ rs₃) :
    Evolves rs₁ rs₃ := by
  intro r slot hslot
  obtain ⟨slot₂, hslot₂, hlater⟩ := h r slot hslot
  obtain ⟨slot₃, hslot₃, hlater'⟩ := h' r slot₂ hslot₂
  exact ⟨slot₃, hslot₃, hlater.trans hlater'⟩

theorem Evolves.modify (r : Ref) (hg : ∀ slot, rs[r]? = some slot → slot.Later (g slot)) :
    Evolves rs (rs.modify r g) := by
  intro a slot hslot
  by_cases ha : a = r
  · subst ha
    exact ⟨g slot, getElem?_modify_self hslot g, hg slot hslot⟩
  · exact ⟨slot, (getElem?_modify_of_ne ha g).trans hslot, .refl slot⟩

theorem Evolves.push : Evolves rs (rs ++ [slot]) := by
  intro r slot' hslot
  refine ⟨slot', ?_, .refl slot'⟩
  rwa [List.getElem?_append_left (List.getElem?_eq_some_iff.mp hslot).1]

theorem Evolves.waiting {rs rs' : List Slot} (h : Evolves rs rs') (hr : r < rs.length)
    (hwaiting : Waiting rs' r) : Waiting rs r := by
  have hslot : rs[r]? = some rs[r] := List.getElem?_eq_getElem hr
  obtain ⟨slot', hslot', hlater⟩ := h r _ hslot
  rw [waiting_iff_of_slot hslot'] at hwaiting
  rw [waiting_iff_of_slot hslot]
  exact fun hover => hwaiting (hover.imp hlater.done hlater.freed)

theorem Evolves.length_le {rs rs' : List Slot} (h : Evolves rs rs') : rs.length ≤ rs'.length := by
  by_contra hlt
  have hslot : rs[rs'.length]? = some rs[rs'.length] :=
    getElem?_eq_getElem (Nat.not_le.mp hlt)
  obtain ⟨slot', hslot', -⟩ := h _ _ hslot
  simp at hslot'

theorem Slot.later_runCallback : slot.Later slot.runCallback := by
  unfold runCallback
  split_ifs
  · exact ⟨rfl, rfl, id, id, id⟩
  · exact .refl slot

theorem Slot.later_complete :
    slot.Later (slot.complete status) := ⟨rfl, rfl, fun _ => rfl, id, fun _ => nofun⟩

theorem Slot.later_completed : slot.Later (slot.complete status).runCallback :=
  (slot.later_complete status).trans (later_runCallback _)

theorem Slot.later_free : slot.Later slot.free := ⟨rfl, rfl, id, fun _ => rfl, id⟩

theorem Part.later (part : Part) (slot : Slot) : slot.Later (part.mark slot).finish := by
  cases part <;> exact ⟨rfl, rfl, fun _ => rfl, id, fun _ => nofun⟩

theorem payloadFits_iff {payload stub : Bytes} (h : payload.length < Ndr.maxTallocSize) :
    payloadFits payload stub = true ↔ (payload ++ stub).length < Ndr.maxTallocSize := by
  rw [payloadFits, length_append, Bool.or_eq_true, decide_eq_true_eq, List.isEmpty_iff]
  exact or_iff_right_of_imp fun hnil => by simpa [hnil] using h

/-- A fragment is appended only if there is memory for it. -/
theorem Part.later_append {slot : Slot} {part : Part} {stub : Bytes}
    (h : part.behind slot.request.payload = .more stub) : slot.Later (slot.append stub) := by
  refine ⟨rfl, rfl, id, id, fun hsound hstate => ?_⟩
  obtain ⟨hok, hlt⟩ := hsound hstate
  refine ⟨hok, (payloadFits_iff hlt).mp ?_⟩
  unfold behind at h
  split at h <;> (try split_ifs at h) <;> cases h
  assumption

/-- The same requests, each of them later. -/
structure Advances (rs rs' : List Slot) : Prop where
  evolves : Evolves rs rs'
  length : rs'.length = rs.length

theorem Advances.refl : Advances rs rs := ⟨.refl rs, rfl⟩

theorem Advances.trans {rs₁ rs₂ rs₃ : List Slot} (h : Advances rs₁ rs₂) (h' : Advances rs₂ rs₃) :
    Advances rs₁ rs₃ := ⟨h.evolves.trans h'.evolves, h'.length.trans h.length⟩

/-- Every request was there before. -/
theorem Advances.back {rs rs' : List Slot} {now : Slot} (h : Advances rs rs')
    (hnow : rs'[r]? = some now) : ∃ old, rs[r]? = some old ∧ old.Later now := by
  have hlt : r < rs.length := by
    rw [← h.length]
    exact (List.getElem?_eq_some_iff.mp hnow).1
  obtain ⟨now', hnow', hlater⟩ := h.evolves r _ (List.getElem?_eq_getElem hlt)
  obtain rfl := some.inj (hnow.symm.trans hnow')
  exact ⟨_, List.getElem?_eq_getElem hlt, hlater⟩

theorem Advances.modify (r : Ref) (hg : ∀ slot, rs[r]? = some slot → slot.Later (g slot)) :
    Advances rs (rs.modify r g) :=
  ⟨.modify rs r hg, length_modify ..⟩

theorem Ships.advances (h : Ships M rounds b p q b' p' q') : Advances b.requests b'.requests := by
  cases h with
  | idle => exact .refl _
  | sent =>
    exact .modify _ _ fun _ _ => ⟨rfl, rfl, id, id, fun hsound hstate => ⟨rfl, (hsound hstate).2⟩⟩
  | failed => exact .modify _ _ fun slot _ => slot.later_complete _

theorem Ships.callId (h : Ships M rounds b p q b' p' q') : b'.callId = b.callId := by
  cases h <;> rfl

theorem Ships.dying (h : Ships M rounds b p q b' p' q') : b'.dying = b.dying := by
  cases h <;> rfl

theorem freedCurrent_advances (d : Dying) (b : Board W) :
    Advances b.requests (freedCurrent d b).requests := by
  unfold freedCurrent
  split
  · exact .refl _
  · exact .modify _ _ fun slot _ => slot.later_free

theorem newSlot_handled {kind : RequestKind} (h : ev.handledKind = some kind) :
    newSlot b ev = some (.handled b.callId kind) := by
  cases ev with
  | bind | alterContext => rw [← some.inj h]; rfl
  | _ => exact absurd h (by simp [Event.handledKind])

/-- The requests after a step are those before it and the one it allocates, each of them
later. -/
theorem Step.grows (h : Step M rounds b p q ev b' p' q') :
    Advances (b.requests ++ (newSlot b ev).toList) b'.requests := by
  have hnone : ∀ {rs : List Slot}, newSlot b ev = none → Advances b.requests rs →
      Advances (b.requests ++ (newSlot b ev).toList) rs := by
    intro rs hnew h
    rwa [hnew, toList_none, append_nil]
  cases h with
  | request hships => exact hships.advances.trans (.modify _ _ fun _ _ => ⟨rfl, rfl, id, id, id⟩)
  | handledSent hkind =>
    rw [newSlot_handled hkind]
    exact .modify _ _ fun _ _ => ⟨rfl, rfl, id, id, id⟩
  | handledUnsent hkind =>
    rw [newSlot_handled hkind]
    exact .refl _
  | quiet hnew hrequests =>
    rw [hrequests]
    exact hnone hnew (.refl _)
  | freed | released => exact hnone rfl (.modify _ _ fun slot _ => slot.later_free)
  | unmatched | badPacket | lost => exact hnone rfl (.refl _)
  | answered =>
    exact hnone rfl (.modify _ _ fun _ _ => ⟨rfl, rfl, fun _ => rfl, id, fun _ => nofun⟩)
  | fragment _ hslot _ hpart =>
    refine hnone rfl (.modify _ _ fun slot hget => ?_)
    obtain rfl := some.inj ((liveSlot_eq_some.mp hslot).1.symm.trans hget)
    exact Part.later_append hpart
  | expired => exact hnone rfl (.modify _ _ fun _ _ => ⟨rfl, rfl, id, id, id⟩)
  | @finished _ _ _ part _ _ _ _ _ _ _ hships =>
    exact hnone rfl (((Advances.modify _ _ fun slot _ => part.later slot).trans
      hships.advances).trans (.modify _ _ fun slot _ => slot.later_runCallback))
  | timeout =>
    exact hnone rfl ((Advances.modify (g := expire) _ _ fun _ _ => ⟨rfl, rfl, id, id, id⟩).trans
      (.modify _ _ fun slot _ => slot.later_completed _))
  | deadEnd => exact hnone rfl (freedCurrent_advances _ _)
  | deadNext =>
    exact hnone rfl ((freedCurrent_advances _ _).trans
      (.modify _ _ fun slot _ => slot.later_completed _))

theorem Step.evolves (h : Step M rounds b p q ev b' p' q') : Evolves b.requests b'.requests := by
  refine Evolves.trans ?_ h.grows.evolves
  cases newSlot b ev with
  | none =>
    rw [toList_none, append_nil]
    exact .refl _
  | some slot => exact .push _ slot

theorem newSlot_sound {slot : Slot} (h : newSlot b ev = some slot) : slot.Sound := by
  have hempty : length ([] : Bytes) < Ndr.maxTallocSize := by decide
  unfold newSlot at h
  split at h
  · exact some.inj h ▸ fun _ => ⟨rfl, hempty⟩
  · obtain ⟨kind, -, rfl⟩ := map_eq_some_iff.mp h
    exact fun _ => ⟨rfl, hempty⟩

theorem Step.sound (h : Step M rounds b p q ev b' p' q') (hsound : ∀ slot ∈ b.requests, slot.Sound) :
    ∀ slot ∈ b'.requests, slot.Sound := by
  intro slot hmem
  obtain ⟨r, hr⟩ := List.mem_iff_getElem?.mp hmem
  obtain ⟨old, hold, hlater⟩ := h.grows.back hr
  refine hlater.sound ?_
  rcases mem_append.mp (List.mem_of_getElem? hold) with hmem | hnew
  · exact hsound old hmem
  · exact newSlot_sound (mem_toList.mp hnew)

theorem freedCurrent_callId (d : Dying) (b : Board W) : (freedCurrent d b).callId = b.callId := by
  unfold freedCurrent
  split <;> rfl

theorem Step.callId (h : Step M rounds b p q ev b' p' q') :
    b'.callId = ev.counter b.callId := by
  have hhandled : ∀ {kind}, ev.handledKind = some kind → ev.counter b.callId = b.callId := by
    intro kind hkind
    cases ev <;> first | rfl | simp [Event.handledKind] at hkind
  cases h with
  | request hships | finished _ _ _ _ hships => exact hships.callId
  | handledSent hkind | handledUnsent hkind => exact (hhandled hkind).symm
  | quiet _ _ _ _ _ hcallId => exact hcallId
  | deadEnd | deadNext => exact freedCurrent_callId _ _
  | _ => rfl

/-! ## The invariant -/

theorem Settled.freedCurrent (hsettled : Settled b) (hagree : Agree b.requests p q) {d : Dying}
    (hdying : b.dying = some d) : Agree (freedCurrent d b).requests p q := by
  unfold Requests.freedCurrent
  cases hcurrent : d.current with
  | none => exact hagree
  | some r => exact hagree.retire_loose retires_free (hsettled d r hdying hcurrent).1

theorem Step.agree (h : Step M rounds b p q ev b' p' q') (hagree : Agree b.requests p q)
    (hsettled : Settled b) : Agree b'.requests p' q' := by
  cases h with
  | request hships => exact (hships.agree (hagree.push rfl rfl)).keep (keeps_register _) _
  | handledSent => exact (hagree.push_pending rfl rfl).keep keeps_await _
  | handledUnsent => exact hagree.push_pending rfl rfl
  | quiet _ hrequests =>
    rwa [hrequests]
  | freed => exact hagree.retire retires_free _
  | released hr => exact hagree.retire_loose retires_free hr
  | unmatched | badPacket | lost => exact hagree
  | answered hfound =>
    exact hagree.retire_pending (retires_finish id) (mem_of_find?_eq_some hfound)
  | fragment => exact hagree.keep (keeps_append _) _
  | finished hfound _ _ _ hships =>
    refine (hships.agree ?_).keep keeps_runCallback _
    exact hagree.retire_pending (retires_finish _) (mem_of_find?_eq_some hfound)
  | expired => exact hagree.keep keeps_expire _
  | timeout => exact (hagree.keep keeps_expire _).retire (retires_completed _) _
  | deadEnd hdying hp =>
    subst hp
    exact hsettled.freedCurrent hagree hdying
  | @deadNext d r p' hdying hp =>
    subst hp
    have hretired := (hsettled.freedCurrent hagree hdying).retire_pending
      (retires_completed d.status) mem_cons_self
    rwa [erase_cons_head] at hretired

theorem Settled.evolves (hsettled : Settled b) (hdying : b'.dying = b.dying)
    (hevolves : Evolves b.requests b'.requests) : Settled b' := by
  intro d r hd hr
  obtain ⟨hwaiting, hlt⟩ := hsettled d r (hdying ▸ hd) hr
  exact ⟨fun h => hwaiting (hevolves.waiting hlt h), Nat.lt_of_lt_of_le hlt hevolves.length_le⟩

/-- The loop of `dcerpc_connection_dead` starts with no request. -/
theorem Settled.start {d : Dying} (hdying : b.dying = some d) (hcurrent : d.current = none) :
    Settled b := by
  intro d' r hd hr
  obtain rfl := some.inj (hdying.symm.trans hd)
  rw [hcurrent] at hr
  cases hr

theorem Step.settled (h : Step M rounds b p q ev b' p' q') (hagree : Agree b.requests p q)
    (hsettled : Settled b) : Settled b' := by
  have hevolves := h.evolves
  cases h with
  | request hships | finished _ _ _ _ hships => exact hsettled.evolves hships.dying hevolves
  | quiet _ _ _ hdying => exact hsettled.evolves hdying hevolves
  | badPacket | lost => exact .start rfl rfl
  | deadEnd => exact fun d r hd => absurd hd (by simp)
  | deadNext hdying hp =>
    intro d' a hd ha
    obtain rfl := some.inj hd
    obtain rfl := some.inj ha
    refine ⟨(retires_completed _).not_waiting _ _, ?_⟩
    obtain ⟨slot, hslot⟩ := (hagree.waiting (hp ▸ List.mem_cons_self)).get
    exact Nat.lt_of_lt_of_le (List.getElem?_eq_some_iff.mp hslot).1 hevolves.length_le
  | _ => exact hsettled.evolves rfl hevolves

/-- The pointers are those of two lists that agree with the board. -/
structure Inv (s : State W) (p q : List Ref) : Prop where
  held : Held s.1.requests s.2 p q
  agree : Agree s.1.requests p q
  settled : Settled s.1

theorem inv_init (w : W) : Inv (init w) [] [] where
  held :=
    { threads :=
        { head := fun i => by cases i <;> rfl
          segment := fun i => by cases i <;> trivial
          nodup := fun i => by cases i <;> exact nodup_nil
          disjoint := fun i _ _ h => by cases i <;> simp at h
          loose := fun _ _ h => absurd h (by simp [init]) }
      cells := fun _ => rfl }
  agree := ⟨nodup_nil, fun r => ⟨fun h => absurd h (by simp), fun ⟨slot, hslot, _⟩ => by
    simp [init, Board.init, liveSlot] at hslot⟩⟩
  settled := fun _ _ h => absurd h (by simp [init, Board.init])

theorem requests_step {s s' : State W} {o : Unit}
    (h : (requests M rounds).step s ev = some (o, s')) :
    enabled s.1 ev = true ∧ handle M rounds s.1 s.2 ev = some s' := by
  unfold requests at h
  simp only at h
  split_ifs at h with henabled
  simp only [map_eq_some_iff, Prod.mk.injEq] at h
  obtain ⟨s'', hs'', -, rfl⟩ := h
  exact ⟨henabled, hs''⟩

/-- **The refinement.** A tidy step of the machine in memory is a step of the lists. -/
theorem requests_refines {s s' : State W} {o : Unit} (hinv : Inv s p q) (htidy : Tidy s ev)
    (h : (requests M rounds).step s ev = some (o, s')) :
    ∃ p' q', Step M rounds s.1 p q ev s'.1 p' q' ∧ Inv s' p' q' := by
  obtain ⟨henabled, hhandle⟩ := requests_step h
  obtain ⟨p', q', hstep, hheld⟩ :=
    handle_refines hinv.held hinv.agree hinv.settled henabled htidy hhandle
  exact ⟨p', q', hstep, hheld, hstep.agree hinv.agree hinv.settled,
    hstep.settled hinv.agree hinv.settled⟩

/-- **The rule for runs.** If a new connection has `X`, and steps that meet `C` keep it and have
`P`, then every step of a run whose steps are tidy and meet `C` has `P`. -/
theorem eachStep_of_steps {X : Board W → List Ref → List Ref → Prop}
    {C : State W → Event → Prop} {P : State W → Event → State W → Prop} {w : W}
    (hinit : X (.init w) [] [])
    (hstep : ∀ {s s' : State W} {ev : Event} {p q p' q' : List Ref}, Inv s p q → Inv s' p' q' →
      X s.1 p q → enabled s.1 ev = true → C s ev → Step M rounds s.1 p q ev s'.1 p' q' →
      X s'.1 p' q' ∧ P s ev s') {events : List Event}
    (hcond : (requests M rounds).EachStep (fun s ev _ _ => Tidy s ev ∧ C s ev) (init w) events) :
    (requests M rounds).EachStep (fun s ev _ s' => P s ev s') (init w) events := by
  refine Machine.EachStep.of_inv (I := fun s => ∃ p q, Inv s p q ∧ X s.1 p q) ?_ events (init w)
    ⟨[], [], inv_init w, hinit⟩ hcond
  rintro s ev o s' ⟨p, q, hinv, hX⟩ h ⟨htidy, hC⟩
  obtain ⟨p', q', hs, hinv'⟩ := requests_refines hinv htidy h
  obtain ⟨hX', hP⟩ := hstep hinv hinv' hX (requests_step h).1 hC hs
  exact ⟨⟨p', q', hinv', hX'⟩, hP⟩

/-- In a state that a tidy run has reached, the pointers are those of two lists, and the requests
that wait are sound. -/
theorem inv_of_run {w : W} {events : List Event} {o : Option Unit} {s : State W}
    (htidy : (requests M rounds).EachStep (fun s ev _ _ => Tidy s ev) (init w) events)
    (hrun : (requests M rounds).run (init w) events = some (o, s)) :
    ∃ p q, Inv s p q ∧ ∀ slot ∈ s.1.requests, slot.Sound := by
  refine htidy.reached (I := fun s => ∃ p q, Inv s p q ∧ ∀ slot ∈ s.1.requests, slot.Sound) ?_
    ⟨[], [], inv_init w, fun _ hmem => absurd hmem not_mem_nil⟩ hrun
  rintro s ev o s' ⟨p, q, hinv, hsound⟩ hstep htidy
  obtain ⟨p', q', hs, hinv'⟩ := requests_refines hinv htidy hstep
  exact ⟨p', q', hinv', hs.sound hsound⟩

end OpenvasSmb.Dcerpc.Requests

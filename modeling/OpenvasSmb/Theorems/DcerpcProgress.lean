import OpenvasSmb.Kit.Lists
import OpenvasSmb.Theorems.DcerpcCalls

/-!
# What keeps a connection going

A queued request is shipped when another one is completed by an answer, so a queue with
nothing pending waits for ever: `queue_has_pending` says what must not happen for that.
An answer is read only while there is a read credit for it: `reading_stays_enabled` says
when the credits cover the requests that were sent.
-/

namespace OpenvasSmb.Dcerpc.Requests

open Kit List Option Slot

variable {W : Type} {M : Mechanism W} {rounds : Nat} {b b' : Board W} {p q p' q' : List Ref}
  {ev : Event} {r : Ref} {slot : Slot} {s : State W} {n : UInt32}

/-! ## The queue -/

/-- Outside the loop of `dcerpc_connection_dead`, something is pending if something is
queued. -/
def QueueMoves (s : State W) : Prop :=
  s.1.dying = none → s.2.head .requestQueue ≠ none → s.2.head .pending ≠ none

/-- The last pending request goes only in a way that looks at the queue, or with an empty queue: it
is not timed out or freed, and has no `recv_handler`. When an answer ships the first of several
queued requests, the send does not fail; and the loop of `dcerpc_connection_dead` ends with an empty
queue. -/
def QueueServed (M : Mechanism W) (rounds : Nat) (s : State W) : Event → Prop
  | .freed r => s.1.dying = none → Sole s.2 .pending r → s.2.head .requestQueue = none
  | .timeout r => Sole s.2 .pending r → s.2.head .requestQueue = none
  | .packet pkt =>
    ∀ r slot, Sole s.2 .pending r → s.1.slot r = some slot →
      slot.request.callId = pkt.callId →
      (slot.request.kind ≠ .request → s.2.head .requestQueue = none) ∧
      ∀ a req, firstQueued s = some req → ¬ Sole s.2 .requestQueue a →
        s.2.head .requestQueue = some a →
        Sendable M rounds s.1 (verifyResponse M pkt s.1.security s.1.w).2 req
  | .deadRound => s.2.head .pending = none → s.2.head .requestQueue = none
  | _ => True

theorem matchesCall_eq_true {callId : UInt32} (hslot : b.slot r = some slot)
    (h : b.matchesCall callId r = true) : slot.request.callId = callId := by
  rw [Board.matchesCall, (liveSlot_eq_some.mp hslot).1] at h
  exact beq_iff_eq.mp h

/-- Shipping leaves something pending, if it does not fail for the first of several queued
requests while nothing is. -/
theorem Ships.moves (h : Ships M rounds b p q b' p' q')
    (hsend : p = [] → ∀ r q₁ slot, q = r :: q₁ → q₁ ≠ [] → b.slot r = some slot →
      Sendable M rounds b b.w slot.request) (hq' : q' ≠ []) : p' ≠ [] := by
  cases h with
  | idle hidle => exact hidle.resolve_left hq'
  | sent => exact cons_ne_nil _ _
  | failed hq hslot _ hship =>
    intro hp
    have hfailed := congrArg (·.2.1) hship
    exact absurd hfailed (hsend hp _ _ _ hq hq' hslot _)

/-- A request that leaves the pending list from a connection whose queue moves. -/
theorem moves_of_erase (hmoves : q ≠ [] → p ≠ []) (hsole : p = [r] → q = []) {q' : List Ref}
    (hq : q' ≠ []) (hsub : q'.Sublist q) : p.erase r ≠ [] := by
  have hne : q ≠ [] := by
    rintro rfl
    exact hq (sublist_nil.mp hsub)
  intro hp
  rcases erase_eq_nil_iff.mp hp with hp | hp
  · exact hmoves hne hp
  · exact hne (hsole hp)

theorem Step.moves (hinv : Inv s p q) (h : Step M rounds s.1 p q ev b' p' q')
    (hmoves : s.1.dying = none → q ≠ [] → p ≠ []) (hserved : QueueServed M rounds s ev) :
    b'.dying = none → q' ≠ [] → p' ≠ [] := by
  have hqueue : s.2.head .requestQueue = none → q = [] := by
    rw [hinv.held.head_requestQueue]
    exact head?_eq_none_iff.mp
  cases h with
  | request hships =>
    intro hdying
    refine hships.moves ?_
    intro hp r q₁ _ hq hq₁
    -- nothing was pending, so only the new request is queued
    have hempty : q = [] := by
      by_contra hne
      exact hmoves (hships.dying.symm.trans hdying) hne hp
    rw [hempty] at hq
    exact absurd (cons.inj hq).2.symm hq₁
  | handledSent | handledUnsent => exact fun _ _ => by simp
  | quiet _ _ _ hdying =>
    rwa [hdying]
  | @freed r =>
    intro hdying hq
    refine moves_of_erase (hmoves hdying) ?_ hq erase_sublist
    intro hp
    exact hqueue (hserved hdying (hinv.held.sole_pending.mpr hp))
  | released | unmatched | fragment | expired => exact hmoves
  | @answered pkt r slot hfound hslot hkind =>
    intro hdying hq
    refine moves_of_erase (hmoves hdying) ?_ hq (List.Sublist.refl q)
    intro hp
    have hcall := matchesCall_eq_true hslot (find?_some hfound)
    exact hqueue ((hserved r slot (hinv.held.sole_pending.mpr hp) hslot hcall).1 hkind)
  | @finished pkt r slot _ b₁ _ _ hfound hslot _ _ hships =>
    intro hdying
    refine hships.moves ?_
    intro hp a q₁ slot' hq hq₁ hslot'
    have hr : r ∈ p := mem_of_find?_eq_some hfound
    have hsole : p = [r] := (erase_eq_nil_iff.mp hp).resolve_left (ne_nil_of_mem hr)
    have hcall := matchesCall_eq_true hslot (find?_some hfound)
    have hnext := (hserved r slot (hinv.held.sole_pending.mpr hsole) hslot hcall).2
    refine hnext a _ (firstQueued_received hinv hr hq hslot') ?_ ?_
    · rw [hinv.held.sole_requestQueue, hq]
      exact fun h => hq₁ (cons.inj h).2
    · rw [hinv.held.head_requestQueue, hq]
      rfl
  | badPacket | lost | deadNext => exact fun hdying => absurd hdying (some_ne_none _)
  | @timeout r slot =>
    intro hdying hq
    refine moves_of_erase (hmoves hdying) ?_ hq erase_sublist
    intro hp
    exact hqueue (hserved (hinv.held.sole_pending.mpr hp))
  | deadEnd _ hp =>
    intro _ hq
    have hhead : s.2.head .pending = none := by rw [hinv.held.head_pending, hp]; rfl
    exact absurd (hqueue (hserved hhead)) hq

/-- **A queue with nothing pending is never left behind** in a run in which the last pending request
goes only in a way that looks at the queue, or with an empty queue. -/
theorem queue_has_pending (M : Mechanism W) (rounds : Nat) (w : W) (evs : List Event)
    (hcond : (requests M rounds).EachStep (fun s ev _ _ => Tidy s ev ∧ QueueServed M rounds s ev)
      (init w) evs) :
    (requests M rounds).EachStep (fun _ _ _ s' => QueueMoves s') (init w) evs := by
  refine eachStep_of_steps (X := fun b p q => b.dying = none → q ≠ [] → p ≠ []) ?_ ?_ hcond
  · exact fun _ hq => absurd rfl hq
  · intro s s' ev p q p' q' hinv hinv' hmoves _ hserved hstep
    have hmoves' := hstep.moves hinv hmoves hserved
    refine ⟨hmoves', ?_⟩
    unfold QueueMoves
    rw [hinv'.held.head_requestQueue, hinv'.held.head_pending]
    simpa using hmoves'

/-- Two synchronous calls, the first of which is answered. -/
theorem queue_has_pending_of_answer :
    (requests twoLegMechanism 0).EachStep (fun _ _ _ s' => QueueMoves s') (init 0)
      [.request syncCall, .request syncCall, .packet (answer 2)] := by
  refine queue_has_pending twoLegMechanism 0 0 _ ?_
  intro o s h
  refine ⟨⟨trivial, trivial⟩, ?_⟩
  obtain ⟨rfl, rfl⟩ := answer_inj h
  intro o' s' h'
  refine ⟨⟨trivial, trivial⟩, ?_⟩
  obtain ⟨rfl, rfl⟩ := answer_inj h'
  intro o'' s'' h''
  refine ⟨⟨trivial, ?_⟩, trivial⟩
  intro r slot hr hslot hcall
  obtain rfl : 0 = r := some.inj hr.1
  refine ⟨fun hkind => absurd ?_ hkind, fun a req _ hsole hhead => absurd ?_ hsole⟩
  · obtain rfl := some.inj hslot
    rfl
  · obtain rfl : 1 = a := some.inj hhead
    exact ⟨rfl, rfl⟩

/-- The only pending request times out, or is a bind that is answered: the call that was
queued behind it is not sent. -/
theorem queue_left_behind :
    ((requests twoLegMechanism 0).run (init 0)
        [.request syncCall, .request syncCall, .timeout 0]).map
      (fun r => (r.2.1.dying, r.2.2.head .pending, r.2.2.head .requestQueue)) =
        some (none, none, some 1) ∧
    ((requests twoLegMechanism 0).run (init 0)
        [.bind, .request syncCall, .packet (bindAckWith [])]).map
      (fun r => (r.2.1.dying, r.2.2.head .pending, r.2.2.head .requestQueue)) =
        some (none, none, some 1) ∧
    ¬ (requests twoLegMechanism 0).EachStep (fun _ _ _ s' => QueueMoves s') (init 0)
      [.request syncCall, .request syncCall, .timeout 0] := by
  refine ⟨by decide, by decide, ?_⟩
  intro h
  obtain ⟨-, h⟩ := h _ _ rfl
  obtain ⟨-, h⟩ := h _ _ rfl
  obtain ⟨hmoves, -⟩ := h _ _ rfl
  exact hmoves rfl (by decide) rfl

/-! ## Read credits -/

/-- On a live socket, outside the loop of `dcerpc_connection_dead`, receiving is enabled while a
request that was sent is pending. -/
def ReadingEnabled (s : State W) : Prop :=
  ∃ p, IsDList s.2 .pending p ∧ (s.1.dying = none → s.1.sock.alive = true →
    ∀ r ∈ p, ∀ slot, s.1.requests[r]? = some slot → slot.sent = true →
      1 ≤ s.1.sock.pendingReads.toNat ∧ s.1.sock.recvDisable = false)

/-- The packet that is counted down for was counted up before. -/
def NoUnderflow (s : State W) : Event → Prop
  | .packet _ => s.1.sock.pendingReads ≠ 0
  | .badPacket _ => s.1.sock.pendingReads ≠ 0
  | _ => True

/-- A request that was sent and waits for its answer. -/
def Slot.outstanding (slot : Slot) : Bool :=
  slot.sent && decide (slot.state = .pending) && !slot.freed

/-- The number of requests that were sent and wait for an answer. -/
def Board.outstanding (b : Board W) : Nat := b.requests.countP Slot.outstanding

/-- A request that was sent waits for the packet. -/
def Awaited (s : State W) (pkt : NcacnPacket) : Prop :=
  ∃ r slot, Linked.search s.2.cells (s.1.matchesCall pkt.callId) s.1.requests.length
    (s.2.head .pending) = some (some r) ∧ s.1.slot r = some slot ∧ slot.sent = true

/-- A packet that no request waits for comes only when there are credits to spare, and the counter
is not at its end when a request is submitted. -/
def CreditsLast (s : State W) : Event → Prop
  | .request _ => s.1.sock.pendingReads ≠ 0xFFFFFFFF
  | .bind => s.1.sock.pendingReads ≠ 0xFFFFFFFF
  | .alterContext => s.1.sock.pendingReads ≠ 0xFFFFFFFF
  | .packet pkt => Awaited s pkt ∨ s.1.outstanding < s.1.sock.pendingReads.toNat
  | _ => True

/-- Receiving is disabled without a credit, queued requests are not sent, and the credits suffice.
-/
structure Credit (b : Board W) (q : List Ref) : Prop where
  disabled : b.sock.recvDisable = true ↔ b.sock.pendingReads = 0
  unsent : ∀ r ∈ q, ∀ slot, b.requests[r]? = some slot → slot.sent = false
  enough : b.dying = none → b.outstanding ≤ b.sock.pendingReads.toNat

theorem Slot.outstanding_eq_true :
    slot.outstanding = true ↔
      slot.sent = true ∧ slot.state = .pending ∧ slot.freed = false := by
  simp [outstanding, and_assoc]

theorem toNat_sub_one (h : n ≠ 0) : (n - 1).toNat + 1 = n.toNat := by
  have hne : n.toNat ≠ 0 := fun heq => h (UInt32.toNat_inj.mp heq)
  have hone : (1 : UInt32).toNat = 1 := rfl
  have hlt := n.toNat_lt
  rw [UInt32.toNat_sub]
  omega

theorem sub_one_ne_max (h : n ≠ 0) : n - 1 ≠ 0xFFFFFFFF := by
  intro heq
  have hpred := toNat_sub_one h
  have hlt := n.toNat_lt
  rw [heq] at hpred
  have hmax : (0xFFFFFFFF : UInt32).toNat = 4294967295 := rfl
  omega

theorem sockSendRead_disabled {sock : SockPrivate} (hroom : sock.pendingReads ≠ 0xFFFFFFFF)
    (h : sock.recvDisable = true ↔ sock.pendingReads = 0) :
    (sockSendRead sock).recvDisable = true ↔ (sockSendRead sock).pendingReads = 0 := by
  have hne : sock.pendingReads + 1 ≠ 0 := by
    intro heq
    have hsucc := toNat_add_one hroom
    rw [heq] at hsucc
    exact absurd hsucc.symm (Nat.succ_ne_zero _)
  change (if sock.pendingReads + 1 = 1 then false else sock.recvDisable) = true ↔
    sock.pendingReads + 1 = 0
  split_ifs with hone
  · simp [hne]
  · have hzero : sock.pendingReads ≠ 0 := by
      intro heq
      rw [heq] at hone
      exact hone rfl
    simp [h, hzero, hne]

theorem sockProcessRecv_disabled {sock : SockPrivate} (hreads : sock.pendingReads ≠ 0)
    (h : sock.recvDisable = true ↔ sock.pendingReads = 0) :
    (sockProcessRecv sock).recvDisable = true ↔ (sockProcessRecv sock).pendingReads = 0 := by
  change (if sock.pendingReads - 1 = 0 then true else sock.recvDisable) = true ↔
    sock.pendingReads - 1 = 0
  split_ifs with hzero
  · simp [hzero]
  · simp [h, hreads, hzero]

namespace Credit

variable (h : Credit b q)
include h

theorem congr (hrequests : b'.requests = b.requests) (hsock : b'.sock = b.sock)
    (hdying : b'.dying = b.dying) : Credit b' q := by
  refine ⟨by rw [hsock]; exact h.disabled, by rw [hrequests]; exact h.unsent, ?_⟩
  rw [hdying, Board.outstanding, hrequests, hsock]
  exact h.enough

theorem modify (r : Ref) {g : Slot → Slot} (hsent : ∀ slot, (g slot).sent = slot.sent)
    (hg : ∀ slot, (g slot).outstanding = true → slot.outstanding = true) :
    Credit (b.modify r g) q := by
  refine ⟨h.disabled, ?_, fun hdying => ?_⟩
  · intro a ha slot' hslot'
    obtain ⟨-, hslot⟩ | ⟨slot, rfl, hslot, rfl⟩ := exists_of_modify hslot'
    · exact h.unsent a ha slot' hslot
    · rw [hsent]
      exact h.unsent a ha slot hslot
  · exact Nat.le_trans (countP_modify_le hg b.requests r) (h.enough hdying)

theorem sublist (hsub : q'.Sublist q) : Credit b q' :=
  ⟨h.disabled, fun r hr => h.unsent r (hsub.subset hr), h.enough⟩

theorem push (slot : Slot) (hslot : slot.sent = false) :
    Credit (b.push slot) (q ++ [b.next]) := by
  refine ⟨h.disabled, ?_, fun hdying => ?_⟩
  · intro r hr slot' hslot'
    rw [push_requests] at hslot'
    by_cases hlt : r < b.requests.length
    · have hrq : r ∈ q := by
        rcases mem_append.mp hr with hr | hr
        · exact hr
        · exact absurd (mem_singleton.mp hr) (Nat.ne_of_lt hlt)
      rw [getElem?_append_left hlt] at hslot'
      exact h.unsent r hrq slot' hslot'
    · rw [getElem?_append_right (Nat.not_lt.mp hlt)] at hslot'
      rwa [mem_singleton.mp (mem_of_getElem? hslot')]
  · have hcount : (b.push slot).outstanding = b.outstanding := by
      simp [Board.outstanding, outstanding, hslot]
    rw [hcount]
    exact h.enough hdying

theorem send (hr : r ∉ q) (g : Slot → Slot) (hroom : b.sock.pendingReads ≠ 0xFFFFFFFF) :
    Credit ({ b with sock := sockSendRead b.sock }.modify r g) q := by
  refine ⟨sockSendRead_disabled hroom h.disabled, ?_, fun hdying => ?_⟩
  · intro a ha slot hslot
    have hne : a ≠ r := by
      rintro rfl
      exact hr ha
    exact h.unsent a ha slot ((getElem?_modify_of_ne hne g).symm.trans hslot)
  · have hcount := countP_modify_le_succ outstanding g b.requests r
    have hreads := toNat_add_one hroom
    have henough := h.enough hdying
    calc (b.requests.modify r g).countP outstanding
        ≤ b.outstanding + 1 := hcount
      _ ≤ b.sock.pendingReads.toNat + 1 := Nat.succ_le_succ henough
      _ = (b.sock.pendingReads + 1).toNat := hreads.symm

/-- A packet is taken, and with it the request that waited for it, unless there is a
credit to spare. -/
theorem receive {pkt : NcacnPacket} {g : Slot → Slot} (hreads : b.sock.pendingReads ≠ 0)
    (hslot : b.requests[r]? = some slot) (hsent : ∀ slot, (g slot).sent = slot.sent)
    (hg : ∀ slot, (g slot).outstanding = false)
    (hcover : slot.outstanding = true ∨ b.outstanding < b.sock.pendingReads.toNat) :
    Credit ((received M pkt b).modify r g) q := by
  have hmodify := h.modify r hsent fun slot hout => absurd hout (by simp [hg slot])
  refine ⟨sockProcessRecv_disabled hreads h.disabled, hmodify.unsent, fun hdying => ?_⟩
  have hpred := toNat_sub_one hreads
  have hle : (b.requests.modify r g).countP outstanding + 1 ≤ b.sock.pendingReads.toNat := by
    rcases hcover with hout | hlt
    · rw [countP_modify_lt hslot hout (hg slot)]
      exact h.enough hdying
    · have hcount : (b.requests.modify r g).countP outstanding ≤ b.outstanding :=
        countP_modify_le (fun slot hout => absurd hout (by simp [hg slot])) b.requests r
      omega
  change (b.requests.modify r g).countP outstanding ≤ (b.sock.pendingReads - 1).toNat
  omega

end Credit

theorem Slot.not_outstanding (h : slot.state = .done ∨ slot.freed = true) :
    slot.outstanding = false := by
  rcases h with h | h <;> simp [outstanding, h]

theorem Slot.outstanding_complete (status : NtStatus) (slot : Slot) :
    (slot.complete status).outstanding = false := not_outstanding (.inl rfl)

theorem Slot.runCallback_sent (slot : Slot) : slot.runCallback.sent = slot.sent := by
  unfold runCallback
  split_ifs <;> rfl

theorem Slot.outstanding_runCallback (slot : Slot) :
    slot.runCallback.outstanding = slot.outstanding := by
  rw [outstanding, slot.runCallback_sent, slot.runCallback_state, slot.runCallback_freed]
  rfl

section

variable (h : Credit b q)
include h

theorem Credit.free (r : Ref) : Credit (b.modify r free) q := by
  refine h.modify r (fun _ => rfl) fun slot hout => ?_
  rw [not_outstanding (.inr rfl)] at hout
  exact absurd hout (by decide)

theorem Credit.freedCurrent (d : Dying) : Credit (freedCurrent d b) q := by
  unfold Requests.freedCurrent
  split
  · exact h
  · exact h.free _

theorem Credit.complete (r : Ref) (status : NtStatus) :
    Credit (b.modify r fun slot => (slot.complete status).runCallback) q := by
  refine h.modify r (fun slot => runCallback_sent _) fun slot hout => ?_
  rw [outstanding_runCallback, outstanding_complete] at hout
  exact absurd hout (by decide)

end

theorem Ships.credit (h : Ships M rounds b p q b' p' q') (hagree : Agree b.requests p q)
    (hcredit : Credit b q) (hroom : b.sock.pendingReads ≠ 0xFFFFFFFF) : Credit b' q' := by
  cases h with
  | idle => exact hcredit
  | @sent r _ _ _ _ _ hq =>
    subst hq
    obtain ⟨-, hnodup, -⟩ := nodup_append.mp hagree.nodup
    have hr : r ∉ q' := (nodup_cons.mp hnodup).1
    have htail := hcredit.sublist (sublist_cons_self r q')
    exact (htail.send hr ship hroom).congr rfl rfl rfl
  | @failed r _ _ _ status _ _ hq =>
    subst hq
    have htail := hcredit.sublist (sublist_cons_self r q')
    refine (htail.modify r (g := complete status) (fun _ => rfl) ?_).congr rfl rfl rfl
    intro slot hout
    rw [outstanding_complete] at hout
    exact absurd hout (by decide)

theorem Credit.nothing_outstanding (h : Credit b q) (hagree : Agree b.requests [] q) :
    b.outstanding = 0 := by
  refine countP_eq_zero.mpr fun slot hslot hout => ?_
  obtain ⟨hsent, hstate, hfreed⟩ := outstanding_eq_true.mp hout
  obtain ⟨r, hr⟩ := mem_iff_getElem?.mp hslot
  have hq : r ∈ q := (hagree.listed r).mpr ⟨slot, liveSlot_eq_some.mpr ⟨hr, hfreed⟩, hstate⟩
  rw [h.unsent r hq slot hr] at hsent
  exact absurd hsent (by decide)

/-- What the credits cover when a packet arrives for a pending request. -/
theorem CreditsLast.cover {pkt : NcacnPacket} (hinv : Inv s p q)
    (hlast : CreditsLast s (.packet pkt)) (hfound : p.find? (s.1.matchesCall pkt.callId) = some r)
    (hslot : s.1.slot r = some slot) :
    slot.outstanding = true ∨ s.1.outstanding < s.1.sock.pendingReads.toNat := by
  rcases hlast with ⟨a, slot', hsearch, hslot', hsent⟩ | hlt
  · rw [hinv.held.search_pending, hfound] at hsearch
    obtain rfl := some.inj (some.inj hsearch)
    obtain rfl := some.inj (hslot.symm.trans hslot')
    obtain ⟨hget, hfreed⟩ := liveSlot_eq_some.mp hslot
    have hwaiting := hinv.agree.waiting (mem_of_find?_eq_some hfound)
    exact .inl (outstanding_eq_true.mpr ⟨hsent, hwaiting.state_eq hget, hfreed⟩)
  · exact .inr hlt

theorem room_of_handled {kind : RequestKind} (hkind : ev.handledKind = some kind)
    (hlast : CreditsLast s ev) : s.1.sock.pendingReads ≠ 0xFFFFFFFF := by
  cases ev with
  | bind | alterContext => exact hlast
  | _ => exact absurd hkind (by simp [Event.handledKind])

theorem Credit.noUnderflow (h : Credit s.1 q) (henabled : enabled s.1 ev = true) :
    NoUnderflow s ev := by
  have hreads : s.1.sock.recvDisable = false → s.1.sock.pendingReads ≠ 0 := by
    intro henable hzero
    rw [h.disabled.mpr hzero] at henable
    exact absurd henable (by decide)
  cases ev with
  | packet pkt => exact hreads (by simp [enabled] at henabled; exact henabled.2.2)
  | badPacket status => exact hreads (by simp [enabled] at henabled; exact henabled.1.2.2)
  | _ => exact trivial

theorem Step.credit (hinv : Inv s p q) (h : Step M rounds s.1 p q ev b' p' q')
    (henabled : enabled s.1 ev = true) (hcredit : Credit s.1 q) (hlast : CreditsLast s ev) :
    Credit b' q' := by
  have hnext : s.1.next ∉ q := fun hmem =>
    hinv.agree.next_notMem (mem_append_right p hmem)
  cases h with
  | @request sub _ _ _ hships =>
    have hpush : Credit (Board.push { s.1 with callId := nextCallId s.1.callId }
        (.new (sub.request (nextCallId s.1.callId)))) (q ++ [s.1.next]) :=
      (hcredit.push (.new (sub.request (nextCallId s.1.callId))) rfl).congr rfl rfl rfl
    have hships' := hships.credit (hinv.agree.push rfl rfl) hpush hlast
    exact hships'.modify _ (fun _ => rfl) fun _ hout => hout
  | @handledSent _ kind _ hkind =>
    have hroom : s.1.sock.pendingReads ≠ 0xFFFFFFFF := room_of_handled hkind hlast
    have hpush := (hcredit.push (.handled s.1.callId kind) rfl).sublist
      (sublist_append_left q _)
    exact (hpush.send hnext await hroom).congr rfl rfl rfl
  | handledUnsent =>
    exact ((hcredit.push _ rfl).sublist (sublist_append_left q _)).congr rfl rfl rfl
  | quiet _ hrequests hsock hdying => exact hcredit.congr hrequests hsock hdying
  | freed => exact (hcredit.free _).sublist erase_sublist
  | released => exact hcredit.free _
  | unmatched hnone =>
    have hreads : s.1.sock.pendingReads ≠ 0 := hcredit.noUnderflow henabled
    have hpred := toNat_sub_one hreads
    refine ⟨sockProcessRecv_disabled hreads hcredit.disabled, hcredit.unsent, fun _ => ?_⟩
    have hlt := hlast.resolve_left ?_
    · change s.1.outstanding ≤ (s.1.sock.pendingReads - 1).toNat
      omega
    · rintro ⟨r, slot, hsearch, -⟩
      rw [hinv.held.search_pending, hnone] at hsearch
      exact absurd (some.inj hsearch) (by simp)
  | answered hfound hslot =>
    have hreads := hcredit.noUnderflow henabled
    have hget := (liveSlot_eq_some.mp hslot).1
    refine (hcredit.receive hreads hget (g := finish) (fun _ => rfl) ?_
      (CreditsLast.cover hinv hlast hfound hslot)).congr rfl rfl rfl
    exact fun slot => not_outstanding (.inl rfl)
  | @fragment pkt r slot stub =>
    -- the credit of the packet is given back for the next fragment
    have hreads : s.1.sock.pendingReads ≠ 0 := hcredit.noUnderflow henabled
    have hback : s.1.sock.pendingReads - 1 + 1 = s.1.sock.pendingReads := by
      rw [UInt32.sub_add_cancel]
    have hread : Credit
        { received M pkt s.1 with sock := sockSendRead (sockProcessRecv s.1.sock) } q := by
      refine ⟨?_, hcredit.unsent, ?_⟩
      · exact sockSendRead_disabled (sub_one_ne_max hreads)
          (sockProcessRecv_disabled hreads hcredit.disabled)
      · intro hdying
        have henough := hcredit.enough hdying
        change s.1.outstanding ≤ (s.1.sock.pendingReads - 1 + 1).toNat
        rwa [hback]
    exact hread.modify r (fun _ => rfl) fun _ hout => hout
  | @finished pkt r slot part b₁ _ _ hfound hslot _ _ hships =>
    have hreads : s.1.sock.pendingReads ≠ 0 := hcredit.noUnderflow henabled
    have hget := (liveSlot_eq_some.mp hslot).1
    have hreceive : Credit ((received M pkt s.1).modify r fun slot => (part.mark slot).finish) q :=
      hcredit.receive hreads hget part.sent
        (fun slot => not_outstanding (.inl rfl)) (CreditsLast.cover hinv hlast hfound hslot)
    have hagree := hinv.agree.retire_pending (retires_finish part.mark) (mem_of_find?_eq_some hfound)
    have hships' := hships.credit hagree hreceive (sub_one_ne_max hreads)
    refine hships'.modify r runCallback_sent fun slot hout => ?_
    rwa [outstanding_runCallback] at hout
  | badPacket =>
    refine ⟨sockProcessRecv_disabled (hcredit.noUnderflow henabled) hcredit.disabled,
      hcredit.unsent, ?_⟩
    exact fun hdying => absurd hdying (some_ne_none _)
  | lost =>
    refine ⟨hcredit.disabled, hcredit.unsent, ?_⟩
    exact fun hdying => absurd hdying (some_ne_none _)
  | expired => exact hcredit.modify _ (fun _ => rfl) fun _ hout => hout
  | @timeout r slot =>
    have hexpired : Credit (s.1.modify r expire) q :=
      hcredit.modify r (fun _ => rfl) fun _ hout => hout
    exact (hexpired.complete r .ioTimeout).sublist erase_sublist
  | @deadEnd d hdying hp =>
    have hfreed := hcredit.freedCurrent d
    have hagree := hinv.settled.freedCurrent hinv.agree hdying
    rw [hp] at hagree
    refine ⟨hfreed.disabled, hfreed.unsent, fun _ => ?_⟩
    have hnone : Board.outstanding { freedCurrent d s.1 with dying := none } = 0 :=
      hfreed.nothing_outstanding hagree
    rw [hnone]
    exact Nat.zero_le _
  | @deadNext d r =>
    have hfailed : Credit { freedCurrent d s.1 with dying := some { d with current := some r } } q :=
      ⟨(hcredit.freedCurrent d).disabled, (hcredit.freedCurrent d).unsent,
        fun hdying => absurd hdying (some_ne_none _)⟩
    exact hfailed.complete r d.status

theorem Credit.readingEnabled (hinv : Inv s p q) (h : Credit s.1 q) : ReadingEnabled s := by
  refine ⟨p, hinv.held.isDList .pending, fun hdying _ r hr slot hslot hsent => ?_⟩
  obtain ⟨slot', hlive, hstate⟩ := hinv.agree.waiting hr
  obtain ⟨hslot', hfreed⟩ := liveSlot_eq_some.mp hlive
  obtain rfl := some.inj (hslot.symm.trans hslot')
  have hpos : 0 < s.1.outstanding := by
    refine countP_pos_iff.mpr ⟨slot, mem_of_getElem? hslot, ?_⟩
    exact outstanding_eq_true.mpr ⟨hsent, hstate, hfreed⟩
  have hreads := Nat.lt_of_lt_of_le hpos (h.enough hdying)
  refine ⟨hreads, ?_⟩
  by_contra hdisabled
  have hzero := h.disabled.mp (by simpa using hdisabled)
  rw [hzero] at hreads
  exact absurd hreads (by decide)

/-- **Reading stays enabled** while a request that was sent is pending, and the counter of the
pending reads is never counted down from 0, in every run in which the credits last. -/
theorem reading_stays_enabled (M : Mechanism W) (rounds : Nat) (w : W) (evs : List Event)
    (hcond : (requests M rounds).EachStep (fun s ev _ _ => Tidy s ev ∧ CreditsLast s ev)
      (init w) evs) :
    (requests M rounds).EachStep (fun s ev _ s' => ReadingEnabled s' ∧ NoUnderflow s ev)
      (init w) evs := by
  refine eachStep_of_steps (X := fun b _ q => Credit b q)
    (P := fun s ev s' => ReadingEnabled s' ∧ NoUnderflow s ev) ?_ ?_ hcond
  · exact ⟨iff_of_true rfl rfl, fun r hr => absurd hr (by simp), fun _ => Nat.le_refl 0⟩
  · intro s s' ev p q p' q' hinv hinv' hcredit henabled hlast hstep
    have hcredit' := hstep.credit hinv henabled hcredit hlast
    exact ⟨hcredit', hcredit'.readingEnabled hinv', hcredit.noUnderflow henabled⟩

/-- A response in two fragments. -/
theorem reading_stays_enabled_of_fragments :
    (requests twoLegMechanism 0).EachStep (fun s ev _ s' => ReadingEnabled s' ∧ NoUnderflow s ev)
      (init 0) [.request asyncCall, .packet { answer 2 with last := false }, .packet (answer 2)] := by
  refine reading_stays_enabled twoLegMechanism 0 0 _ ?_
  intro o s h
  have hroom : (init 0).1.sock.pendingReads ≠ 0xFFFFFFFF := by decide
  refine ⟨⟨trivial, hroom⟩, ?_⟩
  obtain ⟨rfl, rfl⟩ := answer_inj h
  intro o' s' h'
  refine ⟨⟨trivial, .inl ⟨0, _, rfl, rfl, rfl⟩⟩, ?_⟩
  obtain ⟨rfl, rfl⟩ := answer_inj h'
  intro o'' s'' h''
  exact ⟨⟨trivial, .inl ⟨0, _, rfl, rfl, rfl⟩⟩, trivial⟩

/-- The first of two calls times out. Its response comes all the same, in two fragments, and takes
both credits: the second call waits. -/
theorem reading_disabled_by_late_response :
    ((requests twoLegMechanism 0).run (init 0)
        [.request asyncCall, .request asyncCall, .timeout 0,
          .packet { answer 2 with last := false }, .packet (answer 2)]).map
      (fun r => (r.2.1.dying, r.2.1.sock, Linked.walk r.2.2.cells 2 (r.2.2.head .pending),
        r.2.1.requests.map (·.sent))) =
        some (none, ⟨true, 0, true⟩, some [1], [true, true]) ∧
    ¬ (requests twoLegMechanism 0).EachStep
      (fun s ev _ s' => ReadingEnabled s' ∧ NoUnderflow s ev) (init 0)
      [.request asyncCall, .request asyncCall, .timeout 0,
        .packet { answer 2 with last := false }, .packet (answer 2)] := by
  refine ⟨by decide, ?_⟩
  intro h
  obtain ⟨-, h⟩ := h _ _ rfl
  obtain ⟨-, h⟩ := h _ _ rfl
  obtain ⟨-, h⟩ := h _ _ rfl
  obtain ⟨-, h⟩ := h _ _ rfl
  obtain ⟨⟨⟨p, hlist, henabled⟩, -⟩, -⟩ := h _ _ rfl
  obtain rfl := hlist.eq_of_walk (show Linked.walk _ 2 _ = some [1] from rfl)
  have hreads := (henabled rfl rfl 1 mem_cons_self _ rfl rfl).1
  exact absurd hreads (by decide)

end OpenvasSmb.Dcerpc.Requests

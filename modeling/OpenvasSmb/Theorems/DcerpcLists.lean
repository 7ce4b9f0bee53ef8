import OpenvasSmb.Dcerpc.RequestSteps
import OpenvasSmb.Theorems.DcerpcLevel

/-!
# The lists of requests

`pending` and `request_queue` are well-formed lists that hold exactly the requests that are
neither done nor freed, in every run in which two things do not happen: a request is timed out or
freed while it is the first of `request_queue` (the head of the other list is named there), and
the context of a bind or alter context is freed while its request is pending (nothing unlinks it).
The loss of the connection leaves both lists empty if `request_queue` was empty at the end of the
loop, which never looks at it. The condition is exact.
-/

namespace OpenvasSmb.Dcerpc.Requests

open Kit List Option

variable {W : Type} {i : Chain} {ev : Event} {r : Ref} {l : RequestLists} {s s' : State W}

/-- `pending` and `request_queue` are doubly linked lists without a common request; a request is in
one of them exactly if it is neither done nor freed. -/
def WellFormed (s : State W) : Prop :=
  ∃ p q, IsDList s.2 .pending p ∧ IsDList s.2 .requestQueue q ∧ (∀ r ∈ p, r ∉ q) ∧
    ∀ (r : Ref) (slot : Slot), s.1.requests[r]? = some slot →
      if slot.state = .done ∨ slot.freed = true then r ∉ p ∧ r ∉ q else r ∈ p ∨ r ∈ q

/-- After `dcerpc_connection_dead` both lists are empty, and the requests that were in them have
failed (or were freed by their owners). -/
def LossHandled (s s' : State W) : Prop :=
  ∀ d, s.1.dying = some d → s'.1.dying = none →
    s'.2.head .pending = none ∧ s'.2.head .requestQueue = none ∧
      ∀ r ∈ d.before, ∃ slot, s'.1.requests[r]? = some slot ∧
        (slot.freed = true ∨ slot.state = .done ∧ slot.status ≠ .ok)

/-- The condition on a step: the event is tidy, and `dcerpc_connection_dead` returns only
with an empty queue. -/
def Orderly (s : State W) (ev : Event) : Prop :=
  Tidy s ev ∧ (ev = .deadRound → s.2.head .pending = none → s.2.head .requestQueue = none)

/-! ## Orderly steps -/

theorem Inv.wellFormed {p q : List Ref} (h : Inv s p q) : WellFormed s := by
  refine ⟨p, q, h.held.isDList .pending, h.held.isDList .requestQueue,
    fun r hr => h.agree.pending_notMem hr, ?_⟩
  intro r slot hslot
  have hwaiting := waiting_iff_of_slot hslot
  split_ifs with hover
  · exact h.agree.loose fun hr => hwaiting.mp hr hover
  · exact mem_append.mp ((h.agree.listed r).mpr (hwaiting.mpr hover))

/-- A request that is over has failed, or is freed. -/
def Slot.NotSucceeded (slot : Slot) : Prop :=
  slot.state = .done → slot.freed = false → slot.status ≠ .ok

/-- While the connection dies, the requests that were in its lists do not succeed. -/
def Failing (b : Board W) : Prop :=
  ∀ d, b.dying = some d → d.status ≠ .ok ∧
    ∀ r ∈ d.before, ∃ slot, b.requests[r]? = some slot ∧ slot.NotSucceeded

theorem Failing.modify {b : Board W} (h : Failing b) (r : Ref) {g : Slot → Slot}
    (hg : ∀ slot, b.requests[r]? = some slot → slot.NotSucceeded → (g slot).NotSucceeded) :
    Failing (b.modify r g) := by
  intro d hd
  obtain ⟨hstatus, hbefore⟩ := h d hd
  refine ⟨hstatus, fun a ha => ?_⟩
  obtain ⟨slot, hslot, hfail⟩ := hbefore a ha
  by_cases har : a = r
  · subst har
    exact ⟨g slot, getElem?_modify_self hslot g, hg slot hslot hfail⟩
  · exact ⟨slot, (getElem?_modify_of_ne har g).trans hslot, hfail⟩

theorem Failing.congr {b b' : Board W} (h : Failing b) (hrequests : b'.requests = b.requests)
    (hdying : b'.dying = b.dying) : Failing b' := by
  unfold Failing
  rwa [hrequests, hdying]

theorem Failing.push {b : Board W} (h : Failing b) (slot : Slot) : Failing (b.push slot) := by
  intro d hd
  obtain ⟨hstatus, hbefore⟩ := h d hd
  refine ⟨hstatus, fun r hr => ?_⟩
  obtain ⟨slot', hslot, hfail⟩ := hbefore r hr
  refine ⟨slot', ?_, hfail⟩
  rwa [push_requests, List.getElem?_append_left (List.getElem?_eq_some_iff.mp hslot).1]

theorem Failing.complete {b : Board W} (h : Failing b) (r : Ref) {status : NtStatus}
    (hstatus : status ≠ .ok) : Failing (b.modify r (Slot.complete status)) :=
  h.modify r fun _ _ _ _ _ => hstatus

theorem Failing.free {b : Board W} (h : Failing b) (r : Ref) : Failing (b.modify r Slot.free) :=
  h.modify r fun _ _ _ _ hfreed => absurd hfreed (by simp [Slot.free])

variable {M : Mechanism W} {rounds : Nat} {b b' : Board W} {p q p' q' : List Ref}

theorem Ships.failing (h : Ships M rounds b p q b' p' q') (hagree : Agree b.requests p q)
    (hfailing : Failing b) : Failing b' := by
  cases h with
  | idle => exact hfailing
  | sent hq =>
    subst hq
    -- the request is still waiting for its answer
    refine (hfailing.congr rfl rfl).modify _ ?_
    intro slot hslot _ hdone
    have hstate := (hagree.ship.waiting mem_cons_self).state_eq hslot
    exact absurd (hstate.symm.trans hdone) (by decide)
  | failed _ _ _ hship => exact (hfailing.congr rfl rfl).complete _ (sendFragments_failed hship)

theorem Failing.freedCurrent (hfailing : Failing b) (d : Dying) : Failing (freedCurrent d b) := by
  unfold Requests.freedCurrent
  split
  · exact hfailing
  · exact hfailing.free _

theorem failing_of_none (h : b.dying = none) : Failing b :=
  fun d hd => absurd (h.symm.trans hd) (by simp)

theorem failing_of_waiting {d : Dying} (hdying : b.dying = some d) (hstatus : d.status ≠ .ok)
    (hbefore : ∀ r ∈ d.before, Waiting b.requests r) : Failing b := by
  intro d' hd'
  obtain rfl := some.inj (hdying.symm.trans hd')
  refine ⟨hstatus, fun r hr => ?_⟩
  obtain ⟨slot, hslot, hstate⟩ := hbefore r hr
  exact ⟨slot, (liveSlot_eq_some.mp hslot).1, fun hdone => absurd (hstate.symm.trans hdone) (by decide)⟩

theorem Step.failing (h : Step M rounds b p q ev b' p' q') (hagree : Agree b.requests p q)
    (henabled : enabled b ev = true) (hfailing : Failing b) : Failing b' := by
  have hlive : ∀ {c : Bool}, (b.dying.isNone && c) = true → b.dying = none := by
    intro c hc
    exact isNone_iff_eq_none.mp (Bool.and_eq_true_iff.mp hc).1
  cases h with
  | request hships =>
    refine (hships.failing (hagree.push rfl rfl) ?_).modify _ fun _ _ hfail => hfail
    exact .push (hfailing.congr rfl rfl) _
  | handledSent =>
    exact ((hfailing.push _).congr rfl rfl).modify _ fun _ _ hfail => hfail
  | handledUnsent => exact (hfailing.push _).congr rfl rfl
  | quiet _ hrequests _ hdying => exact hfailing.congr hrequests hdying
  | freed | released => exact hfailing.free _
  | unmatched | answered | fragment | expired | timeout => exact failing_of_none (hlive henabled)
  | finished _ _ _ _ hships => exact failing_of_none (hships.dying.trans (hlive henabled))
  | badPacket | lost =>
    refine failing_of_waiting rfl ?_ fun r hr => (hagree.listed r).mp hr
    rintro rfl
    simp [enabled] at henabled
  | deadEnd => exact failing_of_none rfl
  | @deadNext d r p' hdying =>
    obtain ⟨hstatus, -⟩ := hfailing d hdying
    have hfreed : Failing { freedCurrent d b with dying := some { d with current := some r } } := by
      intro d' hd'
      obtain rfl := some.inj hd'
      have hsame : (freedCurrent d b).dying = some d := by
        unfold Requests.freedCurrent
        split <;> exact hdying
      exact hfailing.freedCurrent d d hsame
    refine hfreed.modify r fun slot _ _ => ?_
    unfold Slot.runCallback
    split_ifs
    · exact fun _ _ => hstatus
    · exact fun _ _ => hstatus

theorem Step.ends {d : Dying} (h : Step M rounds b p q ev b' p' q') (hdying : b.dying = some d)
    (hnone : b'.dying = none) :
    ev = .deadRound ∧ p = [] ∧ p' = [] ∧ q' = q ∧ b'.requests = (freedCurrent d b).requests := by
  have hkept : b'.dying ≠ b.dying := by
    rw [hnone, hdying]
    simp
  cases h with
  | request hships | finished _ _ _ _ hships => exact absurd hships.dying hkept
  | quiet _ _ _ hsame => exact absurd hsame hkept
  | badPacket | lost => simp at hnone
  | deadEnd hd hp =>
    obtain rfl := some.inj (hdying.symm.trans hd)
    exact ⟨rfl, hp, rfl, rfl, rfl⟩
  | deadNext => exact absurd hnone (by simp [Board.modify])
  | _ => exact absurd rfl hkept

theorem Step.lossHandled (h : Step M rounds s.1 p q ev s'.1 p' q') (hinv : Inv s p q)
    (hinv' : Inv s' p' q') (horderly : Orderly s ev) (hfailing : Failing s.1) :
    LossHandled s s' := by
  intro d hd hnone
  obtain ⟨hev, rfl, rfl, rfl, hrequests⟩ := h.ends hd hnone
  have hq : q'.head? = none := by
    rw [← hinv.held.head_requestQueue]
    exact horderly.2 hev hinv.held.head_pending
  obtain rfl := head?_eq_none_iff.mp hq
  refine ⟨hinv'.held.head_pending, hinv'.held.head_requestQueue, fun r hr => ?_⟩
  have hsame : (freedCurrent d s.1).dying = some d := by
    unfold Requests.freedCurrent
    split <;> exact hd
  obtain ⟨slot, hslot, hfail⟩ := (hfailing.freedCurrent d d hsame).2 r hr
  rw [← hrequests] at hslot
  refine ⟨slot, hslot, ?_⟩
  -- both lists are empty, so no request waits
  have hover : slot.state = .done ∨ slot.freed = true := by
    by_contra hover
    simpa using (hinv'.agree.listed r).mpr ((waiting_iff_of_slot hslot).mpr hover)
  cases hfreed : slot.freed with
  | true => exact .inl rfl
  | false =>
    have hdone : slot.state = .done := by simpa [hfreed] using hover
    exact .inr ⟨hdone, hfail hdone hfreed⟩

/-! ## Steps that are not orderly -/

theorem IsDList.isSome {xs : List Ref} (h : IsDList l i xs) (hr : l.head i = some r) :
    r ∈ xs ∧ ∃ c, l.cells r = some c := by
  have hmem : r ∈ xs := mem_of_mem_head? (h.head.symm.trans hr)
  exact ⟨hmem, h.segment.isSome hmem⟩

theorem IsDList.next {xs : List Ref} (h : IsDList l i xs) {a : Ref} {c : Kit.Links Ref}
    (ha : a ∈ xs) (hc : l.cells a = some c) (hr : c.next = some r) : ∃ c', l.cells r = some c' := by
  obtain ⟨us, vs, rfl⟩ := append_of_mem ha
  have hat := h.segment.at_cell
  obtain rfl := some.inj (hc.symm.trans hat)
  have hmem : r ∈ vs := mem_of_mem_head? hr
  exact h.segment.isSome (mem_append_right us (mem_cons_of_mem a hmem))

theorem WellFormed.head_cell (h : WellFormed s) (hr : s.2.head i = some r) :
    ∃ c, s.2.cells r = some c := by
  obtain ⟨p, q, hp, hq, -, -⟩ := h
  cases i with
  | pending => exact (hp.isSome hr).2
  | requestQueue => exact (hq.isSome hr).2

theorem WellFormed.head_waiting (h : WellFormed s) {slot : Slot}
    (hr : s.2.head .requestQueue = some r) (hslot : s.1.requests[r]? = some slot) :
    slot.state ≠ .done := by
  obtain ⟨p, q, hp, hq, -, hrequests⟩ := h
  intro hdone
  have hout := hrequests r slot hslot
  rw [if_pos (.inl hdone)] at hout
  exact hout.2 (hq.isSome hr).1

theorem WellFormed.next_cell (h : WellFormed s) {a : Ref} {c : Kit.Links Ref}
    (ha : Waiting s.1.requests a) (hc : s.2.cells a = some c) (hr : c.next = some r) :
    ∃ c', s.2.cells r = some c' := by
  obtain ⟨p, q, hp, hq, -, hrequests⟩ := h
  obtain ⟨slot, hslot⟩ := ha.get
  have hmem := hrequests a slot hslot
  rw [if_neg ((waiting_iff_of_slot hslot).mp ha)] at hmem
  rcases hmem with hmem | hmem
  · exact hp.next hmem hc hr
  · exact hq.next hmem hc hr

theorem free_eq {l' : RequestLists} (h : l.free r = some l') :
    l'.cells r = none ∧ l'.head = l.head ∧ ∀ a, a ≠ r → l'.cells a = l.cells a := by
  unfold Linked.free at h
  split at h
  · simp at h
  · obtain rfl := some.inj h
    exact ⟨by simp, rfl, fun a ha => by simp [ha]⟩

/-- Freeing the first request of the queue leaves a head pointer to no cell. -/
theorem not_wellFormed_of_freed (hhead : l.head .requestQueue = some r)
    (hdenies : b.denies r = false) (h : freeRequest r b l = some s') : ¬ WellFormed s' := by
  intro hwell
  unfold freeRequest at h
  rw [hdenies] at h
  simp only [Bool.false_eq_true, if_false, bind_eq_bind, bind_eq_some_iff] at h
  obtain ⟨l₁, hremove, h⟩ := h
  obtain ⟨l₂, hfree, rfl⟩ := map_eq_some_iff.mp h
  obtain ⟨hnone, hheads, -⟩ := free_eq hfree
  have hkept := Linked.remove_head hremove (j := .requestQueue) (by decide)
  obtain ⟨c, hc⟩ := hwell.head_cell (i := .requestQueue)
    (r := r) ((congrFun hheads _).trans (hkept.trans hhead))
  exact absurd (hnone.symm.trans hc) (by simp)

/-- Freeing a bind or alter context that waits leaves a pointer to no cell, in the cell
before it or in the head of its list. -/
theorem not_wellFormed_of_released (hinv : Inv s p q) (hwaiting : Waiting s.1.requests r)
    (hdenies : s.1.denies r = false) (h : releaseHandled r s.1 s.2 = some s') :
    ¬ WellFormed s' := by
  intro hwell
  unfold releaseHandled at h
  rw [hdenies] at h
  obtain ⟨l', hfree, rfl⟩ := map_eq_some_iff.mp h
  obtain ⟨hnone, hheads, hcells⟩ := free_eq hfree
  obtain ⟨i, hi⟩ : ∃ i, r ∈ chains p q i := by
    rcases mem_append.mp ((hinv.agree.listed r).mpr hwaiting) with hp | hq
    · exact ⟨.pending, hp⟩
    · exact ⟨.requestQueue, hq⟩
  obtain ⟨xs, ys, hsplit, -⟩ := hinv.held.threads.split hi
  rcases eq_nil_or_concat xs with rfl | ⟨us, a, rfl⟩
  · -- the first one of its list
    have hhead : s.2.head i = some r := by rw [hinv.held.threads.head i, hsplit]; rfl
    obtain ⟨c, hc⟩ := hwell.head_cell ((congrFun hheads i).trans hhead)
    exact absurd (hnone.symm.trans hc) (by simp)
  · have hsegment := hinv.held.threads.segment i
    have hnodup := hinv.held.threads.nodup i
    rw [hsplit, concat_eq_append, append_assoc] at hsegment hnodup
    have har : a ≠ r := by
      have hapart := (nodup_append.mp hnodup).2.1
      simp only [singleton_append, nodup_cons, mem_cons, not_or] at hapart
      exact hapart.1.1
    have hcell := hsegment.at_cell
    have ha : a ∈ chains p q i := by
      rw [hsplit]
      simp
    have hwait : Waiting s.1.requests a := by
      refine (hinv.agree.listed a).mp ?_
      cases i with
      | pending => exact mem_append_left q ha
      | requestQueue => exact mem_append_right p ha
    have hwait' : Waiting (s.1.modify r .free).requests a :=
      (waiting_modify_of_ne har .free).mpr hwait
    obtain ⟨c, hc⟩ := hwell.next_cell hwait' ((hcells a har).trans hcell) rfl
    exact absurd (hnone.symm.trans hc) (by simp)

/-- The first request of the queue is done after its timeout, and still there. -/
theorem not_wellFormed_of_timeout (hhead : l.head .requestQueue = some r)
    (hwaiting : Waiting b.requests r) (h : dcerpcTimeoutHandler r b l = some s') :
    ¬ WellFormed s' := by
  intro hwell
  obtain ⟨slot, hslot, hstate⟩ := hwaiting
  have hslot' : b.slot r = some slot := hslot
  have hne : slot.state ≠ .done := by rw [hstate]; decide
  unfold dcerpcTimeoutHandler at h
  simp only [hslot', hne, if_false] at h
  obtain ⟨l', hremove, rfl⟩ := map_eq_some_iff.mp h
  have hkept := Linked.remove_head hremove (j := .requestQueue) (by decide)
  have hdone := getElem?_modify_self
    (getElem?_modify_self (liveSlot_eq_some.mp hslot).1 .expire)
    fun slot => (slot.complete .ioTimeout).runCallback
  refine hwell.head_waiting (hkept.trans hhead) hdone ?_
  exact Slot.runCallback_state _

/-- The loop of `dcerpc_connection_dead` leaves the queue alone. -/
theorem not_lossHandled_of_queue (hdying : s.1.dying.isSome) (hpending : s.2.head .pending = none)
    (hqueue : s.2.head .requestQueue ≠ none) (h : deadRound s.1 s.2 = some s') :
    ¬ LossHandled s s' := by
  intro hloss
  obtain ⟨d, hd⟩ := isSome_iff_exists.mp hdying
  unfold deadRound at h
  simp only [hd, bind_eq_bind, bind_eq_some_iff] at h
  obtain ⟨s₁, hfree, h⟩ := h
  have hheads : s₁.2.head = s.2.head := by
    unfold freeCurrent at hfree
    split at hfree
    · rw [← some.inj hfree]
    · obtain ⟨l', hl', rfl⟩ := map_eq_some_iff.mp hfree
      exact (free_eq hl').2.1
  unfold failHead at h
  rw [hheads, hpending] at h
  obtain rfl := some.inj h
  refine hqueue ?_
  rw [← hheads]
  exact (hloss d hd rfl).2.1

/-! ## Runs -/

/-- What holds between the steps of an orderly run. -/
def Kept (s : State W) : Prop := (∃ p q, Inv s p q) ∧ Failing s.1

theorem kept_init (w : W) : Kept (init w) := ⟨⟨[], [], inv_init w⟩, failing_of_none rfl⟩

theorem orderly_step {o : Unit} (hkept : Kept s) (horderly : Orderly s ev)
    (h : (requests M rounds).step s ev = some (o, s')) :
    Kept s' ∧ WellFormed s' ∧ LossHandled s s' := by
  obtain ⟨⟨p, q, hinv⟩, hfailing⟩ := hkept
  obtain ⟨p', q', hstep, hinv'⟩ := requests_refines hinv horderly.1 h
  exact ⟨⟨⟨p', q', hinv'⟩, hstep.failing hinv.agree (requests_step h).1 hfailing⟩,
    hinv'.wellFormed, hstep.lossHandled hinv hinv' horderly hfailing⟩

theorem orderly_of_wellFormed {o : Unit} (hkept : Kept s)
    (h : (requests M rounds).step s ev = some (o, s')) (hwell : WellFormed s')
    (hloss : LossHandled s s') : Orderly s ev := by
  obtain ⟨⟨p, q, hinv⟩, -⟩ := hkept
  obtain ⟨henabled, hhandle⟩ := requests_step h
  constructor
  · cases ev with
    | freed r => exact fun hdenies hhead => not_wellFormed_of_freed hhead hdenies hhandle hwell
    | released r =>
      exact fun hdenies hwaiting =>
        not_wellFormed_of_released hinv hwaiting hdenies hhandle hwell
    | timeout r => exact fun hwaiting hhead => not_wellFormed_of_timeout hhead hwaiting hhandle hwell
    | _ => trivial
  · rintro rfl hpending
    by_contra hqueue
    exact not_lossHandled_of_queue henabled hpending hqueue hhandle hloss

/-- **Well-formed lists.** After every step of a run the lists are well formed, and both are empty
once a loss has been dealt with, iff every step is orderly. -/
theorem lists_wellFormed_iff (M : Mechanism W) (rounds : Nat) (w : W) (events : List Event) :
    (requests M rounds).EachStep (fun s _ _ s' => WellFormed s' ∧ LossHandled s s') (init w)
        events ↔
      (requests M rounds).EachStep (fun s ev _ _ => Orderly s ev) (init w) events := by
  refine Machine.eachStep_congr (I := Kept) ?_ ?_ events (init w) (kept_init w)
  · intro s ev o s' hkept hstep hsound
    exact (orderly_step hkept (orderly_of_wellFormed hkept hstep hsound.1 hsound.2) hstep).1
  · intro s ev o s' hkept hstep
    constructor
    · exact fun hsound => orderly_of_wellFormed hkept hstep hsound.1 hsound.2
    · exact fun horderly => (orderly_step hkept horderly hstep).2

/-- A synchronous call of three bytes with a timer and a callback. -/
def syncCall : Submission := ⟨false, ⟨none, 0, 3, [1, 2, 3]⟩, true, true⟩

/-- A synchronous call times out while it is queued: it is done, and still the first of
`request_queue`. Or the socket is lost, and the second call stays there for good. -/
theorem lists_not_wellFormed :
    ((requests twoLegMechanism 0).run (init 0)
        [.request syncCall, .request syncCall, .timeout 1]).map
      (fun r => (r.2.2.head .requestQueue, r.2.1.requests[1]?.map (·.state))) =
        some (some 1, some .done) ∧
    ¬ (requests twoLegMechanism 0).EachStep (fun s _ _ s' => WellFormed s' ∧ LossHandled s s')
      (init 0) [.request syncCall, .request syncCall, .timeout 1] ∧
    ((requests twoLegMechanism 0).run (init 0)
        [.request syncCall, .request syncCall, .lost .unexpectedNetworkError, .deadRound,
          .deadRound]).map
      (fun r => (r.2.1.dying.isSome, r.2.2.head .requestQueue,
        r.2.1.requests[1]?.map (·.state))) =
        some (false, some 1, some .pending) := by
  refine ⟨by decide, ?_, by decide⟩
  intro h
  obtain ⟨-, h⟩ := h _ _ rfl
  obtain ⟨-, h⟩ := h _ _ rfl
  obtain ⟨⟨hwell, -⟩, -⟩ := h _ _ rfl
  exact hwell.head_waiting (r := 1) rfl rfl rfl

end OpenvasSmb.Dcerpc.Requests

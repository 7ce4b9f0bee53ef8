import OpenvasSmb.Smb.Completion

/-!
# Requests complete once

A request that waits for nothing is meant to stay as it is until it is put back or destroyed,
without a callback. Packets match pending requests only. Its own timer, started when the request
was sent, turns a completed request into a failed one, with a second callback. In the runs in
which no timer fires for a request that waits for nothing, every request completes once for each
receive (`completes_once_per_receive`).
-/

namespace OpenvasSmb.Smb

open Kit List Live

variable {md5 : Bytes → Bytes} {s s' : Live} {e : LiveEvent} {called : Option Nat}

/-- A step leaves the requests alone that wait for nothing, those apart that it puts back or
destroys. -/
def Settled (s : Live) (e : LiveEvent) (called : Option Nat) (s' : Live) : Prop :=
  ∀ req ∈ s.finished, e ≠ .more req.id → e ≠ .destroy req.id →
    called ≠ some req.id ∧
      ∃ req' ∈ s'.finished, req'.id = req.id ∧ req'.state = req.state ∧ req'.status = req.status

/-- A timer fires only for a request that waits. -/
def OnTime (s : Live) : LiveEvent → Prop
  | .timeout id => id ∈ s.transport.pending.map Request.id
  | _ => True

instance (s : Live) : (e : LiveEvent) → Decidable (OnTime s e)
  | .timeout id => inferInstanceAs (Decidable (id ∈ _))
  | .send .. | .watch _ | .packet _ | .more _ | .destroy _ => isTrue trivial

/-! ## The list of pending requests -/

theorem ids_eraseP (reqs : List Request) (id : Nat) :
    (reqs.eraseP (·.id == id)).map Request.id = (reqs.map Request.id).erase id := by
  induction reqs with
  | nil => rfl
  | cons req reqs ih =>
    by_cases h : req.id = id
    · simp [h]
    · rw [eraseP_cons_of_neg (by simpa using h), map_cons, map_cons, ih,
        erase_cons_tail (by simpa using h)]

/-- A completed request was pending, and is not any more. -/
structure Left (t : Transport) (req : Request) (t' : Transport) : Prop where
  mem : req.id ∈ t.pending.map Request.id
  ids : t'.pending.map Request.id = (t.pending.map Request.id).erase req.id

theorem left_complete {t t₀ : Transport} {req req' : Request} (hpending : t₀.pending = t.pending)
    (hmem : req ∈ t.pending) (hid : req'.id = req.id) : Left t req' (t₀.complete req').2 := by
  refine ⟨?_, ?_⟩
  · rw [hid]
    exact mem_map_of_mem hmem
  · rw [← hpending]
    exact ids_eraseP _ _

theorem fillReply_left {t t' : Transport} {req : Request} {p : Packet} {wct : Nat} {r : Received}
    (hmem : req ∈ t.pending) (h : fillReply md5 t req p wct = some (r, t')) :
    ∃ req', r = .completed req' ∧ Left t req' t' := by
  rw [fillReply] at h
  iterate 3
    split at h
    · cases h
      exact ⟨_, rfl, left_complete rfl hmem rfl⟩
  simp only [Option.bind_eq_bind, Option.bind_eq_some_iff] at h
  obtain ⟨inn, -, status, -, ⟨good, signInfo⟩, -, h⟩ := h
  cases good with
  | true | false =>
    cases h
    exact ⟨_, rfl, left_complete rfl hmem rfl⟩

theorem ids_removeNtcancel (t : Transport) (req : Request) :
    (t.removeNtcancel req).pending.map Request.id = t.pending.map Request.id := by
  show (t.pending.map _).map Request.id = _
  rw [map_map]
  refine map_congr_left fun r _ => ?_
  by_cases h : r.id = req.id
  · simp [h]
  · simp [h]

/-- **What a packet does to the list:** it completes a request of it, or the list keeps its
requests. -/
theorem finishRecv_left {t t' : Transport} {p : Packet} {r : Received}
    (h : smbcliTransportFinishRecv md5 t p = some (r, t')) :
    (∃ req, r = .completed req ∧ Left t req t') ∨
      ((∀ req, r ≠ .completed req) ∧
        t'.pending.map Request.id = t.pending.map Request.id) := by
  obtain ⟨oplock, -, h⟩ := Option.bind_eq_some_iff.mp h
  cases oplock with
  | some info =>
    cases h
    exact .inr ⟨fun _ => nofun, rfl⟩
  | none =>
    cases hraw : t.readbrawPending with
    | true =>
      simp only [hraw, if_true] at h
      cases hhead : t.pending.head? with
      | none =>
        rw [hhead] at h
        cases h
        exact .inr ⟨fun _ => nofun, rfl⟩
      | some req =>
        rw [hhead] at h
        cases h
        have hmem : req ∈ t.pending := mem_of_head? hhead
        exact .inl ⟨_, rfl, left_complete rfl hmem rfl⟩
    | false =>
      simp only [hraw, Bool.false_eq_true, if_false] at h
      obtain ⟨⟨mid, wct⟩, -, h⟩ := Option.bind_eq_some_iff.mp h
      simp only at h
      cases hfind : t.find mid with
      | none =>
        rw [hfind] at h
        cases h
        exact .inr ⟨fun _ => nofun, rfl⟩
      | some req =>
        rw [hfind] at h
        obtain ⟨cancelled, -, h⟩ := Option.bind_eq_some_iff.mp h
        cases cancelled with
        | true =>
          cases h
          exact .inr ⟨fun _ => nofun, ids_removeNtcancel t req⟩
        | false => exact .inl (fillReply_left (Transport.find_mem hfind) h)

/-! ## One step -/

/-- No request is there twice. -/
def Live.Distinct (s : Live) : Prop := s.ids.Nodup

theorem Live.Distinct.not_pending (h : s.Distinct) {req : Request} (hreq : req ∈ s.finished) :
    req.id ∉ s.transport.pending.map Request.id := by
  intro hmem
  exact (nodup_append.mp h).2.2 _ hmem _ (mem_map_of_mem hreq) rfl

theorem settle_distinct (h : s.Distinct) {req : Request} {t : Transport}
    (hleft : Left s.transport req t) (settled : Live)
    (htransport : settled.transport = t) (hfinished : settled.finished = req :: s.finished) :
    settled.Distinct := by
  have hperm : settled.ids.Perm s.ids := by
    rw [ids, htransport, hfinished, hleft.ids]
    refine perm_middle.trans ?_
    exact (perm_cons_erase hleft.mem).symm.append_right _
  exact hperm.nodup_iff.mpr h

/-- A step on time takes away the finished requests that it puts back or destroys, adds at most one,
and calls at most the callback of a pending request. -/
structure Orderly (s : Live) (e : LiveEvent) (called : Option Nat) (s' : Live) : Prop where
  distinct : s'.Distinct
  kept : ∀ req ∈ s.finished, e ≠ .more req.id → e ≠ .destroy req.id → req ∈ s'.finished
  calls : ∀ id ∈ called, id ∈ s.transport.pending.map Request.id

theorem notify_eq_some {id id' : Nat} (h : s.notify id = some id') : id' = id := by
  rw [notify] at h
  split at h
  · exact (Option.some.inj h).symm
  · cases h

section

variable (h : s.Distinct)
include h

theorem send_orderly {req : Request} (hfresh : req.id ∉ s.ids) (singleIncrement : Bool)
    (written : NtStatus) (oneWay : Bool) :
    Orderly s (.send req singleIncrement written oneWay) none
      (s.send req singleIncrement written oneWay) := by
  have hsigned : (smbcliRequestCalculateSignMac singleIncrement req s.transport.signInfo).1.id =
      req.id := by
    rw [smbcliRequestCalculateSignMac]
    split <;> rfl
  rw [send]
  split
  · refine ⟨?_, fun r hr _ _ => mem_cons_of_mem _ hr, fun _ => nofun⟩
    refine (perm_middle.nodup_iff).mpr (nodup_cons.mpr ⟨?_, h⟩)
    rwa [hsigned]
  · split
    · exact ⟨h, fun r hr _ _ => hr, fun _ => nofun⟩
    · refine ⟨?_, fun r hr _ _ => hr, fun _ => nofun⟩
      refine nodup_cons.mpr ⟨?_, h⟩
      show (smbcliRequestCalculateSignMac singleIncrement req s.transport.signInfo).1.id ∉ _
      rwa [hsigned]

theorem packet_orderly {bytes : Bytes} (hstep : s.step md5 (.packet bytes) = some (called, s')) :
    Orderly s (.packet bytes) called s' := by
  rw [step] at hstep
  cases hrecv : smbcliTransportFinishRecv md5 s.transport ⟨s.serial, bytes⟩ with
  | none => simp [hrecv] at hstep
  | some result =>
    obtain ⟨r, t⟩ := result
    rcases finishRecv_left hrecv with ⟨req, rfl, hleft⟩ | ⟨hnone, hids⟩
    · simp only [hrecv, Option.some.injEq] at hstep
      obtain ⟨hcalled, rfl⟩ := Prod.mk.inj hstep
      refine ⟨settle_distinct h hleft _ rfl rfl, fun r hr _ _ => mem_cons_of_mem _ hr, ?_⟩
      intro id hid
      rw [← hcalled] at hid
      rw [notify_eq_some hid]
      exact hleft.mem
    · have hstep : some (none, { s with transport := t, serial := s.serial + 1 }) =
          some (called, s') := by
        cases r with
        | completed req => exact absurd rfl (hnone req)
        | discarded | oplockBreak => simpa only [hrecv] using hstep
      obtain ⟨rfl, rfl⟩ := answer_inj hstep
      refine ⟨?_, fun r hr _ _ => hr, fun _ => nofun⟩
      show (t.pending.map Request.id ++ s.finished.map Request.id).Nodup
      rwa [hids]

theorem more_orderly {id : Nat}
    (hstep : s.step md5 (.more id) = some (called, s')) : Orderly s (.more id) called s' := by
  rw [step] at hstep
  cases hfind : s.finished.find? (·.id == id) with
  | none => simp [hfind] at hstep
  | some req =>
    simp only [hfind, Option.some.injEq] at hstep
    obtain ⟨rfl, rfl⟩ := Prod.mk.inj hstep
    have hreq : req ∈ s.finished := mem_of_find?_eq_some hfind
    have hid : req.id = id := by simpa using find?_some hfind
    refine ⟨?_, fun r hr hmore _ => ?_, fun _ => nofun⟩
    · have hmem : req.id ∈ s.finished.map Request.id := mem_map_of_mem hreq
      have hperm : (req.id :: s.transport.pending.map Request.id ++
          (s.finished.eraseP (·.id == id)).map Request.id).Perm s.ids := by
        rw [ids_eraseP, ← hid]
        refine perm_middle.symm.trans ?_
        exact (perm_cons_erase hmem).symm.append_left _
      exact hperm.nodup_iff.mpr h
    · refine (mem_eraseP_of_neg ?_).mpr hr
      intro heq
      rw [beq_iff_eq] at heq
      exact hmore (by rw [heq])

theorem timeout_orderly {id : Nat} (hpending : id ∈ s.transport.pending.map Request.id)
    (hstep : s.step md5 (.timeout id) = some (called, s')) : Orderly s (.timeout id) called s' := by
  have hstep : s.timeout id = some (called, s') := hstep
  rw [timeout] at hstep
  split at hstep
  · obtain ⟨req, hreq, hid⟩ := mem_map.mp hpending
    cases hfind : s.transport.pending.find? (·.id == id) with
    | none =>
      rw [find?_eq_none] at hfind
      exact absurd (by simpa using hid) (hfind req hreq)
    | some req =>
      have hmem : req ∈ s.transport.pending := mem_of_find?_eq_some hfind
      have hleft : Left s.transport { req with status := .ioTimeout, state := .error } _ :=
        left_complete rfl hmem rfl
      simp only [hfind] at hstep
      obtain ⟨hcalled, rfl⟩ := answer_inj hstep
      refine ⟨settle_distinct h hleft _ rfl rfl, fun r hr _ _ => mem_cons_of_mem _ hr, ?_⟩
      intro id' hid'
      rw [← hcalled] at hid'
      rw [notify_eq_some hid']
      exact hleft.mem
  · cases hstep

theorem destroy_orderly {id : Nat}
    (hstep : s.step md5 (.destroy id) = some (called, s')) : Orderly s (.destroy id) called s' := by
  obtain ⟨rfl, rfl⟩ := answer_inj hstep
  refine ⟨?_, fun r hr _ hdestroy => ?_, fun _ => nofun⟩
  · refine List.Nodup.sublist (List.Sublist.append ?_ ?_) h
    · exact filter_sublist.map _
    · exact filter_sublist.map _
  · refine mem_filter.mpr ⟨hr, ?_⟩
    rw [bne_iff_ne]
    rintro rfl
    exact hdestroy rfl

theorem step_orderly (hstep : s.step md5 e = some (called, s'))
    (htime : OnTime s e) : Orderly s e called s' := by
  cases e with
  | send req singleIncrement written oneWay =>
    rw [step] at hstep
    split at hstep
    · cases hstep
    · rename_i hfresh
      obtain ⟨rfl, rfl⟩ := answer_inj hstep
      exact send_orderly h hfresh singleIncrement written oneWay
  | watch id =>
    obtain ⟨rfl, rfl⟩ := answer_inj hstep
    exact ⟨h, fun r hr _ _ => hr, fun _ => nofun⟩
  | packet bytes => exact packet_orderly h hstep
  | more id => exact more_orderly h hstep
  | timeout id => exact timeout_orderly h htime hstep
  | destroy id => exact destroy_orderly h hstep

end

/-! ## Runs -/

/-- **Requests complete once for each receive.** If timers fire only for requests that wait, no step
changes a request that waits for nothing, or calls its callback, unless it puts it back or destroys
it. -/
theorem completes_once_per_receive (md5 : Bytes → Bytes) (t : Transport) (requestTimeout : Nat)
    (events : List LiveEvent)
    (h : (live md5).EachStep (fun s e _ _ => OnTime s e) (start t requestTimeout) events) :
    (live md5).EachStep Settled (start t requestTimeout) events := by
  refine Machine.EachStep.of_inv (I := Live.Distinct) ?_ events _ nodup_nil h
  intro s e called s' hdistinct hstep htime
  have horderly := step_orderly hdistinct hstep htime
  refine ⟨horderly.distinct, fun req hreq hmore hdestroy => ⟨fun hcalled => ?_, req,
    horderly.kept req hreq hmore hdestroy, rfl, rfl, rfl⟩⟩
  exact hdistinct.not_pending hreq (horderly.calls _ hcalled)

/-! ## Samples -/

/-- A reply without words, for the multiplex id 1. -/
def plainReply : Bytes :=
  [0, 0, 0, 0, 0xFF, 0x53, 0x4D, 0x42, 0x2B, 0, 0, 0, 0, 0x80, 0, 0, 0, 0, 0, 0,
    0, 0, 0, 0, 0, 0, 0, 0, 0, 0, 0, 0, 0, 0, 1, 0, 0, 0, 0]

/-- A request is sent, watched and answered. -/
def answered : List LiveEvent :=
  [.send { id := 0, mid := 1 } false .ok false, .watch 0, .packet plainReply]

/-- What can be seen of the finished requests after a run. -/
def finishedAfter (events : List LiveEvent) :
    Option (Option (Option Nat) × List (Nat × RequestState × NtStatus)) :=
  ((live fun _ => []).run (.start {} 60) events).map fun r =>
    (r.1, r.2.finished.map fun req => (req.id, req.state, req.status))

/-- The request waits for another part, which does not come. -/
theorem completes_once_per_receive_parts :
    (live fun _ => []).EachStep Settled (.start {} 60)
      (answered ++ [.more 0, .timeout 0, .destroy 0]) :=
  completes_once_per_receive _ _ _ _ (.of_check _ _ (by decide))

/-- A request that was answered with success is made a failed one by its timer, and its
callback is called a second time. -/
theorem late_timeout :
    finishedAfter answered = some (some (some 0), [(0, .done, .ok)]) ∧
    finishedAfter (answered ++ [.timeout 0]) =
      some (some (some 0), [(0, .error, .ioTimeout)]) :=
  ⟨by decide, by decide⟩

end OpenvasSmb.Smb

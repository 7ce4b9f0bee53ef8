import OpenvasSmb.Stream.Send

/-!
# What the send queue has sent

In every state of a `packet_context` the packets that were queued are those that have left and
those that wait, in this order. All bytes of the former are written and their callbacks were
called; of the latter only the first can be written in part (`Delivered`).
-/

namespace OpenvasSmb.Stream

open List SendElement

variable {κ : Type} {gone : List (Bytes × Option κ)} {s : SendState κ}

/-- The packets `gone` have left the queue. -/
structure Delivered (gone : List (Bytes × Option κ)) (s : SendState κ) : Prop where
  submitted : s.submitted = gone ++ s.sendQueue.map SendElement.packet
  written : s.written =
    gone.flatMap Prod.fst ++ s.sendQueue.head?.elim [] fun el => el.blob.take el.nsent
  called : s.called = gone.filterMap Prod.snd
  waiting : ∀ el ∈ s.sendQueue, el.nsent < el.blob.length ∨ el.nsent = 0 ∧ el.blob = []
  untouched : ∀ el ∈ s.sendQueue.tail, el.nsent = 0

theorem Delivered.send (h : Delivered gone s) (packet : Bytes × Option κ) :
    Delivered gone (packetSendCallback s packet) := by
  obtain ⟨hsubmitted, hwritten, hcalled, hwaiting, huntouched⟩ := h
  refine ⟨by simp [packetSendCallback, hsubmitted, SendElement.packet], ?_, hcalled, ?_, ?_⟩
  · cases hqueue : s.sendQueue <;> simp [packetSendCallback, hwritten, hqueue]
  · intro el hel
    rcases mem_append.mp hel with hel | hel
    · exact hwaiting el hel
    · rw [mem_singleton.mp hel]
      exact (Nat.eq_zero_or_pos packet.1.length).symm.imp_right fun h =>
        ⟨rfl, eq_nil_of_length_eq_zero h⟩
  · intro el hel
    cases hqueue : s.sendQueue with
    | nil => simp [packetSendCallback, hqueue] at hel
    | cons first queue =>
      rw [hqueue] at huntouched
      simp only [packetSendCallback, hqueue, cons_append, tail_cons] at hel
      rcases mem_append.mp hel with hel | hel
      · exact huntouched el hel
      · rw [mem_singleton.mp hel]

theorem Delivered.sends (h : Delivered gone s) (sends : List (Bytes × Option κ)) :
    Delivered gone (sends.foldl packetSendCallback s) :=
  foldlRecOn sends _ h fun _ h packet _ => h.send packet

/-- The first packet is written to its end, leaves, and its callback is called. -/
theorem Delivered.leave {el : SendElement κ} {queue : List (SendElement κ)} {chunk : Bytes}
    (h : Delivered gone s) (hqueue : s.sendQueue = el :: queue)
    (hchunk : el.blob.take el.nsent ++ chunk = el.blob) (sends : List (Bytes × Option κ)) :
    Delivered (gone ++ [el.packet]) (callSent sends
      { s with written := s.written ++ chunk, sendQueue := queue } el.sendCallback) := by
  obtain ⟨hsubmitted, hwritten, hcalled, hwaiting, huntouched⟩ := h
  rw [hqueue] at hsubmitted hwritten hwaiting huntouched
  have hleft : ∀ called, called = (gone ++ [el.packet]).filterMap Prod.snd → Delivered
      (gone ++ [el.packet])
      { s with written := s.written ++ chunk, sendQueue := queue, called := called } := by
    intro called hcalled
    refine ⟨by simp [hsubmitted], ?_, hcalled, fun el' hel' => hwaiting el' (by simp [hel']),
      fun el' hel' => huntouched el' (mem_of_mem_tail hel')⟩
    have hnext : queue.head?.elim [] (fun el => el.blob.take el.nsent) = [] := by
      cases queue with
      | nil => rfl
      | cons next queue => simp [huntouched next (by simp)]
    simp only [hwritten, hnext, flatMap_append, packet, flatMap_singleton,
      append_nil, head?_cons, Option.elim_some, append_assoc, hchunk]
  cases hcallback : el.sendCallback with
  | none => exact hleft s.called (by simp [hcalled, packet, hcallback])
  | some k =>
    exact (hleft (s.called ++ [k]) (by simp [hcalled, packet, hcallback])).sends sends

/-- A part of the first packet is written, not to its end. -/
theorem Delivered.advance {el : SendElement κ} {queue : List (SendElement κ)} {chunk : Bytes}
    (h : Delivered gone s) (hqueue : s.sendQueue = el :: queue)
    (hchunk : el.blob.take (el.nsent + chunk.length) = el.blob.take el.nsent ++ chunk)
    (hlt : el.nsent + chunk.length < el.blob.length) :
    Delivered gone { s with
      written := s.written ++ chunk
      sendQueue := { el with nsent := el.nsent + chunk.length } :: queue } := by
  obtain ⟨hsubmitted, hwritten, hcalled, hwaiting, huntouched⟩ := h
  rw [hqueue] at hsubmitted hwritten hwaiting huntouched
  refine ⟨hsubmitted, by simp [hwritten, hchunk], hcalled, ?_, huntouched⟩
  intro el' hel'
  rcases mem_cons.mp hel' with rfl | hel'
  · exact .inl hlt
  · exact hwaiting el' (mem_cons_of_mem _ hel')

theorem Delivered.queueRun (answers : List (SendAnswer κ)) (h : Delivered gone s) :
    ∃ more, Delivered (gone ++ more) (packetQueueRun answers s) := by
  have hstay : ∀ s' : SendState κ, Delivered gone s' → ∃ more, Delivered (gone ++ more) s' :=
    fun s' h' => ⟨[], by rwa [append_nil]⟩
  induction answers generalizing s gone with
  | nil => exact hstay _ h
  | cons answer answers ih =>
    rw [packetQueueRun]
    split
    · exact hstay _ ⟨h.submitted, h.written, h.called, h.waiting, h.untouched⟩
    rename_i el queue hqueue
    simp only
    split_ifs with herror hready hend
    · exact hstay _ ⟨h.submitted, h.written, h.called, h.waiting, h.untouched⟩
    · exact hstay _ h
    · -- the last byte of the packet is written
      have hchunk : el.blob.take el.nsent ++ (el.blob.drop el.nsent).take answer.room =
          el.blob := by
        have hall : (el.blob.drop el.nsent).take answer.room = el.blob.drop el.nsent := by
          rw [length_take] at hend
          exact take_of_length_le (by rw [length_drop]; omega)
        rw [hall, take_append_drop]
      obtain ⟨more, hmore⟩ := ih (h.leave hqueue hchunk answer.sends) fun s' h' =>
        ⟨[], by rwa [append_nil]⟩
      exact ⟨el.packet :: more, by simpa using hmore⟩
    · refine ih (h.advance hqueue ?_ ?_) hstay
      · rw [take_add, length_take, ← take_take, take_length]
      · rw [length_take, length_drop] at hend ⊢
        rcases h.waiting el (by simp [hqueue]) with hlt | ⟨hzero, hempty⟩
        · omega
        · simp [hempty, hzero] at hend

/-- **Every packet is sent once, in order**: the bytes written are a prefix of the packets as they
were queued; those that have left the queue are written as a whole, and their callbacks, no others,
were called, once and in order. -/
theorem send_queue_delivers (events : List (SendEvent κ)) :
    ∃ gone, Delivered gone (events.foldl sendStep {}) ∧
      (events.foldl sendStep {}).written <+:
        (events.foldl sendStep {}).submitted.flatMap Prod.fst := by
  have hrun : ∃ gone, Delivered gone (events.foldl sendStep {}) := by
    refine foldlRecOn (motive := fun s => ∃ gone, Delivered gone s) events sendStep
      ⟨[], rfl, rfl, rfl, by simp, by simp⟩ ?_
    rintro s ⟨gone, h⟩ event -
    cases event with
    | send packet => exact ⟨gone, h.send packet⟩
    | queueRun answers =>
      obtain ⟨more, h⟩ := h.queueRun answers
      exact ⟨_, h⟩
  obtain ⟨gone, h⟩ := hrun
  refine ⟨gone, h, ?_⟩
  rw [h.written, h.submitted, flatMap_append]
  refine (prefix_append_right_inj _).mpr ?_
  cases (events.foldl sendStep {}).sendQueue with
  | nil => exact nil_prefix
  | cons el queue => exact ( take_prefix _ _).trans (by simp [packet])

end OpenvasSmb.Stream

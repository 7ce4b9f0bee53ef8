import OpenvasSmb.Stream.Live
import OpenvasSmb.Theorems.SendQueue

/-!
# Packets in order

What is handed to the callback is a prefix of the packets of the stream, in every run in which
no read of `MAX_TALLOC_SIZE` bytes or more is begun while a callback runs. Such a read drops
the buffer and keeps its length; when the callback returns, the length is found to differ from
`num_read`, the buffer is allocated again, and what the new memory holds is taken for packets.
Without a running callback the loss does no harm: the socket is gone and the packet that was
being read is never completed.
-/

namespace OpenvasSmb.Stream

open Kit List Framing
open Ndr (maxTallocSize)

variable {c : Config} {env : Env} {s s' : State} {o : Outcome} {packets : List Bytes} (n : Nat)

/-- While a callback runs, a socket that is read does not announce so much that the buffer would
have `MAX_TALLOC_SIZE` bytes. -/
def Roomy (s : State) : Event → Prop
  | .recv env | .timer env => s.running ≠ 0 → env.pending.2.toNat + s.numRead < maxTallocSize
  | _ => True

instance (s : State) (event : Event) : Decidable (Roomy s event) :=
  match event with
  | .recv env | .timer env =>
    inferInstanceAs (Decidable (s.running ≠ 0 → env.pending.2.toNat + s.numRead < maxTallocSize))
  | .returns _ _ | .disable | .enable | .serialise | .free => inferInstanceAs (Decidable True)

/-- A live context has cut the stream where its packets end. -/
structure InStep (c : Config) (packets : List Bytes) (s : State) : Prop where
  live : Live c s
  tracks : Tracks c.framing.size packets s.handed (s.buffered ++ s.unread)

/-- A context that has lost its buffer and hands out nothing any more. -/
structure Stopped (packets : List Bytes) (s : State) : Prop where
  sock : s.sock = false
  running : s.running = 0
  incomplete : ¬ s.Complete
  handed : s.handed <+: packets

/-- The invariant of the runs. -/
def Ordered (c : Config) (packets : List Bytes) (s : State) : Prop :=
  InStep c packets s ∨ Stopped packets s

theorem Ordered.isPrefix (h : Ordered c packets s) : s.handed <+: packets := by
  rcases h with h | h
  · exact h.tracks.isPrefix
  · exact h.handed

/-! ## The functions keep it -/

section

variable (h : InStep c packets s)
include h

theorem InStep.congr (hlive : Live c s') (hbuffered : s'.buffered = s.buffered)
    (hunread : s'.unread = s.unread) (hhanded : s'.handed = s.handed) : InStep c packets s' := by
  refine ⟨hlive, ?_⟩
  rw [hbuffered, hunread, hhanded]
  exact h.tracks

theorem InStep.flags (hblob : s'.partialBlob = s.partialBlob) (hnum : s'.numRead = s.numRead)
    (hsize : s'.packetSize = s.packetSize) (hunread : s'.unread = s.unread)
    (hhanded : s'.handed = s.handed) : InStep c packets s' := by
  have hbuffered : s'.buffered = s.buffered := by rw [State.buffered, hblob, hnum]; rfl
  refine h.congr (h.live.congr ?_ ?_ hbuffered hnum hsize) hbuffered hunread hhanded
  · rw [hblob, hnum]
    exact h.live.read
  · rw [hblob]
    exact h.live.small

theorem InStep.feeds (hlive : Live c s') (hfeeds : Feeds s s') :
    InStep c packets s' := by
  obtain ⟨hahead, q, u, m, rfl⟩ := hfeeds
  refine ⟨hlive, ?_⟩
  rw [hahead]
  exact h.tracks

theorem InStep.nextPartial (hstep : nextPartial c env s = some (o, s')) : InStep c packets s' := by
  by_cases hpos : s.numRead = 0
  · obtain ⟨-, hlive, hbuffered, q, sock, rfl⟩ := nextPartial_quiet h.live hpos hstep
    exact h.congr hlive hbuffered rfl rfl
  · rcases nextPartial_cases h.live hpos hstep with
      ⟨-, hlive, hbuffered, -, q, size, sock, rfl⟩ | ⟨n, -, hn, hsize, -, rfl, hlive⟩
    · exact h.congr hlive hbuffered rfl rfl
    · refine ⟨hlive, ?_⟩
      -- the packet in front of the buffer is the next one of the stream
      have hlength := h.live.length_buffered
      have hcut := h.tracks.cut c.framing.size_stable hsize (by omega)
      have hleft : (s.cutOff s.buffered n).buffered = s.buffered.drop n := by
        show (s.buffered.drop n).take (s.numRead - n) = s.buffered.drop n
        exact take_of_length_le (by rw [length_drop]; omega)
      rwa [hleft]

theorem InStep.packetRecv (hroom : s.running ≠ 0 → env.pending.2.toNat + s.numRead < maxTallocSize)
    (hstep : packetRecv c env s = some (o, s')) : Ordered c packets s' := by
  rcases packetRecv_cases h.live hstep with
    ⟨-, -, rfl⟩ | ⟨-, -, rfl⟩ | ⟨-, hincomplete, -, status, n, hasked, hquiet⟩ |
      ⟨-, s₁, hlive, -, hfeeds, hnext⟩
  iterate 2 exact .inl (h.flags rfl rfl rfl rfl rfl)
  · rcases hquiet.live h.live hincomplete hasked with
      ⟨hlive, hbuffered, q, sock, rfl⟩ | ⟨hlarge, q, rfl⟩
    · exact .inl (h.congr hlive hbuffered rfl rfl)
    · have hrunning : s.running = 0 := by
        by_contra hrunning
        omega
      exact .inr ⟨rfl, hrunning, hincomplete, h.tracks.isPrefix⟩
  · exact .inl ((h.feeds hlive hfeeds).nextPartial hnext)

end

theorem Stopped.packetRecv (h : Stopped packets s)
    (hstep : packetRecv c env s = some (o, s')) : Stopped packets s' := by
  have hincomplete : ¬ (s.packetSize ≠ 0 ∧ s.packetSize ≤ s.numRead) := h.incomplete
  unfold Stream.packetRecv at hstep
  rw [if_neg hincomplete] at hstep
  split_ifs at hstep
  iterate 2
    obtain ⟨-, rfl⟩ := answer_inj hstep
    exact ⟨h.sock, h.running, h.incomplete, h.handed⟩
  · obtain ⟨⟨blob, rfl⟩, -⟩ := recvMore_dead h.sock hstep
    exact ⟨h.sock, h.running, h.incomplete, h.handed⟩

theorem Ordered.packetRecv (h : Ordered c packets s)
    (hroom : s.running ≠ 0 → env.pending.2.toNat + s.numRead < maxTallocSize)
    (hstep : packetRecv c env s = some (o, s')) : Ordered c packets s' := by
  rcases h with h | h
  · exact h.packetRecv hroom hstep
  · exact .inr (h.packetRecv hstep)

theorem InStep.callbackReturned {status : NtStatus} (h : InStep c packets s)
    (hstep : callbackReturned c env status s = some (o, s')) : InStep c packets s' := by
  rcases callbackReturned_cases h.live hstep with
    ⟨-, -, rfl⟩ | ⟨-, -, rfl⟩ | ⟨-, -, rfl⟩ | ⟨-, hnext⟩ | ⟨-, -, size, timers, rfl, hlive, -⟩
  iterate 3 exact h.flags rfl rfl rfl rfl rfl
  · have hreturned : InStep c packets s.returned := h.flags rfl rfl rfl rfl rfl
    exact hreturned.nextPartial hnext
  · exact h.congr hlive rfl rfl rfl

theorem Ordered.flags (h : Ordered c packets s) (hblob : s'.partialBlob = s.partialBlob)
    (hnum : s'.numRead = s.numRead) (hsize : s'.packetSize = s.packetSize)
    (hunread : s'.unread = s.unread) (hhanded : s'.handed = s.handed) (hsock : s'.sock = s.sock)
    (hrunning : s'.running = s.running) : Ordered c packets s' := by
  rcases h with h | h
  · exact .inl (h.flags hblob hnum hsize hunread hhanded)
  · refine .inr ⟨hsock.trans h.sock, hrunning.trans h.running, ?_, hhanded ▸ h.handed⟩
    rw [State.Complete, hsize, hnum]
    exact h.incomplete

/-- **One step.** -/
theorem Ordered.step {event : Event} (h : Ordered c packets s) (hroom : Roomy s event)
    (hstep : step c s event = some (o, s')) : Ordered c packets s' := by
  have hcases := step_cases hstep
  cases event with
  | recv env => exact h.packetRecv hroom hcases
  | timer env =>
    have hfired : Ordered c packets { s with timers := s.timers - 1 } :=
      h.flags rfl rfl rfl rfl rfl rfl rfl
    obtain ⟨-, ⟨-, hrecv⟩ | ⟨-, rfl⟩⟩ := hcases
    · exact hfired.packetRecv hroom hrecv
    · exact hfired
  | returns status env =>
    obtain ⟨hrunning, hreturned⟩ := hcases
    rcases h with h | h
    · have hfewer : InStep c packets { s with running := s.running - 1 } :=
        h.flags rfl rfl rfl rfl rfl
      exact .inl (hfewer.callbackReturned hreturned)
    · exact absurd h.running hrunning
  | disable =>
    rw [show s' = packetRecvDisable s from hcases]
    exact h.flags rfl rfl rfl rfl rfl rfl rfl
  | enable =>
    obtain ⟨timers, rfl, -⟩ := hcases
    exact h.flags rfl rfl rfl rfl rfl rfl rfl
  | serialise =>
    rw [show s' = { s with serialise := true } from hcases]
    exact h.flags rfl rfl rfl rfl rfl rfl rfl
  | free =>
    obtain ⟨called, freed, rfl⟩ := hcases
    exact h.flags rfl rfl rfl rfl rfl rfl rfl

/-! ## Runs -/

/-- **Packets in order.** However a stream is cut and reads, timers, callbacks and calls are
interleaved: if no step begins a read of `MAX_TALLOC_SIZE` bytes while a callback runs, what has
been handed to the callback is a prefix of the packets. -/
theorem packets_in_order {stream : Bytes} (h : Splits c.framing.size stream packets)
    (events : List Event)
    (hroomy : (machine c).EachStep (fun s event _ _ => Roomy s event) (start stream) events) :
    (machine c).EachStep (fun _ _ _ s' => s'.handed <+: packets) (start stream) events := by
  have hstart : Ordered c packets (start stream) := .inl ⟨.start c stream, h.tracks⟩
  refine Machine.EachStep.of_inv (I := Ordered c packets) ?_ events _ hstart hroomy
  intro s event o s' hinv hstep hroom
  have hinv' := hinv.step hroom hstep
  exact ⟨hinv', hinv'.isPrefix⟩

/-- Two packets; the second arrives in two pieces, and receiving is disabled in between. -/
theorem packets_in_order_two :
    (machine ⟨.nbt, 0, true⟩).EachStep
      (fun _ _ _ s' => s'.handed <+: [[0, 0, 0, 1, 7], [0, 0, 0, 2, 8, 9]])
      (start [0, 0, 0, 1, 7, 0, 0, 0, 2, 8, 9])
      [.recv ⟨(.ok, 7), (.ok, 7), fun _ => 0⟩, .disable,
        .returns .ok ⟨(.ok, 0), (.ok, 0), fun _ => 0⟩, .enable,
        .recv ⟨(.ok, 4), (.ok, 4), fun _ => 0⟩] := by
  refine packets_in_order (c := ⟨.nbt, 0, true⟩) ?_ _ (.of_check _ _ (by decide))
  have hsecond : Splits nbt.size ([0, 0, 0, 2, 8, 9] ++ []) [[0, 0, 0, 2, 8, 9]] :=
    .packet (by simp) rfl (.rest (by simp [size]))
  exact .packet (p := [0, 0, 0, 1, 7]) (by simp) rfl hsecond

/-- **From one end to the other.** Packets that tell their own length are queued and written in any
way. Whatever is written yet, and however a receiver reads it, its callback gets the first of the
packets, each once and in order. -/
theorem sent_packets_arrive {κ : Type} (sends : List (SendEvent κ)) {sender : SendState κ}
    (hsends : sends.foldl sendStep {} = sender)
    (hown : ∀ p ∈ sender.submitted, c.framing.size p.1 = some p.1.length) (events : List Event)
    (hroomy : (machine c).EachStep (fun s event _ _ => Roomy s event) (start sender.written) events) :
    (machine c).EachStep (fun _ _ _ s' => s'.handed <+: sender.submitted.map Prod.fst)
      (start sender.written) events := by
  obtain ⟨gone, h⟩ : ∃ gone, Delivered gone sender := by
    rw [← hsends]
    refine foldlRecOn (motive := fun s => ∃ gone, Delivered gone s) sends sendStep
      ⟨[], rfl, rfl, rfl, by simp, by simp⟩ ?_
    rintro s ⟨gone, h⟩ (packet | answers) -
    · exact ⟨gone, h.send packet⟩
    · exact (h.queueRun answers).imp' (gone ++ ·) fun _ => id
  have harrived : sender.written <+: (sender.submitted.map Prod.fst).flatten := by
    rw [h.written, h.submitted, map_append, flatten_append]
    refine (prefix_append_right_inj _).mpr ?_
    cases sender.sendQueue with
    | nil => exact nil_prefix
    | cons el queue => exact ( take_prefix _ _).trans (by simp [SendElement.packet])
  obtain ⟨whole, hwhole, hsplits⟩ :=
    Splits.of_arrived c.framing.size_stable c.framing.size_nil (by simpa using hown) harrived
  refine Machine.EachStep.of_inv (I := Ordered c whole) ?_ events _
    (.inl ⟨.start c _, hsplits.tracks⟩) hroomy
  intro s event o s' hinv hstep hroom
  have hinv' := hinv.step hroom hstep
  exact ⟨hinv', hinv'.isPrefix.trans hwhole⟩

/-- Three packets are written in pieces, the last of them in part. Two are handed over, and more is
read while the second one is handled. -/
theorem sent_packets_arrive_two :
    let reads : List Event := [.recv ⟨(.ok, 7), (.ok, 7), fun _ => 0⟩,
      .returns .ok ⟨(.ok, 0), (.ok, 0), fun _ => 0⟩, .recv ⟨(.ok, 4), (.ok, 4), fun _ => 0⟩,
      .recv ⟨(.ok, 3), (.ok, 3), fun _ => 0⟩]
    ((machine ⟨.nbt, 0, true⟩).run (start [0, 0, 0, 1, 7, 0, 0, 0, 2, 8, 9, 0, 0, 0]) reads).map
        (fun r => r.2.handed) = some [[0, 0, 0, 1, 7], [0, 0, 0, 2, 8, 9]] ∧
      (machine ⟨.nbt, 0, true⟩).EachStep
        (fun _ _ _ s' => s'.handed <+: [[0, 0, 0, 1, 7], [0, 0, 0, 2, 8, 9], [0, 0, 0, 0]])
        (start [0, 0, 0, 1, 7, 0, 0, 0, 2, 8, 9, 0, 0, 0]) reads :=
  ⟨by decide, sent_packets_arrive (κ := Unit) [.send ([0, 0, 0, 1, 7], none),
    .send ([0, 0, 0, 2, 8, 9], none), .queueRun [⟨.ok, 3, []⟩], .send ([0, 0, 0, 0], none),
    .queueRun [⟨.ok, 2, []⟩, ⟨.ok, 6, []⟩, ⟨.ok, 3, []⟩]] rfl (by decide) _
    (.of_check _ _ (by decide))⟩

/-! ## A read that is too large -/

section Flood

/-- NBT framing without `initial_read` and without an event context. -/
def bareNbt : Config := ⟨.nbt, 0, false⟩

/-- Nine bytes are read, then none, then all the rest, and then fresh memory looks like a packet. -/
def floodEvents (rest : UInt64) : List Event :=
  [.recv ⟨(.ok, 9), (.ok, 9), fun _ => 0⟩,
    .recv ⟨(.ok, 1), (.moreEntries, 0), fun _ => 0⟩,
    .recv ⟨(.ok, rest), (.ok, 1), fun _ => 0⟩,
    .returns .ok ⟨(.ok, 0), (.ok, 0), fun i => if i = 3 then 1 else 0⟩]

/-- The context after the first packet, with `n` bytes on the socket. -/
def floodState (blob : Blob) (sock : Bool) : State :=
  { partialBlob := blob, numRead := 5, sock := sock, busy := true, running := 1
    unread := List.replicate n 0, handed := [[0, 0, 0, 0]] }

/-- Empty NBT packets are four bytes 0 each. -/
theorem splits_zeros :
    Splits nbt.size (List.replicate (4 * n) 0) (List.replicate n [0, 0, 0, 0]) := by
  induction n with
  | zero => exact .rest (by simp [size])
  | succ n ih =>
    have hstream : replicate (4 * (n + 1)) (0 : UInt8) =
        [0, 0, 0, 0] ++ replicate (4 * n) 0 := by
      rfl
    rw [hstream]
    refine .packet (by simp) ?_ ih
    exact nbt.size_stable (show nbt.size [0, 0, 0, 0] = some 4 from rfl) _

theorem flood_first :
    step bareNbt (start (List.replicate (n + 9) 0)) (.recv ⟨(.ok, 9), (.ok, 9), fun _ => 0⟩) =
      some (.callback [0, 0, 0, 0], floodState n (.held [0, 0, 0, 0, 0]) true) := by
  have htake : (replicate (n + 9) (0 : UInt8)).take 9 = [0, 0, 0, 0, 0, 0, 0, 0, 0] := by
    rfl
  have hdrop : (replicate (n + 9) (0 : UInt8)).drop 9 = replicate n 0 := by
    rw [drop_replicate, Nat.add_sub_cancel]
  have hlength : ¬ (replicate (n + 9) (0 : UInt8)).length < 9 := by
    rw [length_replicate]
    omega
  have hroom : dataBlobRealloc (fun _ => 0) (.held []) 9 =
      (.ok, .held [0, 0, 0, 0, 0, 0, 0, 0, 0]) := rfl
  have hwritten : Dcerpc.overwrite [0, 0, 0, 0, 0, 0, 0, 0, 0] 0 [0, 0, 0, 0, 0, 0, 0, 0, 0] =
      [0, 0, 0, 0, 0, 0, 0, 0, 0] := rfl
  have hnext : nextPartial ⟨.nbt, 0, false⟩ ⟨(.ok, 9), (.ok, 9), fun _ => 0⟩
      { partialBlob := .held [0, 0, 0, 0, 0, 0, 0, 0, 0], numRead := 9
        unread := replicate n 0 } =
      some (.callback [0, 0, 0, 0], floodState n (.held [0, 0, 0, 0, 0]) true) := by
    rw [nextPartial_held rfl (Nat.le_refl 9) (show 9 ≠ 0 by decide) (by decide)]
    rfl
  generalize replicate (n + 9) (0 : UInt8) = stream at *
  simp [step, start, packetRecv, recvMore, npending, bareNbt, receive, Blob.length, hlength, hroom,
    htake, hdrop, hwritten, hnext]

theorem flood_second :
    step bareNbt (floodState (n + 1) (.held [0, 0, 0, 0, 0]) true)
        (.recv ⟨(.ok, 1), (.moreEntries, 0), fun _ => 0⟩) =
      some (.returned, floodState (n + 1) (.held [0, 0, 0, 0, 0, 0]) true) := by
  have hroom : dataBlobRealloc (fun _ => 0) (.held [0, 0, 0, 0, 0]) 6 =
      (.ok, .held [0, 0, 0, 0, 0, 0]) := rfl
  simp [step, floodState, packetRecv, recvMore, npending, bareNbt, receive, hroom, Blob.length]

/-- The buffer is lost: its length stays. -/
theorem flood_third {n : Nat} {rest : UInt64} (hrest : rest.toNat = n)
    (hn : n + 5 = maxTallocSize) :
    step bareNbt (floodState n (.held [0, 0, 0, 0, 0, 0]) true)
        (.recv ⟨(.ok, rest), (.ok, 1), fun _ => 0⟩) =
      some (.failed .noMemory, floodState n (.lost 6) false) := by
  have hroom : dataBlobRealloc (fun _ => 0) (.held [0, 0, 0, 0, 0, 0]) maxTallocSize =
      (.noMemory, .lost 6) := rfl
  have hsmall : maxTallocSize = 0x10000000 := rfl
  have hmod : maxTallocSize % 18446744073709551616 = maxTallocSize := rfl
  have hpos : n ≠ 0 := by omega
  have hover : ¬ maxTallocSize < n := by omega
  simp [step, floodState, packetRecv, recvMore, npending, bareNbt, packetError, Blob.length, hrest,
    hpos, hn, hroom, hmod, hover, show ¬ maxTallocSize < 5 by omega, show 6 < maxTallocSize by omega]

/-- The callback returns, and fresh memory is taken for the five bytes that had been read. -/
theorem flood_fourth :
    step bareNbt (floodState n (.lost 6) false)
        (.returns .ok ⟨(.ok, 0), (.ok, 0), fun i => if i = 3 then 1 else 0⟩) =
      some (.callback [0, 0, 0, 1, 0],
        { sock := false, busy := true, running := 1, unread := List.replicate n 0
          handed := [[0, 0, 0, 0], [0, 0, 0, 1, 0]] }) := by
  have hroom : dataBlobRealloc (fun i => if i = 3 then 1 else 0) (.lost 6) 5 =
      (.ok, .held [0, 0, 0, 1, 0]) := rfl
  have hsize : nbt.size [0, 0, 0, 1, 0] = some 5 := rfl
  simp [step, floodState, callbackReturned, nextPartial, bareNbt, Blob.length, Blob.withLength,
    Blob.data, fullRequest_held, handOver, hroom, hsize]

theorem flood_run (rest : UInt64) (hrest : rest.toNat = n) (hn : n + 5 = maxTallocSize) :
    (machine bareNbt).run (start (List.replicate (n + 9) 0)) (floodEvents rest) =
      some (some (.callback [0, 0, 0, 1, 0]),
        { sock := false, busy := true, running := 1, unread := List.replicate n 0
          handed := [[0, 0, 0, 0], [0, 0, 0, 1, 0]] }) := by
  obtain ⟨m, rfl⟩ : ∃ m, n = m + 1 := ⟨n - 1, by unfold maxTallocSize at hn; omega⟩
  simp only [machine, floodEvents, Machine.run, flood_first, flood_second, flood_third hrest hn,
    flood_fourth, Option.bind_some, Option.map_some]

/-- Empty packets arrive, and a packet that is not empty is handed to the callback. -/
theorem flood_hands_garbage :
    Splits bareNbt.framing.size (List.replicate (4 * (2 ^ 26 + 1)) 0)
        (List.replicate (2 ^ 26 + 1) [0, 0, 0, 0]) ∧
      ∃ s, (machine bareNbt).run (start (List.replicate (4 * (2 ^ 26 + 1)) 0))
          (floodEvents 0xffffffb) = some (some (.callback [0, 0, 0, 1, 0]), s) ∧
        ¬ s.handed <+: List.replicate (2 ^ 26 + 1) [0, 0, 0, 0] := by
  have hrun := flood_run 0xffffffb 0xffffffb rfl rfl
  refine ⟨splits_zeros _, _, hrun, fun hprefix => ?_⟩
  have hmem : [0, 0, 0, 1, 0] ∈ replicate (2 ^ 26 + 1) ([0, 0, 0, 0] : Bytes) :=
    hprefix.subset (by simp)
  exact absurd (eq_of_mem_replicate hmem) (by decide)

end Flood

end OpenvasSmb.Stream

import OpenvasSmb.Stream.Live

/-!
# Packets that wait in the buffer

With an event context, a complete packet that is left in the buffer is delivered by a
`packet_next_event` timer. There is one whenever it is needed, in every run in which receiving
is not enabled again with more than one packet in the buffer and no timer left: the timer that
was pending fires while receiving is disabled and does nothing, and `packet_recv_enable` adds
another one only if `packet_size` is at least `num_read`. (`packet_next_event` tests for the
opposite.) The other conditions are that callbacks succeed, since an error ends the delivery,
and that no read of `MAX_TALLOC_SIZE` bytes is begun.
-/

namespace OpenvasSmb.Stream

open Kit
open Ndr (maxTallocSize)

variable {c : Config} {env : Env} {s s' : State} {o : Outcome}

/-- The buffer begins with a complete packet. -/
def HasPacket (c : Config) (s : State) : Prop :=
  ∃ n, n ≠ 0 ∧ c.framing.size s.buffered = some n ∧ n ≤ s.numRead

/-- A packet that could be delivered has a timer. -/
def TimerPending (c : Config) (s : State) : Prop :=
  s.freed = false → s.recvDisable = false → s.running = 0 → HasPacket c s → s.timers ≠ 0

/-- The condition on a step. -/
def Attentive (s : State) : Event → Prop
  | .recv env | .timer env => env.pending.2.toNat + s.numRead < maxTallocSize
  | .returns status _ => status = .ok
  | .enable => s.running = 0 → s.Complete → s.timers = 0 → s.numRead ≤ s.packetSize
  | .disable | .serialise | .free => True

instance (s : State) : Decidable s.Complete :=
  inferInstanceAs (Decidable (s.packetSize ≠ 0 ∧ s.packetSize ≤ s.numRead))

instance (s : State) (event : Event) : Decidable (Attentive s event) :=
  match event with
  | .recv env | .timer env =>
    inferInstanceAs (Decidable (env.pending.2.toNat + s.numRead < maxTallocSize))
  | .returns status _ => inferInstanceAs (Decidable (status = .ok))
  | .enable => inferInstanceAs (Decidable
      (s.running = 0 → s.Complete → s.timers = 0 → s.numRead ≤ s.packetSize))
  | .disable | .serialise | .free => inferInstanceAs (Decidable True)

/-! ## Between callbacks the size of the packet is known -/

/-- When no callback runs, `packet_size` is what the header says and `processing` is 0. -/
structure Settled (c : Config) (s : State) : Prop where
  live : Live c s
  known : s.running = 0 → ∀ n, c.framing.size s.buffered = some n → s.packetSize = n
  processing : s.processing ≠ 0 → s.running ≠ 0

theorem Settled.complete (h : Settled c s) (hrunning : s.running = 0) (hpacket : HasPacket c s) :
    s.Complete := by
  obtain ⟨n, hn, hsize, hle⟩ := hpacket
  have hknown := h.known hrunning n hsize
  exact ⟨by omega, by omega⟩

theorem Settled.flags (h : Settled c s) (hblob : s'.partialBlob = s.partialBlob)
    (hnum : s'.numRead = s.numRead) (hsize : s'.packetSize = s.packetSize)
    (hrunning : s'.running = s.running) (hprocessing : s'.processing = s.processing) :
    Settled c s' := by
  have hbuffered : s'.buffered = s.buffered := by rw [State.buffered, hblob, hnum]; rfl
  refine ⟨h.live.congr ?_ ?_ hbuffered hnum hsize, ?_, ?_⟩
  · rw [hblob, hnum]
    exact h.live.read
  · rw [hblob]
    exact h.live.small
  · rw [hrunning, hbuffered, hsize]
    exact h.known
  · rw [hrunning, hprocessing]
    exact h.processing

/-- Where receiving is enabled, `packet_recv` leaves no packet behind unless a callback runs. -/
theorem Settled.packetRecv (h : Settled c s)
    (hroom : env.pending.2.toNat + s.numRead < maxTallocSize)
    (hstep : packetRecv c env s = some (o, s')) :
    Settled c s' ∧ (s'.recvDisable = false → s'.running = 0 → ¬ HasPacket c s') := by
  rcases packetRecv_cases h.live hstep with
    ⟨hprocessing, -, rfl⟩ | ⟨hdisabled, -, rfl⟩ |
      ⟨-, hincomplete, -, status, n, hasked, hquiet⟩ | ⟨-, s₁, hlive₁, hpos, hfeeds, hnext⟩
  · have hrunning := h.processing hprocessing
    exact ⟨⟨h.live.congr h.live.read h.live.small rfl rfl rfl, h.known, fun _ => hrunning⟩,
      fun _ hzero => absurd hzero hrunning⟩
  · exact ⟨h.flags rfl rfl rfl rfl rfl,
      fun henabled => absurd (hdisabled.symm.trans henabled) (by simp)⟩
  · rcases hquiet.live h.live hincomplete hasked with
      ⟨hlive, hbuffered, q, sock, rfl⟩ | ⟨hlarge, -⟩
    · refine ⟨⟨hlive, ?_, h.processing⟩, fun _ hrunning hpacket => ?_⟩
      · rw [hbuffered]
        exact h.known
      · obtain ⟨n, hn, hsize, hle⟩ := hpacket
        rw [hbuffered] at hsize
        exact hincomplete (h.complete hrunning ⟨n, hn, hsize, hle⟩)
    · omega
  · obtain ⟨-, q, u, m, rfl⟩ := hfeeds
    rcases nextPartial_cases hlive₁ hpos hnext with
      ⟨-, hlive, hbuffered, hsize, q', size, sock, rfl⟩ | ⟨n, hn, hle, hsize, -, rfl, hlive⟩
    · refine ⟨⟨hlive, ?_, h.processing⟩, ?_⟩
      · intro _ n hn
        rw [hbuffered] at hn
        exact (hsize n hn).1
      · rintro - - ⟨n, hzero, hn, hle⟩
        rw [hbuffered] at hn
        rcases (hsize n hn).2 with hnone | hlt
        · exact hzero hnone
        · exact absurd hle (Nat.not_le_of_lt hlt)
    · refine ⟨⟨hlive, ?_, ?_⟩, ?_⟩
      · exact fun hrunning => absurd hrunning (Nat.succ_ne_zero _)
      · exact fun _ => Nat.succ_ne_zero _
      · exact fun _ hrunning => absurd hrunning (Nat.succ_ne_zero _)

/-- With an event context, a callback that succeeds leaves a timer behind. -/
theorem callbackReturned_settled (hev : c.ev = true) (hlive : Live c s)
    (hstep : callbackReturned c env .ok s = some (o, s')) :
    s'.freed = false → Settled c s' ∧ TimerPending c s' := by
  intro hfreed
  rcases callbackReturned_cases hlive hstep with
    ⟨-, -, rfl⟩ | ⟨hfail, -⟩ | ⟨hempty, -, rfl⟩ | ⟨hnone, -⟩ |
      ⟨-, -, size, timers, rfl, hlive', hsize⟩
  · simp at hfreed
  · simp at hfail
  · have hnosize : ∀ n, c.framing.size s.returned.buffered ≠ some n := by
      intro n
      show c.framing.size s.buffered ≠ some n
      rw [hempty, Framing.size_nil]
      simp
    refine ⟨⟨hlive.returned, fun _ n hn => absurd hn (hnosize n), fun h => absurd rfl h⟩, ?_⟩
    rintro - - - ⟨n, -, hn, -⟩
    exact absurd hn (hnosize n)
  · exact absurd (hev.symm.trans hnone) (by simp)
  · refine ⟨⟨hlive', fun _ n hn => (hsize n hn).1, fun h => absurd rfl h⟩, ?_⟩
    rintro - - - ⟨n, -, hn, hle⟩
    rw [show timers = s.timers + 1 from (hsize n hn).2 hle]
    exact Nat.succ_ne_zero _

/-! ## Steps and runs -/

/-- The invariant of the runs. -/
def Attended (c : Config) (s : State) : Prop :=
  s.freed = false → Settled c s ∧ TimerPending c s

theorem Attended.start (c : Config) (stream : Bytes) : Attended c (start stream) := by
  intro _
  have hnosize : ∀ n, c.framing.size (Stream.start stream).buffered ≠ some n := by
    intro n
    show c.framing.size [] ≠ some n
    rw [Framing.size_nil]
    simp
  refine ⟨⟨.start c stream, fun _ n hn => absurd hn (hnosize n), fun h => absurd rfl h⟩, ?_⟩
  rintro - - - ⟨n, -, hn, -⟩
  exact absurd hn (hnosize n)

/-- **One step.** -/
theorem Attended.step {event : Event} (hev : c.ev = true) (h : Attended c s)
    (hcond : Attentive s event) (hstep : step c s event = some (o, s')) : Attended c s' := by
  have hfreed := freed_of_step hstep
  obtain ⟨hsettled, htimer⟩ := h hfreed
  have hcases := step_cases hstep
  cases event with
  | recv env =>
    obtain ⟨hsettled', hnone⟩ := hsettled.packetRecv hcond hcases
    exact fun _ => ⟨hsettled', fun _ hen hrun hpacket => absurd hpacket (hnone hen hrun)⟩
  | timer env =>
    have hfired : Settled c { s with timers := s.timers - 1 } :=
      hsettled.flags rfl rfl rfl rfl rfl
    obtain ⟨-, ⟨-, hrecv⟩ | ⟨hincomplete, rfl⟩⟩ := hcases
    · obtain ⟨hsettled', hnone⟩ := hfired.packetRecv hcond hrecv
      exact fun _ => ⟨hsettled', fun _ hen hrun hpacket => absurd hpacket (hnone hen hrun)⟩
    · exact fun _ => ⟨hfired, fun _ _ hrun hpacket =>
        absurd (hsettled.complete hrun hpacket) hincomplete⟩
  | returns status env =>
    obtain ⟨-, hreturned⟩ := hcases
    rw [show status = .ok from hcond] at hreturned
    refine callbackReturned_settled hev ?_ hreturned
    exact hsettled.live.congr hsettled.live.read hsettled.live.small rfl rfl rfl
  | disable =>
    rw [show s' = packetRecvDisable s from hcases]
    exact fun _ => ⟨hsettled.flags rfl rfl rfl rfl rfl,
      fun _ hen => absurd hen (by simp [packetRecvDisable])⟩
  | enable =>
    obtain ⟨timers, rfl, hmore, hadded⟩ := hcases
    refine fun _ => ⟨hsettled.flags rfl rfl rfl rfl rfl, fun _ _ hrun hpacket => ?_⟩
    have hcomplete := hsettled.complete hrun hpacket
    show timers ≠ 0
    by_cases hzero : s.timers = 0
    · have hle := hcond hrun hcomplete hzero
      rw [hadded (by have := hcomplete.1; have := hcomplete.2; omega) hle]
      exact Nat.succ_ne_zero _
    · omega
  | serialise =>
    rw [show s' = { s with serialise := true } from hcases]
    exact fun _ => ⟨hsettled.flags rfl rfl rfl rfl rfl, htimer⟩
  | free =>
    obtain ⟨called, freed, rfl⟩ := hcases
    exact fun _ => ⟨hsettled.flags rfl rfl rfl rfl rfl, fun _ => htimer hfreed⟩

/-- **A timer for every packet that waits**: in every run whose steps are attentive, if receiving is
enabled, no callback runs and a complete packet is in the buffer, a timer is pending. -/
theorem waiting_packet_has_timer (hev : c.ev = true) (stream : Bytes) (events : List Event)
    (hcond : (machine c).EachStep (fun s event _ _ => Attentive s event) (start stream) events) :
    (machine c).EachStep (fun _ _ _ s' => TimerPending c s') (start stream) events := by
  refine Machine.EachStep.of_inv (I := Attended c) ?_ events _ (.start c stream) hcond
  intro s event o s' hinv hstep hattentive
  have hinv' := hinv.step hev hattentive hstep
  exact ⟨hinv', fun hfreed => (hinv' hfreed).2 hfreed⟩

/-- NBT framing with an event context. -/
def eventNbt : Config := ⟨.nbt, 0, true⟩

/-- Receiving is disabled in a callback and enabled before it returns. -/
theorem waiting_packet_has_timer_enabled :
    (machine eventNbt).EachStep (fun _ _ _ s' => TimerPending eventNbt s')
      (start [0, 0, 0, 0, 0, 0, 0, 0, 0, 0, 0, 0])
      [.recv ⟨(.ok, 12), (.ok, 12), fun _ => 0⟩, .disable, .enable,
        .returns .ok ⟨(.ok, 0), (.ok, 0), fun _ => 0⟩,
        .timer ⟨(.ok, 0), (.ok, 0), fun _ => 0⟩] :=
  waiting_packet_has_timer rfl _ _ (.of_check _ _ (by decide))

/-- Receiving is disabled in a callback and enabled again with two packets in the buffer, after
the timer has fired. -/
def disabledTooLong : List Event :=
  [.recv ⟨(.ok, 12), (.ok, 12), fun _ => 0⟩, .disable,
    .returns .ok ⟨(.ok, 0), (.ok, 0), fun _ => 0⟩,
    .timer ⟨(.ok, 0), (.ok, 0), fun _ => 0⟩, .enable]

/-- Two packets wait and no timer is pending. -/
theorem enable_adds_no_timer :
    ∃ s, (machine eventNbt).run (start [0, 0, 0, 0, 0, 0, 0, 0, 0, 0, 0, 0]) disabledTooLong =
        some (some .returned, s) ∧
      s.buffered = [0, 0, 0, 0, 0, 0, 0, 0] ∧ s.timers = 0 ∧ ¬ TimerPending eventNbt s := by
  refine ⟨_, rfl, rfl, rfl, fun h => ?_⟩
  exact h rfl rfl rfl ⟨4, by decide, rfl, by decide⟩ rfl

end OpenvasSmb.Stream

import OpenvasSmb.Stream.Receive

/-!
# Contexts that work

A context is `Live` as long as its buffer holds what has been read. It stays so in every
function of `packet.c`, unless a read of `MAX_TALLOC_SIZE` bytes or more is asked for: then
`data_blob_realloc` drops the buffer and keeps its length. With that exception,
`packetRecv_cases` and `nextPartial_cases` are all a live context can do.
-/

namespace OpenvasSmb.Stream

open Kit Dcerpc NtStatus State Nat Option
open Ndr (maxTallocSize)

variable {c : Config} {env : Env} {s s' : State} {o : Outcome} {n : Nat} {status : NtStatus}

/-- The buffer holds what has been read, and `packet_size` is 0 or what its header says. No more is
read than the packet or `initial_read` asks for. -/
structure Live (c : Config) (s : State) : Prop where
  read : s.numRead ≤ s.partialBlob.data.length
  small : s.partialBlob.length < maxTallocSize
  size : s.packetSize ≠ 0 → c.framing.size s.buffered = some s.packetSize
  initial : c.initialRead ≠ 0 → s.numRead ≤ max c.initialRead.toNat s.packetSize
  first : maxTallocSize ≤ c.initialRead.toNat → s.numRead = 0 ∧ s.packetSize = 0

/-- A packet is complete as far as the context knows: the test of `packet_recv`. -/
def State.Complete (s : State) : Prop := s.packetSize ≠ 0 ∧ s.packetSize ≤ s.numRead

theorem Live.start (c : Config) (stream : Bytes) : Live c (start stream) where
  read := Nat.le_refl 0
  small := by show 0 < maxTallocSize; decide
  size := fun h => absurd rfl h
  initial := fun _ => zero_le _
  first := fun _ => ⟨rfl, rfl⟩

theorem State.buffered_eq_nil (h : s.numRead = 0) : s.buffered = [] := by
  rw [buffered, h, List.take_zero]

theorem State.buffered_eq_of_zero (h' : s'.numRead = 0) (h : s.numRead = 0) :
    s'.buffered = s.buffered := by
  rw [State.buffered_eq_nil h', State.buffered_eq_nil h]

theorem Live.length_buffered (h : Live c s) : s.buffered.length = s.numRead :=
  State.length_buffered h.read

/-- A buffer that is not empty has not been lost. -/
theorem Live.exists_held (h : Live c s) (hpos : s.numRead ≠ 0) :
    ∃ p, s.partialBlob = .held p ∧ s.numRead ≤ p.length ∧ p.length < maxTallocSize := by
  have hread := h.read
  have hsmall := h.small
  cases hp : s.partialBlob with
  | held p =>
    rw [hp] at hread hsmall
    exact ⟨p, rfl, hread, hsmall⟩
  | lost length =>
    rw [hp] at hread
    exact absurd (le_zero.mp hread) hpos

theorem Live.congr (h : Live c s) (hread : s'.numRead ≤ s'.partialBlob.data.length)
    (hsmall : s'.partialBlob.length < maxTallocSize) (hbuffered : s'.buffered = s.buffered)
    (hnum : s'.numRead = s.numRead) (hsize : s'.packetSize = s.packetSize) : Live c s' where
  read := hread
  small := hsmall
  size := by rw [hsize, hbuffered]; exact h.size
  initial := by rw [hsize, hnum]; exact h.initial
  first := by rw [hsize, hnum]; exact h.first

/-! ## Reading -/

section

variable (h : Live c s) (hincomplete : ¬ s.Complete) (hasked : npending c env s = some (status, n))
include h hincomplete hasked

theorem Live.npending_le :
    (s.packetSize ≠ 0 ∧ n + s.numRead = s.packetSize) ∨
      (s.packetSize = 0 ∧ c.initialRead ≠ 0 ∧ n + s.numRead = c.initialRead.toNat) ∨
      (s.packetSize = 0 ∧ c.initialRead = 0 ∧ n ≤ env.pending.2.toNat) := by
  unfold npending at hasked
  unfold State.Complete at hincomplete
  split_ifs at hasked with hsize hinitial hsock hmany
  · obtain ⟨-, rfl⟩ := answer_inj hasked
    exact .inl ⟨hsize, by omega⟩
  · obtain ⟨-, rfl⟩ := answer_inj hasked
    have hle := h.initial hinitial
    have hlt := c.initialRead.toNat_lt
    rw [not_not] at hsize
    exact .inr (.inl ⟨hsize, hinitial, by omega⟩)
  · obtain ⟨-, rfl⟩ := answer_inj hasked
    rw [not_not] at hsize hinitial
    exact .inr (.inr ⟨hsize, hinitial, zero_le _⟩)
  · obtain ⟨-, rfl⟩ := answer_inj hasked
    rw [not_not] at hsize hinitial
    exact .inr (.inr ⟨hsize, hinitial, Nat.le_refl _⟩)

/-- Only what the socket announces can be too much, once something has been read. -/
theorem Live.pending_of_large (hpos : s.numRead ≠ 0)
    (hlarge : maxTallocSize ≤ n + s.numRead) : maxTallocSize ≤ env.pending.2.toNat + s.numRead := by
  rcases h.npending_le hincomplete hasked with ⟨hsize, hn⟩ | ⟨-, -, hn⟩ | ⟨-, -, hn⟩
  · have hlt := Framing.size_lt (h.size hsize)
    omega
  · exact absurd (h.first (by omega)).1 hpos
  · omega

theorem Live.filled {k : Nat} {q : Bytes} (hfills : Fills n s q k) :
    Live c (s.filled q k) := by
  have hk := hfills.asked
  have hinside := hfills.inside
  have hsmall := hfills.small
  have hn := h.npending_le hincomplete hasked
  refine ⟨?_, hsmall, ?_, ?_, ?_⟩
  · show s.numRead + k ≤ q.length
    omega
  · intro hsize
    show c.framing.size (q.take (s.numRead + k)) = some s.packetSize
    rw [hfills.buffered]
    exact c.framing.size_stable (h.size hsize) _
  · intro hinitial
    show s.numRead + k ≤ max c.initialRead.toNat s.packetSize
    rcases hn with ⟨-, hn⟩ | ⟨-, -, hn⟩ | ⟨-, hzero, -⟩
    · omega
    · omega
    · exact absurd hzero hinitial
  · intro hlarge
    obtain ⟨hread, hsize⟩ := h.first hlarge
    have hne : c.initialRead ≠ 0 := by
      rintro hzero
      rw [hzero] at hlarge
      exact absurd hlarge (by decide)
    rcases hn with ⟨hsize', -⟩ | ⟨-, -, hn⟩ | ⟨-, hzero, -⟩
    · exact absurd hsize hsize'
    · omega
    · exact absurd hzero hne

end

/-- Bytes go from the socket to the buffer, and nothing else happens. -/
structure Feeds (s s' : State) : Prop where
  ahead : s'.buffered ++ s'.unread = s.buffered ++ s.unread
  only : ∃ q u m, s' = { s with partialBlob := q, unread := u, numRead := m }

theorem Feeds.refl (s : State) : Feeds s s := ⟨rfl, s.partialBlob, s.unread, s.numRead, rfl⟩

theorem Fills.feeds {k : Nat} {q : Bytes} (h : Fills n s q k) : Feeds s (s.filled q k) := by
  refine ⟨?_, .held q, s.unread.drop k, s.numRead + k, rfl⟩
  show q.take (s.numRead + k) ++ s.unread.drop k = s.buffered ++ s.unread
  rw [h.buffered, List.append_assoc, List.take_append_drop]

/-- **What `packet_recv` does to a live context**: it returns, finds nothing to read, or looks at
the header. -/
theorem packetRecv_cases (hlive : Live c s) (h : packetRecv c env s = some (o, s')) :
    (s.processing ≠ 0 ∧ o = .returned ∧
        s' = { s with fdReadable := false, processing := s.processing + 1 }) ∨
      (s.recvDisable = true ∧ o = .returned ∧ s' = { s with fdReadable := false }) ∨
      (s.recvDisable = false ∧ ¬ s.Complete ∧ (∀ blob, o ≠ .callback blob) ∧
        ∃ status n, npending c env s = some (status, n) ∧ Quiet n s s') ∨
      (s.recvDisable = false ∧ ∃ s₁, Live c s₁ ∧ s₁.numRead ≠ 0 ∧ Feeds s s₁ ∧
        nextPartial c env s₁ = some (o, s')) := by
  unfold packetRecv at h
  split_ifs at h with hprocessing hdisable hcomplete
  · obtain ⟨rfl, rfl⟩ := answer_inj h
    exact .inl ⟨hprocessing, rfl, rfl⟩
  · obtain ⟨rfl, rfl⟩ := answer_inj h
    exact .inr (.inl ⟨hdisable, rfl, rfl⟩)
  · exact .inr (.inr (.inr ⟨eq_false_of_ne_true hdisable, s, hlive, by omega, .refl s, h⟩))
  · have henabled := eq_false_of_ne_true hdisable
    obtain ⟨status, n, hasked, ⟨hquiet, ho⟩ | ⟨q, k, hfills, hnext⟩⟩ :=
      recvMore_cases hlive.read hlive.small h
    · exact .inr (.inr (.inl ⟨henabled, hcomplete, ho, status, n, hasked, hquiet⟩))
    · have hpos := hfills.pos
      refine .inr (.inr (.inr ⟨henabled, s.filled q k, hlive.filled hcomplete hasked hfills, ?_,
        hfills.feeds, hnext⟩))
      show s.numRead + k ≠ 0
      omega

/-- A quiet step keeps what is buffered, or the socket has announced too much. -/
theorem Quiet.live (hlive : Live c s) (hincomplete : ¬ s.Complete)
    (hasked : npending c env s = some (status, n)) (h : Quiet n s s') :
    (Live c s' ∧ s'.buffered = s.buffered ∧
        ∃ q sock, s' = { s with partialBlob := q, sock := sock }) ∨
      (maxTallocSize ≤ env.pending.2.toNat + s.numRead ∧
        ∃ q, s' = { s with partialBlob := q, sock := false }) := by
  cases h with
  | same sock =>
    exact .inl ⟨hlive.congr hlive.read hlive.small rfl rfl rfl, rfl, s.partialBlob, sock, rfl⟩
  | grown sock hread hle hsmall =>
    exact .inl ⟨hlive.congr hle hsmall hread rfl rfl, hread, _, sock, rfl⟩
  | lost hlarge =>
    by_cases hpos : s.numRead = 0
    · have hnone : ({ s with partialBlob := .lost s.partialBlob.length, sock := false } :
          State).buffered = s.buffered := buffered_eq_of_zero hpos hpos
      exact .inl ⟨hlive.congr (Nat.le_of_eq hpos) hlive.small hnone rfl rfl, hnone, _, false, rfl⟩
    · exact .inr ⟨hlive.pending_of_large hincomplete hasked hpos hlarge, _, rfl⟩

/-! ## Packets -/

theorem Live.noted (h : Live c s) (hpos : s.numRead ≠ 0)
    (hsize : c.framing.size s.buffered = some n) (hread : s'.numRead ≤ s'.partialBlob.data.length)
    (hsmall : s'.partialBlob.length < maxTallocSize) (hbuffered : s'.buffered = s.buffered)
    (hnum : s'.numRead = s.numRead) (hnoted : s'.packetSize = n) : Live c s' := by
  refine ⟨hread, hsmall, ?_, ?_, ?_⟩
  · intro _
    rw [hbuffered, hsize, hnoted]
  · intro hinitial
    have hle := h.initial hinitial
    by_cases hzero : s.packetSize = 0
    · omega
    · have := some.inj (hsize.symm.trans (h.size hzero))
      omega
  · intro hlarge
    exact absurd (h.first hlarge).1 hpos

theorem Live.cutOff (h : Live c s) (hn : n ≠ 0) (hle : n ≤ s.numRead)
    (hsize : c.framing.size s.buffered = some n) : Live c (s.cutOff s.buffered n) := by
  have hlength := h.length_buffered
  have hleft : (s.buffered.drop n).length = s.numRead - n := by rw [List.length_drop, hlength]
  obtain ⟨p, hp, hread, hsmall⟩ := h.exists_held (by omega)
  refine ⟨Nat.le_of_eq hleft.symm, ?_, fun h => absurd rfl h, ?_, ?_⟩
  · show (s.buffered.drop n).length < maxTallocSize
    omega
  · intro hinitial
    have hle := h.initial hinitial
    show s.numRead - n ≤ max c.initialRead.toNat 0
    by_cases hzero : s.packetSize = 0
    · omega
    · have := some.inj (hsize.symm.trans (h.size hzero))
      omega
  · intro hlarge
    have := (h.first hlarge).1
    omega

/-- **What a live context does with its buffer**: it notes the size its header tells, or gives a
packet to the callback. -/
theorem nextPartial_cases (hlive : Live c s) (hpos : s.numRead ≠ 0)
    (h : nextPartial c env s = some (o, s')) :
    ((∀ blob, o ≠ .callback blob) ∧ Live c s' ∧ s'.buffered = s.buffered ∧
        (∀ n, c.framing.size s.buffered = some n →
          s'.packetSize = n ∧ (n = 0 ∨ s.numRead < n)) ∧
        ∃ q size sock, s' = { s with partialBlob := q, packetSize := size, sock := sock }) ∨
      ∃ n, n ≠ 0 ∧ n ≤ s.numRead ∧ c.framing.size s.buffered = some n ∧
        o = .callback (s.buffered.take n) ∧ s' = s.cutOff s.buffered n ∧ Live c s' := by
  obtain ⟨p, hp, hread, hsmall⟩ := hlive.exists_held hpos
  have hlength := hlive.length_buffered
  have htrimmed : s.buffered.take s.numRead = s.buffered := List.take_of_length_le (by omega)
  rw [nextPartial_held hp hread hpos hsmall] at h
  cases hsize : c.framing.size s.buffered with
  | none =>
    simp only [hsize] at h
    obtain ⟨rfl, rfl⟩ := answer_inj h
    refine .inl ⟨by simp, ?_, htrimmed, by simp, .held s.buffered, s.packetSize, s.sock, rfl⟩
    apply hlive.congr
    · exact Nat.le_of_eq hlength.symm
    · show s.buffered.length < maxTallocSize
      omega
    · exact htrimmed
    · rfl
    · rfl
  | some n =>
    have hnoted : ∀ sock, Live c { s with
        partialBlob := .held s.buffered, packetSize := n, sock := sock } := by
      intro sock
      refine hlive.noted hpos hsize (Nat.le_of_eq hlength.symm) ?_ htrimmed rfl rfl
      show s.buffered.length < maxTallocSize
      omega
    simp only [hsize] at h
    split_ifs at h with hlt hzero
    · obtain ⟨rfl, rfl⟩ := answer_inj h
      refine .inl ⟨by simp, hnoted s.sock, htrimmed, ?_, .held s.buffered, n, s.sock, rfl⟩
      intro m hm
      obtain rfl := some.inj hm
      exact ⟨rfl, .inr hlt⟩
    · subst hzero
      obtain ⟨rfl, rfl⟩ := answer_inj h
      refine .inl ⟨by simp, hnoted false, htrimmed, ?_, .held s.buffered, 0, false, rfl⟩
      intro m hm
      obtain rfl := some.inj hm
      exact ⟨rfl, .inl rfl⟩
    · obtain ⟨rfl, rfl⟩ := answer_inj h
      exact .inr ⟨n, hzero, by omega, rfl, rfl, rfl, hlive.cutOff hzero (by omega) hsize⟩

theorem nextPartial_quiet (hlive : Live c s) (hzero : s.numRead = 0)
    (h : nextPartial c env s = some (o, s')) :
    (∀ blob, o ≠ .callback blob) ∧ Live c s' ∧ s'.buffered = s.buffered ∧
      ∃ q sock, s' = { s with partialBlob := q, sock := sock } := by
  obtain ⟨⟨sock, q, rfl, hlength⟩, ho⟩ := nextPartial_empty hzero h
  have hnone : ({ s with partialBlob := q, sock := sock } : State).buffered = s.buffered :=
    buffered_eq_of_zero hzero hzero
  refine ⟨ho, hlive.congr ?_ ?_ hnone rfl rfl, hnone, q, sock, rfl⟩
  · show s.numRead ≤ q.data.length
    omega
  · show q.length < maxTallocSize
    rw [hlength]
    exact hlive.small

/-! ## Behind the callback -/

/-- The flags after the callback has returned. -/
def State.returned (s : State) : State :=
  { s with
    busy := false
    fdReadable := s.fdReadable || decide (1 < s.processing)
    processing := 0 }

theorem Live.returned (h : Live c s) : Live c s.returned :=
  h.congr h.read h.small rfl rfl rfl

theorem Live.fullRequest (h : Live c s) (size : Nat) :
    c.framing.fullRequest (s.partialBlob.withLength s.numRead) size = some (
      match c.framing.size s.buffered with
      | none => (.moreEntries, size)
      | some n => (if s.numRead < n then .moreEntries else .ok, n)) := by
  have hread := h.read
  have hlength := h.length_buffered
  cases hp : s.partialBlob with
  | held p =>
    have hbuffered : p.take s.numRead = s.buffered := by rw [buffered, hp]; rfl
    cases hsize : c.framing.size s.buffered with
    | none => simp only [Blob.withLength, hbuffered, Framing.fullRequest_held, hsize]
    | some n => simp only [Blob.withLength, hbuffered, Framing.fullRequest_held, hsize, hlength]
  | lost length =>
    rw [hp] at hread
    have hzero : s.numRead = 0 := le_zero.mp hread
    rw [hzero, buffered_eq_nil hzero]
    cases c.framing <;> rfl

/-- **`packet_recv` behind the callback.** -/
theorem callbackReturned_cases (hlive : Live c s)
    (h : callbackReturned c env status s = some (o, s')) :
    (s.destructorCalled = true ∧ o = .returned ∧ s' = { s with busy := false, freed := true }) ∨
      (status.isOk = false ∧ (∀ blob, o ≠ .callback blob) ∧
        s' = { s.returned with sock := false }) ∨
      (s.buffered = [] ∧ o = .returned ∧ s' = s.returned) ∨
      (c.ev = false ∧ nextPartial c env s.returned = some (o, s')) ∨
      (c.ev = true ∧ o = .returned ∧ ∃ size timers, s' =
          { s.returned with packetSize := size, timers := timers } ∧ Live c s' ∧
        ∀ n, c.framing.size s.buffered = some n →
          size = n ∧ (n ≤ s.numRead → timers = s.timers + 1)) := by
  unfold callbackReturned at h
  by_cases hfree : s.destructorCalled = true
  · rw [if_pos hfree] at h
    obtain ⟨rfl, rfl⟩ := answer_inj h
    exact .inl ⟨hfree, rfl, rfl⟩
  rw [if_neg hfree] at h
  by_cases hok : status.isOk = false
  · rw [hok] at h
    obtain ⟨rfl, rfl⟩ := answer_inj h
    exact .inr (.inl ⟨hok, by simp, rfl⟩)
  rw [eq_true_of_ne_false hok] at h
  by_cases hempty : s.partialBlob.length = 0
  · have hnone : s.buffered = [] := by
      have hread := hlive.read
      apply buffered_eq_nil
      cases hp : s.partialBlob with
      | held p => rw [hp] at hread hempty; exact le_zero.mp (hempty ▸ hread)
      | lost length => rw [hp] at hread; exact le_zero.mp hread
    simp only [hempty, Bool.not_true, Bool.false_eq_true, if_false, if_true] at h
    obtain ⟨rfl, rfl⟩ := answer_inj h
    exact .inr (.inr (.inl ⟨hnone, rfl, rfl⟩))
  simp only [hempty, Bool.not_true, Bool.false_eq_true, if_false] at h
  by_cases hev : c.ev = false
  · rw [hev] at h
    exact .inr (.inr (.inr (.inl ⟨hev, h⟩)))
  rw [eq_true_of_ne_false hev, hlive.fullRequest] at h
  refine .inr (.inr (.inr (.inr ⟨eq_true_of_ne_false hev, ?_⟩)))
  cases hsize : c.framing.size s.buffered with
  | none =>
    simp only [hsize, Bool.not_true, Bool.false_eq_true, if_false, isErr_moreEntries,
      isOk_moreEntries, Bool.not_false, if_true] at h
    obtain ⟨rfl, rfl⟩ := answer_inj h
    exact ⟨rfl, s.packetSize, s.timers, rfl, hlive.returned, by simp⟩
  | some n =>
    have hpos : s.numRead ≠ 0 := by
      intro hzero
      rw [buffered_eq_nil hzero, Framing.size_nil] at hsize
      simp at hsize
    have hnoted : ∀ timers, Live c { s.returned with packetSize := n, timers := timers } :=
      fun timers => hlive.noted hpos hsize hlive.read hlive.small rfl rfl rfl
    simp only [hsize, Bool.not_true, Bool.false_eq_true, if_false] at h
    by_cases hlt : s.numRead < n
    · simp only [if_pos hlt, Bool.false_eq_true, if_false, isErr_moreEntries,
        isOk_moreEntries, Bool.not_false, if_true] at h
      obtain ⟨rfl, rfl⟩ := answer_inj h
      refine ⟨rfl, n, s.timers, rfl, hnoted s.timers, fun m hm => ?_⟩
      obtain rfl := some.inj hm
      exact ⟨rfl, by omega⟩
    · simp only [if_neg hlt, isErr_ok, isOk_ok, Bool.not_true,
        Bool.false_eq_true, if_false] at h
      obtain ⟨rfl, rfl⟩ := answer_inj h
      refine ⟨rfl, n, s.timers + 1, rfl, hnoted _, fun m hm => ?_⟩
      obtain rfl := some.inj hm
      exact ⟨rfl, fun _ => rfl⟩

/-! ## Steps -/

theorem freed_of_step {event : Event} (h : step c s event = some (o, s')) : s.freed = false := by
  unfold step at h
  by_contra hfreed
  rw [if_pos (eq_true_of_ne_false hfreed)] at h
  simp at h

/-- **What a step does**, in terms of the functions above. -/
theorem step_cases {event : Event} (h : step c s event = some (o, s')) :
    match event with
    | .recv env => packetRecv c env s = some (o, s')
    | .timer env => s.timers ≠ 0 ∧
        ((s.Complete ∧ packetRecv c env { s with timers := s.timers - 1 } = some (o, s')) ∨
          (¬ s.Complete ∧ s' = { s with timers := s.timers - 1 }))
    | .returns status env => s.running ≠ 0 ∧
        callbackReturned c env status { s with running := s.running - 1 } = some (o, s')
    | .disable => s' = packetRecvDisable s
    | .enable => ∃ timers, s' =
          { s with fdReadable := true, recvDisable := false, timers := timers } ∧
        s.timers ≤ timers ∧ (s.numRead ≠ 0 → s.numRead ≤ s.packetSize → timers = s.timers + 1)
    | .serialise => s' = { s with serialise := true }
    | .free => ∃ called freed, s' = { s with destructorCalled := called, freed := freed } := by
  unfold step at h
  by_cases hfreed : s.freed = true
  · simp [hfreed] at h
  rw [if_neg hfreed] at h
  cases event with
  | recv env => exact h
  | timer env =>
    simp only at h ⊢
    by_cases htimers : s.timers = 0
    · simp [htimers] at h
    rw [if_neg htimers] at h
    refine ⟨htimers, ?_⟩
    by_cases hcomplete : s.Complete
    · obtain ⟨hsize, hle⟩ := hcomplete
      rw [packetNextEvent, if_pos ⟨show s.numRead ≠ 0 by omega, hsize, hle⟩] at h
      exact .inl ⟨⟨hsize, hle⟩, h⟩
    · rw [packetNextEvent, if_neg fun hready => hcomplete hready.2] at h
      obtain ⟨-, rfl⟩ := answer_inj h
      exact .inr ⟨hcomplete, rfl⟩
  | returns status env =>
    simp only at h ⊢
    by_cases hrunning : s.running = 0
    · simp [hrunning] at h
    · exact ⟨hrunning, by rwa [if_neg hrunning] at h⟩
  | disable | serialise =>
    obtain ⟨-, rfl⟩ := answer_inj h
    rfl
  | enable =>
    simp only [packetRecvEnable] at h ⊢
    by_cases hready : s.numRead ≠ 0 ∧ s.numRead ≤ s.packetSize
    · rw [if_pos hready] at h
      cases hev : c.ev with
      | false => simp [hev] at h
      | true =>
        rw [hev] at h
        obtain ⟨-, rfl⟩ := answer_inj h
        exact ⟨s.timers + 1, rfl, by omega, fun _ _ => rfl⟩
    · rw [if_neg hready] at h
      obtain ⟨-, rfl⟩ := answer_inj h
      exact ⟨s.timers, rfl, Nat.le_refl _, fun hnum hle => absurd ⟨hnum, hle⟩ hready⟩
  | free =>
    obtain ⟨-, rfl⟩ := answer_inj h
    by_cases hbusy : s.busy = true
    · exact ⟨true, s.freed, by rw [tallocFree, if_pos hbusy]⟩
    · exact ⟨s.destructorCalled, true, by rw [tallocFree, if_neg hbusy]⟩

end OpenvasSmb.Stream

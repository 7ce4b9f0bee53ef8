import OpenvasSmb.Stream.Packet

/-!
# What the functions of the packet layer do

One lemma for each of them, over what has been read (`State.buffered`) and what is left on
the socket. `nextPartial_held` is the whole of `packet_recv` behind its label: the header
decides. `recvMore_cases` says what reading can come to: nothing is taken from the socket
(`Quiet`), or some bytes are appended to the buffer and the header decides again.
-/

namespace OpenvasSmb.Stream

open Kit Dcerpc List NtStatus
open Ndr (maxTallocSize)

variable {c : Config} {env : Env} {s s' : State} {o : Outcome}

/-! ## Memory -/

/-- The memory behind a `data_blob_realloc` that succeeds. -/
def grown (garbage : Nat → UInt8) (blob : Blob) (n : Nat) : Bytes :=
  (List.range n).map fun i => blob.data[i]?.getD (garbage i)

variable (garbage : Nat → UInt8)

@[simp] theorem length_grown (blob : Blob) (n : Nat) : (grown garbage blob n).length = n := by
  simp [grown]

theorem take_grown (blob : Blob) {k n : Nat} (hk : k ≤ blob.data.length)
    (hn : k ≤ n) : (grown garbage blob n).take k = blob.data.take k := by
  apply ext_getElem?
  intro i
  by_cases hi : i < k
  · rw [getElem?_take_of_lt hi, getElem?_take_of_lt hi, grown, getElem?_map, getElem?_range (by omega)]
    simp [show i < blob.data.length by omega]
  · rw [getElem?_take_eq_none (by omega), getElem?_take_eq_none (by omega)]

variable {p : Bytes}

theorem grown_held {n : Nat} (hn : n ≤ p.length) :
    grown garbage (.held p) n = p.take n := by
  have htake := take_grown garbage (.held p) hn (Nat.le_refl n)
  rwa [take_of_length_le (Nat.le_of_eq (length_grown _ _ _))] at htake

theorem dataBlobRealloc_eq (blob : Blob) (n : Nat) :
    dataBlobRealloc garbage blob n =
      if n = 0 ∨ maxTallocSize ≤ n then (.noMemory, .lost blob.length)
      else (.ok, .held (grown garbage blob n)) := rfl

/-! ## From `next_partial` on -/

/-- The context after the first `n` of the buffered bytes have been given to the callback. -/
def State.cutOff (s : State) (buffered : Bytes) (n : Nat) : State :=
  { s with
    partialBlob := .held (buffered.drop n)
    numRead := s.numRead - n
    packetSize := 0
    processing := if s.serialise then 1 else s.processing
    busy := true
    running := s.running + 1
    handed := s.handed ++ [buffered.take n] }

theorem State.length_buffered (h : s.numRead ≤ s.partialBlob.data.length) :
    s.buffered.length = s.numRead :=
  length_take_of_le h

theorem realloc_numRead (hp : s.partialBlob = .held p) (hle : s.numRead ≤ p.length)
    (hpos : s.numRead ≠ 0) (hsmall : p.length < maxTallocSize) :
    (if s.partialBlob.length ≠ s.numRead then
        dataBlobRealloc env.garbage s.partialBlob s.numRead
      else (.ok, s.partialBlob)) = (.ok, .held s.buffered) := by
  have hbuffered : s.buffered = p.take s.numRead := by rw [State.buffered, hp]; rfl
  rw [hp]
  show (if p.length ≠ s.numRead then dataBlobRealloc env.garbage (.held p) s.numRead
    else (.ok, .held p)) = _
  split_ifs with hlength
  · rw [dataBlobRealloc_eq, if_neg (by omega), hbuffered, grown_held _ hle]
  · rw [hbuffered, take_of_length_le (by omega)]

theorem handOver_eq (hlength : p.length = s.numRead) (hn : s.packetSize ≤ s.numRead)
    (hpos : s.numRead ≠ 0) (hsmall : s.packetSize < maxTallocSize) :
    handOver env s p =
      if s.packetSize = 0 then
        (.failed .noMemory, { s with partialBlob := .held p, sock := false })
      else (.callback (p.take s.packetSize), s.cutOff p s.packetSize) := by
  unfold handOver
  by_cases hzero : s.packetSize = 0
  · rw [if_pos (by omega), dataBlobRealloc_eq, if_pos (Or.inl hzero)]
    show packetError { s with partialBlob := .held (p.drop s.packetSize) } .noMemory = _
    rw [hzero]
    rfl
  · rw [if_neg hzero]
    by_cases hlt : s.packetSize < s.numRead
    · rw [if_pos hlt, dataBlobRealloc_eq, if_neg (by omega), grown_held _ (by omega)]
      rfl
    · rw [if_neg hlt, State.cutOff, take_of_length_le (by omega)]
      rfl

/-- **`packet_recv` from `next_partial` on.** By its header the buffer is left as it is, the packet
is cut off and given to the callback, or, if that is empty, the context is given up. -/
theorem nextPartial_held (hp : s.partialBlob = .held p) (hle : s.numRead ≤ p.length)
    (hpos : s.numRead ≠ 0) (hsmall : p.length < maxTallocSize) :
    nextPartial c env s = some (
      match c.framing.size s.buffered with
      | none => (.returned, { s with partialBlob := .held s.buffered })
      | some n =>
        if s.numRead < n then
          (.returned, { s with partialBlob := .held s.buffered, packetSize := n })
        else if n = 0 then
          (.failed .noMemory,
            { s with partialBlob := .held s.buffered, packetSize := 0, sock := false })
        else (.callback (s.buffered.take n), s.cutOff s.buffered n)) := by
  have hlength : s.buffered.length = s.numRead := State.length_buffered (by rw [hp]; exact hle)
  have htake : s.buffered.take s.numRead = s.buffered := take_of_length_le (by omega)
  unfold nextPartial
  rw [realloc_numRead hp hle hpos hsmall]
  simp only [isOk_ok, Bool.not_true, Bool.false_eq_true, if_false, Blob.withLength, htake,
    Framing.fullRequest_held]
  cases hsize : c.framing.size s.buffered with
  | none =>
    simp only [isErr_moreEntries, isOk_moreEntries, Bool.not_false,
      Bool.false_eq_true, if_false, if_true]
  | some n =>
    simp only [hlength]
    by_cases hlt : s.numRead < n
    · simp only [if_pos hlt, isErr_moreEntries, isOk_moreEntries, Bool.not_false,
        Bool.false_eq_true, if_false, if_true]
    · simp only [if_neg hlt, isOk_ok, isErr_ok, Bool.not_true,
        Bool.false_eq_true, if_false]
      rw [handOver_eq (s := { s with partialBlob := .held s.buffered, packetSize := n }) hlength
        (show n ≤ s.numRead by omega) hpos (Framing.size_lt hsize)]
      by_cases hzero : n = 0
      · rw [if_pos hzero, if_pos hzero, hzero]
      · rw [if_neg hzero, if_neg hzero]
        rfl

/-- Nothing has been read: a buffer that was made larger is given up, otherwise the header is
waited for. -/
theorem nextPartial_empty (hzero : s.numRead = 0) (h : nextPartial c env s = some (o, s')) :
    (∃ sock blob, s' = { s with partialBlob := blob, sock := sock } ∧
      blob.length = s.partialBlob.length) ∧ ∀ blob, o ≠ .callback blob := by
  unfold nextPartial at h
  rw [hzero] at h
  by_cases hlength : s.partialBlob.length = 0
  · have hheader : c.framing.fullRequest (s.partialBlob.withLength 0) s.packetSize =
        some (.moreEntries, s.packetSize) := by
      cases s.partialBlob <;> cases c.framing <;> rfl
    simp only [hlength, ne_eq, not_true_eq_false, if_false, hheader, isOk_ok,
      isErr_moreEntries, isOk_moreEntries, Bool.not_true, Bool.not_false,
      Bool.false_eq_true, if_true] at h
    obtain ⟨rfl, rfl⟩ := answer_inj h
    exact ⟨⟨s.sock, s.partialBlob, by simp [hzero], rfl⟩, by simp⟩
  · simp only [ne_eq, hlength, not_false_eq_true, if_true, dataBlobRealloc_eq, true_or,
      isOk_noMemory, Bool.not_false] at h
    obtain ⟨rfl, rfl⟩ := answer_inj h
    exact ⟨⟨false, .lost s.partialBlob.length, by simp [hzero], rfl⟩, by simp⟩

/-! ## Reading -/

/-- No byte is taken from the socket. It may be given up, and the buffer made larger or, if `n`
bytes more are too many, be lost. -/
inductive Quiet (n : Nat) (s : State) : State → Prop
  | same (sock : Bool) : Quiet n s { s with sock := sock }
  | grown (sock : Bool) {q : Bytes} (hread : q.take s.numRead = s.buffered)
      (hle : s.numRead ≤ q.length) (hsmall : q.length < maxTallocSize) :
      Quiet n s { s with partialBlob := .held q, sock := sock }
  | lost (hlarge : maxTallocSize ≤ n + s.numRead) :
      Quiet n s { s with partialBlob := .lost s.partialBlob.length, sock := false }

/-- The context with `k` bytes more, in the buffer `q`. -/
def State.filled (s : State) (q : Bytes) (k : Nat) : State :=
  { s with partialBlob := .held q, unread := s.unread.drop k, numRead := s.numRead + k }

/-- Of `n` bytes that were asked for, `k` are taken from the socket and put behind those that
are buffered. -/
structure Fills (n : Nat) (s : State) (q : Bytes) (k : Nat) : Prop where
  pos : 0 < k
  asked : k ≤ n
  there : k ≤ s.unread.length
  inside : n + s.numRead ≤ q.length
  small : q.length < maxTallocSize
  buffered : q.take (s.numRead + k) = s.buffered ++ s.unread.take k

theorem take_overwrite {k : Nat} (new : Bytes) (hk : k ≤ p.length) :
    (overwrite p k new).take (k + new.length) = p.take k ++ new := by
  have hlength : (p.take k ++ new).length = k + new.length := by
    rw [length_append, length_take_of_le hk]
  rw [overwrite, take_append_of_le_length (by omega), take_of_length_le (by omega)]

/-- `socket_recv` with a buffer of the right size. -/
theorem receive_cases {n : Nat} (hle : n + s.numRead ≤ s.partialBlob.length)
    (hsmall : s.partialBlob.length < maxTallocSize) (h : receive c env s n = some (o, s')) :
    ((∃ sock, s' = { s with sock := sock }) ∧ ∀ blob, o ≠ .callback blob) ∨
      ∃ q k, Fills n s q k ∧ nextPartial c env (s.filled q k) = some (o, s') := by
  unfold receive at h
  generalize (if s.sock then env.received else (.connectionDisconnected, 0)) = answer at h
  obtain ⟨status, nread⟩ := answer
  simp only at h
  split_ifs at h with herr hok hzero hmany
  · obtain ⟨rfl, rfl⟩ := answer_inj h
    exact .inl ⟨⟨false, rfl⟩, by simp⟩
  · obtain ⟨rfl, rfl⟩ := answer_inj h
    exact .inl ⟨⟨s.sock, rfl⟩, by simp⟩
  · obtain ⟨rfl, rfl⟩ := answer_inj h
    exact .inl ⟨⟨false, rfl⟩, by simp⟩
  · cases hp : s.partialBlob with
    | lost length => simp [hp] at h
    | held p =>
      rw [hp] at hle hsmall
      simp only [hp] at h
      simp only [Blob.length] at hle hsmall
      have hnew : (s.unread.take nread).length = nread := length_take_of_le (by omega)
      have hlength : (overwrite p s.numRead (s.unread.take nread)).length = p.length := by
        simp only [overwrite, length_append, length_take, length_drop]
        omega
      have hmod : (s.numRead + nread) % 2 ^ 32 = s.numRead + nread := by
        unfold maxTallocSize at hsmall
        exact Nat.mod_eq_of_lt (by omega)
      rw [hmod] at h
      refine .inr ⟨overwrite p s.numRead (s.unread.take nread), nread, ?_, h⟩
      refine ⟨by omega, by omega, by omega, by omega, by omega, ?_⟩
      have htake := take_overwrite (p := p) (k := s.numRead) (s.unread.take nread)
        (by omega)
      rw [hnew] at htake
      rw [htake, State.buffered, hp]
      rfl

/-- The buffer is made large enough for `n` bytes more. -/
theorem enlarge_cases {n : Nat} {status : NtStatus} {blob : Blob} (hn : n ≠ 0)
    (hle : s.numRead ≤ s.partialBlob.data.length) (hsmall : s.partialBlob.length < maxTallocSize)
    (h : (if s.partialBlob.length < n + s.numRead then
        dataBlobRealloc env.garbage s.partialBlob (n + s.numRead)
      else (.ok, s.partialBlob)) = (status, blob)) :
    (status.isOk = false ∧ Quiet n s { s with partialBlob := blob, sock := false }) ∨
      (status.isOk = true ∧ n + s.numRead ≤ blob.length ∧ blob.length < maxTallocSize ∧
        ({ s with partialBlob := blob } : State).buffered = s.buffered ∧
        ∀ sock, Quiet n s { s with partialBlob := blob, sock := sock }) := by
  split_ifs at h with hshort
  · rw [dataBlobRealloc_eq] at h
    split_ifs at h with hlarge
    · obtain ⟨rfl, rfl⟩ := Prod.mk.inj h
      exact .inl ⟨rfl, .lost (hlarge.resolve_left fun hnone => hn (by omega))⟩
    · obtain ⟨rfl, rfl⟩ := Prod.mk.inj h
      have hlength := length_grown env.garbage s.partialBlob (n + s.numRead)
      have hkept := take_grown env.garbage s.partialBlob hle (show s.numRead ≤ n + s.numRead by omega)
      refine .inr ⟨rfl, ?_, ?_, hkept, fun sock => .grown sock hkept ?_ ?_⟩
      · exact Nat.le_of_eq hlength.symm
      · show (grown env.garbage s.partialBlob (n + s.numRead)).length < maxTallocSize
        omega
      · omega
      · omega
  · obtain ⟨rfl, rfl⟩ := Prod.mk.inj h
    exact .inr ⟨rfl, by omega, hsmall, rfl, fun sock => .same sock⟩

/-- **`packet_recv` where more bytes are needed.** -/
theorem recvMore_cases (hle : s.numRead ≤ s.partialBlob.data.length)
    (hsmall : s.partialBlob.length < maxTallocSize) (h : recvMore c env s = some (o, s')) :
    ∃ status n, npending c env s = some (status, n) ∧
      ((Quiet n s s' ∧ ∀ blob, o ≠ .callback blob) ∨
        ∃ q k, Fills n s q k ∧ nextPartial c env (s.filled q k) = some (o, s')) := by
  unfold recvMore at h
  cases hasked : npending c env s with
  | none => simp [hasked] at h
  | some asked =>
    obtain ⟨status, n⟩ := asked
    simp only [hasked] at h
    refine ⟨status, n, rfl, ?_⟩
    have hfail : ∀ {status}, some (packetError s status) = some (o, s') →
        Quiet n s s' ∧ ∀ blob, o ≠ .callback blob := by
      intro status h
      obtain ⟨rfl, rfl⟩ := answer_inj h
      exact ⟨.same false, by simp⟩
    by_cases hok : (!status.isOk) = true
    · exact .inl (hfail (by rwa [if_pos hok] at h))
    by_cases hzero : n = 0
    · exact .inl (hfail (by rwa [if_neg hok, if_pos hzero] at h))
    by_cases hwrap : (n + s.numRead) % 2 ^ 64 < n
    · exact .inl (hfail (by rwa [if_neg hok, if_neg hzero, if_pos hwrap] at h))
    by_cases hwrap' : (n + s.numRead) % 2 ^ 64 < s.numRead
    · exact .inl (hfail (by rwa [if_neg hok, if_neg hzero, if_neg hwrap, if_pos hwrap'] at h))
    rw [if_neg hok, if_neg hzero, if_neg hwrap, if_neg hwrap'] at h
    generalize hroom : (if s.partialBlob.length < n + s.numRead then
        dataBlobRealloc env.garbage s.partialBlob (n + s.numRead)
      else (ok, s.partialBlob)) = room at h
    rcases enlarge_cases hzero hle hsmall hroom with
      ⟨hfull, hquiet⟩ | ⟨hfits, hlength, hsmall', hkept, hquiet⟩
    · simp only [hfull, Bool.not_false, if_true] at h
      obtain ⟨rfl, rfl⟩ := answer_inj h
      exact .inl ⟨hquiet, by simp⟩
    · simp only [hfits, Bool.not_true, Bool.false_eq_true, if_false] at h
      rw [if_neg (by omega)] at h
      rcases receive_cases hlength hsmall' h with ⟨⟨sock, rfl⟩, ho⟩ | ⟨q, k, hfills, hnext⟩
      · exact .inl ⟨hquiet sock, ho⟩
      · refine .inr ⟨q, k, ?_, hnext⟩
        exact { hfills with buffered := hfills.buffered.trans (by rw [hkept]) }

theorem recvMore_dead (hsock : s.sock = false) (h : recvMore c env s = some (o, s')) :
    (∃ blob, s' = { s with partialBlob := blob }) ∧ ∀ blob, o ≠ .callback blob := by
  have hfail : ∀ blob {status}, some (packetError { s with partialBlob := blob } status) =
      some (o, s') → (∃ blob, s' = { s with partialBlob := blob }) ∧ ∀ blob, o ≠ .callback blob := by
    intro blob status h
    obtain ⟨rfl, rfl⟩ := answer_inj h
    exact ⟨⟨blob, by simp [hsock]⟩, by simp⟩
  have hsame : ∀ {status}, some (packetError s status) = some (o, s') →
      (∃ blob, s' = { s with partialBlob := blob }) ∧ ∀ blob, o ≠ .callback blob :=
    fun h => hfail s.partialBlob h
  unfold recvMore at h
  cases hasked : npending c env s with
  | none => simp [hasked] at h
  | some asked =>
    obtain ⟨status, n⟩ := asked
    simp only [hasked] at h
    generalize (if s.partialBlob.length < n + s.numRead then
        dataBlobRealloc env.garbage s.partialBlob (n + s.numRead)
      else (ok, s.partialBlob)) = room at h
    obtain ⟨status', blob⟩ := room
    split_ifs at h
    · exact hsame h
    · exact hsame h
    · exact hsame h
    · exact hsame h
    · exact hfail _ h
    · exact hfail _ h
    · simp only [receive, hsock, Bool.false_eq_true, if_false,
        show connectionDisconnected.isErr = true from rfl, if_true] at h
      obtain ⟨rfl, rfl⟩ := answer_inj h
      exact ⟨⟨blob, by simp [hsock]⟩, by simp⟩

end OpenvasSmb.Stream

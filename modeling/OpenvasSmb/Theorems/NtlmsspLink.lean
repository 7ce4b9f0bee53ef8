import OpenvasSmb.Kit.Machine
import OpenvasSmb.Ntlmssp.Sign

/-!
# Two NTLMSSP ends

A client and a server that were set up with the same key and flags, NTLM2 among them. Messages of
both directions are signed or sealed and delivered in any interleaving, each direction in order.

What an end sends depends on one half of its state, what it checks on the other half (`Half`). The
halves of a direction are the same at the start, and protecting a message and checking it take
them through the same steps (`expose_protect`): the sender's half is the receiver's half taken
through the messages that are on their way (`Synced`).
-/

namespace OpenvasSmb.Ntlmssp

open Kit List

variable {κ : Type} (P : Primitives κ)

/-! ## The cipher -/

variable (keyExch : Bool)

@[simp] theorem length_arcfourCryptSbox (k : κ) (data : Bytes) :
    (arcfourCryptSbox P k data).1.length = data.length := Keystream.length_xorFirst ..

/-- From the same state the buffer is deciphered. -/
theorem arcfourCryptSbox_twice (k : κ) (data : Bytes) :
    arcfourCryptSbox P k (arcfourCryptSbox P k data).1 = (data, (arcfourCryptSbox P k data).2) := by
  rw [arcfourCryptSbox, length_arcfourCryptSbox]
  exact Keystream.xorFirst_xorFirst ..

/-! ## One direction -/

/-- One half of the NTLM2 state: what a direction depends on. -/
structure Half (κ : Type) where
  seqNum : UInt32
  signKey : Bytes
  sealState : κ

def State.sendHalf (s : State κ) : Half κ :=
  ⟨s.ntlm2.sendSeqNum, s.ntlm2.sendSignKey, s.ntlm2.sendSealArcfourState⟩

def State.recvHalf (s : State κ) : Half κ :=
  ⟨s.ntlm2.recvSeqNum, s.ntlm2.recvSignKey, s.ntlm2.recvSealArcfourState⟩

def State.withSend (s : State κ) (h : Half κ) : State κ :=
  { s with ntlm2 := { s.ntlm2 with
      sendSeqNum := h.seqNum, sendSignKey := h.signKey, sendSealArcfourState := h.sealState } }

def State.withRecv (s : State κ) (h : Half κ) : State κ :=
  { s with ntlm2 := { s.ntlm2 with
      recvSeqNum := h.seqNum, recvSignKey := h.signKey, recvSealArcfourState := h.sealState } }

/-- The signature of a PDU, enciphered when a key was exchanged, and the half behind it. -/
def Half.sign (h : Half κ) (pdu : Bytes) : Bytes × Half κ :=
  let digest := (P.hmacMd5 h.signKey (toLe 4 h.seqNum.toNat ++ pdu)).take 8
  if keyExch then
    (ntlm2Signature (arcfourCryptSbox P h.sealState digest).1 h.seqNum,
      ⟨h.seqNum + 1, h.signKey, (arcfourCryptSbox P h.sealState digest).2⟩)
  else (ntlm2Signature digest h.seqNum, ⟨h.seqNum + 1, h.signKey, h.sealState⟩)

inductive Kind where
  | signed
  | sealed

/-- The data buffer as it is sent, the signature, the half afterwards. -/
def Half.protect (h : Half κ) (data : Bytes) (pdu : Bytes → Bytes) :
    Kind → Bytes × Bytes × Half κ
  | .signed => (data, h.sign P keyExch (pdu data))
  | .sealed => ((arcfourCryptSbox P h.sealState data).1,
      { h with sealState := (arcfourCryptSbox P h.sealState data).2 }.sign P keyExch (pdu data))

/-- The status, the data buffer after a message was taken, the half afterwards. -/
def Half.expose (h : Half κ) (wire : Bytes) (pdu : Bytes → Bytes) (sig : Bytes) :
    Kind → NtStatus × Bytes × Half κ
  | .signed =>
    (if (h.sign P keyExch (pdu wire)).1 ≠ sig then .accessDenied else .ok, wire,
      (h.sign P keyExch (pdu wire)).2)
  | .sealed =>
    let data := (arcfourCryptSbox P h.sealState wire).1
    let h := { h with sealState := (arcfourCryptSbox P h.sealState wire).2 }
    (if (h.sign P keyExch (pdu data)).1 ≠ sig then .accessDenied else .ok, data,
      (h.sign P keyExch (pdu data)).2)

/-- **A message that arrives** in the same half is accepted, the data is back, and the halves agree
again. -/
theorem expose_protect (h : Half κ) (data : Bytes) (pdu : Bytes → Bytes) (kind : Kind) :
    h.expose P keyExch (h.protect P keyExch data pdu kind).1 pdu
      (h.protect P keyExch data pdu kind).2.1 kind =
      (.ok, data, (h.protect P keyExch data pdu kind).2.2) := by
  cases kind with
  | signed =>
    rw [Half.expose, Half.protect]
    simp only [ne_eq, not_true_eq_false, if_false]
  | sealed =>
    have htwice := arcfourCryptSbox_twice P h.sealState data
    rw [Half.expose, Half.protect]
    simp only [htwice, ne_eq, not_true_eq_false, if_false]

/-! ## The functions on their halves -/

/-- A state that the NTLM2 branches work on. -/
structure Ready (s : State κ) : Prop where
  ntlm2 : s.has negotiateNtlm2 = true
  sessionKey : s.sessionKey.length ≠ 0

variable {s : State κ}

section

variable (hs : Ready s)
include hs

theorem Ready.withSend (h : Half κ) : Ready (s.withSend h) :=
  ⟨hs.ntlm2, hs.sessionKey⟩

theorem Ready.withRecv (h : Half κ) : Ready (s.withRecv h) :=
  ⟨hs.ntlm2, hs.sessionKey⟩

theorem makePacketSignature_eq (data pdu : Bytes) :
    makePacketSignature P s data pdu .send true =
        ((s.sendHalf.sign P (s.has negotiateKeyExch) pdu).1,
          s.withSend (s.sendHalf.sign P (s.has negotiateKeyExch) pdu).2) ∧
      makePacketSignature P s data pdu .receive true =
        ((s.recvHalf.sign P (s.has negotiateKeyExch) pdu).1,
          s.withRecv (s.recvHalf.sign P (s.has negotiateKeyExch) pdu).2) := by
  simp only [makePacketSignature, if_pos hs.ntlm2, Half.sign]
  generalize s.has negotiateKeyExch = keyExch
  cases keyExch <;> exact ⟨rfl, rfl⟩

theorem signPacket_eq (data : Bytes) (pdu : Bytes → Bytes) :
    (data, signPacket P s data pdu) =
      let r := s.sendHalf.protect P (s.has negotiateKeyExch) data pdu .signed
      (r.1, r.2.1, s.withSend r.2.2) := by
  rw [signPacket, (makePacketSignature_eq P hs _ _).1]
  rfl

end

/-- An unencrypted signature: the digest is where `gensec_ntlmssp_seal_packet` enciphers it. -/
theorem ntlm2Signature_parts {digest : Bytes} (hlen : digest.length = 8) (seqNum : UInt32) :
    (ntlm2Signature digest seqNum).take 4 = toLe 4 signVersion ∧
      ((ntlm2Signature digest seqNum).drop 4).take 8 = digest ∧
      (ntlm2Signature digest seqNum).drop 12 = toLe 4 seqNum.toNat := by
  have hfour : (toLe 4 signVersion).length = 4 := length_toLe ..
  have htwelve : (toLe 4 signVersion ++ digest).length = 12 := by
    rw [length_append, hfour, hlen]
  unfold ntlm2Signature
  refine ⟨?_, ?_, drop_left' htwelve⟩
  · exact take_left' hfour
  · exact take_left' hlen

theorem sealPacket_eq (hs : Ready s) (data : Bytes) (pdu : Bytes → Bytes) :
    sealPacket P s data pdu =
      let r := s.sendHalf.protect P (s.has negotiateKeyExch) data pdu .sealed
      (.ok, r.1, r.2.1, s.withSend r.2.2) := by
  have hlen : ((P.hmacMd5 s.ntlm2.sendSignKey (toLe 4 s.ntlm2.sendSeqNum.toNat ++ pdu data)).take
      8).length = 8 := by
    rw [length_take, P.length_hmacMd5]
    rfl
  have hsig : makePacketSignature P s data (pdu data) .send false =
      (ntlm2Signature ((P.hmacMd5 s.ntlm2.sendSignKey
          (toLe 4 s.ntlm2.sendSeqNum.toNat ++ pdu data)).take 8) s.ntlm2.sendSeqNum,
        { s with ntlm2 := { s.ntlm2 with sendSeqNum := s.ntlm2.sendSeqNum + 1 } }) := by
    rw [makePacketSignature, if_pos hs.ntlm2]
    rfl
  obtain ⟨hhead, hdigest, htail⟩ := ntlm2Signature_parts hlen s.ntlm2.sendSeqNum
  have hhas : State.has { s with ntlm2 := { s.ntlm2 with sendSeqNum := s.ntlm2.sendSeqNum + 1 } }
      negotiateKeyExch = s.has negotiateKeyExch := rfl
  rw [sealPacket, if_neg hs.sessionKey, if_pos hs.ntlm2, hsig]
  simp only [hhead, hdigest, htail, hhas, Half.protect, Half.sign]
  generalize s.has negotiateKeyExch = keyExch
  cases keyExch <;> rfl

theorem checkPacket_eq (hs : Ready s) (data : Bytes) (pdu : Bytes → Bytes) (sig : Bytes) :
    checkPacket P s data pdu sig =
      let r := s.recvHalf.expose P (s.has negotiateKeyExch) data pdu sig .signed
      (r.1, s.withRecv r.2.2) := by
  rw [checkPacket, if_neg hs.sessionKey, (makePacketSignature_eq P hs _ _).2]
  simp only [hs.ntlm2, if_true, Half.expose]
  generalize s.recvHalf.sign P (s.has negotiateKeyExch) (pdu data) = made
  -- signatures of different lengths are different
  have hlen : made.1.length ≠ sig.length ∨ made.1 ≠ sig ↔ made.1 ≠ sig :=
    or_iff_right_of_imp fun hne heq => hne (congrArg length heq)
  simp only [hlen]

theorem unsealPacket_eq (hs : Ready s) (data : Bytes) (pdu : Bytes → Bytes) (sig : Bytes) :
    unsealPacket P s data pdu sig =
      let r := s.recvHalf.expose P (s.has negotiateKeyExch) data pdu sig .sealed
      (r.1, r.2.1, s.withRecv r.2.2) := by
  rw [unsealPacket, if_neg hs.sessionKey, if_pos hs.ntlm2]
  simp only
  rw [checkPacket_eq P
    (s := { s with ntlm2 := { s.ntlm2 with recvSealArcfourState :=
      (arcfourCryptSbox P s.ntlm2.recvSealArcfourState data).2 } }) ⟨hs.ntlm2, hs.sessionKey⟩]
  rfl

/-! ## The link -/

/-- A message on its way: the buffer, the PDU around it and the signature as they were sent,
and the data it was made of. -/
structure Sent where
  kind : Kind
  wire : Bytes
  pdu : Bytes → Bytes
  sig : Bytes
  data : Bytes

/-- The two ends, and what is on its way to each. -/
structure Link (κ : Type) where
  client : State κ
  server : State κ
  toServer : List Sent
  toClient : List Sent

inductive Event where
  | send (sender : Role) (kind : Kind) (data : Bytes) (pdu : Bytes → Bytes)
  | deliver (receiver : Role)

/-- What an end got: the status of sending, or the status and the data buffer of a delivery
with the message it was. -/
inductive Outcome where
  | sent (status : NtStatus)
  | received (status : NtStatus) (data : Bytes) (message : Sent)

def sendMessage (s : State κ) (kind : Kind) (data : Bytes) (pdu : Bytes → Bytes) :
    NtStatus × Sent × State κ :=
  match kind with
  | .signed =>
    let (sig, s) := signPacket P s data pdu
    (.ok, ⟨.signed, data, pdu, sig, data⟩, s)
  | .sealed =>
    let (status, wire, sig, s) := sealPacket P s data pdu
    (status, ⟨.sealed, wire, pdu, sig, data⟩, s)

def takeMessage (s : State κ) (m : Sent) : NtStatus × Bytes × State κ :=
  match m.kind with
  | .signed =>
    let (status, s) := checkPacket P s m.wire m.pdu m.sig
    (status, m.wire, s)
  | .sealed => unsealPacket P s m.wire m.pdu m.sig

/-- The link as a machine; nothing can be delivered when nothing is on its way. -/
def link : Machine (Link κ) Event Outcome where
  step l
    | .send .client kind data pdu =>
      let (status, m, s) := sendMessage P l.client kind data pdu
      some (.sent status, { l with client := s, toServer := l.toServer ++ [m] })
    | .send .server kind data pdu =>
      let (status, m, s) := sendMessage P l.server kind data pdu
      some (.sent status, { l with server := s, toClient := l.toClient ++ [m] })
    | .deliver .server =>
      match l.toServer with
      | [] => none
      | m :: rest =>
        let (status, data, s) := takeMessage P l.server m
        some (.received status data m, { l with server := s, toServer := rest })
    | .deliver .client =>
      match l.toClient with
      | [] => none
      | m :: rest =>
        let (status, data, s) := takeMessage P l.client m
        some (.received status data m, { l with client := s, toClient := rest })

/-- The sender's half `h'` is the receiver's half `h` taken through the messages that are on
their way. -/
inductive Synced (keyExch : Bool) : Half κ → List Sent → Half κ → Prop where
  | done (h : Half κ) : Synced keyExch h [] h
  | message {h h' : Half κ} {m : Sent} {rest : List Sent}
      (hwire : m.wire = (h.protect P keyExch m.data m.pdu m.kind).1)
      (hsig : m.sig = (h.protect P keyExch m.data m.pdu m.kind).2.1)
      (hrest : Synced keyExch (h.protect P keyExch m.data m.pdu m.kind).2.2 rest h') :
      Synced keyExch h (m :: rest) h'

theorem Synced.append {keyExch : Bool} {h h' : Half κ} {queue : List Sent} {m : Sent}
    (hq : Synced P keyExch h queue h') (hwire : m.wire = (h'.protect P keyExch m.data m.pdu m.kind).1)
    (hsig : m.sig = (h'.protect P keyExch m.data m.pdu m.kind).2.1) :
    Synced P keyExch h (queue ++ [m]) (h'.protect P keyExch m.data m.pdu m.kind).2.2 := by
  induction hq with
  | done h => exact .message hwire hsig (.done _)
  | message hwire' hsig' _ ih => exact .message hwire' hsig' (ih hwire hsig)

theorem sendMessage_eq (hs : Ready s) (kind : Kind) (data : Bytes) (pdu : Bytes → Bytes) :
    sendMessage P s kind data pdu =
      let r := s.sendHalf.protect P (s.has negotiateKeyExch) data pdu kind
      (.ok, ⟨kind, r.1, pdu, r.2.1, data⟩, s.withSend r.2.2) := by
  cases kind with
  | signed =>
    have hsign := signPacket_eq P hs data pdu
    simp only [Prod.mk.injEq] at hsign
    rw [sendMessage]
    simp only [hsign.2, ← hsign.1]
  | sealed => rw [sendMessage, sealPacket_eq P hs]

theorem takeMessage_eq (hs : Ready s) (m : Sent) :
    takeMessage P s m =
      let r := s.recvHalf.expose P (s.has negotiateKeyExch) m.wire m.pdu m.sig m.kind
      (r.1, r.2.1, s.withRecv r.2.2) := by
  unfold takeMessage
  cases m.kind with
  | signed =>
    rw [checkPacket_eq P hs]
    rfl
  | sealed => exact unsealPacket_eq P hs ..

/-- A message at the head of a synced queue is taken as it was sent. -/
theorem takeMessage_synced (hs : Ready s) {m : Sent} {rest : List Sent} {h' : Half κ}
    (hq : Synced P (s.has negotiateKeyExch) s.recvHalf (m :: rest) h') :
    ∃ h, takeMessage P s m = (.ok, m.data, s.withRecv h) ∧
      Synced P (s.has negotiateKeyExch) h rest h' := by
  cases hq with
  | message hwire hsig hrest =>
    refine ⟨_, ?_, hrest⟩
    rw [takeMessage_eq P hs, hwire, hsig, expose_protect]

/-! ## The invariant -/

/-- Both ends work with the same flags, and each direction is synced. -/
structure Linked (l : Link κ) : Prop where
  client : Ready l.client
  server : Ready l.server
  flags : l.server.negFlags = l.client.negFlags
  toServer : Synced P (l.client.has negotiateKeyExch) l.server.recvHalf l.toServer l.client.sendHalf
  toClient : Synced P (l.client.has negotiateKeyExch) l.client.recvHalf l.toClient l.server.sendHalf

variable {P}

theorem Linked.has_server {l : Link κ} (hl : Linked P l) (flag : UInt32) :
    l.server.has flag = l.client.has flag := by
  rw [State.has, State.has, hl.flags]

/-- Everything is sent, and everything that arrives is accepted with the data it was made
of. -/
def Outcome.Good : Outcome → Prop
  | .sent status => status = .ok
  | .received status data message => status = .ok ∧ data = message.data

theorem linked_step {l l' : Link κ} {e : Event} {o : Outcome} (hl : Linked P l)
    (hstep : (link P).step l e = some (o, l')) : o.Good ∧ Linked P l' := by
  cases e with
  | send sender kind data pdu =>
    cases sender with
    | client =>
      simp only [link, sendMessage_eq P hl.client] at hstep
      obtain ⟨rfl, rfl⟩ := answer_inj hstep
      exact ⟨rfl, hl.client.withSend _, hl.server, hl.flags,
        hl.toServer.append P (m := ⟨kind, _, pdu, _, data⟩) rfl rfl, hl.toClient⟩
    | server =>
      simp only [link, sendMessage_eq P hl.server, hl.has_server] at hstep
      obtain ⟨rfl, rfl⟩ := answer_inj hstep
      exact ⟨rfl, hl.client, hl.server.withSend _, hl.flags, hl.toServer,
        hl.toClient.append P (m := ⟨kind, _, pdu, _, data⟩) rfl rfl⟩
  | deliver receiver =>
    cases receiver with
    | server =>
      cases hq : l.toServer with
      | nil => simp [link, hq] at hstep
      | cons m rest =>
        have hsync := hl.toServer
        rw [hq, ← hl.has_server] at hsync
        obtain ⟨h, htake, hrest⟩ := takeMessage_synced P hl.server hsync
        simp only [link, hq, htake] at hstep
        obtain ⟨rfl, rfl⟩ := answer_inj hstep
        rw [hl.has_server] at hrest
        exact ⟨⟨rfl, rfl⟩, hl.client, hl.server.withRecv h, hl.flags, hrest, hl.toClient⟩
    | client =>
      cases hq : l.toClient with
      | nil => simp [link, hq] at hstep
      | cons m rest =>
        have hsync := hl.toClient
        rw [hq] at hsync
        obtain ⟨h, htake, hrest⟩ := takeMessage_synced P hl.client hsync
        simp only [link, hq, htake] at hstep
        obtain ⟨rfl, rfl⟩ := answer_inj hstep
        exact ⟨⟨rfl, rfl⟩, hl.client.withRecv h, hl.server, hl.flags, hl.toServer, hrest⟩

/-! ## Setting up -/

theorem ntlmsspSignInit_eq {s s' : State κ} (hntlm2 : s.has negotiateNtlm2 = true)
    (h : ntlmsspSignInit P s = (.ok, s')) :
    Ready s' ∧ s'.negFlags = s.negFlags ∧
      s'.sendHalf = ⟨0, calcNtlmv2Key P s.sessionKey s.role.constants.1,
        P.arcfourInit (calcNtlmv2Key P (weakSessionKey s) s.role.constants.2.1)⟩ ∧
      s'.recvHalf = ⟨0, calcNtlmv2Key P s.sessionKey s.role.constants.2.2.1,
        P.arcfourInit (calcNtlmv2Key P (weakSessionKey s) s.role.constants.2.2.2)⟩ := by
  unfold ntlmsspSignInit at h
  by_cases hlen : s.sessionKey.length < 8
  · rw [if_pos hlen] at h
    have hstatus : NtStatus.noUserSessionKey = .ok := congrArg Prod.fst h
    exact absurd hstatus (by decide)
  · rw [if_neg hlen, if_pos hntlm2] at h
    obtain ⟨-, rfl⟩ := Prod.mk.inj h
    exact ⟨⟨hntlm2, show s.sessionKey.length ≠ 0 by omega⟩, rfl, rfl, rfl⟩

theorem linked_init {c s c' s' : State κ} (hclient : c.role = .client) (hserver : s.role = .server)
    (hkey : s.sessionKey = c.sessionKey) (hflags : s.negFlags = c.negFlags)
    (hntlm2 : c.has negotiateNtlm2 = true) (hc : ntlmsspSignInit P c = (.ok, c'))
    (hs : ntlmsspSignInit P s = (.ok, s')) : Linked P ⟨c', s', [], []⟩ := by
  have hhas : ∀ flag, s.has flag = c.has flag := fun flag => by rw [State.has, State.has, hflags]
  have hweak : weakSessionKey s = weakSessionKey c := by
    rw [weakSessionKey, weakSessionKey, hhas, hhas, hkey]
  obtain ⟨hready, hflags', hsend, hrecv⟩ := ntlmsspSignInit_eq hntlm2 hc
  obtain ⟨hready', hflags'', hsend', hrecv'⟩ := ntlmsspSignInit_eq ((hhas _).trans hntlm2) hs
  rw [hclient] at hsend hrecv
  rw [hserver, hkey, hweak] at hsend' hrecv'
  refine ⟨hready, hready', hflags''.trans (hflags.trans hflags'.symm), ?_, ?_⟩
  · -- what the client sends with is what the server receives with
    show Synced P _ s'.recvHalf [] c'.sendHalf
    rw [hrecv', hsend]
    exact .done _
  · show Synced P _ c'.recvHalf [] s'.sendHalf
    rw [hrecv, hsend']
    exact .done _

/-- **NTLM2 links.** Whatever is signed and sealed on the two ends, in whatever order the messages
are sent and delivered, every check and every unsealing succeeds and gives the data back. -/
theorem ntlm2_link (P : Primitives κ) {c s c' s' : State κ} (hclient : c.role = .client)
    (hserver : s.role = .server) (hkey : s.sessionKey = c.sessionKey)
    (hflags : s.negFlags = c.negFlags) (hntlm2 : c.has negotiateNtlm2 = true)
    (hc : ntlmsspSignInit P c = (.ok, c')) (hs : ntlmsspSignInit P s = (.ok, s'))
    (events : List Event) : (link P).EachStep (fun _ _ o _ => o.Good) ⟨c', s', [], []⟩ events :=
  Machine.EachStep.of_inv (I := Linked P) (C := fun _ _ _ _ => True)
    (fun _ _ _ _ hl hstep _ => (linked_step hl hstep).symm) events _
    (linked_init hclient hserver hkey hflags hntlm2 hc hs) (Machine.eachStep_true _ _)

/-- Primitives that can be evaluated: a counter as the keystream, sums as hash functions. -/
def counterPrimitives : Primitives UInt8 where
  arcfourInit key := key.foldl (· + ·) 0
  next k := (k, k + 1)
  md5 text := [text.foldl (· + ·) 0]
  hmacMd5 key text := List.replicate 16 ((key ++ text).foldl (· + ·) 0)
  length_hmacMd5 _ _ := List.length_replicate
  crc32 _ := 0

/-- An end with a key of eight bytes, NTLM2 and a key exchange, before it is set up. -/
def endBefore (role : Role) : State UInt8 where
  role := role
  sessionKey := [1, 2, 3, 4, 5, 6, 7, 8]
  negFlags := negotiateNtlm2 ||| negotiateKeyExch
  ntlm := ⟨0, 0⟩
  ntlm2 := ⟨0, 0, [], [], 0, 0⟩

/-- A sealed and a signed message to the server and a sealed one back. -/
theorem ntlm2_link_three :
    (link counterPrimitives).EachStep (fun _ _ o _ => o.Good)
      ⟨(ntlmsspSignInit counterPrimitives (endBefore .client)).2,
        (ntlmsspSignInit counterPrimitives (endBefore .server)).2, [], []⟩
      [.send .client .sealed [1, 2, 3] id, .send .client .signed [4] (fun data => 9 :: data),
        .deliver .server, .send .server .sealed [5, 6] id, .deliver .server, .deliver .client] :=
  ntlm2_link counterPrimitives (c := endBefore .client) (s := endBefore .server) rfl rfl rfl rfl
    (by decide) rfl rfl _

end OpenvasSmb.Ntlmssp

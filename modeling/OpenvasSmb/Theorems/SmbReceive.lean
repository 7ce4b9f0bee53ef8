import OpenvasSmb.Smb.Receive

/-!
# Packets and replies

`smbcli_transport_finish_recv` reads the multiplex id and the word count of every packet of 35
bytes or more, although they end at byte 37: the limit does not count the NBT header. A packet
whose type is not zero completes the request with its multiplex id as successful, and so does any
packet while a readbraw is pending. Apart from these, a request that is completed as successful
has its header, words and data in the packet.

`smbcli_chained_advance` reads the second word of the reply, also of a reply with no words.
-/

namespace OpenvasSmb.Smb

open Kit Option

variable {md5 : Bytes → Bytes} {t t' : Transport} {p : Packet} {req req' : Request} {r : Received}

/-! ## Completed requests -/

/-- The packet is an SMB message: an NBT message with the magic number. -/
def IsSmbMessage (p : Packet) : Prop :=
  p.bytes.head? = some 0 ∧ (p.bytes.drop 4).take 4 = [0xFF, 0x53, 0x4D, 0x42]

instance (p : Packet) : Decidable (IsSmbMessage p) := inferInstanceAs (Decidable (_ ∧ _))

def Request.Succeeded (req : Request) : Prop := req.state = .done ∧ req.status.isOk = true

instance (req : Request) : Decidable req.Succeeded := inferInstanceAs (Decidable (_ ∧ _))

/-- A request that the packet completes as successful has its reply in the packet, and is no SMB
request if the packet is no SMB message. -/
def Received.Sound (p : Packet) : Received → Prop
  | .completed req =>
    req.Succeeded → (IsSmbMessage p → req.inn.Within p) ∧ (¬ IsSmbMessage p → req.smb = false)
  | .discarded | .oplockBreak _ => True

/-- Nothing is read outside the packet, and what is completed is sound. -/
def ReceivesSoundly (md5 : Bytes → Bytes) (t : Transport) (p : Packet) : Prop :=
  ∃ r t', smbcliTransportFinishRecv md5 t p = some (r, t') ∧ r.Sound p

/-- The packet is an NBT message that is too short for its words, has an error status or a wrong
signature. -/
def Refuses (md5 : Bytes → Bytes) (t : Transport) (req : Request) (p : Packet) (wct : Nat) :
    Prop :=
  p.bytes.head? = some 0 ∧
    (p.size < 39 + 2 * wct ∨
      ∃ inn status, fillIn p wct = some inn ∧ headerStatus p.hdr = some status ∧
        (status.isOk = false ∨
          ∃ s, smbcliRequestCheckSignMac md5 { req with inn := inn, status := status }
            t.signInfo = some (false, s)))

/-- The condition on a packet. -/
def Expected (md5 : Bytes → Bytes) (t : Transport) (p : Packet) : Prop :=
  smbcliHandleOplockBreak p ≠ some none ∨
    if t.readbrawPending then
      ∀ req, t.pending.head? = some req → req.status.isOk = true →
        req.smb = false ∧ ¬ IsSmbMessage p
    else
      p.size ≠ 35 ∧ p.size ≠ 36 ∧
        ∀ mid wct req, midAndWct p = some (mid, wct) → t.find mid = some req →
          isNtcancelReply req p = some false → req.smb = true →
            IsSmbMessage p ∨ Refuses md5 t req p wct

/-- No request points into the packet, as it has just come. -/
def Transport.Fresh (t : Transport) (p : Packet) : Prop :=
  ∀ req ∈ t.pending, ∀ q, req.inn.hdr = some q → q.packet ≠ p

theorem Transport.Fresh.not_within (h : t.Fresh p) (hreq : req ∈ t.pending)
    {inn : RequestBuffer} (hhdr : inn.hdr = req.inn.hdr) : ¬ inn.Within p := by
  intro hwithin
  obtain ⟨q, hq, hinside⟩ := hwithin.hdr
  exact h req hreq q (hhdr ▸ hq) hinside.1

theorem fillReply_sound (md5 : Bytes → Bytes) (t : Transport) (req : Request) (wct : Nat)
    (hlen : 4 ≤ p.size) : ∃ r t', fillReply md5 t req p wct = some (r, t') ∧
      (r.Sound p ↔ (req.smb = true → IsSmbMessage p ∨ Refuses md5 t req p wct)) := by
  have hfailed : ∀ req' : Request, req'.state = .error → Received.Sound p (.completed req') :=
    fun req' hstate hok => absurd (hstate.symm.trans hok.1) (by decide)
  obtain ⟨hnbt, heq⟩ | ⟨hmessage, hwords, status, -, heq⟩ |
    ⟨inn, status, good, signInfo, hfilled, heq⟩ := fillReply_cases md5 t req wct hlen
  · refine ⟨_, _, heq, ?_⟩
    have hnot : ¬ IsSmbMessage p := fun h => hnbt h.1
    constructor
    · intro hsound hsmb
      have := (hsound ⟨rfl, rfl⟩).2 hnot
      exact absurd (hsmb.symm.trans this) (by decide)
    · intro h _
      refine ⟨fun hmessage => absurd hmessage hnot, fun _ => ?_⟩
      by_contra hsmb
      rcases h (eq_true_of_ne_false hsmb) with hmessage | hrefuses
      · exact hnot hmessage
      · exact hnbt hrefuses.1
  · exact ⟨_, _, heq, iff_of_true (hfailed _ rfl) fun _ => .inr ⟨hmessage, .inl hwords⟩⟩
  · cases good with
    | false =>
      refine ⟨_, _, heq, iff_of_true (hfailed _ rfl) fun _ => .inr ⟨hfilled.message, .inr ?_⟩⟩
      exact ⟨inn, status, hfilled.filled, hfilled.header, .inr ⟨signInfo, hfilled.checked⟩⟩
    | true =>
      refine ⟨_, _, heq, ?_⟩
      constructor
      · intro hsound hsmb
        by_cases hmessage : IsSmbMessage p
        · exact .inl hmessage
        · refine .inr ⟨hfilled.message,
            .inr ⟨inn, status, hfilled.filled, hfilled.header, .inl ?_⟩⟩
          by_contra hok
          have := (hsound ⟨rfl, eq_true_of_ne_false hok⟩).2 hmessage
          exact absurd (hsmb.symm.trans this) (by decide)
      · intro h hok
        refine ⟨fun _ => hfilled.within, fun hmessage => ?_⟩
        by_contra hsmb
        rcases h (eq_true_of_ne_false hsmb) with hsmb | ⟨-, hshort | hrefused⟩
        · exact hmessage hsmb
        · have := hfilled.long
          omega
        · obtain ⟨inn', status', hinn', hstatus', hbad⟩ := hrefused
          obtain rfl := some.inj (hfilled.filled.symm.trans hinn')
          obtain rfl := some.inj (hfilled.header.symm.trans hstatus')
          rcases hbad with hbad | ⟨s, hbad⟩
          · exact absurd (hok.2.symm.trans hbad) (by decide)
          · rw [hfilled.checked] at hbad
            exact absurd (congrArg Prod.fst (some.inj hbad)) (by simp)

theorem matchReply_sound (hlen : 4 ≤ p.size) :
    (∃ r t', matchReply md5 t p = some (r, t') ∧ r.Sound p) ↔
      p.size ≠ 35 ∧ p.size ≠ 36 ∧
        ∀ mid wct req, midAndWct p = some (mid, wct) → t.find mid = some req →
          isNtcancelReply req p = some false → req.smb = true →
            IsSmbMessage p ∨ Refuses md5 t req p wct := by
  rw [← and_assoc, ← midAndWct_total]
  cases hread : midAndWct p with
  | none => simp [matchReply, hread]
  | some v =>
    obtain ⟨mid, wct⟩ := v
    cases hfind : t.find mid with
    | none =>
      refine iff_of_true ⟨.discarded, t, ?_, trivial⟩ ⟨⟨_, rfl⟩, ?_⟩
      · simp only [matchReply, hread, hfind, bind_eq_bind, bind_some]
      · intro mid' wct' req hread' hfind'
        obtain ⟨rfl, rfl⟩ := answer_inj hread'
        exact absurd (hfind.symm.trans hfind') (by simp)
    | some req =>
      have hunique : ∀ mid' wct' req', some (mid, wct) = some (mid', wct') →
          t.find mid' = some req' → mid' = mid ∧ wct' = wct ∧ req' = req := by
        intro mid' wct' req' hread' hfind'
        obtain ⟨rfl, rfl⟩ := answer_inj hread'
        exact ⟨rfl, rfl, some.inj (hfind'.symm.trans hfind)⟩
      obtain ⟨cancelled, hcancel⟩ := isNtcancelReply_total req p
      cases cancelled with
      | true =>
        refine iff_of_true ⟨.discarded, t.removeNtcancel req, ?_, trivial⟩ ⟨⟨_, rfl⟩, ?_⟩
        · simp only [matchReply, hread, hfind, hcancel, bind_eq_bind, bind_some, if_true]
        · intro mid' wct' req' hread' hfind' hcancel'
          obtain ⟨rfl, rfl, rfl⟩ := hunique mid' wct' req' hread' hfind'
          exact absurd (hcancel.symm.trans hcancel') (by simp)
      | false =>
        obtain ⟨r, t', heq, hsound⟩ := fillReply_sound md5 t req wct hlen
        have hmatch : matchReply md5 t p = some (r, t') := by
          simp only [matchReply, hread, hfind, hcancel, bind_eq_bind,
            bind_some, Bool.false_eq_true, if_false, heq]
        constructor
        · rintro ⟨r', t'', heq', hsound'⟩
          obtain ⟨rfl, rfl⟩ := answer_inj (hmatch.symm.trans heq')
          refine ⟨⟨_, rfl⟩, fun mid' wct' req' hread' hfind' _ => ?_⟩
          obtain ⟨rfl, rfl, rfl⟩ := hunique mid' wct' req' hread' hfind'
          exact hsound.mp hsound'
        · rintro ⟨-, h⟩
          exact ⟨r, t', hmatch, hsound.mpr (h mid wct req rfl hfind hcancel)⟩

/-- **Which packets are received soundly.** -/
theorem receivesSoundly_iff (hlen : 4 ≤ p.size) (hfresh : t.Fresh p) :
    ReceivesSoundly md5 t p ↔ Expected md5 t p := by
  obtain ⟨oplock, hoplock⟩ := oplockBreak_total p
  unfold ReceivesSoundly Expected
  cases oplock with
  | some info =>
    refine iff_of_true ⟨.oplockBreak info, t, ?_, trivial⟩ (.inl (by rw [hoplock]; simp))
    simp only [smbcliTransportFinishRecv, hoplock, bind_eq_bind, bind_some]
  | none =>
    rw [hoplock, ne_self_iff_false, false_or]
    cases hraw : t.readbrawPending with
    | false =>
      rw [← matchReply_sound hlen]
      simp only [smbcliTransportFinishRecv, hoplock, hraw, bind_eq_bind,
        bind_some, Bool.false_eq_true, if_false]
    | true =>
      simp only [smbcliTransportFinishRecv, hoplock, hraw, bind_eq_bind, bind_some, if_true]
      cases hhead : t.pending.head? with
      | none =>
        refine iff_of_true ⟨.discarded, _, rfl, trivial⟩ ?_
        intro req hreq
        simp at hreq
      | some req =>
        have hmem : req ∈ t.pending := List.mem_of_head? hhead
        constructor
        · rintro ⟨r, t', heq, hsound⟩ req' hreq' hok
          obtain rfl := some.inj hreq'
          obtain ⟨rfl, rfl⟩ := answer_inj heq
          have hsound := hsound ⟨rfl, hok⟩
          have hnot : ¬ IsSmbMessage p := fun hmessage =>
            absurd (hsound.1 hmessage) (hfresh.not_within hmem rfl)
          exact ⟨hsound.2 hnot, hnot⟩
        · intro h
          refine ⟨_, _, rfl, fun hok => ?_⟩
          obtain ⟨hsmb, hnot⟩ := h req rfl hok.2
          exact ⟨fun hmessage => absurd hmessage hnot, fun _ => hsmb⟩

/-! ## Chained replies -/

/-- What any number of calls of `smbcli_chained_advance` makes of a reply. -/
inductive Advanced (inn : RequestBuffer) : RequestBuffer → Prop
  | start : Advanced inn inn
  | advance {inn' inn'' : RequestBuffer} {status : NtStatus} (h : Advanced inn inn')
      (hstep : smbcliChainedAdvance inn' = some (status, inn'')) : Advanced inn inn''

/-- The reply is the last of its chain, or the packet has a second word behind its first. -/
def SecondWord (inn : RequestBuffer) : Prop :=
  ∀ vwv, inn.vwv = some vwv → vwv.cval 0 = some 0xFF ∨ vwv.ofs + 4 ≤ vwv.packet.size

/-- The header and the first word of the reply are in the packet. -/
structure RequestBuffer.Begun (inn : RequestBuffer) (p : Packet) : Prop where
  buffer : inn.buffer = some p
  hdr : ∃ q, inn.hdr = some q ∧ q.Inside 33 p
  vwv : ∃ q, inn.vwv = some q ∧ q.Inside 2 p

namespace RequestBuffer

variable {inn : RequestBuffer}

theorem Within.begun (h : inn.Within p) : inn.Begun p := by
  obtain ⟨v, hv, hvpacket, hinside⟩ := h.vwv
  exact ⟨h.buffer, h.hdr, ⟨v, hv, hvpacket, by omega⟩⟩

theorem size_eq (h : inn.buffer = some p) : inn.size = p.size := by
  rw [size, h]
  rfl

theorem Begun.advanceTo (h : inn.Begun p) (ofs : Nat) :
    ∃ status inn', advanceTo inn ⟨p, ofs⟩ = some (status, inn') ∧ inn'.Begun p ∧
      (status = .ok → inn'.Within p) := by
  have hsmall : ¬ NtStatus.bufferTooSmall = .ok := by decide
  unfold Smb.advanceTo
  rw [size_eq h.buffer]
  by_cases hblock : ofs + 3 > p.size
  · exact ⟨_, _, if_pos hblock, h, fun hok => absurd hok hsmall⟩
  · rw [if_neg hblock]
    obtain ⟨wct, hwct⟩ : ∃ v, (⟨p, ofs⟩ : Ptr).cval 0 = some v :=
      Ptr.exists_cval.mpr (show ofs + 0 + 1 ≤ p.size by omega)
    have hsize : ∀ vwv wct data dataSize,
        ({ inn with vwv := vwv, wct := wct, data := data, dataSize := dataSize } :
          RequestBuffer).size = p.size := fun _ _ _ _ => size_eq h.buffer
    have hbegun : ∀ wct data dataSize, ({ inn with
        vwv := some ⟨p, ofs + 1⟩, wct := wct, data := data, dataSize := dataSize } :
          RequestBuffer).Begun p := fun _ _ _ =>
      ⟨h.buffer, h.hdr, ⟨_, rfl, rfl, show ofs + 1 + 2 ≤ p.size by omega⟩⟩
    simp only [hwct, bind_eq_bind, bind_some, hsize]
    by_cases hwords : ofs + 3 + wct * 2 > p.size
    · exact ⟨_, _, if_pos hwords, hbegun _ _ _, fun hok => absurd hok hsmall⟩
    · rw [if_neg hwords]
      obtain ⟨dataSize, hdata⟩ : ∃ v, (⟨p, ofs + 1⟩ : Ptr).sval (2 * wct) = some v :=
        Ptr.exists_sval.mpr (show ofs + 1 + 2 * wct + 2 ≤ p.size by omega)
      simp only [hdata, bind_some]
      refine ⟨_, _, rfl, hbegun _ _ _, fun hok => ?_⟩
      have hroom : ofs + 3 + wct * 2 + dataSize ≤ p.size := by
        by_contra hover
        rw [if_pos (Nat.lt_of_not_le hover)] at hok
        exact hsmall hok
      refine ⟨h.buffer, h.hdr, ⟨_, rfl, rfl, ?_⟩, ⟨_, rfl, rfl, ?_⟩⟩
      · show ofs + 1 + (2 * wct + 2) ≤ p.size
        omega
      · show ofs + 1 + 2 + wct * 2 + dataSize ≤ p.size
        omega

theorem Begun.advance (h : inn.Begun p) :
    (SecondWord inn → ∃ status inn', smbcliChainedAdvance inn = some (status, inn') ∧
      inn'.Begun p ∧ (status = .ok → inn'.Within p)) ∧
    (¬ SecondWord inn → smbcliChainedAdvance inn = none) := by
  obtain ⟨hdr, hhdr, hpacket, -⟩ := h.hdr
  obtain ⟨vwv, hvwv, hvpacket, hvinside⟩ := h.vwv
  obtain ⟨command, hcommand⟩ : ∃ v, vwv.cval 0 = some v :=
    Ptr.exists_cval.mpr (by rw [hvpacket]; omega)
  have hsecond : SecondWord inn ↔ command = 0xFF ∨ vwv.ofs + 4 ≤ p.size := by
    constructor
    · intro hword
      rw [← hvpacket]
      exact (hword vwv hvwv).imp (fun hlast => some.inj (hcommand.symm.trans hlast)) id
    · intro hword v hv
      obtain rfl := some.inj (hvwv.symm.trans hv)
      rw [hvpacket]
      exact hword.imp (fun hlast : command = 0xFF => hlast ▸ hcommand) id
  rw [hsecond]
  by_cases hlast : command = 0xFF
  · refine ⟨fun _ => ⟨.notFound, inn, ?_, h, fun hok => absurd hok (by decide)⟩,
      fun hnot => absurd (.inl hlast) hnot⟩
    simp only [smbcliChainedAdvance, hvwv, hcommand, hlast, bind_eq_bind, bind_some, if_true]
  · constructor
    · intro hword
      obtain ⟨ofs, hofs⟩ : ∃ v, vwv.sval 2 = some v :=
        Ptr.exists_sval.mpr (by rw [hvpacket]; omega)
      simp only [smbcliChainedAdvance, hvwv, hcommand, hlast, hhdr, hofs, bind_eq_bind,
        bind_some, if_false, hpacket]
      exact h.advanceTo _
    · intro hnot
      have hshort : vwv.sval 2 = none := by
        cases hread : vwv.sval 2 with
        | none => rfl
        | some v =>
          have := Ptr.exists_sval.mp ⟨v, hread⟩
          rw [hvpacket] at this
          exact absurd (.inr (by omega)) hnot
      simp only [smbcliChainedAdvance, hvwv, hcommand, hlast, hhdr, hshort, bind_eq_bind,
        bind_some, bind_none, if_false]

theorem Begun.advanced {inn' : RequestBuffer} (h : inn.Begun p) (hadv : Advanced inn inn') :
    inn'.Begun p := by
  induction hadv with
  | start => exact h
  | @advance inn' inn'' status _ hstep ih =>
    by_cases hword : SecondWord inn'
    · obtain ⟨status', next, heq, hbegun, -⟩ := ih.advance.1 hword
      obtain ⟨-, rfl⟩ := answer_inj (heq.symm.trans hstep)
      exact hbegun
    · exact absurd (ih.advance.2 hword ▸ hstep) (by simp)

end RequestBuffer

/-! ## The receive routine -/

/-- **Packets are read inside** their bounds and complete requests soundly exactly if they are
expected; `smbcli_chained_advance` reads inside exactly if the reply is the last one or has a second
word. -/
theorem packets_read_inside (md5 : Bytes → Bytes) (t : Transport) (p : Packet)
    (hlen : 4 ≤ p.size) (hfresh : t.Fresh p) :
    (ReceivesSoundly md5 t p ↔ Expected md5 t p) ∧
    ∀ req t', smbcliTransportFinishRecv md5 t p = some (.completed req, t') → req.inn.Within p →
      ∀ inn, Advanced req.inn inn →
        ((∃ status inn', smbcliChainedAdvance inn = some (status, inn') ∧
          (status = .ok → inn'.Within p)) ↔ SecondWord inn) := by
  refine ⟨receivesSoundly_iff hlen hfresh, fun req t' _ hwithin inn hadv => ?_⟩
  have hbegun : inn.Begun p := hwithin.begun.advanced hadv
  constructor
  · rintro ⟨status, inn', heq, -⟩
    by_contra hword
    exact absurd (hbegun.advance.2 hword ▸ heq) (by simp)
  · intro hword
    obtain ⟨status, inn', heq, -, hok⟩ := hbegun.advance.1 hword
    exact ⟨status, inn', heq, hok⟩

/-- A packet of the given type and length for the multiplex id 1, without words. -/
def sampleReply (kind : UInt8) (length : Nat) : Packet :=
  ⟨0, ([kind, 0, 0, 0, 0xFF, 0x53, 0x4D, 0x42, 0x2B, 0, 0, 0, 0, 0x80, 0, 0, 0, 0, 0, 0,
    0, 0, 0, 0, 0, 0, 0, 0, 0, 0, 0, 0, 0, 0, 1, 0, 0, 0, 0] : Bytes).take length⟩

/-- A transport that waits for a reply with the multiplex id 1. -/
def sampleTransport : Transport := { pending := [{ id := 0, mid := 1, state := .recv }] }

/-- A reply without words. -/
theorem packets_read_inside_reply : ReceivesSoundly (fun _ => []) sampleTransport
    (sampleReply 0 39) := by
  refine (packets_read_inside (fun _ => []) sampleTransport (sampleReply 0 39) (by decide)
    ?_).1.mpr (.inr ⟨by decide, by decide, fun _ _ _ _ _ _ _ => .inl (by decide)⟩)
  intro req hreq q hq
  obtain rfl := List.mem_singleton.mp hreq
  simp at hq

/-- A packet of 35 bytes, and a chained reply without words, are read behind their end. A keepalive
completes a request as successful, with no header. -/
theorem unexpected_packets :
    smbcliTransportFinishRecv (fun _ => []) sampleTransport (sampleReply 0 35) = none ∧
    (∃ req t', smbcliTransportFinishRecv (fun _ => []) sampleTransport (sampleReply 0x85 39) =
        some (.completed req, t') ∧
      req.Succeeded ∧ req.smb = true ∧ req.inn.hdr = none ∧ ¬ IsSmbMessage (sampleReply 0x85 39)) ∧
    ∃ req t', smbcliTransportFinishRecv (fun _ => []) sampleTransport (sampleReply 0 39) =
        some (.completed req, t') ∧
      req.Succeeded ∧ smbcliChainedAdvance req.inn = none := by
  refine ⟨by decide, ⟨_, _, rfl, ?_⟩, ⟨_, _, rfl, ?_⟩⟩
  · decide
  · decide

end OpenvasSmb.Smb

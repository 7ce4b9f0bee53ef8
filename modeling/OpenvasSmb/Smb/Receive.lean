import OpenvasSmb.Kit.Machine
import OpenvasSmb.Smb.Transport
import Mathlib.Tactic.SplitIfs

/-!
# What the receive routine does

The functions that `smbcli_transport_finish_recv` consists of, one specification each: which
packets they read without leaving them, and what becomes of a packet that is given to a
request (`fillReply_cases`).
-/

namespace OpenvasSmb.Smb

open Kit Option Packet Prod Received

variable {md5 : Bytes → Bytes} {t t' : Transport} {p : Packet} {req : Request} {r : Received}

/-! ## Reading inside the packet -/

theorem oplockBreak_total (p : Packet) : ∃ o, smbcliHandleOplockBreak p = some o := by
  unfold smbcliHandleOplockBreak
  by_cases hsize : p.size ≠ 55
  · exact ⟨none, if_pos hsize⟩
  · rw [if_neg hsize]
    obtain ⟨flg, hflg⟩ : ∃ v, p.hdr.cval 9 = some v := hdr_cval (by omega)
    obtain ⟨com, hcom⟩ : ∃ v, p.hdr.cval 4 = some v := hdr_cval (by omega)
    obtain ⟨mid, hmid⟩ : ∃ v, p.hdr.sval 30 = some v := hdr_sval (by omega)
    obtain ⟨word6, hword6⟩ : ∃ v, p.vwv.sval 12 = some v := vwv_sval (by omega)
    obtain ⟨word7, hword7⟩ : ∃ v, p.vwv.sval 14 = some v := vwv_sval (by omega)
    obtain ⟨tid, htid⟩ : ∃ v, p.hdr.sval 24 = some v := hdr_sval (by omega)
    obtain ⟨fnum, hfnum⟩ : ∃ v, p.vwv.sval 4 = some v := vwv_sval (by omega)
    obtain ⟨level, hlevel⟩ : ∃ v, p.vwv.cval 7 = some v := vwv_cval (by omega)
    simp only [hflg, hcom, hmid, hword6, hword7, htid, hfnum, hlevel, bind_eq_bind, bind_some]
    split_ifs
    · exact ⟨_, rfl⟩
    · exact ⟨_, rfl⟩

/-- The multiplex id is read outside of packets of two lengths. -/
theorem midAndWct_total : (∃ v, midAndWct p = some v) ↔ p.size ≠ 35 ∧ p.size ≠ 36 := by
  have hmid : (∃ v, p.hdr.sval 30 = some v) ↔ 36 ≤ p.size := Ptr.exists_sval
  have hwct : (∃ v, p.hdr.cval 32 = some v) ↔ 37 ≤ p.size := Ptr.exists_cval
  unfold midAndWct
  by_cases hshort : p.size ≥ 35
  · rw [if_pos hshort]
    constructor
    · rintro ⟨v, hv⟩
      obtain ⟨mid, -, hv⟩ := bind_eq_some_iff.mp hv
      obtain ⟨wct, hwct', -⟩ := bind_eq_some_iff.mp hv
      have := hwct.mp ⟨wct, hwct'⟩
      omega
    · rintro ⟨h35, h36⟩
      obtain ⟨mid, hmid⟩ := hmid.mpr (by omega)
      obtain ⟨wct, hwct⟩ := hwct.mpr (by omega)
      exact ⟨(mid, wct), by simp only [hmid, hwct, bind_eq_bind, bind_some]⟩
  · rw [if_neg hshort]
    exact ⟨fun _ => by omega, fun _ => ⟨_, rfl⟩⟩

theorem isNtcancelReply_total (req : Request) (p : Packet) :
    ∃ b, isNtcancelReply req p = some b := by
  unfold isNtcancelReply
  split_ifs with hnone hshort
  · exact ⟨_, rfl⟩
  · exact ⟨_, rfl⟩
  · obtain ⟨flg, hflg⟩ : ∃ v, p.hdr.cval 9 = some v := hdr_cval (by omega)
    obtain ⟨com, hcom⟩ : ∃ v, p.hdr.cval 4 = some v := hdr_cval (by omega)
    simp only [hflg, hcom, bind_eq_bind, bind_some]
    exact ⟨_, rfl⟩

theorem headerStatus_total (h : 39 ≤ p.size) : ∃ s, headerStatus p.hdr = some s := by
  obtain ⟨flags2, hflags2⟩ : ∃ v, p.hdr.sval 10 = some v := hdr_sval (by omega)
  obtain ⟨errorClass, hclass⟩ : ∃ v, p.hdr.cval 5 = some v := hdr_cval (by omega)
  obtain ⟨code, hcode⟩ : ∃ v, p.hdr.sval 7 = some v := hdr_sval (by omega)
  obtain ⟨status, hstatus⟩ : ∃ v, p.hdr.ival 5 = some v := hdr_ival (by omega)
  simp only [headerStatus, hflags2, hclass, hcode, hstatus, bind_eq_bind, bind_some]
  split_ifs
  · exact ⟨_, rfl⟩
  · exact ⟨_, rfl⟩
  · exact ⟨_, rfl⟩

theorem fillIn_within {wct : Nat} (h : 39 + 2 * wct ≤ p.size) :
    ∃ inn, fillIn p wct = some inn ∧ inn.Within p ∧ inn.hdr = some p.hdr ∧
      inn.vwv = some p.vwv := by
  obtain ⟨dataSize, hdata⟩ : ∃ v, p.vwv.sval (2 * wct) = some v :=
    vwv_sval (by omega)
  simp only [fillIn, hdata, bind_eq_bind, bind_some]
  refine ⟨_, rfl, ?_, rfl, rfl⟩
  refine ⟨rfl, ⟨_, rfl, rfl, ?_⟩, ⟨_, rfl, rfl, ?_⟩, ⟨_, rfl, rfl, ?_⟩⟩
  · show 4 + 33 ≤ p.size
    omega
  · show 37 + (2 * wct + 2) ≤ p.size
    omega
  · show 39 + 2 * wct + (if p.size < 39 + 2 * wct + dataSize then p.size - (39 + 2 * wct)
      else dataSize) ≤ p.size
    split_ifs <;> omega

theorem checkSignMac_total (md5 : Bytes → Bytes) (req : Request) (s : SigningContext)
    (hbuffer : req.inn.buffer = some p) (hhdr : req.inn.hdr = some p.hdr) :
    ∃ b, smbcliRequestCheckSignMac md5 req s = some b := by
  have hsize : req.inn.size = p.size := by rw [RequestBuffer.size, hbuffer]; rfl
  have hchecked : ∃ b, checkSignedIncomingMessage md5 req.inn s.macKey (req.seqNum + 1) =
      some b := by
    unfold checkSignedIncomingMessage
    rw [hsize]
    split_ifs with hshort hkey
    · exact ⟨_, rfl⟩
    · exact ⟨_, rfl⟩
    · have hhead : p.hdr.slice 0 14 = some _ :=
        Ptr.slice_of_le (show 4 + 0 + 14 ≤ p.size by omega)
      have hmac : p.hdr.slice 14 8 = some _ :=
        Ptr.slice_of_le (show 4 + 14 + 8 ≤ p.size by omega)
      have htail : p.hdr.slice 22 (p.size - 26) = some _ :=
        Ptr.slice_of_le (show 4 + 22 + (p.size - 26) ≤ p.size by omega)
      simp only [hhdr, hhead, hmac, htail, bind_eq_bind, bind_some]
      exact ⟨_, rfl⟩
  obtain ⟨b, hb⟩ := hchecked
  unfold smbcliRequestCheckSignMac
  cases s.signingState with
  | off => exact ⟨_, rfl⟩
  | bsrspyl | on =>
    simp only [hb, map_some]
    split_ifs <;> exact ⟨_, rfl⟩

/-! ## Cases -/

/-- The reply was read from the packet and its signature looked at. -/
structure Filled (md5 : Bytes → Bytes) (t : Transport) (req : Request) (p : Packet) (wct : Nat)
    (inn : RequestBuffer) (status : NtStatus) (good : Bool) (signInfo : SigningContext) : Prop where
  message : p.bytes.head? = some 0
  long : 39 + 2 * wct ≤ p.size
  filled : fillIn p wct = some inn
  header : headerStatus p.hdr = some status
  checked : smbcliRequestCheckSignMac md5 { req with inn := inn, status := status } t.signInfo =
    some (good, signInfo)

theorem Filled.within {wct : Nat} {inn : RequestBuffer} {status : NtStatus} {good : Bool}
    {signInfo : SigningContext} (h : Filled md5 t req p wct inn status good signInfo) :
    inn.Within p := by
  obtain ⟨inn', hinn', hwithin, -⟩ := fillIn_within h.long
  obtain rfl := some.inj (h.filled.symm.trans hinn')
  exact hwithin

/-- What becomes of a packet that is given to a request: an NBT session reply, a packet that
is too short, or a reply. -/
theorem fillReply_cases (md5 : Bytes → Bytes) (t : Transport) (req : Request) (wct : Nat)
    (hlen : 4 ≤ p.size) :
    (p.bytes.head? ≠ some 0 ∧ fillReply md5 t req p wct =
      some (t.done { req with inn := { req.inn with buffer := some p }, status := .ok })) ∨
    (p.bytes.head? = some 0 ∧ p.size < 39 + 2 * wct ∧
      ∃ status, (status = req.status ∨ status = .unsuccessful) ∧ fillReply md5 t req p wct =
        some (t.failed { req with inn := { req.inn with buffer := some p }, status := status })) ∨
    ∃ inn status good signInfo, Filled md5 t req p wct inn status good signInfo ∧
      fillReply md5 t req p wct = some (
        if good then { t with signInfo := signInfo }.done { req with inn := inn, status := status }
        else { t with signInfo := signInfo }.failed
          { req with inn := inn, status := .accessDenied }) := by
  by_cases hmessage : p.bytes.head? = some 0
  · have hnbt : ¬ (p.size ≥ 4 ∧ p.bytes.head? ≠ some 0) := fun h => h.2 hmessage
    by_cases hwords : p.size < 39 + 2 * wct
    · refine .inr (.inl ⟨hmessage, hwords, ?_⟩)
      by_cases hshort : p.size < 39
      · exact ⟨req.status, .inl rfl, by rw [fillReply, if_neg hnbt, if_pos hshort]⟩
      · exact ⟨.unsuccessful, .inr rfl,
          by rw [fillReply, if_neg hnbt, if_neg hshort, if_pos hwords]⟩
    · have hlong : 39 + 2 * wct ≤ p.size := Nat.le_of_not_lt hwords
      obtain ⟨inn, hinn, hwithin, hhdr, -⟩ := fillIn_within hlong
      obtain ⟨status, hstatus⟩ := headerStatus_total (p := p) (by omega)
      obtain ⟨⟨good, signInfo⟩, hcheck⟩ := checkSignMac_total md5
        { req with inn := inn, status := status } t.signInfo hwithin.buffer hhdr
      refine .inr (.inr ⟨inn, status, good, signInfo,
        ⟨hmessage, hlong, hinn, hstatus, hcheck⟩, ?_⟩)
      rw [fillReply, if_neg hnbt, if_neg (by omega), if_neg hwords]
      simp only [hinn, hstatus, hcheck, bind_eq_bind, bind_some]
  · exact .inl ⟨hmessage, by rw [fillReply, if_pos ⟨hlen, hmessage⟩]⟩

/-- Requests leave the list, and are not changed but for their `ntcancel` requests. -/
def Transport.Shrinks (t t' : Transport) : Prop :=
  ∀ r ∈ t'.pending, ∃ r₀ ∈ t.pending, r₀.id = r.id ∧ r₀.inn = r.inn ∧ r₀.status = r.status

theorem Transport.shrinks_of_subset {t t' : Transport} (h : ∀ r ∈ t'.pending, r ∈ t.pending) :
    t.Shrinks t' :=
  fun r hr => ⟨r, h r hr, rfl, rfl, rfl⟩

theorem Transport.shrinks_removeNtcancel {t : Transport} {req : Request}
    (h : req ∈ t.pending) : t.Shrinks (t.removeNtcancel req) := by
  intro r hr
  obtain ⟨r₀, hr₀, rfl⟩ := List.mem_map.mp hr
  by_cases hid : r₀.id = req.id
  · rw [if_pos hid]
    exact ⟨req, h, rfl, rfl, rfl⟩
  · rw [if_neg hid]
    exact ⟨r₀, hr₀, rfl, rfl, rfl⟩

theorem Transport.find_mem {t : Transport} {req : Request} {mid : Nat}
    (h : t.find mid = some req) : req ∈ t.pending := List.mem_of_find?_eq_some h

/-- A packet is an oplock break, nothing, the reply to a readbraw, or goes to the request with its
multiplex id. -/
theorem finishRecv_cases (h : smbcliTransportFinishRecv md5 t p = some (r, t')) :
    (∃ info, r = .oplockBreak info ∧ t' = t) ∨
    (r = .discarded ∧ t'.signInfo = t.signInfo ∧ t.Shrinks t') ∨
    (t.readbrawPending = true ∧ ∃ req, t.pending.head? = some req ∧
      (r, t') = { t with readbrawPending := false }.done
        { req with inn := { req.inn with buffer := some p } }) ∨
    (t.readbrawPending = false ∧ ∃ mid wct req, midAndWct p = some (mid, wct) ∧
      t.find mid = some req ∧ fillReply md5 t req p wct = some (r, t')) := by
  obtain ⟨oplock, hoplock, h⟩ := bind_eq_some_iff.mp h
  cases oplock with
  | some info =>
    obtain ⟨rfl, rfl⟩ := answer_inj h
    exact .inl ⟨info, rfl, rfl⟩
  | none =>
    cases hraw : t.readbrawPending with
    | true =>
      simp only [hraw, if_true] at h
      cases hhead : t.pending.head? with
      | none =>
        rw [hhead] at h
        obtain ⟨rfl, rfl⟩ := answer_inj h
        exact .inr (.inl ⟨rfl, rfl, Transport.shrinks_of_subset fun _ hr => hr⟩)
      | some req =>
        rw [hhead] at h
        exact .inr (.inr (.inl ⟨rfl, req, rfl, (some.inj h).symm⟩))
    | false =>
      simp only [hraw, Bool.false_eq_true, if_false] at h
      obtain ⟨⟨mid, wct⟩, hread, h⟩ := bind_eq_some_iff.mp h
      simp only at h
      cases hfind : t.find mid with
      | none =>
        rw [hfind] at h
        obtain ⟨rfl, rfl⟩ := answer_inj h
        exact .inr (.inl ⟨rfl, rfl, Transport.shrinks_of_subset fun _ hr => hr⟩)
      | some req =>
        rw [hfind] at h
        obtain ⟨cancelled, -, h⟩ := bind_eq_some_iff.mp h
        cases cancelled with
        | true =>
          obtain ⟨rfl, rfl⟩ := answer_inj h
          exact .inr (.inl ⟨rfl, rfl,
            Transport.shrinks_removeNtcancel (Transport.find_mem hfind)⟩)
        | false =>
          exact .inr (.inr (.inr ⟨rfl, mid, wct, req, hread, hfind, h⟩))

theorem finishRecv_completed (h : smbcliTransportFinishRecv md5 t p = some (.completed req, t')) :
    (req.state = .done ∨ req.state = .error) ∧ req.inn.buffer = some p := by
  obtain ⟨info, hr, -⟩ | ⟨hr, -⟩ | ⟨-, req', -, heq⟩ | ⟨-, mid, wct, req', -, -, hfill⟩ :=
    finishRecv_cases h
  · simp at hr
  · simp at hr
  · obtain rfl := completed.inj (congrArg fst heq)
    exact ⟨.inl rfl, rfl⟩
  · have hreq : ∀ {req₁ t₁}, fillReply md5 t req' p wct = some (.completed req₁, t₁) → req = req₁ :=
      fun heq => completed.inj (congrArg fst (some.inj (hfill.symm.trans heq)))
    by_cases hlen : 4 ≤ p.size
    · obtain ⟨-, heq⟩ | ⟨-, -, status, -, heq⟩ | ⟨inn, status, good, signInfo, hfilled, heq⟩ :=
        fillReply_cases md5 t req' wct hlen
      · obtain rfl := hreq heq
        exact ⟨.inl rfl, rfl⟩
      · obtain rfl := hreq heq
        exact ⟨.inr rfl, rfl⟩
      · cases good <;> obtain rfl := hreq heq
        · exact ⟨.inr rfl, hfilled.within.buffer⟩
        · exact ⟨.inl rfl, hfilled.within.buffer⟩
    · rw [fillReply, if_neg (fun h => hlen h.1), if_pos (by omega)] at hfill
      obtain rfl := completed.inj (congrArg fst (some.inj hfill))
      exact ⟨.inr rfl, rfl⟩

end OpenvasSmb.Smb

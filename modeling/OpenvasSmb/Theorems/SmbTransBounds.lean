import OpenvasSmb.Smb.Lumps

/-!
# Reads and writes of a transaction

`smb_raw_trans2_recv` looks at the word count of the first reply only: from a later one it reads
eighteen bytes of words, whether there are so many or not. `smb_raw_nttrans_recv` adds the length
of a lump and its displacement in 32 bits, so a large displacement passes the check. If the packet
is no SMB message (its type is not zero, or a readbraw is pending) the request keeps the pointers
of the packet before, or none.

Without these, words are read in the words of the reply, and lumps are copied from the packet to
the buffers that were allocated for the first reply.
-/

namespace OpenvasSmb.Smb

open Kit List

variable {f : TransFormat} {inn : RequestBuffer} {st st' : TransState} {md5 : Bytes → Bytes}
  {me fuel : Nat} {w w' : Waiting} {event : NetEvent} {o : Option TransResult} {req : Request}

def TransResult.log : TransResult → List Access
  | .crashed => []
  | .returned _ st | .complete st | .going st => st.log

/-- The function has not crashed, and all its accesses are inside. -/
def TransResult.Safe (result : TransResult) : Prop :=
  result ≠ .crashed ∧ ∀ access ∈ result.log, access.Inside

/-- The reply is in its packet, and has the words that are read if it is not the first one. -/
def EnoughWords (phase : Phase) (req : Request) : Prop :=
  req.inn.InPacket ∧ (phase ≠ .first → 10 ≤ req.inn.wct)

/-- The reply is in its packet, and no place in a buffer is beyond 32 bits. -/
def NoWrap (_ : Phase) (req : Request) : Prop :=
  req.inn.InPacket ∧ (∀ lump ∈ nttransFormat.dataLump req.inn, lump.count + lump.disp < 2 ^ 32) ∧
    ∀ lump ∈ nttransFormat.paramLump req.inn, lump.count + lump.disp < 2 ^ 32

/-! ## A pass -/

/-- The accesses so far are inside, and the totals within the buffers. -/
structure TransState.Safe (st : TransState) : Prop where
  log : ∀ access ∈ st.log, access.Inside
  data : st.data.total ≤ st.data.mem.length
  params : st.params.total ≤ st.params.mem.length

/-- What the functions keep: they do not crash, and leave a state that is safe or accesses that
are inside. -/
def TransResult.Keeps : TransResult → Prop
  | .crashed => False
  | .returned _ st => ∀ access ∈ st.log, access.Inside
  | .complete st | .going st => st.Safe

theorem TransResult.Keeps.safe {result : TransResult} (h : result.Keeps) : result.Safe := by
  cases result with
  | crashed => exact absurd h id
  | returned status st => exact ⟨by simp, h⟩
  | complete st | going st => exact ⟨by simp, h.log⟩

theorem transFirst_keeps (hf : f.Sound) (hin : inn.InPacket) :
    (transFirst f inn).Keeps ∧
      ∀ st, transFirst f inn = .going st → f.minWct ≤ inn.wct := by
  obtain ⟨p, -, hwithin⟩ := hin
  obtain ⟨heq, -⟩ | ⟨status, -, st, heq, -, hlog⟩ |
    ⟨totalData, totalParam, setupCount, setup, heq, hwct, -⟩ := transFirst_cases f inn
  · exact absurd heq (transFirst_ne_crashed hwithin hf)
  · refine heq ▸ ⟨?_, by simp⟩
    obtain hlog | ⟨hlog, hwct⟩ := hlog
    · exact fun access hmem => absurd hmem (hlog ▸ not_mem_nil)
    · exact fun access hmem => firstWords_inside hwithin hf hwct access (hlog ▸ hmem)
  · refine heq ▸ ⟨⟨?_, ?_, ?_⟩, fun _ _ => by omega⟩
    · rw [forall_mem_append]
      refine ⟨firstWords_inside hwithin hf (by omega), fun access hmem => ?_⟩
      obtain ⟨i, hi, rfl⟩ := mem_map.mp hmem
      have := mem_range.mp hi
      exact word_inside hwithin (by omega)
    all_goals exact Nat.le_of_eq length_replicate.symm

theorem Area.Accepts.room {a : Area} {lump : Lump} (h : a.Accepts inn lump)
    (ha : a.total ≤ a.mem.length) (hwrap : lump.count + lump.disp < 2 ^ 32) :
    lump.disp + lump.count ≤ a.mem.length := by
  have hfits := h.fits
  have hshrinks := h.shrinks
  omega

theorem Area.Takes.room {a a' : Area} {lump : Lump} (h : a.Takes inn lump a')
    (ha : a.total ≤ a.mem.length) : a'.total ≤ a'.mem.length := by
  obtain ⟨hlength, htotal, -⟩ := h.kept
  rw [hlength, htotal]
  exact Nat.le_trans h.shrinks ha

/-- One pass over a reply that is in its packet. -/
theorem PassEnds.keeps {finish : TransState → TransResult} {result : TransResult}
    (hends : PassEnds f inn st finish result) (hfinish : ∀ st', st'.Safe → (finish st').Keeps)
    (hf : f.Sound) (h : st.Safe) (hin : inn.InPacket) (hwct : f.minWct ≤ inn.wct)
    (hdata : ∀ lump ∈ f.dataLump inn, lump.count + lump.disp < 2 ^ 32)
    (hparam : ∀ lump ∈ f.paramLump inn, lump.count + lump.disp < 2 ^ 32) : result.Keeps := by
  obtain ⟨p, hbuffer, hwithin⟩ := hin
  have hwords := lumpWords_inside hwithin hf hwct
  have hpassed : ∀ {st'}, Passed f inn st st' → st'.Safe := by
    rintro st' ⟨hd, hp, htakes, htakes'⟩
    have hcopied : ∀ {lump : Lump} {alloc : Nat}, rawTransOob inn lump = false →
        lump.disp + lump.count ≤ alloc →
        ∀ access ∈ (if lump.count = 0 then [] else [Access.copy inn lump alloc]),
          access.Inside := by
      intro lump alloc hoob hle access hmem
      by_cases hcount : lump.count = 0
      · rw [if_pos hcount] at hmem
        exact absurd hmem not_mem_nil
      · rw [if_neg hcount] at hmem
        obtain rfl := mem_singleton.mp hmem
        obtain ⟨hdr, hhdr, hinside⟩ := rawTransOob_inside hwithin hcount hoob
        exact ⟨p, hdr, hbuffer, hhdr, hinside, hle⟩
    refine ⟨?_, htakes.room h.data, htakes'.room h.params⟩
    show ∀ access ∈ st.log ++ f.lumpWords inn ++ lumpCopies inn st _ _, _
    rw [forall_mem_append, forall_mem_append, lumpCopies, forall_mem_append]
    exact ⟨⟨h.log, hwords⟩, hcopied htakes.inside (htakes.toAccepts.room h.data (hdata _ hd)),
      hcopied htakes'.inside (htakes'.toAccepts.room h.params (hparam _ hp))⟩
  cases hends with
  | crashed hcrashed =>
    obtain ⟨data₀, param₀, hdata₀, hparam₀⟩ := lumps_inside hwithin hf hwct
    obtain hnone | hnone | ⟨data, param, hd, hp, haccepts, haccepts', hcopy⟩ := hcrashed
    · exact absurd (hdata₀.symm.trans hnone) (by simp)
    · exact absurd (hparam₀.symm.trans hnone) (by simp)
    · -- both copies are possible
      obtain ⟨a, ha⟩ := Area.copy_inside (a := st.data.announce data) hwithin haccepts.inside
        (haccepts.room h.data (hdata data hd))
      obtain ⟨b, hb⟩ := Area.copy_inside (a := st.params.announce param) hwithin
        haccepts'.inside (haccepts'.room h.params (hparam param hp))
      rw [ha, hb] at hcopy
      simp at hcopy
  | @refused st' hlog =>
    show ∀ access ∈ st'.log, access.Inside
    rw [hlog, forall_mem_append]
    exact ⟨h.log, hwords⟩
  | complete hst' => exact hfinish _ (hpassed hst')
  | going hst' => exact hpassed hst'

/-! ## From one wait to the next -/

theorem hasCommand_inside {p : Packet} {command : Nat} (h : inn.Within p) :
    hasCommand inn command ≠ none := by
  obtain ⟨hdr, hhdr, hpacket, hinside⟩ := h.hdr
  obtain ⟨com, hcom⟩ : ∃ v, hdr.cval 4 = some v := Ptr.exists_cval.mpr (by rw [hpacket]; omega)
  simp [hasCommand, hhdr, hcom]

/-- Both functions are as safe as their loops. -/
theorem Resumes.keeps {phase : Phase} {loop : TransState → TransResult} {result : TransResult}
    (h : Resumes f req phase loop result) (hf : f.Sound) (hphase : phase.state.Safe)
    (hin : req.state = .done → req.inn.InPacket)
    (hwct : req.state = .done → phase ≠ .first → f.minWct ≤ req.inn.wct)
    (hloop : ∀ st, req.state = .done → f.minWct ≤ req.inn.wct → st.Safe → (loop st).Keeps) :
    result.Keeps := by
  cases h with
  | failed => exact hphase.log
  | crashed hdone hcommand =>
    obtain ⟨p, -, hwithin⟩ := hin hdone
    exact hasCommand_inside hwithin hcommand
  | refused hdone hfirst => exact hfirst ▸ (transFirst_keeps hf (hin hdone)).1
  | @looped st hdone hbegins =>
    obtain ⟨-, hfirst⟩ | rfl := hbegins
    · obtain ⟨hkeeps, hwords⟩ := transFirst_keeps hf (hin hdone)
      rw [hfirst] at hkeeps
      exact hloop st hdone (hwords st hfirst) hkeeps
    · exact hloop st hdone (hwct hdone (by simp)) hphase

/-- Numbers of 16 bits do not wrap around. -/
theorem trans2_noWrap :
    (∀ lump ∈ trans2Format.dataLump inn, lump.count + lump.disp < 2 ^ 32) ∧
      ∀ lump ∈ trans2Format.paramLump inn, lump.count + lump.disp < 2 ^ 32 := by
  constructor
  all_goals
    intro lump hlump
    have hlt : lump.count < 65536 ∧ lump.disp < 65536 := (lump_numbers hlump).2
    omega

theorem nttransLoop_keeps (hstate : req.state = .done ∨ req.state = .error)
    (hwrap : NoWrap .first req) (hwct : 18 ≤ req.inn.wct) :
    ∀ (fuel : Nat) {st : TransState}, st.Safe → (nttransLoop req fuel st).Keeps := by
  intro fuel
  induction fuel with
  | zero => exact fun h => h
  | succ fuel ih =>
    intro st h
    rw [nttransLoop]
    by_cases hcomplete : st.isComplete = true
    · rw [if_pos hcomplete]
      exact h.log
    · rw [if_neg hcomplete]
      have hkeeps := (transPass_ends nttransFormat req.inn st).keeps (fun _ h => h)
        nttransFormat_sound h hwrap.1 hwct hwrap.2.1 hwrap.2.2
      generalize transPass nttransFormat req.inn st = result at hkeeps
      cases result with
      | crashed => exact absurd hkeeps id
      | returned status st' => exact hkeeps
      | complete st' => exact TransState.Safe.log hkeeps
      | going st' =>
        have hsafe : st'.Safe := hkeeps
        obtain ⟨-, hcheck | ⟨-, hcommand⟩⟩ | ⟨status, -, hcheck⟩ := nttransCheck_cases hstate st'
        · simp only [hcheck]
          exact ih hsafe
        · obtain ⟨p, -, hwithin⟩ := hwrap.1
          exact absurd hcommand (hasCommand_inside hwithin)
        · simp only [hcheck]
          exact hsafe.log

/-! ## Runs -/

/-- **All accesses are inside** in every run in which the replies are in their packets and have
enough words (trans2), or no place wraps around (nttrans): words are read in the words of the
packet, and lumps copied from the packet into the buffer of the first reply. -/
theorem trans_accesses_inside (md5 : Bytes → Bytes) (me fuel : Nat) (t : Transport)
    (events : List NetEvent) :
    ((trans2 md5 me).EachStep (fun w event _ _ => Replies md5 me EnoughWords w event)
        { transport := t } events →
      (trans2 md5 me).EachStep (fun _ _ o _ => ∀ result, o = some result → result.Safe)
        { transport := t } events) ∧
    ((nttrans md5 me fuel).EachStep (fun w event _ _ => Replies md5 me NoWrap w event)
        { transport := t } events →
      (nttrans md5 me fuel).EachStep (fun _ _ o _ => ∀ result, o = some result → result.Safe)
        { transport := t } events) := by
  have hnothing : ({} : TransState).Safe :=
    ⟨fun _ hmem => absurd hmem not_mem_nil, Nat.le_refl _, Nat.le_refl _⟩
  constructor
  · refine eachStep_wait (I := fun _ phase => phase.state.Safe)
      (P := fun _ result => result.Safe) (fun _ => hnothing) ?_ events _ hnothing
    intro phase req _ _ h hover hbrings hreply
    have hkeeps : (trans2Resume req phase).Keeps := by
      refine (trans2Resume_resumes hbrings.state hover).keeps trans2Format_sound h
        (fun hdone => (hreply hdone).1) (fun hdone => (hreply hdone).2) fun st hdone hwct hst => ?_
      exact (trans2Pass_ends req st).keeps (fun _ hst' => hst'.log) trans2Format_sound hst
        (hreply hdone).1 hwct trans2_noWrap.1 trans2_noWrap.2
    exact ⟨hkeeps.safe, fun st hgoing => by rwa [hgoing] at hkeeps⟩
  · refine eachStep_wait (I := fun _ _ => True) (P := fun _ result => result.Safe)
      (fun _ => trivial) ?_ events _ trivial
    intro phase req _ _ _ _ hbrings hreply
    refine ⟨TransResult.Keeps.safe ?_, fun _ _ => trivial⟩
    refine (nttransResume_resumes fuel hbrings.state).keeps nttransFormat_sound hnothing
      (fun hdone => (hreply hdone).1) (fun _ hfirst => absurd rfl hfirst) ?_
    exact fun st hdone hwct hst => nttransLoop_keeps hbrings.state (hreply hdone) hwct fuel hst

/-! ## Samples -/

instance (C : Phase → Request → Prop) [∀ phase req, Decidable (C phase req)] (w : Waiting)
    (event : NetEvent) : Decidable (Replies md5 me C w event) :=
  match h : eventLoopOnce md5 w event with
  | some (.completed req, t) =>
    decidable_of_iff (req.id = me → req.state = .done → C w.phase req)
      ⟨fun hC req' t' hevent => by
        rw [h] at hevent
        obtain ⟨hreq, -⟩ := answer_inj hevent
        exact Received.completed.inj hreq ▸ hC, fun hC => hC req t h⟩
  | some (.discarded, _) | some (.oplockBreak _, _) | none =>
    .isTrue fun req' t' hevent => by simp [h] at hevent

instance (phase : Phase) (req : Request) : Decidable (EnoughWords phase req) :=
  inferInstanceAs (Decidable (_ ∧ _))

instance (phase : Phase) (req : Request) : Decidable (NoWrap phase req) :=
  inferInstanceAs (Decidable (_ ∧ _ ∧ _))

def transReply (command : UInt8) (words data : Bytes) : NetEvent :=
  .packet ([0, 0, 0, 0, 0xFF, 0x53, 0x4D, 0x42, command] ++ List.replicate 4 0 ++ [0x80] ++
    List.replicate 20 0 ++ [1, 0, UInt8.ofNat (words.length / 2)] ++ words ++
    toLe 2 data.length ++ data)

/-- A reply to a trans2 request with a lump of data. -/
def trans2Reply (total disp : Nat) (data : Bytes) : NetEvent :=
  transReply 0x32 ([0, total, 0, 0, 0, 0, data.length, 55, disp, 0].flatMap (toLe 2)) data

/-- A reply to an nttrans request with a lump of data. -/
def nttransReply (total disp : Nat) (data : Bytes) : NetEvent :=
  transReply 0xA0 ([0, 0, 0] ++ [0, total, 0, 0, 0, data.length, 71, disp].flatMap (toLe 4) ++ [0])
    data

/-- A transport that waits for a reply with the multiplex id 1. -/
def oneRequest : Transport := { pending := [{ id := 0, mid := 1, state := .recv }] }

/-- A reply in two packets, and one in one packet. -/
theorem trans_accesses_inside_two :
    (trans2 (fun _ => []) 0).EachStep (fun _ _ o _ => ∀ result, o = some result → result.Safe)
      { transport := oneRequest } [trans2Reply 4 0 [1, 2], trans2Reply 4 2 [3, 4]] ∧
    (nttrans (fun _ => []) 0 1).EachStep (fun _ _ o _ => ∀ result, o = some result → result.Safe)
      { transport := oneRequest } [nttransReply 2 0 [1, 2]] :=
  ⟨(trans_accesses_inside _ _ 0 _ _).1 (.of_check _ _ (by decide)),
    (trans_accesses_inside _ _ _ _ _).2 (.of_check _ _ (by decide))⟩

/-- A second reply without words is read behind its end. A lump whose end wraps around is copied far
behind the buffer. -/
theorem trans_accesses_outside :
    ((trans2 (fun _ => []) 0).run { transport := oneRequest }
      [trans2Reply 4 0 [1, 2], transReply 0x32 [] []]).map Prod.fst = some (some (some .crashed)) ∧
    ((nttrans (fun _ => []) 0 1).run { transport := oneRequest }
      [nttransReply 2 0xFFFFFFFE [1, 2]]).map Prod.fst = some (some (some .crashed)) := by
  decide

end OpenvasSmb.Smb

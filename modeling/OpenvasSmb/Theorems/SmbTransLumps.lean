import Mathlib.Data.List.Forall2
import OpenvasSmb.Theorems.SmbTransPasses

/-!
# Reassembly of a transaction

Both loops end when enough bytes have been *counted*. If the lumps do not overlap, and no total
shrinks below a byte that is already there, the bytes counted are the bytes set, so the buffers
are full when the loop ends. Overlapping lumps leave bytes unset, and `smb_raw_trans2_recv`
returns the count as the length: it can exceed the buffer.
-/

namespace OpenvasSmb.Smb

open Kit List Option Area RequestBuffer Nat
open Ndr (maxTallocSize)

variable {f : TransFormat} {inn : RequestBuffer} {st st' : TransState} {md5 : Bytes → Bytes}
  {replies : List Packet} {status : NtStatus} {me fuel : Nat} {w w' : Waiting} {event : NetEvent}
  {o : Option TransResult} {req : Request} {lump? : RequestBuffer → Option Lump}
  {passes : List RequestBuffer} {a a' : Area} {lump : Lump} {p : Packet}

/-- The byte belongs to the place, by a lump of one of the replies. -/
def Brought (lump? : RequestBuffer → Option Lump) (passes : List RequestBuffer) (i : Nat)
    (b : UInt8) : Prop :=
  ∃ inn ∈ passes, ∃ lump hdr bytes, lump? inn = some lump ∧ inn.hdr = some hdr ∧
    hdr.slice lump.ofs lump.count = some bytes ∧ lump.disp ≤ i ∧ bytes[i - lump.disp]? = some b

/-- A buffer of which `length` bytes are returned: all of them are set, and each was brought by a
lump. -/
structure Area.Full (lump? : RequestBuffer → Option Lump) (passes : List RequestBuffer)
    (a : Area) (length : Nat) : Prop where
  within : length ≤ a.mem.length
  set : ∀ i < length, ∃ b, a.mem[i]? = some (some b) ∧ Brought lump? passes i b

/-- What is returned is what was announced last, and the buffers are full; the loop went once
through each of the replies `held`, unless there was nothing to wait for. -/
def Reassembled (f : TransFormat) (length : Area → Nat) (st : TransState)
    (replies : List Packet) : Prop :=
  (∃ held, List.Forall₂ Within held replies ∧
    (st.passes = held ∨ st.passes = [] ∧ length st.data = 0 ∧ length st.params = 0) ∧
    ∃ inn, held.getLast? = some inn ∧
      number inn f.totalData f.width = some (length st.data) ∧
      number inn f.totalParam f.width = some (length st.params)) ∧
  st.data.Full f.dataLump st.passes (length st.data) ∧
  st.params.Full f.paramLump st.passes (length st.params)

/-- The places of the lump are free, and no byte is cut off by its total. -/
def Area.Free (a : Area) (lump : Lump) : Prop :=
  (∀ x ∈ (a.mem.drop lump.disp).take lump.count, x = none) ∧ ∀ x ∈ a.mem.drop lump.total, x = none

/-- The reply is in its packet, has the words that are read, and its lumps are apart from those
before. -/
def Apart (phase : Phase) (req : Request) : Prop :=
  EnoughWords phase req ∧
    (∀ lump ∈ trans2Format.dataLump req.inn, phase.state.data.Free lump) ∧
    ∀ lump ∈ trans2Format.paramLump req.inn, phase.state.params.Free lump

def WholeInPacket (phase : Phase) (req : Request) : Prop := NoWrap phase req ∧ Whole phase req

/-! ## Counting bytes -/

theorem Brought.mono {passes' : List RequestBuffer} {i : Nat} {b : UInt8}
    (h : Brought lump? passes i b) : Brought lump? (passes ++ passes') i b := by
  obtain ⟨inn, hmem, h⟩ := h
  exact ⟨inn, mem_append_left _ hmem, h⟩

namespace Area

/-- The bytes counted are the bytes set. -/
structure Counted (lump? : RequestBuffer → Option Lump) (passes : List RequestBuffer)
    (a : Area) : Prop where
  within : a.total ≤ a.mem.length
  small : a.mem.length < maxTallocSize
  counted : a.received = a.mem.countP Option.isSome
  above : ∀ x ∈ a.mem.drop a.total, x = none
  brought : ∀ i b, a.mem[i]? = some (some b) → Brought lump? passes i b

theorem alloc_counted {total : Nat} (h : total < maxTallocSize) :
    (alloc total).Counted lump? [] := by
  have hmem : (alloc total).mem = replicate total none := rfl
  refine ⟨?_, ?_, ?_, ?_, ?_⟩
  · rw [hmem, length_replicate]
    exact Nat.le_refl _
  · rwa [hmem, length_replicate]
  · rw [hmem, countP_replicate]
    rfl
  · exact fun x hx => eq_of_mem_replicate (mem_of_mem_drop hx)
  · intro i b hb
    have hnone := eq_of_mem_replicate (mem_of_getElem? hb)
    simp at hnone

theorem alloc_free (total : Nat) (lump : Lump) : (alloc total).Free lump :=
  ⟨fun _ hx => eq_of_mem_replicate (mem_of_mem_drop (mem_of_mem_take hx)),
    fun _ hx => eq_of_mem_replicate (mem_of_mem_drop hx)⟩

theorem countP_none {l : List (Option UInt8)} (h : ∀ x ∈ l, x = none) :
    l.countP isSome = 0 := by
  rw [countP_eq_zero]
  intro x hx
  rw [h x hx]
  simp

/-- Storing bytes at free places adds them to the bytes that are set. -/
theorem store_countP {disp : Nat} {bytes : Bytes}
    (hfree : ∀ x ∈ (a.mem.drop disp).take bytes.length, x = none) :
    (a.store disp bytes).mem.countP isSome =
      a.mem.countP isSome + bytes.length := by
  have hsome : (bytes.map some).countP isSome = bytes.length := by
    rw [countP_map]
    exact countP_eq_length.mpr fun _ _ => rfl
  have hsplit : a.mem = a.mem.take disp ++
      ((a.mem.drop disp).take bytes.length ++ a.mem.drop (disp + bytes.length)) := by
    rw [← drop_drop, take_append_drop, take_append_drop]
  calc (a.store disp bytes).mem.countP isSome
      = (a.mem.take disp).countP isSome + bytes.length +
          (a.mem.drop (disp + bytes.length)).countP isSome := by
        show (a.mem.take disp ++ bytes.map some ++ a.mem.drop (disp + bytes.length)).countP _ = _
        rw [countP_append, countP_append, hsome]
    _ = a.mem.countP isSome + bytes.length := by
        conv_rhs => rw [hsplit]
        rw [countP_append, countP_append, countP_none hfree]
        omega

theorem Takes.counted (h : a.Takes inn lump a') (ha : a.Counted lump? passes)
    (hlump : lump? inn = some lump) (hfree : a.Free lump)
    (hwrap : lump.count + lump.disp < 2 ^ 32) (hf : maxTallocSize ≤ f.counter) :
    (a'.count f lump).Counted lump? (passes ++ [inn]) := by
  have hshrinks := h.shrinks
  have hwithin := ha.within
  have hsmall := ha.small
  have hreceived : ∀ mem : List (Option UInt8), mem.length = a.mem.length →
      mem.countP isSome < f.counter := by
    intro mem hmem
    have := countP_le_length (p := isSome) (l := mem)
    omega
  obtain ⟨hcount, rfl⟩ | ⟨hcount, hdr, bytes, hhdr, hbytes, hroom, rfl⟩ := copy_cases h.copied
  · refine ⟨Nat.le_trans hshrinks hwithin, hsmall, ?_, hfree.2, ?_⟩
    · show (a.received + lump.count) % f.counter = a.mem.countP isSome
      rw [hcount, ha.counted]
      exact mod_eq_of_lt (hreceived _ rfl)
    · exact fun i b hb => (ha.brought i b hb).mono
  · have hlength := Ptr.length_of_slice hbytes
    have hroom : lump.disp + bytes.length ≤ a.mem.length := hlength ▸ hroom
    have hmem : (a.store lump.disp bytes).mem.length = a.mem.length := store_length hroom
    have hend : lump.disp + bytes.length ≤ lump.total := by
      have hfits := h.fits
      omega
    refine ⟨?_, ?_, ?_, ?_, ?_⟩
    · show lump.total ≤ (a.store lump.disp bytes).mem.length
      omega
    · show (a.store lump.disp bytes).mem.length < _
      omega
    · show (a.received + lump.count) % f.counter =
        (a.store lump.disp bytes).mem.countP isSome
      have hsum := store_countP (a := a) (hlength ▸ hfree.1)
      rw [ha.counted, ← hlength, ← hsum]
      exact mod_eq_of_lt (hreceived _ hmem)
    · -- nothing changes behind the lump
      intro x hx
      have hx : x ∈ (a.store lump.disp bytes).mem.drop lump.total := hx
      obtain ⟨i, hi⟩ := mem_iff_getElem?.mp hx
      rw [getElem?_drop, store_mem hroom, if_neg (by omega), ← getElem?_drop] at hi
      exact hfree.2 x (mem_of_getElem? hi)
    · intro i b hb
      have hb : (a.store lump.disp bytes).mem[i]? = some (some b) := hb
      rw [store_mem hroom] at hb
      by_cases hplace : lump.disp ≤ i ∧ i < lump.disp + bytes.length
      · rw [if_pos hplace] at hb
        exact ⟨inn, mem_append_right _ mem_cons_self, lump, hdr, bytes, hlump, hhdr,
          hbytes, hplace.1, some.inj hb⟩
      · rw [if_neg hplace] at hb
        exact (ha.brought i b hb).mono

theorem Counted.full (h : a.Counted lump? passes) (hcomplete : a.total ≤ a.received) :
    a.received = a.total ∧ a.Full lump? passes a.total := by
  have hwithin := h.within
  have hsplit : a.received = (a.mem.take a.total).countP isSome := by
    rw [h.counted]
    conv_lhs => rw [← take_append_drop a.total a.mem]
    rw [countP_append, countP_none h.above, add_zero]
  have hlength : (a.mem.take a.total).length = a.total := by
    rw [length_take]
    omega
  have hle : (a.mem.take a.total).countP isSome ≤ (a.mem.take a.total).length :=
    countP_le_length
  have hall : (a.mem.take a.total).countP isSome = (a.mem.take a.total).length := by omega
  refine ⟨by omega, hwithin, fun i hi => ?_⟩
  have hi' : i < a.mem.length := by omega
  have hsome := countP_eq_length.mp hall a.mem[i] (by
    rw [mem_take_iff_getElem]
    exact ⟨i, by omega, rfl⟩)
  obtain ⟨b, hb⟩ := isSome_iff_exists.mp hsome
  have hget : a.mem[i]? = some (some b) := by rw [getElem?_eq_getElem hi', hb]
  exact ⟨b, hget, h.brought i b hget⟩

end Area

/-! ## A pass -/

namespace TransState

/-- In both buffers the bytes counted are the bytes set. -/
structure Counted (f : TransFormat) (st : TransState) : Prop where
  data : st.data.Counted f.dataLump st.passes
  params : st.params.Counted f.paramLump st.passes

/-- The totals are those of the reply. -/
structure Announced (f : TransFormat) (inn : RequestBuffer) (st : TransState) : Prop where
  data : number inn f.totalData f.width = some st.data.total
  params : number inn f.totalParam f.width = some st.params.total

/-- The lumps of a reply that are copied without conflict. -/
structure Admits (f : TransFormat) (inn : RequestBuffer) (st : TransState) : Prop where
  data : ∀ lump ∈ f.dataLump inn, st.data.Free lump ∧ lump.count + lump.disp < 2 ^ 32
  params : ∀ lump ∈ f.paramLump inn, st.params.Free lump ∧ lump.count + lump.disp < 2 ^ 32

end TransState

theorem transFirst_counted (h : transFirst f inn = .going st) :
    st.Counted f ∧ st.Announced f inn ∧ st.passes = [] ∧
      (∀ lump, st.data.Free lump) ∧ ∀ lump, st.params.Free lump := by
  obtain ⟨heq, -⟩ | ⟨_, -, _, heq, -⟩ |
    ⟨totalData, totalParam, _, _, heq, -, hsmall, hsmall', hdata, hparam⟩ := transFirst_cases f inn
  · simp [heq] at h
  · simp [heq] at h
  · obtain rfl := TransResult.going.inj (heq.symm.trans h)
    exact ⟨⟨alloc_counted hsmall, alloc_counted hsmall'⟩, ⟨hdata, hparam⟩, rfl,
      alloc_free totalData, alloc_free totalParam⟩

theorem Passed.counted (hpassed : Passed f inn st st') (hf : maxTallocSize ≤ f.counter)
    (h : st.Counted f) (hadmits : st.Admits f inn) : st'.Counted f ∧ st'.Announced f inn := by
  obtain ⟨hd, hp, htakes, htakes'⟩ := hpassed
  obtain ⟨hfree, hwrap⟩ := hadmits.data _ hd
  obtain ⟨hfree', hwrap'⟩ := hadmits.params _ hp
  refine ⟨⟨htakes.counted h.data hd hfree hwrap hf, htakes'.counted h.params hp hfree' hwrap' hf⟩,
    ⟨?_, ?_⟩⟩
  · exact (lump_numbers hd).1.trans (congrArg some htakes.kept.2.1.symm)
  · exact (lump_numbers hp).1.trans (congrArg some htakes'.kept.2.1.symm)

/-- When all has been counted, the buffers are full. -/
theorem TransState.Counted.reassembled {held : List RequestBuffer} {length : Area → Nat}
    (hlength : ∀ a : Area, a.received = a.total → length a = a.total) (h : st.Counted f)
    (hcomplete : st.isComplete = true) (hheld : List.Forall₂ Within held replies)
    (hlast : held.getLast? = some inn) (hannounced : st.Announced f inn)
    (hpasses : st.passes = held ∨ st.passes = [] ∧ st.data.total = 0 ∧ st.params.total = 0) :
    Reassembled f length st replies := by
  rw [TransState.isComplete, Bool.and_eq_true, decide_eq_true_eq, decide_eq_true_eq] at hcomplete
  obtain ⟨hreceived, hfull⟩ := h.data.full hcomplete.1
  obtain ⟨hreceived', hfull'⟩ := h.params.full hcomplete.2
  rw [Reassembled, hlength _ hreceived, hlength _ hreceived']
  exact ⟨⟨held, hheld, hpasses, inn, hlast, hannounced.data, hannounced.params⟩, hfull, hfull'⟩

/-! ## From one wait to the next -/

/-- Success is returned with the buffers full. -/
def ReturnsReassembled (f : TransFormat) (length : Area → Nat) (o : Option TransResult)
    (w : Waiting) : Prop :=
  ∀ status st, o = some (.returned status st) → status.isOk → Reassembled f length st w.replies

/-- A success is one with the buffers full. -/
def TransResult.Delivers (f : TransFormat) (length : Area → Nat) (replies : List Packet) :
    TransResult → Prop
  | .returned status st => status.isOk → Reassembled f length st replies
  | _ => True

/-- What is kept between two waits: the bytes are counted, and there was a pass for each reply. -/
def TransState.Holds (f : TransFormat) (replies : List Packet) (st : TransState) : Prop :=
  st.Counted f ∧ List.Forall₂ Within st.passes replies

variable {length : Area → Nat} {result : TransResult}

theorem ReturnsReassembled.of_delivers
    (h : ∀ result, o = some result → result.Delivers f length w.replies) :
    ReturnsReassembled f length o w :=
  fun status st heq => h (.returned status st) heq

theorem PassEnds.delivers (hends : PassEnds f inn st (.returned status) result)
    (hlength : ∀ a : Area, a.received = a.total → length a = a.total)
    (hf : maxTallocSize ≤ f.counter) (h : st.Holds f replies) (hwithin : inn.Within p)
    (hadmits : st.Admits f inn) :
    result.Delivers f length (replies ++ [p]) ∧
      ∀ st', result = .going st' → st'.Holds f (replies ++ [p]) := by
  have hheld : List.Forall₂ Within (st.passes ++ [inn]) (replies ++ [p]) :=
    rel_append h.2 (.cons hwithin .nil)
  cases hends with
  | crashed => exact ⟨trivial, by simp⟩
  | refused => exact ⟨fun hok => absurd hok (by decide), by simp⟩
  | complete hpassed hcomplete =>
    obtain ⟨hcounted, hannounced⟩ := hpassed.counted hf h.1 hadmits
    exact ⟨fun _ => hcounted.reassembled hlength hcomplete hheld getLast?_concat hannounced
      (.inl hpassed.passes), by simp⟩
  | going hpassed =>
    refine ⟨trivial, fun st' heq => ?_⟩
    obtain rfl := TransResult.going.inj heq
    exact ⟨(hpassed.counted hf h.1 hadmits).1, hpassed.passes ▸ hheld⟩

/-- Both functions return success only from their loops. -/
theorem Resumes.delivers {phase : Phase} {loop : TransState → TransResult}
    {K : TransState → Prop} (h : Resumes f req phase loop result)
    (hloop : ∀ st, req.state = .done → Begins f req.inn phase st →
      (loop st).Delivers f length replies ∧ ∀ st', loop st = .going st' → K st') :
    result.Delivers f length replies ∧ ∀ st', result = .going st' → K st' := by
  cases h with
  | failed hok => exact ⟨fun hok' => absurd hok' (by simp [hok]), by simp⟩
  | crashed => exact ⟨trivial, by simp⟩
  | refused _ hfirst hnot =>
    refine ⟨?_, fun st' heq => absurd heq (hnot st')⟩
    obtain ⟨heq, -⟩ | ⟨status, herr, st, heq, -⟩ | ⟨_, _, _, _, heq, -⟩ :=
      transFirst_cases f req.inn
    · exact hfirst ▸ heq ▸ trivial
    · exact hfirst ▸ heq ▸ fun hok => absurd hok (by simp [NtStatus.isOk_of_isErr herr])
    · exact hfirst ▸ heq ▸ trivial
  | looped hdone hbegins => exact hloop _ hdone hbegins

theorem Brings.within {replies' : List Packet} (h : Brings replies req replies')
    (hdone : req.state = .done) (hin : req.inn.InPacket) :
    ∃ p, req.inn.Within p ∧ replies' = replies ++ [p] := by
  obtain ⟨p, hbuffer, hreplies⟩ := h.done hdone
  obtain ⟨p', hp', hwithin⟩ := hin
  obtain rfl : p' = p := some.inj (hp'.symm.trans hbuffer)
  exact ⟨p', hwithin, hreplies⟩

/-- The state with which a reply is gone through, if its lumps are apart from those before. -/
theorem Begins.holds {phase : Phase} (h : Begins trans2Format req.inn phase st)
    (hphase : phase.state.Holds trans2Format replies) (hapart : Apart phase req) :
    st.Holds trans2Format replies ∧ st.Admits trans2Format req.inn := by
  obtain ⟨rfl, hfirst⟩ | rfl := h
  · obtain ⟨hcounted, -, hpasses, hfree, hfree'⟩ := transFirst_counted hfirst
    exact ⟨⟨hcounted, hpasses ▸ hphase.2⟩,
      ⟨fun lump hlump => ⟨hfree lump, trans2_noWrap.1 lump hlump⟩,
        fun lump hlump => ⟨hfree' lump, trans2_noWrap.2 lump hlump⟩⟩⟩
  · exact ⟨hphase, ⟨fun lump hlump => ⟨hapart.2.1 lump hlump, trans2_noWrap.1 lump hlump⟩,
      fun lump hlump => ⟨hapart.2.2 lump hlump, trans2_noWrap.2 lump hlump⟩⟩⟩

/-- The loop of `smb_raw_nttrans_recv` with a whole reply. -/
theorem nttransLoop_delivers (hreply : WholeInPacket .first req) (hwithin : req.inn.Within p)
    (hfirst : transFirst nttransFormat req.inn = .going st) :
    (nttransLoop req (fuel + 1) st).Delivers nttransFormat total [p] := by
  obtain ⟨hcounted, hannounced, hpasses, hfree, hfree'⟩ := transFirst_counted hfirst
  obtain ⟨hcomplete, heq⟩ | ⟨hends, -⟩ := nttransLoop_whole fuel hreply.2 hfirst
  · -- nothing was announced
    have hheld : List.Forall₂ Within [req.inn] [p] := .cons hwithin .nil
    obtain ⟨hdata, hparams⟩ := (transFirst_starts nttransFormat req.inn).2 st hfirst
    refine heq ▸ fun _ => hcounted.reassembled (fun _ _ => rfl) hcomplete hheld rfl hannounced
      (.inr ⟨hpasses, ?_⟩)
    rw [TransState.isComplete, Bool.and_eq_true, decide_eq_true_eq, decide_eq_true_eq, hdata,
      hparams] at hcomplete
    exact ⟨le_zero.mp hcomplete.1, le_zero.mp hcomplete.2⟩
  · have hholds : st.Holds nttransFormat [] := ⟨hcounted, hpasses ▸ .nil⟩
    exact (hends.delivers (fun _ _ => rfl) (by decide) hholds hwithin
      ⟨fun lump hlump => ⟨hfree lump, hreply.1.2.1 lump hlump⟩,
        fun lump hlump => ⟨hfree' lump, hreply.1.2.2 lump hlump⟩⟩).1

/-! ## Runs -/

/-- **Success means that the buffers are full.** If the replies are in their packets, have enough
words, and bring lumps that are apart (trans2), or the reply is whole (nttrans): after a success the
lengths are the totals announced last, every byte was brought by a lump to its place, and each
packet was gone through once. -/
theorem trans_reassembles (md5 : Bytes → Bytes) (me fuel : Nat) (t : Transport)
    (events : List NetEvent) :
    ((trans2 md5 me).EachStep (fun w event _ _ => Replies md5 me Apart w event)
        { transport := t } events →
      (trans2 md5 me).EachStep (fun _ _ o w' => ReturnsReassembled trans2Format received o w')
        { transport := t } events) ∧
    ((nttrans md5 me (fuel + 1)).EachStep
        (fun w event _ _ => Replies md5 me WholeInPacket w event) { transport := t } events →
      (nttrans md5 me (fuel + 1)).EachStep
        (fun _ _ o w' => ReturnsReassembled nttransFormat total o w')
        { transport := t } events) := by
  have hempty : (0 : Nat) < maxTallocSize := by decide
  have hnothing : ({} : TransState).Holds trans2Format [] :=
    ⟨⟨alloc_counted hempty, alloc_counted hempty⟩, .nil⟩
  constructor
  · intro hreplies
    refine Machine.EachStep.mono (fun _ _ _ _ => .of_delivers) events _ (eachStep_wait
        (I := fun replies phase => phase = .ended ∨ phase.state.Holds trans2Format replies)
        (P := fun replies result => result.Delivers trans2Format received replies)
        (fun _ => .inl rfl) ?_ events _ (.inr hnothing) hreplies)
    intro phase req replies replies' h hover hbrings hreply
    have hresult : (trans2Resume req phase).Delivers trans2Format received replies' ∧
        ∀ st, trans2Resume req phase = .going st → st.Holds trans2Format replies' := by
      refine (trans2Resume_resumes hbrings.state hover).delivers fun st hdone hbegins => ?_
      obtain ⟨p, hwithin, rfl⟩ := hbrings.within hdone (hreply hdone).1.1
      obtain ⟨hholds, hadmits⟩ := hbegins.holds (h.resolve_left hover) (hreply hdone)
      exact (trans2Pass_ends req st).delivers (fun _ heq => heq) (by decide) hholds hwithin hadmits
    exact ⟨hresult.1, fun st hgoing => .inr (hresult.2 st hgoing)⟩
  · intro hreplies
    refine Machine.EachStep.mono (fun _ _ _ _ => .of_delivers) events _ (eachStep_wait
        (I := fun replies phase => phase = .ended ∨ replies = [])
        (P := fun replies result => result.Delivers nttransFormat total replies)
        (fun _ => .inl rfl) ?_ events _ (.inr rfl) hreplies)
    intro phase req replies replies' h hover hbrings hreply
    obtain rfl := h.resolve_left hover
    have hended := (nttransResume_whole fuel hbrings fun hdone => (hreply hdone).2).2
    refine ⟨?_, fun st hgoing => absurd hgoing (hended st)⟩
    refine ((nttransResume_resumes (fuel + 1) hbrings.state).delivers (K := fun _ => True)
      fun st hdone hbegins => ⟨?_, fun _ _ => trivial⟩).1
    obtain ⟨p, hwithin, rfl⟩ := hbrings.within hdone (hreply hdone).1.1
    obtain ⟨-, hfirst⟩ | hloop := hbegins
    · exact nttransLoop_delivers (hreply hdone) hwithin hfirst
    · simp at hloop

instance (a : Area) (lump : Lump) : Decidable (a.Free lump) :=
  inferInstanceAs (Decidable (_ ∧ _))

instance (phase : Phase) (req : Request) : Decidable (Apart phase req) :=
  inferInstanceAs (Decidable (_ ∧ _ ∧ _))

instance (phase : Phase) (req : Request) : Decidable (WholeInPacket phase req) :=
  inferInstanceAs (Decidable (_ ∧ _))

/-- Two lumps, the second one first; and a reply in one packet. -/
theorem trans_reassembles_two :
    (trans2 (fun _ => []) 0).EachStep
      (fun _ _ o w' => ReturnsReassembled trans2Format received o w')
      { transport := oneRequest } [trans2Reply 4 2 [3, 4], trans2Reply 4 0 [1, 2]] ∧
    (nttrans (fun _ => []) 0 1).EachStep
      (fun _ _ o w' => ReturnsReassembled nttransFormat total o w')
      { transport := oneRequest } [nttransReply 2 0 [1, 2]] :=
  ⟨(trans_reassembles _ _ 0 _ _).1 (.of_check _ _ (by decide +kernel)),
    (trans_reassembles _ _ 0 _ _).2 (.of_check _ _ (by decide))⟩

/-- The status, the buffer and the lengths that a run returns. -/
def returnedData (run : Option (Option (Option TransResult) × Waiting)) :
    Option (NtStatus × List (Option UInt8) × Nat × Nat) :=
  run.bind fun (o, _) => o.bind fun result => result.bind fun
    | .returned status st => some (status, st.data.mem, st.data.total, st.data.received)
    | _ => none

/-- Two lumps at one place: two bytes unset. Three bytes twice: a length larger than the buffer.
Half of the data in an nttrans reply: its packet is taken twice. -/
theorem trans_incomplete :
    returnedData ((trans2 (fun _ => []) 0).run { transport := oneRequest }
      [trans2Reply 4 0 [1, 2], trans2Reply 4 0 [3, 4]]) =
        some (.ok, [some 3, some 4, none, none], 4, 4) ∧
    returnedData ((trans2 (fun _ => []) 0).run { transport := oneRequest }
      [trans2Reply 4 0 [1, 2, 3], trans2Reply 4 0 [1, 2, 3]]) =
        some (.ok, [some 1, some 2, some 3, none], 4, 6) ∧
    returnedData ((nttrans (fun _ => []) 0 2).run { transport := oneRequest }
      [nttransReply 4 0 [1, 2]]) = some (.ok, [some 1, some 2, none, none], 4, 4) :=
  ⟨by decide, by decide, by decide⟩

end OpenvasSmb.Smb

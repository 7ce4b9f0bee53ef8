import OpenvasSmb.Smb.Receive
import OpenvasSmb.Smb.Trans

/-!
# What a pass over a reply does

The specifications of `transFirst` and `transPass`, and of the step that waits for a reply.
-/

namespace OpenvasSmb.Smb

open Kit List Option TransFormat
open Ndr (maxTallocSize)

variable {f : TransFormat} {inn : RequestBuffer} {st st' : TransState} {p : Packet}

/-! ## Formats -/

/-- All numbers are in the words that a reply must have. -/
def TransFormat.Sound (f : TransFormat) : Prop :=
  (∀ ofs ∈ [f.totalData, f.totalParam, f.paramCount, f.paramOfs, f.paramDisp, f.dataCount,
    f.dataOfs, f.dataDisp], ofs + f.width ≤ 2 * f.minWct) ∧
  f.setupCount + f.setupWidth ≤ 2 * f.minWct

instance (f : TransFormat) : Decidable f.Sound := inferInstanceAs (Decidable (_ ∧ _))

theorem trans2Format_sound : trans2Format.Sound := by decide

theorem nttransFormat_sound : nttransFormat.Sound := by decide

/-! ## The first reply -/

theorem mapM_eq_none {α β : Type} {g : α → Option β} {l : List α} (h : l.mapM g = none) :
    ∃ x ∈ l, g x = none := by
  induction l with
  | nil => simp at h
  | cons x rest ih =>
    cases hx : g x with
    | none => exact ⟨x, mem_cons_self, hx⟩
    | some y =>
      cases hrest : rest.mapM g with
      | none =>
        obtain ⟨z, hz, hnone⟩ := ih hrest
        exact ⟨z, mem_cons_of_mem _ hz, hnone⟩
      | some ys => simp [mapM_cons, hx, hrest] at h

/-- What the first reply leads to: an unreadable number, an error, or words read and buffers
allocated. -/
theorem transFirst_cases (f : TransFormat) (inn : RequestBuffer) :
    (transFirst f inn = .crashed ∧
      ∃ ofs n, number inn ofs n = none ∧ (f.Sound → ofs + n ≤ 2 * inn.wct)) ∨
    (∃ status, status.isErr = true ∧ ∃ st, transFirst f inn = .returned status st ∧
      st.passes = [] ∧ (st.log = [] ∨ st.log = f.firstWords inn ∧ f.minWct ≤ inn.wct)) ∨
    ∃ totalData totalParam setupCount setup,
      transFirst f inn = .going
        { data := .alloc totalData, params := .alloc totalParam, setup := setup
          log := f.firstWords inn ++ (range setupCount).map fun i =>
            .word inn (2 * (f.minWct + i)) 2 } ∧
      inn.wct = f.minWct + setupCount ∧
      totalData < maxTallocSize ∧ totalParam < maxTallocSize ∧
      number inn f.totalData f.width = some totalData ∧
      number inn f.totalParam f.width = some totalParam := by
  unfold transFirst
  split_ifs with hwct
  · exact .inr (.inl ⟨.invalidParameter, by decide, _, rfl, rfl, .inl rfl⟩)
  · have hword : ∀ {ofs n}, ofs + n ≤ 2 * f.minWct → ofs + n ≤ 2 * inn.wct := by omega
    cases hdata : number inn f.totalData f.width with
    | none => exact .inl ⟨rfl, _, _, hdata, fun hf => hword (hf.1 _ (by simp))⟩
    | some totalData =>
      cases hparam : number inn f.totalParam f.width with
      | none => exact .inl ⟨rfl, _, _, hparam, fun hf => hword (hf.1 _ (by simp))⟩
      | some totalParam =>
        cases hcount : number inn f.setupCount f.setupWidth with
        | none => exact .inl ⟨rfl, _, _, hcount, fun hf => hword hf.2⟩
        | some setupWord =>
          simp only
          split_ifs with hmemory hwords
          · exact .inr (.inl ⟨.noMemory, by decide, _, rfl, rfl, .inr ⟨rfl, by omega⟩⟩)
          · exact .inr (.inl ⟨.invalidParameter, by decide, _, rfl, rfl, .inr ⟨rfl, by omega⟩⟩)
          · cases hsetup : (range (setupWord % 256)).mapM fun i =>
                number inn (2 * (f.minWct + i)) 2 with
            | none =>
              obtain ⟨i, hi, hnone⟩ := mapM_eq_none hsetup
              have := mem_range.mp hi
              exact .inl ⟨rfl, _, _, hnone, fun _ => by omega⟩
            | some setup =>
              rw [not_or, Nat.not_le, Nat.not_le] at hmemory
              exact .inr (.inr ⟨totalData, totalParam, setupWord % 256, setup, rfl,
                not_not.mp hwords, hmemory.1, hmemory.2, rfl, rfl⟩)

/-! ## One pass -/

/-- A lump passes the checks. -/
structure Area.Accepts (inn : RequestBuffer) (a : Area) (lump : Lump) : Prop where
  shrinks : lump.total ≤ a.total
  fits : (lump.count + lump.disp) % 2 ^ 32 ≤ lump.total
  inside : rawTransOob inn lump = false

/-- A lump passes the checks and is copied. -/
structure Area.Takes (inn : RequestBuffer) (a : Area) (lump : Lump) (a' : Area) : Prop
    extends a.Accepts inn lump where
  copied : (a.announce lump).copy inn lump = some a'

def TransState.pass (f : TransFormat) (inn : RequestBuffer) (st : TransState)
    (data param : Lump) (dataArea paramArea : Area) : TransState :=
  { st with
    data := dataArea.count f data
    params := paramArea.count f param
    log := st.log ++ f.lumpWords inn ++ lumpCopies inn st data param
    passes := st.passes ++ [inn] }

/-- A pass in which both lumps are taken leads to the state. -/
inductive Passed (f : TransFormat) (inn : RequestBuffer) (st : TransState) : TransState → Prop
  | intro {data param : Lump} {dataArea paramArea : Area} (hdata : f.dataLump inn = some data)
      (hparam : f.paramLump inn = some param) (htakes : st.data.Takes inn data dataArea)
      (htakes' : st.params.Takes inn param paramArea) :
      Passed f inn st (st.pass f inn data param dataArea paramArea)

/-- What a pass can do, where `finish` is what is made of a state that is complete. -/
inductive PassEnds (f : TransFormat) (inn : RequestBuffer) (st : TransState)
    (finish : TransState → TransResult) : TransResult → Prop
  | crashed (h : f.dataLump inn = none ∨ f.paramLump inn = none ∨
      ∃ data param, f.dataLump inn = some data ∧ f.paramLump inn = some param ∧
        st.data.Accepts inn data ∧ st.params.Accepts inn param ∧
        ((st.data.announce data).copy inn data = none ∨
          (st.params.announce param).copy inn param = none)) :
      PassEnds f inn st finish .crashed
  | refused {st' : TransState} (hlog : st'.log = st.log ++ f.lumpWords inn)
      (hpasses : st'.passes = st.passes ++ [inn]) :
      PassEnds f inn st finish (.returned .bufferTooSmall st')
  | complete {st' : TransState} (h : Passed f inn st st') (hcomplete : st'.isComplete = true) :
      PassEnds f inn st finish (finish st')
  | going {st' : TransState} (h : Passed f inn st st') (hcomplete : st'.isComplete = false) :
      PassEnds f inn st finish (.going st')

theorem transPass_ends (f : TransFormat) (inn : RequestBuffer) (st : TransState) :
    PassEnds f inn st .complete (transPass f inn st) := by
  unfold transPass
  cases hdata : f.dataLump inn with
  | none => exact .crashed (.inl hdata)
  | some data =>
    cases hparam : f.paramLump inn with
    | none => exact .crashed (.inr (.inl hparam))
    | some param =>
      simp only
      split_ifs with htotal hfits hoob
      · exact .refused rfl rfl
      · exact .refused rfl rfl
      · exact .refused rfl rfl
      · rw [not_or, Nat.not_lt, Nat.not_lt] at htotal hfits
        rw [Bool.or_eq_true, not_or, Bool.not_eq_true, Bool.not_eq_true] at hoob
        have haccepts : st.data.Accepts inn data := ⟨htotal.1, hfits.1, hoob.2⟩
        have haccepts' : st.params.Accepts inn param := ⟨htotal.2, hfits.2, hoob.1⟩
        have hcrashed : _ → PassEnds f inn st .complete .crashed := fun hcopy =>
          .crashed (.inr (.inr ⟨data, param, hdata, hparam, haccepts, haccepts', hcopy⟩))
        cases hcopy : (st.data.announce data).copy inn data with
        | none => exact hcrashed (.inl hcopy)
        | some dataArea =>
          cases hcopy' : (st.params.announce param).copy inn param with
          | none => exact hcrashed (.inr hcopy')
          | some paramArea =>
            have hpassed := Passed.intro hdata hparam ⟨haccepts, hcopy⟩ ⟨haccepts', hcopy'⟩
            show PassEnds f inn st .complete (if (st.pass f inn data param dataArea
              paramArea).isComplete then _ else _)
            split_ifs with hcomplete
            · exact .complete hpassed hcomplete
            · exact .going hpassed (Bool.eq_false_iff.mpr hcomplete)

theorem transPass_takes {data param : Lump} {dataArea paramArea : Area}
    (hdata : f.dataLump inn = some data) (hparam : f.paramLump inn = some param)
    (htakes : st.data.Takes inn data dataArea) (htakes' : st.params.Takes inn param paramArea) :
    transPass f inn st =
      let st' := st.pass f inn data param dataArea paramArea
      if st'.isComplete then .complete st' else .going st' := by
  have htotal : ¬(data.total > st.data.total ∨ param.total > st.params.total) :=
    not_or.mpr ⟨Nat.not_lt.mpr htakes.shrinks, Nat.not_lt.mpr htakes'.shrinks⟩
  have hfits : ¬((data.count + data.disp) % 2 ^ 32 > (st.data.announce data).total ∨
      (param.count + param.disp) % 2 ^ 32 > (st.params.announce param).total) :=
    not_or.mpr ⟨Nat.not_lt.mpr htakes.fits, Nat.not_lt.mpr htakes'.fits⟩
  have hoob : ¬(rawTransOob inn param || rawTransOob inn data) = true := by
    simp [htakes.inside, htakes'.inside]
  rw [transPass, hdata, hparam]
  simp only [if_neg htotal, if_neg hfits, if_neg hoob, htakes.copied, htakes'.copied]
  rfl

/-! ## Buffers -/

namespace Area

variable {a a' : Area} {lump : Lump}

theorem copy_cases (h : a.copy inn lump = some a') :
    (lump.count = 0 ∧ a' = a) ∨
    (lump.count ≠ 0 ∧ ∃ hdr bytes, inn.hdr = some hdr ∧
      hdr.slice lump.ofs lump.count = some bytes ∧ lump.disp + lump.count ≤ a.mem.length ∧
      a' = a.store lump.disp bytes) := by
  unfold copy at h
  by_cases hcount : lump.count = 0
  · rw [if_pos hcount] at h
    exact .inl ⟨hcount, (some.inj h).symm⟩
  · rw [if_neg hcount] at h
    obtain ⟨hdr, hhdr, h⟩ := bind_eq_some_iff.mp h
    obtain ⟨bytes, hbytes, h⟩ := bind_eq_some_iff.mp h
    by_cases hroom : lump.disp + lump.count ≤ a.mem.length
    · rw [if_pos hroom] at h
      exact .inr ⟨hcount, hdr, bytes, hhdr, hbytes, hroom, (some.inj h).symm⟩
    · simp [hroom] at h

theorem store_length {disp : Nat} {bytes : Bytes} (h : disp + bytes.length ≤ a.mem.length) :
    (a.store disp bytes).mem.length = a.mem.length := by
  show (a.mem.take disp ++ bytes.map some ++ a.mem.drop (disp + bytes.length)).length = _
  rw [length_append, length_append, length_take, length_map, length_drop]
  omega

theorem store_mem {disp i : Nat} {bytes : Bytes} (h : disp + bytes.length ≤ a.mem.length) :
    (a.store disp bytes).mem[i]? =
      if disp ≤ i ∧ i < disp + bytes.length then some bytes[i - disp]? else a.mem[i]? := by
  show (a.mem.take disp ++ bytes.map some ++ a.mem.drop (disp + bytes.length))[i]? = _
  have htake : (a.mem.take disp).length = disp := by rw [length_take]; omega
  have hfront : (a.mem.take disp ++ bytes.map some).length = disp + bytes.length := by
    rw [length_append, htake, length_map]
  by_cases hlow : i < disp
  · rw [if_neg (by omega), getElem?_append_left (by omega),
      getElem?_append_left (by omega), getElem?_take_of_lt hlow]
  · by_cases hhigh : i < disp + bytes.length
    · rw [if_pos ⟨by omega, hhigh⟩, getElem?_append_left (by omega),
        getElem?_append_right (by omega), htake, getElem?_map,
        getElem?_eq_getElem (show i - disp < bytes.length by omega)]
      rfl
    · rw [if_neg (by omega), getElem?_append_right (by omega), getElem?_drop]
      congr 1
      omega

namespace Takes

theorem kept (h : a.Takes inn lump a') :
    a'.mem.length = a.mem.length ∧ a'.total = lump.total ∧ a'.received = a.received := by
  obtain ⟨-, rfl⟩ | ⟨-, hdr, bytes, -, hbytes, hroom, rfl⟩ := copy_cases h.copied
  · exact ⟨rfl, rfl, rfl⟩
  · refine ⟨?_, rfl, rfl⟩
    rw [← Ptr.length_of_slice hbytes] at hroom
    exact store_length hroom

end Takes

end Area

/-! ## Inside the packet -/

/-- A word is read in the words of the reply that completed the request; a lump is copied from the
packet of that reply to a place in the buffer. -/
def Access.Inside : Access → Prop
  | .word inn ofs n =>
    ∃ p vwv, inn.buffer = some p ∧ inn.vwv = some vwv ∧ vwv.Inside (2 * inn.wct) p ∧
      ofs + n ≤ 2 * inn.wct
  | .copy inn lump alloc =>
    ∃ p hdr, inn.buffer = some p ∧ inn.hdr = some hdr ∧ hdr.Inside (lump.ofs + lump.count) p ∧
      lump.disp + lump.count ≤ alloc

/-! ## Numbers -/

theorem number_lt {ofs n v : Nat} (h : number inn ofs n = some v) : v < 256 ^ n := by
  obtain ⟨vwv, -, h⟩ := bind_eq_some_iff.mp h
  exact Ptr.ofLe_slice_lt h

theorem lump_numbers {total count ofs disp n : Nat} {lump : Lump} (h : (do
      let total ← number inn total n
      let count ← number inn count n
      let ofs ← number inn ofs n
      let disp ← number inn disp n
      some (⟨total, count, ofs, disp⟩ : Lump)) = some lump) :
    number inn total n = some lump.total ∧ lump.count < 256 ^ n ∧ lump.disp < 256 ^ n := by
  obtain ⟨total, htotal, h⟩ := bind_eq_some_iff.mp h
  obtain ⟨count, hcount, h⟩ := bind_eq_some_iff.mp h
  obtain ⟨ofs, -, h⟩ := bind_eq_some_iff.mp h
  obtain ⟨disp, hdisp, h⟩ := bind_eq_some_iff.mp h
  obtain rfl := some.inj h
  exact ⟨htotal, number_lt hcount, number_lt hdisp⟩

section Inside

variable {ofs n : Nat} (h : inn.Within p)
include h

theorem number_inside (hofs : ofs + n ≤ 2 * inn.wct) :
    ∃ v, number inn ofs n = some v := by
  obtain ⟨vwv, hvwv, hpacket, hinside⟩ := h.vwv
  have hslice : vwv.slice ofs n = some _ := Ptr.slice_of_le (by rw [hpacket]; omega)
  simp only [number, hvwv, hslice, bind_eq_bind, bind_some, map_some]
  exact ⟨_, rfl⟩

theorem word_inside (hofs : ofs + n ≤ 2 * inn.wct) :
    (Access.word inn ofs n).Inside := by
  obtain ⟨vwv, hvwv, hpacket, hinside⟩ := h.vwv
  exact ⟨p, vwv, h.buffer, hvwv, ⟨hpacket, by omega⟩, hofs⟩

theorem firstWords_inside (hf : f.Sound) (hwct : f.minWct ≤ inn.wct) :
    ∀ access ∈ f.firstWords inn, access.Inside := by
  have hnumber := hf.1
  have hsetup := hf.2
  simp only [forall_mem_cons] at hnumber
  simp only [firstWords, forall_mem_cons]
  exact ⟨word_inside h (by omega), word_inside h (by omega), word_inside h (by omega),
    fun _ hmem => absurd hmem not_mem_nil⟩

theorem lumpWords_inside (hf : f.Sound) (hwct : f.minWct ≤ inn.wct) :
    ∀ access ∈ f.lumpWords inn, access.Inside := by
  intro access hmem
  obtain ⟨ofs, hofs, rfl⟩ := mem_map.mp hmem
  have := hf.1 ofs hofs
  exact word_inside h (by omega)

theorem lumps_inside (hf : f.Sound) (hwct : f.minWct ≤ inn.wct) :
    ∃ data param, f.dataLump inn = some data ∧ f.paramLump inn = some param := by
  have hnumber : ∀ ofs ∈ [f.totalData, f.totalParam, f.paramCount, f.paramOfs, f.paramDisp,
      f.dataCount, f.dataOfs, f.dataDisp], ∃ v, number inn ofs f.width = some v := by
    intro ofs hofs
    have := hf.1 ofs hofs
    exact number_inside h (by omega)
  simp only [forall_mem_cons] at hnumber
  obtain ⟨⟨totalData, h₁⟩, ⟨totalParam, h₂⟩, ⟨paramCount, h₃⟩, ⟨paramOfs, h₄⟩, ⟨paramDisp, h₅⟩,
    ⟨dataCount, h₆⟩, ⟨dataOfs, h₇⟩, ⟨dataDisp, h₈⟩, -⟩ := hnumber
  refine ⟨⟨totalData, dataCount, dataOfs, dataDisp⟩, ⟨totalParam, paramCount, paramOfs, paramDisp⟩,
    ?_, ?_⟩
  · simp only [dataLump, h₁, h₆, h₇, h₈, bind_eq_bind, bind_some]
  · simp only [paramLump, h₂, h₃, h₄, h₅, bind_eq_bind, bind_some]

theorem transFirst_ne_crashed (hf : f.Sound) : transFirst f inn ≠ .crashed := by
  obtain ⟨-, ofs, n, hnone, hle⟩ | ⟨status, -, st, heq, -⟩ | ⟨_, _, _, _, heq, -⟩ :=
    transFirst_cases f inn
  · obtain ⟨v, hv⟩ := number_inside h (hle hf)
    exact absurd (hv.symm.trans hnone) (by simp)
  · simp [heq]
  · simp [heq]

/-- A lump that is not out of bounds is in the packet. -/
theorem rawTransOob_inside {lump : Lump} (hcount : lump.count ≠ 0)
    (hoob : rawTransOob inn lump = false) :
    ∃ hdr, inn.hdr = some hdr ∧ hdr.Inside (lump.ofs + lump.count) p := by
  obtain ⟨hdr, hhdr, hpacket, -⟩ := h.hdr
  obtain ⟨data, hdata, -, hinside⟩ := h.data
  rw [rawTransOob, if_neg hcount, hhdr, hdata] at hoob
  simp only [Bool.or_eq_false_iff, decide_eq_false_iff_not] at hoob
  exact ⟨hdr, hhdr, hpacket, by omega⟩

/-- The lump is copied if it is in the packet and its place in the buffer. -/
theorem Area.copy_inside {a : Area} {lump : Lump} (hoob : rawTransOob inn lump = false)
    (hroom : lump.disp + lump.count ≤ a.mem.length) :
    ∃ a', a.copy inn lump = some a' := by
  by_cases hcount : lump.count = 0
  · exact ⟨a, by rw [Area.copy, if_pos hcount]⟩
  · obtain ⟨hdr, hhdr, hpacket, hinside⟩ := rawTransOob_inside h hcount hoob
    have hslice : hdr.slice lump.ofs lump.count = some _ :=
      Ptr.slice_of_le (by rw [hpacket]; omega)
    rw [Area.copy, if_neg hcount]
    simp only [hhdr, hslice, bind_eq_bind, bind_some, if_pos hroom]
    exact ⟨_, rfl⟩

end Inside

/-! ## Waiting -/

section Waiting

variable {md5 : Bytes → Bytes} {me : Nat} {resume : Request → Phase → TransResult}
  {w w' : Waiting} {event : NetEvent} {o : Option TransResult}

/-- An event does nothing for the request, or completes it, and the function goes on to the next
wait. -/
theorem waitStep_cases (h : waitStep md5 me resume w event = some (o, w')) :
    (o = none ∧ ∃ t, w' = w.next t) ∨
    ∃ req t, eventLoopOnce md5 w event = some (.completed req, t) ∧ req.id = me ∧
      w.phase ≠ .ended ∧ o = some (resume req w.phase) ∧
      ((∃ st, resume req w.phase = .going st ∧
        w' = { w.reply t event with transport := t.receiveMore req, phase := .loop st }) ∨
      ((∀ st, resume req w.phase ≠ .going st) ∧
        w' = { w.reply t event with phase := .ended })) := by
  unfold waitStep at h
  by_cases hover : w.phase = .ended
  · rw [if_pos hover] at h
    simp at h
  · rw [if_neg hover] at h
    obtain ⟨⟨received, t⟩, hevent, h⟩ := bind_eq_some_iff.mp h
    cases received with
    | discarded | oplockBreak info =>
      obtain ⟨rfl, rfl⟩ := answer_inj h
      exact .inl ⟨rfl, t, rfl⟩
    | completed req =>
      by_cases hme : req.id = me
      · refine .inr ⟨req, t, hevent, hme, hover, ?_⟩
        simp only [if_pos hme] at h
        have hphase : (w.reply t event).phase = w.phase := rfl
        rw [hphase] at h
        cases hresume : resume req w.phase with
        | going st =>
          rw [hresume] at h
          obtain ⟨rfl, rfl⟩ := answer_inj h
          exact ⟨rfl, .inl ⟨st, rfl, rfl⟩⟩
        | crashed | returned _ _ | complete _ =>
          rw [hresume] at h
          obtain ⟨rfl, rfl⟩ := answer_inj h
          exact ⟨rfl, .inr ⟨fun st => by simp, rfl⟩⟩
      · simp only [if_neg hme] at h
        obtain ⟨rfl, rfl⟩ := answer_inj h
        exact .inl ⟨rfl, t, rfl⟩

/-- What completes a request after some replies: a packet, the last of the replies, or a timeout. -/
structure Brings (replies : List Packet) (req : Request) (replies' : List Packet) : Prop where
  state : req.state = .done ∨ req.state = .error
  done : req.state = .done → ∃ p, req.inn.buffer = some p ∧ replies' = replies ++ [p]
  grows : replies.length ≤ replies'.length

theorem eventLoopOnce_brings {req : Request} {t : Transport}
    (h : eventLoopOnce md5 w event = some (.completed req, t)) :
    Brings w.replies req (w.reply t event).replies := by
  have hgrows : w.replies.length ≤ (w.reply t event).replies.length := by
    show _ ≤ (w.replies ++ _).length
    rw [length_append]
    exact Nat.le_add_right _ _
  cases event with
  | timeout id =>
    simp only [eventLoopOnce] at h
    cases hfind : w.transport.pending.find? (·.id == id) with
    | none => simp [hfind] at h
    | some req' =>
      rw [hfind] at h
      obtain ⟨hreq, -⟩ := answer_inj h
      obtain rfl := Received.completed.inj hreq
      exact ⟨.inr rfl, fun hdone => absurd hdone (by simp), hgrows⟩
  | packet bytes =>
    obtain ⟨hstate, hbuffer⟩ := finishRecv_completed h
    exact ⟨hstate, fun _ => ⟨_, hbuffer, rfl⟩, hgrows⟩

/-- A condition on the replies to the request that an event brings. -/
def Replies (md5 : Bytes → Bytes) (me : Nat) (C : Phase → Request → Prop) (w : Waiting)
    (event : NetEvent) : Prop :=
  ∀ req t, eventLoopOnce md5 w event = some (.completed req, t) → req.id = me →
    req.state = .done → C w.phase req

/-- **The rule for waiting.** If a function makes `P` of each reply that meets the condition, and
what it waits with is kept, then `P` holds in every run whose replies meet the condition. -/
theorem eachStep_wait {C : Phase → Request → Prop} {I : List Packet → Phase → Prop}
    {P : List Packet → TransResult → Prop} (hended : ∀ replies, I replies .ended)
    (hresume : ∀ {phase req replies replies'}, I replies phase → phase ≠ .ended →
      Brings replies req replies' → (req.state = .done → C phase req) →
      P replies' (resume req phase) ∧
        ∀ st, resume req phase = .going st → I replies' (.loop st)) :
    ∀ events w, I w.replies w.phase →
      (Machine.mk (waitStep md5 me resume)).EachStep
        (fun w event _ _ => Replies md5 me C w event) w events →
      (Machine.mk (waitStep md5 me resume)).EachStep
        (fun _ _ o w' => ∀ result, o = some result → P w'.replies result) w events := by
  refine Machine.EachStep.of_inv fun w event o w' h hstep hreply => ?_
  obtain ⟨rfl, t, rfl⟩ | ⟨req, t, hevent, hme, hover, rfl, hnext⟩ := waitStep_cases hstep
  · exact ⟨h, fun result hresult => by simp at hresult⟩
  · obtain ⟨hpost, hkeep⟩ :=
      hresume h hover (eventLoopOnce_brings hevent) (hreply req t hevent hme)
    have hresult : ∀ result, some (resume req w.phase) = some result →
        P (w.reply t event).replies result :=
      fun result heq => some.inj heq ▸ hpost
    obtain ⟨st, hgoing, rfl⟩ | ⟨-, rfl⟩ := hnext
    · exact ⟨hkeep st hgoing, hresult⟩
    · exact ⟨hended _, hresult⟩

end Waiting

/-! ## From one wait to the next -/

/-- The buffers before a reply; there are none before the first one. -/
def Phase.state : Phase → TransState
  | .loop st => st
  | .first | .ended => {}

/-- The state with which a reply is gone through: that of the first reply, or that of the wait. -/
def Begins (f : TransFormat) (inn : RequestBuffer) (phase : Phase) (st : TransState) : Prop :=
  phase = .first ∧ transFirst f inn = .going st ∨ phase = .loop st

/-- What the functions make of a completed request, where `loop` is what they do after the first
reply was looked at. -/
inductive Resumes (f : TransFormat) (req : Request) (phase : Phase)
    (loop : TransState → TransResult) : TransResult → Prop
  | failed {status : NtStatus} (hok : status.isOk = false) :
      Resumes f req phase loop (.returned status phase.state)
  | crashed (hdone : req.state = .done) (hcommand : hasCommand req.inn 0xA0 = none) :
      Resumes f req phase loop .crashed
  | refused {result : TransResult} (hdone : req.state = .done)
      (hfirst : transFirst f req.inn = result) (hnot : ∀ st, result ≠ .going st) :
      Resumes f req phase loop result
  | looped {st : TransState} (hdone : req.state = .done) (hbegins : Begins f req.inn phase st) :
      Resumes f req phase loop (loop st)

variable {req : Request} {phase : Phase}

theorem smbcliRequestDestroy_not_ok (h : req.state = .done ∨ req.state = .error)
    (herr : req.state ≠ .done ∨ req.status.isErr = true) :
    (smbcliRequestDestroy req).isOk = false := by
  unfold smbcliRequestDestroy
  by_cases hok : req.status.isOk = true
  · have herror : req.state = .error := by
      obtain hdone | herror := h
      · obtain hnot | herr := herr
        · exact absurd hdone hnot
        · exact absurd (NtStatus.isOk_of_isErr herr) (by simp [hok])
      · exact herror
    rw [if_pos ⟨herror, hok⟩]
    decide
  · rw [if_neg fun hand => hok hand.2]
    simpa using hok

theorem trans2Pass_ends (req : Request) (st : TransState) :
    PassEnds trans2Format req.inn st (.returned (smbcliRequestDestroy req)) (trans2Pass req st) := by
  unfold trans2Pass
  have hends := transPass_ends trans2Format req.inn st
  generalize transPass trans2Format req.inn st = result at hends
  cases hends with
  | crashed h => exact .crashed h
  | refused hlog hpasses => exact .refused hlog hpasses
  | complete h hcomplete => exact .complete h hcomplete
  | going h hcomplete => exact .going h hcomplete

theorem trans2Resume_resumes (h : req.state = .done ∨ req.state = .error) (hover : phase ≠ .ended) :
    Resumes trans2Format req phase (trans2Pass req) (trans2Resume req phase) := by
  cases phase with
  | ended => exact absurd rfl hover
  | first =>
    rw [trans2Resume]
    by_cases hdone : req.state ≠ .done ∨ req.status.isErr = true
    · rw [if_pos hdone]
      exact .failed (smbcliRequestDestroy_not_ok h hdone)
    · rw [if_neg hdone]
      rw [not_or, not_not] at hdone
      cases hfirst : transFirst trans2Format req.inn with
      | going st => exact .looped hdone.1 (.inl ⟨rfl, hfirst⟩)
      | _ => exact .refused hdone.1 hfirst (by simp)
  | loop st =>
    rw [trans2Resume]
    by_cases hdone : req.state = .done
    · rw [if_neg (not_not.mpr hdone)]
      exact .looped hdone (.inr rfl)
    · rw [if_pos hdone]
      exact .failed (by decide)

theorem nttransCheck_cases (h : req.state = .done ∨ req.state = .error) (st : TransState) :
    (req.state = .done ∧ (nttransCheck req st = none ∨
      nttransCheck req st = some .crashed ∧ hasCommand req.inn 0xA0 = none)) ∨
    ∃ status, status.isOk = false ∧ nttransCheck req st = some (.returned status st) := by
  unfold nttransCheck
  by_cases hdone : req.state ≠ .done ∨ req.status.isErr = true
  · rw [if_pos hdone]
    exact .inr ⟨_, smbcliRequestDestroy_not_ok h hdone, rfl⟩
  · rw [if_neg hdone]
    rw [not_or, not_not] at hdone
    cases hcommand : hasCommand req.inn 0xA0 with
    | none => exact .inl ⟨hdone.1, .inr ⟨rfl, rfl⟩⟩
    | some isReply =>
      cases isReply with
      | true => exact .inl ⟨hdone.1, .inl rfl⟩
      | false => exact .inr ⟨_, by decide, rfl⟩

theorem nttransResume_resumes (fuel : Nat) (h : req.state = .done ∨ req.state = .error) :
    Resumes nttransFormat req .first (nttransLoop req fuel) (nttransResume fuel req) := by
  unfold nttransResume
  obtain ⟨hdone, hcheck | ⟨hcheck, hcommand⟩⟩ | ⟨status, hok, hcheck⟩ := nttransCheck_cases h {}
  · rw [hcheck]
    cases hfirst : transFirst nttransFormat req.inn with
    | going st => exact .looped hdone (.inl ⟨rfl, hfirst⟩)
    | _ => exact .refused hdone hfirst (by simp)
  · rw [hcheck]
    exact .crashed hdone hcommand
  · rw [hcheck]
    exact .failed hok

end OpenvasSmb.Smb

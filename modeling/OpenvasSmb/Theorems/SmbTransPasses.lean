import OpenvasSmb.Theorems.SmbTransBounds

/-!
# Passes of a transaction

The loop of `smb_raw_nttrans_recv` waits for the next packet with `smbcli_request_receive`. The
request is done since its first reply, so this returns at once, and the loop takes the same
reply again: until the lump was counted often enough, or for ever if it is empty.
`smb_raw_trans2_recv` makes the request pending before it waits, and takes each reply once.
-/

namespace OpenvasSmb.Smb

open Kit TransResult Nat

variable {inn : RequestBuffer} {st st' : TransState} {md5 : Bytes → Bytes} {me fuel : Nat}
  {w w' : Waiting} {event : NetEvent} {o : Option TransResult} {req : Request}

/-- The replies the loop went through. -/
def TransResult.passes : TransResult → List RequestBuffer
  | .crashed => []
  | .returned _ st | .complete st | .going st => st.passes

def OnePassEach (o : Option TransResult) (w : Waiting) : Prop :=
  ∀ result, o = some result → result.passes.length ≤ w.replies.length

def Whole (_ : Phase) (req : Request) : Prop :=
  (∀ lump ∈ nttransFormat.dataLump req.inn, lump.total ≤ lump.count) ∧
    ∀ lump ∈ nttransFormat.paramLump req.inn, lump.total ≤ lump.count

/-! ## Counting passes -/

theorem transFirst_starts (f : TransFormat) (inn : RequestBuffer) :
    (transFirst f inn).passes = [] ∧
      ∀ st, transFirst f inn = .going st → st.data.received = 0 ∧ st.params.received = 0 := by
  obtain ⟨heq, -⟩ | ⟨status, -, st, heq, hpasses, -⟩ | ⟨_, _, _, _, heq, -⟩ :=
    transFirst_cases f inn
  · exact heq ▸ ⟨rfl, by simp⟩
  · exact heq ▸ ⟨hpasses, by simp⟩
  · refine heq ▸ ⟨rfl, fun st hst => ?_⟩
    obtain rfl := going.inj hst
    exact ⟨rfl, rfl⟩

theorem Passed.passes {f : TransFormat} (h : Passed f inn st st') :
    st'.passes = st.passes ++ [inn] := by
  obtain ⟨-, -, -, -⟩ := h
  rfl

theorem PassEnds.passes {f : TransFormat} {finish : TransState → TransResult}
    {result : TransResult} (h : PassEnds f inn st finish result)
    (hfinish : ∀ st', (finish st').passes = st'.passes) :
    result.passes.length ≤ st.passes.length + 1 := by
  have hlength : ∀ {l}, l = st.passes ++ [inn] → l.length ≤ st.passes.length + 1 := by
    rintro l rfl
    rw [List.length_append]
    exact Nat.le_refl _
  cases h with
  | crashed => exact zero_le _
  | refused _ hpasses => exact hlength hpasses
  | complete h => exact hlength ((hfinish _).trans h.passes)
  | going h => exact hlength h.passes

/-- Both functions take a reply as often as their loops do. -/
theorem Resumes.passes {f : TransFormat} {phase : Phase} {loop : TransState → TransResult}
    {result : TransResult} {replies replies' : List Packet}
    (h : Resumes f req phase loop result) (hbrings : Brings replies req replies')
    (hphase : phase.state.passes.length ≤ replies.length)
    (hloop : ∀ st, req.state = .done → Begins f req.inn phase st →
      (loop st).passes.length ≤ st.passes.length + 1) : result.passes.length ≤ replies'.length := by
  cases h with
  | failed => exact Nat.le_trans hphase hbrings.grows
  | crashed => exact zero_le _
  | refused _ hfirst =>
    rw [← hfirst, (transFirst_starts f req.inn).1]
    exact zero_le _
  | @looped st hdone hbegins =>
    have hle : st.passes.length ≤ replies.length := by
      obtain ⟨-, hfirst⟩ | rfl := hbegins
      · have hpasses := (transFirst_starts f req.inn).1
        rw [hfirst] at hpasses
        rw [show st.passes = [] from hpasses]
        exact zero_le _
      · exact hphase
    obtain ⟨p, -, rfl⟩ := hbrings.done hdone
    rw [List.length_append]
    exact Nat.le_trans (hloop st hdone hbegins) (Nat.succ_le_succ hle)

/-! ## smb_raw_nttrans_recv -/

def TransResult.Ended (result : TransResult) : Prop := ∀ st, result ≠ .going st

theorem Area.Takes.complete {a a' : Area} {lump : Lump} (h : a.Takes inn lump a')
    (hempty : a.received = 0) (hlt : lump.count < 2 ^ 32) (hwhole : lump.total ≤ lump.count) :
    (a'.count nttransFormat lump).total ≤ (a'.count nttransFormat lump).received := by
  obtain ⟨-, htotal, hreceived⟩ := h.kept
  show a'.total ≤ (a'.received + lump.count) % 2 ^ 32
  rwa [htotal, hreceived, hempty, zero_add, mod_eq_of_lt hlt]

/-- The loop with a whole reply: there is nothing to wait for, or one pass completes it. -/
theorem nttransLoop_whole (fuel : Nat) (hwhole : Whole .first req)
    (hfirst : transFirst nttransFormat req.inn = .going st) :
    (st.isComplete = true ∧
      nttransLoop req (fuel + 1) st = .returned (smbcliRequestDestroy req) st) ∨
    (PassEnds nttransFormat req.inn st (.returned (smbcliRequestDestroy req))
      (nttransLoop req (fuel + 1) st) ∧ (nttransLoop req (fuel + 1) st).Ended) := by
  obtain ⟨hdata, hparams⟩ := (transFirst_starts nttransFormat req.inn).2 st hfirst
  rw [nttransLoop]
  by_cases hcomplete : st.isComplete = true
  · rw [if_pos hcomplete]
    exact .inl ⟨hcomplete, rfl⟩
  · rw [if_neg hcomplete]
    have hends := transPass_ends nttransFormat req.inn st
    generalize transPass nttransFormat req.inn st = result at hends
    cases hends with
    | crashed h => exact .inr ⟨.crashed h, by simp [Ended]⟩
    | refused hlog hpasses => exact .inr ⟨.refused hlog hpasses, by simp [Ended]⟩
    | complete h hcomplete => exact .inr ⟨.complete h hcomplete, by simp [Ended]⟩
    | going h hincomplete =>
      obtain ⟨hd, hp, htakes, htakes'⟩ := h
      rw [TransState.isComplete, Bool.and_eq_false_iff, decide_eq_false_iff_not,
        decide_eq_false_iff_not] at hincomplete
      obtain hnot | hnot := hincomplete
      · exact absurd (htakes.complete hdata (lump_numbers hd).2.1 (hwhole.1 _ hd)) hnot
      · exact absurd (htakes'.complete hparams (lump_numbers hp).2.1 (hwhole.2 _ hp)) hnot

theorem nttransResume_whole {replies replies' : List Packet} (fuel : Nat)
    (hbrings : Brings replies req replies') (hwhole : req.state = .done → Whole .first req) :
    (nttransResume (fuel + 1) req).passes.length ≤ replies'.length ∧
      (nttransResume (fuel + 1) req).Ended := by
  have hresumes := nttransResume_resumes (fuel + 1) hbrings.state
  constructor
  · refine hresumes.passes hbrings (zero_le _) fun st hdone hbegins => ?_
    obtain ⟨-, hfirst⟩ | hloop := hbegins
    · obtain ⟨-, heq⟩ | ⟨hends, -⟩ := nttransLoop_whole fuel (hwhole hdone) hfirst
      · rw [heq]
        exact le_succ _
      · exact hends.passes fun _ => rfl
    · simp at hloop
  · generalize nttransResume (fuel + 1) req = result at hresumes
    cases hresumes with
    | failed | crashed => simp [Ended]
    | refused _ _ hnot => exact hnot
    | @looped st hdone hbegins =>
      obtain ⟨-, hfirst⟩ | hloop := hbegins
      · obtain ⟨-, heq⟩ | ⟨-, hended⟩ := nttransLoop_whole fuel (hwhole hdone) hfirst
        · simp [heq, Ended]
        · exact hended
      · simp at hloop

/-! ## Runs -/

/-- **At most one pass for each packet** in every run of `smb_raw_trans2_recv`, and of
`smb_raw_nttrans_recv` if the reply is whole; the loop is then over. -/
theorem trans_passes_le_replies (md5 : Bytes → Bytes) (me fuel : Nat) (t : Transport)
    (events : List NetEvent) :
    (trans2 md5 me).EachStep (fun _ _ o w' => OnePassEach o w') { transport := t } events ∧
    ((nttrans md5 me (fuel + 1)).EachStep (fun w event _ _ => Replies md5 me Whole w event)
        { transport := t } events →
      (nttrans md5 me (fuel + 1)).EachStep
        (fun _ _ o w' => OnePassEach o w' ∧ ∀ result, o = some result → result.Ended)
        { transport := t } events) := by
  constructor
  · refine eachStep_wait (C := fun _ _ => True)
      (I := fun replies phase => phase.state.passes.length ≤ replies.length)
      (P := fun replies result => result.passes.length ≤ replies.length)
      (fun _ => zero_le _) ?_ events _ (zero_le _) ?_
    · intro phase req replies replies' h hover hbrings _
      have hpasses := (trans2Resume_resumes hbrings.state hover).passes hbrings h
        fun st _ _ => (trans2Pass_ends req st).passes fun _ => rfl
      exact ⟨hpasses, fun st hgoing => by rwa [hgoing] at hpasses⟩
    · exact Machine.EachStep.mono (fun _ _ _ _ _ _ _ _ _ _ => trivial) events _
        (Machine.eachStep_true _ _)
  · intro hreplies
    refine Machine.EachStep.mono
      (fun _ _ o w' h => ⟨fun result heq => (h result heq).1, fun result heq => (h result heq).2⟩)
      events _ (eachStep_wait (I := fun _ _ => True)
        (P := fun replies result => result.passes.length ≤ replies.length ∧ result.Ended)
        (fun _ => trivial) ?_ events _ trivial hreplies)
    exact fun _ _ hbrings hwhole =>
      ⟨nttransResume_whole fuel hbrings hwhole, fun _ _ => trivial⟩

instance (phase : Phase) (req : Request) : Decidable (Whole phase req) :=
  inferInstanceAs (Decidable (_ ∧ _))

/-- A reply in one packet. -/
theorem trans_passes_le_replies_one :
    (nttrans (fun _ => []) 0 5).EachStep
      (fun _ _ o w' => OnePassEach o w' ∧ ∀ result, o = some result → result.Ended)
      { transport := oneRequest } [nttransReply 2 0 [1, 2]] :=
  (trans_passes_le_replies _ _ 4 _ _).2 (.of_check _ _ (by decide))

/-! ## Empty lumps -/

/-- A lump without bytes of an area of which nothing has been received. -/
def Lump.Idle (lump : Lump) (a : Area) : Prop :=
  lump.count = 0 ∧ lump.total = a.total ∧ lump.disp % 2 ^ 32 ≤ a.total ∧ a.received = 0

instance (lump : Lump) (a : Area) : Decidable (lump.Idle a) :=
  inferInstanceAs (Decidable (_ ∧ _ ∧ _ ∧ _))

namespace Lump.Idle

variable {lump : Lump} {a : Area}

theorem takes (h : lump.Idle a) : a.Takes inn lump a where
  shrinks := Nat.le_of_eq h.2.1
  fits := by
    rw [h.1, zero_add, h.2.1]
    exact h.2.2.1
  inside := by rw [rawTransOob, if_pos h.1]
  copied := by rw [Area.copy, if_pos h.1, Area.announce, h.2.1]

theorem count (h : lump.Idle a) : a.count nttransFormat lump = a := by
  have hreceived : (a.received + lump.count) % nttransFormat.counter = a.received := by
    rw [h.1, h.2.2.2]
    rfl
  rw [Area.count, hreceived]

end Lump.Idle

/-- More is expected than the empty lumps of the reply. -/
def Stalled (req : Request) (st : TransState) : Prop :=
  (req.state = .done ∧ req.status.isErr = false ∧ hasCommand req.inn 0xA0 = some true) ∧
    st.isComplete = false ∧
    (∃ lump ∈ nttransFormat.dataLump req.inn, lump.Idle st.data) ∧
    ∃ lump ∈ nttransFormat.paramLump req.inn, lump.Idle st.params

instance (req : Request) (st : TransState) : Decidable (Stalled req st) :=
  inferInstanceAs (Decidable (_ ∧ _ ∧ _ ∧ _))

/-- A pass over empty lumps changes nothing but the log. -/
theorem transPass_stalled (h : Stalled req st) :
    ∃ log, transPass nttransFormat req.inn st =
      .going { st with log := log, passes := st.passes ++ [req.inn] } := by
  obtain ⟨-, hincomplete, ⟨data, hdata, hidle⟩, param, hparam, hidle'⟩ := h
  refine ⟨st.log ++ nttransFormat.lumpWords req.inn ++ lumpCopies req.inn st data param, ?_⟩
  rw [transPass_takes hdata hparam hidle.takes hidle'.takes]
  simp only [TransState.pass, hidle.count, hidle'.count]
  exact if_neg fun hcomplete => Bool.false_ne_true (hincomplete.symm.trans hcomplete)

/-- **A reply with empty lumps is taken for ever**: for any number of passes, the loop is not
over after them. -/
theorem nttransLoop_stalled :
    ∀ (fuel : Nat) (st : TransState), Stalled req st →
      ∃ st', nttransLoop req fuel st = .going st' ∧
        st'.passes.length = st.passes.length + fuel := by
  intro fuel
  induction fuel with
  | zero => exact fun st _ => ⟨st, rfl, rfl⟩
  | succ fuel ih =>
    intro st h
    obtain ⟨⟨hdone, hok, hcommand⟩, hincomplete, hlumps⟩ := id h
    obtain ⟨log, hpass⟩ := transPass_stalled h
    rw [nttransLoop, if_neg (by simp [hincomplete]), hpass]
    have hcheck : ∀ st, nttransCheck req st = none := by
      intro st
      rw [nttransCheck, if_neg (by simp [hdone, hok]), hcommand]
    simp only [hcheck]
    obtain ⟨st', heq, hlength⟩ := ih { st with log, passes := st.passes ++ [req.inn] }
      ⟨⟨hdone, hok, hcommand⟩, hincomplete, hlumps⟩
    refine ⟨st', heq, ?_⟩
    rw [hlength, List.length_append]
    exact Nat.add_right_comm _ _ _

/-- The state in which the loop begins. -/
def TransResult.going? : TransResult → Option TransState
  | .going st => some st
  | _ => none

/-- `smb_raw_nttrans_recv` with such a reply. -/
theorem nttrans_stalled {t : Transport} (hover : w.phase ≠ .ended)
    (hevent : eventLoopOnce md5 w event = some (.completed req, t)) (hme : req.id = me)
    (hfirst : ∃ st ∈ (transFirst nttransFormat req.inn).going?, st.passes = [] ∧ Stalled req st) :
    ∀ fuel, ∃ st, (nttrans md5 me fuel).step w event = some (some (.going st),
        { w.reply t event with transport := t.receiveMore req, phase := .loop st }) ∧
      st.passes.length = fuel := by
  intro fuel
  obtain ⟨st₀, hgoing, hpasses, hstalled⟩ := hfirst
  have hfirst : transFirst nttransFormat req.inn = .going st₀ := by
    cases hresult : transFirst nttransFormat req.inn with
    | going st =>
      rw [hresult] at hgoing
      exact congrArg _ (Option.some.inj hgoing)
    | _ => simp [hresult, going?] at hgoing
  obtain ⟨⟨hdone, hok, hcommand⟩, -⟩ := id hstalled
  obtain ⟨st, hloop, hlength⟩ := nttransLoop_stalled fuel st₀ hstalled
  have hresume : nttransResume fuel req = .going st := by
    have hcheck : nttransCheck req {} = none := by
      rw [nttransCheck, if_neg (by simp [hdone, hok]), hcommand]
    rw [nttransResume, hcheck]
    simp only [hfirst]
    exact hloop
  refine ⟨st, ?_, by simpa [hpasses] using hlength⟩
  show waitStep md5 me (fun req _ => nttransResume fuel req) w event = _
  simp only [waitStep, if_neg hover, hevent, Option.bind_eq_bind, Option.bind_some, if_pos hme,
    hresume]

/-- An event that completes a request, found by running it. -/
theorem exists_completed (md5 : Bytes → Bytes) (w : Waiting) (event : NetEvent)
    {P : Request → Prop} [∀ req, Decidable (P req)] (h : (match eventLoopOnce md5 w event with
      | some (.completed req, _) => decide (P req)
      | _ => false) = true) :
    ∃ req t, eventLoopOnce md5 w event = some (.completed req, t) ∧ P req := by
  split at h
  · rename_i req t hevent
    exact ⟨req, t, hevent, of_decide_eq_true h⟩
  · simp at h

/-- Half of the data counted twice is all of it. A reply that brings none of its two bytes is taken
for ever. -/
theorem nttrans_loops_without_receiving :
    ((nttrans (fun _ => []) 0 5).run { transport := oneRequest } [nttransReply 4 0 [1, 2]]).map
      (fun (o, w) => (o.bind (·.map (·.passes.length)), w.replies.length)) = some (some 2, 1) ∧
    ∀ fuel, ∃ st w, (nttrans (fun _ => []) 0 fuel).step { transport := oneRequest }
        (nttransReply 2 0 []) = some (some (.going st), w) ∧
      st.passes.length = fuel ∧ w.replies.length = 1 := by
  constructor
  · decide
  · intro fuel
    obtain ⟨req, t, hevent, hme, hfirst⟩ := exists_completed (fun _ => [])
      { transport := oneRequest } (nttransReply 2 0 [])
      (P := fun req => req.id = 0 ∧
        ∃ st ∈ (transFirst nttransFormat req.inn).going?, st.passes = [] ∧ Stalled req st)
      (by decide)
    obtain ⟨st, hstep, hlength⟩ := nttrans_stalled (by simp) hevent hme hfirst fuel
    exact ⟨st, _, hstep, hlength, rfl⟩

end OpenvasSmb.Smb

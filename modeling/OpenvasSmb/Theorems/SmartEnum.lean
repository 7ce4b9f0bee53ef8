import OpenvasSmb.Wbem.SmartEnum
import OpenvasSmb.Theorems.DcomInterfaces
import OpenvasSmb.Wbem.Data

/-!
# The interfaces that `SmartNext` sends its requests to

`Fetch` and `Next` are meant to be sent only to interfaces that the step before has returned, and
a call after a failed set-up is meant to set up again or to report an error. Three answers of the
server break this: a query that succeeds with an error for the interface, a reference that is
unmarshalled to NULL, and a `Fetch` that succeeds without an interface. And a call after a failed
set-up goes on with the record that was left, whose interface is NULL. Nothing else does
(`smart_next_requests_iff`).
-/

namespace OpenvasSmb.Wbem

open Kit Dcom Option

variable (R : Registry) {p : Option IUnknown} {ox : Option ObjectExporter} {reply : QueryReply}
  {ru : RemUnknown} {d : SmartEnumerator} {row : Werror × Stdobjref}

/-! ## The query for one interface -/

/-- The query is sent, and answered with an entry for the interface. -/
def Answered (ox : Option ObjectExporter) (reply : QueryReply) (ru : RemUnknown)
    (row : Werror × Stdobjref) : Prop :=
  (∃ ox' vtable, ox = some ox' ∧ ox'.remUnknown = some ru ∧ ru.vtable = some vtable) ∧
    reply.result.isOk = true ∧ ∃ rows, reply.rqir = some (row :: rows)

theorem query_answered (h : Answered ox reply ru row) (iid : Dcom.Guid) :
    dcomQueryInterface R ox [iid] reply =
      if row.1.isOk then
        some (R.werrorToNtstatus
            (if (dcomIUnknownFromObjref R (ru.objref R iid row.2)).1.isOk then reply.result
              else R.ntstatusToWerror (dcomIUnknownFromObjref R (ru.objref R iid row.2)).1),
          [(dcomIUnknownFromObjref R (ru.objref R iid row.2)).2])
      else some (R.werrorToNtstatus reply.result, [none]) := by
  obtain ⟨⟨ox', vtable, rfl, hru, hvtable⟩, hresult, rows, hrqir⟩ := h
  obtain ⟨hResult, std⟩ := row
  rw [dcomQueryInterface]
  simp only [bind_eq_bind, bind_some, hru, hvtable, hresult, hrqir, getD_some, queryInterfaces]
  by_cases hrow : hResult.isOk = true
  · simp [hrow]
  · simp [hrow]

theorem Answered.unique {ru' : RemUnknown} {row' : Werror × Stdobjref}
    (h : Answered ox reply ru row) (h' : Answered ox reply ru' row') : ru = ru' ∧ row = row' := by
  obtain ⟨⟨ox₁, vtable, hox, hru, -⟩, -, rows, hrqir⟩ := h
  obtain ⟨⟨ox₂, vtable', hox', hru', -⟩, -, rows', hrqir'⟩ := h'
  obtain rfl := some.inj (hox.symm.trans hox')
  exact ⟨some.inj (hru.symm.trans hru'),
    (List.cons.inj (some.inj (hrqir.symm.trans hrqir'))).1⟩

theorem answered_of_ok {iid : Dcom.Guid} {status : NtStatus} {ips : List (Option IUnknown)}
    (h : dcomQueryInterface R ox [iid] reply = some (status, ips)) (hok : status.isOk = true) :
    ∃ ru row, Answered ox reply ru row := by
  obtain ⟨ox', hox, h₁⟩ := bind_eq_some_iff.mp h
  obtain ⟨ru, hru, h₂⟩ := bind_eq_some_iff.mp h₁
  obtain ⟨vtable, hvtable, h₃⟩ := bind_eq_some_iff.mp h₂
  by_cases hresult : reply.result.isOk = true
  · rw [if_neg (by simp [hresult])] at h₃
    obtain ⟨loop, hloop, -⟩ := bind_eq_some_iff.mp h₃
    cases hrqir : reply.rqir with
    | none =>
      rw [hrqir] at hloop
      cases hloop
    | some rows =>
      cases rows with
      | nil =>
        rw [hrqir] at hloop
        cases hloop
      | cons row rows => exact ⟨ru, row, ⟨ox', vtable, hox, hru, hvtable⟩, hresult, rows, hrqir⟩
  · rw [if_pos (by simpa using hresult)] at h₃
    cases h₃
    exact absurd ((R.werror_isOk reply.result).symm.trans hok) hresult

/-- A query that is answered is a success, unless the interface cannot be unmarshalled. -/
theorem query_status {iid : Dcom.Guid} {status : NtStatus} {ips : List (Option IUnknown)}
    (hanswered : Answered ox reply ru row)
    (h : dcomQueryInterface R ox [iid] reply = some (status, ips)) :
    (status.isOk = true ↔
        (row.1.isOk = true → (dcomIUnknownFromObjref R (ru.objref R iid row.2)).1.isOk = true)) ∧
      ips = [if row.1.isOk then (dcomIUnknownFromObjref R (ru.objref R iid row.2)).2 else none] := by
  have hresult := hanswered.2.1
  rw [query_answered R hanswered] at h
  by_cases hrow : row.1.isOk = true
  · rw [if_pos hrow] at h
    cases h
    simp only [hrow, R.werror_isOk, if_true, true_imp_iff, and_true]
    split
    · next hun => simp [hresult, hun]
    · next hun => rw [R.ntstatus_isOk]
  · rw [if_neg hrow] at h
    cases h
    simp [hrow, R.werror_isOk, hresult]

/-! ## What is asked of a call -/

def QueryReturned (call : SmartEnumCall) (u : IUnknown) : Prop :=
  ∃ status, dcomQueryInterface R call.exporter [iidIWbemFetchSmartEnum] call.query =
    some (status, [some u]) ∧ status.isOk = true

/-- The set-up was begun, and no `Fetch` was a success. -/
def SetUpFailed (d : SmartEnumerator) : Prop := d.objectData.isSome = true ∧ d.fetched = none

/-- `Fetch` is sent to what the query returned, `Next` to what `Fetch` returned, and a call after a
failed set-up sets up again or reports an error. -/
def RequestsSound (d : SmartEnumerator) (call : SmartEnumCall) (out : SmartEnumResult)
    (d' : SmartEnumerator) : Prop :=
  (∀ p, .fetch p ∈ out.sent → ∃ u, p = some u ∧ QueryReturned R call u) ∧
  (∀ p, .next p ∈ out.sent → ∃ u, p = some u ∧ d'.fetched = some (some u)) ∧
  (SetUpFailed d → .queryInterface ∈ out.sent ∨ out.ends = .error)

/-- If the reference can be unmarshalled, it is not unmarshalled to NULL. -/
def NotNull (o : Objref) : Prop :=
  match o.objref with
  | .null => False
  | .standard _ => True
  | .handler _ _ => True
  | .custom clsid _ => ∀ unmarshal ∈ R.unmarshal clsid,
      (unmarshal o ⟨o, none⟩).1.isOk = true → (unmarshal o ⟨o, none⟩).2.isSome = true

theorem notNull_iff (o : Objref) : NotNull R o ↔
    ((dcomIUnknownFromObjref R o).1.isOk = true →
      (dcomIUnknownFromObjref R o).2.isSome = true) := by
  obtain ⟨iid, objref⟩ := o
  cases objref with
  | null | handler std clsid => simp [NotNull, dcomIUnknownFromObjref]
  | standard std =>
    cases hproxy : R.proxyVtableByIid iid <;>
      simp [NotNull, dcomIUnknownFromObjref, hproxy, isOk_notSupported]
  | custom clsid pData =>
    cases hunmarshal : R.unmarshal clsid <;>
      simp [NotNull, dcomIUnknownFromObjref, hunmarshal]

/-- A first call whose query, if answered, has no error for the interface and no NULL reference, and
whose `Fetch`, if a success, has an interface; or a call after a finished set-up. -/
def CallCovered (d : SmartEnumerator) (call : SmartEnumCall) : Prop :=
  match d.objectData with
  | none => ∀ ru row, Answered call.exporter call.query ru row →
      row.1.isOk = true ∧ NotNull R (ru.objref R iidIWbemFetchSmartEnum row.2) ∧
      ((ru.objref R iidIWbemFetchSmartEnum row.2).Proxied R → call.fetch.1.isOk = true →
        call.fetch.2.isSome = true)
  | some _ => d.fetched.isSome = true

/-! ## The steps -/

theorem nextLeg_sent (d : SmartEnumerator) (s : SmartEnumData) (call : SmartEnumCall)
    (sent : List SmartEnumRequest) :
    (nextLeg d s call sent).1.sent = sent ++ [.next s.pSE] ∧
      (nextLeg d s call sent).2.fetched = d.fetched ∧
      (nextLeg d s call sent).2.objectData = some s ∧
      (callable s.pSE = true → (nextLeg d s call sent).2.crashed = d.crashed) ∧
      (callable s.pSE = false → (nextLeg d s call sent).1.ends = .crashed ∧
        (nextLeg d s call sent).2.crashed = true) := by
  rw [nextLeg]
  by_cases hcall : callable s.pSE = true
  · simp [hcall]
  · simp [hcall]

theorem callable_iff : callable p = true ↔ Present p := by
  cases p with
  | none | some u => simp [callable, Present]

theorem callable_isSome (h : callable p = true) : p.isSome = true := by
  cases p with
  | none => cases h
  | some u => rfl

theorem fetchLeg_sound_iff (hnew : d.objectData = none) {call : SmartEnumCall}
    (hreturned : ∀ u, p = some u → QueryReturned R call u) :
    RequestsSound R d call (fetchLeg d ⟨p, none⟩ call).1 (fetchLeg d ⟨p, none⟩ call).2 ↔
      p.isSome = true ∧
        (callable p = true → call.fetch.1.isOk = true → call.fetch.2.isSome = true) := by
  have hset : ¬SetUpFailed d := by simp [SetUpFailed, hnew]
  rw [fetchLeg]
  by_cases hcall : callable p = true
  · obtain ⟨u, rfl⟩ := isSome_iff_exists.mp (callable_isSome hcall)
    have hfetch := hreturned u rfl
    rw [if_pos hcall]
    by_cases hok : call.fetch.1.isOk = true
    · rw [if_pos hok]
      obtain ⟨hsent, hfetched, -⟩ := nextLeg_sent { d with fetched := some call.fetch.2 }
        ⟨some u, call.fetch.2⟩ call [.queryInterface, .fetch (some u)]
      rw [RequestsSound, hsent, hfetched]
      cases hse : call.fetch.2 <;> simp [hfetch, hcall, hok, hset]
    · simp [RequestsSound, hfetch, hcall, hok, hset]
  · rw [if_neg hcall]
    cases p with
    | none => simp [RequestsSound]
    | some u => simp [RequestsSound, hreturned u rfl, hcall, hset]

theorem setUp_sound_iff (hnew : d.objectData = none) (call : SmartEnumCall) :
    RequestsSound R d call (setUpLegs R d call).1 (setUpLegs R d call).2 ↔
      CallCovered R d call := by
  have hset : ¬SetUpFailed d := by simp [SetUpFailed, hnew]
  rw [CallCovered, hnew]
  cases hquery : dcomQueryInterface R call.exporter [iidIWbemFetchSmartEnum] call.query with
  | none =>
    rw [setUpLegs, hquery]
    refine iff_of_true (by simp [RequestsSound, hset]) fun ru row hanswered => ?_
    rw [query_answered R hanswered] at hquery
    split at hquery <;> cases hquery
  | some reply =>
    obtain ⟨status, ips⟩ := reply
    by_cases hok : status.isOk = true
    · obtain ⟨ru, row, hanswered⟩ := answered_of_ok R hquery hok
      obtain ⟨hstatus, rfl⟩ := query_status R hanswered hquery
      have hunique : (∀ ru' row', Answered call.exporter call.query ru' row' →
          row'.1.isOk = true ∧ NotNull R (ru'.objref R iidIWbemFetchSmartEnum row'.2) ∧
          ((ru'.objref R iidIWbemFetchSmartEnum row'.2).Proxied R → call.fetch.1.isOk = true →
            call.fetch.2.isSome = true)) ↔
          row.1.isOk = true ∧ NotNull R (ru.objref R iidIWbemFetchSmartEnum row.2) ∧
          ((ru.objref R iidIWbemFetchSmartEnum row.2).Proxied R → call.fetch.1.isOk = true →
            call.fetch.2.isSome = true) := by
        refine ⟨fun h => h ru row hanswered, fun h ru' row' hanswered' => ?_⟩
        obtain ⟨rfl, rfl⟩ := hanswered.unique hanswered'
        exact h
      rw [hunique, setUpLegs, hquery]
      simp only [if_pos hok, List.getElem?_cons_zero, join_some]
      rw [fetchLeg_sound_iff R hnew fun u hu => ⟨status, by rw [hquery, hu], hok⟩]
      by_cases hrow : row.1.isOk = true
      · have hun := hstatus.mp hok hrow
        simp only [hrow, if_true, true_and, notNull_iff, hun, true_imp_iff, proxied_iff,
          callable_iff]
      · simp [hrow]
    · rw [setUpLegs, hquery]
      simp only [if_neg hok]
      refine iff_of_true (by simp [RequestsSound, hset]) fun ru row hanswered => ?_
      -- the interface was refused
      obtain ⟨hstatus, -⟩ := query_status R hanswered hquery
      rw [hstatus, Classical.not_imp] at hok
      refine ⟨hok.1, (notNull_iff R _).mpr fun h => absurd h (by simp [hok.2]), fun h => ?_⟩
      exact absurd ((proxied_iff R).mp h).1 (by simp [hok.2])

/-- What the record of an enumerator says: nothing was fetched before the first call, the set-up has
failed, or `Fetch` has returned the interface that is kept. -/
structure Kept (d : SmartEnumerator) : Prop where
  first : d.objectData = none → d.fetched = none
  later : d.crashed = false → ∀ s, d.objectData = some s →
    d.fetched = none ∧ s.pSE = none ∨ ∃ u, d.fetched = some (some u) ∧ s.pSE = some u

theorem kept_of_failed {pFSE : Option IUnknown} (hfetched : d.fetched = none)
    (hdata : d.objectData = some ⟨pFSE, none⟩) : Kept d := by
  refine ⟨fun _ => hfetched, fun _ s hs => ?_⟩
  rw [hdata] at hs
  cases hs
  exact .inl ⟨hfetched, rfl⟩

theorem setUp_kept (hfetched : d.fetched = none) (call : SmartEnumCall) :
    Kept (setUpLegs R d call).2 := by
  rw [setUpLegs]
  split
  · exact kept_of_failed hfetched rfl
  · split
    · rw [fetchLeg]
      split
      · split
        · -- the interface of Fetch is kept
          obtain ⟨-, hf, hdata, -, hcrash⟩ := nextLeg_sent { d with fetched := some call.fetch.2 }
            ⟨_, call.fetch.2⟩ call [.queryInterface, .fetch _]
          refine ⟨fun h => absurd (hdata.symm.trans h) (some_ne_none _), fun hcrashed s hs => ?_⟩
          rw [hdata] at hs
          cases hs
          rw [hf]
          cases hse : call.fetch.2 with
          | none =>
            have hended := (hcrash (by simp [callable, hse])).2
            rw [hcrashed] at hended
            cases hended
          | some u => exact .inr ⟨u, rfl, rfl⟩
        · exact kept_of_failed hfetched rfl
      · exact kept_of_failed hfetched rfl
    · exact kept_of_failed hfetched rfl

theorem next_kept {s : SmartEnumData} (hdata : d.objectData = some s)
    (hcrashed : d.crashed = false) (hkept : Kept d) (call : SmartEnumCall) :
    Kept (nextLeg d s call []).2 := by
  obtain ⟨-, hf, hdata', -, -⟩ := nextLeg_sent d s call []
  refine ⟨fun h => absurd (hdata'.symm.trans h) (some_ne_none _), fun _ s' hs => ?_⟩
  rw [hdata'] at hs
  cases hs
  rw [hf]
  exact hkept.later hcrashed s hdata

theorem next_sound_iff {s : SmartEnumData} (hdata : d.objectData = some s)
    (hcrashed : d.crashed = false) (hkept : Kept d) (call : SmartEnumCall) :
    RequestsSound R d call (nextLeg d s call []).1 (nextLeg d s call []).2 ↔
      CallCovered R d call := by
  obtain ⟨hsent, hfetched, -, -, -⟩ := nextLeg_sent d s call []
  rw [CallCovered, hdata, RequestsSound, hsent, hfetched]
  rcases hkept.later hcrashed s hdata with ⟨hnone, hse⟩ | ⟨u, hsome, hse⟩
  · -- the record of a failed set-up
    simp [hnone, hse]
  · simp [hsome, hse, SetUpFailed]

theorem smartEnumStep_cases {d' : SmartEnumerator} {call : SmartEnumCall} {out : SmartEnumResult}
    (h : (smartEnum R).step d call = some (out, d')) :
    d.crashed = false ∧
      ((d.objectData = none ∧ out = (setUpLegs R d call).1 ∧ d' = (setUpLegs R d call).2) ∨
        ∃ s, d.objectData = some s ∧ out = (nextLeg d s call []).1 ∧
          d' = (nextLeg d s call []).2) := by
  replace h : smartEnumStep R d call = some (out, d') := h
  rw [smartEnumStep] at h
  cases hcrashed : d.crashed with
  | true =>
    rw [hcrashed] at h
    cases h
  | false =>
    rw [hcrashed] at h
    refine ⟨rfl, ?_⟩
    cases hdata : d.objectData with
    | none =>
      rw [hdata] at h
      exact .inl ⟨rfl, by simp [some.inj h]⟩
    | some s =>
      rw [hdata] at h
      exact .inr ⟨s, rfl, by simp [some.inj h]⟩

/-- **The requests of `SmartNext`** are sent to interfaces that were returned, and a failed set-up
is made up for, exactly if every call is covered. -/
theorem smart_next_requests_iff (R : Registry) (calls : List SmartEnumCall) :
    (smartEnum R).EachStep (RequestsSound R) {} calls ↔
      (smartEnum R).EachStep (fun d call _ _ => CallCovered R d call) {} calls := by
  refine Machine.eachStep_congr (I := Kept) ?_ ?_ calls {} ?_
  · intro d call out d' hkept hstep _
    obtain ⟨hcrashed, ⟨hdata, -, rfl⟩ | ⟨s, hdata, -, rfl⟩⟩ := smartEnumStep_cases R hstep
    · exact setUp_kept R (hkept.first hdata) call
    · exact next_kept hdata hcrashed hkept call
  · intro d call out d' hkept hstep
    obtain ⟨hcrashed, ⟨hdata, rfl, rfl⟩ | ⟨s, hdata, rfl, rfl⟩⟩ := smartEnumStep_cases R hstep
    · exact setUp_sound_iff R hdata call
    · exact next_sound_iff R hdata hcrashed hkept call
  · exact ⟨fun _ => rfl, fun _ s hs => by cases hs⟩

/-! ## The calls of `Wbem.smartNext`

That model has the replies to `Next` and takes the set-up by its statuses. It takes the same steps
where the legs do not end the program. -/

variable (charset : Ndr.Charset) {e : Enumerator} {call : SmartEnumCall}

/-- The two models agree on what was set up. -/
def SameRecord (d : SmartEnumerator) (e : Enumerator) : Prop :=
  d.objectData.map (fun s => s.pSE.isSome) = e.objectData.map EnumData.hasSE

/-- The statuses of a call are those of its legs. -/
def SameAnswers (call : SmartEnumCall) (call' : SmartNextCall) : Prop :=
  (∀ status ips, dcomQueryInterface R call.exporter [iidIWbemFetchSmartEnum] call.query =
    some (status, ips) → call'.queryInterface = status) ∧ call'.fetch = call.fetch.1

/-- They have called `Next`, or both have not. -/
def SameStep (legs : SmartEnumResult × SmartEnumerator) (r : SmartNextResult × Enumerator) : Prop :=
  SameRecord legs.2 r.2 ∧ (r.1.requested.isSome = true ↔ ∃ p, .next p ∈ legs.1.sent)

theorem nextLeg_sameStep {s : SmartEnumData} {sent : List SmartEnumRequest} {t : EnumData}
    (hends : (nextLeg d s call sent).1.ends ≠ .crashed)
    (hhas : callable s.pSE = true → t.hasSE = true) (reply : NextReply) :
    t.hasSE = true ∧ SameStep (nextLeg d s call sent) (smartNextRecv charset e t reply) := by
  have hrecv : (smartNextRecv charset e t reply).1.requested = some (t.lTimeout, t.uCount) ∧
      (smartNextRecv charset e t reply).2.objectData.map EnumData.hasSE = some t.hasSE := by
    rw [smartNextRecv]
    split
    · split <;> exact ⟨rfl, rfl⟩
    · exact ⟨rfl, rfl⟩
  by_cases hse : callable s.pSE = true
  · have hset := hhas hse
    simp [SameStep, SameRecord, nextLeg, hse, hrecv, hset, callable_isSome hse]
  · simp [nextLeg, hse] at hends

/-- The legs of a call that does not end the program are a step of `Wbem.smartNext`. -/
theorem smartNext_simulates {d' : SmartEnumerator} {call' : SmartNextCall} {out : SmartEnumResult}
    (halive : e.crashed = false) (hsame : SameRecord d e) (hcall : SameAnswers R call call')
    (hstep : (smartEnum R).step d call = some (out, d')) (hends : out.ends ≠ .crashed) :
    ∃ r, smartNextStep charset e call' = some r ∧ SameStep (out, d') r := by
  obtain ⟨-, ⟨hdata, rfl, rfl⟩ | ⟨s, hdata, rfl, rfl⟩⟩ := smartEnumStep_cases R hstep
  · rw [SameRecord, hdata] at hsame
    have hnew : e.objectData = none := map_eq_none_iff.mp hsame.symm
    cases hquery : dcomQueryInterface R call.exporter [iidIWbemFetchSmartEnum] call.query with
    | none => simp [setUpLegs, hquery] at hends
    | some reply =>
      obtain ⟨status, ips⟩ := reply
      rw [setUpLegs, hquery] at hends ⊢
      rw [smartNextStep, hcall.1 _ _ hquery, hcall.2, halive, hnew]
      by_cases hok : status.isOk = true
      · by_cases hpfse : callable ips[0]?.join = true
        · by_cases hfetched : call.fetch.1.isOk = true
          · simp only [fetchLeg, hok, hpfse, hfetched, if_true] at hends ⊢
            exact ⟨_, rfl, (nextLeg_sameStep charset hends (fun _ => rfl) _).2⟩
          · simp [fetchLeg, hok, hpfse, hfetched, SameStep, SameRecord, SmartNextResult.nothing]
        · simp [fetchLeg, hok, hpfse] at hends
      · simp [hok, SameStep, SameRecord, SmartNextResult.nothing]
  · obtain ⟨t, ht, hhas⟩ : ∃ t, e.objectData = some t ∧ t.hasSE = s.pSE.isSome := by
      rw [SameRecord, hdata] at hsame
      exact map_eq_some_iff.mp hsame.symm
    obtain ⟨hset, hnext⟩ := nextLeg_sameStep charset (e := e) hends
      (fun h => hhas.trans (callable_isSome h)) call'.reply
    exact ⟨_, by simp [smartNextStep, halive, ht, hset], hnext⟩

/-! ## Samples -/

/-- A call whose query is answered with one entry. -/
def callAnswered (result hResult : Werror) : SmartEnumCall where
  exporter := some sampleExporter
  query := ⟨result, some [(hResult, ⟨7, 4⟩)]⟩
  fetch := (.ok, some ⟨⟨2, .standard ⟨7, 5⟩⟩, some 2⟩)
  next := true

def smartRegistry : Registry :=
  { sampleRegistry with proxies := [iidIRemUnknown, iidIWbemFetchSmartEnum, 2] }

/-- A call after a query that failed sends `Next` to NULL; an error for the interface makes `Fetch`
be sent to NULL. -/
theorem requests_to_null :
    ((smartEnum smartRegistry).run {} [callAnswered ⟨5⟩ .ok, callAnswered .ok .ok]).map
        (fun r => r.1) = some (some ⟨[.next none], .crashed⟩) ∧
      ((smartEnum smartRegistry).run {} [callAnswered .ok ⟨0x80004002⟩]).map
        (fun r => r.1) = some (some ⟨[.queryInterface, .fetch none], .crashed⟩) := by
  decide

end OpenvasSmb.Wbem

import OpenvasSmb.Dcom.Interfaces

/-!
# Interfaces are there when an operation succeeds

An activation or a query for interfaces is meant to end with an error, or with every interface
that was asked for, each with a proxy vtable, and without following a pointer that the server left
out. `interfaces_present_iff` says which replies are handled that way:

* an activation needs its bindings, a reference for each interface that has no error, and a
  template for `rem_unknown` unless the exporter has the right one; a reference of kind NULL, or a
  custom one that is unmarshalled without a vtable, is returned as a success;
* a query needs the `rem_unknown` of its exporter and the array of results; an interface with an
  error of its own is NULL in a success.
-/

namespace OpenvasSmb.Dcom

open Option Objref

variable (R : Registry) {r : ActivationReply} {ip : List (Option IUnknown)}
  {exporters : List ObjectExporter} {o : Objref} {template : Option IUnknown} {ru : RemUnknown}
  {coresult result : Werror}

/-! ## References -/

variable (ox : Option ObjectExporter) (iids : List Guid)

/-- The interface pointer is there, with a vtable. -/
def Present (p : Option IUnknown) : Prop := ∃ u, p = some u ∧ u.vtable.isSome = true

/-- Unmarshalling the reference reports an error: there is no proxy, or no way to unmarshal it. -/
def Objref.Refused (o : Objref) : Prop :=
  match o.objref with
  | .null => False
  | .standard _ => R.proxyVtableByIid o.iid = none
  | .handler _ _ => True
  | .custom clsid _ => ∀ unmarshal ∈ R.unmarshal clsid, (unmarshal o ⟨o, none⟩).1.isOk = false

/-- The reference is unmarshalled to an interface with a vtable. -/
def Objref.Proxied (o : Objref) : Prop :=
  match o.objref with
  | .null => False
  | .standard _ => (R.proxyVtableByIid o.iid).isSome = true
  | .handler _ _ => False
  | .custom clsid _ => ∃ unmarshal ∈ R.unmarshal clsid,
      (unmarshal o ⟨o, none⟩).1.isOk = true ∧ Present (unmarshal o ⟨o, none⟩).2

theorem isOk_notSupported : NtStatus.notSupported.isOk = false := by decide

theorem fromObjref_cases (o : Objref) :
    (o.Refused R ↔ (dcomIUnknownFromObjref R o).1.isOk = false) ∧
      (o.Proxied R ↔ (dcomIUnknownFromObjref R o).1.isOk = true ∧
        Present (dcomIUnknownFromObjref R o).2) := by
  obtain ⟨iid, objref⟩ := o
  cases objref with
  | null => simp [Refused, Proxied, dcomIUnknownFromObjref, Present]
  | standard std =>
    cases hproxy : R.proxyVtableByIid iid <;>
      simp [Refused, Proxied, dcomIUnknownFromObjref, Present, hproxy,
        isOk_notSupported]
  | handler std clsid =>
    simp [Refused, Proxied, dcomIUnknownFromObjref, isOk_notSupported]
  | custom clsid pData =>
    cases hunmarshal : R.unmarshal clsid <;>
      simp [Refused, Proxied, dcomIUnknownFromObjref, hunmarshal, isOk_notSupported]

theorem refused_iff :
    o.Refused R ↔ (dcomIUnknownFromObjref R o).1.isOk = false := (fromObjref_cases R o).1

theorem proxied_iff :
    o.Proxied R ↔ (dcomIUnknownFromObjref R o).1.isOk = true ∧
      Present (dcomIUnknownFromObjref R o).2 := (fromObjref_cases R o).2

/-! ## Activation -/

/-- The exporter has the `rem_unknown` of the reply. -/
def HasRemUnknown (exporters : List ObjectExporter) (r : ActivationReply) : Prop :=
  ∃ ox ru, objectExporterByOxid exporters r.oxid = some ox ∧ ox.remUnknown = some ru ∧
    ru.ipid = r.ipidRemUnknown

/-- An activation reports an error, or yields every interface with its vtable and sets
`rem_unknown`. -/
def ActivationSound (r : ActivationReply) (outcome : Option Activated) : Prop :=
  ∃ a, outcome = some a ∧ (a.status.isOk = true →
    a.interfaces.length = r.ifaces.length ∧ (∀ p ∈ a.interfaces, Present p) ∧
      HasRemUnknown a.exporters r)

theorem not_activationSound_none : ¬ActivationSound r none := by
  rintro ⟨a, ha, -⟩
  cases ha

/-- The replies for which it does. -/
def ActivationCovered (exporters : List ObjectExporter) (r : ActivationReply) : Prop :=
  r.status.isOk = true → r.hr.isOk = true →
    r.hasBindings = true ∧ r.ifaces.length ≤ 1 ∧
    (∀ x ∈ r.ifaces, x.2.isOk = true → ∃ o, x.1 = some o ∧ (o.Refused R ∨ o.Proxied R)) ∧
    ((∃ x ∈ r.ifaces, x.2.isOk = true ∧ ∃ o, x.1 = some o ∧ o.Proxied R) ∨
      HasRemUnknown exporters r)

theorem keptRemUnknown_eq_some
    (h : keptRemUnknown (objectExporterByOxid exporters r.oxid) r.ipidRemUnknown = some ru) :
    HasRemUnknown exporters r ∧ ru.ipid = r.ipidRemUnknown := by
  obtain ⟨hru, hipid⟩ := filter_eq_some_iff.mp h
  obtain ⟨ox, hox, hru⟩ := bind_eq_some_iff.mp hru
  exact ⟨⟨ox, ru, hox, hru, eq_of_beq hipid⟩, eq_of_beq hipid⟩

theorem keptRemUnknown_eq_none
    (h : keptRemUnknown (objectExporterByOxid exporters r.oxid) r.ipidRemUnknown = none) :
    ¬HasRemUnknown exporters r := by
  rintro ⟨ox, ru, hox, hru, hipid⟩
  simp [keptRemUnknown, hox, hru, hipid] at h

theorem find_replaceRemUnknown {oxid : UInt64} :
    ∀ {exporters : List ObjectExporter} {ox : ObjectExporter},
      objectExporterByOxid exporters oxid = some ox →
      objectExporterByOxid (replaceRemUnknown oxid ru exporters) oxid =
        some { ox with remUnknown := some ru } := by
  intro exporters
  induction exporters with
  | nil =>
    intro ox h
    cases h
  | cons ox' exporters ih =>
    intro ox h
    rw [objectExporterByOxid, List.find?_cons] at h
    rw [replaceRemUnknown]
    by_cases hoxid : ox'.oxid = oxid
    · rw [if_pos hoxid, objectExporterByOxid, List.find?_cons]
      simp only [hoxid, beq_self_eq_true, some.injEq] at h ⊢
      subst h
      rw [hoxid]
    · rw [if_neg hoxid, objectExporterByOxid, List.find?_cons]
      have hne : (ox'.oxid == oxid) = false := beq_false_of_ne hoxid
      simp only [hne] at h ⊢
      exact ih h

theorem hasRemUnknown_set (hipid : ru.ipid = r.ipidRemUnknown) :
    HasRemUnknown (setRemUnknown r.oxid ru exporters) r := by
  rw [setRemUnknown]
  cases hox : objectExporterByOxid exporters r.oxid with
  | none => exact ⟨⟨r.oxid, some ru⟩, ru, by simp [objectExporterByOxid], rfl, hipid⟩
  | some ox => exact ⟨_, ru, find_replaceRemUnknown hox, rfl, hipid⟩

/-- The server has answered, and reports no error for the activation as a whole. -/
def ActivationReply.Answered (r : ActivationReply) : Prop :=
  r.status.isOk = true ∧ r.hr.isOk = true

theorem dcomActivate_unanswered (h : ¬r.Answered) :
    ∃ status, status.isOk = false ∧ dcomActivate R exporters r = some ⟨status, [], exporters⟩ := by
  cases hstatus : r.status.isOk with
  | false => exact ⟨r.status, hstatus, by rw [dcomActivate, if_pos hstatus]⟩
  | true =>
    have hhr : r.hr.isOk = false := by simpa [ActivationReply.Answered, hstatus] using h
    exact ⟨R.werrorToNtstatus r.hr, (R.werror_isOk r.hr).trans hhr,
      by rw [dcomActivate, if_neg (by simp [hstatus]), if_pos hhr]⟩

theorem dcomActivate_fault (h : r.Answered) (hloop : activationInterfaces R r.ifaces = none) :
    dcomActivate R exporters r = none := by
  rw [dcomActivate, if_neg (by simp [h.1]), if_neg (by simp [h.2]), hloop]
  rfl

theorem dcomActivate_answered (h : r.Answered)
    (hloop : activationInterfaces R r.ifaces = some (ip, coresult, template)) :
    (∃ ru, ru.ipid = r.ipidRemUnknown ∧ r.hasBindings = true ∧
        (template.isSome = true ∨ HasRemUnknown exporters r) ∧
        dcomActivate R exporters r =
          some ⟨R.werrorToNtstatus coresult, ip, setRemUnknown r.oxid ru exporters⟩) ∨
      (¬(r.hasBindings = true ∧ (template.isSome = true ∨ HasRemUnknown exporters r)) ∧
        dcomActivate R exporters r = none) := by
  rw [dcomActivate, if_neg (by simp [h.1]), if_neg (by simp [h.2]), hloop]
  cases hkept : keptRemUnknown (objectExporterByOxid exporters r.oxid) r.ipidRemUnknown with
  | some ru =>
    obtain ⟨hhas, hipid⟩ := keptRemUnknown_eq_some hkept
    cases hbindings : r.hasBindings with
    | false => exact .inr ⟨fun h => absurd h.1 (by simp), by simp⟩
    | true => exact .inl ⟨ru, hipid, rfl, .inr hhas, by simp⟩
  | none =>
    have hnone := keptRemUnknown_eq_none hkept
    cases template with
    | none => exact .inr ⟨fun h => by simp [hnone] at h, by simp [newRemUnknown]⟩
    | some t =>
      cases hbindings : r.hasBindings with
      | false => exact .inr ⟨fun h => absurd h.1 (by simp), by simp [newRemUnknown]⟩
      | true =>
        exact .inl ⟨⟨t, r.ipidRemUnknown, R.proxyVtableByIid iidIRemUnknown⟩, rfl, rfl,
          .inl rfl, by simp [newRemUnknown]⟩

theorem activationSound_answered (h : r.Answered)
    (hloop : activationInterfaces R r.ifaces = some (ip, coresult, template)) :
    ActivationSound r (dcomActivate R exporters r) ↔
      r.hasBindings = true ∧ (template.isSome = true ∨ HasRemUnknown exporters r) ∧
        (coresult.isOk = true → ip.length = r.ifaces.length ∧ ∀ p ∈ ip, Present p) := by
  rcases dcomActivate_answered R h hloop with
    ⟨ru, hipid, hbindings, htemplate, heq⟩ | ⟨hnot, heq⟩
  · rw [heq, and_iff_right hbindings, and_iff_right htemplate]
    constructor
    · rintro ⟨a, ha, hsound⟩ hok
      obtain rfl := some.inj ha
      obtain ⟨hlength, hpresent, -⟩ := hsound ((R.werror_isOk coresult).trans hok)
      exact ⟨hlength, hpresent⟩
    · intro hsound
      refine ⟨_, rfl, fun hok => ?_⟩
      obtain ⟨hlength, hpresent⟩ := hsound ((R.werror_isOk coresult).symm.trans hok)
      exact ⟨hlength, hpresent, hasRemUnknown_set hipid⟩
  · rw [heq]
    exact iff_of_false not_activationSound_none fun h => hnot ⟨h.1, h.2.1⟩

theorem activationInterfaces_ok (hresult : result.isOk = true)
    (ho : (dcomIUnknownFromObjref R o).1.isOk = true) :
    activationInterfaces R [(some o, result)] =
      some ([(dcomIUnknownFromObjref R o).2], result, (dcomIUnknownFromObjref R o).2) := by
  simp [activationInterfaces, hresult, ho]

theorem activationInterfaces_refused (hresult : result.isOk = true)
    (ho : (dcomIUnknownFromObjref R o).1.isOk = false) :
    activationInterfaces R [(some o, result)] =
      some ([(dcomIUnknownFromObjref R o).2],
        R.ntstatusToWerror (dcomIUnknownFromObjref R o).1, none) := by
  simp [activationInterfaces, hresult, ho]

theorem not_activationSound (h : r.Answered) (hloop : activationInterfaces R r.ifaces = none) :
    ¬ActivationSound r (dcomActivate R exporters r) := by
  rw [dcomActivate_fault R h hloop]
  exact not_activationSound_none

theorem activationSound_one (h : r.Answered)
    {iface : Option Objref} (hifaces : r.ifaces = [(iface, result)]) :
    ActivationSound r (dcomActivate R exporters r) ↔
      r.hasBindings = true ∧
        (result.isOk = true → ∃ o, iface = some o ∧ (o.Refused R ∨ o.Proxied R)) ∧
        ((result.isOk = true ∧ ∃ o, iface = some o ∧ o.Proxied R) ∨ HasRemUnknown exporters r) := by
  by_cases hresult : result.isOk = true
  · cases iface with
    | none =>
      refine iff_of_false (not_activationSound R h ?_) fun h => ?_
      · rw [hifaces]
        simp [activationInterfaces, hresult]
      · obtain ⟨o, ho, -⟩ := h.2.1 hresult
        cases ho
    | some o =>
      cases ho : (dcomIUnknownFromObjref R o).1.isOk with
      | true =>
        -- unmarshalled: whether there is a pointer and a vtable is the question
        have hrefused : ¬o.Refused R := by simp [refused_iff, ho]
        have hloop := activationInterfaces_ok R hresult ho
        rw [← hifaces] at hloop
        rw [activationSound_answered R h hloop]
        have hproxied : o.Proxied R ↔ Present (dcomIUnknownFromObjref R o).2 := by
          simp [proxied_iff, ho]
        have hsome : o.Proxied R → (dcomIUnknownFromObjref R o).2.isSome = true := by
          rw [hproxied]
          rintro ⟨u, hu, -⟩
          rw [hu]
          rfl
        simp only [hifaces, hresult, hrefused, ← hproxied, List.length_singleton,
          List.mem_singleton, forall_eq, some.injEq, exists_eq_left', false_or, true_and,
          true_imp_iff]
        tauto
      | false =>
        -- an error that is reported, if rem_unknown is there
        have hrefused : o.Refused R := (refused_iff R).mpr ho
        have hproxied : ¬o.Proxied R := by simp [proxied_iff, ho]
        have hloop := activationInterfaces_refused R hresult ho
        rw [← hifaces] at hloop
        rw [activationSound_answered R h hloop]
        simp [hrefused, hproxied, hresult, R.ntstatus_isOk, ho]
  · have hloop : activationInterfaces R r.ifaces = some ([none], result, none) := by
      rw [hifaces]
      simp [activationInterfaces, hresult]
    rw [activationSound_answered R h hloop]
    simp [hresult]

/-- **Activations** end as they should exactly for the replies that are covered. -/
theorem activationSound_iff (exporters : List ObjectExporter) (r : ActivationReply) :
    ActivationSound r (dcomActivate R exporters r) ↔ ActivationCovered R exporters r := by
  by_cases h : r.Answered
  · rw [ActivationCovered]
    simp only [h.1, h.2, true_imp_iff]
    rcases hifaces : r.ifaces with _ | ⟨⟨iface, result⟩, _ | ⟨y, rest⟩⟩
    · -- nothing was asked for: no template
      have hloop : activationInterfaces R r.ifaces = some ([], .ok, none) := by
        rw [hifaces]
        rfl
      rw [activationSound_answered R h hloop]
      simp [hifaces]
    · rw [activationSound_one R h hifaces]
      simp
    · -- the results do not fit
      refine iff_of_false (not_activationSound R h (by rw [hifaces]; rfl)) fun h => ?_
      simp at h
  · obtain ⟨status, hfailed, heq⟩ := dcomActivate_unanswered R h
    rw [heq]
    exact iff_of_true ⟨_, rfl, fun hok => absurd hok (by simp [hfailed])⟩
      fun hstatus hhr => absurd ⟨hstatus, hhr⟩ h

/-! ## The login after an activation -/

/-- NTLMLogin is called on an interface that is there, or an error is reported. -/
def LoginSound (outcome : Option (Except NtStatus IUnknown)) : Prop :=
  ∃ e, outcome = some e ∧ ∀ login, e = .ok login → login.vtable.isSome = true

theorem activationInterfaces_length {ifaces : List (Option Objref × Werror)}
    (h : activationInterfaces R ifaces = some (ip, coresult, template)) :
    ip.length = ifaces.length := by
  unfold activationInterfaces at h
  split at h
  · cases h
    rfl
  · split_ifs at h
    · split at h
      · cases h
      · split_ifs at h <;> cases h <;> rfl
    · cases h
      rfl
  · cases h

theorem dcomActivate_cases {a : Activated} (h : dcomActivate R exporters r = some a) :
    (¬r.Answered ∧ a.status.isOk = false ∧ a.exporters = exporters) ∨
      (r.Answered ∧ a.interfaces.length = r.ifaces.length ∧
        ∃ ru, ru.ipid = r.ipidRemUnknown ∧ a.exporters = setRemUnknown r.oxid ru exporters) := by
  by_cases hr : r.Answered
  · cases hloop : activationInterfaces R r.ifaces with
    | none =>
      rw [dcomActivate_fault R hr hloop] at h
      cases h
    | some loop =>
      rcases dcomActivate_answered R hr hloop with ⟨ru, hipid, -, -, heq⟩ | ⟨-, heq⟩ <;>
        rw [heq] at h <;> cases h
      exact .inr ⟨hr, activationInterfaces_length R hloop, ru, hipid, rfl⟩
  · obtain ⟨status, hfailed, heq⟩ := dcomActivate_unanswered R hr
    rw [heq] at h
    cases h
    exact .inl ⟨hr, hfailed, rfl⟩

/-- The login is sound where the activation of its one interface is. -/
theorem loginSound_iff (hone : r.ifaces.length = 1) :
    LoginSound (wbemConnectServerContinue R exporters r) ↔
      ActivationSound r (dcomActivate R exporters r) := by
  rw [wbemConnectServerContinue]
  cases hactivate : dcomActivate R exporters r with
  | none =>
    refine iff_of_false ?_ not_activationSound_none
    rintro ⟨e, he, -⟩
    cases he
  | some a =>
    simp only [bind_eq_bind, bind_some]
    by_cases hok : a.status.isOk = true
    · obtain ⟨hlength, hru⟩ : a.interfaces.length = r.ifaces.length ∧
          HasRemUnknown a.exporters r := by
        rcases dcomActivate_cases R hactivate with ⟨-, hfailed, -⟩ | ⟨-, hlength, ru, hipid, heq⟩
        · simp [hfailed] at hok
        · exact ⟨hlength, heq ▸ hasRemUnknown_set hipid⟩
      obtain ⟨p, hp⟩ := List.length_eq_one_iff.mp (hlength.trans hone)
      rw [if_neg (by simp [hok]), hp]
      have hsound : ActivationSound r (some a) ↔ Present p := by
        constructor
        · rintro ⟨a', ha', h⟩
          obtain rfl := some.inj ha'
          exact (h hok).2.1 p (by simp [hp])
        · intro hpresent
          exact ⟨a, rfl, fun _ => ⟨hlength, by simpa [hp] using hpresent, hru⟩⟩
      rw [hsound]
      constructor
      · rintro ⟨e, he, -⟩
        obtain ⟨login, hlogin, he⟩ := bind_eq_some_iff.mp he
        obtain ⟨vtable, hvtable, -⟩ := bind_eq_some_iff.mp he
        exact ⟨login, by simpa using hlogin, by rw [hvtable]; rfl⟩
      · rintro ⟨login, rfl, hvtable⟩
        obtain ⟨vtable, hv⟩ := isSome_iff_exists.mp hvtable
        refine ⟨.ok login, by simp [hv], ?_⟩
        rintro login' hlogin
        cases hlogin
        exact hvtable
    · rw [if_pos (by simpa using hok)]
      refine iff_of_true ⟨.error a.status, rfl, fun login h => by cases h⟩ ?_
      exact ⟨a, rfl, fun h => absurd h hok⟩

/-! ## Queries -/

/-- A query reports an error, or yields every interface with its vtable. -/
def QuerySound (outcome : Option (NtStatus × List (Option IUnknown))) : Prop :=
  ∃ status ips, outcome = some (status, ips) ∧ (status.isOk = true →
    ips.length = iids.length ∧ ∀ p ∈ ips, Present p)

variable (reply : QueryReply)

/-- The entries of a reply, each with the interface that was asked for. -/
def QueryReply.rows : List (Guid × Werror × Stdobjref) :=
  iids.zip (reply.rqir.getD [])

/-- The queries and replies for which it does. -/
def QueryCovered : Prop :=
  ∃ ox' ru vtable, ox = some ox' ∧ ox'.remUnknown = some ru ∧ ru.vtable = some vtable ∧
    (reply.result.isOk = true →
      iids.length ≤ (reply.rqir.getD []).length ∧
      ((∃ x ∈ reply.rows iids, x.2.1.isOk = true ∧ (ru.objref R x.1 x.2.2).Refused R) ∨
        ∀ x ∈ reply.rows iids, x.2.1.isOk = true ∧ (ru.objref R x.1 x.2.2).Proxied R))

/-- The loop over the results: a success if nothing was refused, with everything there if every
result was a success and was unmarshalled to an interface. -/
theorem queryInterfaces_spec (ru : RemUnknown) : ∀ (iids : List Guid)
    (rqir : List (Werror × Stdobjref)) (result : Werror), iids.length ≤ rqir.length →
    ∃ result' ips, queryInterfaces R ru iids rqir result = some (result', ips) ∧
      ips.length = iids.length ∧
      (result'.isOk = true ↔ result.isOk = true ∧
        ∀ x ∈ iids.zip rqir, x.2.1.isOk = true → ¬(ru.objref R x.1 x.2.2).Refused R) ∧
      ((∀ p ∈ ips, Present p) ↔ ∀ x ∈ iids.zip rqir, x.2.1.isOk = true ∧
        Present (dcomIUnknownFromObjref R (ru.objref R x.1 x.2.2)).2) := by
  intro iids
  induction iids with
  | nil =>
    intro rqir result _
    exact ⟨result, [], rfl, rfl, by simp, by simp⟩
  | cons iid iids ih =>
    intro rqir result hlength
    cases rqir with
    | nil => simp at hlength
    | cons row rqir =>
      obtain ⟨hResult, std⟩ := row
      have hlength' : iids.length ≤ rqir.length := by simpa using hlength
      rw [queryInterfaces]
      cases hrow : hResult.isOk with
      | false =>
        obtain ⟨result', ips, hloop, hips, hok, hpresent⟩ := ih rqir result hlength'
        refine ⟨result', none :: ips, by simp [hloop], by simp [hips], ?_, ?_⟩
        · simp [hok, hrow]
        · simp [Present, hrow]
      | true =>
        -- once something is refused, the result is an error from there on
        obtain ⟨result', ips, hloop, hips, hok, hpresent⟩ := ih rqir
          (if (dcomIUnknownFromObjref R (ru.objref R iid std)).1.isOk then result
            else R.ntstatusToWerror (dcomIUnknownFromObjref R (ru.objref R iid std)).1) hlength'
        refine ⟨result', (dcomIUnknownFromObjref R (ru.objref R iid std)).2 :: ips, ?_,
          by simp [hips], ?_, by simp [hpresent, hrow]⟩
        all_goals cases hun : (dcomIUnknownFromObjref R (ru.objref R iid std)).1.isOk
        all_goals simp_all [refused_iff, R.ntstatus_isOk]

/-- A loop that runs out of results follows a pointer outside the array. -/
theorem queryInterfaces_short (ru : RemUnknown) : ∀ (iids : List Guid)
    (rqir : List (Werror × Stdobjref)) (result : Werror), rqir.length < iids.length →
    queryInterfaces R ru iids rqir result = none := by
  intro iids
  induction iids with
  | nil =>
    intro rqir result h
    simp at h
  | cons iid iids ih =>
    intro rqir result h
    cases rqir with
    | nil => rfl
    | cons row rqir =>
      have hshort : rqir.length < iids.length := by simpa using h
      rw [queryInterfaces]
      split <;> simp [ih rqir _ hshort]

theorem querySound_answered {ox : ObjectExporter} {vtable : Guid} (hru : ox.remUnknown = some ru)
    (hvtable : ru.vtable = some vtable) (iids : List Guid) {reply : QueryReply}
    (hresult : reply.result.isOk = true) :
    QuerySound iids (dcomQueryInterface R (some ox) iids reply) ↔
      iids.length ≤ (reply.rqir.getD []).length ∧
      ((∃ x ∈ reply.rows iids, x.2.1.isOk = true ∧ (ru.objref R x.1 x.2.2).Refused R) ∨
        ∀ x ∈ reply.rows iids, x.2.1.isOk = true ∧ (ru.objref R x.1 x.2.2).Proxied R) := by
  have heq : dcomQueryInterface R (some ox) iids reply =
      (queryInterfaces R ru iids (reply.rqir.getD []) reply.result).map
        fun r => (R.werrorToNtstatus r.1, r.2) := by
    rw [dcomQueryInterface]
    simp only [bind_eq_bind, bind_some, hru, hvtable, hresult]
    cases queryInterfaces R ru iids (reply.rqir.getD []) reply.result <;> rfl
  rw [heq]
  by_cases hlength : iids.length ≤ (reply.rqir.getD []).length
  · obtain ⟨result', ips, hloop, hips, hok, hpresent⟩ :=
      queryInterfaces_spec R ru iids (reply.rqir.getD []) reply.result hlength
    rw [hloop, and_iff_right hlength]
    have hsound : QuerySound iids ((some (result', ips)).map
        fun r => (R.werrorToNtstatus r.1, r.2)) ↔
        (result'.isOk = true → ∀ p ∈ ips, Present p) := by
      constructor
      · rintro ⟨status, ips', houtcome, h⟩ hok'
        cases houtcome
        exact (h ((R.werror_isOk result').trans hok')).2
      · intro h
        exact ⟨_, _, rfl, fun hok' => ⟨hips, h ((R.werror_isOk result').symm.trans hok')⟩⟩
    rw [hsound, hok, hpresent, and_iff_right hresult]
    show _ ↔ (∃ x ∈ iids.zip _, _) ∨ ∀ x ∈ iids.zip _, _
    by_cases hrefused : ∃ x ∈ iids.zip (reply.rqir.getD []),
        x.2.1.isOk = true ∧ (ru.objref R x.1 x.2.2).Refused R
    · refine iff_of_true (fun h => ?_) (.inl hrefused)
      obtain ⟨x, hx, hrow, href⟩ := hrefused
      exact absurd href (h x hx hrow)
    · -- nothing is refused: what is there was unmarshalled
      have hnone : ∀ x ∈ iids.zip (reply.rqir.getD []), x.2.1.isOk = true →
          ¬(ru.objref R x.1 x.2.2).Refused R :=
        fun x hx hrow href => hrefused ⟨x, hx, hrow, href⟩
      rw [or_iff_right hrefused]
      refine ⟨fun h x hx => ?_, fun h _ x hx => ?_⟩
      · obtain ⟨hrow, hthere⟩ := h hnone x hx
        have hun := hnone x hx hrow
        rw [refused_iff, Bool.not_eq_false] at hun
        exact ⟨hrow, (proxied_iff R).mpr ⟨hun, hthere⟩⟩
      · exact ⟨(h x hx).1, ((proxied_iff R).mp (h x hx).2).2⟩
  · rw [queryInterfaces_short R ru iids _ _ (Nat.lt_of_not_le hlength)]
    refine iff_of_false ?_ fun h => hlength h.1
    rintro ⟨status, ips, h, -⟩
    cases h

/-- **Queries** end as they should exactly for the exporters and replies that are covered. -/
theorem querySound_iff :
    QuerySound iids (dcomQueryInterface R ox iids reply) ↔ QueryCovered R ox iids reply := by
  by_cases hset : ∃ ox' ru vtable, ox = some ox' ∧ ox'.remUnknown = some ru ∧
      ru.vtable = some vtable
  · obtain ⟨ox, ru, vtable, rfl, hru, hvtable⟩ := hset
    have hcovered : QueryCovered R (some ox) iids reply ↔ (reply.result.isOk = true →
        iids.length ≤ (reply.rqir.getD []).length ∧
        ((∃ x ∈ reply.rows iids, x.2.1.isOk = true ∧
            (ru.objref R x.1 x.2.2).Refused R) ∨
          ∀ x ∈ reply.rows iids, x.2.1.isOk = true ∧
            (ru.objref R x.1 x.2.2).Proxied R)) := by
      constructor
      · rintro ⟨ox', ru', vtable', hox, hru', -, h⟩
        cases hox
        obtain rfl := some.inj (hru.symm.trans hru')
        exact h
      · intro h
        exact ⟨ox, ru, vtable, rfl, hru, hvtable, h⟩
    rw [hcovered]
    by_cases hresult : reply.result.isOk = true
    · rw [querySound_answered R hru hvtable iids hresult]
      exact ⟨fun h _ => h, fun h => h hresult⟩
    · refine iff_of_true ?_ fun h => absurd h hresult
      refine ⟨R.werrorToNtstatus reply.result, [], ?_, fun h => ?_⟩
      · simp [dcomQueryInterface, hru, hvtable, hresult]
      · exact absurd ((R.werror_isOk reply.result).symm.trans h) hresult
  · have hfault : dcomQueryInterface R ox iids reply = none := by
      cases ox with
      | none => rfl
      | some ox =>
        cases hru : ox.remUnknown with
        | none => simp [dcomQueryInterface, hru]
        | some ru =>
          cases hvtable : ru.vtable with
          | none => simp [dcomQueryInterface, hru, hvtable]
          | some vtable => exact absurd ⟨ox, ru, vtable, rfl, hru, hvtable⟩ hset
    rw [hfault]
    refine iff_of_false ?_ ?_
    · rintro ⟨status, ips, h, -⟩
      cases h
    · rintro ⟨ox', ru, vtable, hox, hru, hvtable, -⟩
      exact hset ⟨ox', ru, vtable, hox, hru, hvtable⟩

/-! ## All operations -/

/-- **Interfaces are there**: activations, the login after one, and queries report an error or have
what they asked for, exactly for the replies that are covered. -/
theorem interfaces_present_iff (R : Registry) (exporters : List ObjectExporter) :
    (∀ r, ActivationSound r (dcomActivate R exporters r) ↔ ActivationCovered R exporters r) ∧
    (∀ (r : ActivationReply) (iface : Option Objref × Werror),
      LoginSound (wbemConnectServerContinue R exporters { r with ifaces := [iface] }) ↔
        ActivationCovered R exporters { r with ifaces := [iface] }) ∧
    ∀ ox iids reply, QuerySound iids (dcomQueryInterface R ox iids reply) ↔
      QueryCovered R ox iids reply := by
  refine ⟨activationSound_iff R exporters, fun r iface => ?_, querySound_iff R⟩
  rw [loginSound_iff R rfl]
  exact activationSound_iff R exporters _

/-! ## Samples -/

/-- A registry with proxies for three interfaces and nothing to unmarshal. -/
def sampleRegistry : Registry where
  proxies := [iidIRemUnknown, 1, 2]
  unmarshal _ := none
  overlay _ := 0
  werrorToNtstatus w := ⟨w.v⟩
  ntstatusToWerror s := ⟨s.v⟩
  werror_isOk _ := rfl
  ntstatus_isOk _ := rfl

/-- An activation that succeeds as a whole, with one interface. -/
def oneInterface (iface : Option Objref) (result : Werror) : ActivationReply :=
  ⟨.ok, .ok, 7, true, 9, [(iface, result)]⟩

/-- An exporter that an earlier activation has set up. -/
def sampleExporter : ObjectExporter :=
  ⟨7, some ⟨⟨⟨1, .standard ⟨7, 3⟩⟩, some 1⟩, 9, some iidIRemUnknown⟩⟩

/-- An interface with an error leaves no template; a NULL reference is a success, and so is an
interface that a query could not get. -/
theorem interfaces_missing :
    dcomActivate sampleRegistry [] (oneInterface none ⟨0x80004002⟩) = none ∧
    ((dcomActivate sampleRegistry [sampleExporter] (oneInterface (some ⟨1, .null⟩) .ok)).map
        fun a => (a.status, a.interfaces)) = some (.ok, [none]) ∧
    wbemConnectServerContinue sampleRegistry [sampleExporter]
        (oneInterface (some ⟨1, .null⟩) .ok) = none ∧
    dcomQueryInterface sampleRegistry (some sampleExporter) [2]
        ⟨.ok, some [(⟨0x80004002⟩, ⟨7, 3⟩)]⟩ = some (.ok, [none]) := by
  refine ⟨?_, ?_, ?_, ?_⟩ <;> decide

end OpenvasSmb.Dcom

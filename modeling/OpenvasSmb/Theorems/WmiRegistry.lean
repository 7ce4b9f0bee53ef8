import OpenvasSmb.Wmi.Registry

/-!
# What a registry value is reported as

The four functions that get a string or a number return 0 whenever the method could be
executed. `registry_value_reported_iff` says for which answers of the server `*res` then
is the value: a zero, a NULL value and a missing property all come out as success, and
`wmi_reg_get_sz` reports the name of the value for a missing property.
-/

namespace OpenvasSmb.Wmi

open Wbem Option

/-- The functions that get a value. -/
inductive ValueGetter where
  | sz
  | exStringVal
  | dwordVal
  | qwordVal

inductive RegValue where
  | text (s : String)
  | number (n : Nat)
  deriving DecidableEq

namespace ValueGetter

def run (S : Provider) (P : Puns) (hasCtx : Bool) (q : ValueQuery) (res : Option String) :
    ValueGetter → Option (Int × Option String)
  | sz => wmiRegGetSz S P hasCtx q res
  | exStringVal => wmiRegGetExStringVal S P hasCtx q res
  | dwordVal => wmiRegGetDwordVal S P hasCtx q res
  | qwordVal => wmiRegGetQwordVal S P hasCtx q res

/-- The method of `StdRegProv`. -/
def method : ValueGetter → String
  | sz => "GetStringValue"
  | exStringVal => "GetExpandedStringValue"
  | dwordVal => "GetDWORDValue"
  | qwordVal => "GetQWORDValue"

/-- The parameter in which the method returns the value. -/
def property : ValueGetter → String
  | sz => "sValue"
  | exStringVal => "sValue"
  | dwordVal => "uValue"
  | qwordVal => "uValue"

/-- The member of the union that the type of this parameter selects: a string, a `uint32`
or a `uint64`. -/
def kind : ValueGetter → CimKind
  | sz => .string
  | exStringVal => .string
  | dwordVal => .num 4
  | qwordVal => .num 8

/-- What is stored in a member of the union; NULL is no value. -/
def valueOf : CimKind → Cimvar WbemClassObject → Option RegValue
  | .string, .string s => s.map .text
  | .num width, .num n => some (.number (n % 2 ^ (8 * width)))
  | _, _ => none

/-- The text a value is reported as. -/
def render : ValueGetter → RegValue → String
  | _, .text s => s
  | qwordVal, .number n => percentx n
  | _, .number n => percentX n

/-- The value in the returned object: that of the first property of the name, if its type is of the
declared kind and it is not NULL. -/
def returned (g : ValueGetter) (out : Object) : Option RegValue := do
  let cls ← out.objClass
  let (i, p) ← ← findProperty g.property 0 cls.properties
  let inst ← out.inst
  let value ← inst.data[i]?
  let desc ← p.desc
  let flags ← inst.defaultFlags[i]?
  if maskedKind desc.cimtype = some g.kind ∧ hasFlag flags defaultFlagEmpty = false then
    valueOf g.kind value
  else none

end ValueGetter

/-- Whenever the function returns 0, `*res` was set to the value that the server sent. -/
def ValueReported (g : ValueGetter) (S : Provider) (hasCtx : Bool) (q : ValueQuery) : Prop :=
  ∀ P res res', g.run S P hasCtx q res = some (0, res') →
    ∃ out value, (execRegMethod S g.method q).run = some (.ok out) ∧
      g.returned out = some value ∧ res' = some (g.render value)

/-- If the method could be executed and the lookup ends, the result has the value, and that is not
0. -/
def ValueSent (g : ValueGetter) (S : Provider) (hasCtx : Bool) (q : ValueQuery) : Prop :=
  ∀ out found, hasCtx = true → (execRegMethod S g.method q).run = some (.ok out) →
    wbemClassObjectGet out g.property (.ofString none) = some found →
    ∃ value, g.returned out = some value ∧ value ≠ .number 0

/-- What the variable holds before the lookup. -/
def ValueGetter.before (q : ValueQuery) : ValueGetter → CimUnion
  | sz => .ofString q.valName
  | _ => .ofString none

/-- The text that `*res` is set to. -/
def ValueGetter.report (P : Puns) : ValueGetter → CimUnion → Option (Option String)
  | sz => reportString P
  | exStringVal => reportString P
  | dwordVal => reportDword P
  | qwordVal => reportQword P

variable (g : ValueGetter) (properties : List (WbemProperty WbemClassObject))

theorem ValueGetter.run_eq (S : Provider) (P : Puns) (hasCtx : Bool) (q : ValueQuery)
    (res : Option String) :
    g.run S P hasCtx q res =
      getRegValue S hasCtx g.method g.property q (g.before q) (g.report P) res := by
  cases g <;> rfl

theorem getRegValue_zero {S : Provider} {hasCtx : Bool} {method property : String}
    {q : ValueQuery} {v : CimUnion} {report : CimUnion → Option (Option String)}
    {res res' : Option String} :
    getRegValue S hasCtx method property q v report res = some (0, res') ↔
      hasCtx = true ∧ ∃ out found text, (execRegMethod S method q).run = some (.ok out) ∧
        wbemClassObjectGet out property v = some found ∧ report found.2 = some text ∧
        res' = text.or res := by
  unfold getRegValue
  cases hasCtx with
  | false => simp
  | true =>
    cases hrun : (execRegMethod S method q).run with
    | none => simp
    | some reply =>
      cases reply with
      | error w => simp
      | ok out =>
        simp only [Bool.true_eq_false, if_false, bind_eq_bind,
          bind_eq_some_iff, pure_def, some.injEq, Prod.mk.injEq,
          true_and, Except.ok.injEq, exists_and_left, exists_eq_left']
        constructor
        all_goals
          rintro ⟨found, hfound, text, htext, hres⟩
          exact ⟨found, hfound, text, htext, hres.symm⟩

/-! ## The lookup -/

/-- Whether the lookup comes to an end does not depend on what the variable holds. -/
theorem exists_wbemClassObjectGet {d : Object} {name : String} {val : CimUnion}
    {found : Werror × CimUnion} (h : wbemClassObjectGet d name val = some found)
    (val' : CimUnion) : ∃ found', wbemClassObjectGet d name val' = some found' := by
  obtain ⟨cls, hcls, hcases⟩ := wbemClassObjectGet_eq_some.mp h
  rcases hcases with ⟨hnone, -⟩ |
    ⟨i, p, inst, value, desc, copy, hfirst, hinst, hvalue, hdesc, hcopy, -⟩
  · exact ⟨_, wbemClassObjectGet_eq_some.mpr ⟨cls, hcls, .inl ⟨hnone, rfl⟩⟩⟩
  · exact ⟨_, wbemClassObjectGet_eq_some.mpr ⟨cls, hcls, .inr
      ⟨i, p, inst, value, desc, copy, hfirst, hinst, hvalue, hdesc, hcopy, rfl⟩⟩⟩

namespace ValueGetter

/-- A value of the right kind is copied as it is. -/
theorem copyCimvar_of_valueOf {g : ValueGetter} {value : Cimvar WbemClassObject} {v : RegValue}
    {cimtype : Nat} (hkind : maskedKind cimtype = some g.kind) (hv : valueOf g.kind value = some v) :
    copyCimvar ⟨maskedKind cimtype, value⟩ cimtype = some (some ⟨some g.kind, value⟩) := by
  have hcopy : duplicateValue duplicateWbemClassObject cimtype value = .intact (some value) := by
    unfold duplicateValue
    rw [hkind]
    cases g with
    | sz | exStringVal => cases value <;> simp_all [kind, valueOf]
    | dwordVal | qwordVal =>
      cases value with
      | num => rfl
      | _ => simp [kind, valueOf] at hv
  rw [copyCimvar_of_intact hcopy, hkind]
  rfl

theorem found_of_returned {g : ValueGetter} {out : Object} {value : RegValue} {val : CimUnion}
    {found : Werror × CimUnion} (hreturned : g.returned out = some value)
    (hfound : wbemClassObjectGet out g.property val = some found) :
    ∃ v, found.2 = ⟨some g.kind, v⟩ ∧ valueOf g.kind v = some value := by
  unfold returned at hreturned
  simp only [bind_eq_bind, bind_eq_some_iff, ite_none_right_eq_some]
    at hreturned
  obtain ⟨cls, hcls, first, hfirst, ⟨i, p⟩, rfl, inst, hinst, v, hv, desc, hdesc, flags, -,
    ⟨hkind, -⟩, hvalue⟩ := hreturned
  obtain ⟨cls', hcls', hcases⟩ := wbemClassObjectGet_eq_some.mp hfound
  obtain rfl := some.inj (hcls.symm.trans hcls')
  rcases hcases with ⟨hnone, -⟩ |
    ⟨i', p', inst', v', desc', copy, hfirst', hinst', hv', hdesc', hcopy, rfl⟩
  · exact absurd (some.inj (hfirst.symm.trans hnone)) (some_ne_none _)
  · obtain ⟨rfl, rfl⟩ := Prod.mk.inj (some.inj (some.inj (hfirst.symm.trans hfirst')))
    obtain rfl := some.inj (hinst.symm.trans hinst')
    obtain rfl := some.inj (hv.symm.trans hv')
    obtain rfl := some.inj (hdesc.symm.trans hdesc')
    rw [copyCimvar_of_valueOf hkind hvalue] at hcopy
    obtain rfl := some.inj hcopy
    exact ⟨v, rfl, hvalue⟩

/-- A value is reported, unless it is the number 0. -/
theorem report_eq (P : Puns) {v : Cimvar WbemClassObject} {value : RegValue}
    (h : valueOf g.kind v = some value) :
    g.report P ⟨some g.kind, v⟩ =
      some (if value = .number 0 then none else some (g.render value)) := by
  have hstring : g.kind = .string → ∃ s, v = .string (some s) ∧ value = .text s := by
    intro hkind
    rw [hkind] at h
    cases v <;> simp_all [valueOf, eq_comm]
  have hnumber : ∀ width, g.kind = .num width →
      ∃ n, v = .num n ∧ value = .number (n % 2 ^ (8 * width)) := by
    intro width hkind
    rw [hkind] at h
    cases v <;> simp_all [valueOf, eq_comm]
  cases g with
  | sz | exStringVal =>
    obtain ⟨s, rfl, rfl⟩ := hstring rfl
    rfl
  | dwordVal | qwordVal =>
    obtain ⟨n, rfl, rfl⟩ := hnumber _ rfl
    simp only [report, reportDword, reportQword, Puns.readNumber, kind, render, if_true,
      RegValue.number.injEq, ne_eq, ite_not]

end ValueGetter

/-- **Registry values.** Whenever one of the four functions returns 0, `*res` is the value that the
server sent, iff every returned object has the value, not NULL, of the right kind and not 0. -/
theorem registry_value_reported_iff (S : Provider) (hasCtx : Bool)
    (q : ValueQuery) : ValueReported g S hasCtx q ↔ ValueSent g S hasCtx q := by
  constructor
  · intro h out found hctx hout hfound
    -- members that are not the stored one read as zero
    obtain ⟨found', hfound'⟩ := exists_wbemClassObjectGet hfound (g.before q)
    let P : Puns := ⟨fun _ _ => 0, fun _ => some none⟩
    obtain ⟨text, htext⟩ : ∃ text, g.report P found'.2 = some text := by
      have hread : ∃ text, P.readString found'.2 = some text := by
        unfold Puns.readString
        split
        · exact ⟨_, rfl⟩
        · exact ⟨none, rfl⟩
      cases g with
      | sz | exStringVal => exact hread
      | dwordVal | qwordVal => exact ⟨_, rfl⟩
    have hrun : g.run S P hasCtx q none = some (0, text.or none) := by
      rw [g.run_eq, getRegValue_zero]
      exact ⟨hctx, out, found', text, hout, hfound', htext, rfl⟩
    obtain ⟨out', value, hout', hreturned, hres⟩ := h P none _ hrun
    obtain rfl := Except.ok.inj (some.inj (hout.symm.trans hout'))
    refine ⟨value, hreturned, ?_⟩
    rintro rfl
    obtain ⟨v, hv, hvalue⟩ := ValueGetter.found_of_returned hreturned hfound'
    rw [hv, g.report_eq P hvalue] at htext
    obtain rfl := some.inj htext
    exact absurd hres.symm (some_ne_none _)
  · intro h P res res' hrun
    rw [g.run_eq, getRegValue_zero] at hrun
    obtain ⟨hctx, out, found, text, hout, hfound, htext, rfl⟩ := hrun
    obtain ⟨found₀, hfound₀⟩ := exists_wbemClassObjectGet hfound (.ofString none)
    obtain ⟨value, hreturned, hne⟩ := h out found₀ hctx hout hfound₀
    obtain ⟨v, hv, hvalue⟩ := ValueGetter.found_of_returned hreturned hfound
    rw [hv, g.report_eq P hvalue, if_neg hne] at htext
    obtain rfl := some.inj htext
    exact ⟨out, value, hout, hreturned, rfl⟩

def propertyOf (name : String) (cimtype : Nat) : WbemProperty WbemClassObject :=
  ⟨some name, some ⟨cimtype, 0, 0, 0, []⟩⟩

def parameterClass : WbemClass WbemClassObject :=
  ⟨0, some "__PARAMETERS", 0, [], [], properties, [], []⟩

/-- A server that has the methods with these parameters, and answers each of them with the same
object. -/
def serving (methods : List String) (parameters properties : List (WbemProperty WbemClassObject))
    (values : List (Cimvar WbemClassObject)) : Provider where
  getObject _ := (.ok, some {
    flags := wcfClass
    objMethods := some ⟨0, methods.map fun method => ⟨some method, 0, 0, none, some (.mk {
      flags := wcfClass
      objClass := some (parameterClass parameters) }), none⟩⟩ })
  execMethod _ _ _ := (.ok, some {
    flags := wcfInstance
    objClass := some (parameterClass properties)
    inst := some ⟨0, none, values.map fun _ => 0, values, 4, 1⟩ })

/-- The parameters of the methods that get a value. -/
def keyParameters : List (WbemProperty WbemClassObject) :=
  [propertyOf "hDefKey" cimUint32, propertyOf "sSubKeyName" cimString,
    propertyOf "sValueName" cimString]

/-- A server for the four functions. -/
def answering : List (Cimvar WbemClassObject) → Provider :=
  serving ([ValueGetter.sz, .exStringVal, .dwordVal, .qwordVal].map ValueGetter.method)
    keyParameters properties

/-- Where the property is missing, `wmi_reg_get_sz` reports the name that was asked for, and the
other functions nothing; nor is 0 reported. -/
theorem registry_value_not_reported :
    wmiRegGetSz (answering [] []) ⟨fun _ _ => 0, fun _ => none⟩ true
      ⟨0, some "SOFTWARE", some "Version"⟩ none = some (0, some "Version") ∧
    wmiRegGetExStringVal (answering [] []) ⟨fun _ _ => 0, fun _ => none⟩ true
      ⟨0, some "SOFTWARE", some "Version"⟩ none = some (0, none) ∧
    wmiRegGetDwordVal (answering [propertyOf "uValue" cimUint32] [.num 0])
      ⟨fun _ _ => 0, fun _ => none⟩ true ⟨0, some "SOFTWARE", some "Version"⟩ none =
        some (0, none) ∧
    ¬ ValueReported .sz (answering [] []) true ⟨0, some "SOFTWARE", some "Version"⟩ := by
  refine ⟨by decide, by decide, by decide, ?_⟩
  intro h
  obtain ⟨out, value, hout, hreturned, -⟩ :=
    h ⟨fun _ _ => 0, fun _ => none⟩ none (some "Version") (by decide)
  have hnone : ((execRegMethod (answering [] []) ValueGetter.sz.method
      ⟨0, some "SOFTWARE", some "Version"⟩).run.map fun reply =>
        reply.toOption.bind ValueGetter.sz.returned) = some none := by decide
  rw [hout] at hnone
  have hmissing : ValueGetter.sz.returned out = none := some.inj hnone
  rw [hmissing] at hreturned
  exact absurd hreturned.symm (some_ne_none value)

end OpenvasSmb.Wmi

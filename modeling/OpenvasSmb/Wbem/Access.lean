import OpenvasSmb.Wbem.Duplicate

/-!
# Access to the parts of an object (`wmi/wbemdata.c`)

The local half of `IWbemClassObject`: methods are looked up in a class, an instance is spawned
from a parameter class, and properties are read and written by name.

A caller passes values in a `union CIMVAR` of its own: `CimUnion` is the member that was stored
last, with its value. Pointers have 8 bytes. Following a NULL pointer, or a pointer that was
stored as something else, has no result (`none`); errors are `Werror`s (`Call`).
-/

namespace OpenvasSmb.Wbem

open Option

abbrev Object := ClassObject WbemClassObject

/-- What a call does: nothing that can be described (`none`), or it ends with an error or
a result. -/
abbrev Call (α : Type) := ExceptT Werror Option α

namespace Call

def deref {α : Type} (pointer : Option α) : Call α := ExceptT.mk (pointer.map .ok)

/-- `WERR_CHECK`. -/
def check (result : Werror) : Call Unit := if result.isOk then pure () else throw result

/-- A call that changes what it is given, and `WERR_CHECK` on its status. -/
def checked {α : Type} (changed : Option (Werror × α)) : Call α := do
  let (result, a) ← deref changed
  check result
  return a

end Call

/-- A variable of type `union CIMVAR`: the member that was stored last, if one is known,
and what was stored. -/
structure CimUnion where
  kind : Option CimKind
  value : Cimvar WbemClassObject

namespace CimUnion

/-- `v.v_string = s`. -/
def ofString (s : Option String) : CimUnion := ⟨some .string, .string s⟩

/-- `v.v_uint32 = n`. -/
def ofUint32 (n : Nat) : CimUnion := ⟨some (.num 4), .num n⟩

end CimUnion

variable (d : Object) (name : String) (val : CimUnion)

/-- What `duplicate_CIMVAR` stores in its destination, if it stores anything. The copy of an
object that is torn or shared is more than a value can tell. -/
def copyCimvar (src : CimUnion) (cimtype : Nat) : Option (Option CimUnion) :=
  match duplicateValue duplicateWbemClassObject cimtype src.value with
  | some ⟨stored, false, false⟩ => some (stored.map fun value => ⟨src.kind, value⟩)
  | _ => none

theorem copyCimvar_of_intact {src : CimUnion} {cimtype : Nat}
    {stored : Option (Cimvar WbemClassObject)}
    (h : duplicateValue duplicateWbemClassObject cimtype src.value = .intact stored) :
    copyCimvar src cimtype = some (stored.map fun value => ⟨src.kind, value⟩) := by
  rw [copyCimvar, h]
  rfl

def duplicateCimvar (src dst : CimUnion) (cimtype : Nat) : Option CimUnion :=
  (copyCimvar src cimtype).map fun copy => copy.getD dst

def werrNotFound : Werror := ⟨1168⟩
def werrInvalidParam : Werror := ⟨87⟩

/-- The loop over the properties of a class: the first one with the name, with its index
counted from `i`. -/
def findProperty (name : String) :
    Nat → List (WbemProperty WbemClassObject) → Option (Option (Nat × WbemProperty WbemClassObject))
  | _, [] => some none
  | i, p :: ps =>
    match p.name with
    | none => none
    | some n => if n = name then some (some (i, p)) else findProperty name (i + 1) ps

/-- `WbemClassObject_Get` into a variable: its status, and what the variable holds then. -/
def wbemClassObjectGet :
    Option (Werror × CimUnion) := do
  let cls ← d.objClass
  match ← findProperty name 0 cls.properties with
  | none => some (werrNotFound, val)
  | some (i, p) =>
    let inst ← d.inst
    let value ← inst.data[i]?
    let desc ← p.desc
    let v ← duplicateCimvar ⟨maskedKind desc.cimtype, value⟩ val desc.cimtype
    some (.ok, v)

/-- The cases of `WbemClassObject_Get`: there is no such property, or the first one is
copied. -/
theorem wbemClassObjectGet_eq_some {d : Object} {name : String} {val : CimUnion}
    {found : Werror × CimUnion} :
    wbemClassObjectGet d name val = some found ↔
      ∃ cls, d.objClass = some cls ∧
        (findProperty name 0 cls.properties = some none ∧ found = (werrNotFound, val) ∨
          ∃ i p inst value desc copy, findProperty name 0 cls.properties = some (some (i, p)) ∧
            d.inst = some inst ∧ inst.data[i]? = some value ∧ p.desc = some desc ∧
            copyCimvar ⟨maskedKind desc.cimtype, value⟩ desc.cimtype = some copy ∧
            found = (.ok, copy.getD val)) := by
  unfold wbemClassObjectGet
  simp only [bind_eq_bind, bind_eq_some_iff]
  refine exists_congr fun cls => and_congr_right fun _ => ?_
  cases findProperty name 0 cls.properties with
  | none => simp
  | some first =>
    cases first with
    | none => simp [eq_comm]
    | some ip =>
      obtain ⟨i, p⟩ := ip
      constructor
      · intro h
        simp only [some.injEq, exists_eq_left', bind_eq_some_iff] at h
        obtain ⟨inst, hinst, value, hvalue, desc, hdesc, v, hdup, hfound⟩ := h
        obtain ⟨copy, hcopy, rfl⟩ := map_eq_some_iff.mp hdup
        exact .inr ⟨i, p, inst, value, desc, copy, rfl, hinst, hvalue, hdesc, hcopy,
          hfound.symm⟩
      · rintro (⟨hnone, -⟩ | ⟨i', p', inst, value, desc, copy, hfirst, hinst, hvalue, hdesc,
          hcopy, rfl⟩)
        · exact absurd (some.inj hnone) (some_ne_none _)
        · obtain ⟨rfl, rfl⟩ := Prod.mk.inj (some.inj (some.inj hfirst))
          simp [hinst, hvalue, hdesc, duplicateCimvar, hcopy]

/-- `IWbemClassObject_Put`: its status, and the object as it leaves it. A CIM type of 0 is not
compared. -/
def iWbemClassObjectPut (cimtype : Nat) :
    Option (Werror × Object) := do
  let cls ← d.objClass
  match ← findProperty name 0 cls.properties with
  | none => some (werrNotFound, d)
  | some (i, p) =>
    let desc ← p.desc
    if cimtype ≠ 0 ∧ cimtype ≠ desc.cimtype then some (werrInvalidParam, d)
    else do
      let inst ← d.inst
      let _ ← inst.defaultFlags[i]?
      let old ← inst.data[i]?
      let v ← duplicateCimvar val ⟨maskedKind desc.cimtype, old⟩ desc.cimtype
      some (.ok, { d with
        inst := some { inst with
          defaultFlags := inst.defaultFlags.set i 0
          data := inst.data.set i v.value } })

/-- The loop over the methods of a class. -/
def findMethod (name : String) :
    List (WbemMethod WbemClassObject) → Option (Option (WbemMethod WbemClassObject))
  | [] => some none
  | m :: ms =>
    match m.name with
    | none => none
    | some n => if n = name then some (some m) else findMethod name ms

/-- `IWbemClassObject_GetMethod`: the object of the input parameters, which may be NULL. -/
def iWbemClassObjectGetMethod : Call (Option Object) := do
  let methods ← Call.deref d.objMethods
  match ← Call.deref (findMethod name methods.method) with
  | none => throw werrNotFound
  | some m => return m.inObject.map WbemClassObject.get

/-- Zero bytes, as a value of a kind. -/
def Cimvar.zero : Option CimKind → Cimvar WbemClassObject
  | none => .unset
  | some (.num _) => .num 0
  | some .string => .string none
  | some .object => .object none
  | some (.nums _) => .nums none
  | some .strings => .strings none
  | some .objects => .objects none

def wbemClassObjectCreateInstance (cls : WbemClass WbemClassObject) :
    WbemInstance WbemClassObject where
  u1 := 0
  className := cls.className
  defaultFlags := cls.properties.map fun _ => 1
  data := cls.properties.map fun p => .zero (p.desc.bind fun desc => maskedKind desc.cimtype)
  u2 := 4
  u3 := 1

def iWbemClassObjectSpawnInstance : Call Object := do
  let cls ← Call.deref d.objClass
  return {
    flags := wcfInstance
    objClass := some cls
    inst := some (wbemClassObjectCreateInstance cls) }

end OpenvasSmb.Wbem

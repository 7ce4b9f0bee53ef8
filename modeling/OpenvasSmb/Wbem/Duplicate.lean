import OpenvasSmb.Wbem.Nesting

/-!
# Copies of objects (`wmi/wbemdata.c`)

The `duplicate_…` functions fill a zeroed destination with a copy of their source. A copy comes to
nothing (`none`) where a function follows a NULL pointer or leaves an array. Otherwise `Copied`
records besides the value

* whether the copy is `torn`: a slot was never written and holds what was in the memory before;
* whether it is `shared`: a pointer of the source was stored in it.

Strings are copied by `talloc_strdup`, which makes NULL of NULL.
-/

namespace OpenvasSmb.Wbem

/-- A copy, and what is wrong with it. -/
structure Copied (α : Type) where
  value : α
  torn : Bool := false
  shared : Bool := false

/-- What copying comes to. -/
def Dup (α : Type) : Type := Option (Copied α)

namespace Dup

variable {α β : Type}

/-- A copy with nothing wrong. -/
def intact (a : α) : Dup α := some { value := a }

def bind (x : Dup α) (f : α → Dup β) : Dup β :=
  Option.bind x fun a => (f a.value).map fun b =>
    { b with torn := a.torn || b.torn, shared := a.shared || b.shared }

instance : Monad Dup where
  pure := intact
  bind := bind

/-- An access that the language does not define. -/
def crash : Dup α := none

def deref : Option α → Dup α
  | none => crash
  | some a => intact a

/-- The slot of a new array, which is never written when there is nothing to store. -/
def slot (placeholder : α) : Option α → Dup α
  | none => some { value := placeholder, torn := true }
  | some a => intact a

end Dup

variable {O : Type}

def Cimvar.isPointer : Cimvar O → Bool
  | .string s => s.isSome
  | .object o => o.isSome
  | .nums items => items.isSome
  | .strings items => items.isSome
  | .objects items => items.isSome
  | _ => false

/-- The type that decides about a copy, `cimtype & CIM_TYPEMASK`. -/
def maskedKind (cimtype : Nat) : Option CimKind := cimKind (cimtype &&& cimTypemask)

section Copies

variable (dup : O → Dup O)

/-- What `duplicate_CIMVAR` stores in its destination, if it stores anything. -/
def duplicateValue (cimtype : Nat) (src : Cimvar O) : Dup (Option (Cimvar O)) :=
  match maskedKind cimtype with
  -- `*dst = *src`
  | some (.num _) => some { value := some src, shared := src.isPointer }
  | some .string =>
    match src with
    | .string _ => .intact (some src)
    | .unset => .intact (some src)
    | _ => .crash
  | some .object =>
    match src with
    | .object (some o) => (dup o).bind fun o => .intact (some (.object (some o)))
    | .object none => .intact none
    | .unset => .intact none
    | _ => .crash
  | some (.nums width) =>
    match src with
    | .nums (some _) => .intact (some src)
    -- only the arrays of bytes are tested for NULL
    | .nums none => if width = 1 then .intact none else .crash
    | .unset => if width = 1 then .intact none else .crash
    | _ => .crash
  | some .strings =>
    match src with
    | .strings (some []) => .intact (some src)
    | .strings none => .intact none
    | .unset => .intact none
    -- the array of the copy has 4 bytes for each pointer
    | _ => .crash
  | some .objects => .intact none
  | none => .intact none

/-- `duplicate_WbemQualifier`, into a structure of its own. -/
def duplicateWbemQualifier (src : WbemQualifier O) : Dup (WbemQualifier O) := do
  let value ← duplicateValue dup src.cimtype src.value
  pure { src with value := value.getD .unset }

/-- `duplicate_WbemQualifiers`. In each round `dst->item` becomes an array of one NULL; the copy is
left in a parameter and lost. In the second round the entry is outside the array. -/
def duplicateWbemQualifiers : List (Option (WbemQualifier O)) →
    Dup (List (Option (WbemQualifier O)))
  | [] => .intact []
  | [some q] =>
    match duplicateWbemQualifier dup q with
    | none => .crash
    | some _ => .intact [none]
  | _ => .crash

/-- `duplicate_CIMSTRINGS`; each round makes a new array of one entry. -/
def duplicateCimstrings : List String → Dup (List String)
  | [] => .intact []
  | [s] => .intact [s]
  | _ => .crash

/-- A property: the descriptor is copied as a block of memory first. -/
def duplicateProperty (src : WbemProperty O) : Dup (WbemProperty O) := do
  let desc ← Dup.deref src.desc
  let qualifiers ← duplicateWbemQualifiers dup desc.qualifiers
  pure { src with desc := some { desc with qualifiers } }

/-- A loop over an array. -/
def duplicateEach {α β : Type} (f : α → Dup β) : List α → Dup (List β)
  | [] => .intact []
  | a :: rest => do
      let b ← f a
      let bs ← duplicateEach f rest
      pure (b :: bs)

/-- The loop over the flags and values of a class or an instance. -/
def duplicateSlots : List (WbemProperty O) → List Nat → List (Cimvar O) →
    Dup (List Nat × List (Cimvar O))
  | [], _, _ => .intact ([], [])
  | p :: ps, flag :: flags, v :: vs => do
      let desc ← Dup.deref p.desc
      let stored ← duplicateValue dup desc.cimtype v
      let value ← Dup.slot .unset stored
      let rest ← duplicateSlots ps flags vs
      pure (flag :: rest.1, value :: rest.2)
  | _, _, _ => .crash

/-- `duplicate_WbemClass`; `data_size` keeps the 0 of the destination. -/
def duplicateWbemClass (src : WbemClass O) : Dup (WbemClass O) := do
  let derivation ← duplicateCimstrings src.derivation
  let qualifiers ← duplicateWbemQualifiers dup src.qualifiers
  let properties ← duplicateEach (duplicateProperty dup) src.properties
  let slots ← duplicateSlots dup src.properties src.defaultFlags src.defaultValues
  pure { u0 := src.u0, className := src.className, dataSize := 0, derivation, qualifiers,
         properties, defaultFlags := slots.1, defaultValues := slots.2 }

/-- `duplicate_WbemMethods`; `dst->method` keeps the NULL of the destination, and the copy
of a method would be written through it. -/
def duplicateWbemMethods (src : WbemMethods O) : Dup (WbemMethods O) :=
  match src.method with
  | [] => .intact { u0 := src.u0, method := [] }
  | _ :: _ => .crash

def duplicateWbemInstance (cls : WbemClass O) (src : WbemInstance O) : Dup (WbemInstance O) := do
  let slots ← duplicateSlots dup cls.properties src.defaultFlags src.data
  pure { src with defaultFlags := slots.1, data := slots.2 }

/-- A part that is copied under a flag. -/
def duplicatePart {α : Type} (flag : Bool) (f : α → Dup α) (src : Option α) : Dup (Option α) :=
  if flag then do
    let a ← Dup.deref src
    let b ← f a
    pure (some b)
  else .intact none

/-- The instance of an object, laid out as the class of the object says. -/
def duplicateInstanceOf (cls : Option (WbemClass O)) (src : WbemInstance O) :
    Dup (WbemInstance O) := do
  let cls ← Dup.deref cls
  duplicateWbemInstance dup cls src

/-- `duplicate_WbemClassObject`, given the copies of the objects inside. -/
def duplicateClassObject (src : ClassObject O) : Dup (ClassObject O) := do
  let supClass ← duplicatePart (hasFlag src.flags wcfDecorations) (duplicateWbemClass dup)
    src.supClass
  let supMethods ← duplicatePart (hasFlag src.flags wcfDecorations) duplicateWbemMethods
    src.supMethods
  let objMethods ← duplicatePart (hasFlag src.flags wcfDecorations) duplicateWbemMethods
    src.objMethods
  let objClass ← duplicatePart (hasFlag src.flags (wcfClass + wcfInstance))
    (duplicateWbemClass dup) src.objClass
  let inst ← duplicatePart (hasFlag src.flags wcfInstance)
    (duplicateInstanceOf dup src.objClass) src.inst
  pure {
    flags := src.flags
    server := if hasFlag src.flags wcfClass then src.server else none
    namesp := if hasFlag src.flags wcfClass then src.namesp else none
    supClass, supMethods, objClass, objMethods, inst }

end Copies

/-- One level of `duplicate_WbemClassObject`. -/
def duplicateLevel (dup : WbemClassObject → Dup WbemClassObject)
    (src : ClassObject WbemClassObject) : Dup WbemClassObject :=
  (duplicateClassObject dup src).bind fun o => .intact (.mk o)

def duplicateWbemClassObject : WbemClassObject → Dup WbemClassObject := tie duplicateLevel .crash

end OpenvasSmb.Wbem

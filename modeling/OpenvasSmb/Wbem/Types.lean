import OpenvasSmb.Util.Status

/-!
# WBEM objects (`librpc/idl/dcom_wmi.inc`)

The structures of the IDL. An object may hold further objects (a `CIM_OBJECT` value, the parameter
objects of a method), so every structure is written over the type `O` of the objects inside it,
and `WbemClassObject` ties the knot.

Pointers that may be NULL are `Option`s, counted arrays are lists, and integers are their unsigned
values, which the coders keep inside the width the IDL gives them.

`union CIMVAR` has no tag in C; a CIM type kept elsewhere decides which member is meant. `Cimvar`
records what was stored last: a number of any width, a string pointer, an object pointer or a
pointer to one of the three kinds of array. Reading another kind of member is a fault where it
matters.
-/

namespace OpenvasSmb.Wbem

/-! ## CIM types -/

def cimFlagArray : Nat := 0x2000
def cimTypemask : Nat := 0x2FFF

def cimSint8 : Nat := 16
def cimUint8 : Nat := 17
def cimSint16 : Nat := 2
def cimUint16 : Nat := 18
def cimSint32 : Nat := 3
def cimUint32 : Nat := 19
def cimSint64 : Nat := 20
def cimUint64 : Nat := 21
def cimReal32 : Nat := 4
def cimReal64 : Nat := 5
def cimBoolean : Nat := 11
def cimString : Nat := 8
def cimDatetime : Nat := 101
def cimReference : Nat := 102
def cimObject : Nat := 13
def cimArrString : Nat := cimFlagArray + cimString

/-- The members of `union CIMVAR`, by what they hold; numbers with their size in
bytes. -/
inductive CimKind where
  | num (width : Nat)
  | string
  | object
  | nums (width : Nat)
  | strings
  | objects
  deriving DecidableEq

/-- The kind of a type without the array flag. -/
def scalarKind (cimtype : Nat) : Option CimKind :=
  if cimtype = cimSint8 ∨ cimtype = cimUint8 then some (.num 1)
  else if cimtype = cimSint16 ∨ cimtype = cimUint16 ∨ cimtype = cimBoolean then some (.num 2)
  else if cimtype = cimSint32 ∨ cimtype = cimUint32 ∨ cimtype = cimReal32 then some (.num 4)
  else if cimtype = cimSint64 ∨ cimtype = cimUint64 ∨ cimtype = cimReal64 then some (.num 8)
  else if cimtype = cimString ∨ cimtype = cimDatetime ∨ cimtype = cimReference then some .string
  else if cimtype = cimObject then some .object
  else none

def CimKind.array : CimKind → Option CimKind
  | .num width => some (.nums width)
  | .string => some .strings
  | .object => some .objects
  | _ => none

/-- The member of the union a CIM type selects; `none` for a type the union has
no case for (`CIM_CHAR16` and its array among them). -/
def cimKind (cimtype : Nat) : Option CimKind :=
  if cimtype < cimFlagArray then scalarKind cimtype
  else if cimtype < 2 * cimFlagArray then
    (scalarKind (cimtype - cimFlagArray)).bind CimKind.array
  else none

/-! ## Values and classes -/

/-- `union CIMVAR`. -/
inductive Cimvar (O : Type) where
  /-- Never written. -/
  | unset
  | num (v : Nat)
  | string (s : Option String)
  | object (o : Option O)
  | nums (items : Option (List Nat))
  | strings (items : Option (List (Option String)))
  | objects (items : Option (List (Option O)))
  deriving DecidableEq

/-- `WbemQualifier`. -/
structure WbemQualifier (O : Type) where
  name : Option String
  flavors : Nat
  cimtype : Nat
  value : Cimvar O
  deriving DecidableEq

/-- `WbemPropertyDesc`. -/
structure WbemPropertyDesc (O : Type) where
  cimtype : Nat
  nr : Nat
  offset : Nat
  depth : Nat
  qualifiers : List (Option (WbemQualifier O))

/-- `WbemProperty`. -/
structure WbemProperty (O : Type) where
  name : Option String
  desc : Option (WbemPropertyDesc O)

/-- `WbemClass`; `__PROPERTY_COUNT` is the length of `properties`. -/
structure WbemClass (O : Type) where
  u0 : Nat
  className : Option String
  dataSize : Nat
  derivation : List String
  qualifiers : List (Option (WbemQualifier O))
  properties : List (WbemProperty O)
  defaultFlags : List Nat
  defaultValues : List (Cimvar O)

/-- `WbemMethod`. -/
structure WbemMethod (O : Type) where
  name : Option String
  u0 : Nat
  u1 : Nat
  qualifiers : Option (List (Option (WbemQualifier O)))
  inObject : Option O
  outObject : Option O

/-- `WbemMethods`. -/
structure WbemMethods (O : Type) where
  u0 : Nat
  method : List (WbemMethod O)

/-- `WbemInstance`. -/
structure WbemInstance (O : Type) where
  u1 : Nat
  className : Option String
  defaultFlags : List Nat
  data : List (Cimvar O)
  u2 : Nat
  u3 : Nat

/-- `WbemClassObject` over the objects inside it. -/
structure ClassObject (O : Type) where
  flags : Nat
  server : Option String := none
  namesp : Option String := none
  supClass : Option (WbemClass O) := none
  supMethods : Option (WbemMethods O) := none
  objClass : Option (WbemClass O) := none
  objMethods : Option (WbemMethods O) := none
  inst : Option (WbemInstance O) := none

/-- `WbemClassObject`. -/
inductive WbemClassObject where
  | mk (o : ClassObject WbemClassObject)

def WbemClassObject.get : WbemClassObject → ClassObject WbemClassObject
  | mk o => o

/-! ## Flags -/

def wcfDecorations : Nat := 1
def wcfInstance : Nat := 2
def wcfClass : Nat := 4

def defaultFlagEmpty : Nat := 1

/-- A flag test `x & bit`. -/
def hasFlag (x bit : Nat) : Bool := x &&& bit != 0

end OpenvasSmb.Wbem

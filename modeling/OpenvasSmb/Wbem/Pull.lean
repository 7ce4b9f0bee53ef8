import OpenvasSmb.Wbem.Types
import OpenvasSmb.Ndr.Pull

/-!
# Pulling WBEM objects (`librpc/ndr/ndr_dcom.c`)

The decoders of the object stream. The pulls of `CIMVAR`, `WbemProperty`, `WbemPropertyDesc` and
`WbemMethod` are written as `pidl` lays them out for the IDL of `dcom_wmi.inc`.

Each structure is pulled in two phases. `NDR_SCALARS` leaves a `Raw…` record, in which every
pointer is still the relative pointer read from the wire (`none` where NULL was stored);
`NDR_BUFFERS` turns it into the value. There every access is bracketed by `ndr_pull_save` and
`ndr_pull_restore`, so it never moves the offset.

Objects inside objects are pulled by the parameter `obj`; the recursion is closed at the end, with
a budget for the nesting depth.
-/

namespace OpenvasSmb.Wbem

open Kit Ndr

/-- The NULL of the pointers written as `0xFFFFFFFF`. -/
def nullFfffffff : Nat := 0xFFFFFFFF

/-- A `[relative]` pointer: 0 is NULL. -/
def pullPtr : Pull (Option Nat) := do
  let ptr ← pullUint32
  pure (if ptr = 0 then none else some ptr)

/-- A `[relative,null_is_ffffffff]` pointer. -/
def pullPtrFf : Pull (Option Nat) := do
  let ptr ← pullUint32
  pure (if ptr = nullFfffffff then none else some ptr)

/-- Follows a pointer, unless it is NULL. -/
def follow {α : Type} (ptr : Option Nat) (p : Pull α) : Pull (Option α) :=
  match ptr with
  | none => pure none
  | some ptr => do
      let a ← atRelative ptr p
      pure (some a)

/-- A part that is only there under a flag. -/
def onFlag {α : Type} (flag : Bool) (p : Pull α) : Pull (Option α) :=
  if flag then do
    let a ← p
    pure (some a)
  else pure none

section Decoders

variable {O : Type} (charset : Charset) (obj : View → Outcome O)

/-! ## Strings -/

variable (cls : Option (WbemClass O))

def ndrPullCimstring : Pull String := do
  let u ← pullUint8
  if u = 0 then pullNullTerminated asciiLenN charset.fromDos
  else if u = 1 then pullNullTerminated utf16LenN charset.fromUtf16
  else Pull.fail .notSupported

variable (count : Nat)

/-- Whether the array has a slot for string number `count`: five at first, and three more each time
it is full; `talloc_realloc` fails at `MAX_TALLOC_SIZE` bytes, which is not tested. -/
def slotFor : Bool :=
  !(5 ≤ count && (count - 5) % 3 == 0 && maxTallocSize / 8 ≤ count + 3)

/-- One round of the loop of `ndr_pull_CIMSTRINGS`: a string, stored in its slot, and its length. -/
def pullCimstringsItem : Pull String := do
  let s ← ndrPullCimstring charset
  Pull.demand (slotFor count)
  let _ ← pullUint32
  pure s

/-- `ndr_pull_CIMSTRINGS`; it has no `NDR_BUFFERS` phase. -/
def ndrPullCimstrings : Pull (List String) := do
  let size ← pullUint32
  let off ← Pull.offset
  Pull.loopBelow (u32Sub (size + off) 4) (pullCimstringsItem charset)

/-! ## `CIMVAR` -/

/-- A value after `NDR_SCALARS`. -/
inductive RawVar where
  | num (v : Nat)
  | pointer (kind : CimKind) (ptr : Option Nat)
  deriving DecidableEq

/-- `NDR_SCALARS` of `ndr_pull_CIMVAR`, switched on `level`. -/
def pullCimvarScalars (level : Nat) : Pull RawVar :=
  match cimKind level with
  | none => Pull.fail .invalidParameter
  | some (.num width) => do
      let v ← pullNumber width
      pure (.num v)
  | some kind => do
      let ptr ← pullPtr
      pure (.pointer kind ptr)

/-- `arr_int8` … `arr_udlong`. -/
def pullArrNumbers (width : Nat) : Pull (List Nat) := do
  pullAlign
  let count ← pullUint32
  allocN count width
  Pull.times (pullNumber width) count

/-- The pointers of an array of pointers. -/
def pullPtrs : Pull (List (Option Nat)) := do
  pullAlign
  let count ← pullUint32
  allocN count 8
  Pull.times pullPtr count

/-- `arr_CIMSTRING`: the pointers, then the strings. -/
def pullArrStrings : Pull (List (Option String)) := do
  let ptrs ← pullPtrs
  Pull.each (fun ptr => follow ptr (ndrPullCimstring charset)) ptrs

/-- The pull of an embedded object; an empty sub-context makes it NULL. -/
def pullEmbedded (ptr : Option Nat) : Pull (Option O) := do
  let o ← follow ptr (subcontext4 obj)
  pure o.join

/-- `arr_WbemClassObject`. -/
def pullArrObjects : Pull (List (Option O)) := do
  let ptrs ← pullPtrs
  Pull.each (pullEmbedded obj) ptrs

/-- `NDR_BUFFERS` of `ndr_pull_CIMVAR`. -/
def pullCimvarBuffers : RawVar → Pull (Cimvar O)
  | .num v => pure (.num v)
  | .pointer (.num _) _ => Pull.fail .invalidParameter
  | .pointer .string ptr => do
      let s ← follow ptr (ndrPullCimstring charset)
      pure (.string s)
  | .pointer .object ptr => do
      let o ← pullEmbedded obj ptr
      pure (.object o)
  | .pointer (.nums width) ptr => do
      let items ← follow ptr (pullArrNumbers width)
      pure (.nums items)
  | .pointer .strings ptr => do
      let items ← follow ptr (pullArrStrings charset)
      pure (.strings items)
  | .pointer .objects ptr => do
      let items ← follow ptr (pullArrObjects obj)
      pure (.objects items)

/-- The switch value of a CIM type: `cimtype & CIM_TYPEMASK`. -/
def cimLevel (cimtype : Nat) : Nat := cimtype &&& cimTypemask

/-! ## Qualifiers -/

def qualifierKeys (i : Nat) : Option String :=
  match i with
  | 1 => some "key"
  | 3 => some "read"
  | 6 => some "provider"
  | 7 => some "dynamic"
  | 10 => some "CIMTYPE"
  | _ => none

/-- `arr_sizeof(qualifier_keys)`. -/
def qualifierKeysSize : Nat := 11

def qnUnknown : String := "Unknown_qualifier_name"

/-- The name that stands for a number in the low byte of a marked pointer. -/
def qualifierKeyName (i : Nat) : String :=
  (qualifierKeys i).getD (qnUnknown ++ toString i)

/-- A qualifier after `NDR_SCALARS`. -/
structure RawQualifier where
  name : Option Nat
  flavors : Nat
  cimtype : Nat
  value : RawVar
  deriving DecidableEq

/-- `NDR_SCALARS` of `ndr_pull_WbemQualifier`. -/
def pullQualifierScalars : Pull RawQualifier := do
  pullAlign
  let name ← pullPtrFf
  let flavors ← pullUint8
  let cimtype ← pullUint32
  let value ← pullCimvarScalars (cimLevel cimtype)
  pure { name, flavors, cimtype, value }

/-- The name of a qualifier: a number when bit 31 of the pointer is set, a string
on the heap otherwise. -/
def pullQualifierName (name : Option Nat) : Pull (Option String) :=
  match name with
  | none => pure none
  | some relofs =>
    if relofs ≥ 0x80000000 then pure (some (qualifierKeyName (relofs % 256)))
    else follow (some relofs) (ndrPullCimstring charset)

/-- `NDR_BUFFERS` of `ndr_pull_WbemQualifier`. -/
def pullQualifierBuffers (r : RawQualifier) : Pull (Option (WbemQualifier O)) := do
  let name ← pullQualifierName charset r.name
  let value ← pullCimvarBuffers charset obj r.value
  pure (some { name, flavors := r.flavors, cimtype := r.cimtype, value })

/-- `NDR_SCALARS` of `ndr_pull_WbemQualifiers`. A qualifier takes ten bytes at least, so no buffer
has more of them than its array can hold. -/
def pullQualifiersScalars : Pull (List RawQualifier) := do
  let size ← pullUint32
  let off ← Pull.offset
  Pull.loopBelow (u32Sub (size + off) 4) fun _ => pullQualifierScalars

/-- `NDR_BUFFERS` of `ndr_pull_WbemQualifiers`. -/
def pullQualifiersBuffers (r : List RawQualifier) : Pull (List (Option (WbemQualifier O))) :=
  Pull.each (pullQualifierBuffers charset obj) r

/-! ## Properties -/

/-- `ndr_pull_WbemPropertyDesc`, both phases. -/
def pullPropertyDesc : Pull (WbemPropertyDesc O) := do
  pullAlign
  let cimtype ← pullUint32
  let nr ← pullUint16
  let offset ← pullUint32
  let depth ← pullUint32
  let raw ← pullQualifiersScalars
  let qualifiers ← pullQualifiersBuffers charset obj raw
  pure { cimtype, nr, offset, depth, qualifiers }

/-- A property after `NDR_SCALARS`. -/
structure RawProperty where
  name : Option Nat
  desc : Option Nat

/-- `NDR_SCALARS` of `ndr_pull_WbemProperty`. -/
def pullPropertyScalars : Pull RawProperty := do
  pullAlign
  let name ← pullPtr
  let desc ← pullPtr
  pure { name, desc }

/-- `NDR_BUFFERS` of `ndr_pull_WbemProperty`. -/
def pullPropertyBuffers (r : RawProperty) : Pull (WbemProperty O) := do
  let name ← follow r.name (ndrPullCimstring charset)
  let desc ← follow r.desc (pullPropertyDesc charset obj)
  pure { name, desc }

/-! ## Value areas

A class keeps its default values, and an instance its values, in an area of
`data_size` bytes: two flag bits for each property, then the values. Both the bit
number and the offset of a value come from the property's descriptor. -/

/-- `properties[i].desc->`: the descriptor is used without a test. -/
def useDesc (p : WbemProperty O) : Pull (WbemPropertyDesc O) :=
  match p.desc with
  | some desc => pure desc
  | none => fun _ _ => .fault

/-- Runs at another offset and comes back. -/
def atOffset {α : Type} (off : Nat) (p : Pull α) : Pull α := fun v cur =>
  (p v off).bind fun r => .ok (r.1, cur)

/-- `copy_bits(ndr->data + ofs, 2*nr, &flag, 0, 2)`. The byte is read without any
range check. -/
def pullFlagBits (ofs nr : Nat) : Pull Nat := do
  let bytes ← atOffset (ofs + nr / 4) (takeBytes 1)
  pure (ofLe bytes / 4 ^ (nr % 4) % 4)

def pullFlags (ofs : Nat) (properties : List (WbemProperty O)) : Pull (List Nat) :=
  Pull.each (fun p => do
    let desc ← useDesc p
    pullFlagBits ofs desc.nr) properties

/-- The scalars of the value of one property, at its place behind the flags. -/
def pullValueScalars (vofs : Nat) (p : WbemProperty O) : Pull RawVar := do
  let desc ← useDesc p
  atOffset (u32 (vofs + desc.offset)) (pullCimvarScalars (cimLevel desc.cimtype))

/-- `(__PROPERTY_COUNT + 3) >> 2`: the bytes of the flags. -/
def flagBytes : Nat := u32 (count + 3) / 4

/-- The area itself: its extent is checked once, and the offset is set behind it at
the end. -/
def valueArea {α : Type} (dataSize : Nat) (body : Nat → Pull α) : Pull α :=
  Pull.withOffset fun ofs => do
    needBytes dataSize
    let a ← body ofs
    Pull.seek (u32 (ofs + dataSize))
    pure a

/-- The arrays of flags and values of a class or an instance. -/
def allocArea : Pull Unit := do
  allocN count 1
  allocN count 8

/-! ## Classes -/

/-- A class after `NDR_SCALARS`. -/
structure RawClass where
  u0 : Nat
  className : Option Nat
  dataSize : Nat
  derivation : List String
  qualifiers : List RawQualifier
  properties : List RawProperty
  flagsOfs : Nat
  valuesOfs : Nat

/-- The property table of a class: `__PROPERTY_COUNT` and the properties. -/
def pullPropertiesScalars : Pull (List RawProperty) := do
  let count ← pullUint32
  allocN count 16
  Pull.times pullPropertyScalars count

/-- `NDR_SCALARS` of `ndr_pull_WbemClass`. -/
def pullClassScalars : Pull RawClass := do
  pullAlign
  let u0 ← pullUint8
  let className ← pullPtrFf
  let dataSize ← pullUint32
  let derivation ← ndrPullCimstrings charset
  let qualifiers ← pullQualifiersScalars
  let properties ← pullPropertiesScalars
  let ofs ← valueArea dataSize fun ofs => do
    allocArea properties.length
    pure ofs
  pure { u0, className, dataSize, derivation, qualifiers, properties,
         flagsOfs := ofs, valuesOfs := u32 (ofs + flagBytes properties.length) }

/-- The default value of one property: left zero when flagged `EMPTY`. -/
def pullDefault (valuesOfs : Nat) (r : WbemProperty O × Nat) : Pull (Cimvar O) :=
  if hasFlag r.2 defaultFlagEmpty then pure .unset
  else do
    let raw ← pullValueScalars valuesOfs r.1
    pullCimvarBuffers charset obj raw

/-- `NDR_BUFFERS` of `ndr_pull_WbemClass`. -/
def pullClassBuffers (r : RawClass) : Pull (WbemClass O) := do
  let className ← follow r.className (ndrPullCimstring charset)
  let qualifiers ← pullQualifiersBuffers charset obj r.qualifiers
  let properties ← Pull.each (pullPropertyBuffers charset obj) r.properties
  let defaultFlags ← pullFlags r.flagsOfs properties
  let defaultValues ← Pull.each (pullDefault charset obj r.valuesOfs) (properties.zip defaultFlags)
  pure { u0 := r.u0, className, dataSize := r.dataSize, derivation := r.derivation,
         qualifiers, properties, defaultFlags, defaultValues }

/-! ## Instances -/

/-- An instance after `NDR_SCALARS`. -/
structure RawInstance where
  u1 : Nat
  className : Option Nat
  defaultFlags : List Nat
  data : List RawVar
  u2 : Nat
  u3 : Nat

/-- The flags and the scalars of the values of an instance. -/
def pullInstanceArea (cls : WbemClass O) (ofs : Nat) : Pull (List Nat × List RawVar) := do
  allocArea cls.properties.length
  let flags ← pullFlags ofs cls.properties
  let data ← Pull.each (pullValueScalars (u32 (ofs + flagBytes cls.properties.length)))
    cls.properties
  pure (flags, data)

/-- `NDR_SCALARS` of `ndr_pull_WbemInstance_priv`. -/
def pullInstanceScalars : Pull RawInstance :=
  match cls with
  | none => Pull.fail .noSuchFile
  | some cls => do
      let u1 ← pullUint8
      let className ← pullPtrFf
      let area ← valueArea cls.dataSize (pullInstanceArea cls)
      let u2 ← pullUint32
      let u3 ← pullUint8
      pure { u1, className, defaultFlags := area.1, data := area.2, u2, u3 }

/-- `NDR_BUFFERS` of `ndr_pull_WbemInstance_priv`. -/
def pullInstanceBuffers (r : RawInstance) : Pull (WbemInstance O) := do
  let className ← follow r.className (ndrPullCimstring charset)
  let data ← Pull.each (pullCimvarBuffers charset obj) r.data
  pure { u1 := r.u1, className, defaultFlags := r.defaultFlags, data, u2 := r.u2, u3 := r.u3 }

/-! ## Methods -/

/-- A method after `NDR_SCALARS`. -/
structure RawMethod where
  name : Option Nat
  u0 : Nat
  u1 : Nat
  qualifiers : Option Nat
  inObject : Option Nat
  outObject : Option Nat

/-- `NDR_SCALARS` of `ndr_pull_WbemMethod`. -/
def pullMethodScalars : Pull RawMethod := do
  pullAlign
  let name ← pullPtrFf
  let u0 ← pullUint32
  let u1 ← pullUint32
  let qualifiers ← pullPtr
  let inObject ← pullPtr
  let outObject ← pullPtr
  pure { name, u0, u1, qualifiers, inObject, outObject }

/-- The qualifiers of a method, on the heap: both phases in place. -/
def pullMethodQualifiers : Pull (List (Option (WbemQualifier O))) := do
  let raw ← pullQualifiersScalars
  pullQualifiersBuffers charset obj raw

/-- `NDR_BUFFERS` of `ndr_pull_WbemMethod`. -/
def pullMethodBuffers (r : RawMethod) : Pull (WbemMethod O) := do
  let name ← follow r.name (ndrPullCimstring charset)
  let qualifiers ← follow r.qualifiers (pullMethodQualifiers charset obj)
  let inObject ← pullEmbedded obj r.inObject
  let outObject ← pullEmbedded obj r.outObject
  pure { name, u0 := r.u0, u1 := r.u1, qualifiers, inObject, outObject }

/-- The methods of a class after `NDR_SCALARS`. -/
structure RawMethods where
  u0 : Nat
  method : List RawMethod

/-- `NDR_SCALARS` of `ndr_pull_WbemMethods`. -/
def pullMethodsScalars : Pull RawMethods := do
  pullAlign
  let count ← pullUint16
  let u0 ← pullUint16
  let method ← Pull.times pullMethodScalars count
  pure { u0, method }

/-- `NDR_BUFFERS` of `ndr_pull_WbemMethods`. -/
def pullMethodsBuffers (r : RawMethods) : Pull (WbemMethods O) := do
  let method ← Pull.each (pullMethodBuffers charset obj) r.method
  pure { u0 := r.u0, method }

/-! ## Sections and objects -/

/-- The second half of `ndr_pull_DataWithStack`: the heap of a section. -/
def pullStack {R α : Type} (buffers : R → Pull α) (raw : R) : Pull α := do
  let ssize ← pullUint32
  if ssize < 0x80000000 then Pull.fail .invalidParameter
  else do
    needBytes (ssize - 0x80000000)
    Pull.within (fun v off => { v with size := u32 (off + (ssize - 0x80000000)), base := off })
      (buffers raw)

/-- `ndr_pull_DataWithStack`: a size, the scalars, the size of the heap with bit 31
set, and the heap. Inside, `data_size` is the end of the section. -/
def ndrPullDataWithStack {R α : Type} (scalars : Pull R) (buffers : R → Pull α) : Pull α :=
  Pull.withOffset fun start => do
    let size ← pullUint32
    needBytes (u32Sub size 4)
    let a ← Pull.within (fun v _ => { v with size := u32 (start + size) }) (do
      let raw ← scalars
      pullStack buffers raw)
    Pull.seek (u32 (start + size))
    pure a

def pullClassSection : Pull (WbemClass O) :=
  ndrPullDataWithStack (pullClassScalars charset) (pullClassBuffers charset obj)

def pullMethodsSection : Pull (WbemMethods O) :=
  ndrPullDataWithStack pullMethodsScalars (pullMethodsBuffers charset obj)

/-- An instance in its section, given the class of the object. -/
def pullInstanceSection : Pull (WbemInstance O) :=
  ndrPullDataWithStack (pullInstanceScalars cls) (pullInstanceBuffers charset obj)

/-- `ndr_pull_WbemClassObject`, given the pull of the objects inside it. -/
def pullClassObject : Pull (ClassObject O) := do
  let flags ← pullUint8
  let server ← onFlag (hasFlag flags wcfClass) (ndrPullCimstring charset)
  let namesp ← onFlag (hasFlag flags wcfClass) (ndrPullCimstring charset)
  let supClass ← onFlag (hasFlag flags wcfDecorations) (pullClassSection charset obj)
  let supMethods ← onFlag (hasFlag flags wcfDecorations) (pullMethodsSection charset obj)
  let objClass ← onFlag (hasFlag flags (wcfClass + wcfInstance)) (pullClassSection charset obj)
  let objMethods ← onFlag (hasFlag flags wcfDecorations) (pullMethodsSection charset obj)
  let inst ← onFlag (hasFlag flags wcfInstance) (pullInstanceSection charset obj objClass)
  pure { flags, server, namesp, supClass, supMethods, objClass, objMethods, inst }

/-- `ndr_pull_WbemClassObject_Object`: the class is the one the caller put into
`r->obj_class`. -/
def pullClassObjectObject : Pull (ClassObject O) := do
  let flags ← pullUint8
  let server ← onFlag (hasFlag flags wcfClass) (ndrPullCimstring charset)
  let namesp ← onFlag (hasFlag flags wcfClass) (ndrPullCimstring charset)
  let inst ← onFlag (hasFlag flags wcfInstance) (pullInstanceSection charset obj cls)
  pure { flags, server, namesp, objClass := cls, inst }

end Decoders

/-! ## Nesting -/

/-- The pull of an embedded object in its sub-context, with at most `depth` levels
of objects. -/
def pullObject (charset : Charset) : Nat → View → Outcome WbemClassObject
  | 0, _ => .endless
  | depth + 1, v => (pullClassObject charset (pullObject charset depth) v 0).bind
      fun r => .ok (.mk r.1)

/-- The depth of embedded objects that a view leaves room for: each of them opens
with a header of 4 bytes behind the header of the object around it. -/
def nestingRoom (v : View) : Nat := v.data.length / 4

def ndrPullWbemClassObject (charset : Charset) : Pull (ClassObject WbemClassObject) := fun v off =>
  pullClassObject charset (pullObject charset (nestingRoom v)) v off

def ndrPullWbemClassObjectObject (charset : Charset) (cls : Option (WbemClass WbemClassObject)) :
    Pull (ClassObject WbemClassObject) := fun v off =>
  pullClassObjectObject charset (pullObject charset (nestingRoom v)) cls v off

end OpenvasSmb.Wbem

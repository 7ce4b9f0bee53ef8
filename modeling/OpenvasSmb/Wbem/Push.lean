import OpenvasSmb.Ndr.Flags
import OpenvasSmb.Wbem.Pull
import OpenvasSmb.Wbem.Nesting
import OpenvasSmb.Kit.Layout
import OpenvasSmb.Kit.Text

/-!
# Pushing WBEM objects (`librpc/ndr/ndr_dcom.c`)

The encoders of the object stream. Every structure is pushed in two phases, `NDR_SCALARS` and
`NDR_BUFFERS`, the two runs of its `Layout`. The push of `CIMVAR` is the one that `pidl` generates
for the IDL of `dcom_wmi.inc`.

A relative pointer is a `ref`: its slot is the one that `ndr_push_relative_ptr1` puts on
`relative_list`, under a key of its own, and `ndr_push_relative_ptr2` finds again. NULL is written
as 0, or as `0xFFFFFFFF` where the IDL has `null_is_ffffffff` or `subcontext`.

An embedded object is pushed into a buffer of its own (`Embedded`).
-/

namespace OpenvasSmb.Wbem

open Kit Ndr

/-- What became of the push of an embedded object. -/
abbrev Embedded := Except PushError Bytes

/-! ## Strings -/

section Strings

variable (charset : Charset)

/-- `ndr_push_CIMSTRING`, under the flags of an object. -/
def cimstringLayout (s : Option String) : Layout PushError :=
  .seq (.raw [0])
    (match toDosTerminated charset s with
      | none => .fail (.status .invalidParameter)
      | some bytes => .raw bytes)

/-! ## `CIMVAR` -/

/-- A `[relative]` string. -/
def stringSlot : Option String → Slot PushError
  | none => .raw (toLe 4 0)
  | some s => .ref .zeros (cimstringLayout charset (some s))

/-- An embedded object in its sub-context. -/
def subcontextLayout : Embedded → Layout PushError
  | .error e => .fail e
  | .ok bytes => .seq (.raw (toLe 4 bytes.length)) (.raw bytes)

/-- A `[subcontext(4),relative]` object. -/
def objectSlot : Option Embedded → Slot PushError
  | none => .raw placeholder
  | some o => .ref .zeros (subcontextLayout o)

/-- The arrays of `dcom_wmi.inc`: the count and the elements. -/
def arrayLayout {α : Type} (item : α → Layout PushError) (items : List α) : Layout PushError :=
  .seq (.raw (toLe 4 items.length)) (.all (items.map item))

/-- A `[relative]` array. -/
def arraySlot {α : Type} (item : α → Layout PushError) : Option (List α) → Slot PushError
  | none => .raw (toLe 4 0)
  | some items => .ref .zeros (arrayLayout item items)

/-- `ndr_push_CIMVAR`, switched on `level`. A value that was never written is zero; to read
it as something else than was stored is a fault. -/
def cimvarSlot (level : Nat) (value : Cimvar Embedded) : Slot PushError :=
  match cimKind level with
  | none => .fail (.status .invalidParameter)
  | some (.num width) =>
    match value with
    | .num v => .raw (toLe width v)
    | .unset => .raw (toLe width 0)
    | _ => .fail .fault
  | some .string =>
    match value with
    | .string s => stringSlot charset s
    | .unset => stringSlot charset none
    | _ => .fail .fault
  | some .object =>
    match value with
    | .object o => objectSlot o
    | .unset => objectSlot none
    | _ => .fail .fault
  | some (.nums width) =>
    match value with
    | .nums items => arraySlot (fun v => .raw (toLe width v)) items
    | .unset => .raw (toLe 4 0)
    | _ => .fail .fault
  | some .strings =>
    match value with
    | .strings items => arraySlot (fun s => (stringSlot charset s).layout) items
    | .unset => .raw (toLe 4 0)
    | _ => .fail .fault
  | some .objects =>
    match value with
    | .objects items => arraySlot (fun o => (objectSlot o).layout) items
    | .unset => .raw (toLe 4 0)
    | _ => .fail .fault

/-! ## Qualifiers -/

/-- `atoi`: a `long` put into an `int`. -/
def atoi (s : List Char) : Int := (strtol s).1.bmod (2 ^ 32)

/-- `sizeof(qn_unknown) - 1`: `qn_unknown` is a pointer. -/
def qnUnknownSize : Nat := 7

/-- The number that stands for a name, if it is not negative. -/
def qualifierIndex (name : String) : Int :=
  match (List.range qualifierKeysSize).find? fun i => qualifierKeys i == some name with
  | some i => i
  | none =>
    if qnUnknown.toList.take qnUnknownSize = name.toList.take qnUnknownSize then
      atoi (name.toList.drop qnUnknownSize)
    else -1

/-- The name of a qualifier: the slot gets a number with bit 31 set, or leads to the name on
the heap. -/
def qualifierNameLayout : Option String → Layout PushError
  | none => .raw (toLe 4 0)
  | some name =>
    if 0 ≤ qualifierIndex name then .mark (0x80000000 ||| (qualifierIndex name).toNat)
    else .ref .ones (cimstringLayout charset (some name))

def ndrPushWbemQualifier (q : WbemQualifier Embedded) : Layout PushError :=
  .all [qualifierNameLayout charset q.name, .raw (toLe 1 q.flavors), .raw (toLe 4 q.cimtype),
    (cimvarSlot charset (cimLevel q.cimtype) q.value).layout]

end Strings

end OpenvasSmb.Wbem

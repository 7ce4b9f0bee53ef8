import OpenvasSmb.Wbem.Access

/-!
# Registry values over WMI (`wmi/wmireg.c`)

Each function calls one method of the class `StdRegProv` on the server: it fetches the class,
spawns an object for the parameters, puts the hive, the key and the name of the value into it,
executes the method, and reads the value out of the object that comes back. The server is a
parameter (`Provider`).

The value is read into the variable `v` that the parameters were put from, and whether there is
one is told from the contents of `v`, not from the status of the lookup.
-/

namespace OpenvasSmb.Wmi

open Wbem

/-- The answers of the server: `IWbemServices_GetObject` and `IWbemServices_ExecMethod`. A
successful answer may still be NULL. -/
structure Provider where
  getObject : String → Werror × Option Object
  execMethod : String → String → Object → Werror × Option Object

/-- What a member of the union reads that is not the one stored: a number, and the string at the
address (`none` if that is no string). -/
structure Puns where
  number : Nat → CimUnion → Nat
  text : CimUnion → Option (Option String)

variable (P : Puns) (v : CimUnion)

/-- `v.v_string`. -/
def Puns.readString : Option (Option String) :=
  match v.kind, v.value with
  | some .string, .string s => some s
  | _, _ => P.text v

/-- `v.v_uint32` and `v.v_uint64`, by their number of bytes. All bytes of a NULL pointer
are zero. -/
def Puns.readNumber (width : Nat) (v : CimUnion) : Nat :=
  match v.kind, v.value with
  | some (.num w), .num n => if w = width then n % 2 ^ (8 * width) else P.number width v
  | some .string, .string none => 0
  | _, _ => P.number width v

/-- `"%x"`. -/
def percentx (n : Nat) : String := .ofList (Nat.toDigits 16 n)

/-- `"%0X"`. -/
def percentX (n : Nat) : String := .ofList ((Nat.toDigits 16 n).map Char.toUpper)

/-- The arguments of the functions that get a value. -/
structure ValueQuery where
  hive : UInt32
  key : Option String
  valName : Option String

/-- The hive that is asked for, or `HKEY_LOCAL_MACHINE`. -/
def ValueQuery.defKey (q : ValueQuery) : Nat :=
  if q.hive ≠ 0 then q.hive.toNat else 0x80000002

/-- Everything up to `ExecMethod`: the object that the method returned. -/
def execRegMethod (S : Provider) (method : String) (q : ValueQuery) : Call Object := do
  Call.check (S.getObject "StdRegProv").1
  let wco ← Call.deref (S.getObject "StdRegProv").2
  let inc ← Call.deref (← iWbemClassObjectGetMethod wco method)
  let params ← iWbemClassObjectSpawnInstance inc
  let params ← Call.checked (iWbemClassObjectPut params "hDefKey" (.ofUint32 q.defKey) 0)
  let params ← Call.checked (iWbemClassObjectPut params "sSubKeyName" (.ofString q.key) 0)
  let params ← Call.checked (iWbemClassObjectPut params "sValueName" (.ofString q.valName) 0)
  Call.check (S.execMethod "StdRegProv" method params).1
  Call.deref (S.execMethod "StdRegProv" method params).2

/-- What the functions have in common: `v` is what the variable holds before the lookup, and
`report` the text that `*res` is set to, if it is set. -/
def getRegValue (S : Provider) (hasCtx : Bool) (method property : String) (q : ValueQuery)
    (v : CimUnion) (report : CimUnion → Option (Option String)) (res : Option String) :
    Option (Int × Option String) :=
  if hasCtx = false then some (-1, res)
  else
    match (execRegMethod S method q).run with
    | none => none
    | some (.error _) => some (-1, res)
    | some (.ok out) => do
        -- the status of the lookup is not looked at
        let (_, v) ← wbemClassObjectGet out property v
        let text ← report v
        return (0, text.or res)

/-- `if (v.v_string) *res = talloc_asprintf("%s", v.v_string)`. -/
def reportString : Option (Option String) := P.readString v

/-- `if (v.v_uint32) *res = talloc_asprintf("%0X", v.v_uint32)`. -/
def reportDword : Option (Option String) :=
  let n := P.readNumber 4 v
  some (if n ≠ 0 then some (percentX n) else none)

/-- `if (v.v_uint64) *res = talloc_asprintf("%" PRIx64, v.v_uint64)`. -/
def reportQword : Option (Option String) :=
  let n := P.readNumber 8 v
  some (if n ≠ 0 then some (percentx n) else none)

/-- `v.a_uint8`; `array` is what the other members of the union are taken for. All bytes of a
NULL pointer are zero. -/
def readBytes (array : CimUnion → Option (Option (List Nat))) (v : CimUnion) :
    Option (Option (List Nat)) :=
  match v.kind, v.value with
  | some (.nums 1), .nums items => some items
  | some .string, .string none => some none
  | _, _ => array v

/-- The loop `*res = talloc_asprintf_append(*res, "%0X", item[i])`. -/
def appendBytes (res : Option String) : List Nat → Option String
  | [] => res
  | item :: items => appendBytes (some (res.getD "" ++ percentX (item % 256))) items

/-- `if (v.a_uint8)` and the loop in it. -/
def reportBytes (res : Option String) (items : Option (List Nat)) : Option String :=
  match items with
  | none => res
  | some items => appendBytes res items

/-- `wmi_reg_get_bin_val`. Unlike the other functions it returns 1 if a call fails, and adds to
what `*res` is already. -/
def wmiRegGetBinVal (S : Provider) (array : CimUnion → Option (Option (List Nat))) (hasCtx : Bool)
    (q : ValueQuery) (res : Option String) : Option (Int × Option String) :=
  if hasCtx = false then some (-1, res)
  else
    match (execRegMethod S "GetBinaryValue" q).run with
    | none => none
    | some (.error _) => some (1, res)
    | some (.ok out) => do
        let (_, v) ← wbemClassObjectGet out "uValue" (.ofString none)
        let items ← readBytes array v
        return (0, reportBytes res items)

section Functions

variable (S : Provider) (P : Puns) (hasCtx : Bool) (q : ValueQuery) (res : Option String)

/-- `wmi_reg_get_sz`. The variable still holds the name of the value. -/
def wmiRegGetSz : Option (Int × Option String) :=
  getRegValue S hasCtx "GetStringValue" "sValue" q (.ofString q.valName) (reportString P) res

def wmiRegGetExStringVal : Option (Int × Option String) :=
  getRegValue S hasCtx "GetExpandedStringValue" "sValue" q (.ofString none) (reportString P) res

def wmiRegGetDwordVal : Option (Int × Option String) :=
  getRegValue S hasCtx "GetDWORDValue" "uValue" q (.ofString none) (reportDword P) res

def wmiRegGetQwordVal : Option (Int × Option String) :=
  getRegValue S hasCtx "GetQWORDValue" "uValue" q (.ofString none) (reportQword P) res

end Functions

end OpenvasSmb.Wmi

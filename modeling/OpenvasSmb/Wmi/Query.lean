import Mathlib.Data.List.SplitBy
import OpenvasSmb.Wbem.Types

/-!
# Query results as text (`wmi/wmicso.c`, `wmi/wmirsop.c`)

`wmiQuery` runs a query and prints the objects that `SmartNext` hands out, batch after batch: a
header line with the property names whenever the class name changes, then one line for each
object.

Each `Batch` is one call's status with the objects of that call, and `*puReturned` is their
number. A run that follows a NULL pointer, or has used up the given batches and would ask for
another one, has no result (`none`).
-/

namespace OpenvasSmb.Wmi

open Wbem

variable {O : Type} (errText : Werror → String) (cls : WbemClass O)

/-- What `printf` writes for a NULL string. -/
def nullText : String := "(null)"

/-- `"%s"`. -/
def percentS (s : Option String) : String := s.getD nullText

/-- The value of a `width`-byte signed integer. -/
def signedValue (width v : Nat) : Int := Int.bmod v (2 ^ (8 * width))

/-- `string_CIMVAR`. The inner `none` is a NULL result; the outer one a pointer
read from a union that holds something else. -/
def stringCimvar (v : Cimvar O) (cimtype : Nat) : Option (Option String) :=
  let number (f : Nat → String) : Option (Option String) :=
    match v with
    | .num n => some (some (f n))
    | _ => none
  if cimtype = cimSint8 then number fun n => toString (signedValue 1 n)
  else if cimtype = cimUint8 then number fun n => toString (n % 2 ^ 8)
  else if cimtype = cimSint16 then number fun n => toString (signedValue 2 n)
  else if cimtype = cimUint16 then number fun n => toString (n % 2 ^ 16)
  else if cimtype = cimSint32 then number fun n => toString (signedValue 4 n)
  else if cimtype = cimUint32 then number fun n => toString (n % 2 ^ 32)
  else if cimtype = cimSint64 then number fun n => toString (signedValue 8 n)
  else if cimtype = cimUint64 then number fun n => toString (n % 2 ^ 64)
  else if cimtype = cimReal32 ∨ cimtype = cimReal64 then some (some "Unsupported")
  else if cimtype = cimBoolean then
    number fun n => if n % 2 ^ 16 ≠ 0 then "True" else "False"
  else if cimtype = cimString ∨ cimtype = cimDatetime ∨ cimtype = cimReference then
    match v with
    | .string s => some (some (percentS s))
    | _ => none
  else if cimtype = cimArrString then
    match v with
    | .strings none => some none
    | .strings (some []) => some none
    | .strings (some items) => some (some ("|".intercalate (items.map percentS)))
    | _ => none
  else some (some "Unsupported")

/-! ## One object -/

def headerLine : String :=
  "|".intercalate (cls.properties.map fun p => percentS p.name) ++ "\n"

/-- The values of an object in the order of its class's properties; without a descriptor or a value
a pointer is NULL or wild. -/
def rowValues (o : ClassObject O) : Option (List String) :=
  cls.properties.zipIdx.mapM fun (p, j) => do
    let inst ← o.inst
    let desc ← p.desc
    let v ← inst.data[j]?
    (stringCimvar v (desc.cimtype &&& cimTypemask)).map percentS

def rowLine (o : ClassObject O) : Option String :=
  (rowValues cls o).map fun values => "|".intercalate values ++ "\n"

/-- The two variables the loops thread: `class_name` and `*res`. -/
structure Printer where
  className : Option String
  res : Option String

/-- `!class_name || strcmp(__CLASS, class_name)`. -/
def classChanges (className : Option String) (cls : WbemClass O) : Option Bool :=
  match className with
  | none => some true
  | some name => cls.className.map fun c => c ≠ name

/-- The body of the `for` loop over the objects of a batch. -/
def printObject (st : Printer) (o : ClassObject O) : Option Printer := do
  let cls ← o.objClass
  let changes ← classChanges st.className cls
  let line ← rowLine cls o
  if changes then
    -- the text so far is dropped, not extended
    some ⟨cls.className, some (headerLine cls ++ line)⟩
  else some { st with res := some (st.res.getD "" ++ line) }

/-! ## The loop over the batches -/

/-- One call of `IEnumWbemClassObject_SmartNext`. -/
structure Batch (O : Type) where
  result : Werror
  objects : List (ClassObject O)

def werrBadfunc : Werror := ⟨1⟩
def wbemEInvalidClass : Werror := ⟨0x80041010⟩

def cnt : Nat := 5

/-- The `do … while` loop with its error exit. The failure text is that of
`nt_errstr`. -/
def queryLoop (errText : Werror → String) : List (Batch O) → Printer →
    Option (Int × Option String)
  | [], _ => none
  | batch :: rest, st =>
    if batch.result ≠ werrBadfunc ∧ batch.result ≠ wbemEInvalidClass ∧
        batch.result.isOk = false then
      some (-1, some (errText batch.result))
    else if batch.objects.length = 0 then some (0, st.res)
    else do
      let st ← batch.objects.foldlM printObject st
      if batch.objects.length = cnt then queryLoop errText rest st else some (0, st.res)

/-- What both query functions compute. -/
def runQuery (hasCtx : Bool) (exec : Werror) (batches : List (Batch O))
    (res : Option String) : Option (Int × Option String) :=
  if hasCtx = false then some (-1, res)
  else if exec.isOk = false then some (-1, some (errText exec))
  else queryLoop errText batches ⟨none, res⟩

/-- `wmi_query`, from the handle's context, the status of `ExecQuery`, the batches
and the old `*res` to the result and the new `*res`. -/
def wmiQuery (hasCtx : Bool) (exec : Werror) (batches : List (Batch O))
    (res : Option String) : Option (Int × Option String) :=
  runQuery errText hasCtx exec batches res

/-- `wmi_query_rsop`: the same loop on the RSOP namespace's handle. -/
def wmiQueryRsop (hasCtx : Bool) (exec : Werror) (batches : List (Batch O))
    (res : Option String) : Option (Int × Option String) :=
  runQuery errText hasCtx exec batches res

end OpenvasSmb.Wmi

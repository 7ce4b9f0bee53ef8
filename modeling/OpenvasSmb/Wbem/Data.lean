import OpenvasSmb.Wbem.Pull
import OpenvasSmb.Kit.Machine

/-!
# The object stream of an enumerator (`wmi/wbemdata.c`)

`WBEMDATA_Parse` reads the reply of `IWbemWCOSmartEnum::Next`: a header, then one record for each
object. A `CLASSOBJECT` record brings an object with its class and enters the class in the
enumerator's cache under the GUID of the record; an `OBJECT` record brings an instance and takes
its class from the cache.

`IEnumWbemClassObject_SmartNext` is the machine `smartNext`: an input is one call with everything
the environment answers to it, an output is what the caller sees. The asynchronous legs of a call
run to completion inside the step. Statuses are kept as `NTSTATUS`; the tables behind
`ntstatus_to_werror` and `werror_to_ntstatus` only rename errors.
-/

namespace OpenvasSmb.Wbem

open Kit Ndr

/-! ## Header and records -/

/-- `NDR_CHECK_EXPR` and `NDR_CHECK_CONST`. -/
def checkExpr (holds : Bool) : Pull Unit :=
  if holds then pure () else Pull.fail .unsuccessful

/-- A `uint32_t` that must have one value. -/
def pullConst (c : Nat) : Pull Unit := do
  let u ← pullUint32
  checkExpr (u = c)

/-- A `uint32_t` length; that many bytes and `more` must follow. -/
def pullLength (more : Nat) : Pull Nat := do
  let u ← pullUint32
  needBytes (u32 (u + more))
  pure u

/-- The header of `WBEMDATA_Parse`, up to the first record. -/
def pullWbemdataHeader (uCount : Nat) : Pull Unit := do
  pullConst 0
  pullConst 0x4D454257 -- "WBEM"
  pullConst 0x41544144 -- "DATA"
  pullConst 0x1A
  let _ ← pullLength 6
  pullConst 0
  let major ← pullUint8
  checkExpr (major = 1)
  let minor ← pullUint8
  checkExpr (minor ≤ 1)
  pullConst 8
  let _ ← pullLength 0
  pullConst 0xC
  let _ ← pullLength 4
  pullConst uCount

abbrev Guid := Bytes

/-- The two supported values of `datatype`. -/
inductive Datatype where
  | classObject
  | object
  deriving DecidableEq

/-- `DATATYPE_CLASSOBJECT` and `DATATYPE_OBJECT`. -/
def datatypeOf (datatype : Nat) : Option Datatype :=
  if datatype = 2 then some .classObject
  else if datatype = 3 then some .object
  else none

structure RecordHeader where
  datatype : Nat
  guid : Guid
  /-- `ofs_next`. -/
  next : Nat

def ndrPullGuid : Pull Guid := do
  pullAlign
  needBytes 16
  takeBytes 16

def pullRecordHeader : Pull RecordHeader := do
  pullConst 9
  let u ← pullLength 1
  let datatype ← pullUint8
  let off ← Pull.offset
  pullConst 0x18
  let _ ← pullLength 16
  let guid ← ndrPullGuid
  pure { datatype, guid, next := u32 (off + u) }

/-! ## `WBEMDATA_Parse` -/

/-- `struct pair_guid_ptr`. -/
structure PairGuidPtr where
  guid : Guid
  ptr : Option (WbemClass WbemClassObject)

/-- `get_ptr_by_guid`: the first entry; NULL without one. -/
def getPtrByGuid : List PairGuidPtr → Guid → Option (WbemClass WbemClassObject)
  | [], _ => none
  | e :: list, uuid => if e.guid = uuid then e.ptr else getPtrByGuid list uuid

structure Record where
  datatype : Datatype
  guid : Guid
  object : ClassObject WbemClassObject

/-- What `WBEMDATA_Parse` leaves behind, also when it fails on the way. -/
structure Parsed where
  /-- The records decoded so far; their objects are `apObjects[0]`, …. -/
  records : List Record := []
  /-- How many entries of `apObjects` were written. The entry of a record is
  written (with a zeroed object) before the record is decoded. -/
  slots : Nat := 0
  cache : List PairGuidPtr

/-- The indices of `apObjects` that were written. -/
def Parsed.written (p : Parsed) : List Nat := List.range p.slots

variable (charset : Charset)

def pullRecordObject (cache : List PairGuidPtr) (datatype : Datatype)
    (guid : Guid) : Pull (ClassObject WbemClassObject) :=
  match datatype with
  | .classObject => ndrPullWbemClassObject charset
  | .object => ndrPullWbemClassObjectObject charset (getPtrByGuid cache guid)

/-- A decoded record: a `CLASSOBJECT` adds its class at the head of the cache
(`add_pair_guid_ptr`). -/
def Parsed.add (p : Parsed) (r : Record) : Parsed where
  records := p.records ++ [r]
  slots := p.slots
  cache := match r.datatype with
    | .classObject => ⟨r.guid, r.object.objClass⟩ :: p.cache
    | .object => p.cache

/-- The loop of `WBEMDATA_Parse` over the remaining records. -/
def parseRecords (charset : Charset) (v : View) : Nat → Nat → Parsed → Parsed × Outcome Unit
  | 0, _, p => (p, .ok ())
  | n + 1, off, p =>
    match pullRecordHeader v off with
    | .ok (header, off') =>
      match datatypeOf header.datatype with
      | none => (p, .error .notSupported)
      | some datatype =>
        -- apObjects[i] = talloc_zero(…)
        let p := { p with slots := p.slots + 1 }
        match pullRecordObject charset p.cache datatype header.guid v off' with
        | .ok (object, _) =>
          parseRecords charset v n header.next (p.add ⟨datatype, header.guid, object⟩)
        | failed => (p, failed.void)
    | failed => (p, failed.void)

def wbemdataParse (data : Bytes) (size : Nat) (cache : List PairGuidPtr)
    (uCount : Nat) : Parsed × Outcome Unit :=
  let v : View := { data, size }
  if uCount = 0 then ({ cache }, .error .notImplemented)
  else
    match pullWbemdataHeader uCount v 0 with
    | .ok (_, off) => parseRecords charset v uCount off { cache }
    | failed => ({ cache }, failed.void)

/-! ## `IEnumWbemClassObject_SmartNext` -/

/-- `struct IEnumWbemClassObject_data`; `uReturned`, `size` and `pData` only from one leg of a call
to the next. -/
structure EnumData where
  hasSE : Bool
  cache : List PairGuidPtr
  lTimeout : Nat
  uCount : Nat

/-- An enumerator: `d->object_data`, and whether an access without a defined
meaning ended the program. -/
structure Enumerator where
  objectData : Option EnumData := none
  crashed : Bool := false
  /-- A ghost: every record decoded on the enumerator, oldest first. -/
  history : List Record := []

/-- The results of `IWbemWCOSmartEnum_Next_recv`. -/
structure NextReply where
  result : Werror
  uReturned : Nat
  size : Nat
  pData : Option Bytes

/-- `WBEM_NO_ERROR`, `WBEM_S_FALSE` and `WBEM_S_TIMEDOUT`. -/
def NextReply.accepted (r : NextReply) : Bool :=
  r.result.v == 0 || r.result.v == 1 || r.result.v == 0x40004

/-- A call, with what the environment answers to its legs. -/
structure SmartNextCall where
  lTimeout : Nat
  uCount : Nat
  /-- `dcom_query_interface_recv`, on the first call. -/
  queryInterface : NtStatus := .ok
  /-- `IWbemFetchSmartEnum_Fetch_recv`, on the first call. -/
  fetch : Werror := .ok
  reply : NextReply

structure SmartNextResult where
  /-- The timeout and the count sent with `IWbemWCOSmartEnum::Next`, if it was
  called. -/
  requested : Option (Nat × Nat)
  /-- The writes to `apObjects`. -/
  written : List Nat
  /-- The decoded records, in the order of `apObjects`. -/
  records : List Record
  puReturned : Nat
  status : Outcome Unit

def SmartNextResult.nothing (requested : Option (Nat × Nat)) (status : Outcome Unit) : SmartNextResult :=
  { requested, written := [], records := [], puReturned := 0, status }

/-- `IEnumWbemClassObject_SmartNext_recv` on the data of a reply. -/
def smartNextParse (d : Enumerator) (s : EnumData) (reply : NextReply)
    (data : Bytes) : SmartNextResult × Enumerator :=
  let parsed := wbemdataParse charset data reply.size s.cache reply.uReturned
  ({ requested := some (s.lTimeout, s.uCount)
     written := parsed.1.written
     records := parsed.1.records
     puReturned := if parsed.2 = .ok () then reply.uReturned else 0
     status := parsed.2 },
   { objectData := some { s with cache := parsed.1.cache }
     crashed := parsed.2 = .fault
     history := d.history ++ parsed.1.records })

/-- `smart_next_enum_continue` and `IEnumWbemClassObject_SmartNext_recv`. -/
def smartNextRecv (d : Enumerator) (s : EnumData) (reply : NextReply) :
    SmartNextResult × Enumerator :=
  if reply.accepted then
    match reply.pData with
    | none => (.nothing (some (s.lTimeout, s.uCount)) (.ok ()), { d with objectData := some s })
    | some data => smartNextParse charset d s reply data
  else
    (.nothing (some (s.lTimeout, s.uCount)) (.error .unsuccessful),
     { d with objectData := some s })

/-- `IEnumWbemClassObject_SmartNext_send` and the legs after it. A later call goes out with the
timeout and the count of the first; without an earlier fetch it is sent through NULL. -/
def smartNextStep (d : Enumerator) (call : SmartNextCall) :
    Option (SmartNextResult × Enumerator) :=
  if d.crashed then none
  else
    match d.objectData with
    | none =>
      let s : EnumData :=
        { hasSE := false, cache := [], lTimeout := call.lTimeout, uCount := call.uCount }
      if !call.queryInterface.isOk then
        some (.nothing none (.error call.queryInterface), { d with objectData := some s })
      else if !call.fetch.isOk then
        some (.nothing none (.error .unsuccessful), { d with objectData := some s })
      else some (smartNextRecv charset d { s with hasSE := true } call.reply)
    | some s =>
      if s.hasSE then some (smartNextRecv charset d s call.reply) else none

def smartNext : Machine Enumerator SmartNextCall SmartNextResult where
  step := smartNextStep charset

end OpenvasSmb.Wbem

import OpenvasSmb.Dcom.Interfaces

/-!
# The legs of `SmartNext` (`wmi/wbemdata.c`)

The first call of `IEnumWbemClassObject_SmartNext` on an enumerator sets it up: it asks for the
`IWbemFetchSmartEnum` interface, fetches an `IWbemWCOSmartEnum` from it, and keeps both in
`d->object_data`; this call and every later one then sends `Next` to the latter. The record is
there from the first call on, also if the set-up fails.

`smartEnum` is the machine of these legs. An input is one call with what the server answers; an
output is the requests that were sent and how the call ended. A request through a NULL interface,
or one without a vtable, ends the program. What `Next` returns is the matter of `Wbem.smartNext`.
-/

namespace OpenvasSmb.Wbem

open Kit Dcom

/-- `COM_IWBEMFETCHSMARTENUM_UUID`. -/
def iidIWbemFetchSmartEnum : Dcom.Guid := 0x1c1c45ee439511d2b60b00104b703efd

/-- The interfaces in `struct IEnumWbemClassObject_data`. -/
structure SmartEnumData where
  pFSE : Option IUnknown
  pSE : Option IUnknown

/-- An enumerator: `d->object_data`, and whether the program has ended. -/
structure SmartEnumerator where
  objectData : Option SmartEnumData := none
  crashed : Bool := false
  /-- A ghost: what the last successful `Fetch` returned. -/
  fetched : Option (Option IUnknown) := none

/-- A call: the exporter of the enumerator, and the answers to the legs. -/
structure SmartEnumCall where
  exporter : Option ObjectExporter
  query : QueryReply
  /-- `IWbemFetchSmartEnum_Fetch_recv`. -/
  fetch : Werror × Option IUnknown
  /-- Whether `IWbemWCOSmartEnum_Next_recv` is a success. -/
  next : Bool

inductive SmartEnumRequest
  | queryInterface
  | fetch (on : Option IUnknown)
  | next (on : Option IUnknown)
  deriving DecidableEq

/-- How a call ends. -/
inductive SmartEnumEnd
  | done
  | error
  | crashed
  deriving DecidableEq

structure SmartEnumResult where
  sent : List SmartEnumRequest
  ends : SmartEnumEnd
  deriving DecidableEq

variable (R : Registry) (d : SmartEnumerator)

/-- An interface through which a request can be sent. -/
def callable (p : Option IUnknown) : Bool := (p.bind IUnknown.vtable).isSome

/-- `IWbemWCOSmartEnum_Next_send` and `smart_next_enum_continue`. -/
def nextLeg (s : SmartEnumData) (call : SmartEnumCall)
    (sent : List SmartEnumRequest) : SmartEnumResult × SmartEnumerator :=
  if callable s.pSE then
    (⟨sent ++ [.next s.pSE], if call.next then .done else .error⟩, { d with objectData := some s })
  else
    (⟨sent ++ [.next s.pSE], .crashed⟩, { d with objectData := some s, crashed := true })

/-- The end of `smart_next_query_interface_continue`, and `smart_next_fetch_enum_continue`. -/
def fetchLeg (s : SmartEnumData) (call : SmartEnumCall) :
    SmartEnumResult × SmartEnumerator :=
  if callable s.pFSE then
    if call.fetch.1.isOk then
      nextLeg { d with fetched := some call.fetch.2 } { s with pSE := call.fetch.2 } call
        [.queryInterface, .fetch s.pFSE]
    else (⟨[.queryInterface, .fetch s.pFSE], .error⟩, { d with objectData := some s })
  else
    (⟨[.queryInterface, .fetch s.pFSE], .crashed⟩,
      { d with objectData := some s, crashed := true })

def setUpLegs (call : SmartEnumCall) :
    SmartEnumResult × SmartEnumerator :=
  match dcomQueryInterface R call.exporter [iidIWbemFetchSmartEnum] call.query with
  | none =>
    (⟨[.queryInterface], .crashed⟩, { d with objectData := some ⟨none, none⟩, crashed := true })
  | some (status, interfaces) =>
    if status.isOk then fetchLeg d ⟨interfaces[0]?.join, none⟩ call
    else (⟨[.queryInterface], .error⟩, { d with objectData := some ⟨none, none⟩ })

/-- `IEnumWbemClassObject_SmartNext_send` and the legs after it. -/
def smartEnumStep (call : SmartEnumCall) :
    Option (SmartEnumResult × SmartEnumerator) :=
  if d.crashed then none
  else
    match d.objectData with
    | none => some (setUpLegs R d call)
    | some s => some (nextLeg d s call [])

def smartEnum : Machine SmartEnumerator SmartEnumCall SmartEnumResult where
  step := smartEnumStep R

end OpenvasSmb.Wbem

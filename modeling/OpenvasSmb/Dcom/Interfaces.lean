import OpenvasSmb.Dcom.Pipe

/-!
# Interface pointers from a server

`lib/com/dcom/main.c`: how a marshalled reference (`OBJREF`) becomes an interface pointer, and the
operations that ask a server for interfaces: `dcom_activate` with `remote_activation_complete`,
and `dcom_query_interface` with `query_interface_continue`. `wbem_connect_server_continue` of
`wmi/wmicore.c` uses the first interface of an activation.

In a reply the references are of the four known kinds, and pointers may be NULL; following one
that is not there is `none`. What is registered in `tables.c` is a parameter; a proxy vtable is
its interface id. Of an activation, everything before the reply is in its status.
-/

namespace OpenvasSmb.Dcom

/-- `STDOBJREF`. -/
structure Stdobjref where
  oxid : UInt64
  ipid : Guid
  deriving DecidableEq

/-- `union OBJREF_Types`, by the `flags` that select a member. -/
inductive ObjrefTypes
  | null
  | standard (std : Stdobjref)
  | handler (std : Stdobjref) (clsid : Guid)
  | custom (clsid : Guid) (pData : Bytes)
  deriving DecidableEq

/-- `OBJREF`. -/
structure Objref where
  iid : Guid
  objref : ObjrefTypes
  deriving DecidableEq

/-- `struct IUnknown`. -/
structure IUnknown where
  obj : Objref
  vtable : Option Guid
  deriving DecidableEq

/-- What is registered; the error tables of `errormap.c` make no error a success. `overlay` is what
`u_custom.clsid` reads where `u_standard.std` was stored. -/
structure Registry where
  proxies : List Guid
  unmarshal : Guid → Option (Objref → IUnknown → NtStatus × Option IUnknown)
  overlay : Stdobjref → Guid
  werrorToNtstatus : Werror → NtStatus
  ntstatusToWerror : NtStatus → Werror
  werror_isOk : ∀ w, (werrorToNtstatus w).isOk = w.isOk
  ntstatus_isOk : ∀ s, (ntstatusToWerror s).isOk = s.isOk

/-- `dcom_proxy_vtable_by_iid`. -/
def Registry.proxyVtableByIid (R : Registry) (iid : Guid) : Option Guid :=
  R.proxies.find? fun proxy => proxy == iid

/-- `dcom_IUnknown_from_OBJREF` into a pointer that is NULL: the status and the pointer. -/
def dcomIUnknownFromObjref (R : Registry) (o : Objref) : NtStatus × Option IUnknown :=
  match o.objref with
  | .null => (.ok, none)
  | .standard _ =>
    match R.proxyVtableByIid o.iid with
    | none => (.notSupported, none)
    | some vtable => (.ok, some ⟨o, some vtable⟩)
  | .handler _ _ => (.notSupported, some ⟨o, none⟩)
  | .custom clsid _ =>
    match R.unmarshal clsid with
    | none => (.notSupported, some ⟨o, none⟩)
    | some unmarshal => unmarshal o ⟨o, none⟩

/-! ## Object exporters -/

/-- `struct IRemUnknown` of an exporter: a copy of an interface with the `ipid` set. -/
structure RemUnknown where
  template : IUnknown
  ipid : Guid
  vtable : Option Guid
  deriving DecidableEq

/-- `struct dcom_object_exporter`. -/
structure ObjectExporter where
  oxid : UInt64
  remUnknown : Option RemUnknown
  deriving DecidableEq

def objectExporterByOxid (exporters : List ObjectExporter) (oxid : UInt64) : Option ObjectExporter :=
  exporters.find? fun ox => ox.oxid == oxid

/-- The first exporter with the id gets a new `rem_unknown`. -/
def replaceRemUnknown (oxid : UInt64) (ru : RemUnknown) :
    List ObjectExporter → List ObjectExporter
  | [] => []
  | ox :: exporters =>
    if ox.oxid = oxid then { ox with remUnknown := some ru } :: exporters
    else ox :: replaceRemUnknown oxid ru exporters

/-- The exporters after an activation: an exporter that is not known yet was added in front
(`object_exporter_update_oxid`). -/
def setRemUnknown (oxid : UInt64) (ru : RemUnknown) (exporters : List ObjectExporter) :
    List ObjectExporter :=
  match objectExporterByOxid exporters oxid with
  | none => ⟨oxid, some ru⟩ :: exporters
  | some _ => replaceRemUnknown oxid ru exporters

/-! ## Activation -/

/-- `COM_IREMUNKNOWN_UUID`. -/
def iidIRemUnknown : Guid := 0x0000013100000000C000000000000046

/-- The status of a RemoteActivation request and, if it was answered, what `RemoteActivation`
returned: interfaces with their results. -/
structure ActivationReply where
  status : NtStatus
  hr : Werror
  oxid : UInt64
  hasBindings : Bool
  ipidRemUnknown : Guid
  ifaces : List (Option Objref × Werror)

/-- How `dcom_activate` ends. -/
structure Activated where
  status : NtStatus
  interfaces : List (Option IUnknown)
  exporters : List ObjectExporter

variable (R : Registry) (exporters : List ObjectExporter) (ox : Option ObjectExporter)
  (d : Stdobjref) (r : ActivationReply)

/-- The loop over the interfaces: `s->ip`, `s->coresult` (with room for one), and `ru_template`. -/
def activationInterfaces :
    List (Option Objref × Werror) → Option (List (Option IUnknown) × Werror × Option IUnknown)
  | [] => some ([], .ok, none)
  | [(iface, result)] =>
    if result.isOk then
      match iface with
      | none => none
      | some o =>
        if (dcomIUnknownFromObjref R o).1.isOk then
          some ([(dcomIUnknownFromObjref R o).2], result, (dcomIUnknownFromObjref R o).2)
        else
          some ([(dcomIUnknownFromObjref R o).2],
            R.ntstatusToWerror (dcomIUnknownFromObjref R o).1, none)
    else some ([none], result, none)
  | _ => none

/-- The `rem_unknown` that an exporter keeps: one with another `ipid` is freed. -/
def keptRemUnknown (ipid : Guid) : Option RemUnknown :=
  (ox.bind ObjectExporter.remUnknown).filter fun ru => ru.ipid == ipid

/-- A new `rem_unknown` is a copy of the template, which is not tested. -/
def newRemUnknown (template : Option IUnknown) (ipid : Guid) : Option RemUnknown :=
  template.map fun t => ⟨t, ipid, R.proxyVtableByIid iidIRemUnknown⟩

/-- `remote_activation_complete` and `dcom_activate_recv`. -/
def dcomActivate :
    Option Activated :=
  if r.status.isOk = false then some ⟨r.status, [], exporters⟩
  else if r.hr.isOk = false then some ⟨R.werrorToNtstatus r.hr, [], exporters⟩
  else do
    let (ip, coresult, template) ← activationInterfaces R r.ifaces
    let ru ← (keptRemUnknown (objectExporterByOxid exporters r.oxid) r.ipidRemUnknown).or
      (newRemUnknown R template r.ipidRemUnknown)
    -- the bindings are followed by dcom_update_credentials_for_aliases
    if r.hasBindings = false then none
    else some ⟨R.werrorToNtstatus coresult, ip, setRemUnknown r.oxid ru exporters⟩

/-- `wbem_connect_server_continue`: an error, or the interface on which NTLMLogin is called. -/
def wbemConnectServerContinue :
    Option (Except NtStatus IUnknown) := do
  let activated ← dcomActivate R exporters r
  if activated.status.isOk = false then return .error activated.status
  else
    -- the macro IWbemLevel1Login_NTLMLogin_send follows the interface and its vtable
    let login ← (activated.interfaces[0]?).join
    let _ ← login.vtable
    return .ok login

/-! ## Queries -/

/-- A reply to RemQueryInterface: the result and `rqir`. -/
structure QueryReply where
  result : Werror
  rqir : Option (List (Werror × Stdobjref))

/-- The reference that is made for an interface: that of `rem_unknown`, with another `iid` and
another `std`. -/
def RemUnknown.objref (R : Registry) (ru : RemUnknown) (iid : Guid) (std : Stdobjref) : Objref :=
  match ru.template.obj.objref with
  | .null => ⟨iid, .null⟩
  | .standard _ => ⟨iid, .standard std⟩
  | .handler _ clsid => ⟨iid, .handler std clsid⟩
  | .custom _ pData => ⟨iid, .custom (R.overlay std) pData⟩

/-- The loop of `query_interface_continue`: the result so far and `s->ips`. -/
def queryInterfaces (R : Registry) (ru : RemUnknown) :
    List Guid → List (Werror × Stdobjref) → Werror → Option (Werror × List (Option IUnknown))
  | [], _, result => some (result, [])
  | _ :: _, [], _ => none
  | iid :: iids, (hResult, std) :: rqir, result =>
    if hResult.isOk then
      let unmarshalled := dcomIUnknownFromObjref R (ru.objref R iid std)
      let result := if unmarshalled.1.isOk then result else R.ntstatusToWerror unmarshalled.1
      (queryInterfaces R ru iids rqir result).map fun r => (r.1, unmarshalled.2 :: r.2)
    else (queryInterfaces R ru iids rqir result).map fun r => (r.1, none :: r.2)

/-- `dcom_query_interface` through the `rem_unknown` of the exporter: the status and `*interfaces`.
-/
def dcomQueryInterface (iids : List Guid)
    (reply : QueryReply) : Option (NtStatus × List (Option IUnknown)) := do
  let ox ← ox
  let ru ← ox.remUnknown
  let _ ← ru.vtable
  if reply.result.isOk = false then return (R.werrorToNtstatus reply.result, [])
  else
    let (result, ips) ← queryInterfaces R ru iids (reply.rqir.getD []) reply.result
    return (R.werrorToNtstatus result, ips)

/-! ## The exporter of an interface pointer

The routines below get the `STDOBJREF` of a standard reference, and are modelled up to the
exporter and its `rem_unknown`. -/

def activation :
    Option (List ObjectExporter) :=
  (dcomActivate R exporters r).map Activated.exporters

/-- The exporters after a number of activations. -/
def activations (replies : List ActivationReply) : Option (List ObjectExporter) :=
  replies.foldlM (activation R) []

/-- `REMINTERFACEREF`. -/
structure RemInterfaceRef where
  ipid : Guid
  cPublicRefs : UInt32
  cPrivateRefs : UInt32
  deriving DecidableEq

/-- A call of `IRemUnknown`. -/
inductive RemCall
  | queryInterface (ripid : Guid) (cRefs : UInt32) (iids : List Guid)
  | release (refs : List RemInterfaceRef)
  deriving DecidableEq

/-- A send routine reports an error, goes on with the pipes of an exporter, or calls a
`rem_unknown`. -/
inductive Sent
  | error (status : NtStatus)
  | pipe (ox : ObjectExporter)
  | call (ru : RemUnknown) (call : RemCall)
  deriving DecidableEq

def objectExporterByIp : Option ObjectExporter :=
  objectExporterByOxid exporters d.oxid

def dcomGetPipeSend : Option Sent :=
  match objectExporterByOxid exporters d.oxid with
  | none => some (.error .notSupported)
  | some ox => some (.pipe ox)

/-- A call of `ox->rem_unknown`; neither pointer is tested. -/
def remUnknownSend (call : RemCall) :
    Option Sent := do
  let ox ← objectExporterByIp exporters d
  let ru ← ox.remUnknown
  return .call ru call

def dcomQueryInterfaceSend (cRefs : UInt32) (iids : List Guid) : Option Sent :=
  remUnknownSend exporters d (.queryInterface d.ipid cRefs iids)

/-- The references that a release gives back. -/
def releasedRef : RemInterfaceRef := ⟨d.ipid, 5, 0⟩

def dcomReleaseSend : Option Sent :=
  remUnknownSend exporters d (.release [releasedRef d])

/-- `dcom_proxy_IEnumWbemClassObject_Release_send`; `ecod` has `pFSE` and `pSE`. -/
def enumWbemClassObjectReleaseSend
    (ecod : Option (Option Stdobjref × Option Stdobjref)) : Option Sent :=
  let others := match ecod with
    | none => []
    | some (pFSE, pSE) => pFSE.toList ++ pSE.toList
  remUnknownSend exporters d (.release ((d :: others).map releasedRef))

end OpenvasSmb.Dcom

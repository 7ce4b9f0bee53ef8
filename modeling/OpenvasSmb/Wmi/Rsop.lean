import OpenvasSmb.Wmi.Registry

/-!
# Connecting to the RSOP service (`wmi/wmirsop.c`)

`wmi_connect_rsop` connects to `root\rsop`, creates a session with the method `RsopCreateSession`,
and connects a second time, to the namespace of the session. The union `v` holds the number that
was put as the parameter; its string member is then taken for the namespace. The second connection
stores its services in the variable of the first one, and its result is not looked at.

The server is a parameter: the outcome of a connection to a namespace, and the answers on the
services it returned (`Provider`).
-/

namespace OpenvasSmb.Wmi

open Wbem

/-- A server: `WBEM_ConnectServer` for a host and a namespace, with `*services`, and what the
services answer. -/
structure RsopServer (H : Type) where
  connect : String → String → Werror × Option H
  provider : H → Provider

/-- How the function ends: the handle, and the namespaces of the connections. -/
structure RsopOutcome (H : Type) where
  handle : Option H
  namespaces : List String
  deriving DecidableEq

def rsopNamespace : String := "root\\rsop"

/-- `v.v_uint32 = 4`. -/
def rsopFlags : CimUnion := .ofUint32 4

/-- Everything from `GetObject` up to `ExecMethod`: `out`, which may be NULL. -/
def rsopCreateSession (S : Provider) : Call (Option Object) := do
  Call.check (S.getObject "RsopLoggingModeProvider").1
  let wco ← Call.deref (S.getObject "RsopLoggingModeProvider").2
  let inc ← Call.deref (← iWbemClassObjectGetMethod wco "RsopCreateSession")
  let params ← iWbemClassObjectSpawnInstance inc
  let params ← Call.checked (iWbemClassObjectPut params "flags" rsopFlags 0)
  Call.check (S.execMethod "RsopLoggingModeProvider" "RsopCreateSession" params).1
  return (S.execMethod "RsopLoggingModeProvider" "RsopCreateSession" params).2

/-- `talloc_asprintf_append(v.v_string, "%s", "\\computer")`; a NULL string is an empty one. -/
def computerNamespace (text : Option String) : String := text.getD "" ++ "\\computer"

/-- `wmi_connect_rsop`; `args` is the host name, if the arguments can be parsed. -/
def wmiConnectRsop {H : Type} (S : RsopServer H) (P : Puns) (args : Option String) :
    Option (RsopOutcome H) :=
  match args with
  | none => some ⟨none, []⟩
  | some host =>
    if (S.connect host rsopNamespace).1.isOk = false then some ⟨none, [rsopNamespace]⟩
    else do
      let pWS ← (S.connect host rsopNamespace).2
      match ← (rsopCreateSession (S.provider pWS)).run with
      | .error _ => some ⟨none, [rsopNamespace]⟩
      | .ok _ =>
        let text ← P.readString rsopFlags
        let second := S.connect host (computerNamespace text)
        -- pWS is left alone by a connection that fails
        some ⟨if second.1.isOk then second.2 else some pWS,
          [rsopNamespace, computerNamespace text]⟩

end OpenvasSmb.Wmi

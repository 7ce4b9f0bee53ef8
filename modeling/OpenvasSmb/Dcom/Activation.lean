import OpenvasSmb.Composite.Context
import OpenvasSmb.Dcom.Interfaces

/-!
# The chain of an activation (`lib/com/dcom/main.c`)

`dcom_activate_send` and the callbacks behind it: a connection for `ServerAlive`, that call, a
connection for `RemoteActivation`, and that call. All of them end the context of
`dcom_determine_rpc_binding`, whose continuation `complete_activation` ends the context that the
caller waits for. A connection ends once, after its continuation was registered.
-/

namespace OpenvasSmb.Dcom

open Composite CompositeContext

variable {κ : Type}

/-- How the connections and the requests end. A request that is over when it was sent is never
called back (`none`). `ServerAlive` is called back with the status of `dcerpc_ndr_request_recv` and
the result of the call, `RemoteActivation` with the status of the request and the reply. -/
structure ServerBehaviour where
  connectAlive : NtStatus
  serverAlive : Option (NtStatus × Werror)
  connectActivation : NtStatus
  remoteActivation : Option (NtStatus × ActivationReply)

/-- `c->status = status; if (!composite_is_ok(c)) return; composite_done(c)`. -/
def finish (c : CompositeContext κ) (status : NtStatus) : CompositeContext κ :=
  let (ok, c) := compositeIsOk { c with status }
  if ok then compositeDone c else c

/-- The contexts of `dcom_activate_send`, of `dcom_determine_rpc_binding` and of the connections. -/
structure Chain (κ : Type) where
  activate : CompositeContext κ
  binding : CompositeContext Unit
  connects : List (CompositeContext Unit) := []

namespace Chain

variable (a : Chain κ)

def completeActivation : Chain κ :=
  { a with activate := finish a.activate a.binding.status }

/-- The context of the binding becomes `c`; its continuation is `complete_activation`. -/
def onBinding (c : CompositeContext Unit) : Chain κ :=
  Nat.repeat completeActivation (c.ran.length - a.binding.ran.length) { a with binding := c }

variable (status : NtStatus)

/-- `c->status = status; if (!composite_is_ok(c)) return;` and what follows. -/
def check (next : Chain κ → Option (Chain κ)) :
    Option (Chain κ) :=
  let (ok, c) := compositeIsOk { a.binding with status }
  if ok then next (a.onBinding c) else some (a.onBinding c)

def error : Option (Chain κ) :=
  (compositeError a.binding status).map a.onBinding

/-- `dcerpc_pipe_connect_b_send` and `composite_continue`, up to the end of the connection. -/
def connect : Chain κ :=
  { a with connects := a.connects ++ [finish (compositeContinue {} ()) status] }

section Callbacks

variable (R : Registry) (exporters : List ObjectExporter) (s : ServerBehaviour) (a : Chain κ)

def remoteActivationComplete : Option (Chain κ) :=
  match s.remoteActivation with
  | none => some a
  | some (status, r) =>
    if !status.isOk then a.error status
    else a.check r.status fun a =>
      if !r.hr.isOk then a.error (R.werrorToNtstatus r.hr)
      else do
        -- what a good reply leaves out is followed all the same
        let _ ← dcomActivate R exporters r
        some (a.onBinding (compositeDone a.binding))

def remoteActivationContinue : Option (Chain κ) :=
  a.check a.binding.status fun a =>
    a.check s.connectActivation (remoteActivationComplete R exporters s)

def determineRpcBindingContinue2 : Option (Chain κ) :=
  match s.serverAlive with
  | none => some a
  | some (recv, result) =>
    a.check recv fun a => do
      let a ← if !result.isOk then a.error (R.werrorToNtstatus result) else some a
      a.check a.binding.status fun a =>
        remoteActivationContinue R exporters s (a.connect s.connectActivation)

def determineRpcBindingContinue : Option (Chain κ) :=
  a.check s.connectAlive (determineRpcBindingContinue2 R exporters s)

end Callbacks

end Chain

open Chain

/-- `dcom_activate_send`, whose caller registers `k`, and everything behind it. `parsed` is what
becomes of the binding string; an error is followed by rounds of the event loop only. -/
def dcomActivateSend (R : Registry) (exporters : List ObjectExporter) (parsed : NtStatus)
    (s : ServerBehaviour) (k : κ) : Option (Chain κ) :=
  if !parsed.isOk then
    (compositeError {} parsed).map fun c =>
      let c := compositeContinue c ()
      onBinding ⟨compositeContinue {} k, c, []⟩ (eventLoopOnce (eventLoopOnce c))
  else
    determineRpcBindingContinue R exporters s
      (connect ⟨compositeContinue {} k, compositeContinue {} (), []⟩ s.connectAlive)

end OpenvasSmb.Dcom

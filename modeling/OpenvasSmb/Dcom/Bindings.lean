import OpenvasSmb.Dcerpc.Binding

/-!
# String bindings of an object exporter

What `lib/com/dcom/main.c` does with the string bindings of an object exporter: they become
bindings, one is found by the name of the host, all are tried from there on until one answers, and
credentials are kept for the names in them.

The credentials are a list of entries, the newest first; an entry without a server name is the
default. `cli_credentials` are pointers; who owns them is not modelled.
-/

namespace OpenvasSmb.Dcom

open Kit Dcerpc

/-- `struct STRINGBINDING`. -/
structure StringBinding where
  wTowerId : Nat
  networkAddr : Text

variable (bindings : List StringBinding)

/-- `dcerpc_binding_from_STRINGBINDING`. With nothing behind the bracket, the NUL for the closing
one falls on the opening one, which is a NUL already. -/
def dcerpcBindingFromStringBinding (bd : StringBinding) : Except NtStatus DcerpcBinding :=
  match dcerpcTransportByEndpointProtocol bd.wTowerId with
  | none => .error .notSupported
  | some transport =>
    let parts := cut '[' bd.networkAddr
    .ok ⟨transport, Security.guidZero, 0, some (parts.elim bd.networkAddr Prod.fst), none,
      parts.map fun p => p.2.dropLast, none, 0⟩

/-! ## The search for a binding that answers -/

/-- `find_similar_binding`; the number of the bindings if there is none. -/
def findSimilarBinding (host : Text) : Nat :=
  bindings.findIdx fun sb => sb.wTowerId == EpmProtocol.tcp.code &&
    (cut '[' sb.networkAddr).any fun parts =>
      let n := min parts.1.length host.length
      strcaseeq (host.take n) (sb.networkAddr.take n)

/-- The search in `struct dcom_get_pipe_state`. -/
structure BindingSearch where
  similarBindingIndex : Nat
  currentBindingOffset : Int
  currentBindingIndex : Nat

namespace BindingSearch

/-- `bindings[i]`. -/
def entryAt (bindings : PointerArray StringBinding) (i : Int) : Option (Option StringBinding) :=
  if i < 0 then none else bindings.fetch i.toNat

/-- The loop of `try_next_binding`: the binding to try, if there is one left. -/
def nextBinding (bindings : PointerArray StringBinding) :
    Nat → BindingSearch → Option (Option StringBinding × BindingSearch)
  | 0, _ => none
  | fuel + 1, s => do
    let entry ← entryAt bindings s.currentBindingIndex
    let s := { s with currentBindingIndex := s.currentBindingIndex + 1 }
    if entry.isNone then some (none, s)
    else
      let next ← entryAt bindings (s.currentBindingOffset + 1)
      let s := { s with
        currentBindingOffset := if next.isNone then 0 else s.currentBindingOffset + 1 }
      let sb ← (← entryAt bindings s.currentBindingOffset)
      if s.currentBindingOffset = s.similarBindingIndex ∨ sb.wTowerId = EpmProtocol.tcp.code then
        some (some sb, s)
      else nextBinding bindings fuel s

/-- `try_next_binding` with `bind_new_pipe_continue`; `connect k` is how the attempt after `k`
others ends. The offsets that were tried, and the one that answers or the status. -/
def tryNextBinding (bindings : PointerArray StringBinding) (connect : Nat → NtStatus) :
    Nat → BindingSearch → List Nat → Option (List Nat × Except NtStatus Nat)
  | 0, _, _ => none
  | fuel + 1, s, tried => do
    let (found, s) ← nextBinding bindings (bindings.length + 1) s
    match found with
    | none => some (tried, .error .invalidAddress)
    | some sb =>
      let offset := s.currentBindingOffset.toNat
      match dcerpcBindingFromStringBinding sb with
      | .error _ => tryNextBinding bindings connect fuel s (tried ++ [offset])
      | .ok _ =>
        if (connect tried.length).isOk then some (tried ++ [offset], .ok offset)
        else tryNextBinding bindings connect fuel s (tried ++ [offset])

/-- `bind_new_pipe` behind `find_similar_binding`. -/
def bindNewPipe (similar : Nat) (connect : Nat → NtStatus) :
    Option (List Nat × Except NtStatus Nat) :=
  tryNextBinding (.ofList bindings) connect (bindings.length + 1) ⟨similar, similar - 1, 0⟩ []

end BindingSearch

/-! ## Credentials -/

/-- `struct dcom_server_credentials`. -/
structure ServerCredentials (C : Type) where
  server : Option Text
  credentials : Option C

section

variable {C : Type} (l : List (ServerCredentials C)) (server : Option Text)

/-- The loop of `dcom_get_server_credentials`; `d` are the credentials of the default. -/
def getLoop (server : Option Text) : Option C → List (ServerCredentials C) → Option C
  | d, [] => d
  | d, c :: rest =>
    match c.server with
    | none => getLoop server c.credentials rest
    | some name => if server = some name then c.credentials else getLoop server d rest

def dcomGetServerCredentials : Option C :=
  getLoop server none l

/-- The loop of `dcom_set_server_credentials`: the first entry for the server is changed, but
only if it holds credentials. -/
def setLoop (server : Option Text) (credentials : Option C) :
    List (ServerCredentials C) → Option (List (ServerCredentials C))
  | [] => none
  | c :: rest =>
    if c.server = server then
      some ((if c.credentials.isSome then { c with credentials := credentials } else c) :: rest)
    else (setLoop server credentials rest).map (c :: ·)

def dcomSetServerCredentials (credentials : Option C) : List (ServerCredentials C) :=
  (setLoop server credentials l).getD (⟨server, credentials⟩ :: l)

/-- The host names of the TCP bindings. -/
def aliases : List Text :=
  (bindings.filter fun sb => sb.wTowerId == EpmProtocol.tcp.code).filterMap fun sb =>
    match dcerpcBindingFromStringBinding sb with
    | .ok b => b.host
    | .error _ => none

def dcomUpdateCredentialsForAliases (bindings : List StringBinding) : List (ServerCredentials C) :=
  (aliases bindings).foldl
    (fun l' host => dcomSetServerCredentials l' (some host) (dcomGetServerCredentials l server)) l

end

end OpenvasSmb.Dcom

import OpenvasSmb.Kit.Lists
import OpenvasSmb.Kit.Pointers
import OpenvasSmb.Security.Guid
import OpenvasSmb.Util.Status

/-!
# Binding strings (`librpc/rpc/dcerpc_util.c`)

A binding says how a server is reached: `UUID@transport:host[endpoint,option,option]`.
`dcerpc_parse_binding` takes a text apart into a `dcerpc_binding`, `dcerpc_binding_string` puts it
together again. Options that name a flag are taken out of the list and written last.

A C string is the list of its characters. The parser works on copies of the parts of its input;
indexing such a copy before its start, or the array of the options outside of its entries or where
nothing was written, is a fault.
-/

namespace OpenvasSmb.Dcerpc

open Kit Security

/-! ## Tables -/

/-- `enum dcerpc_transport_t`. -/
inductive Transport where
  | ncacnNp
  | ncacnIpTcp
  | ncacnIpUdp
  | ncacnVnsIpc
  | ncacnVnsSpp
  | ncacnAtDsp
  | ncadgAtDdp
  | ncalrpc
  | ncacnUnixStream
  | ncadgUnixDgram
  | ncacnHttp
  | ncadgIpx
  | ncacnSpx
  deriving DecidableEq

/-- `enum epm_protocol`, as far as the table of transports names it. -/
inductive EpmProtocol where
  | tcp
  | udp
  | ip
  | ncadg
  | ncacn
  | ncalrpc
  | uuid
  | ipx
  | smb
  | pipe
  | netbios
  | dsp
  | ddp
  | appletalk
  | vinesSpp
  | vinesIpc
  | streettalk
  | http
  | unixDs

/-- The number of a protocol. -/
def EpmProtocol.code : EpmProtocol → Nat
  | tcp => 0x07
  | udp => 0x08
  | ip => 0x09
  | ncadg => 0x0a
  | ncacn => 0x0b
  | ncalrpc => 0x0c
  | uuid => 0x0d
  | ipx => 0x0e
  | smb => 0x0f
  | pipe => 0x10
  | netbios => 0x11
  | dsp => 0x16
  | ddp => 0x17
  | appletalk => 0x18
  | vinesSpp => 0x1a
  | vinesIpc => 0x1b
  | streettalk => 0x1c
  | http => 0x1f
  | unixDs => 0x20

/-- An entry of `transports`. -/
structure TransportEntry where
  name : Text
  transport : Transport
  protseq : List EpmProtocol

def transports : List TransportEntry :=
  [⟨"ncacn_np".toList, .ncacnNp, [.ncacn, .smb, .netbios]⟩,
    ⟨"ncacn_ip_tcp".toList, .ncacnIpTcp, [.ncacn, .tcp, .ip]⟩,
    ⟨"ncacn_http".toList, .ncacnHttp, [.ncacn, .http, .ip]⟩,
    ⟨"ncadg_ip_udp".toList, .ncacnIpUdp, [.ncadg, .udp, .ip]⟩,
    ⟨"ncalrpc".toList, .ncalrpc, [.ncalrpc, .pipe]⟩,
    ⟨"ncacn_unix_stream".toList, .ncacnUnixStream, [.ncacn, .unixDs]⟩,
    ⟨"ncadg_unix_dgram".toList, .ncadgUnixDgram, [.ncadg, .unixDs]⟩,
    ⟨"ncacn_at_dsp".toList, .ncacnAtDsp, [.ncacn, .appletalk, .dsp]⟩,
    ⟨"ncadg_at_ddp".toList, .ncadgAtDdp, [.ncadg, .appletalk, .ddp]⟩,
    ⟨"ncacn_vns_ssp".toList, .ncacnVnsSpp, [.ncacn, .streettalk, .vinesSpp]⟩,
    ⟨"ncacn_vns_ipc".toList, .ncacnVnsIpc, [.ncacn, .streettalk, .vinesIpc]⟩,
    ⟨"ncadg_ipx".toList, .ncadgIpx, [.ncadg, .ipx]⟩,
    ⟨"ncacn_spx".toList, .ncacnSpx, [.ncacn, .ncalrpc, .uuid]⟩]

/-- `dcerpc_transport_by_endpoint_protocol`: the first transport with the protocol in the
second place. -/
def dcerpcTransportByEndpointProtocol (prot : Nat) : Option Transport :=
  (transports.find? fun t => t.protseq[1]?.map EpmProtocol.code == some prot).map
    TransportEntry.transport

/-- An entry of `ncacn_options`. -/
abbrev OptionEntry := Text × BitVec 32

def ncacnOptions : List OptionEntry :=
  [("sign".toList, 0x20), ("seal".toList, 0x40), ("connect".toList, 0x10),
    ("spnego".toList, 0x8000), ("ntlm".toList, 0x40000), ("krb5".toList, 0x10000),
    ("validate".toList, 0xc), ("print".toList, 0x3), ("padcheck".toList, 0x2000),
    ("bigendian".toList, 0x80), ("smb2".toList, 0x20000)]

/-- `strcasecmp(a, b) == 0`. -/
def strcaseeq (a b : Text) : Bool := a.map Char.toLower == b.map Char.toLower

/-! ## Bindings -/

/-- `struct dcerpc_binding`; `object` is a `struct dcerpc_syntax_id`. -/
structure DcerpcBinding where
  transport : Transport
  uuid : Security.Guid
  ifVersion : UInt32
  host : Option Text
  targetHostname : Option Text
  endpoint : Option Text
  options : Option (List Text)
  flags : BitVec 32
  deriving DecidableEq

/-- `t_name`: the last entry of the table with the transport. -/
def transportName (transport : Transport) : Option Text :=
  (transports.filter fun t => t.transport == transport).getLast?.map TransportEntry.name

def optionText (option : Text) : Text := ',' :: option

def flagNames (flags : BitVec 32) : List Text :=
  (ncacnOptions.filter fun o => flags &&& o.2 != 0).map Prod.fst

def dcerpcBindingString (b : DcerpcBinding) : Option Text :=
  match transportName b.transport with
  | none => none
  | some name =>
    let s := (if b.uuid = guidZero then [] else guidString b.uuid ++ ['@']) ++ name ++ [':'] ++
      b.host.getD []
    if b.endpoint = none ∧ b.options = none ∧ b.flags = 0 then some s
    else
      some (s ++ ['['] ++ b.endpoint.getD [] ++ (b.options.getD []).flatMap optionText ++
        (flagNames b.flags).flatMap optionText ++ [']'])

/-! ## Parsing -/

/-- How parsing fails: with a status, or by an access outside of what was copied. -/
inductive BindingError where
  | status (s : NtStatus)
  | fault
  deriving DecidableEq

abbrev Parsing (α : Type) := Except BindingError α

def orFault {α : Type} : Option α → Parsing α
  | some a => .ok a
  | none => .error .fault

/-- The object UUID, when the first `@` is where the text of a UUID ends, and what is left. -/
def parseObject (s : Text) : Parsing (Security.Guid × Text) :=
  match cut '@' s with
  | some (before, behind) =>
    if before.length = 36 then
      match guidFromString s with
      | some uuid => .ok (uuid, behind)
      | none => .error (.status .invalidParameter)
    else .ok (guidZero, s)
  | none => .ok (guidZero, s)

def parseTransport (s : Text) : Parsing (Transport × Text) :=
  match cut ':' s with
  | some (type, behind) =>
    match transports.find? fun t => strcaseeq type t.name with
    | some t => .ok (t.transport, behind)
    | none => .error (.status .invalidParameter)
  | none => .error (.status .invalidParameter)

/-- The host, and the text between the brackets. The last character of the options is looked at
before it is known that there is one. -/
def parseHost (s : Text) : Parsing (Text × Option Text) :=
  match cut '[' s with
  | some (host, options) =>
    match options.getLast? with
    | some last =>
      if last ≠ ']' then .error (.status .invalidParameter)
      else .ok (host, some options.dropLast)
    | none => .error .fault
  | none => .ok (s, none)

/-- The options go into the array, one entry for each comma and one for what is left. -/
def fillOptions : Nat → Nat → Text → PointerArray Text → Option (PointerArray Text)
  | 0, _, _, _ => none
  | fuel + 1, i, options, a =>
    match cut ',' options with
    | some (option, behind) => (a.store i (some option)).bind (fillOptions fuel (i + 1) behind)
    | none => (a.store i (some options)).bind fun a => a.store (i + 1) none

def optionFlag (option : Text) : Option (BitVec 32) :=
  (ncacnOptions.find? fun o => strcaseeq o.1 option).map Prod.snd

/-- The options that name a flag are taken out of the array, from the entry `i` on. -/
def flagLoop : Nat → Nat → PointerArray Text → BitVec 32 →
    Option (PointerArray Text × BitVec 32)
  | 0, _, _, _ => none
  | fuel + 1, i, a, flags =>
    match a.fetch i with
    | none => none
    | some none => some (a, flags)
    | some (some option) =>
      match optionFlag option with
      -- the entry that has moved down to i is looked at next
      | some flag => (a.shift a.length i).bind fun a => flagLoop fuel i a (flags ||| flag)
      | none => flagLoop fuel (i + 1) a flags

/-- The endpoint is the first option; an empty one stands for none. -/
def takeEndpoint (a : PointerArray Text) : Option (Option Text × PointerArray Text) :=
  match a.fetch 0 with
  | none => none
  | some none => some (none, a)
  | some (some endpoint) =>
    (a.shift a.length 0).map fun a => (if endpoint = [] then none else some endpoint, a)

/-- The entries of the array up to the NULL. -/
def listed : PointerArray Text → List Text
  | some (some option) :: a => option :: listed a
  | _ => []

/-- The options: the endpoint, the others and the flags. -/
def parseOptions (options : Text) : Option (Option Text × Option (List Text) × BitVec 32) :=
  (fillOptions (options.length + 1) 0 options (.unset (options.count ',' + 2))).bind fun a =>
    (flagLoop a.length 0 a 0).bind fun (a, flags) =>
      (takeEndpoint a).bind fun (endpoint, a) =>
        (a.fetch 0).map fun first => (endpoint, first.map fun _ => listed a, flags)

def dcerpcParseBinding (s : Text) : Parsing DcerpcBinding := do
  let (uuid, s) ← parseObject s
  let (transport, s) ← parseTransport s
  let (host, options) ← parseHost s
  match options with
  | none => .ok ⟨transport, uuid, 0, some host, some host, none, none, 0⟩
  | some options =>
    let (endpoint, options, flags) ← orFault (parseOptions options)
    .ok ⟨transport, uuid, 0, some host, some host, endpoint, options, flags⟩

end OpenvasSmb.Dcerpc

import OpenvasSmb.Smb.Trans

/-!
# Session setup

`libcli/smb_composite/sesssetup.c` with `smb_raw_sesssetup_send` and `smb_raw_sesssetup_recv` of
`libcli/raw/clisession.c`. A client has one transport, on which it sets up sessions, one at a
time, and sends other requests. The security mechanism and the credentials are parameters: what
they answer may depend on all that they were asked before (`Mechanism`).

Not modelled: the bytes that are sent, the strings in a reply, and a socket that fails.
-/

namespace OpenvasSmb.Smb

open Kit

/-! ## What was negotiated -/

/-- `enum protocol_types`. -/
inductive Protocol
  | none
  | core
  | coreplus
  | lanman1
  | lanman2
  | nt1
  | smb2

/-- The order of `enum protocol_types`. -/
def Protocol.rank : Protocol → Nat
  | none => 0
  | core => 1
  | coreplus => 2
  | lanman1 => 3
  | lanman2 => 4
  | nt1 => 5
  | smb2 => 6

/-- `struct smbcli_negotiate`, with the settings that choose the kind of setup. -/
structure Negotiate where
  protocol : Protocol
  secMode : Nat := 0
  secblob : Bytes := []
  /-- `options.use_spnego` of the transport. -/
  useSpnego : Bool := true
  /-- `lp_client_plaintext_auth`. -/
  plaintextAuth : Bool := false

/-- The input of `struct smb_composite_sesssetup`. -/
structure SetupIo where
  capabilities : Nat := 0
  /-- `cli_credentials_is_anonymous`. -/
  anonymous : Bool := false

/-! ## The mechanism -/

/-- `GENSEC_OID_SPNEGO` and `GENSEC_OID_NTLMSSP`. -/
inductive MechOid
  | spnego
  | ntlmssp
  deriving DecidableEq

/-- The functions of gensec and of the credentials that are called. -/
structure Mechanism (E : Type) where
  gensecClientStart : E → NtStatus × E
  gensecSetCredentials : E → NtStatus × E
  gensecSetTargetHostname : E → NtStatus × E
  gensecSetTargetService : E → NtStatus × E
  gensecStartMechByOid : MechOid → E → NtStatus × E
  /-- The status and the token. -/
  gensecUpdate : Bytes → E → (NtStatus × Bytes) × E
  /-- The key, if the status is a success. -/
  gensecSessionKey : E → Option Bytes
  cliCredentialsWrongPassword : E → Bool × E
  /-- The status, and the NT response and the session key for a challenge. -/
  cliCredentialsGetNtlmResponse : Bytes → E → (NtStatus × Bytes × Bytes) × E

/-! ## State -/

/-- `level` of `union smb_sesssetup`. -/
inductive SetupLevel
  | old
  | nt1
  | spnego
  deriving DecidableEq

/-- How many words a reply must have. -/
def SetupLevel.words : SetupLevel → Nat
  | old | nt1 => 3
  | spnego => 4

/-- `struct sesssetup_state`, with the results of `gensec_update` and the status of each reply. -/
structure Setup where
  io : SetupIo
  level : SetupLevel
  reqId : Nat := 0
  gensecStatus : NtStatus := .ok
  inSecblob : Bytes := []
  outSecblob : Bytes := []
  outVuid : Nat := 0
  ioVuid : Nat := 0
  updates : List NtStatus := []
  replies : List NtStatus := []

/-- `struct smbcli_session` with its transport. -/
structure Session (E : Type) where
  transport : Transport
  negotiate : Negotiate
  vuid : Nat := 0
  userSessionKey : Option Bytes := none
  env : E
  /-- The next address of a request, and `next_mid` of the transport. -/
  nextId : Nat := 0
  nextMid : Nat := 1

namespace Session

variable {E : Type}

def ask {α : Type} (s : Session E) (f : E → α × E) : α × Session E :=
  let (a, env) := f s.env
  (a, { s with env := env })

/-- `smbcli_temp_set_signing`. -/
def tempSetSigning (s : Session E) : Session E :=
  { s with
    transport :=
      { s.transport with
        signInfo := smbcliTempSetSigning s.negotiate.secMode s.transport.signInfo } }

/-- `smbcli_transport_simple_set_signing`. -/
def simpleSetSigning (s : Session E) (key response : Bytes) : Session E :=
  { s with
    transport :=
      { s.transport with
        signInfo :=
          smbcliTransportSimpleSetSigning s.negotiate.secMode key response s.transport.signInfo } }

end Session

/-- `smbcli_transport_next_mid`: the zero id and those in use are skipped. -/
def smbcliTransportNextMid (pending : List Request) : Nat → Nat → Nat
  | 0, mid => mid
  | fuel + 1, mid =>
    let mid := if mid = 0 then 1 else mid
    if pending.any (·.mid == mid) then
      smbcliTransportNextMid pending fuel ((mid + 1) % 65536)
    else mid

/-- A request is set up and sent. -/
def Session.send {E : Type} (s : Session E) (singleIncrement : Bool) : Request × Session E :=
  let mid := smbcliTransportNextMid s.transport.pending 65536 s.nextMid
  let (req, t) := smbcliRequestSend singleIncrement { id := s.nextId, mid := mid } s.transport
  (req, { s with transport := t, nextId := s.nextId + 1, nextMid := (mid + 1) % 65536 })

/-! ## smb_raw_sesssetup -/

section Setup

variable {E : Type} (m : Mechanism E) (setup : Setup)

def smbRawSesssetupSend (s : Session E) : Setup × Session E :=
  let (req, s) := s.send false
  ({ setup with reqId := req.id }, s)

def smbRawSesssetupRecv (req : Request) (setup : Setup) : Option (NtStatus × Setup) :=
  if req.state ≠ .done then some (smbcliRequestDestroy req, setup)
  else if ¬req.status.isOk ∧ req.status ≠ .moreProcessingRequired then
    some (smbcliRequestDestroy req, setup)
  else if req.inn.wct ≠ setup.level.words then
    some (smbcliRequestDestroy { req with status := .invalidParameter }, setup)
  else do
    let hdr ← req.inn.hdr
    let vwv ← req.inn.vwv
    let vuid ← hdr.sval 28
    let setup := { setup with outVuid := vuid }
    match setup.level with
    | .old | .nt1 => some (smbcliRequestDestroy req, setup)
    | .spnego =>
      let len ← vwv.sval 6
      match req.inn.data with
      | none => some (smbcliRequestDestroy req, { setup with outSecblob := [] })
      | some data =>
        let secblob ← data.slice 0 (min req.inn.dataSize len)
        some (smbcliRequestDestroy req, { setup with outSecblob := secblob })

/-! ## Sending the first request -/

/-- The setups before extended security: a response to the challenge, or the password. `sign` is
what is done with the session key. -/
def challengeSetup (level : SetupLevel) (sign : Bytes → Bytes → Session E → Session E)
    (setup : Setup) (s : Session E) : Except NtStatus Setup × Session E :=
  let setup := { setup with level := level }
  if s.negotiate.secMode &&& 0x02 ≠ 0 then
    let ((status, response, key), s) := s.ask (m.cliCredentialsGetNtlmResponse s.negotiate.secblob)
    if ¬status.isOk then (.error status, s)
    else
      let s := { sign key response s with userSessionKey := some key }
      let (setup, s) := smbRawSesssetupSend setup s
      (.ok setup, s)
  else if s.negotiate.plaintextAuth then
    let (setup, s) := smbRawSesssetupSend setup s
    (.ok setup, s)
  else (.error .invalidParameter, s)

/-- `session_setup_old`: nothing is signed. -/
def sessionSetupOld (s : Session E) : Except NtStatus Setup × Session E :=
  challengeSetup m .old (fun _ _ s => s) setup s

def sessionSetupNt1 (s : Session E) : Except NtStatus Setup × Session E :=
  challengeSetup m .nt1 (fun key response s => s.simpleSetSigning key response) setup s

/-- Calls that each must succeed: the status of the first one that does not. -/
def allOk : List (E → NtStatus × E) → E → NtStatus × E
  | [], e => (.ok, e)
  | f :: rest, e =>
    let (status, e) := f e
    if status.isOk then allOk rest e else (status, e)

/-- The choice of the mechanism in `session_setup_spnego`. Without a blob, a mechanism that does not
start is not noticed. -/
def chooseMech (secblob : Bytes) (e : E) : Except NtStatus MechOid × E :=
  if secblob ≠ [] then
    let (status, e) := m.gensecStartMechByOid .spnego e
    if status.isOk then (.ok .spnego, e)
    else
      let (status, e) := m.gensecStartMechByOid .ntlmssp e
      if status.isOk then (.ok .ntlmssp, e) else (.error status, e)
  else
    let (_, e) := m.gensecStartMechByOid .ntlmssp e
    (.ok .ntlmssp, e)

/-- A `gensec_update` whose token is the next to be sent. -/
def Setup.update (answer : NtStatus × Bytes) : Setup :=
  { setup with
    gensecStatus := answer.1
    inSecblob := answer.2
    updates := setup.updates ++ [answer.1] }

variable (setup : Setup) (status : NtStatus)

/-- `NT_STATUS_OK` or `NT_STATUS_MORE_PROCESSING_REQUIRED`. -/
def isOkOrMore : Bool :=
  status.isOk || status == .moreProcessingRequired

variable (s : Session E)

def sessionSetupSpnego : Except NtStatus Setup × Session E :=
  let setup := { setup with level := .spnego }
  let (status, s) := s.tempSetSigning.ask (allOk [m.gensecClientStart, m.gensecSetCredentials,
    m.gensecSetTargetHostname, m.gensecSetTargetService])
  if ¬status.isOk then (.error status, s)
  else
    match s.ask (chooseMech m s.negotiate.secblob) with
    | (.error status, s) => (.error status, s)
    | (.ok oid, s) =>
      let (answer, s) :=
        s.ask (m.gensecUpdate (if oid = .spnego then s.negotiate.secblob else []))
      if ¬isOkOrMore answer.1 then (.error answer.1, s)
      else
        let s :=
          match m.gensecSessionKey s.env with
          | some key => s.simpleSetSigning key []
          | none => s
        let (setup, s) := smbRawSesssetupSend (setup.update answer) s
        (.ok setup, s)

/-! ## request_handler -/

/-- What a handler does: another request has been sent, or the composite is over. -/
inductive Progress
  | again (setup : Setup)
  | finished (setup : Setup) (status : NtStatus)

/-- The end of `request_handler`: the local signing required flag. -/
def enforceSigning : Progress × Session E :=
  let signing := s.transport.signInfo
  if status.isOk ∧ ¬setup.io.anonymous ∧ ¬signing.doingSigning ∧ signing.mandatorySigning then
    (.finished setup .accessDenied, s)
  else (.finished setup status, s)

/-- The rest of a round of `RAW_SESSSETUP_SPNEGO`, after the mechanism has been asked. -/
def spnegoSend : Progress × Session E :=
  let s :=
    match m.gensecSessionKey s.env with
    | some key => { s with userSessionKey := some key }.simpleSetSigning key []
    | none => s
  if setup.inSecblob ≠ [] then
    let vuid := s.vuid
    let (setup, s) := smbRawSesssetupSend setup { s with vuid := setup.ioVuid }
    (.again setup, { s with vuid := vuid })
  else enforceSigning setup status s

/-- A round of `RAW_SESSSETUP_SPNEGO`, with the status of the reply. -/
def spnegoRound : Progress × Session E :=
  if ¬isOkOrMore status then enforceSigning setup status s
  else if setup.gensecStatus = .moreProcessingRequired then
    let (answer, s) := s.ask (m.gensecUpdate setup.outSecblob)
    let setup := setup.update answer
    if ¬isOkOrMore answer.1 then enforceSigning setup answer.1 s
    else spnegoSend m setup answer.1 s
  else spnegoSend m { setup with inSecblob := [] } status s

/-- The first request of a kind of setup. -/
def sessionSetup : Except NtStatus Setup × Session E :=
  match setup.level with
  | .old => sessionSetupOld m setup s
  | .nt1 => sessionSetupNt1 m setup s
  | .spnego => sessionSetupSpnego m setup s

/-- The switch of `request_handler`, unless there is another try. -/
def setupRound : Progress × Session E :=
  match setup.level with
  | .old | .nt1 => enforceSigning setup status s
  | .spnego => spnegoRound m setup status s

def requestHandler (req : Request) (s : Session E) :
    Option (Progress × Session E) := do
  let (status, setup) ← smbRawSesssetupRecv req setup
  let setup := { setup with ioVuid := setup.outVuid, replies := setup.replies ++ [req.status] }
  if status = .logonFailure then
    let (again, s) := { s with vuid := 0 }.ask m.cliCredentialsWrongPassword
    if again then
      match sessionSetup m setup s with
      | (.ok setup, s) => some (.again setup, s)
      | (.error _, s) => some (setupRound m setup status s)
    else some (setupRound m setup status s)
  else some (setupRound m setup status s)

/-- The setup interface that will be used. -/
def Negotiate.level (negotiate : Negotiate) (io : SetupIo) : SetupLevel :=
  if negotiate.protocol.rank < Protocol.nt1.rank then .old
  else if !negotiate.useSpnego || io.capabilities &&& 0x80000000 = 0 then .nt1
  else .spnego

/-- `smb_composite_sesssetup_send`: there is no setup at all in the earliest protocols. -/
def smbCompositeSesssetupSend (io : SetupIo) (s : Session E) :
    Option (Except NtStatus Setup) × Session E :=
  if s.negotiate.protocol.rank < Protocol.lanman1.rank then (none, s)
  else
    let (result, s) := sessionSetup m { io := io, level := s.negotiate.level io } s
    (some result, s)

end Setup

/-! ## A client -/

inductive ClientEvent
  /-- A session is set up. -/
  | setup (io : SetupIo)
  /-- Another request is sent. -/
  | send (singleIncrement readbraw : Bool)
  /-- `smbcli_request_receive_more` for a request that has been completed. -/
  | more (id : Nat)
  | net (event : NetEvent)

/-- The end of a session setup. -/
structure Outcome where
  io : SetupIo
  /-- The last state; there is none in the earliest protocols. -/
  setup : Option Setup
  status : NtStatus

/-- What can be seen of a step: the request that an event completes, and the end of a setup. -/
structure Seen where
  received : Option Request := none
  outcome : Option Outcome := none

/-- A client. `idle` are completed requests; `secured`: a setup with credentials has succeeded. -/
structure Client (E : Type) where
  session : Session E
  setup : Option Setup := none
  serial : Nat := 0
  idle : List Request := []
  secured : Bool := false

namespace Client

variable {E : Type}

/-- A new connection after the negotiation. -/
def start (clientSigning : ClientSigning) (negotiate : Negotiate) (env : E) : Client E :=
  { session :=
      { transport := { signInfo := smbcliInitSigning clientSigning }
        negotiate := negotiate
        env := env } }

/-- A session setup is over. -/
def finish (c : Client E) (io : SetupIo) (setup : Option Setup) (status : NtStatus) :
    Outcome × Client E :=
  (⟨io, setup, status⟩,
    { c with setup := none, secured := c.secured || (status.isOk && !io.anonymous) })

def after (c : Client E) (t : Transport) : Client E :=
  { c with session := { c.session with transport := t }, serial := c.serial + 1 }

/-- A request that was completed is given to its handler. -/
def deliver (m : Mechanism E) (c : Client E) (req : Request) : Option (Seen × Client E) :=
  match c.setup with
  | none => some ({ received := some req }, { c with idle := req :: c.idle })
  | some setup =>
    if req.id = setup.reqId then do
      let (progress, s) ← requestHandler m setup req c.session
      let c := { c with session := s }
      match progress with
      | .again setup => some ({ received := some req }, { c with setup := some setup })
      | .finished setup status =>
        let (outcome, c) := c.finish setup.io (some setup) status
        some ({ received := some req, outcome := some outcome }, c)
    else some ({ received := some req }, { c with idle := req :: c.idle })

def step (md5 : Bytes → Bytes) (m : Mechanism E) (c : Client E) :
    ClientEvent → Option (Seen × Client E)
  | .setup io =>
    if c.setup.isSome then none
    else
      let (result, s) := smbCompositeSesssetupSend m io c.session
      let c := { c with session := s }
      match result with
      | none =>
        let (outcome, c) := c.finish io none .ok
        some ({ outcome := some outcome }, c)
      | some (.error status) =>
        -- the request is used after this status, but there is none
        if status = .moreProcessingRequired then none
        else
          let (outcome, c) := c.finish io none status
          some ({ outcome := some outcome }, c)
      | some (.ok setup) => some ({}, { c with setup := some setup })
  | .send singleIncrement readbraw =>
    let (_, s) := c.session.send singleIncrement
    let t := s.transport
    some ({}, { c with
      session :=
        { s with transport := { t with readbrawPending := t.readbrawPending || readbraw } } })
  | .more id =>
    match c.idle.find? (·.id == id) with
    | none => none
    | some req =>
      some ({}, { c with
        session :=
          { c.session with transport := c.session.transport.receiveMore req }
        idle := c.idle.eraseP (·.id == id) })
  | .net event => do
      let (received, t) ←
        eventLoopOnce md5 { transport := c.session.transport, serial := c.serial } event
      match received with
      | .completed req => (c.after t).deliver m req
      | .discarded | .oplockBreak _ => some ({}, c.after t)

end Client

def client {E : Type} (md5 : Bytes → Bytes) (m : Mechanism E) :
    Machine (Client E) ClientEvent Seen :=
  ⟨Client.step md5 m⟩

end OpenvasSmb.Smb

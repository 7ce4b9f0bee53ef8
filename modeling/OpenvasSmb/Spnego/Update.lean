import OpenvasSmb.Kit.Machine
import OpenvasSmb.Spnego.Parse

/-!
# The SPNEGO state machine (`auth/gensec/spnego.c`)

`gensecSpnegoUpdate` is `gensec_spnego_update` with all its positions, client and server, over the
functions of `gensec.c` it calls.

The mechanisms below SPNEGO are a parameter: `Gensec W` gives the list of backends and, for each
call that enters a mechanism, an answer that may depend on a hidden state of type `W`. A sub
context is what SPNEGO keeps behind `sub_sec_security`: the operations it was started with and,
for the statements only, the status its latest `gensec_update` reported.

`none` is a run that does not return: a NULL or uninitialised pointer is followed, or an OID text
is written for ever. Debug output is left out.
-/

namespace OpenvasSmb.Spnego

/-- `struct gensec_security_ops`: what SPNEGO looks at. Tables are told apart by their name. -/
structure SecurityOps where
  name : String
  oid : Option (List String)
  deriving DecidableEq

/-- The gensec layer as seen from SPNEGO, over a hidden state `W`. -/
structure Gensec (W : Type) where
  /-- `gensec_security_mechs`. -/
  mechs : List SecurityOps
  /-- The status of `gensec_subcontext_start`. -/
  subcontextStart : W → NtStatus × W
  /-- `gensec_start_mech` once the operations are chosen. -/
  startMech : SecurityOps → W → NtStatus × W
  /-- The mechanism's `update` with its output blob. -/
  update : SecurityOps → Bytes → W → NtStatus × Option Bytes × W
  /-- The mechanism's `magic`, if it has one. -/
  magic : SecurityOps → Option (Bytes → W → NtStatus × W)
  /-- `cli_credentials_get_principal` of a server's credentials. -/
  principal : Option Bytes

/-- `struct gensec_security` of a sub context. -/
structure SubContext where
  ops : Option SecurityOps := none
  /-- Not in the source: the status of the latest `gensec_update`. -/
  lastUpdate : Option NtStatus := none

/-- `enum spnego_state_position`. -/
inductive StatePosition where
  | serverStart
  | clientStart
  | serverTarg
  | clientTarg
  | fallback
  | done
  deriving DecidableEq

/-- `struct spnego_state`. `neg_oid` is not initialised by the start functions. -/
structure SpnegoState where
  expectedPacket : MessageType
  statePosition : StatePosition
  subSecSecurity : Option SubContext
  noResponseExpected : Bool
  negOid : Option String

variable (mechs : List SecurityOps)

def gensecSpnegoClientStart : SpnegoState :=
  ⟨.negTokenInit, .clientStart, none, false, none⟩

/-! ## Backends by OID (`gensec.c`) -/

/-- `gensec_security_by_oid_list`: the backends, each once, with the first of its OIDs in the list.
-/
def gensecSecurityByOidList (oidStrings : Option (List String))
    (skip : String) : List (SecurityOps × String) :=
  match oidStrings with
  | none => []
  | some oids =>
    mechs.foldl (fun out backend =>
      oids.foldl (fun out oid =>
        if oid = skip then out
        else (backend.oid.getD []).foldl (fun out own =>
          if own ≠ oid then out
          else if out.any fun entry => entry.1 = backend then out
          else out ++ [(backend, own)]) out) out) []

def gensecSecurityOids (skip : String) : List String :=
  mechs.flatMap fun ops => (ops.oid.getD []).filter fun oid => oid ≠ skip

def gensecSecurityOidsFromOpsWrapped (wops : List (SecurityOps × String)) : List String :=
  wops.flatMap fun entry => entry.1.oid.getD []

def gensecSecurityByOid (oidString : String) : Option SecurityOps :=
  mechs.find? fun ops => (ops.oid.getD []).any fun oid => oid = oidString

variable {W : Type} (G : Gensec W) (s : SpnegoState) (status : NtStatus) (input : Bytes) (w : W)

/-- `gensec_update` on the sub context. -/
def gensecUpdate (sub : Option SubContext) (input : Bytes) (w : W) :
    Option (NtStatus × Option Bytes × SubContext × W) := do
  let ctx ← sub
  let ops ← ctx.ops
  let (status, out, w) := G.update ops input w
  pure (status, out, { ctx with lastUpdate := some status }, w)

/-- The status tests shared by the functions below. -/
def isMoreOrOk : Bool :=
  status = .moreProcessingRequired || status.isOk

/-- A status after which a mechanism is taken as never started. -/
def isUnsuited : Bool :=
  status = .invalidParameter || status = .cantAccessDomainInfo

/-! ## negTokenInit -/

/-- What a mechanism loop leaves: whether it returned from the calling function, the status, the
mechanism's output, the state. -/
structure LoopResult (W : Type) where
  returned : Bool
  status : NtStatus
  out : Option Bytes
  state : SpnegoState
  world : W

/-- The first loop of `gensec_spnego_parse_negTokenInit`: the server tries the mechanism whose OID
the client put first, and leaves at the first match whatever comes of it. -/
def tryOptimistic (unwrappedIn : Bytes) (first : Option String) :
    List (SecurityOps × String) → NtStatus → SpnegoState → W → Option (LoopResult W)
  | [], status, s, w => some ⟨false, status, none, s, w⟩
  | (op, oid) :: rest, status, s, w =>
    if some oid ≠ first then tryOptimistic unwrappedIn first rest status s w
    else
      let (status, w) := G.subcontextStart w
      if !status.isOk then some ⟨true, status, none, { s with subSecSecurity := none }, w⟩
      else
        let (status, w) := G.startMech op w
        if !status.isOk then some ⟨false, status, none, { s with subSecSecurity := none }, w⟩
        else do
          let (status, out, ctx, w) ← gensecUpdate G (some { ops := some op }) unwrappedIn w
          if isUnsuited status then
            some ⟨false, status, out, { s with subSecSecurity := none }, w⟩
          else
            some ⟨false, status, out, { s with subSecSecurity := some ctx, negOid := some oid }, w⟩

/-- The second loop of `gensec_spnego_parse_negTokenInit`: our mechanisms in our
order, each started with an empty token. -/
def tryMechs : List (SecurityOps × String) → NtStatus → Option Bytes → SpnegoState → W →
    Option (LoopResult W)
  | [], status, out, s, w => some ⟨false, status, out, s, w⟩
  | (op, oid) :: rest, _, out, s, w =>
    let (status, w) := G.subcontextStart w
    if !status.isOk then some ⟨true, status, out, { s with subSecSecurity := none }, w⟩
    else
      let (status, w) := G.startMech op w
      if !status.isOk then tryMechs rest status out { s with subSecSecurity := none } w
      else do
        let (status, out, ctx, w) ← gensecUpdate G (some { ops := some op }) [] w
        let s := { s with negOid := some oid }
        if s.statePosition ≠ .serverStart ∧ isUnsuited status then
          tryMechs rest status out { s with subSecSecurity := none } w
        else some ⟨false, status, out, { s with subSecSecurity := some ctx }, w⟩

/-- The end of `gensec_spnego_parse_negTokenInit`, after both loops. -/
def parseConclude (r : LoopResult W) : NtStatus × Option Bytes × SpnegoState × W :=
  if r.returned then (r.status, r.out, r.state, r.world)
  else if r.state.subSecSecurity.isNone then (.invalidParameter, r.out, r.state, r.world)
  else if r.status = .invalidParameter then (.moreProcessingRequired, none, r.state, r.world)
  else if isMoreOrOk r.status then (r.status, r.out, r.state, r.world)
  else (r.status, r.out, { r.state with subSecSecurity := none }, r.world)

def gensecSpnegoParseNegTokenInit (mechType : Option (List String)) (unwrappedIn : Bytes)
    (w : W) : Option (NtStatus × Option Bytes × SpnegoState × W) :=
  let allSec := gensecSecurityByOidList G.mechs mechType gensecOidSpnego
  let first : Option (LoopResult W) :=
    if s.statePosition = .serverStart then
      tryOptimistic G unwrappedIn (mechType.bind List.head?) allSec .invalidParameter s w
    else some ⟨false, .invalidParameter, none, s, w⟩
  first.bind fun r =>
    let second : Option (LoopResult W) :=
      if r.returned = false ∧ r.state.subSecSecurity.isNone then
        tryMechs G allSec r.status r.out r.state r.world
      else some r
    second.map parseConclude

/-- In the client the started mechanism produces the first (optimistic) packet. -/
def firstPacket (op : SecurityOps) (status : NtStatus) (unwrappedOut : Option Bytes)
    (w : W) : Option (NtStatus × Option Bytes × SubContext × W) :=
  if s.statePosition = .clientStart then gensecUpdate G (some { ops := some op }) [] w
  else some (status, unwrappedOut, { ops := some op }, w)

/-- `gensec_spnego_create_negTokenInit`, over the backends still to try; the token lists the one
started and those after it. -/
def createNegTokenInit : List (SecurityOps × String) → Option Bytes → SpnegoState → W →
    Option (NtStatus × Option Bytes × SpnegoState × W)
  | [], _, s, w => some (.invalidParameter, none, { s with subSecSecurity := none }, w)
  | (op, oid) :: rest, unwrappedOut, s, w => do
      let (status, w) := G.subcontextStart w
      if !status.isOk then some (status, none, { s with subSecSecurity := none }, w)
      else
        let (status, w) := G.startMech op w
        if !status.isOk then
          createNegTokenInit rest unwrappedOut { s with subSecSecurity := none } w
        else do
          let (status, unwrappedOut, ctx, w) ← firstPacket G s op status unwrappedOut w
          if s.statePosition = .clientStart ∧ isMoreOrOk status = false then
            createNegTokenInit rest unwrappedOut { s with subSecSecurity := none } w
          else do
            let s := { s with subSecSecurity := some ctx }
            let principal := if s.statePosition = .serverStart then G.principal else none
            let blob ← spnegoWriteData
              { type := .negTokenInit
                negTokenInit :=
                  { mechTypes := some (gensecSecurityOidsFromOpsWrapped ((op, oid) :: rest))
                    mechListMIC := principal
                    mechToken := unwrappedOut } }
            if blob.isNone then some (.invalidParameter, none, s, w)
            else
              some (.moreProcessingRequired, blob,
                { s with
                  negOid := some oid
                  noResponseExpected := s.noResponseExpected || status.isOk }, w)

def gensecSpnegoCreateNegTokenInit :
    Option (NtStatus × Option Bytes × SpnegoState × W) :=
  createNegTokenInit G
    (gensecSecurityByOidList G.mechs (some (gensecSecurityOids G.mechs gensecOidSpnego))
      gensecOidSpnego) none s w

/-! ## The server's replies -/

/-- `gensec_spnego_server_try_fallback`, over the backends still to try. -/
def serverTryFallback (input : Bytes) : List SecurityOps → SpnegoState → W →
    Option (NtStatus × Option Bytes × SpnegoState × W)
  | [], s, w => some (.invalidParameter, none, s, w)
  | ops :: rest, s, w =>
    if ops.oid = none ∨ gensecOidSpnego ∈ ops.oid.getD [] then serverTryFallback input rest s w
    else match G.magic ops with
      | none => serverTryFallback input rest s w
      | some magic =>
        let (status, w) := magic input w
        if !status.isOk then serverTryFallback input rest s w
        else
          let s := { s with statePosition := .fallback }
          let (status, w) := G.subcontextStart w
          if !status.isOk then some (status, none, { s with subSecSecurity := none }, w)
          else
            let (status, w) := G.startMech ops w
            let ctx : SubContext := { ops := some ops }
            if !status.isOk then some (status, none, { s with subSecSecurity := some ctx }, w)
            else do
              let (status, out, ctx, w) ← gensecUpdate G (some ctx) input w
              some (status, out, { s with subSecSecurity := some ctx }, w)

def gensecSpnegoServerNegTokenTarg (unwrappedOut : Option Bytes) (w : W) :
    Option (NtStatus × Option Bytes × SpnegoState × W) := do
  let token : NegTokenTarg × StatePosition :=
    if status = .moreProcessingRequired then
      ({ negResult := acceptIncomplete, supportedMech := s.negOid }, .serverTarg)
    else if status.isOk then
      ({ negResult := acceptCompleted,
         supportedMech := if unwrappedOut.isSome then s.negOid else none }, .done)
    else ({ negResult := reject }, .done)
  let s := { s with statePosition := token.2 }
  let blob ← spnegoWriteData
    { type := .negTokenTarg, negTokenTarg := { token.1 with responseToken := unwrappedOut } }
  if blob.isNone then some (.invalidParameter, none, s, w)
  else some (status, blob, { s with expectedPacket := .negTokenTarg }, w)

/-! ## `gensec_spnego_update`, by position -/

/-- What an update returns: the status, the output blob, the state. -/
abbrev UpdateResult (W : Type) := (NtStatus × Option Bytes) × SpnegoState × W

/-- A reply that leaves everything as it was. -/
def fails (s : SpnegoState) (w : W) : Option (UpdateResult W) :=
  some ((status, none), s, w)

/-- `case SPNEGO_SERVER_START`. -/
def updateServerStart : Option (UpdateResult W) :=
  if input.length ≠ 0 then
    match spnegoReadData input with
    | .fault => none
    | .refused => do
        let (status, out, s, w) ← serverTryFallback G input G.mechs s w
        some ((status, out), s, w)
    | .read token =>
      if token.type ≠ s.expectedPacket then fails .invalidParameter s w
      else do
        let (status, unwrapped, s, w) ← gensecSpnegoParseNegTokenInit G s
          token.negTokenInit.mechTypes (token.negTokenInit.mechToken.getD []) w
        let (status, out, s, w) ← gensecSpnegoServerNegTokenTarg s status unwrapped w
        some ((status, out), s, w)
  else do
    let (status, out, s, w) ← gensecSpnegoCreateNegTokenInit G s w
    some ((status, out),
      { s with statePosition := .serverStart, expectedPacket := .negTokenInit }, w)

/-- `case SPNEGO_CLIENT_START`. -/
def updateClientStart : Option (UpdateResult W) :=
  if input.length = 0 then do
    let (status, out, s, w) ← gensecSpnegoCreateNegTokenInit G s w
    some ((status, out),
      { s with statePosition := .clientTarg, expectedPacket := .negTokenTarg }, w)
  else
    match spnegoReadData input with
    | .fault => none
    | .refused => fails .invalidParameter s w
    | .read token =>
      if token.type ≠ s.expectedPacket then fails .invalidParameter s w
      else do
        let (status, unwrapped, s, w) ← gensecSpnegoParseNegTokenInit G s
          token.negTokenInit.mechTypes (token.negTokenInit.mechToken.getD []) w
        if isMoreOrOk status = false then fails status s w
        else do
          let blob ← spnegoWriteData
            { type := .negTokenInit
              negTokenInit := { mechTypes := some s.negOid.toList, mechToken := unwrapped } }
          if blob.isNone then fails .invalidParameter s w
          else
            some ((.moreProcessingRequired, blob),
              { s with
                expectedPacket := .negTokenTarg
                statePosition := .clientTarg
                noResponseExpected := s.noResponseExpected || status.isOk }, w)

/-- `case SPNEGO_SERVER_TARG`. -/
def updateServerTarg : Option (UpdateResult W) :=
  if input.length = 0 then fails .invalidParameter s w
  else
    match spnegoReadData input with
    | .fault => none
    | .refused => fails .invalidParameter s w
    | .read token =>
      if token.type ≠ s.expectedPacket then fails .invalidParameter s w
      else if s.subSecSecurity.isNone then fails .invalidParameter s w
      else do
        let (status, unwrapped, ctx, w) ← gensecUpdate G s.subSecSecurity
          (token.negTokenTarg.responseToken.getD []) w
        let (status, out, s, w) ← gensecSpnegoServerNegTokenTarg
          { s with subSecSecurity := some ctx } status unwrapped w
        some ((status, out), s, w)

/-- What the client makes of an accepted token: the status, the mechanism's output and the state.
`none` in the middle is a mechanism that could not be started. -/
abbrev TargAnswer (W : Type) := NtStatus × Option (Option Bytes) × SpnegoState × W

/-- The client is asked for another mechanism: a new sub context is started by
OID and given the token. -/
def switchMech (oid : String) (response : Bytes) (w : W) :
    Option (TargAnswer W) :=
  let (status, w) := G.subcontextStart w
  if !status.isOk then some (status, none, { s with subSecSecurity := none }, w)
  else
    match gensecSecurityByOid G.mechs oid with
    | none => some (.invalidParameter, none, { s with subSecSecurity := some {} }, w)
    | some ops =>
      let ctx : SubContext := { ops := some ops }
      let (status, w) := G.startMech ops w
      if !status.isOk then some (status, none, { s with subSecSecurity := some ctx }, w)
      else do
        let (status, out, ctx, w) ← gensecUpdate G (some ctx) response w
        some (status, some out, { s with subSecSecurity := some ctx, negOid := some oid }, w)

/-- The mechanism the server wants instead of ours. `strcmp` is only reached for accept-incomplete,
and then needs both strings. -/
def requestedMech (token : NegTokenTarg) : Option (Option String) :=
  if token.negResult = acceptIncomplete then do
    let mech ← token.supportedMech
    let own ← s.negOid
    some (if mech ≠ own then some mech else none)
  else some none

/-- The mechanism part of `case SPNEGO_CLIENT_TARG`. -/
def targAnswer (token : NegTokenTarg) (w : W) : Option (TargAnswer W) := do
  let response := token.responseToken.getD []
  match ← requestedMech s token with
  | some mech => switchMech G s mech response w
  | none =>
    if s.noResponseExpected then
      if token.negResult ≠ acceptCompleted then some (.invalidParameter, some none, s, w)
      else if response.length ≠ 0 then some (.invalidParameter, some none, s, w)
      else some (.ok, some none, s, w)
    else do
      let (status, out, ctx, w) ← gensecUpdate G s.subSecSecurity response w
      some (status, some out,
        { s with
          subSecSecurity := some ctx
          noResponseExpected := status.isOk }, w)

/-- `case SPNEGO_CLIENT_TARG`. The decision at the end reads `negResult` of the
token after `spnego_free_data`. -/
def updateClientTarg : Option (UpdateResult W) :=
  if input.length = 0 then fails .invalidParameter s w
  else
    match spnegoReadData input with
    | .fault => none
    | .refused => fails .invalidParameter s w
    | .read token =>
      if token.type ≠ s.expectedPacket then fails .invalidParameter s w
      else if token.negTokenTarg.negResult = reject then fails .accessDenied s w
      else do
        let (status, answer, s, w) ← targAnswer G s token.negTokenTarg w
        let token := spnegoFreeData token
        match answer with
        | none => fails status s w
        | some unwrapped =>
          if isMoreOrOk status = false then fails status s w
          else if (unwrapped.getD []).length ≠ 0 then do
            let blob ← spnegoWriteData
              { type := .negTokenTarg
                negTokenTarg := { negResult := noneResult, responseToken := unwrapped } }
            if blob.isNone then fails .invalidParameter s w
            else
              some ((.moreProcessingRequired, blob), { s with statePosition := .clientTarg }, w)
          else
            let status := if token.negTokenTarg.negResult ≠ acceptCompleted
              then NtStatus.invalidParameter else status
            some ((status, none), { s with statePosition := .done }, w)

def gensecSpnegoUpdate : Option (UpdateResult W) :=
  match s.statePosition with
  | .fallback => do
      let (status, out, ctx, w) ← gensecUpdate G s.subSecSecurity input w
      some ((status, out), { s with subSecSecurity := some ctx }, w)
  | .serverStart => updateServerStart G s input w
  | .clientStart => updateClientStart G s input w
  | .serverTarg => updateServerTarg G s input w
  | .clientTarg => updateClientTarg G s input w
  | .done => fails .invalidParameter s w

/-! ## The entry points that hand over to the sub mechanism -/

/-- A security context as a machine: inputs are the peer's tokens, outputs the
status and the blob to send. -/
def spnego : Kit.Machine (SpnegoState × W) Bytes (NtStatus × Option Bytes) where
  step st input :=
    (gensecSpnegoUpdate G st.1 input st.2).map fun r => (r.1, r.2.1, r.2.2)

end OpenvasSmb.Spnego

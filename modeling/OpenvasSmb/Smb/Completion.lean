import OpenvasSmb.Smb.Trans
import OpenvasSmb.Smb.Receive

/-!
# Requests from their sending to their end

A request lives on after it was completed, until its owner destroys it or waits for another part
of the reply (`smbcli_request_receive_more`). Completed requests are part of the state here, with
the timers and the callbacks of all requests.

`smbcli_transport_send` starts a timer for a request, if the transport has a timeout; it goes away
with the request only. A callback is the last thing a step does, so what it does comes as the next
events.
-/

namespace OpenvasSmb.Smb

open Kit

/-- A transport and the requests of its users. -/
structure Live where
  transport : Transport := {}
  requestTimeout : Nat := 60
  /-- The requests that wait for nothing. -/
  finished : List Request := []
  /-- The requests with a running timer. -/
  timers : List Nat := []
  /-- The requests with an `async.fn`. -/
  handlers : List Nat := []
  serial : Nat := 0

inductive LiveEvent
  /-- `smbcli_transport_send`, with the status of `packet_send`. -/
  | send (req : Request) (singleIncrement : Bool) (written : NtStatus) (oneWay : Bool)
  /-- The owner sets `async.fn`. -/
  | watch (id : Nat)
  | packet (bytes : Bytes)
  /-- `smbcli_request_receive_more`. -/
  | more (id : Nat)
  | timeout (id : Nat)
  /-- `smbcli_request_destroy`. -/
  | destroy (id : Nat)

namespace Live

variable (s : Live)

def ids : List Nat := s.transport.pending.map Request.id ++ s.finished.map Request.id

/-- The request whose callback is called when a request is completed. -/
def notify (id : Nat) : Option Nat := if id ∈ s.handlers then some id else none

/-- A request leaves the pending ones. -/
def settle (req : Request) (t : Transport) : Option Nat × Live :=
  (s.notify req.id, { s with transport := t, finished := req :: s.finished })

/-- `smbcli_transport_send`. -/
def send (req : Request) (singleIncrement : Bool) (written : NtStatus) (oneWay : Bool) : Live :=
  if written.isOk = false then
    let signed := smbcliRequestCalculateSignMac singleIncrement req s.transport.signInfo
    { s with
      transport := { s.transport with signInfo := signed.2 }
      finished := { signed.1 with state := .error, status := written } :: s.finished }
  else if oneWay then
    let signed := smbcliRequestCalculateSignMac singleIncrement req s.transport.signInfo
    { s with transport := { s.transport with signInfo := signed.2 } }
  else
    { s with
      transport := (smbcliRequestSend singleIncrement req s.transport).2
      timers := if s.requestTimeout ≠ 0 then req.id :: s.timers else s.timers }

/-- `smbcli_timeout_handler`. A request that waits is taken from the list; the rest is done to
any request. -/
def timeout (id : Nat) : Option (Option Nat × Live) :=
  if id ∈ s.timers then
    let s := { s with timers := s.timers.erase id }
    match s.transport.pending.find? (·.id == id) with
    | some req =>
      let failed := smbcliTimeoutHandler s.transport req
      match failed.1 with
      | .completed req => some (s.settle req failed.2)
      | _ => none
    | none =>
      some (s.notify id,
        { s with
          finished := s.finished.map fun req =>
            if req.id = id then { req with status := .ioTimeout, state := .error } else req })
  else none

def step (md5 : Bytes → Bytes) (s : Live) : LiveEvent → Option (Option Nat × Live)
  | .send req singleIncrement written oneWay =>
    if req.id ∈ s.ids then none
    else some (none, s.send req singleIncrement written oneWay)
  | .watch id => some (none, { s with handlers := id :: s.handlers })
  | .packet bytes =>
    match smbcliTransportFinishRecv md5 s.transport ⟨s.serial, bytes⟩ with
    | none => none
    | some (.completed req, t) => some ({ s with serial := s.serial + 1 }.settle req t)
    | some (_, t) => some (none, { s with transport := t, serial := s.serial + 1 })
  | .more id =>
    match s.finished.find? (·.id == id) with
    | none => none
    | some req =>
      some (none,
        { s with
          transport := s.transport.receiveMore req
          finished := s.finished.eraseP (·.id == id) })
  | .timeout id => s.timeout id
  | .destroy id =>
    some (none,
      { s with
        transport :=
          { s.transport with pending := s.transport.pending.filter (·.id != id) }
        finished := s.finished.filter (·.id != id)
        timers := s.timers.filter (· != id)
        handlers := s.handlers.filter (· != id) })

/-- A transport without requests. -/
def start (t : Transport) (requestTimeout : Nat) : Live :=
  { transport := { t with pending := [] }, requestTimeout := requestTimeout }

end Live

/-- The runs of a transport with its requests. -/
def live (md5 : Bytes → Bytes) : Machine Live LiveEvent (Option Nat) := ⟨Live.step md5⟩

/-! ## The loss of the socket -/

/-- A transport with its requests, and whether it has its socket. -/
structure Wired where
  live : Live
  sock : Bool := true

inductive WiredEvent
  | live (event : LiveEvent)
  /-- `smbcli_transport_dead`. -/
  | dead (status : NtStatus)

namespace Wired

/-- Without a socket `smbcli_transport_send` fails, and no packet comes. -/
def allow (s : Wired) : LiveEvent → Option LiveEvent
  | .send req singleIncrement written oneWay =>
    some (.send req singleIncrement (if s.sock then written else .netWriteFault) oneWay)
  | .packet bytes => if s.sock then some (.packet bytes) else none
  | event => some event

/-- A step, with the requests whose callbacks are called. -/
def step (md5 : Bytes → Bytes) (s : Wired) : WiredEvent → Option (List Nat × Wired)
  | .live event => do
    let (called, live) ← s.live.step md5 (← s.allow event)
    some (called.toList, { s with live })
  | .dead _ => some ([], { s with sock := false })

end Wired

def wired (md5 : Bytes → Bytes) : Machine Wired WiredEvent (List Nat) := ⟨Wired.step md5⟩

end OpenvasSmb.Smb

import OpenvasSmb.Util.Status
import Mathlib.Data.List.Basic

/-!
# The send queue

The send side of `lib/stream/packet.c`. What the socket answers is up to the run, and so is what a
`send_callback` sends in its turn. The packets that were ever queued, the bytes the socket took and
the callbacks that ran are recorded beside the fields of the context.
-/

namespace OpenvasSmb.Stream

variable {κ : Type}

/-- `struct send_element`. -/
structure SendElement (κ : Type) where
  blob : Bytes
  nsent : Nat := 0
  sendCallback : Option κ := none

def SendElement.packet (el : SendElement κ) : Bytes × Option κ := (el.blob, el.sendCallback)

/-- The send side of a `packet_context`. -/
structure SendState (κ : Type) where
  sendQueue : List (SendElement κ) := []
  /-- `pc->sock` is not NULL. -/
  sock : Bool := true
  /-- `EVENT_FD_WRITE` of `pc->fde`. -/
  writeable : Bool := false
  submitted : List (Bytes × Option κ) := []
  written : Bytes := []
  called : List κ := []

/-- An answer of `socket_send`: its status, the bytes the socket has room for, and what a callback
sends. -/
structure SendAnswer (κ : Type) where
  status : NtStatus
  room : Nat
  sends : List (Bytes × Option κ)

/-- `packet_send_callback`; `packet_send` has no callback. -/
def packetSendCallback (s : SendState κ) (packet : Bytes × Option κ) : SendState κ :=
  { s with
    sendQueue := s.sendQueue ++ [{ blob := packet.1, sendCallback := packet.2 }]
    writeable := true
    submitted := s.submitted ++ [packet] }

/-- The call of `el->send_callback`. -/
def callSent (sends : List (Bytes × Option κ)) (s : SendState κ) : Option κ → SendState κ
  | some k => sends.foldl packetSendCallback { s with called := s.called ++ [k] }
  | none => s

/-- `packet_queue_run`, as far as the answers of the socket go. `packet_error` does not touch the
queue. -/
def packetQueueRun : List (SendAnswer κ) → SendState κ → SendState κ
  | [], s => s
  | answer :: answers, s =>
    match s.sendQueue with
    | [] => { s with writeable := false }
    | el :: queue =>
      -- `socket_send` without a socket is NT_STATUS_CONNECTION_DISCONNECTED
      if !s.sock || answer.status.isErr then { s with sock := false }
      else if !answer.status.isOk then s
      else
        let chunk := (el.blob.drop el.nsent).take answer.room
        let el := { el with nsent := el.nsent + chunk.length }
        let s := { s with written := s.written ++ chunk }
        packetQueueRun answers <|
          if el.nsent = el.blob.length then
            callSent answer.sends { s with sendQueue := queue } el.sendCallback
          else { s with sendQueue := el :: queue }

inductive SendEvent (κ : Type) where
  | send (packet : Bytes × Option κ)
  | queueRun (answers : List (SendAnswer κ))

def sendStep (s : SendState κ) : SendEvent κ → SendState κ
  | .send packet => packetSendCallback s packet
  | .queueRun answers => packetQueueRun answers s

end OpenvasSmb.Stream

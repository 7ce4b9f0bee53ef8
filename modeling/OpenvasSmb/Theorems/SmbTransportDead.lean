import OpenvasSmb.Smb.Completion

/-!
# The loss of a transport

`smbcli_transport_dead` of `libcli/raw/clitransport.c` frees the socket. The loop behind it, which
ends the pending requests, is compiled out: they wait for their timers, if they have any.
-/

namespace OpenvasSmb.Smb

open Kit

variable (md5 : Bytes → Bytes)

/-- `smbcli_request_receive` can return, without the request being destroyed. -/
def ReceiveReturns (s : Wired) (id : Nat) : Prop :=
  ∃ events, .live (.destroy id) ∉ events ∧ ∃ o s', (wired md5).run s events = some (o, s') ∧
    id ∉ s'.live.transport.pending.map Request.id

/-- All pending requests have failed, their callbacks were called, and nobody waits for them. -/
structure AllFailed (md5 : Bytes → Bytes) (s : Live) (called : List Nat) (s' : Wired) : Prop where
  pending : s'.live.transport.pending = []
  error : ∀ req ∈ s.transport.pending, ∃ req' ∈ s'.live.finished,
    req'.id = req.id ∧ req'.state = .error ∧ req'.status.isOk = false
  called : ∀ req ∈ s.transport.pending, req.id ∈ s.handlers → req.id ∈ called
  returns : ∀ req ∈ s.transport.pending, ReceiveReturns md5 s' req.id

def FailsPending (s : Wired) (e : WiredEvent) (called : List Nat) (s' : Wired) : Prop :=
  ∀ status, e = .dead status → AllFailed md5 s.live called s'

/-- The transport is lost only when no request is pending. -/
def Idle (s : Wired) (e : WiredEvent) : Prop :=
  ∀ status, e = .dead status → s.live.transport.pending = []

theorem failsPending_iff {md5 : Bytes → Bytes} {s s' : Wired} {e : WiredEvent} {called : List Nat}
    (hstep : (wired md5).step s e = some (called, s')) :
    FailsPending md5 s e called s' ↔ Idle s e := by
  refine forall_congr' fun status => imp_congr_right fun he => ?_
  subst he
  obtain ⟨rfl, rfl⟩ := answer_inj hstep
  constructor
  · exact AllFailed.pending
  · intro hnone
    refine ⟨hnone, ?_, ?_, ?_⟩ <;> simp [hnone]

/-- **The loss of a transport.** In every run, each loss ends all pending requests with an error and
their callbacks exactly if there are none. -/
theorem transport_dead_fails_pending_iff (t : Transport) (requestTimeout : Nat)
    (events : List WiredEvent) :
    (wired md5).EachStep (FailsPending md5) ⟨Live.start t requestTimeout, true⟩ events ↔
      (wired md5).EachStep (fun s e _ _ => Idle s e) ⟨Live.start t requestTimeout, true⟩ events :=
  Machine.eachStep_congr (I := fun _ => True) (fun _ _ _ _ _ _ _ => trivial)
    (fun _ _ _ _ _ => failsPending_iff) events _ trivial

/-- A request without a timer is pending when the transport is lost, and stays so: its callback is
not called, and nothing is left that could end it. -/
theorem transport_dead_leaves_pending :
    ((wired fun _ => []).run ⟨.start {} 0, true⟩
        [.live (.send { id := 0, mid := 1 } false .ok false), .live (.watch 0),
          .dead .unexpectedNetworkError]).map
      (fun r => (r.1, r.2.live.transport.pending.map fun req => (req.id, req.state),
        r.2.live.timers, r.2.sock)) = some (some [], [(0, .recv)], [], false) := by
  decide

end OpenvasSmb.Smb

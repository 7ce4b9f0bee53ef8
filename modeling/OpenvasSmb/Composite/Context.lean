import OpenvasSmb.Util.Status

/-!
# Composite contexts

`libcli/composite/composite.c`: how a composite function tells the caller that it is over. The
caller registers a continuation with `composite_continue`; a function that is over before that
leaves a timed event that fires when the event loop is entered again.
-/

namespace OpenvasSmb.Composite

inductive CompositeState where
  | init
  | inProgress
  | done
  | error

/-- `state >= COMPOSITE_STATE_DONE`. -/
def CompositeState.isOver : CompositeState → Bool
  | .done | .error => true
  | .init | .inProgress => false

/-- `struct composite_context` with the events that wait for it, and the continuations that have
run. -/
structure CompositeContext (κ : Type) where
  state : CompositeState := .inProgress
  status : NtStatus := .ok
  usedWait : Bool := false
  fn : Option κ := none
  /-- How many `composite_trigger` events are scheduled. -/
  triggers : Nat := 0
  /-- The continuations that have run. -/
  ran : List κ := []

variable {κ : Type}

namespace CompositeContext

/-- `if (ctx->async.fn) ctx->async.fn(ctx)`. -/
def callFn (c : CompositeContext κ) : CompositeContext κ := { c with ran := c.ran ++ c.fn.toList }

/-- `event_add_timed(ctx->event_ctx, ctx, timeval_zero(), composite_trigger, ctx)`. -/
def addTrigger (c : CompositeContext κ) : CompositeContext κ := { c with triggers := c.triggers + 1 }

end CompositeContext

open CompositeContext

variable (c : CompositeContext κ)

def compositeIsOk : Bool × CompositeContext κ :=
  if c.status.isOk then (true, c) else (false, callFn { c with state := .error })

/-- What `composite_error` and `composite_done` start with: nobody waits for the context yet. -/
def triggerUnwatched : CompositeContext κ :=
  if !c.usedWait && c.fn.isNone then c.addTrigger else c

/-- `composite_error`; `none`: an error that is none fails the assertion. -/
def compositeError (status : NtStatus) : Option (CompositeContext κ) :=
  let (ok, c) := compositeIsOk { triggerUnwatched c with status }
  if ok then none else some c

def compositeDone : CompositeContext κ :=
  callFn { triggerUnwatched c with state := .done }

/-- `composite_continue`, on the context that is waited for. -/
def compositeContinue (continuation : κ) : CompositeContext κ :=
  let c := { c with fn := some continuation }
  if c.state.isOver then c.addTrigger else c

/-- The event loop runs a scheduled `composite_trigger`. -/
def eventLoopOnce : CompositeContext κ :=
  if c.triggers = 0 then c else callFn { c with triggers := c.triggers - 1 }

/-- What can happen to a context. -/
inductive Step (κ : Type) where
  | done
  | error (status : NtStatus)
  | continue (continuation : κ)
  | loop

def step : Step κ → Option (CompositeContext κ)
  | .done => some (compositeDone c)
  | .error status => compositeError c status
  | .continue continuation => some (compositeContinue c continuation)
  | .loop => some (eventLoopOnce c)

def run (steps : List (Step κ)) : Option (CompositeContext κ) :=
  steps.foldlM step c

end OpenvasSmb.Composite

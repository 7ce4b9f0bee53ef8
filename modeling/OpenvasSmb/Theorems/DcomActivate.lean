import OpenvasSmb.Dcom.Activation
import OpenvasSmb.Theorems.DcomInterfaces

/-!
# The continuations of an activation

Each of the contexts of an activation is meant to run its continuation exactly once, whatever the
server does. An error that `ServerAlive` returns is reported twice; a request that is over when it
is sent is not reported at all; and a good reply to `RemoteActivation` ends the program if it
leaves out what `remote_activation_complete` follows.
-/

namespace OpenvasSmb.Dcom

open Composite CompositeContext Chain

variable {κ : Type}

/-- Every continuation that was registered has run exactly once. -/
def ContinuedOnce (k : κ) (a : Chain κ) : Prop :=
  a.activate.ran = [k] ∧ a.binding.ran = [()] ∧ ∀ c ∈ a.connects, c.ran = [()]

/-! ## Replies -/

variable (R : Registry) (exporters : List ObjectExporter)

/-- A reply has what is followed: the bindings, a reference for the interface if it has no error,
and an interface to copy unless the exporter keeps its `rem_unknown`. -/
def ActivationReply.Usable (r : ActivationReply) : Prop :=
  r.hasBindings = true ∧ r.ifaces.length ≤ 1 ∧
    (∀ x ∈ r.ifaces, x.2.isOk = true → x.1.isSome = true) ∧
    (HasRemUnknown exporters r ∨ ∃ x ∈ r.ifaces, x.2.isOk = true ∧ ∃ o, x.1 = some o ∧
      (dcomIUnknownFromObjref R o).1.isOk = true ∧ (dcomIUnknownFromObjref R o).2.isSome = true)

theorem usable_iff {r : ActivationReply} (h : r.Answered) :
    (dcomActivate R exporters r).isSome = true ↔ r.Usable R exporters := by
  have hloop : ∀ {ip coresult template},
      activationInterfaces R r.ifaces = some (ip, coresult, template) →
      ((dcomActivate R exporters r).isSome = true ↔
        r.hasBindings = true ∧ (template.isSome = true ∨ HasRemUnknown exporters r)) := by
    intro ip coresult template hloop
    rcases dcomActivate_answered R h hloop with ⟨ru, -, hbindings, htemplate, heq⟩ | ⟨hnot, heq⟩
    · exact iff_of_true (by rw [heq]; rfl) ⟨hbindings, htemplate⟩
    · exact iff_of_false (by rw [heq]; exact Bool.false_ne_true) hnot
  have hwild : activationInterfaces R r.ifaces = none →
      ¬ (dcomActivate R exporters r).isSome = true := by
    intro hnone
    rw [dcomActivate_fault R h hnone]
    exact Bool.false_ne_true
  rw [ActivationReply.Usable]
  rcases hifaces : r.ifaces with _ | ⟨⟨iface, result⟩, _ | ⟨y, rest⟩⟩
  · rw [hloop (by rw [hifaces]; rfl)]
    simp
  · by_cases hresult : result.isOk = true
    · cases iface with
      | none =>
        refine iff_of_false (hwild (by rw [hifaces]; simp [activationInterfaces, hresult])) ?_
        simp [hresult]
      | some o =>
        cases ho : (dcomIUnknownFromObjref R o).1.isOk with
        | true =>
          rw [hloop (by rw [hifaces]; exact activationInterfaces_ok R hresult ho)]
          simp [hresult, ho, or_comm]
        | false =>
          rw [hloop (by rw [hifaces]; exact activationInterfaces_refused R hresult ho)]
          simp [hresult, ho]
    · have hfailed : activationInterfaces R r.ifaces = some ([none], result, none) := by
        rw [hifaces]
        simp [activationInterfaces, hresult]
      rw [hloop hfailed]
      simp [hresult]
  · exact iff_of_false (hwild (by rw [hifaces]; rfl)) (by simp)

/-- `RemoteActivation` is called back, and a reply without an error can be used. -/
def ServerBehaviour.Activates (s : ServerBehaviour) : Prop :=
  ∃ status r, s.remoteActivation = some (status, r) ∧
    (status.isOk = true → r.Answered → r.Usable R exporters)

/-- `ServerAlive` is answered without an error, and so is `RemoteActivation` if it is sent. -/
def ServerBehaviour.Answers (s : ServerBehaviour) : Prop :=
  ∃ recv result, s.serverAlive = some (recv, result) ∧ (recv.isOk = true →
    result.isOk = true ∧ (s.connectActivation.isOk = true → s.Activates R exporters))

/-! ## The callbacks of a chain that is going on -/

variable {k : κ} {a : Chain κ} {status : NtStatus}

structure Chain.Going (k : κ) (a : Chain κ) : Prop where
  activate : a.activate = { fn := some k }
  binding : a.binding = { fn := some () }
  connects : ∀ c ∈ a.connects, c.ran = [()]

theorem finish_ran {α : Type} (k : α) (status : NtStatus) :
    (finish { fn := some k } status).ran = [k] := by
  unfold finish compositeIsOk
  split_ifs <;> rfl

theorem Chain.Going.connect (h : Going k a) (status : NtStatus) : Going k (a.connect status) := by
  refine ⟨h.activate, h.binding, fun c hc => ?_⟩
  rcases List.mem_append.mp hc with hc | hc
  · exact h.connects c hc
  · rw [List.mem_singleton.mp hc]
    exact finish_ran () status

@[simp] theorem Chain.onBinding_binding (a : Chain κ) (c : CompositeContext Unit) :
    (a.onBinding c).binding = c := by
  unfold onBinding
  generalize c.ran.length - a.binding.ran.length = n
  induction n with
  | zero => rfl
  | succ n ih => exact ih

/-- The binding ends: `complete_activation` runs once, and so does what is registered behind it. -/
theorem Chain.Going.onBinding (h : Going k a) {c : CompositeContext Unit} (hc : c.ran = [()]) :
    ContinuedOnce k (a.onBinding c) := by
  rw [Chain.onBinding, h.binding, hc]
  refine ⟨?_, hc, h.connects⟩
  show (finish a.activate c.status).ran = [k]
  rw [h.activate, finish_ran]

/-- The chain comes to a state in which every continuation has run once exactly if `P`. -/
def Ends (k : κ) (x : Option (Chain κ)) (P : Prop) : Prop :=
  (∃ a, x = some a ∧ ContinuedOnce k a) ↔ P

section Ends

variable {P : Prop} (h : Going k a)
include h

theorem ends_check {next : Chain κ → Option (Chain κ)}
    (hnext : status.isOk = true → Ends k (next a) P) :
    Ends k (a.check status next) (status.isOk = true → P) := by
  cases hstatus : status.isOk with
  | false =>
    refine iff_of_true ⟨a.onBinding (callFn { fn := some (), status, state := .error }), ?_,
      h.onBinding rfl⟩ Bool.noConfusion
    simp [check, compositeIsOk, hstatus, h.binding]
  | true =>
    obtain rfl := (NtStatus.isOk_iff _).mp hstatus
    have hsame : a.onBinding { fn := some () } = a := by
      rw [onBinding, ← h.binding, Nat.sub_self]
      rfl
    have hcheck : a.check .ok next = next (a.onBinding { fn := some () }) := by
      rw [check, h.binding]
      rfl
    rw [hcheck, hsame]
    exact (hnext hstatus).trans (by simp)

theorem error_eq (hbad : status.isOk = false) : a.error status =
    some (a.onBinding { fn := some (), status, state := .error, ran := [()] }) := by
  simp [error, compositeError, compositeIsOk, triggerUnwatched, callFn, hbad, h.binding]

theorem ends_error (hbad : status.isOk = false) : Ends k (a.error status) True :=
  iff_true_intro ⟨_, error_eq h hbad, h.onBinding rfl⟩

theorem ends_silent : Ends k (some a) False :=
  iff_false_intro (by simp [ContinuedOnce, h.activate])

variable (s : ServerBehaviour)

theorem remoteActivationComplete_ends :
    Ends k (remoteActivationComplete R exporters s a) (s.Activates R exporters) := by
  rw [remoteActivationComplete, ServerBehaviour.Activates]
  rcases s.remoteActivation with _ | ⟨status, r⟩
  · exact (ends_silent h).trans (by simp)
  · dsimp only
    cases hstatus : status.isOk with
    | false => exact (ends_error h hstatus).trans (by simp [hstatus])
    | true =>
      rw [if_neg (by decide)]
      refine (ends_check h (P := r.hr.isOk = true → r.Usable R exporters) fun hrecv => ?_).trans
        (by simp [hstatus, ActivationReply.Answered])
      cases hhr : r.hr.isOk with
      | false => exact (ends_error h (by rw [R.werror_isOk, hhr])).trans (by simp)
      | true =>
        rw [← usable_iff R exporters ⟨hrecv, hhr⟩]
        cases dcomActivate R exporters r with
        | none => exact iff_of_false (by simp) (by simp)
        | some activated =>
          refine iff_of_true ⟨_, rfl, h.onBinding ?_⟩ fun _ => rfl
          rw [h.binding]
          rfl

theorem remoteActivationContinue_ends : Ends k (remoteActivationContinue R exporters s a)
    (s.connectActivation.isOk = true → s.Activates R exporters) := by
  rw [remoteActivationContinue, h.binding]
  have hcomplete := remoteActivationComplete_ends R exporters h s
  exact (ends_check h fun _ => ends_check h fun _ => hcomplete).trans (by simp)

/-- An error that `ServerAlive` returns is reported twice. -/
theorem determineRpcBindingContinue2_ends :
    Ends k (determineRpcBindingContinue2 R exporters s a) (s.Answers R exporters) := by
  rw [determineRpcBindingContinue2, ServerBehaviour.Answers]
  rcases s.serverAlive with _ | ⟨recv, result⟩
  · exact (ends_silent h).trans (by simp)
  · refine (ends_check h (P := result.isOk = true ∧ (s.connectActivation.isOk = true →
      s.Activates R exporters)) fun _ => ?_).trans (by simp)
    cases hresult : result.isOk with
    | true =>
      rw [if_neg (by decide), Option.bind_eq_bind, Option.bind_some]
      have hrest := remoteActivationContinue_ends R exporters (h.connect s.connectActivation) s
      have hgoing : a.binding.status.isOk = true := by rw [h.binding]; rfl
      exact (ends_check h fun _ => hrest).trans (by simp [hgoing])
    | false =>
      -- `composite_error` runs the continuation, and the test behind it runs it again
      have hbad : (R.werrorToNtstatus result).isOk = false := by rw [R.werror_isOk, hresult]
      simp only [Bool.not_false, if_true, error_eq h hbad, Option.bind_eq_bind, Option.bind_some,
        check, onBinding_binding, compositeIsOk, hbad, Bool.false_eq_true, if_false]
      refine iff_of_false ?_ (by simp)
      rintro ⟨b, hb, honce⟩
      have htwice := honce.2.1
      rw [← Option.some.inj hb, onBinding_binding] at htwice
      cases htwice

end Ends

/-- **The continuations of an activation.** For every behaviour of the server the chain comes to an
end in which each continuation has run exactly once iff the binding string can be used, no request
is over when it is sent, `ServerAlive` returns no error, and a good reply to `RemoteActivation`
leaves nothing out. -/
theorem activation_continues_once_iff (parsed : NtStatus) (s : ServerBehaviour) (k : κ) :
    (∃ a, dcomActivateSend R exporters parsed s k = some a ∧ ContinuedOnce k a) ↔
      parsed.isOk = true ∧ (s.connectAlive.isOk = true → s.Answers R exporters) := by
  cases hparsed : parsed.isOk with
  | false =>
    -- the end and the registration behind it leave a trigger each
    have hsend : ∀ a, dcomActivateSend R exporters parsed s k = some a →
        a.binding.ran = [(), ()] := by
      simp [dcomActivateSend, hparsed, compositeError, compositeIsOk, triggerUnwatched, addTrigger,
        compositeContinue, CompositeState.isOver, callFn, eventLoopOnce]
    refine iff_of_false ?_ (by simp)
    rintro ⟨a, ha, -, honce, -⟩
    rw [hsend a ha] at honce
    cases honce
  | true =>
    have hgoing : Going k (connect ⟨compositeContinue {} k, compositeContinue {} (), []⟩
        s.connectAlive) :=
      Going.connect ⟨rfl, rfl, by simp⟩ _
    simp only [dcomActivateSend, hparsed, Bool.not_true, Bool.false_eq_true, if_false, true_and]
    exact ends_check hgoing fun _ => determineRpcBindingContinue2_ends R exporters hgoing s

/-- `ServerAlive` returns an error; the connection is lost before the request is sent; or
`RemoteActivation` succeeds without an interface. -/
theorem activation_continues_twice_or_never :
    (dcomActivateSend sampleRegistry [] .ok ⟨.ok, some (.ok, ⟨5⟩), .ok, none⟩ 7).map
        (fun a => (a.activate.ran, a.binding.ran)) = some ([7, 7], [(), ()]) ∧
      (dcomActivateSend sampleRegistry [] .ok ⟨.ok, none, .ok, none⟩ 7).map
        (fun a => (a.activate.ran, a.binding.ran)) = some ([], []) ∧
      (dcomActivateSend sampleRegistry [] .ok
        ⟨.ok, some (.ok, .ok), .ok, some (.ok, oneInterface none ⟨0x80004002⟩)⟩ 7).isNone := by
  decide

end OpenvasSmb.Dcom

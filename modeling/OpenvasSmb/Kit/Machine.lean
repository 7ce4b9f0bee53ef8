import Mathlib.Logic.Basic

/-!
# Runs of a partial machine

A `Machine` answers each input with an output and a next state, or gets stuck (`none`: a fault of
the modelled code). `EachStep P s inputs` says that every step of the run over `inputs` from `s`
satisfies `P`, which sees the state before, the input, the output and the state after; so
properties "in every state a run reaches" are stated. `check` decides whether a condition holds
before every step of a run.

The rules below are the only inductions over runs: step properties that agree under an invariant
agree on runs (`eachStep_congr`), and an invariant kept by the steps that meet a condition gives a
property of every step of the runs that meet it (`EachStep.of_inv`).
-/

namespace OpenvasSmb.Kit

/-- A partial deterministic machine over states `σ`, inputs `ι`, outputs `ο`. -/
structure Machine (σ ι ο : Type) where
  step : σ → ι → Option (ο × σ)

theorem answer_inj {α β : Type} {a a' : α} {b b' : β} (h : some (a, b) = some (a', b')) :
    a = a' ∧ b = b' :=
  Prod.mk.inj (Option.some.inj h)

namespace Machine

variable {σ ι ο : Type} (m : Machine σ ι ο)

/-- Every step of the run over the inputs satisfies `P`. -/
def EachStep (P : σ → ι → ο → σ → Prop) : σ → List ι → Prop
  | _, [] => True
  | s, i :: rest => ∀ o s', m.step s i = some (o, s') → P s i o s' ∧ EachStep P s' rest

/-- The last output and the state after a run that does not get stuck. -/
def run : σ → List ι → Option (Option ο × σ)
  | s, [] => some (none, s)
  | s, [i] => (m.step s i).map fun (o, s') => (some o, s')
  | s, i :: rest => (m.step s i).bind fun (_, s') => run s' rest

/-- Runs the machine and checks a condition before each step. -/
def check (C : σ → ι → Prop) [∀ s i, Decidable (C s i)] : σ → List ι → Bool
  | _, [] => true
  | s, i :: rest =>
    decide (C s i) &&
      match m.step s i with
      | none => true
      | some (_, s') => check C s' rest

@[simp] theorem eachStep_nil (P : σ → ι → ο → σ → Prop) (s : σ) : m.EachStep P s [] :=
  trivial

variable {m}

theorem run_cons {o : Option ο} {s s' : σ} {i : ι} {rest : List ι}
    (h : m.run s (i :: rest) = some (o, s')) :
    ∃ o₁ s₁ o₂, m.step s i = some (o₁, s₁) ∧ m.run s₁ rest = some (o₂, s') := by
  cases rest with
  | nil =>
    obtain ⟨⟨o₁, s₁⟩, hstep, heq⟩ := Option.map_eq_some_iff.mp h
    obtain ⟨-, rfl⟩ := Prod.mk.inj heq
    exact ⟨o₁, s₁, none, hstep, rfl⟩
  | cons =>
    obtain ⟨⟨o₁, s₁⟩, hstep, hrest⟩ := Option.bind_eq_some_iff.mp h
    exact ⟨o₁, s₁, o, hstep, hrest⟩

theorem run_of_step {o : ο} {o' : Option ο} {s s₁ s' : σ} {i : ι} {rest : List ι}
    (hstep : m.step s i = some (o, s₁)) (hrun : m.run s₁ rest = some (o', s')) :
    ∃ o, m.run s (i :: rest) = some (o, s') := by
  cases rest with
  | nil =>
    obtain ⟨-, rfl⟩ := answer_inj hrun
    exact ⟨some o, by rw [run, hstep]; rfl⟩
  | cons => exact ⟨o', by simpa only [run, hstep, Option.bind_some] using hrun⟩

theorem eachStep_true (s : σ) (inputs : List ι) : m.EachStep (fun _ _ _ _ => True) s inputs := by
  induction inputs generalizing s with
  | nil => trivial
  | cons i rest ih => exact fun o s' _ => ⟨trivial, ih s'⟩

/-- A condition on the states before the steps can be checked by running the machine. -/
theorem EachStep.of_check {C : σ → ι → Prop} [∀ s i, Decidable (C s i)] (inputs : List ι) :
    ∀ s, m.check C s inputs = true → m.EachStep (fun s i _ _ => C s i) s inputs := by
  induction inputs with
  | nil => intro s _; trivial
  | cons i rest ih =>
    intro s h o s' hstep
    rw [check, Bool.and_eq_true, decide_eq_true_eq, hstep] at h
    exact ⟨h.1, ih s' h.2⟩

variable {P Q : σ → ι → ο → σ → Prop}

theorem eachStep_cons_congr {s : σ} {i : ι} {rest : List ι}
    (h : ∀ o s', m.step s i = some (o, s') → (P s i o s' ↔ Q s i o s') ∧
      (P s i o s' → (m.EachStep P s' rest ↔ m.EachStep Q s' rest))) :
    m.EachStep P s (i :: rest) ↔ m.EachStep Q s (i :: rest) := by
  refine forall_congr' fun o => forall_congr' fun s' => imp_congr_right fun hstep => ?_
  rw [← (h o s' hstep).1]
  exact and_congr_right (h o s' hstep).2

variable {I : σ → Prop}

/-- Step properties that agree where the invariant holds agree on every run, if the steps that have
them keep the invariant. -/
theorem eachStep_congr
    (hkeep : ∀ s i o s', I s → m.step s i = some (o, s') → P s i o s' → I s')
    (h : ∀ s i o s', I s → m.step s i = some (o, s') → (P s i o s' ↔ Q s i o s')) :
    ∀ inputs s, I s → (m.EachStep P s inputs ↔ m.EachStep Q s inputs) := by
  intro inputs
  induction inputs with
  | nil => intro s _; simp
  | cons i rest ih =>
    intro s hinv
    refine eachStep_cons_congr fun o s' hstep => ⟨h s i o s' hinv hstep, fun hp => ?_⟩
    exact ih s' (hkeep s i o s' hinv hstep hp)

/-- **The invariant rule.** If the steps that meet `C` keep the invariant and satisfy `P` under it,
every step of a run whose steps all meet `C` satisfies `P`. -/
theorem EachStep.of_inv {C P : σ → ι → ο → σ → Prop}
    (h : ∀ s i o s', I s → m.step s i = some (o, s') → C s i o s' → I s' ∧ P s i o s') :
    ∀ inputs s, I s → m.EachStep C s inputs → m.EachStep P s inputs := by
  intro inputs
  induction inputs with
  | nil => intro s _ _; trivial
  | cons i rest ih =>
    intro s hinv hC o s' hstep
    obtain ⟨hc, hrest⟩ := hC o s' hstep
    obtain ⟨hinv', hP⟩ := h s i o s' hinv hstep hc
    exact ⟨hP, ih s' hinv' hrest⟩

theorem EachStep.mono (h : ∀ s i o s', P s i o s' → Q s i o s') :
    ∀ inputs s, m.EachStep P s inputs → m.EachStep Q s inputs := fun inputs s =>
  EachStep.of_inv (I := fun _ => True) (fun s i o s' _ _ hP => ⟨trivial, h s i o s' hP⟩) inputs s
    trivial

/-- An invariant kept by the steps that meet `C` holds where a run whose steps all meet it ends. -/
theorem EachStep.reached {inputs : List ι} {s s' : σ} {o : Option ο}
    (h : m.EachStep P s inputs)
    (hkeep : ∀ s i o s', I s → m.step s i = some (o, s') → P s i o s' → I s') (hinv : I s)
    (hrun : m.run s inputs = some (o, s')) : I s' := by
  induction inputs generalizing s o with
  | nil =>
    obtain ⟨-, rfl⟩ := answer_inj hrun
    exact hinv
  | cons i rest ih =>
    obtain ⟨o₁, s₁, o₂, hstep, hrest⟩ := run_cons hrun
    obtain ⟨hP, hEach⟩ := h o₁ s₁ hstep
    exact ih hEach (hkeep s i o₁ s₁ hinv hstep hP) hrest

end Machine

end OpenvasSmb.Kit

import OpenvasSmb.Composite.Context

/-!
# How often a continuation runs

A composite function that ends unwatched schedules a trigger, and `composite_continue` schedules
another one for a context that is over. If the event loop has not run in between, both triggers
find the continuation; in every other order it runs once (`continuation_runs_once_iff`).
-/

namespace OpenvasSmb.Composite

open CompositeContext List Step Option

variable {κ : Type} {k : κ} {c c' : CompositeContext κ} {steps : List (Step κ)}

/-- The composite function ends. -/
def Step.isFinish : Step κ → Bool
  | .done | .error _ => true
  | .continue _ | .loop => false

def Step.registers : Step κ → Option κ
  | .continue k => some k
  | _ => none

theorem step_finish {s : Step κ} (hs : s.isFinish = true) (h : step c s = some c') :
    c'.state.isOver = true ∧ c'.fn = c.fn ∧ c'.ran = c.ran ++ c.fn.toList ∧
      c'.triggers = c.triggers + if !c.usedWait && c.fn.isNone then 1 else 0 := by
  cases s with
  | done =>
    cases h
    simp only [compositeDone, callFn, triggerUnwatched, addTrigger]
    split <;> simp [CompositeState.isOver]
  | error status =>
    simp only [step, compositeError, compositeIsOk, callFn, triggerUnwatched, addTrigger] at h
    split at h
    · cases h
    · cases h
      split <;> simp [CompositeState.isOver]
  | «continue» | loop => cases hs

/-- Behind the end and the registration there is only the event loop, and every trigger runs the
continuation. -/
theorem ran_of_loops (hfn : c.fn = some k) (hfinish : steps.countP isFinish = 0)
    (hreg : steps.filterMap registers = []) (hrun : run c steps = some c')
    (hidle : c'.triggers = 0) : c'.ran = c.ran ++ List.replicate c.triggers k := by
  induction steps generalizing c with
  | nil =>
    cases hrun
    simp [hidle]
  | cons s rest ih =>
    cases s with
    | done | error status => simp [isFinish] at hfinish
    | «continue» k' => simp [registers] at hreg
    | loop =>
      have hnext := ih (c := eventLoopOnce c) (by rw [eventLoopOnce]; split <;> exact hfn)
        hfinish hreg hrun
      rw [hnext, eventLoopOnce]
      cases ht : c.triggers with
      | zero => simp [ht]
      | succ n => simp [callFn, hfn, replicate_succ]

/-- A registration before the end: the end runs the continuation. -/
theorem ran_of_registered (hfn : c.fn = some k) (htriggers : c.triggers = 0) (hran : c.ran = [])
    (hfinish : steps.countP isFinish = 1) (hreg : steps.filterMap registers = [])
    (hrun : run c steps = some c') (hidle : c'.triggers = 0) : c'.ran = [k] := by
  induction steps with
  | nil => cases hfinish
  | cons s rest ih =>
    by_cases hs : s.isFinish = true
    · rw [run, foldlM_cons, bind_eq_bind, bind_eq_some_iff] at hrun
      obtain ⟨c₁, hstep, hrun⟩ := hrun
      obtain ⟨-, hfn₁, hran₁, htriggers₁⟩ := step_finish hs hstep
      rw [ran_of_loops (hfn₁.trans hfn) (by simpa [hs] using hfinish)
        (filterMap_eq_nil_iff.mpr fun s hs => filterMap_eq_nil_iff.mp hreg s
          (mem_cons_of_mem _ hs)) hrun hidle, hran₁, htriggers₁]
      simp [hfn, htriggers, hran]
    · cases s with
      | done | error status => cases hs rfl
      | «continue» k' => simp [registers] at hreg
      | loop =>
        have hsame : eventLoopOnce c = c := by rw [eventLoopOnce, if_pos htriggers]
        refine ih hfinish hreg ?_
        rwa [run, ← hsame]

/-- An end before the registration: the trigger it left is gone unless the registration comes
next. -/
theorem ran_of_finished (hover : c.state.isOver = true) (hfn : c.fn = none) (hran : c.ran = [])
    (htriggers : c.triggers ≤ 1) (hfinish : steps.countP isFinish = 0)
    (hreg : steps.filterMap registers = [k]) (hrun : run c steps = some c')
    (hidle : c'.triggers = 0) :
    c'.ran = [k] ↔ c.triggers = 0 ∨ steps.head? ≠ some (.continue k) := by
  induction steps generalizing c with
  | nil => cases hreg
  | cons s rest ih =>
    cases s with
    | done | error status => simp [isFinish] at hfinish
    | «continue» k' =>
      obtain ⟨rfl, hrest⟩ := cons.inj hreg
      have hfinish : rest.countP isFinish = 0 := hfinish
      have hlast := ran_of_loops (c := compositeContinue c k') (k := k')
        (by simp only [compositeContinue]; split <;> rfl) hfinish hrest hrun hidle
      have hcontinue : compositeContinue c k' =
          { c with fn := some k', triggers := c.triggers + 1 } := by
        simp [compositeContinue, hover, addTrigger]
      rw [hlast, hcontinue]
      simp [hran, replicate_succ]
    | loop =>
      -- the trigger fires and finds no continuation
      have hloop : (eventLoopOnce c).triggers = 0 ∧ (eventLoopOnce c).ran = [] ∧
          (eventLoopOnce c).fn = none ∧ (eventLoopOnce c).state.isOver = true := by
        rw [eventLoopOnce]
        split
        · exact ⟨‹_›, hran, hfn, hover⟩
        · exact ⟨by simp only [callFn]; omega, by simp [callFn, hran, hfn], hfn, hover⟩
      have hnext := ih (c := eventLoopOnce c) hloop.2.2.2 hloop.2.2.1 hloop.2.1
        (by omega) hfinish hreg hrun
      simp [hnext, hloop.1]

/-- **How often the continuation runs.** In every order of one end, one registration and any number
of rounds of the event loop, up to a state with nothing scheduled, it has run exactly once iff the
context is waited for, or the registration does not follow the end before the loop has run. -/
theorem continuation_runs_once_iff (k : κ) (usedWait : Bool) (steps : List (Step κ))
    (c' : CompositeContext κ) (hfinish : steps.countP isFinish = 1)
    (hreg : steps.filterMap registers = [k]) (hrun : run { usedWait } steps = some c')
    (hidle : c'.triggers = 0) :
    c'.ran = [k] ↔
      usedWait = true ∨ ¬ ∃ s, s.isFinish = true ∧ [s, .continue k] <:+: steps := by
  induction steps with
  | nil => cases hfinish
  | cons s rest ih =>
    by_cases hs : s.isFinish = true
    · rw [run, foldlM_cons, bind_eq_bind, bind_eq_some_iff] at hrun
      obtain ⟨c₁, hstep, hrun⟩ := hrun
      obtain ⟨hover, hfn, hran, htriggers⟩ := step_finish hs hstep
      have hrest : rest.countP isFinish = 0 := by simpa [hs] using hfinish
      have hreg' : rest.filterMap registers = [k] := by
        cases s <;> first | exact hreg | cases hs
      have hnext : (∃ s', s'.isFinish = true ∧ [s', .continue k] <:+: s :: rest) ↔
          rest.head? = some (.continue k) := by
        constructor
        · rintro ⟨s', hs', hinfix⟩
          rcases infix_cons_iff.mp hinfix with hprefix | hinfix
          · obtain ⟨tail, rfl⟩ := (cons_prefix_cons.mp hprefix).2
            rfl
          · have hmem : s' ∈ rest := hinfix.subset (by simp)
            exact absurd hs' (countP_eq_zero.mp hrest s' hmem)
        · intro hhead
          obtain ⟨tail, rfl⟩ : ∃ tail, rest = .continue k :: tail := by
            cases rest with
            | nil => cases hhead
            | cons a tail => exact ⟨tail, by rw [some.inj hhead]⟩
          exact ⟨s, hs, ⟨[], tail, rfl⟩⟩
      rw [ran_of_finished hover hfn (by simp [hran]) (by rw [htriggers]; split <;> simp) hrest hreg'
        hrun hidle, hnext, htriggers]
      cases usedWait <;> simp
    · cases s with
      | done | error status => cases hs rfl
      | «continue» k' =>
        obtain ⟨rfl, hrest⟩ := cons.inj hreg
        have hfinish : rest.countP Step.isFinish = 1 := hfinish
        refine iff_of_true (ran_of_registered (c := { usedWait, fn := some k' }) rfl rfl rfl
          hfinish hrest hrun hidle) (.inr ?_)
        rintro ⟨s', hs', hinfix⟩
        rcases infix_cons_iff.mp hinfix with hprefix | hinfix
        · rw [(cons_prefix_cons.mp hprefix).1] at hs'
          cases hs'
        · have hmem : Step.continue k' ∈ rest := hinfix.subset (by simp)
          exact absurd (filterMap_eq_nil_iff.mp hrest _ hmem) (by simp [Step.registers])
      | loop =>
        rw [ih hfinish hreg hrun]
        refine or_congr_right (not_congr (exists_congr fun s' => and_congr_right fun hs' => ?_))
        rw [infix_cons_iff, or_iff_right]
        intro hprefix
        rw [(cons_prefix_cons.mp hprefix).1] at hs'
        cases hs'

/-- The loop runs once between the end and the registration. -/
theorem continuation_runs_once_after_loop :
    ∃ c', run { usedWait := false } [.done, .loop, .continue 7, .loop] = some c' ∧
      (c'.ran = [7] ↔ false = true ∨ ¬ ∃ s : Step Nat, s.isFinish = true ∧
        [s, .continue 7] <:+: [.done, .loop, .continue 7, .loop]) :=
  ⟨_, rfl, continuation_runs_once_iff 7 false _ _ (by decide) (by decide) rfl (by decide)⟩

/-- **The continuation runs twice** when it is registered right after the end. -/
theorem continuation_runs_twice :
    (run { usedWait := false } [.done, .continue 7, .loop, .loop]).map
      (fun c => (c.triggers, c.ran)) = some (0, [7, 7]) := by
  decide

end OpenvasSmb.Composite

import Mathlib.Logic.Function.Basic

namespace ThreadIpc.Lib

variable {σ α : Type*}

/-- The states reached from `init` by steps whose actions all satisfy `ok`. -/
inductive Reachable (step : σ → α → Option σ) (ok : σ → α → Prop) (init : σ) : σ → Prop
  | start : Reachable step ok init init
  | next {before after : σ} {action : α} : Reachable step ok init before → ok before action →
      step before action = some after → Reachable step ok init after

def anyAction : σ → α → Prop := fun _ _ => True

variable {step : σ → α → Option σ} {ok : σ → α → Prop} {init : σ}

theorem Reachable.invariant {Inv : σ → Prop} (start : Inv init)
    (next : ∀ before action after, Inv before → ok before action →
      step before action = some after → Inv after)
    {state : σ} (reach : Reachable step ok init state) : Inv state := by
  induction reach with
  | start => exact start
  | next _ allowed action ih => exact next _ _ _ ih allowed action

theorem Reachable.invariant_beside {Known Inv : σ → Prop}
    (known : ∀ state, Reachable step ok init state → Known state) (start : Inv init)
    (next : ∀ before action after, Known before → Inv before → ok before action →
      step before action = some after → Inv after)
    {state : σ} (reach : Reachable step ok init state) : Inv state := by
  induction reach with
  | start => exact start
  | next reach allowed action ih => exact next _ _ _ (known _ reach) ih allowed action

theorem Reachable.weaken {ok' : σ → α → Prop} (implied : ∀ state action, ok state action → ok' state action)
    {state : σ} (reach : Reachable step ok init state) : Reachable step ok' init state := by
  induction reach with
  | start => exact .start
  | next _ allowed moved ih => exact .next ih (implied _ _ allowed) moved

theorem Reachable.trans {middle after : σ} (first : Reachable step ok init middle)
    (later : Reachable step ok middle after) : Reachable step ok init after := by
  induction later with
  | start => exact first
  | next _ allowed moved ih => exact .next ih allowed moved

def run (step : σ → α → Option σ) (ok : σ → α → Prop) [∀ s a, Decidable (ok s a)] :
    σ → List α → Option σ
  | state, [] => some state
  | state, action :: rest =>
      if ok state action then (step state action).bind fun after => run step ok after rest else none

instance (s : σ) (a : α) : Decidable (anyAction s a) := inferInstanceAs (Decidable True)

theorem Reachable.run [∀ s a, Decidable (ok s a)] {state : σ} (actions : List α)
    (reach : Reachable step ok init state) (after : σ)
    (ran : Lib.run step ok state actions = some after) : Reachable step ok init after := by
  induction actions generalizing state with
  | nil =>
      simp only [Lib.run, Option.some.injEq] at ran
      exact ran ▸ reach
  | cons action rest ih =>
      rw [Lib.run] at ran
      split at ran
      · rename_i allowed
        obtain ⟨middle, moved, ran⟩ := Option.bind_eq_some_iff.mp ran
        exact ih (.next reach allowed moved) ran
      · contradiction

def final (step : σ → α → Option σ) (ok : σ → α → Prop) [∀ s a, Decidable (ok s a)] (init : σ)
    (actions : List α) (enabled : (run step ok init actions).isSome) : σ :=
  (run step ok init actions).get enabled

theorem reachable_final [∀ s a, Decidable (ok s a)] (actions : List α)
    (enabled : (run step ok init actions).isSome) :
    Reachable step ok init (final step ok init actions enabled) :=
  Reachable.run actions .start _ (Option.some_get enabled).symm

end ThreadIpc.Lib

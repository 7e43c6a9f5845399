import Mathlib.Logic.Function.Basic

namespace ThreadIpc.Lib

variable {T P κ : Type*} {owns : P → Option κ} {phase : T → P}

/-- What a thread owns at its place in the code, no other thread owns. -/
def Apart (owns : P → Option κ) (phase : T → P) : Prop :=
  ∀ first second key, owns (phase first) = some key → owns (phase second) = some key → first = second

theorem Apart.other (apart : Apart owns phase) {thread : T} {key : κ} (own : owns (phase thread) = some key) :
    ∀ other, other ≠ thread → owns (phase other) ≠ some key :=
  fun other different has => different (apart other thread key has own)

theorem Apart.update [DecidableEq T] {thread : T} {target : P} (apart : Apart owns phase)
    (own : ∀ key, owns target = some key → ∀ other, other ≠ thread → owns (phase other) ≠ some key) :
    Apart owns (Function.update phase thread target) := by
  intro first second key has also
  by_cases one : first = thread
  · by_cases two : second = thread
    · rw [one, two]
    · subst one
      simp only [Function.update_self, Function.update_of_ne two] at has also
      exact absurd also (own key has second two)
  · by_cases two : second = thread
    · subst two
      simp only [Function.update_self, Function.update_of_ne one] at has also
      exact absurd has (own key also first one)
    · simp only [Function.update_of_ne one, Function.update_of_ne two] at has also
      exact apart first second key has also

theorem Apart.keep [DecidableEq T] {thread : T} {target : P} (apart : Apart owns phase)
    (kept : ∀ key, owns target = some key → owns (phase thread) = some key) :
    Apart owns (Function.update phase thread target) :=
  apart.update fun key has => apart.other (kept key has)

end ThreadIpc.Lib
